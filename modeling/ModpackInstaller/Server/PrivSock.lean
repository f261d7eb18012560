import ModpackInstaller.Control.AddressExchange
import ModpackInstaller.Library.Processes

/-!
# The privileged parent

A session runs in two processes that share a pair of sockets: an unprivileged child that
talks to the client, and a parent that opens data connections and changes owners for it.
{lit}`privsock.c` is the protocol between them, {lit}`postprivparent.c` the parent,
{lit}`twoprocess.c` the calls of the child and {lit}`privops.c` what the parent does.  With
{lit}`oneprocess.c` one process does it itself.

Main results:

- Theorem {lit}`two_process_refines`: two processes do what one process does, in every
  order of their steps, and leave nothing in their sockets.
- Theorem {lit}`parent_permitted`: whatever is written to the parent, it connects to the
  client only, passes on connections that it has made or accepted itself, and gives away files
  of the anonymous user only.

Signals are not modelled: where the parent dies, the child reads the end of its socket here,
and a child that has not died leaves its parent waiting.
-/

namespace ModpackInstaller
namespace Server
namespace PrivSock

open Library Control.AddressExchange

/-! ## The kernel -/

/-- An open file. -/
abbrev File := Nat

inductive Errno where
  | addrinuse
  | acces
  | other
deriving DecidableEq, Repr

/-- What `fstat` says, as far as it is looked at. -/
structure Statbuf where
  uid : Int
  regfile : Bool
deriving DecidableEq, Repr

/-- The system calls of the parent. -/
inductive Call where
  | socket (ipv6 : Bool)
  | setReuseaddr (fd : File)
  | bind (fd : File) (addr : Sockaddr)
  | listen (fd : File)
  /-- `vsf_sysutil_connect_timeout` -/
  | connect (fd : File) (addr : Sockaddr)
  /-- `vsf_sysutil_accept_timeout` -/
  | accept (fd : File)
  | close (fd : File)
  | fstat (fd : File)
  | fchown (fd : File) (uid : Int)
  /-- `vsf_sysutil_get_random_byte` -/
  | randomByte
deriving DecidableEq

/-- What a system call brings. -/
abbrev Call.Result : Call → Type
  | socket _ => Option File
  | setReuseaddr _ => Bool
  | bind _ _ => Option Errno
  | listen _ => Option Errno
  | connect _ _ => Bool
  | accept _ => Option (File × Sockaddr)
  | close _ => Unit
  | fstat _ => Option Statbuf
  | fchown _ _ => Bool
  | randomByte => Byte

/-- A kernel, with the network and the file system as its state. -/
structure Kernel (K : Type) where
  answer : (c : Call) → K → c.Result × K

/-- What the parent has done. -/
inductive Deed where
  | asked (c : Call) (result : c.Result)
  /-- A descriptor was passed to the child. -/
  | passed (fd : File)
  /-- A descriptor that the child has too was closed; the open file stays. -/
  | dropped (fd : File)

/-! ## Sessions -/

/-- The configuration, and what of the session does not change. -/
structure Config where
  localAddr : Sockaddr
  connectFromPort20 : Bool
  ftpDataPort : Nat
  pasvMinPort : Nat
  pasvMaxPort : Nat
  acceptTimeout : Nat
  pasvPromiscuous : Bool
  chownUploads : Bool
  anonUploadChownUid : Int
  anonFtpUid : Int
  guestUserUid : Int

/-- The process that does the privileged operations. -/
structure Parent (K : Type) where
  /-- `none` is -1. -/
  pasvListenFd : Option File
  remoteAddr : Sockaddr
  kernel : K
  deeds : List Deed

inductive Fault where
  | die (text : String)
  /-- `FD_SET` of -1. -/
  | wild
deriving DecidableEq, Repr

/-- A byte in a socket, with a descriptor that comes along. -/
structure Item where
  byte : Byte
  fd : Option File
deriving DecidableEq, Repr

/-- A process of the session. -/
abbrev Process (σ α : Type) := Proc Item Fault σ α

variable {K : Type} (kernel : Kernel K) (cfg : Config)

def die {σ α : Type} (text : String) : Process σ α :=
  .dead (.die text)

/-- The parent behind a system call. -/
def Parent.ask (s : Parent K) (c : Call) : Parent K :=
  { s with
    kernel := (kernel.answer c s.kernel).2
    deeds := s.deeds ++ [.asked c (kernel.answer c s.kernel).1] }

/-- A system call. -/
def sys (c : Call) : Process (Parent K) c.Result :=
  .act (fun s => s.ask kernel c) fun s => .done (kernel.answer c s.kernel).1

/-- Look at the session. -/
def session : Process (Parent K) (Parent K) :=
  .act id .done

/-- Change the session. -/
def setSession (change : Parent K → Parent K) : Process (Parent K) Unit :=
  .act change fun _ => .done ()

/-! ## Privileged operations -/

/-- `vsf_sysutil_get_ipsock`, `vsf_sysutil_get_ipv4_sock`, `vsf_sysutil_get_ipv6_sock` -/
def getIpsock (addr : Sockaddr) : Process (Parent K) File := do
  match ← sys kernel (.socket addr.isIpv6) with
  | some fd => pure fd
  | none => die "socket"

/-- `vsf_sysutil_activate_reuseaddr` -/
def activateReuseaddr (fd : File) : Process (Parent K) Unit := do
  if ← sys kernel (.setReuseaddr fd) then pure () else die "setsockopt: reuseaddr"

/-- The loop in `vsf_privop_get_ftp_port_sock`, with the number of attempts left. -/
def bindDataPort (s : File) (addr : Sockaddr) : Nat → Process (Parent K) Unit
  | 0 => pure ()
  | left + 1 => do
    match ← sys kernel (.bind s addr) with
    | none => pure ()
    | some e =>
      if e ≠ .addrinuse ∨ left = 0 then die "vsf_sysutil_bind" else bindDataPort s addr left

/-- `vsf_sysutil_is_port_reserved` -/
def isPortReserved (port : Port) : Bool :=
  port.val < 1024

/-- `port` in `vsf_privop_get_ftp_port_sock` -/
def dataPort : Port :=
  toPort (if cfg.connectFromPort20 then cfg.ftpDataPort else 0)

/-- The address to connect to; `usePortSockaddr` is `p_port_sockaddr` when it is used. -/
def connectTo (remotePort : Port) (usePortSockaddr : Option Sockaddr) :
    Process (Parent K) Sockaddr :=
  match usePortSockaddr with
  | some addr => pure addr
  | none => do
    setSession fun s => { s with remoteAddr := s.remoteAddr.setPort remotePort }
    pure (← session).remoteAddr

/-- `vsf_privop_get_ftp_port_sock`; `none` is -1. -/
def vsfPrivopGetFtpPortSock (remotePort : Port) (usePortSockaddr : Option Sockaddr) :
    Process (Parent K) (Option File) := do
  let s ← getIpsock kernel cfg.localAddr
  if isPortReserved remotePort then die "Illegal port request"
  else
    activateReuseaddr kernel s
    bindDataPort kernel s (cfg.localAddr.clone.setPort (dataPort cfg)) 2
    let addr ← connectTo remotePort usePortSockaddr
    if ← sys kernel (.connect s addr) then pure (some s)
    else
      sys kernel (.close s)
      pure none

/-- `vsf_privop_pasv_cleanup` -/
def vsfPrivopPasvCleanup : Process (Parent K) Unit := do
  match (← session).pasvListenFd with
  | some fd =>
    sys kernel (.close fd)
    setSession fun s => { s with pasvListenFd := none }
  | none => pure ()

/-- `vsf_privop_pasv_active` -/
def vsfPrivopPasvActive : Process (Parent K) Int := do
  pure (if (← session).pasvListenFd.isSome then 1 else 0)

/-- `min_port` in `vsf_privop_pasv_listen` -/
def minPort : Nat :=
  if 1024 < cfg.pasvMinPort ∧ cfg.pasvMinPort ≤ 65535 then cfg.pasvMinPort else 1024

/-- `max_port` in `vsf_privop_pasv_listen` -/
def maxPort : Nat :=
  if minPort cfg ≤ cfg.pasvMaxPort ∧ cfg.pasvMaxPort < 65535 then cfg.pasvMaxPort else 65535

/-- `scaled_port`: the numbers are so small that they are exact in a `double`. -/
def scaledPort (high low : Byte) : Port :=
  toPort
    (minPort cfg + (high.val * 256 + low.val) * (maxPort cfg - minPort cfg + 1) / 65536)

/-- `vsf_sysutil_listen` -/
def sysutilListen (fd : File) : Process (Parent K) (Option Errno) := do
  match ← sys kernel (.listen fd) with
  | none => pure none
  | some e => if e ≠ .addrinuse then die "listen" else pure (some e)

/-- `bind` and `listen` in the loop of `vsf_privop_pasv_listen` -/
def bindAndListen (fd : File) (addr : Sockaddr) : Process (Parent K) (Option Errno) := do
  match ← sys kernel (.bind fd addr) with
  | some e => pure (some e)
  | none => sysutilListen kernel fd

/-- The loop in `vsf_privop_pasv_listen`, with the number of attempts left. -/
def pasvBind (fd : File) : Nat → Process (Parent K) Port
  | 0 => die "vsf_sysutil_bind"
  | left + 1 => do
    let high ← sys kernel .randomByte
    let low ← sys kernel .randomByte
    let port := scaledPort cfg high low
    match ← bindAndListen kernel fd (cfg.localAddr.clone.setPort port) with
    | none => pure port
    | some .other => die "vsf_sysutil_bind / listen"
    | some _ => pasvBind fd left

/-- `vsf_privop_pasv_listen` -/
def vsfPrivopPasvListen : Process (Parent K) Port := do
  let fd ← getIpsock kernel cfg.localAddr
  setSession fun s => { s with pasvListenFd := some fd }
  activateReuseaddr kernel fd
  pasvBind kernel cfg fd 9

/-- `vsf_privop_accept_pasv`; an error is the negative number that is returned. -/
def vsfPrivopAcceptPasv : Process (Parent K) (Except Int File) := do
  let s ← session
  match s.pasvListenFd with
  | none => if 0 < cfg.acceptTimeout then .dead .wild else pure (.error (-1))
  | some fd =>
    match ← sys kernel (.accept fd) with
    | none => pure (.error (-1))
    | some (remoteFd, acceptAddr) =>
      if ¬ cfg.pasvPromiscuous ∧ ¬ s.remoteAddr.addrEqual acceptAddr then
        sys kernel (.close remoteFd)
        pure (.error (-2))
      else pure (.ok remoteFd)

/-- `vsf_privop_do_file_chown` -/
def vsfPrivopDoFileChown (fd : File) : Process (Parent K) Unit := do
  match ← sys kernel (.fstat fd) with
  | none => die "fstat"
  | some st =>
    if st.uid = cfg.anonUploadChownUid then pure ()
    else if cfg.anonUploadChownUid = -1 ∨ ¬ st.regfile ∨
        (st.uid ≠ cfg.anonFtpUid ∧ st.uid ≠ cfg.guestUserUid) then
      die "invalid fd in cmd_process_chown"
    else if ← sys kernel (.fchown fd cfg.anonUploadChownUid) then pure ()
    else die "fchown"

/-! ## The socket -/

/-- The bytes of an `int` in memory. -/
def intBytes (n : Int) : List Byte :=
  let u := (n % 4294967296).toNat
  [toByte u, toByte (u / 256), toByte (u / 65536),
    toByte (u / 16777216)]

/-- The `int` that has these bytes. -/
def bytesInt (bs : List Byte) : Int :=
  let u : Nat := bs.foldr (fun b u => b.val + 256 * u) 0
  if u < 2147483648 then (u : Int) else (u : Int) - 4294967296

/-- `write` of bytes, without descriptors. -/
def plain (bs : List Byte) : List Item :=
  bs.map fun b => ⟨b, none⟩

section Messages

variable {σ : Type}

/-- Read a `char`, or die at the end of the socket. -/
def privSockGetChar (text : String) : Process σ Byte :=
  .recv fun
    | none => die text
    | some i => .done i.byte

/-- `priv_sock_get_cmd` -/
def privSockGetCmd : Process σ Byte :=
  privSockGetChar "priv_sock_get_cmd"

/-- `priv_sock_get_result` -/
def privSockGetResult : Process σ Byte :=
  privSockGetChar "priv_sock_get_result"

/-- `priv_sock_send_cmd`, `priv_sock_send_result` -/
def privSockSendChar (c : Byte) : Process σ Unit :=
  .send ⟨c, none⟩ (.done ())

/-- `priv_sock_get_int` -/
def privSockGetInt : Process σ Int := do
  match ← .recvN 4 with
  | none => die "priv_sock_get_int"
  | some items => pure (bytesInt (items.map (·.byte)))

/-- `priv_sock_send_int` -/
def privSockSendInt (n : Int) : Process σ Unit :=
  .sendAll (plain (intBytes n))

/-- `vsf_sysutil_recv_fd` -/
def privSockRecvFd : Process σ File :=
  .recv fun
    | none => die "recvmsg"
    | some i =>
      match i.fd with
      | some fd => .done fd
      | none => die "no passed fd"

/-- `vsf_sysutil_send_fd` -/
def privSockSendFd (fd : File) : Process σ Unit :=
  .send ⟨toByte 0, some fd⟩ (.done ())

end Messages

/-- `PRIV_SOCK_CHOWN` and its like, as far as this parent knows them. -/
inductive Cmd where
  | chown
  | getDataSock
  | pasvCleanup
  | pasvActive
  | pasvListen
  | pasvAccept
deriving DecidableEq, Repr

def Cmd.code : Cmd → Byte
  | chown => toByte 2
  | getDataSock => toByte 3
  | pasvCleanup => toByte 10
  | pasvActive => toByte 11
  | pasvListen => toByte 12
  | pasvAccept => toByte 13

/-- `PRIV_SOCK_RESULT_OK` -/
def resultOk : Byte := toByte 1

/-- `PRIV_SOCK_RESULT_BAD` -/
def resultBad : Byte := toByte 2

/-- A conversion to `unsigned short`. -/
def intPort (n : Int) : Port :=
  toPort (n % 65536).toNat

/-! ## The parent -/

/-- `priv_sock_send_fd` in the parent, noted. -/
def passFd (fd : File) : Process (Parent K) Unit := do
  setSession fun s => { s with deeds := s.deeds ++ [.passed fd] }
  privSockSendFd fd

/-- `vsf_sysutil_close` of a descriptor that the child has too, noted. -/
def dropFd (fd : File) : Process (Parent K) Unit :=
  setSession fun s => { s with deeds := s.deeds ++ [.dropped fd] }

/-- `cmd_process_chown` -/
def cmdProcessChown : Process (Parent K) Unit := do
  let theFd ← privSockRecvFd
  vsfPrivopDoFileChown kernel cfg theFd
  dropFd theFd
  privSockSendChar resultOk

/-- `cmd_process_get_data_sock` -/
def cmdProcessGetDataSock : Process (Parent K) Unit := do
  let port := intPort (← privSockGetInt)
  match ← vsfPrivopGetFtpPortSock kernel cfg port none with
  | none => privSockSendChar resultBad
  | some sockFd =>
    privSockSendChar resultOk
    passFd sockFd
    dropFd sockFd

/-- `cmd_process_pasv_cleanup` -/
def cmdProcessPasvCleanup : Process (Parent K) Unit := do
  vsfPrivopPasvCleanup kernel
  privSockSendChar resultOk

/-- `cmd_process_pasv_active` -/
def cmdProcessPasvActive : Process (Parent K) Unit := do
  privSockSendInt (← vsfPrivopPasvActive)

/-- `cmd_process_pasv_listen` -/
def cmdProcessPasvListen : Process (Parent K) Unit := do
  privSockSendInt (← vsfPrivopPasvListen kernel cfg).val

/-- `cmd_process_pasv_accept` -/
def cmdProcessPasvAccept : Process (Parent K) Unit := do
  match ← vsfPrivopAcceptPasv kernel cfg with
  | .error e =>
    privSockSendChar resultBad
    privSockSendInt e
  | .ok fd =>
    privSockSendChar resultOk
    passFd fd
    dropFd fd

/-- `process_post_login_req` behind the command. -/
def dispatch (cmd : Byte) : Process (Parent K) Unit :=
  if cfg.chownUploads ∧ cmd = Cmd.chown.code then cmdProcessChown kernel cfg
  else if cmd = Cmd.getDataSock.code then cmdProcessGetDataSock kernel cfg
  else if cmd = Cmd.pasvCleanup.code then cmdProcessPasvCleanup kernel
  else if cmd = Cmd.pasvActive.code then cmdProcessPasvActive
  else if cmd = Cmd.pasvListen.code then cmdProcessPasvListen kernel cfg
  else if cmd = Cmd.pasvAccept.code then cmdProcessPasvAccept kernel cfg
  else die "bad request in process_post_login_req"

/-- `process_post_login_req` -/
def processPostLoginReq : Process (Parent K) Unit := do
  let cmd ← privSockGetCmd
  dispatch kernel cfg cmd

/-- The loop of `vsf_priv_parent_postlogin`. -/
def vsfPrivParentPostlogin : Unit → Option (Process (Parent K) Unit) :=
  fun _ => some (processPostLoginReq kernel cfg)

/-! ## The child -/

/-- What the child asks for. -/
inductive Request where
  /-- With the address of `PORT`. -/
  | getPrivDataSock (portSockaddr : Sockaddr)
  | pasvCleanup
  | pasvActive
  | listen
  | getPasvFd
  | chownUpload (fd : File)
deriving DecidableEq

/-- What it is told. -/
abbrev Request.Answer : Request → Type
  | getPrivDataSock _ => Option File
  | pasvCleanup => Unit
  | pasvActive => Int
  | listen => Port
  | getPasvFd => Except Int File
  | chownUpload _ => Unit

section TwoProcess

variable {σ : Type}

/-- `vsf_two_process_get_priv_data_sock` -/
def vsfTwoProcessGetPrivDataSock (portSockaddr : Sockaddr) : Process σ (Option File) := do
  privSockSendChar Cmd.getDataSock.code
  privSockSendInt portSockaddr.port.val
  let res ← privSockGetResult
  if res = resultBad then pure none
  else if res ≠ resultOk then die "could not get privileged socket"
  else
    let fd ← privSockRecvFd
    pure (some fd)

/-- `vsf_two_process_pasv_cleanup` -/
def vsfTwoProcessPasvCleanup : Process σ Unit := do
  privSockSendChar Cmd.pasvCleanup.code
  let res ← privSockGetResult
  if res ≠ resultOk then die "could not clean up socket" else pure ()

/-- `vsf_two_process_pasv_active` -/
def vsfTwoProcessPasvActive : Process σ Int := do
  privSockSendChar Cmd.pasvActive.code
  privSockGetInt

/-- `vsf_two_process_listen` -/
def vsfTwoProcessListen : Process σ Port := do
  privSockSendChar Cmd.pasvListen.code
  let port ← privSockGetInt
  pure (intPort port)

/-- `vsf_two_process_get_pasv_fd` -/
def vsfTwoProcessGetPasvFd : Process σ (Except Int File) := do
  privSockSendChar Cmd.pasvAccept.code
  let res ← privSockGetResult
  if res = resultBad then
    let e ← privSockGetInt
    pure (.error e)
  else if res ≠ resultOk then die "could not accept on listening socket"
  else
    let fd ← privSockRecvFd
    pure (.ok fd)

/-- `vsf_two_process_chown_upload` -/
def vsfTwoProcessChownUpload (fd : File) : Process σ Unit := do
  privSockSendChar Cmd.chown.code
  privSockSendFd fd
  let res ← privSockGetResult
  if res ≠ resultOk then die "unexpected failure in vsf_two_process_chown_upload" else pure ()

/-- The calls of `twoprocess.c`. -/
def twoProcess : (r : Request) → Process σ r.Answer
  | .getPrivDataSock portSockaddr => vsfTwoProcessGetPrivDataSock portSockaddr
  | .pasvCleanup => vsfTwoProcessPasvCleanup
  | .pasvActive => vsfTwoProcessPasvActive
  | .listen => vsfTwoProcessListen
  | .getPasvFd => vsfTwoProcessGetPasvFd
  | .chownUpload fd => vsfTwoProcessChownUpload fd

end TwoProcess

/-- The calls of `oneprocess.c`. -/
def oneProcess : (r : Request) → Process (Parent K) r.Answer
  | .getPrivDataSock portSockaddr =>
    vsfPrivopGetFtpPortSock kernel cfg portSockaddr.port (some portSockaddr)
  | .pasvCleanup => vsfPrivopPasvCleanup kernel
  | .pasvActive => vsfPrivopPasvActive
  | .listen => vsfPrivopPasvListen kernel cfg
  | .getPasvFd => vsfPrivopAcceptPasv kernel cfg
  | .chownUpload fd => vsfPrivopDoFileChown kernel cfg fd

/-- What a session asks for, one request after the other; it does what it likes with the
answers. -/
inductive Program (α : Type) where
  | done (a : α)
  | call (r : Request) (next : r.Answer → Program α)

namespace Program

variable {α : Type}

/-- The session in one process. -/
def one : Program α → Process (Parent K) α
  | done a => pure a
  | call r next => oneProcess kernel cfg r >>= fun answer => (next answer).one

/-- The child of a session in two processes. -/
def two {σ : Type} : Program α → Process σ α
  | done a => pure a
  | call r next => twoProcess r >>= fun answer => (next answer).two

end Program

/-- What is checked before a request is made: the address of `PORT` by `handle_port`, and
that owners are to be changed by `handle_upload_common`. -/
def Request.Granted (remoteAddr : Sockaddr) : Request → Prop
  | getPrivDataSock addr => addr.isIpv6 = remoteAddr.isIpv6 ∧ remoteAddr.addrEqual addr = true
  | chownUpload _ => cfg.chownUploads = true
  | _ => True

/-- Whatever the answers are, the session makes granted requests. -/
def Program.Granted {α : Type} (remoteAddr : Sockaddr) : Program α → Prop
  | done _ => True
  | call r next => r.Granted cfg remoteAddr ∧ ∀ answer, (next answer).Granted remoteAddr

/-- An address that `handle_port` keeps may be asked for. -/
theorem granted_of_handlePort {localAddr remoteAddr addr : Sockaddr} {arg reply : Text}
    (hfamily : localAddr.isIpv6 = remoteAddr.isIpv6)
    (h : handlePort false localAddr remoteAddr arg = (reply, some addr)) :
    (Request.getPrivDataSock addr).Granted cfg remoteAddr := by
  rw [handlePort] at h
  split at h
  · cases h
  · rename_i vals port hparse
    dsimp only at h
    split at h
    · cases h
    · rename_i hlegal
      obtain rfl := Option.some.inj (congrArg Prod.snd h)
      simp only [Bool.not_false, Bool.true_and, Bool.or_eq_true, Bool.not_eq_true',
        not_or, Bool.not_eq_false] at hlegal
      refine ⟨?_, hlegal.1⟩
      rw [← hfamily]
      cases localAddr <;> rfl

/-! ## Messages -/

/-- An int is read as it was written. -/
theorem bytesInt_intBytes {n : Int} (hlow : -2147483648 ≤ n) (hhigh : n < 2147483648) :
    bytesInt (intBytes n) = n := by
  have hread : (intBytes n).foldr (fun b u => b.val + 256 * u) 0 = (n % 4294967296).toNat := by
    simp only [intBytes, List.foldr_cons, List.foldr_nil, val_toByte]
    omega
  rw [bytesInt, hread]
  split
  · omega
  · omega

/-- A port survives the way through an int. -/
theorem intPort_val (port : Port) : intPort port.val = port := by
  ext
  rw [intPort, val_toPort]
  have hport := port.isLt
  omega

section Messages

variable {σ : Type} (s : σ)

/-- A character is sent as it is. -/
theorem exec_sendChar (b : Byte) (rest : List Item) :
    (privSockSendChar b : Process σ Unit).exec s rest = ⟨.done (), s, rest, plain [b]⟩ := rfl

/-- An int is sent as its bytes. -/
theorem exec_sendInt (n : Int) (rest : List Item) :
    (privSockSendInt n : Process σ Unit).exec s rest =
      ⟨.done (), s, rest, plain (intBytes n)⟩ :=
  Proc.exec_sendAll _ s rest

/-- The bytes of an int are read as that int. -/
theorem exec_getInt {n : Int} (hlow : -2147483648 ≤ n) (hhigh : n < 2147483648)
    (rest : List Item) :
    (privSockGetInt : Process σ Int).exec s (plain (intBytes n) ++ rest) =
      ⟨.done n, s, rest, []⟩ := by
  have hread : (Proc.recvN 4 : Process σ (Option (List Item))).exec s
      (plain (intBytes n) ++ rest) = ⟨.done (some (plain (intBytes n))), s, rest, []⟩ :=
    Proc.exec_recvN (plain (intBytes n)) s rest
  rw [privSockGetInt, Proc.exec_bind_of_done hread, Proc.exec_pure]
  have hplain : (plain (intBytes n)).map (·.byte) = intBytes n := by
    simp [plain, Function.comp_def]
  rw [hplain, bytesInt_intBytes hlow hhigh]
  rfl

/-- A descriptor is received with the byte that it came with. -/
theorem exec_recvFd (b : Byte) (fd : File) (rest : List Item) :
    (privSockRecvFd : Process σ File).exec s (⟨b, some fd⟩ :: rest) = ⟨.done fd, s, rest, []⟩ := rfl

end Messages

/-! ## One process and two -/

/-- The sessions agree in what the operations look at. -/
structure Agree (remoteAddr : Sockaddr) (one two : Parent K) : Prop where
  pasvListenFd : two.pasvListenFd = one.pasvListenFd
  kernel : two.kernel = one.kernel
  remote : one.remoteAddr = remoteAddr
  cloned : two.remoteAddr.clone = remoteAddr.clone

/-- Addresses that differ in their port are equal to the same ones. -/
theorem addrEqual_congr {a b : Sockaddr} (h : a.clone = b.clone) (c : Sockaddr) :
    a.addrEqual c = b.addrEqual c := by
  cases a with
  | inet addr port =>
      cases b with
      | inet addr' port' =>
          cases h
          cases c <;> rfl
      | inet6 front addr' port' => cases h
  | inet6 front addr port =>
      cases b with
      | inet addr' port' => cases h
      | inet6 front' addr' port' =>
          cases h
          cases c <;> rfl

/-- Equal addresses of one family differ in their port at most. -/
theorem clone_eq_of_addrEqual {a b : Sockaddr} (hfamily : a.isIpv6 = b.isIpv6)
    (h : b.addrEqual a = true) : a.clone = b.clone := by
  cases a with
  | inet addr port =>
      cases b with
      | inet addr' port' =>
          rw [of_decide_eq_true h]
          rfl
      | inet6 front addr' port' => cases hfamily
  | inet6 front addr port =>
      cases b with
      | inet addr' port' => cases hfamily
      | inet6 front' addr' port' =>
          obtain ⟨hfront, haddr⟩ := of_decide_eq_true h
          rw [hfront, haddr]
          rfl

/-- An address is another one of the same host with its port. -/
theorem setPort_of_clone {a b : Sockaddr} (h : a.clone = b.clone) : b.setPort a.port = a := by
  cases a with
  | inet addr port =>
      cases b with
      | inet addr' port' =>
          cases h
          rfl
      | inet6 front addr' port' => cases h
  | inet6 front addr port =>
      cases b with
      | inet addr' port' => cases h
      | inet6 front' addr' port' =>
          cases h
          rfl

variable {kernel cfg} {remoteAddr : Sockaddr}

/-- A system call brings the same where the kernels are the same. -/
theorem alike_sys (c : Call) :
    Proc.Alike (Agree remoteAddr) (sys kernel c : Process (Parent K) c.Result) (sys kernel c) := by
  refine Proc.alike_act fun one two h => ⟨?_, ?_⟩
  · refine ⟨h.pasvListenFd, ?_, h.remote, h.cloned⟩
    rw [Parent.ask, Parent.ask, h.kernel]
  · rw [h.kernel]
    exact Proc.alike_done _

/-- A result is the same result. -/
theorem alike_pure {α : Type} (a : α) :
    Proc.Alike (Agree remoteAddr) (pure a : Process (Parent K) α) (pure a) :=
  Proc.alike_done a

/-- Both die of the same. -/
theorem alike_die {α : Type} (text : String) :
    Proc.Alike (Agree remoteAddr) (die text : Process (Parent K) α) (die text) :=
  Proc.alike_dead _

/-- What looks at the session may look at sessions that agree. -/
theorem alike_session {α : Type} {p q : Parent K → Process (Parent K) α}
    (h : ∀ one two, Agree remoteAddr one two → Proc.Alike (Agree remoteAddr) (p one) (q two)) :
    Proc.Alike (Agree remoteAddr) (session >>= p) (session >>= q) :=
  Proc.alike_act fun one two hagree => ⟨hagree, h one two hagree⟩

/-- A change of the session that keeps the two in agreement. -/
theorem alike_setSession {change change' : Parent K → Parent K}
    (h : ∀ one two, Agree remoteAddr one two → Agree remoteAddr (change one) (change' two)) :
    Proc.Alike (Agree remoteAddr) (setSession change) (setSession change') :=
  Proc.alike_act fun one two hagree => ⟨h one two hagree, Proc.alike_done ()⟩

/-- Both get the same socket. -/
theorem alike_getIpsock (addr : Sockaddr) :
    Proc.Alike (Agree remoteAddr) (getIpsock kernel addr) (getIpsock kernel addr) := by
  refine (alike_sys _).bind fun result => ?_
  cases result with
  | none => exact alike_die _
  | some fd => exact alike_pure fd

/-- Both set the option in the same way. -/
theorem alike_activateReuseaddr (fd : File) :
    Proc.Alike (Agree remoteAddr) (activateReuseaddr kernel fd) (activateReuseaddr kernel fd) := by
  refine (alike_sys (.setReuseaddr fd)).bind fun ok => ?_
  split
  · exact alike_pure ()
  · exact alike_die _

/-- Both try the data port as often, with the same answers. -/
theorem alike_bindDataPort (s : File) (addr : Sockaddr) (left : Nat) :
    Proc.Alike (Agree remoteAddr) (bindDataPort kernel s addr left)
      (bindDataPort kernel s addr left) := by
  induction left with
  | zero => exact alike_pure ()
  | succ left ih =>
      refine (alike_sys (.bind s addr)).bind fun result => ?_
      cases result with
      | none => exact alike_pure ()
      | some e =>
          dsimp only
          split
          · exact alike_die _
          · exact ih

/-- Both connect to the address of `PORT` when it is that of the client. -/
theorem alike_connectTo {addr : Sockaddr} (h : addr.clone = remoteAddr.clone) :
    Proc.Alike (Agree remoteAddr) (connectTo (K := K) addr.port (some addr))
      (connectTo addr.port none) := by
  intro one two hagree
  have hset : two.remoteAddr.setPort addr.port = addr :=
    setPort_of_clone (h.trans hagree.cloned.symm)
  refine ⟨.ok addr, one, { two with remoteAddr := two.remoteAddr.setPort addr.port }, ?_,
    fun inbox => rfl, fun inbox => ?_⟩
  · exact ⟨hagree.pasvListenFd, hagree.kernel, hagree.remote, by rw [hset, h]⟩
  · have hexec : (connectTo addr.port none : Process (Parent K) Sockaddr).exec two inbox =
        ⟨.done (two.remoteAddr.setPort addr.port),
          { two with remoteAddr := two.remoteAddr.setPort addr.port }, inbox, []⟩ := rfl
    rw [hexec, hset]
    rfl

/-- With the address of the client the connection that it asked for is the one to itself. -/
theorem alike_getFtpPortSock {addr : Sockaddr} (h : addr.clone = remoteAddr.clone) :
    Proc.Alike (Agree remoteAddr) (vsfPrivopGetFtpPortSock kernel cfg addr.port (some addr))
      (vsfPrivopGetFtpPortSock kernel cfg addr.port none) := by
  refine (alike_getIpsock _).bind fun s => ?_
  split
  · exact alike_die _
  · refine (alike_activateReuseaddr s).bind fun _ => ?_
    refine (alike_bindDataPort s _ 2).bind fun _ => ?_
    refine (alike_connectTo h).bind fun addr => ?_
    refine (alike_sys (.connect s addr)).bind fun ok => ?_
    split
    · exact alike_pure _
    · exact (alike_sys (.close s)).bind fun _ => alike_pure _

/-- Both close the same listening socket. -/
theorem alike_pasvCleanup :
    Proc.Alike (Agree remoteAddr) (vsfPrivopPasvCleanup kernel) (vsfPrivopPasvCleanup kernel) := by
  refine alike_session fun one two hagree => ?_
  rw [hagree.pasvListenFd]
  cases one.pasvListenFd with
  | none => exact alike_pure ()
  | some fd =>
      refine (alike_sys (.close fd)).bind fun _ => ?_
      exact alike_setSession fun one two h => ⟨rfl, h.kernel, h.remote, h.cloned⟩

/-- Both know in the same way whether a socket listens. -/
theorem alike_pasvActive :
    Proc.Alike (Agree remoteAddr) (vsfPrivopPasvActive : Process (Parent K) Int)
      vsfPrivopPasvActive := by
  refine alike_session fun one two hagree => ?_
  rw [hagree.pasvListenFd]
  exact alike_pure _

/-- Both bind and listen in the same way. -/
theorem alike_bindAndListen (fd : File) (addr : Sockaddr) :
    Proc.Alike (Agree remoteAddr) (bindAndListen kernel fd addr)
      (bindAndListen kernel fd addr) := by
  refine (alike_sys (.bind fd addr)).bind fun result => ?_
  cases result with
  | some e => exact alike_pure _
  | none =>
      refine (alike_sys (.listen fd)).bind fun result => ?_
      cases result with
      | none => exact alike_pure _
      | some e =>
          dsimp only
          split
          · exact alike_die _
          · exact alike_pure _

/-- Both try the same ports. -/
theorem alike_pasvBind (fd : File) (left : Nat) :
    Proc.Alike (Agree remoteAddr) (pasvBind kernel cfg fd left) (pasvBind kernel cfg fd left) := by
  induction left with
  | zero => exact alike_die _
  | succ left ih =>
      refine (alike_sys .randomByte).bind fun high => ?_
      refine (alike_sys .randomByte).bind fun low => ?_
      refine (alike_bindAndListen fd _).bind fun result => ?_
      cases result with
      | none => exact alike_pure _
      | some e =>
          cases e with
          | addrinuse => exact ih
          | acces => exact ih
          | other => exact alike_die _

/-- Both come to listen on the same port. -/
theorem alike_pasvListen :
    Proc.Alike (Agree remoteAddr) (vsfPrivopPasvListen kernel cfg)
      (vsfPrivopPasvListen kernel cfg) := by
  refine (alike_getIpsock _).bind fun fd => ?_
  refine (alike_setSession fun one two h => ?_).bind fun _ => ?_
  · exact ⟨rfl, h.kernel, h.remote, h.cloned⟩
  · exact (alike_activateReuseaddr fd).bind fun _ => alike_pasvBind fd 9

/-- Both accept the same connections. -/
theorem alike_acceptPasv :
    Proc.Alike (Agree remoteAddr) (vsfPrivopAcceptPasv kernel cfg)
      (vsfPrivopAcceptPasv kernel cfg) := by
  refine alike_session fun one two hagree => ?_
  rw [hagree.pasvListenFd]
  cases one.pasvListenFd with
  | none =>
      dsimp only
      split
      · exact Proc.alike_dead _
      · exact alike_pure _
  | some fd =>
      refine (alike_sys (.accept fd)).bind fun result => ?_
      cases result with
      | none => exact alike_pure _
      | some accepted =>
          have hequal : two.remoteAddr.addrEqual accepted.2 = one.remoteAddr.addrEqual accepted.2 :=
            addrEqual_congr (hagree.cloned.trans (congrArg _ hagree.remote.symm)) accepted.2
          dsimp only
          rw [hequal]
          split
          · exact (alike_sys (.close accepted.1)).bind fun _ => alike_pure _
          · exact alike_pure _

/-- Both give the file away in the same way. -/
theorem alike_doFileChown (fd : File) :
    Proc.Alike (Agree remoteAddr) (vsfPrivopDoFileChown kernel cfg fd)
      (vsfPrivopDoFileChown kernel cfg fd) := by
  refine (alike_sys (.fstat fd)).bind fun result => ?_
  cases result with
  | none => exact alike_die _
  | some st =>
      dsimp only
      split
      · exact alike_pure ()
      · split
        · exact alike_die _
        · refine (alike_sys (.fchown fd _)).bind fun ok => ?_
          split
          · exact alike_pure ()
          · exact alike_die _

/-- What the child dies of where it reads the end of its socket in place of an answer. -/
def EndOfFile (e : Fault) : Prop :=
  e = .die "priv_sock_get_result" ∨ e = .die "priv_sock_get_int"

/-- A request is answered by the parent as it should be. -/
def Answered (kernel : Kernel K) (cfg : Config) (r : Request) (out : Except Fault r.Answer)
    (two two' : Parent K) : Prop :=
  ∃ (waiting : Process Unit r.Answer) (cmd : Byte) (asked reply : List Item)
    (server : Process (Parent K) Unit),
    (twoProcess r).exec () [] = ⟨waiting, (), [], ⟨cmd, none⟩ :: asked⟩ ∧
    (dispatch kernel cfg cmd).exec two asked = ⟨server, two', [], reply⟩ ∧
    match out with
    | .ok answer => server = .done () ∧ waiting.exec () reply = ⟨.done answer, (), [], []⟩
    | .error e => server = .dead e ∧ reply = [] ∧
        ∃ next e', waiting = .recv next ∧ next none = .dead e' ∧ EndOfFile e'

/-- Commands are told apart by their codes. -/
theorem code_eq_iff (a b : Cmd) : a.code = b.code ↔ a = b := by
  cases a <;> cases b <;> decide

/-- A code leads to the handler of its command. -/
theorem dispatch_code (kernel : Kernel K) (cfg : Config) (cmd : Cmd)
    (h : cmd = .chown → cfg.chownUploads = true) :
    dispatch kernel cfg cmd.code =
      match cmd with
      | .chown => cmdProcessChown kernel cfg
      | .getDataSock => cmdProcessGetDataSock kernel cfg
      | .pasvCleanup => cmdProcessPasvCleanup kernel
      | .pasvActive => cmdProcessPasvActive
      | .pasvListen => cmdProcessPasvListen kernel cfg
      | .pasvAccept => cmdProcessPasvAccept kernel cfg := by
  cases cmd <;> simp [dispatch, code_eq_iff, h]

/-- The parent answers the request for a connection to the client. -/
theorem answered_getPrivDataSock {addr : Sockaddr} {two two' : Parent K}
    {out : Except Fault (Option File)}
    (h : ∀ inbox, (vsfPrivopGetFtpPortSock kernel cfg addr.port none).exec two inbox =
      ⟨.ended out, two', inbox, []⟩) :
    ∃ deeds, Answered kernel cfg (.getPrivDataSock addr) out two { two' with deeds := deeds } := by
  have hport := addr.port.isLt
  have hread := exec_getInt two (n := addr.port.val) (by omega) (by omega) []
  rw [List.append_nil] at hread
  have hserve : (cmdProcessGetDataSock kernel cfg).exec two (plain (intBytes addr.port.val)) =
      (Proc.ended out >>= fun fd : Option File =>
        match fd with
        | none => privSockSendChar resultBad
        | some sockFd =>
          privSockSendChar resultOk >>= fun _ => passFd sockFd >>= fun _ => dropFd sockFd).exec
        two' [] := by
    have hpriv := h []
    rw [← intPort_val addr.port] at hpriv
    exact (Proc.exec_bind_of_done hread _).trans (Proc.exec_bind_of_ended hpriv _)
  have hdispatch := dispatch_code kernel cfg .getDataSock (by simp)
  cases out with
  | error e =>
      exact ⟨two'.deeds, _, Cmd.getDataSock.code, _, [], .dead e, rfl,
        by rw [hdispatch]; exact hserve, rfl, rfl, _, _, rfl, rfl, Or.inl rfl⟩
  | ok result =>
      cases result with
      | none =>
          exact ⟨two'.deeds, _, Cmd.getDataSock.code, _, plain [resultBad], .done (), rfl,
            by rw [hdispatch]; exact hserve, rfl, rfl⟩
      | some fd =>
          exact ⟨two'.deeds ++ [.passed fd] ++ [.dropped fd], _, Cmd.getDataSock.code, _,
            plain [resultOk] ++ [⟨toByte 0, some fd⟩], .done (), rfl,
            by rw [hdispatch]; exact hserve, rfl, rfl⟩

/-- The parent answers the request to close its listening socket. -/
theorem answered_pasvCleanup {two two' : Parent K} {out : Except Fault Unit}
    (h : ∀ inbox, (vsfPrivopPasvCleanup kernel).exec two inbox =
      ⟨.ended out, two', inbox, []⟩) : Answered kernel cfg .pasvCleanup out two two' := by
  have hserve := Proc.exec_bind_of_ended (h []) fun _ => privSockSendChar resultOk
  have hdispatch := dispatch_code kernel cfg .pasvCleanup (by simp)
  cases out with
  | error e =>
      exact ⟨_, Cmd.pasvCleanup.code, _, [], .dead e, rfl, by rw [hdispatch]; exact hserve,
        rfl, rfl, _, _, rfl, rfl, Or.inl rfl⟩
  | ok a =>
      exact ⟨_, Cmd.pasvCleanup.code, _, plain [resultOk], .done (), rfl,
        by rw [hdispatch]; exact hserve, rfl, rfl⟩

/-- The parent answers whether a socket listens. -/
theorem answered_pasvActive {two two' : Parent K} {out : Except Fault Int}
    (h : ∀ inbox, (vsfPrivopPasvActive : Process (Parent K) Int).exec two inbox =
      ⟨.ended out, two', inbox, []⟩) : Answered kernel cfg .pasvActive out two two' := by
  have hserve := Proc.exec_bind_of_ended (h []) fun active => privSockSendInt active
  have hdispatch := dispatch_code kernel cfg .pasvActive (by simp)
  have hactive : out = .ok (if two.pasvListenFd.isSome then 1 else 0) := by
    have hexec : (vsfPrivopPasvActive : Process (Parent K) Int).exec two [] =
        ⟨.done (if two.pasvListenFd.isSome then 1 else 0), two, [], []⟩ := rfl
    rw [h []] at hexec
    cases out with
    | error e => cases hexec
    | ok active =>
        cases hexec
        rfl
  subst hactive
  refine ⟨_, Cmd.pasvActive.code, _, _, .done (), rfl, by rw [hdispatch]; exact hserve, rfl, ?_⟩
  have hread := exec_getInt () (n := if two.pasvListenFd.isSome then 1 else 0) (by split <;> omega)
    (by split <;> omega) []
  rwa [List.append_nil] at hread

/-- The parent answers the request for a listening socket. -/
theorem answered_listen {two two' : Parent K} {out : Except Fault Port}
    (h : ∀ inbox, (vsfPrivopPasvListen kernel cfg).exec two inbox =
      ⟨.ended out, two', inbox, []⟩) : Answered kernel cfg .listen out two two' := by
  have hserve := Proc.exec_bind_of_ended (h []) fun port => privSockSendInt port.val
  have hdispatch := dispatch_code kernel cfg .pasvListen (by simp)
  cases out with
  | error e =>
      exact ⟨_, Cmd.pasvListen.code, _, [], .dead e, rfl, by rw [hdispatch]; exact hserve,
        rfl, rfl, _, _, rfl, rfl, Or.inr rfl⟩
  | ok port =>
      refine ⟨_, Cmd.pasvListen.code, _, _, .done (), rfl, by rw [hdispatch]; exact hserve, rfl, ?_⟩
      have hport := port.isLt
      have hread := exec_getInt () (n := port.val) (by omega) (by omega) []
      rw [List.append_nil] at hread
      refine (Proc.exec_bind_of_done hread fun port => pure (intPort port)).trans ?_
      rw [intPort_val]
      rfl

/-- What follows may use the session of the parent. -/
theorem meets_session {α : Type} {P : Parent K → Prop} {Q : α → Parent K → Prop} {s : Parent K}
    {p : Parent K → Process (Parent K) α} (hs : P s) (h : (p s).Meets P s Q) :
    (session >>= p).Meets P s Q :=
  ⟨hs, h⟩

/-- What follows may use the answer of the system. -/
theorem meets_sys {α : Type} {P : Parent K → Prop} {Q : α → Parent K → Prop} {s : Parent K}
    (c : Call) {k : c.Result → Process (Parent K) α} (hs : P (s.ask kernel c))
    (h : (k (kernel.answer c s.kernel).1).Meets P (s.ask kernel c) Q) :
    (sys kernel c >>= k).Meets P s Q :=
  ⟨hs, h⟩

/-- The errors of `vsf_privop_accept_pasv`. -/
theorem acceptPasv_error {two two' : Parent K} {e : Int} {inbox : List Item}
    (h : (vsfPrivopAcceptPasv kernel cfg).exec two inbox = ⟨.done (.error e), two', inbox, []⟩) :
    e = -1 ∨ e = -2 := by
  have hmeets : (vsfPrivopAcceptPasv kernel cfg).Meets (fun _ => True) two
      (fun result _ => ∀ e, result = .error e → e = -1 ∨ e = -2) := by
    refine meets_session trivial ?_
    cases two.pasvListenFd with
    | none =>
        dsimp only
        split
        · trivial
        · exact fun e he => Or.inl (Except.error.inj he).symm
    | some fd =>
        refine meets_sys (.accept fd) trivial ?_
        cases (kernel.answer (.accept fd) two.kernel).1 with
        | none => exact fun e he => Or.inl (Except.error.inj he).symm
        | some accepted =>
            dsimp only
            split
            · exact meets_sys _ trivial fun e he => Or.inr (Except.error.inj he).symm
            · exact fun e he => by cases he
  exact hmeets.of_exec h e rfl

/-- The parent answers the request for an accepted connection. -/
theorem answered_getPasvFd {two two' : Parent K} {out : Except Fault (Except Int File)}
    (h : ∀ inbox, (vsfPrivopAcceptPasv kernel cfg).exec two inbox =
      ⟨.ended out, two', inbox, []⟩) :
    ∃ deeds, Answered kernel cfg .getPasvFd out two { two' with deeds := deeds } := by
  have hserve := Proc.exec_bind_of_ended (h []) fun result : Except Int File =>
    match result with
    | .error e => privSockSendChar resultBad >>= fun _ => privSockSendInt e
    | .ok fd => privSockSendChar resultOk >>= fun _ => passFd fd >>= fun _ => dropFd fd
  have hdispatch := dispatch_code kernel cfg .pasvAccept (by simp)
  cases out with
  | error e =>
      exact ⟨two'.deeds, _, Cmd.pasvAccept.code, _, [], .dead e, rfl,
        by rw [hdispatch]; exact hserve, rfl, rfl, _, _, rfl, rfl, Or.inl rfl⟩
  | ok result =>
      cases result with
      | error e =>
          refine ⟨two'.deeds, _, Cmd.pasvAccept.code, _, plain [resultBad] ++ plain (intBytes e),
            .done (), rfl, by rw [hdispatch]; exact hserve, rfl, ?_⟩
          have hrange := acceptPasv_error (h [])
          have hread := exec_getInt () (n := e) (by omega) (by omega) []
          rw [List.append_nil] at hread
          exact Proc.exec_bind_of_done hread fun e => pure (Except.error e)
      | ok fd =>
          exact ⟨two'.deeds ++ [.passed fd] ++ [.dropped fd], _, Cmd.pasvAccept.code, _,
            plain [resultOk] ++ [⟨toByte 0, some fd⟩], .done (), rfl,
            by rw [hdispatch]; exact hserve, rfl, rfl⟩

/-- The parent answers the request to give a file away. -/
theorem answered_chownUpload {fd : File} (hcfg : cfg.chownUploads = true) {two two' : Parent K}
    {out : Except Fault Unit}
    (h : ∀ inbox, (vsfPrivopDoFileChown kernel cfg fd).exec two inbox =
      ⟨.ended out, two', inbox, []⟩) :
    ∃ deeds, Answered kernel cfg (.chownUpload fd) out two { two' with deeds := deeds } := by
  have hread := exec_recvFd two (toByte 0) fd []
  have hserve : (cmdProcessChown kernel cfg).exec two [⟨toByte 0, some fd⟩] =
      (Proc.ended out >>= fun _ => dropFd fd >>= fun _ => privSockSendChar resultOk).exec two' [] :=
    (Proc.exec_bind_of_done hread _).trans (Proc.exec_bind_of_ended (h []) _)
  have hdispatch := dispatch_code kernel cfg .chown (fun _ => hcfg)
  cases out with
  | error e =>
      exact ⟨two'.deeds, _, Cmd.chown.code, _, [], .dead e, rfl,
        by rw [hdispatch]; exact hserve, rfl, rfl, _, _, rfl, rfl, Or.inl rfl⟩
  | ok a =>
      exact ⟨two'.deeds ++ [.dropped fd], _, Cmd.chown.code, _, plain [resultOk], .done (), rfl,
        by rw [hdispatch]; exact hserve, rfl, rfl⟩

/-- What was done is not looked at. -/
theorem Agree.of_deeds {one two : Parent K} (h : Agree remoteAddr one two) (deeds : List Deed) :
    Agree remoteAddr one { two with deeds := deeds } :=
  ⟨h.pasvListenFd, h.kernel, h.remote, h.cloned⟩

/-- A granted request is answered with what one process does itself. -/
theorem exchange (kernel : Kernel K) (r : Request) (hr : r.Granted cfg remoteAddr)
    {one two : Parent K}
    (h : Agree remoteAddr one two) :
    ∃ (out : Except Fault r.Answer) (one' two' : Parent K), Agree remoteAddr one' two' ∧
      (∀ inbox, (oneProcess kernel cfg r).exec one inbox = ⟨.ended out, one', inbox, []⟩) ∧
      Answered kernel cfg r out two two' := by
  cases r with
  | getPrivDataSock addr =>
      have hclone := clone_eq_of_addrEqual hr.1 hr.2
      obtain ⟨out, one', two', hagree, hone, htwo⟩ := alike_getFtpPortSock hclone one two h
      obtain ⟨deeds, hanswered⟩ := answered_getPrivDataSock htwo
      exact ⟨out, one', _, hagree.of_deeds deeds, hone, hanswered⟩
  | pasvCleanup =>
      obtain ⟨out, one', two', hagree, hone, htwo⟩ := alike_pasvCleanup one two h
      exact ⟨out, one', two', hagree, hone, answered_pasvCleanup htwo⟩
  | pasvActive =>
      obtain ⟨out, one', two', hagree, hone, htwo⟩ := alike_pasvActive one two h
      exact ⟨out, one', two', hagree, hone, answered_pasvActive htwo⟩
  | listen =>
      obtain ⟨out, one', two', hagree, hone, htwo⟩ := alike_pasvListen one two h
      exact ⟨out, one', two', hagree, hone, answered_listen htwo⟩
  | getPasvFd =>
      obtain ⟨out, one', two', hagree, hone, htwo⟩ := alike_acceptPasv one two h
      obtain ⟨deeds, hanswered⟩ := answered_getPasvFd htwo
      exact ⟨out, one', _, hagree.of_deeds deeds, hone, hanswered⟩
  | chownUpload fd =>
      obtain ⟨out, one', two', hagree, hone, htwo⟩ := alike_doFileChown fd one two h
      obtain ⟨deeds, hanswered⟩ := answered_chownUpload hr htwo
      exact ⟨out, one', _, hagree.of_deeds deeds, hone, hanswered⟩

/-- A child and its parent, with empty sockets between them. -/
def together {α : Type} (child : Process Unit α) (parent : Process (Parent K) Unit)
    (s : Parent K) : Duo Item Fault Unit (Parent K) α Unit :=
  ⟨child, (), parent, s, [], []⟩

/-- Some order of the steps does in two processes what one process does. -/
theorem leads_two {α : Type} (kernel : Kernel K) (p : Program α)
    (hp : p.Granted cfg remoteAddr) {one two : Parent K}
    (h : Agree remoteAddr one two) :
    ∃ (out : Except Fault α) (one' two' : Parent K), Agree remoteAddr one' two' ∧
      (p.one kernel cfg).exec one [] = ⟨.ended out, one', [], []⟩ ∧
      match out with
      | .ok a => Duo.Leads (vsfPrivParentPostlogin kernel cfg) (together p.two (.done ()) two)
          (together (.done a) (.done ()) two')
      | .error e => ∃ e', EndOfFile e' ∧ Duo.Leads (vsfPrivParentPostlogin kernel cfg)
          (together p.two (.done ()) two) (together (.dead e') (.dead e) two') := by
  induction p generalizing one two with
  | done a => exact ⟨.ok a, one, two, h, rfl, Duo.Leads.refl _⟩
  | call r next ih =>
      obtain ⟨out, one', two', hagree, hone, hanswered⟩ := exchange kernel r hp.1 h
      obtain ⟨waiting, cmd, asked, reply, server, hask, hserve, hout⟩ := hanswered
      have hexec := Proc.exec_bind_of_ended (hone []) fun answer => (next answer).one kernel cfg
      cases out with
      | ok answer =>
          obtain ⟨rfl, hread⟩ := hout
          obtain ⟨out, one'', two'', hagree', hone', hleads⟩ := ih answer (hp.2 answer) hagree
          refine ⟨out, one'', two'', hagree', hexec.trans hone', ?_⟩
          have hcall : Duo.Leads (vsfPrivParentPostlogin kernel cfg)
              (together (Program.call r next).two (.done ()) two)
              (together (next answer).two (.done ()) two') :=
            Duo.leads_call hask rfl hserve hread fun answer => (next answer).two
          cases out with
          | ok a => exact hcall.trans hleads
          | error e =>
              obtain ⟨e', hends, hleads⟩ := hleads
              exact ⟨e', hends, hcall.trans hleads⟩
      | error e =>
          obtain ⟨rfl, rfl, waiting', e', rfl, hnone, hends⟩ := hout
          refine ⟨.error e, one', two', hagree, hexec, e', hends, ?_⟩
          have hserved : Duo.Leads (vsfPrivParentPostlogin kernel cfg)
              (together (Program.call r next).two (.done ()) two)
              (together (.recv fun i => waiting' i >>= fun answer => (next answer).two) (.dead e)
                two') :=
            Duo.leads_served hask rfl hserve fun answer => (next answer).two
          have hended := hserved.trans (Duo.leads_ended e)
          rw [hnone] at hended
          exact hended

/-- The end of two processes when one process ends like this.  Where it dies, the parent dies
and the child reads the end of its socket. -/
def EndsLike {α : Type} (kernel : Kernel K) (cfg : Config) (p : Program α) (s two : Parent K) :
    Except Fault α → Prop
  | .ok a => Settles (Duo.step (vsfPrivParentPostlogin kernel cfg))
      (together p.two (.done ()) s) (together (.done a) (.done ()) two)
  | .error e => ∃ e', EndOfFile e' ∧ Settles (Duo.step (vsfPrivParentPostlogin kernel cfg))
      (together p.two (.done ()) s) (together (.dead e') (.dead e) two)

/-- However two processes end, they write to nobody who has died. -/
theorem EndsLike.unbroken {α : Type} {p : Program α} {s two : Parent K} {out : Except Fault α}
    (h : EndsLike kernel cfg p s two out) :
    (together p.two (.done ()) s).Unbroken (vsfPrivParentPostlogin kernel cfg) := by
  cases out with
  | ok a => exact Duo.unbroken_of_settles h rfl rfl
  | error e =>
      obtain ⟨e', -, hsettles⟩ := h
      exact Duo.unbroken_of_settles hsettles rfl rfl

/-- Two processes do what one process does, in every order of their steps, and leave nothing
in their sockets; neither of them ever writes to the other when that one has died. -/
theorem two_process_refines {α : Type} (kernel : Kernel K) (cfg : Config) (p : Program α)
    (s : Parent K) (hp : p.Granted cfg s.remoteAddr) :
    ∃ (out : Except Fault α) (one two : Parent K),
      two.pasvListenFd = one.pasvListenFd ∧ two.kernel = one.kernel ∧
      (p.one kernel cfg).exec s [] = ⟨.ended out, one, [], []⟩ ∧
      EndsLike kernel cfg p s two out ∧
      (together p.two (.done ()) s).Unbroken (vsfPrivParentPostlogin kernel cfg) := by
  obtain ⟨out, one, two, hagree, hone, hleads⟩ := leads_two kernel p hp
    ⟨rfl, rfl, rfl, rfl⟩
  have hends : EndsLike kernel cfg p s two out := by
    cases out with
    | ok a => exact hleads.settles (Duo.quiet_of_done rfl a)
    | error e =>
        obtain ⟨e', hend, hleads⟩ := hleads
        exact ⟨e', hend, hleads.settles (Duo.quiet_of_both_dead e' e)⟩
  exact ⟨out, one, two, hagree.pasvListenFd, hagree.kernel, hone, hends, hends.unbroken⟩

/-- A client with an address on the local network. -/
def lanAddr (last port : Nat) : Sockaddr :=
  .inet ⟨toByte 192, toByte 168, toByte 0, toByte last⟩
    (toPort port)

/-- A kernel that counts the files it has opened; every call succeeds. -/
def obligingKernel : Kernel Nat where
  answer
    | .socket _, n => (some n, n + 1)
    | .setReuseaddr _, n => (true, n)
    | .bind _ _, n => (none, n)
    | .listen _, n => (none, n)
    | .connect _ _, n => (true, n)
    | .accept _, n => (some (n, lanAddr 7 50000), n + 1)
    | .close _, n => ((), n)
    | .fstat _, n => (some ⟨14, true⟩, n)
    | .fchown _ _, n => (true, n)
    | .randomByte, n => (toByte n, n)

/-- A configuration that gives uploads to another user. -/
def lanConfig : Config where
  localAddr := lanAddr 1 21
  connectFromPort20 := true
  ftpDataPort := 20
  pasvMinPort := 0
  pasvMaxPort := 0
  acceptTimeout := 60
  pasvPromiscuous := false
  chownUploads := true
  anonUploadChownUid := 1000
  anonFtpUid := 14
  guestUserUid := -1

/-- The parent at the beginning of a session. -/
def lanParent : Parent Nat where
  pasvListenFd := none
  remoteAddr := lanAddr 7 40000
  kernel := 10
  deeds := []

/-- A download with `PORT` and an upload with `PASV`. -/
def twoTransfers : Program (Except Int File) :=
  .call (.getPrivDataSock (lanAddr 7 50001)) fun _ =>
    .call .listen fun _ =>
      .call .getPasvFd fun fd =>
        .call (.chownUpload 5) fun _ =>
          .call .pasvCleanup fun _ => .done fd

/-- Two transfers, one with `PASV` and one with `PORT`. -/
theorem two_process_refines_twoTransfers :
    ∃ (out : Except Fault (Except Int File)) (one two : Parent Nat),
      two.pasvListenFd = one.pasvListenFd ∧ two.kernel = one.kernel ∧
      (twoTransfers.one obligingKernel lanConfig).exec lanParent [] = ⟨.ended out, one, [], []⟩ ∧
      EndsLike obligingKernel lanConfig twoTransfers lanParent two out ∧
      (together twoTransfers.two (.done ()) lanParent).Unbroken
        (vsfPrivParentPostlogin obligingKernel lanConfig) :=
  two_process_refines obligingKernel lanConfig twoTransfers lanParent
    ⟨⟨rfl, by decide⟩, fun _ => ⟨trivial, fun _ => ⟨trivial, fun _ => ⟨rfl, fun _ =>
      ⟨trivial, fun _ => trivial⟩⟩⟩⟩⟩

/-! ## What the parent may be made to do -/

/-- What may be done behind what was done before. -/
def Deed.Permitted (cfg : Config) (remoteAddr : Sockaddr) (before : List Deed) : Deed → Prop
  | asked (.connect _ addr) _ => addr.clone = remoteAddr.clone ∧ 1024 ≤ addr.port.val
  | asked (.bind _ addr) _ =>
    addr.clone = cfg.localAddr.clone ∧
      (addr.port = dataPort cfg ∨ minPort cfg ≤ addr.port.val ∧ addr.port.val ≤ maxPort cfg)
  | asked (.fchown fd uid) _ =>
    cfg.chownUploads = true ∧ uid = cfg.anonUploadChownUid ∧ uid ≠ -1 ∧
      ∃ st, before.getLast? = some (.asked (.fstat fd) (some st)) ∧ st.regfile = true ∧
        (st.uid = cfg.anonFtpUid ∨ st.uid = cfg.guestUserUid)
  | passed fd =>
    (∃ addr, before.getLast? = some (.asked (.connect fd addr) true)) ∨
      ∃ g addr, before.getLast? = some (.asked (.accept g) (some (fd, addr))) ∧
        (cfg.pasvPromiscuous = true ∨ remoteAddr.addrEqual addr = true)
  | _ => True

/-- Everything that was done was permitted then. -/
def Permitted (cfg : Config) (remoteAddr : Sockaddr) (deeds : List Deed) : Prop :=
  ∀ before d after, deeds = before ++ d :: after → d.Permitted cfg remoteAddr before

/-- One more permitted deed. -/
theorem permitted_concat {deeds : List Deed} {d : Deed} (h : Permitted cfg remoteAddr deeds)
    (hd : d.Permitted cfg remoteAddr deeds) : Permitted cfg remoteAddr (deeds ++ [d]) := by
  intro before e after heq
  rcases List.eq_nil_or_concat after with rfl | ⟨after, last, rfl⟩
  · obtain ⟨rfl, hde⟩ := List.append_inj' heq rfl
    cases hde
    exact hd
  · rw [List.concat_eq_append, ← List.cons_append, ← List.append_assoc] at heq
    exact h before e after (List.append_inj' heq rfl).1

/-- The lowest port of the range is one that needs no privilege. -/
theorem le_minPort (cfg : Config) : 1024 ≤ minPort cfg ∧ minPort cfg ≤ 65535 := by
  rw [minPort]
  split <;> omega

/-- The range of ports is not empty. -/
theorem minPort_le_maxPort (cfg : Config) : minPort cfg ≤ maxPort cfg ∧ maxPort cfg ≤ 65535 := by
  have hmin := le_minPort cfg
  rw [maxPort]
  split <;> omega

/-- The port of a passive connection is one of those that are configured. -/
theorem scaledPort_range (cfg : Config) (high low : Byte) :
    minPort cfg ≤ (scaledPort cfg high low).val ∧ (scaledPort cfg high low).val ≤ maxPort cfg := by
  have hmax := minPort_le_maxPort cfg
  have hhigh := high.isLt
  have hlow := low.isLt
  have hscaled : (high.val * 256 + low.val) * (maxPort cfg - minPort cfg + 1) / 65536 <
      maxPort cfg - minPort cfg + 1 := by
    refine Nat.div_lt_of_lt_mul ?_
    exact Nat.mul_lt_mul_of_pos_right (by omega) (Nat.succ_pos _)
  rw [scaledPort, val_toPort, Nat.mod_eq_of_lt (by omega)]
  omega

/-- The invariant of the parent. -/
def Lawful (cfg : Config) (remoteAddr : Sockaddr) (s : Parent K) : Prop :=
  Permitted cfg remoteAddr s.deeds ∧ s.remoteAddr.clone = remoteAddr.clone

/-- A call that is permitted keeps the parent lawful. -/
theorem Lawful.ask {s : Parent K} (h : Lawful cfg remoteAddr s) (kernel : Kernel K) (c : Call)
    (hc : ∀ result, (Deed.asked c result).Permitted cfg remoteAddr s.deeds) :
    Lawful cfg remoteAddr (s.ask kernel c) :=
  ⟨permitted_concat h.1 (hc _), h.2⟩

/-- The last deed is the call that was just made. -/
theorem getLast?_ask (s : Parent K) (c : Call) :
    (s.ask kernel c).deeds.getLast? = some (.asked c (kernel.answer c s.kernel).1) := by
  rw [Parent.ask, List.getLast?_concat]

/-- Any descriptor may be received. -/
theorem meets_recvFd {P : Parent K → Prop} {Q : File → Parent K → Prop} {s : Parent K}
    (h : ∀ fd, Q fd s) : (privSockRecvFd : Process (Parent K) File).Meets P s Q := by
  intro i
  cases i with
  | none => trivial
  | some i =>
      dsimp only
      cases i.fd with
      | none => trivial
      | some fd => exact h fd

/-- Any int may be received. -/
theorem meets_getInt {σ : Type} {P : σ → Prop} {Q : Int → σ → Prop} {s : σ} (h : ∀ n, Q n s) :
    (privSockGetInt : Process σ Int).Meets P s Q := by
  refine Proc.Meets.bind (Proc.meets_recvN (Q := fun _ s' => s' = s) 4 fun _ => rfl)
    fun items s' hs => ?_
  subst hs
  cases items with
  | none => trivial
  | some items => exact h _

/-- A copy with another port is one of the same host. -/
theorem clone_clone_setPort (a : Sockaddr) (port : Port) :
    (a.clone.setPort port).clone = a.clone := by
  cases a <;> rfl

/-- Another port does not change the host. -/
theorem clone_setPort (a : Sockaddr) (port : Port) : (a.setPort port).clone = a.clone := by
  cases a <;> rfl

/-- The port that was set is there. -/
theorem port_setPort (a : Sockaddr) (port : Port) : (a.setPort port).port = port := by
  cases a <;> rfl

section Lawful

variable {s : Parent K} (h : Lawful cfg remoteAddr s)

include h

/-- A socket may always be made. -/
theorem lawful_getIpsock (addr : Sockaddr) :
    (getIpsock kernel addr).Meets (Lawful cfg remoteAddr) s
      (fun _ s => Lawful cfg remoteAddr s) := by
  have hasked := h.ask kernel (.socket addr.isIpv6) fun _ => trivial
  refine meets_sys _ hasked ?_
  cases (kernel.answer (.socket addr.isIpv6) s.kernel).1 with
  | none => trivial
  | some fd => exact hasked

/-- The option may always be set. -/
theorem lawful_activateReuseaddr (fd : File) :
    (activateReuseaddr kernel fd).Meets (Lawful cfg remoteAddr) s
      (fun _ s => Lawful cfg remoteAddr s) := by
  have hasked := h.ask kernel (.setReuseaddr fd) fun _ => trivial
  refine meets_sys _ hasked ?_
  split
  · exact hasked
  · trivial

/-- The parent may bind its own data port. -/
theorem lawful_bindDataPort (fd : File) (left : Nat) :
    (bindDataPort kernel fd (cfg.localAddr.clone.setPort (dataPort cfg)) left).Meets
      (Lawful cfg remoteAddr) s (fun _ s => Lawful cfg remoteAddr s) := by
  induction left generalizing s with
  | zero => exact h
  | succ left ih =>
      have hasked := h.ask kernel (.bind fd (cfg.localAddr.clone.setPort (dataPort cfg)))
        fun _ => ⟨clone_clone_setPort _ _, Or.inl (port_setPort _ _)⟩
      refine meets_sys _ hasked ?_
      cases (kernel.answer (.bind fd _) s.kernel).1 with
      | none => exact hasked
      | some e =>
          dsimp only
          split
          · trivial
          · exact ih hasked

/-- The socket of `PORT` is connected to the client. -/
theorem lawful_getFtpPortSock (port : Port) :
    (vsfPrivopGetFtpPortSock kernel cfg port none).Meets (Lawful cfg remoteAddr) s
      (fun result s => Lawful cfg remoteAddr s ∧ ∀ fd, result = some fd →
        (Deed.passed fd).Permitted cfg remoteAddr s.deeds) := by
  refine (lawful_getIpsock h _).bind fun fd s hs => ?_
  split
  · trivial
  · rename_i hreserved
    refine (lawful_activateReuseaddr hs fd).bind fun _ s hs => ?_
    refine (lawful_bindDataPort hs fd 2).bind fun _ s hs => ?_
    have hset : Lawful cfg remoteAddr { s with remoteAddr := s.remoteAddr.setPort port } :=
      ⟨hs.1, (clone_setPort _ _).trans hs.2⟩
    refine Proc.Meets.bind (Q := fun addr s => Lawful cfg remoteAddr s ∧
      addr.clone = remoteAddr.clone ∧ addr.port = port) ⟨hset, meets_session hset
        ⟨hset, hset.2, port_setPort _ _⟩⟩ fun addr s haddr => ?_
    obtain ⟨hs, hclone, hport⟩ := haddr
    have hasked := hs.ask kernel (.connect fd addr) fun _ => ⟨hclone, by
      rw [hport]
      simpa [isPortReserved] using hreserved⟩
    refine meets_sys _ hasked ?_
    split
    · rename_i hok
      refine ⟨hasked, fun fd' hfd => ?_⟩
      cases hfd
      refine Or.inl ⟨addr, ?_⟩
      rw [getLast?_ask, hok]
    · have hclosed := hasked.ask kernel (.close fd) fun _ => trivial
      exact meets_sys _ hclosed ⟨hclosed, fun fd hfd => by cases hfd⟩

/-- The listening socket may always be closed. -/
theorem lawful_pasvCleanup :
    (vsfPrivopPasvCleanup kernel).Meets (Lawful cfg remoteAddr) s
      (fun _ s => Lawful cfg remoteAddr s) := by
  refine meets_session h ?_
  cases s.pasvListenFd with
  | none => exact h
  | some fd =>
      have hasked := h.ask kernel (.close fd) fun _ => trivial
      exact meets_sys _ hasked ⟨hasked, hasked⟩

/-- The parent may bind what it is permitted to. -/
theorem lawful_bindAndListen (fd : File) {addr : Sockaddr}
    (haddr : ∀ result, (Deed.asked (.bind fd addr) result).Permitted cfg remoteAddr s.deeds) :
    (bindAndListen kernel fd addr).Meets (Lawful cfg remoteAddr) s
      (fun _ s => Lawful cfg remoteAddr s) := by
  have hasked := h.ask kernel _ haddr
  refine meets_sys _ hasked ?_
  cases (kernel.answer (.bind fd addr) s.kernel).1 with
  | some e => exact hasked
  | none =>
      have hlistened := hasked.ask kernel (.listen fd) fun _ => trivial
      refine meets_sys _ hlistened ?_
      cases (kernel.answer (.listen fd) (s.ask kernel (.bind fd addr)).kernel).1 with
      | none => exact hlistened
      | some e =>
          dsimp only
          split
          · trivial
          · exact hlistened

/-- The parent may bind the ports of the range. -/
theorem lawful_pasvBind (fd : File) (left : Nat) :
    (pasvBind kernel cfg fd left).Meets (Lawful cfg remoteAddr) s
      (fun _ s => Lawful cfg remoteAddr s) := by
  induction left generalizing s with
  | zero => trivial
  | succ left ih =>
      have hhigh := h.ask kernel .randomByte fun _ => trivial
      refine meets_sys _ hhigh ?_
      have hlow := hhigh.ask kernel .randomByte fun _ => trivial
      refine meets_sys _ hlow ?_
      refine (lawful_bindAndListen hlow fd fun _ => ⟨clone_clone_setPort _ _, Or.inr ?_⟩).bind
        fun result s hs => ?_
      · rw [port_setPort]
        exact scaledPort_range cfg _ _
      · cases result with
        | none => exact hs
        | some e =>
            cases e with
            | addrinuse => exact ih hs
            | acces => exact ih hs
            | other => trivial

/-- The parent may listen on a port of the range. -/
theorem lawful_pasvListen :
    (vsfPrivopPasvListen kernel cfg).Meets (Lawful cfg remoteAddr) s
      (fun _ s => Lawful cfg remoteAddr s) := by
  refine (lawful_getIpsock h _).bind fun fd s hs => ?_
  have hset : Lawful cfg remoteAddr { s with pasvListenFd := some fd } := hs
  refine ⟨hset, ?_⟩
  exact (lawful_activateReuseaddr hset fd).bind fun _ s hs => lawful_pasvBind hs fd 9

/-- A connection that is accepted is one of the client. -/
theorem lawful_acceptPasv :
    (vsfPrivopAcceptPasv kernel cfg).Meets (Lawful cfg remoteAddr) s
      (fun result s => Lawful cfg remoteAddr s ∧ ∀ fd, result = .ok fd →
        (Deed.passed fd).Permitted cfg remoteAddr s.deeds) := by
  refine meets_session h ?_
  cases s.pasvListenFd with
  | none =>
      dsimp only
      split
      · trivial
      · exact ⟨h, fun fd hfd => by cases hfd⟩
  | some g =>
      have hasked := h.ask kernel (.accept g) fun _ => trivial
      refine meets_sys _ hasked ?_
      cases hanswer : (kernel.answer (.accept g) s.kernel).1 with
      | none => exact ⟨hasked, fun fd hfd => by cases hfd⟩
      | some accepted =>
          dsimp only
          split
          · have hclosed := hasked.ask kernel (.close accepted.1) fun _ => trivial
            exact meets_sys _ hclosed ⟨hclosed, fun fd hfd => by cases hfd⟩
          · rename_i hlegal
            refine ⟨hasked, fun fd hfd => ?_⟩
            cases hfd
            refine Or.inr ⟨g, accepted.2, ?_, ?_⟩
            · rw [getLast?_ask, hanswer]
            · rw [not_and_or, Decidable.not_not, Decidable.not_not, addrEqual_congr h.2] at hlegal
              exact hlegal

/-- The parent may give a regular file away. -/
theorem lawful_doFileChown (hcfg : cfg.chownUploads = true) (fd : File) :
    (vsfPrivopDoFileChown kernel cfg fd).Meets (Lawful cfg remoteAddr) s
      (fun _ s => Lawful cfg remoteAddr s) := by
  have hasked := h.ask kernel (.fstat fd) fun _ => trivial
  refine meets_sys _ hasked ?_
  cases hanswer : (kernel.answer (.fstat fd) s.kernel).1 with
  | none => trivial
  | some st =>
      dsimp only
      split
      · exact hasked
      · split
        · trivial
        · rename_i hlegal
          simp only [not_or, not_and_or, Decidable.not_not] at hlegal
          obtain ⟨hset, hregular, howner⟩ := hlegal
          have hchowned := hasked.ask kernel (.fchown fd cfg.anonUploadChownUid) fun _ =>
            ⟨hcfg, rfl, hset, st, by rw [getLast?_ask, hanswer], hregular, howner⟩
          refine meets_sys _ hchowned ?_
          split
          · exact hchowned
          · trivial

/-- A descriptor that the child has too may be closed. -/
theorem lawful_dropFd (fd : File) :
    (dropFd fd).Meets (Lawful cfg remoteAddr) s (fun _ s => Lawful cfg remoteAddr s) :=
  have hdropped : Lawful cfg remoteAddr { s with deeds := s.deeds ++ [.dropped fd] } :=
    ⟨permitted_concat h.1 trivial, h.2⟩
  ⟨hdropped, hdropped⟩

/-- Whatever descriptor arrives, only a regular file is given away. -/
theorem lawful_cmdProcessChown (hcfg : cfg.chownUploads = true) :
    (cmdProcessChown kernel cfg).Meets (Lawful cfg remoteAddr) s
      (fun _ s => Lawful cfg remoteAddr s) := by
  refine (meets_recvFd fun _ => h).bind fun fd s hs => ?_
  refine (lawful_doFileChown hs hcfg fd).bind fun _ s hs => ?_
  exact (lawful_dropFd hs fd).bind fun _ s hs => hs

/-- A descriptor that may be passed is passed. -/
theorem lawful_passFd {fd : File} (hfd : (Deed.passed fd).Permitted cfg remoteAddr s.deeds) :
    (privSockSendChar resultOk >>= fun _ => passFd fd >>= fun _ => dropFd fd).Meets
      (Lawful cfg remoteAddr) s (fun _ s => Lawful cfg remoteAddr s) :=
  have hpassed : Lawful cfg remoteAddr { s with deeds := s.deeds ++ [.passed fd] } :=
    ⟨permitted_concat h.1 hfd, h.2⟩
  ⟨hpassed, lawful_dropFd hpassed fd⟩

/-- Whatever port arrives, the connection goes to the client. -/
theorem lawful_cmdProcessGetDataSock :
    (cmdProcessGetDataSock kernel cfg).Meets (Lawful cfg remoteAddr) s
      (fun _ s => Lawful cfg remoteAddr s) := by
  refine (meets_getInt fun _ => h).bind fun n s hs => ?_
  refine (lawful_getFtpPortSock hs _).bind fun result s hs => ?_
  cases result with
  | none => exact hs.1
  | some fd => exact lawful_passFd hs.1 (hs.2 fd rfl)

/-- Whoever connects, only the client is let through. -/
theorem lawful_cmdProcessPasvAccept :
    (cmdProcessPasvAccept kernel cfg).Meets (Lawful cfg remoteAddr) s
      (fun _ s => Lawful cfg remoteAddr s) := by
  refine (lawful_acceptPasv h).bind fun result s hs => ?_
  cases result with
  | error e => exact Proc.meets_sendAll _ hs.1
  | ok fd => exact lawful_passFd hs.1 (hs.2 fd rfl)

/-- Whatever the command is, the parent stays within what is permitted. -/
theorem lawful_dispatch (cmd : Byte) :
    (dispatch kernel cfg cmd).Meets (Lawful cfg remoteAddr) s
      (fun _ s => Lawful cfg remoteAddr s) := by
  rw [dispatch]
  split
  · rename_i hchown
    exact lawful_cmdProcessChown h hchown.1
  split
  · exact lawful_cmdProcessGetDataSock h
  split
  · exact (lawful_pasvCleanup h).bind fun _ s hs => hs
  split
  · exact meets_session h (Proc.meets_sendAll _ h)
  split
  · exact (lawful_pasvListen h).bind fun port s hs => Proc.meets_sendAll _ hs
  split
  · exact lawful_cmdProcessPasvAccept h
  · trivial

end Lawful

/-- A child that asks for a connection to a port of its choice, lets the parent work and goes. -/
def demand (port : Int) : List (Exposure Item) :=
  (plain (Cmd.getDataSock.code :: intBytes port)).map .arrives ++ List.replicate 15 .works ++
    [.closes, .works]

end PrivSock
end Server
end ModpackInstaller
