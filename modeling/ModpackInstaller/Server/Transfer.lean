import ModpackInstaller.Server.Reply

/-!
# Data connections of the server

How {lit}`postlogin.c` and {lit}`ftpdataio.c` set up, use and give back a data
connection: {lit}`PORT`, {lit}`EPRT`, {lit}`PASV`, {lit}`EPSV`, the three
handlers behind {lit}`RETR`, {lit}`LIST`, {lit}`NLST`, {lit}`STAT`,
{lit}`STOR`, {lit}`APPE` and {lit}`STOU`, and {lit}`SITE UINS`.  What the
network, the client and the disk do is the input of a command.  A handler gives
{lit}`none` when the process ends in {lit}`bug`, and the calls that never
return are left out.

Main results:

- Theorem {lit}`getRemoteTransferFd_cases`: what a data connection that was asked
  for leaves behind.
- Theorem {lit}`transferOver_cases`: what the three handlers of the original
  server make of it.
- Theorem {lit}`uinsOver_cases`: what {lit}`SITE UINS` makes of it.
-/

namespace ModpackInstaller
namespace Server

/-- `VSFTP_PRIVSOCK_MAXSTR` -/
def privSockMaxstr : Nat := 131072

namespace Transfer

/-! ## States -/

/-- What a command has done so far; only the statements look at it. -/
structure Trace where
  /-- Replies as they go out. -/
  replies : List Text
  /-- `get_remote_transfer_fd` was called. -/
  called : Bool
  /-- `handle_sigurg` has read an `ABOR`. -/
  heard : Bool
deriving DecidableEq, Repr

/-- The fields of `struct vsf_session` that belong to data connections. -/
structure Session where
  /-- `p_port_sockaddr` -/
  portSockaddr : Option Text
  /-- `pasv_listen_fd` is open. -/
  pasvListen : Bool
  /-- `data_fd`, with `none` for -1. -/
  dataFd : Option Nat
  aborReceived : Bool
  controlUseSsl : Bool
  dataUseSsl : Bool
  /-- Another process does the encryption. -/
  sslSlaveActive : Bool
  isAnonymous : Bool
  isAscii : Bool
  restartPos : Nat
  trace : Trace
deriving DecidableEq, Repr

/-- A session behind the login. -/
def Session.start (isAnonymous controlUseSsl dataUseSsl sslSlaveActive : Bool) : Session where
  portSockaddr := none
  pasvListen := false
  dataFd := none
  aborReceived := false
  controlUseSsl := controlUseSsl
  dataUseSsl := dataUseSsl
  sslSlaveActive := sslSlaveActive
  isAnonymous := isAnonymous
  isAscii := true
  restartPos := 0
  trace := ⟨[], false, false⟩

/-- The tunables that these handlers look at. -/
structure Tunables where
  sslEnable : Bool
  forceLocalDataSsl : Bool
  forceAnonDataSsl : Bool
  requireSslReuse : Bool
  asyncAborEnable : Bool
  anonWorldReadableOnly : Bool
  asciiDownloadEnable : Bool
deriving DecidableEq, Repr

/-- The result of accepting or making a data connection. -/
inductive Remote where
  | failed
  /-- Somebody else connected. -/
  | badIp
  | fd (n : Nat)
deriving DecidableEq, Repr

/-- What happens to one data connection.  The `urgent` lists are the command
words that come as urgent data up to the end of the handshake, during the
transfer and during the blocking close. -/
structure Connection where
  remote : Remote
  urgentMark : List Text
  handshake : Bool
  urgentTransfer : List Text
  urgentClose : List Text
  /-- `vsf_ftpdataio_dispose_transfer_fd` will return 1. -/
  closes : Bool
deriving DecidableEq, Repr

/-- `vsf_cmdio_write` -/
def Session.put (s : Session) (status : Nat) (text : Text) : Session :=
  { s with trace := { s.trace with replies := s.trace.replies ++ [vsfCmdioWrite status text] } }

section Put

variable (s : Session) (status : Nat) (text : Text)

@[simp] theorem put_portSockaddr : (s.put status text).portSockaddr = s.portSockaddr := rfl
@[simp] theorem put_pasvListen : (s.put status text).pasvListen = s.pasvListen := rfl
@[simp] theorem put_dataFd : (s.put status text).dataFd = s.dataFd := rfl
@[simp] theorem put_aborReceived : (s.put status text).aborReceived = s.aborReceived := rfl
@[simp] theorem put_dataUseSsl : (s.put status text).dataUseSsl = s.dataUseSsl := rfl
@[simp] theorem put_sslSlaveActive :
    (s.put status text).sslSlaveActive = s.sslSlaveActive := rfl
@[simp] theorem put_called : (s.put status text).trace.called = s.trace.called := rfl
@[simp] theorem put_heard : (s.put status text).trace.heard = s.trace.heard := rfl

end Put

/-! ## Addresses of data connections -/

/-- `pasv_active`; it and `port_active` call each other without end when both
hold. -/
def pasvActive (s : Session) : Option Bool :=
  if s.pasvListen && s.portSockaddr.isSome then none else some s.pasvListen

/-- `port_active` -/
def portActive (s : Session) : Option Bool :=
  if s.pasvListen && s.portSockaddr.isSome then none else some s.portSockaddr.isSome

/-- `port_cleanup` -/
def portCleanup (s : Session) : Session :=
  { s with portSockaddr := none }

/-- `pasv_cleanup` -/
def pasvCleanup (s : Session) : Session :=
  { s with pasvListen := false }

/-- `handle_port`: `addr` is the address when it can be read, and `legal` the
outcome of the security checks. -/
def handlePort (addr : Option Text) (legal : Bool) (s : Session) : Session :=
  let s := portCleanup (pasvCleanup s)
  match addr with
  | none => s.put 500 "Illegal PORT command.".toList
  | some addr =>
    if legal then { s with portSockaddr := some addr }.put 200 "PORT command successful.".toList
    else s.put 500 "Illegal PORT command.".toList

/-- `handle_eprt`: `addr` is the address, or the reply to an argument that
cannot be read. -/
def handleEprt (addr : Except Text Text) (legal : Bool) (s : Session) : Session :=
  let s := pasvCleanup (portCleanup s)
  match addr with
  | .error reply => s.put 500 reply
  | .ok addr =>
    if legal then
      { s with portSockaddr := some addr }.put 200
        "EPRT command successful. Consider using EPSV.".toList
    else s.put 500 "Illegal EPRT command.".toList

/-- The arguments of `EPSV` that open no listener. -/
inductive EpsvArg where
  | all
  | badProtocol
deriving DecidableEq, Repr

/-- `handle_pasv`: `text` is the reply with the address. -/
def handlePasv (isEpsv : Bool) (arg : Option EpsvArg) (text : Text) (s : Session) : Session :=
  match isEpsv, arg with
  | true, some .all => s.put 200 "EPSV ALL ok.".toList
  | true, some .badProtocol => s.put 522 "Bad network protocol.".toList
  | _, _ =>
    let s := portCleanup (pasvCleanup s)
    { s with pasvListen := true }.put (if isEpsv then 229 else 227) text

/-! ## One data connection -/

/-- `data_transfer_checks_ok`: the reply with which it refuses. -/
def dataTransferChecksOk (tun : Tunables) (s : Session) : Option (Option Text) := do
  let pasv ← pasvActive s
  let port ← portActive s
  if !pasv && !port then
    return some (vsfCmdioWrite 425 "Use PORT or PASV first.".toList)
  else if tun.sslEnable && !s.dataUseSsl &&
      ((tun.forceLocalDataSsl && !s.isAnonymous) || (tun.forceAnonDataSsl && s.isAnonymous)) then
    return some (vsfCmdioWrite 522 "Data connections must be encrypted.".toList)
  else return none

/-- The command word that comes with a signal is `ABOR`, behind four telnet
characters. -/
def isAbor (asyncCmd : Text) : Bool :=
  let realCmd := if 4 ≤ asyncCmd.length then asyncCmd.drop 4 else []
  decide (realCmd = "ABOR".toList)

/-- `handle_sigurg` with the command word it reads. -/
def handleSigurg (s : Session) (asyncCmd : Text) : Session :=
  if s.dataFd = none then s
  else if isAbor asyncCmd then
    { s with aborReceived := true, trace := { s.trace with heard := true } }
  else s.put 500 "Unknown command.".toList

/-- The signals that come in one stretch of a transfer. -/
def sigurgs (tun : Tunables) (s : Session) (urgent : List Text) : Session :=
  if tun.asyncAborEnable then urgent.foldl handleSigurg s else s

/-- `vsf_ftpdataio_dispose_transfer_fd` -/
def disposeTransferFd (tun : Tunables) (c : Connection) (s : Session) : Option Session :=
  if s.dataFd = none then none
  else some { sigurgs tun s c.urgentClose with dataFd := none }

/-- `init_data_sock_params` -/
def initDataSockParams (s : Session) (fd : Nat) : Option Session :=
  if s.dataFd ≠ none then none else some { s with dataFd := some fd }

/-- `vsf_ftpdataio_get_pasv_fd`: the descriptor, or `none` for an error. -/
def getPasvFd (c : Connection) (s : Session) : Option (Option Nat × Session) :=
  match c.remote with
  | .failed => some (none, s.put 425 "Failed to establish connection.".toList)
  | .badIp => some (none, s.put 425 "Security: Bad IP connecting.".toList)
  | .fd n => (initDataSockParams s n).map fun s => (some n, s)

/-- `vsf_ftpdataio_get_port_fd` -/
def getPortFd (c : Connection) (s : Session) : Option (Option Nat × Session) :=
  match c.remote with
  | .fd n => (initDataSockParams s n).map fun s => (some n, s)
  | _ => some (none, s.put 425 "Failed to establish connection.".toList)

/-- The descriptor of a passive or an active connection. -/
def getFd (pasv : Bool) (c : Connection) (s : Session) : Option (Option Nat × Session) :=
  if pasv then getPasvFd c s else getPortFd c s

/-- The text with which `vsf_ftpdataio_post_mark_connect` gives up. -/
def sslFailed (tun : Tunables) : Text :=
  "SSL connection failed".toList ++
    if tun.requireSslReuse then
      ("; session reuse required" ++
        ": see require_ssl_reuse option in vsftpd.conf man page").toList
    else []

/-- `vsf_ftpdataio_post_mark_connect` -/
def postMarkConnect (tun : Tunables) (c : Connection) (s : Session) : Bool × Session :=
  if !s.dataUseSsl then (true, s)
  else if c.handshake then (true, s)
  else (false, s.put 522 (sslFailed tun))

/-- The part of `get_remote_transfer_fd` behind a new descriptor. -/
def markConnect (tun : Tunables) (c : Connection) (statusMsg : Text) (fd : Nat) (s : Session) :
    Option (Option Nat × Session) :=
  match postMarkConnect tun c (sigurgs tun (s.put 150 statusMsg) c.urgentMark) with
  | (true, s) => some (some fd, s)
  | (false, s) => (disposeTransferFd tun c s).map fun s => (none, s)

/-- `get_remote_transfer_fd`: the descriptor, or `none` for an error. -/
def getRemoteTransferFd (tun : Tunables) (c : Connection) (statusMsg : Text) (s : Session) :
    Option (Option Nat × Session) := do
  let s := { s with trace := { s.trace with called := true } }
  let pasv ← pasvActive s
  let port ← portActive s
  if !pasv && !port then none
  else
    let s := { s with aborReceived := false }
    match ← getFd pasv c s with
    | (none, s) => some (none, s)
    | (some fd, s) => markConnect tun c statusMsg fd s

/-- `check_abor` -/
def checkAbor (s : Session) : Session :=
  if s.aborReceived then { s with aborReceived := false }.put 226 "ABOR successful.".toList
  else s

/-! ## The end of a transfer -/

/-- What `handle_retr`, `handle_dir_common` and `handle_upload_common` do once
the checks are over: get the descriptor, transfer, dispose, reply, `check_abor`
and clean up; without a descriptor only the clean-up is left.  `result` is the
reply, from the disposal and the session behind it. -/
def transferOver (tun : Tunables) (c : Connection) (mark : Text)
    (result : Bool → Session → Nat × Text) (s : Session) : Option Session := do
  match ← getRemoteTransferFd tun c mark s with
  | (none, s) => return pasvCleanup (portCleanup s)
  | (some _, s) =>
    let s ← disposeTransferFd tun c (sigurgs tun s c.urgentTransfer)
    let (status, text) := result c.closes s
    return pasvCleanup (portCleanup (checkAbor (s.put status text)))

/-- The process that encrypts takes no longer text: its `priv_sock_get_str` dies, and
the session with it. -/
def slaveDies (s : Session) (text : Text) : Bool :=
  s.dataUseSsl && s.sslSlaveActive && decide (privSockMaxstr < text.length)

/-- The end of `handle_site_uins`: `wrote` is `trans_ret`, which an empty text
leaves as it was.  A text cannot be written without a descriptor, and the
disposal ends the process then. -/
def uinsOver (tun : Tunables) (c : Connection) (wrote : Int) (s : Session) : Option Session := do
  let (_, s) ← getRemoteTransferFd tun c "Here comes the update instructions.".toList s
  let s ← disposeTransferFd tun c (sigurgs tun s c.urgentTransfer)
  if !c.closes || wrote < 0 then return s.put 426 "Failure writing network stream.".toList
  else return s.put 226 "Instructions send OK.".toList

/-! ## The handlers -/

/-- Send a reply that is on the wire already. -/
def Session.send (s : Session) (reply : Text) : Session :=
  { s with trace := { s.trace with replies := s.trace.replies ++ [reply] } }

/-- What one `RETR` finds.  `transRet` is the return value of the transfer. -/
structure Retr where
  filename : Text
  permitted : Bool
  opened : Bool
  regular : Bool
  readableOther : Bool
  size : Nat
  transRet : Int
  conn : Connection
deriving DecidableEq, Repr

/-- The mark text of `handle_retr`. -/
def retrMark (tun : Tunables) (w : Retr) (s : Session) : Text :=
  "Opening ".toList ++
    (if tun.asciiDownloadEnable && s.isAscii then "ASCII".toList else "BINARY".toList) ++
    " mode data connection for ".toList ++ w.filename ++ " (".toList ++
    Nat.toDigits 10 w.size ++ " bytes).".toList

/-- The reply of `handle_retr` behind the transfer. -/
def retrResult (w : Retr) (closes : Bool) (_ : Session) : Nat × Text :=
  let retval := if !closes && w.transRet = 0 then -2 else w.transRet
  if retval = -1 then (451, "Failure reading local file.".toList)
  else if retval = -2 then (426, "Failure writing network stream.".toList)
  else (226, "Transfer complete.".toList)

/-- `handle_retr`, as it is called outside of HTTP mode.  A file that is not
regular or not readable goes to `file_close_out`, past the clean-up. -/
def handleRetr (tun : Tunables) (w : Retr) (s : Session) : Option Session := do
  let offset := s.restartPos
  let s := { s with restartPos := 0 }
  match ← dataTransferChecksOk tun s with
  | some reply => return s.send reply
  | none =>
    if s.isAscii && offset ≠ 0 then
      return s.put 550 "No support for resume of ASCII transfer.".toList
    else if !w.permitted then return s.put 550 "Permission denied.".toList
    else if !w.opened then return s.put 550 "Failed to open file.".toList
    else if !w.regular then return s.put 550 "Failed to open file.".toList
    else if s.isAnonymous && tun.anonWorldReadableOnly && !w.readableOther then
      return s.put 550 "Failed to open file.".toList
    else transferOver tun w.conn (retrMark tun w s) (retrResult w) s

/-- What one `LIST`, `NLST` or `STAT` with an argument finds. -/
structure Dir where
  /-- The answer of `vsf_access_check_file` when there is a filter. -/
  permitted : Bool
  /-- `str_opendir` succeeds in the end. -/
  opened : Bool
  readableOther : Bool
  transRet : Int
  conn : Connection
deriving DecidableEq, Repr

/-- The reply of `handle_dir_common` behind the transfer. -/
def dirResult (tun : Tunables) (w : Dir) (closes : Bool) (s : Session) : Nat × Text :=
  let listed := w.opened && !(s.isAnonymous && tun.anonWorldReadableOnly && !w.readableOther)
  let transRet := if listed then w.transRet else 0
  let retval := if !closes && transRet = 0 then -1 else transRet
  if !listed then (226, "Transfer done (but failed to open directory).".toList)
  else if retval = 0 then (226, "Directory send OK.".toList)
  else (426, "Failure writing network stream.".toList)

/-- `handle_dir_common`; `statCmd` is `STAT`, which uses the control
connection. -/
def handleDirCommon (tun : Tunables) (statCmd : Bool) (w : Dir) (s : Session) :
    Option Session := do
  if statCmd then
    if !w.permitted then return s.put 550 "Permission denied.".toList
    else
      return checkAbor ((s.send (vsfCmdioWriteStrHyphen 213 "Status follows:".toList)).put 213
        "End of status".toList)
  else
    match ← dataTransferChecksOk tun s with
    | some reply => return s.send reply
    | none =>
      if !w.permitted then return s.put 550 "Permission denied.".toList
      else transferOver tun w.conn "Here comes the directory listing.".toList (dirResult tun w) s

/-- What one `STOR`, `APPE` or `STOU` finds; `filename` is the unique name in
case of `STOU`. -/
structure Upload where
  filename : Text
  permitted : Bool
  created : Bool
  transRet : Int
  conn : Connection
deriving DecidableEq, Repr

/-- The reply of `handle_upload_common` behind the transfer. -/
def uploadResult (w : Upload) (closes : Bool) (s : Session) : Nat × Text :=
  let retval := if !closes && w.transRet = 0 then -2 else w.transRet
  if retval = -1 then (451, "Failure writing to local file.".toList)
  else if retval = -2 || s.aborReceived then (426, "Failure reading network stream.".toList)
  else (226, "Transfer complete.".toList)

/-- `handle_upload_common`; the file it writes is not part of the session. -/
def handleUploadCommon (tun : Tunables) (isUnique : Bool) (w : Upload) (s : Session) :
    Option Session := do
  let s := { s with restartPos := 0 }
  match ← dataTransferChecksOk tun s with
  | some reply => return s.send reply
  | none =>
    if !w.permitted then return s.put 550 "Permission denied.".toList
    else if !w.created then return s.put 553 "Could not create file.".toList
    else
      let mark := if isUnique then "FILE: ".toList ++ w.filename else "Ok to send data.".toList
      transferOver tun w.conn mark (uploadResult w) s

/-- What one `SITE UINS` finds: the published files, and what an earlier request
left in the static buffer. -/
structure Uins where
  kernel : Kernel
  sys : Sys
  instr : Text
  arg : Text
  wrote : Int
  conn : Connection

/-- `handle_site_uins` with its transfer; `none` also stands for an abort of the
planner and for a text that the encrypting process does not take. -/
def siteUins (tun : Tunables) (w : Uins) (s : Session) : Option Session := do
  let checks ← dataTransferChecksOk tun s
  match handleSiteUins w.kernel w.sys checks w.instr w.arg with
  | .error _ => none
  | .ok (.refuses reply, _) => return s.send reply
  | .ok (.sends text, _) => if slaveDies s text then none else uinsOver tun w.conn w.wrote s

/-! ## The command loop -/

/-- The commands that touch data connections, with what they find. -/
inductive Command where
  | port (addr : Option Text) (legal : Bool)
  | eprt (addr : Except Text Text) (legal : Bool)
  | pasv (isEpsv : Bool) (arg : Option EpsvArg) (text : Text)
  | type (arg : Text)
  | rest (val : Nat)
  | prot (arg : Text)
  | retr (w : Retr)
  | dir (statCmd : Bool) (w : Dir)
  | upload (isUnique : Bool) (w : Upload)
  | uins (w : Uins)
  /-- Any other command, and one that the tunables switch off. -/
  | other (reply : Text)

/-- `handle_type` -/
def handleType (arg : Text) (s : Session) : Session :=
  let arg := arg.map Char.toUpper
  if arg = "I".toList ∨ arg = "L8".toList ∨ arg = "L 8".toList then
    { s with isAscii := false }.put 200 "Switching to Binary mode.".toList
  else if arg = "A".toList ∨ arg = "A N".toList then
    { s with isAscii := true }.put 200 "Switching to ASCII mode.".toList
  else s.put 500 "Unrecognised TYPE command.".toList

/-- `handle_rest` -/
def handleRest (val : Nat) (s : Session) : Session :=
  { s with restartPos := val }.put 350
    ("Restart position accepted (".toList ++ Nat.toDigits 10 val ++ ").".toList)

/-- `handle_prot` -/
def handleProt (arg : Text) (s : Session) : Session :=
  let arg := arg.map Char.toUpper
  if !s.controlUseSsl then s.put 503 "PROT needs a secure connection.".toList
  else if arg = "C".toList then { s with dataUseSsl := false }.put 200 "PROT now Clear.".toList
  else if arg = "P".toList then { s with dataUseSsl := true }.put 200 "PROT now Private.".toList
  else if arg = "S".toList ∨ arg = "E".toList then s.put 536 "PROT not supported.".toList
  else s.put 504 "PROT not recognized.".toList

/-- One round of the loop in `process_post_login`. -/
def step (tun : Tunables) (s : Session) (cmd : Command) : Option Session :=
  let s := { s with trace := ⟨[], false, false⟩ }
  match cmd with
  | .port addr legal => some (handlePort addr legal s)
  | .eprt addr legal => some (handleEprt addr legal s)
  | .pasv isEpsv arg text => some (handlePasv isEpsv arg text s)
  | .type arg => some (handleType arg s)
  | .rest val => some (handleRest val s)
  | .prot arg => some (handleProt arg s)
  | .retr w => handleRetr tun w s
  | .dir statCmd w => handleDirCommon tun statCmd w s
  | .upload isUnique w => handleUploadCommon tun isUnique w s
  | .uins w => siteUins tun w s
  | .other reply => some (s.send reply)

/-! ## What a transfer leaves behind -/

/-- A signal leaves everything alone but the replies and the `ABOR`. -/
theorem sigurgs_keeps {α : Type} {f : Session → α}
    (hf : ∀ s cmd, f (handleSigurg s cmd) = f s) (tun : Tunables) (s : Session)
    (urgent : List Text) : f (sigurgs tun s urgent) = f s := by
  unfold sigurgs
  split
  · induction urgent generalizing s with
    | nil => rfl
    | cons cmd urgent ih => rw [List.foldl_cons, ih, hf]
  · rfl

section Sigurgs

variable (tun : Tunables) (s : Session) (urgent : List Text)

@[simp] theorem sigurgs_portSockaddr : (sigurgs tun s urgent).portSockaddr = s.portSockaddr := by
  refine sigurgs_keeps (f := Session.portSockaddr) (fun s cmd => ?_) tun s urgent
  unfold handleSigurg
  split_ifs <;> rfl

@[simp] theorem sigurgs_pasvListen : (sigurgs tun s urgent).pasvListen = s.pasvListen := by
  refine sigurgs_keeps (f := Session.pasvListen) (fun s cmd => ?_) tun s urgent
  unfold handleSigurg
  split_ifs <;> rfl

@[simp] theorem sigurgs_dataFd : (sigurgs tun s urgent).dataFd = s.dataFd := by
  refine sigurgs_keeps (f := Session.dataFd) (fun s cmd => ?_) tun s urgent
  unfold handleSigurg
  split_ifs <;> rfl

@[simp] theorem sigurgs_dataUseSsl : (sigurgs tun s urgent).dataUseSsl = s.dataUseSsl := by
  refine sigurgs_keeps (f := Session.dataUseSsl) (fun s cmd => ?_) tun s urgent
  unfold handleSigurg
  split_ifs <;> rfl

@[simp] theorem sigurgs_sslSlaveActive :
    (sigurgs tun s urgent).sslSlaveActive = s.sslSlaveActive := by
  refine sigurgs_keeps (f := Session.sslSlaveActive) (fun s cmd => ?_) tun s urgent
  unfold handleSigurg
  split_ifs <;> rfl

@[simp] theorem sigurgs_called : (sigurgs tun s urgent).trace.called = s.trace.called := by
  refine sigurgs_keeps (f := fun s => s.trace.called) (fun s cmd => ?_) tun s urgent
  unfold handleSigurg
  split_ifs <;> rfl

variable {s}

/-- An `ABOR` is noted while the data connection is open. -/
theorem sigurgs_aborReceived (hfd : s.dataFd ≠ none) :
    (sigurgs tun s urgent).aborReceived = true ↔
      s.aborReceived = true ∨
        tun.asyncAborEnable = true ∧ ∃ cmd ∈ urgent, isAbor cmd = true := by
  unfold sigurgs
  split
  · rename_i hasync
    induction urgent generalizing s with
    | nil => simp
    | cons cmd urgent ih =>
        have hkeeps : (handleSigurg s cmd).dataFd ≠ none := by
          unfold handleSigurg
          split_ifs <;> exact hfd
        rw [List.foldl_cons, ih hkeeps]
        by_cases habor : isAbor cmd = true
        · simp [handleSigurg, hfd, habor, hasync]
        · simp [handleSigurg, hfd, habor, hasync]
  · rename_i hasync
    simp [hasync]

/-- What the statements call heard is what the session has noted. -/
theorem sigurgs_heard (hheard : s.trace.heard = s.aborReceived) :
    (sigurgs tun s urgent).trace.heard = (sigurgs tun s urgent).aborReceived := by
  unfold sigurgs
  split
  · induction urgent generalizing s with
    | nil => exact hheard
    | cons cmd urgent ih =>
        refine ih ?_
        unfold handleSigurg
        split_ifs
        · exact hheard
        · rfl
        · exact hheard
  · exact hheard

end Sigurgs

/-- The data connection is up, an `ABOR` comes, and the handshake fails. -/
def AbortedHandshake (tun : Tunables) (c : Connection) (s : Session) : Prop :=
  (∃ n, c.remote = .fd n) ∧ s.dataUseSsl = true ∧ c.handshake = false ∧
    tun.asyncAborEnable = true ∧
      ∃ cmd ∈ c.urgentMark ++ c.urgentClose, isAbor cmd = true

/-- What `get_remote_transfer_fd` with the result `fd` leaves behind. -/
structure Connected (tun : Tunables) (c : Connection) (fd : Option Nat) (s s' : Session) :
    Prop where
  active : s.pasvListen = true ∨ s.portSockaddr ≠ none
  portSockaddr : s'.portSockaddr = s.portSockaddr
  pasvListen : s'.pasvListen = s.pasvListen
  dataFd : s'.dataFd = fd
  called : s'.trace.called = true
  heard : s'.trace.heard = s'.aborReceived
  unanswered : fd = none → (s'.aborReceived = true ↔ AbortedHandshake tun c s)
  shaken : fd ≠ none → ¬ AbortedHandshake tun c s

/-- How accepting or making the connection can end. -/
def RemoteEnds (c : Connection) (s : Session) (fd : Option Nat) (s' : Session) : Prop :=
  (fd = none ∧ (∀ n, c.remote ≠ .fd n) ∧ ∃ text, s' = s.put 425 text) ∨
    ∃ n, c.remote = .fd n ∧ fd = some n ∧ s.dataFd = none ∧ s' = { s with dataFd := some n }

/-- A connection that is not made is refused with 425. -/
theorem remoteEnds_refused {c : Connection} {s s' : Session} {fd : Option Nat} {text : Text}
    (hremote : ∀ n, c.remote ≠ .fd n) (h : some (none, s.put 425 text) = some (fd, s')) :
    RemoteEnds c s fd s' := by
  rw [Option.some.injEq, Prod.mk.injEq] at h
  exact Or.inl ⟨h.1.symm, hremote, text, h.2.symm⟩

/-- A connection that is made is the one that is used. -/
theorem remoteEnds_opened {c : Connection} {s s' : Session} {fd : Option Nat} {n : Nat}
    (hremote : c.remote = .fd n)
    (h : (initDataSockParams s n).map (fun s => (some n, s)) = some (fd, s')) :
    RemoteEnds c s fd s' := by
  unfold initDataSockParams at h
  by_cases hfd : s.dataFd = none
  · rw [if_neg (not_not.mpr hfd), Option.map_some, Option.some.injEq, Prod.mk.injEq] at h
    exact Or.inr ⟨n, hremote, h.1.symm, hfd, h.2.symm⟩
  · rw [if_pos hfd] at h
    cases h

/-- How the wait for the client ends. -/
theorem getPasvFd_cases {c : Connection} {s s' : Session} {fd : Option Nat}
    (h : getPasvFd c s = some (fd, s')) : RemoteEnds c s fd s' := by
  unfold getPasvFd at h
  split at h
  · rename_i hremote
    exact remoteEnds_refused (by simp [hremote]) h
  · rename_i hremote
    exact remoteEnds_refused (by simp [hremote]) h
  · rename_i n hremote
    exact remoteEnds_opened hremote h

/-- How the call to the client ends. -/
theorem getPortFd_cases {c : Connection} {s s' : Session} {fd : Option Nat}
    (h : getPortFd c s = some (fd, s')) : RemoteEnds c s fd s' := by
  unfold getPortFd at h
  split at h
  · rename_i n hremote
    exact remoteEnds_opened hremote h
  · rename_i hremote
    exact remoteEnds_refused hremote h

/-- What the disposal of a data connection does. -/
structure Disposed (tun : Tunables) (c : Connection) (s s' : Session) : Prop where
  opened : s.dataFd ≠ none
  dataFd : s'.dataFd = none
  portSockaddr : s'.portSockaddr = s.portSockaddr
  pasvListen : s'.pasvListen = s.pasvListen
  called : s'.trace.called = s.trace.called
  heard : s.trace.heard = s.aborReceived → s'.trace.heard = s'.aborReceived
  aborReceived : s'.aborReceived = true ↔
    s.aborReceived = true ∨ tun.asyncAborEnable = true ∧ ∃ cmd ∈ c.urgentClose, isAbor cmd = true

/-- How the end of a transfer leaves the session. -/
theorem disposeTransferFd_disposed {tun : Tunables} {c : Connection} {s s' : Session}
    (h : disposeTransferFd tun c s = some s') : Disposed tun c s s' := by
  unfold disposeTransferFd at h
  split at h
  · cases h
  · rename_i hfd
    obtain rfl := Option.some.inj h
    exact ⟨hfd, rfl, sigurgs_portSockaddr .., sigurgs_pasvListen .., sigurgs_called ..,
      sigurgs_heard tun c.urgentClose, sigurgs_aborReceived tun c.urgentClose hfd⟩

/-- Only a handshake that fails is reported. -/
theorem postMarkConnect_eq (tun : Tunables) (c : Connection) (s : Session) :
    postMarkConnect tun c s =
      if s.dataUseSsl = true ∧ c.handshake = false then (false, s.put 522 (sslFailed tun))
      else (true, s) := by
  unfold postMarkConnect
  cases s.dataUseSsl <;> cases c.handshake <;> rfl

/-- What a fresh descriptor leads to. -/
theorem markConnect_connected {tun : Tunables} {c : Connection} {statusMsg : Text} {n : Nat}
    {s s' : Session} {fd : Option Nat} (h : markConnect tun c statusMsg n s = some (fd, s'))
    (hremote : c.remote = .fd n) (hfd : s.dataFd = some n) (hcalled : s.trace.called = true)
    (hheard : s.trace.heard = false) (habor : s.aborReceived = false)
    (hactive : s.pasvListen = true ∨ s.portSockaddr ≠ none) : Connected tun c fd s s' := by
  have hput : (s.put 150 statusMsg).dataFd ≠ none := by simp [hfd]
  have hmark : (sigurgs tun (s.put 150 statusMsg) c.urgentMark).trace.heard =
      (sigurgs tun (s.put 150 statusMsg) c.urgentMark).aborReceived :=
    sigurgs_heard tun c.urgentMark (by simp [hheard, habor])
  have hnoted := sigurgs_aborReceived tun c.urgentMark hput
  unfold markConnect at h
  rw [postMarkConnect_eq] at h
  simp only [sigurgs_dataUseSsl, put_dataUseSsl] at h
  by_cases hfails : s.dataUseSsl = true ∧ c.handshake = false
  · rw [if_pos hfails] at h
    obtain ⟨s₂, hdispose, hs₂⟩ := Option.map_eq_some_iff.mp h
    have hdisposed := disposeTransferFd_disposed hdispose
    rw [Prod.mk.injEq] at hs₂
    obtain ⟨rfl, rfl⟩ := hs₂
    refine ⟨hactive, ?_, ?_, hdisposed.dataFd, ?_, hdisposed.heard hmark, fun _ => ?_, by simp⟩
    · rw [hdisposed.portSockaddr]
      simp
    · rw [hdisposed.pasvListen]
      simp
    · rw [hdisposed.called]
      simp [hcalled]
    · rw [AbortedHandshake, hdisposed.aborReceived, put_aborReceived, hnoted, put_aborReceived,
        habor]
      simp only [hremote, hfails, List.mem_append, or_and_right, exists_or]
      grind
  · rw [if_neg hfails, Option.some.injEq, Prod.mk.injEq] at h
    obtain ⟨rfl, rfl⟩ := h
    refine ⟨hactive, by simp, by simp, by simp [hfd], by simp [hcalled], hmark, by simp, ?_⟩
    rintro - ⟨-, hssl, hshake, -⟩
    exact hfails ⟨hssl, hshake⟩

/-- Who is asked knows whether a socket listens. -/
theorem pasvActive_some {s : Session} {pasv : Bool} (h : pasvActive s = some pasv) :
    pasv = s.pasvListen := by
  unfold pasvActive at h
  split at h
  · cases h
  · exact (Option.some.inj h).symm

/-- Who is asked knows whether an address was given. -/
theorem portActive_some {s : Session} {port : Bool} (h : portActive s = some port) :
    port = s.portSockaddr.isSome := by
  unfold portActive at h
  split at h
  · cases h
  · exact (Option.some.inj h).symm

/-- How a data connection is made, in either mode. -/
theorem getFd_cases {pasv : Bool} {c : Connection} {s s' : Session} {fd : Option Nat}
    (h : getFd pasv c s = some (fd, s')) : RemoteEnds c s fd s' := by
  unfold getFd at h
  split at h
  · exact getPasvFd_cases h
  · exact getPortFd_cases h

/-- What `get_remote_transfer_fd` leaves behind when it returns. -/
theorem getRemoteTransferFd_cases {tun : Tunables} {c : Connection} {statusMsg : Text}
    {s s' : Session} {fd : Option Nat}
    (h : getRemoteTransferFd tun c statusMsg s = some (fd, s')) (hidle : s.dataFd = none)
    (hheard : s.trace.heard = false) : Connected tun c fd s s' := by
  simp only [getRemoteTransferFd, bind, Option.bind_eq_some_iff] at h
  obtain ⟨pasv, hpasv, port, hport, h⟩ := h
  obtain rfl := pasvActive_some hpasv
  obtain rfl := portActive_some hport
  split at h
  · cases h
  rename_i hnot
  have hactive : s.pasvListen = true ∨ s.portSockaddr ≠ none := by
    cases hlisten : s.pasvListen with
    | true => exact Or.inl rfl
    | false => exact Or.inr (by simpa [hlisten] using hnot)
  obtain ⟨⟨fd₁, s₁⟩, hremote, h⟩ := Option.bind_eq_some_iff.mp h
  rcases getFd_cases hremote with ⟨rfl, hnone, text, rfl⟩ | ⟨n, hfd, rfl, -, rfl⟩
  · simp only [Option.some.injEq, Prod.mk.injEq] at h
    obtain ⟨rfl, rfl⟩ := h
    refine ⟨hactive, rfl, rfl, hidle, rfl, hheard, fun _ => ?_, by simp⟩
    simp [AbortedHandshake, hnone]
  · have hconnected := markConnect_connected h hfd rfl rfl hheard rfl hactive
    exact ⟨hactive, hconnected.portSockaddr, hconnected.pasvListen, hconnected.dataFd,
      hconnected.called, hconnected.heard, hconnected.unanswered, hconnected.shaken⟩

/-! ## The two ends of a transfer -/

/-- No data connection is prepared or open, and an `ABOR` that was read is
answered. -/
structure Clean (s : Session) : Prop where
  portSockaddr : s.portSockaddr = none
  pasvListen : s.pasvListen = false
  dataFd : s.dataFd = none
  aborReceived : s.aborReceived = false
  answered : s.trace.heard = true →
    vsfCmdioWrite 226 "ABOR successful.".toList ∈ s.trace.replies

/-- `check_abor` answers what was heard, and the clean-up does the rest. -/
theorem clean_of_checkAbor {s : Session} (hfd : s.dataFd = none)
    (hheard : s.trace.heard = s.aborReceived) :
    Clean (pasvCleanup (portCleanup (checkAbor s))) := by
  unfold checkAbor
  split
  · exact ⟨rfl, rfl, hfd, rfl, fun _ => by simp [pasvCleanup, portCleanup, Session.put]⟩
  · rename_i habor
    have hfalse : s.aborReceived = false := by simpa using habor
    refine ⟨rfl, rfl, hfd, hfalse, fun h => ?_⟩
    exact absurd (hheard ▸ h : s.aborReceived = true) habor

/-- The check for `ABOR` calls nobody. -/
theorem checkAbor_called (s : Session) : (checkAbor s).trace.called = s.trace.called := by
  unfold checkAbor
  split <;> rfl

/-- The three handlers leave nothing behind, but for an `ABOR` in front of a
handshake that fails. -/
theorem transferOver_cases {tun : Tunables} {c : Connection} {mark : Text}
    {result : Bool → Session → Nat × Text} {s s' : Session}
    (h : transferOver tun c mark result s = some s') (hidle : s.dataFd = none)
    (hheard : s.trace.heard = false) :
    s'.trace.called = true ∧ s'.dataFd = none ∧ (Clean s' ↔ ¬ AbortedHandshake tun c s) := by
  simp only [transferOver, bind, Option.bind_eq_some_iff] at h
  obtain ⟨⟨fd, s₁⟩, hremote, h⟩ := h
  have hconnected := getRemoteTransferFd_cases hremote hidle hheard
  cases fd with
  | none =>
      obtain rfl := Option.some.inj h
      refine ⟨hconnected.called, hconnected.dataFd, ?_⟩
      have hunanswered := hconnected.unanswered rfl
      constructor
      · intro hclean habort
        have habor : s₁.aborReceived = true := hunanswered.mpr habort
        exact absurd (habor.symm.trans hclean.aborReceived) (by simp)
      · intro hno
        have habor : s₁.aborReceived = false := by simpa [hno] using hunanswered
        refine ⟨rfl, rfl, hconnected.dataFd, habor, fun h => ?_⟩
        exact absurd (hconnected.heard ▸ h : s₁.aborReceived = true) (by simp [habor])
  | some n =>
      obtain ⟨s₂, hdispose, h⟩ := Option.bind_eq_some_iff.mp h
      have hdisposed := disposeTransferFd_disposed hdispose
      obtain rfl := Option.some.inj h
      have hclean : Clean (pasvCleanup (portCleanup (checkAbor
          (s₂.put (result c.closes s₂).1 (result c.closes s₂).2)))) :=
        clean_of_checkAbor hdisposed.dataFd
          (hdisposed.heard (sigurgs_heard tun c.urgentTransfer hconnected.heard))
      refine ⟨?_, hclean.dataFd, iff_of_true hclean (hconnected.shaken (by simp))⟩
      calc (checkAbor (s₂.put _ _)).trace.called
          = s₂.trace.called := checkAbor_called _
        _ = s₁.trace.called := by rw [hdisposed.called, sigurgs_called]
        _ = true := hconnected.called

/-- Both ends need an address. -/
theorem transferOver_active {tun : Tunables} {c : Connection} {mark : Text}
    {result : Bool → Session → Nat × Text} {s s' : Session}
    (h : transferOver tun c mark result s = some s') (hidle : s.dataFd = none)
    (hheard : s.trace.heard = false) :
    s.pasvListen = true ∨ s.portSockaddr ≠ none := by
  simp only [transferOver, bind, Option.bind_eq_some_iff] at h
  obtain ⟨⟨fd, s₁⟩, hremote, -⟩ := h
  exact (getRemoteTransferFd_cases hremote hidle hheard).active

/-- Instructions that are sent have had a data connection. -/
theorem uinsOver_active {tun : Tunables} {c : Connection} {wrote : Int} {s s' : Session}
    (h : uinsOver tun c wrote s = some s') (hidle : s.dataFd = none)
    (hheard : s.trace.heard = false) : s.pasvListen = true ∨ s.portSockaddr ≠ none := by
  simp only [uinsOver, bind, Option.bind_eq_some_iff] at h
  obtain ⟨⟨fd, s₁⟩, hremote, -⟩ := h
  exact (getRemoteTransferFd_cases hremote hidle hheard).active

/-- `SITE UINS` leaves the address in place, and with it the way to a second data
connection. -/
theorem uinsOver_cases {tun : Tunables} {c : Connection} {wrote : Int} {s s' : Session}
    (h : uinsOver tun c wrote s = some s') (hidle : s.dataFd = none)
    (hheard : s.trace.heard = false) :
    s'.trace.called = true ∧ s'.dataFd = none ∧ s'.portSockaddr = s.portSockaddr ∧
      s'.pasvListen = s.pasvListen ∧ ¬ Clean s' := by
  simp only [uinsOver, bind, Option.bind_eq_some_iff] at h
  obtain ⟨⟨fd, s₁⟩, hremote, s₂, hdispose, h⟩ := h
  have hconnected := getRemoteTransferFd_cases hremote hidle hheard
  have hdisposed := disposeTransferFd_disposed hdispose
  have hreply : ∃ status text, s' = s₂.put status text := by
    split at h
    · exact ⟨_, _, (Option.some.inj h).symm⟩
    · exact ⟨_, _, (Option.some.inj h).symm⟩
  obtain ⟨status, text, rfl⟩ := hreply
  have hport : s₂.portSockaddr = s.portSockaddr := by
    rw [hdisposed.portSockaddr, sigurgs_portSockaddr, hconnected.portSockaddr]
  have hpasv : s₂.pasvListen = s.pasvListen := by
    rw [hdisposed.pasvListen, sigurgs_pasvListen, hconnected.pasvListen]
  refine ⟨?_, hdisposed.dataFd, hport, hpasv, fun hclean => ?_⟩
  · rw [put_called, hdisposed.called, sigurgs_called, hconnected.called]
  · rcases hconnected.active with hlisten | haddr
    · exact absurd (hlisten.symm.trans (hpasv.symm.trans hclean.pasvListen)) (by simp)
    · exact haddr (hport.symm.trans hclean.portSockaddr)

end Transfer
end Server
end ModpackInstaller
