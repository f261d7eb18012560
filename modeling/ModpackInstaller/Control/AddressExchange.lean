import Mathlib.Data.Fintype.Basic
import ModpackInstaller.Channel.Machine
import ModpackInstaller.Control.Commands
import ModpackInstaller.Control.SizeAnnouncement
import ModpackInstaller.Library.Split

/-!
# Addresses of data connections

In a reply to {lit}`PASV` and in the argument of {lit}`PORT` an address stands as six
decimal numbers between commas: the four bytes of the address and the two bytes of the
port.  The client and the server each write one of the two and read the other.

Main results:

- Theorem {lit}`dialled_line`: the client dials the address that stands in a reply.
- Theorem {lit}`parseFields_intercalate`: the server reads the bytes that were written.
- Theorem {lit}`exchange_iff`: an address to be advertised is dialled exactly when it is
  not the configured one in a session over IPv6, and every local address reaches the
  server.
- Theorem {lit}`exchange_fails`: such a configured address is replaced by zeros.
-/

namespace ModpackInstaller
namespace Control
namespace AddressExchange

open Library Server Client

/-! ## Addresses -/

/-- `unsigned char` -/
abbrev Byte := Fin 256

/-- `unsigned short` of a port. -/
abbrev Port := Fin 65536

/-- The low byte of a number. -/
def toByte (n : Nat) : Byte :=
  Fin.ofNat 256 n

@[simp] theorem val_toByte (n : Nat) : (toByte n).val = n % 256 := rfl

/-- A number as an `unsigned short`. -/
def toPort (n : Nat) : Port :=
  Fin.ofNat 65536 n

@[simp] theorem val_toPort (n : Nat) : (toPort n).val = n % 65536 := rfl

/-- An IPv4 address. -/
structure Ipv4 where
  b0 : Byte
  b1 : Byte
  b2 : Byte
  b3 : Byte
deriving DecidableEq, Repr

/-- The bytes in network order. -/
def Ipv4.bytes (a : Ipv4) : List Byte :=
  [a.b0, a.b1, a.b2, a.b3]

/-- A number of a byte or a port. -/
def decimal (n : Nat) : Text :=
  Nat.toDigits 10 n

/-- `inet_ntoa`, `InetAddress.getHostAddress` -/
def dotted (a : Ipv4) : Text :=
  ['.'].intercalate (a.bytes.map fun b : Byte => decimal b.val)

/-- `struct vsf_sysutil_sockaddr`.  An IPv6 address has twelve bytes in front of four
that may be those of an IPv4 address. -/
inductive Sockaddr where
  | inet (addr : Ipv4) (port : Port)
  | inet6 (front : Fin 12 → Byte) (addr : Ipv4) (port : Port)
deriving DecidableEq

/-- What is in front of an IPv4 address in an IPv6 address. -/
def pattern (i : Fin 12) : Byte :=
  if i.val < 10 then 0 else 0xFF

namespace Sockaddr

/-- `vsf_sysutil_sockaddr_is_ipv6` -/
def isIpv6 : Sockaddr → Bool
  | inet .. => false
  | inet6 .. => true

/-- `vsf_sysutil_sockaddr_ipv6_v4` -/
def ipv6V4 : Sockaddr → Option Ipv4
  | inet .. => none
  | inet6 front addr _ => if front = pattern then some addr else none

/-- `vsf_sysutil_sockaddr_clone`: without the port. -/
def clone : Sockaddr → Sockaddr
  | inet addr _ => inet addr 0
  | inet6 front addr _ => inet6 front addr 0

/-- `vsf_sysutil_sockaddr_set_ipv4addr` -/
def setIpv4addr (raw : Ipv4) : Sockaddr → Sockaddr
  | inet _ port => inet raw port
  | inet6 _ _ port => inet6 pattern raw port

/-- `vsf_sysutil_sockaddr_set_port` -/
def setPort (port : Port) : Sockaddr → Sockaddr
  | inet addr _ => inet addr port
  | inet6 front addr _ => inet6 front addr port

/-- `vsf_sysutil_sockaddr_addr_equal` -/
def addrEqual (p1 p2 : Sockaddr) : Bool :=
  match p1, p2 with
  | inet addr _, inet6 .. => decide (p2.ipv6V4 = some addr)
  | inet6 .., inet addr _ => decide (p1.ipv6V4 = some addr)
  | inet addr _, inet addr' _ => decide (addr = addr')
  | inet6 front addr _, inet6 front' addr' _ => decide (front = front' ∧ addr = addr')

/-- The IPv4 address that is meant. -/
def v4 : Sockaddr → Option Ipv4
  | inet addr _ => some addr
  | inet6 front addr port => (inet6 front addr port).ipv6V4

def port : Sockaddr → Port
  | inet _ port => port
  | inet6 _ _ port => port

end Sockaddr

/-! ## The server -/

section Passive

/- `inet_aton`, and the spelling of IPv6 addresses by `inet_ntop`. -/
variable (inetAton : Text → Option Ipv4) (inetNtop6 : (Fin 12 → Byte) → Ipv4 → Text)

/-- `vsf_sysutil_inet_ntop` -/
def sysutilInetNtop : Sockaddr → Text
  | .inet addr _ => dotted addr
  | .inet6 front addr _ => inetNtop6 front addr

/-- `s_p_sockaddr` in `handle_pasv`; `none` when it dies of an invalid `pasv_address`. -/
def pasvSockaddr (pasvAddress : Option Text) (localAddr : Sockaddr) : Option Sockaddr :=
  match pasvAddress with
  | some text => (inetAton text).map fun addr => .inet addr 0
  | none => some localAddr.clone

/-- `s_pasv_res_str` in `handle_pasv`, for `PASV`. -/
def pasvResStr (pasvAddress : Option Text) (localAddr : Sockaddr) (thePort : Port) :
    Option Text :=
  (pasvSockaddr inetAton pasvAddress localAddr).map fun sockaddr =>
    let address :=
      if !localAddr.isIpv6 then sysutilInetNtop inetNtop6 sockaddr
      else
        match sockaddr.ipv6V4 with
        | some v4addr => dotted v4addr
        | none => "0,0,0,0".toList
    strReplaceChar ("Entering Passive Mode (".toList ++ address) '.' ',' ++ ",".toList ++
      decimal (thePort.val >>> 8) ++ ",".toList ++ decimal (thePort.val &&& 255) ++ ").".toList

end Passive

/-- `isspace` -/
def isSpace (c : Char) : Bool :=
  c = ' ' || (9 ≤ c.toNat && c.toNat ≤ 13)

/-- `str_atoi`: a `long` that stops at its bounds, cut down to an `int`. -/
def strAtoi (s : Text) : Int :=
  let digits (ds : Text) : Int := digitsValue (ds.takeWhile Char.isDigit)
  let value :=
    match s.dropWhile isSpace with
    | '-' :: ds => max (-digits ds) (-9223372036854775808)
    | '+' :: ds => min (digits ds) 9223372036854775807
    | ds => min (digits ds) 9223372036854775807
  value.bmod 4294967296

/-- The loop in `vsf_sysutil_parse_uchar_string_sep`, with the number of items left. -/
def parseFields (sep : Char) : Nat → Text → Option (List Byte)
  | 0, _ => some []
  | left + 1, s =>
    let (lhs, rhs) := strSplitChar s sep
    if (left ≠ 0 ∧ rhs = []) ∨ (left = 0 ∧ rhs ≠ []) then none
    else
      let thisNumber := strAtoi lhs
      if thisNumber < 0 ∨ 255 < thisNumber then none
      else (parseFields sep left rhs).map fun items => Fin.ofNat 256 thisNumber.toNat :: items

/-- The address and the port that `handle_port` reads. -/
def parsePort (arg : Text) : Option (Ipv4 × Port) :=
  match parseFields ',' 6 arg with
  | some [v0, v1, v2, v3, v4, v5] =>
    some (⟨v0, v1, v2, v3⟩, Fin.ofNat 65536 (v4.val <<< 8 ||| v5.val))
  | _ => none

/-- `handle_port`: the reply, and the address that is kept. -/
def handlePort (portPromiscuous : Bool) (localAddr remoteAddr : Sockaddr) (arg : Text) :
    Text × Option Sockaddr :=
  match parsePort arg with
  | none => (vsfCmdioWrite 500 "Illegal PORT command.".toList, none)
  | some (vals, thePort) =>
    let sockaddr := (localAddr.clone.setIpv4addr vals).setPort thePort
    if !portPromiscuous && (!remoteAddr.addrEqual sockaddr || decide (thePort.val < 1024)) then
      (vsfCmdioWrite 500 "Illegal PORT command.".toList, none)
    else (vsfCmdioWrite 200 "PORT command successful.".toList, some sockaddr)

/-! ## The client -/

/-- One byte of an address that is written with dots. -/
def octet (digits : Text) : Option Byte :=
  if digits ≠ [] ∧ digits.all Char.isDigit = true ∧ digitsValue digits ≤ 255 then
    some (Fin.ofNat 256 (digitsValue digits))
  else none

/-- An address that is written with three dots. -/
def literal (host : Text) : Option Ipv4 :=
  if 15 < host.length then none
  else
    match host.splitOn '.' with
    | [d0, d1, d2, d3] => do
      let b0 ← octet d0
      let b1 ← octet d1
      let b2 ← octet d2
      let b3 ← octet d3
      return ⟨b0, b1, b2, b3⟩
    | _ => none

/-- `InetAddress.getByName` for a name with three dots at least; `lookup` is the name
service. -/
def getByName (lookup : Text → Option Ipv4) (host : Text) : Option Ipv4 :=
  (literal host).or (lookup host)

/-- The address of the `InetSocketAddress` that `convertAddressPasv` makes of a line. -/
def dialled (lookup : Text → Option Ipv4) (line : Text) : Option (Ipv4 × Int) :=
  match Channel.convertAddressPasv (fun host => (getByName lookup host).isSome) line with
  | .ok (some (host, port)) => (getByName lookup host).map fun addr => (addr, port)
  | _ => none

/-- `String.valueOf` -/
def valueOf (n : Int) : Text :=
  if n < 0 then '-' :: decimal n.natAbs else decimal n.natAbs

/-- `convertAddressPort` -/
def convertAddressPort (localAddress : Ipv4) (port : Int) : Text :=
  let port1 := Int.fdiv port 256
  let port2 := port - port1 * 256
  strReplaceChar (dotted localAddress) '.' ',' ++ ",".toList ++ valueOf port1 ++ ",".toList ++
    valueOf port2

/-! ## Decimal numbers -/

/-- A number is written with digits only. -/
theorem not_mem_decimal {c : Char} (hc : c.isDigit = false) (n : Nat) : c ∉ decimal n := by
  intro h
  rw [isDigit_of_mem_toDigits h] at hc
  cases hc

/-- A number is written with at least one digit. -/
theorem decimal_ne_nil (n : Nat) : decimal n ≠ [] :=
  Nat.toDigits_ne_nil

/-- `str_atoi` reads a number as it was written. -/
theorem strAtoi_decimal {n : Nat} (h : n ≤ 2147483647) : strAtoi (decimal n) = n := by
  have hdigit : ∀ c ∈ decimal n, c.isDigit = true := fun c hc => isDigit_of_mem_toDigits hc
  have htake : (decimal n).takeWhile Char.isDigit = decimal n := by simpa using hdigit
  have hdrop : (decimal n).dropWhile isSpace = decimal n := by
    obtain ⟨c, cs, hcons⟩ := List.exists_cons_of_ne_nil (decimal_ne_nil n)
    have hspace : isSpace c = false := by
      have hc := Char.isDigit_iff_toNat.mp (hdigit c (by simp [hcons]))
      have hblank : c ≠ ' ' := by
        rintro rfl
        exact absurd hc (by decide)
      have hzero : '0'.toNat = 48 := rfl
      have hnine : '9'.toNat = 57 := rfl
      rw [isSpace, Bool.or_eq_false_iff, decide_eq_false_iff_not, Bool.and_eq_false_iff,
        decide_eq_false_iff_not, decide_eq_false_iff_not]
      exact ⟨hblank, by omega⟩
    rw [hcons, List.dropWhile_cons_of_neg (by simp [hspace])]
  have hvalue : digitsValue (decimal n) = n := digitsValue_toDigits n
  unfold strAtoi
  rw [hdrop]
  split
  · rename_i ds hds
    exact absurd (hdigit '-' (by simp [hds])) (by decide)
  · rename_i ds hds
    exact absurd (hdigit '+' (by simp [hds])) (by decide)
  · dsimp only
    rw [htake, hvalue, min_eq_left (by omega)]
    apply Int.bmod_eq_of_le <;> omega

/-- A text without the separator is not split. -/
theorem strSplitChar_of_not_mem {s : Text} {sep : Char} (h : sep ∉ s) :
    strSplitChar s sep = (s, []) := by
  have hall := forall_ne_of_not_mem h
  rw [strSplitChar, List.takeWhile_eq_self_iff.mpr hall, List.dropWhile_eq_nil_iff.mpr hall,
    List.drop_nil]

/-- A field with a byte in it is read, when there are as many as there should be. -/
theorem parseFields_byte {sep : Char} {left : Nat} {s rhs : Text} {b : Byte}
    (hsplit : strSplitChar s sep = (decimal b.val, rhs)) (hcount : left = 0 ↔ rhs = []) :
    parseFields sep (left + 1) s = (parseFields sep left rhs).map fun items => b :: items := by
  have hread : strAtoi (decimal b.val) = (b.val : Int) := strAtoi_decimal (by omega)
  have hbyte : Fin.ofNat 256 (b.val : Int).toNat = b := by
    ext
    simp
  have hrange : ¬ ((b.val : Int) < 0 ∨ 255 < (b.val : Int)) := by omega
  have hfields : ¬ ((left ≠ 0 ∧ rhs = []) ∨ (left = 0 ∧ rhs ≠ [])) := by tauto
  rw [parseFields, hsplit]
  simp only [hread, if_neg hfields, if_neg hrange, hbyte]

/-- The server reads the bytes that were written. -/
theorem parseFields_intercalate {sep : Char} (hsep : sep.isDigit = false) (bs : List Byte) :
    parseFields sep bs.length ([sep].intercalate (bs.map fun b : Byte => decimal b.val)) =
      some bs := by
  induction bs with
  | nil => rfl
  | cons b bs ih =>
      have hb : sep ∉ decimal b.val := not_mem_decimal hsep b.val
      cases bs with
      | nil =>
          have hsplit := strSplitChar_of_not_mem hb
          simp [parseFields_byte hsplit, parseFields]
      | cons b' bs =>
          have hrest : [sep].intercalate ((b' :: bs).map fun b : Byte => decimal b.val) ≠ [] := by
            cases bs <;> simp [List.intercalate_cons_cons, decimal_ne_nil]
          have hsplit : strSplitChar
              ([sep].intercalate ((b :: b' :: bs).map fun b : Byte => decimal b.val)) sep =
              (decimal b.val,
                [sep].intercalate ((b' :: bs).map fun b : Byte => decimal b.val)) := by
            rw [← strSplitChar_append hb]
            simp [List.intercalate_cons_cons]
          rw [List.length_cons, parseFields_byte hsplit (by simpa using hrest), ih]
          rfl

/-! ## Six numbers between commas -/

/-- The numbers of an address and a port. -/
def addressNumbers (a : Ipv4) (port : Port) : List Nat :=
  [a.b0.val, a.b1.val, a.b2.val, a.b3.val, port.val >>> 8, port.val &&& 255]

/-- An address and a port as both sides write them. -/
def addressText (a : Ipv4) (port : Port) : Text :=
  [','].intercalate ((addressNumbers a port).map decimal)

/-- Replacing the separator of a joined text joins it with the other one. -/
theorem strReplaceChar_intercalate {frm into : Char} {ps : List Text} (h : ∀ p ∈ ps, frm ∉ p) :
    strReplaceChar ([frm].intercalate ps) frm into = [into].intercalate ps := by
  induction ps with
  | nil => rfl
  | cons p ps ih =>
      have hp : strReplaceChar p frm into = p := strReplaceChar_of_not_mem (h p (by simp))
      have hps := ih fun q hq => h q (List.mem_cons_of_mem p hq)
      rw [strReplaceChar] at hp hps
      cases ps with
      | nil => simpa [strReplaceChar] using hp
      | cons q ps =>
          simp only [strReplaceChar, List.intercalate_cons_cons, List.map_append, hp, hps]
          simp

/-- The dotted form of an address with commas for its dots. -/
theorem commas_dotted (a : Ipv4) :
    strReplaceChar (dotted a) '.' ',' =
      [','].intercalate (a.bytes.map fun b : Byte => decimal b.val) := by
  apply strReplaceChar_intercalate
  intro p hp
  obtain ⟨b, -, rfl⟩ := List.mem_map.mp hp
  exact not_mem_decimal (by decide) b.val

/-- The server's six numbers, put together piece by piece, are the address's text. -/
theorem addressText_eq (a : Ipv4) (port : Port) :
    strReplaceChar (dotted a) '.' ',' ++ ",".toList ++ decimal (port.val >>> 8) ++ ",".toList ++
      decimal (port.val &&& 255) = addressText a port := by
  rw [commas_dotted, addressText, addressNumbers, Ipv4.bytes]
  simp [List.intercalate_cons_cons]

/-- The text of an address has only digits and commas in it. -/
theorem mem_addressText {a : Ipv4} {port : Port} {c : Char} (h : c ∈ addressText a port) :
    c = ',' ∨ c.isDigit = true := by
  simp only [addressText, addressNumbers, List.map_cons, List.map_nil, List.intercalate_cons_cons,
    List.intercalate_singleton, List.mem_append, List.mem_singleton] at h
  rcases h with (h | h) | (h | h) | (h | h) | (h | h) | (h | h) | h
  all_goals first | exact Or.inl h | exact Or.inr (isDigit_of_mem_toDigits h)

/-- Any other character is missing from it. -/
theorem not_mem_addressText {c : Char} (hcomma : c ≠ ',') (hdigit : c.isDigit = false) (a : Ipv4)
    (port : Port) : c ∉ addressText a port := by
  intro h
  rcases mem_addressText h with hc | hc
  · exact hcomma hc
  · rw [hdigit] at hc
    cases hc

/-! ## The reply to PASV -/

section Reply

variable (inetAton : Text → Option Ipv4) (inetNtop6 : (Fin 12 → Byte) → Ipv4 → Text)

/-- The address that stands in the reply. -/
def written (localAddr sockaddr : Sockaddr) : Ipv4 :=
  ((if localAddr.isIpv6 then sockaddr.ipv6V4 else sockaddr.v4).getD ⟨0, 0, 0, 0⟩)

/-- The reply with an address. -/
def passiveText (a : Ipv4) (port : Port) : Text :=
  "Entering Passive Mode (".toList ++ addressText a port ++ ").".toList

/-- The line with an address. -/
def passiveLine (a : Ipv4) (port : Port) : Text :=
  "227 ".toList ++ passiveText a port

/-- What the client reads behind `PASV`. -/
def pasvResponse (pasvAddress : Option Text) (localAddr : Sockaddr) (thePort : Port) :
    Option Text :=
  (pasvResStr inetAton inetNtop6 pasvAddress localAddr thePort).bind fun text =>
    (readLine (vsfCmdioWriteStr 227 text)).map Prod.fst

variable {pasvAddress : Option Text} {localAddr sockaddr : Sockaddr}

/-- In an IPv4 session the advertised address is an IPv4 one. -/
theorem inet_of_not_isIpv6 (h : pasvSockaddr inetAton pasvAddress localAddr = some sockaddr)
    (hlocal : localAddr.isIpv6 = false) : ∃ addr port, sockaddr = .inet addr port := by
  unfold pasvSockaddr at h
  cases pasvAddress with
  | some text =>
      obtain ⟨addr, -, rfl⟩ := Option.map_eq_some_iff.mp h
      exact ⟨addr, 0, rfl⟩
  | none =>
      obtain rfl := Option.some.inj h
      cases localAddr with
      | inet addr port => exact ⟨addr, 0, rfl⟩
      | inet6 front addr port => cases hlocal

/-- The whole reply to PASV, as one text of the address and the port. -/
theorem pasvResStr_eq (h : pasvSockaddr inetAton pasvAddress localAddr = some sockaddr)
    (thePort : Port) :
    pasvResStr inetAton inetNtop6 pasvAddress localAddr thePort =
      some (passiveText (written localAddr sockaddr) thePort) := by
  have hsplit : ∀ s : Text, strReplaceChar ("Entering Passive Mode (".toList ++ s) '.' ',' =
      "Entering Passive Mode (".toList ++ strReplaceChar s '.' ',' := by
    intro s
    have hopening : strReplaceChar "Entering Passive Mode (".toList '.' ',' =
        "Entering Passive Mode (".toList := by decide
    rw [strReplaceChar, List.map_append, ← strReplaceChar, ← strReplaceChar, hopening]
  have haddress : strReplaceChar
      (if !localAddr.isIpv6 then sysutilInetNtop inetNtop6 sockaddr
      else
        match sockaddr.ipv6V4 with
        | some v4addr => dotted v4addr
        | none => "0,0,0,0".toList) '.' ',' =
      strReplaceChar (dotted (written localAddr sockaddr)) '.' ',' := by
    cases hlocal : localAddr.isIpv6 with
    | false =>
        obtain ⟨addr, port, rfl⟩ := inet_of_not_isIpv6 inetAton h hlocal
        simp [written, hlocal, sysutilInetNtop, Sockaddr.v4]
    | true =>
        cases hv4 : sockaddr.ipv6V4 with
        | none => simp [written, hlocal, hv4, dotted, Ipv4.bytes, decimal]; decide
        | some addr => simp [written, hlocal, hv4]
  delta passiveText
  rw [pasvResStr, h, Option.map_some, ← addressText_eq]
  dsimp only
  rw [hsplit, haddress]
  simp only [List.append_assoc]

/-- The reply is one line, and has no Telnet escape in it. -/
theorem not_mem_passiveText {c : Char} (hc : c ∈ ['\n', '\r', '\xff']) (a : Ipv4) (port : Port) :
    c ∉ passiveText a port := by
  have hstrange : c ∉ "Entering Passive Mode (".toList ∧ c ≠ ',' ∧ c.isDigit = false ∧
      c ∉ ").".toList := by
    simp only [List.mem_cons, List.not_mem_nil, or_false] at hc
    rcases hc with rfl | rfl | rfl <;> decide
  delta passiveText
  rw [List.mem_append, List.mem_append, not_or, not_or]
  exact ⟨⟨hstrange.1, not_mem_addressText hstrange.2.1 hstrange.2.2.1 a port⟩, hstrange.2.2.2⟩

/-- What the client reads is the line with the address that was written. -/
theorem pasvResponse_eq (h : pasvSockaddr inetAton pasvAddress localAddr = some sockaddr)
    (thePort : Port) :
    pasvResponse inetAton inetNtop6 pasvAddress localAddr thePort =
      some (passiveLine (written localAddr sockaddr) thePort) := by
  generalize ha : written localAddr sockaddr = a
  have hmangle : mangle (passiveText a thePort) = passiveText a thePort :=
    mangle_of_plain (not_mem_passiveText (by simp) a thePort)
      (not_mem_passiveText (by simp) a thePort)
  have hcode : Nat.toDigits 10 227 ++ [' '] = "227 ".toList := by decide
  have hline : vsfCmdioWriteStr 227 (passiveText a thePort) =
      passiveLine a thePort ++ '\r' :: '\n' :: [] := by
    delta passiveLine
    rw [vsfCmdioWriteStr, ftpWriteStrCommon, replyLine, hmangle, ← hcode]
    simp only [List.append_assoc, List.cons_append, List.nil_append]
  have hunbroken : ∀ c ∈ passiveLine a thePort, isLineBreak c = false := by
    intro c hc
    rw [Bool.eq_false_iff]
    intro hbreak
    rw [isLineBreak, Bool.or_eq_true, decide_eq_true_eq, decide_eq_true_eq] at hbreak
    have hspecial : c ∈ ['\n', '\r', '\xff'] := by
      rcases hbreak with rfl | rfl <;> simp
    rcases List.mem_append.mp hc with hcode | htext
    · rcases hbreak with rfl | rfl <;> exact absurd hcode (by decide)
    · exact not_mem_passiveText hspecial a thePort htext
  rw [pasvResponse, pasvResStr_eq inetAton inetNtop6 h, ha, Option.bind_some, hline,
    readLine_crlf hunbroken]
  rfl

end Reply

/-! ## Reading the line -/

/-- A byte is read back from its decimal form. -/
theorem octet_decimal (b : Byte) : octet (decimal b.val) = some b := by
  have hvalue : digitsValue (decimal b.val) = b.val := digitsValue_toDigits b.val
  have hdigits : (decimal b.val).all Char.isDigit = true :=
    List.all_eq_true.mpr fun c hc => isDigit_of_mem_toDigits hc
  have hbound : b.val ≤ 255 := by omega
  rw [octet, hvalue, if_pos ⟨decimal_ne_nil _, hdigits, hbound⟩]
  congr 1
  ext
  simp

/-- A byte has at most three digits. -/
theorem length_decimal (b : Byte) : (decimal b.val).length ≤ 3 :=
  (Nat.length_toDigits_le_iff (by decide) (by decide)).mpr (by omega)

/-- An address that is written with dots is read without the name service. -/
theorem getByName_dotted (lookup : Text → Option Ipv4) (a : Ipv4) :
    getByName lookup (dotted a) = some a := by
  have hlength : ¬ 15 < (dotted a).length := by
    have h0 := length_decimal a.b0
    have h1 := length_decimal a.b1
    have h2 := length_decimal a.b2
    have h3 := length_decimal a.b3
    simp only [dotted, Ipv4.bytes, List.map_cons, List.map_nil, List.intercalate_cons_cons,
      List.intercalate_singleton, List.length_append, List.length_singleton]
    omega
  have hsplit : (dotted a).splitOn '.' = a.bytes.map fun b : Byte => decimal b.val := by
    apply List.splitOn_intercalate
    · intro p hp
      obtain ⟨b, -, rfl⟩ := List.mem_map.mp hp
      exact not_mem_decimal (by decide) b.val
    · simp [Ipv4.bytes]
  rw [getByName, literal, if_neg hlength, hsplit]
  simp [Ipv4.bytes, octet_decimal]

/-- `indexOf` finds the first place of a character. -/
theorem indexOf_char {c : Char} {u : Text} (h : c ∉ u) (v : Text) :
    indexOf (u ++ c :: v) [c] = u.length := by
  rw [indexOf_eq, firstAt_singleton h]
  rfl

/-- The fields of an address are its numbers. -/
theorem splitCommas_addressText (a : Ipv4) (port : Port) :
    Channel.splitCommas (addressText a port) = (addressNumbers a port).map decimal := by
  have heq : Channel.splitCommas (addressText a port) = splitTrim ',' (addressText a port) := rfl
  have hfree : ∀ e ∈ (addressNumbers a port).map decimal, ',' ∉ e := by
    intro e he
    obtain ⟨n, -, rfl⟩ := List.mem_map.mp he
    exact not_mem_decimal (by decide) n
  rw [heq, addressText]
  exact splitTrim_intercalate hfree (decimal_ne_nil _)

/-- The two numbers of a port. -/
theorem port_numbers (port : Port) :
    ((port.val >>> 8 : Nat) : Int) * 256 + ((port.val &&& 255 : Nat) : Int) = port.val := by
  have hhigh : port.val >>> 8 = port.val / 256 := Nat.shiftRight_eq_div_pow port.val 8
  have hlow : port.val &&& 255 = port.val % 256 := Nat.and_two_pow_sub_one_eq_mod port.val 8
  rw [hhigh, hlow]
  omega

/-- What stands between the first parentheses is taken apart. -/
theorem convertAddressPasv_fields {resolves : Text → Bool} {u s rest n0 n1 n2 n3 n4 n5 : Text}
    {high low : Int} (hu : '(' ∉ u ∧ ')' ∉ u) (hs : ')' ∉ s)
    (hfields : Channel.splitCommas s = [n0, n1, n2, n3, n4, n5])
    (hhost : resolves (n0 ++ '.' :: n1 ++ '.' :: n2 ++ '.' :: n3) = true)
    (hhigh : parseInt n4 = some high) (hlow : parseInt n5 = some low)
    (hport : 0 ≤ high * 256 + low ∧ high * 256 + low ≤ 65535) :
    Channel.convertAddressPasv resolves (u ++ '(' :: (s ++ ')' :: rest)) =
      .ok (some (n0 ++ '.' :: n1 ++ '.' :: n2 ++ '.' :: n3, high * 256 + low)) := by
  have hstart := indexOf_char hu.1 (s ++ ')' :: rest)
  have hstop : indexOf (u ++ '(' :: (s ++ ')' :: rest)) [')'] =
      ((u.length + 1 + s.length : Nat) : Int) := by
    have hfree : ')' ∉ u ++ '(' :: s := by simp [hu.2, hs]
    have hfound := indexOf_char hfree rest
    simp only [List.append_assoc, List.cons_append, List.length_append, List.length_cons]
      at hfound
    rw [hfound]
    omega
  have hbetween : ((u ++ '(' :: (s ++ ')' :: rest)).take
      (u.length + 1 + s.length)).drop (u.length + 1) = s := by
    have hassoc : u ++ '(' :: (s ++ ')' :: rest) = (u ++ ['(']) ++ (s ++ ')' :: rest) := by simp
    have hlength : u.length + 1 = (u ++ ['(']).length := by simp
    rw [hassoc, hlength, List.drop_take, List.drop_left, Nat.add_sub_cancel_left, List.take_left]
  have hnat : ((u.length : Int) + 1).toNat = u.length + 1 := by omega
  rw [Channel.convertAddressPasv, hstart, hstop]
  dsimp only
  rw [if_neg (by omega), Int.toNat_natCast, hnat, hbetween, hfields]
  have hint : (high * 256 + low).bmod 4294967296 = high * 256 + low := by
    apply Int.bmod_eq_of_le <;> omega
  simp only [hhost, hhigh, hlow, hint, if_pos hport, Bool.not_true, Bool.false_eq_true, if_false]

/-- The client dials the address that stands in the line. -/
theorem dialled_line (lookup : Text → Option Ipv4) (a : Ipv4) (port : Port) :
    dialled lookup (passiveLine a port) = some (a, (port.val : Int)) := by
  have hline : passiveLine a port =
      "227 Entering Passive Mode ".toList ++ '(' :: (addressText a port ++ ')' :: ['.']) := by
    have hhead : "227 ".toList ++ "Entering Passive Mode (".toList =
        "227 Entering Passive Mode ".toList ++ ['('] := by decide
    have hend : ").".toList = [')', '.'] := by decide
    delta passiveLine passiveText
    rw [List.append_assoc "Entering Passive Mode (".toList, ← List.append_assoc, hhead, hend]
    simp only [List.append_assoc, List.cons_append, List.nil_append]
  have hhost : getByName lookup (dotted a) = some a := getByName_dotted lookup a
  have hdotted : decimal a.b0 ++ '.' :: decimal a.b1 ++ '.' :: decimal a.b2 ++ '.' :: decimal a.b3 =
      dotted a := by
    simp [dotted, Ipv4.bytes, List.intercalate_cons_cons]
  have hport := port_numbers port
  have hconvert : Channel.convertAddressPasv (fun host => (getByName lookup host).isSome)
      ("227 Entering Passive Mode ".toList ++ '(' :: (addressText a port ++ ')' :: ['.'])) =
        .ok (some (dotted a, (port.val : Int))) := by
    rw [← hdotted, ← hport]
    apply convertAddressPasv_fields
    · decide
    · exact not_mem_addressText (by decide) (by decide) a port
    · exact splitCommas_addressText a port
    · rw [hdotted, hhost]
      rfl
    · exact parseInt_toDigits (by omega)
    · exact parseInt_toDigits (by omega)
    · omega
  rw [dialled, hline, hconvert]
  dsimp only
  rw [hhost]
  rfl

/-! ## The argument of PORT -/

/-- The client's argument of PORT is the text of its address. -/
theorem convertAddressPort_eq (a : Ipv4) (port : Port) :
    convertAddressPort a (port.val : Int) = addressText a port := by
  have hhigh : Int.fdiv (port.val : Int) 256 = ((port.val >>> 8 : Nat) : Int) := by
    rw [Int.fdiv_eq_ediv_of_nonneg _ (by decide)]
    have hshift : port.val >>> 8 = port.val / 256 := Nat.shiftRight_eq_div_pow port.val 8
    omega
  have hlow : (port.val : Int) - ((port.val >>> 8 : Nat) : Int) * 256 =
      ((port.val &&& 255 : Nat) : Int) := by
    have hport := port_numbers port
    omega
  have hvalue : ∀ n : Nat, valueOf (n : Int) = decimal n := by
    intro n
    rw [valueOf, if_neg (by omega), Int.natAbs_natCast]
  rw [convertAddressPort, hhigh, hlow, hvalue, hvalue, addressText_eq]

/-- The server reads the address and the port that the client wrote. -/
theorem parsePort_addressText (a : Ipv4) (port : Port) :
    parsePort (addressText a port) = some (a, port) := by
  have hhigh : port.val >>> 8 < 256 := by omega
  have hlow : port.val &&& 255 < 256 := Nat.lt_succ_of_le Nat.and_le_right
  have hfields : parseFields ',' 6 (addressText a port) =
      some [a.b0, a.b1, a.b2, a.b3, ⟨port.val >>> 8, hhigh⟩, ⟨port.val &&& 255, hlow⟩] :=
    parseFields_intercalate (by decide) [a.b0, a.b1, a.b2, a.b3, ⟨port.val >>> 8, hhigh⟩,
      ⟨port.val &&& 255, hlow⟩]
  have hport : Fin.ofNat 65536 ((port.val >>> 8) <<< 8 ||| (port.val &&& 255)) = port := by
    have hsum := port_numbers port
    ext
    rw [← Nat.shiftLeft_add_eq_or_of_lt hlow, Fin.val_ofNat]
    omega
  rw [parsePort, hfields]
  dsimp only
  rw [hport]

/-- What is set in a socket address is what it holds. -/
theorem v4_sockaddr (localAddr : Sockaddr) (a : Ipv4) (port : Port) :
    ((localAddr.clone.setIpv4addr a).setPort port).v4 = some a ∧
      ((localAddr.clone.setIpv4addr a).setPort port).port = port := by
  cases localAddr <;> simp [Sockaddr.clone, Sockaddr.setIpv4addr, Sockaddr.setPort, Sockaddr.v4,
    Sockaddr.ipv6V4, Sockaddr.port]

/-- The session answers `PORT` in the same way, and keeps an address in the same cases. -/
theorem session_handlePort (portPromiscuous : Bool) (localAddr remoteAddr : Sockaddr) (arg : Text)
    (s : Transfer.Session) :
    let outcome := handlePort portPromiscuous localAddr remoteAddr arg
    let s' := Transfer.handlePort ((parsePort arg).map fun read => addressText read.1 read.2)
      outcome.2.isSome s
    s'.trace.replies = s.trace.replies ++ [outcome.1] ∧
      (s'.portSockaddr.isSome = true ↔ outcome.2.isSome = true) := by
  unfold handlePort
  cases hread : parsePort arg with
  | none => exact ⟨rfl, by simp [Transfer.handlePort, Transfer.portCleanup]⟩
  | some read =>
      dsimp only
      split
      · exact ⟨rfl, by simp [Transfer.handlePort, Transfer.portCleanup]⟩
      · exact ⟨rfl, by simp [Transfer.handlePort]⟩

/-! ## Both directions -/

section Exchange

variable (inetAton : Text → Option Ipv4) (inetNtop6 : (Fin 12 → Byte) → Ipv4 → Text)
  (lookup : Text → Option Ipv4)

/-- The IPv4 address that the server is to advertise is the one that the client dials. -/
def Dialled (pasvAddress : Option Text) (localAddr : Sockaddr) (thePort : Port) : Prop :=
  ∀ sockaddr, pasvSockaddr inetAton pasvAddress localAddr = some sockaddr →
    ∀ a, sockaddr.v4 = some a →
      (pasvResponse inetAton inetNtop6 pasvAddress localAddr thePort).bind (dialled lookup) =
        some (a, (thePort.val : Int))

/-- No address is configured for a session over IPv6, beside the one of zeros. -/
def Advertisable (pasvAddress : Option Text) (localAddr : Sockaddr) : Prop :=
  localAddr.isIpv6 = true → ∀ text ∈ pasvAddress, ∀ a ∈ inetAton text, a = ⟨0, 0, 0, 0⟩

/-- The client dials the address that was written. -/
theorem dialled_response {pasvAddress : Option Text} {localAddr sockaddr : Sockaddr}
    (h : pasvSockaddr inetAton pasvAddress localAddr = some sockaddr) (thePort : Port) :
    (pasvResponse inetAton inetNtop6 pasvAddress localAddr thePort).bind (dialled lookup) =
      some (written localAddr sockaddr, (thePort.val : Int)) := by
  rw [pasvResponse_eq inetAton inetNtop6 h, Option.bind_some, dialled_line]

/-- Without a configured address the client dials the server's own one. -/
theorem dialled_own (localAddr : Sockaddr) (thePort : Port) :
    Dialled inetAton inetNtop6 lookup none localAddr thePort := by
  intro sockaddr h a ha
  rw [dialled_response inetAton inetNtop6 lookup h]
  obtain rfl : localAddr.clone = sockaddr := Option.some.inj h
  have hwritten : written localAddr localAddr.clone = a := by
    cases localAddr with
    | inet addr port => exact Option.some.inj ha
    | inet6 front addr port =>
        have hv4 : (Sockaddr.inet6 front addr port).clone.ipv6V4 = some a := ha
        rw [written, Sockaddr.isIpv6, if_pos rfl, hv4, Option.getD_some]
  rw [hwritten]

/-- With a configured address the client dials it, but in an IPv6 session the reply names `0.0.0.0`.
-/
theorem dialled_configured_iff {text : Text} {b : Ipv4} (hb : inetAton text = some b)
    (localAddr : Sockaddr) (thePort : Port) :
    Dialled inetAton inetNtop6 lookup (some text) localAddr thePort ↔
      (localAddr.isIpv6 = true → b = ⟨0, 0, 0, 0⟩) := by
  have hsockaddr : pasvSockaddr inetAton (some text) localAddr = some (.inet b 0) := by
    rw [pasvSockaddr, hb, Option.map_some]
  have hwritten : written localAddr (.inet b 0) =
      if localAddr.isIpv6 = true then ⟨0, 0, 0, 0⟩ else b := by
    rw [written]
    split <;> rfl
  constructor
  · intro h hipv6
    have hdialled := h (.inet b 0) hsockaddr b rfl
    rw [dialled_response inetAton inetNtop6 lookup hsockaddr, hwritten, if_pos hipv6,
      Option.some.injEq, Prod.mk.injEq] at hdialled
    exact hdialled.1.symm
  · intro h sockaddr hsome a ha
    obtain rfl := Option.some.inj (hsockaddr.symm.trans hsome)
    obtain rfl : b = a := Option.some.inj ha
    rw [dialled_response inetAton inetNtop6 lookup hsockaddr, hwritten]
    by_cases hipv6 : localAddr.isIpv6 = true
    · rw [if_pos hipv6, h hipv6]
    · rw [if_neg hipv6]

/-- The client dials what the server listens on exactly if the address can be advertised. -/
theorem dialled_iff (pasvAddress : Option Text) (localAddr : Sockaddr) (thePort : Port) :
    Dialled inetAton inetNtop6 lookup pasvAddress localAddr thePort ↔
      Advertisable inetAton pasvAddress localAddr := by
  cases pasvAddress with
  | none =>
      exact iff_of_true (dialled_own inetAton inetNtop6 lookup localAddr thePort)
        fun _ text htext => by cases htext
  | some text =>
      cases hb : inetAton text with
      | none =>
          refine iff_of_true (fun sockaddr h => ?_) fun _ text' htext b hb' => ?_
          · rw [pasvSockaddr, hb] at h
            cases h
          · obtain rfl := Option.some.inj htext
            rw [hb] at hb'
            cases hb'
      | some b =>
          rw [dialled_configured_iff inetAton inetNtop6 lookup hb]
          simp [Advertisable, hb]

/-- What becomes of the argument that the client wrote. -/
theorem handlePort_addressText (portPromiscuous : Bool) (localAddr remoteAddr : Sockaddr)
    (a : Ipv4) (port : Port) :
    handlePort portPromiscuous localAddr remoteAddr (addressText a port) =
      let sockaddr := (localAddr.clone.setIpv4addr a).setPort port
      if portPromiscuous = true ∨ remoteAddr.addrEqual sockaddr = true ∧ 1024 ≤ port.val then
        (vsfCmdioWrite 200 "PORT command successful.".toList, some sockaddr)
      else (vsfCmdioWrite 500 "Illegal PORT command.".toList, none) := by
  rw [handlePort, parsePort_addressText]
  dsimp only
  generalize (localAddr.clone.setIpv4addr a).setPort port = sockaddr
  by_cases hlegal : portPromiscuous = true ∨
      remoteAddr.addrEqual sockaddr = true ∧ 1024 ≤ port.val
  · rw [if_pos hlegal, if_neg]
    rcases hlegal with hfree | ⟨hequal, hport⟩
    · simp [hfree]
    · simp [hequal, Nat.not_lt.mpr hport]
  · rw [if_neg hlegal, if_pos]
    rw [not_or, not_and_or, Bool.not_eq_true, Bool.not_eq_true, Nat.not_le] at hlegal
    obtain ⟨hbound, hunequal | hport⟩ := hlegal
    · simp [hbound, hunequal]
    · simp [hbound, hport]

/-- An address to be advertised is dialled exactly when it is not the configured one in a
session over IPv6.  The argument of `PORT` is read as it was meant for every address of the
client, and what becomes of it is up to the security checks alone. -/
theorem exchange_iff :
    (∀ pasvAddress localAddr thePort,
      Dialled inetAton inetNtop6 lookup pasvAddress localAddr thePort ↔
        Advertisable inetAton pasvAddress localAddr) ∧
      ∀ (localAddress : Ipv4) (port : Port),
        parsePort (convertAddressPort localAddress port.val) = some (localAddress, port) ∧
          ∀ portPromiscuous localAddr remoteAddr, ∃ sockaddr : Sockaddr,
            sockaddr.v4 = some localAddress ∧ sockaddr.port = port ∧
            handlePort portPromiscuous localAddr remoteAddr
                (convertAddressPort localAddress port.val) =
              if portPromiscuous = true ∨
                  remoteAddr.addrEqual sockaddr = true ∧ 1024 ≤ port.val then
                (vsfCmdioWrite 200 "PORT command successful.".toList, some sockaddr)
              else (vsfCmdioWrite 500 "Illegal PORT command.".toList, none) := by
  refine ⟨dialled_iff inetAton inetNtop6 lookup, fun localAddress port => ?_⟩
  rw [convertAddressPort_eq]
  refine ⟨parsePort_addressText localAddress port, fun portPromiscuous localAddr remoteAddr => ?_⟩
  obtain ⟨hv4, hport⟩ := v4_sockaddr localAddr localAddress port
  exact ⟨_, hv4, hport,
    handlePort_addressText portPromiscuous localAddr remoteAddr localAddress port⟩

end Exchange

/-- A configured address in a session of an IPv4 client with a listener for IPv6: the line
has zeros in its place. -/
theorem exchange_fails :
    let localAddr := Sockaddr.inet6 pattern ⟨10, 0, 0, 1⟩ 21
    pasvSockaddr literal (some "203.0.113.5".toList) localAddr =
        some (.inet ⟨203, 0, 113, 5⟩ 0) ∧
      (pasvResponse literal (fun _ _ => []) (some "203.0.113.5".toList) localAddr 5001).bind
          (dialled fun _ => none) = some (⟨0, 0, 0, 0⟩, 5001) ∧
      ¬ Dialled literal (fun _ _ => []) (fun _ => none) (some "203.0.113.5".toList) localAddr
        5001 := by
  intro localAddr
  have hsockaddr : pasvSockaddr literal (some "203.0.113.5".toList) localAddr =
      some (.inet ⟨203, 0, 113, 5⟩ 0) := by decide
  have hdialled := dialled_response literal (fun _ _ => []) (fun _ => none) hsockaddr 5001
  refine ⟨hsockaddr, hdialled, fun h => ?_⟩
  have hright := h _ hsockaddr ⟨203, 0, 113, 5⟩ rfl
  rw [hdialled] at hright
  exact absurd hright (by decide)

end AddressExchange
end Control
end ModpackInstaller
