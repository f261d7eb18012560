import ModpackInstaller.Control.Commands
import ModpackInstaller.Server.PrivSock

/-!
# Before the login

{lit}`prelogin.c` talks to a client that has not logged in, in a process without privileges.
Its parent is in {lit}`process_login_req` of {lit}`twoprocess.c` and asks for the password,
with the checks of {lit}`privops.c` in front.

Main results:

- Theorem {lit}`two_process_login_refines`: a login over the sockets does what the parent does
  for it by itself, in every order of the steps and over every conversation with the client.
- Theorem {lit}`guesses_le`: a client gets no more guesses than are configured.
- Theorem {lit}`loggedIn_cleared`: who logs in was asked for, was let through by the checks of
  both processes, and gave the password.
- Theorem {lit}`parent_asks_sanely`: whatever is written to the parent, it asks for decent names
  only, and lets in only whom its last question was answered for.

The authentication may answer with another name than the one that it was asked for, as PAM does;
the session goes on under the name of the answer.
-/

namespace ModpackInstaller
namespace Server
namespace PreLogin

open Library Control Control.AddressExchange PrivSock

/-! ## Texts as bytes -/

def textBytes (s : Text) : List Byte :=
  s.map fun c => toByte c.toNat

def bytesText (bs : List Byte) : Text :=
  bs.map fun b => Char.ofNat b.val

/-- A line from the client, as `control_getline` takes it. -/
structure Line where
  bytes : List Byte
  fits : bytes.length ≤ maxCommandLine

/-! ## The configuration -/

structure Config where
  ftpEnable : Bool
  httpEnable : Bool
  sslEnable : Bool
  sslv2 : Bool
  sslv3 : Bool
  tlsv1 : Bool
  utf8Filesystem : Bool
  portEnable : Bool
  pasvEnable : Bool
  localEnable : Bool
  anonymousEnable : Bool
  allowAnonSsl : Bool
  forceAnonLoginsSsl : Bool
  forceLocalLoginsSsl : Bool
  userlistEnable : Bool
  userlistDeny : Bool
  noAnonPassword : Bool
  maxLoginFails : Nat
  ftpUsername : Text
  chrootLocalUser : Bool
  chrootListEnable : Bool
  chrootListFile : String
  /-- What is in that file, if it can be read. -/
  chrootList : Option Text
  /-- The error of `ssl_session_init`, if it fails. -/
  sslError : Option Text

variable (cfg : Config)

/-! ## The child -/

/-- The session in the process that talks to the client. -/
structure Session where
  userStr : Text
  userlistStr : Text
  controlUseSsl : Bool
  dataUseSsl : Bool
  loginFails : Nat
  isHttp : Bool
  httpGetArg : Text
  replies : List Text
deriving DecidableEq, Repr

namespace Session

/-- `vsf_cmdio_write` -/
def say (s : Session) (status : Nat) (text : String) : Session :=
  { s with replies := s.replies ++ [vsfCmdioWrite status text.toList] }

/-- `vsf_cmdio_write_raw` -/
def sayRaw (s : Session) (texts : List String) : Session :=
  { s with replies := s.replies ++ texts.map String.toList }

end Session

/-- Where the handler of a command leaves the loop. -/
inductive Turn where
  | next (s : Session)
  /-- `vsf_sysutil_exit` -/
  | exit (s : Session)
  /-- A login is tried; behind `GET` the process ends when it fails. -/
  | attempt (s : Session) (pass : Text) (isGet : Bool)
deriving DecidableEq, Repr

/-- `check_login_fails` and what is done behind it; whether the process ends. -/
def checkLoginFails (s : Session) : Session × Bool :=
  if cfg.maxLoginFails ≤ s.loginFails + 1 then ({ s with loginFails := s.loginFails + 1 }, true)
  else ({ s with loginFails := s.loginFails + 1, userStr := [] }, false)

/-- What follows a login that failed in `handle_pass_command`. -/
def loginIncorrect (s : Session) : Session × Bool :=
  checkLoginFails cfg (s.say 530 "Login incorrect.")

/-- `handle_pass_command` up to the login. -/
def handlePassCommand (s : Session) (arg : Text) : Turn :=
  if s.userStr = [] then .next (s.say 503 "Login with USER first.")
  else .attempt s arg false

/-- A name of the anonymous user. -/
def isAnonName (user : Text) : Bool :=
  strUpper user = "FTP".toList || strUpper user = "ANONYMOUS".toList

/-- The user is kept away by the user list. -/
def userlistRefuses (s : Session) (user : Text) : Bool :=
  cfg.userlistEnable &&
    (strContainsLine s.userlistStr user && cfg.userlistDeny ||
      !strContainsLine s.userlistStr user && !cfg.userlistDeny)

/-- `handle_user_command` -/
def handleUserCommand (s : Session) (arg : Text) : Turn :=
  let isAnon := isAnonName arg
  let s := { s with userStr := arg }
  if !cfg.localEnable && !isAnon then
    .next { s.say 530 "This FTP server is anonymous only." with userStr := [] }
  else if isAnon && s.controlUseSsl && !cfg.allowAnonSsl && !cfg.forceAnonLoginsSsl then
    .next { s.say 530 "Anonymous sessions may not use encryption." with userStr := [] }
  else if cfg.sslEnable && !isAnon && !s.controlUseSsl && cfg.forceLocalLoginsSsl then
    .exit (s.say 530 "Non-anonymous sessions must use encryption.")
  else if cfg.sslEnable && isAnon && !s.controlUseSsl && cfg.forceAnonLoginsSsl then
    .exit (s.say 530 "Anonymous sessions must use encryption.")
  else if userlistRefuses cfg s arg then
    match checkLoginFails cfg (s.say 530 "Permission denied.") with
    | (s, true) => .exit s
    | (s, false) => .next s
  else if isAnon && cfg.noAnonPassword then handlePassCommand s "<no password>".toList
  else .next (s.say 331 "Please specify the password.")

/-- The lines of `handle_feat` between the first and the last. -/
def features : List String :=
  (if cfg.sslEnable && (cfg.sslv2 || cfg.sslv3) then [" AUTH SSL\r\n"] else []) ++
  (if cfg.sslEnable && cfg.tlsv1 then [" AUTH TLS\r\n"] else []) ++
  (if cfg.utf8Filesystem then [" UTF8\r\n"] else []) ++
  (if cfg.portEnable then [" EPRT\r\n"] else []) ++
  (if cfg.pasvEnable then [" EPSV\r\n"] else []) ++ [" MDTM\r\n"] ++
  (if cfg.pasvEnable then [" PASV\r\n"] else []) ++
  (if cfg.sslEnable then [" PBSZ\r\n", " PROT\r\n"] else []) ++
  [" REST STREAM\r\n", " SIZE\r\n", " TVFS\r\n", " UTF8\r\n"]

/-- `handle_feat` -/
def handleFeat (s : Session) : Session :=
  ({ s with replies := s.replies ++ [ftpWriteStrCommon 211 '-' "Features:".toList] }.sayRaw
    (features cfg)).say 211 "End"

/-- `handle_opts` -/
def handleOpts (s : Session) (arg : Text) : Session :=
  if strUpper arg = "UTF8 ON".toList then s.say 200 "Always in UTF8 mode."
  else s.say 501 "Option not understood."

/-- `handle_auth`, with `ssl_control_handshake`. -/
def handleAuth (s : Session) (arg : Text) : Turn :=
  let arg := strUpper arg
  if arg = "TLS".toList ∨ arg = "TLS-C".toList ∨ arg = "SSL".toList ∨ arg = "TLS-P".toList then
    let s := s.say 234 "Proceed with negotiation."
    match cfg.sslError with
    | some err =>
      .exit { s with
        replies := s.replies ++ [vsfCmdioWriteStr 421 ("Negotiation failed: ".toList ++ err)] }
    | none =>
      .next { s with
        controlUseSsl := true
        dataUseSsl := s.dataUseSsl || arg = "SSL".toList || arg = "TLS-P".toList }
  else .next (s.say 504 "Unknown AUTH type.")

/-- `handle_pbsz` -/
def handlePbsz (s : Session) : Session :=
  if s.controlUseSsl then s.say 200 "PBSZ set to 0."
  else s.say 503 "PBSZ needs a secure connection."

/-- `handle_prot` -/
def handleProt (s : Session) (arg : Text) : Session :=
  let arg := strUpper arg
  if !s.controlUseSsl then s.say 503 "PROT needs a secure connection."
  else if arg = "C".toList then { s.say 200 "PROT now Clear." with dataUseSsl := false }
  else if arg = "P".toList then { s.say 200 "PROT now Private." with dataUseSsl := true }
  else if arg = "S".toList ∨ arg = "E".toList then s.say 536 "PROT not supported."
  else s.say 504 "PROT not recognized."

/-- `handle_get` up to the login. -/
def handleGet (s : Session) (arg : Text) : Turn :=
  .attempt { s with isHttp := true, httpGetArg := arg, userStr := "FTP".toList }
    "<http>".toList true

/-- The commands of a client that speaks FTP. -/
def ftpCommand (s : Session) (cmd arg : Text) : Turn :=
  if cmd = "USER".toList then handleUserCommand cfg s arg
  else if cmd = "PASS".toList then handlePassCommand s arg
  else if cmd = "QUIT".toList then .exit (s.say 221 "Goodbye.")
  else if cmd = "FEAT".toList then .next (handleFeat cfg s)
  else if cmd = "OPTS".toList then .next (handleOpts s arg)
  else if cfg.sslEnable ∧ cmd = "AUTH".toList ∧ !s.controlUseSsl then handleAuth cfg s arg
  else if cfg.sslEnable ∧ cmd = "PBSZ".toList then .next (handlePbsz s)
  else if cfg.sslEnable ∧ cmd = "PROT".toList then .next (handleProt s arg)
  -- an empty line comes from a NAT device
  else if cmd = [] ∧ arg = [] then .next s
  else .next (s.say 530 "Please login with USER and PASS.")

/-- A round of the loop of `parse_username_password`, up to a login. -/
def command (s : Session) (line : Line) : Turn :=
  let (cmd, arg) := vsfCmdioGetCmdAndArg (stripLine (bytesText line.bytes))
  if cfg.ftpEnable then ftpCommand cfg s cmd arg
  else if cfg.httpEnable then
    if cmd = "GET".toList then handleGet s arg else .exit (s.say 530 "Bad HTTP verb.")
  else .next s

/-- How a conversation ends. -/
inductive Ended where
  /-- The next line has not come yet. -/
  | waiting
  | exited
  | loggedIn
deriving DecidableEq, Repr

section Conversation

variable {σ : Type} (login : Session → Text → Process σ Bool)

/-- `parse_username_password` for so many lines. -/
def parseUsernamePassword : List Line → Session → Process σ (Session × Ended)
  | [], s => pure (s, .waiting)
  | line :: lines, s =>
    match command cfg s line with
    | .next s => parseUsernamePassword lines s
    | .exit s => pure (s, .exited)
    | .attempt s pass isGet =>
      login s pass >>= fun ok =>
        if ok then pure (s, .loggedIn)
        else if (loginIncorrect cfg s).2 || isGet then pure ((loginIncorrect cfg s).1, .exited)
        else parseUsernamePassword lines (loginIncorrect cfg s).1

end Conversation

/-! ## The parent -/

/-- An answer of `vsf_sysdep_check_auth`, with what it leaves in `p_user_str`.  With PAM this is
`PAM_USER` as soon as the password was right, also where the account is refused behind it. -/
structure Verdict where
  ok : Bool
  user : Text
deriving DecidableEq, Repr

/-- A question to `vsf_sysdep_check_auth`, with the answer. -/
structure Asked where
  user : Text
  pass : Text
  verdict : Verdict
deriving DecidableEq, Repr

/-- What `common_do_login` is called with. -/
structure Grant where
  user : Text
  doChroot : Bool
  anon : Bool
deriving DecidableEq, Repr

/-- The session in the parent. -/
structure Parent (K : Type) where
  userStr : Text
  controlUseSsl : Bool
  dataUseSsl : Bool
  anonPassStr : Text
  bannedEmailStr : Text
  emailPasswordsStr : Text
  /-- The state of the authentication. -/
  auth : K
  asked : List Asked
  grant : Option Grant

/-- The result of `vsf_privop_do_login`. -/
inductive LoginResult where
  | fail
  | anon
  | real
deriving DecidableEq, Repr

variable {K : Type} (checkAuth : Text → Text → K → Verdict × K)

/-- Look at the session in the parent. -/
def inParent : Process (Parent K) (Parent K) :=
  .act id .done

/-- Change the session in the parent. -/
def setParent (change : Parent K → Parent K) : Process (Parent K) Unit :=
  .act change fun _ => .done ()

/-- The parent behind a question; `p_user_str` is its `user_str`. -/
def Parent.ask (t : Parent K) (user pass : Text) : Parent K :=
  { t with
    auth := (checkAuth user pass t.auth).2
    userStr := (checkAuth user pass t.auth).1.user
    asked := t.asked ++ [⟨user, pass, (checkAuth user pass t.auth).1⟩] }

/-- `vsf_sysdep_check_auth` -/
def vsfSysdepCheckAuth (user pass : Text) : Process (Parent K) Bool :=
  .act (·.ask checkAuth user pass) fun t => .done (checkAuth user pass t.auth).1.ok

/-- `vsf_sysutil_isspace` in the C locale -/
def sysutilIsspace (c : Char) : Bool :=
  c = ' ' || 9 ≤ c.toNat && c.toNat ≤ 13

/-- `vsf_sysutil_isprint`, with `isprint` of the C locale behind its own checks. -/
def sysutilIsprint (c : Char) : Bool :=
  !(c.toNat ≤ 31) && !(c.toNat = 177) && !(128 ≤ c.toNat && c.toNat ≤ 159) && c.toNat ≤ 126

/-- The checks of `handle_login` on the name. -/
def decentName (user : Text) : Bool :=
  match user with
  | [] => false
  | first :: _ =>
    user.length ≤ 128 && (first.isAlphanum || first = '_' || first = '.') &&
      !user.any sysutilIsspace && user.all sysutilIsprint

/-- `handle_anonymous_login` -/
def handleAnonymousLogin (pass : Text) : Process (Parent K) LoginResult := do
  let t ← inParent
  if t.bannedEmailStr ≠ [] ∧ strContainsLine t.bannedEmailStr pass then pure .fail
  else if t.emailPasswordsStr ≠ [] ∧
      (!strContainsLine t.emailPasswordsStr pass ∨ pass = []) then pure .fail
  else
    let identity := if pass = [] then ['?'] else pass
    setParent fun t => { t with
      anonPassStr := strReplaceChar (strReplaceChar identity ' ' '_') '\n' '?'
      userStr := cfg.ftpUsername
      bannedEmailStr := []
      emailPasswordsStr := [] }
    pure .anon

/-- `handle_local_login`; `setup_username_globals` copies the name to itself. -/
def handleLocalLogin (user pass : Text) : Process (Parent K) LoginResult := do
  if ← vsfSysdepCheckAuth checkAuth user pass then pure .real else pure .fail

/-- `handle_login`, of `vsf_privop_do_login` -/
def handleLogin (pass : Text) : Process (Parent K) LoginResult := do
  let user := (← inParent).userStr
  if !decentName user ∨ 128 < pass.length then pure .fail
  else if cfg.anonymousEnable && isAnonName user then handleAnonymousLogin cfg pass
  else if !cfg.localEnable then die "unexpected local login in handle_login"
  else handleLocalLogin checkAuth user pass

/-- `do_chroot` for a local user; `none` is a list that cannot be read. -/
def chrootFor (user : Text) : Option Bool :=
  if cfg.chrootListEnable then
    cfg.chrootList.map fun list => cfg.chrootLocalUser ^^ strContainsLine list user
  else some cfg.chrootLocalUser

/-- What `process_login_req` does behind the messages; whether `common_do_login` is called. -/
def grantLogin (pass : Text) : Process (Parent K) Bool := do
  match ← handleLogin cfg checkAuth pass with
  | .fail => pure false
  | .anon =>
    setParent fun t => { t with
      userStr := cfg.ftpUsername, grant := some ⟨cfg.ftpUsername, true, true⟩ }
    pure true
  | .real =>
    let user := (← inParent).userStr
    match chrootFor cfg user with
    | none => die ("could not read chroot() list file:" ++ cfg.chrootListFile)
    | some doChroot =>
      setParent fun t => { t with grant := some ⟨user, doChroot, false⟩ }
      pure true

/-! ## The messages -/

section Messages

variable {σ : Type}

/-- `priv_sock_send_str` -/
def privSockSendStr (s : Text) : Process σ Unit := do
  privSockSendInt s.length
  .sendAll (plain (textBytes s))

/-- `priv_sock_get_str`; a negative length is a large one. -/
def privSockGetStr : Process σ Text := do
  let len ← privSockGetInt
  if len < 0 ∨ privSockMaxstr < len.toNat then die "priv_sock_get_str: too big"
  else
    match ← .recvN len.toNat with
    | none => die "priv_sock_get_str: read error"
    | some items => pure (bytesText (items.map (·.byte)))

/-- `PRIV_SOCK_LOGIN` -/
def loginCode : Byte := toByte 1

/-- `vsf_two_process_login` behind its messages; when it succeeds, the child ends or serves the
encryption. -/
def awaitResult : Process σ Bool := do
  let result ← privSockGetResult
  if result = resultOk then pure true
  else if result = resultBad then pure false
  else die "priv_sock_get_result"

/-- `vsf_two_process_login` -/
def vsfTwoProcessLogin (s : Session) (pass : Text) : Process σ Bool := do
  privSockSendChar loginCode
  privSockSendStr s.userStr
  privSockSendStr pass
  privSockSendInt (if s.controlUseSsl then 1 else 0)
  privSockSendInt (if s.dataUseSsl then 1 else 0)
  awaitResult

end Messages

/-- What the parent takes over of the session. -/
def Parent.takeOver (t : Parent K) (user : Text) (control data : Bool) : Parent K :=
  { t with
    userStr := user
    controlUseSsl := cfg.sslEnable && control
    dataUseSsl := cfg.sslEnable && data }

/-- `process_login_req` behind the command; whether `common_do_login` was called. -/
def serveLogin : Process (Parent K) Bool := do
  let user ← privSockGetStr
  let pass ← privSockGetStr
  let control ← privSockGetInt
  let data ← privSockGetInt
  setParent (·.takeOver cfg user (control ≠ 0) (data ≠ 0))
  let ok ← grantLogin cfg checkAuth pass
  privSockSendChar (if ok then resultOk else resultBad)
  pure ok

/-- `process_login_req` -/
def processLoginReq : Process (Parent K) Bool := do
  let cmd ← privSockGetCmd
  if cmd ≠ loginCode then die "bad request" else serveLogin cfg checkAuth

/-- The loop of `vsf_two_process_start`: it goes on until a login is granted. -/
def vsfTwoProcessStart : Bool → Option (Process (Parent K) Bool)
  | true => none
  | false => some (processLoginReq cfg checkAuth)

/-- The login without the sockets. -/
def loginItself (s : Session) (pass : Text) : Process (Parent K) Bool := do
  setParent (·.takeOver cfg s.userStr s.controlUseSsl s.dataUseSsl)
  grantLogin cfg checkAuth pass

/-! ## What can be sent -/

/-- A text of bytes that fits into a line. -/
structure Sendable (s : Text) : Prop where
  ofBytes : ∀ c ∈ s, c.toNat < 256
  fits : s.length ≤ maxCommandLine

/-- The empty text can be sent. -/
theorem sendable_nil : Sendable [] :=
  ⟨fun _ hc => absurd hc List.not_mem_nil, Nat.zero_le _⟩

/-- A text out of a sendable one can be sent. -/
theorem Sendable.of_sublist {s s' : Text} (h : Sendable s) (hsub : s'.Sublist s) : Sendable s' :=
  ⟨fun c hc => h.ofBytes c (hsub.subset hc), Nat.le_trans hsub.length_le h.fits⟩

/-- A byte is read as the character of its number. -/
theorem toNat_ofNat_byte (b : Byte) : (Char.ofNat b.val).toNat = b.val := by
  have hb := b.isLt
  have hvalid : b.val.isValidChar := Or.inl (by omega)
  rw [Char.ofNat, dif_pos hvalid]
  rfl

/-- What came over the network can be sent on. -/
theorem sendable_bytesText (line : Line) : Sendable (bytesText line.bytes) := by
  constructor
  · intro c hc
    obtain ⟨b, _, rfl⟩ := List.mem_map.mp hc
    rw [toNat_ofNat_byte]
    exact b.isLt
  · rw [bytesText, List.length_map]
    exact line.fits

/-- A line without its end can be sent. -/
theorem sendable_stripLine {s : Text} (h : Sendable s) : Sendable (stripLine s) := by
  have hreplaced : Sendable (strReplaceChar s nul '\n') := by
    constructor
    · intro c hc
      obtain ⟨d, hd, rfl⟩ := List.mem_map.mp hc
      split
      · decide
      · exact h.ofBytes d hd
    · rw [strReplaceChar, List.length_map]
      exact h.fits
  exact hreplaced.of_sublist (List.rdropWhile_prefix _ _).sublist

/-- The argument of a command can be sent. -/
theorem sendable_arg (line : Line) :
    Sendable (vsfCmdioGetCmdAndArg (stripLine (bytesText line.bytes))).2 := by
  have hline := sendable_stripLine (sendable_bytesText line)
  rw [vsfCmdioGetCmdAndArg]
  split
  · exact sendable_nil
  · exact hline.of_sublist ((List.drop_sublist _ _).trans (List.dropWhile_sublist _))

/-- A sendable text is read as it was written. -/
theorem bytesText_textBytes {s : Text} (h : Sendable s) : bytesText (textBytes s) = s := by
  rw [bytesText, textBytes, List.map_map]
  conv_rhs => rw [← List.map_id s]
  apply List.map_congr_left
  intro c hc
  have hbyte := h.ofBytes c hc
  simp only [Function.comp_apply, val_toByte, id_eq]
  rw [Nat.mod_eq_of_lt hbyte, Char.ofNat_toNat]

section Messages

variable {σ : Type} (t : σ)

/-- A text is sent as its length and its bytes. -/
theorem exec_sendStr (s : Text) (rest : List Item) :
    (privSockSendStr s : Process σ Unit).exec t rest =
      ⟨.done (), t, rest, plain (intBytes s.length ++ textBytes s)⟩ := by
  rw [privSockSendStr, Proc.exec_bind_of_done (exec_sendInt t _ rest), Proc.exec_sendAll, plain,
    plain, plain, List.map_append]

/-- The bytes of a text are read as that text. -/
theorem exec_getStr {s : Text} (h : Sendable s) (rest : List Item) :
    (privSockGetStr : Process σ Text).exec t (plain (intBytes s.length ++ textBytes s) ++ rest) =
      ⟨.done s, t, rest, []⟩ := by
  have hfits : s.length ≤ 4096 := h.fits
  have hmax : ¬ ((s.length : Int) < 0 ∨ privSockMaxstr < (s.length : Int).toNat) := by
    rw [privSockMaxstr]
    omega
  have hlength : (plain (textBytes s)).length = (s.length : Int).toNat := by
    simp [plain, textBytes]
  have hitems : (Proc.recvN (s.length : Int).toNat : Process σ (Option (List Item))).exec t
      (plain (textBytes s) ++ rest) = ⟨.done (some (plain (textBytes s))), t, rest, []⟩ := by
    rw [← hlength]
    exact Proc.exec_recvN _ t rest
  have hplain : (plain (textBytes s)).map (·.byte) = textBytes s := by
    simp [plain, Function.comp_def]
  rw [show plain (intBytes s.length ++ textBytes s) ++ rest =
      plain (intBytes s.length) ++ (plain (textBytes s) ++ rest) by simp [plain]]
  rw [privSockGetStr, Proc.exec_bind_of_done (exec_getInt t (by omega) (by omega) _),
    if_neg hmax, Proc.exec_bind_of_done hitems]
  dsimp only
  rw [hplain, bytesText_textBytes h]
  rfl

end Messages

/-! ## A login over the sockets -/

/-- What a login writes behind its command. -/
def loginMessage (s : Session) (pass : Text) : List Item :=
  plain (intBytes s.userStr.length ++ textBytes s.userStr) ++
    plain (intBytes pass.length ++ textBytes pass) ++
    plain (intBytes (if s.controlUseSsl then 1 else 0)) ++
    plain (intBytes (if s.dataUseSsl then 1 else 0))

/-- The child sends its question and waits for the result. -/
theorem exec_twoProcessLogin {σ : Type} (t : σ) (s : Session) (pass : Text) :
    (vsfTwoProcessLogin s pass : Process σ Bool).exec t [] =
      ⟨awaitResult, t, [], ⟨loginCode, none⟩ :: loginMessage s pass⟩ := by
  rw [vsfTwoProcessLogin, Proc.exec_bind_of_done (exec_sendChar t loginCode []),
    Proc.exec_bind_of_done (exec_sendStr t s.userStr []),
    Proc.exec_bind_of_done (exec_sendStr t pass []),
    Proc.exec_bind_of_done (exec_sendInt t _ []),
    Proc.exec_bind_of_done (exec_sendInt t _ [])]
  have hwait : (awaitResult : Process σ Bool).exec t [] = ⟨awaitResult, t, [], []⟩ := rfl
  rw [hwait]
  simp [loginMessage, plain]

/-- The result that arrives is the one that is returned. -/
theorem exec_awaitResult {σ : Type} (t : σ) (ok : Bool) :
    (awaitResult : Process σ Bool).exec t (plain [if ok then resultOk else resultBad]) =
      ⟨.done ok, t, [], []⟩ := by
  cases ok <;> rfl

variable {cfg checkAuth}

/-- What the parent does with a login that arrives. -/
theorem exec_serveLogin (cfg : Config) (checkAuth : Text → Text → K → Verdict × K) {s : Session}
    {pass : Text} (hs : Sendable s.userStr) (hpass : Sendable pass) (t : Parent K) :
    (serveLogin cfg checkAuth).exec t (loginMessage s pass) =
      (loginItself cfg checkAuth s pass >>= fun ok =>
        privSockSendChar (if ok then resultOk else resultBad) >>= fun _ => pure ok).exec t [] := by
  have hcontrol : ((if s.controlUseSsl then 1 else 0 : Int) ≠ 0 : Bool) = s.controlUseSsl := by
    cases s.controlUseSsl <;> rfl
  have hdata : ((if s.dataUseSsl then 1 else 0 : Int) ≠ 0 : Bool) = s.dataUseSsl := by
    cases s.dataUseSsl <;> rfl
  have hlast := exec_getInt t (n := if s.dataUseSsl then 1 else 0) (by split <;> omega)
    (by split <;> omega) []
  rw [List.append_nil] at hlast
  rw [serveLogin, loginMessage, List.append_assoc, List.append_assoc,
    Proc.exec_bind_of_done (exec_getStr t hs _), Proc.exec_bind_of_done (exec_getStr t hpass _),
    Proc.exec_bind_of_done (exec_getInt t (by split <;> omega) (by split <;> omega) _),
    Proc.exec_bind_of_done hlast, hcontrol, hdata]
  rfl

/-! ### The parent by itself -/

/-- A look at the parent is the same for both. -/
theorem alike_inParent {α : Type} {p : Parent K → Process (Parent K) α}
    (h : ∀ t, Proc.Alike (· = ·) (p t) (p t)) :
    Proc.Alike (· = ·) (inParent >>= p) (inParent >>= p) :=
  Proc.alike_act fun t _ ht => by
    cases ht
    exact ⟨rfl, h t⟩

/-- A change of the parent is the same for both. -/
theorem alike_setParent {α : Type} (change : Parent K → Parent K) {p : Process (Parent K) α}
    (h : Proc.Alike (· = ·) p p) :
    Proc.Alike (· = ·) (setParent change >>= fun _ => p) (setParent change >>= fun _ => p) :=
  Proc.alike_act fun t _ ht => by
    cases ht
    exact ⟨rfl, h⟩

/-- The login of an anonymous user does not read from the socket. -/
theorem alike_handleAnonymousLogin (pass : Text) :
    Proc.Alike (· = ·) (handleAnonymousLogin cfg pass : Process (Parent K) LoginResult)
      (handleAnonymousLogin cfg pass) := by
  apply alike_inParent
  intro t
  split
  · exact Proc.alike_done _
  · split
    · exact Proc.alike_done _
    · exact alike_setParent _ (Proc.alike_done _)

/-- Nor does the login of a local one. -/
theorem alike_handleLocalLogin (user pass : Text) :
    Proc.Alike (· = ·) (handleLocalLogin checkAuth user pass)
      (handleLocalLogin checkAuth user pass) := by
  apply Proc.alike_act
  intro t _ ht
  cases ht
  refine ⟨rfl, ?_⟩
  change Proc.Alike _ (if _ then _ else _) (if _ then _ else _)
  split
  · exact Proc.alike_done _
  · exact Proc.alike_done _

/-- Nor does the choice between the two. -/
theorem alike_handleLogin (pass : Text) :
    Proc.Alike (· = ·) (handleLogin cfg checkAuth pass) (handleLogin cfg checkAuth pass) := by
  apply alike_inParent
  intro t
  dsimp only
  split
  · exact Proc.alike_done _
  · split
    · exact alike_handleAnonymousLogin pass
    · split
      · exact Proc.alike_dead _
      · exact alike_handleLocalLogin _ pass

/-- The parent reads and writes nothing while it decides. -/
theorem alike_loginItself (s : Session) (pass : Text) :
    Proc.Alike (· = ·) (loginItself cfg checkAuth s pass) (loginItself cfg checkAuth s pass) := by
  apply alike_setParent
  apply (alike_handleLogin pass).bind
  intro result
  cases result with
  | fail => exact Proc.alike_done _
  | anon => exact alike_setParent _ (Proc.alike_done _)
  | real =>
      apply alike_inParent
      intro t
      dsimp only
      split
      · exact Proc.alike_dead _
      · exact alike_setParent _ (Proc.alike_done _)

/-- A login does not touch what is still to be read. -/
theorem exec_loginItself (cfg : Config) (checkAuth : Text → Text → K → Verdict × K) (s : Session)
    (pass : Text) (t : Parent K) :
    ∃ (out : Except Fault Bool) (t' : Parent K), ∀ inbox,
      (loginItself cfg checkAuth s pass).exec t inbox = ⟨.ended out, t', inbox, []⟩ := by
  obtain ⟨out, t', _, _, hexec, _⟩ := alike_loginItself s pass t t rfl
  exact ⟨out, t', hexec⟩

/-! ### Conversations -/

/-- What a command other than `USER` and `PASS` leaves alone. -/
structure Kept (s s' : Session) : Prop where
  userStr : s'.userStr = s.userStr
  userlistStr : s'.userlistStr = s.userlistStr
  loginFails : s'.loginFails = s.loginFails
  secure : s.controlUseSsl = true → s'.controlUseSsl = true

/-- A reply keeps the session. -/
theorem kept_say (s : Session) (status : Nat) (text : String) : Kept s (s.say status text) :=
  ⟨rfl, rfl, rfl, id⟩

/-- `PROT` keeps who is to log in. -/
theorem kept_handleProt (s : Session) (arg : Text) : Kept s (handleProt s arg) := by
  simp only [handleProt]
  split
  · exact kept_say _ _ _
  split
  · exact ⟨rfl, rfl, rfl, id⟩
  split
  · exact ⟨rfl, rfl, rfl, id⟩
  split
  · exact kept_say _ _ _
  · exact kept_say _ _ _

/-- What a command leads to. -/
inductive Led (cfg : Config) (s : Session) : Turn → Prop where
  | user {arg : Text} (h : Sendable arg) : Led cfg s (handleUserCommand cfg s arg)
  | pass {arg : Text} (h : Sendable arg) : Led cfg s (handlePassCommand s arg)
  | get {arg : Text} (h : cfg.ftpEnable = false) : Led cfg s (handleGet s arg)
  | exit (s' : Session) : Led cfg s (.exit s')
  | next {s' : Session} (h : Kept s s') : Led cfg s (.next s')

/-- `AUTH` leads to a session with the same user. -/
theorem led_handleAuth (s : Session) (arg : Text) : Led cfg s (handleAuth cfg s arg) := by
  simp only [handleAuth]
  split
  · split
    · exact .exit _
    · exact .next ⟨rfl, rfl, rfl, fun _ => rfl⟩
  · exact .next (kept_say _ _ _)

/-- A command leads to a session, to an attempt or to the end. -/
theorem led_ftpCommand (s : Session) (cmd : Text) {arg : Text} (harg : Sendable arg) :
    Led cfg s (ftpCommand cfg s cmd arg) := by
  rw [ftpCommand]
  split
  · exact .user harg
  split
  · exact .pass harg
  split
  · exact .exit _
  split
  · exact .next ⟨rfl, rfl, rfl, id⟩
  split
  · rw [handleOpts]
    split <;> exact .next (kept_say _ _ _)
  split
  · exact led_handleAuth s arg
  split
  · rw [handlePbsz]
    split <;> exact .next (kept_say _ _ _)
  split
  · exact .next (kept_handleProt s arg)
  split
  · exact .next ⟨rfl, rfl, rfl, id⟩
  · exact .next (kept_say _ _ _)

/-- Every command leads to one of these. -/
theorem led_command (cfg : Config) (s : Session) (line : Line) :
    Led cfg s (command cfg s line) := by
  simp only [command]
  split
  · exact led_ftpCommand s _ (sendable_arg line)
  · rename_i hftp
    rw [Bool.not_eq_true] at hftp
    split
    · split
      · exact .get hftp
      · exact .exit _
    · exact .next ⟨rfl, rfl, rfl, id⟩

/-- What both processes let through to the password. -/
structure Admitted (cfg : Config) (userlist : Text) (secure : Bool) (user : Text) : Prop where
  enabled : cfg.localEnable = true ∨ isAnonName user = true
  localSecure : cfg.sslEnable = true → cfg.forceLocalLoginsSsl = true → isAnonName user = false →
    secure = true
  anonSecure : cfg.sslEnable = true → cfg.forceAnonLoginsSsl = true → isAnonName user = true →
    secure = true
  listed : cfg.userlistEnable = true →
    (strContainsLine userlist user = true ↔ cfg.userlistDeny = false)

/-- A failure is counted, or nothing is. -/
def Counted (cfg : Config) (s s' : Session) : Prop :=
  s'.loginFails = s.loginFails ∨
    s'.loginFails = s.loginFails + 1 ∧ s'.loginFails < cfg.maxLoginFails

/-- What `USER` leads to. -/
inductive LedByUser (cfg : Config) (s : Session) (arg : Text) : Turn → Prop where
  | exit (s' : Session) : LedByUser cfg s arg (.exit s')
  | refused {s' : Session} (huser : s'.userStr = []) (hlist : s'.userlistStr = s.userlistStr)
    (hcount : Counted cfg s s') : LedByUser cfg s arg (.next s')
  | admitted {s' : Session} (h : Admitted cfg s.userlistStr s.controlUseSsl arg)
    (hkept : Kept { s with userStr := arg } s') : LedByUser cfg s arg (.next s')
  | asked (h : Admitted cfg s.userlistStr s.controlUseSsl arg) (hne : arg ≠ []) :
    LedByUser cfg s arg (.attempt { s with userStr := arg } "<no password>".toList false)

/-- A session that goes on has failed less often than it may. -/
theorem counted_checkLoginFails {s s' : Session} (h : checkLoginFails cfg s = (s', false)) :
    s'.userStr = [] ∧ s'.userlistStr = s.userlistStr ∧ s'.controlUseSsl = s.controlUseSsl ∧
      s'.loginFails = s.loginFails + 1 ∧ s'.loginFails < cfg.maxLoginFails := by
  rw [checkLoginFails] at h
  split at h
  · cases h
  · rename_i hless
    cases h
    exact ⟨rfl, rfl, rfl, rfl, Nat.not_le.mp hless⟩

/-- Who is not refused is on the list exactly when the list is one of those who may. -/
theorem userlistRefuses_eq_false {s : Session} {user : Text}
    (h : userlistRefuses cfg s user = false) (henable : cfg.userlistEnable = true) :
    strContainsLine s.userlistStr user = true ↔ cfg.userlistDeny = false := by
  rw [userlistRefuses, henable] at h
  cases hcontains : strContainsLine s.userlistStr user <;> cases hdeny : cfg.userlistDeny <;>
    simp_all

/-- An anonymous name is not empty. -/
theorem isAnonName_ne_nil {user : Text} (h : isAnonName user = true) : user ≠ [] := by
  rintro rfl
  exact absurd h (by decide)

/-- `USER` leads to a session with the new user when that is not refused. -/
theorem led_handleUserCommand (cfg : Config) (s : Session) (arg : Text) :
    LedByUser cfg s arg (handleUserCommand cfg s arg) := by
  simp only [handleUserCommand]
  split
  · exact .refused rfl rfl (Or.inl rfl)
  rename_i henabled
  split
  · exact .refused rfl rfl (Or.inl rfl)
  split
  · exact .exit _
  rename_i hlocal
  split
  · exact .exit _
  rename_i hanon
  split
  · split
    · exact .exit _
    · rename_i s' hfails
      obtain ⟨huser, hlist, _, hcount, hless⟩ := counted_checkLoginFails hfails
      exact .refused huser hlist (Or.inr ⟨hcount, hless⟩)
  rename_i hlisted
  rw [Bool.not_eq_true] at hlisted
  have hadmitted : Admitted cfg s.userlistStr s.controlUseSsl arg := by
    constructor
    · cases hl : cfg.localEnable <;> cases ha : isAnonName arg <;> simp_all
    · intro hssl hforce hname
      simpa [hssl, hforce, hname] using hlocal
    · intro hssl hforce hname
      simpa [hssl, hforce, hname] using hanon
    · exact userlistRefuses_eq_false hlisted
  split
  · rename_i hask
    rw [Bool.and_eq_true] at hask
    rw [handlePassCommand, if_neg (isAnonName_ne_nil hask.1)]
    exact .asked hadmitted (isAnonName_ne_nil hask.1)
  · exact .admitted hadmitted (kept_say _ _ _)

/-! ### Two processes -/

/-- What can be sent behind a command. -/
def Turn.Sendable : Turn → Prop
  | next s => PreLogin.Sendable s.userStr
  | exit _ => True
  | attempt s pass _ => PreLogin.Sendable s.userStr ∧ PreLogin.Sendable pass

/-- A short text of the program can be sent. -/
theorem sendable_text {text : Text} (h : text.all (·.toNat < 256) = true)
    (hlength : text.length ≤ maxCommandLine) : Sendable text := by
  refine ⟨fun c hc => ?_, hlength⟩
  simpa using List.all_eq_true.mp h c hc

/-- Whatever line arrives, the name and the password can be sent. -/
theorem sendable_command (cfg : Config) {s : Session} (hs : Sendable s.userStr) (line : Line) :
    (command cfg s line).Sendable := by
  have hled := led_command cfg s line
  generalize command cfg s line = turn at hled
  cases hled with
  | @user arg harg =>
    have huser := led_handleUserCommand cfg s arg
    generalize handleUserCommand cfg s arg = turn at huser
    cases huser with
    | exit s' => trivial
    | refused huser _ _ =>
      rw [Turn.Sendable, huser]
      exact sendable_nil
    | admitted _ hkept =>
      rw [Turn.Sendable, hkept.userStr]
      exact harg
    | asked _ _ => exact ⟨harg, sendable_text (by decide) (by decide)⟩
  | pass harg =>
    rw [handlePassCommand]
    split
    · exact hs
    · exact ⟨hs, harg⟩
  | get _ =>
    have huser : Sendable "FTP".toList := sendable_text (by decide) (by decide)
    exact ⟨huser, sendable_text (by decide) (by decide)⟩
  | exit s' => trivial
  | next hkept =>
    rw [Turn.Sendable, hkept.userStr]
    exact hs

/-- A failed login leaves a name that can be sent. -/
theorem sendable_loginIncorrect (cfg : Config) {s : Session} (h : Sendable s.userStr) :
    Sendable (loginIncorrect cfg s).1.userStr := by
  rw [loginIncorrect, checkLoginFails]
  split
  · exact h
  · exact sendable_nil

/-- The child at the beginning of a conversation, with its parent. -/
def begun (cfg : Config) (lines : List Line) (s : Session) (t : Parent K) :
    Duo Item Fault Unit (Parent K) (Session × Ended) Bool :=
  ⟨parseUsernamePassword cfg vsfTwoProcessLogin lines s, (), .done false, t, [], []⟩

/-- The two processes at the end of a conversation. -/
def finished (r : Session × Ended) (t : Parent K) :
    Duo Item Fault Unit (Parent K) (Session × Ended) Bool :=
  ⟨.done r, (), .done (r.2 = .loggedIn), t, [], []⟩

/-- What the child makes of the result of a login. -/
def afterLogin {σ : Type} (cfg : Config) (login : Session → Text → Process σ Bool)
    (lines : List Line) (s : Session) (isGet ok : Bool) : Process σ (Session × Ended) :=
  if ok then pure (s, .loggedIn)
  else if (loginIncorrect cfg s).2 || isGet then pure ((loginIncorrect cfg s).1, .exited)
  else parseUsernamePassword cfg login lines (loginIncorrect cfg s).1

/-- A conversation with an attempt is the attempt and what follows it. -/
theorem parse_of_attempt {σ : Type} {login : Session → Text → Process σ Bool} {s s' : Session}
    {line : Line} {lines : List Line} {pass : Text} {isGet : Bool}
    (h : command cfg s line = .attempt s' pass isGet) :
    parseUsernamePassword cfg login (line :: lines) s =
      login s' pass >>= afterLogin cfg login lines s' isGet := by
  rw [parseUsernamePassword, h]
  rfl

/-- What the child dies of where it reads the end of its socket in place of the result. -/
def resultMissing : Fault :=
  .die "priv_sock_get_result"

/-- A login over the sockets: the parent is at the beginning again, or it is done, or it dies and
the child behind it. -/
theorem leads_login {s : Session} {pass : Text} (hs : Sendable s.userStr) (hpass : Sendable pass)
    {t t' : Parent K} {out : Except Fault Bool}
    (hself : ∀ inbox, (loginItself cfg checkAuth s pass).exec t inbox =
      ⟨.ended out, t', inbox, []⟩) (k : Bool → Process Unit (Session × Ended)) :
    match out with
    | .ok ok => Duo.Leads (vsfTwoProcessStart cfg checkAuth)
        ⟨vsfTwoProcessLogin s pass >>= k, (), .done false, t, [], []⟩
        ⟨k ok, (), .done ok, t', [], []⟩
    | .error e => Duo.Leads (vsfTwoProcessStart cfg checkAuth)
        ⟨vsfTwoProcessLogin s pass >>= k, (), .done false, t, [], []⟩
        ⟨.dead resultMissing, (), .dead e, t', [], []⟩ := by
  have hserve := exec_serveLogin cfg checkAuth hs hpass t
  rw [Proc.exec_bind_of_ended (hself [])] at hserve
  have hask := exec_twoProcessLogin () s pass
  cases out with
  | ok ok => exact Duo.leads_call hask rfl hserve (exec_awaitResult () ok) k
  | error e => exact (Duo.leads_served hask rfl hserve k).trans (Duo.leads_ended e)

/-- Some order of the steps does over the sockets what the parent does by itself. -/
theorem leads_conversation (cfg : Config) (checkAuth : Text → Text → K → Verdict × K)
    (lines : List Line) {s : Session} (hs : Sendable s.userStr) (t : Parent K) :
    ∃ (out : Except Fault (Session × Ended)) (t' : Parent K),
      (parseUsernamePassword cfg (loginItself cfg checkAuth) lines s).exec t [] =
        ⟨.ended out, t', [], []⟩ ∧
      match out with
      | .ok r => Duo.Leads (vsfTwoProcessStart cfg checkAuth) (begun cfg lines s t) (finished r t')
      | .error e => Duo.Leads (vsfTwoProcessStart cfg checkAuth) (begun cfg lines s t)
          ⟨.dead resultMissing, (), .dead e, t', [], []⟩ := by
  induction lines generalizing s t with
  | nil => exact ⟨.ok (s, .waiting), t, rfl, Duo.Leads.refl _⟩
  | cons line lines ih =>
      have hsendable := sendable_command cfg hs line
      cases hturn : command cfg s line with
      | next s' =>
          rw [hturn] at hsendable
          simp only [begun, parseUsernamePassword, hturn]
          exact ih hsendable t
      | exit s' =>
          refine ⟨.ok (s', .exited), t, ?_, ?_⟩
          · simp only [parseUsernamePassword, hturn]
            rfl
          · simp only [begun, parseUsernamePassword, hturn]
            exact Duo.Leads.refl _
      | attempt s' pass isGet =>
          rw [hturn] at hsendable
          obtain ⟨out, t', hself⟩ := exec_loginItself cfg checkAuth s' pass t
          have hleads := leads_login hsendable.1 hsendable.2 hself
            (afterLogin cfg vsfTwoProcessLogin lines s' isGet)
          simp only [begun, parse_of_attempt hturn]
          rw [Proc.exec_bind_of_ended (hself [])]
          cases out with
          | error e => exact ⟨.error e, t', rfl, hleads⟩
          | ok ok =>
              cases ok with
              | true => exact ⟨.ok (s', .loggedIn), t', rfl, hleads⟩
              | false =>
                  change ∃ out t'', (afterLogin cfg (loginItself cfg checkAuth) lines s' isGet
                    false).exec t' [] = ⟨.ended out, t'', [], []⟩ ∧ _
                  by_cases hends : ((loginIncorrect cfg s').2 || isGet) = true
                  · refine ⟨.ok ((loginIncorrect cfg s').1, .exited), t', ?_, ?_⟩
                    · simp only [afterLogin, Bool.false_eq_true, ↓reduceIte, hends]
                      rfl
                    · simp only [afterLogin, Bool.false_eq_true, ↓reduceIte, hends] at hleads
                      exact hleads
                  · obtain ⟨out, t'', hexec, hrest⟩ := ih
                      (sendable_loginIncorrect cfg hsendable.1) t'
                    refine ⟨out, t'', ?_, ?_⟩
                    · simp only [afterLogin, Bool.false_eq_true, ↓reduceIte, hends]
                      exact hexec
                    · simp only [afterLogin, Bool.false_eq_true, ↓reduceIte, hends] at hleads
                      cases out with
                      | ok r => exact hleads.trans hrest
                      | error e => exact hleads.trans hrest

/-- Behind the end of both nothing moves any more. -/
theorem quiet_finished (r : Session × Ended) (t : Parent K) (side : Side) :
    Duo.step (vsfTwoProcessStart cfg checkAuth) (finished r t) side = none := by
  obtain ⟨s, ended⟩ := r
  cases ended with
  | waiting => exact Duo.quiet_of_done rfl _ side
  | exited => exact Duo.quiet_of_done rfl _ side
  | loggedIn => exact Duo.quiet_of_both_done rfl _ side

/-- How two processes end that do what one does by itself.  Where the parent dies, the child reads
the end of its socket. -/
def EndsAs (cfg : Config) (checkAuth : Text → Text → K → Verdict × K) (lines : List Line)
    (s : Session) (t t' : Parent K) : Except Fault (Session × Ended) → Prop
  | .ok r => Settles (Duo.step (vsfTwoProcessStart cfg checkAuth)) (begun cfg lines s t)
      (finished r t')
  | .error e => Settles (Duo.step (vsfTwoProcessStart cfg checkAuth)) (begun cfg lines s t)
      ⟨.dead resultMissing, (), .dead e, t', [], []⟩

/-- However two processes end, they write to nobody who has died. -/
theorem EndsAs.unbroken {lines : List Line} {s : Session} {t t' : Parent K}
    {out : Except Fault (Session × Ended)} (h : EndsAs cfg checkAuth lines s t t' out) :
    (begun cfg lines s t).Unbroken (vsfTwoProcessStart cfg checkAuth) := by
  cases out with
  | ok r => exact Duo.unbroken_of_settles h rfl rfl
  | error e => exact Duo.unbroken_of_settles h rfl rfl

/-- The whole conversation ends in the two processes as it does in one. -/
theorem endsAs_conversation (cfg : Config) (checkAuth : Text → Text → K → Verdict × K)
    (lines : List Line) {s : Session} (hs : Sendable s.userStr) (t : Parent K) :
    ∃ (out : Except Fault (Session × Ended)) (t' : Parent K),
      (parseUsernamePassword cfg (loginItself cfg checkAuth) lines s).exec t [] =
        ⟨.ended out, t', [], []⟩ ∧ EndsAs cfg checkAuth lines s t t' out := by
  obtain ⟨out, t', hexec, hleads⟩ := leads_conversation cfg checkAuth lines hs t
  refine ⟨out, t', hexec, ?_⟩
  cases out with
  | ok r => exact hleads.settles (quiet_finished r t')
  | error e => exact hleads.settles (Duo.quiet_of_both_dead _ e)

/-- A session at its beginning. -/
def Session.start (userlist : Text) (secure : Bool) : Session :=
  ⟨[], userlist, secure, false, 0, false, [], []⟩

/-- A parent at the beginning of its session. -/
def Parent.start (bannedEmail emailPasswords : Text) (auth : K) : Parent K :=
  ⟨[], false, false, [], bannedEmail, emailPasswords, auth, [], none⟩

/-- Over every conversation and in every order of their steps, two processes do what the parent
does for a login by itself, and leave nothing in their sockets; neither of them ever writes to the
other when that one has died. -/
theorem two_process_login_refines (cfg : Config) (checkAuth : Text → Text → K → Verdict × K)
    (lines : List Line) (userlist : Text) (secure : Bool) (t : Parent K) :
    ∃ (out : Except Fault (Session × Ended)) (t' : Parent K),
      (parseUsernamePassword cfg (loginItself cfg checkAuth) lines
        (.start userlist secure)).exec t [] = ⟨.ended out, t', [], []⟩ ∧
      EndsAs cfg checkAuth lines (.start userlist secure) t t' out ∧
      (begun cfg lines (.start userlist secure) t).Unbroken (vsfTwoProcessStart cfg checkAuth) := by
  obtain ⟨out, t', hexec, hends⟩ := endsAs_conversation cfg checkAuth lines
    (s := .start userlist secure) sendable_nil t
  exact ⟨out, t', hexec, hends, hends.unbroken⟩

/-- A server for local users and for nobody else. -/
def localServer : Config where
  ftpEnable := true
  httpEnable := false
  sslEnable := false
  sslv2 := false
  sslv3 := false
  tlsv1 := true
  utf8Filesystem := false
  portEnable := true
  pasvEnable := true
  localEnable := true
  anonymousEnable := false
  allowAnonSsl := false
  forceAnonLoginsSsl := false
  forceLocalLoginsSsl := true
  userlistEnable := true
  userlistDeny := true
  noAnonPassword := false
  maxLoginFails := 3
  ftpUsername := "ftp".toList
  chrootLocalUser := true
  chrootListEnable := false
  chrootListFile := ""
  chrootList := none
  sslError := none

/-- An authentication that knows one password, and the name in large letters too. -/
def onePassword (user pass : Text) (asked : Nat) : Verdict × Nat :=
  if strUpper user = "ALICE".toList ∧ pass = "secret".toList then
    (⟨true, "alice".toList⟩, asked + 1)
  else (⟨false, user⟩, asked + 1)

def lineOf (text : Text) : Line :=
  ⟨(textBytes text).take maxCommandLine, List.length_take_le _ _⟩

/-- A user that is refused, and one that is let in with the second password. -/
def aliceLines : List Line :=
  ["USER root".toList, "user alice".toList, "PASS guess".toList, "USER Alice".toList,
    "PASS secret".toList].map lineOf

/-- What the parent has granted to the user. -/
def aliceGrant : Grant :=
  ⟨"alice".toList, true, false⟩

/-- A conversation in which a user logs in. -/
theorem exec_aliceLines :
    ∃ s t, (parseUsernamePassword localServer (loginItself localServer onePassword) aliceLines
      (.start "root\n".toList false)).exec (.start [] [] 0) [] =
        ⟨.ended (.ok (s, .loggedIn)), t, [], []⟩ ∧ t.grant = some aliceGrant ∧
      t.anonPassStr = [] :=
  ⟨_, _, rfl, rfl, rfl⟩

/-- The processes of the conversation of alice come to their end. -/
theorem settles_aliceLines :
    ∃ s t, Settles (Duo.step (vsfTwoProcessStart localServer onePassword))
        (begun localServer aliceLines (.start "root\n".toList false) (.start [] [] 0))
        (finished (s, .loggedIn) t) ∧ t.grant = some aliceGrant ∧ t.anonPassStr = [] := by
  obtain ⟨s, t, hexec, hgrant, hpass⟩ := exec_aliceLines
  obtain ⟨out, t', hexec', hends⟩ := endsAs_conversation localServer onePassword aliceLines
    (s := .start "root\n".toList false) sendable_nil (.start [] [] 0)
  rw [hexec] at hexec'
  cases out with
  | ok r =>
      cases hexec'
      exact ⟨s, t, hends, hgrant, hpass⟩
  | error e => cases hexec'

/-! ## What is asked and what is granted -/

/-- A question that may be asked. -/
structure Decent (cfg : Config) (a : Asked) : Prop where
  name : decentName a.user = true
  pass : a.pass.length ≤ 128
  localEnable : cfg.localEnable = true

/-- What is granted to a client that gives this name and password.  A local user is let in under
the name that the authentication has answered with. -/
def Grant.LetIn (cfg : Config) (user pass : Text) (asked : List Asked) (g : Grant) : Prop :=
  decentName user = true ∧
    if g.anon then
      cfg.anonymousEnable = true ∧ isAnonName user = true ∧ g.user = cfg.ftpUsername ∧
        g.doChroot = true
    else
      asked.getLast? = some ⟨user, pass, ⟨true, g.user⟩⟩ ∧
        chrootFor cfg g.user = some g.doChroot

/-- What a login may have changed so far. -/
structure Progress (cfg : Config) (t : Parent K) (pass : Text) (t' : Parent K) : Prop where
  asked : t'.asked = t.asked ∨
    ∃ verdict, t'.asked = t.asked ++ [⟨t.userStr, pass, verdict⟩] ∧
      Decent cfg ⟨t.userStr, pass, verdict⟩
  grant : ∀ g, t'.grant = some g → g.LetIn cfg t.userStr pass t'.asked

/-- A login that is granted says so, and another one changes nothing. -/
def Told (ok : Bool) (t' : Parent K) : Prop :=
  if ok then t'.grant.isSome = true else t'.grant = none

/-- What follows may use the state of the parent. -/
theorem meets_inParent {α : Type} {P : Parent K → Prop} {Q : α → Parent K → Prop} {t : Parent K}
    {p : Parent K → Process (Parent K) α} (ht : P t) (h : (p t).Meets P t Q) :
    (inParent >>= p).Meets P t Q :=
  ⟨ht, h⟩

/-- What is known behind `handle_login`. -/
structure Decided (cfg : Config) (t : Parent K) (pass : Text) (result : LoginResult)
    (t' : Parent K) : Prop where
  progress : Progress cfg t pass t'
  grant : t'.grant = none
  anon : result = .anon → decentName t.userStr = true ∧ cfg.anonymousEnable = true ∧
    isAnonName t.userStr = true
  real : result = .real → decentName t.userStr = true ∧
    t'.asked.getLast? = some ⟨t.userStr, pass, ⟨true, t'.userStr⟩⟩

/-- Without a grant, what was asked is all that there is to a login. -/
theorem progress_of_not_granted {t t' : Parent K} {pass : Text} (hgrant : t'.grant = none)
    (hasked : t'.asked = t.asked ∨ ∃ verdict, t'.asked = t.asked ++ [⟨t.userStr, pass, verdict⟩] ∧
      Decent cfg ⟨t.userStr, pass, verdict⟩) : Progress cfg t pass t' := by
  refine ⟨hasked, fun g hg => ?_⟩
  rw [hgrant] at hg
  cases hg

/-- A login that fails has granted nothing. -/
theorem decided_fail {t t' : Parent K} {pass : Text} (hprogress : Progress cfg t pass t')
    (hgrant : t'.grant = none) : Decided cfg t pass .fail t' :=
  ⟨hprogress, hgrant, by simp, by simp⟩

/-- An anonymous login is decided without a question. -/
theorem meets_handleAnonymousLogin {t : Parent K} (hgrant : t.grant = none) {pass : Text}
    (hname : decentName t.userStr = true) (hanon : cfg.anonymousEnable = true)
    (huser : isAnonName t.userStr = true) :
    (handleAnonymousLogin cfg pass).Meets (Progress cfg t pass) t (Decided cfg t pass) := by
  have hstart : Progress cfg t pass t := progress_of_not_granted hgrant (Or.inl rfl)
  refine meets_inParent hstart ?_
  split
  · exact decided_fail hstart hgrant
  · split
    · exact decided_fail hstart hgrant
    · have hset : Progress cfg t pass { t with
          anonPassStr := strReplaceChar (strReplaceChar (if pass = [] then ['?'] else pass) ' ' '_')
            '\n' '?'
          userStr := cfg.ftpUsername
          bannedEmailStr := []
          emailPasswordsStr := [] } :=
        progress_of_not_granted hgrant (Or.inl rfl)
      exact ⟨hset, hset, hgrant, fun _ => ⟨hname, hanon, huser⟩, by simp⟩

/-- A local login is decided by one question. -/
theorem meets_handleLocalLogin {t : Parent K} (hgrant : t.grant = none) {pass : Text}
    (hname : decentName t.userStr = true) (hpass : pass.length ≤ 128)
    (hlocal : cfg.localEnable = true) :
    (handleLocalLogin checkAuth t.userStr pass).Meets (Progress cfg t pass) t
      (Decided cfg t pass) := by
  have hasked : Progress cfg t pass (t.ask checkAuth t.userStr pass) :=
    progress_of_not_granted hgrant (Or.inr ⟨_, rfl, hname, hpass, hlocal⟩)
  refine ⟨hasked, ?_⟩
  change Proc.Meets _ (if (checkAuth t.userStr pass t.auth).1.ok = true then _ else _) _ _
  split
  · rename_i hok
    refine ⟨hasked, hgrant, by simp, fun _ => ⟨hname, ?_⟩⟩
    simp only [Parent.ask, List.getLast?_concat, ← hok]
  · exact decided_fail hasked hgrant

/-- A login is decided with one question at most. -/
theorem meets_handleLogin {t : Parent K} (hgrant : t.grant = none) (pass : Text) :
    (handleLogin cfg checkAuth pass).Meets (Progress cfg t pass) t (Decided cfg t pass) := by
  have hstart : Progress cfg t pass t := progress_of_not_granted hgrant (Or.inl rfl)
  refine meets_inParent hstart ?_
  dsimp only
  split
  · exact decided_fail hstart hgrant
  · rename_i hdecent
    rw [not_or, Bool.not_eq_true', Bool.not_eq_false, Nat.not_lt] at hdecent
    split
    · rename_i hanon
      rw [Bool.and_eq_true] at hanon
      exact meets_handleAnonymousLogin hgrant hdecent.1 hanon.1 hanon.2
    · split
      · trivial
      · rename_i hlocal
        rw [Bool.not_eq_true', Bool.not_eq_false] at hlocal
        exact meets_handleLocalLogin hgrant hdecent.1 hdecent.2 hlocal

/-- What is granted and what is asked by a login. -/
theorem meets_grantLogin {t : Parent K} (hgrant : t.grant = none) (pass : Text) :
    (grantLogin cfg checkAuth pass).Meets (Progress cfg t pass) t
      (fun ok t' => Progress cfg t pass t' ∧ Told ok t') := by
  refine (meets_handleLogin hgrant pass).bind fun result t' hdecided => ?_
  obtain ⟨hprogress, hnone, hanon, hreal⟩ := hdecided
  cases result with
  | fail => exact ⟨hprogress, hnone⟩
  | anon =>
      obtain ⟨hname, henable, huser⟩ := hanon rfl
      have hset : Progress cfg t pass { t' with
          userStr := cfg.ftpUsername, grant := some ⟨cfg.ftpUsername, true, true⟩ } := by
        refine ⟨hprogress.asked, fun g hg => ?_⟩
        cases hg
        exact ⟨hname, henable, huser, rfl, rfl⟩
      exact ⟨hset, hset, rfl⟩
  | real =>
      obtain ⟨hname, hlast⟩ := hreal rfl
      refine meets_inParent hprogress ?_
      dsimp only
      split
      · trivial
      · rename_i doChroot hchroot
        have hset :
            Progress cfg t pass { t' with grant := some ⟨t'.userStr, doChroot, false⟩ } := by
          refine ⟨hprogress.asked, fun g hg => ?_⟩
          cases hg
          exact ⟨hname, hlast, hchroot⟩
        exact ⟨hset, hset, rfl⟩

/-- The parent behind the messages of a login. -/
theorem meets_loginItself {t : Parent K} (hgrant : t.grant = none) (s : Session) (pass : Text) :
    (loginItself cfg checkAuth s pass).Meets
      (Progress cfg (t.takeOver cfg s.userStr s.controlUseSsl s.dataUseSsl) pass) t
      (fun ok t' => Progress cfg (t.takeOver cfg s.userStr s.controlUseSsl s.dataUseSsl) pass t' ∧
        Told ok t') := by
  have hgrant' : (t.takeOver cfg s.userStr s.controlUseSsl s.dataUseSsl).grant = none := hgrant
  exact ⟨progress_of_not_granted hgrant' (Or.inl rfl), meets_grantLogin hgrant' pass⟩

/-! ### A client that guesses -/

/-- Who is waited for has been let through to the password. -/
def Cleared (cfg : Config) (s : Session) : Prop :=
  cfg.ftpEnable = true → s.userStr ≠ [] →
    Admitted cfg s.userlistStr s.controlUseSsl s.userStr

/-- Who was admitted is admitted on a connection that has become secure. -/
theorem Admitted.of_secure {userlist user : Text} {secure secure' : Bool}
    (h : Admitted cfg userlist secure user) (hsecure : secure = true → secure' = true) :
    Admitted cfg userlist secure' user :=
  ⟨h.enabled, fun hssl hforce hname => hsecure (h.localSecure hssl hforce hname),
    fun hssl hforce hname => hsecure (h.anonSecure hssl hforce hname), h.listed⟩

/-- Who was cleared stays cleared while the session is kept. -/
theorem Cleared.of_kept {s s' : Session} (h : Cleared cfg s) (hkept : Kept s s') :
    Cleared cfg s' := by
  intro hftp hne
  rw [hkept.userStr] at hne ⊢
  rw [hkept.userlistStr]
  exact (h hftp hne).of_secure hkept.secure

/-- What a round keeps of the session in front of it. -/
structure Rounded (cfg : Config) (s s' : Session) : Prop where
  counted : Counted cfg s s'
  userlistStr : s'.userlistStr = s.userlistStr
  cleared : Cleared cfg s → Cleared cfg s'

/-- A round that keeps the session. -/
theorem rounded_of_kept {s s' : Session} (h : Kept s s') : Rounded cfg s s' :=
  ⟨Or.inl h.loginFails, h.userlistStr, fun hs => hs.of_kept h⟩

/-- A round with `USER`. -/
theorem rounded_user {s s' : Session} {arg : Text} (h : LedByUser cfg s arg (.next s')) :
    Rounded cfg s s' := by
  cases h with
  | refused huser hlist hcount =>
      exact ⟨hcount, hlist, fun _ _ hne => absurd huser hne⟩
  | admitted hadmitted hkept =>
      refine ⟨Or.inl hkept.loginFails, hkept.userlistStr, fun _ _ _ => ?_⟩
      rw [hkept.userStr, hkept.userlistStr]
      exact hadmitted.of_secure hkept.secure

/-- Every command that goes on makes a round. -/
theorem rounded_next {s s' : Session} {line : Line} (h : command cfg s line = .next s') :
    Rounded cfg s s' := by
  have hled := led_command cfg s line
  rw [h] at hled
  generalize hturn : Turn.next s' = turn at hled
  cases hled with
  | @user arg _ =>
      have huser := led_handleUserCommand cfg s arg
      rw [← hturn] at huser
      exact rounded_user huser
  | pass _ =>
      rw [handlePassCommand] at hturn
      split at hturn
      · cases hturn
        exact rounded_of_kept (kept_say _ _ _)
      · cases hturn
  | get _ => cases hturn
  | exit _ => cases hturn
  | next hkept =>
      cases hturn
      exact rounded_of_kept hkept

/-- A login is tried for a session that has been let through to it. -/
theorem rounded_attempt {s s' : Session} {line : Line} {pass : Text} {isGet : Bool}
    (h : command cfg s line = .attempt s' pass isGet) :
    s'.loginFails = s.loginFails ∧ s'.userlistStr = s.userlistStr ∧
      (Cleared cfg s → Cleared cfg s') := by
  have hled := led_command cfg s line
  rw [h] at hled
  generalize hturn : Turn.attempt s' pass isGet = turn at hled
  cases hled with
  | @user arg _ =>
      have huser := led_handleUserCommand cfg s arg
      rw [← hturn] at huser
      cases huser with
      | asked hadmitted _ => exact ⟨rfl, rfl, fun _ _ _ => hadmitted⟩
  | pass _ =>
      rw [handlePassCommand] at hturn
      split at hturn
      · cases hturn
      · cases hturn
        exact ⟨rfl, rfl, id⟩
  | get hftp =>
      cases hturn
      refine ⟨rfl, rfl, fun _ henable => ?_⟩
      rw [hftp] at henable
      cases henable
  | exit _ => cases hturn
  | next _ => cases hturn

/-- Behind a login that failed, when the conversation goes on. -/
theorem rounded_loginIncorrect {s : Session} (h : (loginIncorrect cfg s).2 = false) :
    (loginIncorrect cfg s).1.userStr = [] ∧
      (loginIncorrect cfg s).1.userlistStr = s.userlistStr ∧
      (loginIncorrect cfg s).1.loginFails = s.loginFails + 1 ∧
      s.loginFails + 1 < cfg.maxLoginFails := by
  rw [loginIncorrect] at h ⊢
  generalize hresult : checkLoginFails cfg (s.say 530 "Login incorrect.") = result at h ⊢
  obtain ⟨s', ends⟩ := result
  cases h
  obtain ⟨huser, hlist, -, hcount, hless⟩ := counted_checkLoginFails hresult
  exact ⟨huser, hlist, hcount, by rw [hcount] at hless; exact hless⟩

/-- The number of guesses that a client gets. -/
def guesses (cfg : Config) : Nat :=
  max 1 cfg.maxLoginFails

/-- One login asks once at most. -/
theorem length_of_progress {t t' : Parent K} {pass : Text} (h : Progress cfg t pass t') :
    t'.asked.length ≤ t.asked.length + 1 := by
  rcases h.asked with hasked | ⟨verdict, hasked, -⟩
  · rw [hasked]
    omega
  · rw [hasked, List.length_append, List.length_singleton]

/-- No more is asked than failures are counted, and one in front. -/
theorem meets_guesses (lines : List Line) {s : Session} {t : Parent K}
    (hcount : t.asked.length ≤ s.loginFails)
    (hfails : s.loginFails = 0 ∨ s.loginFails < cfg.maxLoginFails) (hgrant : t.grant = none) :
    (parseUsernamePassword cfg (loginItself cfg checkAuth) lines s).Meets
      (fun t' => t'.asked.length ≤ guesses cfg) t (fun _ _ => True) := by
  induction lines generalizing s t with
  | nil => trivial
  | cons line lines ih =>
      cases hturn : command cfg s line with
      | next s' =>
          have hrounded := rounded_next hturn
          rw [parseUsernamePassword, hturn]
          apply ih _ _ hgrant
          · rcases hrounded.counted with h | ⟨h, -⟩ <;> omega
          · rcases hrounded.counted with h | ⟨-, h⟩
            · rw [h]
              exact hfails
            · exact Or.inr h
      | exit s' =>
          rw [parseUsernamePassword, hturn]
          trivial
      | attempt s' pass isGet =>
          obtain ⟨hsame, -, -⟩ := rounded_attempt hturn
          rw [parse_of_attempt hturn]
          refine ((meets_loginItself hgrant s' pass).mono fun t' hprogress => ?_).bind
            fun ok t' hdone => ?_
          · have hlength := length_of_progress hprogress
            change t'.asked.length ≤ t.asked.length + 1 at hlength
            rw [guesses]
            omega
          · have hlength := length_of_progress hdone.1
            change t'.asked.length ≤ t.asked.length + 1 at hlength
            cases ok with
            | true => trivial
            | false =>
                rw [afterLogin, if_neg (by simp)]
                split
                · trivial
                · rename_i hgoes
                  rw [Bool.or_eq_true, not_or, Bool.not_eq_true] at hgoes
                  obtain ⟨-, -, hfailed, hless⟩ := rounded_loginIncorrect hgoes.1
                  apply ih _ _ hdone.2
                  · rw [hfailed]
                    omega
                  · rw [hfailed, hsame]
                    rw [hsame] at hless
                    exact Or.inr hless

/-- What every login keeps is kept over a conversation. -/
theorem meets_parse {P : Parent K → Prop}
    (hlogin : ∀ (s : Session) (pass : Text) (t : Parent K), t.grant = none → P t →
      (loginItself cfg checkAuth s pass).Meets P t (fun ok t' => P t' ∧ Told ok t'))
    (lines : List Line) {s : Session} {t : Parent K} (ht : P t) (hgrant : t.grant = none) :
    (parseUsernamePassword cfg (loginItself cfg checkAuth) lines s).Meets P t
      (fun _ t' => P t') := by
  induction lines generalizing s t with
  | nil => exact ht
  | cons line lines ih =>
      cases hturn : command cfg s line with
      | next s' =>
          rw [parseUsernamePassword, hturn]
          exact ih ht hgrant
      | exit s' =>
          rw [parseUsernamePassword, hturn]
          exact ht
      | attempt s' pass isGet =>
          rw [parse_of_attempt hturn]
          refine (hlogin s' pass t hgrant ht).bind fun ok t' hdone => ?_
          obtain ⟨ht', htold⟩ := hdone
          cases ok with
          | true => exact ht'
          | false =>
              rw [afterLogin, if_neg (by simp)]
              split
              · exact ht'
              · exact ih ht' htold

/-- What two processes come to is what the parent comes to by itself. -/
theorem state_of_settles {lines : List Line} {s : Session} (hs : Sendable s.userStr)
    {t : Parent K} {final : Duo Item Fault Unit (Parent K) (Session × Ended) Bool}
    (h : Settles (Duo.step (vsfTwoProcessStart cfg checkAuth)) (begun cfg lines s t) final) :
    ∃ out : Except Fault (Session × Ended),
      (parseUsernamePassword cfg (loginItself cfg checkAuth) lines s).exec t [] =
        ⟨.ended out, final.serverState, [], []⟩ ∧ ∀ r, final.client = .done r → out = .ok r := by
  obtain ⟨out, t', hexec, hends⟩ := endsAs_conversation cfg checkAuth lines hs t
  cases out with
  | ok r =>
      obtain rfl := h.unique hends
      refine ⟨.ok r, hexec, fun r' hr' => ?_⟩
      cases hr'
      rfl
  | error e =>
      obtain rfl := h.unique hends
      exact ⟨.error e, hexec, fun r hr => by cases hr⟩

/-- However long the conversation is, the parent asks for a password no more often than failures
are allowed, and once at least. -/
theorem guesses_le {lines : List Line} {userlist : Text} {secure : Bool}
    {bannedEmail emailPasswords : Text} {auth : K}
    {final : Duo Item Fault Unit (Parent K) (Session × Ended) Bool}
    (h : Settles (Duo.step (vsfTwoProcessStart cfg checkAuth))
      (begun cfg lines (.start userlist secure) (.start bannedEmail emailPasswords auth)) final) :
    final.serverState.asked.length ≤ guesses cfg := by
  obtain ⟨out, hexec, -⟩ := state_of_settles sendable_nil h
  have hmeets : (parseUsernamePassword cfg (loginItself cfg checkAuth) lines
      (.start userlist secure)).Meets (fun t => t.asked.length ≤ guesses cfg)
      (.start bannedEmail emailPasswords auth) (fun _ _ => True) :=
    meets_guesses lines (Nat.le_refl 0) (Or.inl rfl) rfl
  have hstate := hmeets.state_of_exec (Nat.zero_le _) []
  rw [hexec] at hstate
  exact hstate

/-- Alice guesses once. -/
theorem guesses_le_alice :
    ∃ final, Settles (Duo.step (vsfTwoProcessStart localServer onePassword))
      (begun localServer aliceLines (.start "root\n".toList false) (.start [] [] 0)) final ∧
      final.serverState.asked.length ≤ guesses localServer := by
  obtain ⟨s, t, h, -⟩ := settles_aliceLines
  exact ⟨_, h, guesses_le h⟩

/-! ### Who is let in -/

/-- At the end of a conversation with a login, somebody is let in. -/
def LoggedIn (cfg : Config) (userlist : Text) (r : Session × Ended) (t : Parent K) : Prop :=
  r.2 = .loggedIn → Cleared cfg r.1 ∧ r.1.userlistStr = userlist ∧
    ∃ g pass, t.grant = some g ∧ g.LetIn cfg r.1.userStr pass t.asked

/-- Over a conversation only who was cleared is logged in. -/
theorem meets_loggedIn (lines : List Line) {s : Session} {t : Parent K} (hs : Cleared cfg s)
    (hgrant : t.grant = none) :
    (parseUsernamePassword cfg (loginItself cfg checkAuth) lines s).Meets (fun _ => True) t
      (LoggedIn cfg s.userlistStr) := by
  induction lines generalizing s t with
  | nil => exact fun hlogin => by cases hlogin
  | cons line lines ih =>
      cases hturn : command cfg s line with
      | next s' =>
          have hrounded := rounded_next hturn
          rw [parseUsernamePassword, hturn, ← hrounded.userlistStr]
          exact ih (hrounded.cleared hs) hgrant
      | exit s' =>
          rw [parseUsernamePassword, hturn]
          exact fun hlogin => by cases hlogin
      | attempt s' pass isGet =>
          obtain ⟨-, hlist, hcleared⟩ := rounded_attempt hturn
          rw [parse_of_attempt hturn]
          refine ((meets_loginItself hgrant s' pass).mono fun _ _ => trivial).bind
            fun ok t' hdone => ?_
          obtain ⟨hprogress, htold⟩ := hdone
          cases ok with
          | true =>
              intro _
              obtain ⟨g, hg⟩ := Option.isSome_iff_exists.mp htold
              exact ⟨hcleared hs, hlist, g, pass, hg, hprogress.grant g hg⟩
          | false =>
              rw [afterLogin, if_neg (by simp)]
              split
              · exact fun hlogin => by cases hlogin
              · rename_i hgoes
                rw [Bool.or_eq_true, not_or, Bool.not_eq_true] at hgoes
                obtain ⟨huser, hlist', -, -⟩ := rounded_loginIncorrect hgoes.1
                rw [← hlist, ← hlist']
                exact ih (fun _ hne => absurd huser hne) htold

/-- Who logs in was let through by the checks of the child and by those of the parent, and gave
the password that the parent asked for last, or is the anonymous user.  Where the server speaks
HTTP only, there is no name to check. -/
theorem loggedIn_cleared (hftp : cfg.ftpEnable = true) {lines : List Line} {userlist : Text}
    {secure : Bool} {bannedEmail emailPasswords : Text} {auth : K} {s : Session}
    {final : Duo Item Fault Unit (Parent K) (Session × Ended) Bool}
    (h : Settles (Duo.step (vsfTwoProcessStart cfg checkAuth))
      (begun cfg lines (.start userlist secure) (.start bannedEmail emailPasswords auth)) final)
    (hlogin : final.client = .done (s, .loggedIn)) :
    Admitted cfg userlist s.controlUseSsl s.userStr ∧
      ∃ g pass, final.serverState.grant = some g ∧
        g.LetIn cfg s.userStr pass final.serverState.asked := by
  obtain ⟨out, hexec, hout⟩ := state_of_settles sendable_nil h
  rw [hout _ hlogin] at hexec
  have hstart : Cleared cfg (.start userlist secure) := fun _ hne => absurd rfl hne
  have hmeets : (parseUsernamePassword cfg (loginItself cfg checkAuth) lines
      (.start userlist secure)).Meets (fun _ => True) (.start bannedEmail emailPasswords auth)
      (LoggedIn cfg userlist) :=
    meets_loggedIn lines hstart rfl
  obtain ⟨hcleared, hlist, g, pass, hg, hletIn⟩ := hmeets.of_exec hexec rfl
  have hne : s.userStr ≠ [] := by
    intro hnil
    have hdecent := hletIn.1
    rw [hnil] at hdecent
    cases hdecent
  have hadmitted := hcleared hftp hne
  rw [hlist] at hadmitted
  exact ⟨hadmitted, g, pass, hg, hletIn⟩

/-- Alice is logged in by her own password. -/
theorem loggedIn_cleared_alice :
    ∃ (s : Session) (final : Duo Item Fault Unit (Parent Nat) (Session × Ended) Bool),
      final.client = .done (s, .loggedIn) ∧
      Admitted localServer "root\n".toList s.controlUseSsl s.userStr ∧
      ∃ g pass, final.serverState.grant = some g ∧
        g.LetIn localServer s.userStr pass final.serverState.asked := by
  obtain ⟨s, t, h, -⟩ := settles_aliceLines
  exact ⟨s, _, rfl, loggedIn_cleared rfl h rfl⟩

/-! ## Whatever is written to the parent -/

/-- What the parent keeps to. -/
structure Sane (cfg : Config) (t : Parent K) : Prop where
  asked : ∀ a ∈ t.asked, Decent cfg a
  grant : ∀ g, t.grant = some g → ∃ user pass, g.LetIn cfg user pass t.asked

/-- A login keeps the parent sane. -/
theorem Sane.of_progress {t t' : Parent K} {pass : Text} (h : Sane cfg t)
    (hprogress : Progress cfg t pass t') : Sane cfg t' := by
  refine ⟨fun a ha => ?_, fun g hg => ⟨_, _, hprogress.grant g hg⟩⟩
  rcases hprogress.asked with hasked | ⟨verdict, hasked, hdecent⟩
  · exact h.asked a (hasked ▸ ha)
  · rw [hasked, List.mem_append, List.mem_singleton] at ha
    rcases ha with ha | rfl
    · exact h.asked a ha
    · exact hdecent

/-- Whatever text arrives, nothing but the text is known. -/
theorem meets_getStr {P : Parent K → Prop} {Q : Text → Parent K → Prop} {t : Parent K}
    (h : ∀ s, Q s t) : (privSockGetStr : Process (Parent K) Text).Meets P t Q := by
  refine (meets_getInt fun _ => rfl).bind fun len t' ht => ?_
  cases ht
  split
  · trivial
  · refine Proc.Meets.bind (Proc.meets_recvN (Q := fun _ t' => t' = t) _ fun _ => rfl)
      fun items t' ht => ?_
    subst ht
    cases items with
    | none => trivial
    | some items => exact h _

/-- A round of the parent, behind whatever it is sent. -/
theorem meets_serveLogin {t : Parent K} (h : Sane cfg t) (hgrant : t.grant = none) :
    (serveLogin cfg checkAuth).Meets (Sane cfg) t (fun ok t' => Sane cfg t' ∧ Told ok t') := by
  refine (meets_getStr fun _ => rfl).bind fun user t' ht => ?_
  cases ht
  refine (meets_getStr fun _ => rfl).bind fun pass t' ht => ?_
  cases ht
  refine (meets_getInt fun _ => rfl).bind fun control t' ht => ?_
  cases ht
  refine (meets_getInt fun _ => rfl).bind fun data t' ht => ?_
  cases ht
  have htaken : Sane cfg (t.takeOver cfg user (control ≠ 0) (data ≠ 0)) := ⟨h.asked, h.grant⟩
  have hgrant' : (t.takeOver cfg user (control ≠ 0) (data ≠ 0)).grant = none := hgrant
  refine ⟨htaken, ?_⟩
  refine ((meets_grantLogin hgrant' pass).mono fun _ => htaken.of_progress).bind
    fun ok t' hdone => ?_
  exact ⟨htaken.of_progress hdone.1, hdone.2⟩

/-- Whatever is written to the parent, and wherever it stops, the parent asks for the passwords of
decent names only, if at all, and lets in only under the name of its last answer, or as the
anonymous user. -/
theorem parent_asks_sanely (cfg : Config) (checkAuth : Text → Text → K → Verdict × K)
    (bannedEmail emailPasswords : Text) (auth : K) {events : List (Exposure Item)}
    {x : Exposed Item Fault (Parent K) Bool}
    (hrun : run (Exposed.step (vsfTwoProcessStart cfg checkAuth))
      ⟨.done false, .start bannedEmail emailPasswords auth, [], false⟩ events = some x) :
    Sane cfg x.state := by
  have hstart : Sane cfg (Parent.start bannedEmail emailPasswords auth) :=
    ⟨fun a ha => absurd ha List.not_mem_nil, fun g hg => by cases hg⟩
  have hround : ∀ (b : Bool) (t : Parent K) p, Sane cfg t ∧ Told b t →
      vsfTwoProcessStart cfg checkAuth b = some p →
      p.Meets (Sane cfg) t (fun b t => Sane cfg t ∧ Told b t) := by
    intro b t p ht hp
    cases b with
    | true => cases hp
    | false =>
        cases hp
        intro i
        cases i with
        | none => trivial
        | some i =>
            change Proc.Meets _ (if _ then _ else _) _ _
            split
            · trivial
            · exact meets_serveLogin ht.1 ht.2
  have hserver : (Proc.done false : Process (Parent K) Bool).Meets (Sane cfg)
      (Parent.start bannedEmail emailPasswords auth) (fun b t => Sane cfg t ∧ Told b t) :=
    ⟨hstart, rfl⟩
  exact Exposed.meets_of_run hround hstart hserver hrun

/-- A child that asks for a login of its own choice, and lets the parent work. -/
def intruder (user pass : Text) : List (Exposure Item) :=
  (⟨loginCode, none⟩ :: loginMessage { Session.start [] false with userStr := user } pass).map
    .arrives ++ List.replicate 34 .works

/-- A child that sends a name of its own. -/
theorem parent_asks_sanely_intruder :
    ∃ x, run (Exposed.step (vsfTwoProcessStart localServer onePassword))
        ⟨.done false, .start [] [] 0, [], false⟩ (intruder "Alice".toList "secret".toList) =
        some x ∧
      Sane localServer x.state :=
  ⟨_, (Option.some_get (by rfl)).symm,
    parent_asks_sanely localServer onePassword [] [] 0 (Option.some_get (by rfl)).symm⟩

end PreLogin
end Server
end ModpackInstaller
