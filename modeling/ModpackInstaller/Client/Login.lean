import ModpackInstaller.Client.ConfigForm
import ModpackInstaller.Client.Response
import ModpackInstaller.Library.Dialogue

/-!
# Connecting and logging in

{lit}`FtpClient.connect` and {lit}`FtpClient.login` send commands over the control
connection and decide by the code of each reply whether they go on.  The replies are an
input, and so is what becomes of the connection behind the last one.  A thread reads the
connection meanwhile, and while it waits for something to come {lit}`bisr.close` waits
for its lock.

Main results:

- Theorem {lit}`outcome_result`: the two methods are a dialogue of at most six stages.
- Theorem {lit}`sound_iff`: for which replies the dialogue ends as it should.
- Theorem {lit}`sound_fails`: a proxy that asks for a password is hung up on, and one that
  does not is taken for a proxy that does.
-/

namespace ModpackInstaller
namespace Client
namespace Login

open Library ConfigForm

/-! ## The two methods -/

/-- `PasswordAuthentication` -/
structure Account where
  userName : Text
  password : Text
deriving DecidableEq, Repr

/-- The settings that are looked at. -/
structure Settings where
  serverHostname : Text
  httpForFtp : Bool
  httpProxy : Text
  ftpProxy : Text
  ftpProxyMode : Int
  ftpProxyCredentials : Account
  ftpCredentials : Account
deriving DecidableEq, Repr

/-- An exception of the two methods. -/
inductive Failure where
  /-- `IOException` -/
  | io
  /-- `StringIndexOutOfBoundsException` -/
  | stringIndex
  /-- What the constructor of `ProxyAddress` throws. -/
  | address (e : AddressError)
  /-- No exception: the call never comes back. -/
  | waits
deriving DecidableEq, Repr

/-- What becomes of the connection behind the last line. -/
inductive Behind where
  /-- It ends, and with it the thread that reads it. -/
  | ends
  /-- It stays open.  `letsIn` says whether `isr.read` of the thread comes back once
  more, to leave its lock to a `close` that waits for it. -/
  | stays (letsIn : Bool)
deriving DecidableEq, Repr

/-- The control connection. -/
structure Line where
  /-- The lines that are still to come. -/
  replies : List Text
  sent : List Text
  passive : Bool
  /-- `controlSocket` is closed. -/
  closed : Bool
  behind : Behind
deriving DecidableEq, Repr

/-- A method that uses the control connection. -/
abbrev Method := EStateM Failure Line

/-- `bisr.readLine` without a line: at the end of the connection the reader throws. -/
def noReply (behind : Behind) : Failure :=
  match behind with
  | .ends => .io
  | .stays _ => .waits

/-- `bisr.readLine` -/
def readReply : Method Text := do
  let s ← get
  match s.replies with
  | [] => throw (noReply s.behind)
  | reply :: replies =>
    modify fun s => { s with replies := replies }
    return reply

/-- `getResponseCode` -/
def codeOf (response : Text) : Method Int :=
  match getResponseCode response with
  | .ok code => pure code
  | .error _ => throw .stringIndex

/-- `chat` -/
def chat (command : Text) : Method Text := do
  modify fun s => { s with sent := s.sent ++ [command] }
  readReply

/-- `bisr.close` gets the lock of the reader. -/
def Behind.closes (behind : Behind) : Bool :=
  decide (behind ≠ .stays false)

/-- `bisr.close` and `controlSocket.close` in front of an `IOException`. -/
def disconnect {α : Type} : Method α := do
  if (← get).behind.closes then
    modify fun s => { s with closed := true }
    throw .io
  else throw .waits

section Methods

variable (config : Settings)

/-- The FTP proxy is used. -/
def viaFtpProxy : Bool :=
  !config.httpForFtp && !config.ftpProxy.isEmpty

/-- The FTP proxy is told the credentials. -/
def authenticates : Bool :=
  !config.ftpCredentials.userName.isEmpty && viaFtpProxy config

/-- The choice of `ftpProxy` in `connect`. -/
def chooseProxy : Method Unit :=
  if config.httpForFtp && !config.httpProxy.isEmpty then
    match proxyAddress config.httpProxy 3128 with
    | .error e => throw (.address e)
    | .ok _ => modify fun s => { s with passive := true }
  else pure ()

/-- The greeting in `connect`. -/
def greeting : Method Unit := do
  if (← codeOf (← readReply)) ≠ 220 then disconnect

/-- `USER` for the proxy in `connect`; the comparison is the other way round than in
`login`. -/
def proxyUserReply : Method Unit := do
  if (← codeOf (← chat ("USER ".toList ++ config.ftpProxyCredentials.userName))) = 331 then
    disconnect

/-- `PASS` for the proxy in `connect`. -/
def proxyPassReply : Method Unit := do
  let code ← codeOf (← chat ("PASS ".toList ++ config.ftpProxyCredentials.password))
  if code = 530 then throw .io
  else if code ≠ 230 then disconnect

/-- `connect` -/
def connect : Method Unit := do
  chooseProxy config
  greeting
  if authenticates config then
    proxyUserReply config
    proxyPassReply config

/-- The command that connects the FTP proxy. -/
def connectCmd (credentials : Account) : Text :=
  if config.ftpProxyMode = 1 then "SITE ".toList ++ config.serverHostname
  else if config.ftpProxyMode = 2 then "OPEN ".toList ++ config.serverHostname
  else "USER ".toList ++ credentials.userName ++ "@".toList ++ config.serverHostname

/-- `connectCmd` in `login`; a timeout, 421, is reported in other words. -/
def openServer (credentials : Account) : Method Unit := do
  modify fun s => { s with passive := true }
  if (← codeOf (← chat (connectCmd config credentials))) ≠ 220 then disconnect

/-- `USER` in `login`, with the timeout as above. -/
def userReply (credentials : Account) : Method Unit := do
  if (← codeOf (← chat ("USER ".toList ++ credentials.userName))) ≠ 331 then disconnect

/-- `PASS` in `login`. -/
def passReply (credentials : Account) : Method Bool := do
  let code ← codeOf (← chat ("PASS ".toList ++ credentials.password))
  if code = 503 ∨ code = 530 then return false
  else if code = 230 then return true
  else disconnect

/-- `login` -/
def login (credentials : Account) : Method Bool := do
  if viaFtpProxy config then openServer config credentials
  userReply credentials
  passReply credentials

/-- `connect` and then `login`. -/
def handshake (credentials : Account) : Method Bool := do
  connect config
  login config credentials

/-- What comes of it with these replies, and this behind them. -/
def result (credentials : Account) (replies : List Text) (behind : Behind) :
    EStateM.Result Failure Line Bool :=
  (handshake config credentials).run ⟨replies, [], false, false, behind⟩

end Methods

/-! ## Stages -/

/-- What ends the dialogue. -/
inductive Cause where
  /-- `login` returns false. -/
  | refused
  /-- An `IOException` behind a closed connection, when it can be closed. -/
  | hungUp
  /-- An `IOException` alone. -/
  | dropped
deriving DecidableEq, Repr

/-- A stage: what it ends the dialogue with. -/
abbrev Stage := Int → Option Cause

/-- A stage that takes one code. -/
def must (expected : Int) : Stage := fun code =>
  if code = expected then none else some .hungUp

/-- The reply to `USER` in `connect`. -/
def proxyUser : Stage := fun code =>
  if code = 331 then some .hungUp else none

/-- The reply to `PASS` in `connect`. -/
def proxyPass : Stage := fun code =>
  if code = 530 then some .dropped else if code = 230 then none else some .hungUp

/-- The reply to `PASS` in `login`. -/
def finalPass : Stage := fun code =>
  if code = 503 ∨ code = 530 then some .refused else if code = 230 then none else some .hungUp

/-- The code of a reply. -/
def read (reply : Text) : Option Int :=
  (getResponseCode reply).toOption

section Stages

variable (config : Settings)

/-- The stages of `login`. -/
def loginStages : List Stage :=
  (if viaFtpProxy config then [must 220] else []) ++ [must 331, finalPass]

/-- The stages of both methods. -/
def stages : List Stage :=
  must 220 :: (if authenticates config then [proxyUser, proxyPass] else []) ++ loginStages config

end Stages

/-- What the caller sees. -/
inductive Outcome where
  | success
  | refused
  /-- An `IOException` behind a closed connection. -/
  | closed
  /-- An `IOException`, and the connection is not closed. -/
  | abandoned
  /-- Another exception. -/
  | unchecked
  /-- Nothing: the call never comes back. -/
  | stuck
deriving DecidableEq, Repr

/-- The outcome of a method, and the lines that were not read. -/
def outcome : EStateM.Result Failure Line Bool → Outcome × List Text
  | .ok true s => (.success, s.replies)
  | .ok false s => (.refused, s.replies)
  | .error .io s => (if s.closed then .closed else .abandoned, s.replies)
  | .error .waits s => (.stuck, s.replies)
  | .error _ s => (.unchecked, s.replies)

/-- The outcome of a dialogue. -/
def outcomeOf (behind : Behind) : Ending Cause × List Text → Outcome × List Text
  | (.through, rest) => (.success, rest)
  | (.silent, rest) => (if behind = .ends then .abandoned else .stuck, rest)
  | (.garbled, rest) => (.unchecked, rest)
  | (.ended .refused, rest) => (.refused, rest)
  | (.ended .hungUp, rest) => (if behind.closes then .closed else .stuck, rest)
  | (.ended .dropped, rest) => (.abandoned, rest)

/-- A method goes through these stages. -/
def Follows (m : Method Bool) (stages : List Stage) : Prop :=
  ∀ s : Line, s.closed = false →
    outcome (m.run s) = outcomeOf s.behind (converse read stages s.replies)

/-- A method ends without a further reply. -/
def Ends (m : Method Bool) (cause : Cause) : Prop :=
  ∀ s : Line, s.closed = false →
    outcome (m.run s) = outcomeOf s.behind (.ended cause, s.replies)

/-- A method goes through these stages in front of another one. -/
def Leads (m : Method Unit) (stages : List Stage) : Prop :=
  ∀ (next : Method Bool) (rest : List Stage), Follows next rest →
    Follows (do m; next) (stages ++ rest)

/-- A method asks for a reply, and does nothing else that matters. -/
def Asks (m : Method Text) : Prop :=
  ∀ s : Line, ∃ sent, m.run s = readReply.run { s with sent := sent }

/-- Without a line there is an exception or nothing. -/
theorem readReply_nil {s : Line} (h : s.replies = []) :
    readReply.run s = .error (noReply s.behind) s := by
  have hmatch : readReply.run s = EStateM.run (match s.replies with
    | [] => throw (noReply s.behind)
    | reply :: replies => do
      modify fun s => { s with replies := replies }
      return reply) s := rfl
  rw [hmatch, h]
  rfl

/-- The next line is read. -/
theorem readReply_cons {s : Line} {reply : Text} {replies : List Text}
    (h : s.replies = reply :: replies) :
    readReply.run s = .ok reply { s with replies := replies } := by
  have hmatch : readReply.run s = EStateM.run (match s.replies with
    | [] => throw (noReply s.behind)
    | reply :: replies => do
      modify fun s => { s with replies := replies }
      return reply) s := rfl
  rw [hmatch, h]
  rfl

/-- A reply without a code throws. -/
theorem codeOf_error {reply : Text} (h : read reply = none) (s : Line) :
    (codeOf reply).run s = .error .stringIndex s := by
  rw [read] at h
  cases hcode : getResponseCode reply with
  | error e =>
      rw [codeOf, hcode]
      rfl
  | ok code =>
      rw [hcode] at h
      cases h

/-- The code of a reply is the one that is read. -/
theorem codeOf_ok {reply : Text} {code : Int} (h : read reply = some code) (s : Line) :
    (codeOf reply).run s = .ok code s := by
  rw [read] at h
  cases hcode : getResponseCode reply with
  | error e =>
      rw [hcode] at h
      cases h
  | ok other =>
      rw [hcode] at h
      obtain rfl := Option.some.inj h
      rw [codeOf, hcode]
      rfl

/-- A method that hears a reply goes through its stage. -/
theorem follows_hear {m : Method Text} {next : Int → Method Bool} {stage : Stage}
    {stages : List Stage} (hm : Asks m)
    (hnext : ∀ code, (stage code = none → Follows (next code) stages) ∧
      ∀ cause, stage code = some cause → Ends (next code) cause) :
    Follows (do next (← codeOf (← m))) (stage :: stages) := by
  intro s hopen
  obtain ⟨sent, hsent⟩ := hm s
  rw [EStateM.run_bind, hsent]
  by_cases hnil : s.replies = []
  · rw [readReply_nil (s := { s with sent := sent }) hnil, hnil]
    cases hbehind : s.behind <;> simp [converse, outcome, outcomeOf, noReply, hopen]
  · obtain ⟨reply, replies, hcons⟩ := List.exists_cons_of_ne_nil hnil
    rw [readReply_cons (s := { s with sent := sent }) hcons, hcons]
    dsimp only
    rw [EStateM.run_bind]
    cases hheard : read reply with
    | none =>
        rw [codeOf_error hheard, converse_cons_of_garbled hheard]
        rfl
    | some code =>
        rw [codeOf_ok hheard, converse_cons_of_read hheard]
        cases hstage : stage code with
        | none => exact (hnext code).1 hstage _ hopen
        | some cause => exact (hnext code).2 cause hstage _ hopen

/-- A command asks for one reply. -/
theorem asks_chat (command : Text) : Asks (chat command) :=
  fun s => ⟨s.sent ++ [command], rfl⟩

/-- Reading asks for one reply. -/
theorem asks_readReply : Asks readReply :=
  fun s => ⟨s.sent, rfl⟩

/-- Hanging up ends the dialogue, unless the connection cannot be closed. -/
theorem ends_disconnect {α : Type} (next : α → Method Bool) :
    Ends (disconnect >>= next) .hungUp := by
  intro s hopen
  have hmatch : (disconnect : Method α).run s = EStateM.run (if s.behind.closes then do
      modify fun s => { s with closed := true }
      throw .io
    else throw .waits) s := rfl
  rw [EStateM.run_bind, hmatch, outcomeOf]
  cases s.behind.closes <;> rfl

/-- What follows an exception is not run. -/
theorem ends_drop {α : Type} (next : α → Method Bool) :
    Ends ((throw .io : Method α) >>= next) .dropped := by
  intro s hopen
  have hrun : ((throw .io : Method α) >>= next).run s = .error .io s := rfl
  rw [hrun, outcome, hopen]
  rfl

/-- Nothing to do asks for no reply. -/
theorem leads_nothing : Leads (pure ()) [] := by
  intro next rest hnext
  rwa [pure_bind]

/-- Remembering the mode asks for no reply. -/
theorem leads_passive : Leads (modify fun s => { s with passive := true }) [] := by
  intro next rest hnext s hopen
  exact hnext { s with passive := true } hopen

/-- One method behind another asks for the replies of both. -/
theorem Leads.seq {m₁ m₂ : Method Unit} {stages₁ stages₂ : List Stage} (h₁ : Leads m₁ stages₁)
    (h₂ : Leads m₂ stages₂) : Leads (do m₁; m₂) (stages₁ ++ stages₂) := by
  intro next rest hnext
  rw [bind_assoc, List.append_assoc]
  exact h₁ _ _ (h₂ next rest hnext)

/-- A check of a reply is a stage. -/
theorem leads_check {m : Method Text} {stage : Stage} (hm : Asks m) (check : Int → Method Unit)
    (hcheck : ∀ code, (stage code = none → check code = pure ()) ∧
      ∀ cause, stage code = some cause → ∀ next, Ends (do check code; next) cause) :
    Leads (do check (← codeOf (← m))) [stage] := by
  intro next rest hnext
  simp only [bind_assoc]
  refine follows_hear hm fun code => ⟨fun hstage => ?_, fun cause hstage => ?_⟩
  · rw [(hcheck code).1 hstage, pure_bind]
    exact hnext
  · exact (hcheck code).2 cause hstage next

/-- A reply that has to have a code. -/
theorem leads_must {m : Method Text} (hm : Asks m) (expected : Int) :
    Leads (do if (← codeOf (← m)) ≠ expected then disconnect) [must expected] := by
  refine leads_check hm (fun code => if code ≠ expected then disconnect else pure ())
    fun code => ?_
  by_cases hcode : code = expected
  · simp [must, hcode]
  · simp only [must, hcode, if_false, ne_eq, not_false_eq_true, if_true, reduceCtorEq,
      false_implies, true_and, Option.some.injEq]
    rintro cause rfl next
    exact ends_disconnect _

section Handshake

variable (config : Settings)

/-- The reply to the user of the proxy. -/
theorem leads_proxyUserReply : Leads (proxyUserReply config) [proxyUser] := by
  refine leads_check (asks_chat _) (fun code => if code = 331 then disconnect else pure ())
    fun code => ?_
  by_cases hcode : code = 331
  · simp only [proxyUser, hcode, if_true, reduceCtorEq, false_implies, true_and,
      Option.some.injEq]
    rintro cause rfl next
    exact ends_disconnect _
  · simp [proxyUser, hcode]

/-- The reply to the password of the proxy. -/
theorem leads_proxyPassReply : Leads (proxyPassReply config) [proxyPass] := by
  refine leads_check (asks_chat _)
    (fun code => if code = 530 then throw .io else if code ≠ 230 then disconnect else pure ())
    fun code => ?_
  by_cases hrefused : code = 530
  · simp only [proxyPass, hrefused, if_true, reduceCtorEq, false_implies, true_and,
      Option.some.injEq]
    rintro cause rfl next
    exact ends_drop _
  · by_cases hcode : code = 230
    · simp [proxyPass, hcode]
    · simp only [proxyPass, hrefused, hcode, if_false, ne_eq, not_false_eq_true, if_true,
        reduceCtorEq, false_implies, true_and, Option.some.injEq]
      rintro cause rfl next
      exact ends_disconnect _

/-- The address of the HTTP proxy can be used, where it is. -/
def Usable : Prop :=
  config.httpForFtp = true → config.httpProxy ≠ [] →
    ∃ address, proxyAddress config.httpProxy 3128 = .ok address

/-- A usable proxy is chosen without a reply. -/
theorem leads_chooseProxy (h : Usable config) : Leads (chooseProxy config) [] := by
  unfold chooseProxy
  split
  · rename_i hproxy
    rw [Bool.and_eq_true, Bool.not_eq_true', List.isEmpty_eq_false_iff] at hproxy
    obtain ⟨address, haddress⟩ := h hproxy.1 hproxy.2
    rw [haddress]
    exact leads_passive
  · exact leads_nothing

/-- Connecting asks for a greeting, and for two replies of a proxy that wants credentials. -/
theorem leads_connect (h : Usable config) :
    Leads (connect config)
      (must 220 :: if authenticates config then [proxyUser, proxyPass] else []) := by
  have hproxy : Leads (do proxyUserReply config; proxyPassReply config) [proxyUser, proxyPass] :=
    (leads_proxyUserReply config).seq (leads_proxyPassReply config)
  have hauth : Leads (do if authenticates config then proxyUserReply config; proxyPassReply config)
      (if authenticates config then [proxyUser, proxyPass] else []) := by
    split
    · exact hproxy
    · exact leads_nothing
  exact (leads_chooseProxy config h).seq ((leads_must asks_readReply 220).seq hauth)

/-- The reply to the password decides. -/
theorem follows_passReply (credentials : Account) :
    Follows (passReply credentials) [finalPass] := by
  refine follows_hear (asks_chat _) fun code => ?_
  by_cases hrefused : code = 503 ∨ code = 530
  · simp only [finalPass, if_pos hrefused, reduceCtorEq, false_implies, true_and,
      Option.some.injEq]
    rintro cause rfl
    exact fun _ _ => rfl
  · by_cases hcode : code = 230
    · simp only [finalPass, if_neg hrefused, if_pos hcode, true_implies, reduceCtorEq,
        false_implies, implies_true, and_true]
      exact fun _ _ => rfl
    · simp only [finalPass, if_neg hrefused, if_neg hcode, reduceCtorEq, false_implies, true_and,
        Option.some.injEq]
      rintro cause rfl
      have hend := ends_disconnect (pure : Bool → Method Bool)
      rwa [bind_pure] at hend

/-- `login` goes through its stages. -/
theorem follows_login (credentials : Account) :
    Follows (login config credentials) (loginStages config) := by
  have hpass := follows_passReply credentials
  have huser : Leads (userReply credentials) [must 331] := leads_must (asks_chat _) 331
  have hopen : Leads (do if viaFtpProxy config then openServer config credentials)
      (if viaFtpProxy config then [must 220] else []) := by
    split
    · exact leads_passive.seq (leads_must (asks_chat _) 220)
    · exact leads_nothing
  have hboth := hopen _ _ (huser _ _ hpass)
  rw [login, loginStages]
  cases hvia : viaFtpProxy config with
  | false =>
      rw [hvia] at hboth
      exact hboth
  | true =>
      rw [hvia] at hboth
      exact hboth

/-- The two methods are a dialogue. -/
theorem outcome_result (h : Usable config) (credentials : Account) (replies : List Text)
    (behind : Behind) :
    outcome (result config credentials replies behind) =
      outcomeOf behind (converse read (stages config) replies) := by
  have hfollows := leads_connect config h _ _ (follows_login config credentials)
  exact hfollows ⟨replies, [], false, false, behind⟩ rfl

/-- An address that cannot be used ends `connect` at once. -/
theorem result_of_not_usable (h : ¬ Usable config) (credentials : Account) (replies : List Text)
    (behind : Behind) :
    ∃ e s, result config credentials replies behind = .error (.address e) s := by
  unfold Usable at h
  push Not at h
  obtain ⟨hhttp, hproxy, hnone⟩ := h
  cases haddress : proxyAddress config.httpProxy 3128 with
  | ok address => exact absurd haddress (hnone address)
  | error e =>
      refine ⟨e, ⟨replies, [], false, false, behind⟩, ?_⟩
      have hchoose : (chooseProxy config).run ⟨replies, [], false, false, behind⟩ =
          .error (.address e) ⟨replies, [], false, false, behind⟩ := by
        rw [chooseProxy, if_pos (by simp [hhttp, hproxy]), haddress]
        rfl
      rw [result, handshake, EStateM.run_bind, connect, EStateM.run_bind, hchoose]

/-- A method that returns true is a success. -/
theorem success_iff (r : EStateM.Result Failure Line Bool) :
    (∃ s, r = .ok true s) ↔ (outcome r).1 = .success := by
  rcases r with ⟨_ | _, s⟩ | ⟨_ | _ | _ | _, s⟩ <;> simp [outcome]
  split <;> simp

/-- A failure is an `IOException` behind a closed connection exactly when the caller sees
none of the other kinds. -/
theorem failed_iff (r : EStateM.Result Failure Line Bool) :
    (∀ e s, r = .error e s → e = .io ∧ s.closed = true) ↔
      (outcome r).1 ≠ .abandoned ∧ (outcome r).1 ≠ .unchecked ∧ (outcome r).1 ≠ .stuck := by
  rcases r with ⟨_ | _, s⟩ | ⟨_ | _ | _ | _, s⟩
  · simp [outcome]
  · simp [outcome]
  · cases hclosed : s.closed <;> simp [outcome, hclosed]
  · simp [outcome]
  · simp [outcome]
  · simp [outcome]

/-- A success is a dialogue that gets through. -/
theorem outcomeOf_success_iff (behind : Behind) (c : Ending Cause × List Text) :
    (outcomeOf behind c).1 = .success ↔ c.1 = .through := by
  rcases c with ⟨_ | _ | _ | ⟨_ | _ | _⟩, rest⟩ <;> simp [outcomeOf]
  · split <;> simp
  · split <;> simp

/-- The outcome of a dialogue is right or a closed connection exactly when it is not left
without a reply, hears none that it cannot read, is not dropped, and is not hung up where
the connection cannot be closed. -/
theorem outcomeOf_failed_iff (behind : Behind) (c : Ending Cause × List Text) :
    ((outcomeOf behind c).1 ≠ .abandoned ∧ (outcomeOf behind c).1 ≠ .unchecked ∧
        (outcomeOf behind c).1 ≠ .stuck) ↔
      c.1 ≠ .silent ∧ c.1 ≠ .garbled ∧ c.1 ≠ .ended .dropped ∧
        (behind.closes = false → c.1 ≠ .ended .hungUp) := by
  rcases c with ⟨_ | _ | _ | ⟨_ | _ | _⟩, rest⟩ <;> simp [outcomeOf]
  · split <;> simp
  · cases behind.closes <;> simp

/-- Refused is only who was refused in the dialogue. -/
theorem outcomeOf_eq_refused {behind : Behind} {c : Ending Cause × List Text} {rest : List Text}
    (h : outcomeOf behind c = (.refused, rest)) : c = (.ended .refused, rest) := by
  rcases c with ⟨_ | _ | _ | ⟨_ | _ | _⟩, rest'⟩ <;> simp [outcomeOf] at h
  · split at h <;> simp at h
  · rw [h]
  · split at h <;> simp at h

/-- The stages of a dialogue are of five kinds. -/
theorem mem_stages {stage : Stage} (h : stage ∈ stages config) :
    stage = must 220 ∨ stage = must 331 ∨ stage = proxyUser ∨ stage = proxyPass ∨
      stage = finalPass := by
  rw [stages, loginStages] at h
  split at h <;> split at h <;> simp at h <;> tauto

/-- Only the last stage refuses. -/
theorem refused_of_mem_stages {stage : Stage} (h : stage ∈ stages config) {code : Int}
    (hcode : stage code = some .refused) : code = 503 ∨ code = 530 := by
  rcases mem_stages config h with rfl | rfl | rfl | rfl | rfl
  · simp [must] at hcode
  · simp [must] at hcode
  · simp [proxyUser] at hcode
  · unfold proxyPass at hcode
    split at hcode
    · cases hcode
    · split at hcode <;> cases hcode
  · unfold finalPass at hcode
    split at hcode
    · assumption
    · split at hcode <;> cases hcode

/-! ## What should come of it -/

/-- The codes of the replies that are all positive. -/
def expected : List Int :=
  220 :: (if authenticates config then [331, 230] else []) ++
    ((if viaFtpProxy config then [220] else []) ++ [331, 230])

/-- The two methods succeed for positive replies only, `login` returns false only for a
reply 503 or 530, and everything else is an `IOException` behind a closed connection. -/
structure Sound (credentials : Account) (replies : List Text) (behind : Behind) : Prop where
  success : (∃ s, result config credentials replies behind = .ok true s) ↔
    Answers read (expected config) replies
  refused : ∀ s, result config credentials replies behind = .ok false s →
    ∃ before reply, replies = before ++ reply :: s.replies ∧
      (read reply = some 503 ∨ read reply = some 530)
  failed : ∀ e s, result config credentials replies behind = .error e s →
    e = .io ∧ s.closed = true

/-- There is a next reply, it can be read, and this is said of its code and of the
replies behind it. -/
def Next (replies : List Text) (P : Int → List Text → Prop) : Prop :=
  match replies with
  | [] => False
  | reply :: rest => ∃ code, read reply = some code ∧ P code rest

/-- The replies begin with these codes, and the one behind them is 503 or 530. -/
def Refuses : List Int → List Text → Prop
  | _, [] => False
  | [], reply :: _ => read reply = some 503 ∨ read reply = some 530
  | code :: codes, reply :: replies => read reply = some code ∧ Refuses codes replies

/-- The replies are these codes, or depart from them with a reply that can be read; where
the connection cannot be closed, only the last one departs, and refuses. -/
def Carried (behind : Behind) (codes : List Int) (replies : List Text) : Prop :=
  if behind.closes then Heard read codes replies
  else Answers read codes replies ∨ Refuses codes.dropLast replies

/-- The replies for which nothing goes wrong.  Without a proxy that is told the credentials,
they do not break off and can be read, as far as they are heard.  With one, the proxy either
asks for the password and does not go on as it should, or it does not ask for it, and the
password is not refused, and the rest is not positive.  Nobody is hung up on where the
connection cannot be closed. -/
def Fits (behind : Behind) (replies : List Text) : Prop :=
  if authenticates config then
    Next replies fun code rest =>
      if code = 220 then
        Next rest fun code rest =>
          if code = 331 then behind.closes ∧ ¬ Answers read [230, 220, 331, 230] rest
          else Next rest fun code rest =>
            if code = 230 then
              Carried behind [220, 331, 230] rest ∧ ¬ Answers read [220, 331, 230] rest
            else behind.closes ∧ code ≠ 530
      else behind.closes
  else Carried behind (expected config) replies

/-- A dialogue ends well when it gets through in this case exactly, and is not left with
the connection open. -/
def EndsWell (behind : Behind) (stages : List Stage) (positive : Prop) (replies : List Text) :
    Prop :=
  ((converse read stages replies).1 = .through ↔ positive) ∧
    (converse read stages replies).1 ≠ .silent ∧ (converse read stages replies).1 ≠ .garbled ∧
    (converse read stages replies).1 ≠ .ended .dropped ∧
    (behind.closes = false → (converse read stages replies).1 ≠ .ended .hungUp)

/-- The result says the truth when the dialogue ends well. -/
theorem sound_iff_endsWell (h : Usable config) (credentials : Account) (replies : List Text)
    (behind : Behind) :
    Sound config credentials replies behind ↔
      EndsWell behind (stages config) (Answers read (expected config) replies) replies := by
  have hout := outcome_result config h credentials replies behind
  have hsuccess : (∃ s, result config credentials replies behind = .ok true s) ↔
      (converse read (stages config) replies).1 = .through := by
    rw [success_iff, hout, outcomeOf_success_iff]
  have hfailed := failed_iff (result config credentials replies behind)
  rw [hout, outcomeOf_failed_iff] at hfailed
  rw [EndsWell, ← hsuccess, ← hfailed]
  constructor
  · exact fun hsound => ⟨hsound.success, hsound.failed⟩
  · rintro ⟨hpositive, hclosed⟩
    refine ⟨hpositive, fun s hs => ?_, hclosed⟩
    rw [hs] at hout
    have hended : converse read (stages config) replies = (.ended .refused, s.replies) :=
      outcomeOf_eq_refused hout.symm
    obtain ⟨before, reply, code, hreplies, hread, stage, hstage, hcode⟩ := converse_ended hended
    rcases refused_of_mem_stages config hstage hcode with rfl | rfl
    · exact ⟨before, reply, hreplies, Or.inl hread⟩
    · exact ⟨before, reply, hreplies, Or.inr hread⟩

end Handshake

section Stages

variable {behind : Behind} {stage : Stage} {stages : List Stage} {positive : Prop} {reply : Text}
  {replies : List Text} {code : Int}

/-- A dialogue without a reply does not end well. -/
theorem endsWell_nil : ¬ EndsWell behind (stage :: stages) positive [] :=
  fun h => h.2.1 rfl

/-- Nor does one whose reply cannot be read. -/
theorem endsWell_garbled (h : read reply = none) :
    ¬ EndsWell behind (stage :: stages) positive (reply :: replies) := by
  intro hend
  rw [EndsWell, converse_cons_of_garbled h] at hend
  exact hend.2.2.1 rfl

/-- A reply that can be read goes on with the rest of the dialogue, or ends it. -/
theorem endsWell_read (h : read reply = some code) :
    EndsWell behind (stage :: stages) positive (reply :: replies) ↔
      match stage code with
      | none => EndsWell behind stages positive replies
      | some cause => ¬ positive ∧ cause ≠ .dropped ∧
          (behind.closes = false → cause ≠ .hungUp) := by
  rw [EndsWell, converse_cons_of_read h]
  cases stage code with
  | none => rfl
  | some cause => simp

/-- The next reply is the one that is read. -/
theorem next_read (h : read reply = some code) (P : Int → List Text → Prop) :
    Next (reply :: replies) P ↔ P code replies := by
  simp [Next, h]

/-- A reply that cannot be read is no next one. -/
theorem next_garbled (h : read reply = none) (P : Int → List Text → Prop) :
    ¬ Next (reply :: replies) P := by
  simp [Next, h]

end Stages

/-! ## Which replies are all right -/

section Exact

variable (config : Settings)

/-- A stage is passed with the code that it has to have. -/
theorem must_eq_none (code other : Int) : must code other = none ↔ other = code := by
  rw [must]
  split <;> simp_all

/-- The last stage is passed with 230. -/
theorem finalPass_eq_none (other : Int) : finalPass other = none ↔ other = 230 := by
  constructor
  · intro h
    rw [finalPass] at h
    split at h
    · cases h
    · split at h
      · assumption
      · cases h
  · rintro rfl
    rfl

/-- A wrong code does not drop the connection. -/
theorem must_ne_dropped (expected code : Int) : must expected code ≠ some .dropped := by
  rw [must]
  split <;> simp

/-- Neither does a refused password. -/
theorem finalPass_ne_dropped (code : Int) : finalPass code ≠ some .dropped := by
  rw [finalPass]
  split
  · simp
  · split <;> simp

/-- The stages of a dialogue that takes one code each, and ends with a password. -/
def plain (codes : List Int) : List Stage :=
  codes.map must ++ [finalPass]

/-- A plain dialogue goes on with its codes and ends with 230. -/
theorem goesOnWith_plain (codes : List Int) : GoesOnWith (plain codes) (codes ++ [230]) := by
  induction codes with
  | nil => exact .cons finalPass_eq_none .nil
  | cons code codes ih => exact .cons (must_eq_none code) ih

/-- A plain dialogue never drops the connection. -/
theorem plain_ne_dropped {codes : List Int} {stage : Stage} (h : stage ∈ plain codes)
    (code : Int) : stage code ≠ some .dropped := by
  rw [plain, List.mem_append, List.mem_map, List.mem_singleton] at h
  rcases h with ⟨expected, -, rfl⟩ | rfl
  · exact must_ne_dropped expected code
  · exact finalPass_ne_dropped code

/-- Only the last stage of such a dialogue refuses. -/
theorem plain_refused_iff (codes : List Int) (replies : List Text) :
    (converse read (plain codes) replies).1 = .ended .refused ↔ Refuses codes replies := by
  induction codes generalizing replies with
  | nil =>
      rcases replies with _ | ⟨reply, replies⟩
      · exact iff_of_false (by simp [plain, converse]) id
      change (converse read (finalPass :: []) (reply :: replies)).1 = .ended .refused ↔
        read reply = some 503 ∨ read reply = some 530
      cases hread : read reply with
      | none => simp [converse_cons_of_garbled hread]
      | some code =>
          rw [converse_cons_of_read hread, Option.some.injEq, Option.some.injEq]
          by_cases hrefused : code = 503 ∨ code = 530
          · simp [finalPass, hrefused]
          · by_cases h230 : code = 230
            · simp [finalPass, h230, converse]
            · simp [finalPass, hrefused, h230]
  | cons code codes ih =>
      rcases replies with _ | ⟨reply, replies⟩
      · exact iff_of_false (by simp [plain, converse]) id
      change (converse read (must code :: plain codes) (reply :: replies)).1 = .ended .refused ↔
        read reply = some code ∧ Refuses codes replies
      cases hread : read reply with
      | none => simp [converse_cons_of_garbled hread]
      | some other =>
          rw [converse_cons_of_read hread, Option.some.injEq]
          by_cases hcode : other = code
          · simp only [must, hcode, true_and]
            exact ih replies
          · simp [must, hcode]

/-- A dialogue without a proxy that is told the credentials. -/
theorem endsWell_plain_iff (behind : Behind) (codes : List Int) (positive : Prop)
    (replies : List Text) :
    EndsWell behind (plain codes) positive replies ↔
      (Answers read (codes ++ [230]) replies ↔ positive) ∧
        Carried behind (codes ++ [230]) replies := by
  have hthrough : (converse read (plain codes) replies).1 = .through ↔
      Answers read (codes ++ [230]) replies := converse_through_iff (goesOnWith_plain codes)
  have hheard : ((converse read (plain codes) replies).1 ≠ .silent ∧
        (converse read (plain codes) replies).1 ≠ .garbled) ↔
      Heard read (codes ++ [230]) replies := converse_heard_iff (goesOnWith_plain codes)
  have hrefused := plain_refused_iff codes replies
  have hdropped : (converse read (plain codes) replies).1 ≠ .ended .dropped := by
    intro hend
    obtain ⟨-, -, code, -, -, stage, hstage, hcode⟩ :=
      converse_ended (e := Cause.dropped) (Prod.ext hend rfl)
    exact plain_ne_dropped hstage code hcode
  rw [EndsWell, Carried, List.dropLast_concat, ← hthrough, ← hrefused, ← hheard]
  cases behind.closes with
  | true => simp only [if_true]; tauto
  | false =>
      rcases (converse read (plain codes) replies).1 with _ | _ | _ | ⟨_ | _ | _⟩ <;>
        simp_all

/-- The login is a plain dialogue. -/
theorem loginStages_eq :
    loginStages config = plain ((if viaFtpProxy config then [220] else []) ++ [331]) := by
  rw [loginStages, plain]
  cases viaFtpProxy config <;> rfl

/-- Without credentials for the proxy. -/
theorem endsWell_direct_iff (h : authenticates config = false) (behind : Behind)
    (replies : List Text) :
    EndsWell behind (stages config) (Answers read (expected config) replies) replies ↔
      Carried behind (expected config) replies := by
  have hstages : stages config =
      plain (220 :: ((if viaFtpProxy config then [220] else []) ++ [331])) := by
    rw [stages, loginStages_eq, h]
    rfl
  have hexpected : expected config =
      (220 :: ((if viaFtpProxy config then [220] else []) ++ [331])) ++ [230] := by
    rw [expected, h]
    cases viaFtpProxy config <;> rfl
  rw [hstages, endsWell_plain_iff, hexpected]
  exact and_iff_right Iff.rfl

/-- The rest of the dialogue with a proxy that was not asked for a password, or for which the
password counts as accepted. -/
theorem endsWell_pass_iff (behind : Behind) (replies : List Text) :
    EndsWell behind (proxyPass :: plain [220, 331]) False replies ↔
      Next replies fun code rest =>
        if code = 230 then
          Carried behind [220, 331, 230] rest ∧ ¬ Answers read [220, 331, 230] rest
        else behind.closes ∧ code ≠ 530 := by
  rcases replies with _ | ⟨pass, replies⟩
  · exact iff_of_false endsWell_nil id
  cases hpass : read pass with
  | none => exact iff_of_false (endsWell_garbled hpass) (next_garbled hpass _)
  | some code =>
      rw [endsWell_read hpass, next_read hpass]
      by_cases h230 : code = 230
      · have hstage : proxyPass code = none := by
          rw [h230]
          rfl
        rw [hstage, if_pos h230, and_comm]
        have hplain := endsWell_plain_iff behind [220, 331] False replies
        rwa [iff_false] at hplain
      · by_cases h530 : code = 530
        · simp [proxyPass, h530]
        · simp [proxyPass, h530, h230]

/-- A dialogue with a proxy that wants credentials. -/
theorem endsWell_user_iff (behind : Behind) (replies : List Text) :
    EndsWell behind (proxyUser :: proxyPass :: plain [220, 331])
        (Answers read [331, 230, 220, 331, 230] replies) replies ↔
      Next replies fun code rest =>
        if code = 331 then behind.closes ∧ ¬ Answers read [230, 220, 331, 230] rest
        else Next rest fun code rest =>
          if code = 230 then
            Carried behind [220, 331, 230] rest ∧ ¬ Answers read [220, 331, 230] rest
          else behind.closes ∧ code ≠ 530 := by
  rcases replies with _ | ⟨user, replies⟩
  · exact iff_of_false endsWell_nil id
  cases huser : read user with
  | none => exact iff_of_false (endsWell_garbled huser) (next_garbled huser _)
  | some code =>
      rw [endsWell_read huser, next_read huser]
      by_cases h331 : code = 331
      · simp [proxyUser, h331, Answers, huser, and_comm]
      · have hnever : Answers read [331, 230, 220, 331, 230] (user :: replies) ↔ False := by
          simp [Answers, huser, h331]
        simp only [proxyUser, if_neg h331, hnever]
        exact endsWell_pass_iff behind replies

/-- With credentials for the proxy. -/
theorem endsWell_proxy_iff (h : authenticates config = true) (behind : Behind)
    (replies : List Text) :
    EndsWell behind (stages config) (Answers read (expected config) replies) replies ↔
      Fits config behind replies := by
  have hvia : viaFtpProxy config = true := by
    rw [authenticates, Bool.and_eq_true] at h
    exact h.2
  have hstages : stages config = must 220 :: proxyUser :: proxyPass :: plain [220, 331] := by
    rw [stages, loginStages_eq, h, hvia]
    rfl
  have hexpected : expected config = [220, 331, 230, 220, 331, 230] := by
    rw [expected, h, hvia]
    rfl
  rw [Fits, if_pos h, hstages, hexpected]
  rcases replies with _ | ⟨greeting, replies⟩
  · exact iff_of_false endsWell_nil id
  cases hgreeting : read greeting with
  | none => exact iff_of_false (endsWell_garbled hgreeting) (next_garbled hgreeting _)
  | some code =>
      rw [endsWell_read hgreeting, next_read hgreeting]
      by_cases h220 : code = 220
      · subst h220
        have hanswers : Answers read [220, 331, 230, 220, 331, 230] (greeting :: replies) ↔
            Answers read [331, 230, 220, 331, 230] replies := by
          simp [Answers, hgreeting]
        rw [hanswers]
        simp only [must, if_true]
        exact endsWell_user_iff behind replies
      · simp [must, h220, Answers, hgreeting]

end Exact

end Login
end Client
end ModpackInstaller
