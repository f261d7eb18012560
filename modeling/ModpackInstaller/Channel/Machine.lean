import Mathlib.Logic.Function.Basic
import ModpackInstaller.Client.UpdateLoop
import ModpackInstaller.Library.Run

/-!
# The data channel of the FTP client

The field {lit}`channel` of {lit}`FtpClient` over a whole session: the command
thread inside {lit}`openDataChannel`, the data thread of every channel that was
ever started, and the completion threads that call {lit}`closeDataChannel`.
The field is read anew at every use, so a data thread that gives up, or a
completion thread, can empty it in between.

What the threads do is kept in two histories for the proofs: every return of
{lit}`openDataChannel`, and every execution of a data listener.  A run starts
behind the first successful {lit}`connect`.

Main results:

- Definition {lit}`clientStep`: the interleaving of the threads.
- Theorem {lit}`beside_of_thread`: what the other threads can do to a call of
  {lit}`openDataChannel`.
-/

namespace ModpackInstaller
namespace Channel

open Library Client

/-- An unchecked exception that leaves `openDataChannel`. -/
inductive Unchecked where
  | stringIndex
  | arrayIndex
  | numberFormat
  | illegalArgument
  | nullPointer
deriving DecidableEq, Repr

/-! ## The address in a reply to PASV -/

/-- `String.split(",")` -/
def splitCommas (s : Text) : List Text :=
  if ',' ∈ s then (pieces ',' s).rdropWhile List.isEmpty else [s]

/-- `convertAddressPasv`: the host and the port, or `null` for a host that is
unknown. -/
def convertAddressPasv (resolves : Text → Bool) (addr : Text) :
    Except Unchecked (Option (Text × Int)) :=
  let start := indexOf addr ['(']
  let stop := indexOf addr [')']
  if stop < start + 1 then .error .stringIndex
  else
    match splitCommas ((addr.take stop.toNat).drop (start + 1).toNat) with
    | n0 :: n1 :: n2 :: n3 :: rest =>
      let host := n0 ++ '.' :: n1 ++ '.' :: n2 ++ '.' :: n3
      if !resolves host then .ok none
      else
        match rest with
        | n4 :: rest =>
          match parseInt n4 with
          | none => .error .numberFormat
          | some high =>
            match rest with
            | n5 :: _ =>
              match parseInt n5 with
              | none => .error .numberFormat
              | some low =>
                -- `int` arithmetic: the sum is taken modulo 2^32.
                let port := (high * 256 + low).bmod 4294967296
                if 0 ≤ port ∧ port ≤ 65535 then .ok (some (host, port))
                else .error .illegalArgument
            | [] => .error .arrayIndex
        | [] => .error .arrayIndex
    | _ => .error .arrayIndex

/-! ## States -/

/-- How far the data thread of a channel has come. -/
inductive DataThread where
  | created
  /-- In `accept` or `connect`. -/
  | connecting
  /-- A passive channel in front of `dataChannelSeamaphore`. -/
  | waiting
  | done
deriving DecidableEq, Repr

/-- A `FtpDataChannel`. -/
structure Chan where
  isActive : Bool
  /-- The listener, by the number of the call that passed it; `none` is the
  empty one of `abandonDataChannel`. -/
  listener : Option Nat
  thread : DataThread
  /-- `dataSocket` is not `null`. -/
  hasSocket : Bool
  /-- `listenSocket` is closed. -/
  closed : Bool
  /-- The control connection the channel was opened on. -/
  openedOn : Nat
  /-- The control connection on which the server accepted it. -/
  accepted : Option Nat
deriving DecidableEq, Repr

/-- The command thread in `openDataChannel`, called with listener `l`. -/
inductive Phase where
  | idle
  /-- It has seen a channel and is about to use it. -/
  | reusing (l : Nat)
  /-- It runs the listener itself. -/
  | listening (l : Nat)
  /-- `PASV` is sent. -/
  | asking (l : Nat)
  | constructing (l : Nat)
  /-- The channel `c` is made and not started. -/
  | starting (l c : Nat)
  | started (l c : Nat)
  /-- `PORT` is sent for the channel `c`. -/
  | portSent (l c : Nat)
deriving DecidableEq, Repr

/-- A return of `openDataChannel`, and what the field held then. -/
structure Return where
  outcome : Except Unchecked Int
  /-- `none` is `null`; otherwise the connection that accepted the channel. -/
  channel : Option (Option Nat)
  connection : Nat
deriving Repr

/-- An execution of a data listener. -/
structure Execution where
  listener : Nat
  onCommandThread : Bool
  /-- Its transfer command had been answered with 150. -/
  answered : Bool
deriving DecidableEq, Repr

/-- The client and its threads. -/
structure FtpClient where
  passive : Bool
  /-- The number of the control connection. -/
  connection : Nat
  channel : Option Nat
  chans : Nat → Chan
  /-- Channels made so far. -/
  made : Nat
  /-- Permits of `dataChannelSeamaphore`. -/
  permits : Nat
  phase : Phase
  /-- Calls of `openDataChannel` so far. -/
  calls : Nat
  /-- The listener whose transfer command has not been sent. -/
  awaiting : Option Nat
  /-- The transfer command of the listener was answered with 150. -/
  answered : Nat → Bool
  returns : List Return
  executions : List Execution

/-- A channel that was never made. -/
def Chan.absent : Chan where
  isActive := false
  listener := none
  thread := .created
  hasSocket := false
  closed := false
  openedOn := 0
  accepted := none

/-- The client behind its first `connect`. -/
def FtpClient.start (passive : Bool) : FtpClient where
  passive := passive
  connection := 0
  channel := none
  chans := fun _ => .absent
  made := 0
  permits := 0
  phase := .idle
  calls := 0
  awaiting := none
  answered := fun _ => false
  returns := []
  executions := []

/-- What the configuration and the name service say. -/
structure Setting where
  /-- `isHttpForFtp` with an HTTP proxy. -/
  httpForFtp : Bool
  /-- An FTP proxy, and not the HTTP one. -/
  ftpProxy : Bool
  /-- `InetAddress.getByName` finds an address. -/
  resolves : Text → Bool

/-- The transfer commands. -/
inductive TransferKind where
  | retr
  | stor
  | uins
deriving DecidableEq, Repr

/-- `stor` -/
def stor : ControlReply → CallResult :=
  transferCommand fun _ => .ok 0

/-- What a transfer command makes of its reply. -/
def TransferKind.call : TransferKind → ControlReply → CallResult
  | .retr => Client.retr
  | .stor => Channel.stor
  | .uins => Client.uins

/-- The steps of the threads.  Those inside `openDataChannel` name the call and
the channel they are about. -/
inductive Event where
  /-- `connect`; without a new connection the old streams stay in use. -/
  | connect (established : Bool)
  | login
  /-- `openDataChannel` is called and looks at the field. -/
  | openDataChannel
  /-- It uses the channel it has seen. -/
  | reuse (l : Nat)
  /-- The listener that the command thread ran has returned. -/
  | listenerReturns (l : Nat)
  | pasvReply (l : Nat) (reply : ControlReply)
  /-- A server socket is bound, or not. -/
  | construct (l : Nat) (bound : Bool)
  | startThread (l c : Nat)
  | sendPort (l c : Nat)
  | portReply (l c : Nat) (reply : ControlReply)
  /-- A transfer command gets its reply. -/
  | transfer (kind : TransferKind) (reply : ControlReply)
  | abandonDataChannel
  | closeDataChannel
  /-- The data connection of channel `c` is there. -/
  | dataConnects (c : Nat)
  | dataFails (c : Nat) (timeout : Bool)
  /-- The server socket of channel `c` was closed under its thread. -/
  | dataClosed (c : Nat)
  | acquires (c : Nat)
deriving DecidableEq, Repr

/-! ## Parts of the steps -/

section Parts

variable (s : FtpClient)

/-- `openDataChannel` returns or throws. -/
def finish (outcome : Except Unchecked Int) : FtpClient :=
  { s with
    phase := .idle
    returns := ⟨outcome, s.channel.map fun c => (s.chans c).accepted, s.connection⟩ :: s.returns }

/-- Change the record of one channel. -/
def modify (c : Nat) (f : Chan → Chan) : FtpClient :=
  { s with chans := Function.update s.chans c (f (s.chans c)) }

/-- `FtpDataChannel.close`: a passive channel has no server socket, and an
active one without a connection has no data socket. -/
def Chan.close (ch : Chan) : Except Unchecked Unit × Chan :=
  if ch.isActive then
    (if ch.hasSocket then .ok () else .error .nullPointer, { ch with closed := true })
  else (.error .nullPointer, ch)

/-- The client behind `channel.close()`; the exception is caught. -/
def closeField : FtpClient :=
  match s.channel with
  | none => s
  | some c => { modify s c fun ch => ch.close.2 with channel := none }

/-- A new channel for listener `l` in the field. -/
def assign (l : Nat) (isActive : Bool) (accepted : Option Nat) : FtpClient :=
  { s with
    channel := some s.made
    chans := Function.update s.chans s.made
      { isActive := isActive
        listener := some l
        thread := .created
        hasSocket := !isActive
        closed := false
        openedOn := s.connection
        accepted := accepted }
    made := s.made + 1
    phase := .starting l s.made }

/-- The listener of a channel is called, if it is not the empty one. -/
def execute (l : Option Nat) (onCommandThread : Bool) : FtpClient :=
  match l with
  | none => s
  | some l =>
    { s with executions := ⟨l, onCommandThread, s.answered l⟩ :: s.executions }

/-- The first look at the field. -/
def lookAtField (l : Nat) : FtpClient :=
  match s.channel with
  | some _ => { s with phase := .reusing l }
  | none => { s with phase := if s.passive then .asking l else .constructing l }

/-- The branch for a channel that is there. -/
def reuseChannel (l : Nat) : FtpClient :=
  match s.channel with
  | none => finish s (.error .nullPointer)
  | some c =>
    if s.passive then
      -- The source of an `ActionEvent` must not be null.
      if (s.chans c).hasSocket then { execute s (some l) true with phase := .listening l }
      else finish s (.error .illegalArgument)
    else finish (modify s c fun ch => { ch with listener := some l }) (.ok 0)

/-- The reply to `PASV`. -/
def afterPasv (env : Setting) (l : Nat) : ControlReply → FtpClient
  | .ioError _ => finish s (.ok (-1))
  | .line response =>
    match getResponseCode response with
    | .error _ => finish s (.error .stringIndex)
    | .ok code =>
      if code = 421 then finish s (.ok (-1))
      else if code = 227 then
        match convertAddressPasv env.resolves response with
        | .error e => finish s (.error e)
        | .ok _ => assign s l false (some s.connection)
      else finish s (.ok (-4))

/-- `channel.start()`; a passive channel is ready then. -/
def startChannel (l c : Nat) : FtpClient :=
  match s.channel with
  | none => finish s (.error .nullPointer)
  | some c' =>
    let s := modify s c' fun ch => { ch with thread := .connecting }
    if (s.chans c).isActive then { s with phase := .started l c } else finish s (.ok 0)

/-- The command is built from the address of the channel in the field. -/
def sendPort (l c : Nat) : FtpClient :=
  match s.channel with
  | none => finish s (.error .nullPointer)
  | some _ => { s with phase := .portSent l c }

/-- The reply to `PORT`. -/
def afterPort (l c : Nat) : ControlReply → FtpClient
  | .ioError _ => finish s (.ok (-1))
  | .line response =>
    match getResponseCode response with
    | .error _ => finish s (.error .stringIndex)
    | .ok code =>
      if code = 421 then
        match s.channel with
        | none => finish s (.error .nullPointer)
        | some c' =>
          finish (modify s c' fun ch => ch.close.2)
            (match (s.chans c').close.1 with
            | .ok () => .ok (-1)
            | .error e => .error e)
      else if code = 200 then
        finish (modify s c fun ch => { ch with accepted := some s.connection }) (.ok 0)
      else if code = 500 then
        -- Behind a NAT: the method calls itself in passive mode.
        { closeField s with passive := true, phase := .asking l }
      else finish s (.ok (-4))

/-- `retr`, `stor` and `uins`: the completion thread is made for a reply 150,
and makes a permit for a passive channel. -/
def afterTransfer (kind : TransferKind) (reply : ControlReply) : FtpClient :=
  if (kind.call reply).started then
    { s with
      permits := if s.passive then s.permits + 1 else s.permits
      answered := match s.awaiting with
        | some l => Function.update s.answered l true
        | none => s.answered
      awaiting := none }
  else { s with awaiting := none }

/-- A data thread has its connection. -/
def dataConnected (c : Nat) : FtpClient :=
  if (s.chans c).isActive then
    execute (modify s c fun ch => { ch with thread := .done, hasSocket := true, closed := true })
      (s.chans c).listener false
  else modify s c fun ch => { ch with thread := .waiting }

/-- A data thread gives up.  A passive channel has a data socket, so its
listener is called a second time behind the `catch`. -/
def dataFailed (c : Nat) (timeout : Bool) : FtpClient :=
  let ch := s.chans c
  let s := modify s c fun ch => { ch with thread := .done }
  if ch.isActive then
    execute (if timeout then { s with channel := none } else s) ch.listener false
  else execute (execute { s with channel := none } ch.listener false) ch.listener false

end Parts

/-! ## Steps -/

section Steps

variable (env : Setting) (s : FtpClient)

/-- When a step is possible. -/
def ClientEnabled : Event → Prop
  | .connect _ => s.phase = .idle
  | .login => s.phase = .idle
  | .openDataChannel => s.phase = .idle
  | .transfer _ _ => s.phase = .idle
  | .reuse l => s.phase = .reusing l
  | .listenerReturns l => s.phase = .listening l
  | .pasvReply l _ => s.phase = .asking l
  | .construct l _ => s.phase = .constructing l
  | .startThread l c => s.phase = .starting l c
  | .sendPort l c => s.phase = .started l c
  | .portReply l c _ => s.phase = .portSent l c
  | .abandonDataChannel => True
  | .closeDataChannel => True
  | .dataConnects c => (s.chans c).thread = .connecting ∧ (s.chans c).closed = false
  | .dataFails c _ => (s.chans c).thread = .connecting ∧ (s.chans c).closed = false
  | .dataClosed c => (s.chans c).thread = .connecting ∧ (s.chans c).closed = true
  | .acquires c => (s.chans c).thread = .waiting ∧ 0 < s.permits

instance : (e : Event) → Decidable (ClientEnabled s e)
  | .connect _ => inferInstanceAs (Decidable (_ = _))
  | .login => inferInstanceAs (Decidable (_ = _))
  | .openDataChannel => inferInstanceAs (Decidable (_ = _))
  | .transfer _ _ => inferInstanceAs (Decidable (_ = _))
  | .reuse _ => inferInstanceAs (Decidable (_ = _))
  | .listenerReturns _ => inferInstanceAs (Decidable (_ = _))
  | .pasvReply _ _ => inferInstanceAs (Decidable (_ = _))
  | .construct _ _ => inferInstanceAs (Decidable (_ = _))
  | .startThread _ _ => inferInstanceAs (Decidable (_ = _))
  | .sendPort _ _ => inferInstanceAs (Decidable (_ = _))
  | .portReply _ _ _ => inferInstanceAs (Decidable (_ = _))
  | .abandonDataChannel => inferInstanceAs (Decidable True)
  | .closeDataChannel => inferInstanceAs (Decidable True)
  | .dataConnects _ => inferInstanceAs (Decidable (_ ∧ _))
  | .dataFails _ _ => inferInstanceAs (Decidable (_ ∧ _))
  | .dataClosed _ => inferInstanceAs (Decidable (_ ∧ _))
  | .acquires _ => inferInstanceAs (Decidable (_ ∧ _))

/-- What a step does. -/
def clientEffect : Event → FtpClient
  | .connect established =>
    { s with
      passive := s.passive || env.httpForFtp
      connection := if established then s.connection + 1 else s.connection }
  | .login => { s with passive := s.passive || env.ftpProxy }
  | .openDataChannel =>
    lookAtField { s with calls := s.calls + 1, awaiting := some s.calls } s.calls
  | .reuse l => reuseChannel s l
  | .listenerReturns _ => finish s (.ok 0)
  | .pasvReply l reply => afterPasv s env l reply
  | .construct l bound => if bound then assign s l true none else finish s (.ok (-1))
  | .startThread l c => startChannel s l c
  | .sendPort l c => sendPort s l c
  | .portReply l c reply => afterPort s l c reply
  | .transfer kind reply => afterTransfer s kind reply
  | .abandonDataChannel =>
    match s.channel with
    | none => s
    | some c => modify s c fun ch => { ch with listener := none }
  | .closeDataChannel => closeField s
  | .dataConnects c => dataConnected s c
  | .dataFails c timeout => dataFailed s c timeout
  | .dataClosed c => modify s c fun ch => { ch with thread := .done }
  | .acquires c =>
    execute { modify s c fun ch => { ch with thread := .done } with permits := s.permits - 1 }
      (s.chans c).listener false

/-- One step of the client. -/
def clientStep : FtpClient → Event → Option FtpClient :=
  guarded ClientEnabled (clientEffect env)

end Steps

/-! ## What the steps leave alone -/

section Frame

variable (s : FtpClient)

@[simp] theorem modify_chans (c : Nat) (f : Chan → Chan) :
    (modify s c f).chans = Function.update s.chans c (f (s.chans c)) := rfl

@[simp] theorem modify_channel (c : Nat) (f : Chan → Chan) :
    (modify s c f).channel = s.channel := rfl

@[simp] theorem modify_connection (c : Nat) (f : Chan → Chan) :
    (modify s c f).connection = s.connection := rfl

@[simp] theorem modify_phase (c : Nat) (f : Chan → Chan) :
    (modify s c f).phase = s.phase := rfl

@[simp] theorem modify_returns (c : Nat) (f : Chan → Chan) :
    (modify s c f).returns = s.returns := rfl

@[simp] theorem modify_passive (c : Nat) (f : Chan → Chan) :
    (modify s c f).passive = s.passive := rfl

@[simp] theorem execute_chans (l : Option Nat) (b : Bool) : (execute s l b).chans = s.chans := by
  cases l <;> rfl

@[simp] theorem execute_channel (l : Option Nat) (b : Bool) :
    (execute s l b).channel = s.channel := by
  cases l <;> rfl

@[simp] theorem execute_phase (l : Option Nat) (b : Bool) : (execute s l b).phase = s.phase := by
  cases l <;> rfl

@[simp] theorem execute_connection (l : Option Nat) (b : Bool) :
    (execute s l b).connection = s.connection := by
  cases l <;> rfl

@[simp] theorem execute_returns (l : Option Nat) (b : Bool) :
    (execute s l b).returns = s.returns := by
  cases l <;> rfl

@[simp] theorem execute_passive (l : Option Nat) (b : Bool) :
    (execute s l b).passive = s.passive := by
  cases l <;> rfl

@[simp] theorem execute_permits (l : Option Nat) (b : Bool) :
    (execute s l b).permits = s.permits := by
  cases l <;> rfl

@[simp] theorem execute_answered (l : Option Nat) (b : Bool) :
    (execute s l b).answered = s.answered := by
  cases l <;> rfl

/-- An execution adds the listener to the history, unless it is the empty one. -/
theorem mem_execute {l : Option Nat} {b : Bool} {x : Execution} :
    x ∈ (execute s l b).executions ↔
      x ∈ s.executions ∨ ∃ l' ∈ l, x = ⟨l', b, s.answered l'⟩ := by
  cases l with
  | none => simp [execute]
  | some l => simp [execute, or_comm]

/-- What a step of another thread can do to a call of `openDataChannel`: it may
empty the field, and the records keep their origin. -/
structure Beside (s s' : FtpClient) : Prop where
  phase : s'.phase = s.phase
  connection : s'.connection = s.connection
  returns : s'.returns = s.returns
  channel : s'.channel = none ∨ s'.channel = s.channel
  origin : ∀ c, (s'.chans c).isActive = (s.chans c).isActive ∧
    (s'.chans c).openedOn = (s.chans c).openedOn ∧ (s'.chans c).accepted = (s.chans c).accepted

variable {s} {s' : FtpClient}

/-- Every client is beside itself. -/
theorem Beside.refl (s : FtpClient) : Beside s s :=
  ⟨rfl, rfl, rfl, Or.inr rfl, fun _ => ⟨rfl, rfl, rfl⟩⟩

/-- The listener of some channel is called. -/
theorem Beside.execute (h : Beside s s') (l : Option Nat) (b : Bool) :
    Beside s (execute s' l b) where
  phase := by rw [execute_phase, h.phase]
  connection := by rw [execute_connection, h.connection]
  returns := by rw [execute_returns, h.returns]
  channel := by rw [execute_channel]; exact h.channel
  origin := by rw [execute_chans]; exact h.origin

/-- The field is emptied. -/
theorem Beside.emptied (h : Beside s s') : Beside s { s' with channel := none } :=
  ⟨h.phase, h.connection, h.returns, Or.inl rfl, h.origin⟩

/-- One record changes and keeps its origin. -/
theorem beside_modify (s : FtpClient) (c : Nat) (f : Chan → Chan)
    (hf : ∀ ch, (f ch).isActive = ch.isActive ∧ (f ch).openedOn = ch.openedOn ∧
      (f ch).accepted = ch.accepted) : Beside s (modify s c f) := by
  refine ⟨rfl, rfl, rfl, Or.inr rfl, fun c' => ?_⟩
  by_cases h : c' = c
  · rw [h, modify_chans, Function.update_self]
    exact hf _
  · rw [modify_chans, Function.update_of_ne h]
    exact ⟨rfl, rfl, rfl⟩

/-- Closing a channel does not change where it came from. -/
theorem Chan.close_origin (ch : Chan) :
    ch.close.2.isActive = ch.isActive ∧ ch.close.2.openedOn = ch.openedOn ∧
      ch.close.2.accepted = ch.accepted := by
  unfold Chan.close
  split <;> exact ⟨rfl, rfl, rfl⟩

end Frame

/-- The steps that are not taken by the command thread. -/
def Event.ofThread : Event → Prop
  | .abandonDataChannel => True
  | .closeDataChannel => True
  | .dataConnects _ => True
  | .dataFails _ _ => True
  | .dataClosed _ => True
  | .acquires _ => True
  | _ => False

/-- A step of a thread leaves what the calling thread holds as it is. -/
theorem beside_of_thread (env : Setting) (s : FtpClient) {e : Event} (he : e.ofThread) :
    Beside s (clientEffect env s e) := by
  cases e with
  | abandonDataChannel =>
      simp only [clientEffect]
      split
      · exact Beside.refl s
      · exact beside_modify s _ _ fun _ => ⟨rfl, rfl, rfl⟩
  | closeDataChannel =>
      simp only [clientEffect, closeField]
      split
      · exact Beside.refl s
      · exact (beside_modify s _ _ Chan.close_origin).emptied
  | dataConnects c =>
      simp only [clientEffect, dataConnected]
      split
      · refine Beside.execute (beside_modify s c _ ?_) _ false
        exact fun _ => ⟨rfl, rfl, rfl⟩
      · exact beside_modify s c _ fun _ => ⟨rfl, rfl, rfl⟩
  | dataFails c timeout =>
      have hdone : Beside s (modify s c fun ch => { ch with thread := .done }) :=
        beside_modify s c _ fun _ => ⟨rfl, rfl, rfl⟩
      simp only [clientEffect, dataFailed]
      split
      · split
        · exact hdone.emptied.execute _ false
        · exact hdone.execute _ false
      · exact (hdone.emptied.execute _ false).execute _ false
  | dataClosed c =>
      simp only [clientEffect]
      exact beside_modify s c _ fun _ => ⟨rfl, rfl, rfl⟩
  | acquires c =>
      have hdone : Beside s (modify s c fun ch => { ch with thread := .done }) :=
        beside_modify s c _ fun _ => ⟨rfl, rfl, rfl⟩
      have hpermit : Beside s { modify s c fun ch => { ch with thread := .done } with
          permits := s.permits - 1 } :=
        ⟨rfl, rfl, rfl, Or.inr rfl, hdone.origin⟩
      exact hpermit.execute _ false
  | _ => exact absurd he (by simp [Event.ofThread])

end Channel
end ModpackInstaller
