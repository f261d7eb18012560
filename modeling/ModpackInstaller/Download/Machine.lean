import ModpackInstaller.Client.Response
import ModpackInstaller.Library.Run

/-!
# One transfer of the installer

The routines {lit}`downloadFile`, {lit}`downloadArchive` and
{lit}`fetchUpdateInstructions` of {lit}`InstallPanel` open a data channel, send
a command, and wait on a semaphore for the completion thread.  Three threads of
the installer and the server take their steps in any order: the routine, the
data thread that runs the listener of the channel, and the
{lit}`WaitForComplete` thread that reads the final reply.

The channel is a fresh one.  What the archive reader makes of the bytes is an
input: it may end at any point, well or not.

Main results:

- Definition {lit}`transferStep`: the interleaving of the threads.
- Theorem {lit}`afterCommand_cases`: what a routine does behind its command.
- Definition {lit}`Stuck`: the routine waits and nobody is left to wake it.
-/

namespace ModpackInstaller
namespace Download

open Library Client

/-- The routines with the pattern "open, command, wait". -/
inductive Routine where
  | downloadFile
  | downloadArchive
  | fetchUpdateInstructions
deriving DecidableEq, Repr

/-- One call of a routine. -/
structure Call where
  routine : Routine
  /-- The installer connects to the server, and not the other way round. -/
  passive : Bool
  /-- All that the server has to send. -/
  content : Text
  /-- What the transfer command gets. -/
  reply : ControlReply

/-- How far the routine has come.  When it returns, the client holds so many
characters of the content. -/
inductive Phase where
  | opening
  | commanding
  | waiting
  | returned (success : Bool) (held : Nat)
  | threw (exception : Thrown)
deriving DecidableEq, Repr

/-- The completion thread. -/
inductive Completion where
  | notStarted
  | running
  /-- An exception ended it before it called its listener. -/
  | died
  | delivered
deriving DecidableEq, Repr

/-- The data thread. -/
inductive DataThread where
  | connecting
  /-- In front of the semaphore of `downloadArchive`. -/
  | gated
  | reading
  /-- The listener is through, with or without having read to the end. -/
  | ended (whole : Bool)
deriving DecidableEq, Repr

/-- The threads of the installer and the data connection. -/
structure TransferState where
  phase : Phase
  completion : Completion
  data : DataThread
  /-- Permits of the semaphore the routine waits on. -/
  permits : Nat
  /-- `downloadArchive` has let its data thread in. -/
  gate : Bool
  /-- The field `success` of the panel. -/
  success : Bool
  sent : Nat
  /-- The server has closed the data connection. -/
  closed : Bool
  /-- The client has closed its data socket. -/
  socketClosed : Bool
  consumed : Nat
deriving DecidableEq, Repr

/-- The start of a routine. -/
def TransferState.start : TransferState where
  phase := .opening
  completion := .notStarted
  data := .connecting
  permits := 0
  gate := false
  success := false
  sent := 0
  closed := false
  socketClosed := false
  consumed := 0

/-- The steps of the threads and of the server. -/
inductive TransferEvent where
  /-- `openDataChannel` returns; after a timeout the routine may reconnect. -/
  | opened (result : Int) (reconnects : Bool)
  /-- The transfer command gets its reply. -/
  | replied
  | acquire
  /-- `InterruptedException` -/
  | interrupt
  | connect
  | connectFails
  | enter
  | send (n : Nat)
  | close
  | read (n : Nat)
  /-- The data thread sees the end of the stream. -/
  | atEnd
  /-- The archive reader is content. -/
  | unpacked
  /-- An `IOException` in the data thread, of the connection or of the disk. -/
  | dataError
  /-- The completion thread gets a line or an `IOException`. -/
  | completes (final : ControlReply)
deriving DecidableEq, Repr

section Steps

variable (c : Call) (s : TransferState)

/-- When a step is possible. -/
def TransferEnabled : TransferEvent → Prop
  | .opened _ _ => s.phase = .opening
  | .replied => s.phase = .commanding
  | .acquire => s.phase = .waiting ∧ 0 < s.permits
  | .interrupt => s.phase = .waiting
  | .connect =>
    -- A passive channel hands out its socket when the completion thread is made, or when
    -- one of an earlier call left its permit behind.
    s.data = .connecting ∧ s.phase ≠ .opening ∧ s.socketClosed = false
  | .connectFails => s.data = .connecting ∧ s.phase ≠ .opening
  | .enter => s.data = .gated ∧ s.gate = true
  | .send n => s.closed = false ∧ s.sent + n ≤ c.content.length
  | .close => s.closed = false
  | .read n => s.data = .reading ∧ s.socketClosed = false ∧ 0 < n ∧ s.consumed + n ≤ s.sent
  | .atEnd =>
    s.data = .reading ∧ c.routine ≠ .downloadArchive ∧ s.socketClosed = false ∧
      s.closed = true ∧ s.consumed = s.sent
  | .unpacked => s.data = .reading ∧ c.routine = .downloadArchive
  | .dataError => s.data = .reading
  | .completes _ => s.completion = .running

instance : (e : TransferEvent) → Decidable (TransferEnabled c s e)
  | .opened _ _ => inferInstanceAs (Decidable (_ = _))
  | .replied => inferInstanceAs (Decidable (_ = _))
  | .acquire => inferInstanceAs (Decidable (_ ∧ _))
  | .interrupt => inferInstanceAs (Decidable (_ = _))
  | .connect => inferInstanceAs (Decidable (_ ∧ _ ≠ _ ∧ _))
  | .connectFails => inferInstanceAs (Decidable (_ ∧ _ ≠ _))
  | .enter => inferInstanceAs (Decidable (_ ∧ _))
  | .send _ => inferInstanceAs (Decidable (_ ∧ _))
  | .close => inferInstanceAs (Decidable (_ = _))
  | .read _ => inferInstanceAs (Decidable (_ ∧ _ ∧ _ ∧ _))
  | .atEnd => inferInstanceAs (Decidable (_ ∧ _ ≠ _ ∧ _ ∧ _ ∧ _))
  | .unpacked => inferInstanceAs (Decidable (_ ∧ _))
  | .dataError => inferInstanceAs (Decidable (_ = _))
  | .completes _ => inferInstanceAs (Decidable (_ = _))

/-- The transfer command of the routine. -/
def Call.command : CallResult :=
  match c.routine with
  | .fetchUpdateInstructions => uins c.reply
  | _ => retr c.reply

/-- The routine behind a result of its transfer command. -/
def afterCommand (routine : Routine) (consumed : Nat) : Except Thrown Int → Phase
  | .error e => .threw e
  | .ok n =>
    match routine with
    | .downloadFile => .waiting
    | .downloadArchive => if 0 ≤ n then .waiting else .returned false consumed
    | .fetchUpdateInstructions => if n = 0 then .waiting else .returned false consumed

/-- Behind its command the routine waits, throws or has failed. -/
theorem afterCommand_cases (routine : Routine) (consumed : Nat) (result : Except Thrown Int) :
    afterCommand routine consumed result = .waiting ∨
      afterCommand routine consumed result = .returned false consumed ∨
      ∃ e, afterCommand routine consumed result = .threw e := by
  cases result with
  | error e => exact Or.inr (Or.inr ⟨e, rfl⟩)
  | ok n =>
      cases routine with
      | downloadFile => exact Or.inl rfl
      | downloadArchive =>
          simp only [afterCommand]
          split
          · exact Or.inl rfl
          · exact Or.inr (Or.inl rfl)
      | fetchUpdateInstructions =>
          simp only [afterCommand]
          split
          · exact Or.inl rfl
          · exact Or.inr (Or.inl rfl)

/-- The listener of the completion thread: the data channel is closed and the
routine woken, whatever the event says.  Closing a passive channel fails on its
missing server socket and leaves the data socket open. -/
def deliver : TransferState :=
  { s with
    completion := .delivered
    permits := s.permits + 1
    socketClosed := s.socketClosed || !c.passive }

/-- What a step does. -/
def transferEffect : TransferEvent → TransferState
  | .opened result reconnects =>
    if result = 0 then { s with phase := .commanding }
    else if result = -1 ∧ reconnects = true then s
    else { s with phase := .returned false s.consumed }
  | .replied =>
    { s with
      phase := afterCommand c.routine s.consumed c.command.result
      completion := if c.command.started then .running else s.completion
      gate := decide (afterCommand c.routine s.consumed c.command.result = .waiting) }
  | .acquire =>
    { s with
      permits := s.permits - 1
      phase := .returned (match c.routine with
        | .fetchUpdateInstructions => true
        | _ => s.success) s.consumed }
  | .interrupt => { s with phase := .returned false s.consumed }
  | .connect =>
    { s with data := match c.routine with
      | .downloadArchive => .gated
      | _ => .reading }
  | .connectFails =>
    { s with
      data := .ended false
      -- The listener of a passive channel is called even so, with a socket that fails.
      success := s.success && !(c.passive && decide (c.routine = .downloadFile)) }
  | .enter => { s with data := .reading }
  | .send n => { s with sent := s.sent + n }
  | .close => { s with closed := true }
  | .read n => { s with consumed := s.consumed + n }
  | .atEnd =>
    { s with
      data := .ended true
      success := match c.routine with
        | .downloadFile => true
        | _ => s.success }
  | .unpacked => { s with data := .ended true, success := true }
  | .dataError =>
    { s with
      data := .ended false
      success := match c.routine with
        | .fetchUpdateInstructions => s.success
        | _ => false }
  | .completes final =>
    match final with
    | .line response => if response.length < 3 then { s with completion := .died } else deliver c s
    | .ioError _ => deliver c s

/-- One step of the threads and of the server. -/
def transferStep : TransferState → TransferEvent → Option TransferState :=
  guarded (TransferEnabled c) (transferEffect c)

/-- The routine is through. -/
def Phase.isOver : Phase → Bool
  | .returned _ _ => true
  | .threw _ => true
  | _ => false

/-- The routine waits, has no permit, and no completion thread has still to
deliver its event. -/
def Stuck : Prop :=
  s.phase = .waiting ∧ s.permits = 0 ∧ s.completion ≠ .running ∧ s.completion ≠ .died

instance : Decidable (Stuck s) :=
  inferInstanceAs (Decidable (_ ∧ _ ∧ _ ≠ _ ∧ _ ≠ _))

end Steps

end Download
end ModpackInstaller
