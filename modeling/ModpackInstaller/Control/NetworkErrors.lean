import Mathlib.Logic.Function.Basic
import ModpackInstaller.Client.Response
import ModpackInstaller.Library.Run

/-!
# Network errors between the threads

While a transfer command waits for its reply, a data thread whose channel times out leaves
a {lit}`NetworkException` behind and interrupts the command thread, which throws it.
{lit}`waitingForResponse` tells the data thread that a command waits, and
{lit}`theNetworkError` hands the exception over.  For the statements only, an exception
carries the call during which its timeout happened.

A reply and the assignment behind {lit}`chat` are one step: a data thread that looks in
between sees what it would have seen before.

Main results:

- Theorem {lit}`waiting_step`: a call that waits is announced.
- Theorem {lit}`ownErrors_iff`: the flag is right in every state of a run exactly when no call
  of it ends with an {lit}`IOException`, and which exceptions are thrown by the call they
  belong to.
- Theorem {lit}`ownErrors_fails`: a timeout between two calls is thrown by the second one.
-/

namespace ModpackInstaller
namespace Control
namespace NetworkErrors

open Library Client

/-! ## The threads -/

/-- The transfer commands. -/
inductive Command where
  | retr
  | stor
  | uins
deriving DecidableEq, Repr

/-- What a command comes to. -/
def Command.outcome : Command → ControlReply → CallResult
  | .retr => Client.retr
  | .stor => transferCommand fun _ => .ok 0
  | .uins => Client.uins

/-- The call that waits for its reply, by its number; `none` when there is none. -/
abbrev During := Option Nat

/-- A data thread. -/
inductive DataThread where
  | notStarted
  | connecting
  /-- In front of `if (waitingForResponse)`. -/
  | timedOut (during : During)
  /-- In front of `theNetworkError = new NetworkException(…)`. -/
  | noticed (during : During)
  /-- In front of `commandThread.interrupt()`. -/
  | created
  | done
deriving DecidableEq, Repr

/-- The fields of `FtpClient` that the threads share, and how far the threads are. -/
structure Shared where
  /-- The calls that were begun. -/
  calls : Nat
  /-- The last of them, while it is in `chat`. -/
  current : Option Command
  waitingForResponse : Bool
  /-- The exception, by its timeout. -/
  theNetworkError : Option During
  /-- The interrupt status of the command thread. -/
  interrupted : Bool
  threads : Nat → DataThread
  /-- The exceptions that were thrown, each with its call. -/
  thrown : List (Nat × During)

namespace Shared

/-- A new client. -/
def start : Shared where
  calls := 0
  current := none
  waitingForResponse := false
  theNetworkError := none
  interrupted := false
  threads := fun _ => .notStarted
  thrown := []

/-- The call that waits now. -/
def during (s : Shared) : During :=
  s.current.map fun _ => s.calls

/-- A data thread goes on. -/
def setThread (s : Shared) (i : Nat) (t : DataThread) : Shared :=
  { s with threads := Function.update s.threads i t }

/-- The end of a call. -/
def leave (s : Shared) (reply : ControlReply) : Shared :=
  match s.current with
  | none => s
  | some command =>
    match (command.outcome reply).result, s.theNetworkError with
    | .error .network, some error =>
      { s with current := none, thrown := s.thrown ++ [(s.calls, error)] }
    | _, _ => { s with current := none }

end Shared

/-- The steps of the threads. -/
inductive Event where
  | call (command : Command)
  | answered (response : Text)
  /-- `chat` throws an `IOException` of the connection. -/
  | ioError
  /-- The wait in `chat` is interrupted, which is an `IOException` as well. -/
  | interruption
  /-- The interrupt status is cleared outside of the calls. -/
  | absorb
  | connect (i : Nat)
  /-- The thread ends without a timeout. -/
  | connected (i : Nat)
  | timeout (i : Nat)
  | look (i : Nat)
  | create (i : Nat)
  | interrupt (i : Nat)
deriving DecidableEq, Repr

/-- A call ends with an `IOException` of `chat`. -/
def Event.fails : Event → Bool
  | .ioError | .interruption => true
  | _ => false

/-- A step; `none` when it is not possible. -/
def step (s : Shared) : Event → Option Shared
  | .call command =>
    if s.current = none then
      some { s with calls := s.calls + 1, current := some command, waitingForResponse := true }
    else none
  | .answered response =>
    if s.current = none then none
    else some { s.leave (.line response) with waitingForResponse := false }
  | .ioError =>
    if s.current = none then none
    else some (s.leave (.ioError s.theNetworkError.isSome))
  | .interruption =>
    if s.current ≠ none ∧ s.interrupted = true then
      some { s.leave (.ioError s.theNetworkError.isSome) with interrupted := false }
    else none
  | .absorb =>
    if s.current = none ∧ s.interrupted = true then some { s with interrupted := false } else none
  | .connect i =>
    if s.threads i = .notStarted then some (s.setThread i .connecting) else none
  | .connected i =>
    if s.threads i = .connecting then some (s.setThread i .done) else none
  | .timeout i =>
    if s.threads i = .connecting then some (s.setThread i (.timedOut s.during)) else none
  | .look i =>
    match s.threads i with
    | .timedOut during =>
      some (s.setThread i (if s.waitingForResponse then .noticed during else .done))
    | _ => none
  | .create i =>
    match s.threads i with
    | .noticed during => some { s.setThread i .created with theNetworkError := some during }
    | _ => none
  | .interrupt i =>
    if s.threads i = .created then some { s.setThread i .done with interrupted := true } else none

/-! ## What is promised -/

/-- The flag is up only while a call waits. -/
def FlagRight (s : Shared) : Prop :=
  s.waitingForResponse = true → s.current ≠ none

/-- Every exception that was thrown belongs to the call that threw it. -/
def ThrowsOwn (s : Shared) : Prop :=
  ∀ t ∈ s.thrown, t.2 = some t.1

/-- When a call fails, the exception that is there belongs to it. -/
def Fresh (s : Shared) (e : Event) : Prop :=
  e.fails = true → ∀ during ∈ s.theNetworkError, during = some s.calls

/-- The flag is up while a call waits. -/
def Announced (s : Shared) : Prop :=
  s.current ≠ none → s.waitingForResponse = true

/-! ## One step -/

theorem getResponseCode_ne (response : Text) : getResponseCode response ≠ .error .network := by
  unfold getResponseCode
  split <;> simp

theorem transferCommand_line_ne {length : Text → Except Thrown Int}
    (hlength : ∀ response, length response ≠ .error .network) (response : Text) :
    (transferCommand length (.line response)).result ≠ .error .network := by
  have hresponse := getResponseCode_ne response
  cases hcode : getResponseCode response with
  | error e =>
      rw [hcode] at hresponse
      simpa only [transferCommand, hcode] using hresponse
  | ok code =>
      simp only [transferCommand, hcode]
      split
      · simp
      · split
        · exact hlength response
        · split <;> simp

/-- A reply is not answered with a network error. -/
theorem outcome_line_ne (command : Command) (response : Text) :
    (command.outcome (.line response)).result ≠ .error .network := by
  have hgetLength : ∀ response, getLength response ≠ .error .network := by
    intro response
    unfold getLength
    dsimp only
    split <;> simp
  cases command with
  | retr => exact transferCommand_line_ne hgetLength response
  | stor => exact transferCommand_line_ne (fun _ => by simp) response
  | uins => exact transferCommand_line_ne (fun _ => by simp) response

theorem leave_line (s : Shared) (h : s.current ≠ none) (response : Text) :
    s.leave (.line response) = { s with current := none } := by
  obtain ⟨command, hcommand⟩ := Option.ne_none_iff_exists'.mp h
  have hline := outcome_line_ne command response
  unfold Shared.leave
  rw [hcommand]
  dsimp only
  split
  · rename_i hthrown _
    exact absurd hthrown hline
  · rfl

/-- The exception that is there is thrown. -/
theorem leave_ioError (s : Shared) (h : s.current ≠ none) :
    s.leave (.ioError s.theNetworkError.isSome) = { s with
      current := none,
      thrown := s.thrown ++ s.theNetworkError.toList.map fun during => (s.calls, during) } := by
  obtain ⟨command, hcommand⟩ := Option.ne_none_iff_exists'.mp h
  have houtcome : (command.outcome (.ioError s.theNetworkError.isSome)).result =
      if s.theNetworkError.isSome then .error .network else .ok (-4) := by
    cases command <;> simp only [Command.outcome, retr, uins, transferCommand] <;> split <;> rfl
  unfold Shared.leave
  rw [hcommand]
  dsimp only
  rw [houtcome]
  cases herror : s.theNetworkError with
  | none => simp
  | some error => simp

/-- A step begins a call, ends it with a reply or an `IOException`, or leaves the calls
alone. -/
theorem step_cases {s s' : Shared} {e : Event} (h : step s e = some s') :
    (∃ command, e = .call command ∧ s.current = none ∧ s' = { s with
      calls := s.calls + 1, current := some command, waitingForResponse := true }) ∨
    (∃ response, e = .answered response ∧ s' = { s with
      current := none, waitingForResponse := false }) ∨
    (∃ interrupted, e.fails = true ∧ s.current ≠ none ∧ s' = { s with
      current := none, interrupted := interrupted,
      thrown := s.thrown ++ s.theNetworkError.toList.map fun during => (s.calls, during) }) ∨
    (e.fails = false ∧ s'.calls = s.calls ∧ s'.current = s.current ∧
      s'.waitingForResponse = s.waitingForResponse ∧ s'.thrown = s.thrown) := by
  cases e with
  | call command =>
      rw [step, Option.ite_none_right_eq_some, Option.some.injEq] at h
      exact Or.inl ⟨command, rfl, h.1, h.2.symm⟩
  | answered response =>
      rw [step, Option.ite_none_left_eq_some, Option.some.injEq] at h
      rw [leave_line s h.1] at h
      exact Or.inr (Or.inl ⟨response, rfl, h.2.symm⟩)
  | ioError =>
      rw [step, Option.ite_none_left_eq_some, Option.some.injEq] at h
      rw [leave_ioError s h.1] at h
      exact Or.inr (Or.inr (Or.inl ⟨s.interrupted, rfl, h.1, h.2.symm⟩))
  | interruption =>
      rw [step, Option.ite_none_right_eq_some, Option.some.injEq] at h
      rw [leave_ioError s h.1.1] at h
      exact Or.inr (Or.inr (Or.inl ⟨false, rfl, h.1.1, h.2.symm⟩))
  | absorb =>
      rw [step, Option.ite_none_right_eq_some, Option.some.injEq] at h
      obtain ⟨-, rfl⟩ := h
      exact Or.inr (Or.inr (Or.inr ⟨rfl, rfl, rfl, rfl, rfl⟩))
  | connect i =>
      rw [step, Option.ite_none_right_eq_some, Option.some.injEq] at h
      obtain ⟨-, rfl⟩ := h
      exact Or.inr (Or.inr (Or.inr ⟨rfl, rfl, rfl, rfl, rfl⟩))
  | connected i =>
      rw [step, Option.ite_none_right_eq_some, Option.some.injEq] at h
      obtain ⟨-, rfl⟩ := h
      exact Or.inr (Or.inr (Or.inr ⟨rfl, rfl, rfl, rfl, rfl⟩))
  | timeout i =>
      rw [step, Option.ite_none_right_eq_some, Option.some.injEq] at h
      obtain ⟨-, rfl⟩ := h
      exact Or.inr (Or.inr (Or.inr ⟨rfl, rfl, rfl, rfl, rfl⟩))
  | look i =>
      rw [step] at h
      split at h
      · obtain rfl := Option.some.inj h
        exact Or.inr (Or.inr (Or.inr ⟨rfl, rfl, rfl, rfl, rfl⟩))
      · cases h
  | create i =>
      rw [step] at h
      split at h
      · obtain rfl := Option.some.inj h
        exact Or.inr (Or.inr (Or.inr ⟨rfl, rfl, rfl, rfl, rfl⟩))
      · cases h
  | interrupt i =>
      rw [step, Option.ite_none_right_eq_some, Option.some.injEq] at h
      obtain ⟨-, rfl⟩ := h
      exact Or.inr (Or.inr (Or.inr ⟨rfl, rfl, rfl, rfl, rfl⟩))

/-- A call that waits is announced. -/
theorem waiting_step {s s' : Shared} {e : Event} (hs : Announced s) (h : step s e = some s') :
    Announced s' := by
  rcases step_cases h with ⟨command, -, -, rfl⟩ | ⟨response, -, rfl⟩ | ⟨interrupted, -, -, rfl⟩ |
    ⟨-, -, hcurrent, hflag, -⟩
  · exact fun _ => rfl
  · exact fun hcurrent => absurd rfl hcurrent
  · exact fun hcurrent => absurd rfl hcurrent
  · rw [Announced, hcurrent, hflag]
    exact hs

/-- The flag stays up behind an `IOException`, and only there. -/
theorem flagRight_step {s s' : Shared} {e : Event} (hs : Announced s) (hright : FlagRight s)
    (h : step s e = some s') : FlagRight s' ↔ e.fails = false := by
  rcases step_cases h with ⟨command, rfl, -, rfl⟩ | ⟨response, rfl, rfl⟩ |
    ⟨interrupted, hfails, hcurrent, rfl⟩ | ⟨hfails, -, hcurrent, hflag, -⟩
  · exact iff_of_true (fun _ => by simp) rfl
  · exact iff_of_true (fun hflag => by cases hflag) rfl
  · refine iff_of_false (fun hright' => ?_) (by simp [hfails])
    exact hright' (hs hcurrent) rfl
  · refine iff_of_true ?_ hfails
    rw [FlagRight, hcurrent, hflag]
    exact hright

/-- An exception is thrown where it belongs exactly when it is there for its own call. -/
theorem throwsOwn_step {s s' : Shared} {e : Event} (hown : ThrowsOwn s)
    (h : step s e = some s') : ThrowsOwn s' ↔ Fresh s e := by
  rcases step_cases h with ⟨command, rfl, -, rfl⟩ | ⟨response, rfl, rfl⟩ |
    ⟨interrupted, hfails, hcurrent, rfl⟩ | ⟨hfails, -, -, -, hthrown⟩
  · exact iff_of_true hown fun hfails => by cases hfails
  · exact iff_of_true hown fun hfails => by cases hfails
  · rw [ThrowsOwn, List.forall_mem_append, Fresh, hfails]
    refine Iff.trans (and_iff_right hown) ?_
    simp
  · refine iff_of_true ?_ fun hfails' => by simp [hfails] at hfails'
    rw [ThrowsOwn, hthrown]
    exact hown

theorem kept_step {s s' : Shared} {e : Event} (hs : Announced s)
    (hkept : FlagRight s ∧ ThrowsOwn s) (h : step s e = some s') :
    (FlagRight s' ∧ ThrowsOwn s') ↔ e.fails = false := by
  rw [flagRight_step hs hkept.1 h]
  refine ⟨And.left, fun hfails => ⟨hfails, (throwsOwn_step hkept.2 h).mpr fun hfails' => ?_⟩⟩
  rw [hfails] at hfails'
  cases hfails'

/-! ## Runs -/

theorem announced_start : Announced .start :=
  fun h => absurd rfl h

theorem flagRight_start : FlagRight .start :=
  fun h => by cases h

theorem throwsOwn_start : ThrowsOwn .start :=
  fun t ht => by cases ht

/-- In every state of a run the flag is right and the exceptions were thrown where they
belong, exactly when no call ends with an `IOException`.  The exceptions alone are right
exactly when the one that is there, whenever a call fails, belongs to that call. -/
theorem ownErrors_iff {events : List Event} {s : Shared} (hrun : run step .start events = some s) :
    ((∀ n t, run step .start (events.take n) = some t → FlagRight t ∧ ThrowsOwn t) ↔
        ∀ e ∈ events, e.fails = false) ∧
      ((∀ n t, run step .start (events.take n) = some t → ThrowsOwn t) ↔
        RunMeets step Fresh .start events) := by
  constructor
  · have hkept : (∀ n t, run step .start (events.take n) = some t → FlagRight t ∧ ThrowsOwn t) ↔
        (FlagRight .start ∧ ThrowsOwn .start) ∧
          RunMeets step (fun _ e => e.fails = false) .start events :=
      run_states_iff (fun _ _ _ => waiting_step) (fun _ _ _ => kept_step) announced_start hrun
    rw [hkept, and_iff_right ⟨flagRight_start, throwsOwn_start⟩, runMeets_event_iff hrun]
  · have howns := run_states_iff (I := fun _ => True) (fun _ _ _ _ _ => trivial)
      (fun _ _ _ _ => throwsOwn_step) trivial hrun
    rw [howns, and_iff_right throwsOwn_start]

/-- A download that gets its reply, and one whose data connection times out behind it. -/
def quietRun : List Event :=
  [.connect 0, .call .retr, .connected 0, .answered "150 ".toList, .connect 1, .timeout 1, .look 1]

theorem ownErrors_quietRun : (run step .start quietRun).isSome = true ∧
    ∀ n t, run step .start (quietRun.take n) = some t → FlagRight t ∧ ThrowsOwn t := by
  have hrun : (run step .start quietRun).isSome = true := by decide
  obtain ⟨s, hs⟩ := Option.isSome_iff_exists.mp hrun
  exact ⟨hrun, (ownErrors_iff hs).1.mpr (by decide)⟩

/-- A call fails and leaves the flag up; a timeout between the calls sees it, and the next
call throws the exception. -/
def staleRun : List Event :=
  [.connect 0, .call .retr, .ioError, .timeout 0, .look 0, .create 0, .interrupt 0, .call .stor,
    .interruption]

theorem ownErrors_fails :
    (∃ t, run step .start (staleRun.take 3) = some t ∧ ¬ FlagRight t) ∧
      ∃ t, run step .start staleRun = some t ∧ t.thrown = [(2, none)] ∧ ¬ ThrowsOwn t := by
  refine ⟨⟨_, rfl, fun h => ?_⟩, ⟨_, rfl, rfl, fun h => ?_⟩⟩
  · exact h rfl rfl
  · exact absurd (h (2, none) (by decide)) (by decide)

end NetworkErrors
end Control
end ModpackInstaller
