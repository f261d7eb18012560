import Mathlib.Data.Finset.Basic
import ModpackInstaller.Library.Run
import ModpackInstaller.Text

/-!
# The receiving thread of the control connection

{lit}`FtpCommandChannelReader.java`: a thread of its own fills a buffer from the
socket, and callers of {lit}`read` wait on {lit}`mutex` for it.  A synchronized
block is one step; a caller that is about to wait has the monitor between its
test and its {lit}`wait`.  The thread leaves its loop and sets {lit}`closed`
outside of the monitor, so both are steps of their own.

Main results:

- Theorem {lit}`quiet_step`: behind the last notification nobody waits, over every
  prompt step.
- Theorem {lit}`served_of_prompt`: over every run of prompt steps a finished
  thread leaves nobody waiting, and every later call gets data or an exception.
- Theorem {lit}`lost_of_not_prompt`: behind any other step the thread can finish
  and leave somebody waiting.
-/

namespace ModpackInstaller
namespace Control
namespace Receiver

open Library

/-! ## The monitor -/

/-- Where the receiving thread is. -/
inductive Phase where
  /-- In its loop, with the monitor free for others while it reads. -/
  | reading
  /-- Behind the loop. -/
  | closing
  /-- Behind `closed = true`. -/
  | finished
deriving DecidableEq, Repr

/-- The reader with the callers that are inside `read`. -/
structure ReaderState (Caller : Type) where
  receiver : Phase
  sb : Text
  closed : Bool
  /-- The caller between its test and `mutex.wait`. -/
  owner : Option Caller
  waiting : Finset Caller
  /-- The callers that were woken and wait for the monitor. -/
  notified : Finset Caller

/-- What a call of `read` comes to. -/
inductive Answer where
  | chars (t : Text)
  | ioException
deriving DecidableEq, Repr

inductive ReaderEvent (Caller : Type) where
  /-- `isr.read` returns characters; `notify` takes this caller. -/
  | receive (data : Text) (woken : Option Caller)
  /-- `isr.read` returns -1. -/
  | endOfStream (woken : Option Caller)
  /-- `isr.read` throws. -/
  | fail
  /-- The write to `closed`. -/
  | finish
  /-- A caller enters the monitor. -/
  | enter (c : Caller) (len : Nat)
  /-- The caller that is about to wait gives the monitor up. -/
  | wait (c : Caller)
  /-- A woken caller has the monitor again. -/
  | wake (c : Caller) (len : Nat)
  /-- A caller wakes up without a notification. -/
  | spurious (c : Caller)
  | interrupt (c : Caller)

variable {Caller : Type} [DecidableEq Caller]

/-- The reader behind `start`. -/
def start : ReaderState Caller where
  receiver := .reading
  sb := []
  closed := false
  owner := none
  waiting := ∅
  notified := ∅

/-- `mutex.notify` -/
def ReaderState.notify (s : ReaderState Caller) : Option Caller → ReaderState Caller
  | none => s
  | some c => { s with waiting := s.waiting.erase c, notified := insert c s.notified }

/-- `notify` takes one of those that wait, when there is one. -/
def Chosen (s : ReaderState Caller) : Option Caller → Prop
  | none => s.waiting = ∅
  | some c => c ∈ s.waiting

instance (s : ReaderState Caller) (woken : Option Caller) : Decidable (Chosen s woken) :=
  match woken with
  | none => inferInstanceAs (Decidable (s.waiting = ∅))
  | some c => inferInstanceAs (Decidable (c ∈ s.waiting))

/-- What `read` comes to without a wait; `none` when the caller has to wait. -/
def readAnswer (s : ReaderState Caller) (len : Nat) : Option Answer :=
  if s.sb = [] then
    if s.closed then some .ioException else none
  else some (.chars (s.sb.take len))

def ReaderEnabled (s : ReaderState Caller) : ReaderEvent Caller → Prop
  | .receive _ woken => s.receiver = .reading ∧ s.owner = none ∧ Chosen s woken
  | .endOfStream woken => s.receiver = .reading ∧ s.owner = none ∧ Chosen s woken
  | .fail => s.receiver = .reading
  | .finish => s.receiver = .closing
  | .enter c _ => s.owner = none ∧ c ∉ s.waiting ∧ c ∉ s.notified
  | .wait c => s.owner = some c
  | .wake c _ => s.owner = none ∧ c ∈ s.notified
  | .spurious c => c ∈ s.waiting
  | .interrupt c => s.owner = some c ∨ (s.owner = none ∧ (c ∈ s.waiting ∨ c ∈ s.notified))

instance (s : ReaderState Caller) : (e : ReaderEvent Caller) → Decidable (ReaderEnabled s e)
  | .receive _ _ => inferInstanceAs (Decidable (_ ∧ _ ∧ _))
  | .endOfStream _ => inferInstanceAs (Decidable (_ ∧ _ ∧ _))
  | .fail => inferInstanceAs (Decidable (_ = _))
  | .finish => inferInstanceAs (Decidable (_ = _))
  | .enter _ _ => inferInstanceAs (Decidable (_ ∧ _ ∧ _))
  | .wait _ => inferInstanceAs (Decidable (_ = _))
  | .wake _ _ => inferInstanceAs (Decidable (_ ∧ _))
  | .spurious _ => inferInstanceAs (Decidable (_ ∈ _))
  | .interrupt _ => inferInstanceAs (Decidable (_ ∨ _))

def readerEffect (s : ReaderState Caller) : ReaderEvent Caller → ReaderState Caller
  | .receive data woken => { s.notify woken with sb := s.sb ++ data }
  | .endOfStream woken => { s.notify woken with receiver := .closing }
  | .fail => { s with receiver := .closing }
  | .finish => { s with receiver := .finished, closed := true }
  | .enter c len =>
    match readAnswer s len with
    | none => { s with owner := some c }
    | some _ => { s with sb := s.sb.drop len }
  | .wait c => { s with owner := none, waiting := insert c s.waiting }
  | .wake c len => { s with notified := s.notified.erase c, sb := s.sb.drop len }
  | .spurious c => { s with waiting := s.waiting.erase c, notified := insert c s.notified }
  | .interrupt c =>
    { s with
      owner := none
      waiting := s.waiting.erase c
      notified := s.notified.erase c }

def readerStep : ReaderState Caller → ReaderEvent Caller → Option (ReaderState Caller) :=
  guarded ReaderEnabled readerEffect

/-! ## Nobody is left waiting -/

/-- When the thread has finished, no caller waits or is about to, and every call
gets data or an exception. -/
def Served (s : ReaderState Caller) : Prop :=
  s.receiver = .finished →
    s.owner = none ∧ s.waiting = ∅ ∧
      ∀ len, 0 < len → ∃ a ∈ readAnswer s len, a = .ioException ∨ ∃ t ≠ [], a = .chars t

/-- The step leaves nobody waiting behind the loop: no exception while a caller
waits or is about to, no end of the stream while two of them wait, and no caller
that has to wait between the loop and `closed`. -/
def Prompt (s : ReaderState Caller) : ReaderEvent Caller → Prop
  | .endOfStream woken => ∀ c ∈ s.waiting, woken = some c
  | .fail => s.owner = none ∧ s.waiting = ∅
  | .enter _ _ => s.receiver = .closing → s.sb ≠ []
  | _ => True

instance (s : ReaderState Caller) : (e : ReaderEvent Caller) → Decidable (Prompt s e)
  | .endOfStream _ => inferInstanceAs (Decidable (∀ c ∈ s.waiting, _ = _))
  | .fail => inferInstanceAs (Decidable (_ ∧ _))
  | .enter _ _ => inferInstanceAs (Decidable (_ → _))
  | .receive _ _ => inferInstanceAs (Decidable True)
  | .finish => inferInstanceAs (Decidable True)
  | .wait _ => inferInstanceAs (Decidable True)
  | .wake _ _ => inferInstanceAs (Decidable True)
  | .spurious _ => inferInstanceAs (Decidable True)
  | .interrupt _ => inferInstanceAs (Decidable True)

/-- Behind its loop the thread has left nobody waiting, and `closed` is set at its
end. -/
structure Quiet (s : ReaderState Caller) : Prop where
  alone : s.receiver ≠ .reading → s.owner = none ∧ s.waiting = ∅
  closed : s.closed = true ↔ s.receiver = .finished

/-! ## One step -/

section Steps

variable {s : ReaderState Caller}

@[simp] theorem notify_receiver (woken : Option Caller) :
    (s.notify woken).receiver = s.receiver := by
  cases woken <;> rfl

@[simp] theorem notify_owner (woken : Option Caller) : (s.notify woken).owner = s.owner := by
  cases woken <;> rfl

@[simp] theorem notify_closed (woken : Option Caller) : (s.notify woken).closed = s.closed := by
  cases woken <;> rfl

@[simp] theorem notify_sb (woken : Option Caller) : (s.notify woken).sb = s.sb := by
  cases woken <;> rfl

/-- A notification that reaches every waiting caller leaves none. -/
theorem notify_waiting {woken : Option Caller} (hchosen : Chosen s woken)
    (hall : ∀ c ∈ s.waiting, woken = some c) : (s.notify woken).waiting = ∅ := by
  cases woken with
  | none => exact hchosen
  | some c =>
      refine Finset.eq_empty_of_forall_notMem fun c' hc' => ?_
      obtain ⟨hne, hmem⟩ := Finset.mem_erase.mp hc'
      exact hne (Option.some.inj (hall c' hmem)).symm

/-- A prompt step leaves nobody waiting behind the loop. -/
theorem quiet_step (hs : Quiet s) {e : ReaderEvent Caller} (hprompt : Prompt s e)
    (henabled : ReaderEnabled s e) : Quiet (readerEffect s e) := by
  obtain ⟨halone, hclosed⟩ := hs
  cases e with
  | receive data woken =>
      obtain ⟨hreading, -, -⟩ := henabled
      refine ⟨fun hnot => ?_, ?_⟩
      · simp [readerEffect, hreading] at hnot
      · simpa [readerEffect] using hclosed
  | endOfStream woken =>
      obtain ⟨hreading, howner, hchosen⟩ := henabled
      refine ⟨fun _ => ⟨?_, notify_waiting hchosen hprompt⟩, ?_⟩
      · simpa [readerEffect] using howner
      · simpa [readerEffect, hreading] using hclosed
  | fail =>
      have hreading : s.receiver = .reading := henabled
      exact ⟨fun _ => hprompt, by simpa [readerEffect, hreading] using hclosed⟩
  | finish =>
      have hclosing : s.receiver = .closing := henabled
      exact ⟨fun _ => halone (by simp [hclosing]), by simp [readerEffect]⟩
  | enter c len =>
      cases hanswer : readAnswer s len with
      | some a =>
          simp only [readerEffect, hanswer]
          exact ⟨halone, hclosed⟩
      | none =>
          simp only [readerEffect, hanswer]
          have hempty : s.sb = [] := by
            by_contra hne
            simp [readAnswer, hne] at hanswer
          have hopen : ¬ s.closed = true := fun h => by simp [readAnswer, hempty, h] at hanswer
          refine ⟨fun hnot => ?_, hclosed⟩
          -- A caller that has to wait comes before the end of the loop.
          cases hreceiver : s.receiver with
          | reading => exact absurd hreceiver hnot
          | closing => exact absurd hempty (hprompt hreceiver)
          | finished => exact absurd (hclosed.mpr hreceiver) hopen
  | wait c =>
      refine ⟨fun hnot => ?_, hclosed⟩
      have howner : s.owner = some c := henabled
      rw [(halone hnot).1] at howner
      cases howner
  | wake c len => exact ⟨halone, hclosed⟩
  | spurious c =>
      refine ⟨fun hnot => ⟨(halone hnot).1, ?_⟩, hclosed⟩
      have hwaiting : s.waiting = ∅ := (halone hnot).2
      simp [readerEffect, hwaiting]
  | interrupt c =>
      refine ⟨fun hnot => ⟨rfl, ?_⟩, hclosed⟩
      have hwaiting : s.waiting = ∅ := (halone hnot).2
      simp [readerEffect, hwaiting]

omit [DecidableEq Caller] in
/-- A finished thread of a quiet reader has left nobody waiting. -/
theorem Quiet.served (hs : Quiet s) : Served s := by
  intro hfinished
  obtain ⟨howner, hwaiting⟩ := hs.alone (by simp [hfinished])
  refine ⟨howner, hwaiting, fun len hlen => ?_⟩
  have hclosed : s.closed = true := hs.closed.mpr hfinished
  by_cases hempty : s.sb = []
  · exact ⟨.ioException, by simp [readAnswer, hempty, hclosed], Or.inl rfl⟩
  · refine ⟨.chars (s.sb.take len), by simp [readAnswer, hempty], Or.inr ⟨_, ?_, rfl⟩⟩
    simp [List.take_eq_nil_iff, hempty, Nat.ne_of_gt hlen]

end Steps

/-! ## Runs -/

omit [DecidableEq Caller] in
theorem quiet_start : Quiet (start : ReaderState Caller) :=
  ⟨fun h => absurd rfl h, by simp [start]⟩

/-- Over every run of prompt steps a finished thread has left nobody waiting, and
every later call gets data or an exception. -/
theorem served_of_prompt {events : List (ReaderEvent Caller)} {s : ReaderState Caller}
    (hprompt : RunMeets readerStep Prompt start events)
    (hrun : run readerStep start events = some s) : Served s := by
  have hquiet : Quiet s := guarded_invariant
    (fun s e (hs : Quiet s) hmeets henabled => quiet_step hs hmeets henabled)
    quiet_start hprompt hrun
  exact hquiet.served

/-- A caller waits, the stream ends, and the woken caller calls again when the
thread has finished. -/
theorem served_at_end :
    ∃ s, run readerStep (start : ReaderState Nat)
      [.enter 0 80, .wait 0, .endOfStream (some 0), .wake 0 80, .finish] = some s ∧ Served s := by
  refine ⟨_, rfl, ?_⟩
  exact @served_of_prompt Nat _ [.enter 0 80, .wait 0, .endOfStream (some 0), .wake 0 80, .finish] _
    (by decide) rfl

/-- A caller that waits while the connection fails waits for ever. -/
theorem served_fails :
    ¬ ∀ (events : List (ReaderEvent Nat)) (s : ReaderState Nat),
      run readerStep start events = some s → Served s := by
  intro h
  have hserved := h [.enter 0 80, .wait 0, .fail, .finish] _ rfl
  have hwaiting := (hserved rfl).2.1
  revert hwaiting
  decide

/-- `closed` is set by the end of the thread and by nothing else. -/
theorem closed_iff_finished {events : List (ReaderEvent Caller)} {s : ReaderState Caller}
    (hrun : run readerStep start events = some s) : s.closed = true ↔ s.receiver = .finished := by
  refine guarded_invariant_of_step
    (P := fun s : ReaderState Caller => s.closed = true ↔ s.receiver = .finished)
    (fun s e hs henabled => ?_) (by simp [start]) hrun
  cases e with
  | receive data woken => simpa [readerEffect] using hs
  | endOfStream woken => simpa [readerEffect, henabled.1] using hs
  | fail =>
      have hreading : s.receiver = .reading := henabled
      simpa [readerEffect, hreading] using hs
  | finish => simp [readerEffect]
  | enter c len =>
      simp only [readerEffect]
      split <;> exact hs
  | wait c => exact hs
  | wake c len => exact hs
  | spurious c => exact hs
  | interrupt c => exact hs

/-- Behind a step of a run that is not prompt the thread can finish and leave
somebody waiting. -/
theorem lost_of_not_prompt {events : List (ReaderEvent Caller)} {s s' : ReaderState Caller}
    {e : ReaderEvent Caller} (hrun : run readerStep start events = some s)
    (hstep : readerStep s e = some s') (hprompt : ¬ Prompt s e) :
    ∃ s'', readerStep s' .finish = some s'' ∧ ¬ Served s'' := by
  obtain ⟨henabled, rfl⟩ := guarded_eq_some.mp hstep
  have hfinish {s' : ReaderState Caller} (hclosing : s'.receiver = .closing)
      (hsomebody : s'.owner ≠ none ∨ s'.waiting ≠ ∅) :
      ∃ s'', readerStep s' .finish = some s'' ∧ ¬ Served s'' := by
    refine ⟨readerEffect s' .finish, guarded_eq_some.mpr ⟨hclosing, rfl⟩, fun hserved => ?_⟩
    obtain ⟨howner, hwaiting, -⟩ := hserved rfl
    rcases hsomebody with h | h
    · exact h howner
    · exact h hwaiting
  cases e with
  | endOfStream woken =>
      simp only [Prompt, not_forall] at hprompt
      obtain ⟨c, hc, hne⟩ := hprompt
      refine hfinish rfl (Or.inr ?_)
      cases woken with
      | none => exact Finset.ne_empty_of_mem hc
      | some c' =>
          refine Finset.ne_empty_of_mem (Finset.mem_erase.mpr ⟨?_, hc⟩)
          rintro rfl
          exact hne rfl
  | fail =>
      refine hfinish rfl ?_
      by_contra hnobody
      rw [not_or, not_not, not_not] at hnobody
      exact hprompt hnobody
  | enter c len =>
      simp only [Prompt, Classical.not_imp, not_not] at hprompt
      obtain ⟨hclosing, hempty⟩ := hprompt
      have hopen : s.closed = false := by
        rw [← Bool.not_eq_true, closed_iff_finished hrun, hclosing]
        decide
      have hanswer : readAnswer s len = none := by simp [readAnswer, hempty, hopen]
      simp only [readerEffect, hanswer]
      exact hfinish hclosing (Or.inl (by simp))
  | receive data woken => exact absurd trivial hprompt
  | finish => exact absurd trivial hprompt
  | wait c => exact absurd trivial hprompt
  | wake c len => exact absurd trivial hprompt
  | spurious c => exact absurd trivial hprompt
  | interrupt c => exact absurd trivial hprompt

end Receiver
end Control
end ModpackInstaller
