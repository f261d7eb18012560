import ModpackInstaller.Library.Run

/-!
# Who reads which reply

Several threads of the installer read from one control connection: a
{lit}`chat` call reads the reply of the command it sent, and after
{lit}`150` the {lit}`WaitForComplete` thread of a transfer reads its final
reply.  Only the chat calls exclude each other, and the thread of a data channel
that times out interrupts the installer, so that a {lit}`chat` call can end
without its reply.  The lines carry, for the proof only, what they answer.

The connection stays up, and every reply is a single line.

Main results:

- Theorem {lit}`matched_of_quiet`: every reader gets the line that is meant for
  it when no command is sent while a line for an earlier one is still to be read.
- Theorem {lit}`mismatch_of_send`: a command that is sent at the end of such a run
  while a line is still to be read can get that line.
- Theorem {lit}`matched_fails`: the readme transfer followed by the question
  for the version.
-/

namespace ModpackInstaller
namespace Control

open Library

/-! ## The threads and the server -/

/-- What a line on the control connection answers. -/
inductive Owner where
  /-- The command of this number. -/
  | reply (n : Nat)
  /-- The transfer that the command of this number began. -/
  | final (n : Nat)
deriving DecidableEq, Repr

/-- A reply line. -/
structure Line where
  owner : Owner
  code : Nat
deriving DecidableEq, Repr

/-- Who reads a line. -/
inductive Reader where
  | chat (n : Nat)
  | waitForComplete (n : Nat)
deriving DecidableEq, Repr

/-- The line that is meant for a reader. -/
def Reader.expects : Reader → Owner
  | .chat n => .reply n
  | .waitForComplete n => .final n

/-- What the installer thread does on the control connection. -/
inductive Installer where
  | free
  /-- Inside `chat`, with the mutex; the command may begin a transfer. -/
  | chatting (n : Nat) (transfer : Bool)
  /-- On the semaphore that the completion thread of a transfer releases. -/
  | awaiting (n : Nat)
deriving DecidableEq, Repr

/-- Both ends of the control connection. -/
structure ControlState where
  /-- Commands sent so far. -/
  sent : Nat
  /-- Commands the server has not taken up yet. -/
  pending : List (Nat × Bool)
  /-- The transfer the server is busy with. -/
  serving : Option Nat
  /-- Lines that nobody has read yet. -/
  wire : List Line
  installer : Installer
  /-- The completion threads that have not read yet. -/
  waiting : List Nat
  reads : List (Reader × Line)
deriving DecidableEq, Repr

/-- The start: nothing has been sent. -/
def ControlState.start : ControlState :=
  ⟨0, [], none, [], .free, [], []⟩

/-- The steps of the threads and of the server. -/
inductive ControlEvent where
  /-- A `chat` call begins. -/
  | send (transfer : Bool)
  /-- The server takes up a command and answers it. -/
  | serve (code : Nat)
  /-- The server ends a transfer. -/
  | complete (code : Nat)
  /-- The `chat` call reads a line; after `150` the routine may wait for the
  completion thread. -/
  | chatReads (waits : Bool)
  /-- The `chat` call is interrupted, which is an `IOException` without a line. -/
  | chatInterrupted
  /-- The routine is interrupted on its semaphore, and returns. -/
  | waitInterrupted
  | completionReads (n : Nat)
deriving DecidableEq, Repr

/-- A `chat` call waits for its line. -/
def Installer.isChatting : Installer → Bool
  | .chatting _ _ => true
  | _ => false

/-- A routine waits for its completion thread. -/
def Installer.isAwaiting : Installer → Bool
  | .awaiting _ => true
  | _ => false

/-- When a step is possible. -/
def ControlEnabled (s : ControlState) : ControlEvent → Prop
  | .send _ => s.installer = .free
  | .serve _ => s.serving = none ∧ s.pending ≠ []
  | .complete _ => s.serving ≠ none
  | .chatReads _ => s.installer.isChatting ∧ s.wire ≠ []
  | .chatInterrupted => s.installer.isChatting
  | .waitInterrupted => s.installer.isAwaiting
  | .completionReads n => n ∈ s.waiting ∧ s.wire ≠ []

instance (s : ControlState) : (e : ControlEvent) → Decidable (ControlEnabled s e)
  | .send _ => inferInstanceAs (Decidable (_ = _))
  | .serve _ => inferInstanceAs (Decidable (_ ∧ _ ≠ _))
  | .complete _ => inferInstanceAs (Decidable (_ ≠ _))
  | .chatReads _ => inferInstanceAs (Decidable (_ ∧ _ ≠ _))
  | .chatInterrupted => inferInstanceAs (Decidable (_ = _))
  | .waitInterrupted => inferInstanceAs (Decidable (_ = _))
  | .completionReads _ => inferInstanceAs (Decidable (_ ∧ _ ≠ _))

/-- What a step does. -/
def controlEffect (s : ControlState) : ControlEvent → ControlState
  | .send transfer =>
    { s with
      sent := s.sent + 1
      pending := s.pending ++ [(s.sent, transfer)]
      installer := .chatting s.sent transfer }
  | .serve code =>
    match s.pending with
    | [] => s
    | (n, transfer) :: rest =>
      { s with
        pending := rest
        serving := if transfer = true ∧ code = 150 then some n else none
        wire := s.wire ++ [⟨.reply n, code⟩] }
  | .complete code =>
    match s.serving with
    | none => s
    | some n => { s with serving := none, wire := s.wire ++ [⟨.final n, code⟩] }
  | .chatReads waits =>
    match s.installer, s.wire with
    | .chatting n transfer, l :: rest =>
      let started := transfer = true ∧ l.code = 150
      { s with
        wire := rest
        installer := if started ∧ waits = true then .awaiting n else .free
        waiting := if started then s.waiting ++ [n] else s.waiting
        reads := s.reads ++ [(.chat n, l)] }
    | _, _ => s
  | .chatInterrupted => { s with installer := .free }
  | .waitInterrupted => { s with installer := .free }
  | .completionReads n =>
    match s.wire with
    | [] => s
    | l :: rest =>
      -- The listener wakes the routine whatever the line says.
      { s with
        wire := rest
        installer := if s.installer = .awaiting n then .free else s.installer
        waiting := s.waiting.erase n
        reads := s.reads ++ [(.waitForComplete n, l)] }

/-- One step of the threads and of the server. -/
def controlStep : ControlState → ControlEvent → Option ControlState :=
  guarded ControlEnabled controlEffect

/-- Every reader got the line that is meant for it. -/
def Matched (s : ControlState) : Prop :=
  ∀ read ∈ s.reads, read.2.owner = read.1.expects

instance : DecidablePred Matched :=
  fun s => inferInstanceAs (Decidable (∀ read ∈ s.reads, read.2.owner = read.1.expects))

/-- Every command has its replies, and they have been read. -/
def ControlState.Silent (s : ControlState) : Prop :=
  s.pending = [] ∧ s.serving = none ∧ s.wire = [] ∧ s.waiting = []

instance : DecidablePred ControlState.Silent :=
  fun s => inferInstanceAs (Decidable
    (s.pending = [] ∧ s.serving = none ∧ s.wire = [] ∧ s.waiting = []))

/-- No command is sent while a line for an earlier one is still to be read, be it by a
completion thread, or by nobody because the `chat` call was interrupted. -/
def Quiet (s : ControlState) : ControlEvent → Prop
  | .send _ => s.Silent
  | _ => True

instance (s : ControlState) : (e : ControlEvent) → Decidable (Quiet s e)
  | .send _ => inferInstanceAs (Decidable (ControlState.Silent s))
  | .serve _ => inferInstanceAs (Decidable True)
  | .complete _ => inferInstanceAs (Decidable True)
  | .chatReads _ => inferInstanceAs (Decidable True)
  | .chatInterrupted => inferInstanceAs (Decidable True)
  | .waitInterrupted => inferInstanceAs (Decidable True)
  | .completionReads _ => inferInstanceAs (Decidable True)

/-! ## Orderly states -/

/-- The states in which the next line is meant for the only thread that can
read it, or nobody reads. -/
inductive Orderly : ControlState → Prop
  | idle {sent : Nat} {reads : List (Reader × Line)} :
    Orderly ⟨sent, [], none, [], .free, [], reads⟩
  | asked {sent : Nat} {reads : List (Reader × Line)} (n : Nat) (transfer : Bool) :
    Orderly ⟨sent, [(n, transfer)], none, [], .chatting n transfer, [], reads⟩
  | answered {sent : Nat} {reads : List (Reader × Line)} (n : Nat) {transfer : Bool} {code : Nat}
    (h : ¬ (transfer = true ∧ code = 150)) :
    Orderly ⟨sent, [], none, [⟨.reply n, code⟩], .chatting n transfer, [], reads⟩
  | begun {sent : Nat} {reads : List (Reader × Line)} (n : Nat) :
    Orderly ⟨sent, [], some n, [⟨.reply n, 150⟩], .chatting n true, [], reads⟩
  /-- The transfer is over before its `150` has been read. -/
  | ended {sent : Nat} {reads : List (Reader × Line)} (n code : Nat) :
    Orderly ⟨sent, [], none, [⟨.reply n, 150⟩, ⟨.final n, code⟩], .chatting n true, [], reads⟩
  | transferring {sent : Nat} {reads : List (Reader × Line)} (n : Nat) {installer : Installer}
    (h : installer = .free ∨ installer = .awaiting n) :
    Orderly ⟨sent, [], some n, [], installer, [n], reads⟩
  | completed {sent : Nat} {reads : List (Reader × Line)} (n code : Nat) {installer : Installer}
    (h : installer = .free ∨ installer = .awaiting n) :
    Orderly ⟨sent, [], none, [⟨.final n, code⟩], installer, [n], reads⟩
  /-- A `chat` call was interrupted, and its line is still to come or to be read. -/
  | forsaken {sent : Nat} {pending : List (Nat × Bool)} {serving : Option Nat}
    {wire : List Line} {reads : List (Reader × Line)}
    (h : pending ≠ [] ∨ serving ≠ none ∨ wire ≠ []) :
    Orderly ⟨sent, pending, serving, wire, .free, [], reads⟩

/-- A command is sent when nothing is left of the earlier ones: the state is idle. -/
theorem orderly_send {s : ControlState} (hs : Orderly s) (transfer : Bool)
    (hsilent : s.Silent) (henabled : ControlEnabled s (.send transfer)) :
    Orderly (controlEffect s (.send transfer)) := by
  have hfree : s.installer = .free := henabled
  obtain ⟨hpending, hserving, hwire, hwaiting⟩ := hsilent
  cases hs with
  | idle => exact Orderly.asked _ transfer
  | asked n t => simp at hfree
  | answered n h => simp at hfree
  | begun n => simp at hfree
  | ended n code => simp at hfree
  | transferring n h => simp at hwaiting
  | completed n code h => simp at hwaiting
  | forsaken h =>
      rcases h with h | h | h
      · exact absurd hpending h
      · exact absurd hserving h
      · exact absurd hwire h

/-- The server takes up a command: the one that is asked for, or one that is forsaken. -/
theorem orderly_serve {s : ControlState} (hs : Orderly s) (code : Nat)
    (henabled : ControlEnabled s (.serve code)) : Orderly (controlEffect s (.serve code)) := by
  obtain ⟨hserving, hpending⟩ := henabled
  cases hs with
  | idle => simp at hpending
  | asked n transfer =>
      by_cases h : transfer = true ∧ code = 150
      · obtain ⟨rfl, rfl⟩ := h
        exact Orderly.begun n
      · simp only [controlEffect, if_neg h]
        exact Orderly.answered n h
  | answered n h => simp at hpending
  | begun n => simp at hserving
  | ended n code => simp at hpending
  | transferring n h => simp at hserving
  | completed n code h => simp at hpending
  | @forsaken sent pending serving wire reads h =>
      rcases pending with _ | ⟨⟨n, transfer⟩, pending⟩
      · simp at hpending
      · exact Orderly.forsaken (Or.inr (Or.inr (by simp)))

/-- The final line of a transfer comes behind its `150`, read or not. -/
theorem orderly_complete {s : ControlState} (hs : Orderly s) (code : Nat)
    (henabled : ControlEnabled s (.complete code)) :
    Orderly (controlEffect s (.complete code)) := by
  have hserving : s.serving ≠ none := henabled
  cases hs with
  | idle => simp at hserving
  | asked n t => simp at hserving
  | answered n h => simp at hserving
  | begun n => exact Orderly.ended n code
  | ended n code => simp at hserving
  | transferring n h => exact Orderly.completed n code h
  | completed n code h => simp at hserving
  | @forsaken sent pending serving wire reads h =>
      rcases serving with _ | n
      · simp at hserving
      · exact Orderly.forsaken (Or.inr (Or.inr (by simp)))

/-- The `chat` call reads the reply to its own command. -/
theorem orderly_chatReads {s : ControlState} (hs : Orderly s) (waits : Bool)
    (henabled : ControlEnabled s (.chatReads waits)) :
    Orderly (controlEffect s (.chatReads waits)) := by
  obtain ⟨hchatting, hwire⟩ := henabled
  cases hs with
  | idle => simp at hwire
  | asked n t => simp at hwire
  | answered n h =>
      simp only [controlEffect, if_neg h, if_neg fun h' => h (And.left h')]
      exact Orderly.idle
  | begun n =>
      cases waits with
      | false => exact Orderly.transferring n (Or.inl rfl)
      | true => exact Orderly.transferring n (Or.inr rfl)
  | ended n code =>
      cases waits with
      | false => exact Orderly.completed n code (Or.inl rfl)
      | true => exact Orderly.completed n code (Or.inr rfl)
  | transferring n h => simp at hwire
  | completed n code h => rcases h with rfl | rfl <;> simp [Installer.isChatting] at hchatting
  | forsaken h => simp [Installer.isChatting] at hchatting

/-- An interrupted `chat` call leaves its line behind. -/
theorem orderly_chatInterrupted {s : ControlState} (hs : Orderly s)
    (henabled : ControlEnabled s .chatInterrupted) :
    Orderly (controlEffect s .chatInterrupted) := by
  have hchatting : s.installer.isChatting = true := henabled
  cases hs with
  | idle => simp [Installer.isChatting] at hchatting
  | asked n t => exact Orderly.forsaken (Or.inl (by simp))
  | answered n h => exact Orderly.forsaken (Or.inr (Or.inr (by simp)))
  | begun n => exact Orderly.forsaken (Or.inr (Or.inl (by simp)))
  | ended n code => exact Orderly.forsaken (Or.inr (Or.inr (by simp)))
  | transferring n h => rcases h with rfl | rfl <;> simp [Installer.isChatting] at hchatting
  | completed n code h => rcases h with rfl | rfl <;> simp [Installer.isChatting] at hchatting
  | forsaken h => exact Orderly.forsaken h

/-- An interrupted wait leaves the completion thread to its line. -/
theorem orderly_waitInterrupted {s : ControlState} (hs : Orderly s)
    (henabled : ControlEnabled s .waitInterrupted) :
    Orderly (controlEffect s .waitInterrupted) := by
  have hawaiting : s.installer.isAwaiting = true := henabled
  cases hs with
  | idle => simp [Installer.isAwaiting] at hawaiting
  | asked n t => simp [Installer.isAwaiting] at hawaiting
  | answered n h => simp [Installer.isAwaiting] at hawaiting
  | begun n => simp [Installer.isAwaiting] at hawaiting
  | ended n code => simp [Installer.isAwaiting] at hawaiting
  | transferring n h => exact Orderly.transferring n (Or.inl rfl)
  | completed n code h => exact Orderly.completed n code (Or.inl rfl)
  | forsaken h => exact Orderly.forsaken h

/-- The completion thread reads the final line of its own transfer. -/
theorem orderly_completionReads {s : ControlState} (hs : Orderly s) (n : Nat)
    (henabled : ControlEnabled s (.completionReads n)) :
    Orderly (controlEffect s (.completionReads n)) := by
  obtain ⟨hn, hwire⟩ := henabled
  cases hs with
  | idle => simp at hn
  | asked n t => simp at hn
  | answered n h => simp at hn
  | begun n => simp at hn
  | ended n code => simp at hn
  | transferring n h => simp at hwire
  | completed m code h =>
      have hnm : n = m := by simpa using hn
      subst hnm
      rcases h with rfl | rfl
      · simpa [controlEffect] using Orderly.idle
      · simpa [controlEffect] using Orderly.idle
  | forsaken h => simp at hn

/-- An orderly step leads to an orderly state. -/
theorem orderly_step {s : ControlState} {e : ControlEvent} (hs : Orderly s) (he : Quiet s e)
    (henabled : ControlEnabled s e) : Orderly (controlEffect s e) := by
  cases e with
  | send transfer => exact orderly_send hs transfer he henabled
  | serve code => exact orderly_serve hs code henabled
  | complete code => exact orderly_complete hs code henabled
  | chatReads waits => exact orderly_chatReads hs waits henabled
  | chatInterrupted => exact orderly_chatInterrupted hs henabled
  | waitInterrupted => exact orderly_waitInterrupted hs henabled
  | completionReads n => exact orderly_completionReads hs n henabled

private theorem matched_append {s s' : ControlState} {read : Reader × Line} (h : Matched s)
    (hread : read.2.owner = read.1.expects) (hreads : s'.reads = s.reads ++ [read]) :
    Matched s' := by
  intro r hr
  rw [hreads, List.mem_append, List.mem_singleton] at hr
  rcases hr with hr | rfl
  · exact h r hr
  · exact hread

/-- In an orderly state whoever reads gets the line that is meant for it. -/
theorem matched_step {s : ControlState} {e : ControlEvent} (hs : Orderly s) (hmatched : Matched s)
    (henabled : ControlEnabled s e) : Matched (controlEffect s e) := by
  cases e with
  | send transfer => exact hmatched
  | serve code =>
      simp only [controlEffect]
      split
      · exact hmatched
      · exact hmatched
  | complete code =>
      simp only [controlEffect]
      split
      · exact hmatched
      · exact hmatched
  | chatReads waits =>
      obtain ⟨hchatting, hwire⟩ := henabled
      cases hs with
      | idle => simp at hwire
      | asked n t => simp at hwire
      | answered n h => exact matched_append hmatched rfl rfl
      | begun n => exact matched_append hmatched rfl rfl
      | ended n code => exact matched_append hmatched rfl rfl
      | transferring n h => simp at hwire
      | completed n code h => rcases h with rfl | rfl <;> simp [Installer.isChatting] at hchatting
      | forsaken h => simp [Installer.isChatting] at hchatting
  | chatInterrupted => exact hmatched
  | waitInterrupted => exact hmatched
  | completionReads n =>
      obtain ⟨hn, hwire⟩ := henabled
      cases hs with
      | idle => simp at hn
      | asked n t => simp at hn
      | answered n h => simp at hn
      | begun n => simp at hn
      | ended n code => simp at hn
      | transferring n h => simp at hwire
      | completed m code h =>
          have hnm : n = m := by simpa using hn
          subst hnm
          exact matched_append hmatched rfl rfl
      | forsaken h => simp at hn

/-- The installer thread is free only when every line has been read. -/
def Settled (s : ControlState) : Prop :=
  s.installer = .free → s.Silent

/-- The routine waits for its completion thread, and the installer is not interrupted. -/
def Patient : ControlEvent → Prop
  | .chatReads waits => waits = true
  | .chatInterrupted => False
  | .waitInterrupted => False
  | _ => True

/-- A routine that waits for its completion thread leaves no line behind. -/
theorem settled_step {s : ControlState} {e : ControlEvent} (hs : Orderly s) (hsettled : Settled s)
    (he : Patient e) (henabled : ControlEnabled s e) : Settled (controlEffect s e) := by
  cases e with
  | send transfer => simp [Settled, controlEffect]
  | serve code =>
      obtain ⟨hserving, hpending⟩ := henabled
      have hbusy : s.installer ≠ .free := fun hfree => hpending (hsettled hfree).1
      simp only [controlEffect]
      split
      · exact hsettled
      · exact fun hfree => absurd hfree hbusy
  | complete code =>
      have hserving : s.serving ≠ none := henabled
      have hbusy : s.installer ≠ .free := fun hfree => hserving (hsettled hfree).2.1
      simp only [controlEffect]
      split
      · exact hsettled
      · exact fun hfree => absurd hfree hbusy
  | chatReads waits =>
      have hwaits : waits = true := he
      subst hwaits
      obtain ⟨hchatting, hwire⟩ := henabled
      cases hs with
      | idle => simp at hwire
      | asked n t => simp at hwire
      | answered n h => simp [Settled, controlEffect, ControlState.Silent, h]
      | begun n => simp [Settled, controlEffect]
      | ended n code => simp [Settled, controlEffect]
      | transferring n h => simp at hwire
      | completed n code h => rcases h with rfl | rfl <;> simp [Installer.isChatting] at hchatting
      | forsaken h => simp [Installer.isChatting] at hchatting
  | chatInterrupted => exact he.elim
  | waitInterrupted => exact he.elim
  | completionReads n =>
      obtain ⟨hn, hwire⟩ := henabled
      cases hs with
      | idle => simp at hn
      | asked n t => simp at hn
      | answered n h => simp at hn
      | begun n => simp at hn
      | ended n code => simp at hn
      | transferring n h => simp at hwire
      | completed m code h =>
          have hnm : n = m := by simpa using hn
          simp [Settled, controlEffect, ControlState.Silent, hnm]
      | forsaken h => simp at hn

/-- What the server is still to say, and what it said and nobody has read, is about
commands that have been sent. -/
def Past (s : ControlState) : Prop :=
  (∀ p ∈ s.pending, p.1 < s.sent) ∧ ∀ l ∈ s.wire, ∀ n, l.owner = .reply n → n < s.sent

/-- Nothing is ever answered before it is sent. -/
theorem past_step {s : ControlState} {e : ControlEvent} (h : Past s) :
    Past (controlEffect s e) := by
  obtain ⟨hpending, hwire⟩ := h
  cases e with
  | send transfer =>
      refine ⟨fun p hp => ?_, fun l hl n hn => Nat.lt_succ_of_lt (hwire l hl n hn)⟩
      rcases List.mem_append.mp hp with hp | hp
      · exact Nat.lt_succ_of_lt (hpending p hp)
      · rw [List.mem_singleton.mp hp]
        exact Nat.lt_succ_self _
  | serve code =>
      simp only [controlEffect]
      split
      · exact ⟨hpending, hwire⟩
      · rename_i n transfer rest hrest
        rw [hrest] at hpending
        refine ⟨fun p hp => hpending p (List.mem_cons_of_mem _ hp), fun l hl m hm => ?_⟩
        rcases List.mem_append.mp hl with hl | hl
        · exact hwire l hl m hm
        · rw [List.mem_singleton.mp hl, Owner.reply.injEq] at hm
          rw [← hm]
          exact hpending (n, transfer) List.mem_cons_self
  | complete code =>
      simp only [controlEffect]
      split
      · exact ⟨hpending, hwire⟩
      · refine ⟨hpending, fun l hl m hm => ?_⟩
        rcases List.mem_append.mp hl with hl | hl
        · exact hwire l hl m hm
        · rw [List.mem_singleton.mp hl] at hm
          cases hm
  | chatReads waits =>
      simp only [controlEffect]
      split
      · rename_i l rest _ hrest
        rw [hrest] at hwire
        exact ⟨hpending, fun l hl => hwire l (List.mem_cons_of_mem _ hl)⟩
      · exact ⟨hpending, hwire⟩
  | chatInterrupted => exact ⟨hpending, hwire⟩
  | waitInterrupted => exact ⟨hpending, hwire⟩
  | completionReads n =>
      simp only [controlEffect]
      split
      · exact ⟨hpending, hwire⟩
      · rename_i l rest hrest
        rw [hrest] at hwire
        exact ⟨hpending, fun l hl => hwire l (List.mem_cons_of_mem _ hl)⟩

/-! ## Runs -/

/-- Every reader gets the line that is meant for it, in every run in which no
command is sent while a line for an earlier one is still to be read. -/
theorem matched_of_quiet {es : List ControlEvent} {s' : ControlState}
    (hmeets : RunMeets controlStep Quiet .start es)
    (hrun : run controlStep .start es = some s') : Matched s' := by
  have hstart : Orderly .start ∧ Matched .start := ⟨Orderly.idle, by decide⟩
  refine (guarded_invariant (P := fun s => Orderly s ∧ Matched s) ?_ hstart hmeets hrun).2
  rintro s e ⟨hs, hmatched⟩ he henabled
  exact ⟨orderly_step hs he henabled, matched_step hs hmatched henabled⟩

/-- Routines that wait for their completion threads and are not interrupted never send a
command too early. -/
theorem matched_of_waits {es : List ControlEvent} {s' : ControlState}
    (hwaits : ∀ e ∈ es, Patient e)
    (hrun : run controlStep .start es = some s') : Matched s' := by
  have hstart : Orderly .start ∧ Matched .start ∧ Settled .start :=
    ⟨Orderly.idle, by decide, fun _ => by decide⟩
  have hmeets : RunMeets controlStep (fun _ e => Patient e) .start es :=
    runMeets_of_forall (fun e he _ => hwaits e he) _
  refine (guarded_invariant (P := fun s => Orderly s ∧ Matched s ∧ Settled s) ?_ hstart hmeets
    hrun).2.1
  rintro s e ⟨hs, hmatched, hsettled⟩ he henabled
  have hquiet : Quiet s e := by
    cases e with
    | send transfer => exact hsettled henabled
    | _ => trivial
  exact ⟨orderly_step hs hquiet henabled, matched_step hs hmatched henabled,
    settled_step hs hsettled he henabled⟩

/-- A reader that is to get the line of another one does not get its own. -/
theorem not_matched_of_reads {s : ControlState} {reader : Reader} {l : Line}
    (h : (reader, l) ∈ s.reads) (howner : l.owner ≠ reader.expects) : ¬ Matched s :=
  fun hmatched => howner (hmatched _ h)

/-- A command that is sent in an orderly state while a line for an earlier one is still
to be read can get that line. -/
theorem mismatch_of_orderly {s : ControlState} (hs : Orderly s) (hpast : Past s)
    (hloud : ¬ s.Silent) (hfree : s.installer = .free) (transfer : Bool) :
    ∃ es s', run controlStep s (.send transfer :: es) = some s' ∧ ¬ Matched s' := by
  cases hs with
  | idle => exact absurd ⟨rfl, rfl, rfl, rfl⟩ hloud
  | asked n t => simp at hfree
  | answered n h => simp at hfree
  | begun n => simp at hfree
  | ended n code => simp at hfree
  | transferring n h =>
      have hinstaller : _ = Installer.free := hfree
      subst hinstaller
      refine ⟨[.complete 226, .chatReads false], _, rfl, ?_⟩
      exact not_matched_of_reads (List.mem_append_right _ (List.mem_singleton_self _)) nofun
  | completed n code h =>
      have hinstaller : _ = Installer.free := hfree
      subst hinstaller
      refine ⟨[.chatReads false], _, rfl, ?_⟩
      exact not_matched_of_reads (List.mem_append_right _ (List.mem_singleton_self _)) nofun
  | @forsaken sent pending serving wire reads h =>
      rcases wire with _ | ⟨l, wire⟩
      · rcases serving with _ | n
        · rcases pending with _ | ⟨⟨n, t⟩, pending⟩
          · simp at h
          -- The server answers the earlier command first.
          · refine ⟨[.serve 200, .chatReads false], _, rfl, ?_⟩
            have hn : n < sent := hpast.1 (n, t) List.mem_cons_self
            refine not_matched_of_reads (List.mem_append_right _ (List.mem_singleton_self _)) ?_
            intro howner
            have hsame : n = sent := Owner.reply.inj howner
            omega
        · refine ⟨[.complete 226, .chatReads false], _, rfl, ?_⟩
          exact not_matched_of_reads (List.mem_append_right _ (List.mem_singleton_self _)) nofun
      · refine ⟨[.chatReads false], _, rfl, ?_⟩
        refine not_matched_of_reads (List.mem_append_right _ (List.mem_singleton_self _)) ?_
        exact fun howner => absurd (hpast.2 l List.mem_cons_self sent howner) (Nat.lt_irrefl _)

/-- Behind every run of quiet steps, a command that is sent while a line for an earlier one
is still to be read can get that line. -/
theorem mismatch_of_send {es : List ControlEvent} {s : ControlState}
    (hmeets : RunMeets controlStep Quiet .start es) (hrun : run controlStep .start es = some s)
    (hloud : ¬ s.Silent) (hfree : s.installer = .free) (transfer : Bool) :
    ∃ es' s', run controlStep .start (es ++ .send transfer :: es') = some s' ∧ ¬ Matched s' := by
  have hstart : Orderly .start ∧ Past .start := ⟨Orderly.idle, nofun, nofun⟩
  obtain ⟨hs, hpast⟩ := guarded_invariant (P := fun s => Orderly s ∧ Past s)
    (fun _ _ h he henabled => ⟨orderly_step h.1 he henabled, past_step h.2⟩) hstart hmeets hrun
  obtain ⟨es', s', hrest, hmismatch⟩ := mismatch_of_orderly hs hpast hloud hfree transfer
  refine ⟨es', s', ?_, hmismatch⟩
  rw [run_append, hrun, Option.bind_some, hrest]

/-- A download, and then the question for the version. -/
theorem matched_download_version :
    Matched
      ⟨2, [], none, [], .free, [],
        [(.chat 0, ⟨.reply 0, 150⟩), (.waitForComplete 0, ⟨.final 0, 226⟩),
          (.chat 1, ⟨.reply 1, 216⟩)]⟩ := by
  have hmeets : RunMeets controlStep Quiet .start [.send true, .serve 150, .complete 226,
      .chatReads true, .completionReads 0, .send false, .serve 216, .chatReads false] := by decide
  exact matched_of_quiet hmeets (by decide)

/-- The readme is fetched without waiting for its completion thread, and then
the version is asked for: the question gets the final reply of the transfer.  A transfer
is asked for and the installer is interrupted: the next command gets the reply. -/
theorem matched_fails :
    (∃ s', run controlStep .start [.send true, .serve 150, .chatReads false, .send false,
        .complete 226, .chatReads false, .serve 216, .completionReads 0] = some s' ∧
      s'.reads = [(.chat 0, ⟨.reply 0, 150⟩), (.chat 1, ⟨.final 0, 226⟩),
        (.waitForComplete 0, ⟨.reply 1, 216⟩)] ∧ ¬ Matched s') ∧
    ∃ s', run controlStep .start [.send true, .chatInterrupted, .send false, .serve 425,
        .chatReads false] = some s' ∧
      s'.reads = [(.chat 1, ⟨.reply 0, 425⟩)] ∧ ¬ Matched s' :=
  ⟨⟨_, rfl, rfl, by decide⟩, ⟨_, rfl, rfl, by decide⟩⟩

end Control
end ModpackInstaller
