import Mathlib.Tactic.Common

/-!
# Routines that log events and may throw

A traced routine has the events up to its end, and a result or an exception.
Behind an exception nothing more happens.  A routine that has to announce its
outcome once is looked at from its end: what is asked of the rest depends on
what happened so far.

Main results:

- Theorem {lit}`announcesOnce_andThen`: a silent routine in front of another one
  must return, and its events count for what the other one may announce.
- Theorem {lit}`announcesOnce_emit`: the announcement itself.
-/

namespace ModpackInstaller
namespace Library

/-- The events of a routine, and its result or exception. -/
structure Traced (ε φ α : Type*) where
  events : List ε
  result : Except φ α

namespace Traced

variable {ε φ α β ι : Type*}

/-- A routine without events. -/
def call (result : Except φ α) : Traced ε φ α := ⟨[], result⟩

/-- One event. -/
def emit (e : ε) : Traced ε φ Unit := ⟨[e], .ok ()⟩

/-- One routine after another, up to an exception. -/
def andThen (x : Traced ε φ α) (f : α → Traced ε φ β) : Traced ε φ β :=
  match x.result with
  | .error e => ⟨x.events, .error e⟩
  | .ok a => ⟨x.events ++ (f a).events, (f a).result⟩

/-- An exception of one kind ends the routine as if it had returned. -/
def catching (caught : φ → Bool) (x : Traced ε φ Unit) : Traced ε φ Unit :=
  match x.result with
  | .error e => if caught e then ⟨x.events, .ok ()⟩ else x
  | .ok _ => x

@[simp] theorem events_call (result : Except φ α) : (call result : Traced ε φ α).events = [] := rfl

@[simp] theorem result_call (result : Except φ α) :
    (call result : Traced ε φ α).result = result := rfl

@[simp] theorem events_catching (caught : φ → Bool) (x : Traced ε φ Unit) :
    (catching caught x).events = x.events := by
  unfold catching
  split
  · split <;> rfl
  · rfl

/-- The events of both parts, when the first one returns. -/
theorem andThen_of_ok {x : Traced ε φ α} {a : α} (h : x.result = .ok a) (f : α → Traced ε φ β) :
    x.andThen f = ⟨x.events ++ (f a).events, (f a).result⟩ := by
  simp only [andThen, h]

/-- The events of the first part only, when it throws. -/
theorem andThen_of_error {x : Traced ε φ α} {e : φ} (h : x.result = .error e)
    (f : α → Traced ε φ β) : x.andThen f = ⟨x.events, .error e⟩ := by
  simp only [andThen, h]

@[simp] theorem call_ok_andThen (a : α) (f : α → Traced ε φ β) :
    (call (.ok a)).andThen f = f a := rfl

/-- Parts can be put together in either order. -/
theorem andThen_assoc {γ : Type*} (x : Traced ε φ α) (f : α → Traced ε φ β)
    (g : β → Traced ε φ γ) :
    (x.andThen f).andThen g = x.andThen fun a => (f a).andThen g := by
  cases hx : x.result with
  | error e => simp only [andThen, hx]
  | ok a =>
      rw [andThen_of_ok hx, andThen_of_ok hx]
      cases hf : (f a).result with
      | error e => simp only [andThen, hf]
      | ok b => simp only [andThen, hf, List.append_assoc]

/-! ## Announcing once -/

section Announcing

variable (mark : ε → Option ι) (good : ι → Prop) (fine : ε → Prop)

/-- The routine announces its outcome once, and a good one only when everything so far
and all its events are fine. -/
def AnnouncesOnce (soFar : Prop) (x : Traced ε φ α) : Prop :=
  ∃ i, x.events.filterMap mark = [i] ∧ (good i → soFar ∧ ∀ e ∈ x.events, fine e)

variable {mark good fine} {soFar : Prop}

/-- A routine without an announcement in it does not announce. -/
theorem not_announcesOnce {x : Traced ε φ α} (hsilent : x.events.filterMap mark = []) :
    ¬ AnnouncesOnce mark good fine soFar x := by
  rintro ⟨i, hi, -⟩
  rw [hsilent] at hi
  cases hi

/-- An announcement alone. -/
theorem announcesOnce_emit {e : ε} {i : ι} (hmark : mark e = some i) :
    AnnouncesOnce mark good fine soFar (emit e : Traced ε φ Unit) ↔
      (good i → soFar ∧ fine e) := by
  simp [AnnouncesOnce, emit, hmark]

/-- A handler adds no announcement. -/
theorem announcesOnce_catching (caught : φ → Bool) (x : Traced ε φ Unit) :
    AnnouncesOnce mark good fine soFar (catching caught x) ↔
      AnnouncesOnce mark good fine soFar x := by
  rw [AnnouncesOnce, events_catching, AnnouncesOnce]

/-- Silent routines one after the other are silent. -/
theorem silent_andThen {x : Traced ε φ α} {f : α → Traced ε φ β}
    (hx : x.events.filterMap mark = []) (hf : ∀ a, (f a).events.filterMap mark = []) :
    (x.andThen f).events.filterMap mark = [] := by
  cases hres : x.result with
  | error e => rw [andThen_of_error hres, hx]
  | ok a => rw [andThen_of_ok hres, List.filterMap_append, hx, hf a, List.append_nil]

/-- A silent routine in front of another one must return, and its events count for what
the other one may announce. -/
theorem announcesOnce_andThen {x : Traced ε φ α} (hsilent : x.events.filterMap mark = [])
    (f : α → Traced ε φ β) :
    AnnouncesOnce mark good fine soFar (x.andThen f) ↔
      ∃ a, x.result = .ok a ∧
        AnnouncesOnce mark good fine (soFar ∧ ∀ e ∈ x.events, fine e) (f a) := by
  cases hx : x.result with
  | error e =>
      rw [andThen_of_error hx]
      refine iff_of_false (not_announcesOnce hsilent) ?_
      rintro ⟨a, ha, -⟩
      cases ha
  | ok a =>
      rw [andThen_of_ok hx]
      simp only [Except.ok.injEq, exists_eq_left', AnnouncesOnce, List.filterMap_append, hsilent,
        List.nil_append, List.forall_mem_append, and_assoc]

/-- Behind a call that returns. -/
theorem announcesOnce_call_andThen (result : Except φ α) (f : α → Traced ε φ β) :
    AnnouncesOnce mark good fine soFar ((call result).andThen f) ↔
      ∃ a, result = .ok a ∧ AnnouncesOnce mark good fine soFar (f a) := by
  rw [announcesOnce_andThen rfl]
  simp

end Announcing

end Traced
end Library
end ModpackInstaller
