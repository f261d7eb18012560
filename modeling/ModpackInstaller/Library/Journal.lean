import ModpackInstaller.Library.Processes

/-!
# Calls with a journal

A process makes calls to a kernel.  Every call is put down in a journal with what came back,
the newest one in front.  A policy says which call is permitted behind which journal, and what
a permitted call keeps of the kernel is kept by all of them.

Main results:

- Theorem {lit}`Sound.call`: a call that the policy permits leaves a sound journal.
- Theorem {lit}`Follows.invariant`: what each permitted call keeps of journal and kernel holds
  at the end of a sound journal.
- Theorem {lit}`meets_invoke`, Theorem {lit}`meets_inMind`, Theorem {lit}`meets_remember`: the
  rules for the steps of such a process.
-/

namespace ModpackInstaller
namespace Library

/-- A call with what came back. -/
structure Deed {Call : Type} (Result : Call → Type) where
  call : Call
  result : Result call

/-- A process with the kernel that it calls; `own` is what it keeps in mind. -/
structure Worker {Call : Type} (Result : Call → Type) (S K : Type) where
  own : S
  kernel : K
  journal : List (Deed Result)

variable {Call S K ε α : Type} {Result : Call → Type}

namespace Worker

/-- The worker behind a call. -/
def behind (w : Worker Result S K) (c : Call) (r : Result c) (k : K) : Worker Result S K :=
  { w with kernel := k, journal := ⟨c, r⟩ :: w.journal }

@[simp] theorem behind_own (w : Worker Result S K) (c : Call) (r : Result c) (k : K) :
    (w.behind c r k).own = w.own := rfl

@[simp] theorem behind_kernel (w : Worker Result S K) (c : Call) (r : Result c) (k : K) :
    (w.behind c r k).kernel = k := rfl

@[simp] theorem behind_journal (w : Worker Result S K) (c : Call) (r : Result c) (k : K) :
    (w.behind c r k).journal = ⟨c, r⟩ :: w.journal := rfl

end Worker

/-! ## What a process does -/

variable (answer : (c : Call) → K → Result c × K)

/-- A call to the kernel. -/
def invoke (c : Call) : Proc Empty ε (Worker Result S K) (Result c) :=
  .act (fun w => w.behind c (answer c w.kernel).1 (answer c w.kernel).2)
    fun w => .done (answer c w.kernel).1

/-- Look at what is kept in mind. -/
def inMind : Proc Empty ε (Worker Result S K) S :=
  .act id fun w => .done w.own

/-- Keep something else in mind. -/
def remember (change : S → S) : Proc Empty ε (Worker Result S K) Unit :=
  .act (fun w => { w with own := change w.own }) fun _ => .done ()

/-! ## Policies -/

/-- Every call is permitted by what was done before it. -/
def Permitted (permits : List (Deed Result) → Call → Prop) : List (Deed Result) → Prop
  | [] => True
  | d :: before => permits before d.call ∧ Permitted permits before

/-- What came back is what the kernel answers, from its first state to its last. -/
inductive Follows : K → List (Deed Result) → K → Prop where
  | nil (k : K) : Follows k [] k
  | cons {k k' : K} {journal : List (Deed Result)} (c : Call) (h : Follows k journal k') :
    Follows k (⟨c, (answer c k').1⟩ :: journal) (answer c k').2

/-- The journal of a worker is permitted, and is that of its kernel. -/
structure Sound (permits : List (Deed Result) → Call → Prop) (start : K)
    (w : Worker Result S K) : Prop where
  permitted : Permitted permits w.journal
  follows : Follows answer start w.journal w.kernel

variable {answer} {permits : List (Deed Result) → Call → Prop} {start : K}

/-- A permitted call keeps the journal sound. -/
theorem Sound.call {w : Worker Result S K} (h : Sound answer permits start w) {c : Call}
    (hpermits : permits w.journal c) :
    Sound answer permits start (w.behind c (answer c w.kernel).1 (answer c w.kernel).2) :=
  ⟨⟨hpermits, h.permitted⟩, .cons c h.follows⟩

/-- What a worker remembers is not in the journal. -/
theorem Sound.remember {w : Worker Result S K} (h : Sound answer permits start w) (own : S) :
    Sound answer permits start { w with own := own } :=
  ⟨h.permitted, h.follows⟩

/-- What each permitted call keeps. -/
theorem Follows.invariant {I : List (Deed Result) → K → Prop} {journal : List (Deed Result)}
    {k : K} (h : Follows answer start journal k) (hpermitted : Permitted permits journal)
    (hstart : I [] start)
    (hstep : ∀ before k c, I before k → permits before c →
      I (⟨c, (answer c k).1⟩ :: before) (answer c k).2) : I journal k := by
  induction h with
  | nil => exact hstart
  | cons c h ih => exact hstep _ _ c (ih hpermitted.2) hpermitted.1

/-! ## Rules -/

section Rules

variable {P : Worker Result S K → Prop} {w : Worker Result S K}

/-- The rule of a call. -/
theorem meets_invoke {c : Call} {Q : Result c → Worker Result S K → Prop}
    (hP : P (w.behind c (answer c w.kernel).1 (answer c w.kernel).2))
    (hQ : Q (answer c w.kernel).1 (w.behind c (answer c w.kernel).1 (answer c w.kernel).2)) :
    (invoke answer c : Proc Empty ε (Worker Result S K) (Result c)).Meets P w Q :=
  ⟨hP, hQ⟩

/-- The rule of reading the memory. -/
theorem meets_inMind {Q : S → Worker Result S K → Prop} (hP : P w) (hQ : Q w.own w) :
    (inMind : Proc Empty ε (Worker Result S K) S).Meets P w Q :=
  ⟨hP, hQ⟩

/-- The rule of writing the memory. -/
theorem meets_remember {change : S → S} {Q : Unit → Worker Result S K → Prop}
    (hP : P { w with own := change w.own }) (hQ : Q () { w with own := change w.own }) :
    (remember change : Proc Empty ε (Worker Result S K) Unit).Meets P w Q :=
  ⟨hP, hQ⟩

end Rules

/-- A journal goes on with calls of one kind. -/
def GoesOn (kind : Call → Bool) (before after : List (Deed Result)) : Prop :=
  ∃ newer, after = newer ++ before ∧ ∀ d ∈ newer, kind d.call = true

namespace GoesOn

variable {kind : Call → Bool} {journal journal' journal'' : List (Deed Result)}

/-- Nothing further is recorded. -/
theorem refl (journal : List (Deed Result)) : GoesOn kind journal journal :=
  ⟨[], rfl, by simp⟩

/-- One more deed of the kind. -/
theorem cons (h : GoesOn kind journal journal') {d : Deed Result} (hd : kind d.call = true) :
    GoesOn kind journal (d :: journal') := by
  obtain ⟨newer, rfl, hnewer⟩ := h
  exact ⟨d :: newer, rfl, by simpa [hd] using hnewer⟩

/-- Two continuations in turn. -/
theorem trans (h : GoesOn kind journal journal') (h' : GoesOn kind journal' journal'') :
    GoesOn kind journal journal'' := by
  obtain ⟨newer, rfl, hnewer⟩ := h
  obtain ⟨newer', rfl, hnewer'⟩ := h'
  refine ⟨newer' ++ newer, by simp, fun d hd => ?_⟩
  rcases List.mem_append.mp hd with hd | hd
  · exact hnewer' d hd
  · exact hnewer d hd

/-- What was recorded stays recorded. -/
theorem mem (h : GoesOn kind journal journal') {d : Deed Result} (hd : d ∈ journal) :
    d ∈ journal' := by
  obtain ⟨newer, rfl, -⟩ := h
  exact List.mem_append_right newer hd

/-- What calls of this kind do not change. -/
theorem eq {f : List (Deed Result) → α} (h : GoesOn kind journal journal')
    (hf : ∀ d journal, kind d.call = true → f (d :: journal) = f journal) :
    f journal' = f journal := by
  obtain ⟨newer, rfl, hnewer⟩ := h
  induction newer with
  | nil => rfl
  | cons d newer ih =>
      rw [List.cons_append, hf d _ (hnewer d (by simp)), ih fun e he => hnewer e (by simp [he])]

end GoesOn

end Library
end ModpackInstaller
