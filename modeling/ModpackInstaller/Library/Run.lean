import Mathlib.Data.List.TakeDrop

/-!
# Runs of step functions

A run is a list of events worked through one after the other.  A total step
function gives {lit}`List.foldl`; a guarded one gives {lit}`run`, which fails
when an event is not enabled.  {lit}`MeetsAlong` says that every step of a run
meets a condition on the state before it and on the event.

Main results:

- Theorem {lit}`invariant_iff_meetsAlong`: a predicate holds after every prefix
  of a fold exactly when it holds at the start and every step meets the
  condition under which a step keeps it.
- Theorem {lit}`forall_foldl_iff_lastsMeet`: when every step is about one thing, what
  holds of each thing behind a fold is decided by the last step about it.
- Theorem {lit}`run_invariant`: an invariant of a guarded step function holds
  after every run whose steps meet its condition.
- Theorem {lit}`guarded_invariant`: the same for a step function that is given
  by a guard and an effect.
- Theorem {lit}`run_states_iff`: when a predicate holds in every state of a guarded run.
-/

namespace ModpackInstaller
namespace Library

variable {σ ε τ : Type*}

/-! ## Folds -/

/-- Every step of the fold meets a condition on the state before it. -/
def MeetsAlong (f : σ → ε → σ) (meets : σ → ε → Prop) : σ → List ε → Prop
  | _, [] => True
  | s, e :: es => meets s e ∧ MeetsAlong f meets (f s e) es

@[simp] theorem meetsAlong_nil (f : σ → ε → σ) (meets : σ → ε → Prop) (s : σ) :
    MeetsAlong f meets s [] := trivial

instance decidableMeetsAlong (f : σ → ε → σ) (meets : σ → ε → Prop)
    [∀ s e, Decidable (meets s e)] : (s : σ) → (es : List ε) → Decidable (MeetsAlong f meets s es)
  | _, [] => inferInstanceAs (Decidable True)
  | s, e :: es =>
    have := decidableMeetsAlong f meets (f s e) es
    inferInstanceAs (Decidable (_ ∧ _))

/-- Conditions that agree in every state agree along a fold. -/
theorem meetsAlong_congr {f : σ → ε → σ} {meets meets' : σ → ε → Prop}
    (h : ∀ s e, meets s e ↔ meets' s e) (s : σ) (es : List ε) :
    MeetsAlong f meets s es ↔ MeetsAlong f meets' s es := by
  induction es generalizing s with
  | nil => exact Iff.rfl
  | cons e es ih => exact and_congr (h s e) (ih (f s e))

/-- A predicate holds after every prefix of a fold exactly when it holds at the
start and every step meets the condition under which a step keeps it. -/
theorem invariant_iff_meetsAlong {f : σ → ε → σ} {meets : σ → ε → Prop} {P : σ → Prop}
    (hstep : ∀ s e, P s → (P (f s e) ↔ meets s e)) (s : σ) (es : List ε) :
    (∀ n, P ((es.take n).foldl f s)) ↔ P s ∧ MeetsAlong f meets s es := by
  induction es generalizing s with
  | nil => simp [MeetsAlong]
  | cons e es ih =>
      constructor
      · intro h
        have hs : P s := h 0
        have hrest := (ih (f s e)).mp fun n => by simpa using h (n + 1)
        exact ⟨hs, (hstep s e hs).mp hrest.1, hrest.2⟩
      · rintro ⟨hs, hmeets, hrest⟩ n
        cases n with
        | zero => exact hs
        | succ n => exact (ih (f s e)).mpr ⟨(hstep s e hs).mpr hmeets, hrest⟩ n

/-! ## The last step about a thing -/

section Lasts

variable {κ : Type*}

/-- Of the steps that are about a thing, the last one meets a condition on the state
before it, for each thing. -/
def LastsMeet (f : σ → ε → σ) (about : ε → Option κ) (meets : σ → ε → Prop) : σ → List ε → Prop
  | _, [] => True
  | s, e :: es =>
    (∀ k ∈ about e, (∀ e' ∈ es, about e' ≠ some k) → meets s e) ∧ LastsMeet f about meets (f s e) es

instance decidableLastsMeet [DecidableEq κ] (f : σ → ε → σ) (about : ε → Option κ)
    (meets : σ → ε → Prop) [∀ s e, Decidable (meets s e)] :
    (s : σ) → (es : List ε) → Decidable (LastsMeet f about meets s es)
  | _, [] => inferInstanceAs (Decidable True)
  | s, e :: es =>
    have := decidableLastsMeet f about meets (f s e) es
    inferInstanceAs (Decidable ((∀ k ∈ about e, (∀ e' ∈ es, about e' ≠ some k) → meets s e) ∧ _))

/-- What is seen of the states is enough for a condition on what is seen. -/
theorem lastsMeet_map_iff {f : σ → ε → σ} {g : τ → ε → τ} {v : σ → τ} {about : ε → Option κ}
    {meets : τ → ε → Prop} (hstep : ∀ s e, v (f s e) = g (v s) e) (s : σ) (es : List ε) :
    LastsMeet f about (fun s => meets (v s)) s es ↔ LastsMeet g about meets (v s) es := by
  induction es generalizing s with
  | nil => exact Iff.rfl
  | cons e es ih => rw [LastsMeet, LastsMeet, ih, hstep]

/-- So it is for a condition on all steps. -/
theorem meetsAlong_map_iff {f : σ → ε → σ} {g : τ → ε → τ} {v : σ → τ}
    {meets : τ → ε → Prop} (hstep : ∀ s e, v (f s e) = g (v s) e) (s : σ) (es : List ε) :
    MeetsAlong f (fun s => meets (v s)) s es ↔ MeetsAlong g meets (v s) es := by
  induction es generalizing s with
  | nil => exact Iff.rfl
  | cons e es ih => rw [MeetsAlong, MeetsAlong, ih, hstep]

/-- When every step is about one thing, keeps what holds of the others, and brings about
what is to hold of its own exactly under a condition, then it holds of each thing behind a
fold exactly when it does at the start or the last step about the thing meets the
condition. -/
theorem forall_foldl_iff_lastsMeet {f : σ → ε → σ} {about : ε → Option κ}
    {ok meets : σ → ε → Prop} {P : κ → σ → Prop}
    (hframe : ∀ s e k, ok s e → about e ≠ some k → (P k (f s e) ↔ P k s))
    (hown : ∀ s e k, ok s e → about e = some k → (P k (f s e) ↔ meets s e))
    {s : σ} {es : List ε} (hok : MeetsAlong f ok s es) :
    (∀ k, P k (es.foldl f s)) ↔
      (∀ k, (∀ e ∈ es, about e ≠ some k) → P k s) ∧ LastsMeet f about meets s es := by
  induction es generalizing s with
  | nil => simp [LastsMeet]
  | cons e es ih =>
      have hfirst : (∀ k, (∀ e' ∈ es, about e' ≠ some k) → P k (f s e)) ↔
          (∀ k, (∀ e' ∈ e :: es, about e' ≠ some k) → P k s) ∧
            ∀ k ∈ about e, (∀ e' ∈ es, about e' ≠ some k) → meets s e := by
        constructor
        · intro h
          refine ⟨fun k hk => ?_, fun k hk hlast => (hown s e k hok.1 hk).mp (h k hlast)⟩
          rw [List.forall_mem_cons] at hk
          exact (hframe s e k hok.1 hk.1).mp (h k hk.2)
        · rintro ⟨hstart, hlast⟩ k hk
          by_cases habout : about e = some k
          · exact (hown s e k hok.1 habout).mpr (hlast k habout hk)
          · exact (hframe s e k hok.1 habout).mpr
              (hstart k (List.forall_mem_cons.mpr ⟨habout, hk⟩))
      rw [List.foldl_cons, ih hok.2, hfirst, LastsMeet, and_assoc]

end Lasts

/-! ## Guarded runs -/

/-- Work through a list of events; `none` when one of them is not enabled. -/
def run (step : σ → ε → Option σ) (s : σ) (es : List ε) : Option σ :=
  es.foldlM step s

@[simp] theorem run_nil (step : σ → ε → Option σ) (s : σ) : run step s [] = some s := rfl

@[simp] theorem run_cons (step : σ → ε → Option σ) (s : σ) (e : ε) (es : List ε) :
    run step s (e :: es) = (step s e).bind fun s' => run step s' es := rfl

/-- A run of two parts is the run of the first and then of the second. -/
theorem run_append {step : σ → ε → Option σ} {s : σ} (es fs : List ε) :
    run step s (es ++ fs) = (run step s es).bind fun t => run step t fs := by
  rw [run, List.foldlM_append]
  rfl

/-- Every enabled step of the run meets a condition on the state before it. -/
def RunMeets (step : σ → ε → Option σ) (meets : σ → ε → Prop) : σ → List ε → Prop
  | _, [] => True
  | s, e :: es => meets s e ∧ ∀ s' ∈ step s e, RunMeets step meets s' es

/-- A condition that every event of the run meets in every state. -/
theorem runMeets_of_forall {step : σ → ε → Option σ} {meets : σ → ε → Prop} {es : List ε}
    (h : ∀ e ∈ es, ∀ s, meets s e) (s : σ) : RunMeets step meets s es := by
  induction es generalizing s with
  | nil => trivial
  | cons e es ih =>
      refine ⟨h e (by simp) s, fun s' _ => ?_⟩
      exact ih (fun e' he' => h e' (List.mem_cons_of_mem e he')) s'

/-- What holds of every event can be added to the condition of a run. -/
theorem RunMeets.and_forall {step : σ → ε → Option σ} {meets : σ → ε → Prop} {P : ε → Prop} {s : σ}
    {es : List ε} (h : RunMeets step meets s es) (hP : ∀ e ∈ es, P e) :
    RunMeets step (fun s e => P e ∧ meets s e) s es := by
  induction es generalizing s with
  | nil => trivial
  | cons e es ih =>
      refine ⟨⟨hP e (by simp), h.1⟩, fun s' hs' => ?_⟩
      exact ih (h.2 s' hs') fun e' he' => hP e' (List.mem_cons_of_mem e he')

/-- A condition that looks at the event only is a condition on the list of a run. -/
theorem runMeets_event_iff {step : σ → ε → Option σ} {meets : ε → Prop} {s s' : σ} {es : List ε}
    (hrun : run step s es = some s') :
    RunMeets step (fun _ e => meets e) s es ↔ ∀ e ∈ es, meets e := by
  induction es generalizing s with
  | nil => exact iff_of_true trivial (by simp)
  | cons e es ih =>
      rw [run_cons, Option.bind_eq_some_iff] at hrun
      obtain ⟨s₁, hfirst, hrest⟩ := hrun
      rw [RunMeets, List.forall_mem_cons, ← ih hrest, hfirst]
      simp

instance decidableRunMeets (step : σ → ε → Option σ) (meets : σ → ε → Prop)
    [∀ s e, Decidable (meets s e)] : (s : σ) → (es : List ε) → Decidable (RunMeets step meets s es)
  | _, [] => inferInstanceAs (Decidable True)
  | s, e :: es =>
    have := fun s' => decidableRunMeets step meets s' es
    inferInstanceAs (Decidable (_ ∧ ∀ s' ∈ step s e, _))

/-- An invariant of a guarded step function holds after every run whose steps
meet its condition. -/
theorem run_invariant {step : σ → ε → Option σ} {meets : σ → ε → Prop} {P : σ → Prop}
    (hstep : ∀ s e s', P s → meets s e → step s e = some s' → P s')
    {s s' : σ} {es : List ε} (hs : P s) (hmeets : RunMeets step meets s es)
    (hrun : run step s es = some s') : P s' := by
  induction es generalizing s with
  | nil =>
      rw [run_nil, Option.some.injEq] at hrun
      exact hrun ▸ hs
  | cons e es ih =>
      rw [run_cons, Option.bind_eq_some_iff] at hrun
      obtain ⟨s₁, hfirst, hrest⟩ := hrun
      exact ih (hstep s e s₁ hs hmeets.1 hfirst) (hmeets.2 s₁ hfirst) hrest

/-- What every enabled step keeps holds after every run. -/
theorem run_invariant_of_step {step : σ → ε → Option σ} {P : σ → Prop}
    (hstep : ∀ s e s', P s → step s e = some s' → P s') {s s' : σ} {es : List ε} (hs : P s)
    (hrun : run step s es = some s') : P s' :=
  have hmeets : RunMeets step (fun _ _ => True) s es :=
    runMeets_of_forall (fun _ _ _ => trivial) s
  run_invariant (fun s e s' hP _ => hstep s e s' hP) hs hmeets hrun

/-- Where a step keeps a predicate exactly under a condition, the predicate holds in
every state of a run exactly when it holds at the start and every step meets the
condition.  An invariant may be used. -/
theorem run_states_iff {step : σ → ε → Option σ} {meets : σ → ε → Prop} {I P : σ → Prop}
    (hinv : ∀ s e s', I s → step s e = some s' → I s')
    (hstep : ∀ s e s', I s → P s → step s e = some s' → (P s' ↔ meets s e))
    {s s' : σ} {es : List ε} (hs : I s) (hrun : run step s es = some s') :
    (∀ n t, run step s (es.take n) = some t → P t) ↔ P s ∧ RunMeets step meets s es := by
  induction es generalizing s with
  | nil =>
      constructor
      · exact fun h => ⟨h 0 s rfl, trivial⟩
      · rintro ⟨hP, -⟩ n t ht
        rw [List.take_nil, run_nil, Option.some.injEq] at ht
        exact ht ▸ hP
  | cons e es ih =>
      rw [run_cons, Option.bind_eq_some_iff] at hrun
      obtain ⟨s₁, hfirst, hrest⟩ := hrun
      have htail := ih (hinv s e s₁ hs hfirst) hrest
      have hshift : ∀ n t, run step s ((e :: es).take (n + 1)) = some t ↔
          run step s₁ (es.take n) = some t := by
        intro n t
        rw [List.take_succ_cons, run_cons, hfirst, Option.bind_some]
      constructor
      · intro h
        have hP : P s := h 0 s rfl
        have hbehind := htail.mp fun n t ht => h (n + 1) t ((hshift n t).mpr ht)
        refine ⟨hP, (hstep s e s₁ hs hP hfirst).mp hbehind.1, fun t ht => ?_⟩
        obtain rfl := Option.some.inj (hfirst.symm.trans ht)
        exact hbehind.2
      · rintro ⟨hP, hmeets, hbehind⟩ n t ht
        cases n with
        | zero =>
            obtain rfl := Option.some.inj ht
            exact hP
        | succ n =>
            have hP₁ := (hstep s e s₁ hs hP hfirst).mpr hmeets
            exact htail.mpr ⟨hP₁, hbehind s₁ hfirst⟩ n t ((hshift n t).mp ht)

/-! ## Guards and effects -/

section Guarded

variable (enabled : σ → ε → Prop) [∀ s e, Decidable (enabled s e)] (effect : σ → ε → σ)

/-- The step function of a guard and an effect. -/
def guarded (s : σ) (e : ε) : Option σ :=
  if enabled s e then some (effect s e) else none

variable {enabled effect}

theorem guarded_eq_some {s s' : σ} {e : ε} :
    guarded enabled effect s e = some s' ↔ enabled s e ∧ effect s e = s' := by
  simp [guarded]

/-- What every enabled effect keeps under a condition holds after every run
whose steps meet the condition. -/
theorem guarded_invariant {meets : σ → ε → Prop} {P : σ → Prop}
    (hstep : ∀ s e, P s → meets s e → enabled s e → P (effect s e))
    {s s' : σ} {es : List ε} (hs : P s) (hmeets : RunMeets (guarded enabled effect) meets s es)
    (hrun : run (guarded enabled effect) s es = some s') : P s' := by
  refine run_invariant (fun s e s₁ hP hmeet hnext => ?_) hs hmeets hrun
  obtain ⟨henabled, rfl⟩ := guarded_eq_some.mp hnext
  exact hstep s e hP hmeet henabled

/-- What every enabled effect keeps holds after every run. -/
theorem guarded_invariant_of_step {P : σ → Prop}
    (hstep : ∀ s e, P s → enabled s e → P (effect s e)) {s s' : σ} {es : List ε} (hs : P s)
    (hrun : run (guarded enabled effect) s es = some s') : P s' := by
  refine run_invariant_of_step (fun s e s₁ hP hnext => ?_) hs hrun
  obtain ⟨henabled, rfl⟩ := guarded_eq_some.mp hnext
  exact hstep s e hP henabled

end Guarded

end Library
end ModpackInstaller
