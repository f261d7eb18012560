import ModpackInstaller.Library.Replace

/-!
# The first occurrence

Where a pattern is found first in a text, and what a text that is put behind
changes about that.  Nothing, when the pattern occurs already; and a pattern that
is known by its first symbol is not found across that symbol.

Main results:

- Theorem {lit}`firstAt_eq_none`: nothing is found exactly when there is nothing.
- Theorem {lit}`firstAt_append_of_inside`: an occurrence stays the first one,
  whatever comes behind.
- Theorem {lit}`firstAt_append_head`: without an occurrence in front of the first
  symbol of the pattern, the search goes on from there.
-/

namespace ModpackInstaller
namespace Library

variable {α : Type*} [DecidableEq α]

/-- The number of symbols in front of the first occurrence of a pattern. -/
def firstAt (pat : List α) : List α → Option Nat
  | [] => if pat = [] then some 0 else none
  | c :: cs => if pat <+: c :: cs then some 0 else (firstAt pat cs).map (· + 1)

variable {pat s t : List α}

theorem firstAt_of_start (h : pat <+: s) : firstAt pat s = some 0 := by
  cases s with
  | nil => rw [firstAt, if_pos (List.prefix_nil.mp h)]
  | cons c cs => rw [firstAt, if_pos h]

/-- Nothing is found exactly when there is nothing. -/
theorem firstAt_eq_none : firstAt pat s = none ↔ ¬ pat <:+: s := by
  induction s with
  | nil => simp [firstAt]
  | cons c cs ih =>
      rw [firstAt, List.infix_cons_iff, not_or, ← ih]
      split_ifs with h
      · simp [h]
      · simp [h]

/-- An occurrence is found inside the text. -/
theorem firstAt_le {n : Nat} (h : firstAt pat s = some n) : n + pat.length ≤ s.length := by
  induction s generalizing n with
  | nil =>
      rw [firstAt] at h
      split_ifs at h with hpat
      obtain rfl : 0 = n := by simpa using h
      simp [hpat]
  | cons c cs ih =>
      rw [firstAt] at h
      split_ifs at h with hhit
      · obtain rfl : 0 = n := by simpa using h
        simpa using hhit.length_le
      · obtain ⟨m, hm, rfl⟩ := Option.map_eq_some_iff.mp h
        have hle := ih hm
        rw [List.length_cons]
        omega

/-- An occurrence stays the first one, whatever comes behind. -/
theorem firstAt_append_of_inside (h : pat <:+: s) (t : List α) :
    firstAt pat (s ++ t) = firstAt pat s := by
  induction s with
  | nil =>
      rw [List.infix_nil] at h
      subst h
      rw [firstAt_of_start List.nil_prefix, firstAt_of_start List.nil_prefix]
  | cons c cs ih =>
      by_cases hhit : pat <+: c :: cs
      · rw [firstAt_of_start hhit, firstAt_of_start (hhit.trans (List.prefix_append _ _))]
      · have hcs : pat <:+: cs := (List.infix_cons_iff.mp h).resolve_left hhit
        have hlater : ¬ pat <+: c :: (cs ++ t) := by
          -- It would end no later than the one behind it.
          intro hp
          refine hhit (List.prefix_of_prefix_length_le hp (List.prefix_append (c :: cs) t) ?_)
          exact hcs.length_le.trans (Nat.le_succ _)
        rw [List.cons_append, firstAt, firstAt, if_neg hhit, if_neg hlater, ih hcs]

omit [DecidableEq α] in
/-- A pattern does not reach across its first symbol. -/
theorem prefix_append_head {c : α} {w : List α} (hw : c ∉ w) (hs : s ≠ [])
    (h : c :: w <+: s ++ c :: t) : c :: w <+: s := by
  cases s with
  | nil => exact absurd rfl hs
  | cons d s =>
      rw [List.cons_append, List.cons_prefix_cons] at h
      exact List.cons_prefix_cons.mpr ⟨h.1, prefix_append_sep hw h.2⟩

/-- Without an occurrence in front of the first symbol of the pattern, the search
goes on from there. -/
theorem firstAt_append_head {c : α} {w : List α} (hw : c ∉ w) (h : ¬ c :: w <:+: s) :
    firstAt (c :: w) (s ++ c :: t) = (firstAt (c :: w) (c :: t)).map (s.length + ·) := by
  induction s with
  | nil => simp
  | cons d s ih =>
      rw [List.infix_cons_iff, not_or] at h
      have hmiss : ¬ c :: w <+: d :: (s ++ c :: t) := fun hp =>
        h.1 (prefix_append_head hw (List.cons_ne_nil d s) hp)
      rw [List.cons_append, firstAt, if_neg hmiss, ih h.2, Option.map_map]
      congr 1
      funext n
      simp only [Function.comp_apply, List.length_cons]
      omega

/-- An occurrence lies in front of the first symbol of the pattern or begins there or
behind. -/
theorem infix_append_head {c : α} {w : List α} (hw : c ∉ w) :
    c :: w <:+: s ++ c :: t ↔ c :: w <:+: s ∨ c :: w <:+: c :: t := by
  constructor
  · intro h
    by_contra hnone
    rw [not_or] at hnone
    have hfirst := firstAt_append_head (t := t) hw hnone.1
    rw [firstAt_eq_none.mpr hnone.2, Option.map_none, firstAt_eq_none] at hfirst
    exact hfirst h
  · rintro (h | h)
    · exact h.trans (List.infix_append' [] s (c :: t))
    · exact h.trans (List.suffix_append s (c :: t)).isInfix

/-- The place of a symbol. -/
theorem firstAt_singleton {c : α} (h : c ∉ s) : firstAt [c] (s ++ c :: t) = some s.length := by
  have hmiss : ¬ [c] <:+: s := by rwa [List.singleton_infix_iff]
  rw [firstAt_append_head List.not_mem_nil hmiss, firstAt_of_start (by simp)]
  simp

/-! ## Rewriting symbol by symbol -/

section Rewriting

variable {f : α → List α}

/-- Every symbol is left alone, or it and what it becomes are strange to the
pattern. -/
def KeepsPattern (f : α → List α) (pat : List α) : Prop :=
  ∀ c, f c = [c] ∨ (c ∉ pat ∧ f c ≠ [] ∧ ∀ d ∈ f c, d ∉ pat)

omit [DecidableEq α]

theorem prefix_flatMap_iff (hkeep : KeepsPattern f pat) : pat <+: s.flatMap f ↔ pat <+: s := by
  induction s generalizing pat with
  | nil => simp
  | cons c cs ih =>
      cases pat with
      | nil => simp
      | cons p ps =>
          rw [List.flatMap_cons]
          rcases hkeep c with hsame | ⟨hc, hne, hstrange⟩
          · have htail : KeepsPattern f ps := fun d =>
              (hkeep d).imp_right fun h => by simp_all
            rw [hsame, List.singleton_append, List.cons_prefix_cons, List.cons_prefix_cons,
              ih htail]
          · obtain ⟨d, ds, hd⟩ := List.exists_cons_of_ne_nil hne
            have hdp : p ≠ d := fun h => hstrange d (by simp [hd]) (by simp [h])
            have hcp : p ≠ c := fun h => hc (by simp [h])
            rw [hd, List.cons_append, List.cons_prefix_cons, List.cons_prefix_cons]
            simp [hdp, hcp]

/-- Strange symbols in front change nothing. -/
theorem infix_append_strange (hne : pat ≠ []) {u : List α} (hu : ∀ d ∈ u, d ∉ pat) :
    pat <:+: u ++ s ↔ pat <:+: s := by
  induction u with
  | nil => rfl
  | cons d u ih =>
      obtain ⟨p, ps, rfl⟩ := List.exists_cons_of_ne_nil hne
      have hdp : p ≠ d := fun h => hu d (by simp) (by simp [h])
      rw [List.cons_append, List.infix_cons_iff, List.cons_prefix_cons,
        ih fun e he => hu e (List.mem_cons_of_mem d he)]
      simp [hdp]

/-- A pattern occurs in a rewritten text exactly when it occurs in the text. -/
theorem infix_flatMap_iff (hne : pat ≠ []) (hkeep : KeepsPattern f pat) :
    pat <:+: s.flatMap f ↔ pat <:+: s := by
  induction s with
  | nil => simp
  | cons c cs ih =>
      rcases hkeep c with hsame | ⟨hc, -, hstrange⟩
      · have hprefix := prefix_flatMap_iff (s := c :: cs) hkeep
        rw [List.flatMap_cons, hsame, List.singleton_append] at hprefix ⊢
        rw [List.infix_cons_iff, List.infix_cons_iff, ih, hprefix]
      · rw [List.flatMap_cons, infix_append_strange hne hstrange, ih]
        exact (infix_append_strange (u := [c]) hne (by simpa using hc)).symm

end Rewriting

end Library
end ModpackInstaller
