import ModpackInstaller.Library.Replace

/-!
# Deleting the ends of pieces

Deleting every "pattern and separator" from a written text cuts the pattern off
the pieces that end in it, and what is left of such a piece runs on into the next
one.  {lit}`cutEnds` does this to the list of pieces and the rest behind the last
separator.

Main results:

- Theorem {lit}`replaceAll_terminated_eq`: the deletion is {lit}`cutEnds`.
- Theorem {lit}`countP_cutEnds`: no piece loses another end of the same length.
- Theorem {lit}`totalWeight_cutEnds`: every cut takes the length of the pattern
  and its separator from the weight, in which another end of the same length
  counts nothing.
-/

namespace ModpackInstaller
namespace Library

variable {α : Type*} [DecidableEq α]

/-! ## Cutting -/

/-- What is left of pieces and of the rest `e` behind them when every end `p` is
cut off with its separator; `g` is what the last cut left. -/
def cutEnds (p e : List α) : List α → List (List α) → List (List α) × List α
  | g, [] => ([], g ++ e)
  | g, l :: ls =>
    if p <:+ l then cutEnds p e (g ++ l.take (l.length - p.length)) ls
    else ((g ++ l) :: (cutEnds p e [] ls).1, (cutEnds p e [] ls).2)

variable {p q e : List α}

/-- A piece that ends in the pattern. -/
theorem cutEnds_append (g l : List α) (ls : List (List α)) :
    cutEnds p e g ((l ++ p) :: ls) = cutEnds p e (g ++ l) ls := by
  rw [cutEnds, if_pos (List.suffix_append l p)]
  simp

theorem cutEnds_of_not_suffix {l : List α} (h : ¬ p <:+ l) (g : List α) (ls : List (List α)) :
    cutEnds p e g (l :: ls) = ((g ++ l) :: (cutEnds p e [] ls).1, (cutEnds p e [] ls).2) := by
  rw [cutEnds, if_neg h]

/-- Deleting "pattern and separator" cuts ends off. -/
theorem replaceAll_terminated_eq {sep : α} (hp : sep ∉ p) (he : sep ∉ e)
    {ls : List (List α)} (hls : ∀ l ∈ ls, sep ∉ l) (g : List α) :
    g ++ replaceAll (p ++ [sep]) [] (unpieces sep ls ++ e) =
      unpieces sep (cutEnds p e g ls).1 ++ (cutEnds p e g ls).2 := by
  induction ls generalizing g with
  | nil =>
      have hmiss : ¬ p ++ [sep] <:+: e := fun h => he (h.subset (by simp))
      rw [unpieces_nil, List.nil_append, replaceAll_of_not_infix hmiss]
      rfl
  | cons l ls ih =>
      have ih' := ih fun l' hl' => hls l' (by simp [hl'])
      have hl : sep ∉ l := hls l (by simp)
      by_cases hend : p <:+ l
      · obtain ⟨u, rfl⟩ := hend
        have htext : unpieces sep ((u ++ p) :: ls) ++ e =
            u ++ ((p ++ [sep]) ++ (unpieces sep ls ++ e)) := by simp
        rw [cutEnds_append, htext, replaceAll_split (by simp), ← ih' (g ++ u)]
        · simp
        · -- An earlier hit would put the first separator somewhere else.
          rintro x y rfl hy ⟨w, hw⟩
          have hsame : p = y ++ p :=
            (@append_sep_inj _ sep p (y ++ p) _ _ hp (fun h => hl (by simp_all))
              (by simpa using hw)).1
          exact hy (List.self_eq_append_left.mp hsame)
      · have htext : unpieces sep (l :: ls) ++ e = l ++ sep :: (unpieces sep ls ++ e) := by simp
        rw [cutEnds_of_not_suffix hend, htext, replaceAll_terminated_keep hp hl hend]
        have hrest := ih' []
        rw [List.nil_append] at hrest
        rw [hrest]
        simp

/-- No cut brings a separator in. -/
theorem not_mem_cutEnds {sep : α} (he : sep ∉ e) {ls : List (List α)} (hls : ∀ l ∈ ls, sep ∉ l)
    {g : List α} (hg : sep ∉ g) :
    (∀ l ∈ (cutEnds p e g ls).1, sep ∉ l) ∧ sep ∉ (cutEnds p e g ls).2 := by
  induction ls generalizing g with
  | nil => exact ⟨by simp [cutEnds], by simp [cutEnds, hg, he]⟩
  | cons l ls ih =>
      have hl : sep ∉ l := hls l (by simp)
      have ih' := fun g hg => @ih (fun l' hl' => hls l' (by simp [hl'])) g hg
      by_cases hend : p <:+ l
      · obtain ⟨u, rfl⟩ := hend
        rw [cutEnds_append]
        exact ih' _ (by simp_all)
      · rw [cutEnds_of_not_suffix hend]
        obtain ⟨hlines, hrest⟩ := ih' [] (by simp)
        refine ⟨fun l' hl' => ?_, hrest⟩
        rcases List.mem_cons.mp hl' with rfl | hl'
        · simp [hg, hl]
        · exact hlines l' hl'

/-- When only whole pieces end in the pattern, these go and the rest stays. -/
theorem cutEnds_of_whole {ls : List (List α)} (h : ∀ l ∈ ls, p <:+ l → l = p) :
    cutEnds p e [] ls = (ls.filter (· ≠ p), e) := by
  induction ls with
  | nil => rfl
  | cons l ls ih =>
      have ih' := ih fun l' hl' => h l' (by simp [hl'])
      by_cases hend : p <:+ l
      · obtain rfl := h l (by simp) hend
        rw [cutEnds, if_pos hend, List.filter_cons_of_neg (by simp)]
        simpa using ih'
      · have hne : l ≠ p := fun hl => hend (hl ▸ List.suffix_refl _)
        rw [cutEnds_of_not_suffix hend, ih', List.filter_cons_of_pos (by simpa using hne)]
        rfl

/-- What stands behind the last separator only grows. -/
theorem length_le_cutEnds (g : List α) (ls : List (List α)) :
    e.length ≤ (cutEnds p e g ls).2.length := by
  induction ls generalizing g with
  | nil => simp [cutEnds]
  | cons l ls ih =>
      rw [cutEnds]
      split
      · exact ih _
      · exact ih []

/-! ## What the cuts leave -/

omit [DecidableEq α] in
/-- A piece has one end of a given length. -/
theorem suffix_unique {l : List α} (hlen : q.length = p.length) (hp : p <:+ l) (hq : q <:+ l) :
    q = p :=
  (List.suffix_of_suffix_length_le hq hp hlen.le).eq_of_length hlen

/-- No piece loses another end of the same length. -/
theorem countP_cutEnds (hlen : q.length = p.length) (hne : q ≠ p) (g : List α)
    (ls : List (List α)) :
    ls.countP (fun l => decide (q <:+ l)) ≤
      (cutEnds p e g ls).1.countP (fun l => decide (q <:+ l)) := by
  induction ls generalizing g with
  | nil => simp
  | cons l ls ih =>
      by_cases hend : p <:+ l
      · have hmiss : ¬ q <:+ l := fun hq => hne (suffix_unique hlen hend hq)
        rw [cutEnds, if_pos hend, List.countP_cons_of_neg (by simpa using hmiss)]
        exact ih _
      · rw [cutEnds_of_not_suffix hend]
        by_cases hq : q <:+ l
        · have hlonger : q <:+ g ++ l := hq.trans (List.suffix_append g l)
          rw [List.countP_cons_of_pos (by simpa using hq),
            List.countP_cons_of_pos (by simpa using hlonger)]
          exact Nat.succ_le_succ (ih [])
        · rw [List.countP_cons_of_neg (by simpa using hq)]
          exact (ih []).trans (List.sublist_cons_self _ _).countP_le

/-! ## Weights -/

/-- The length of a piece with its separator, in which the end `q` counts
nothing. -/
def endWeight (q l : List α) : Nat :=
  l.length + 1 - if q <:+ l then q.length + 1 else 0

def totalWeight (q : List α) : List (List α) → Nat
  | [] => 0
  | l :: ls => endWeight q l + totalWeight q ls

@[simp] theorem totalWeight_nil : totalWeight q [] = 0 := rfl

@[simp] theorem totalWeight_cons (l : List α) (ls : List (List α)) :
    totalWeight q (l :: ls) = endWeight q l + totalWeight q ls := rfl

theorem endWeight_of_suffix {l : List α} (h : q <:+ l) :
    endWeight q l + q.length = l.length := by
  have hle := h.length_le
  rw [endWeight, if_pos h]
  omega

theorem endWeight_of_not_suffix {l : List α} (h : ¬ q <:+ l) : endWeight q l = l.length + 1 := by
  rw [endWeight, if_neg h, Nat.sub_zero]

theorem endWeight_le (l : List α) : endWeight q l ≤ l.length + 1 :=
  Nat.sub_le _ _

/-- Symbols in front of a piece add at most their number. -/
theorem endWeight_append_le (g l : List α) : endWeight q (g ++ l) ≤ g.length + endWeight q l := by
  by_cases h : q <:+ l
  · have hweight := endWeight_of_suffix h
    have hlonger := endWeight_of_suffix (h.trans (List.suffix_append g l))
    rw [List.length_append] at hlonger
    omega
  · have hle := endWeight_le (q := q) (g ++ l)
    rw [endWeight_of_not_suffix h]
    rw [List.length_append] at hle
    omega

theorem totalWeight_le_of_sublist {ls ls' : List (List α)} (h : List.Sublist ls ls') :
    totalWeight q ls ≤ totalWeight q ls' := by
  induction h with
  | slnil => exact le_refl _
  | cons l _ ih =>
      rw [totalWeight_cons]
      exact ih.trans (Nat.le_add_left _ _)
  | cons_cons l _ ih =>
      rw [totalWeight_cons, totalWeight_cons]
      exact Nat.add_le_add_left ih _

/-- Every cut takes its pattern and a separator from the weight. -/
theorem totalWeight_cutEnds (hlen : q.length = p.length) (hne : q ≠ p) (g : List α)
    (ls : List (List α)) :
    totalWeight q (cutEnds p e g ls).1 + (cutEnds p e g ls).2.length +
        (p.length + 1) * ls.countP (fun l => decide (p <:+ l)) ≤
      g.length + totalWeight q ls + e.length := by
  induction ls generalizing g with
  | nil => simp [cutEnds]
  | cons l ls ih =>
      by_cases hend : p <:+ l
      · obtain ⟨u, rfl⟩ := hend
        have hmiss : ¬ q <:+ u ++ p := fun hq =>
          hne (suffix_unique hlen (List.suffix_append u p) hq)
        have ih' := ih (g ++ u)
        rw [cutEnds_append, List.countP_cons_of_pos (by simp), Nat.mul_succ, totalWeight_cons,
          endWeight_of_not_suffix hmiss]
        rw [List.length_append] at ih' ⊢
        omega
      · have ih' := ih []
        have hfirst := endWeight_append_le (q := q) g l
        rw [cutEnds_of_not_suffix hend, List.countP_cons_of_neg (by simpa using hend),
          totalWeight_cons, totalWeight_cons]
        rw [List.length_nil] at ih'
        dsimp only
        omega

end Library
end ModpackInstaller
