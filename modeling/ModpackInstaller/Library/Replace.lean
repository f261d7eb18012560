import Mathlib.Data.Nat.Find
import ModpackInstaller.Library.Lines

/-!
# Replacing every occurrence of a pattern

{lit}`replaceAll pat rep` rewrites a text from left to right: every occurrence
of a nonempty pattern that does not overlap an earlier hit becomes
{lit}`rep`.  The recursion is structural, with a count of the symbols of the
current hit that are still to be skipped.

Main results:

- Theorem {lit}`replaceAll_of_not_infix`: a text without the pattern is kept.
- Theorem {lit}`not_infix_of_replaceAll_eq`: only such a text is, by a new text
  that is not shorter.
- Theorem {lit}`replaceAll_split`: the first occurrence is replaced and the
  scan goes on behind it.
- Theorem {lit}`replaceAll_of_leftmostCut`: the replacement goes in at the
  occurrences that a scan from the left takes.
- Theorem {lit}`not_infix_replaceAll`: when a pair of symbols has been replaced,
  it is gone.
- Theorem {lit}`replaceAll_unpieces`: with a separator-free pattern a written
  text is rewritten piece by piece.
- Theorem {lit}`replaceAll_terminated_unpieces`: deleting "pattern and
  separator" deletes exactly the pieces equal to the pattern, when no other
  piece ends in it.
-/

namespace ModpackInstaller
namespace Library

variable {α : Type*} [DecidableEq α]

/-- Scan with {lit}`skip` symbols of the last hit still to drop. -/
def replaceFrom (pat rep : List α) : Nat → List α → List α
  | _, [] => []
  | skip + 1, _ :: cs => replaceFrom pat rep skip cs
  | 0, c :: cs =>
    if pat.isPrefixOf (c :: cs) then
      rep ++ replaceFrom pat rep (pat.length - 1) cs
    else
      c :: replaceFrom pat rep 0 cs

/-- Replace every non-overlapping occurrence of a nonempty pattern, from left
to right. -/
def replaceAll (pat rep s : List α) : List α :=
  replaceFrom pat rep 0 s

@[simp] theorem replaceAll_nil (pat rep : List α) : replaceAll pat rep [] = [] := rfl

theorem replaceFrom_eq_drop (pat rep : List α) (n : Nat) (s : List α) :
    replaceFrom pat rep n s = replaceFrom pat rep 0 (s.drop n) := by
  induction n generalizing s with
  | zero => rfl
  | succ n ih =>
      cases s with
      | nil => rfl
      | cons c cs => rw [replaceFrom, ih, List.drop_succ_cons]

/-- A hit at the front is replaced and skipped. -/
theorem replaceAll_matched {pat : List α} (hne : pat ≠ []) (rep rest : List α) :
    replaceAll pat rep (pat ++ rest) = rep ++ replaceAll pat rep rest := by
  cases pat with
  | nil => exact absurd rfl hne
  | cons p ps =>
      have hhit : (p :: ps).isPrefixOf (p :: (ps ++ rest)) = true := by
        rw [List.isPrefixOf_iff_prefix]
        exact ⟨rest, by simp⟩
      rw [replaceAll, List.cons_append, replaceFrom, if_pos hhit, replaceFrom_eq_drop]
      simp [replaceAll]

/-- A symbol at which the pattern does not start is copied. -/
theorem replaceAll_cons_of_unmatched {pat : List α} {c : α} {cs : List α}
    (h : ¬ pat <+: c :: cs) (rep : List α) :
    replaceAll pat rep (c :: cs) = c :: replaceAll pat rep cs := by
  have hmiss : ¬ pat.isPrefixOf (c :: cs) = true := by
    rwa [List.isPrefixOf_iff_prefix]
  rw [replaceAll, replaceFrom, if_neg hmiss]
  rfl

/-- A text without the pattern is kept. -/
theorem replaceAll_of_not_infix {pat s : List α} (h : ¬ pat <:+: s) (rep : List α) :
    replaceAll pat rep s = s := by
  induction s with
  | nil => rfl
  | cons c cs ih =>
      rw [replaceAll_cons_of_unmatched (fun hp => h hp.isInfix),
        ih fun hin => h (hin.trans (List.suffix_cons c cs).isInfix)]

/-- The first occurrence is replaced and the scan goes on behind it.  The
occurrence is the first when no earlier position of the left part starts one. -/
theorem replaceAll_split {pat : List α} (hne : pat ≠ []) {u v : List α} (rep : List α)
    (hfirst : ∀ x y, u = x ++ y → y ≠ [] → ¬ pat <+: y ++ (pat ++ v)) :
    replaceAll pat rep (u ++ (pat ++ v)) = u ++ (rep ++ replaceAll pat rep v) := by
  induction u with
  | nil => exact replaceAll_matched hne rep v
  | cons c u ih =>
      have hmiss : ¬ pat <+: c :: (u ++ (pat ++ v)) := by
        simpa using hfirst [] (c :: u) rfl (by simp)
      rw [List.cons_append, replaceAll_cons_of_unmatched hmiss, ih]
      · rfl
      · intro x y hu hy
        exact hfirst (c :: x) y (by rw [hu]; rfl) hy

/-! ## The occurrences that are replaced -/

/-- A text cut at the occurrences of a pattern that a scan from the left takes: each
is the first one behind the occurrence before it. -/
structure LeftmostCut (pat : List α) (parts : List (List α)) (rest s : List α) : Prop where
  text : s = parts.flatMap (· ++ pat) ++ rest
  first : ∀ u ∈ parts, ¬ pat <:+: u ++ pat.dropLast
  last : ¬ pat <:+: rest

omit [DecidableEq α] in
/-- A pattern that starts inside a part ends in front of the last symbol of the
occurrence behind the part. -/
theorem infix_of_prefix_inside {pat x y v : List α} (hne : pat ≠ []) (hy : y ≠ [])
    (h : pat <+: y ++ (pat ++ v)) : pat <:+: x ++ y ++ pat.dropLast := by
  have hypos : 0 < y.length := List.length_pos_iff.mpr hy
  have hshape : y ++ (pat ++ v) = (y ++ pat.dropLast) ++ ([pat.getLast hne] ++ v) := by
    conv_lhs => rw [← List.dropLast_append_getLast hne]
    simp
  have hinside : pat <+: y ++ pat.dropLast := by
    refine List.prefix_of_prefix_length_le (hshape ▸ h) (List.prefix_append _ _) ?_
    rw [List.length_append, List.length_dropLast]
    omega
  rw [List.append_assoc]
  exact hinside.isInfix.trans (List.suffix_append x _).isInfix

/-- The replacement goes in at the occurrences that a scan from the left takes. -/
theorem replaceAll_of_leftmostCut {pat rest s : List α} {parts : List (List α)} (hne : pat ≠ [])
    (h : LeftmostCut pat parts rest s) (rep : List α) :
    replaceAll pat rep s = parts.flatMap (· ++ rep) ++ rest := by
  obtain ⟨rfl, hfirst, hlast⟩ := h
  induction parts with
  | nil => exact replaceAll_of_not_infix hlast rep
  | cons u parts ih =>
      rw [List.forall_mem_cons] at hfirst
      rw [List.flatMap_cons, List.append_assoc, List.append_assoc, replaceAll_split hne rep,
        ih hfirst.2]
      · simp
      · intro x y hu hy hpre
        exact hfirst.1 (hu ▸ infix_of_prefix_inside hne hy hpre)

omit [DecidableEq α] in
/-- An occurrence with none in front of it. -/
theorem exists_first_infix {pat s : List α} (hne : pat ≠ []) (h : pat <:+: s) :
    ∃ u v, s = u ++ (pat ++ v) ∧ ¬ pat <:+: u ++ pat.dropLast := by
  classical
  have hsome : ∃ n u v, u.length = n ∧ u ++ pat ++ v = s := by
    obtain ⟨u, v, huv⟩ := h
    exact ⟨u.length, u, v, rfl, huv⟩
  obtain ⟨u, v, hu, rfl⟩ := Nat.find_spec hsome
  refine ⟨u, v, List.append_assoc .., ?_⟩
  rintro ⟨x, y, hxy⟩
  have hlength := congrArg List.length hxy
  have hpos : 0 < pat.length := List.length_pos_iff.mpr hne
  simp only [List.length_append, List.length_dropLast] at hlength
  -- The other occurrence would start further to the left.
  refine Nat.find_min hsome (m := x.length) (by omega)
    ⟨x, y ++ [pat.getLast hne] ++ v, rfl, ?_⟩
  calc x ++ pat ++ (y ++ [pat.getLast hne] ++ v)
    _ = (x ++ pat ++ y) ++ [pat.getLast hne] ++ v := by simp
    _ = u ++ (pat.dropLast ++ [pat.getLast hne]) ++ v := by rw [hxy]; simp
    _ = u ++ pat ++ v := by rw [List.dropLast_append_getLast hne]

omit [DecidableEq α] in
/-- Every text has such a cut. -/
theorem exists_leftmostCut {pat : List α} (hne : pat ≠ []) (s : List α) :
    ∃ parts rest, LeftmostCut pat parts rest s := by
  induction hn : s.length using Nat.strong_induction_on generalizing s with
  | _ n ih =>
      by_cases hin : pat <:+: s
      · obtain ⟨u, v, rfl, hfirst⟩ := exists_first_infix hne hin
        have hpos : 0 < pat.length := List.length_pos_iff.mpr hne
        simp only [List.length_append] at hn
        obtain ⟨parts, rest, hv⟩ := ih v.length (by omega) v rfl
        refine ⟨u :: parts, rest, ?_, List.forall_mem_cons.mpr ⟨hfirst, hv.first⟩, hv.last⟩
        rw [List.flatMap_cons, List.append_assoc, ← hv.text, List.append_assoc]
      · exact ⟨[], s, rfl, by simp, hin⟩

/-- A replacement brings in no other symbols than those of the new text. -/
theorem mem_replaceAll {pat rep s : List α} {c : α} (h : c ∈ replaceAll pat rep s) :
    c ∈ s ∨ c ∈ rep := by
  suffices hfrom : ∀ n, c ∈ replaceFrom pat rep n s → c ∈ s ∨ c ∈ rep from hfrom 0 h
  clear h
  induction s with
  | nil =>
      intro n h
      cases n <;> simp [replaceFrom] at h
  | cons d s ih =>
      intro n h
      cases n with
      | succ n =>
          rw [replaceFrom] at h
          exact (ih n h).imp_left (List.mem_cons_of_mem d)
      | zero =>
          rw [replaceFrom] at h
          split at h
          · rcases List.mem_append.mp h with hrep | hrest
            · exact Or.inr hrep
            · exact (ih _ hrest).imp_left (List.mem_cons_of_mem d)
          · rcases List.mem_cons.mp h with rfl | hrest
            · exact Or.inl (by simp)
            · exact (ih 0 hrest).imp_left (List.mem_cons_of_mem d)

/-- Replacing a single symbol is done symbol by symbol. -/
theorem replaceAll_singleton (a : α) (rep s : List α) :
    replaceAll [a] rep s = s.flatMap fun c => if c = a then rep else [c] := by
  induction s with
  | nil => rfl
  | cons c s ih =>
      rw [List.flatMap_cons, ← ih]
      by_cases hc : c = a
      · rw [hc, if_pos rfl]
        exact replaceAll_matched (by simp) rep s
      · rw [if_neg hc]
        exact replaceAll_cons_of_unmatched (by simpa using Ne.symm hc) rep

/-- Replacing a symbol by another one. -/
theorem replaceAll_eq_map (a b : α) (s : List α) :
    replaceAll [a] [b] s = s.map fun c => if c = a then b else c := by
  rw [replaceAll_singleton, List.map_eq_flatMap]
  apply List.flatMap_congr
  intro c _
  split <;> rfl

omit [DecidableEq α] in
/-- A pair of symbols in a concatenation lies in one part or across the seam. -/
theorem pair_infix_append {a b : α} {u v : List α} (h : [a, b] <:+: u ++ v) :
    [a, b] <:+: u ∨ [a, b] <:+: v ∨ ([a] <:+ u ∧ [b] <+: v) := by
  obtain ⟨x, y, hxy⟩ := h
  rw [List.append_assoc, List.append_eq_append_iff] at hxy
  rcases hxy with ⟨w, hu, hw⟩ | ⟨w, -, hv⟩
  · match w, hu, hw with
    | [], _, hw => exact Or.inr (Or.inl ⟨[], y, by simpa using hw⟩)
    | [c], hu, hw =>
        simp only [List.cons_append, List.nil_append, List.cons.injEq] at hw
        exact Or.inr (Or.inr ⟨⟨x, by rw [hu, hw.1]⟩, ⟨y, by simpa using hw.2⟩⟩)
    | c :: d :: w, hu, hw =>
        simp only [List.cons_append, List.nil_append, List.cons.injEq] at hw
        exact Or.inl ⟨x, w, by rw [hu, hw.1, hw.2.1]; simp⟩
  · exact Or.inr (Or.inl ⟨w, y, by rw [hv, List.append_assoc]⟩)

/-- A pair is gone after it was replaced by a text that has it neither inside nor
at its seams. -/
theorem not_infix_replaceAll {a b : α} {rep : List α} (hne : rep ≠ [])
    (hinside : ¬ [a, b] <:+: rep) (hleft : ¬ [b] <+: rep) (hright : ¬ [a] <:+ rep) (s : List α) :
    ¬ [a, b] <:+: replaceAll [a, b] rep s := by
  induction hn : s.length using Nat.strong_induction_on generalizing s with
  | _ n ih =>
      by_cases hhit : [a, b] <+: s
      · obtain ⟨rest, rfl⟩ := hhit
        rw [replaceAll_matched (by simp)]
        intro h
        have hshorter : rest.length < n := by
          simp only [List.length_append, List.length_cons] at hn
          omega
        rcases pair_infix_append h with h | h | h
        · exact hinside h
        · exact ih _ hshorter rest rfl h
        · exact hright h.1
      · cases s with
        | nil => simp
        | cons c s =>
            rw [replaceAll_cons_of_unmatched hhit, List.infix_cons_iff, not_or]
            refine ⟨fun h => ?_, ih s.length (by simp [← hn]) s rfl⟩
            obtain ⟨hc, hsecond⟩ := List.cons_prefix_cons.mp h
            -- The second symbol is that of the text or starts a replacement.
            by_cases hnext : [a, b] <+: s
            · obtain ⟨rest, rfl⟩ := hnext
              rw [replaceAll_matched (by simp)] at hsecond
              exact hleft (List.prefix_of_prefix_length_le hsecond (List.prefix_append _ _)
                (List.length_pos_iff.mpr hne))
            · cases s with
              | nil => simp at hsecond
              | cons d s =>
                  rw [replaceAll_cons_of_unmatched hnext] at hsecond
                  obtain ⟨hd, -⟩ := List.cons_prefix_cons.mp hsecond
                  exact hhit (by rw [hc, hd]; simp)

/-! ## What a replacement changes -/

/-- A replacement by a text that is not shorter shortens nothing. -/
theorem length_le_length_replaceAll {pat rep : List α} (hne : pat ≠ [])
    (hlen : pat.length ≤ rep.length) (s : List α) : s.length ≤ (replaceAll pat rep s).length := by
  induction hn : s.length using Nat.strong_induction_on generalizing s with
  | _ n ih =>
      by_cases hhit : pat <+: s
      · obtain ⟨rest, rfl⟩ := hhit
        have hpos : 0 < pat.length := List.length_pos_iff.mpr hne
        rw [List.length_append] at hn
        have hrest := ih rest.length (by omega) rest rfl
        rw [replaceAll_matched hne, List.length_append]
        omega
      · cases s with
        | nil => simp [← hn]
        | cons c s =>
            rw [replaceAll_cons_of_unmatched hhit, List.length_cons]
            rw [List.length_cons] at hn
            exact hn ▸ Nat.succ_le_succ (ih s.length (by omega) s rfl)

/-- By a longer one, it lengthens every text with the pattern. -/
theorem length_lt_length_replaceAll {pat rep s : List α} (hne : pat ≠ [])
    (hlen : pat.length < rep.length) (h : pat <:+: s) :
    s.length < (replaceAll pat rep s).length := by
  induction s with
  | nil => exact absurd (List.infix_nil.mp h) hne
  | cons c s ih =>
      by_cases hhit : pat <+: c :: s
      · obtain ⟨rest, hrest⟩ := hhit
        have hle := length_le_length_replaceAll hne hlen.le rest
        rw [← hrest, replaceAll_matched hne, List.length_append, List.length_append]
        omega
      · rw [replaceAll_cons_of_unmatched hhit]
        exact Nat.succ_lt_succ (ih ((List.infix_cons_iff.mp h).resolve_left hhit))

/-- A replacement by a text that is not longer lengthens nothing. -/
theorem length_replaceAll_le {pat rep : List α} (hne : pat ≠ [])
    (hlen : rep.length ≤ pat.length) (s : List α) : (replaceAll pat rep s).length ≤ s.length := by
  induction hn : s.length using Nat.strong_induction_on generalizing s with
  | _ n ih =>
      cases s with
      | nil => exact Nat.zero_le n
      | cons c s =>
          rw [List.length_cons] at hn
          by_cases hhit : pat <+: c :: s
          · obtain ⟨rest, hrest⟩ := hhit
            have hlengths := congrArg List.length hrest
            rw [List.length_append, List.length_cons] at hlengths
            have hpos : 0 < pat.length := List.length_pos_iff.mpr hne
            have htail := ih rest.length (by omega) rest rfl
            rw [← hrest, replaceAll_matched hne, List.length_append]
            omega
          · rw [replaceAll_cons_of_unmatched hhit, List.length_cons]
            exact hn ▸ Nat.succ_le_succ (ih s.length (by omega) s rfl)

/-- By a shorter one, it shortens every text with the pattern. -/
theorem length_replaceAll_lt {pat rep s : List α} (hlen : rep.length < pat.length)
    (h : pat <:+: s) : (replaceAll pat rep s).length < s.length := by
  have hne : pat ≠ [] := List.length_pos_iff.mp (by omega)
  induction s with
  | nil => exact absurd (List.infix_nil.mp h) hne
  | cons c s ih =>
      by_cases hhit : pat <+: c :: s
      · obtain ⟨rest, hrest⟩ := hhit
        have hle := length_replaceAll_le hne hlen.le rest
        rw [← hrest, replaceAll_matched hne, List.length_append, List.length_append]
        omega
      · rw [replaceAll_cons_of_unmatched hhit]
        exact Nat.succ_lt_succ (ih ((List.infix_cons_iff.mp h).resolve_left hhit))

/-- A replacement by a shorter text leaves alone exactly the texts without the pattern. -/
theorem replaceAll_eq_self_iff {pat rep s : List α} (hlen : rep.length < pat.length) :
    replaceAll pat rep s = s ↔ ¬ pat <:+: s := by
  refine ⟨fun heq hin => ?_, fun h => replaceAll_of_not_infix h rep⟩
  have hshort := length_replaceAll_lt hlen hin
  rw [heq] at hshort
  exact absurd hshort (lt_irrefl _)

/-- A text that a replacement leaves alone does not have the pattern. -/
theorem not_infix_of_replaceAll_eq {pat rep s : List α} (hne : pat ≠ [])
    (hlen : pat.length ≤ rep.length) (hrep : rep ≠ pat) (h : replaceAll pat rep s = s) :
    ¬ pat <:+: s := by
  induction s with
  | nil => exact fun hin => hne (List.infix_nil.mp hin)
  | cons c s ih =>
      by_cases hhit : pat <+: c :: s
      · obtain ⟨rest, hrest⟩ := hhit
        have hle := length_le_length_replaceAll hne hlen rest
        rw [← hrest, replaceAll_matched hne] at h
        have hlengths := congrArg List.length h
        rw [List.length_append, List.length_append] at hlengths
        exact absurd (List.append_inj_left h (by omega)) hrep
      · rw [replaceAll_cons_of_unmatched hhit, List.cons.injEq] at h
        rw [List.infix_cons_iff, not_or]
        exact ⟨hhit, ih h.2⟩

/-! ## Rewriting a written text piece by piece -/

omit [DecidableEq α] in
/-- A separator-free prefix of a text ends before its first separator. -/
theorem prefix_append_sep {sep : α} {pat u v : List α} (hpat : sep ∉ pat)
    (h : pat <+: u ++ sep :: v) : pat <+: u := by
  rcases List.prefix_or_prefix_of_prefix h (List.prefix_append u (sep :: v)) with hp | hu
  · exact hp
  · obtain ⟨w, rfl⟩ := hu
    cases w with
    | nil => simp
    | cons d w =>
        rw [List.prefix_append_right_inj, List.cons_prefix_cons] at h
        exact absurd (by simp [h.1]) hpat

omit [DecidableEq α] in
/-- Two separator-free left parts of one text in front of a separator agree. -/
theorem append_sep_inj {sep : α} {u u' v v' : List α} (hu : sep ∉ u) (hu' : sep ∉ u')
    (h : u ++ sep :: v = u' ++ sep :: v') : u = u' ∧ v = v' := by
  have hle : u <+: u' := prefix_append_sep hu ⟨sep :: v, h⟩
  have hge : u' <+: u := prefix_append_sep hu' ⟨sep :: v', h.symm⟩
  have huu : u = u' := hle.eq_of_length (le_antisymm hle.length_le hge.length_le)
  subst huu
  simpa using h

/-- With a separator-free pattern, the parts before and after a separator are
rewritten independently. -/
theorem replaceAll_append_sep {sep : α} {pat : List α} (hne : pat ≠ []) (hpat : sep ∉ pat)
    (rep u v : List α) :
    replaceAll pat rep (u ++ sep :: v) =
      replaceAll pat rep u ++ sep :: replaceAll pat rep v := by
  induction hn : u.length using Nat.strong_induction_on generalizing u with
  | _ n ih =>
      cases u with
      | nil =>
          have hmiss : ¬ pat <+: sep :: v := fun h =>
            hne (List.prefix_nil.mp (prefix_append_sep (u := []) hpat h))
          rw [List.nil_append, replaceAll_cons_of_unmatched hmiss]
          rfl
      | cons c u =>
          by_cases hhit : pat <+: c :: u
          · obtain ⟨w, hw⟩ := hhit
            have hshorter : w.length < n := by
              have hlen : 0 < pat.length := List.length_pos_iff.mpr hne
              have := congrArg List.length hw
              simp only [List.length_append] at this
              omega
            rw [← hw, List.append_assoc, replaceAll_matched hne, replaceAll_matched hne,
              ih w.length hshorter w rfl, List.append_assoc]
          · have hmiss : ¬ pat <+: c :: (u ++ sep :: v) := fun h =>
              hhit (prefix_append_sep (u := c :: u) hpat h)
            have hshorter : u.length < n := by
              simp only [List.length_cons] at hn
              omega
            rw [List.cons_append, replaceAll_cons_of_unmatched hmiss,
              replaceAll_cons_of_unmatched hhit, ih u.length hshorter u rfl]
            rfl

/-- With a separator-free pattern a written text is rewritten piece by piece, and so
is what stands behind it. -/
theorem replaceAll_unpieces_append {sep : α} {pat : List α} (hne : pat ≠ []) (hpat : sep ∉ pat)
    (rep : List α) (ps : List (List α)) (e : List α) :
    replaceAll pat rep (unpieces sep ps ++ e) =
      unpieces sep (ps.map (replaceAll pat rep)) ++ replaceAll pat rep e := by
  induction ps with
  | nil => rfl
  | cons p ps ih =>
      rw [unpieces_cons, List.append_assoc, List.cons_append, replaceAll_append_sep hne hpat, ih,
        List.map_cons, unpieces_cons, List.append_assoc, List.cons_append]

theorem replaceAll_unpieces {sep : α} {pat : List α} (hne : pat ≠ []) (hpat : sep ∉ pat)
    (rep : List α) (ps : List (List α)) :
    replaceAll pat rep (unpieces sep ps) = unpieces sep (ps.map (replaceAll pat rep)) := by
  simpa using replaceAll_unpieces_append hne hpat rep ps []

/-- A pattern that occurs in a piece only as the whole piece is rewritten as a
whole piece. -/
theorem replaceAll_whole {pat p : List α} (hne : pat ≠ []) (hwhole : pat <:+: p → p = pat)
    (rep : List α) : replaceAll pat rep p = if p = pat then rep else p := by
  by_cases hp : p = pat
  · rw [if_pos hp, hp]
    simpa using replaceAll_matched hne rep []
  · rw [if_neg hp]
    exact replaceAll_of_not_infix (fun hin => hp (hwhole hin)) rep

/-! ## Deleting whole pieces -/

/-- A piece that does not end in the pattern survives, with its separator. -/
theorem replaceAll_terminated_keep {sep : α} {p l : List α} (hp : sep ∉ p) (hl : sep ∉ l)
    (hend : ¬ p <:+ l) (rep rest : List α) :
    replaceAll (p ++ [sep]) rep (l ++ sep :: rest) =
      l ++ sep :: replaceAll (p ++ [sep]) rep rest := by
  induction l with
  | nil =>
      have hmiss : ¬ (p ++ [sep]) <+: sep :: rest := by
        rintro ⟨w, hw⟩
        have heq : p = [] := (@append_sep_inj _ sep p [] _ _ hp (by simp) (by simpa using hw)).1
        exact hend (by simp [heq])
      rw [List.nil_append, replaceAll_cons_of_unmatched hmiss]
      rfl
  | cons c l ih =>
      have hmiss : ¬ (p ++ [sep]) <+: c :: (l ++ sep :: rest) := by
        rintro ⟨w, hw⟩
        have heq : p = c :: l :=
          (append_sep_inj hp hl (by simpa using hw)).1
        exact hend (by simp [heq])
      have hl' : sep ∉ l := fun h => hl (by simp [h])
      have hend' : ¬ p <:+ l := fun h => hend (h.trans (List.suffix_cons c l))
      rw [List.cons_append, replaceAll_cons_of_unmatched hmiss, ih hl' hend']
      rfl

/-- Deleting "pattern and separator" deletes exactly the pieces equal to the
pattern, when no other piece ends in it. -/
theorem replaceAll_terminated_unpieces {sep : α} {p : List α} (hp : sep ∉ p)
    {ps : List (List α)} (hps : ∀ l ∈ ps, sep ∉ l) (hend : ∀ l ∈ ps, p <:+ l → l = p) :
    replaceAll (p ++ [sep]) [] (unpieces sep ps) = unpieces sep (ps.filter (· ≠ p)) := by
  induction ps with
  | nil => rfl
  | cons l ps ih =>
      have ih' := ih (fun q hq => hps q (by simp [hq])) (fun q hq => hend q (by simp [hq]))
      by_cases hl : l = p
      · have hhit := replaceAll_matched (show p ++ [sep] ≠ [] by simp) [] (unpieces sep ps)
        rw [unpieces_cons, hl, List.filter_cons_of_neg (by simp), ← ih']
        simpa using hhit
      · have hkeep : ¬ p <:+ l := fun h => hl (hend l (by simp) h)
        rw [unpieces_cons, replaceAll_terminated_keep hp (hps l (by simp)) hkeep, ih',
          List.filter_cons_of_pos (by simpa using hl), unpieces_cons]

end Library
end ModpackInstaller
