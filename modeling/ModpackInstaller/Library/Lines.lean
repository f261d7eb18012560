import Mathlib.Data.List.Basic
import Mathlib.Data.List.Forall2
import Mathlib.Data.List.Infix
import Mathlib.Data.List.TakeWhile

/-!
# Separated text

A text is a list of symbols.  {lit}`pieces sep` cuts it at a separator and does
not report an empty piece after a final separator; {lit}`unpieces sep` writes
every piece with its separator.  The two are the line view of a text buffer.

Main results:

- Theorems {lit}`takeWhile_append_cons` and {lit}`takeWhile_append_stop`: what is
  taken of a text up to the first symbol that stops it.
- Theorem {lit}`pieces_unpieces`: separator-free pieces survive being written
  and cut again.
- Theorem {lit}`pieces_append_sep`: a separator-free prefix in front of a
  separator is the first piece.
- Theorems {lit}`pieces_eq_splitOn` and {lit}`intercalate_pieces`: the pieces beside
  those of the library's split, and joined again.
- Theorem {lit}`mem_pieces_of_prefix`: a piece of a prefix of a text starts a
  piece of the text.
-/

namespace ModpackInstaller
namespace Library

variable {α : Type*}

/-! ## Up to the first stop -/

section Taking

variable {p : α → Bool} {s : List α} {c : α}

/-- What is taken ends at the first symbol that stops it. -/
theorem takeWhile_append_cons (hs : ∀ x ∈ s, p x = true) (hc : p c = false) (rest : List α) :
    (s ++ c :: rest).takeWhile p = s := by
  rw [List.takeWhile_append_of_pos hs, List.takeWhile_cons_of_neg (by simp [hc]), List.append_nil]

theorem dropWhile_append_cons (hs : ∀ x ∈ s, p x = true) (hc : p c = false) (rest : List α) :
    (s ++ c :: rest).dropWhile p = c :: rest := by
  rw [List.dropWhile_append_of_pos hs, List.dropWhile_cons_of_neg (by simp [hc])]

/-- Behind a symbol that stops it nothing is looked at. -/
theorem takeWhile_append_stop (hmem : c ∈ s) (hc : p c = false) (t : List α) :
    (s ++ t).takeWhile p = s.takeWhile p := by
  have hshort : (s.takeWhile p).length ≠ s.length := by
    intro hlength
    have hself : s.takeWhile p = s := (List.takeWhile_prefix p).eq_of_length hlength
    have hpass : p c = true := List.takeWhile_eq_self_iff.mp hself c hmem
    exact Bool.false_ne_true (hc.symm.trans hpass)
  rw [List.takeWhile_append, if_neg hshort]

/-- Nothing stops in a text without the separator. -/
theorem forall_ne_of_not_mem [DecidableEq α] {sep : α} (hs : sep ∉ s) :
    ∀ x ∈ s, decide (x ≠ sep) = true := by
  intro x hx
  exact decide_eq_true fun h => hs (h ▸ hx)

end Taking

/-! ## Cutting and writing -/

/-- The pieces of a text between separators, without an empty piece after a
final separator. -/
def pieces [DecidableEq α] (sep : α) : List α → List (List α)
  | [] => []
  | c :: cs =>
    if c = sep then [] :: pieces sep cs
    else
      match pieces sep cs with
      | [] => [[c]]
      | p :: ps =>
        -- A separator that ended the empty piece `p` still ends `c :: p`.
        (c :: p) :: ps

/-- Write every piece followed by the separator. -/
def unpieces (sep : α) (ps : List (List α)) : List α :=
  ps.flatMap fun p => p ++ [sep]

@[simp] theorem pieces_nil [DecidableEq α] (sep : α) : pieces sep [] = [] := rfl

@[simp] theorem unpieces_nil (sep : α) : unpieces sep [] = [] := rfl

@[simp] theorem unpieces_cons (sep : α) (p : List α) (ps : List (List α)) :
    unpieces sep (p :: ps) = p ++ sep :: unpieces sep ps := by
  simp [unpieces]

@[simp] theorem unpieces_append (sep : α) (ps qs : List (List α)) :
    unpieces sep (ps ++ qs) = unpieces sep ps ++ unpieces sep qs := by
  simp [unpieces]

/-- A text that is not empty has a piece. -/
theorem pieces_ne_nil [DecidableEq α] (sep : α) {s : List α} (h : s ≠ []) : pieces sep s ≠ [] := by
  cases s with
  | nil => exact absurd rfl h
  | cons c cs =>
      rw [pieces]
      split
      · simp
      · split <;> simp

theorem pieces_cons_sep [DecidableEq α] (sep : α) (cs : List α) :
    pieces sep (sep :: cs) = [] :: pieces sep cs := by
  simp [pieces]

/-- A separator-free prefix in front of a separator is the first piece. -/
theorem pieces_append_sep [DecidableEq α] {sep : α} {p : List α} (hp : sep ∉ p) (cs : List α) :
    pieces sep (p ++ sep :: cs) = p :: pieces sep cs := by
  induction p with
  | nil => exact pieces_cons_sep sep cs
  | cons c p ih =>
      have hc : c ≠ sep := fun h => hp (by simp [h])
      have htail : sep ∉ p := fun h => hp (by simp [h])
      simp [pieces, hc, ih htail]

/-- A nonempty separator-free text is its own only piece. -/
theorem pieces_of_not_mem [DecidableEq α] {sep : α} {p : List α} (hp : sep ∉ p) (hne : p ≠ []) :
    pieces sep p = [p] := by
  induction p with
  | nil => exact absurd rfl hne
  | cons c p ih =>
      have hc : c ≠ sep := fun h => hp (by simp [h])
      have htail : sep ∉ p := fun h => hp (by simp [h])
      cases p with
      | nil => simp [pieces, hc]
      | cons d p =>
          rw [pieces, if_neg hc, ih htail (by simp)]

/-- Separator-free pieces survive being written and cut again. -/
theorem pieces_unpieces [DecidableEq α] {sep : α} {ps : List (List α)}
    (hps : ∀ p ∈ ps, sep ∉ p) : pieces sep (unpieces sep ps) = ps := by
  induction ps with
  | nil => rfl
  | cons p ps ih =>
      rw [unpieces_cons, pieces_append_sep (hps p (by simp))]
      rw [ih fun q hq => hps q (by simp [hq])]

/-- Every text is written pieces with a separator-free rest behind them. -/
theorem exists_unpieces_append [DecidableEq α] (sep : α) (s : List α) :
    ∃ ps e, (∀ p ∈ ps, sep ∉ p) ∧ sep ∉ e ∧ s = unpieces sep ps ++ e := by
  induction s with
  | nil => exact ⟨[], [], by simp, by simp, rfl⟩
  | cons c s ih =>
      obtain ⟨ps, e, hps, he, rfl⟩ := ih
      by_cases hc : c = sep
      · subst hc
        exact ⟨[] :: ps, e, by simpa using hps, he, by simp⟩
      · cases ps with
        | nil => exact ⟨[], c :: e, by simp, by simp [he, Ne.symm hc], by simp⟩
        | cons p ps => exact ⟨(c :: p) :: ps, e, by simp_all [Ne.symm hc], he, by simp⟩

theorem pieces_unpieces_append [DecidableEq α] {sep : α} {ps : List (List α)}
    (hps : ∀ p ∈ ps, sep ∉ p) (e : List α) :
    pieces sep (unpieces sep ps ++ e) = ps ++ pieces sep e := by
  induction ps with
  | nil => rfl
  | cons p ps ih =>
      rw [unpieces_cons, List.append_assoc, List.cons_append, pieces_append_sep (hps p (by simp)),
        ih fun q hq => hps q (by simp [hq]), List.cons_append]

/-- The pieces behind which a rest is written, the rest among them unless it is
empty. -/
theorem mem_pieces_unpieces_append [DecidableEq α] {sep : α} {ps : List (List α)} {e : List α}
    (hps : ∀ p ∈ ps, sep ∉ p) (he : sep ∉ e) {p : List α} :
    p ∈ pieces sep (unpieces sep ps ++ e) ↔ p ∈ ps ∨ p = e ∧ e ≠ [] := by
  rw [pieces_unpieces_append hps, List.mem_append]
  by_cases hempty : e = []
  · simp [hempty]
  · rw [pieces_of_not_mem he hempty, List.mem_singleton]
    simp [hempty]

/-- A split at the separator gives the pieces and, in any case, the rest. -/
theorem splitOn_unpieces_append [DecidableEq α] {sep : α} {ps : List (List α)} {e : List α}
    (hps : ∀ p ∈ ps, sep ∉ p) (he : sep ∉ e) :
    (unpieces sep ps ++ e).splitOn sep = ps ++ [e] := by
  induction ps with
  | nil => exact List.splitOn_eq_singleton he
  | cons p ps ih =>
      rw [unpieces_cons, List.append_assoc, List.cons_append,
        List.splitOn_append_cons_self_of_not_mem (hps p (by simp)),
        ih fun q hq => hps q (by simp [hq]), List.cons_append]

/-- No field of a split contains the separator. -/
theorem not_mem_of_mem_splitOn [DecidableEq α] {sep : α} {s f : List α}
    (hf : f ∈ s.splitOn sep) : sep ∉ f := by
  obtain ⟨ps, e, hps, he, rfl⟩ := exists_unpieces_append sep s
  rw [splitOn_unpieces_append hps he, List.mem_append, List.mem_singleton] at hf
  rcases hf with hf | rfl
  · exact hps f hf
  · exact he

/-- The pieces are those of a split at the separator, without an empty last one. -/
theorem pieces_eq_splitOn [DecidableEq α] (sep : α) (s : List α) :
    pieces sep s =
      if (s.splitOn sep).getLast? = some [] then (s.splitOn sep).dropLast else s.splitOn sep := by
  obtain ⟨ps, e, hps, he, rfl⟩ := exists_unpieces_append sep s
  rw [splitOn_unpieces_append hps he, pieces_unpieces_append hps, List.getLast?_concat,
    List.dropLast_concat]
  by_cases hempty : e = []
  · rw [if_pos (congrArg some hempty), hempty, pieces_nil, List.append_nil]
  · rw [if_neg fun h => hempty (Option.some.inj h), pieces_of_not_mem he hempty]

/-- Joined pieces are written pieces with the last one behind them. -/
theorem intercalate_concat (sep : α) (ps : List (List α)) (e : List α) :
    [sep].intercalate (ps ++ [e]) = unpieces sep ps ++ e := by
  induction ps with
  | nil => simp
  | cons p ps ih =>
      cases ps with
      | nil => simp [List.intercalate_cons_cons]
      | cons q ps =>
          rw [List.cons_append, List.cons_append, List.intercalate_cons_cons,
            ← List.cons_append, ih, unpieces_cons sep p]
          simp

/-- The joined pieces of a text are the text, up to one separator at its end. -/
theorem intercalate_pieces [DecidableEq α] (sep : α) (s : List α) :
    [sep].intercalate (pieces sep s) = s ∨ [sep].intercalate (pieces sep s) ++ [sep] = s := by
  obtain ⟨ps, e, hps, he, rfl⟩ := exists_unpieces_append sep s
  rw [pieces_unpieces_append hps]
  by_cases hempty : e = []
  · rw [hempty, pieces_nil, List.append_nil, List.append_nil]
    rcases List.eq_nil_or_concat ps with rfl | ⟨init, p, rfl⟩
    · exact Or.inl rfl
    · right
      rw [List.concat_eq_append, intercalate_concat]
      simp
  · left
    rw [pieces_of_not_mem he hempty, intercalate_concat]

/-- No piece contains the separator. -/
theorem not_mem_of_mem_pieces [DecidableEq α] {sep : α} {s p : List α} (hp : p ∈ pieces sep s) :
    sep ∉ p := by
  induction s generalizing p with
  | nil => simp at hp
  | cons c s ih =>
      by_cases hc : c = sep
      · rw [pieces, if_pos hc, List.mem_cons] at hp
        rcases hp with rfl | hp
        · simp
        · exact ih hp
      · rw [pieces, if_neg hc] at hp
        cases hs : pieces sep s with
        | nil =>
            rw [hs] at hp
            simp only [List.mem_singleton] at hp
            subst hp
            simpa using fun h => hc h.symm
        | cons q qs =>
            rw [hs] at hp ih
            rcases List.mem_cons.mp hp with rfl | hp
            · have hq : sep ∉ q := ih (by simp)
              simp only [List.mem_cons, not_or]
              exact ⟨fun h => hc h.symm, hq⟩
            · exact ih (by simp [hp])

/-- A text that ends in the separator is what its pieces write. -/
theorem unpieces_pieces_append_sep [DecidableEq α] (sep : α) (s : List α) :
    unpieces sep (pieces sep (s ++ [sep])) = s ++ [sep] := by
  induction s with
  | nil => simp [pieces]
  | cons c s ih =>
      by_cases hc : c = sep
      · rw [List.cons_append, pieces, if_pos hc, unpieces_cons, ih, hc]
        rfl
      · rw [List.cons_append, pieces, if_neg hc]
        cases hs : pieces sep (s ++ [sep]) with
        | nil =>
            rw [hs] at ih
            exact absurd ih.symm (by simp)
        | cons p ps =>
            rw [hs, unpieces_cons] at ih
            rw [unpieces_cons, List.cons_append, ih]

/-- Pieces that agree with others or are longer write the same text only when they
all agree. -/
theorem eq_of_unpieces_eq {sep : α} {ps qs : List (List α)}
    (h : List.Forall₂ (fun p q => p = q ∨ q.length < p.length) ps qs)
    (htext : unpieces sep ps = unpieces sep qs) : ps = qs := by
  have hlength : (unpieces sep qs).length ≤ (unpieces sep ps).length ∧
      ((unpieces sep qs).length = (unpieces sep ps).length → ps = qs) := by
    clear htext
    induction h with
    | nil => simp
    | @cons p q ps qs hfirst _ ih =>
        rw [unpieces_cons, unpieces_cons, List.length_append, List.length_append, List.length_cons,
          List.length_cons]
        rcases hfirst with rfl | hlonger
        · exact ⟨by omega, fun hsame => by rw [ih.2 (by omega)]⟩
        · exact ⟨by omega, fun hsame => by omega⟩
  exact hlength.2 (congrArg List.length htext).symm

/-- The first of several pieces ends at a separator. -/
theorem eq_append_of_pieces_eq [DecidableEq α] {sep : α} {s p q : List α} {ps : List (List α)}
    (h : pieces sep s = p :: q :: ps) : ∃ v, s = p ++ sep :: v ∧ pieces sep v = q :: ps := by
  induction s generalizing p with
  | nil => simp at h
  | cons c s ih =>
      rw [pieces] at h
      split at h
      · rename_i hc
        rw [List.cons.injEq] at h
        exact ⟨s, by rw [← h.1, hc]; rfl, h.2⟩
      · cases hs : pieces sep s with
        | nil => simp [hs] at h
        | cons p' ps' =>
            simp only [hs, List.cons.injEq] at h
            obtain ⟨v, hv, hrest⟩ := ih (hs.trans (by rw [h.2]))
            exact ⟨v, by rw [hv, ← h.1]; rfl, hrest⟩

/-- A piece that is not the last one stands in front of a separator. -/
theorem infix_of_mem_dropLast_pieces [DecidableEq α] {sep : α} {s p : List α}
    (h : p ∈ (pieces sep s).dropLast) : p ++ [sep] <:+: s := by
  induction hps : pieces sep s generalizing s with
  | nil => simp [hps] at h
  | cons q qs ih =>
      cases qs with
      | nil => simp [hps] at h
      | cons r rs =>
          obtain ⟨v, hs, hv⟩ := eq_append_of_pieces_eq hps
          rw [hps, List.dropLast_cons_cons, List.mem_cons] at h
          rcases h with rfl | h
          · exact ⟨[], v, by simp [hs]⟩
          · have hin : p ++ [sep] <:+: v := ih (by rwa [hv]) hv
            exact hin.trans ⟨q ++ [sep], [], by simp [hs]⟩

/-- Nonempty separator-free names joined by the separator are its pieces. -/
theorem pieces_intercalate [DecidableEq α] {sep : α} {ps : List (List α)} (hne : ps ≠ [])
    (hps : ∀ p ∈ ps, p ≠ [] ∧ sep ∉ p) : pieces sep ([sep].intercalate ps) = ps := by
  induction ps with
  | nil => exact absurd rfl hne
  | cons p ps ih =>
      obtain ⟨hp, hsep⟩ := hps p (by simp)
      cases ps with
      | nil => simpa using pieces_of_not_mem hsep hp
      | cons q qs =>
          have hrest := ih (by simp) fun r hr => hps r (by simp [hr])
          rw [List.intercalate_cons_cons, List.append_assoc, List.singleton_append,
            pieces_append_sep hsep, hrest]

/-- Writing more behind a text continues its last piece at most: its pieces are
prefixes of the first pieces of the longer text. -/
theorem pieces_append_forall₂ [DecidableEq α] (sep : α) (s v : List α) :
    ∃ qs rest, pieces sep (s ++ v) = qs ++ rest ∧
      List.Forall₂ (· <+: ·) (pieces sep s) qs := by
  induction s with
  | nil => exact ⟨[], pieces sep v, rfl, List.Forall₂.nil⟩
  | cons c s ih =>
      obtain ⟨qs, rest, happend, hprefix⟩ := ih
      by_cases hc : c = sep
      · rw [List.cons_append, pieces, pieces, if_pos hc, if_pos hc, happend]
        exact ⟨[] :: qs, rest, rfl, hprefix.cons List.prefix_rfl⟩
      · rw [List.cons_append, pieces, pieces, if_neg hc, if_neg hc, happend]
        cases hs : pieces sep s with
        | nil =>
            rw [hs, List.forall₂_nil_left_iff] at hprefix
            subst hprefix
            cases rest with
            | nil => exact ⟨[[c]], [], rfl, List.Forall₂.nil.cons List.prefix_rfl⟩
            | cons q rest => exact ⟨[c :: q], rest, rfl, List.Forall₂.nil.cons (by simp)⟩
        | cons p ps =>
            rw [hs, List.forall₂_cons_left_iff] at hprefix
            obtain ⟨q, qs, hpq, hps, rfl⟩ := hprefix
            exact ⟨(c :: q) :: qs, rest, rfl,
              List.Forall₂.cons (List.cons_prefix_cons.mpr ⟨rfl, hpq⟩) hps⟩

/-- A piece of a prefix of a text starts a piece of the text. -/
theorem mem_pieces_of_prefix [DecidableEq α] {sep : α} {s t p : List α} (hst : s <+: t)
    (hp : p ∈ pieces sep s) : ∃ q ∈ pieces sep t, p <+: q := by
  obtain ⟨v, rfl⟩ := hst
  obtain ⟨qs, rest, happend, hprefix⟩ := pieces_append_forall₂ sep s v
  obtain ⟨n, hn, rfl⟩ := List.getElem_of_mem hp
  have hlen := hprefix.length_eq
  refine ⟨qs[n], ?_, hprefix.get hn (by omega)⟩
  rw [happend]
  exact List.mem_append_left _ (List.getElem_mem _)

end Library
end ModpackInstaller
