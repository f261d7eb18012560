import ModpackInstaller.Library.Cut
import ModpackInstaller.Server.ChangeFold

/-!
# What a change line does to the other lines

The frame of one step of the change-log fold: the lines with another key stay as
they are, each a line of its own, in their order.  The text may be any text; what
stands behind its last newline is a line that nothing ends.  {lit}`AnchoredIn`
says when a step keeps the other lines.

Main results:

- Theorem {lit}`kept_swap_iff`: a rewriting keeps the other lines exactly when it
  hits whole lines only.
- Theorem {lit}`kept_remove_iff`: so does a removal.  Every hit at the end of
  another line costs the text the length of a whole line.
- Theorem {lit}`kept_append_iff`: a new line needs the end of the last one.
- Theorem {lit}`kept_iff_anchored`: the frame law holds exactly for the anchored
  change lines.
-/

namespace ModpackInstaller
namespace Server

open Library Update

/-! ## Lines with another key -/

/-- The lines of a text that a newline ends. -/
def endedLines (t : Text) : List Text :=
  (t.splitOn '\n').dropLast

/-- What stands behind the last newline. -/
def openLine (t : Text) : Text :=
  (t.splitOn '\n').getLastD []

/-- The lines with another key. -/
def otherLines (key : Text) (lines : List Text) : List Text :=
  lines.filter fun l => decide (keyOf l ≠ some key)

/-- The lines with another key are lines of the second text, in their order and
with their ends. -/
def Kept (key t t' : Text) : Prop :=
  (otherLines key (endedLines t)).Sublist (endedLines t') ∧
    (openLine t ≠ [] → keyOf (openLine t) ≠ some key → openLine t' = openLine t)

/-- The step rewrites whole lines if it rewrites, and what it writes behind the
text stands behind a newline. -/
def AnchoredIn (t : Text) (o : Op) (key : Text) : Prop :=
  match o with
  | .add =>
    if Op.del.line key ∈ pieces '\n' t then OnlyWhole (pieces '\n' t) .del key
    else if Op.add.line key ∉ pieces '\n' t ∧ Op.upd.line key ∉ pieces '\n' t then openLine t = []
    else True
  | .del =>
    if Op.add.line key ∈ pieces '\n' t ∨ Op.upd.line key ∈ pieces '\n' t then
      OnlyWholeAtEnd (endedLines t) .add key ∧ OnlyWholeAtEnd (endedLines t) .upd key
    else if Op.del.line key ∉ pieces '\n' t then openLine t = []
    else True
  | .upd =>
    if Op.del.line key ∈ pieces '\n' t then OnlyWhole (pieces '\n' t) .del key
    else if Op.add.line key ∈ pieces '\n' t then OnlyWhole (pieces '\n' t) .add key
    else if Op.upd.line key ∉ pieces '\n' t then openLine t = []
    else True

instance (t : Text) (o : Op) (key : Text) : Decidable (AnchoredIn t o key) :=
  match o with
  | .add => inferInstanceAs (Decidable (ite _ _ (ite _ _ _)))
  | .del => inferInstanceAs (Decidable (ite _ _ (ite _ _ _)))
  | .upd => inferInstanceAs (Decidable (ite _ _ (ite _ _ (ite _ _ _))))

section Split

variable {lines : List Text} {e : Text}

theorem endedLines_append (hlines : ∀ l ∈ lines, '\n' ∉ l) (he : '\n' ∉ e) :
    endedLines (unpieces '\n' lines ++ e) = lines := by
  rw [endedLines, splitOn_unpieces_append hlines he, List.dropLast_concat]

theorem openLine_append (hlines : ∀ l ∈ lines, '\n' ∉ l) (he : '\n' ∉ e) :
    openLine (unpieces '\n' lines ++ e) = e := by
  rw [openLine, splitOn_unpieces_append hlines he, List.getLastD_concat]

/-- The frame law for texts that are given by their lines. -/
theorem kept_append {key : Text} {lines' : List Text} {e' : Text}
    (hlines : ∀ l ∈ lines, '\n' ∉ l) (he : '\n' ∉ e)
    (hlines' : ∀ l ∈ lines', '\n' ∉ l) (he' : '\n' ∉ e') :
    Kept key (unpieces '\n' lines ++ e) (unpieces '\n' lines' ++ e') ↔
      (otherLines key lines).Sublist lines' ∧ (e ≠ [] → keyOf e ≠ some key → e' = e) := by
  rw [Kept, endedLines_append hlines he, endedLines_append hlines' he', openLine_append hlines he,
    openLine_append hlines' he']

end Split

variable {lines : List Text} {key : Text}

theorem line_ne {o o' : Op} (h : o ≠ o') (key : Text) : o.line key ≠ o'.line key := by
  cases o <;> cases o' <;> simp_all [Op.line, Op.char]

theorem length_line (o : Op) (key : Text) : (o.line key).length = key.length + 1 := rfl

/-- The text for an operation on a key lies in an instruction on the same key only
as the whole of it. -/
theorem eq_of_line_inside {o o' : Op} (h : o.line key <:+: o'.line key) :
    o'.line key = o.line key :=
  (h.eq_of_length (by rw [length_line, length_line])).symm

/-- A line that is not the whole of an instruction it has inside has another key. -/
theorem keyOf_ne_of_inside {o : Op} {l : Text} (hin : o.line key <:+: l) (hne : l ≠ o.line key) :
    keyOf l ≠ some key := by
  intro hown
  obtain ⟨o', rfl⟩ := keyOf_eq_some.mp hown
  exact hne (eq_of_line_inside hin)

/-! ## Rewriting -/

/-- A function on lines that keeps the key of the lines with this key, and whose
result has the other lines in order, leaves every other line alone. -/
theorem fixed_of_sublist_map {P : Text → Bool} {f : Text → Text}
    (hown : ∀ l, P l = false → P (f l) = false)
    (h : (lines.filter P).Sublist (lines.map f)) : ∀ l ∈ lines, P l = true → f l = l := by
  have hothers : ((lines.map f).filter P).Sublist ((lines.filter P).map f) := by
    clear h
    induction lines with
    | nil => exact List.Sublist.refl _
    | cons l lines ih =>
        cases hl : P l with
        | false =>
            rw [List.map_cons, List.filter_cons_of_neg (by simp [hown l hl]),
              List.filter_cons_of_neg (by simp [hl])]
            exact ih
        | true =>
            rw [List.filter_cons_of_pos hl, List.map_cons, List.map_cons, List.filter_cons]
            split
            · exact ih.cons_cons _
            · exact ih.cons _
  have hsublist : (lines.filter P).Sublist ((lines.filter P).map f) := by
    have hfilter := h.filter P
    rw [List.filter_filter] at hfilter
    simp only [Bool.and_self] at hfilter
    exact hfilter.trans hothers
  have hequal := hsublist.eq_of_length (List.length_map f).symm
  intro l hl hP
  have hid : (lines.filter P).map id = (lines.filter P).map f := by rwa [List.map_id]
  exact (List.map_inj_left.mp hid l (List.mem_filter.mpr ⟨hl, hP⟩)).symm

/-- Lines that a function leaves alone are among its results, in their order. -/
theorem filter_sublist_map {P : Text → Bool} {f : Text → Text}
    (h : ∀ l ∈ lines, P l = true → f l = l) : (lines.filter P).Sublist (lines.map f) := by
  have hsame : (lines.filter P).map f = lines.filter P := by
    refine (List.map_congr_left fun l hl => ?_).trans (List.map_id _)
    exact h l (List.mem_of_mem_filter hl) (List.of_mem_filter hl)
  rw [← hsame]
  exact List.filter_sublist.map f

/-- A rewriting keeps the other lines exactly when it hits whole lines only. -/
theorem kept_swap_iff {o : Op} (ho : o ≠ .upd) {t : Text} (hkey : '\n' ∉ key) (hnul : nul ∉ key) :
    Kept key t (strReplaceText t (cstr (o.line key)) (cstr (Op.upd.line key))) ↔
      OnlyWhole (pieces '\n' t) o key := by
  obtain ⟨lines, e, hlines, he, rfl⟩ := exists_unpieces_append '\n' t
  have hne : o.line key ≠ [] := by simp [Op.line]
  have hlen : (o.line key).length ≤ (Op.upd.line key).length := le_of_eq rfl
  have hclear {l : Text} (hl : '\n' ∉ l) :
      '\n' ∉ replaceAll (o.line key) (Op.upd.line key) l := fun hmem =>
    (mem_replaceAll hmem).elim hl (newline_not_mem_line hkey)
  have hmiss {l : Text} (hfixed : replaceAll (o.line key) (Op.upd.line key) l = l) :
      ¬ o.line key <:+: l := not_infix_of_replaceAll_eq hne hlen (line_ne ho.symm key) hfixed
  have hmem {l : Text} := mem_pieces_unpieces_append hlines he (p := l)
  rw [cstr_line hnul, cstr_line hnul, strReplaceText_eq_replaceAll hne,
    replaceAll_unpieces_append hne (newline_not_mem_line hkey),
    kept_append hlines he (List.forall_mem_map.mpr fun l hl => hclear (hlines l hl)) (hclear he)]
  constructor
  · rintro ⟨hothers, hrest⟩
    refine ⟨hnul, fun l hl hin => ?_⟩
    by_contra hwhole
    have hother := keyOf_ne_of_inside hin hwhole
    rcases hmem.mp hl with hl | ⟨rfl, hopen⟩
    · refine hmiss (fixed_of_sublist_map (fun l hl => ?_) hothers l hl (by simpa using hother)) hin
      obtain ⟨o', rfl⟩ := keyOf_eq_some.mp (by simpa using hl : keyOf l = some key)
      rw [replaceAll_whole hne eq_of_line_inside]
      split <;> simp
    · exact hmiss (hrest hopen hother) hin
  · rintro ⟨-, hwhole⟩
    have hfixed {l : Text} (hl : l ∈ pieces '\n' (unpieces '\n' lines ++ e))
        (hother : keyOf l ≠ some key) : replaceAll (o.line key) (Op.upd.line key) l = l := by
      rw [replaceAll_whole hne (hwhole l hl), if_neg]
      rintro rfl
      exact hother (keyOf_line o key)
    refine ⟨filter_sublist_map fun l hl hother => ?_, fun hopen hother => ?_⟩
    · exact hfixed (hmem.mpr (Or.inl hl)) (by simpa using hother)
    · exact hfixed (hmem.mpr (Or.inr ⟨rfl, hopen⟩)) hother

/-! ## Removing -/

/-- The lines with another key that end in one of the removed texts. -/
def hitAtEnd (key l : Text) : Bool :=
  decide (keyOf l ≠ some key) &&
    (decide (Op.add.line key <:+ l) || decide (Op.upd.line key <:+ l))

/-- What one line weighs, in a count in which lines for a deletion are nothing. -/
theorem endWeight_line (key l : Text) :
    endWeight (Op.del.line key) l + (key.length + 2) * (if hitAtEnd key l = true then 1 else 0) ≤
      (if keyOf l = some key then 0 else endWeight (Op.del.line key) l) +
        (key.length + 2) * (if decide (Op.add.line key <:+ l) = true then 1 else 0) +
        (key.length + 2) * (if decide (Op.upd.line key <:+ l) = true then 1 else 0) := by
  by_cases hown : keyOf l = some key
  · have hmiss : hitAtEnd key l = false := by simp [hitAtEnd, hown]
    obtain ⟨o, rfl⟩ := keyOf_eq_some.mp hown
    have hsuffix (o' : Op) : o'.line key <:+ o.line key ↔ o' = o := by
      constructor
      · intro h
        by_contra hne
        exact line_ne hne key (eq_of_line_inside h.isInfix).symm
      · rintro rfl
        exact List.suffix_refl _
    have hle := endWeight_le (q := Op.del.line key) (o.line key)
    rw [length_line] at hle
    cases o with
    | add => simp [hmiss, hsuffix, hle]
    | del =>
        have hdel := endWeight_of_suffix (List.suffix_refl (Op.del.line key))
        rw [hmiss]
        simp
        omega
    | upd => simp [hmiss, hsuffix, hle]
  · by_cases hadd : Op.add.line key <:+ l
    · simp [hitAtEnd, hown, hadd]
    · by_cases hupd : Op.upd.line key <:+ l
      · simp [hitAtEnd, hown, hadd, hupd]
      · simp [hitAtEnd, hown, hadd, hupd]

/-- The lines with this key weigh what their removal takes, and every other line
that is hit is one too many. -/
theorem totalWeight_lines (lines : List Text) (key : Text) :
    totalWeight (Op.del.line key) lines + (key.length + 2) * lines.countP (hitAtEnd key) ≤
      totalWeight (Op.del.line key) (otherLines key lines) +
        (key.length + 2) * lines.countP (fun l => decide (Op.add.line key <:+ l)) +
        (key.length + 2) * lines.countP (fun l => decide (Op.upd.line key <:+ l)) := by
  induction lines with
  | nil => simp
  | cons l lines ih =>
      have hline := endWeight_line key l
      rw [totalWeight_cons, List.countP_cons, List.countP_cons, List.countP_cons, Nat.mul_add,
        Nat.mul_add, Nat.mul_add]
      by_cases hown : keyOf l = some key
      · rw [if_pos hown] at hline
        rw [otherLines, List.filter_cons_of_neg (by simp [hown]), ← otherLines]
        omega
      · rw [if_neg hown] at hline
        rw [otherLines, List.filter_cons_of_pos (by simpa using hown), ← otherLines,
          totalWeight_cons]
        omega

/-- Two deletions that keep the other lines hit none of them. -/
theorem not_hit_of_sublist {e : Text} {first second : List Text × Text}
    (hfirst : cutEnds (Op.add.line key) e [] lines = first)
    (hsecond : cutEnds (Op.upd.line key) first.2 [] first.1 = second)
    (h : (otherLines key lines).Sublist second.1) : ∀ l ∈ lines, ¬ hitAtEnd key l = true := by
  have hweight₁ := totalWeight_cutEnds (q := Op.del.line key) (p := Op.add.line key) (e := e)
    rfl (line_ne (by decide) key) [] lines
  have hweight₂ := totalWeight_cutEnds (q := Op.del.line key) (p := Op.upd.line key) (e := first.2)
    rfl (line_ne (by decide) key) [] first.1
  have hmore := countP_cutEnds (q := Op.upd.line key) (p := Op.add.line key) (e := e) rfl
    (line_ne (by decide) key) [] lines
  have hgrown₁ := length_le_cutEnds (p := Op.add.line key) (e := e) [] lines
  have hgrown₂ := length_le_cutEnds (p := Op.upd.line key) (e := first.2) [] first.1
  rw [hfirst] at hweight₁ hmore hgrown₁
  rw [hsecond] at hweight₂ hgrown₂
  have hkept := totalWeight_le_of_sublist (q := Op.del.line key) h
  have hall := totalWeight_lines lines key
  have hmul := Nat.mul_le_mul_left (key.length + 2) hmore
  have hlength (o : Op) : (o.line key).length + 1 = key.length + 2 := rfl
  rw [← List.countP_eq_zero]
  by_contra hsome
  have hle := Nat.le_mul_of_pos_right (key.length + 2) (Nat.pos_of_ne_zero hsome)
  rw [hlength, List.length_nil] at hweight₁ hweight₂
  omega

/-- When no other line is hit, a line ends in a removed text only as the whole of
it. -/
theorem onlyWholeAtEnd_of_not_hit {o : Op} (ho : o ≠ .del) (hnul : nul ∉ key)
    (hmiss : ∀ l ∈ lines, ¬ hitAtEnd key l = true) : OnlyWholeAtEnd lines o key := by
  refine ⟨hnul, fun l hl hend => ?_⟩
  by_contra hwhole
  have hother := keyOf_ne_of_inside hend.isInfix hwhole
  refine hmiss l hl ?_
  cases o with
  | add | upd => simp [hitAtEnd, hother, hend]
  | del => exact absurd rfl ho

/-- A removal keeps the other lines exactly when they end in none of the removed
texts. -/
theorem kept_remove_iff {t : Text} (hkey : '\n' ∉ key) (hnul : nul ∉ key) :
    Kept key t (strReplaceText (strReplaceText t (cstr (Op.add.line key ++ ['\n'])) [])
        (cstr (Op.upd.line key ++ ['\n'])) []) ↔
      OnlyWholeAtEnd (endedLines t) .add key ∧ OnlyWholeAtEnd (endedLines t) .upd key := by
  obtain ⟨lines, e, hlines, he, rfl⟩ := exists_unpieces_append '\n' t
  have hline (o : Op) : '\n' ∉ o.line key := newline_not_mem_line hkey
  -- The lines and the rest behind the first deletion, and behind the second.
  cases hfirst : cutEnds (Op.add.line key) e [] lines with
  | mk lines₁ e₁ =>
  cases hsecond : cutEnds (Op.upd.line key) e₁ [] lines₁ with
  | mk lines₂ e₂ =>
  have hclear₁ := not_mem_cutEnds (p := Op.add.line key) he hlines (g := []) (by simp)
  rw [hfirst] at hclear₁
  have hclear₂ := not_mem_cutEnds (p := Op.upd.line key) hclear₁.2 hclear₁.1 (g := []) (by simp)
  rw [hsecond] at hclear₂
  have htext₁ := replaceAll_terminated_eq (hline .add) he hlines []
  have htext₂ := replaceAll_terminated_eq (hline .upd) hclear₁.2 hclear₁.1 []
  rw [hfirst, List.nil_append] at htext₁
  rw [hsecond, List.nil_append] at htext₂
  rw [cstr_line_newline hnul, cstr_line_newline hnul, strReplaceText_eq_replaceAll (by simp),
    strReplaceText_eq_replaceAll (by simp), htext₁, htext₂, endedLines_append hlines he,
    kept_append hlines he hclear₂.1 hclear₂.2]
  constructor
  · rintro ⟨hothers, -⟩
    have hmiss := not_hit_of_sublist hfirst hsecond hothers
    exact ⟨onlyWholeAtEnd_of_not_hit (by decide) hnul hmiss,
      onlyWholeAtEnd_of_not_hit (by decide) hnul hmiss⟩
  · rintro ⟨⟨-, hadd⟩, -, hupd⟩
    rw [cutEnds_of_whole hadd] at hfirst
    obtain ⟨rfl, rfl⟩ := Prod.mk.inj hfirst
    rw [cutEnds_of_whole fun l hl => hupd l (List.mem_of_mem_filter hl)] at hsecond
    obtain ⟨rfl, rfl⟩ := Prod.mk.inj hsecond
    refine ⟨?_, fun _ _ => rfl⟩
    rw [otherLines, List.filter_filter]
    refine List.monotone_filter_right lines fun l hother => ?_
    have hne (o : Op) : l ≠ o.line key := by
      rintro rfl
      simp at hother
    simp [hne]

/-! ## Writing behind the text -/

/-- A new line keeps the other lines exactly when it starts behind a newline. -/
theorem kept_append_iff {t l : Text} (hl : '\n' ∉ l) (hnew : ∀ o : Op, o.line key ∉ pieces '\n' t) :
    Kept key t (t ++ (l ++ ['\n'])) ↔ openLine t = [] := by
  obtain ⟨lines, e, hlines, he, rfl⟩ := exists_unpieces_append '\n' t
  have htext : unpieces '\n' lines ++ e ++ (l ++ ['\n']) =
      unpieces '\n' (lines ++ [e ++ l]) ++ [] := by simp
  have hclear : ∀ l' ∈ lines ++ [e ++ l], '\n' ∉ l' := by
    intro l' hl'
    rcases List.mem_append.mp hl' with hl' | hl'
    · exact hlines l' hl'
    · obtain rfl := List.mem_singleton.mp hl'
      simp [he, hl]
  rw [htext, kept_append hlines he hclear (by simp), openLine_append hlines he]
  constructor
  · rintro ⟨-, hrest⟩
    by_contra hopen
    have hother : keyOf e ≠ some key := by
      intro hown
      obtain ⟨o, rfl⟩ := keyOf_eq_some.mp hown
      exact hnew o ((mem_pieces_unpieces_append hlines he).mpr (Or.inr ⟨rfl, hopen⟩))
    exact hopen (hrest hopen hother).symm
  · rintro rfl
    exact ⟨List.filter_sublist.trans (List.sublist_append_left _ _), fun hopen => absurd rfl hopen⟩

theorem kept_refl (key t : Text) : Kept key t t :=
  ⟨List.filter_sublist, fun _ _ => rfl⟩

/-! ## The frame law -/

/-- A change line keeps the lines with another key exactly when it is anchored. -/
theorem kept_iff_anchored {t : Text} {o : Op} (hkey : '\n' ∉ key) (hnul : nul ∉ key) :
    Kept key t (applyChange t (o.line key)) ↔ AnchoredIn t o key := by
  have happend (o : Op) (hnew : ∀ o : Op, o.line key ∉ pieces '\n' t) :
      Kept key t (t ++ (o.line key ++ ['\n'])) ↔ openLine t = [] :=
    kept_append_iff (newline_not_mem_line hkey) hnew
  cases o with
  | add =>
      rw [applyChange_add, AnchoredIn]
      split
      · exact kept_swap_iff (by decide) hkey hnul
      · split
        · rename_i hdel hmiss
          exact happend .add fun o => by cases o <;> simp [hdel, hmiss.1, hmiss.2]
        · exact iff_of_true (kept_refl key t) trivial
  | del =>
      rw [applyChange_del, AnchoredIn]
      split
      · exact kept_remove_iff hkey hnul
      · split
        · rename_i hmiss hdel
          rw [not_or] at hmiss
          exact happend .del fun o => by cases o <;> simp [hdel, hmiss.1, hmiss.2]
        · exact iff_of_true (kept_refl key t) trivial
  | upd =>
      rw [applyChange_upd, AnchoredIn]
      split
      · exact kept_swap_iff (by decide) hkey hnul
      · split
        · exact kept_swap_iff (by decide) hkey hnul
        · split
          · rename_i hdel hadd hupd
            exact happend .upd fun o => by cases o <;> simp [hdel, hadd, hupd]
          · exact iff_of_true (kept_refl key t) trivial

/-- Two files to be deleted, and one of them is updated after all. -/
theorem kept_update :
    Kept "umods/a".toList "-umods/a\n-umods/b\n".toList
      (applyChange "-umods/a\n-umods/b\n".toList (Op.upd.line "umods/a".toList)) :=
  (kept_iff_anchored (by decide) (by decide)).mpr (by decide)

/-- A path that starts with the path of the change line is updated with it. -/
theorem kept_fails :
    ¬ ∀ (t key : Text) (o : Op), '\n' ∉ key → nul ∉ key →
      Kept key t (applyChange t (o.line key)) := by
  intro h
  have hkept := h "-umods/a\n-umods/ab\n".toList "umods/a".toList .upd (by decide) (by decide)
  have hline : "-umods/ab".toList ∈
      otherLines "umods/a".toList (endedLines "-umods/a\n-umods/ab\n".toList) := by
    decide
  have hmem := hkept.1.subset hline
  revert hmem
  decide

end Server
end ModpackInstaller
