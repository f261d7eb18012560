import Mathlib.Data.List.Nodup
import ModpackInstaller.Server.Plan

/-!
# One instruction per path

The list diff names a path under the type character {lit}`u`, {lit}`f` or
{lit}`d`, and the change log names it under the one its author wrote.  The
merge of a change entry looks for lines with the same type character only.
This file says when the instruction text has at most one line per path.

Main results:

- Theorem {lit}`count_pathsOf_foldEntry_own_iff`: when one merge leaves at most one line
  for its path.
- Theorem {lit}`singlePath_iff`: a planner run returns at most one line per path exactly
  when the list lines and the last entry of every path see to it.
- Theorem {lit}`apart_of_listing`: two directory listings do.
-/

namespace ModpackInstaller
namespace Update

open Library Server

/-- The paths that the instructions among these lines name. -/
def pathsOf (lines : List Text) : List Text :=
  lines.filterMap pathOf

/-- At most one instruction line per path. -/
def SinglePath (instr : Text) : Prop :=
  (pathsOf (pieces '\n' instr)).Nodup

instance (instr : Text) : Decidable (SinglePath instr) :=
  inferInstanceAs (Decidable (List.Nodup _))

/-- A change entry leaves at most one line for its path: if no line has its type
character and path, the path has no line, and otherwise it has one at most, without those
that a deletion cancels. -/
def Alone (lines : List Text) (entry : Text) : Prop :=
  ∀ path ∈ pathOf entry, ∀ e ∈ parseLine entry,
    if ∃ l ∈ lines, keyOf l = some e.2 then
      (pathsOf (if e.1 = .del ∧ (Op.add.line e.2 ∈ lines ∨ Op.upd.line e.2 ∈ lines) then
        cancel e.2 lines else lines)).count path ≤ 1
    else path ∉ pathsOf lines

instance (lines : List Text) (entry : Text) : Decidable (Alone lines entry) :=
  inferInstanceAs (Decidable (∀ path ∈ pathOf entry, ∀ e ∈ parseLine entry, ite _ _ _))

/-- No two list lines are written for a path that no change entry names. -/
def Apart (log : List Text) (written : List (Text × Text)) : Prop :=
  written.Pairwise fun w w' => ∀ path, WrittenFor w.1 w.2 path → WrittenFor w'.1 w'.2 path →
    ∃ entry ∈ log, pathOf entry = some path

/-! ## One merge -/

section Step

variable {lines : List Text} {key : Text}

private theorem pathOf_line (o o' : Op) : pathOf (o.line key) = pathOf (o'.line key) := by
  simp [pathOf]

private theorem pathsOf_relabel (frm : Op) :
    pathsOf (lines.map (relabel frm key)) = pathsOf lines := by
  rw [pathsOf, pathsOf, List.filterMap_map]
  refine List.filterMap_congr fun l _ => ?_
  by_cases hhit : l = frm.line key
  · simp only [Function.comp, relabel, if_pos hhit]
    rw [hhit, pathOf_line]
  · simp [Function.comp, relabel, if_neg hhit]

private theorem pathsOf_append_line (lines : List Text) (l : Text) :
    pathsOf (lines ++ [l]) = pathsOf lines ++ (pathOf l).toList := by
  rw [pathsOf, pathsOf, List.filterMap_append]
  cases hl : pathOf l <;> simp [hl]

/-- The paths can be read off. -/
theorem pathsOf_congr {lines lines' : List Text} (h : lines.map reading = lines'.map reading) :
    pathsOf lines = pathsOf lines' := by
  have hread : ∀ lines : List Text, pathsOf lines =
      (lines.map reading).filterMap fun r => (r.map Prod.fst).bind pathOfKey := by
    intro lines
    rw [pathsOf, List.filterMap_map]
    refine List.filterMap_congr fun l _ => ?_
    rw [pathOf, keyOf_eq_map_reading]
    rfl
  rw [hread, hread, h]

/-- A merge does not touch the lines of another path. -/
theorem count_pathsOf_foldEntry_other {entry path : Text} (h : pathOf entry ≠ some path) :
    (pathsOf (foldEntry lines entry)).count path = (pathsOf lines).count path := by
  have hcount : ∀ lines : List Text, (pathsOf lines).count path =
      (lines.filter fun l => decide (pathOf l = some path)).length := by
    intro lines
    rw [pathsOf, List.count_filterMap, List.countP_eq_length_filter]
    simp [beq_eq_decide]
  rw [hcount, hcount]
  cases hparse : parseLine entry with
  | none => rw [foldEntry_of_parseLine_none hparse]
  | some e =>
      obtain ⟨o, key⟩ := e
      have hentry := parseLine_eq_some.mp hparse
      rw [hentry, foldEntry_line, foldLine_filter]
      intro o'
      rw [pathOf_line o' o, ← hentry]
      simpa using h

/-- A merge leaves at most one line for its path exactly when the lines see to it. -/
theorem count_pathsOf_foldEntry_own_iff {entry path : Text} (h : pathOf entry = some path) :
    (pathsOf (foldEntry lines entry)).count path ≤ 1 ↔ Alone lines entry := by
  obtain ⟨o, filetype, hentry⟩ := pathOf_eq_some.mp h
  subst hentry
  have halone : Alone lines (o.line (filetype :: path)) ↔
      if ∃ l ∈ lines, keyOf l = some (filetype :: path) then
        (pathsOf (if o = .del ∧ (Op.add.line (filetype :: path) ∈ lines ∨
            Op.upd.line (filetype :: path) ∈ lines) then
          cancel (filetype :: path) lines else lines)).count path ≤ 1
      else path ∉ pathsOf lines := by
    simp [Alone, h]
  have hkey : ∀ o' : Op, o'.line (filetype :: path) ∈ lines →
      ∃ l ∈ lines, keyOf l = some (filetype :: path) := fun o' hl => ⟨_, hl, keyOf_line _ _⟩
  rw [halone, foldEntry_line]
  have hstep := foldStep_foldLine lines o (filetype :: path)
  generalize foldLine lines o (filetype :: path) = result at hstep ⊢
  cases hstep with
  | relabel frm install present _ =>
      rw [if_pos (hkey frm present), if_neg fun hdel => install hdel.1, pathsOf_relabel]
  | cancel delete present =>
      rw [if_pos (present.elim (hkey _) (hkey _)), if_pos ⟨delete, present⟩]
  | append fresh =>
      have hnone : ¬ ∃ l ∈ lines, keyOf l = some (filetype :: path) := by
        rintro ⟨l, hl, hk⟩
        obtain ⟨o', rfl⟩ := keyOf_eq_some.mp hk
        exact fresh o' hl
      rw [if_neg hnone, pathsOf_append_line, h, Option.toList_some, List.count_append,
        List.count_singleton_self, ← List.count_eq_zero]
      omega
  | keep install delete =>
      by_cases hdel : o = .del
      · obtain ⟨hpresent, hadd, hupd⟩ := delete hdel
        have hnot : ¬ (o = .del ∧ (Op.add.line (filetype :: path) ∈ lines ∨
            Op.upd.line (filetype :: path) ∈ lines)) := fun hboth => hboth.2.elim hadd hupd
        rw [if_pos (hkey _ hpresent), if_neg hnot]
      · rw [if_pos ((install hdel).1.elim (hkey _) (hkey _)), if_neg fun hboth => hdel hboth.1]

end Step

/-! ## The list diff -/

/-- At most one of the values that are meant is there twice exactly when no two elements
have the same one. -/
private theorem count_filterMap_le_one_iff {α β : Type} [BEq β] [LawfulBEq β]
    {f : α → Option β} {P : β → Prop} (as : List α) :
    (∀ b, P b → (as.filterMap f).count b ≤ 1) ↔
      as.Pairwise fun a a' => ∀ b, f a = some b → f a' = some b → ¬ P b := by
  induction as with
  | nil => simp
  | cons a as ih =>
      rw [List.pairwise_cons, ← ih]
      cases hf : f a with
      | none => simp [hf]
      | some b =>
          rw [List.filterMap_cons_some hf]
          constructor
          · intro h
            refine ⟨fun a' ha' b' hb hb' hok => ?_, fun b' hok => ?_⟩
            · obtain rfl := Option.some.inj hb
              have hmem : b ∈ as.filterMap f := List.mem_filterMap.mpr ⟨a', ha', hb'⟩
              have htwice := h b hok
              rw [List.count_cons_self] at htwice
              have hpos := List.count_pos_iff.mpr hmem
              omega
            · exact (List.count_le_count_cons).trans (h b' hok)
          · rintro ⟨hhead, htail⟩ b' hok
            by_cases hb : b' = b
            · subst hb
              have hnone : b' ∉ as.filterMap f := by
                intro hmem
                obtain ⟨a', ha', hb'⟩ := List.mem_filterMap.mp hmem
                exact hhead a' ha' b' rfl hb' hok
              rw [List.count_cons_self, List.count_eq_zero.mpr hnone]
            · rw [List.count_cons_of_ne (Ne.symm hb)]
              exact htail b' hok

section Diff

variable {k : Kernel} {sys : Sys} {modpack list1 list2 : Text}

/-- A comment names no path. -/
private theorem pathOf_comment (modpack file : Text) :
    pathOf (addedLine modpack file none) = none := by
  rw [addedLine_none]
  rfl

/-- The paths that the diff names are those for which list lines are written. -/
theorem pathsOf_diffLines (hmodpack : '\n' ∉ modpack) :
    pathsOf (diffLines k sys modpack list1 list2) =
      (rewrites k sys modpack list1 list2).filterMap fun w =>
        pathOf (replaceAll "./".toList w.1 w.2) := by
  rw [diffLines, flatMap_textLines_addedTexts hmodpack fun _ => newline_not_mem_onlyIn, rewrites,
    pathsOf, List.filterMap_append, List.filterMap_append, List.filterMap_map, List.filterMap_map,
    addedTexts_eq_map, List.filterMap_map, List.filterMap_filterMap]
  congr 1
  refine List.filterMap_congr fun e _ => ?_
  obtain ⟨q, _ | type⟩ := e
  · exact pathOf_comment modpack q
  · simp [addedLine_some]

/-- The diff names no path twice, but for those of change entries, exactly when no two list
lines are written for such a path. -/
theorem count_pathsOf_diff_iff (hmodpack : '\n' ∉ modpack) (log : List Text) :
    (∀ path, (∀ entry ∈ log, pathOf entry ≠ some path) →
        (pathsOf (diffLines k sys modpack list1 list2)).count path ≤ 1) ↔
      Apart log (rewrites k sys modpack list1 list2) := by
  rw [pathsOf_diffLines hmodpack, Apart]
  apply (count_filterMap_le_one_iff (P := fun path => ∀ entry ∈ log, pathOf entry ≠ some path)
    _).trans
  refine List.Pairwise.iff_of_mem fun {w w'} hw hw' => forall_congr' fun path => ?_
  rw [writtenFor_of_mem hw, writtenFor_of_mem hw']
  push Not
  rfl

end Diff

/-! ## The list diff of directory listings -/

section Listing

variable {k : Kernel} {sys : Sys} {modpack list1 list2 : Text}

/-- A listing line is written for the path that it lists. -/
theorem writtenFor_listed {pre path path' : Text} (hin : ¬ "./".toList <:+: path') :
    WrittenFor pre (listed path') path ↔ path = "mods/".toList ++ path' := by
  have hplain : PlainListed (listed path') := ⟨path', rfl, hin⟩
  rw [WrittenFor, or_iff_left fun h => h.1 hplain]
  constructor
  · rintro ⟨path'', hlisted, -, rfl⟩
    rw [List.append_cancel_left hlisted]
  · exact fun hpath => ⟨path', rfl, hin, hpath⟩

/-- The lines that are written are lines of one list only. -/
theorem map_snd_rewrites_sublist :
    List.Sublist ((rewrites k sys modpack list1 list2).map Prod.snd)
      (onlyIn list1 list2 ++ onlyIn list2 list1) := by
  have hremoved : ((onlyIn list1 list2).map fun q => ("-umods/".toList, q)).map Prod.snd =
      onlyIn list1 list2 := by
    rw [List.map_map]
    exact List.map_id _
  have hadded : List.Sublist
      (((surveyed k modpack sys.clock (onlyIn list2 list1)).filterMap fun e =>
        e.2.map fun type => (addedPrefix type, e.1)).map Prod.snd) (onlyIn list2 list1) := by
    rw [List.map_filterMap]
    conv_rhs => rw [← map_fst_surveyed k modpack sys.clock (onlyIn list2 list1)]
    generalize surveyed k modpack sys.clock (onlyIn list2 list1) = es
    induction es with
    | nil => exact List.Sublist.refl _
    | cons e es ih =>
        rcases e with ⟨q, _ | type⟩
        · exact ih.cons q
        · exact ih.cons_cons q
  rw [rewrites, List.map_append, hremoved]
  exact (List.Sublist.refl _).append hadded

/-- No two lines are written for one path of two directory listings without repeated
lines. -/
theorem apart_of_listing (log : List Text) (hlist1 : ∀ l ∈ pieces '\n' list1, ListingLine l)
    (hlist2 : ∀ l ∈ pieces '\n' list2, ListingLine l) (hnodup1 : (pieces '\n' list1).Nodup)
    (hnodup2 : (pieces '\n' list2).Nodup) :
    Apart log (rewrites k sys modpack list1 list2) := by
  have hall : ∀ file ∈ onlyIn list1 list2 ++ onlyIn list2 list1,
      ∃ path, file = listed path ∧ ¬ "./".toList <:+: path := by
    intro file hfile
    rcases List.mem_append.mp hfile with h | h
    · exact listed_of_mem_onlyIn hlist1 h
    · exact listed_of_mem_onlyIn hlist2 h
  have hnodup : (onlyIn list1 list2 ++ onlyIn list2 list1).Nodup := by
    rw [onlyIn, onlyIn, strLines_eq_pieces, strLines_eq_pieces]
    apply List.Nodup.append (hnodup1.filter _) (hnodup2.filter _)
    intro file hfile1 hfile2
    rw [← strLines_eq_pieces] at hfile1
    exact (mem_onlyIn.mp hfile1).2.2.2 (List.mem_of_mem_filter hfile2)
  have hsub : List.Sublist ((rewrites k sys modpack list1 list2).map Prod.snd)
      (onlyIn list1 list2 ++ onlyIn list2 list1) := map_snd_rewrites_sublist
  refine (List.pairwise_map.mp (hnodup.sublist hsub)).imp_of_mem ?_
  intro w w' hw hw' hne path hpath hpath'
  obtain ⟨q, hq, hin⟩ := hall _ (hsub.subset (List.mem_map_of_mem hw))
  obtain ⟨q', hq', hin'⟩ := hall _ (hsub.subset (List.mem_map_of_mem hw'))
  rw [hq, writtenFor_listed hin] at hpath
  rw [hq', writtenFor_listed hin', hpath] at hpath'
  exact absurd (by rw [hq, hq', List.append_cancel_left hpath']) hne

end Listing

/-! ## A planner run -/

/-- The lines with the log worked in name every path once at most exactly when the list
lines and the last entry of every path see to it. -/
theorem pathsOf_foldl_nodup_iff {lines log : List Text} (hspared : SparedRun lines log) :
    (pathsOf (log.foldl rewriteEntry lines)).Nodup ↔
      (∀ path, (∀ entry ∈ log, pathOf entry ≠ some path) → (pathsOf lines).count path ≤ 1) ∧
        LastsMeet rewriteEntry pathOf Alone lines log := by
  have hrewrite : ∀ {lines entry}, SparedEntry lines entry →
      pathsOf (rewriteEntry lines entry) = pathsOf (foldEntry lines entry) :=
    fun h => pathsOf_congr (map_reading_rewriteEntry h)
  rw [List.nodup_iff_count_le_one]
  refine forall_foldl_iff_lastsMeet (P := fun path lines => (pathsOf lines).count path ≤ 1)
    (fun lines entry path hok hother => ?_) (fun lines entry path hok hown => ?_) hspared
  · rw [hrewrite hok, count_pathsOf_foldEntry_other hother]
  · rw [hrewrite hok]
    exact count_pathsOf_foldEntry_own_iff hown

/-- A planner run for a modpack with a name of one line returns its buffer.  When the steps
of the log spare the other lines, the buffer has at most one line per path exactly when no
two list lines are written for a path that no entry names and the last entry of every other
path leaves one line at most. -/
theorem singlePath_iff {k : Kernel} {sys : Sys} {modpack version : Text} {p : PlanReads}
    (hp : p.ReadFrom k sys modpack version) (hmodpack : '\n' ∉ modpack) (instr : Text) :
    (∃ sys', mcuCreateUpdateInstructions k sys instr modpack version =
        .ok ((0, p.instructions k modpack), sys')) ∧
      (SparedRun (p.diff k modpack) p.log →
        (SinglePath (p.instructions k modpack) ↔
          Apart p.log (rewrites k p.diffSys modpack p.list1 p.list2) ∧
            LastsMeet rewriteEntry pathOf Alone (p.diff k modpack) p.log)) := by
  refine ⟨mcuCreateUpdateInstructions_of_reads hp instr, fun hspared => ?_⟩
  rw [SinglePath, PlanReads.pieces_instructions hp hspared, pathsOf_foldl_nodup_iff hspared,
    PlanReads.diff, count_pathsOf_diff_iff hmodpack]

/-- A file is replaced by another one, and the log mentions the new one. -/
theorem singlePath_renamed :
    (mcuCreateUpdateInstructions
        (outdated ".\n./a\n".toList ".\n./b\n".toList "@1\n*fmods/b\n".toList
          fun _ => some .regular) ⟨0, []⟩ [] ['m'] ['1'] =
      .ok ((0, "-umods/a\n*fmods/b\n".toList), ⟨6, []⟩)) ∧
    SinglePath ((storedReads ⟨0, []⟩ "2\n".toList ".\n./a\n".toList ".\n./b\n".toList
        "@1\n*fmods/b\n".toList ["*fmods/b".toList]).instructions
      (outdated ".\n./a\n".toList ".\n./b\n".toList "@1\n*fmods/b\n".toList
        fun _ => some .regular) ['m']) := by
  have hlist : ∀ l ∈ pieces '\n' ".\n./a\n".toList ++ pieces '\n' ".\n./b\n".toList,
      ListingLine l := by
    intro l hl
    have hcases : l = ['.'] ∨ l = listed ['a'] ∨ l = [] ∨ l = listed ['b'] := by
      revert l
      decide
    rcases hcases with rfl | rfl | rfl | rfl
    · exact Or.inl rfl
    · exact Or.inr (Or.inr ⟨['a'], rfl, by decide⟩)
    · exact Or.inr (Or.inl rfl)
    · exact Or.inr (Or.inr ⟨['b'], rfl, by decide⟩)
  refine ⟨by decide, ?_⟩
  refine ((singlePath_iff (readFrom_outdated _ (by decide) _) (by decide) []).2
    (by decide)).mpr ⟨?_, by decide⟩
  apply apart_of_listing
  · exact fun l hl => hlist l (List.mem_append_left _ hl)
  · exact fun l hl => hlist l (List.mem_append_right _ hl)
  · decide
  · decide

/-- A removed file that the log installs again leaves two lines for its path: one that
deletes it and one that installs it.  The rewriting of a line also hits the name of a file in
a directory, and makes it that of another file. -/
theorem singlePath_fails :
    ((pieces '\n' ".\n./a\n".toList).Nodup ∧ (pieces '\n' ".\n".toList).Nodup ∧
      ∃ out sys', mcuCreateUpdateInstructions
          (outdated ".\n./a\n".toList ".\n".toList "@1\n+fmods/a\n".toList
            fun _ => some .regular) ⟨0, []⟩ [] ['m'] ['1'] = .ok ((0, out), sys') ∧
        out = "-umods/a\n+fmods/a\n".toList ∧ ¬ SinglePath out) ∧
    (pieces '\n' ".\n".toList).Nodup ∧
    (pieces '\n' ".\n./a\n./x+fmods/a\n./x*fmods/a\n".toList).Nodup ∧
      ∃ out sys', mcuCreateUpdateInstructions
          (outdated ".\n".toList ".\n./a\n./x+fmods/a\n./x*fmods/a\n".toList
            "@1\n*fmods/a\n".toList fun _ => some .regular) ⟨0, []⟩ [] ['m'] ['1'] =
            .ok ((0, out), sys') ∧
        out = "*fmods/a\n+fmods/x*fmods/a\n+fmods/x*fmods/a\n".toList ∧ ¬ SinglePath out :=
  ⟨⟨by decide, by decide, _, ⟨4, []⟩, by decide, rfl, by decide⟩,
    by decide, by decide, _, ⟨10, []⟩, by decide, rfl, by decide⟩

end Update
end ModpackInstaller
