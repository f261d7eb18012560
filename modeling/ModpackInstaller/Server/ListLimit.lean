import ModpackInstaller.Library.Paths
import ModpackInstaller.Server.Plan

/-!
# List files beyond the read limit

{lit}`strFileread` hands the planner the first {lit}`listLimit` bytes of a list
file and does not say that there were more.  The diff then takes the two cut
texts for the two lists.  And a line of one list only can be written as an
instruction for another file, because every {lit}`./` in it is replaced.

Main results:

- Theorem {lit}`common_untouched_iff`: the diff has no instruction for the common
  lines of two stored list files exactly when no line that only one of the cut texts
  has leads to one of them, or is rewritten to lead to one.
- Theorem {lit}`common_untouched_of_listing`: so it is for files within the limit
  that list every file in one way.
-/

namespace ModpackInstaller
namespace Server

open Library Update

/-! ## Instructions for a file -/

/-- Where the client has the file of a line: below {lit}`mods`.  Doubled slashes and
dots do not count, and two dots take a name back. -/
def placeOnClient (l : Text) : List Text :=
  placeOf ["mods".toList] l

/-- The line of the diff is an instruction for the file of a listed line. -/
def IsFor (l i : Text) : Prop :=
  ∃ path, pathOf i = some path ∧ placeOf [] path = placeOnClient l

instance (l i : Text) : Decidable (IsFor l i) :=
  match h : pathOf i with
  | none => .isFalse (by simp [IsFor, h])
  | some path => decidable_of_iff (placeOf [] path = placeOnClient l) (by simp [IsFor, h])

/-- A line of one list only takes the file of another line: with this prefix it is written
for a path that leads there. -/
def Takes (pre q l : Text) : Prop :=
  ∃ path, WrittenFor pre q path ∧ placeOf [] path = placeOnClient l

/-- No line that only one of the lists has takes the file of this line.  A file without
a copy on the server becomes a comment, of one line unless the modpack's name has a
newline in it. -/
structure Untaken (k : Kernel) (modpack : Text) (clock : Nat) (list1 list2 l : Text) : Prop where
  removed : ∀ q ∈ onlyIn list1 list2, ¬ Takes "-umods/".toList q l
  added : ∀ q type, (q, some type) ∈ surveyed k modpack clock (onlyIn list2 list1) →
    ¬ Takes (addedPrefix type) q l
  unstatable : ∀ q, (q, none) ∈ surveyed k modpack clock (onlyIn list2 list1) →
    ∀ i ∈ (textLines (serverPath modpack q)).tail, ¬ IsFor l i

section Writing

variable {l : Text}

/-- A listed path leads below {lit}`mods`. -/
theorem placeOnClient_listed (path : Text) :
    placeOnClient (listed path) = placeOf [] ("mods/".toList ++ path) := by
  have hdot : '/' ∉ ['.'] := by decide
  have hname : '/' ∉ "mods".toList := by decide
  have hlisted : placeOnClient (listed path) = placeOf ["mods".toList] path :=
    placeOf_append_sep hdot path
  have hmods : placeOf [] ("mods/".toList ++ path) = placeOf ["mods".toList] path :=
    placeOf_append_sep hname path
  rw [hlisted, hmods]

/-- A line of one list only takes a file exactly when its instruction is for that file. -/
theorem takes_iff {o : Op} {t : Char} (q : Text) :
    Takes (o.char :: t :: "mods/".toList) q l ↔
      IsFor l (replaceAll "./".toList (o.char :: t :: "mods/".toList) q) :=
  exists_congr fun _ => and_congr_left fun _ => writtenFor_iff

/-- What is put in front of a text goes in front of its first line. -/
theorem textLines_append {pre : Text} (hpre : '\n' ∉ pre) (t : Text) :
    ∃ first, textLines (pre ++ t) = (pre ++ first) :: (textLines t).tail := by
  by_cases hnewline : '\n' ∈ t
  · obtain ⟨first, rest, rfl, hfirst⟩ := List.eq_append_cons_of_mem hnewline
    have hboth : '\n' ∉ pre ++ first := by
      rw [List.mem_append, not_or]
      exact ⟨hpre, hfirst⟩
    refine ⟨first, ?_⟩
    rw [textLines, textLines, ← List.append_assoc, List.append_assoc (pre ++ first),
      List.append_assoc first, List.cons_append, pieces_append_sep hboth,
      pieces_append_sep hfirst, List.tail_cons]
  · have hboth : '\n' ∉ pre ++ t := by
      rw [List.mem_append, not_or]
      exact ⟨hpre, hnewline⟩
    refine ⟨t, ?_⟩
    rw [textLines_of_not_mem hnewline, textLines_of_not_mem hboth]
    rfl

/-- A comment is no instruction, up to its first newline. -/
theorem comment_iff (modpack q : Text) :
    (∀ i ∈ textLines (addedLine modpack q none), ¬ IsFor l i) ↔
      ∀ i ∈ (textLines (serverPath modpack q)).tail, ¬ IsFor l i := by
  have hcomment : ∀ i : Text, ¬ IsFor l ('#' :: i) := by
    rintro i ⟨path, hpath, -⟩
    simp [pathOf, keyOf, parseLine, Op.ofChar] at hpath
  have hpre : '\n' ∉ '#' :: " unstatable file: ".toList := by decide
  obtain ⟨first, hlines⟩ := textLines_append hpre (serverPath modpack q)
  rw [addedLine_none, ← List.cons_append, hlines, List.forall_mem_cons]
  exact and_iff_right (hcomment _)

/-- The lines of the diff spare the file of a line exactly when no line of one list only
takes it. -/
theorem diffLines_untaken_iff (k : Kernel) (sys : Sys) (modpack list1 list2 : Text) :
    (∀ i ∈ diffLines k sys modpack list1 list2, ¬ IsFor l i) ↔
      Untaken k modpack sys.clock list1 list2 l := by
  have hremoved : (∀ i ∈ (onlyIn list1 list2).map (replaceAll "./".toList "-umods/".toList),
      ¬ IsFor l i) ↔ ∀ q ∈ onlyIn list1 list2, ¬ Takes "-umods/".toList q l := by
    rw [List.forall_mem_map]
    exact forall₂_congr fun q _ => not_congr (takes_iff (o := .del) (t := 'u') q).symm
  have hinstalled : ∀ q type, '\n' ∉ q →
      ((∀ i ∈ textLines (addedLine modpack q (some type)), ¬ IsFor l i) ↔
        ¬ Takes (addedPrefix type) q l) := by
    intro q type hq
    have hnewline : '\n' ∉ replaceAll "./".toList (addedPrefix type) q := by
      intro h
      rcases mem_replaceAll h with h | h
      · exact hq h
      · cases type <;> exact absurd h (by decide)
    rw [addedLine_some, textLines_of_not_mem hnewline, List.forall_mem_singleton]
    exact not_congr (takes_iff (o := .add) (t := typeChar type) q).symm
  rw [diffLines, List.forall_mem_append, hremoved, List.forall_mem_flatMap, addedTexts_eq_map,
    List.forall_mem_map]
  constructor
  · rintro ⟨hleft, hright⟩
    refine ⟨hleft, fun q type hq => ?_, fun q hq => ?_⟩
    · exact (hinstalled q type (newline_not_mem_onlyIn (mem_of_mem_surveyed hq))).mp
        (hright _ hq)
    · exact (comment_iff modpack q).mp (hright _ hq)
  · rintro ⟨hleft, hadded, hunstatable⟩
    refine ⟨hleft, fun e he => ?_⟩
    obtain ⟨q, _ | type⟩ := e
    · exact (comment_iff modpack q).mpr (hunstatable q he)
    · exact (hinstalled q type (newline_not_mem_onlyIn (mem_of_mem_surveyed he))).mpr
        (hadded q type he)

end Writing

section Stored

variable {k : Kernel} {modpack version vers file1 file2 changes : Text} {log : List Text}

/-- A planner run over stored files diffs the cut texts. -/
theorem mcuCreateUpdateInstructions_stored (hvers : Stored k (versionPath modpack) vers)
    (hfile1 : Stored k (listfilePath modpack version) file1)
    (hfile2 : Stored k (listfilePath modpack (statedVersion vers)) file2)
    (hchanges : Stored k (changePath modpack) changes)
    (hlog : findVersionLine ('@' :: version) (strLines (changes.take listLimit)) = some log)
    (sys : Sys) (instr : Text) :
    ∃ sys', mcuCreateUpdateInstructions k sys instr modpack version =
      .ok ((0, applyChanges (listDiff k { sys with clock := sys.clock + 3 } modpack
        (file1.take listLimit) (file2.take listLimit)).1 log), sys') :=
  mcuCreateUpdateInstructions_of_reads
    (readFrom_of_stored hvers hfile1 hfile2 hchanges hlog sys) instr

/-- Without change entries the client is told to delete every removed file. -/
theorem removed_instruction (hvers : Stored k (versionPath modpack) vers)
    (hfile1 : Stored k (listfilePath modpack version) file1)
    (hfile2 : Stored k (listfilePath modpack (statedVersion vers)) file2)
    (hchanges : Stored k (changePath modpack) changes)
    (hlog : findVersionLine ('@' :: version) (strLines (changes.take listLimit)) = some [])
    (sys : Sys) (instr : Text) {l : Text}
    (hl : l ∈ onlyIn (file1.take listLimit) (file2.take listLimit)) :
    ∃ out sys', mcuCreateUpdateInstructions k sys instr modpack version = .ok ((0, out), sys') ∧
      replaceAll "./".toList "-umods/".toList l ∈ pieces '\n' out := by
  obtain ⟨sys', hreturns⟩ :=
    mcuCreateUpdateInstructions_stored hvers hfile1 hfile2 hchanges hlog sys instr
  refine ⟨_, sys', hreturns, ?_⟩
  rw [applyChanges, List.foldl_nil, listDiff_eq, pieces_unpieces (diffLines_newline _ _ _ _ _)]
  exact List.mem_append_left _ (List.mem_map_of_mem hl)

/-- The lines of two list files that are files: all but the dot and empty ones. -/
def Common (file1 file2 l : Text) : Prop :=
  l ∈ pieces '\n' file1 ∧ l ∈ pieces '\n' file2 ∧ l ≠ ['.'] ∧ l ≠ []

/-- A planner run over stored files diffs the cut texts.  The diff has no instruction for
the common lines of the two list files exactly when no line that only one of the cut texts
has takes one of them. -/
theorem common_untouched_iff (hvers : Stored k (versionPath modpack) vers)
    (hfile1 : Stored k (listfilePath modpack version) file1)
    (hfile2 : Stored k (listfilePath modpack (statedVersion vers)) file2)
    (hchanges : Stored k (changePath modpack) changes)
    (hlog : findVersionLine ('@' :: version) (strLines (changes.take listLimit)) = some log)
    (sys : Sys) (instr : Text) :
    ∃ diff, (∃ sys', mcuCreateUpdateInstructions k sys instr modpack version =
        .ok ((0, applyChanges diff log), sys')) ∧
      diff = (listDiff k { sys with clock := sys.clock + 3 } modpack (file1.take listLimit)
        (file2.take listLimit)).1 ∧
      ((∀ l, Common file1 file2 l → ∀ i ∈ pieces '\n' diff, ¬ IsFor l i) ↔
        ∀ l, Common file1 file2 l → Untaken k modpack (sys.clock + 3) (file1.take listLimit)
          (file2.take listLimit) l) := by
  refine ⟨_, mcuCreateUpdateInstructions_stored hvers hfile1 hfile2 hchanges hlog sys instr, rfl,
    ?_⟩
  rw [listDiff_eq, pieces_unpieces (diffLines_newline _ _ _ _ _)]
  exact forall₂_congr fun l _ => diffLines_untaken_iff k _ modpack _ _

end Stored

/-- Files within the limit that list every file in one way are read whole, and the diff
has no instruction for their common lines. -/
theorem common_untouched_of_listing {k : Kernel} {modpack file1 file2 : Text} {clock : Nat}
    (hmodpack : '\n' ∉ modpack) (h1 : file1.length ≤ listLimit) (h2 : file2.length ≤ listLimit)
    (hlist1 : ∀ q ∈ pieces '\n' file1, ListingLine q)
    (hlist2 : ∀ q ∈ pieces '\n' file2, ListingLine q)
    (hone : ∀ q ∈ pieces '\n' file1 ++ pieces '\n' file2, ∀ l ∈ pieces '\n' file1,
      placeOnClient q = placeOnClient l → q = l) :
    ∀ l, Common file1 file2 l →
      Untaken k modpack clock (file1.take listLimit) (file2.take listLimit) l := by
  rw [List.take_of_length_le h1, List.take_of_length_le h2]
  rintro l ⟨hl1, hl2, -, -⟩
  have hplain : ∀ own other q, (∀ q ∈ pieces '\n' own, ListingLine q) → q ∈ onlyIn own other →
      PlainListed q := fun own other q hown hq => listed_of_mem_onlyIn hown hq
  have htakes : ∀ pre q, PlainListed q → q ∈ pieces '\n' file1 ++ pieces '\n' file2 →
      Takes pre q l → q = l := by
    rintro pre q hq hmem ⟨path, ⟨path', rfl, -, rfl⟩ | ⟨hnot, -⟩, hplace⟩
    · exact hone _ hmem l hl1 ((placeOnClient_listed path').trans hplace)
    · exact absurd hq hnot
  constructor
  · intro q hq htake
    have hsame := htakes _ q (hplain _ _ q hlist1 hq)
      (List.mem_append_left _ (mem_onlyIn.mp hq).1) htake
    exact (mem_onlyIn.mp hq).2.2.2 (hsame ▸ hl2)
  · intro q type hq htake
    have hmem := mem_of_mem_surveyed hq
    have hsame := htakes _ q (hplain _ _ q hlist2 hmem)
      (List.mem_append_right _ (mem_onlyIn.mp hmem).1) htake
    exact (mem_onlyIn.mp hmem).2.2.2 (hsame ▸ hl1)
  · intro q hq
    have hnewline : '\n' ∉ serverPath modpack q := by
      have hfile := newline_not_mem_onlyIn (mem_of_mem_surveyed hq)
      simp [serverPath, hmodpack, hfile]
    rw [textLines_of_not_mem hnewline]
    simp

/-- Two short lists with a common file. -/
theorem common_untouched_short_lists :
    ∃ diff, (∃ sys', mcuCreateUpdateInstructions
        (outdated ".\n./a\n".toList ".\n./b\n./a\n".toList "@1\n".toList
          fun _ => some .regular) ⟨0, []⟩ [] ['m'] ['1'] =
        .ok ((0, applyChanges diff []), sys')) ∧ diff = "+fmods/b\n".toList ∧
      ∀ l, Common ".\n./a\n".toList ".\n./b\n./a\n".toList l →
        ∀ i ∈ pieces '\n' diff, ¬ IsFor l i := by
  have hlog : findVersionLine ['@', '1'] (strLines ("@1\n".toList.take listLimit)) = some [] := by
    decide
  have hlines1 : pieces '\n' ".\n./a\n".toList = [['.'], listed ['a']] := by decide
  have hlines2 : pieces '\n' ".\n./b\n./a\n".toList = [['.'], listed ['b'], listed ['a']] := by
    decide
  have hplain : ∀ c : Char, c ≠ '.' → ListingLine (listed [c]) := fun c hc =>
    Or.inr (Or.inr ⟨[c], rfl, by simp [List.infix_cons_iff]⟩)
  have hlist1 : ∀ q ∈ pieces '\n' ".\n./a\n".toList, ListingLine q := by
    rw [hlines1, List.forall_mem_cons, List.forall_mem_singleton]
    exact ⟨Or.inl rfl, hplain 'a' (by decide)⟩
  have hlist2 : ∀ q ∈ pieces '\n' ".\n./b\n./a\n".toList, ListingLine q := by
    rw [hlines2, List.forall_mem_cons, List.forall_mem_cons, List.forall_mem_singleton]
    exact ⟨Or.inl rfl, hplain 'b' (by decide), hplain 'a' (by decide)⟩
  obtain ⟨diff, hreturns, hdiff, huntouched⟩ := common_untouched_iff
    (outdated_version _ _ _ fun _ => some .regular) (outdated_old _ _ _ _)
    (outdated_latest _ _ _ _) (outdated_changes _ _ _ _) hlog ⟨0, []⟩ []
  refine ⟨diff, hreturns, hdiff.trans (by decide), huntouched.mpr ?_⟩
  exact common_untouched_of_listing (by decide) (by decide) (by decide) hlist1 hlist2 (by decide)

/-! ## A list that grew beyond the limit -/

/-- More file names than fit into the limit. -/
def grownFiles : List Text :=
  (List.range 10000).map fun i => "./modfile".toList ++ Nat.toDigits 10 i

/-- A list file that names them and then the file {lit}`a`. -/
def grownList : Text :=
  unpieces '\n' (grownFiles ++ ["./a".toList])

/-- Lines of a certain length make a text of a certain length. -/
private theorem le_length_unpieces {n : Nat} {ps : List Text} (h : ∀ p ∈ ps, n ≤ p.length) :
    ps.length * (n + 1) ≤ (unpieces '\n' ps).length := by
  induction ps with
  | nil => simp
  | cons p ps ih =>
      have hp : n ≤ p.length := h p (by simp)
      have hps := ih fun q hq => h q (by simp [hq])
      rw [unpieces_cons, List.length_append, List.length_cons, List.length_cons, Nat.succ_mul]
      omega

private theorem newline_not_mem_grownFiles : ∀ p ∈ grownFiles, '\n' ∉ p := by
  intro p hp
  obtain ⟨i, -, rfl⟩ := List.mem_map.mp hp
  rw [List.mem_append, not_or]
  refine ⟨by decide, fun h => ?_⟩
  exact absurd (Nat.isDigit_of_mem_toDigits (by decide) (by decide) h) (by decide)

/-- The limit cuts the list off before the file {lit}`a`. -/
theorem grownList_cut : "./a".toList ∉ pieces '\n' (grownList.take listLimit) := by
  have hlong : listLimit ≤ (unpieces '\n' grownFiles).length := by
    have hlines : ∀ p ∈ grownFiles, 9 ≤ p.length := by
      intro p hp
      obtain ⟨i, -, rfl⟩ := List.mem_map.mp hp
      rw [List.length_append]
      exact Nat.le_add_right 9 _
    have hlength := le_length_unpieces hlines
    rw [grownFiles, List.length_map, List.length_range] at hlength
    exact hlength
  have hcut : grownList.take listLimit <+: unpieces '\n' grownFiles := by
    rw [grownList, unpieces_append, List.take_append_of_le_length hlong]
    exact List.take_prefix _ _
  intro hmem
  obtain ⟨q, hq, hprefix⟩ := mem_pieces_of_prefix hcut hmem
  rw [pieces_unpieces newline_not_mem_grownFiles] at hq
  obtain ⟨i, -, rfl⟩ := List.mem_map.mp hq
  -- Every name starts with another letter.
  have hstart : "./a".toList <+: "./modfile".toList :=
    List.prefix_of_prefix_length_le hprefix (List.prefix_append _ _) (by decide)
  exact absurd hstart (by decide)

/-- The file {lit}`a` is a line of both list files, but of the first cut text
only, and the client is told to delete it.  When {lit}`./x./y` is removed from two short
lists, the client is told to delete the common {lit}`./x-umods/y`. -/
theorem common_untouched_fails :
    (Common ".\n./a\n".toList grownList "./a".toList ∧
      ∃ out sys', mcuCreateUpdateInstructions
          (outdated ".\n./a\n".toList grownList "@1\n".toList fun _ => some .regular)
          ⟨0, []⟩ [] ['m'] ['1'] = .ok ((0, out), sys') ∧
        "-umods/a".toList ∈ pieces '\n' out ∧ IsFor "./a".toList "-umods/a".toList) ∧
    (Common "./x./y\n./x-umods/y\n".toList "./x-umods/y\n".toList "./x-umods/y".toList ∧
      ∃ sys', mcuCreateUpdateInstructions
          (outdated "./x./y\n./x-umods/y\n".toList "./x-umods/y\n".toList "@1\n".toList
            fun _ => some .regular)
          ⟨0, []⟩ [] ['m'] ['1'] = .ok ((0, "-umods/x-umods/y\n".toList), sys') ∧
        IsFor "./x-umods/y".toList "-umods/x-umods/y".toList) := by
  have hremoved : "./a".toList ∈
      onlyIn (".\n./a\n".toList.take listLimit) (grownList.take listLimit) :=
    mem_onlyIn.mpr ⟨by decide, by decide, by decide, grownList_cut⟩
  obtain ⟨out, sys', hreturns, hmem⟩ := removed_instruction (outdated_version _ _ _ _)
    (outdated_old _ _ _ _) (outdated_latest _ _ _ fun _ => some .regular)
    (outdated_changes _ _ "@1\n".toList _) (by decide) ⟨0, []⟩ [] hremoved
  have hinstruction : replaceAll "./".toList "-umods/".toList "./a".toList =
      "-umods/a".toList := by decide
  refine ⟨⟨⟨by decide, ?_, by decide, by decide⟩, out, sys', hreturns, hinstruction ▸ hmem,
    by decide⟩, ⟨by decide, by decide, by decide, by decide⟩, ⟨4, []⟩, by decide, by decide⟩
  rw [grownList, pieces_unpieces]
  · simp
  · intro p hp
    rcases List.mem_append.mp hp with h | h
    · exact newline_not_mem_grownFiles p h
    · rw [List.mem_singleton.mp h]
      decide

end Server
end ModpackInstaller
