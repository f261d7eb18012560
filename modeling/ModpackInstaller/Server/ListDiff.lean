import ModpackInstaller.Server.McUpdate
import ModpackInstaller.Update.Instruction

/-!
# The list diff as a list of lines

The two diff loops of the planner build a text.  This file states which lines
that text has: the removed files, rewritten, and then one line for every added
file.

Main results:

- Theorem {lit}`listDiff_eq`: the text of the list diff is the text of
  {lit}`diffLines`.
- Theorem {lit}`diffLines_newline`: none of these lines has a newline in it.
- Theorem {lit}`addedLine_some`: the instruction for an added file.
- Theorem {lit}`writtenFor_iff`: for which path a line is written.
-/

namespace ModpackInstaller
namespace Server

open Library Update

/-! ## The files the loops work on -/

/-- The lines of a list file that its diff loop does not skip: neither {lit}`.`
nor empty, and no line of the other list. -/
def onlyIn (own other : Text) : List Text :=
  (strLines own).filter fun file =>
    decide ¬ (file = ['.'] ∨ file.isEmpty ∨ strContainsLine other file)

theorem mem_onlyIn {own other file : Text} :
    file ∈ onlyIn own other ↔
      file ∈ pieces '\n' own ∧ file ≠ ['.'] ∧ file ≠ [] ∧ file ∉ pieces '\n' other := by
  rw [onlyIn, List.mem_filter, strLines_eq_pieces]
  simp [strContainsLine_iff]

theorem newline_not_mem_onlyIn {own other file : Text} (h : file ∈ onlyIn own other) :
    '\n' ∉ file :=
  not_mem_of_mem_pieces (mem_onlyIn.mp h).1

/-- The first diff loop appends the removed files. -/
theorem diffRemoved_eq (list2 : Text) (files : List Text) (instr : Text) :
    diffRemoved list2 files instr =
      instr ++ unpieces '\n' (files.filter fun file =>
        decide ¬ (file = ['.'] ∨ file.isEmpty ∨ strContainsLine list2 file)) := by
  induction files generalizing instr with
  | nil => simp [diffRemoved]
  | cons file files ih =>
      rw [diffRemoved]
      split
      · rename_i hskip
        rw [ih, List.filter_cons_of_neg (by rwa [decide_eq_true_eq, not_not])]
      · rename_i hkeep
        rw [ih, List.filter_cons_of_pos (by rwa [decide_eq_true_eq]), unpieces_cons]
        simp

/-- The instructions for added files; every one costs two path look-ups, and
the second is the one that counts. -/
def addedTexts (k : Kernel) (modpack : Text) : Nat → List Text → List Text
  | _, [] => []
  | clock, file :: files =>
    addedLine modpack file (k.stat (clock + 1) (cstr (serverPath modpack file))) ::
      addedTexts k modpack (clock + 2) files

/-- The added files, with what the look-ups say. -/
def surveyed (k : Kernel) (modpack : Text) : Nat → List Text → List (Text × Option FileType)
  | _, [] => []
  | clock, file :: files =>
    (file, k.stat (clock + 1) (cstr (serverPath modpack file))) ::
      surveyed k modpack (clock + 2) files

theorem addedTexts_eq_map (k : Kernel) (modpack : Text) (clock : Nat) (files : List Text) :
    addedTexts k modpack clock files =
      (surveyed k modpack clock files).map fun e => addedLine modpack e.1 e.2 := by
  induction files generalizing clock with
  | nil => rfl
  | cons file files ih => rw [addedTexts, surveyed, List.map_cons, ih]

theorem map_fst_surveyed (k : Kernel) (modpack : Text) (clock : Nat) (files : List Text) :
    (surveyed k modpack clock files).map Prod.fst = files := by
  induction files generalizing clock with
  | nil => rfl
  | cons file files ih => rw [surveyed, List.map_cons, ih]

theorem mem_of_mem_surveyed {k : Kernel} {modpack : Text} {clock : Nat} {files : List Text}
    {e : Text × Option FileType} (h : e ∈ surveyed k modpack clock files) : e.1 ∈ files := by
  rw [← map_fst_surveyed k modpack clock files]
  exact List.mem_map_of_mem h

/-- Some look-up has said so. -/
theorem stat_of_mem_surveyed {k : Kernel} {modpack : Text} {clock : Nat} {files : List Text}
    {e : Text × Option FileType} (h : e ∈ surveyed k modpack clock files) :
    ∃ clock' path, k.stat clock' path = e.2 := by
  induction files generalizing clock with
  | nil => simp [surveyed] at h
  | cons file files ih =>
      rcases List.mem_cons.mp h with rfl | h
      · exact ⟨_, _, rfl⟩
      · exact ih h

theorem mem_addedTexts {k : Kernel} {modpack t : Text} {clock : Nat} {files : List Text}
    (h : t ∈ addedTexts k modpack clock files) :
    ∃ clock', ∃ file ∈ files,
      t = addedLine modpack file (k.stat clock' (cstr (serverPath modpack file))) := by
  induction files generalizing clock with
  | nil => simp [addedTexts] at h
  | cons file files ih =>
      rcases List.mem_cons.mp h with rfl | h
      · exact ⟨clock + 1, file, by simp, rfl⟩
      · obtain ⟨clock', file', hfile', rfl⟩ := ih h
        exact ⟨clock', file', by simp [hfile'], rfl⟩

/-- The second diff loop appends the instructions for the added files. -/
theorem diffAdded_eq (k : Kernel) (modpack list1 : Text) (files : List Text) (sys : Sys)
    (instr : Text) :
    (diffAdded k modpack list1 files sys instr).1 =
      instr ++ unpieces '\n' (addedTexts k modpack sys.clock (files.filter fun file =>
        decide ¬ (file = ['.'] ∨ file.isEmpty ∨ strContainsLine list1 file))) := by
  induction files generalizing sys instr with
  | nil => simp [diffAdded, addedTexts]
  | cons file files ih =>
      rw [diffAdded]
      split
      · rename_i hskip
        rw [ih, List.filter_cons_of_neg (by rwa [decide_eq_true_eq, not_not])]
      · rename_i hkeep
        rw [ih, List.filter_cons_of_pos (by rwa [decide_eq_true_eq]), addedTexts, unpieces_cons]
        simp

/-! ## The lines of the diff -/

/-- The lines a text has when a newline is put behind it. -/
def textLines (t : Text) : List Text :=
  pieces '\n' (t ++ ['\n'])

/-- The lines of the list diff.  A modpack name with a newline in it splits the
comment for an unstatable file. -/
def diffLines (k : Kernel) (sys : Sys) (modpack list1 list2 : Text) : List Text :=
  (onlyIn list1 list2).map (replaceAll "./".toList "-umods/".toList) ++
    (addedTexts k modpack sys.clock (onlyIn list2 list1)).flatMap textLines

theorem unpieces_flatMap_textLines (texts : List Text) :
    unpieces '\n' (texts.flatMap textLines) = unpieces '\n' texts := by
  induction texts with
  | nil => rfl
  | cons t texts ih =>
      rw [List.flatMap_cons, unpieces_append, ih, textLines, unpieces_pieces_append_sep,
        unpieces_cons, List.append_assoc]
      rfl

/-- A text without newlines is one line. -/
theorem textLines_of_not_mem {t : Text} (h : '\n' ∉ t) : textLines t = [t] := by
  rw [textLines, pieces_append_sep h, pieces_nil]

/-- The text of the list diff is the text of its lines. -/
theorem listDiff_eq (k : Kernel) (sys : Sys) (modpack list1 list2 : Text) :
    (listDiff k sys modpack list1 list2).1 =
      unpieces '\n' (diffLines k sys modpack list1 list2) := by
  have hremoved : strReplaceText (diffRemoved list2 (strLines list1) []) "./".toList
      "-umods/".toList = unpieces '\n'
        ((onlyIn list1 list2).map (replaceAll "./".toList "-umods/".toList)) := by
    rw [diffRemoved_eq, List.nil_append, strReplaceText_eq_replaceAll (by decide),
      replaceAll_unpieces (by decide) (by decide)]
    rfl
  rw [listDiff, hremoved, diffAdded_eq, diffLines, unpieces_append, unpieces_flatMap_textLines]
  rfl

/-- No line of the diff has a newline in it. -/
theorem diffLines_newline (k : Kernel) (sys : Sys) (modpack list1 list2 : Text) :
    ∀ l ∈ diffLines k sys modpack list1 list2, '\n' ∉ l := by
  intro l hl
  rcases List.mem_append.mp hl with hremoved | hadded
  · obtain ⟨file, hfile, rfl⟩ := List.mem_map.mp hremoved
    intro hmem
    rcases mem_replaceAll hmem with hin | hin
    · exact newline_not_mem_onlyIn hfile hin
    · exact absurd hin (by decide)
  · obtain ⟨t, -, ht⟩ := List.mem_flatMap.mp hadded
    exact not_mem_of_mem_pieces ht

/-! ## Listed files -/

/-- The line of a directory listing for a path. -/
def listed (path : Text) : Text :=
  "./".toList ++ path

/-- A line of a directory listing: {lit}`.`, nothing, or {lit}`./p` with no
further {lit}`./` in {lit}`p`. -/
def ListingLine (l : Text) : Prop :=
  l = ['.'] ∨ l = [] ∨ ∃ path, l = listed path ∧ ¬ "./".toList <:+: path

theorem listed_of_mem_onlyIn {own other file : Text}
    (hown : ∀ l ∈ pieces '\n' own, ListingLine l) (h : file ∈ onlyIn own other) :
    ∃ path, file = listed path ∧ ¬ "./".toList <:+: path := by
  obtain ⟨hmem, hdot, hempty, -⟩ := mem_onlyIn.mp h
  rcases hown file hmem with h | h | h
  · exact absurd h hdot
  · exact absurd h hempty
  · exact h

theorem replaceAll_listed {path : Text} (hin : ¬ "./".toList <:+: path) (rep : Text) :
    replaceAll "./".toList rep (listed path) = rep ++ path := by
  rw [listed, replaceAll_matched (by decide), replaceAll_of_not_infix hin]

/-- The type character the planner gives an added file. -/
def typeChar : FileType → Char
  | .regular => 'f'
  | .directory => 'd'
  | .special => 'u'

/-- The prefix that the planner writes for an added file of this type. -/
def addedPrefix (type : FileType) : Text :=
  '+' :: typeChar type :: "mods/".toList

/-- The prefix replaces every {lit}`./` of the line. -/
theorem addedLine_some (modpack file : Text) (type : FileType) :
    addedLine modpack file (some type) = replaceAll "./".toList (addedPrefix type) file := by
  cases type <;> exact strReplaceText_eq_replaceAll (by decide) _ _

/-- A file without a copy on the server becomes a comment. -/
theorem addedLine_none (modpack file : Text) :
    addedLine modpack file none =
      '#' :: (" unstatable file: ".toList ++ serverPath modpack file) := by
  have hhead : "# unstatable file: ".toList = '#' :: " unstatable file: ".toList := by decide
  rw [← List.cons_append, ← hhead]
  rfl

/-! ## The paths that are written -/

/-- The line is a listed path without a further {lit}`./`. -/
def PlainListed (q : Text) : Prop :=
  ∃ path, q = listed path ∧ ¬ "./".toList <:+: path

/-- With this prefix a list line becomes an instruction for a path: the path that it lists,
or, when it is not plain, what comes of it when the prefix replaces every {lit}`./`. -/
def WrittenFor (pre q path : Text) : Prop :=
  (∃ path', q = listed path' ∧ ¬ "./".toList <:+: path' ∧ path = "mods/".toList ++ path') ∨
    (¬ PlainListed q ∧ pathOf (replaceAll "./".toList pre q) = some path)

/-- A line is written for the path that its instruction names. -/
theorem writtenFor_iff {o : Op} {t : Char} {q path : Text} :
    WrittenFor (o.char :: t :: "mods/".toList) q path ↔
      pathOf (replaceAll "./".toList (o.char :: t :: "mods/".toList) q) = some path := by
  by_cases hplain : PlainListed q
  · obtain ⟨path', rfl, hin⟩ := hplain
    have hpath : pathOf (replaceAll "./".toList (o.char :: t :: "mods/".toList) (listed path')) =
        some ("mods/".toList ++ path') := by
      rw [replaceAll_listed hin]
      exact pathOf_eq_some.mpr ⟨o, t, rfl⟩
    have hplain : PlainListed (listed path') := ⟨path', rfl, hin⟩
    rw [hpath, WrittenFor, or_iff_left fun h => h.1 hplain, Option.some.injEq]
    constructor
    · rintro ⟨path'', hlisted, -, rfl⟩
      rw [List.append_cancel_left hlisted]
    · rintro rfl
      exact ⟨path', rfl, hin, rfl⟩
  · have hnot : ¬ ∃ path', q = listed path' ∧ ¬ "./".toList <:+: path' ∧
        path = "mods/".toList ++ path' := fun ⟨path', hq, hin, _⟩ => hplain ⟨path', hq, hin⟩
    rw [WrittenFor, or_iff_right hnot]
    exact and_iff_right hplain

/-- The list lines that become instructions, each with the prefix that it gets. -/
def rewrites (k : Kernel) (sys : Sys) (modpack list1 list2 : Text) : List (Text × Text) :=
  (onlyIn list1 list2).map (fun q => ("-umods/".toList, q)) ++
    (surveyed k modpack sys.clock (onlyIn list2 list1)).filterMap fun e =>
      e.2.map fun type => (addedPrefix type, e.1)

/-- A written line is written for the path that its instruction names. -/
theorem writtenFor_of_mem {k : Kernel} {sys : Sys} {modpack list1 list2 path : Text}
    {w : Text × Text} (h : w ∈ rewrites k sys modpack list1 list2) :
    WrittenFor w.1 w.2 path ↔ pathOf (replaceAll "./".toList w.1 w.2) = some path := by
  rcases List.mem_append.mp h with h | h
  · obtain ⟨q, -, rfl⟩ := List.mem_map.mp h
    exact writtenFor_iff (o := .del) (t := 'u')
  · obtain ⟨⟨q, type⟩, -, hw⟩ := List.mem_filterMap.mp h
    obtain ⟨type, -, rfl⟩ := Option.map_eq_some_iff.mp hw
    exact writtenFor_iff (o := .add) (t := typeChar type)

/-- With a name of one line every text for an added file is one line. -/
theorem flatMap_textLines_addedTexts {k : Kernel} {modpack : Text} (hmodpack : '\n' ∉ modpack)
    {clock : Nat} {files : List Text} (hfiles : ∀ file ∈ files, '\n' ∉ file) :
    (addedTexts k modpack clock files).flatMap textLines = addedTexts k modpack clock files := by
  have hone : ∀ t ∈ addedTexts k modpack clock files, textLines t = [t] := by
    intro t ht
    obtain ⟨clock, file, hfile, rfl⟩ := mem_addedTexts ht
    apply textLines_of_not_mem
    cases k.stat clock (cstr (serverPath modpack file)) with
    | none =>
        rw [addedLine_none]
        simp [serverPath, hmodpack, hfiles file hfile]
    | some type =>
        rw [addedLine_some]
        intro hmem
        rcases mem_replaceAll hmem with h | h
        · exact hfiles file hfile h
        · cases type <;> exact absurd h (by decide)
  rw [List.flatMap_congr hone, List.flatMap_singleton']

end Server
end ModpackInstaller
