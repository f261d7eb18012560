import Mathlib.Logic.Function.Basic
import ModpackInstaller.Server.Plan

/-!
# What instructions mean

An instruction list acts on a tree of paths: {lit}`+` and {lit}`*` install the
server's copy of a path and {lit}`-` removes it.  The fold of the change log
should act like the diff followed by the log.  It does as long as no step
cancels or merges into the wrong line.

Main results:

- Theorem {lit}`execLines_apply`: a list of lines acts on a path through the
  last line that names it.
- Theorem {lit}`execLines_foldEntry_own_iff`: one merge acts like the entry at the path
  of the entry exactly when it keeps the meaning of the path.
- Theorem {lit}`meaning_iff`: a planner run acts like the diff followed by the log
  exactly when the last entry of every path does this.
-/

namespace ModpackInstaller
namespace Update

open Library Server

/-- A tree: what is at a path, if anything is. -/
abbrev Tree (γ : Type*) := Text → Option γ

variable {γ : Type*}

/-! ## The meaning of a list of lines -/

/-- The operation of a line. -/
def opOf (l : Text) : Option Op :=
  (parseLine l).map Prod.fst

/-- A line has its operation. -/
@[simp] theorem opOf_line (o : Op) (key : Text) : opOf (o.line key) = some o := by
  simp [opOf]

/-- What a line leaves at the path it names. -/
def leaves (copy : Text → γ) (path l : Text) : Option γ :=
  if opOf l = some .del then none else some (copy path)

/-- Execute one line.  A comment and a line without a path do nothing. -/
def execLine (copy : Text → γ) (tree : Tree γ) (l : Text) : Tree γ :=
  match pathOf l with
  | none => tree
  | some path => Function.update tree path (leaves copy path l)

/-- Execute lines in order. -/
def execLines (copy : Text → γ) (tree : Tree γ) (lines : List Text) : Tree γ :=
  lines.foldl (execLine copy) tree

/-- The last line that names a path. -/
def lastLine (lines : List Text) (path : Text) : Option Text :=
  (lines.filter fun l => decide (pathOf l = some path)).getLast?

/-- What is at a path after the last line that names it. -/
def outcome (copy : Text → γ) (tree : Tree γ) (path : Text) : Option Text → Option γ
  | none => tree path
  | some l => leaves copy path l

/-- A line leaves other paths alone. -/
theorem execLine_of_pathOf_ne {copy : Text → γ} {tree : Tree γ} {l path : Text}
    (h : pathOf l ≠ some path) : execLine copy tree l path = tree path := by
  unfold execLine
  cases hpath : pathOf l with
  | none => rfl
  | some path' =>
      rw [hpath, Ne, Option.some.injEq] at h
      exact Function.update_of_ne (Ne.symm h) _ _

/-- A line decides what is at its own path. -/
theorem execLine_of_pathOf_eq {copy : Text → γ} {tree : Tree γ} {l path : Text}
    (h : pathOf l = some path) : execLine copy tree l path = leaves copy path l := by
  rw [execLine, h]
  exact Function.update_self _ _ _

/-- A list of lines acts on a path through the last line that names it. -/
theorem execLines_apply (copy : Text → γ) (tree : Tree γ) (lines : List Text) (path : Text) :
    execLines copy tree lines path = outcome copy tree path (lastLine lines path) := by
  induction lines using List.reverseRecOn with
  | nil => rfl
  | append_singleton lines l ih =>
      have hstep : execLines copy tree (lines ++ [l]) =
          execLine copy (execLines copy tree lines) l := List.foldl_append
      rw [hstep, lastLine, List.filter_append]
      by_cases h : pathOf l = some path
      · rw [execLine_of_pathOf_eq h]
        simp [h, outcome]
      · rw [execLine_of_pathOf_ne h, ih]
        simp [h, lastLine]

/-- The last line of a path is one of the lines, and of that path. -/
theorem mem_of_lastLine {lines : List Text} {path l : Text} (h : lastLine lines path = some l) :
    l ∈ lines ∧ pathOf l = some path := by
  simpa using List.mem_of_getLast? h

/-- A path that has a line has a last one. -/
theorem lastLine_ne_none {lines : List Text} {path l : Text} (hl : l ∈ lines)
    (hpath : pathOf l = some path) : ∃ l', lastLine lines path = some l' := by
  rw [← Option.isSome_iff_exists, lastLine, List.getLast?_isSome]
  exact List.ne_nil_of_mem (List.mem_filter.mpr ⟨hl, by simpa using hpath⟩)

/-- Only a deletion leaves nothing. -/
theorem leaves_eq_none_iff {copy : Text → γ} {path l : Text} :
    leaves copy path l = none ↔ opOf l = some .del := by
  simp [leaves]

/-- A line acts by what it says of which key. -/
theorem execLine_congr {copy : Text → γ} {tree : Tree γ} {l l' : Text}
    (h : reading l = reading l') : execLine copy tree l = execLine copy tree l' := by
  have hpath : pathOf l = pathOf l' := by
    rw [pathOf, pathOf, keyOf_eq_map_reading, keyOf_eq_map_reading, h]
  have hdel : ∀ l : Text, opOf l = some .del ↔ (reading l).map Prod.snd = some true := by
    intro l
    simp [opOf, reading]
  have hleaves : ∀ path, leaves copy path l = leaves copy path l' := by
    intro path
    have hiff : opOf l = some .del ↔ opOf l' = some .del := by rw [hdel, hdel, h]
    simp [leaves, hiff]
  rw [execLine, execLine, hpath]
  cases pathOf l' with
  | none => rfl
  | some path => exact congrArg (Function.update tree path) (hleaves path)

/-- So do lists of lines. -/
theorem execLines_congr {copy : Text → γ} {tree : Tree γ} {lines lines' : List Text}
    (h : lines.map reading = lines'.map reading) :
    execLines copy tree lines = execLines copy tree lines' := by
  induction lines generalizing tree lines' with
  | nil => rw [List.map_eq_nil_iff.mp h.symm]
  | cons l lines ih =>
      cases lines' with
      | nil => simp at h
      | cons l' lines' =>
          rw [List.map_cons, List.map_cons, List.cons.injEq] at h
          rw [execLines, List.foldl_cons, ← execLines, execLine_congr h.1, ih h.2]
          rfl

/-! ## One merge -/

/-- A cancelled installation leaves a deletion as the last line of the path, or
no line where the old tree has nothing. -/
def DeletionKept (old : Tree γ) (path : Text) : Option Text → Prop
  | none => old path = none
  | some l => opOf l = some .del

/-- An installation merged into lines of its key is not followed by a deletion
under another key. -/
def InstallKept (key : Text) : Option Text → Prop
  | none => True
  | some l => opOf l = some .del → keyOf l = some key

/-- A merge into the lines of its own key keeps the meaning of the path. -/
def KeepsPath (old : Tree γ) (lines : List Text) (key path : Text) : Op → Prop
  | .del => DeletionKept old path (lastLine (cancel key lines) path)
  | .add => InstallKept key (lastLine lines path)
  | .upd => InstallKept key (lastLine lines path)

/-- A change entry that meets lines of its own key keeps the meaning of its
path. -/
def Keeps (old : Tree γ) (lines : List Text) (entry : Text) : Prop :=
  match parseLine entry with
  | some (o, filetype :: path) =>
    (∃ l ∈ lines, keyOf l = some (filetype :: path)) →
      KeepsPath old lines (filetype :: path) path o
  | _ => True

instance (old : Tree γ) (path : Text) : DecidablePred (DeletionKept old path)
  | none => inferInstanceAs (Decidable (old path = none))
  | some _ => inferInstanceAs (Decidable (_ = _))

instance (key : Text) : DecidablePred (InstallKept key)
  | none => inferInstanceAs (Decidable True)
  | some _ => inferInstanceAs (Decidable (_ → _))

instance (old : Tree γ) (lines : List Text) (key path : Text) :
    DecidablePred (KeepsPath old lines key path)
  | .del => inferInstanceAs (Decidable (DeletionKept _ _ _))
  | .add => inferInstanceAs (Decidable (InstallKept _ _))
  | .upd => inferInstanceAs (Decidable (InstallKept _ _))

instance (old : Tree γ) (lines : List Text) (entry : Text) : Decidable (Keeps old lines entry) :=
  match h : parseLine entry with
  | none => .isTrue (by simp [Keeps, h])
  | some (_, []) => .isTrue (by simp [Keeps, h])
  | some (o, filetype :: path) =>
    decidable_of_iff ((∃ l ∈ lines, keyOf l = some (filetype :: path)) →
      KeepsPath old lines (filetype :: path) path o) (by simp [Keeps, h])

section Step

variable {copy : Text → γ} {old : Tree γ} {lines : List Text} {o : Op} {filetype : Char}
  {path : Text}

/-- Relabelling keeps the order of the lines, so the last one is relabelled. -/
private theorem lastLine_relabel (frm : Op) (key path : Text) :
    lastLine (lines.map (relabel frm key)) path = (lastLine lines path).map (relabel frm key) := by
  have hpath : ∀ l, pathOf (relabel frm key l) = pathOf l := by
    intro l
    unfold relabel
    split
    · rename_i hl
      rw [hl]
      simp [pathOf]
    · rfl
  rw [lastLine, List.filter_map, List.getLast?_map, lastLine]
  simp [Function.comp_def, hpath]

/-- Paths that the entry does not name keep their last line. -/
private theorem lastLine_foldLine_other {key path' : Text}
    (h : ∀ o : Op, pathOf (o.line key) ≠ some path') :
    lastLine (foldLine lines o key) path' = lastLine lines path' := by
  rw [lastLine, foldLine_filter fun o => by simpa using h o, lastLine]

/-- For an addition or an update only the installation matters. -/
private theorem keepsPath_install {key path : Text} (ho : o ≠ .del) :
    KeepsPath old lines key path o ↔ InstallKept key (lastLine lines path) := by
  cases o with
  | del => exact absurd rfl ho
  | add => rfl
  | upd => rfl

/-- A line that is not the deletion of the key installs exactly when it is no
deletion under another key. -/
private theorem leaves_install_iff {key path l : Text} (h : l ≠ Op.del.line key) :
    leaves copy path l = some (copy path) ↔ InstallKept key (some l) := by
  have hother : opOf l = some .del → keyOf l ≠ some key := by
    intro hop hkey
    obtain ⟨o, rfl⟩ := keyOf_eq_some.mp hkey
    rw [opOf_line, Option.some.injEq] at hop
    exact h (by rw [hop])
  by_cases hop : opOf l = some .del
  · simp [leaves, InstallKept, hop, hother hop]
  · simp [leaves, InstallKept, hop]

/-- At its own path a merge acts like the entry exactly when it keeps the
meaning of the path. -/
private theorem outcome_foldLine_iff :
    outcome copy old path (lastLine (foldLine lines o (filetype :: path)) path) =
        leaves copy path (o.line (filetype :: path)) ↔
      ((∃ l ∈ lines, keyOf l = some (filetype :: path)) →
        KeepsPath old lines (filetype :: path) path o) := by
  have hpath : ∀ o : Op, pathOf (o.line (filetype :: path)) = some path := fun o =>
    pathOf_eq_some.mpr ⟨o, filetype, rfl⟩
  -- A line of the key is one of the three operation lines.
  have hkey : ∀ o : Op, o.line (filetype :: path) ∈ lines →
      ∃ l ∈ lines, keyOf l = some (filetype :: path) := fun o h => ⟨_, h, by simp⟩
  have hinstall : ∀ o : Op, o ≠ .del →
      leaves copy path (o.line (filetype :: path)) = some (copy path) := by
    intro o ho
    simp [leaves, ho]
  have hstep := foldStep_foldLine lines o (filetype :: path)
  generalize foldLine lines o (filetype :: path) = result at hstep ⊢
  cases hstep with
  | append fresh =>
      have hlast : lastLine (lines ++ [o.line (filetype :: path)]) path =
          some (o.line (filetype :: path)) := by
        simp [lastLine, hpath]
      have hnone : ¬ ∃ l ∈ lines, keyOf l = some (filetype :: path) := by
        rintro ⟨l, hl, hk⟩
        obtain ⟨o', rfl⟩ := keyOf_eq_some.mp hk
        exact fresh o' hl
      rw [hlast]
      exact iff_of_true rfl fun h => absurd h hnone
  | cancel delete present =>
      subst delete
      have hexists : ∃ l ∈ lines, keyOf l = some (filetype :: path) :=
        present.elim (hkey _) (hkey _)
      rw [imp_iff_right hexists, leaves_eq_none_iff.mpr (opOf_line _ _), KeepsPath]
      cases lastLine (cancel (filetype :: path) lines) path with
      | none => rfl
      | some l => exact leaves_eq_none_iff
  | relabel frm install present clean =>
      obtain ⟨l, hlast⟩ := lastLine_ne_none present (hpath frm)
      rw [lastLine_relabel, hlast, imp_iff_right (hkey _ present), keepsPath_install install, hlast,
        hinstall o install, Option.map_some, outcome]
      by_cases hhit : l = frm.line (filetype :: path)
      · rw [relabel, if_pos hhit, hinstall .upd (by decide), hhit]
        exact iff_of_true rfl fun _ => keyOf_line _ _
      · rw [relabel, if_neg hhit]
        refine leaves_install_iff fun hl => ?_
        rcases clean with rfl | hclean
        · exact hhit hl
        · exact hclean (hl ▸ (mem_of_lastLine hlast).1)
  | keep install delete =>
      by_cases ho : o = .del
      · subst ho
        obtain ⟨hdel, hadd, hupd⟩ := delete rfl
        have hcancel : cancel (filetype :: path) lines = lines := by
          rw [cancel, List.filter_filter, List.filter_eq_self]
          intro l hl
          have hne : l ≠ Op.upd.line (filetype :: path) ∧ l ≠ Op.add.line (filetype :: path) :=
            ⟨fun h => hupd (h ▸ hl), fun h => hadd (h ▸ hl)⟩
          simpa using hne
        obtain ⟨l, hlast⟩ := lastLine_ne_none hdel (hpath .del)
        rw [imp_iff_right (hkey _ hdel), leaves_eq_none_iff.mpr (opOf_line _ _), KeepsPath, hcancel,
          hlast]
        exact leaves_eq_none_iff
      · obtain ⟨present, hdel⟩ := install ho
        obtain ⟨o', hpresent⟩ : ∃ o' : Op, o'.line (filetype :: path) ∈ lines :=
          present.elim (fun h => ⟨_, h⟩) (fun h => ⟨_, h⟩)
        obtain ⟨l, hlast⟩ := lastLine_ne_none hpresent (hpath o')
        rw [imp_iff_right (hkey _ hpresent), keepsPath_install ho, hlast, hinstall o ho, outcome]
        exact leaves_install_iff fun hl => hdel (hl ▸ (mem_of_lastLine hlast).1)

end Step

/-- Away from the path of its entry a merge does nothing. -/
theorem execLines_foldEntry_other {copy : Text → γ} {old : Tree γ} {lines : List Text}
    {entry path : Text} (h : pathOf entry ≠ some path) :
    execLines copy old (foldEntry lines entry) path = execLines copy old lines path := by
  rw [execLines_apply, execLines_apply]
  cases hparse : parseLine entry with
  | none => rw [foldEntry_of_parseLine_none hparse]
  | some e =>
      obtain ⟨o, key⟩ := e
      have hentry := parseLine_eq_some.mp hparse
      rw [hentry, foldEntry_line, lastLine_foldLine_other]
      intro o'
      rwa [pathOf, keyOf_line, ← keyOf_line o key, ← pathOf, ← hentry]

/-- At the path of its entry a merge acts like the entry exactly when it keeps the meaning
of the path. -/
theorem execLines_foldEntry_own_iff {copy : Text → γ} {old : Tree γ} {lines : List Text}
    {entry path : Text} (h : pathOf entry = some path) :
    execLines copy old (foldEntry lines entry) path = leaves copy path entry ↔
      Keeps old lines entry := by
  obtain ⟨o, filetype, hentry⟩ := pathOf_eq_some.mp h
  have hkeeps : Keeps old lines entry ↔
      ((∃ l ∈ lines, keyOf l = some (filetype :: path)) →
        KeepsPath old lines (filetype :: path) path o) := by
    simp [Keeps, hentry]
  rw [hkeeps, execLines_apply, hentry, foldEntry_line]
  exact outcome_foldLine_iff

/-! ## A planner run -/

section Run

variable (copy : Text → γ) (old : Tree γ)

/-- The lines of the buffer, and the tree that the entries leave one by one. -/
private def bothSteps (s : List Text × Tree γ) (entry : Text) : List Text × Tree γ :=
  (rewriteEntry s.1 entry, execLine copy s.2 entry)

/-- Folding both at once is folding each by itself. -/
private theorem foldl_bothSteps (lines log : List Text) (tree : Tree γ) :
    log.foldl (bothSteps copy) (lines, tree) =
      (log.foldl rewriteEntry lines, log.foldl (execLine copy) tree) := by
  induction log generalizing lines tree with
  | nil => rfl
  | cons entry log ih => exact ih _ _

/-- The lines with the log worked in act like the lines and then the entries one by one
exactly when the last entry of every path keeps its meaning. -/
theorem execLines_foldl_iff {lines log : List Text} (hspared : SparedRun lines log) :
    execLines copy old (log.foldl rewriteEntry lines) = execLines copy old (lines ++ log) ↔
      LastsMeet rewriteEntry pathOf (Keeps old) lines log := by
  have hrewrite : ∀ {lines entry}, SparedEntry lines entry →
      execLines copy old (rewriteEntry lines entry) = execLines copy old (foldEntry lines entry) :=
    fun h => execLines_congr (map_reading_rewriteEntry h)
  have hok : MeetsAlong (bothSteps copy) (fun s => SparedEntry s.1)
      (lines, execLines copy old lines) log :=
    (meetsAlong_map_iff (f := bothSteps copy) (g := rewriteEntry) (v := Prod.fst)
      (fun _ _ => rfl) _ _).mpr hspared
  have hframe : ∀ (s : List Text × Tree γ) entry path, SparedEntry s.1 entry →
      pathOf entry ≠ some path →
        (execLines copy old (bothSteps copy s entry).1 path = (bothSteps copy s entry).2 path ↔
          execLines copy old s.1 path = s.2 path) := by
    intro s entry path hok hother
    simp only [bothSteps]
    rw [hrewrite hok, execLines_foldEntry_other hother, execLine_of_pathOf_ne hother]
  have hown : ∀ (s : List Text × Tree γ) entry path, SparedEntry s.1 entry →
      pathOf entry = some path →
        (execLines copy old (bothSteps copy s entry).1 path = (bothSteps copy s entry).2 path ↔
          Keeps old s.1 entry) := by
    intro s entry path hok hown
    simp only [bothSteps]
    rw [hrewrite hok, execLine_of_pathOf_eq hown]
    exact execLines_foldEntry_own_iff hown
  have hlasts := forall_foldl_iff_lastsMeet
    (P := fun path s => execLines copy old s.1 path = s.2 path) hframe hown hok
  have hseen : LastsMeet (bothSteps copy) pathOf (fun s => Keeps old s.1)
      (lines, execLines copy old lines) log ↔ LastsMeet rewriteEntry pathOf (Keeps old) lines log :=
    lastsMeet_map_iff (v := Prod.fst) (fun _ _ => rfl) _ _
  rw [foldl_bothSteps, hseen] at hlasts
  have happend : execLines copy old (lines ++ log) =
      log.foldl (execLine copy) (execLines copy old lines) := List.foldl_append
  rw [happend, funext_iff, hlasts]
  exact and_iff_right fun _ _ => rfl

end Run

/-- A planner run returns its buffer.  When the steps of the log spare the other lines, the
buffer acts like the list diff followed by the entries exactly when the last entry of every
path keeps the meaning of the path. -/
theorem meaning_iff {k : Kernel} {sys : Sys} {modpack version : Text} {p : PlanReads}
    (hp : p.ReadFrom k sys modpack version) (instr : Text) (copy : Text → γ) (old : Tree γ) :
    (∃ sys', mcuCreateUpdateInstructions k sys instr modpack version =
        .ok ((0, p.instructions k modpack), sys')) ∧
      (SparedRun (p.diff k modpack) p.log →
        (execLines copy old (pieces '\n' (p.instructions k modpack)) =
            execLines copy old (p.diff k modpack ++ p.log) ↔
          LastsMeet rewriteEntry pathOf (Keeps old) (p.diff k modpack) p.log)) := by
  refine ⟨mcuCreateUpdateInstructions_of_reads hp instr, fun hspared => ?_⟩
  rw [PlanReads.pieces_instructions hp hspared]
  exact execLines_foldl_iff copy old hspared

/-! ## Consistent logs -/

/-- A path is added only when it is absent, and updated or deleted only when it
is present. -/
def Applicable (tree : Tree γ) (entry : Text) : Prop :=
  match parseLine entry with
  | some (.add, _ :: path) => tree path = none
  | some (_, _ :: path) => tree path ≠ none
  | _ => True

/-- Every entry is applicable to the tree that the entries before it leave. -/
def ConsistentLog (copy : Text → γ) (old : Tree γ) (log : List Text) : Prop :=
  MeetsAlong (execLine copy) Applicable old log

/-- A file is replaced by two others, and the log updates one of them, whose name begins
the name of the other. -/
theorem meaning_renamed :
    (mcuCreateUpdateInstructions
        (outdated ".\n./c\n".toList ".\n./a\n./ab\n".toList "@1\n*fmods/a\n".toList
          fun _ => some .regular) ⟨0, []⟩ [] ['m'] ['1'] =
      .ok ((0, "-umods/c\n*fmods/a\n*fmods/ab\n".toList), ⟨8, []⟩)) ∧
    execLines (fun _ => ()) (fun _ => none) (pieces '\n'
        ((storedReads ⟨0, []⟩ "2\n".toList ".\n./c\n".toList ".\n./a\n./ab\n".toList
          "@1\n*fmods/a\n".toList ["*fmods/a".toList]).instructions
        (outdated ".\n./c\n".toList ".\n./a\n./ab\n".toList "@1\n*fmods/a\n".toList
          fun _ => some .regular) ['m'])) =
      execLines (fun _ => ()) (fun _ => none)
        (["-umods/c".toList, "+fmods/a".toList, "+fmods/ab".toList] ++ ["*fmods/a".toList]) :=
  ⟨by decide,
    ((meaning_iff (readFrom_outdated _ (by decide) _) [] _ _).2 (by decide)).mpr (by decide)⟩

/-- The update of a file and its later deletion cancel each other, and the
deletion is lost.  The rewriting of a line also hits the name of a directory, and the file
in it is installed under another path. -/
theorem meaning_fails :
    (ConsistentLog (fun _ => ()) (fun path => if path = "mods/a".toList then some () else none)
        ["*fmods/a".toList, "-fmods/a".toList] ∧
      ∃ out sys', mcuCreateUpdateInstructions
          (outdated ".\n./a\n".toList ".\n./a\n".toList "@1\n*fmods/a\n-fmods/a\n".toList
            fun _ => some .regular) ⟨0, []⟩ [] ['m'] ['1'] = .ok ((0, out), sys') ∧
        diffLines (outdated ".\n./a\n".toList ".\n./a\n".toList
            "@1\n*fmods/a\n-fmods/a\n".toList fun _ => some .regular) ⟨3, []⟩ ['m']
          ".\n./a\n".toList ".\n./a\n".toList = [] ∧
        execLines (fun _ => ()) (fun path => if path = "mods/a".toList then some () else none)
          (pieces '\n' out) "mods/a".toList = some () ∧
        execLines (fun _ => ()) (fun path => if path = "mods/a".toList then some () else none)
          ["*fmods/a".toList, "-fmods/a".toList] "mods/a".toList = none) ∧
    ∃ out sys', mcuCreateUpdateInstructions
        (outdated ".\n".toList ".\n./a\n./x+fmods/a\n".toList "@1\n*fmods/a\n".toList
          fun _ => some .regular) ⟨0, []⟩ [] ['m'] ['1'] = .ok ((0, out), sys') ∧
      out = "*fmods/a\n+fmods/x*fmods/a\n".toList ∧
      execLines (fun _ => ()) (fun _ => none) (pieces '\n' out) "mods/x+fmods/a".toList = none ∧
      execLines (fun _ => ()) (fun _ => none)
        ["+fmods/a".toList, "+fmods/x+fmods/a".toList, "*fmods/a".toList]
        "mods/x+fmods/a".toList = some () := by
  refine ⟨⟨⟨?_, ?_, trivial⟩, [], ⟨4, []⟩, by decide, by decide, by decide, by decide⟩,
    _, ⟨8, []⟩, by decide, rfl, by decide, by decide⟩
  · exact show ¬ _ from by decide
  · exact show ¬ _ from by decide

end Update
end ModpackInstaller
