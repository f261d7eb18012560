import ModpackInstaller.Server.ChangeFold
import ModpackInstaller.Server.ListDiff

/-!
# A planner run over published files

A planner run that succeeds has read four texts ({lit}`PlanReads`).  This file
follows the lines of its instruction buffer, and shows that files which are
simply there make such a run.

Main results:

- Theorem {lit}`PlanReads.pieces_instructions`: when the steps of the log spare the
  other lines, the lines that are returned are those of the diff with the log worked
  in.
- Theorem {lit}`readFrom_of_stored`: stored files are read.
-/

namespace ModpackInstaller
namespace Server

open Library Update

/-! ## The lines that are returned -/

/-- The lines of the list diff of a planner run. -/
def PlanReads.diff (p : PlanReads) (k : Kernel) (modpack : Text) : List Text :=
  diffLines k p.diffSys modpack p.list1 p.list2

/-- The lines behind the version line are lines of the file. -/
theorem mem_of_findVersionLine {versionLine : Text} {lines log : List Text}
    (h : findVersionLine versionLine lines = some log) : ∀ l ∈ log, l ∈ lines := by
  induction lines with
  | nil => simp [findVersionLine] at h
  | cons file rest ih =>
      rw [findVersionLine] at h
      intro l hl
      split at h
      · rw [Option.some.injEq] at h
        rw [h]
        exact List.mem_cons_of_mem _ hl
      · exact List.mem_cons_of_mem _ (ih h l hl)

section Run

variable {k : Kernel} {sys : Sys} {modpack version : Text} {p : PlanReads}

theorem PlanReads.ReadFrom.log_newline (hp : p.ReadFrom k sys modpack version) :
    ∀ l ∈ p.log, '\n' ∉ l := by
  intro l hl
  have hmem := mem_of_findVersionLine hp.log l hl
  rw [strLines_eq_pieces] at hmem
  exact not_mem_of_mem_pieces hmem

/-- The lines that are returned are those of the diff with the log worked in. -/
theorem PlanReads.pieces_instructions (hp : p.ReadFrom k sys modpack version)
    (hspared : SparedRun (p.diff k modpack) p.log) :
    pieces '\n' (p.instructions k modpack) = p.log.foldl rewriteEntry (p.diff k modpack) := by
  obtain ⟨htext, hlines⟩ :=
    applyChanges_unpieces (diffLines_newline _ _ _ _ _) hp.log_newline hspared
  rw [PlanReads.instructions, listDiff_eq, htext, pieces_unpieces hlines, PlanReads.diff]

end Run

/-! ## Files that are simply there -/

/-- The file holds this text whenever it is opened. -/
def Stored (k : Kernel) (path s : Text) : Prop :=
  ∀ t, k.openRead t path = some (.ofText s)

/-- A file system with these files and file types at every moment. -/
def Kernel.still (files : Text → Option Text) (types : Text → Option FileType) : Kernel where
  openRead _ path := (files path).map .ofText
  stat _ path := types path

theorem stored_still {files : Text → Option Text} {types : Text → Option FileType}
    {path s : Text} (h : files path = some s) : Stored (.still files types) path s := by
  intro t
  simp [Kernel.still, h]

/-- The published files of one modpack: its version file, its list files by
version, and its change log. -/
def published (modpack vers : Text) (lists : List (Text × Text)) (changes : Text) :
    Text → Option Text := fun path =>
  if path = versionPath modpack then some vers
  else if path = changePath modpack then some changes
  else (lists.find? fun e => decide (listfilePath modpack e.1 = path)).map Prod.snd

/-- The version a version file states. -/
def statedVersion (s : Text) : Text :=
  strReplaceText (s.take 40) ['\n'] []

theorem mcuGetLatestVersion_stored {k : Kernel} {modpack s : Text}
    (h : Stored k (versionPath modpack) s) (sys : Sys) :
    mcuGetLatestVersion k sys modpack =
      .ok ((true, statedVersion s), { sys with clock := sys.clock + 1 }) := by
  rw [mcuGetLatestVersion, strFileread_regular (h sys.clock) 40]
  simp [statedVersion]

/-- What a planner run reads from stored files. -/
def storedReads (sys : Sys) (vers list1 list2 changes : Text) (log : List Text) : PlanReads where
  latest := statedVersion vers
  list1 := list1.take listLimit
  list2 := list2.take listLimit
  changes := changes.take listLimit
  diffSys := { sys with clock := sys.clock + 3 }
  log := log

/-- Stored files are read. -/
theorem readFrom_of_stored {k : Kernel} {modpack version vers list1 list2 changes : Text}
    {log : List Text} (hvers : Stored k (versionPath modpack) vers)
    (hlist1 : Stored k (listfilePath modpack version) list1)
    (hlist2 : Stored k (listfilePath modpack (statedVersion vers)) list2)
    (hchanges : Stored k (changePath modpack) changes)
    (hlog : findVersionLine ('@' :: version) (strLines (changes.take listLimit)) = some log)
    (sys : Sys) :
    (storedReads sys vers list1 list2 changes log).ReadFrom k sys modpack version where
  latest := by
    refine ⟨_, _, _, _, mcuGetLatestVersion_stored hvers sys,
      strFileread_regular (hlist1 _) listLimit, Int.natCast_nonneg _, rfl,
      strFileread_regular (hlist2 _) listLimit, Int.natCast_nonneg _, rfl⟩
  changes := ⟨_, _, strFileread_regular (hchanges _) listLimit, Int.natCast_nonneg _, rfl⟩
  log := hlog

/-- A modpack {lit}`m` whose version 1 is out of date. -/
def outdated (old latest changes : Text) (types : Text → Option FileType) : Kernel :=
  .still (published ['m'] ['2', '\n'] [(['1'], old), (['2'], latest)] changes) types

section Outdated

variable (old latest changes : Text) (types : Text → Option FileType)

theorem outdated_version :
    Stored (outdated old latest changes types) (versionPath ['m']) ['2', '\n'] :=
  stored_still (if_pos rfl)

theorem outdated_changes :
    Stored (outdated old latest changes types) (changePath ['m']) changes := by
  refine stored_still ?_
  rw [published, if_neg (by decide), if_pos rfl]

theorem outdated_old :
    Stored (outdated old latest changes types) (listfilePath ['m'] ['1']) old := by
  refine stored_still ?_
  rw [published, if_neg (by decide), if_neg (by decide), List.find?_cons_of_pos (by simp)]
  rfl

theorem outdated_latest :
    Stored (outdated old latest changes types)
      (listfilePath ['m'] (statedVersion ['2', '\n'])) latest := by
  have hversion : statedVersion ['2', '\n'] = ['2'] := by decide
  have hother : listfilePath ['m'] ['1'] ≠ listfilePath ['m'] ['2'] := by decide
  refine stored_still ?_
  rw [hversion, published, if_neg (by decide), if_neg (by decide),
    List.find?_cons_of_neg (by simpa using hother), List.find?_cons_of_pos (by simp)]
  rfl

end Outdated

/-- An update of {lit}`m` from version 1 reads the two lists and the log. -/
theorem readFrom_outdated {old latest changes : Text} {log : List Text}
    (types : Text → Option FileType)
    (hlog : findVersionLine ['@', '1'] (strLines (changes.take listLimit)) = some log) (sys : Sys) :
    (storedReads sys ['2', '\n'] old latest changes log).ReadFrom
      (outdated old latest changes types) sys ['m'] ['1'] :=
  readFrom_of_stored (outdated_version _ _ _ _) (outdated_old _ _ _ _) (outdated_latest _ _ _ _)
    (outdated_changes _ _ _ _) hlog sys

end Server
end ModpackInstaller
