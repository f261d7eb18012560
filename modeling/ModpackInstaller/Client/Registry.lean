import ModpackInstaller.Client.Addons
import ModpackInstaller.Library.Run

/-!
# The list of installed packs

The list {lit}`packList` over installations, registrations, updates and checks.
An installation makes room by directory, a registration looks for the name, and
everything that is removed is removed by name.  The strings of Java can be null,
and calling {lit}`equals` on one ends the routine.

Main results:

- Theorem {lit}`begin_cases`: what a call of {lit}`begin` can do to the list.
- Theorem {lit}`distinct_install_iff` and {lit}`distinct_register_iff`: what
  each of the two checks leaves open.
- Theorem {lit}`distinct_iff_fresh`: names and directories stay pairwise
  different along a run exactly when every step meets what is left open.
- Theorem {lit}`distinct_fails`: a pack in two directories, and two packs in one.
-/

namespace ModpackInstaller
namespace Client
namespace Registry

open Library

/-! ## Packs and directories -/

/-- An entry of `packList`. -/
structure Registered where
  name : Option Text
  directory : Text
  version : Option Text
deriving DecidableEq, Repr

/-- `File.getAbsolutePath` in a process that runs in `cwd`. -/
def absolutePath (cwd name : Text) : Text :=
  let path := javaPath name
  if path.head? = some '/' then path
  else if path = [] then cwd
  else if cwd = ['/'] then '/' :: path
  else cwd ++ '/' :: path

/-- What reading the first line of a file gives. -/
inductive FirstLine where
  | notFound
  | unreadable
  /-- {lit}`readLine` gives null when the file is empty. -/
  | line (text : Option Text)
deriving DecidableEq, Repr

/-- The files of a directory by which a pack is detected. -/
structure Markers where
  ver : FirstLine
  modpack : FirstLine
  /-- The result of `registerRhaokarLightPack`; `none` when it throws. -/
  registerRhaokarLightPack : Option Bool
deriving DecidableEq, Repr

/-- `detectPack`; `none` when it throws. -/
def detectPack (found : Markers) (path : Text) : Option (Option Registered) :=
  match found.ver with
  | .notFound => some none
  | .unreadable => some none
  | .line version =>
    match found.modpack with
    | .line modpack => some (some ⟨modpack, path, version⟩)
    | .unreadable => some none
    | .notFound =>
      match found.registerRhaokarLightPack with
      | none => none
      | some true => some (some ⟨some "rhaokar_light".toList, path, version⟩)
      | some false => some none

/-! ## Searching by name -/

/-- `isInstalled` for a pack of this name; `none` when it throws. -/
def isInstalled (name : Text) : List Registered → Option Bool
  | [] => some false
  | p :: ps =>
    match p.name with
    | none => none
    | some n => if n = name then some true else isInstalled name ps

/-- Record a version for the packs of a name, up to a pack without one. -/
def setVersion (name : Option Text) (version : Text) : List Registered → List Registered
  | [] => []
  | p :: ps =>
    match p.name with
    | none => p :: ps
    | some n =>
      (if some n = name then { p with version := some version } else p) ::
        setVersion name version ps

/-- `unregisterPack`; `none` when it throws, in front of the removal. -/
def unregisterPack (name : Option Text) (packList : List Registered) : Option (List Registered) :=
  if packList.all fun p => p.name.isSome then
    some (packList.filter fun p => decide (p.name ≠ name))
  else none

/-! ## The panel -/

/-- The fields of `InstallPanel` that decide about the list. -/
structure Panel where
  packList : List Registered
  addonsOpenedOnce : Bool
deriving DecidableEq, Repr

/-- What a call of `begin` finds. -/
structure Begin where
  first : Bool
  dirBox : Text
  /-- The selected item of `modpackChooser`. -/
  selected : Option Text
  /-- The directory, behind the clean-up of a forced reinstall. -/
  found : Markers
  /-- `checkDir(new File(workingDir), 2)` -/
  checkDir : Bool
  /-- The result of `downloadArchive`; `none` when it throws. -/
  downloadArchive : Option Bool
  /-- The directory behind the download. -/
  unpacked : Markers
  /-- The version that `updatePack` records, when it gets to its end. -/
  recorded : Option Text
deriving DecidableEq, Repr

/-- `updatePack`, which records the latest version when it gets to its end. -/
def updatePack (name recorded : Option Text) (packList : List Registered) : List Registered :=
  match recorded with
  | none => packList
  | some version => setVersion name version packList

/-- `downloadPack` -/
def downloadPack (cwd : Text) (b : Begin) (packList : List Registered) : List Registered :=
  match b.downloadArchive with
  | some true =>
    match detectPack b.unpacked (absolutePath cwd b.dirBox) with
    | some (some p) => packList.filter (fun t => decide (t.directory ≠ p.directory)) ++ [p]
    | _ => packList
  | _ => packList

/-- `begin`.  The addons have no part in the list. -/
def begin (cwd : Text) (s : Panel) (b : Begin) : Panel :=
  match detectPack b.found (absolutePath cwd b.dirBox) with
  | none => s
  | some none =>
    if b.checkDir then s
    else if b.selected = none then s
    else if b.first && !s.addonsOpenedOnce then { s with addonsOpenedOnce := true }
    else { s with packList := downloadPack cwd b s.packList }
  | some (some detected) =>
    match detected.name with
    | none => s
    | some name =>
      if some name = b.selected then
        if isInstalled name s.packList = some false then
          { s with packList := updatePack detected.name b.recorded (s.packList ++ [detected]) }
        else s
      else s

/-- What a call of `checkUpdate` finds. -/
structure Check where
  /-- The file {lit}`modpack` of a directory. -/
  modpack : Text → FirstLine
  /-- The answer of the server for a name; `none` when asking throws. -/
  getLatestVersion : Option Text → Option (Option Text)

/-- The loop of `checkUpdate`: the packs that are gone and those that are out of
date; `none` when it throws. -/
def checkLoop (c : Check) : List Registered → Option (List Registered × List Registered)
  | [] => some ([], [])
  | p :: ps =>
    match c.modpack p.directory with
    | .line none => none
    | .line (some line) =>
      if some line = p.name then
        match c.getLatestVersion p.name with
        | none => none
        | some latest =>
          (checkLoop c ps).map fun (gone, old) =>
            (gone, if latest ≠ none ∧ latest ≠ p.version then p :: old else old)
      else (checkLoop c ps).map fun (gone, old) => (p :: gone, old)
    | _ => (checkLoop c ps).map fun (gone, old) => (p :: gone, old)

/-- The unregistrations, up to one that throws. -/
def unregisterAll : List Registered → List Registered → List Registered
  | [], packList => packList
  | t :: ts, packList =>
    match unregisterPack t.name packList with
    | none => packList
    | some packList => unregisterAll ts packList

/-- `checkUpdate` -/
def checkUpdate (c : Check) (packList : List Registered) : List Registered :=
  match checkLoop c packList with
  | none => packList
  | some (gone, _) => unregisterAll gone packList

/-- What happens to the list. -/
inductive Event where
  | begin (b : Begin)
  | updatePack (name recorded : Option Text)
  | checkUpdate (c : Check)

/-- One event. -/
def step (cwd : Text) (s : Panel) : Event → Panel
  | .begin b => begin cwd s b
  | .updatePack name recorded => { s with packList := updatePack name recorded s.packList }
  | .checkUpdate c => { s with packList := checkUpdate c s.packList }

/-! ## What is added -/

/-- The pack that a call of `begin` downloads into a directory where no pack was
found. -/
def arriving (cwd : Text) (s : Panel) (b : Begin) : Option Registered :=
  if detectPack b.found (absolutePath cwd b.dirBox) = some none ∧ b.checkDir = false ∧
      b.selected ≠ none ∧ (b.first && !s.addonsOpenedOnce) = false ∧
      b.downloadArchive = some true then
    (detectPack b.unpacked (absolutePath cwd b.dirBox)).join
  else none

/-- The pack that a call of `begin` finds in a directory, the selected one, with a
name that is not registered. -/
def detectedNew (cwd : Text) (s : Panel) (b : Begin) : Option Registered :=
  (detectPack b.found (absolutePath cwd b.dirBox)).join.filter fun p =>
    decide (p.name = b.selected) &&
      p.name.any fun name => decide (isInstalled name s.packList = some false)

/-- Put a pack in the place of those in its directory. -/
def replaceDirectory (packList : List Registered) (p : Registered) : List Registered :=
  packList.filter (fun t => decide (t.directory ≠ p.directory)) ++ [p]

/-- What a call of `begin` can do to the list. -/
theorem begin_cases (cwd : Text) (s : Panel) (b : Begin) :
    (arriving cwd s b = none ∧ detectedNew cwd s b = none ∧
        (begin cwd s b).packList = s.packList) ∨
      (∃ p, arriving cwd s b = some p ∧ detectedNew cwd s b = none ∧
        (begin cwd s b).packList = replaceDirectory s.packList p) ∨
      ∃ p name, arriving cwd s b = none ∧ detectedNew cwd s b = some p ∧ p.name = some name ∧
        isInstalled name s.packList = some false ∧
        (begin cwd s b).packList = updatePack p.name b.recorded (s.packList ++ [p]) := by
  unfold begin
  cases hfound : detectPack b.found (absolutePath cwd b.dirBox) with
  | none => exact Or.inl ⟨by simp [arriving, hfound], by simp [detectedNew, hfound], rfl⟩
  | some detected =>
      cases detected with
      | none =>
          have hnew : detectedNew cwd s b = none := by simp [detectedNew, hfound]
          dsimp only
          split_ifs with hdir hselected hask
          · exact Or.inl ⟨by simp [arriving, hdir], hnew, rfl⟩
          · exact Or.inl ⟨by simp [arriving, hselected], hnew, rfl⟩
          · exact Or.inl ⟨by simp [arriving, hask], hnew, rfl⟩
          · cases harchive : b.downloadArchive with
            | none =>
                exact Or.inl ⟨by simp [arriving, harchive], hnew, by simp [downloadPack, harchive]⟩
            | some ok =>
                cases ok with
                | false =>
                    exact Or.inl
                      ⟨by simp [arriving, harchive], hnew, by simp [downloadPack, harchive]⟩
                | true =>
                    rcases hun : detectPack b.unpacked (absolutePath cwd b.dirBox) with _ | _ | p
                    · exact Or.inl
                        ⟨by simp [arriving, hun], hnew, by simp [downloadPack, harchive, hun]⟩
                    · exact Or.inl
                        ⟨by simp [arriving, hun], hnew, by simp [downloadPack, harchive, hun]⟩
                    · refine Or.inr (Or.inl ⟨p, ?_, hnew, ?_⟩)
                      · rw [arriving, if_pos, hun]
                        · rfl
                        · exact ⟨hfound, by simpa using hdir, hselected, by simpa using hask,
                            harchive⟩
                      · simp [downloadPack, harchive, hun, replaceDirectory]
      | some detected =>
          have hnone : arriving cwd s b = none := by simp [arriving, hfound]
          dsimp only
          split
          · rename_i hname
            exact Or.inl ⟨hnone, by simp [detectedNew, hfound, hname], rfl⟩
          · rename_i name hname
            split_ifs with hselected hinstalled
            · refine Or.inr (Or.inr ⟨detected, name, hnone, ?_, hname, hinstalled, rfl⟩)
              simp [detectedNew, hfound, hname, ← hselected, hinstalled]
            · exact Or.inl
                ⟨hnone, by simp [detectedNew, hfound, hname, ← hselected, hinstalled], rfl⟩
            · exact Or.inl ⟨hnone, by simp [detectedNew, hfound, hname, hselected], rfl⟩

/-! ## Distinct names and directories -/

/-- Names and directories are pairwise different. -/
def Distinct (packList : List Registered) : Prop :=
  (packList.map Registered.name).Nodup ∧ (packList.map Registered.directory).Nodup

instance : DecidablePred Distinct := fun _ => inferInstanceAs (Decidable (_ ∧ _))

theorem Distinct.sublist {s s' : List Registered} (h : Distinct s) (hsub : s'.Sublist s) :
    Distinct s' :=
  ⟨h.1.sublist (hsub.map Registered.name), h.2.sublist (hsub.map Registered.directory)⟩

theorem distinct_concat {s : List Registered} {p : Registered} :
    Distinct (s ++ [p]) ↔
      Distinct s ∧ (∀ q ∈ s, q.name ≠ p.name) ∧ ∀ q ∈ s, q.directory ≠ p.directory := by
  unfold Distinct
  simp only [List.map_append, List.map_cons, List.map_nil, List.nodup_append, List.mem_map,
    List.mem_singleton, List.nodup_singleton, true_and, forall_exists_index, and_imp]
  constructor
  · rintro ⟨⟨hnames, hname⟩, hdirs, hdir⟩
    exact ⟨⟨hnames, hdirs⟩, fun q hq => hname _ q hq rfl _ rfl, fun q hq => hdir _ q hq rfl _ rfl⟩
  · rintro ⟨⟨hnames, hdirs⟩, hname, hdir⟩
    refine ⟨⟨hnames, ?_⟩, hdirs, ?_⟩
    · rintro a q hq rfl c rfl
      exact hname q hq
    · rintro a q hq rfl c rfl
      exact hdir q hq

/-- Putting a pack in the place of those in its directory leaves the names of the
other directories to be compared. -/
theorem distinct_install_iff {s : List Registered} (h : Distinct s) (p : Registered) :
    Distinct (replaceDirectory s p) ↔ ∀ q ∈ s, q.name = p.name → q.directory = p.directory := by
  have hsub : Distinct (s.filter fun t => decide (t.directory ≠ p.directory)) :=
    h.sublist List.filter_sublist
  rw [replaceDirectory, distinct_concat, and_iff_right hsub]
  simp only [List.mem_filter, decide_eq_true_eq, and_imp]
  constructor
  · rintro ⟨hname, -⟩ q hq heq
    by_contra hdir
    exact hname q hq hdir heq
  · intro hsame
    exact ⟨fun q hq hdir heq => hdir (hsame q hq heq), fun _ _ hdir => hdir⟩

/-- A name that is not installed is no name of the list. -/
theorem name_ne_of_isInstalled {name : Text} {s : List Registered}
    (h : isInstalled name s = some false) : ∀ q ∈ s, q.name ≠ some name := by
  induction s with
  | nil => exact fun q hq => absurd hq List.not_mem_nil
  | cons p ps ih =>
      rw [isInstalled] at h
      split at h
      · cases h
      · rename_i n hn
        split_ifs at h with heq
        · cases h
        · refine List.forall_mem_cons.mpr ⟨?_, ih h⟩
          rw [hn]
          simpa using heq

/-- Registering a pack with a new name leaves the directories to be compared. -/
theorem distinct_register_iff {s : List Registered} (h : Distinct s) {p : Registered} {name : Text}
    (hname : p.name = some name) (hnew : isInstalled name s = some false) :
    Distinct (s ++ [p]) ↔ ∀ q ∈ s, q.directory ≠ p.directory := by
  rw [distinct_concat, and_iff_right h, hname]
  exact and_iff_right (name_ne_of_isInstalled hnew)

/-- Recording a version changes no name and no directory. -/
theorem setVersion_map (name : Option Text) (version : Text) (s : List Registered) :
    (setVersion name version s).map Registered.name = s.map Registered.name ∧
      (setVersion name version s).map Registered.directory = s.map Registered.directory := by
  induction s with
  | nil => exact ⟨rfl, rfl⟩
  | cons p ps ih =>
      rw [setVersion]
      split
      · exact ⟨rfl, rfl⟩
      · rw [List.map_cons, List.map_cons, List.map_cons, List.map_cons, ih.1, ih.2]
        split_ifs <;> exact ⟨rfl, rfl⟩

theorem distinct_updatePack {name recorded : Option Text} {s : List Registered} :
    Distinct (updatePack name recorded s) ↔ Distinct s := by
  unfold updatePack Distinct
  split
  · exact Iff.rfl
  · rw [(setVersion_map _ _ s).1, (setVersion_map _ _ s).2]

theorem unregisterAll_sublist (gone s : List Registered) : (unregisterAll gone s).Sublist s := by
  induction gone generalizing s with
  | nil => exact List.Sublist.refl s
  | cons t ts ih =>
      rw [unregisterAll, unregisterPack]
      split
      · exact List.Sublist.refl s
      · rename_i s' hs'
        split_ifs at hs'
        rw [← Option.some.inj hs']
        exact (ih _).trans List.filter_sublist

theorem checkUpdate_sublist (c : Check) (s : List Registered) : (checkUpdate c s).Sublist s := by
  unfold checkUpdate
  split
  · exact List.Sublist.refl s
  · exact unregisterAll_sublist _ s

/-! ## Runs -/

/-- A pack that arrives in a directory has no entry in another directory, and a
pack that is found in a directory has it for itself. -/
def Fresh (cwd : Text) (s : Panel) : Event → Prop
  | .begin b =>
    (∀ p ∈ arriving cwd s b, ∀ q ∈ s.packList, q.name = p.name → q.directory = p.directory) ∧
      ∀ p ∈ detectedNew cwd s b, ∀ q ∈ s.packList, q.directory ≠ p.directory
  | .updatePack _ _ => True
  | .checkUpdate _ => True

instance decidableFresh (cwd : Text) (s : Panel) : (e : Event) → Decidable (Fresh cwd s e)
  | .begin b => inferInstanceAs (Decidable ((∀ p ∈ arriving cwd s b, ∀ q ∈ s.packList, _ → _) ∧
      ∀ p ∈ detectedNew cwd s b, ∀ q ∈ s.packList, _ ≠ _))
  | .updatePack _ _ => inferInstanceAs (Decidable True)
  | .checkUpdate _ => inferInstanceAs (Decidable True)

theorem distinct_step_iff (cwd : Text) (s : Panel) (e : Event) (h : Distinct s.packList) :
    Distinct (step cwd s e).packList ↔ Fresh cwd s e := by
  cases e with
  | begin b =>
      simp only [step, Fresh]
      rcases begin_cases cwd s b with ⟨harr, hnew, hlist⟩ | ⟨p, harr, hnew, hlist⟩ |
        ⟨p, name, harr, hnew, hname, hinst, hlist⟩
      · rw [hlist, harr, hnew]
        exact iff_of_true h ⟨by simp, by simp⟩
      · rw [hlist, harr, hnew, distinct_install_iff h]
        simp
      · rw [hlist, harr, hnew, distinct_updatePack, distinct_register_iff h hname hinst]
        simp
  | updatePack name recorded => exact iff_of_true (distinct_updatePack.mpr h) trivial
  | checkUpdate c => exact iff_of_true (h.sublist (checkUpdate_sublist c _)) trivial

/-- From pairwise different names and directories they stay so along a run exactly
when every step is fresh. -/
theorem distinct_iff_fresh (cwd : Text) (s : Panel) (events : List Event)
    (h : Distinct s.packList) :
    (∀ n, Distinct ((events.take n).foldl (step cwd) s).packList) ↔
      MeetsAlong (step cwd) (Fresh cwd) s events := by
  have hiff := invariant_iff_meetsAlong (P := fun s : Panel => Distinct s.packList)
    (distinct_step_iff cwd) s events
  rw [hiff, and_iff_right h]

/-- A call of `begin` that installs a pack in a directory without one. -/
def installation (name dirBox : Text) : Begin where
  first := false
  dirBox := dirBox
  selected := some name
  found := ⟨.notFound, .notFound, some false⟩
  checkDir := false
  downloadArchive := some true
  unpacked := ⟨.line (some ['1']), .line (some name), some false⟩
  recorded := none

/-- A call of `begin` that finds a pack in a directory. -/
def registration (name dirBox : Text) : Begin where
  first := false
  dirBox := dirBox
  selected := some name
  found := ⟨.line (some ['1']), .line (some name), some false⟩
  checkDir := true
  downloadArchive := none
  unpacked := ⟨.notFound, .notFound, some false⟩
  recorded := some ['2']

/-- A pack is installed, and a second one is found and brought up to date. -/
def secondPack : List Event :=
  [.begin (installation ['m'] "/a".toList), .begin (registration ['n'] "b".toList)]

theorem distinct_secondPack :
    (secondPack.foldl (step "/home".toList) ⟨[], false⟩).packList.length = 2 ∧
      ∀ n, Distinct ((secondPack.take n).foldl (step "/home".toList) ⟨[], false⟩).packList :=
  ⟨by decide, (distinct_iff_fresh "/home".toList ⟨[], false⟩ secondPack (by decide)).mpr
    (by decide)⟩

/-- A pack that is registered for one directory can be installed in another one,
and a pack that was put in the directory of another one is registered beside it. -/
theorem distinct_fails :
    (Distinct [⟨some ['m'], "/a".toList, some ['1']⟩] ∧
      (step "/home".toList ⟨[⟨some ['m'], "/a".toList, some ['1']⟩], false⟩
        (.begin (installation ['m'] "/b".toList))).packList =
          [⟨some ['m'], "/a".toList, some ['1']⟩, ⟨some ['m'], "/b".toList, some ['1']⟩] ∧
      ¬ Distinct [⟨some ['m'], "/a".toList, some ['1']⟩, ⟨some ['m'], "/b".toList, some ['1']⟩]) ∧
    (step "/home".toList ⟨[⟨some ['m'], "/a".toList, some ['1']⟩], false⟩
        (.begin (registration ['n'] "/a".toList))).packList =
          [⟨some ['m'], "/a".toList, some ['1']⟩, ⟨some ['n'], "/a".toList, some ['2']⟩] ∧
      ¬ Distinct [⟨some ['m'], "/a".toList, some ['1']⟩,
        ⟨some ['n'], "/a".toList, some ['2']⟩] := by
  refine ⟨⟨?_, ?_, ?_⟩, ?_, ?_⟩ <;> decide

end Registry
end Client
end ModpackInstaller
