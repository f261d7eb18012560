import ModpackInstaller.Client.Registry
import ModpackInstaller.Library.Traced

/-!
# A run of the installer

The thread that {lit}`InstallPanel.begin` starts, with what every routine in it
comes to: the successes that its steps report, the exceptions they end with, and
the calls of {lit}`completedListener`.  The window leaves its install state
through such a call only.

Main results:

- Theorem {lit}`detectPack_toOption`: the detection is that of the registry.
- Theorem {lit}`completes_iff`: when a run notifies the listener once, with 1
  only behind steps that all reported success.
-/

namespace ModpackInstaller
namespace Client
namespace InstallerRun

open Library Library.Traced
open Registry (Registered FirstLine Markers isInstalled)

/-! ## Steps and exceptions -/

/-- An exception in the run. -/
inductive Failure where
  /-- `NetworkException` -/
  | network
  /-- `IOException` -/
  | io
  | unchecked
deriving DecidableEq, Repr

/-- What a routine comes to. -/
abbrev Call (α : Type) := Except Failure α

/-- The steps that report whether they succeeded. -/
inductive Step where
  | downloadFile
  | downloadPack
  | downloadAddons
  | doPostDownload
  | updatePack
deriving DecidableEq, Repr

/-- What a run does towards its outcome. -/
inductive Event where
  | reported (step : Step) (success : Bool)
  /-- A call of `completedListener`. -/
  | completed (id : Nat)
deriving DecidableEq, Repr

/-- A part of the run. -/
abbrev Part (α : Type) := Traced Event Failure α

/-- A step that reports whether it succeeded. -/
def report (step : Step) (result : Call Bool) : Part Bool :=
  (call result).andThen fun success => ⟨[.reported step success], .ok success⟩

/-! ## Detecting a pack -/

/-- What `registerRhaokarLightPack` meets in a directory. -/
structure OldPack where
  /-- The file {lit}`modpack` can be written. -/
  writable : Bool
  /-- {lit}`resourcepacks/01.zip` is a file. -/
  zip : Bool
  /-- {lit}`resourcepacks/Soatex_Custom.zip` is a file. -/
  soatexCustom : Bool
  /-- The graphics pack is kept. -/
  keep : Bool
  downloadFile : Call Bool
  /-- `deleteDirectory` of {lit}`shaderpacks`, behind the handler of an `IOException` -/
  deleteDirectory : Call Unit
  downloadAddons : Call Bool
deriving DecidableEq

/-- `registerRhaokarLightPack`, which does not look at what its steps report. -/
def registerRhaokarLightPack (o : OldPack) : Part Bool :=
  if !o.writable then call (.ok false)
  else if o.zip then (report .downloadFile o.downloadFile).andThen fun _ => call (.ok true)
  else if o.soatexCustom then
    if o.keep then (report .downloadFile o.downloadFile).andThen fun _ => call (.ok true)
    else
      (call o.deleteDirectory).andThen fun _ =>
        (report .downloadAddons o.downloadAddons).andThen fun _ => call (.ok true)
  else call (.ok true)

/-- A directory in which `detectPack` looks for a pack. -/
structure Place where
  ver : FirstLine
  modpack : FirstLine
  old : OldPack
deriving DecidableEq

/-- `detectPack` -/
def detectPack (d : Place) (path : Text) : Part (Option Registered) :=
  match d.ver with
  | .notFound => call (.ok none)
  | .unreadable => call (.ok none)
  | .line version =>
    match d.modpack with
    | .line modpack => call (.ok (some ⟨modpack, path, version⟩))
    | .unreadable => call (.ok none)
    | .notFound =>
      (registerRhaokarLightPack d.old).andThen fun registered =>
        call (.ok (if registered then some ⟨some "rhaokar_light".toList, path, version⟩ else none))

/-- The directory as the registry looks at it. -/
def Place.markers (d : Place) : Markers :=
  ⟨d.ver, d.modpack, (registerRhaokarLightPack d.old).result.toOption⟩

/-- The detection is that of the registry. -/
theorem detectPack_toOption (d : Place) (path : Text) :
    (detectPack d path).result.toOption = Registry.detectPack d.markers path := by
  unfold detectPack Registry.detectPack Place.markers
  dsimp only
  cases d.ver with
  | notFound => rfl
  | unreadable => rfl
  | line version =>
      cases d.modpack with
      | unreadable => rfl
      | line modpack => rfl
      | notFound =>
          dsimp only
          cases hreg : (registerRhaokarLightPack d.old).result with
          | error e => rw [andThen_of_error hreg]; rfl
          | ok registered => rw [andThen_of_ok hreg]; cases registered <;> rfl

/-! ## The run -/

/-- What a run meets. -/
structure Worker where
  first : Bool
  addonsOpenedOnce : Bool
  packList : List Registered
  /-- The selected item of `modpackChooser`. -/
  selected : Option Text
  workingDir : Text
  force : Bool
  cleanUp : Call Unit
  /-- The directory, behind the clean-up of a forced reinstall. -/
  found : Place
  /-- `checkDir(new File(workingDir), 2)` -/
  checkDir : Bool
  downloadArchive : Call Bool
  /-- The directory behind the download. -/
  unpacked : Place
  addLauncherProfiles : Call Unit
  downloadAddons : Call Bool
  doPostDownload : Call Bool
  /-- The panel is in the tabs of the window. -/
  inTabPane : Bool
  getLatestVersion : Call (Option Text)
  updatePack : Call Bool
  /-- The file {lit}`modpacks.json`. -/
  writeModpacks : Call Unit
deriving DecidableEq

/-- A call of `completedListener`. -/
def complete (id : Nat) : Part Unit := emit (.completed id)

/-- `downloadPack` -/
def downloadPack (w : Worker) : Part Bool :=
  match w.selected with
  | none => call (.error .unchecked)
  | some _ =>
    (call w.downloadArchive).andThen fun downloaded =>
      if downloaded then
        (detectPack w.unpacked w.workingDir).andThen fun p =>
          match p with
          | some _ =>
            (call w.addLauncherProfiles).andThen fun _ => report .downloadPack (.ok true)
          | none => report .downloadPack (.ok false)
      else report .downloadPack (.ok false)

/-- The operator `&&` -/
def andAlso (x y : Part Bool) : Part Bool :=
  x.andThen fun b => if b then y else call (.ok false)

/-- The branch without a pack in the directory: what it downloads. -/
def install (w : Worker) : Part Bool :=
  andAlso (downloadPack w)
    (andAlso (report .downloadAddons w.downloadAddons) (report .doPostDownload w.doPostDownload))

/-- How an installation is announced. -/
def announce (ok : Bool) : Part Unit :=
  if ok then complete 1 else complete 0

/-- The branch with the selected pack in the directory, not yet in the list. -/
def register (w : Worker) (detected : Registered) : Part Unit :=
  catching (fun e => e = .io) <|
    (call (if w.inTabPane then .ok () else .error .unchecked)).andThen fun _ =>
      (call w.getLatestVersion).andThen fun latestVersion =>
        match latestVersion with
        | none => call (.error .unchecked)
        | some latestVersion =>
          (if some latestVersion ≠ detected.version then report .updatePack w.updatePack
            else call (.ok true)).andThen fun _ =>
              (call w.writeModpacks).andThen fun _ => complete 1

/-- The branch with the selected pack in the directory and in the list. -/
def reopen (w : Worker) : Part Unit :=
  (report .downloadAddons w.downloadAddons).andThen fun installed =>
    if installed then complete 1 else call (.ok ())

/-- The branch without a pack in the directory. -/
def beginNew (w : Worker) : Part Unit :=
  if w.checkDir then complete 2
  else if w.selected = none then call (.error .unchecked)
  else if w.first && !w.addonsOpenedOnce then call (.ok ())
  else (install w).andThen announce

/-- The branches with a pack in the directory. -/
def beginDetected (w : Worker) (detected : Registered) : Part Unit :=
  match detected.name with
  | none => call (.error .unchecked)
  | some name =>
    if some name = w.selected then
      match isInstalled name w.packList with
      | none => call (.error .unchecked)
      | some false => register w detected
      | some true => reopen w
    else complete 2

/-- The thread of `begin`.  The handler of a `NetworkException` notifies nobody, and so
does an unchecked exception. -/
def begin (w : Worker) : Part Unit :=
  (call (if w.force then w.cleanUp else .ok ())).andThen fun _ =>
    (detectPack w.found w.workingDir).andThen fun detected =>
      match detected with
      | none => beginNew w
      | some detected => beginDetected w detected

/-! ## What a run is for -/

/-- The id that the listener is called with. -/
def Event.completedId : Event → Option Nat
  | .completed id => some id
  | .reported _ _ => none

/-- A step that reports, reports success. -/
def Event.Fine : Event → Prop
  | .reported _ success => success = true
  | .completed _ => True

/-- The listener is called once, and with 1 only when everything so far and every step of
this part reported success. -/
def Completes (soFar : Prop) (x : Part Unit) : Prop :=
  AnnouncesOnce Event.completedId (fun id => id = 1) Event.Fine soFar x

/-- The run opens the addons instead of installing. -/
def HandsOver (w : Worker) : Prop :=
  (detectPack w.found w.workingDir).result = .ok none ∧ w.checkDir = false ∧ w.selected ≠ none ∧
    w.first = true ∧ w.addonsOpenedOnce = false

/-! ## When it is met -/

/-- What the registration of an old pack fetches arrives. -/
def OldPack.Fetches (o : OldPack) : Prop :=
  o.writable = true →
    if o.zip = true ∨ (o.soatexCustom = true ∧ o.keep = true) then o.downloadFile = .ok true
    else o.soatexCustom = true → o.downloadAddons = .ok true

/-- What the detection of an old pack fetches arrives. -/
def Place.Fetches (d : Place) : Prop :=
  ∀ version, d.ver = .line version → d.modpack = .notFound → d.old.Fetches

/-- No routine throws up to the step of an installation that fails first, and what the
detection behind the download fetches arrives when there is none. -/
def Installs (w : Worker) : Prop :=
  ∃ downloaded, w.downloadArchive = .ok downloaded ∧ (downloaded = true →
    ∃ p, (detectPack w.unpacked w.workingDir).result = .ok p ∧ (p ≠ none →
      w.addLauncherProfiles = .ok () ∧ ∃ installed, w.downloadAddons = .ok installed ∧
        (installed = true → ∃ done, w.doPostDownload = .ok done ∧
          (done = true → w.unpacked.Fetches))))

/-- The server states a version, an update to another one succeeds, and the list of packs
is written. -/
def Registers (w : Worker) (detected : Registered) : Prop :=
  w.inTabPane = true ∧ (∃ latestVersion, w.getLatestVersion = .ok (some latestVersion) ∧
    (some latestVersion ≠ detected.version → w.updatePack = .ok true)) ∧
      w.writeModpacks = .ok () ∧ w.found.Fetches

/-- The addons arrive. -/
def Reopens (w : Worker) : Prop :=
  w.downloadAddons = .ok true ∧ w.found.Fetches

/-- The clean-up and the detection do not throw, what is detected has a name, and the
branch that is taken meets its condition. -/
def Sound (w : Worker) : Prop :=
  (w.force = true → w.cleanUp = .ok ()) ∧
    ((detectPack w.found w.workingDir).result = .ok none ∧
        (w.checkDir = true ∨ w.selected ≠ none ∧ Installs w) ∨
      ∃ detected name, (detectPack w.found w.workingDir).result = .ok (some detected) ∧
        detected.name = some name ∧ (some name = w.selected →
          isInstalled name w.packList = some false ∧ Registers w detected ∨
            isInstalled name w.packList = some true ∧ Reopens w))

/-! ## The parts -/

section Parts

variable {soFar : Prop}

/-- Calling the listener completes the run, with 1 only if everything so far is fine. -/
theorem completes_complete (id : Nat) : Completes soFar (complete id) ↔ (id = 1 → soFar) := by
  have hmark : Event.completedId (.completed id) = some id := rfl
  rw [Completes, complete, announcesOnce_emit hmark]
  simp [Event.Fine]

/-- A step alone does not call it. -/
theorem not_completes_call (result : Call Unit) : ¬ Completes soFar (call result) :=
  not_announcesOnce rfl

/-- Behind a step the run completes if the step succeeds and the rest completes. -/
theorem completes_call_andThen {α : Type} (result : Call α) (f : α → Part Unit) :
    Completes soFar ((call result).andThen f) ↔ ∃ a, result = .ok a ∧ Completes soFar (f a) :=
  announcesOnce_call_andThen result f

/-- The same of a step without a value. -/
theorem completes_callUnit_andThen (result : Call Unit) (f : Unit → Part Unit) :
    Completes soFar ((call result).andThen f) ↔ result = .ok () ∧ Completes soFar (f ()) := by
  rw [completes_call_andThen]
  constructor
  · rintro ⟨u, hres, hrest⟩
    exact ⟨hres, hrest⟩
  · rintro ⟨hres, hrest⟩
    exact ⟨(), hres, hrest⟩

/-- An exception that is caught adds no call of the listener and takes none away. -/
theorem completes_catching (caught : Failure → Bool) (x : Part Unit) :
    Completes soFar (catching caught x) ↔ Completes soFar x :=
  announcesOnce_catching caught x

/-- A step must not throw, and what it reports counts for the rest. -/
theorem completes_report_andThen (step : Step) (result : Call Bool) (f : Bool → Part Unit) :
    Completes soFar ((report step result).andThen f) ↔
      ∃ success, result = .ok success ∧ Completes (soFar ∧ success = true) (f success) := by
  unfold report
  rw [andThen_assoc, completes_call_andThen]
  refine exists_congr fun success => and_congr_right fun _ => ?_
  rw [Completes, announcesOnce_andThen rfl]
  simp [Event.Fine, Completes]

/-- A step whose report is not looked at is followed by true. -/
theorem ignored_result {step : Step} {result : Call Bool} {b : Bool}
    (h : ((report step result).andThen fun _ => call (.ok true)).result = .ok b) : b = true := by
  cases result with
  | error e => cases h
  | ok success => exact (Except.ok.inj h).symm

/-- A report is no call of the listener. -/
theorem silent_report (step : Step) (result : Call Bool) :
    (report step result).events.filterMap Event.completedId = [] :=
  silent_andThen rfl fun _ => rfl

/-- The registration of an old pack does not call the listener. -/
theorem silent_registerRhaokarLightPack (o : OldPack) :
    (registerRhaokarLightPack o).events.filterMap Event.completedId = [] := by
  unfold registerRhaokarLightPack
  split_ifs
  · rfl
  · exact silent_andThen (silent_report _ _) fun _ => rfl
  · exact silent_andThen (silent_report _ _) fun _ => rfl
  · exact silent_andThen rfl fun _ => silent_andThen (silent_report _ _) fun _ => rfl
  · rfl

/-- A step whose report is not looked at is fine when it reports success. -/
theorem ignored_fine {step : Step} {result : Call Bool} {b : Bool}
    (h : ((report step result).andThen fun _ => call (.ok true)).result = .ok b) :
    (∀ e ∈ ((report step result).andThen fun _ => call (.ok true)).events, e.Fine) ↔
      result = .ok true := by
  cases result with
  | error e => cases h
  | ok success => simp [report, call, andThen, Event.Fine]

/-- The steps of a registration that returns are fine when what it fetches arrives. -/
theorem registerRhaokarLightPack_fine {o : OldPack} {registered : Bool}
    (h : (registerRhaokarLightPack o).result = .ok registered) :
    (∀ e ∈ (registerRhaokarLightPack o).events, e.Fine) ↔ o.Fetches := by
  unfold OldPack.Fetches
  unfold registerRhaokarLightPack at h ⊢
  by_cases hwritable : o.writable = true
  · rw [if_neg (by simp [hwritable])] at h ⊢
    rw [imp_iff_right hwritable]
    by_cases hzip : o.zip = true
    · rw [if_pos hzip] at h ⊢
      rw [ignored_fine h, if_pos (Or.inl hzip)]
    · rw [if_neg hzip] at h ⊢
      by_cases hsoatex : o.soatexCustom = true
      · rw [if_pos hsoatex] at h ⊢
        by_cases hkeep : o.keep = true
        · rw [if_pos hkeep] at h ⊢
          rw [ignored_fine h, if_pos (Or.inr ⟨hsoatex, hkeep⟩)]
        · rw [if_neg hkeep] at h ⊢
          rw [if_neg (by simp [hzip, hkeep]), imp_iff_right hsoatex]
          cases hdir : o.deleteDirectory with
          | error e =>
              rw [hdir] at h
              cases h
          | ok u =>
              rw [hdir, call_ok_andThen] at h
              rw [call_ok_andThen, ignored_fine h]
      · rw [if_neg hsoatex, if_neg (by simp [hzip, hsoatex])]
        simp [hsoatex]
  · rw [if_pos (by simpa using hwritable)]
    simp [hwritable]

/-- The detection does not call the listener. -/
theorem silent_detectPack (d : Place) (path : Text) :
    (detectPack d path).events.filterMap Event.completedId = [] := by
  unfold detectPack
  split
  · rfl
  · rfl
  · split
    · rfl
    · rfl
    · exact silent_andThen (silent_registerRhaokarLightPack d.old) fun _ => rfl

/-- The steps of a detection that returns are fine when what it fetches arrives. -/
theorem detectPack_fine {d : Place} {path : Text} {p : Option Registered}
    (h : (detectPack d path).result = .ok p) :
    (∀ e ∈ (detectPack d path).events, e.Fine) ↔ d.Fetches := by
  unfold Place.Fetches
  unfold detectPack at h ⊢
  cases hver : d.ver with
  | notFound => simp
  | unreadable => simp
  | line version =>
      cases hmodpack : d.modpack with
      | unreadable => simp
      | line modpack => simp
      | notFound =>
          simp only [hver, hmodpack] at h
          cases hreg : (registerRhaokarLightPack d.old).result with
          | error e =>
              rw [andThen_of_error hreg] at h
              cases h
          | ok registered =>
              dsimp only
              rw [andThen_of_ok hreg, events_call, List.append_nil,
                registerRhaokarLightPack_fine hreg]
              simp

/-- A detection must not throw, and what it fetches counts for the rest. -/
theorem completes_detectPack_andThen (d : Place) (path : Text)
    (f : Option Registered → Part Unit) :
    Completes soFar ((detectPack d path).andThen f) ↔
      ∃ p, (detectPack d path).result = .ok p ∧ Completes (soFar ∧ d.Fetches) (f p) := by
  rw [Completes, announcesOnce_andThen (silent_detectPack d path)]
  refine exists_congr fun p => and_congr_right fun hp => ?_
  rw [detectPack_fine hp, Completes]

/-! ## The branches -/

/-- Opening the addons again completes exactly with a download that succeeds. -/
theorem completes_reopen (w : Worker) :
    Completes soFar (reopen w) ↔ w.downloadAddons = .ok true ∧ soFar := by
  rw [reopen, completes_report_andThen]
  constructor
  · rintro ⟨success, hres, hdone⟩
    cases success with
    | false => exact absurd hdone (not_completes_call _)
    | true => exact ⟨hres, ((completes_complete 1).mp hdone rfl).1⟩
  · rintro ⟨hres, hsoFar⟩
    exact ⟨true, hres, (completes_complete 1).mpr fun _ => ⟨hsoFar, rfl⟩⟩

/-- The end of a registration: the list is written and success announced. -/
theorem completes_written (w : Worker) :
    Completes soFar ((call w.writeModpacks).andThen fun _ => complete 1) ↔
      w.writeModpacks = .ok () ∧ soFar := by
  rw [completes_callUnit_andThen, completes_complete]
  simp

/-- What is asked for must be there. -/
theorem completes_if_andThen (c : Bool) (e : Failure) (f : Unit → Part Unit) :
    Completes soFar ((call (if c then .ok () else .error e)).andThen f) ↔
      c = true ∧ Completes soFar (f ()) := by
  cases c with
  | false => exact iff_of_false (not_announcesOnce rfl) (by simp)
  | true => simp

/-- Registering a pack that is there completes once each of its steps does. -/
theorem completes_register (w : Worker) (detected : Registered) :
    Completes soFar (register w detected) ↔
      w.inTabPane = true ∧ (∃ latestVersion, w.getLatestVersion = .ok (some latestVersion) ∧
        (some latestVersion ≠ detected.version → w.updatePack = .ok true)) ∧
          w.writeModpacks = .ok () ∧ soFar := by
  rw [register, completes_catching, completes_if_andThen, completes_call_andThen]
  refine and_congr_right fun _ => ?_
  constructor
  · rintro ⟨latestVersion, hlatest, hrest⟩
    cases latestVersion with
    | none => exact absurd hrest (not_completes_call _)
    | some latestVersion =>
        dsimp only at hrest
        split_ifs at hrest with hother
        · rw [completes_report_andThen] at hrest
          obtain ⟨success, hupdate, hrest⟩ := hrest
          obtain ⟨hwrite, hsoFar, rfl⟩ := (completes_written w).mp hrest
          exact ⟨⟨latestVersion, hlatest, fun _ => hupdate⟩, hwrite, hsoFar⟩
        · rw [call_ok_andThen, completes_written] at hrest
          exact ⟨⟨latestVersion, hlatest, fun h => absurd h hother⟩, hrest⟩
  · rintro ⟨⟨latestVersion, hlatest, hupdate⟩, hwrite, hsoFar⟩
    refine ⟨some latestVersion, hlatest, ?_⟩
    dsimp only
    split_ifs with hother
    · rw [completes_report_andThen]
      exact ⟨true, hupdate hother, (completes_written w).mpr ⟨hwrite, hsoFar, rfl⟩⟩
    · rw [call_ok_andThen, completes_written]
      exact ⟨hwrite, hsoFar⟩

/-- The last call says 1 for success only. -/
theorem completes_announce (ok : Bool) : Completes soFar (announce ok) ↔ (ok = true → soFar) := by
  cases ok with
  | false => simp [announce, completes_complete]
  | true => simp [announce, completes_complete]

/-- A last step decides what is announced. -/
theorem completes_report_announce (step : Step) (result : Call Bool) :
    Completes soFar ((report step result).andThen announce) ↔
      ∃ success, result = .ok success ∧ (success = true → soFar) := by
  rw [completes_report_andThen]
  refine exists_congr fun success => and_congr_right fun _ => ?_
  rw [completes_announce]
  exact ⟨fun h hs => (h hs).1, fun h hs => ⟨h hs, hs⟩⟩

/-- What `&&` makes of a first operand. -/
theorem completes_rest_announce (b : Bool) (y : Part Bool) :
    Completes soFar ((if b then y else call (.ok false)).andThen announce) ↔
      (b = true → Completes soFar (y.andThen announce)) := by
  cases b with
  | false =>
      refine iff_of_true ?_ (by simp)
      exact (completes_announce false).mpr (by simp)
  | true => simp

/-- A step in front of `&&` must not throw, and what follows counts when it succeeds. -/
theorem completes_andAlso_announce (step : Step) (result : Call Bool) (y : Part Bool) :
    Completes soFar ((andAlso (report step result) y).andThen announce) ↔
      ∃ success, result = .ok success ∧
        (success = true → Completes soFar (y.andThen announce)) := by
  rw [andAlso, andThen_assoc, completes_report_andThen]
  refine exists_congr fun success => and_congr_right fun _ => ?_
  rw [completes_rest_announce]
  refine forall_congr' fun hs => ?_
  simp only [hs, and_true]

/-- A download that has been reported, in front of `&&`. -/
theorem completes_reported_announce (step : Step) (b : Bool) (y : Part Bool) :
    Completes soFar ((report step (.ok b)).andThen fun b =>
        (if b then y else call (.ok false)).andThen announce) ↔
      (b = true → Completes soFar (y.andThen announce)) := by
  have h := @completes_andAlso_announce soFar step (.ok b) y
  rw [andAlso, andThen_assoc] at h
  rw [h]
  simp

/-- A download in front of `&&`. -/
theorem completes_downloadPack_announce (w : Worker) (y : Part Bool) :
    Completes soFar ((andAlso (downloadPack w) y).andThen announce) ↔
      w.selected ≠ none ∧ ∃ downloaded, w.downloadArchive = .ok downloaded ∧
        (downloaded = true →
          ∃ p, (detectPack w.unpacked w.workingDir).result = .ok p ∧ (p ≠ none →
            w.addLauncherProfiles = .ok () ∧
              Completes (soFar ∧ w.unpacked.Fetches) (y.andThen announce))) := by
  rw [andAlso, andThen_assoc, downloadPack]
  cases hselected : w.selected with
  | none => exact iff_of_false (not_announcesOnce rfl) (by simp)
  | some name =>
      simp only [ne_eq, reduceCtorEq, not_false_eq_true, true_and, andThen_assoc,
        completes_call_andThen]
      refine exists_congr fun downloaded => and_congr_right fun _ => ?_
      cases downloaded with
      | false =>
          simp [completes_reported_announce]
      | true =>
          simp only [if_true, andThen_assoc, completes_detectPack_andThen, true_implies]
          refine exists_congr fun p => and_congr_right fun _ => ?_
          cases p with
          | none => simp [completes_reported_announce]
          | some p =>
              simp only [andThen_assoc, completes_callUnit_andThen, completes_reported_announce]
              simp

/-- Installing completes once each step, up to the one that fails, has reported. -/
theorem completes_install (w : Worker) :
    Completes soFar ((install w).andThen announce) ↔
      w.selected ≠ none ∧ ∃ downloaded, w.downloadArchive = .ok downloaded ∧
        (downloaded = true →
          ∃ p, (detectPack w.unpacked w.workingDir).result = .ok p ∧ (p ≠ none →
            w.addLauncherProfiles = .ok () ∧ ∃ installed, w.downloadAddons = .ok installed ∧
              (installed = true → ∃ done, w.doPostDownload = .ok done ∧
                (done = true → soFar ∧ w.unpacked.Fetches)))) := by
  simp only [install, completes_downloadPack_announce, completes_andAlso_announce,
    completes_report_announce]

end Parts

/-- An old pack whose file {lit}`modpack` can be written is registered. -/
theorem not_writable_of_false {o : OldPack}
    (h : (registerRhaokarLightPack o).result = .ok false) : o.writable = false := by
  by_contra hwritable
  rw [Bool.not_eq_false] at hwritable
  unfold registerRhaokarLightPack at h
  rw [if_neg (by simp [hwritable])] at h
  split_ifs at h
  · exact Bool.false_ne_true (ignored_result h)
  · exact Bool.false_ne_true (ignored_result h)
  · cases hdir : o.deleteDirectory with
    | error e =>
        rw [hdir] at h
        cases h
    | ok u =>
        rw [hdir, call_ok_andThen] at h
        exact Bool.false_ne_true (ignored_result h)
  · cases h

/-- A directory in which no pack is detected fetches nothing. -/
theorem fetches_of_none {d : Place} {path : Text} (h : (detectPack d path).result = .ok none) :
    d.Fetches := by
  intro version hver hmodpack hwritable
  unfold detectPack at h
  simp only [hver, hmodpack] at h
  cases hreg : (registerRhaokarLightPack d.old).result with
  | error e =>
      rw [andThen_of_error hreg] at h
      cases h
  | ok registered =>
      rw [andThen_of_ok hreg] at h
      cases registered with
      | true => cases h
      | false =>
          rw [not_writable_of_false hreg] at hwritable
          cases hwritable

/-- The branch without a pack in the directory, when it does not hand over. -/
theorem completes_beginNew {soFar : Prop} {w : Worker}
    (h : w.checkDir = false → w.selected ≠ none → (w.first && !w.addonsOpenedOnce) = false)
    (hsoFar : soFar) :
    Completes soFar (beginNew w) ↔ w.checkDir = true ∨ w.selected ≠ none ∧ Installs w := by
  unfold beginNew
  cases hdir : w.checkDir with
  | true =>
      rw [if_pos rfl, completes_complete]
      simp
  | false =>
      rw [if_neg (by simp)]
      by_cases hselected : w.selected = none
      · rw [if_pos hselected]
        exact iff_of_false (not_completes_call _) (by simp [hselected])
      · rw [if_neg hselected, h hdir hselected, if_neg (by simp), completes_install, Installs]
        simp only [hsoFar, true_and, Bool.false_eq_true, false_or]

/-- The branches with a pack in the directory. -/
theorem completes_beginDetected (w : Worker) (detected : Registered) :
    Completes w.found.Fetches (beginDetected w detected) ↔
      ∃ name, detected.name = some name ∧ (some name = w.selected →
        isInstalled name w.packList = some false ∧ Registers w detected ∨
          isInstalled name w.packList = some true ∧ Reopens w) := by
  have hregister : Completes w.found.Fetches (register w detected) ↔ Registers w detected :=
    completes_register w detected
  have hreopen : Completes w.found.Fetches (reopen w) ↔ Reopens w := completes_reopen w
  unfold beginDetected
  cases hname : detected.name with
  | none => exact iff_of_false (not_completes_call _) (by simp)
  | some name =>
      simp only [Option.some.injEq, exists_eq_left']
      split_ifs with hselected
      · rw [imp_iff_right hselected]
        cases hinstalled : isInstalled name w.packList with
        | none => exact iff_of_false (not_completes_call _) (by simp)
        | some installed => cases installed <;> simp [hregister, hreopen]
      · rw [completes_complete]
        simp [hselected]

/-- A run that does not hand over to the addons completes exactly when it is sound. -/
theorem completes_iff (w : Worker) (h : ¬ HandsOver w) :
    Completes True (begin w) ↔ Sound w := by
  have hclean : (if w.force then w.cleanUp else .ok ()) = .ok () ↔
      (w.force = true → w.cleanUp = .ok ()) := by
    cases w.force <;> simp
  have hnew (hp : (detectPack w.found w.workingDir).result = .ok none) :
      Completes w.found.Fetches (beginNew w) ↔
        w.checkDir = true ∨ w.selected ≠ none ∧ Installs w := by
    refine completes_beginNew (fun hdir hselected => ?_) (fetches_of_none hp)
    rw [Bool.eq_false_iff]
    intro hask
    rw [Bool.and_eq_true, Bool.not_eq_true'] at hask
    exact h ⟨hp, hdir, hselected, hask⟩
  rw [begin, completes_callUnit_andThen, completes_detectPack_andThen, Sound, hclean]
  refine and_congr_right fun _ => ?_
  simp only [true_and]
  constructor
  · rintro ⟨p, hp, hrest⟩
    cases p with
    | none => exact Or.inl ⟨hp, (hnew hp).mp hrest⟩
    | some detected =>
        obtain ⟨name, hname, hbranch⟩ := (completes_beginDetected w detected).mp hrest
        exact Or.inr ⟨detected, name, hp, hname, hbranch⟩
  · rintro (⟨hp, hrest⟩ | ⟨detected, name, hp, hname, hbranch⟩)
    · exact ⟨none, hp, (hnew hp).mpr hrest⟩
    · exact ⟨some detected, hp, (completes_beginDetected w detected).mpr ⟨name, hname, hbranch⟩⟩

/-- A first installation into an empty directory, in which every step succeeds. -/
def smoothRun : Worker where
  first := false
  addonsOpenedOnce := false
  packList := []
  selected := some ['m']
  workingDir := "/d".toList
  force := false
  cleanUp := .ok ()
  found := ⟨.notFound, .notFound, ⟨true, false, false, false, .ok true, .ok (), .ok true⟩⟩
  checkDir := false
  downloadArchive := .ok true
  unpacked := ⟨.line (some ['1']), .line (some ['m']),
    ⟨true, false, false, false, .ok true, .ok (), .ok true⟩⟩
  addLauncherProfiles := .ok ()
  downloadAddons := .ok true
  doPostDownload := .ok true
  inTabPane := true
  getLatestVersion := .ok (some ['2'])
  updatePack := .ok true
  writeModpacks := .ok ()

/-- A run in which everything goes well. -/
theorem completes_smoothRun : ¬ HandsOver smoothRun ∧ Completes True (begin smoothRun) := by
  have hasks : ¬ HandsOver smoothRun := fun h => Bool.false_ne_true h.2.2.2.1
  have hfetches : smoothRun.unpacked.Fetches := by
    intro version _ hmodpack
    cases hmodpack
  have hinstalls : Installs smoothRun :=
    ⟨true, rfl, fun _ => ⟨some ⟨some ['m'], "/d".toList, some ['1']⟩, rfl, fun _ =>
      ⟨rfl, true, rfl, fun _ => ⟨true, rfl, fun _ => hfetches⟩⟩⟩⟩
  have hsound : Sound smoothRun :=
    ⟨fun h => absurd h (by decide), Or.inl ⟨rfl, Or.inr ⟨by decide, hinstalls⟩⟩⟩
  exact ⟨hasks, (completes_iff smoothRun hasks).mpr hsound⟩

/-- The selected pack is in the directory and in the list, and an addon does not arrive. -/
def missingAddon : Worker :=
  { smoothRun with
    found := smoothRun.unpacked
    packList := [⟨some ['m'], "/d".toList, some ['1']⟩]
    downloadAddons := .ok false }

/-- The selected pack is in the directory only, and its update fails. -/
def failedUpdate : Worker :=
  { smoothRun with
    found := smoothRun.unpacked
    updatePack := .ok false }

/-- Without the addon, and without a network, the listener is not called.  Behind the
update that fails it is called with 1. -/
theorem completes_fails :
    (begin missingAddon).events = [.reported .downloadAddons false] ∧
      ¬ Completes True (begin missingAddon) ∧
      (begin { smoothRun with downloadArchive := .error .network }).events = [] ∧
      (begin failedUpdate).events = [.reported .updatePack false, .completed 1] ∧
      ¬ Completes True (begin failedUpdate) := by
  have hmissing : (begin missingAddon).events = [.reported .downloadAddons false] := by decide
  have hfailed : (begin failedUpdate).events = [.reported .updatePack false, .completed 1] := by
    decide
  refine ⟨hmissing, ?_, by decide, hfailed, ?_⟩
  · apply not_announcesOnce
    rw [hmissing]
    rfl
  · rintro ⟨id, hid, hgood⟩
    rw [hfailed] at hid hgood
    have hfine := (hgood (List.singleton_inj.mp hid).symm).2 _ List.mem_cons_self
    exact Bool.false_ne_true hfine

end InstallerRun
end Client
end ModpackInstaller
