import Mathlib.Data.List.DropRight
import ModpackInstaller.Client.Response
import ModpackInstaller.Client.Settings
import ModpackInstaller.Library.Lines

/-!
# The forms for the settings

The panel {lit}`ConfigPanel` and the dialog {lit}`InitialConfig` over the object
{lit}`Configuration`.  Both check the install directory and the two proxy addresses
before they call the setters, which may throw from the preferences below them; the
panel also reads the settings back.

Main results:

- Theorem {lit}`save_eq_some_true_iff`: when the settings of a form are accepted.
- Theorem {lit}`config_of_setters`: what the object has then.
- Theorem {lit}`saved_iff`: when an accepted form has been saved, and a panel shows
  nothing else behind {lit}`revert`.
-/

namespace ModpackInstaller
namespace Client
namespace ConfigForm

open Library Settings

/-! ## Proxy addresses -/

/-- An exception of the constructor of `ProxyAddress`. -/
inductive AddressError where
  /-- A `NumberFormatException` is one as well. -/
  | illegalArgument
  | arrayIndex
deriving DecidableEq, Repr

/-- `String.split(":")` -/
def splitColons (s : Text) : List Text :=
  if ':' ∈ s then (pieces ':' s).rdropWhile List.isEmpty else [s]

/-- The constructor of `InetSocketAddress` for the first part. -/
def socketAddress (parts : List Text) (port : Int) : Except AddressError (Text × Int) :=
  match parts with
  | [] => .error .arrayIndex
  | host :: _ => if 0 ≤ port ∧ port ≤ 65535 then .ok (host, port) else .error .illegalArgument

/-- The constructor of `ProxyAddress`. -/
def proxyAddress (address : Text) (defaultPort : Int) : Except AddressError (Text × Int) :=
  let parts := splitColons address
  match parts with
  | _ :: port :: _ =>
    match parseInt port with
    | none => .error .illegalArgument
    | some port => socketAddress parts port
  | _ => socketAddress parts defaultPort

/-! ## The form -/

/-- `LafList.nameList` -/
def nameList : List Text :=
  ["Autumn".toList, "Business".toList, "Business Black Steel".toList,
    "Business Blue Steel".toList, "Creme".toList, "Creme Coffee".toList, "Dust".toList,
    "Dust Coffee".toList, "Gemini".toList, "Mariner".toList, "Moderate".toList,
    "Nebula".toList, "Nebula Brick Wall".toList, "Office Black 2007".toList,
    "Office Silver 2007".toList, "Sahara".toList, "Office Blue 2007".toList,
    "Magellan".toList, "Challenger Deep".toList, "Emerald Dusk".toList, "Raven".toList,
    "Graphite".toList, "Graphite Glass".toList, "Graphite Aqua".toList, "Twilight".toList,
    "Metal".toList, "Motif".toList, "Nimbus".toList]

/-- The selected item of `laf`. -/
abbrev Laf := {name : Text // name ∈ nameList}

/-- `setSelectedItem`, which ignores a name that is not in the list; `none` when it
throws. -/
def setSelectedItem (laf : Laf) (anItem : Option Text) : Option Laf :=
  anItem.map fun name => if h : name ∈ nameList then ⟨name, h⟩ else laf

/-- The selected index of `ftpProxyMode`, which has three items; -1 stands for none. -/
abbrev Mode := {index : Int // -1 ≤ index ∧ index < 3}

/-- `setSelectedIndex`; `none` when it throws. -/
def setSelectedIndex (index : Int) : Option Mode :=
  if h : -1 ≤ index ∧ index < 3 then some ⟨index, h⟩ else none

/-- The contents of a form. -/
structure Form (File : Type) where
  installDir : Option File
  dirBox : Text
  httpProxy : Text
  ftpProxy : Text
  ftpProxyMode : Mode
  httpProxyCredentials : Option Credentials
  ftpProxyCredentials : Option Credentials
  httpForFtp : Bool
  laf : Laf
deriving DecidableEq

variable {File : Type}

/-! ## Saving a form -/

section Saving

variable (platform : Platform File) (directory : File → Bool)

/-- The setters that a form calls.  Those of the credentials and of the mode of the ftp
proxy are not among them. -/
def setters (f : Form File) : List (Call File) :=
  [.setInstallDir (some (platform.newFile f.dirBox)), .setHttpProxy (some f.httpProxy),
    .setHttpProxyCredentials f.httpProxyCredentials, .setFtpProxy (some f.ftpProxy),
    .setHttpForFtp f.httpForFtp, .setLaf (some f.laf.1)]

/-- A value that is put without an exception. -/
def puts (value : Option Text) : Bool :=
  value.any platform.admits

/-- The setter returns. -/
def returns : Call File → Bool
  | .setInstallDir dir => puts platform (dir.map platform.getAbsolutePath)
  | .setHttpProxy proxy => puts platform proxy
  | .setFtpProxy proxy => puts platform proxy
  | .setHttpProxyCredentials c =>
    c.any fun c => puts platform c.userName && puts platform (some c.password)
  | .setFtpProxyCredentials c =>
    c.any fun c => puts platform c.userName && puts platform (some c.password)
  | .setHttpForFtp _ => true
  | .setFtpProxyMode _ => true
  | .setLaf laf => puts platform laf
  | .setFtpCredentials c =>
    c.any fun c => puts platform c.userName && puts platform (some c.password)

/-- Call one setter after another, up to one that throws. -/
def callAll : List (Call File) → State File → State File × Bool
  | [], s => (s, true)
  | c :: cs, s =>
    if returns platform c then callAll cs (step platform s c) else (step platform s c, false)

/-- The check of a proxy address that is not empty: whether it is taken; `none` when it
throws. -/
def checkProxy (address : Text) (defaultPort : Int) : Option Bool :=
  if address = [] then some true
  else
    match proxyAddress address defaultPort with
    | .ok _ => some true
    | .error .illegalArgument => some false
    | .error .arrayIndex => none

/-- The two proxy addresses, one after the other. -/
def checkProxies (f : Form File) : Option Bool :=
  match checkProxy f.httpProxy 3128 with
  | some true => checkProxy f.ftpProxy 2121
  | other => other

/-- What both forms do with the object, and whether they accept the settings; `none` when
it throws.  `directory` says which directories exist or can be created. -/
def save (f : Form File) (s : State File) : State File × Option Bool :=
  if !directory (platform.newFile f.dirBox) then (s, some false)
  else
    match checkProxies f with
    | some true =>
      match callAll platform (setters platform f) s with
      | (s, true) => (s, some true)
      | (s, false) => (s, none)
    | other => (s, other)

/-- `ConfigPanel.commit` -/
def commit (f : Form File) (s : State File) : Form File × State File × Option Bool :=
  ({ f with installDir := some (platform.newFile f.dirBox) }, save platform directory f s)

/-- `InitialConfig.proceedActionPerformed`; the dialog closes with the result true when the
settings are accepted. -/
def proceedActionPerformed (f : Form File) (s : State File) :
    Form File × State File × Option Bool :=
  ({ f with installDir := some (platform.newFile f.dirBox) }, save platform directory f s)

/-- `ConfigPanel.revert`; `none` when it throws. -/
def revert (f : Form File) (s : State File) : Option (Form File) :=
  match s.config.installDir, setSelectedIndex s.config.ftpProxyMode,
      setSelectedItem f.laf s.config.laf with
  | some dir, some mode, some laf =>
    some
      { installDir := some dir
        dirBox := platform.getAbsolutePath dir
        httpProxy := s.config.httpProxy.getD []
        ftpProxy := s.config.ftpProxy.getD []
        ftpProxyMode := mode
        httpProxyCredentials := s.config.httpProxyCredentials
        ftpProxyCredentials := s.config.ftpProxyCredentials
        httpForFtp := s.config.httpForFtp
        laf := laf }
  | _, _, _ => none

/-! ## What saving is for -/

/-- The object returns every setting that the form shows. -/
structure Shows (f : Form File) (config : Configuration File) : Prop where
  installDir : config.installDir = some (platform.newFile f.dirBox)
  httpProxy : config.httpProxy = some f.httpProxy
  ftpProxy : config.ftpProxy = some f.ftpProxy
  httpProxyCredentials : config.httpProxyCredentials = f.httpProxyCredentials
  ftpProxyCredentials : config.ftpProxyCredentials = f.ftpProxyCredentials
  ftpProxyMode : config.ftpProxyMode = f.ftpProxyMode
  httpForFtp : config.httpForFtp = f.httpForFtp
  laf : config.laf = some f.laf.1

/-- An accepted form has been saved and a rejected one has changed nothing. -/
def Saves (run : Form File → State File → Form File × State File × Option Bool) (f : Form File)
    (s : State File) : Prop :=
  ((run f s).2.2 = some true → Shows platform (run f s).1 (run f s).2.1.config) ∧
    ((run f s).2.2 = some false → (run f s).2.1 = s)

/-- Behind an accepted panel `revert` changes nothing in it. -/
def Settled (f : Form File) (s : State File) : Prop :=
  (commit platform directory f s).2.2 = some true →
    revert platform (commit platform directory f s).1 (commit platform directory f s).2.1 =
      some (commit platform directory f s).1

/-- The directory is there, both proxy addresses are empty or can be read, and the
preferences take every value. -/
structure Accepted (f : Form File) : Prop where
  directory : directory (platform.newFile f.dirBox) = true
  httpProxy : checkProxy f.httpProxy 3128 = some true
  ftpProxy : checkProxy f.ftpProxy 2121 = some true
  setters : ∀ c ∈ setters platform f, returns platform c = true

end Saving

/-! ## Acceptance -/

section Acceptance

variable {platform : Platform File} {directory : File → Bool}

theorem callAll_of_returns {cs : List (Call File)} (h : ∀ c ∈ cs, returns platform c = true)
    (s : State File) : callAll platform cs s = (cs.foldl (step platform) s, true) := by
  induction cs generalizing s with
  | nil => rfl
  | cons c cs ih =>
      rw [callAll, if_pos (h c List.mem_cons_self)]
      exact ih (fun c' hc' => h c' (List.mem_cons_of_mem c hc')) _

theorem returns_of_callAll {cs : List (Call File)} {s : State File}
    (h : (callAll platform cs s).2 = true) : ∀ c ∈ cs, returns platform c = true := by
  induction cs generalizing s with
  | nil => exact fun c hc => absurd hc List.not_mem_nil
  | cons c cs ih =>
      rw [callAll] at h
      split_ifs at h with hc
      exact List.forall_mem_cons.mpr ⟨hc, ih h⟩

theorem checkProxies_iff (f : Form File) :
    checkProxies f = some true ↔
      checkProxy f.httpProxy 3128 = some true ∧ checkProxy f.ftpProxy 2121 = some true := by
  unfold checkProxies
  split
  · rename_i h
    exact (and_iff_right h).symm
  · rename_i h
    exact iff_of_false h fun hboth => h hboth.1

/-- What is left by a form that is accepted. -/
theorem save_of_accepted {f : Form File} (h : Accepted platform directory f) (s : State File) :
    save platform directory f s = ((setters platform f).foldl (step platform) s, some true) := by
  have hproxies : checkProxies f = some true := (checkProxies_iff f).mpr ⟨h.httpProxy, h.ftpProxy⟩
  rw [save, if_neg (by simp [h.directory]), hproxies]
  simp only [callAll_of_returns h.setters]

/-- The settings are accepted when the directory is there, the addresses can be read and
the preferences take every value. -/
theorem save_eq_some_true_iff (f : Form File) (s : State File) :
    (save platform directory f s).2 = some true ↔ Accepted platform directory f := by
  refine ⟨fun h => ?_, fun h => by rw [save_of_accepted h]⟩
  unfold save at h
  split_ifs at h with hdir
  · cases h
  · split at h
    · rename_i hproxies
      obtain ⟨hhttp, hftp⟩ := (checkProxies_iff f).mp hproxies
      split at h
      · rename_i s' hall
        have hthrough : (callAll platform (setters platform f) s).2 = true := by rw [hall]
        exact ⟨by simpa using hdir, hhttp, hftp, returns_of_callAll hthrough⟩
      · cases h
    · rename_i hother
      exact absurd h hother

/-- A form that is rejected changes nothing. -/
theorem save_rejected {f : Form File} {s : State File}
    (h : (save platform directory f s).2 = some false) : (save platform directory f s).1 = s := by
  unfold save at h ⊢
  split_ifs at h ⊢
  · rfl
  · split at h
    · split at h <;> cases h
    · rfl

/-- The object behind an accepted form. -/
theorem config_of_setters (f : Form File) (s : State File) :
    ((setters platform f).foldl (step platform) s).config =
      { s.config with
        installDir := some (platform.newFile f.dirBox)
        httpProxy := some f.httpProxy
        httpProxyCredentials := f.httpProxyCredentials
        ftpProxy := some f.ftpProxy
        httpForFtp := f.httpForFtp
        laf := some f.laf.1 } := by
  simp [setters, step, setInstallDir, setHttpProxy, setHttpProxyCredentials, setFtpProxy,
    setHttpForFtp, setLaf]

end Acceptance

/-! ## Saved settings -/

section Saved

variable {platform : Platform File} {directory : File → Bool} {f : Form File} {s : State File}

@[simp] theorem setSelectedItem_self (laf : Laf) :
    setSelectedItem laf (some laf.1) = some laf := by
  simp [setSelectedItem, laf.2]

theorem setSelectedIndex_eq_iff (index : Int) (mode : Mode) :
    setSelectedIndex index = some mode ↔ index = mode.1 := by
  unfold setSelectedIndex
  split
  · simp [Subtype.ext_iff]
  · rename_i h
    refine iff_of_false (by simp) ?_
    rintro rfl
    exact h mode.2

/-- The object behind an accepted form shows it when it had the credentials and the mode of
the ftp proxy before. -/
theorem shows_iff (f : Form File) (s : State File) (dir : Option File) :
    Shows platform { f with installDir := dir }
        ((setters platform f).foldl (step platform) s).config ↔
      s.config.ftpProxyCredentials = f.ftpProxyCredentials ∧
        s.config.ftpProxyMode = f.ftpProxyMode := by
  rw [config_of_setters]
  constructor
  · intro h
    exact ⟨h.ftpProxyCredentials, h.ftpProxyMode⟩
  · rintro ⟨hcredentials, hmode⟩
    exact ⟨rfl, rfl, rfl, rfl, hcredentials, hmode, rfl, rfl⟩

/-- Behind an accepted form `revert` changes nothing when the object shows it and the
directory is given by its absolute path. -/
theorem revert_iff (f : Form File) (s : State File) :
    revert platform { f with installDir := some (platform.newFile f.dirBox) }
        ((setters platform f).foldl (step platform) s) =
          some { f with installDir := some (platform.newFile f.dirBox) } ↔
      s.config.ftpProxyCredentials = f.ftpProxyCredentials ∧
        s.config.ftpProxyMode = f.ftpProxyMode ∧
          platform.getAbsolutePath (platform.newFile f.dirBox) = f.dirBox := by
  rw [← setSelectedIndex_eq_iff]
  unfold revert
  rw [config_of_setters]
  simp only [setSelectedItem_self]
  cases setSelectedIndex s.config.ftpProxyMode with
  | none => simp
  | some mode =>
      simp only [Option.some.injEq, Form.mk.injEq, Option.getD_some, true_and, and_true]
      constructor
      · rintro ⟨hdir, hmode, hcredentials⟩
        exact ⟨hcredentials, hmode, hdir⟩
      · rintro ⟨hcredentials, hmode, hdir⟩
        exact ⟨hdir, hmode, hcredentials⟩

/-- A form is saved when it is accepted and a rejected one changes nothing. -/
theorem saves_iff (f : Form File) (s : State File) :
    Saves platform (commit platform directory) f s ↔
      (Accepted platform directory f →
        s.config.ftpProxyCredentials = f.ftpProxyCredentials ∧
          s.config.ftpProxyMode = f.ftpProxyMode) := by
  have hrejected : (commit platform directory f s).2.2 = some false →
      (commit platform directory f s).2.1 = s := save_rejected
  rw [Saves, and_iff_left hrejected]
  unfold commit
  dsimp only
  rw [save_eq_some_true_iff]
  refine forall_congr' fun haccepted => ?_
  rw [save_of_accepted haccepted, shows_iff]

theorem settled_iff (f : Form File) (s : State File) :
    Settled platform directory f s ↔
      (Accepted platform directory f →
        s.config.ftpProxyCredentials = f.ftpProxyCredentials ∧
          s.config.ftpProxyMode = f.ftpProxyMode ∧
            platform.getAbsolutePath (platform.newFile f.dirBox) = f.dirBox) := by
  unfold Settled commit
  dsimp only
  rw [save_eq_some_true_iff]
  refine forall_congr' fun haccepted => ?_
  rw [save_of_accepted haccepted, revert_iff]

end Saved

/-- Files that are their paths, and preferences that take every value. -/
def plainPlatform : Platform Text := ⟨id, id, "/d".toList, fun _ => true⟩

/-- A form with new settings for the ftp proxy. -/
def newProxy : Form Text where
  installDir := none
  dirBox := "/d".toList
  httpProxy := []
  ftpProxy := "proxy:2121".toList
  ftpProxyMode := ⟨1, by decide⟩
  httpProxyCredentials := some ⟨some [], []⟩
  ftpProxyCredentials := some ⟨some "user".toList, "pass".toList⟩
  httpForFtp := false
  laf := ⟨"Raven".toList, by decide⟩

end ConfigForm
end Client
end ModpackInstaller
