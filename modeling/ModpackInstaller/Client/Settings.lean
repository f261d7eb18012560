import ModpackInstaller.Library.Run
import ModpackInstaller.Text

/-!
# The settings of the installer

The persisted settings of {lit}`Configuration.java`.  A setter changes the object
first and puts the value into the preferences then; the constructor reads every
setting back.  {lit}`Preferences` is a map from keys to values, as the getters of
the types read them.

Main results:

- Theorem {lit}`same_step_iff`: which calls keep the object and the preferences in
  step.
- Theorem {lit}`same_iff_persists`: after every prefix of a sequence of calls a new
  object has the settings of the old one exactly when every call is of this kind.
- Theorem {lit}`same_fails`: the password for the http proxy is stored under
  another key than it is read from.
-/

namespace ModpackInstaller
namespace Client
namespace Settings

open Library

/-! ## Preferences -/

/-- What is stored under a key. -/
inductive Value where
  | text (t : Text)
  | int (n : Int)
  | boolean (b : Bool)
deriving DecidableEq, Repr

/-- `java.util.prefs.Preferences`: the last value put under each key. -/
abbrev Preferences := String → Option Value

/-- `get` -/
def Preferences.get (prefs : Preferences) (key : String) (default : Text) : Text :=
  match prefs key with
  | some (.text t) => t
  | _ => default

/-- `getInt` -/
def Preferences.getInt (prefs : Preferences) (key : String) (default : Int) : Int :=
  match prefs key with
  | some (.int n) => n
  | _ => default

/-- `getBoolean` -/
def Preferences.getBoolean (prefs : Preferences) (key : String) (default : Bool) : Bool :=
  match prefs key with
  | some (.boolean b) => b
  | _ => default

/-- The Java platform below: files, and the values that `put` takes.  It throws for
the others, such as those that are too long. -/
structure Platform (File : Type) where
  newFile : Text → File
  getAbsolutePath : File → Text
  /-- The result of `getDefaultDir`. -/
  defaultDir : File
  admits : Text → Bool

variable {File : Type} (platform : Platform File)

/-- `put`; `none` when it throws, which it also does for null. -/
def Preferences.put (prefs : Preferences) (key : String) (value : Option Text) :
    Option Preferences :=
  match value with
  | none => none
  | some t => if platform.admits t then some (Function.update prefs key (some (.text t))) else none

/-! ## The object -/

/-- `PasswordAuthentication` -/
structure Credentials where
  userName : Option Text
  password : Text
deriving DecidableEq, Repr

/-- The persisted fields of `Configuration`; `none` is null. -/
structure Configuration (File : Type) where
  installDir : Option File
  httpProxy : Option Text
  ftpProxy : Option Text
  httpProxyCredentials : Option Credentials
  ftpProxyCredentials : Option Credentials
  ftpProxyMode : Int
  httpForFtp : Bool
  laf : Option Text
  ftpCredentials : Option Credentials
deriving DecidableEq

/-- Credentials under two keys. -/
def Preferences.credentials (prefs : Preferences) (user pass : String) : Credentials where
  userName := some (prefs.get user [])
  password := prefs.get pass []

/-- The constructor. -/
def newConfiguration (prefs : Preferences) : Configuration File where
  installDir :=
    some (platform.newFile
      (prefs.get "installDir" (platform.getAbsolutePath platform.defaultDir)))
  httpProxy := some (prefs.get "httpProxy" [])
  ftpProxy := some (prefs.get "ftpProxy" [])
  httpProxyCredentials := some (prefs.credentials "httpProxyUser" "httpProxyPass")
  ftpProxyCredentials := some (prefs.credentials "ftpProxyUser" "ftpProxyPass")
  ftpProxyMode := prefs.getInt "ftpProxyMode" 0
  httpForFtp := prefs.getBoolean "httpForFtp" true
  laf := some (prefs.get "laf" "Raven".toList)
  ftpCredentials := some (prefs.credentials "ftpUser" "ftpPass")

/-- An object with its preferences. -/
structure State (File : Type) where
  config : Configuration File
  prefs : Preferences

/-- What a setter leaves in the preferences when the last `put` may throw. -/
def State.put (s : State File) (key : String) (value : Option Text) : State File :=
  { s with prefs := (s.prefs.put platform key value).getD s.prefs }

/-- Store credentials under two keys.  A `put` that throws ends the setter. -/
def State.putCredentials (s : State File) (user pass : String) (credentials : Option Credentials) :
    State File :=
  match credentials with
  | none => s
  | some c =>
    match s.prefs.put platform user c.userName with
    | none => s
    | some prefs => { s with prefs := prefs }.put platform pass (some c.password)

def setInstallDir (installDir : Option File) (s : State File) : State File :=
  { s with config := { s.config with installDir := installDir } }.put platform "installDir"
    (installDir.map platform.getAbsolutePath)

def setHttpProxy (httpProxy : Option Text) (s : State File) : State File :=
  { s with config := { s.config with httpProxy := httpProxy } }.put platform "httpProxy" httpProxy

def setFtpProxy (ftpProxy : Option Text) (s : State File) : State File :=
  { s with config := { s.config with ftpProxy := ftpProxy } }.put platform "ftpProxy" ftpProxy

/-- The password goes under the key `httProxyPass`. -/
def setHttpProxyCredentials (credentials : Option Credentials) (s : State File) : State File :=
  { s with config := { s.config with httpProxyCredentials := credentials } }.putCredentials platform
    "httpProxyUser" "httProxyPass" credentials

def setFtpProxyCredentials (credentials : Option Credentials) (s : State File) : State File :=
  { s with config := { s.config with ftpProxyCredentials := credentials } }.putCredentials platform
    "ftpProxyUser" "ftpProxyPass" credentials

def setHttpForFtp (httpForFtp : Bool) (s : State File) : State File where
  config := { s.config with httpForFtp := httpForFtp }
  prefs := Function.update s.prefs "httpForFtp" (some (.boolean httpForFtp))

def setFtpProxyMode (ftpProxyMode : Int) (s : State File) : State File where
  config := { s.config with ftpProxyMode := ftpProxyMode }
  prefs := Function.update s.prefs "ftpProxyMode" (some (.int ftpProxyMode))

def setLaf (laf : Option Text) (s : State File) : State File :=
  { s with config := { s.config with laf := laf } }.put platform "laf" laf

def setFtpCredentials (credentials : Option Credentials) (s : State File) : State File :=
  { s with config := { s.config with ftpCredentials := credentials } }.putCredentials platform
    "ftpUser" "ftpPass" credentials

/-- The calls of setters. -/
inductive Call (File : Type) where
  | setInstallDir (installDir : Option File)
  | setHttpProxy (httpProxy : Option Text)
  | setFtpProxy (ftpProxy : Option Text)
  | setHttpProxyCredentials (credentials : Option Credentials)
  | setFtpProxyCredentials (credentials : Option Credentials)
  | setHttpForFtp (httpForFtp : Bool)
  | setFtpProxyMode (ftpProxyMode : Int)
  | setLaf (laf : Option Text)
  | setFtpCredentials (credentials : Option Credentials)
deriving DecidableEq

def step (s : State File) : Call File → State File
  | .setInstallDir dir => setInstallDir platform dir s
  | .setHttpProxy proxy => setHttpProxy platform proxy s
  | .setFtpProxy proxy => setFtpProxy platform proxy s
  | .setHttpProxyCredentials c => setHttpProxyCredentials platform c s
  | .setFtpProxyCredentials c => setFtpProxyCredentials platform c s
  | .setHttpForFtp b => setHttpForFtp b s
  | .setFtpProxyMode n => setFtpProxyMode n s
  | .setLaf laf => setLaf platform laf s
  | .setFtpCredentials c => setFtpCredentials platform c s

/-! ## A new object -/

/-- A new object over the preferences has the settings of the old one. -/
def Same (s : State File) : Prop :=
  newConfiguration platform s.prefs = s.config

/-- `put` takes the value. -/
def Admitted (value : Option Text) : Prop :=
  ∃ t, value = some t ∧ platform.admits t = true

/-- Credentials that are stored as they are, or that are set already.  `stored`
says which passwords are read back once they are put. -/
def PersistsCredentials (stored : Text → Prop) (old credentials : Option Credentials) : Prop :=
  (∃ c ∈ credentials, Admitted platform c.userName ∧
    (stored c.password ∨ old.map Credentials.password = some c.password)) ∨ credentials = old

/-- The call sets a value that is stored as it is, or the one that is set already.
No password for the http proxy is stored where it is read. -/
def Persists (s : State File) : Call File → Prop
  | .setInstallDir dir =>
    ∃ f ∈ dir, if platform.admits (platform.getAbsolutePath f) = true then
      platform.newFile (platform.getAbsolutePath f) = f else s.config.installDir = some f
  | .setHttpProxy proxy => Admitted platform proxy ∨ proxy = s.config.httpProxy
  | .setFtpProxy proxy => Admitted platform proxy ∨ proxy = s.config.ftpProxy
  | .setHttpProxyCredentials c =>
    PersistsCredentials platform (fun _ => False) s.config.httpProxyCredentials c
  | .setFtpProxyCredentials c =>
    PersistsCredentials platform (fun t => platform.admits t = true) s.config.ftpProxyCredentials c
  | .setHttpForFtp _ => True
  | .setFtpProxyMode _ => True
  | .setLaf laf => Admitted platform laf ∨ laf = s.config.laf
  | .setFtpCredentials c =>
    PersistsCredentials platform (fun t => platform.admits t = true) s.config.ftpCredentials c

/-! ## One put -/

variable {platform}

@[simp] theorem State.put_config (s : State File) (key : String) (value : Option Text) :
    (s.put platform key value).config = s.config := rfl

theorem State.put_of_admits (s : State File) (key : String) {t : Text}
    (h : platform.admits t = true) :
    s.put platform key (some t) =
      { s with prefs := Function.update s.prefs key (some (.text t)) } := by
  simp [State.put, Preferences.put, h]

theorem State.put_of_not_admitted (s : State File) (key : String) {value : Option Text}
    (h : ¬ Admitted platform value) : s.put platform key value = s := by
  cases value with
  | none => rfl
  | some t =>
      have ht : ¬ platform.admits t = true := fun ht => h ⟨t, rfl, ht⟩
      simp [State.put, Preferences.put, ht]

/-- The other keys stay. -/
@[simp] theorem State.put_prefs_of_ne (s : State File) {key other : String} (value : Option Text)
    (h : other ≠ key) : (s.put platform key value).prefs other = s.prefs other := by
  by_cases hvalue : Admitted platform value
  · obtain ⟨t, rfl, ht⟩ := hvalue
    rw [State.put_of_admits s key ht]
    exact Function.update_of_ne h _ _
  · rw [State.put_of_not_admitted s key hvalue]

variable (platform) in
/-- A value that was put is read back when it was taken or was there before. -/
theorem State.get_put_iff (s : State File) (key : String) (value : Option Text) (default : Text) :
    some ((s.put platform key value).prefs.get key default) = value ↔
      Admitted platform value ∨ value = some (s.prefs.get key default) := by
  by_cases h : Admitted platform value
  · obtain ⟨t, rfl, ht⟩ := h
    rw [State.put_of_admits s key ht]
    simp [Preferences.get, Admitted, ht]
  · rw [State.put_of_not_admitted s key h]
    simp [h, eq_comm]

/-! ## Credentials -/

/-- Credentials whose user name is taken: the password is put as well. -/
theorem State.putCredentials_of_admits (s : State File) (user pass : String) {c : Credentials}
    {t : Text} (hname : c.userName = some t) (h : platform.admits t = true) :
    s.putCredentials platform user pass (some c) =
      { s with prefs := Function.update s.prefs user (some (.text t)) }.put platform pass
        (some c.password) := by
  simp [State.putCredentials, Preferences.put, hname, h]

theorem State.putCredentials_of_not_admitted (s : State File) (user pass : String)
    {c : Credentials} (h : ¬ Admitted platform c.userName) :
    s.putCredentials platform user pass (some c) = s := by
  obtain ⟨name, password⟩ := c
  cases name with
  | none => rfl
  | some t =>
      have ht : ¬ platform.admits t = true := fun ht => h ⟨t, rfl, ht⟩
      simp [State.putCredentials, Preferences.put, ht]

@[simp] theorem State.putCredentials_config (s : State File) (user pass : String)
    (credentials : Option Credentials) :
    (s.putCredentials platform user pass credentials).config = s.config := by
  cases credentials with
  | none => rfl
  | some c =>
      by_cases h : Admitted platform c.userName
      · obtain ⟨t, hname, ht⟩ := h
        rw [State.putCredentials_of_admits s user pass hname ht, State.put_config]
      · rw [State.putCredentials_of_not_admitted s user pass h]

/-- The other keys stay. -/
@[simp] theorem State.putCredentials_prefs_of_ne (s : State File) {user pass other : String}
    (credentials : Option Credentials) (huser : other ≠ user) (hpass : other ≠ pass) :
    (s.putCredentials platform user pass credentials).prefs other = s.prefs other := by
  cases credentials with
  | none => rfl
  | some c =>
      by_cases h : Admitted platform c.userName
      · obtain ⟨t, hname, ht⟩ := h
        rw [State.putCredentials_of_admits s user pass hname ht, State.put_prefs_of_ne _ _ hpass]
        exact Function.update_of_ne huser _ _
      · rw [State.putCredentials_of_not_admitted s user pass h]

/-- With a name that is taken only the password decides. -/
theorem persistsCredentials_of_admits {stored : Text → Prop} {old : Option Credentials}
    {c : Credentials} (h : Admitted platform c.userName) :
    PersistsCredentials platform stored old (some c) ↔
      stored c.password ∨ old.map Credentials.password = some c.password := by
  constructor
  · rintro (⟨c', hc', -, hpassword⟩ | rfl)
    · rwa [Option.some.inj hc']
    · exact Or.inr rfl
  · intro hpassword
    exact Or.inl ⟨c, rfl, h, hpassword⟩

variable (platform) in
/-- Credentials that were put are read back from the keys `user` and `read` when
the name was taken and the password was taken under the key it is read from, or
was there before. -/
theorem State.credentials_putCredentials_iff (s : State File) (user pass read : String)
    (credentials : Option Credentials) (hread : read ≠ user) (hpass : user ≠ pass) :
    some ((s.putCredentials platform user pass credentials).prefs.credentials user read) =
        credentials ↔
      PersistsCredentials platform (fun t => read = pass ∧ platform.admits t = true)
        (some (s.prefs.credentials user read)) credentials := by
  cases credentials with
  | none => simp [PersistsCredentials]
  | some c =>
      obtain ⟨name, password⟩ := c
      by_cases h : Admitted platform name
      · obtain ⟨t, rfl, ht⟩ := h
        rw [State.putCredentials_of_admits s user pass rfl ht,
          persistsCredentials_of_admits ⟨t, rfl, ht⟩]
        set s₁ : State File :=
          { s with prefs := Function.update s.prefs user (some (.text t)) } with hs₁
        have huser : (s₁.put platform pass (some password)).prefs.get user [] = t := by
          rw [Preferences.get, State.put_prefs_of_ne _ _ hpass]
          simp [hs₁]
        have hold : s₁.prefs.get read [] = s.prefs.get read [] := by
          simp [hs₁, Preferences.get, hread]
        have hback : some ((s₁.put platform pass (some password)).prefs.credentials user read) =
              some ⟨some t, password⟩ ↔
            some ((s₁.put platform pass (some password)).prefs.get read []) = some password := by
          simp [Preferences.credentials, huser]
        by_cases hkey : read = pass
        · subst hkey
          rw [hback, s₁.get_put_iff platform read (some password) [], hold]
          rw [eq_comm (a := some password)]
          simp [Admitted, Preferences.credentials]
        · have hget : (s₁.put platform pass (some password)).prefs.get read [] =
              s.prefs.get read [] := by
            rw [← hold, Preferences.get, State.put_prefs_of_ne _ _ hkey, Preferences.get]
          rw [hback, hget]
          simp [hkey, Preferences.credentials]
      · rw [State.putCredentials_of_not_admitted s user pass h]
        simp only [PersistsCredentials, Option.mem_some_iff, exists_eq_left', h, false_and,
          false_or]
        exact eq_comm

/-! ## One call -/

section OneCall

-- A new object reads every key once; the frame lemmas of the puts decide which of
-- the keys is the one of the call.
attribute [local simp] step Same Persists newConfiguration Preferences.get Preferences.getInt
  Preferences.getBoolean Preferences.credentials

theorem same_setInstallDir (prefs : Preferences) (dir : Option File) :
    Same platform (setInstallDir platform dir ⟨newConfiguration platform prefs, prefs⟩) ↔
      Persists platform ⟨newConfiguration platform prefs, prefs⟩ (.setInstallDir dir) := by
  cases dir with
  | none => simp [setInstallDir, State.put, Preferences.put]
  | some f =>
      by_cases h : platform.admits (platform.getAbsolutePath f) = true
      · rw [setInstallDir, Option.map_some, State.put_of_admits _ _ h]
        simp [h]
      · have hnot : ¬ Admitted platform (some (platform.getAbsolutePath f)) := by
          rintro ⟨t, ht, hadmits⟩
          exact h (Option.some.inj ht ▸ hadmits)
        rw [setInstallDir, Option.map_some, State.put_of_not_admitted _ _ hnot]
        simp [h]

/-- A call keeps the object and the preferences in step exactly when the value it
sets is read back. -/
theorem same_step_iff {s : State File} (hs : Same platform s) (call : Call File) :
    Same platform (step platform s call) ↔ Persists platform s call := by
  obtain ⟨config, prefs⟩ := s
  obtain rfl : newConfiguration platform prefs = config := hs
  cases call with
  | setInstallDir dir => exact same_setInstallDir prefs dir
  | setHttpProxy proxy =>
      have h := State.get_put_iff platform
        ⟨{ newConfiguration platform prefs with httpProxy := proxy }, prefs⟩ "httpProxy" proxy []
      simpa [setHttpProxy] using h
  | setFtpProxy proxy =>
      have h := State.get_put_iff platform
        ⟨{ newConfiguration platform prefs with ftpProxy := proxy }, prefs⟩ "ftpProxy" proxy []
      simpa [setFtpProxy] using h
  | setHttpProxyCredentials credentials =>
      have h := State.credentials_putCredentials_iff platform
        ⟨{ newConfiguration platform prefs with httpProxyCredentials := credentials }, prefs⟩
        "httpProxyUser" "httProxyPass" "httpProxyPass" credentials (by decide) (by decide)
      simpa [setHttpProxyCredentials] using h
  | setFtpProxyCredentials credentials =>
      have h := State.credentials_putCredentials_iff platform
        ⟨{ newConfiguration platform prefs with ftpProxyCredentials := credentials }, prefs⟩
        "ftpProxyUser" "ftpProxyPass" "ftpProxyPass" credentials (by decide) (by decide)
      simpa [setFtpProxyCredentials] using h
  | setHttpForFtp b => simp [setHttpForFtp]
  | setFtpProxyMode n => simp [setFtpProxyMode]
  | setLaf laf =>
      have h := State.get_put_iff platform
        ⟨{ newConfiguration platform prefs with laf := laf }, prefs⟩ "laf" laf "Raven".toList
      simpa [setLaf] using h
  | setFtpCredentials credentials =>
      have h := State.credentials_putCredentials_iff platform
        ⟨{ newConfiguration platform prefs with ftpCredentials := credentials }, prefs⟩
        "ftpUser" "ftpPass" "ftpPass" credentials (by decide) (by decide)
      simpa [setFtpCredentials] using h

end OneCall

/-! ## Runs -/

variable (platform)

/-- The object that a process creates over the preferences. -/
def start (prefs : Preferences) : State File :=
  ⟨newConfiguration platform prefs, prefs⟩

/-- After every prefix of a sequence of calls a new object has the settings of the
old one exactly when every call sets a value that is read back. -/
theorem same_iff_persists (prefs : Preferences) (calls : List (Call File)) :
    (∀ n, Same platform ((calls.take n).foldl (step platform) (start platform prefs))) ↔
      MeetsAlong (step platform) (Persists platform) (start platform prefs) calls := by
  have hstart : Same platform (start platform prefs) := rfl
  have hrun := invariant_iff_meetsAlong (P := Same platform)
    (fun _ call hs => same_step_iff hs call) (start platform prefs) calls
  exact hrun.trans (and_iff_right hstart)

/-- Files as their absolute paths, all values taken. -/
def plain : Platform Text where
  newFile := id
  getAbsolutePath := id
  defaultDir := "/home/minecraft".toList
  admits _ := true

/-- The password for the http proxy of a new object is not the one that was
set. -/
theorem same_fails :
    ¬ ∀ (calls : List (Call Text)),
      Same plain (calls.foldl (step plain) (start plain fun _ => none)) := by
  intro h
  have hsame := h [.setHttpProxyCredentials (some ⟨some "u".toList, "p".toList⟩)]
  have hpassword := congrArg (fun c => c.httpProxyCredentials.map Credentials.password) hsame
  revert hpassword
  decide

end Settings
end Client
end ModpackInstaller
