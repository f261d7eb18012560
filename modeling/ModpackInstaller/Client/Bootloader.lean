import ModpackInstaller.Library.Run
import ModpackInstaller.Text

/-!
# The bootloader

How {lit}`Bootloader.java` keeps the installer up to date: a jar that does not
have the published hash is replaced in its place, and then every artifact of the
server's list is fetched into {lit}`lib`.  What the network and the disk do to
one run of {lit}`boot` is the input of that run.

Main results:

- Theorem {lit}`getAll_complete`: the loop over the artifacts leaves every one of
  them complete when it gets through.
- Theorem {lit}`complete_of_through`: a run of {lit}`boot` that returns true has
  everything on the disk, over all runs in which the last byte of the jar does
  not come without the artifacts.
- Theorem {lit}`deceived_of_gap`: behind a run that left a whole jar without an
  artifact, the next one that can read the hash is content.
-/

namespace ModpackInstaller
namespace Client
namespace Bootloader

open Library

/-! ## The server and the disk -/

/-- What the server publishes. -/
structure Site where
  /-- `DUInstaller.jar` -/
  installer : Text
  /-- `installer_version`, the hash of the jar. -/
  version : Text
  /-- `artifacts`, the list of names. -/
  artifacts : Text
  /-- The body behind the URL of an artifact; `none` for any answer but 200. -/
  artifact : Text → Option Text

/-- The files of the install directory: the jar, and the file in `lib` to which
`artifactUrl.getFile()` leads for an artifact of that name. -/
structure Layout (Place : Type) where
  jar : Place
  artifact : Text → Place

/-- The contents of the files. -/
abbrev Disk (Place : Type) := Place → Option Text

/-- The tokens of a `Scanner` with the delimiter newline.  It skips a delimiter in
front of every token, also of the first one. -/
def scannerTokens (s : Text) : List Text :=
  if s.head? = some '\n' then pieces '\n' s.tail else pieces '\n' s

/-- How one download into a file goes. -/
inductive Fetch where
  /-- The request fails or is not answered with 200. -/
  | refused
  /-- The file cannot be opened for writing. -/
  | unopened
  /-- Reading, writing or closing fails behind this many bytes. -/
  | broken (bytes : Nat)
  /-- The stream ends behind this many bytes, and both ends are closed. -/
  | ended (bytes : Nat)
deriving DecidableEq, Repr

/-- What the network and the disk do to one run of `boot`. -/
structure Boot where
  /-- Both proxy addresses can be read. -/
  proxies : Bool
  /-- The characters of the hash that arrive; `none` when the request fails. -/
  version : Option Nat
  /-- The jar on the disk can be read. -/
  hashed : Bool
  jar : Fetch
  /-- The characters of the list that arrive.  A `Scanner` takes a failing read
  for the end of the input. -/
  artifacts : Option Nat
  artifact : Nat → Fetch
  /-- The list can be closed. -/
  closed : Bool

variable {Place : Type} [DecidableEq Place]

/-! ## The functions -/

/-- Contents of a file. -/
def Disk.set (d : Disk Place) (p : Place) (content : Text) : Disk Place :=
  Function.update d p (some content)

/-- Download a body into a file: the disk, and whether it went through. -/
def download (d : Disk Place) (p : Place) (body : Text) : Fetch → Disk Place × Bool
  | .refused => (d, false)
  | .unopened => (d, false)
  | .broken n => (d.set p (body.take n), false)
  | .ended n => (d.set p (body.take n), true)

/-- `checkInstall` -/
def checkInstall (layout : Layout Place) (d : Disk Place) : Bool :=
  (d layout.jar).isSome

/-- `needUpdate` with `getSha1Sum` -/
def needUpdate (sha1 : Text → Text) (site : Site) (layout : Layout Place) (e : Boot)
    (d : Disk Place) : Bool :=
  match d layout.jar with
  | none => true
  | some jar =>
    match e.version with
    | none => true
    | some n => if e.hashed then decide (site.version.take n ≠ sha1 jar) else true

/-- One turn of the loop of `getArtifacts`. -/
def getArtifact (site : Site) (layout : Layout Place) (f : Fetch) (artifact : Text)
    (d : Disk Place) : Disk Place × Bool :=
  match site.artifact artifact with
  | none => (d, false)
  | some body => download d (layout.artifact artifact) body f

/-- The loop of `getArtifacts`, from the artifact with the number `i` on. -/
def getAll (site : Site) (layout : Layout Place) (fetches : Nat → Fetch) :
    Nat → List Text → Disk Place → Disk Place × Bool
  | _, [], d => (d, true)
  | i, artifact :: rest, d =>
    match getArtifact site layout (fetches i) artifact d with
    | (d, false) => (d, false)
    | (d, true) => getAll site layout fetches (i + 1) rest d

/-- `getArtifacts` -/
def getArtifacts (site : Site) (layout : Layout Place) (e : Boot) (d : Disk Place) :
    Disk Place × Bool :=
  match e.artifacts with
  | none => (d, false)
  | some n =>
    match getAll site layout e.artifact 0 (scannerTokens (site.artifacts.take n)) d with
    | (d, false) => (d, false)
    | (d, true) => (d, e.closed)

/-- `boot` -/
def boot (sha1 : Text → Text) (site : Site) (layout : Layout Place) (e : Boot)
    (d : Disk Place) : Disk Place × Bool :=
  if !e.proxies then (d, false)
  else if !checkInstall layout d || needUpdate sha1 site layout e d then
    match download d layout.jar site.installer e.jar with
    | (d, false) => (d, false)
    | (d, true) => getArtifacts site layout e d
  else (d, true)

/-- The disk behind one run of `boot`. -/
def step (sha1 : Text → Text) (site : Site) (layout : Layout Place) (d : Disk Place)
    (e : Boot) : Disk Place :=
  (boot sha1 site layout e d).1

/-! ## What has to be there -/

/-- The names of the server's list. -/
def Site.names (site : Site) : List Text :=
  scannerTokens site.artifacts

/-- Every artifact of the list is in `lib`, as the server has it. -/
def Supplied (site : Site) (layout : Layout Place) (d : Disk Place) : Prop :=
  ∀ a ∈ site.names, (site.artifact a).isSome ∧ d (layout.artifact a) = site.artifact a

/-- The jar and every artifact are there. -/
def Complete (site : Site) (layout : Layout Place) (d : Disk Place) : Prop :=
  d layout.jar = some site.installer ∧ Supplied site layout d

/-- A whole jar comes with every artifact. -/
def Sealed (site : Site) (layout : Layout Place) (d : Disk Place) : Prop :=
  d layout.jar = some site.installer → Supplied site layout d

/-- The files of the artifacts are no other files, unless they are the same. -/
structure Separate (site : Site) (layout : Layout Place) : Prop where
  jar : ∀ a ∈ site.names, layout.artifact a ≠ layout.jar
  artifact : ∀ a ∈ site.names, ∀ b ∈ site.names,
    layout.artifact a = layout.artifact b → site.artifact a = site.artifact b

/-! ## The loop over the artifacts -/

/-- The stream ends with the last byte of the body. -/
def Arrives (body : Text) (f : Fetch) : Prop :=
  ∃ n, f = .ended n ∧ body.length ≤ n

/-- Every artifact from the number `i` on is answered and arrives. -/
def AllArrive (site : Site) (fetches : Nat → Fetch) : Nat → List Text → Prop
  | _, [] => True
  | i, artifact :: rest =>
    (∃ body, site.artifact artifact = some body ∧ Arrives body (fetches i)) ∧
      AllArrive site fetches (i + 1) rest

section Loop

variable {site : Site} {layout : Layout Place} {fetches : Nat → Fetch}

@[simp] theorem set_self (d : Disk Place) (p : Place) (content : Text) :
    d.set p content p = some content :=
  Function.update_self ..

theorem set_of_ne (d : Disk Place) {p q : Place} (content : Text) (h : q ≠ p) :
    d.set p content q = d q :=
  Function.update_of_ne h ..

/-- A body that arrives is written as it is. -/
theorem download_of_arrives (d : Disk Place) (p : Place) {body : Text} {f : Fetch}
    (h : Arrives body f) : download d p body f = (d.set p body, true) := by
  obtain ⟨n, rfl, hlen⟩ := h
  rw [download, List.take_of_length_le hlen]

/-- The first turn of a loop in which everything arrives. -/
theorem getAll_cons {i : Nat} {a body : Text} {rest : List Text} {d : Disk Place}
    (hbody : site.artifact a = some body) (harrives : Arrives body (fetches i)) :
    getAll site layout fetches i (a :: rest) d =
      getAll site layout fetches (i + 1) rest (d.set (layout.artifact a) body) := by
  have hturn : getArtifact site layout (fetches i) a d =
      (d.set (layout.artifact a) body, true) := by
    rw [getArtifact, hbody]
    exact download_of_arrives d _ harrives
  rw [getAll, hturn]

/-- A file to which no artifact goes, or only artifacts with its contents, keeps
its contents. -/
theorem getAll_keeps {p : Place} {names : List Text} {i : Nat} {d : Disk Place}
    (harrive : AllArrive site fetches i names)
    (hsame : ∀ a ∈ names, layout.artifact a = p → site.artifact a = d p) :
    (getAll site layout fetches i names d).1 p = d p := by
  induction names generalizing i d with
  | nil => rfl
  | cons a rest ih =>
      obtain ⟨⟨body, hbody, harrives⟩, hrest⟩ := harrive
      have hstays : d.set (layout.artifact a) body p = d p := by
        by_cases hplace : layout.artifact a = p
        · rw [← hplace, set_self, ← hbody, hsame a (by simp) hplace, hplace]
        · exact set_of_ne d body (Ne.symm hplace)
      rw [getAll_cons hbody harrives, ih hrest, hstays]
      intro b hb hplace
      rw [hstays]
      exact hsame b (by simp [hb]) hplace

/-- The loop gets through, and every artifact is there. -/
theorem getAll_complete {names : List Text} {i : Nat} {d : Disk Place}
    (harrive : AllArrive site fetches i names)
    (hsame : ∀ a ∈ names, ∀ b ∈ names,
      layout.artifact a = layout.artifact b → site.artifact a = site.artifact b) :
    (getAll site layout fetches i names d).2 = true ∧
      ∀ a ∈ names, (site.artifact a).isSome ∧
        (getAll site layout fetches i names d).1 (layout.artifact a) = site.artifact a := by
  induction names generalizing i d with
  | nil => simp [getAll]
  | cons a rest ih =>
      obtain ⟨⟨body, hbody, harrives⟩, hrest⟩ := harrive
      have hturn : getAll site layout fetches i (a :: rest) d =
          getAll site layout fetches (i + 1) rest (d.set (layout.artifact a) body) :=
        getAll_cons hbody harrives
      obtain ⟨hthrough, hothers⟩ := ih (d := d.set (layout.artifact a) body) hrest
        fun b hb c hc => hsame b (by simp [hb]) c (by simp [hc])
      rw [hturn]
      refine ⟨hthrough, fun b hb => ?_⟩
      rcases List.mem_cons.mp hb with rfl | hb
      · refine ⟨by simp [hbody], ?_⟩
        rw [getAll_keeps hrest, set_self, hbody]
        intro c hc hplace
        rw [set_self, ← hbody]
        exact hsame c (by simp [hc]) b (by simp) hplace
      · exact hothers b hb

end Loop

/-! ## Over all runs -/

section Run

variable {sha1 : Text → Text} {site : Site} {layout : Layout Place}

/-- The jar is taken for the published one. -/
def UpToDate (sha1 : Text → Text) (site : Site) (layout : Layout Place) (d : Disk Place)
    (e : Boot) : Prop :=
  checkInstall layout d = true ∧ needUpdate sha1 site layout e d = false

/-- The last byte of the jar comes only in a run that gets everything. -/
def Through (site : Site) (e : Boot) : Prop :=
  match e.jar with
  | .refused => True
  | .unopened => True
  | .broken n => n < site.installer.length
  | .ended n =>
    site.installer.length ≤ n ∧ (∃ m, e.artifacts = some m ∧ site.artifacts.length ≤ m) ∧
      AllArrive site e.artifact 0 site.names ∧ e.closed = true

/-- A jar that is taken for the published one is that one, and a jar that is
replaced is replaced as a whole only together with everything else. -/
def Sound (sha1 : Text → Text) (site : Site) (layout : Layout Place) (d : Disk Place)
    (e : Boot) : Prop :=
  e.proxies = true →
    (UpToDate sha1 site layout d e → d layout.jar = some site.installer) ∧
      (¬ UpToDate sha1 site layout d e → Through site e)

/-- A run of `boot` that returns true has everything on the disk. -/
def Honest (sha1 : Text → Text) (site : Site) (layout : Layout Place) (d : Disk Place)
    (e : Boot) : Prop :=
  (boot sha1 site layout e d).2 = true → Complete site layout (step sha1 site layout d e)

variable (sha1 site layout) in
/-- The three ways of a run. -/
theorem boot_cases (d : Disk Place) (e : Boot) :
    (e.proxies = false ∧ boot sha1 site layout e d = (d, false)) ∨
      (e.proxies = true ∧ UpToDate sha1 site layout d e ∧
        boot sha1 site layout e d = (d, true)) ∨
      (e.proxies = true ∧ ¬ UpToDate sha1 site layout d e ∧
        boot sha1 site layout e d =
          match download d layout.jar site.installer e.jar with
          | (d, false) => (d, false)
          | (d, true) => getArtifacts site layout e d) := by
  unfold boot UpToDate
  cases hproxies : e.proxies with
  | false => exact Or.inl ⟨rfl, rfl⟩
  | true =>
      cases hcheck : checkInstall layout d with
      | false => exact Or.inr (Or.inr ⟨rfl, by simp, rfl⟩)
      | true =>
          cases hneed : needUpdate sha1 site layout e d with
          | false => exact Or.inr (Or.inl ⟨rfl, ⟨rfl, rfl⟩, rfl⟩)
          | true => exact Or.inr (Or.inr ⟨rfl, by simp, rfl⟩)

/-- Behind a jar that arrived and a list that arrived, everything is there. -/
theorem getArtifacts_complete {e : Boot} {d : Disk Place} {m : Nat}
    (hseparate : Separate site layout) (hlist : e.artifacts = some m)
    (hm : site.artifacts.length ≤ m) (harrive : AllArrive site e.artifact 0 site.names)
    (hjar : d layout.jar = some site.installer) :
    Complete site layout (getArtifacts site layout e d).1 := by
  obtain ⟨hthrough, hall⟩ := getAll_complete (d := d) harrive hseparate.artifact
  have hkeeps : (getAll site layout e.artifact 0 site.names d).1 layout.jar = d layout.jar :=
    getAll_keeps harrive fun a ha hplace => absurd hplace (hseparate.jar a ha)
  have hdisk : (getArtifacts site layout e d).1 =
      (getAll site layout e.artifact 0 site.names d).1 := by
    rw [getArtifacts, hlist]
    simp only [List.take_of_length_le hm]
    change (match getAll site layout e.artifact 0 site.names d with
      | (d, false) => (d, false)
      | (d, true) => (d, e.closed)).1 = _
    split <;> rename_i heq <;> rw [heq]
  rw [hdisk]
  exact ⟨hkeeps.trans hjar, hall⟩

/-- One sound run keeps the seal, and it is honest. -/
theorem sealed_step {d : Disk Place} {e : Boot} (hseparate : Separate site layout)
    (hsealed : Sealed site layout d) (hsound : Sound sha1 site layout d e) :
    Sealed site layout (step sha1 site layout d e) ∧ Honest sha1 site layout d e := by
  unfold Honest step
  rcases boot_cases sha1 site layout d e with
    ⟨-, hboot⟩ | ⟨hproxies, huptodate, hboot⟩ | ⟨hproxies, hold, hboot⟩
  · rw [hboot]
    exact ⟨hsealed, by simp⟩
  · rw [hboot]
    have hjar := (hsound hproxies).1 huptodate
    exact ⟨hsealed, fun _ => ⟨hjar, hsealed hjar⟩⟩
  · have hthrough := (hsound hproxies).2 hold
    rw [hboot]
    unfold Through at hthrough
    cases hfetch : e.jar with
    | refused => exact ⟨hsealed, fun h => nomatch h⟩
    | unopened => exact ⟨hsealed, fun h => nomatch h⟩
    | broken n =>
        rw [hfetch] at hthrough
        refine ⟨fun hjar => ?_, fun h => nomatch h⟩
        -- A part of the jar is not the jar.
        have hcut : site.installer.take n = site.installer := by
          simpa [download] using hjar
        have hlen := congrArg List.length hcut
        rw [List.length_take] at hlen
        omega
    | ended n =>
        rw [hfetch] at hthrough
        obtain ⟨hlen, ⟨m, hlist, hm⟩, harrive, -⟩ := hthrough
        rw [download_of_arrives d layout.jar ⟨n, rfl, hlen⟩]
        have hcomplete := getArtifacts_complete hseparate hlist hm harrive
          (set_self d layout.jar site.installer)
        exact ⟨fun _ => hcomplete.2, fun _ => hcomplete⟩

/-- Over all runs of `boot`: when the last byte of the jar comes only in a run that
gets everything, a run that returns true has everything on the disk. -/
theorem complete_of_through {d : Disk Place} {es : List Boot} (hseparate : Separate site layout)
    (hsealed : Sealed site layout d)
    (hsound : MeetsAlong (step sha1 site layout) (Sound sha1 site layout) d es) :
    MeetsAlong (step sha1 site layout) (Honest sha1 site layout) d es := by
  induction es generalizing d with
  | nil => trivial
  | cons e es ih =>
      obtain ⟨hnext, hhonest⟩ := sealed_step hseparate hsealed hsound.1
      exact ⟨hhonest, ih hnext hsound.2⟩

/-- Behind a run that left a whole jar without an artifact, the next one that can
read the hash is content. -/
theorem deceived_of_gap {d : Disk Place} {e : Boot} {n : Nat}
    (hpublished : site.version = sha1 site.installer) (hjar : d layout.jar = some site.installer)
    (hgap : ¬ Supplied site layout d) (hproxies : e.proxies = true) (hhashed : e.hashed = true)
    (hversion : e.version = some n) (hn : site.version.length ≤ n) :
    ¬ Honest sha1 site layout d e := by
  have hneed : needUpdate sha1 site layout e d = false := by
    rw [needUpdate, hjar]
    simp only [hversion, hhashed, if_true]
    rw [List.take_of_length_le hn, hpublished]
    simp
  have huptodate : boot sha1 site layout e d = (d, true) := by
    simp [boot, checkInstall, hneed, hproxies, hjar]
  intro hhonest
  unfold Honest step at hhonest
  rw [huptodate] at hhonest
  exact hgap (hhonest rfl).2

end Run

/-! ## Two runs -/

/-- SHA-1 of the three contents that the jar has below. -/
def sha1Sums (s : Text) : Text :=
  if s = "abc".toList then "a9993e364706816aba3e25717850c26c9cd0d89d".toList
  else if s = "a".toList then "86f7e437faa5a7fce15d1ddcb9eaeaea377667b8".toList
  else "da39a3ee5e6b4b0d3255bfef95601890afd80709".toList

/-- A server with a jar of three bytes and one artifact. -/
def oneArtifact : Site where
  installer := "abc".toList
  version := "a9993e364706816aba3e25717850c26c9cd0d89d".toList
  artifacts := "gson.jar\n".toList
  artifact a := if a = "gson.jar".toList then some "xy".toList else none

/-- Names without anything special in them. -/
def plainLayout : Layout Text where
  jar := "DUInstaller.jar".toList
  artifact a := "lib/".toList ++ a

/-- A run in which everything goes through, but for the jar. -/
def Boot.plain (jar : Fetch) : Boot where
  proxies := true
  version := some 40
  hashed := true
  jar := jar
  artifacts := some 9
  artifact _ := .ended 2
  closed := true

/-- A run that loses the connection behind the jar. -/
def Boot.lost : Boot :=
  { Boot.plain (.ended 3) with artifacts := none }

theorem separate_plain : Separate oneArtifact plainLayout where
  jar := by decide
  artifact := by decide

/-- The first run breaks off in the jar, the second one gets everything, and the
third one is content. -/
theorem complete_broken :
    MeetsAlong (step sha1Sums oneArtifact plainLayout) (Honest sha1Sums oneArtifact plainLayout)
      (fun _ => none) [.plain (.broken 1), .plain (.ended 3), .plain .refused] := by
  refine complete_of_through separate_plain ?_ ?_
  · intro hjar
    cases hjar
  · refine ⟨fun _ => ⟨?_, fun _ => ?_⟩, fun _ => ⟨?_, fun _ => ?_⟩, fun _ => ⟨?_, ?_⟩, trivial⟩
    · rintro ⟨hcheck, -⟩
      cases hcheck
    · change 1 < 3
      decide
    · rintro ⟨-, hneed⟩
      revert hneed
      decide
    · exact ⟨by decide, ⟨9, rfl, by decide⟩, ⟨⟨_, rfl, 2, rfl, by decide⟩, trivial⟩, rfl⟩
    · intro _
      decide
    · intro _
      trivial

/-- The connection is lost behind the jar, and the next run returns true without
the artifact. -/
theorem complete_fails :
    let d := step sha1Sums oneArtifact plainLayout (fun _ => none) .lost
    (boot sha1Sums oneArtifact plainLayout .lost fun _ => none).2 = false ∧
      (boot sha1Sums oneArtifact plainLayout (.plain .refused) d).2 = true ∧
      step sha1Sums oneArtifact plainLayout d (.plain .refused) "lib/gson.jar".toList = none ∧
      ¬ Complete oneArtifact plainLayout
        (step sha1Sums oneArtifact plainLayout d (.plain .refused)) := by
  refine ⟨by decide, by decide, by decide, ?_⟩
  rintro ⟨-, hsupplied⟩
  have hmissing := (hsupplied "gson.jar".toList (by decide)).2
  revert hmissing
  decide

end Bootloader
end Client
end ModpackInstaller
