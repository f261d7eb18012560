import Mathlib.Data.List.Sort
import ModpackInstaller.Client.FileSystem

/-!
# Archives and addons

{lit}`InstallPanel.unTar`, which writes the entries of an archive below a
directory, and {lit}`InstallPanel.downloadAddons`, which removes the addons that
were deselected, entry by entry, and installs those that were selected.  What
the server delivers for an archive is an input.

Main results:

- Theorem {lit}`unTar_exists`: whatever was there is still there behind an
  archive, and so is every entry of an archive that was read to its end.
- Theorem {lit}`get_deleteAll`: a sequence of deletions changes nothing but the
  paths it names.
- Theorem {lit}`get_deleteAll_of_child`: a directory with something in it that is
  not named stays.
-/

namespace ModpackInstaller
namespace Client

open Library

/-! ## Archives -/

/-- An entry of an archive. -/
structure TarEntry where
  name : Text
  isDirectory : Bool
  content : Text
deriving DecidableEq, Repr

/-- Where the stream of an archive ends. -/
inductive ArchiveEnd where
  /-- Behind the record that marks the end of the archive. -/
  | whole
  /-- Behind an entry, in its padding or in a header: `TarArchiveInputStream` takes
  a record that it cannot read in full for the end of the archive. -/
  | betweenEntries
  /-- In the content of an entry, which is an `IOException`. -/
  | insideEntry
deriving DecidableEq, Repr

/-- What arrives of an archive.  When it breaks off, the last entry has only the
content that was read of it. -/
structure Archive where
  entries : List TarEntry
  ending : ArchiveEnd
deriving DecidableEq, Repr

/-- All of the archive arrived. -/
def Archive.whole (archive : Archive) : Bool :=
  decide (archive.ending = .whole)

/-- `getNextEntry` comes to an end of the archive. -/
def Archive.ends (archive : Archive) : Bool :=
  decide (archive.ending ≠ .insideEntry)

/-- One round of the loop in `unTar`; `none` when it throws. -/
def unTarEntry (outputDir : Path) (fs : Fs) (entry : TarEntry) : Option Fs :=
  let outputFile : File := ⟨outputDir, entry.name⟩
  if entry.isDirectory then
    if outputFile.fileExists fs then some fs else outputFile.mkdirs fs
  else outputFile.write fs entry.content

/-- The loop in `unTar`: whether it got through, and what is written. -/
def unTarEntries (outputDir : Path) : List TarEntry → Fs → Bool × Fs
  | [], fs => (true, fs)
  | entry :: entries, fs =>
    match unTarEntry outputDir fs entry with
    | none => (false, fs)
    | some fs => unTarEntries outputDir entries fs

/-- `unTar`: the names of the entries, or `none` when it throws. -/
def unTar (outputDir : Path) (archive : Archive) (fs : Fs) : Option (List Text) × Fs :=
  let (through, fs) := unTarEntries outputDir archive.entries fs
  if through && archive.ends then (some (archive.entries.map TarEntry.name), fs)
  else (none, fs)

/-! ## Addons -/

/-- An installed pack. -/
structure Pack where
  name : Text
  directory : Text
  version : Text
deriving DecidableEq, Repr

/-- The search for the directory of a pack by its name. -/
def registeredDirectory (packList : List Pack) (workingPack : Text) : Option Text :=
  (packList.find? fun p => decide (p.name = workingPack)).map Pack.directory

/-- A selectable addon of a pack. -/
structure Addon where
  install : Bool
  name : Text
  archive : Text
  version : Text
deriving DecidableEq, Repr

/-- What is remembered of an installed addon. -/
structure AddonManifest where
  version : Text
  files : List Text
deriving DecidableEq, Repr

/-- The addons of a pack by name. -/
abbrev Manifest := List (Text × AddonManifest)

namespace Manifest

/-- `HashMap.get` -/
def get (mf : Manifest) (name : Text) : Option AddonManifest :=
  (mf.find? fun e => decide (e.1 = name)).map Prod.snd

/-- `HashMap.remove` -/
def remove (mf : Manifest) (name : Text) : Manifest :=
  mf.filter fun e => decide (e.1 ≠ name)

/-- `HashMap.put` -/
def put (mf : Manifest) (name : Text) (amf : AddonManifest) : Manifest :=
  (name, amf) :: mf.remove name

end Manifest

/-- `File.getPath` of a name: repeated slashes and slashes at the end are
dropped. -/
def javaPath (name : Text) : Text :=
  (if name.head? = some '/' then ['/'] else []) ++
    List.intercalate ['/'] ((pieces '/' name).filter fun piece => decide (piece ≠ []))

/-- The `char` values of a character: two surrogates for one behind 65535. -/
def utf16 (c : Char) : List Nat :=
  if c.toNat < 65536 then [c.toNat]
  else [55296 + (c.toNat - 65536) / 1024, 56320 + (c.toNat - 65536) % 1024]

/-- The first sequence of `char` values is not behind the second. -/
def unitsLe : List Nat → List Nat → Bool
  | [], _ => true
  | _ :: _, [] => false
  | c :: s, d :: t => c < d || (c = d && unitsLe s t)

/-- `String.compareTo` of the first text with the second is not positive. -/
def javaLe (s t : Text) : Bool :=
  unitsLe (s.flatMap utf16) (t.flatMap utf16)

/-- `files.sort(new PathComparator())`: the larger path comes first. -/
def sortFiles (files : List Text) : List Text :=
  files.insertionSort fun o1 o2 => javaLe (javaPath o2) (javaPath o1) = true

/-- `new File(directory, f)` in the removal loop; without a directory the name is
relative to the process. -/
def fileOf (cwd : Path) (directory : Option Path) (f : Text) : File :=
  match directory with
  | some directory => ⟨directory, f⟩
  | none => ⟨if f.head? = some '/' then [] else cwd, f⟩

/-- Delete one file after the other; the results are not looked at. -/
def deleteAll (fs : Fs) (files : List File) : Fs :=
  files.foldl (fun fs f => (f.delete fs).2) fs

/-- The files and the addons of one pack.  The last two fields are for the
statements only: the tree in front of each installation, and what a removal took
away although it was there before the addon. -/
structure Shelf where
  fs : Fs
  mf : Manifest
  before : List (Text × Fs)
  lost : List Path
deriving DecidableEq, Repr

/-- The tree in front of the installation of an addon. -/
def Shelf.treeBefore (s : Shelf) (name : Text) : Option Fs :=
  (s.before.find? fun e => decide (e.1 = name)).map Prod.snd

/-- What one call of `downloadAddons` finds. -/
structure AddonCall where
  /-- The working directory of the process. -/
  cwd : Path
  workingDir : Path
  /-- The directory under which the pack is registered. -/
  directory : Option Path
  addons : List Addon
  /-- What arrives for the n-th installation; `none` when nothing does. -/
  deliver : Nat → Option Archive
  /-- The text of `manifest.json`. -/
  render : Manifest → Text

section Calls

variable (w : AddonCall)

/-- The addons to remove. -/
def removeList (mf : Manifest) : List Text :=
  (w.addons.filter fun a => !a.install && (mf.get a.name).isSome).map Addon.name

/-- The addons to install. -/
def installList (mf : Manifest) : List Addon :=
  w.addons.filter fun a => a.install && !(mf.get a.name).isSome

/-- The files that the removal of an addon goes through. -/
def removalFiles (files : List Text) : List File :=
  (sortFiles files).map (fileOf w.cwd w.directory)

/-- Where they are. -/
def removalPaths (files : List Text) : List Path :=
  (removalFiles w files).map File.path

/-- One round of the removal loop; `none` is the exception for an addon that is
not in the manifest. -/
def removeAddon (s : Shelf) (t : Text) : Option Shelf :=
  match s.mf.get t with
  | none => none
  | some amf =>
    let fs := deleteAll s.fs (removalFiles w amf.files)
    let taken := (removalPaths w amf.files).filter fun p =>
      ((s.treeBefore t).any fun old => old.fileExists p) && s.fs.fileExists p && !fs.fileExists p
    some { s with fs := fs, mf := s.mf.remove t, lost := s.lost ++ taken }

/-- The removal loop: whether it got through, and what it left. -/
def removeAddons : List Text → Shelf → Bool × Shelf
  | [], s => (true, s)
  | t :: ts, s =>
    match removeAddon w s t with
    | none => (false, s)
    | some s => removeAddons ts s

/-- One round of the installation loop. -/
def installAddon (n : Nat) (s : Shelf) (a : Addon) : Bool × Shelf :=
  match w.deliver n with
  | none => (false, s)
  | some archive =>
    match unTar w.workingDir archive s.fs with
    | (none, fs) => (false, { s with fs := fs })
    | (some files, fs) =>
      (true, { s with
        fs := fs
        mf := s.mf.put a.name ⟨a.version, files⟩
        before := (a.name, s.fs) :: s.before })

/-- The installation loop. -/
def installAddons : Nat → List Addon → Shelf → Bool × Shelf
  | _, [], s => (true, s)
  | n, a :: as, s =>
    match installAddon w n s a with
    | (false, s) => (false, s)
    | (true, s) => installAddons (n + 1) as s

/-- The manifest of the pack, if there is one, and its files. -/
structure PackState where
  /-- `manifest.containsKey(workingPack)` -/
  known : Bool
  shelf : Shelf
deriving DecidableEq, Repr

/-- An end of `downloadAddons` in front of `manifest.put`. -/
def PackState.giveUp (s : PackState) (shelf : Shelf) : PackState :=
  { s with shelf := if s.known then shelf else { shelf with mf := [] } }

/-- `downloadAddons`: its result, or `none` for the exception. -/
def downloadAddons (s : PackState) : Option Bool × PackState :=
  let shelf := if s.known then s.shelf else { s.shelf with mf := [] }
  match removeAddons w (removeList w shelf.mf) shelf with
  | (false, removed) => (none, s.giveUp removed)
  | (true, removed) =>
    match installAddons w 0 (installList w shelf.mf) removed with
    | (false, installed) => (some false, s.giveUp installed)
    | (true, installed) =>
      let file := fileOf w.cwd w.directory "manifest.json".toList
      let fs := (file.write installed.fs (w.render installed.mf)).getD installed.fs
      (some true, { known := true, shelf := { installed with fs := fs } })

end Calls

/-! ## What stays -/

/-- Nothing that exists goes away. -/
def Grows (fs fs' : Fs) : Prop :=
  ∀ p, fs.fileExists p = true → fs'.fileExists p = true

theorem Grows.refl (fs : Fs) : Grows fs fs :=
  fun _ h => h

theorem Grows.trans {fs₁ fs₂ fs₃ : Fs} (h₁ : Grows fs₁ fs₂) (h₂ : Grows fs₂ fs₃) :
    Grows fs₁ fs₃ :=
  fun p h => h₂ p (h₁ p h)

theorem grows_write {fs fs' : Fs} {p : Path} {content : Text}
    (h : fs.write p content = some fs') : Grows fs fs' ∧ fs'.fileExists p = true := by
  constructor
  · intro q hq
    rw [fileExists_iff] at hq ⊢
    rw [Fs.get_write h]
    split
    · exact Or.inr (by simp)
    · exact hq
  · rw [fileExists_iff, Fs.get_write h, if_pos rfl]
    exact Or.inr (by simp)

theorem grows_mkdirs {fs fs' : Fs} {p : Path} (h : fs.mkdirs p = some fs') :
    Grows fs fs' ∧ fs'.fileExists p = true := by
  constructor
  · intro q hq
    rw [fileExists_iff] at hq ⊢
    refine hq.imp_right fun hget => ?_
    rcases Fs.get_mkdirsFrom h q with hsame | ⟨hnone, -, -⟩
    · rwa [hsame]
    · exact absurd hnone hget
  · rw [fileExists_iff]
    by_cases hp : p = []
    · exact Or.inl hp
    · have hend : fs'.get ([] ++ p) = some .dir := Fs.get_mkdirsFrom_end h hp
      exact Or.inr (by simpa using hend.symm ▸ Option.some_ne_none Node.dir)

theorem unTarEntry_grows {outputDir : Path} {fs fs' : Fs} {entry : TarEntry}
    (h : unTarEntry outputDir fs entry = some fs') :
    Grows fs fs' ∧ fs'.fileExists (Fs.resolve outputDir entry.name) = true := by
  unfold unTarEntry at h
  dsimp only at h
  split_ifs at h with hdir hexists
  · obtain rfl := Option.some.inj h
    exact ⟨Grows.refl fs, File.fileExists_path hexists⟩
  · exact grows_mkdirs (File.mkdirs_some h).2
  · exact grows_write (File.write_some h)

theorem unTarEntries_grows {outputDir : Path} {entries : List TarEntry} {fs fs' : Fs}
    {through : Bool} (h : unTarEntries outputDir entries fs = (through, fs')) :
    Grows fs fs' ∧ (through = true → ∀ entry ∈ entries,
      fs'.fileExists (Fs.resolve outputDir entry.name) = true) := by
  induction entries generalizing fs with
  | nil =>
      simp only [unTarEntries, Prod.mk.injEq] at h
      exact ⟨h.2 ▸ Grows.refl fs, by simp⟩
  | cons entry entries ih =>
      rw [unTarEntries] at h
      cases hentry : unTarEntry outputDir fs entry with
      | none =>
          simp only [hentry, Prod.mk.injEq] at h
          exact ⟨h.2 ▸ Grows.refl fs, by simp [← h.1]⟩
      | some fs₁ =>
          simp only [hentry] at h
          obtain ⟨hgrows, hexists⟩ := unTarEntry_grows hentry
          obtain ⟨hrest, hentries⟩ := ih h
          refine ⟨hgrows.trans hrest, fun hthrough e he => ?_⟩
          rcases List.mem_cons.mp he with rfl | he
          · exact hrest _ hexists
          · exact hentries hthrough e he

/-- Behind an archive everything that was there is still there, and so is every
entry of an archive that was read to its end. -/
theorem unTar_exists {outputDir : Path} {archive : Archive} {fs fs' : Fs}
    {names : Option (List Text)} (h : unTar outputDir archive fs = (names, fs')) :
    Grows fs fs' ∧ ∀ files ∈ names, ∀ f ∈ files,
      fs'.fileExists (Fs.resolve outputDir f) = true := by
  unfold unTar at h
  rcases hentries : unTarEntries outputDir archive.entries fs with ⟨through, fs₁⟩
  obtain ⟨hgrows, hexists⟩ := unTarEntries_grows hentries
  simp only [hentries] at h
  split_ifs at h with hwhole
  · rw [Prod.mk.injEq] at h
    obtain ⟨rfl, rfl⟩ := h
    refine ⟨hgrows, fun files hfiles f hf => ?_⟩
    obtain rfl := Option.some.inj hfiles
    obtain ⟨entry, hentry, rfl⟩ := List.mem_map.mp hf
    exact hexists (Bool.and_eq_true_iff.mp hwhole).1 entry hentry
  · rw [Prod.mk.injEq] at h
    obtain ⟨rfl, rfl⟩ := h
    exact ⟨hgrows, by simp⟩

/-! ## What a removal takes away -/

/-- Deletions change nothing but the paths they name. -/
theorem get_deleteAll {files : List File} {q : Path} (hq : q ∉ files.map File.path) (fs : Fs) :
    (deleteAll fs files).get q = fs.get q := by
  unfold deleteAll
  induction files generalizing fs with
  | nil => rfl
  | cons f files ih =>
      rw [List.map_cons, List.mem_cons, not_or] at hq
      rw [List.foldl_cons, ih hq.2, File.get_delete_of_ne hq.1]

/-- A directory with something in it that is not named stays. -/
theorem get_deleteAll_of_child {files : List File} {p q : Path} {fs : Fs}
    (hdir : fs.get p = some .dir) (hbelow : p <+: q) (hne : q ≠ p)
    (hq : q ∉ files.map File.path) (hpresent : fs.get q ≠ none) :
    (deleteAll fs files).get p = some .dir := by
  unfold deleteAll
  induction files generalizing fs with
  | nil => exact hdir
  | cons f files ih =>
      rw [List.map_cons, List.mem_cons, not_or] at hq
      have hchild : fs.hasChildren p = true := Fs.hasChildren_iff.mpr ⟨q, hbelow, hne, hpresent⟩
      rw [List.foldl_cons]
      refine ih ?_ hq.2 ?_
      · by_cases hp : p = f.path
        · rw [File.delete]
          split
          · rw [Fs.get_delete, if_neg, hdir]
            rintro ⟨-, hempty⟩
            rw [← hp] at hempty
            exact absurd (hchild.symm.trans (hempty hdir)) (by simp)
          · exact hdir
        · rw [File.get_delete_of_ne hp, hdir]
      · rw [File.get_delete_of_ne hq.1]
        exact hpresent

end Client
end ModpackInstaller
