import ModpackInstaller.Client.Addons
import ModpackInstaller.Library.Run

/-!
# Files of addons

Whether the files of the addons of one pack stay where they are over a sequence
of calls of {lit}`downloadAddons`.  An addon owns the names of its archive and
nothing else is recorded, so that two addons can own the same path, and an addon
can own a path that was there before.

Main results:

- Theorems {lit}`removeAddon_intact` and {lit}`installAddon_intact`: a removal
  that meets the condition, and every installation, keep the files of the other
  addons.
- Theorem {lit}`intact_of_safe`: so does every sequence of calls whose removals
  meet the condition.
- Theorem {lit}`intact_fails`: of two addons with a common file the second is
  broken when the first is removed.
-/

namespace ModpackInstaller
namespace Client
namespace Ownership

open Library

/-! ## The manifest as a map -/

/-- Removing an addon from the manifest takes its entry away, and no other. -/
theorem get_remove (mf : Manifest) (name t : Text) :
    (mf.remove t).get name = if name = t then none else mf.get name := by
  unfold Manifest.get Manifest.remove
  by_cases h : name = t
  · subst h
    simp
  · rw [if_neg h, List.find?_filter]
    congr 1
    refine congrArg (fun f => mf.find? f) (funext fun e => ?_)
    by_cases he : e.1 = name
    · simp [he, h]
    · simp [he]

/-- Adding one sets its entry, and no other. -/
theorem get_put (mf : Manifest) (name t : Text) (amf : AddonManifest) :
    (mf.put t amf).get name = if name = t then some amf else mf.get name := by
  by_cases h : name = t
  · subst h
    simp [Manifest.put, Manifest.get]
  · have hput : (mf.put t amf).get name = (mf.remove t).get name := by
      simp [Manifest.put, Manifest.get, Ne.symm h]
    rw [hput, get_remove, if_neg h, if_neg h]

/-! ## The condition -/

/-- A call works in the directory of the pack. -/
structure On (dir : Path) (w : AddonCall) : Prop where
  workingDir : w.workingDir = dir
  directory : w.directory = some dir

/-- Every file of an installed addon is there. -/
def FilesThere (dir : Path) (s : Shelf) : Prop :=
  ∀ name, ∀ amf ∈ s.mf.get name, ∀ f ∈ amf.files, s.fs.fileExists (Fs.resolve dir f) = true

/-- The files of installed addons are there, and no removal took away what had
been there before its addon. -/
def Intact (dir : Path) (s : Shelf) : Prop :=
  FilesThere dir s ∧ s.lost = []

/-- The path of an addon belongs to another installed addon as well, or it was
there before the addon. -/
def Shared (dir : Path) (s : Shelf) (t : Text) (p : Path) : Prop :=
  (∃ name ≠ t, ∃ amf ∈ s.mf.get name, ∃ f ∈ amf.files, Fs.resolve dir f = p) ∨
    ∃ old ∈ s.treeBefore t, old.fileExists p = true

/-- Every shared path of the addon to remove is a directory with something in it
that is not the addon's. -/
def SafeRemoval (dir : Path) (s : Shelf) (t : Text) : Prop :=
  ∀ amf ∈ s.mf.get t, ∀ f ∈ amf.files, Shared dir s t (Fs.resolve dir f) →
    s.fs.get (Fs.resolve dir f) = some .dir ∧
      ∃ q, Fs.resolve dir f <+: q ∧ q ≠ Fs.resolve dir f ∧ s.fs.get q ≠ none ∧
        ∀ g ∈ amf.files, Fs.resolve dir g ≠ q

/-- Every removal of the call is safe. -/
def SafeCall (dir : Path) (s : PackState) (w : AddonCall) : Prop :=
  let shelf := if s.known then s.shelf else { s.shelf with mf := [] }
  RunMeets (removeAddon w) (SafeRemoval dir) shelf (removeList w shelf.mf)

/-! ## One addon -/

/-- The paths that a removal deletes are those of the addon's files in the pack directory. -/
theorem mem_removalPaths {dir : Path} {w : AddonCall} (hon : On dir w) {files : List Text}
    {p : Path} : p ∈ removalPaths w files ↔ ∃ f ∈ files, Fs.resolve dir f = p := by
  simp [removalPaths, removalFiles, sortFiles, fileOf, File.path, hon.directory]

/-- A safe removal keeps what the addon shares. -/
theorem deleteAll_shared {dir : Path} {w : AddonCall} (hon : On dir w) {s : Shelf} {t : Text}
    (hsafe : SafeRemoval dir s t) {amf : AddonManifest} (hamf : s.mf.get t = some amf) {p : Path}
    (hp : p ∈ removalPaths w amf.files) (hshared : Shared dir s t p) :
    (deleteAll s.fs (removalFiles w amf.files)).fileExists p = true := by
  obtain ⟨f, hf, rfl⟩ := (mem_removalPaths hon).mp hp
  obtain ⟨hdir, q, hbelow, hne, hpresent, hother⟩ := hsafe amf hamf f hf hshared
  have hq : q ∉ removalPaths w amf.files := by
    intro hmem
    obtain ⟨g, hg, hgq⟩ := (mem_removalPaths hon).mp hmem
    exact hother g hg hgq
  rw [fileExists_iff, get_deleteAll_of_child hdir hbelow hne hq hpresent]
  exact Or.inr (by simp)

/-- A safe removal of one addon keeps the books right. -/
theorem removeAddon_intact {dir : Path} {w : AddonCall} (hon : On dir w) {s s' : Shelf} {t : Text}
    (h : Intact dir s) (hsafe : SafeRemoval dir s t) (hremove : removeAddon w s t = some s') :
    Intact dir s' := by
  unfold removeAddon at hremove
  cases hamf : s.mf.get t with
  | none => simp [hamf] at hremove
  | some amf =>
      simp only [hamf, Option.some.injEq] at hremove
      subst hremove
      constructor
      · intro name amf' hget f hf
        rw [get_remove, Option.mem_def] at hget
        split at hget
        · cases hget
        · rename_i hne
          by_cases hp : Fs.resolve dir f ∈ removalPaths w amf.files
          · exact deleteAll_shared hon hsafe hamf hp (Or.inl ⟨name, hne, amf', hget, f, hf, rfl⟩)
          · have hexists := h.1 name amf' hget f hf
            rw [fileExists_iff] at hexists ⊢
            rwa [get_deleteAll hp]
      · rw [h.2, List.nil_append, List.filter_eq_nil_iff]
        intro p hp
        simp only [Bool.and_eq_true, Bool.not_eq_true', not_and, Bool.not_eq_false]
        rintro ⟨hbefore, -⟩
        obtain ⟨old, hold, hp'⟩ := (Option.any_eq_true _ _).mp hbefore
        exact deleteAll_shared hon hsafe hamf hp (Or.inr ⟨old, hold, hp'⟩)

/-- Every installation keeps the files of the other addons. -/
theorem installAddon_intact {dir : Path} {w : AddonCall} (hon : On dir w) {s s' : Shelf}
    {n : Nat} {a : Addon} {done : Bool} (h : Intact dir s)
    (hinstall : installAddon w n s a = (done, s')) : Intact dir s' := by
  unfold installAddon at hinstall
  cases hdeliver : w.deliver n with
  | none =>
      simp only [hdeliver, Prod.mk.injEq] at hinstall
      exact hinstall.2 ▸ h
  | some archive =>
      rcases htar : unTar w.workingDir archive s.fs with ⟨names, fs⟩
      obtain ⟨hgrows, hnames⟩ := unTar_exists htar
      rw [hon.workingDir] at hnames
      cases names with
      | none =>
          simp only [hdeliver, htar, Prod.mk.injEq] at hinstall
          rw [← hinstall.2]
          exact ⟨fun name amf hget f hf => hgrows _ (h.1 name amf hget f hf), h.2⟩
      | some files =>
          simp only [hdeliver, htar, Prod.mk.injEq] at hinstall
          rw [← hinstall.2]
          refine ⟨fun name amf hget f hf => ?_, h.2⟩
          rw [get_put] at hget
          split at hget
          · obtain rfl := Option.some.inj hget
            exact hnames files rfl f hf
          · exact hgrows _ (h.1 name amf hget f hf)

/-! ## One call -/

/-- So do safe removals in turn. -/
theorem removeAddons_intact {dir : Path} {w : AddonCall} (hon : On dir w) {ts : List Text}
    {s s' : Shelf} {done : Bool} (h : Intact dir s)
    (hsafe : RunMeets (removeAddon w) (SafeRemoval dir) s ts)
    (hremove : removeAddons w ts s = (done, s')) : Intact dir s' := by
  induction ts generalizing s with
  | nil =>
      simp only [removeAddons, Prod.mk.injEq] at hremove
      exact hremove.2 ▸ h
  | cons t ts ih =>
      rw [removeAddons] at hremove
      cases hfirst : removeAddon w s t with
      | none =>
          simp only [hfirst, Prod.mk.injEq] at hremove
          exact hremove.2 ▸ h
      | some s₁ =>
          simp only [hfirst] at hremove
          exact ih (removeAddon_intact hon h hsafe.1 hfirst) (hsafe.2 s₁ hfirst) hremove

/-- So do installations in turn, the one that fails included. -/
theorem installAddons_intact {dir : Path} {w : AddonCall} (hon : On dir w) {as : List Addon}
    {n : Nat} {s s' : Shelf} {done : Bool} (h : Intact dir s)
    (hinstall : installAddons w n as s = (done, s')) : Intact dir s' := by
  induction as generalizing n s with
  | nil =>
      simp only [installAddons, Prod.mk.injEq] at hinstall
      exact hinstall.2 ▸ h
  | cons a as ih =>
      rw [installAddons] at hinstall
      rcases hfirst : installAddon w n s a with ⟨ok, s₁⟩
      have hintact := installAddon_intact hon h hfirst
      cases ok with
      | false =>
          simp only [hfirst, Prod.mk.injEq] at hinstall
          exact hinstall.2 ▸ hintact
      | true =>
          simp only [hfirst] at hinstall
          exact ih hintact hinstall

/-- Dropping the manifest forgets the addons. -/
theorem Intact.dropManifest {dir : Path} {s : Shelf} (h : Intact dir s) :
    Intact dir { s with mf := [] } :=
  ⟨fun name amf hget => by simp [Manifest.get] at hget, h.2⟩

/-- Giving up a call keeps the books as they are. -/
theorem Intact.giveUp {dir : Path} {s : PackState} {shelf : Shelf} (h : Intact dir shelf) :
    Intact dir (s.giveUp shelf).shelf := by
  unfold PackState.giveUp
  dsimp only
  split
  · exact h
  · exact h.dropManifest

/-- A whole call keeps the books right. -/
theorem downloadAddons_intact {dir : Path} {w : AddonCall} (hon : On dir w) {s : PackState}
    (h : Intact dir s.shelf) (hsafe : SafeCall dir s w) :
    Intact dir (downloadAddons w s).2.shelf := by
  unfold downloadAddons
  unfold SafeCall at hsafe
  have hstart : Intact dir (if s.known then s.shelf else { s.shelf with mf := [] }) := by
    split
    · exact h
    · exact h.dropManifest
  dsimp only at hsafe ⊢
  generalize (if s.known then s.shelf else { s.shelf with mf := [] }) = shelf at hsafe hstart ⊢
  rcases hremove : removeAddons w (removeList w shelf.mf) shelf with ⟨removedAll, removed⟩
  have hremoved := removeAddons_intact hon hstart hsafe hremove
  cases removedAll with
  | false => exact hremoved.giveUp
  | true =>
      rcases hinstall : installAddons w 0 (installList w shelf.mf) removed with ⟨all, installed⟩
      have hinstalled := installAddons_intact hon hremoved hinstall
      simp only [hinstall]
      cases all with
      | false => exact hinstalled.giveUp
      | true =>
          refine ⟨fun name amf hget f hf => ?_, hinstalled.2⟩
          have hexists := hinstalled.1 name amf hget f hf
          dsimp only
          cases hwrite : (fileOf w.cwd w.directory "manifest.json".toList).write installed.fs
              (w.render installed.mf) with
          | none => exact hexists
          | some fs => exact (grows_write (File.write_some hwrite)).1 _ hexists

/-! ## Over a sequence of calls -/

/-- One call of a sequence. -/
def step (s : PackState) (w : AddonCall) : Option PackState :=
  some (downloadAddons w s).2

/-- A pack without addons. -/
def PackState.start (fs : Fs) : PackState where
  known := false
  shelf := ⟨fs, [], [], []⟩

/-- Over every sequence of calls on one pack whose removals are safe, the files of
the installed addons and the files from before stay where they are. -/
theorem intact_of_safe {dir : Path} {fs : Fs} {calls : List AddonCall} {s : PackState}
    (hon : ∀ w ∈ calls, On dir w)
    (hsafe : RunMeets step (SafeCall dir) (PackState.start fs) calls)
    (hrun : run step (PackState.start fs) calls = some s) : Intact dir s.shelf := by
  refine run_invariant (P := fun s => Intact dir s.shelf) ?_ ?_ (hsafe.and_forall hon) hrun
  · rintro s w s' hintact ⟨hw, hcall⟩ hstep
    obtain rfl := Option.some.inj hstep
    exact downloadAddons_intact hw hintact hcall
  · exact ⟨fun name amf hget => by simp [PackState.start, Manifest.get] at hget, rfl⟩

/-- An addon of one file that is selected or not. -/
def addonOf (name : Text) (install : Bool) : Addon where
  install := install
  name := name
  archive := name
  version := "1".toList

/-- A call that finds the pack in `/p`, and for every addon an archive with the
file `x`. -/
def callOf (addons : List Addon) : AddonCall where
  cwd := []
  workingDir := ["p".toList]
  directory := some ["p".toList]
  addons := addons
  deliver _ := some ⟨[⟨"x".toList, false, "1".toList⟩], .whole⟩
  render _ := []

/-- The directory of the pack. -/
def packFs : Fs := ⟨[(["p".toList], .dir)]⟩

/-- An addon is installed and removed. -/
def installRemove : List AddonCall :=
  [callOf [addonOf "a".toList true], callOf [addonOf "a".toList false]]

/-- Both calls work in the pack directory. -/
theorem installRemove_on : ∀ w ∈ installRemove, On ["p".toList] w := by
  intro w hw
  rcases List.mem_pair.mp hw with rfl | rfl
  · exact ⟨rfl, rfl⟩
  · exact ⟨rfl, rfl⟩

/-- What the second call removes belongs to no other addon. -/
theorem installRemove_safe :
    RunMeets step (SafeCall ["p".toList]) (PackState.start packFs) installRemove := by
  refine ⟨trivial, ?_⟩
  rintro s hs
  obtain rfl := Option.some.inj hs
  refine ⟨⟨?_, fun _ _ => trivial⟩, fun _ _ => trivial⟩
  rintro amf hamf f hf hshared
  have hentry : (⟨"1".toList, ["x".toList]⟩ : AddonManifest) = amf := Option.some.inj hamf
  rw [← hentry, List.mem_singleton] at hf
  subst hf
  exfalso
  rcases hshared with ⟨name, hne, amf', hamf', -⟩ | ⟨old, hold, hbefore⟩
  · have hother : "a".toList ≠ name := Ne.symm hne
    have hnone : Manifest.get [("a".toList, ⟨"1".toList, ["x".toList]⟩)] name = none := by
      rw [Manifest.get, List.find?_cons_of_neg (by simpa using hother)]
      rfl
    exact absurd (hnone.symm.trans hamf') (by simp)
  · obtain rfl : packFs = old := Option.some.inj hold
    revert hbefore
    decide

/-- An installation followed by a removal. -/
theorem intact_installRemove :
    ∃ s, run step (PackState.start packFs) installRemove = some s ∧ Intact ["p".toList] s.shelf :=
  ⟨_, rfl, intact_of_safe installRemove_on installRemove_safe rfl⟩

/-- Two addons with the same file are installed, and one of them is removed. -/
def commonFile : List AddonCall :=
  [callOf [addonOf "a".toList true, addonOf "b".toList true],
    callOf [addonOf "a".toList false, addonOf "b".toList true]]

/-- The file of the addon that stays is gone. -/
theorem intact_fails :
    ∃ s, run step (PackState.start packFs) commonFile = some s ∧
      s.shelf.mf = [("b".toList, ⟨"1".toList, ["x".toList]⟩)] ∧
      s.shelf.fs.fileExists ["p".toList, "x".toList] = false ∧ ¬ Intact ["p".toList] s.shelf := by
  refine ⟨_, rfl, by decide, by decide, ?_⟩
  rintro ⟨hfiles, -⟩
  have hx := hfiles "b".toList ⟨"1".toList, ["x".toList]⟩ (by decide) "x".toList (by simp)
  revert hx
  decide

end Ownership
end Client
end ModpackInstaller
