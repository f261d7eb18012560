import ModpackInstaller.Client.Ownership

/-!
# The list of installed addons

{lit}`InstallPanel.downloadAddons` keeps two lists of the installed addons of a
pack: the entry of the pack in {lit}`manifest` and the file
{lit}`manifest.json`.  Removals and installations take effect one by one; the file
is written on the last line, and so is a new entry.  An archive that is cut behind an
entry is taken for a whole one.

Main results:

- Theorems {lit}`lists_removeAddons` and {lit}`lists_installAddons`: the manifest
  in hand lists what was taken for installed, after every removal and installation.
- Theorem {lit}`lists_entry`: the entry behind a call, with and without failure.
- Theorems {lit}`get_books_of_written` and {lit}`get_books_of_unwritten`: the file
  behind a call.
- Theorem {lit}`bothKept_iff`: both lists are right behind a call exactly when every
  archive arrives whole and the file can be written, or nothing is removed or installed.
- Theorem {lit}`bothKept_fails`: an addon is removed, and the next download fails.
-/

namespace ModpackInstaller
namespace Client
namespace AddonBooks

open Library Ownership

/-! ## What a call does -/

/-- The manifest lists an addon. -/
def Lists (mf : Manifest) (name : Text) : Prop :=
  (mf.get name).isSome = true

instance (mf : Manifest) (name : Text) : Decidable (Lists mf name) :=
  inferInstanceAs (Decidable (_ = true))

/-- The files, with the entry of the pack or a new manifest. -/
def working (s : PackState) : Shelf :=
  if s.known then s.shelf else { s.shelf with mf := [] }

section Calls

variable (w : AddonCall)

/-- The addons whose archives are unpacked to an end, up to the first failure. -/
def extracted : Nat → List Addon → Shelf → List Addon
  | _, [], _ => []
  | n, a :: as, s =>
    match installAddon w n s a with
    | (false, _) => []
    | (true, s) => a :: extracted (n + 1) as s

/-- Those of them whose archives arrived whole. -/
def complete : Nat → List Addon → Shelf → List Addon
  | _, [], _ => []
  | n, a :: as, s =>
    match installAddon w n s a with
    | (false, _) => []
    | (true, s) =>
      if (w.deliver n).any Archive.whole then a :: complete (n + 1) as s
      else complete (n + 1) as s

variable (s : PackState)

/-- The addons to remove and to install. -/
def toRemove : List Text :=
  removeList w (working s).mf

def toInstall : List Addon :=
  installList w (working s).mf

/-- Behind the removals. -/
def removed : Shelf :=
  (removeAddons w (toRemove w s) (working s)).2

/-- The addons that the call takes for installed. -/
def extractedIn : List Addon :=
  extracted w 0 (toInstall w s) (removed w s)

/-- The addons that the call has installed. -/
def completeIn : List Addon :=
  complete w 0 (toInstall w s) (removed w s)

/-- Behind the installations. -/
def installed : Shelf :=
  (installAddons w 0 (toInstall w s) (removed w s)).2

/-- `new File(directory, "manifest.json")` -/
def books : File :=
  fileOf w.cwd w.directory "manifest.json".toList

/-- The manifest that is written to the file, if the call gets there and can write
it. -/
def written : Option Manifest :=
  if extractedIn w s = toInstall w s then
    ((books w).write (installed w s).fs (w.render (installed w s).mf)).map fun _ =>
      (installed w s).mf
  else none

/-- An addon is taken for installed behind the call: it was before and is not removed,
or its archive was unpacked to an end. -/
def Taken (name : Text) : Prop :=
  Lists (working s).mf name ∧ name ∉ toRemove w s ∨ name ∈ (extractedIn w s).map Addon.name

/-- An addon is installed behind the call: it was before and is not removed, or its
whole archive was unpacked. -/
def Installed (name : Text) : Prop :=
  Lists (working s).mf name ∧ name ∉ toRemove w s ∨ name ∈ (completeIn w s).map Addon.name

/-- The entry and the file list what is installed; `file` is what the file listed
before the call. -/
structure Kept (file : Manifest) : Prop where
  entry : ∀ name, Lists (working (downloadAddons w s).2).mf name ↔ Installed w s name
  file : ∀ name, Lists ((written w s).getD file) name ↔ Installed w s name

/-! ## What a call meets -/

/-- Archive `n` comes to an end, and its entries can be written. -/
def Arrives (n : Nat) (fs : Fs) : Prop :=
  ∃ archive ∈ w.deliver n,
    archive.ends = true ∧ (unTarEntries w.workingDir archive.entries fs).1 = true

/-- The tree behind archive `n`. -/
def treeBehind (n : Nat) (fs : Fs) : Fs :=
  ((w.deliver n).map fun archive => (unTarEntries w.workingDir archive.entries fs).2).getD fs

/-- The archives of the addons arrive one after the other. -/
def AllArrive : Nat → List Addon → Fs → Prop
  | _, [], _ => True
  | n, _ :: as, fs => Arrives w n fs ∧ AllArrive (n + 1) as (treeBehind w n fs)

/-- Each of the archives is whole, or that of another addon of the same name is. -/
def WholeByName (n : Nat) (as : List Addon) : Prop :=
  ∀ a ∈ as, ∃ k b, as[k]? = some b ∧ b.name = a.name ∧ (w.deliver (n + k)).any Archive.whole = true

/-- None of the archives that arrive, up to the first one that does not, is whole. -/
def NoneWhole : Nat → List Addon → Fs → Prop
  | _, [], _ => True
  | n, _ :: as, fs => Arrives w n fs →
    (w.deliver n).any Archive.whole = false ∧ NoneWhole (n + 1) as (treeBehind w n fs)

/-- The file can be written behind the installations. -/
def Writable : Prop :=
  ((books w).write (installed w s).fs (w.render (installed w s).mf)).isSome = true

instance : Decidable (Writable w s) :=
  inferInstanceAs (Decidable (_ = true))

end Calls

/-! ## Removals and installations -/

section Loops

variable {w : AddonCall}

/-- The removals take their addons off the manifest. -/
theorem lists_removeAddons {ts : List Text} {s s' : Shelf}
    (h : removeAddons w ts s = (true, s')) (name : Text) :
    Lists s'.mf name ↔ Lists s.mf name ∧ name ∉ ts := by
  induction ts generalizing s with
  | nil =>
      obtain rfl : s = s' := (Prod.mk.inj h).2
      simp
  | cons t ts ih =>
      rw [removeAddons] at h
      cases hfirst : removeAddon w s t with
      | none => simp [hfirst] at h
      | some s₁ =>
          simp only [hfirst] at h
          have hmf : s₁.mf = s.mf.remove t := by
            unfold removeAddon at hfirst
            cases hget : s.mf.get t with
            | none => simp [hget] at hfirst
            | some amf =>
                simp only [hget, Option.some.injEq] at hfirst
                rw [← hfirst]
          rw [ih h, hmf, Lists, get_remove, List.mem_cons, not_or]
          by_cases hname : name = t
          · simp [hname]
          · simp [hname, Lists]

/-- An installation adds its addon or leaves the manifest as it is. -/
theorem lists_installAddon {a : Addon} {n : Nat} {s s' : Shelf} {done : Bool}
    (h : installAddon w n s a = (done, s')) (name : Text) :
    Lists s'.mf name ↔ Lists s.mf name ∨ (done = true ∧ name = a.name) := by
  unfold installAddon at h
  cases hdeliver : w.deliver n with
  | none =>
      simp only [hdeliver, Prod.mk.injEq] at h
      simp [← h.1, ← h.2]
  | some archive =>
      rcases htar : unTar w.workingDir archive s.fs with ⟨names, fs⟩
      cases names with
      | none =>
          simp only [hdeliver, htar, Prod.mk.injEq] at h
          simp [← h.1, ← h.2]
      | some files =>
          simp only [hdeliver, htar, Prod.mk.injEq] at h
          rw [← h.2, Lists, get_put]
          by_cases hname : name = a.name
          · simp [hname, ← h.1]
          · simp [hname, Lists]

/-- Every installation adds its addon, up to the first failure. -/
theorem lists_installAddons {as : List Addon} {n : Nat} {s s' : Shelf} {done : Bool}
    (h : installAddons w n as s = (done, s')) (name : Text) :
    Lists s'.mf name ↔ Lists s.mf name ∨ name ∈ (extracted w n as s).map Addon.name := by
  induction as generalizing n s with
  | nil =>
      obtain rfl : s = s' := (Prod.mk.inj h).2
      simp [extracted]
  | cons a as ih =>
      rw [installAddons] at h
      rw [extracted]
      rcases hfirst : installAddon w n s a with ⟨ok, s₁⟩
      have hlists := lists_installAddon hfirst name
      cases ok with
      | false =>
          simp only [hfirst, Prod.mk.injEq] at h
          rw [← h.2, hlists]
          simp
      | true =>
          simp only [hfirst] at h
          rw [ih h, hlists]
          simp [or_assoc]

/-- An archive that is unpacked or not leaves what its entries leave. -/
theorem unTar_snd (dir : Path) (archive : Archive) (fs : Fs) :
    (unTar dir archive fs).2 = (unTarEntries dir archive.entries fs).2 := by
  unfold unTar
  dsimp only
  split_ifs <;> rfl

theorem unTar_isSome_iff (dir : Path) (archive : Archive) (fs : Fs) :
    (unTar dir archive fs).1.isSome = true ↔
      archive.ends = true ∧ (unTarEntries dir archive.entries fs).1 = true := by
  unfold unTar
  dsimp only
  rw [and_comm, ← Bool.and_eq_true]
  split_ifs with h <;> simp [h]

/-- An addon is installed exactly when its archive arrives. -/
theorem installAddon_iff (n : Nat) (s : Shelf) (a : Addon) :
    (installAddon w n s a).1 = true ↔ Arrives w n s.fs := by
  unfold installAddon Arrives
  cases w.deliver n with
  | none => simp
  | some archive =>
      simp only [Option.mem_def, Option.some.injEq, exists_eq_left']
      rw [← unTar_isSome_iff]
      rcases unTar w.workingDir archive s.fs with ⟨names, fs⟩
      cases names <;> simp

/-- The tree behind an installation, also behind one that fails. -/
theorem installAddon_fs (n : Nat) (s : Shelf) (a : Addon) :
    (installAddon w n s a).2.fs = treeBehind w n s.fs := by
  rw [installAddon, treeBehind]
  cases w.deliver n with
  | none => rfl
  | some archive =>
      rw [Option.map_some, Option.getD_some, ← unTar_snd]
      dsimp only
      rcases unTar w.workingDir archive s.fs with ⟨names, fs⟩
      cases names <;> rfl

/-- All addons are taken for installed exactly when their archives arrive. -/
theorem extracted_eq_self_iff (as : List Addon) (n : Nat) (s : Shelf) :
    extracted w n as s = as ↔ AllArrive w n as s.fs := by
  induction as generalizing n s with
  | nil => exact iff_of_true rfl trivial
  | cons a as ih =>
      have hfirst := @installAddon_iff w n s a
      have hfs := installAddon_fs (w := w) n s a
      rw [extracted, AllArrive, ← hfirst, ← hfs]
      rcases installAddon w n s a with ⟨done, s₁⟩
      cases done with
      | false => simp
      | true => simp [ih]

/-- No addon is taken for installed when there is none to install or the first archive
does not arrive. -/
theorem extracted_eq_nil_iff (as : List Addon) (n : Nat) (s : Shelf) :
    extracted w n as s = [] ↔ as = [] ∨ ¬ Arrives w n s.fs := by
  cases as with
  | nil => exact iff_of_true rfl (Or.inl rfl)
  | cons a as =>
      rw [extracted, ← installAddon_iff n s a]
      rcases installAddon w n s a with ⟨done, s₁⟩
      cases done <;> simp

/-- No addon is installed exactly when no archive that arrives is whole. -/
theorem complete_eq_nil_iff (as : List Addon) (n : Nat) (s : Shelf) :
    complete w n as s = [] ↔ NoneWhole w n as s.fs := by
  induction as generalizing n s with
  | nil => exact iff_of_true rfl trivial
  | cons a as ih =>
      have hfirst := @installAddon_iff w n s a
      have hfs := installAddon_fs (w := w) n s a
      rw [complete, NoneWhole, ← hfirst, ← hfs]
      rcases installAddon w n s a with ⟨done, s₁⟩
      cases done with
      | false => simp
      | true =>
          cases hwhole : (w.deliver n).any Archive.whole with
          | true => simp
          | false => simp [ih]

/-- What is installed was taken for it. -/
theorem complete_subset (as : List Addon) (n : Nat) (s : Shelf) :
    complete w n as s ⊆ extracted w n as s := by
  induction as generalizing n s with
  | nil => exact List.Subset.refl _
  | cons a as ih =>
      rw [complete, extracted]
      rcases installAddon w n s a with ⟨done, s₁⟩
      cases done with
      | false => exact List.Subset.refl _
      | true =>
          dsimp only
          split
          · exact List.cons_subset_cons a (ih _ _)
          · exact fun b hb => List.mem_cons_of_mem _ (ih _ _ hb)

/-- Where all archives arrive the installed addons are those with a whole one. -/
theorem mem_complete_iff {as : List Addon} {n : Nat} {s : Shelf}
    (hall : extracted w n as s = as) (b : Addon) :
    b ∈ complete w n as s ↔
      ∃ k, as[k]? = some b ∧ (w.deliver (n + k)).any Archive.whole = true := by
  induction as generalizing n s with
  | nil => simp [complete]
  | cons a as ih =>
      rw [extracted] at hall
      rw [complete]
      rcases hrun : installAddon w n s a with ⟨done, s₁⟩
      cases done with
      | false => simp [hrun] at hall
      | true =>
          simp only [hrun, List.cons.injEq, true_and] at hall
          -- The first addon, and those behind it with their numbers one higher.
          have hsplit : (∃ k, (a :: as)[k]? = some b ∧
              (w.deliver (n + k)).any Archive.whole = true) ↔
              (a = b ∧ (w.deliver n).any Archive.whole = true) ∨
                ∃ k, as[k]? = some b ∧ (w.deliver (n + 1 + k)).any Archive.whole = true := by
            constructor
            · rintro ⟨k, hk, hwhole⟩
              cases k with
              | zero => exact Or.inl ⟨by simpa using hk, by simpa using hwhole⟩
              | succ k =>
                  refine Or.inr ⟨k, by simpa using hk, ?_⟩
                  rwa [Nat.add_assoc, Nat.add_comm 1 k]
            · rintro (⟨rfl, hwhole⟩ | ⟨k, hk, hwhole⟩)
              · exact ⟨0, rfl, hwhole⟩
              · refine ⟨k + 1, by simpa using hk, ?_⟩
                rwa [Nat.add_comm k 1, ← Nat.add_assoc]
          rw [hsplit, ← ih hall]
          cases hwhole : (w.deliver n).any Archive.whole with
          | true => simp [eq_comm]
          | false => simp

/-- The installations get through exactly when all addons are installed. -/
theorem installAddons_through (as : List Addon) (n : Nat) (s : Shelf) :
    (installAddons w n as s).1 = true ↔ extracted w n as s = as := by
  induction as generalizing n s with
  | nil => simp [installAddons, extracted]
  | cons a as ih =>
      rw [installAddons, extracted]
      rcases installAddon w n s a with ⟨ok, s₁⟩
      cases ok with
      | false => simp
      | true => simp [ih]

end Loops

/-! ## The two lists -/

section Lists

variable {w : AddonCall} {s : PackState}

/-- A call that returns has got through the removals. -/
theorem removeAddons_of_returns (h : (downloadAddons w s).1 ≠ none) :
    removeAddons w (toRemove w s) (working s) = (true, removed w s) := by
  rcases hremove : removeAddons w (toRemove w s) (working s) with ⟨through, shelf⟩
  cases through with
  | true => simp [removed, hremove]
  | false =>
      exfalso
      apply h
      unfold toRemove working at hremove
      simp [downloadAddons, hremove]

/-- The manifest in hand lists what is taken for installed. -/
theorem lists_installed (h : (downloadAddons w s).1 ≠ none) (name : Text) :
    Lists (installed w s).mf name ↔ Taken w s name := by
  have hinstall : installAddons w 0 (toInstall w s) (removed w s) =
      ((installAddons w 0 (toInstall w s) (removed w s)).1, installed w s) := rfl
  rw [lists_installAddons hinstall, lists_removeAddons (removeAddons_of_returns h)]
  rfl

/-- A call that returns, behind its removals. -/
theorem downloadAddons_eq (h : (downloadAddons w s).1 ≠ none) :
    downloadAddons w s =
      if extractedIn w s = toInstall w s then
        (some true,
          { known := true
            shelf :=
              { installed w s with
                fs := ((books w).write (installed w s).fs (w.render (installed w s).mf)).getD
                  (installed w s).fs } })
      else (some false, s.giveUp (installed w s)) := by
  have hremove := removeAddons_of_returns h
  have hthrough : (installAddons w 0 (toInstall w s) (removed w s)).1 = true ↔
      extractedIn w s = toInstall w s := installAddons_through _ _ _
  rcases hinstall : installAddons w 0 (toInstall w s) (removed w s) with ⟨done, shelf⟩
  have hshelf : installed w s = shelf := by rw [installed, hinstall]
  rw [hinstall] at hthrough
  unfold toRemove working at hremove
  unfold toInstall working at hinstall
  unfold downloadAddons
  cases done with
  | true =>
      rw [if_pos (hthrough.mp rfl), hshelf]
      simp only [hremove, hinstall]
      rfl
  | false =>
      have hbroken : ¬ extractedIn w s = toInstall w s := fun heq => by
        simpa using hthrough.mpr heq
      rw [if_neg hbroken, hshelf]
      simp only [hremove, hinstall]

/-- Where the manifest in hand ends up. -/
theorem working_downloadAddons (h : (downloadAddons w s).1 ≠ none) :
    (working (downloadAddons w s).2).mf =
      if extractedIn w s = toInstall w s ∨ s.known = true then (installed w s).mf else [] := by
  rw [downloadAddons_eq h]
  by_cases hthrough : extractedIn w s = toInstall w s
  · simp [hthrough, working]
  · cases hknown : s.known <;> simp [hthrough, working, PackState.giveUp, hknown]

/-- The entry behind a call: a new one is only made at its end. -/
theorem lists_entry (h : (downloadAddons w s).1 ≠ none) (name : Text) :
    Lists (working (downloadAddons w s).2).mf name ↔
      (extractedIn w s = toInstall w s ∨ s.known = true) ∧ Taken w s name := by
  rw [working_downloadAddons h, ← lists_installed h]
  split_ifs with hkeeps
  · simp [hkeeps]
  · simp [hkeeps, Lists, Manifest.get]

/-- An addon to remove was listed, one to install was not. -/
theorem lists_of_mem_toRemove {t : Text} (h : t ∈ toRemove w s) : Lists (working s).mf t := by
  obtain ⟨a, ha, rfl⟩ := List.mem_map.mp h
  exact (Bool.and_eq_true_iff.mp (List.mem_filter.mp ha).2).2

theorem not_lists_of_mem_toInstall {a : Addon} (h : a ∈ toInstall w s) :
    ¬ Lists (working s).mf a.name := by
  have hmiss := (Bool.and_eq_true_iff.mp (List.mem_filter.mp h).2).2
  rw [Lists]
  simpa using hmiss

theorem extracted_subset (as : List Addon) (n : Nat) (shelf : Shelf) :
    extracted w n as shelf ⊆ as := by
  induction as generalizing n shelf with
  | nil => exact List.Subset.refl _
  | cons a as ih =>
      rw [extracted]
      split
      · exact List.nil_subset _
      · exact List.cons_subset_cons a (ih _ _)

/-- What is installed was not listed before, if it comes from an archive. -/
theorem not_lists_of_extractedIn {a : Addon} (h : a ∈ extractedIn w s) :
    ¬ Lists (working s).mf a.name :=
  not_lists_of_mem_toInstall (extracted_subset _ _ _ h)

/-- What is installed is what was listed exactly when nothing was removed and nothing
installed. -/
theorem installed_iff_lists :
    (∀ name, Installed w s name ↔ Lists (working s).mf name) ↔
      toRemove w s = [] ∧ completeIn w s = [] := by
  constructor
  · intro h
    have hcomplete : completeIn w s = [] := by
      rw [List.eq_nil_iff_forall_not_mem]
      intro a ha
      exact not_lists_of_extractedIn (complete_subset _ _ _ ha)
        ((h a.name).mp (Or.inr (List.mem_map_of_mem ha)))
    refine ⟨?_, hcomplete⟩
    rw [List.eq_nil_iff_forall_not_mem]
    intro t ht
    have hkept := (h t).mpr (lists_of_mem_toRemove ht)
    rw [Installed, hcomplete] at hkept
    simp [ht] at hkept
  · rintro ⟨hremove, hcomplete⟩ name
    simp [Installed, hremove, hcomplete]

/-- What is taken for installed is installed exactly when each name that comes from an
archive comes from a whole one. -/
theorem taken_iff_installed :
    (∀ name, Taken w s name ↔ Installed w s name) ↔
      ∀ a ∈ extractedIn w s, a.name ∈ (completeIn w s).map Addon.name := by
  constructor
  · intro h a ha
    rcases (h a.name).mp (Or.inr (List.mem_map_of_mem ha)) with hlisted | hcomplete
    · exact absurd hlisted.1 (not_lists_of_extractedIn ha)
    · exact hcomplete
  · intro h name
    refine or_congr_right ⟨fun hname => ?_, fun hname => ?_⟩
    · obtain ⟨a, ha, rfl⟩ := List.mem_map.mp hname
      exact h a ha
    · obtain ⟨a, ha, rfl⟩ := List.mem_map.mp hname
      exact List.mem_map_of_mem (complete_subset _ _ _ ha)

/-- What is written is the manifest in hand, on the last line. -/
theorem written_eq_some {mf : Manifest} (h : written w s = some mf) :
    extractedIn w s = toInstall w s ∧ mf = (installed w s).mf := by
  unfold written at h
  split_ifs at h with hthrough
  obtain ⟨fs, -, hmf⟩ := Option.map_eq_some_iff.mp h
  exact ⟨hthrough, hmf.symm⟩

/-- What is written lists what is taken for installed. -/
theorem lists_written (hreturns : (downloadAddons w s).1 ≠ none) {mf : Manifest}
    (h : written w s = some mf) (name : Text) : Lists mf name ↔ Taken w s name := by
  rw [(written_eq_some h).2]
  exact lists_installed hreturns name

/-- The file is written when all archives arrive and it can be. -/
theorem written_isSome_iff :
    (written w s).isSome = true ↔
      AllArrive w 0 (toInstall w s) (removed w s).fs ∧ Writable w s := by
  rw [← extracted_eq_self_iff, Writable, written, extractedIn]
  split_ifs with hthrough <;> simp [hthrough]

/-- Behind a call that writes the file, both lists are right exactly when every name
comes from a whole archive. -/
theorem kept_iff_of_written {file : Manifest} (hreturns : (downloadAddons w s).1 ≠ none)
    {mf : Manifest} (h : written w s = some mf) :
    Kept w s file ↔ WholeByName w 0 (toInstall w s) := by
  have hthrough := (written_eq_some h).1
  have hnames : (∀ name, Taken w s name ↔ Installed w s name) ↔
      WholeByName w 0 (toInstall w s) := by
    rw [taken_iff_installed, hthrough]
    refine forall₂_congr fun a _ => ?_
    simp only [completeIn, List.mem_map, mem_complete_iff hthrough]
    constructor
    · rintro ⟨b, ⟨k, hk, hwhole⟩, hname⟩
      exact ⟨k, b, hk, hname, hwhole⟩
    · rintro ⟨k, b, hk, hname, hwhole⟩
      exact ⟨b, ⟨k, hk, hwhole⟩, hname⟩
  rw [← hnames]
  constructor
  · intro hkept name
    rw [← hkept.file name, h]
    exact (lists_written hreturns h name).symm
  · intro hsame
    refine ⟨fun name => ?_, fun name => ?_⟩
    · rw [lists_entry hreturns, ← hsame name]
      exact and_iff_right (Or.inl hthrough)
    · rw [h, ← hsame name]
      exact lists_written hreturns h name

/-- Behind a call that does not write the file, both lists are right exactly when
nothing is removed or installed, and nothing taken for installed where the entry lists
it. -/
theorem kept_iff_of_unwritten {file : Manifest} (hreturns : (downloadAddons w s).1 ≠ none)
    (hagree : ∀ name, Lists file name ↔ Lists (working s).mf name) (h : written w s = none) :
    Kept w s file ↔
      (toRemove w s = [] ∧ completeIn w s = []) ∧
        (extractedIn w s = toInstall w s ∨ s.known = true → extractedIn w s = []) := by
  constructor
  · intro hkept
    have hsame : ∀ name, Installed w s name ↔ Lists (working s).mf name := fun name => by
      rw [← hkept.file name, h]
      exact hagree name
    refine ⟨installed_iff_lists.mp hsame, fun hshown => ?_⟩
    rw [List.eq_nil_iff_forall_not_mem]
    intro a ha
    have htaken : Lists (working (downloadAddons w s).2).mf a.name :=
      (lists_entry hreturns _).mpr ⟨hshown, Or.inr (List.mem_map_of_mem ha)⟩
    exact not_lists_of_extractedIn ha ((hsame _).mp ((hkept.entry _).mp htaken))
  · rintro ⟨hnothing, hshown⟩
    have hsame := installed_iff_lists.mpr hnothing
    refine ⟨fun name => ?_, fun name => ?_⟩
    · rw [lists_entry hreturns, hsame name]
      by_cases hentry : extractedIn w s = toInstall w s ∨ s.known = true
      · rw [and_iff_right hentry, Taken, hnothing.1, hshown hentry]
        simp
      · -- Without an entry nothing was listed before either.
        have hunknown : s.known = false := by simpa using (not_or.mp hentry).2
        exact iff_of_false (fun h => hentry h.1)
          (by simp [working, hunknown, Lists, Manifest.get])
    · rw [h]
      exact (hagree name).trans (hsame name).symm

/-- A written manifest stands in the file. -/
theorem get_books_of_written {mf : Manifest} (h : written w s = some mf)
    (hreturns : (downloadAddons w s).1 ≠ none) :
    (downloadAddons w s).2.shelf.fs.get (books w).path = some (.file (w.render mf)) := by
  obtain ⟨hthrough, hmf⟩ := written_eq_some h
  rw [written, if_pos hthrough, Option.map_eq_some_iff] at h
  obtain ⟨fs, hwrite, -⟩ := h
  rw [downloadAddons_eq hreturns, if_pos hthrough, hwrite, hmf]
  exact (Fs.get_write (File.write_some hwrite) _).trans (if_pos rfl)

/-- Neither a removal nor an archive of the call goes to the file. -/
structure Spared (w : AddonCall) (s : PackState) : Prop where
  removals : ∀ t ∈ toRemove w s, ∀ amf ∈ (working s).mf.get t,
    (books w).path ∉ removalPaths w amf.files
  archives : ∀ n, ∀ archive ∈ w.deliver n, ∀ entry ∈ archive.entries,
    ¬ (books w).path <+: Fs.resolve w.workingDir entry.name

theorem get_unTarEntry {dir q : Path} {fs fs' : Fs} {entry : TarEntry}
    (hq : ¬ q <+: Fs.resolve dir entry.name) (h : unTarEntry dir fs entry = some fs') :
    fs'.get q = fs.get q := by
  unfold unTarEntry at h
  dsimp only at h
  split_ifs at h with hdir hexists
  · rw [← Option.some.inj h]
  · rcases Fs.get_mkdirsFrom (File.mkdirs_some h).2 q with hsame | ⟨-, -, hway⟩
    · exact hsame
    · exact absurd hway hq
  · have hne : q ≠ Fs.resolve dir entry.name := by
      rintro rfl
      exact hq (List.prefix_refl _)
    exact (Fs.get_write (File.write_some h) q).trans (if_neg hne)

/-- An archive changes nothing but the paths of its entries and the ways there. -/
theorem get_unTarEntries {dir q : Path} {entries : List TarEntry}
    (hq : ∀ entry ∈ entries, ¬ q <+: Fs.resolve dir entry.name) (fs : Fs) :
    (unTarEntries dir entries fs).2.get q = fs.get q := by
  induction entries generalizing fs with
  | nil => rfl
  | cons entry entries ih =>
      rw [List.forall_mem_cons] at hq
      rw [unTarEntries]
      cases hfirst : unTarEntry dir fs entry with
      | none => rfl
      | some fs₁ =>
          rw [← get_unTarEntry hq.1 hfirst]
          exact ih hq.2 fs₁

theorem get_removeAddons {q : Path} {ts : List Text} {shelf : Shelf}
    (hq : ∀ t ∈ ts, ∀ amf ∈ shelf.mf.get t, q ∉ removalPaths w amf.files) :
    (removeAddons w ts shelf).2.fs.get q = shelf.fs.get q := by
  induction ts generalizing shelf with
  | nil => rfl
  | cons t ts ih =>
      rw [List.forall_mem_cons] at hq
      rw [removeAddons]
      cases hfirst : removeAddon w shelf t with
      | none => rfl
      | some shelf₁ =>
          unfold removeAddon at hfirst
          cases hget : shelf.mf.get t with
          | none => simp [hget] at hfirst
          | some amf =>
              simp only [hget, Option.some.injEq] at hfirst
              have hlater : ∀ t' ∈ ts, ∀ amf' ∈ shelf₁.mf.get t',
                  q ∉ removalPaths w amf'.files := by
                intro t' ht' amf' hamf'
                rw [← hfirst, get_remove] at hamf'
                split_ifs at hamf' with heq
                · simp at hamf'
                · exact hq.2 t' ht' amf' hamf'
              have hfirstGet : shelf₁.fs.get q = shelf.fs.get q := by
                rw [← hfirst]
                exact get_deleteAll (hq.1 amf hget) shelf.fs
              exact (ih hlater).trans hfirstGet

theorem get_installAddon {q : Path}
    (hq : ∀ n, ∀ archive ∈ w.deliver n, ∀ entry ∈ archive.entries,
      ¬ q <+: Fs.resolve w.workingDir entry.name) (n : Nat) (shelf : Shelf) (a : Addon) :
    (installAddon w n shelf a).2.fs.get q = shelf.fs.get q := by
  unfold installAddon
  cases hdeliver : w.deliver n with
  | none => rfl
  | some archive =>
      have htar : (unTar w.workingDir archive shelf.fs).2.get q = shelf.fs.get q := by
        rw [unTar_snd, get_unTarEntries (hq n archive hdeliver)]
      rcases hunTar : unTar w.workingDir archive shelf.fs with ⟨names, fs⟩
      rw [hunTar] at htar
      cases names with
      | none => simpa only [hunTar] using htar
      | some files => simpa only [hunTar] using htar

theorem get_installAddons {q : Path}
    (hq : ∀ n, ∀ archive ∈ w.deliver n, ∀ entry ∈ archive.entries,
      ¬ q <+: Fs.resolve w.workingDir entry.name) (as : List Addon) (n : Nat) (shelf : Shelf) :
    (installAddons w n as shelf).2.fs.get q = shelf.fs.get q := by
  induction as generalizing n shelf with
  | nil => rfl
  | cons a as ih =>
      rw [installAddons]
      have hfirst := get_installAddon hq n shelf a
      rcases hrun : installAddon w n shelf a with ⟨ok, shelf₁⟩
      rw [hrun] at hfirst
      cases ok with
      | false => exact hfirst
      | true => exact (ih _ _).trans hfirst

/-- Without a write the file is as it was. -/
theorem get_books_of_unwritten (h : written w s = none) (hspared : Spared w s)
    (hreturns : (downloadAddons w s).1 ≠ none) :
    (downloadAddons w s).2.shelf.fs.get (books w).path = s.shelf.fs.get (books w).path := by
  have hloops : (installed w s).fs.get (books w).path = s.shelf.fs.get (books w).path := by
    have hstart : (working s).fs = s.shelf.fs := by
      unfold working
      split <;> rfl
    rw [installed, get_installAddons hspared.archives, removed, get_removeAddons hspared.removals,
      hstart]
  rw [downloadAddons_eq hreturns, ← hloops]
  by_cases hthrough : extractedIn w s = toInstall w s
  · rw [written, if_pos hthrough, Option.map_eq_none_iff] at h
    rw [if_pos hthrough, h]
    rfl
  · rw [if_neg hthrough, PackState.giveUp]
    dsimp only
    split <;> rfl

end Lists

/-- A pack with one addon, which its file and its entry list. -/
def oneAddon : PackState where
  known := true
  shelf := ⟨packFs, [("a".toList, ⟨"1".toList, ["x".toList]⟩)], [], []⟩

/-- A second addon is installed. -/
def installSecond : AddonCall :=
  callOf [addonOf "a".toList true, addonOf "b".toList true]

/-- Its archive is whole. -/
theorem wholeByName_installSecond :
    WholeByName installSecond 0 (toInstall installSecond oneAddon) := by
  have hsecond : toInstall installSecond oneAddon = [addonOf "b".toList true] := by decide
  rw [hsecond]
  intro a ha
  exact ⟨0, a, by rw [List.mem_singleton.mp ha]; rfl, rfl, rfl⟩

/-- The first addon is removed, and nothing arrives of the second one. -/
def breakSecond : AddonCall :=
  { callOf [addonOf "a".toList false, addonOf "b".toList true] with deliver := fun _ => none }

end AddonBooks
end Client
end ModpackInstaller
