import Mathlib.Data.List.AList
import ModpackInstaller.Text

/-!
# The profiles of an installed pack

Adding the profiles of a pack to those of the launcher, and removing them again.
They are added under the keys of the file {lit}`pack_profiles.json`, with the
directory of the installation; they are looked for by the directory of the pack,
and removed under the names that they have.

Main results:

- Theorem {lit}`lookup_removeFrom_iff`: when a removal takes exactly the profiles of
  a directory out of a map.
- Theorem {lit}`lookup_undone_iff`: when a removal undoes an addition.
- Theorem {lit}`profiles_iff`: both, and that the selected profile exists.
-/

namespace ModpackInstaller
namespace Client
namespace ProfileMap

/-! ## The profiles -/

section Profiles

variable {ρ : Type}

/-- `LauncherProfiles.Profile`; the fields behind the first two are in the rest. -/
structure Profile (ρ : Type) where
  name : Option Text
  gameDir : Option Text
  rest : ρ
deriving DecidableEq, Repr

/-- The profiles by their keys. -/
abbrev Profiles (ρ : Type) := AList fun _ : Text => Profile ρ

/-- The fields of `LauncherProfiles` that are used here. -/
structure LauncherProfiles (ρ : Type) where
  profiles : Option (Profiles ρ)
  selectedProfile : Option Text

/-- The file {lit}`pack_profiles.json` in the directory of a pack. -/
inductive PackProfiles (ρ : Type) where
  | missing
  | unreadable
  | content (profile : LauncherProfiles ρ)

/-- The names of the profiles in a directory. -/
def removeMe (directory : Text) (m : Profiles ρ) : List (Option Text) :=
  (m.entries.filter fun e => decide (e.2.gameDir = some directory)).map fun e => e.2.name

/-- The body of `removeLauncherProfiles`.  At a profile without `gameDir` it ends in
front of the removals. -/
def removeFrom (directory : Text) (m : Profiles ρ) : Profiles ρ :=
  if m.entries.any fun e => e.2.gameDir.isNone then m
  else
    (removeMe directory m).foldl
      (fun m t => match t with
        | none => m
        | some t => m.erase t) m

/-- `removeLauncherProfiles` -/
def removeLauncherProfiles (directory : Text) (s : LauncherProfiles ρ) : LauncherProfiles ρ :=
  match s.profiles with
  | none => s
  | some m => { s with profiles := some (removeFrom directory m) }

/-- The profiles with another `gameDir`. -/
def withGameDir (workingDir : Text) (m : Profiles ρ) : Profiles ρ where
  entries := m.entries.map (Sigma.map id fun _ u => { u with gameDir := some workingDir })
  nodupKeys := m.nodupKeys.map₂ _ _

/-- `addLauncherProfiles`; `none` when it throws. -/
def addLauncherProfiles (workingDir : Text) (file : PackProfiles ρ) (s : LauncherProfiles ρ) :
    Option (LauncherProfiles ρ) :=
  match file with
  | .missing => some s
  | .unreadable => none
  | .content profile =>
    match profile.profiles, s.profiles with
    | some added, some m =>
      some ⟨some (withGameDir workingDir added ∪ m), profile.selectedProfile⟩
    | _, _ => none

/-- The profile of a key. -/
def LauncherProfiles.get (s : LauncherProfiles ρ) (key : Text) : Option (Profile ρ) :=
  s.profiles.bind (AList.lookup key)

/-! ## Lookups -/

/-- Each added profile gets the working directory. -/
theorem lookup_withGameDir (workingDir : Text) (m : Profiles ρ) (key : Text) :
    (withGameDir workingDir m).lookup key =
      (m.lookup key).map fun u => { u with gameDir := some workingDir } :=
  List.dlookup_map₂ key

/-- The name of a profile in the directory. -/
theorem mem_removeMe {directory : Text} {m : Profiles ρ} {t : Option Text} :
    t ∈ removeMe directory m ↔
      ∃ key p, m.lookup key = some p ∧ p.gameDir = some directory ∧ p.name = t := by
  simp only [removeMe, List.mem_map, List.mem_filter, decide_eq_true_eq]
  constructor
  · rintro ⟨e, ⟨he, hdir⟩, hname⟩
    exact ⟨e.1, e.2, AList.mem_lookup_iff.mpr he, hdir, hname⟩
  · rintro ⟨key, p, hp, hdir, hname⟩
    exact ⟨⟨key, p⟩, ⟨AList.mem_lookup_iff.mp hp, hdir⟩, hname⟩

/-- Erasing a list of names takes away exactly those. -/
theorem lookup_erase_all (names : List (Option Text)) (m : Profiles ρ) (key : Text) :
    (names.foldl (fun m t => match t with | none => m | some t => m.erase t) m).lookup key =
      if some key ∈ names then none else m.lookup key := by
  induction names generalizing m with
  | nil => simp
  | cons t names ih =>
      rw [List.foldl_cons, ih]
      cases t with
      | none => simp
      | some t =>
          by_cases ht : key = t
          · rw [ht]
            simp
          · rw [AList.lookup_erase_ne ht]
            simp [ht]

/-- Every profile has a `gameDir`. -/
def Placed (m : Profiles ρ) : Prop :=
  ∀ key p, m.lookup key = some p → p.gameDir ≠ none

/-- A file with an unplaced profile stays as it is: the loop throws before it erases. -/
theorem removeFrom_of_not_placed {directory : Text} {m : Profiles ρ} (h : ¬ Placed m) :
    removeFrom directory m = m := by
  rw [removeFrom, if_pos]
  by_contra hany
  refine h fun key p hp hnone => hany ?_
  exact List.any_eq_true.mpr ⟨⟨key, p⟩, AList.mem_lookup_iff.mp hp, by simp [hnone]⟩

/-- A removal takes away the profiles whose names the loop collects. -/
theorem lookup_removeFrom {directory : Text} {m : Profiles ρ} (h : Placed m) (key : Text) :
    (removeFrom directory m).lookup key =
      if some key ∈ removeMe directory m then none else m.lookup key := by
  rw [removeFrom, if_neg, lookup_erase_all]
  intro hany
  obtain ⟨e, he, hnone⟩ := List.any_eq_true.mp hany
  exact h e.1 e.2 (AList.mem_lookup_iff.mpr he) (by simpa using hnone)

/-- A removal keeps a profile as it is or takes it out. -/
theorem lookup_removeFrom_or (directory : Text) (m : Profiles ρ) (key : Text) :
    (removeFrom directory m).lookup key = m.lookup key ∨
      (removeFrom directory m).lookup key = none := by
  by_cases h : Placed m
  · rw [lookup_removeFrom h]
    split_ifs
    · exact Or.inr rfl
    · exact Or.inl rfl
  · rw [removeFrom_of_not_placed h]
    exact Or.inl rfl

/-! ## Exact removals -/

/-- The profile when it is in another directory. -/
def elsewhere (directory : Text) (p : Option (Profile ρ)) : Option (Profile ρ) :=
  p.filter fun p => decide (p.gameDir ≠ some directory)

/-- No profile is in the directory, or every profile has a `gameDir` and those in the
directory have each other's keys for names. -/
def Filed (directory : Text) (get : Text → Option (Profile ρ)) : Prop :=
  (∀ key p, get key = some p → p.gameDir ≠ some directory) ∨
    ∀ key p, get key = some p → p.gameDir ≠ none ∧ (p.gameDir = some directory →
      ∃ key' q, get key' = some q ∧ q.gameDir = some directory ∧ q.name = some key)

/-- When the keys of all profiles in a directory are names of such profiles, the names are
no other keys: there are as many of both. -/
theorem named_only {directory : Text} {m : Profiles ρ}
    (h : ∀ key p, m.lookup key = some p → p.gameDir = some directory →
      some key ∈ removeMe directory m) {key : Text} (hkey : some key ∈ removeMe directory m) :
    ∃ p, m.lookup key = some p ∧ p.gameDir = some directory := by
  let inside := m.entries.filter fun e => decide (e.2.gameDir = some directory)
  let keys := inside.map fun e => some e.1
  have hnodup : keys.Nodup := by
    have hkeys : (inside.map Sigma.fst).Nodup :=
      m.keys_nodup.sublist (List.filter_sublist.map Sigma.fst)
    have hsome : keys = (inside.map Sigma.fst).map some := by
      rw [List.map_map]
      rfl
    rw [hsome]
    exact hkeys.map fun _ _ h => Option.some.inj h
  have hsubset : keys ⊆ removeMe directory m := by
    intro t ht
    obtain ⟨e, he, rfl⟩ := List.mem_map.mp ht
    obtain ⟨he, hdir⟩ := List.mem_filter.mp he
    exact h e.1 e.2 (AList.mem_lookup_iff.mpr he) (by simpa using hdir)
  have hlength : (removeMe directory m).length ≤ keys.length := by
    simp only [removeMe, keys, inside, List.length_map, le_refl]
  have hperm := (List.subperm_of_subset hnodup hsubset).perm_of_length_le hlength
  obtain ⟨e, he, heq⟩ := List.mem_map.mp (hperm.mem_iff.mpr hkey)
  obtain ⟨he, hdir⟩ := List.mem_filter.mp he
  rw [← Option.some.inj heq]
  exact ⟨e.2, AList.mem_lookup_iff.mpr he, by simpa using hdir⟩

/-- A profile of another directory is kept. -/
theorem elsewhere_eq_self {directory : Text} {p : Option (Profile ρ)}
    (h : ∀ q, p = some q → q.gameDir ≠ some directory) : elsewhere directory p = p := by
  cases p with
  | none => rfl
  | some q => simp [elsewhere, h q rfl]

/-- A profile of the directory is not. -/
theorem elsewhere_eq_none {directory : Text} {q : Profile ρ} (h : q.gameDir = some directory) :
    elsewhere directory (some q) = none := by
  simp [elsewhere, h]

/-- A removal takes exactly the profiles of a directory out of a map when they are filed. -/
theorem lookup_removeFrom_iff (directory : Text) (m : Profiles ρ) :
    (∀ key, (removeFrom directory m).lookup key = elsewhere directory (m.lookup key)) ↔
      Filed directory fun key => m.lookup key := by
  constructor
  · intro h
    by_cases hplaced : Placed m
    · refine Or.inr fun key p hp => ⟨hplaced key p hp, fun hdir => ?_⟩
      have hremoved := h key
      have hget : m.lookup key = some p := hp
      rw [lookup_removeFrom hplaced, hget, elsewhere_eq_none hdir] at hremoved
      split_ifs at hremoved with hmem
      exact mem_removeMe.mp hmem
    · refine Or.inl fun key p hp hdir => ?_
      have hkept := h key
      have hget : m.lookup key = some p := hp
      rw [removeFrom_of_not_placed hplaced, hget, elsewhere_eq_none hdir] at hkept
      cases hkept
  · rintro (hnone | hfiled) key
    · have hempty : ∀ t, t ∉ removeMe directory m := by
        intro t ht
        obtain ⟨key', p, hp, hdir, -⟩ := mem_removeMe.mp ht
        exact hnone key' p hp hdir
      rw [elsewhere_eq_self fun q hq => hnone key q hq]
      by_cases hplaced : Placed m
      · rw [lookup_removeFrom hplaced, if_neg (hempty _)]
      · rw [removeFrom_of_not_placed hplaced]
    · have hplaced : Placed m := fun key p hp => (hfiled key p hp).1
      rw [lookup_removeFrom hplaced]
      split_ifs with hmem
      · obtain ⟨p, hp, hdir⟩ := named_only
          (fun key p hp hdir => mem_removeMe.mpr ((hfiled key p hp).2 hdir)) hmem
        rw [hp, elsewhere_eq_none hdir]
      · refine (elsewhere_eq_self fun q hq hdir => hmem ?_).symm
        exact mem_removeMe.mpr ((hfiled key q hq).2 hdir)

/-! ## Removals behind additions -/

/-- The profiles behind an addition. -/
def merged (workingDir : Text) (added get : Text → Option (Profile ρ)) (key : Text) :
    Option (Profile ρ) :=
  match added key with
  | none => get key
  | some u => some { u with gameDir := some workingDir }

/-- The added profiles go in front of those of the file. -/
theorem lookup_union (workingDir : Text) (added m : Profiles ρ) (key : Text) :
    (withGameDir workingDir added ∪ m).lookup key =
      merged workingDir (fun key => added.lookup key) (fun key => m.lookup key) key := by
  have hown := lookup_withGameDir workingDir added key
  cases hadded : added.lookup key with
  | none =>
      rw [hadded, Option.map_none] at hown
      simp only [merged, hadded]
      exact AList.lookup_union_right (AList.lookup_eq_none.mp hown)
  | some u =>
      rw [hadded, Option.map_some] at hown
      simp only [merged, hadded]
      rw [AList.lookup_union_left (AList.lookup_isSome.mp (by rw [hown]; rfl)), hown]

/-- Into the directory of the pack an addition puts no profile in the place of another
one; into another directory it puts what is there already. -/
def Harmless (directory workingDir : Text) (added get : Text → Option (Profile ρ)) : Prop :=
  ∀ key u, added key = some u →
    if workingDir = directory then ∀ p, get key = some p → p.gameDir = some directory
    else get key = some { u with gameDir := some workingDir }

/-- An addition is harmless when it leaves the profiles of other directories as they are. -/
theorem harmless_iff (directory workingDir : Text) (added get : Text → Option (Profile ρ)) :
    Harmless directory workingDir added get ↔
      ∀ key, elsewhere directory (merged workingDir added get key) =
        elsewhere directory (get key) := by
  refine forall_congr' fun key => ?_
  cases hadded : added key with
  | none => simp [merged, hadded]
  | some u =>
      simp only [Option.some.injEq, forall_eq', merged, hadded]
      by_cases hdir : workingDir = directory
      · rw [if_pos hdir, elsewhere_eq_none (by rw [hdir]), eq_comm, elsewhere,
          Option.filter_eq_none_iff]
        simp
      · have hother : ({ u with gameDir := some workingDir } : Profile ρ).gameDir ≠
            some directory := by simpa using hdir
        have hself : elsewhere directory (some { u with gameDir := some workingDir }) =
            some { u with gameDir := some workingDir } :=
          elsewhere_eq_self fun q hq => Option.some.inj hq ▸ hother
        rw [if_neg hdir]
        constructor
        · intro h
          rw [h]
        · intro h
          rw [hself] at h
          exact (Option.filter_eq_some_iff.mp h.symm).1

section Undone

variable {directory workingDir : Text} {added m : Profiles ρ}

/-- A key that is not added keeps its profile. -/
theorem merged_of_none {key : Text} (h : added.lookup key = none) :
    (withGameDir workingDir added ∪ m).lookup key = m.lookup key := by
  simp only [lookup_union, merged, h]

/-- A key that is added gets the new profile. -/
theorem merged_of_some {key : Text} {u : Profile ρ} (h : added.lookup key = some u) :
    (withGameDir workingDir added ∪ m).lookup key =
      some { u with gameDir := some workingDir } := by
  simp only [lookup_union, merged, h]

/-- A removal that undoes an addition takes no profile of another directory out: then it
would have to keep one in the directory of the pack. -/
theorem not_removed_of_undone (hdir : workingDir ≠ directory)
    (h : ∀ key, (removeFrom directory (withGameDir workingDir added ∪ m)).lookup key =
      elsewhere directory (m.lookup key)) {key : Text} {u : Profile ρ}
    (hadded : added.lookup key = some u) :
    (removeFrom directory (withGameDir workingDir added ∪ m)).lookup key ≠ none := by
  intro hremoved
  by_cases hplaced : Placed (withGameDir workingDir added ∪ m)
  · have hkey : some key ∈ removeMe directory (withGameDir workingDir added ∪ m) := by
      rw [lookup_removeFrom hplaced, merged_of_some hadded] at hremoved
      split_ifs at hremoved with hmem
      exact hmem
    have hall : ∀ key' p, (withGameDir workingDir added ∪ m).lookup key' = some p →
        p.gameDir = some directory →
          some key' ∈ removeMe directory (withGameDir workingDir added ∪ m) := by
      intro key' p hp hpdir
      have hold : added.lookup key' = none := by
        cases hnew : added.lookup key' with
        | none => rfl
        | some w =>
            rw [merged_of_some hnew, Option.some.injEq] at hp
            rw [← hp] at hpdir
            exact absurd (Option.some.inj hpdir) hdir
      have hsame : (withGameDir workingDir added ∪ m).lookup key' = m.lookup key' :=
        merged_of_none hold
      have hgone := h key'
      rw [← hsame, hp, elsewhere_eq_none hpdir, lookup_removeFrom hplaced, hp] at hgone
      split_ifs at hgone with hmem
      exact hmem
    obtain ⟨p, hp, hpdir⟩ := named_only hall hkey
    rw [merged_of_some hadded, Option.some.injEq] at hp
    rw [← hp] at hpdir
    exact hdir (Option.some.inj hpdir)
  · rw [removeFrom_of_not_placed hplaced, merged_of_some hadded] at hremoved
    cases hremoved

/-- A removal that undoes an addition takes exactly the profiles of the directory out. -/
theorem exact_of_undone
    (h : ∀ key, (removeFrom directory (withGameDir workingDir added ∪ m)).lookup key =
      elsewhere directory (m.lookup key)) (key : Text) :
    (removeFrom directory (withGameDir workingDir added ∪ m)).lookup key =
      elsewhere directory ((withGameDir workingDir added ∪ m).lookup key) := by
  have hor := lookup_removeFrom_or directory (withGameDir workingDir added ∪ m) key
  cases hadded : added.lookup key with
  | none => rw [merged_of_none hadded, h key]
  | some u =>
      rw [merged_of_some hadded] at hor ⊢
      by_cases hdir : workingDir = directory
      · rw [elsewhere_eq_none (by rw [hdir])]
        rcases hor with hkept | hremoved
        · have hself := (h key).symm.trans hkept
          have hpdir := (Option.filter_eq_some_iff.mp hself).2
          simp [hdir] at hpdir
        · exact hremoved
      · rw [elsewhere_eq_self (by simpa using hdir)]
        exact hor.resolve_right (not_removed_of_undone hdir h hadded)

/-- A removal undoes an addition to a map when the profiles behind the addition are filed
and the addition harms no other profile. -/
theorem lookup_undone_iff :
    (∀ key, (removeFrom directory (withGameDir workingDir added ∪ m)).lookup key =
        elsewhere directory (m.lookup key)) ↔
      Filed directory (merged workingDir (fun key => added.lookup key) fun key => m.lookup key) ∧
        Harmless directory workingDir (fun key => added.lookup key) fun key => m.lookup key := by
  have hunion : (merged workingDir (fun key => added.lookup key) fun key => m.lookup key) =
      fun key => (withGameDir workingDir added ∪ m).lookup key :=
    funext fun key => (lookup_union workingDir added m key).symm
  rw [harmless_iff, hunion, ← lookup_removeFrom_iff]
  constructor
  · intro h
    refine ⟨exact_of_undone h, fun key => ?_⟩
    rw [← exact_of_undone h, h key]
  · rintro ⟨hexact, hharmless⟩ key
    rw [hexact key, hharmless key]

end Undone

/-! ## The two routines -/

/-- The profile of a key in the file of a pack. -/
def PackProfiles.get (file : PackProfiles ρ) (key : Text) : Option (Profile ρ) :=
  match file with
  | .content profile => profile.get key
  | _ => none

/-- The profile that is selected behind an addition. -/
def PackProfiles.selected (file : PackProfiles ρ) (s : LauncherProfiles ρ) : Option Text :=
  match file with
  | .content profile => profile.selectedProfile
  | _ => s.selectedProfile

/-- The selected profile exists. -/
def Valid (s : LauncherProfiles ρ) : Prop :=
  ∀ key ∈ s.selectedProfile, s.get key ≠ none

/-- A removal takes exactly the profiles of the directory out, behind an addition too,
and the selected profile exists throughout. -/
structure Removable (directory : Text) (s added : LauncherProfiles ρ) : Prop where
  removed : ∀ key, (removeLauncherProfiles directory s).get key = elsewhere directory (s.get key)
  undone : ∀ key,
    (removeLauncherProfiles directory added).get key = elsewhere directory (s.get key)
  selectedRemoved : Valid (removeLauncherProfiles directory s)
  selectedAdded : Valid added
  selectedUndone : Valid (removeLauncherProfiles directory added)

section Routines

variable {directory workingDir : Text} {file : PackProfiles ρ} {s added : LauncherProfiles ρ}

/-- A removal leaves the selected profile as it is. -/
theorem selected_remove (directory : Text) (s : LauncherProfiles ρ) :
    (removeLauncherProfiles directory s).selectedProfile = s.selectedProfile := by
  unfold removeLauncherProfiles
  split <;> rfl

/-- A removal keeps a profile or takes it away; it changes none. -/
theorem get_remove_or (directory : Text) (s : LauncherProfiles ρ) (key : Text) :
    (removeLauncherProfiles directory s).get key = s.get key ∨
      (removeLauncherProfiles directory s).get key = none := by
  unfold removeLauncherProfiles
  cases hs : s.profiles with
  | none => exact Or.inl rfl
  | some m =>
      simp only [LauncherProfiles.get, hs, Option.bind_some]
      exact lookup_removeFrom_or directory m key

/-- Exactly the profiles of the directory are gone if and only if the file is well filed. -/
theorem get_remove_iff (directory : Text) (s : LauncherProfiles ρ) :
    (∀ key, (removeLauncherProfiles directory s).get key = elsewhere directory (s.get key)) ↔
      Filed directory s.get := by
  unfold removeLauncherProfiles
  cases hs : s.profiles with
  | none =>
      have hnone : ∀ key, s.get key = none := fun key => by simp [LauncherProfiles.get, hs]
      refine iff_of_true (fun key => ?_) (Or.inl fun key p hp => ?_)
      · rw [hnone key]
        rfl
      · rw [hnone key] at hp
        cases hp
  | some m =>
      have hget : s.get = fun key => m.lookup key :=
        funext fun key => by simp [LauncherProfiles.get, hs]
      rw [hget]
      exact lookup_removeFrom_iff directory m

/-- An addition from a file puts its profiles in front of those that are there. -/
theorem addLauncherProfiles_content {profile : LauncherProfiles ρ}
    (h : addLauncherProfiles workingDir (.content profile) s = some added) :
    ∃ new m, profile.profiles = some new ∧ s.profiles = some m ∧
      added = ⟨some (withGameDir workingDir new ∪ m), profile.selectedProfile⟩ := by
  unfold addLauncherProfiles at h
  dsimp only at h
  split at h
  · rename_i new m hnew hm
    exact ⟨new, m, hnew, hm, (Option.some.inj h).symm⟩
  · cases h

/-- When a removal undoes an addition. -/
theorem get_undone_iff (h : addLauncherProfiles workingDir file s = some added) :
    (∀ key, (removeLauncherProfiles directory added).get key = elsewhere directory (s.get key)) ↔
      Filed directory (merged workingDir file.get s.get) ∧
        Harmless directory workingDir file.get s.get := by
  cases file with
  | missing =>
      rw [← Option.some.inj h, get_remove_iff]
      refine (and_iff_left ?_).symm
      intro key u hu
      cases hu
  | unreadable => cases h
  | content profile =>
      obtain ⟨new, m, hnew, hm, rfl⟩ := addLauncherProfiles_content h
      have hget : s.get = fun key => m.lookup key :=
        funext fun key => by simp [LauncherProfiles.get, hm]
      have hfile : (PackProfiles.content profile).get = fun key => new.lookup key :=
        funext fun key => by simp [PackProfiles.get, LauncherProfiles.get, hnew]
      rw [hget, hfile]
      exact lookup_undone_iff

/-- The selected profile of the result is the one that the added file selects. -/
theorem selected_added (h : addLauncherProfiles workingDir file s = some added) :
    added.selectedProfile = file.selected s := by
  cases file with
  | missing => exact congrArg LauncherProfiles.selectedProfile (Option.some.inj h).symm
  | unreadable => cases h
  | content profile =>
      obtain ⟨new, m, -, -, rfl⟩ := addLauncherProfiles_content h
      rfl

/-- The profiles of a pack are removed exactly, behind an addition too, and the selected
profile exists throughout, exactly when the profiles are filed in front of the addition and
behind it, the addition harms no other profile, and the profile that is selected in front of
it and the one that it selects are profiles of other directories. -/
theorem profiles_iff (h : addLauncherProfiles workingDir file s = some added) :
    Removable directory s added ↔
      Filed directory s.get ∧
        (Filed directory (merged workingDir file.get s.get) ∧
          Harmless directory workingDir file.get s.get) ∧
        (∀ key ∈ s.selectedProfile, elsewhere directory (s.get key) ≠ none) ∧
        ∀ key ∈ file.selected s, elsewhere directory (s.get key) ≠ none := by
  rw [← get_remove_iff, ← get_undone_iff h, ← selected_added h]
  constructor
  · rintro ⟨hremoved, hundone, hselected, -, hselectedUndone⟩
    refine ⟨hremoved, hundone, fun key hkey => ?_, fun key hkey => ?_⟩
    · rw [← hremoved key]
      exact hselected key (by rwa [selected_remove])
    · rw [← hundone key]
      exact hselectedUndone key (by rwa [selected_remove])
  · rintro ⟨hremoved, hundone, hselected, hselectedAdded⟩
    have hafter : Valid (removeLauncherProfiles directory added) := by
      intro key hkey
      rw [selected_remove] at hkey
      rw [hundone key]
      exact hselectedAdded key hkey
    refine ⟨hremoved, hundone, fun key hkey => ?_, fun key hkey hnone => ?_, hafter⟩
    · rw [selected_remove] at hkey
      rw [hremoved key]
      exact hselected key hkey
    · have hgone := get_remove_or directory added key
      rw [hnone, or_self] at hgone
      exact hafter key (by rwa [selected_remove]) hgone

end Routines

end Profiles

/-! ## Maps that fit, and maps that do not -/

/-- A map of one profile has that profile only. -/
theorem lookup_singleton {key k : Text} {p q : Profile Unit}
    (h : (AList.singleton k q : Profiles Unit).lookup key = some p) : key = k ∧ p = q := by
  have hmem := AList.mem_lookup_iff.mp h
  rw [AList.singleton_entries, List.mem_singleton, Sigma.mk.injEq] at hmem
  exact ⟨hmem.1, eq_of_heq hmem.2⟩

/-- One profile, in a directory of its own. -/
def survival : LauncherProfiles Unit :=
  ⟨some (AList.singleton ['s'] ⟨some ['s'], some "/mc".toList, ()⟩), some ['s']⟩

/-- The file of a pack with one profile. -/
def skyblock (selected : Text) : PackProfiles Unit :=
  .content ⟨some (AList.singleton ['k'] ⟨some ['k'], none, ()⟩), some selected⟩

/-- The launcher's own profile, which has no `gameDir`, beside one of a pack. -/
def withDefault : LauncherProfiles Unit :=
  ⟨some (AList.insert ['d'] ⟨some ['d'], none, ()⟩
    (AList.singleton ['k'] ⟨some ['k'], some "/sky".toList, ()⟩)), some ['d']⟩

/-- A profile of a pack that has the name of another profile. -/
def renamed : LauncherProfiles Unit :=
  ⟨some (AList.insert ['k'] ⟨some ['s'], some "/sky".toList, ()⟩
    (AList.singleton ['s'] ⟨some ['s'], some "/mc".toList, ()⟩)), some ['s']⟩

/-- Beside a profile without `gameDir` nothing is removed, a renamed profile stays and
takes another one out, and behind an addition the selected profile is removed. -/
theorem profiles_fails :
    (removeLauncherProfiles "/sky".toList withDefault).get ['k'] =
        some ⟨some ['k'], some "/sky".toList, ()⟩ ∧
      ((removeLauncherProfiles "/sky".toList renamed).get ['k'] =
          some ⟨some ['s'], some "/sky".toList, ()⟩ ∧
        (removeLauncherProfiles "/sky".toList renamed).get ['s'] = none) ∧
      ∃ added, addLauncherProfiles "/sky".toList (skyblock ['k']) survival = some added ∧
        (removeLauncherProfiles "/sky".toList added).selectedProfile = some ['k'] ∧
        (removeLauncherProfiles "/sky".toList added).get ['k'] = none := by
  refine ⟨by decide, ⟨by decide, by decide⟩, _, rfl, by decide, by decide⟩

/-- One modpack's profile added to a launcher with another one. -/
theorem profiles_skyblock :
    ∃ added, addLauncherProfiles "/sky".toList (skyblock ['s']) survival = some added ∧
      Removable "/sky".toList survival added := by
  have hadds : addLauncherProfiles "/sky".toList (skyblock ['s']) survival = some _ := rfl
  refine ⟨_, hadds, (profiles_iff hadds).mpr ⟨?_, ⟨?_, ?_⟩, ?_, ?_⟩⟩
  · refine Or.inl fun key p hp => ?_
    obtain ⟨-, rfl⟩ := lookup_singleton hp
    decide
  · refine Or.inr fun key p hp => ?_
    unfold merged at hp
    split at hp
    · obtain ⟨-, rfl⟩ := lookup_singleton hp
      exact ⟨by decide, fun h => absurd h (by decide)⟩
    · rename_i u hu
      obtain ⟨rfl, rfl⟩ := lookup_singleton hu
      obtain rfl := Option.some.inj hp
      exact ⟨by decide, fun _ => ⟨['k'], _, rfl, rfl, rfl⟩⟩
  · intro key u hu
    obtain ⟨rfl, rfl⟩ := lookup_singleton hu
    rw [if_pos rfl]
    intro p hp
    cases hp
  · intro key hkey
    cases hkey
    decide
  · intro key hkey
    cases hkey
    decide

end ProfileMap
end Client
end ModpackInstaller
