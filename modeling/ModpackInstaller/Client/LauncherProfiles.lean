import ModpackInstaller.Library.Binding

/-!
# The profiles of the launcher

The file {lit}`launcher_profiles.json` belongs to the launcher.  On every start
{lit}`InstallPanel.initialize` reads it into the class {lit}`LauncherProfiles` and
{lit}`InstallPanel.writeFiles` writes it again, so that only what the class has a
field for, and as the field has it, is still there.

Main results:

- Theorem {lit}`others_kept_iff`: the members apart from the profiles are unchanged
  exactly when they fit their fields and there are no others.
- Theorem {lit}`profiles_kept_iff`: the profiles of no installed pack are unchanged
  exactly when they fit the class {lit}`Profile`.
- Theorem {lit}`unchanged_iff`: the document is unchanged exactly when both hold.
- Theorem {lit}`unchanged_fails`: the default profile, the version of the launcher
  and a member of a later launcher.
-/

namespace ModpackInstaller
namespace Client
namespace LauncherProfiles

open Library

/-! ## The class -/

/-- `LauncherProfiles.LauncherVersion` -/
def launcherVersion : Fields :=
  .cons "name".toList .string <|
  .cons "format".toList .string .nil

/-- `LauncherProfiles.AuthDB` -/
def authDB : Fields :=
  .cons "username".toList .string <|
  .cons "accessToken".toList .string <|
  .cons "userid".toList .string <|
  .cons "uuid".toList .string <|
  .cons "displayName".toList .string .nil

/-- `LauncherProfiles.Profile` -/
def profile : Fields :=
  .cons "name".toList .string <|
  .cons "gameDir".toList .string <|
  .cons "lastVersionId".toList .string <|
  .cons "javaDir".toList .string <|
  .cons "javaArgs".toList .string <|
  .cons "useHopperCrashService".toList .boolean <|
  .cons "launcherVisibilityOnGameClose".toList .string <|
  .cons "resolution".toList (.map .integer) <|
  .cons "allowedReleaseTypes".toList (.list .string) .nil

/-- The name of the field with the profiles. -/
def profilesName : Text :=
  "profiles".toList

/-- The fields of `LauncherProfiles` behind the first one. -/
def others : Fields :=
  .cons "selectedProfile".toList .string <|
  .cons "clientToken".toList .string <|
  .cons "authenticationDatabase".toList (.map (.object authDB)) <|
  .cons "selectedUser".toList .string <|
  .cons "launcherVersion".toList (.object launcherVersion) .nil

/-- The fields of `LauncherProfiles`. -/
def launcherProfiles : Fields :=
  .cons profilesName (.map (.object profile)) others

theorem proper_launcherProfiles : launcherProfiles.Proper := by
  decide

/-! ## Reading and writing the file -/

section Rewriting

variable (nextInt : Text → Option Int)

/-- The file when the installer starts. -/
inductive ProfileFile where
  | missing
  /-- The profiles are made from those of the installed packs. -/
  | unreadable (recreated : Obj)
  | content (document : Json)

/-- A new `LauncherProfiles` with an empty map. -/
def newProfiles : Obj :=
  .members [(profilesName, .members []), ("selectedProfile".toList, .null),
    ("clientToken".toList, .null), ("authenticationDatabase".toList, .null),
    ("selectedUser".toList, .null), ("launcherVersion".toList, .null)]

/-- The part of `initialize` that is about the profiles; `none` when it throws. -/
def initializeProfiles : ProfileFile → Option Obj
  | .missing => some newProfiles
  | .unreadable recreated => some recreated
  | .content document => fromJson nextInt (.object launcherProfiles) document

/-- What `writeFiles` writes for the profiles. -/
def writeFiles (profiles : Obj) : Json :=
  toJson profiles

/-- The document behind a start of the installer. -/
def rewritten (document : Json) : Option Json :=
  (initializeProfiles nextInt (.content document)).map writeFiles

end Rewriting

/-! ## Unchanged documents -/

/-- The profile of a name. -/
def profileOf (document : Json) (name : Text) : Option Json :=
  (document.member profilesName).bind (Json.member name)

/-- The profile runs in the directory of an installed pack. -/
def Belongs (installed : List Text) (p : Json) : Prop :=
  ∃ directory ∈ installed, p.member "gameDir".toList = some (.string directory)

/-- No member of the document is lost, added or changed, and neither is a member of
a profile that belongs to no installed pack. -/
structure Unchanged (installed : List Text) (document written : Json) : Prop where
  others : ∀ name, name ≠ profilesName →
    (written.member name).map Json.value = (document.member name).map Json.value
  profiles : (written.member profilesName).isSome = (document.member profilesName).isSome
  each : ∀ name, (∀ p ∈ profileOf document name, ¬ Belongs installed p) →
    (profileOf written name).map Json.value = (profileOf document name).map Json.value

section Condition

variable (nextInt : Text → Option Int)

/-- The class has a field for everything in the document, which takes it as it is;
the profiles of installed packs can be read. -/
def Covers (installed : List Text) : Json → Prop
  | .null => True
  | .object members =>
    (FitsFields others members ∧ ∀ e ∈ members, e.1 ∈ launcherProfiles.names) ∧
      match lookup profilesName members with
      | none => True
      | some (.object ps) =>
        (ps.map Prod.fst).Nodup ∧ ∀ e ∈ ps, Bindable nextInt (.object profile) e.2 ∧
          (¬ Belongs installed e.2 → Fits (.object profile) e.2)
      | some _ => False
  | _ => False

/-- The members apart from the profiles are unchanged exactly when they fit their
fields and there are no others. -/
theorem others_kept_iff {members : List (Text × Json)} {vs : List (Text × Obj)}
    (hvs : fromFields nextInt others members = some vs) (v : Obj) :
    (∀ k, k ≠ profilesName →
      (lookup k (membersJson ((profilesName, v) :: vs))).map Json.value =
        (lookup k members).map Json.value) ↔
      FitsFields others members ∧ ∀ e ∈ members, e.1 ∈ launcherProfiles.names := by
  have hproper := proper_launcherProfiles
  have hbeside : ∀ k, k ≠ profilesName →
      lookup k (membersJson ((profilesName, v) :: vs)) = lookup k (membersJson vs) := by
    intro k hk
    rw [lookup_membersJson_cons, if_neg fun h => hk h.1.symm]
  have hfits : FitsFields others members ↔ ∀ k ∈ others.names,
      (lookup k (membersJson vs)).map Json.value = (lookup k members).map Json.value := by
    rw [← keptFields_iff nextInt others hproper.2.2, hvs]
    simp
  rw [hfits]
  constructor
  · intro h
    refine ⟨fun k hk => ?_, fun e he => ?_⟩
    · have hne : k ≠ profilesName := by
        rintro rfl
        exact hproper.1 hk
      rw [← hbeside k hne, h k hne]
    · rw [launcherProfiles, Fields.names, List.mem_cons]
      by_contra hname
      rw [not_or] at hname
      have hmember := h e.1 hname.1
      have habsent : lookup e.1 (membersJson vs) = none :=
        lookup_membersJson_eq_none (fromFields_names nextInt hvs ▸ hname.2)
      rw [hbeside e.1 hname.1, habsent, Option.map_none, eq_comm, Option.map_eq_none_iff,
        lookup_eq_none] at hmember
      exact hmember e he rfl
  · rintro ⟨hfields, hnames⟩ k hk
    rw [hbeside k hk]
    by_cases hmem : k ∈ others.names
    · exact hfields k hmem
    · have hnone : lookup k members = none := by
        rw [lookup_eq_none]
        rintro e he rfl
        have hname := hnames e he
        rw [launcherProfiles, Fields.names, List.mem_cons] at hname
        exact hname.elim hk hmem
      have habsent : lookup k (membersJson vs) = none :=
        lookup_membersJson_eq_none (fromFields_names nextInt hvs ▸ hmem)
      rw [hnone, habsent]

/-- The profiles of no installed pack are unchanged exactly when they fit the class
{lit}`Profile`. -/
theorem profiles_kept_iff {ps : List (Text × Json)} {entries : List (Text × Obj)}
    (hnodup : (ps.map Prod.fst).Nodup)
    (hread : readEntries (fun j => fromJson nextInt (.object profile) j) ps = some entries)
    (installed : List Text) :
    (∀ k, (∀ p ∈ lookup k ps, ¬ Belongs installed p) →
      (lookup k (membersJson entries)).map Json.value = (lookup k ps).map Json.value) ↔
      ∀ e ∈ ps, ¬ Belongs installed e.2 → Fits (.object profile) e.2 := by
  have hproper : (Ty.object profile).Proper := proper_launcherProfiles.2.1
  have hkept : ∀ k, ∀ p ∈ lookup k ps,
      (lookup k (membersJson entries)).map Json.value = (lookup k ps).map Json.value ↔
        Fits (.object profile) p := by
    intro k p hp
    rw [lookup_map hnodup hread, Option.mem_def.mp hp, Option.bind_some, Option.map_some]
    exact kept_iff nextInt _ hproper p
  constructor
  · intro h e he hfree
    have hlookup := lookup_of_mem hnodup he
    refine (hkept e.1 e.2 hlookup).mp (h e.1 fun p hp => ?_)
    rw [hlookup, Option.mem_some_iff] at hp
    exact hp ▸ hfree
  · intro h k hfree
    cases hk : lookup k ps with
    | none => rw [lookup_map hnodup hread, hk, Option.bind_none]
    | some p =>
        rw [← hk]
        exact (hkept k p hk).mpr (h (k, p) (mem_of_lookup hk) (hfree p hk))

/-- The three parts of an unchanged object. -/
theorem unchanged_object_iff {members : List (Text × Json)} {vs : List (Text × Obj)}
    (hvs : fromFields nextInt others members = some vs) (v : Obj) (installed : List Text) :
    Unchanged installed (.object members) (.object (membersJson ((profilesName, v) :: vs))) ↔
      (FitsFields others members ∧ ∀ e ∈ members, e.1 ∈ launcherProfiles.names) ∧
        (written v).isSome = (lookup profilesName members).isSome ∧
        ∀ name, (∀ p ∈ (lookup profilesName members).bind (Json.member name),
          ¬ Belongs installed p) →
          ((written v).bind (Json.member name)).map Json.value =
            ((lookup profilesName members).bind (Json.member name)).map Json.value := by
  have hhead : lookup profilesName (membersJson ((profilesName, v) :: vs)) = written v :=
    lookup_membersJson_head (fromFields_names nextInt hvs ▸ proper_launcherProfiles.1)
  rw [← others_kept_iff nextInt hvs v, ← hhead]
  constructor
  · intro h
    exact ⟨h.others, h.profiles, h.each⟩
  · rintro ⟨hothers, hprofiles, heach⟩
    exact ⟨hothers, hprofiles, heach⟩

/-- What is read for the member with the profiles. -/
def readProfiles : Option Json → Option Obj
  | none => some .null
  | some j => (fromJson nextInt (.map (.object profile)) j).map (setField (.map (.object profile)))

/-- Reading and writing an object whose other members can be read. -/
theorem rewritten_object {members : List (Text × Json)} {vs : List (Text × Obj)}
    (hvs : fromFields nextInt others members = some vs) :
    rewritten nextInt (.object members) =
      (readProfiles nextInt (lookup profilesName members)).map fun v =>
        .object (membersJson ((profilesName, v) :: vs)) := by
  rw [rewritten, initializeProfiles, fromJson, launcherProfiles, fromFields, hvs]
  cases lookup profilesName members with
  | none => rfl
  | some j =>
      rw [readProfiles, Option.map_map, Option.map_map, Option.map_map]
      rfl

theorem rewritten_object_none {members : List (Text × Json)}
    (hvs : fromFields nextInt others members = none) :
    rewritten nextInt (.object members) = none := by
  rw [rewritten, initializeProfiles, fromJson, launcherProfiles, fromFields, hvs]
  cases lookup profilesName members <;> rfl

/-- What fits can be read. -/
theorem exists_of_fitsFields {members : List (Text × Json)} (h : FitsFields others members) :
    ∃ vs, fromFields nextInt others members = some vs := by
  obtain ⟨vs, hvs, -⟩ := (keptFields_iff nextInt others proper_launcherProfiles.2.2 members).mpr h
  exact ⟨vs, hvs⟩

/-- The condition on the member with the profiles. -/
theorem readProfiles_iff (installed : List Text) (l : Option Json) :
    (∃ v, readProfiles nextInt l = some v ∧ (written v).isSome = l.isSome ∧
      ∀ name, (∀ p ∈ l.bind (Json.member name), ¬ Belongs installed p) →
        ((written v).bind (Json.member name)).map Json.value =
          (l.bind (Json.member name)).map Json.value) ↔
      match l with
      | none => True
      | some (.object ps) =>
        (ps.map Prod.fst).Nodup ∧ ∀ e ∈ ps, Bindable nextInt (.object profile) e.2 ∧
          (¬ Belongs installed e.2 → Fits (.object profile) e.2)
      | some _ => False := by
  cases l with
  | none => exact iff_of_true ⟨.null, rfl, rfl, fun _ _ => rfl⟩ trivial
  | some j =>
      cases j with
      | object ps =>
          have hreadable : (∀ e ∈ ps, Bindable nextInt (.object profile) e.2) ↔
              (readEntries (fun j => fromJson nextInt (.object profile) j) ps).isSome = true := by
            rw [readEntries_isSome_iff]
            simp only [fromJson_isSome_iff]
          simp only [readProfiles, fromJson_map_object, forall₂_and]
          by_cases hnodup : (ps.map Prod.fst).Nodup
          · rw [if_pos hnodup, and_iff_right hnodup, hreadable]
            cases hread : readEntries (fun j => fromJson nextInt (.object profile) j) ps with
            | none => simp
            | some entries =>
                rw [← profiles_kept_iff nextInt hnodup hread installed]
                simp [setField, Obj.isNull, written, toJson, Json.member]
          · simp [hnodup]
      | null => simp [readProfiles, fromJson, setField, Obj.isNull, Ty.default, written]
      | _ => simp [readProfiles, fromJson]

/-- A start of the installer leaves the document unchanged exactly when the class
covers it. -/
theorem unchanged_iff (installed : List Text) (document : Json) :
    (∃ written, rewritten nextInt document = some written ∧
        Unchanged installed document written) ↔ Covers nextInt installed document := by
  cases document with
  | null => exact iff_of_true ⟨.null, rfl, fun _ _ => rfl, rfl, fun _ _ => rfl⟩ trivial
  | object members =>
      rw [Covers, ← readProfiles_iff nextInt installed]
      cases hvs : fromFields nextInt others members with
      | none =>
          refine iff_of_false ?_ fun h => ?_
          · rintro ⟨written, hwritten, -⟩
            rw [rewritten_object_none nextInt hvs] at hwritten
            cases hwritten
          · obtain ⟨vs, hsome⟩ := exists_of_fitsFields nextInt h.1.1
            rw [hvs] at hsome
            cases hsome
      | some vs =>
          rw [rewritten_object nextInt hvs]
          constructor
          · rintro ⟨_, hwritten, hunchanged⟩
            obtain ⟨v, hv, rfl⟩ := Option.map_eq_some_iff.mp hwritten
            obtain ⟨hothers, hprofiles⟩ :=
              (unchanged_object_iff nextInt hvs v installed).mp hunchanged
            exact ⟨hothers, v, hv, hprofiles⟩
          · rintro ⟨hothers, v, hv, hprofiles⟩
            refine ⟨_, Option.map_eq_some_iff.mpr ⟨v, hv, rfl⟩, ?_⟩
            exact (unchanged_object_iff nextInt hvs v installed).mpr ⟨hothers, hprofiles⟩
  | _ => simp [rewritten, initializeProfiles, fromJson, Covers]

end Condition

/-- The default profile. -/
def defaultProfile : Json :=
  .object [(profilesName, .object [("d".toList, .object [("name".toList, .string "d".toList)])])]

/-- The version of a launcher. -/
def versioned : Json :=
  .object [("launcherVersion".toList, .object [("name".toList, .string "2.0".toList),
    ("format".toList, .integer 18)])]

/-- The settings of a later launcher. -/
def withSettings : Json :=
  .object [("settings".toList, .object [])]

/-- The default profile gets a member, the format becomes a string, and the settings
are lost. -/
theorem unchanged_fails :
    (rewritten (fun _ => none) defaultProfile =
        some (.object [(profilesName, .object [("d".toList, .object [
          ("name".toList, .string "d".toList), ("useHopperCrashService".toList, .bool false)])])]) ∧
      ¬ ∃ written, rewritten (fun _ => none) defaultProfile = some written ∧
        Unchanged [] defaultProfile written) ∧
    (rewritten (fun _ => none) versioned =
        some (.object [("launcherVersion".toList, .object [("name".toList, .string "2.0".toList),
          ("format".toList, .string "18".toList)])]) ∧
      ¬ ∃ written, rewritten (fun _ => none) versioned = some written ∧
        Unchanged [] versioned written) ∧
    rewritten (fun _ => none) withSettings = some (.object []) ∧
      ¬ ∃ written, rewritten (fun _ => none) withSettings = some written ∧
        Unchanged [] withSettings written := by
  have hadded : rewritten (fun _ => none) defaultProfile =
      some (.object [(profilesName, .object [("d".toList, .object [
        ("name".toList, .string "d".toList),
        ("useHopperCrashService".toList, .bool false)])])]) := rfl
  have hchanged : rewritten (fun _ => none) versioned =
      some (.object [("launcherVersion".toList, .object [("name".toList, .string "2.0".toList),
        ("format".toList, .string "18".toList)])]) := rfl
  have hlost : rewritten (fun _ => none) withSettings = some (.object []) := rfl
  refine ⟨⟨hadded, ?_⟩, ⟨hchanged, ?_⟩, hlost, ?_⟩
  · rintro ⟨written, hwritten, h⟩
    rw [hadded, Option.some.injEq] at hwritten
    subst hwritten
    have hprofile := Option.some.inj (h.each "d".toList fun p _ hp => by simp [Belongs] at hp)
    exact Option.some_ne_none _ (value_object_eq_iff.mp hprofile "useHopperCrashService".toList)
  · rintro ⟨written, hwritten, h⟩
    rw [hchanged, Option.some.injEq] at hwritten
    subst hwritten
    have hversion := Option.some.inj (h.others "launcherVersion".toList (by decide))
    have hformat := Option.some.inj (value_object_eq_iff.mp hversion "format".toList)
    cases hformat
  · rintro ⟨written, hwritten, h⟩
    rw [hlost, Option.some.injEq] at hwritten
    subst hwritten
    exact Option.some_ne_none _ (h.others "settings".toList (by decide)).symm

end LauncherProfiles
end Client
end ModpackInstaller
