import ModpackInstaller.Client.Registry
import ModpackInstaller.Client.Response

/-!
# Checking the list of installed packs

A call of {lit}`checkUpdate` whose questions are all answered, with the marker
files byte for byte: what it returns, what it leaves of the list, and where it
ends with an unchecked exception.  Packs are classified one by one, by the file
in their directory, and removed by name.

Main results:

- Theorem {lit}`checkLoop_eq`: the two lists that the loop collects.
- Theorem {lit}`unregisterEach_eq`: what the removals leave.
- Theorem {lit}`checkUpdate_eq`: what the call returns and leaves of the list.
- Theorem {lit}`checkUpdate_iff`: when the call does to the list and returns
  exactly what it should.
-/

namespace ModpackInstaller
namespace Client
namespace UpdateCheck

open Registry

/-- What a call of `checkUpdate` meets. -/
structure Survey where
  /-- The file {lit}`modpack` of a directory; `none` when it cannot be read. -/
  modpack : Text → Option Text
  /-- The line that answers {lit}`SITE VERS` for a name. -/
  answer : Text → Text

/-- The first line of a file; `none` is null. -/
def firstLine (content : Text) : Option Text :=
  if content = [] then none else some (content.takeWhile fun c => !isLineBreak c)

/-- The survey as the loop of `checkUpdate` takes it. -/
def Survey.check (v : Survey) : Check where
  modpack directory :=
    match v.modpack directory with
    | none => .notFound
    | some content => .line (firstLine content)
  getLatestVersion name := (getLatestVersion (v.answer (name.getD "null".toList))).toOption

/-- The unregistrations one after the other; `none` when one throws. -/
def unregisterEach (unregisterMe packList : List Registered) : Option (List Registered) :=
  unregisterMe.foldlM (fun packList t => unregisterPack t.name packList) packList

/-- `checkUpdate`: what it returns and what it leaves of the list; `none` when it
throws an unchecked exception. -/
def checkUpdate (v : Survey) (packList : List Registered) :
    Option (List Registered × List Registered) :=
  match checkLoop v.check packList with
  | none => none
  | some (unregisterMe, updateNeeded) =>
    (unregisterEach unregisterMe packList).map fun packList => (updateNeeded, packList)

/-! ## What the check is for -/

/-- The marker file of a pack names it. -/
def Named (v : Survey) (p : Registered) : Prop :=
  ∃ content ∈ v.modpack p.directory, firstLine content ≠ none ∧ firstLine content = p.name

/-- The version of a pack at the server, when it is known. -/
def serverVersion (v : Survey) (p : Registered) : Option Text :=
  p.name.bind fun name => (getLatestVersion (v.answer name)).toOption.join

/-- The marker file of a pack names it, and the server is known to have another version
than the recorded one. -/
def Outdated (v : Survey) (p : Registered) : Prop :=
  Named v p ∧ serverVersion v p ≠ none ∧ serverVersion v p ≠ p.version

/-- The marker file of a pack is not empty, and when it names the pack the server's
answer has room for a reply code, and for a version behind the code 216. -/
def Readable (v : Survey) (p : Registered) : Prop :=
  v.modpack p.directory ≠ some [] ∧
    (Named v p → ∀ name ∈ p.name, 3 ≤ (v.answer name).length ∧
      (getResponseCode (v.answer name) = .ok 216 → 4 ≤ (v.answer name).length))

instance (v : Survey) : DecidablePred (Named v) := fun p =>
  inferInstanceAs (Decidable (∃ content ∈ v.modpack p.directory, _ ∧ _))

instance (v : Survey) : DecidablePred (Outdated v) := fun _ =>
  inferInstanceAs (Decidable (_ ∧ _ ∧ _))

instance (v : Survey) : DecidablePred (Readable v) := fun p =>
  inferInstanceAs (Decidable (_ ∧ (_ → ∀ name ∈ p.name, _ ∧ (_ → _))))

/-! ## The loop -/

/-- An answer is read when it has room for what is taken out of it. -/
theorem getLatestVersion_isSome_iff (response : Text) :
    (getLatestVersion response).toOption.isSome ↔
      3 ≤ response.length ∧ (getResponseCode response = .ok 216 → 4 ≤ response.length) := by
  unfold getLatestVersion
  by_cases hshort : response.length < 3
  · have hcode : getResponseCode response = .error .stringIndex := by
      rw [getResponseCode, if_pos hshort]
    simp only [hcode, Except.toOption]
    simp
    omega
  · obtain ⟨code, hcode⟩ : ∃ code, getResponseCode response = .ok code :=
      ⟨_, if_neg hshort⟩
    simp only [hcode]
    split_ifs with h216 hroom
    · simp [Except.toOption, h216]
      omega
    · simp [Except.toOption, h216]
      omega
    · simp [Except.toOption, h216]
      omega

theorem named_iff {v : Survey} {p : Registered} {content : Text}
    (hfile : v.modpack p.directory = some content) (hcontent : content ≠ []) :
    Named v p ↔ some (content.takeWhile fun c => !isLineBreak c) = p.name := by
  simp [Named, hfile, firstLine, hcontent]

/-- One pack in the loop of `checkUpdate`. -/
theorem checkLoop_cons (v : Survey) (p : Registered) (ps : List Registered) :
    checkLoop v.check (p :: ps) =
      if Readable v p then
        (checkLoop v.check ps).map fun (gone, old) =>
          (if Named v p then gone else p :: gone, if Outdated v p then p :: old else old)
      else none := by
  cases hfile : v.modpack p.directory with
  | none =>
      have hnamed : ¬ Named v p := by simp [Named, hfile]
      have hreadable : Readable v p := ⟨by simp [hfile], fun h => absurd h hnamed⟩
      have houtdated : ¬ Outdated v p := fun h => hnamed h.1
      simp only [checkLoop, Survey.check, hfile, if_pos hreadable, if_neg hnamed,
        if_neg houtdated]
  | some content =>
      by_cases hcontent : content = []
      · have hreadable : ¬ Readable v p := fun h => h.1 (by rw [hfile, hcontent])
        simp only [checkLoop, Survey.check, hfile, firstLine, if_pos hcontent, if_neg hreadable]
      · have hnamed := named_iff hfile hcontent
        simp only [checkLoop, Survey.check, hfile, firstLine, if_neg hcontent]
        by_cases hname : some (content.takeWhile fun c => !isLineBreak c) = p.name
        · have hN : Named v p := hnamed.mpr hname
          generalize content.takeWhile (fun c => !isLineBreak c) = name at hname
          have hreadable : Readable v p ↔ (getLatestVersion (v.answer name)).toOption.isSome := by
            rw [getLatestVersion_isSome_iff, Readable, hfile, ← hname]
            simp [hN, hcontent]
          rw [if_pos hname, ← hname, Option.getD_some]
          cases hlatest : getLatestVersion (v.answer name) with
          | error e =>
              rw [if_neg (by rw [hreadable, hlatest]; simp [Except.toOption])]
              rfl
          | ok latest =>
              rw [if_pos (by rw [hreadable, hlatest]; simp [Except.toOption])]
              have houtdated : Outdated v p ↔ latest ≠ none ∧ latest ≠ p.version := by
                rw [Outdated, and_iff_right hN, serverVersion, ← hname]
                simp [hlatest, Except.toOption]
              simp only [Except.toOption, if_pos hN, houtdated]
        · have hN : ¬ Named v p := fun h => hname (hnamed.mp h)
          have hreadable : Readable v p :=
            ⟨by simp [hfile, hcontent], fun h => absurd h hN⟩
          have houtdated : ¬ Outdated v p := fun h => hN h.1
          simp only [if_neg hname, if_pos hreadable, if_neg hN, if_neg houtdated]

/-- The two lists that the loop collects. -/
theorem checkLoop_eq (v : Survey) (packList : List Registered) :
    checkLoop v.check packList =
      if ∀ p ∈ packList, Readable v p then
        some (packList.filter fun p => decide (¬ Named v p),
          packList.filter fun p => decide (Outdated v p))
      else none := by
  induction packList with
  | nil => simp [checkLoop]
  | cons p ps ih =>
      rw [checkLoop_cons, ih]
      by_cases hp : Readable v p
      · rw [if_pos hp]
        by_cases hps : ∀ q ∈ ps, Readable v q
        · rw [if_pos hps, if_pos (List.forall_mem_cons.mpr ⟨hp, hps⟩), Option.map_some]
          simp only [List.filter_cons, decide_eq_true_eq, ite_not]
        · rw [if_neg hps, if_neg fun h => hps (List.forall_mem_cons.mp h).2, Option.map_none]
      · rw [if_neg hp, if_neg fun h => hp (List.forall_mem_cons.mp h).1]

/-! ## The removals -/

/-- A removal throws when a pack of the list has no name. -/
theorem unregisterPack_eq_none {packList : List Registered} {p : Registered} (hp : p ∈ packList)
    (hname : p.name = none) (name : Option Text) : unregisterPack name packList = none := by
  rw [unregisterPack, if_neg]
  intro hall
  have hsome := List.all_eq_true.mp hall p hp
  rw [hname] at hsome
  cases hsome

/-- Where every pack has a name, the removals leave the packs with other names. -/
theorem unregisterEach_eq {packList : List Registered} (hnames : ∀ p ∈ packList, p.name ≠ none)
    (unregisterMe : List Registered) :
    unregisterEach unregisterMe packList =
      some (packList.filter fun p => decide (∀ t ∈ unregisterMe, p.name ≠ t.name)) := by
  induction unregisterMe generalizing packList with
  | nil => simp [unregisterEach]
  | cons t ts ih =>
      have hall : (packList.all fun p => p.name.isSome) = true :=
        List.all_eq_true.mpr fun p hp => Option.isSome_iff_ne_none.mpr (hnames p hp)
      have hrest : ∀ p ∈ packList.filter (fun p => decide (p.name ≠ t.name)), p.name ≠ none :=
        fun p hp => hnames p (List.mem_of_mem_filter hp)
      have hlater := ih hrest
      unfold unregisterEach at hlater ⊢
      rw [List.foldlM_cons, unregisterPack, if_pos hall, Option.bind_eq_bind, Option.bind_some,
        hlater, List.filter_filter]
      congr 2
      funext p
      rw [Bool.eq_iff_iff]
      simp [and_comm]

/-- The removals throw when there is one and a pack of the list has no name. -/
theorem unregisterEach_eq_none {packList : List Registered} {p : Registered} (hp : p ∈ packList)
    (hname : p.name = none) {unregisterMe : List Registered} (hne : unregisterMe ≠ []) :
    unregisterEach unregisterMe packList = none := by
  obtain ⟨t, ts, rfl⟩ := List.exists_cons_of_ne_nil hne
  rw [unregisterEach, List.foldlM_cons, unregisterPack_eq_none hp hname]
  rfl

/-- Removals that do not throw leave what the registry's removals leave. -/
theorem unregisterAll_of_each {unregisterMe packList rest : List Registered}
    (h : unregisterEach unregisterMe packList = some rest) :
    unregisterAll unregisterMe packList = rest := by
  induction unregisterMe generalizing packList with
  | nil => exact Option.some.inj h
  | cons t ts ih =>
      rw [unregisterEach, List.foldlM_cons, Option.bind_eq_bind, Option.bind_eq_some_iff] at h
      obtain ⟨list, hlist, hrest⟩ := h
      rw [unregisterAll, hlist]
      exact ih hrest

/-- What the call leaves of the list is what the registry's `checkUpdate` leaves. -/
theorem registry_checkUpdate_of_some {v : Survey} {packList updateNeeded rest : List Registered}
    (h : checkUpdate v packList = some (updateNeeded, rest)) :
    Registry.checkUpdate v.check packList = rest := by
  unfold checkUpdate at h
  unfold Registry.checkUpdate
  cases hloop : checkLoop v.check packList with
  | none =>
      rw [hloop] at h
      cases h
  | some lists =>
      rw [hloop] at h
      obtain ⟨after, hafter, hpair⟩ := Option.map_eq_some_iff.mp h
      have hrest : after = rest := congrArg Prod.snd hpair
      exact hrest ▸ unregisterAll_of_each hafter

/-! ## The whole call -/

/-- A pack without a name is not named by a marker file. -/
theorem not_named_of_name {v : Survey} {p : Registered} (h : p.name = none) : ¬ Named v p := by
  rintro ⟨content, -, hline, heq⟩
  exact hline (heq.trans h)

/-- The call returns when every pack has a name and is readable, and then the packs are
left that have no name in common with one whose marker file does not name it. -/
theorem checkUpdate_eq (v : Survey) (packList : List Registered) :
    checkUpdate v packList =
      if ∀ p ∈ packList, p.name ≠ none ∧ Readable v p then
        some (packList.filter fun p => decide (Outdated v p),
          packList.filter fun p => decide (∀ t ∈ packList, ¬ Named v t → p.name ≠ t.name))
      else none := by
  unfold checkUpdate
  rw [checkLoop_eq]
  by_cases hread : ∀ p ∈ packList, Readable v p
  · rw [if_pos hread]
    by_cases hnames : ∀ p ∈ packList, p.name ≠ none
    · rw [if_pos fun p hp => ⟨hnames p hp, hread p hp⟩]
      simp only [unregisterEach_eq hnames, Option.map_some, List.mem_filter, decide_eq_true_eq,
        and_imp]
    · have hnull : ∃ p ∈ packList, p.name = none := by
        by_contra hno
        exact hnames fun p hp hname => hno ⟨p, hp, hname⟩
      obtain ⟨p, hp, hname⟩ := hnull
      have hne : packList.filter (fun p => decide (¬ Named v p)) ≠ [] :=
        List.ne_nil_of_mem (List.mem_filter.mpr ⟨hp, by simpa using not_named_of_name hname⟩)
      rw [if_neg fun h => (h p hp).1 hname]
      simp only [unregisterEach_eq_none hp hname hne, Option.map_none]
  · rw [if_neg hread, if_neg fun h => hread fun p hp => (h p hp).2]

/-- Two filters of a list agree exactly when they agree on its members. -/
theorem filter_eq_filter_iff {α : Type} {f g : α → Bool} {l : List α} :
    l.filter f = l.filter g ↔ ∀ a ∈ l, f a = g a := by
  refine ⟨fun h a ha => ?_, List.filter_congr⟩
  have hmem : a ∈ l.filter f ↔ a ∈ l.filter g := by rw [h]
  rw [List.mem_filter, List.mem_filter, and_iff_right ha, and_iff_right ha] at hmem
  exact Bool.eq_iff_iff.mpr hmem

/-- The call returns the outdated packs and takes the packs out of the list whose own
marker file does not name them, exactly when every pack has a name, every marker file and
every answer is readable, and no pack has the name of one whose marker file does not name it
unless its own does not either. -/
theorem checkUpdate_iff (v : Survey) (packList : List Registered) :
    checkUpdate v packList =
        some (packList.filter fun p => decide (Outdated v p),
          packList.filter fun p => decide (Named v p)) ↔
      (∀ p ∈ packList, p.name ≠ none ∧ Readable v p) ∧
        ∀ p ∈ packList, ∀ q ∈ packList, ¬ Named v p → q.name = p.name → ¬ Named v q := by
  rw [checkUpdate_eq]
  by_cases hall : ∀ p ∈ packList, p.name ≠ none ∧ Readable v p
  · rw [if_pos hall, and_iff_right hall]
    simp only [Option.some.injEq, Prod.mk.injEq, true_and, filter_eq_filter_iff,
      decide_eq_decide]
    constructor
    · intro h p hp q hq hgone hname hnamed
      exact (h q hq).mpr hnamed p hp hgone hname
    · intro h q hq
      constructor
      · intro hkept
        by_contra hgone
        exact hkept q hq hgone rfl
      · intro hnamed p hp hgone hname
        exact h p hp q hq hgone hname hnamed
  · rw [if_neg hall]
    exact iff_of_false (by simp) fun h => hall h.1

/-- A directory that is gone, and one in which the pack of the same name is out of date. -/
def movedPack : Survey where
  modpack directory := if directory = "/b".toList then some "m\n".toList else none
  answer _ := "216 2".toList

/-- An empty marker file and an answer without a version end the call with an exception,
and the pack of a directory that is still there leaves the list with one that is gone. -/
theorem checkUpdate_fails :
    checkUpdate ⟨fun _ => some [], fun _ => "216 2".toList⟩
        [⟨some ['m'], "/a".toList, some ['1']⟩] = none ∧
      checkUpdate ⟨fun _ => some ['m'], fun _ => "216".toList⟩
        [⟨some ['m'], "/a".toList, some ['1']⟩] = none ∧
      checkUpdate movedPack
          [⟨some ['m'], "/a".toList, some ['1']⟩, ⟨some ['m'], "/b".toList, some ['1']⟩] =
        some ([⟨some ['m'], "/b".toList, some ['1']⟩], []) ∧
      Named movedPack ⟨some ['m'], "/b".toList, some ['1']⟩ := by
  refine ⟨?_, ?_, ?_, ?_⟩ <;> decide

end UpdateCheck
end Client
end ModpackInstaller
