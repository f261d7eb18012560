import ModpackInstaller.Client.UpdateCheck

/-!
# Updating the outdated packs

The loop over what {lit}`checkUpdate` returned, each pack handed to
{lit}`updatePack`.  The two lists share their pack objects, so an entry here is
an object with its place in the list that was loaded; a version is recorded for
every listed object of a name.

Main results:

- Theorem {lit}`record_eq_modify`: where recording by name records for one entry.
- Theorem {lit}`round_eq_expected`: with that, a round asks and records as it
  should.
- Theorem {lit}`round_iff`: it does so, whatever its updates come to, exactly
  when no outdated pack has the name of another entry.
-/

namespace ModpackInstaller
namespace Client
namespace UpdateRound

open Registry (Registered)
open UpdateCheck

/-! ## The round -/

/-- A pack object, and whether it is in `packList`. -/
structure Entry where
  pack : Registered
  listed : Bool
deriving DecidableEq, Repr

/-- The pack objects in the order in which they were loaded, and the requests for
update instructions: the place of the pack and the version that is sent. -/
structure Round where
  entries : List Entry
  requested : List (Nat × Option Text)
deriving DecidableEq, Repr

/-- `packList` -/
def Round.packList (s : Round) : List Registered :=
  (s.entries.filter Entry.listed).map Entry.pack

/-- What a call of `updatePack` comes to. -/
structure Outcome where
  /-- How often it requests instructions; a timeout lets it start again. -/
  requests : Nat
  /-- The answer to the question for the latest version, when it gets that far. -/
  latestVersion : Option (Option Text)
deriving DecidableEq, Repr

/-- The last statement of `updatePack`, which ends at a listed pack without a name. -/
def record (name latestVersion : Option Text) : List Entry → List Entry
  | [] => []
  | e :: es =>
    if e.listed then
      match e.pack.name with
      | none => e :: es
      | some n =>
        (if some n = name then { e with pack.version := latestVersion } else e) ::
          record name latestVersion es
    else e :: record name latestVersion es

/-- `updatePack` for the pack at a place. -/
def updatePack (s : Round) (i : Nat) (o : Outcome) : Round :=
  match s.entries[i]? with
  | none => s
  | some e =>
    { entries :=
        match o.latestVersion with
        | none => s.entries
        | some latestVersion => record e.pack.name latestVersion s.entries
      requested := s.requested ++ List.replicate o.requests (i, e.pack.version) }

/-- The packs that `checkUpdate` returns, with their places. -/
def needUpdate (v : Survey) (packList : List Registered) : List (Registered × Nat) :=
  packList.zipIdx.filter fun x => decide (Outdated v x.1)

/-- The pack objects behind `checkUpdate`. -/
def checked (v : Survey) (packList : List Registered) : Round where
  entries := packList.map fun p =>
    ⟨p, decide (∀ t ∈ packList, ¬ Named v t → p.name ≠ t.name)⟩
  requested := []

/-- The loop over the outdated packs.  With fewer outcomes than packs, the last one is
that of a call that throws. -/
def round (s : Round) (packs : List (Registered × Nat)) (outcomes : List Outcome) : Round :=
  (packs.zip outcomes).foldl (fun s x => updatePack s x.1.2 x.2) s

/-! ## What the round is for -/

/-- An update asks for the version that was found, and records for its entry alone. -/
def expectedUpdate (s : Round) (x : Registered × Nat) (o : Outcome) : Round where
  entries :=
    match o.latestVersion with
    | none => s.entries
    | some latestVersion =>
      s.entries.modify x.2 fun e => { e with pack.version := latestVersion }
  requested := s.requested ++ List.replicate o.requests (x.2, x.1.version)

/-- The round as it should be. -/
def expected (s : Round) (packs : List (Registered × Nat)) (outcomes : List Outcome) : Round :=
  (packs.zip outcomes).foldl (fun s x => expectedUpdate s x.1 x.2) s

/-! ## Recording by name -/

/-- Where every pack has a name, a version is recorded for the listed packs of a name. -/
theorem record_eq_map {es : List Entry} (hnames : ∀ e ∈ es, e.pack.name ≠ none)
    (name latestVersion : Option Text) :
    record name latestVersion es = es.map fun e =>
      if e.listed ∧ e.pack.name = name then { e with pack.version := latestVersion } else e := by
  induction es with
  | nil => rfl
  | cons e es ih =>
      have hrest := ih fun e' he' => hnames e' (List.mem_cons_of_mem e he')
      obtain ⟨n, hn⟩ := Option.ne_none_iff_exists'.mp (hnames e List.mem_cons_self)
      rw [record, List.map_cons, hrest]
      by_cases hlisted : e.listed
      · simp only [hlisted, if_true, hn, true_and]
      · simp only [hlisted]
        rfl

/-- Where one entry has a name and is listed, recording by the name records for it. -/
theorem record_eq_modify {es : List Entry} {i : Nat} {e : Entry} (hi : es[i]? = some e)
    (hnames : ∀ e ∈ es, e.pack.name ≠ none) (hlisted : e.listed)
    (halone : ∀ j e', es[j]? = some e' → j ≠ i → e'.pack.name ≠ e.pack.name)
    (latestVersion : Option Text) :
    record e.pack.name latestVersion es =
      es.modify i fun e => { e with pack.version := latestVersion } := by
  rw [record_eq_map hnames]
  apply List.ext_getElem?
  intro j
  rw [List.getElem?_map]
  by_cases hj : j = i
  · rw [hj, List.getElem?_modify_eq, hi]
    simp [hlisted]
  · rw [List.getElem?_modify_ne _ _ (Ne.symm hj)]
    cases he : es[j]? with
    | none => rfl
    | some e' =>
        have hne := halone j e' he hj
        simp [hne]

/-! ## A round without shared names -/

/-- The packs to come are listed and as they were found, every pack has a name, and no
pack to come shares its name with another entry. -/
structure Ready (s : Round) (packs : List (Registered × Nat)) : Prop where
  found : ∀ x ∈ packs, s.entries[x.2]? = some ⟨x.1, true⟩
  named : ∀ e ∈ s.entries, e.pack.name ≠ none
  alone : ∀ x ∈ packs, ∀ j e, s.entries[j]? = some e → j ≠ x.2 → e.pack.name ≠ x.1.name
  nodup : (packs.map Prod.snd).Nodup

section Ready

variable {s : Round} {x : Registered × Nat} {packs : List (Registered × Nat)}

theorem updatePack_eq_expected (h : Ready s (x :: packs)) (o : Outcome) :
    updatePack s x.2 o = expectedUpdate s x o := by
  have hx := h.found x List.mem_cons_self
  have halone := h.alone x List.mem_cons_self
  unfold updatePack expectedUpdate
  simp only [hx]
  cases o.latestVersion with
  | none => rfl
  | some latestVersion =>
      simp only [record_eq_modify hx h.named rfl halone]

theorem expectedUpdate_ne (o : Outcome) {j : Nat} (hj : j ≠ x.2) :
    (expectedUpdate s x o).entries[j]? = s.entries[j]? := by
  unfold expectedUpdate
  cases o.latestVersion with
  | none => rfl
  | some latestVersion => exact List.getElem?_modify_ne _ _ (Ne.symm hj)

/-- An update changes no name. -/
theorem expectedUpdate_name (o : Outcome) {j : Nat} {e : Entry}
    (he : (expectedUpdate s x o).entries[j]? = some e) :
    ∃ e', s.entries[j]? = some e' ∧ e'.pack.name = e.pack.name := by
  unfold expectedUpdate at he
  cases hlatest : o.latestVersion with
  | none =>
      rw [hlatest] at he
      exact ⟨e, he, rfl⟩
  | some latestVersion =>
      rw [hlatest] at he
      simp only [List.getElem?_modify] at he
      obtain ⟨e', he', heq⟩ := Option.map_eq_some_iff.mp he
      refine ⟨e', he', ?_⟩
      rw [← heq]
      split_ifs <;> rfl

theorem Ready.next (h : Ready s (x :: packs)) (o : Outcome) :
    Ready (expectedUpdate s x o) packs := by
  have hnodup := h.nodup
  rw [List.map_cons, List.nodup_cons] at hnodup
  refine ⟨fun y hy => ?_, fun e he => ?_, fun y hy j e he hj => ?_, hnodup.2⟩
  · have hne : y.2 ≠ x.2 := fun heq => hnodup.1 (heq ▸ List.mem_map_of_mem hy)
    rw [expectedUpdate_ne o hne]
    exact h.found y (List.mem_cons_of_mem x hy)
  · obtain ⟨j, hj⟩ := List.mem_iff_getElem?.mp he
    obtain ⟨e', he', hname⟩ := expectedUpdate_name o hj
    rw [← hname]
    exact h.named e' (List.mem_of_getElem? he')
  · obtain ⟨e', he', hname⟩ := expectedUpdate_name o he
    rw [← hname]
    exact h.alone y (List.mem_cons_of_mem x hy) j e' he' hj

end Ready

/-- A round without shared names asks and records as it should. -/
theorem round_eq_expected {s : Round} {packs : List (Registered × Nat)} (h : Ready s packs)
    (outcomes : List Outcome) : round s packs outcomes = expected s packs outcomes := by
  induction packs generalizing s outcomes with
  | nil => rfl
  | cons x packs ih =>
      cases outcomes with
      | nil => rfl
      | cons o outcomes =>
          have hrest := ih (h.next o) outcomes
          unfold round expected at hrest ⊢
          rw [List.zip_cons_cons, List.foldl_cons, List.foldl_cons, updatePack_eq_expected h o]
          exact hrest

/-! ## The first shared name -/

/-- A call that comes to nothing. -/
def failed : Outcome := ⟨0, none⟩

/-- The outcomes by which every update in front of one comes to nothing. -/
theorem foldl_failed {f : Round → (Registered × Nat) × Outcome → Round}
    (hfailed : ∀ s x, f s (x, failed) = s) (before after : List (Registered × Nat))
    (x : Registered × Nat) (o : Outcome) (s : Round) :
    ((before ++ x :: after).zip (List.replicate before.length failed ++ [o])).foldl f s =
      f s (x, o) := by
  induction before with
  | nil => simp
  | cons y before ih =>
      rw [List.cons_append, List.length_cons, List.replicate_succ, List.cons_append,
        List.zip_cons_cons, List.foldl_cons, hfailed]
      exact ih

theorem updatePack_failed (s : Round) (i : Nat) : updatePack s i failed = s := by
  unfold updatePack
  split
  · rfl
  · simp [failed]

theorem expectedUpdate_failed (s : Round) (x : Registered × Nat) :
    expectedUpdate s x failed = s := by
  simp [expectedUpdate, failed]

/-! ## Behind the check -/

section Checked

variable {v : Survey} {packList : List Registered}

theorem mem_needUpdate {x : Registered × Nat} :
    x ∈ needUpdate v packList ↔ packList[x.2]? = some x.1 ∧ Outdated v x.1 := by
  rw [needUpdate, List.mem_filter, List.mem_zipIdx_iff_getElem?, decide_eq_true_eq]

/-- The outdated packs without their places are those of the list. -/
theorem needUpdate_map_fst (v : Survey) (packList : List Registered) :
    (needUpdate v packList).map Prod.fst = packList.filter fun p => decide (Outdated v p) := by
  conv_rhs => rw [← List.zipIdx_map_fst 0 packList]
  rw [needUpdate, List.filter_map]
  rfl

theorem checked_packList (v : Survey) (packList : List Registered) :
    (checked v packList).packList =
      packList.filter fun p => decide (∀ t ∈ packList, ¬ Named v t → p.name ≠ t.name) := by
  rw [Round.packList, checked, List.filter_map, List.map_map]
  exact List.map_id _

/-- An entry behind the check is listed when its name is none of a pack that is gone. -/
theorem checked_getElem? (j : Nat) :
    (checked v packList).entries[j]? = packList[j]?.map fun p =>
      ⟨p, decide (∀ t ∈ packList, ¬ Named v t → p.name ≠ t.name)⟩ :=
  List.getElem?_map

theorem checked_name {j : Nat} {e : Entry} (he : (checked v packList).entries[j]? = some e) :
    packList[j]? = some e.pack := by
  rw [checked_getElem?] at he
  obtain ⟨p, hp, rfl⟩ := Option.map_eq_some_iff.mp he
  exact hp

/-- No outdated pack has the name of another entry. -/
def Unshared (v : Survey) (packList : List Registered) : Prop :=
  ∀ (i j : Nat) (p q : Registered), packList[i]? = some p → packList[j]? = some q →
    Outdated v p → j ≠ i → q.name ≠ p.name

/-- Behind a check that returned, outdated packs without shared names are ready. -/
theorem ready_checked (hnames : ∀ p ∈ packList, p.name ≠ none) (h : Unshared v packList) :
    Ready (checked v packList) (needUpdate v packList) := by
  refine ⟨fun x hx => ?_, fun e he => ?_, fun x hx j e he hj => ?_, ?_⟩
  · obtain ⟨hplace, hold⟩ := mem_needUpdate.mp hx
    have hlisted : ∀ t ∈ packList, ¬ Named v t → x.1.name ≠ t.name := by
      intro t ht hgone hname
      obtain ⟨j, hj⟩ := List.mem_iff_getElem?.mp ht
      refine h x.2 j x.1 t hplace hj hold ?_ hname.symm
      rintro rfl
      exact hgone (Option.some.inj (hj.symm.trans hplace) ▸ hold.1)
    rw [checked_getElem?, hplace, Option.map_some, decide_eq_true hlisted]
  · obtain ⟨j, hj⟩ := List.mem_iff_getElem?.mp he
    exact hnames e.pack (List.mem_of_getElem? (checked_name hj))
  · obtain ⟨hplace, hold⟩ := mem_needUpdate.mp hx
    exact h x.2 j x.1 e.pack hplace (checked_name he) hold hj
  · have hplaces : (packList.zipIdx.map Prod.snd).Nodup := by
      rw [List.zipIdx_map_snd]
      exact List.nodup_range'
    exact hplaces.sublist (List.filter_sublist.map Prod.snd)

/-- An update that records as it should belongs to a pack without a shared name. -/
theorem name_ne_of_updatePack (hnames : ∀ p ∈ packList, p.name ≠ none) {i j : Nat}
    {p q : Registered} (hi : packList[i]? = some p) (hj : packList[j]? = some q) (hne : j ≠ i)
    {latest : Text} (hp : p.version ≠ some latest) (hq : q.version ≠ some latest)
    (h : updatePack (checked v packList) i ⟨0, some (some latest)⟩ =
      expectedUpdate (checked v packList) (p, i) ⟨0, some (some latest)⟩) :
    q.name ≠ p.name := by
  intro hname
  have hnamed : ∀ e ∈ (checked v packList).entries, e.pack.name ≠ none := by
    intro e he
    obtain ⟨k, hk⟩ := List.mem_iff_getElem?.mp he
    exact hnames e.pack (List.mem_of_getElem? (checked_name hk))
  have hentries := congrArg Round.entries h
  simp only [updatePack, expectedUpdate, checked_getElem?, hi, Option.map_some,
    record_eq_map hnamed] at hentries
  have hother := congrArg (fun es : List Entry => es[j]?) hentries
  have hown := congrArg (fun es : List Entry => es[i]?) hentries
  simp only [List.getElem?_map, List.getElem?_modify_ne _ _ (Ne.symm hne),
    List.getElem?_modify_eq, checked_getElem?, hi, hj, Option.map_some, Option.some.injEq,
    hname] at hother hown
  by_cases hlisted : ∀ t ∈ packList, ¬ Named v t → p.name ≠ t.name
  · -- the version of the other entry is recorded too
    rw [if_pos ⟨decide_eq_true hlisted, trivial⟩] at hother
    exact hq (congrArg (fun e : Entry => e.pack.version) hother).symm
  · -- neither of them is listed any more, and nothing is recorded
    rw [if_neg fun hin => hlisted (of_decide_eq_true hin.1)] at hown
    exact hp (congrArg (fun e : Entry => e.pack.version) (Option.some.inj hown))

end Checked

/-- A recorded version is not a longer one. -/
theorem ne_some_of_shorter {version : Option Text} {latest : Text}
    (h : (version.getD []).length < latest.length) : version ≠ some latest := by
  rintro rfl
  exact Nat.lt_irrefl _ h

/-- Behind a check that returned, the round of updates asks and records as it should,
whatever the updates come to, exactly when no outdated pack has the name of another entry. -/
theorem round_iff {v : Survey} {packList updateNeeded rest : List Registered}
    (hreturns : UpdateCheck.checkUpdate v packList = some (updateNeeded, rest)) :
    (needUpdate v packList).map Prod.fst = updateNeeded ∧ (checked v packList).packList = rest ∧
      ((∀ outcomes, round (checked v packList) (needUpdate v packList) outcomes =
          expected (checked v packList) (needUpdate v packList) outcomes) ↔
        Unshared v packList) := by
  rw [UpdateCheck.checkUpdate_eq] at hreturns
  split_ifs at hreturns with hall
  have hnames : ∀ p ∈ packList, p.name ≠ none := fun p hp => (hall p hp).1
  simp only [Option.some.injEq, Prod.mk.injEq] at hreturns
  refine ⟨?_, ?_, ?_, fun h => round_eq_expected (ready_checked hnames h)⟩
  · rw [needUpdate_map_fst, hreturns.1]
  · rw [checked_packList, hreturns.2]
  · intro h i j p q hi hj hold hne
    obtain ⟨before, after, hsplit⟩ := List.append_of_mem
      (mem_needUpdate.mpr ⟨hi, hold⟩ : (p, i) ∈ needUpdate v packList)
    -- a version longer than both recorded ones is new to both
    let latest : Text := 'x' :: (p.version.getD [] ++ q.version.getD [])
    have hlength : latest.length = (p.version.getD []).length + (q.version.getD []).length + 1 := by
      rw [List.length_cons, List.length_append]
    have hp : p.version ≠ some latest := ne_some_of_shorter (by omega)
    have hq : q.version ≠ some latest := ne_some_of_shorter (by omega)
    have hrun := h (List.replicate before.length failed ++ [⟨0, some (some latest)⟩])
    rw [hsplit, round, expected, foldl_failed (fun s x => updatePack_failed s x.2),
      foldl_failed expectedUpdate_failed] at hrun
    exact name_ne_of_updatePack hnames hi hj hne hp hq hrun

/-- One pack in two directories, an update behind in both. -/
def twoCopies : List Registered :=
  [⟨some ['m'], "/a".toList, some ['1']⟩, ⟨some ['m'], "/b".toList, some ['1']⟩]

/-- Marker files that name one pack, and a server with version 2. -/
def secondVersion (name : Text) : Survey := ⟨fun _ => some name, fun _ => "216 2".toList⟩

theorem round_onePack :
    UpdateCheck.checkUpdate (secondVersion ['m']) (twoCopies.take 1) =
        some (twoCopies.take 1, twoCopies.take 1) ∧
      ∀ outcomes, round (checked (secondVersion ['m']) (twoCopies.take 1))
          (needUpdate (secondVersion ['m']) (twoCopies.take 1)) outcomes =
        expected (checked (secondVersion ['m']) (twoCopies.take 1))
          (needUpdate (secondVersion ['m']) (twoCopies.take 1)) outcomes := by
  have hreturns : UpdateCheck.checkUpdate (secondVersion ['m']) (twoCopies.take 1) =
      some (twoCopies.take 1, twoCopies.take 1) := by decide
  refine ⟨hreturns, (round_iff hreturns).2.2.mpr ?_⟩
  intro i j p q hi hj _ hne
  obtain ⟨hi', -⟩ := List.getElem?_eq_some_iff.mp hi
  obtain ⟨hj', -⟩ := List.getElem?_eq_some_iff.mp hj
  have hlength : (twoCopies.take 1).length = 1 := rfl
  omega

/-- Of one pack in two directories the first update records the version for both: the
second one asks with the new version, and when it fails its directory counts as current. -/
theorem round_fails :
    UpdateCheck.checkUpdate (secondVersion ['m']) twoCopies = some (twoCopies, twoCopies) ∧
      round (checked (secondVersion ['m']) twoCopies) (needUpdate (secondVersion ['m']) twoCopies)
          [⟨1, some (some ['2'])⟩, ⟨1, none⟩] =
        ⟨[⟨⟨some ['m'], "/a".toList, some ['2']⟩, true⟩,
          ⟨⟨some ['m'], "/b".toList, some ['2']⟩, true⟩], [(0, some ['1']), (1, some ['2'])]⟩ ∧
      expected (checked (secondVersion ['m']) twoCopies)
          (needUpdate (secondVersion ['m']) twoCopies) [⟨1, some (some ['2'])⟩, ⟨1, none⟩] =
        ⟨[⟨⟨some ['m'], "/a".toList, some ['2']⟩, true⟩,
          ⟨⟨some ['m'], "/b".toList, some ['1']⟩, true⟩], [(0, some ['1']), (1, some ['1'])]⟩ := by
  refine ⟨?_, ?_, ?_⟩ <;> decide

end UpdateRound
end Client
end ModpackInstaller
