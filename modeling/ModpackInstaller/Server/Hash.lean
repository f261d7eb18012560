import ModpackInstaller.Library.LinkedList
import Mathlib.Data.List.Perm.Subperm
import Mathlib.Data.Option.Basic
import Mathlib.Logic.Function.Basic

/-!
# The hash table of the listener

{lit}`hash.c`: chains of doubly linked nodes behind an array of buckets.  A lookup hands out
a pointer to the value, and the callers read and write through it.  {lit}`Represents` says
which finite map a table stands for.

Main results:

- Theorem {lit}`hashGetNodeByKey_spec`: a lookup finds the node of a key, and comes to an end.
- Theorem {lit}`represents_add`, Theorem {lit}`represents_free`,
  Theorem {lit}`represents_write`: what the operations do to the map.
- Theorem {lit}`runOps_eq`: any sequence of operations on a new table answers, and ends in a
  {lit}`bug`, as it does on a map.
-/

namespace ModpackInstaller
namespace Server
namespace Hash

open Library

variable {κ ν : Type} [DecidableEq κ]

/-! ## Model -/

/-- `p_key` and `p_value` of a node. -/
structure Entry (κ ν : Type) where
  pKey : κ
  pValue : ν
deriving DecidableEq, Repr

/-- `struct hash`, with the memory its nodes are in. -/
structure Table (κ ν : Type) where
  buckets : Nat
  hashFunc : Nat → κ → Nat
  /-- `p_nodes` -/
  pNodes : Nat → Option Nat
  heap : Heap (Entry κ ν)
  /-- The address that the next allocation gets. -/
  fresh : Nat

/-- How an operation can go wrong. -/
inductive Fault where
  | bug (message : String)
  /-- A pointer to no node is followed, or a chain has no end. -/
  | wild
deriving DecidableEq, Repr

/-- `hash_alloc` -/
def hashAlloc (buckets : Nat) (hashFunc : Nat → κ → Nat) : Table κ ν where
  buckets := buckets
  hashFunc := hashFunc
  pNodes := fun _ => none
  heap := fun _ => none
  fresh := 0

/-- `hash_get_bucket` -/
def hashGetBucket (t : Table κ ν) (key : κ) : Except Fault Nat :=
  let bucket := t.hashFunc t.buckets key
  if t.buckets ≤ bucket then .error (.bug "bad bucket lookup") else .ok bucket

/-- The loop of `hash_get_node_by_key` with at most so many rounds. -/
def walk (heap : Heap (Entry κ ν)) (key : κ) : Nat → Option Nat → Except Fault (Option Nat)
  | 0, _ => .error .wild
  | _ + 1, none => .ok none
  | fuel + 1, some a =>
    match heap a with
    | none => .error .wild
    | some n => if key = n.value.pKey then .ok (some a) else walk heap key fuel n.next

/-- `hash_get_node_by_key` -/
def hashGetNodeByKey (t : Table κ ν) (key : κ) : Except Fault (Option Nat) :=
  match hashGetBucket t key with
  | .error e => .error e
  | .ok bucket => walk t.heap key (t.fresh + 1) (t.pNodes bucket)

/-- `hash_lookup_entry`; the pointer to a value is the address of its node. -/
def hashLookupEntry (t : Table κ ν) (key : κ) : Except Fault (Option Nat) :=
  hashGetNodeByKey t key

/-- Read through the pointer of a lookup. -/
def Table.read (t : Table κ ν) (p : Nat) : Option ν :=
  (t.heap p).map fun n => n.value.pValue

/-- Write through the pointer of a lookup. -/
def Table.write (t : Table κ ν) (p : Nat) (value : ν) : Table κ ν :=
  { t with
    heap := t.heap.modify (some p) fun n => { n with value := { n.value with pValue := value } } }

/-- `hash_add_entry` -/
def hashAddEntry (t : Table κ ν) (key : κ) (value : ν) : Except Fault (Table κ ν) :=
  match hashLookupEntry t key with
  | .error e => .error e
  | .ok (some _) => .error (.bug "duplicate hash key")
  | .ok none =>
    match hashGetBucket t key with
    | .error e => .error e
    | .ok bucket =>
      let a := t.fresh
      let node : Node (Entry κ ν) := ⟨none, none, ⟨key, value⟩⟩
      let heap := match t.pNodes bucket with
        | none => t.heap.store a node
        | some first =>
          (t.heap.store a { node with next := some first }).modify (some first)
            fun n => { n with prev := some a }
      .ok { t with
      pNodes := Function.update t.pNodes bucket (some a), heap := heap, fresh := a + 1 }

/-- `hash_free_entry` -/
def hashFreeEntry (t : Table κ ν) (key : κ) : Except Fault (Table κ ν) :=
  match hashGetNodeByKey t key with
  | .error e => .error e
  | .ok none => .error (.bug "hash node not found")
  | .ok (some a) =>
    match t.heap a with
    | none => .error .wild
    | some n =>
      match n.prev with
      | some p =>
        let heap := t.heap.modify (some p) fun m => { m with next := n.next }
        .ok { t with heap := (heap.modify n.next fun m => { m with prev := n.prev }).free a }
      | none =>
        match hashGetBucket t key with
        | .error e => .error e
        | .ok bucket =>
          .ok { t with
            pNodes := Function.update t.pNodes bucket n.next
            heap := (t.heap.modify n.next fun m => { m with prev := n.prev }).free a }

/-! ## The map of a table -/

/-- The keys of a chain. -/
abbrev keys (l : List (Nat × Entry κ ν)) : List κ :=
  l.map fun e => e.2.pKey

/-- The chains of a table are in its memory, each key is in the chain of its bucket and in
it once, and what is not allocated yet is free. -/
structure Valid (t : Table κ ν) (chains : Nat → List (Nat × Entry κ ν)) : Prop where
  head : ∀ b, t.pNodes b = firstOf (chains b) none
  segment : ∀ b, Segment t.heap none (chains b) none
  bucket : ∀ b, ∀ e ∈ chains b, t.hashFunc t.buckets e.2.pKey = b ∧ b < t.buckets
  nodup : ∀ b, (keys (chains b)).Nodup
  allocated : ∀ b, ∀ e ∈ chains b, e.1 < t.fresh

/-- The table stands for the map. -/
def Represents (t : Table κ ν) (m : κ → Option ν) : Prop :=
  ∃ chains, Valid t chains ∧
    ∀ k v, m k = some v ↔ ∃ a, (a, (⟨k, v⟩ : Entry κ ν)) ∈ chains (t.hashFunc t.buckets k)

section Valid

variable {t : Table κ ν} {chains : Nat → List (Nat × Entry κ ν)}

omit [DecidableEq κ]

/-- An address belongs to one entry. -/
theorem Valid.entry_unique (h : Valid t chains) {b b' : Nat} {e e' : Nat × Entry κ ν}
    (he : e ∈ chains b) (he' : e' ∈ chains b') (haddr : e.1 = e'.1) : b = b' ∧ e = e' := by
  obtain ⟨n, hn, hvalue⟩ := (h.segment b).get he
  obtain ⟨n', hn', hvalue'⟩ := (h.segment b').get he'
  rw [haddr, hn', Option.some.injEq] at hn
  have hentry : e.2 = e'.2 := by rw [← hvalue, ← hvalue', hn]
  refine ⟨?_, Prod.ext haddr hentry⟩
  rw [← (h.bucket b e he).1, ← (h.bucket b' e' he').1, hentry]

/-- The chains have no address in common. -/
theorem Valid.apart (h : Valid t chains) {b b' : Nat} (hne : b' ≠ b) {a : Nat}
    (ha : a ∈ addresses (chains b')) : a ∉ addresses (chains b) := by
  intro ha'
  obtain ⟨e', he', rfl⟩ := List.mem_map.mp ha
  obtain ⟨e, he, haddr⟩ := List.mem_map.mp ha'
  exact hne (h.entry_unique he' he haddr.symm).1

theorem Valid.lt_fresh (h : Valid t chains) {b a : Nat} (ha : a ∈ addresses (chains b)) :
    a < t.fresh := by
  obtain ⟨e, he, rfl⟩ := List.mem_map.mp ha
  exact h.allocated b e he

theorem nodup_addresses_of_keys {l : List (Nat × Entry κ ν)} {heap : Heap (Entry κ ν)}
    {front behind : Option Nat} (hl : Segment heap front l behind) (hkeys : (keys l).Nodup) :
    (addresses l).Nodup := by
  have hvalue : ∀ e ∈ l, (heap e.1).map (fun n => n.value.pKey) = some e.2.pKey := by
    intro e he
    obtain ⟨n, hn, hvalue⟩ := hl.get he
    rw [hn, ← hvalue]
    rfl
  have hmap : (addresses l).map (fun a => (heap a).map fun n => n.value.pKey) =
      (keys l).map some := by
    rw [addresses, keys, List.map_map, List.map_map]
    exact List.map_congr_left hvalue
  have hsome := hkeys.map (Option.some_injective κ)
  rw [← hmap] at hsome
  exact hsome.of_map _

/-- The keys that the map does not have are in no chain. -/
theorem eq_none_iff_not_mem {m : κ → Option ν}
    (hm : ∀ k v, m k = some v ↔
      ∃ a, (a, (⟨k, v⟩ : Entry κ ν)) ∈ chains (t.hashFunc t.buckets k)) {k : κ} :
    m k = none ↔ k ∉ keys (chains (t.hashFunc t.buckets k)) := by
  rw [Option.eq_none_iff_forall_ne_some]
  constructor
  · intro hnone hk
    obtain ⟨⟨a, ⟨k', v⟩⟩, he, hkey⟩ := List.mem_map.mp hk
    obtain rfl : k' = k := hkey
    exact hnone v ((hm k' v).mpr ⟨a, he⟩)
  · intro hk v hv
    obtain ⟨a, ha⟩ := (hm k v).mp hv
    exact hk (List.mem_map_of_mem (f := fun e : Nat × Entry κ ν => e.2.pKey) ha)

end Valid

/-! ## Lookups -/

/-- The walk stops at the node with the key, or at the end. -/
theorem walk_eq {heap : Heap (Entry κ ν)} {front : Option Nat} {l : List (Nat × Entry κ ν)}
    (hl : Segment heap front l none) (k : κ) {fuel : Nat} (hfuel : l.length < fuel) :
    walk heap k fuel (firstOf l none) =
      .ok ((l.find? fun e => k = e.2.pKey).map Prod.fst) := by
  induction l generalizing front fuel with
  | nil =>
      obtain ⟨fuel, rfl⟩ := Nat.exists_eq_succ_of_ne_zero (Nat.ne_of_gt (Nat.zero_lt_of_lt hfuel))
      rfl
  | cons e l ih =>
      obtain ⟨fuel, rfl⟩ := Nat.exists_eq_succ_of_ne_zero (Nat.ne_of_gt (Nat.zero_lt_of_lt hfuel))
      rw [List.length_cons] at hfuel
      have hnext := ih hl.2 (by omega : l.length < fuel)
      rw [firstOf, walk, hl.1]
      dsimp only
      by_cases hk : k = e.2.pKey
      · rw [if_pos hk, List.find?_cons_of_pos (by simpa using hk)]
        rfl
      · rw [if_neg hk, List.find?_cons_of_neg (by simpa using hk), hnext]

omit [DecidableEq κ] in
/-- A chain is not longer than the addresses that were handed out. -/
theorem Valid.length_le {t : Table κ ν} {chains : Nat → List (Nat × Entry κ ν)}
    (h : Valid t chains) (b : Nat) : (chains b).length ≤ t.fresh := by
  have hnodup := nodup_addresses_of_keys (h.segment b) (h.nodup b)
  have hsub : addresses (chains b) ⊆ List.range t.fresh := by
    intro a ha
    obtain ⟨e, he, rfl⟩ := List.mem_map.mp ha
    exact List.mem_range.mpr (h.allocated b e he)
  have hle := (List.subperm_of_subset hnodup hsub).length_le
  rwa [List.length_map, List.length_range] at hle

/-- A lookup comes to an end; it finds the node of a key, or nothing for a key that is not
in the map. -/
theorem hashGetNodeByKey_spec {t : Table κ ν} {chains : Nat → List (Nat × Entry κ ν)}
    (h : Valid t chains) {k : κ} (hk : t.hashFunc t.buckets k < t.buckets) :
    hashGetNodeByKey t k =
      .ok (((chains (t.hashFunc t.buckets k)).find? fun e => k = e.2.pKey).map Prod.fst) := by
  have hbucket : hashGetBucket t k = .ok (t.hashFunc t.buckets k) := if_neg (by omega)
  have hfuel := h.length_le (t.hashFunc t.buckets k)
  rw [hashGetNodeByKey, hbucket]
  dsimp only
  rw [h.head, walk_eq (h.segment _) k (by omega)]

/-! ## Operations -/

/-- The chain of a key has one entry with the key, or none. -/
theorem Valid.find_cases {t : Table κ ν} {chains : Nat → List (Nat × Entry κ ν)}
    (h : Valid t chains) (b : Nat) (k : κ) :
    (k ∉ keys (chains b) ∧ (chains b).find? (fun e => k = e.2.pKey) = none) ∨
      ∃ l₁ a v l₂, chains b = l₁ ++ (a, ⟨k, v⟩) :: l₂ ∧ k ∉ keys l₁ ∧ k ∉ keys l₂ ∧
        (chains b).find? (fun e => k = e.2.pKey) = some (a, ⟨k, v⟩) := by
  cases hfind : (chains b).find? fun e => k = e.2.pKey with
  | none =>
      left
      refine ⟨fun hk => ?_, rfl⟩
      obtain ⟨e, he, rfl⟩ := List.mem_map.mp hk
      simpa using List.find?_eq_none.mp hfind e he
  | some e =>
      right
      obtain ⟨hkey, l₁, l₂, hsplit, hbefore⟩ := List.find?_eq_some_iff_append.mp hfind
      obtain ⟨a, ⟨k', v⟩⟩ := e
      obtain rfl : k = k' := by simpa using hkey
      have hnodup := h.nodup b
      rw [hsplit, keys, List.map_append, List.map_cons] at hnodup
      obtain ⟨-, hnodup₂, -⟩ := List.nodup_append.mp hnodup
      refine ⟨l₁, a, v, l₂, hsplit, fun hk => ?_, (List.nodup_cons.mp hnodup₂).1, rfl⟩
      obtain ⟨e, he, hekey⟩ := List.mem_map.mp hk
      simpa [hekey] using hbefore e he

omit [DecidableEq κ] in
/-- A table whose operation has touched one chain. -/
theorem Valid.change {t t' : Table κ ν} {chains : Nat → List (Nat × Entry κ ν)}
    (h : Valid t chains) {b : Nat} {l : List (Nat × Entry κ ν)}
    (hbuckets : t'.buckets = t.buckets) (hfunc : t'.hashFunc = t.hashFunc)
    (hfresh : t.fresh ≤ t'.fresh)
    (hhead : ∀ b', t'.pNodes b' = if b' = b then firstOf l none else t.pNodes b')
    (hsegment : Segment t'.heap none l none)
    (hframe : ∀ b' ≠ b, ∀ a ∈ addresses (chains b'), t'.heap a = t.heap a)
    (hbucket : ∀ e ∈ l, t.hashFunc t.buckets e.2.pKey = b ∧ b < t.buckets)
    (hnodup : (keys l).Nodup) (hallocated : ∀ e ∈ l, e.1 < t'.fresh) :
    Valid t' (Function.update chains b l) where
  head b' := by
    rw [hhead, h.head]
    by_cases hb : b' = b
    · rw [if_pos hb, hb, Function.update_self]
    · rw [if_neg hb, Function.update_of_ne hb]
  segment b' := by
    by_cases hb : b' = b
    · rw [hb, Function.update_self]
      exact hsegment
    · rw [Function.update_of_ne hb]
      exact (h.segment b').frame (hframe b' hb)
  bucket b' e he := by
    rw [hbuckets, hfunc]
    by_cases hb : b' = b
    · rw [hb, Function.update_self] at he
      exact hb ▸ hbucket e he
    · rw [Function.update_of_ne hb] at he
      exact h.bucket b' e he
  nodup b' := by
    by_cases hb : b' = b
    · rw [hb, Function.update_self]
      exact hnodup
    · rw [Function.update_of_ne hb]
      exact h.nodup b'
  allocated b' e he := by
    by_cases hb : b' = b
    · rw [hb, Function.update_self] at he
      exact hallocated e he
    · rw [Function.update_of_ne hb] at he
      exact Nat.lt_of_lt_of_le (h.allocated b' e he) hfresh

/-- The map of such a table. -/
theorem represents_change {t t' : Table κ ν} {chains : Nat → List (Nat × Entry κ ν)}
    {m : κ → Option ν} {l : List (Nat × Entry κ ν)} {k : κ} {x : Option ν}
    (hm : ∀ k v, m k = some v ↔
      ∃ a, (a, (⟨k, v⟩ : Entry κ ν)) ∈ chains (t.hashFunc t.buckets k))
    (hbuckets : t'.buckets = t.buckets) (hfunc : t'.hashFunc = t.hashFunc)
    (hvalid : Valid t' (Function.update chains (t.hashFunc t.buckets k) l))
    (hself : ∀ v, x = some v ↔ ∃ a, (a, (⟨k, v⟩ : Entry κ ν)) ∈ l)
    (hothers : ∀ k' ≠ k, ∀ v a, (a, (⟨k', v⟩ : Entry κ ν)) ∈ l ↔
      (a, (⟨k', v⟩ : Entry κ ν)) ∈ chains (t.hashFunc t.buckets k)) :
    Represents t' (Function.update m k x) := by
  refine ⟨_, hvalid, fun k' v => ?_⟩
  rw [hbuckets, hfunc]
  by_cases hk : k' = k
  · rw [hk, Function.update_self, Function.update_self, hself]
  · rw [Function.update_of_ne hk, hm]
    by_cases hb : t.hashFunc t.buckets k' = t.hashFunc t.buckets k
    · rw [hb, Function.update_self]
      exact exists_congr fun a => (hothers k' hk v a).symm
    · rw [Function.update_of_ne hb]

section Operations

variable {t : Table κ ν} {m : κ → Option ν}

/-- A lookup of a key that the map does not have. -/
theorem lookup_of_none (h : Represents t m) {k : κ} (hk : t.hashFunc t.buckets k < t.buckets)
    (hnone : m k = none) : hashLookupEntry t k = .ok none := by
  obtain ⟨chains, hvalid, hm⟩ := h
  rw [hashLookupEntry, hashGetNodeByKey_spec hvalid hk]
  rcases hvalid.find_cases (t.hashFunc t.buckets k) k with ⟨-, hfind⟩ | ⟨l₁, a, v, l₂, hl, -, -, -⟩
  · rw [hfind]
    rfl
  · have hv : m k = some v := (hm k v).mpr ⟨a, by rw [hl]; simp⟩
    rw [hnone] at hv
    cases hv

/-- What was found can be read and overwritten through the pointer. -/
theorem represents_write (h : Represents t m) {k : κ} (hk : t.hashFunc t.buckets k < t.buckets)
    {v : ν} (hsome : m k = some v) :
    ∃ p, hashLookupEntry t k = .ok (some p) ∧ t.read p = some v ∧
      ∀ w, Represents (t.write p w) (Function.update m k (some w)) := by
  obtain ⟨chains, hvalid, hm⟩ := h
  rcases hvalid.find_cases (t.hashFunc t.buckets k) k with
    ⟨hnone, -⟩ | ⟨l₁, a, v', l₂, hl, hk₁, hk₂, hfind⟩
  · rw [(eq_none_iff_not_mem hm).mpr hnone] at hsome
    cases hsome
  · have hsegment := hvalid.segment (t.hashFunc t.buckets k)
    have hnodup := nodup_addresses_of_keys hsegment (hvalid.nodup _)
    have hbucket := hvalid.bucket (t.hashFunc t.buckets k)
    have halloc := hvalid.allocated (t.hashFunc t.buckets k)
    have hkeys := hvalid.nodup (t.hashFunc t.buckets k)
    rw [hl] at hsegment hnodup hbucket halloc hkeys
    obtain rfl : v = v' := by
      have hv' : m k = some v' := (hm k v').mpr ⟨a, by rw [hl]; simp⟩
      rw [hsome] at hv'
      exact Option.some.inj hv'
    refine ⟨a, ?_, ?_, fun w => ?_⟩
    · rw [hashLookupEntry, hashGetNodeByKey_spec hvalid hk, hfind]
      rfl
    · obtain ⟨n, hn, hvalue⟩ := hsegment.get (List.mem_append_right l₁ (List.mem_cons_self ..))
      rw [Table.read, hn, Option.map_some, hvalue]
    · have hmem : ∀ k' ≠ k, ∀ (v' : ν) (a' : Nat),
          (a', (⟨k', v'⟩ : Entry κ ν)) ∈ l₁ ++ (a, ⟨k, w⟩) :: l₂ ↔
            (a', (⟨k', v'⟩ : Entry κ ν)) ∈ chains (t.hashFunc t.buckets k) := by
        intro k' hne v' a'
        rw [hl]
        simp [hne]
      have hvalid' : Valid (t.write a w)
          (Function.update chains (t.hashFunc t.buckets k) (l₁ ++ (a, ⟨k, w⟩) :: l₂)) := by
        refine hvalid.change rfl rfl (Nat.le_refl _) ?_ ?_ ?_ ?_ ?_ ?_
        · intro b
          by_cases hb : b = t.hashFunc t.buckets k
          · rw [if_pos hb, hb]
            change t.pNodes _ = _
            rw [hvalid.head, hl, firstOf_append, firstOf_append]
            rfl
          · exact (if_neg hb).symm
        · refine hsegment.setValue hnodup fun n hn => ?_
          rw [hn]
        · intro b hb a' ha'
          refine Heap.modify_of_ne ?_ _
          rintro ⟨⟩
          refine hvalid.apart hb ha' ?_
          rw [hl]
          simp
        · intro e he
          rcases List.mem_append.mp he with he | he
          · exact hbucket e (List.mem_append_left _ he)
          · rcases List.mem_cons.mp he with rfl | he
            · exact ⟨rfl, hk⟩
            · exact hbucket e (List.mem_append_right _ (List.mem_cons_of_mem _ he))
        · simpa [keys] using hkeys
        · intro e he
          rcases List.mem_append.mp he with he | he
          · exact halloc e (List.mem_append_left _ he)
          · rcases List.mem_cons.mp he with rfl | he
            · exact halloc (a, ⟨k, v⟩) (List.mem_append_right _ (List.mem_cons_self ..))
            · exact halloc e (List.mem_append_right _ (List.mem_cons_of_mem _ he))
      refine represents_change hm rfl rfl hvalid' (fun v' => ?_) hmem
      constructor
      · rintro ⟨⟩
        exact ⟨a, by simp⟩
      · rintro ⟨a', ha'⟩
        rcases List.mem_append.mp ha' with ha' | ha'
        · exact absurd (List.mem_map_of_mem (f := fun e : Nat × Entry κ ν => e.2.pKey) ha') hk₁
        · rcases List.mem_cons.mp ha' with heq | ha'
          · cases heq
            rfl
          · exact absurd (List.mem_map_of_mem (f := fun e : Nat × Entry κ ν => e.2.pKey) ha') hk₂

/-- A key that the map has cannot be added. -/
theorem add_of_some (h : Represents t m) {k : κ} (hk : t.hashFunc t.buckets k < t.buckets)
    {v : ν} (hsome : m k = some v) (w : ν) :
    hashAddEntry t k w = .error (.bug "duplicate hash key") := by
  obtain ⟨p, hlookup, -, -⟩ := represents_write h hk hsome
  rw [hashAddEntry, hlookup]

/-- A new key goes into the map. -/
theorem represents_add (h : Represents t m) {k : κ} (hk : t.hashFunc t.buckets k < t.buckets)
    (hnone : m k = none) (v : ν) :
    ∃ t', hashAddEntry t k v = .ok t' ∧ t'.buckets = t.buckets ∧ t'.hashFunc = t.hashFunc ∧
      Represents t' (Function.update m k (some v)) := by
  have hlookup := lookup_of_none h hk hnone
  obtain ⟨chains, hvalid, hm⟩ := h
  have hbucket : hashGetBucket t k = .ok (t.hashFunc t.buckets k) := if_neg (by omega)
  have hfree : k ∉ keys (chains (t.hashFunc t.buckets k)) := (eq_none_iff_not_mem hm).mp hnone
  have hadd : hashAddEntry t k v = .ok { t with
      pNodes := Function.update t.pNodes (t.hashFunc t.buckets k) (some t.fresh)
      heap := pushFront t.heap (t.pNodes (t.hashFunc t.buckets k)) t.fresh ⟨k, v⟩
      fresh := t.fresh + 1 } := by
    rw [hashAddEntry, hlookup]
    dsimp only
    rw [hbucket]
    dsimp only
    cases t.pNodes (t.hashFunc t.buckets k) with
    | none => rw [pushFront, Heap.modify_none]
    | some first => rfl
  refine ⟨_, hadd, rfl, rfl, ?_⟩
  have hfresh : t.fresh ∉ addresses (chains (t.hashFunc t.buckets k)) :=
    fun ha => Nat.lt_irrefl _ (hvalid.lt_fresh ha)
  refine represents_change hm rfl rfl (l := (t.fresh, ⟨k, v⟩) :: chains (t.hashFunc t.buckets k))
    ?_ ?_ ?_
  · refine hvalid.change rfl rfl (Nat.le_succ _) ?_ ?_ ?_ ?_ ?_ ?_
    · intro b
      by_cases hb : b = t.hashFunc t.buckets k
      · rw [if_pos hb, hb]
        exact Function.update_self ..
      · rw [if_neg hb]
        exact Function.update_of_ne hb ..
    · have hsegment := hvalid.segment (t.hashFunc t.buckets k)
      have hnodup := nodup_addresses_of_keys hsegment (hvalid.nodup _)
      dsimp only
      rw [hvalid.head]
      exact segment_pushFront hsegment hnodup hfresh ⟨k, v⟩
    · intro b hb a ha
      apply pushFront_of_ne
      · exact fun heq => Nat.lt_irrefl _ (heq ▸ hvalid.lt_fresh ha)
      · rw [hvalid.head]
        exact firstOf_ne (hvalid.apart hb ha)
    · intro e he
      rcases List.mem_cons.mp he with rfl | he
      · exact ⟨rfl, hk⟩
      · exact hvalid.bucket _ e he
    · exact List.nodup_cons.mpr ⟨hfree, hvalid.nodup _⟩
    · intro e he
      rcases List.mem_cons.mp he with rfl | he
      · exact Nat.lt_succ_self _
      · exact Nat.lt_succ_of_lt (hvalid.allocated _ e he)
  · intro v'
    constructor
    · rintro ⟨⟩
      exact ⟨t.fresh, List.mem_cons_self ..⟩
    · rintro ⟨a, ha⟩
      rcases List.mem_cons.mp ha with heq | ha
      · cases heq
        rfl
      · exact absurd (List.mem_map_of_mem (f := fun e : Nat × Entry κ ν => e.2.pKey) ha) hfree
  · intro k' hne v' a
    simp [hne]

/-- A key that the map does not have cannot be removed. -/
theorem free_of_none (h : Represents t m) {k : κ} (hk : t.hashFunc t.buckets k < t.buckets)
    (hnone : m k = none) : hashFreeEntry t k = .error (.bug "hash node not found") := by
  have hlookup := lookup_of_none h hk hnone
  rw [hashLookupEntry] at hlookup
  rw [hashFreeEntry, hlookup]

/-- A key of the map goes out of it, wherever its node is in the chain. -/
theorem represents_free (h : Represents t m) {k : κ} (hk : t.hashFunc t.buckets k < t.buckets)
    {v : ν} (hsome : m k = some v) :
    ∃ t', hashFreeEntry t k = .ok t' ∧ t'.buckets = t.buckets ∧ t'.hashFunc = t.hashFunc ∧
      Represents t' (Function.update m k none) := by
  obtain ⟨chains, hvalid, hm⟩ := h
  rcases hvalid.find_cases (t.hashFunc t.buckets k) k with
    ⟨hnone, -⟩ | ⟨l₁, a, v', l₂, hl, hk₁, hk₂, hfind⟩
  · rw [(eq_none_iff_not_mem hm).mpr hnone] at hsome
    cases hsome
  · have hsegment := hvalid.segment (t.hashFunc t.buckets k)
    have hnodup := nodup_addresses_of_keys hsegment (hvalid.nodup _)
    have hsub : ∀ e ∈ l₁ ++ l₂, e ∈ chains (t.hashFunc t.buckets k) := by
      intro e he
      rw [hl]
      rcases List.mem_append.mp he with he | he
      · exact List.mem_append_left _ he
      · exact List.mem_append_right _ (List.mem_cons_of_mem _ he)
    have hkeys : (keys (l₁ ++ l₂)).Nodup := by
      refine (hvalid.nodup (t.hashFunc t.buckets k)).sublist ?_
      rw [hl]
      exact ((List.Sublist.refl l₁).append (List.sublist_cons_self _ l₂)).map _
    have hbucket : hashGetBucket t k = .ok (t.hashFunc t.buckets k) := if_neg (by omega)
    rw [hl] at hsegment hnodup
    have hnode := (segment_append.mp hsegment).2.1
    have hfree : hashFreeEntry t k = .ok { t with
        pNodes := Function.update t.pNodes (t.hashFunc t.buckets k) (firstOf (l₁ ++ l₂) none)
        heap := unlink t.heap a ⟨lastOf none l₁, firstOf l₂ none, ⟨k, v'⟩⟩ } := by
      rw [hashFreeEntry, hashGetNodeByKey_spec hvalid hk, hfind]
      dsimp only [Option.map_some]
      rw [hnode]
      dsimp only
      cases l₁ with
      | nil =>
          dsimp only [lastOf]
          rw [hbucket]
          simp only [unlink, Heap.modify_none, List.nil_append]
      | cons e l₁ =>
          obtain ⟨p, -, hp⟩ := @lastOf_mem _ none (e :: l₁) (List.cons_ne_nil e l₁)
          have hhead : Function.update t.pNodes (t.hashFunc t.buckets k)
              (firstOf (e :: l₁ ++ l₂) none) = t.pNodes := by
            rw [Function.update_eq_self_iff, hvalid.head, hl]
            rfl
          rw [hhead, hp]
          rfl
    refine ⟨_, hfree, rfl, rfl, ?_⟩
    refine represents_change hm rfl rfl (l := l₁ ++ l₂) ?_ ?_ ?_
    · refine hvalid.change rfl rfl (Nat.le_refl _) ?_ ?_ ?_ ?_ ?_ ?_
      · intro b
        by_cases hb : b = t.hashFunc t.buckets k
        · rw [if_pos hb, hb]
          exact Function.update_self ..
        · rw [if_neg hb]
          exact Function.update_of_ne hb ..
      · exact segment_unlink hsegment hnodup
      · intro b hb a' ha'
        have hapart := hvalid.apart hb ha'
        rw [hl, addresses, List.map_append, List.map_cons, List.mem_append, List.mem_cons,
          not_or, not_or] at hapart
        obtain ⟨h₁, hne, h₂⟩ := hapart
        exact unlink_of_ne (Ne.symm hne) (lastOf_ne h₁) (firstOf_ne h₂)
      · exact fun e he => hvalid.bucket _ e (hsub e he)
      · exact hkeys
      · exact fun e he => hvalid.allocated _ e (hsub e he)
    · intro v''
      constructor
      · rintro ⟨⟩
      · rintro ⟨a', ha'⟩
        have hmem := List.mem_map_of_mem (f := fun e : Nat × Entry κ ν => e.2.pKey) ha'
        rw [List.map_append, List.mem_append] at hmem
        exact absurd hmem (not_or.mpr ⟨hk₁, hk₂⟩)
    · intro k' hne v'' a'
      rw [hl]
      simp [hne]

end Operations

/-! ## Sequences of operations -/

/-- The operations of the callers; `write` goes through the pointer of a lookup. -/
inductive Op (κ ν : Type) where
  | lookup (key : κ)
  | add (key : κ) (value : ν)
  | free (key : κ)
  | write (key : κ) (value : ν)
deriving DecidableEq, Repr

/-- The key that an operation is about. -/
def Op.key : Op κ ν → κ
  | .lookup key => key
  | .add key _ => key
  | .free key => key
  | .write key _ => key

/-- An operation on a table, with the value it hands out. -/
def runOp (t : Table κ ν) : Op κ ν → Except Fault (Table κ ν × Option ν)
  | .lookup key =>
    match hashLookupEntry t key with
    | .error e => .error e
    | .ok none => .ok (t, none)
    | .ok (some p) => .ok (t, t.read p)
  | .add key value =>
    match hashAddEntry t key value with
    | .error e => .error e
    | .ok t => .ok (t, none)
  | .free key =>
    match hashFreeEntry t key with
    | .error e => .error e
    | .ok t => .ok (t, none)
  | .write key value =>
    match hashLookupEntry t key with
    | .error e => .error e
    | .ok none => .error .wild
    | .ok (some p) => .ok (t.write p value, none)

/-- Operations one after the other: what they hand out, and how they go wrong. -/
def runOps : Table κ ν → List (Op κ ν) → List (Option ν) × Option Fault
  | _, [] => ([], none)
  | t, op :: ops =>
    match runOp t op with
    | .error e => ([], some e)
    | .ok (t, out) => (out :: (runOps t ops).1, (runOps t ops).2)

/-- The same operation on a map, in buckets that a hash function may miss. -/
def mapOp (buckets : Nat) (hashFunc : Nat → κ → Nat) (m : κ → Option ν) (op : Op κ ν) :
    Except Fault ((κ → Option ν) × Option ν) :=
  if buckets ≤ hashFunc buckets op.key then .error (.bug "bad bucket lookup")
  else
    match op, m op.key with
    | .lookup _, value => .ok (m, value)
    | .add _ _, some _ => .error (.bug "duplicate hash key")
    | .add key value, none => .ok (Function.update m key (some value), none)
    | .free _, none => .error (.bug "hash node not found")
    | .free key, some _ => .ok (Function.update m key none, none)
    | .write _ _, none => .error .wild
    | .write key value, some _ => .ok (Function.update m key (some value), none)

/-- Operations on a map one after the other. -/
def mapOps (buckets : Nat) (hashFunc : Nat → κ → Nat) :
    (κ → Option ν) → List (Op κ ν) → List (Option ν) × Option Fault
  | _, [] => ([], none)
  | m, op :: ops =>
    match mapOp buckets hashFunc m op with
    | .error e => ([], some e)
    | .ok (m, out) =>
      (out :: (mapOps buckets hashFunc m ops).1, (mapOps buckets hashFunc m ops).2)

omit [DecidableEq κ] in
theorem represents_hashAlloc (buckets : Nat) (hashFunc : Nat → κ → Nat) :
    Represents (hashAlloc buckets hashFunc : Table κ ν) fun _ => none := by
  refine ⟨fun _ => [], ⟨fun _ => rfl, fun _ => trivial, ?_, fun _ => List.nodup_nil, ?_⟩, ?_⟩
  · intro b e he
    cases he
  · intro b e he
    cases he
  · intro k v
    simp

/-- An operation on a table does what it does to the map. -/
theorem runOp_spec {t : Table κ ν} {m : κ → Option ν} (h : Represents t m) (op : Op κ ν) :
    match mapOp t.buckets t.hashFunc m op with
    | .error e => runOp t op = .error e
    | .ok (m', out) => ∃ t', runOp t op = .ok (t', out) ∧ t'.buckets = t.buckets ∧
        t'.hashFunc = t.hashFunc ∧ Represents t' m' := by
  by_cases hk : t.buckets ≤ t.hashFunc t.buckets op.key
  · have hbucket : hashGetBucket t op.key = .error (.bug "bad bucket lookup") := if_pos hk
    unfold mapOp
    rw [if_pos hk]
    cases op <;> simp only [Op.key] at hbucket <;>
      simp only [runOp, hashAddEntry, hashFreeEntry, hashLookupEntry, hashGetNodeByKey, hbucket]
  · unfold mapOp
    rw [if_neg hk]
    rw [Nat.not_le] at hk
    cases op with
    | lookup key =>
        simp only [Op.key] at hk ⊢
        cases hvalue : m key with
        | none => exact ⟨t, by rw [runOp, lookup_of_none h hk hvalue], rfl, rfl, h⟩
        | some v =>
            obtain ⟨p, hlookup, hread, -⟩ := represents_write h hk hvalue
            exact ⟨t, by rw [runOp, hlookup]; dsimp only; rw [hread], rfl, rfl, h⟩
    | add key value =>
        simp only [Op.key] at hk ⊢
        cases hvalue : m key with
        | none =>
            obtain ⟨t', hadd, hbuckets, hfunc, hrep⟩ := represents_add h hk hvalue value
            exact ⟨t', by rw [runOp, hadd], hbuckets, hfunc, hrep⟩
        | some v =>
            dsimp only
            rw [runOp, add_of_some h hk hvalue]
    | free key =>
        simp only [Op.key] at hk ⊢
        cases hvalue : m key with
        | none =>
            dsimp only
            rw [runOp, free_of_none h hk hvalue]
        | some v =>
            obtain ⟨t', hfree, hbuckets, hfunc, hrep⟩ := represents_free h hk hvalue
            exact ⟨t', by rw [runOp, hfree], hbuckets, hfunc, hrep⟩
    | write key value =>
        simp only [Op.key] at hk ⊢
        cases hvalue : m key with
        | none =>
            dsimp only
            rw [runOp, lookup_of_none h hk hvalue]
        | some v =>
            obtain ⟨p, hlookup, -, hrep⟩ := represents_write h hk hvalue
            exact ⟨t.write p value, by rw [runOp, hlookup], rfl, rfl, hrep value⟩

theorem runOps_of_represents {t : Table κ ν} {m : κ → Option ν} (h : Represents t m)
    (ops : List (Op κ ν)) : runOps t ops = mapOps t.buckets t.hashFunc m ops := by
  induction ops generalizing t m with
  | nil => rfl
  | cons op ops ih =>
      have hop := runOp_spec h op
      rw [runOps, mapOps]
      cases hmap : mapOp t.buckets t.hashFunc m op with
      | error e =>
          rw [hmap] at hop
          dsimp only at hop
          rw [hop]
      | ok r =>
          obtain ⟨m', out⟩ := r
          rw [hmap] at hop
          obtain ⟨t', hrun, hbuckets, hfunc, hrep⟩ := hop
          rw [hrun]
          dsimp only
          rw [ih hrep, hbuckets, hfunc]

/-- Any sequence of operations on a new table, with any hash function, hands out what it
does on a map, and goes wrong where and as it does there. -/
theorem runOps_eq (buckets : Nat) (hashFunc : Nat → κ → Nat) (ops : List (Op κ ν)) :
    runOps (hashAlloc buckets hashFunc) ops = mapOps buckets hashFunc (fun _ => none) ops :=
  runOps_of_represents (represents_hashAlloc buckets hashFunc) ops

example : runOps (hashAlloc 2 fun b k => k % b : Table Nat Nat)
    [.add 1 10, .add 3 30, .add 5 50, .free 3, .lookup 1, .lookup 5, .lookup 3, .free 3] =
      ([none, none, none, none, some 10, some 50, none], some (.bug "hash node not found")) := by
  decide

end Hash
end Server
end ModpackInstaller
