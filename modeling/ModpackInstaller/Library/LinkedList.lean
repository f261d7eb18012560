import Mathlib.Data.List.Nodup

/-!
# Doubly linked lists

Lists of nodes in a heap, each with a pointer to the node before it and one to the node
behind it.  {lit}`Segment` says that a heap holds a list between two outer pointers.

Main results:

- Theorem {lit}`segment_append`: two segments that lie side by side are one.
- Theorem {lit}`segment_pushFront`: a new node in front of a list.
- Theorem {lit}`segment_unlink`: taking a node out of a list, wherever it is.
- Theorem {lit}`Segment.frame`: a segment depends on its own nodes only.
-/

namespace ModpackInstaller
namespace Library

/-- A node of a doubly linked list; `none` is the null pointer. -/
structure Node (α : Type*) where
  prev : Option Nat
  next : Option Nat
  value : α
deriving DecidableEq, Repr

/-- The nodes by address. -/
abbrev Heap (α : Type*) := Nat → Option (Node α)

variable {α : Type*}

namespace Heap

/-- Change the node that a pointer leads to, if it leads to one. -/
def modify (h : Heap α) (p : Option Nat) (f : Node α → Node α) : Heap α :=
  fun b => if p = some b then (h b).map f else h b

/-- Store a node. -/
def store (h : Heap α) (a : Nat) (n : Node α) : Heap α :=
  fun b => if a = b then some n else h b

/-- Give a node back. -/
def free (h : Heap α) (a : Nat) : Heap α :=
  fun b => if a = b then none else h b

@[simp] theorem modify_none (h : Heap α) (f : Node α → Node α) : h.modify none f = h := by
  ext b : 1
  simp [modify]

/-- A write through a pointer leaves the other nodes alone. -/
theorem modify_of_ne {h : Heap α} {p : Option Nat} {b : Nat} (hne : p ≠ some b)
    (f : Node α → Node α) : h.modify p f b = h b :=
  if_neg hne

@[simp] theorem modify_self (h : Heap α) (a : Nat) (f : Node α → Node α) :
    h.modify (some a) f a = (h a).map f :=
  if_pos rfl

@[simp] theorem store_self (h : Heap α) (a : Nat) (n : Node α) : h.store a n a = some n :=
  if_pos rfl

/-- So does a store. -/
theorem store_of_ne {h : Heap α} {a b : Nat} (hne : a ≠ b) (n : Node α) : h.store a n b = h b :=
  if_neg hne

/-- So does a free. -/
theorem free_of_ne {h : Heap α} {a b : Nat} (hne : a ≠ b) : h.free a b = h b :=
  if_neg hne

@[simp] theorem free_self (h : Heap α) (a : Nat) : h.free a a = none :=
  if_pos rfl

end Heap

/-! ## Segments -/

/-- The address of the first node, or what is behind an empty list. -/
def firstOf : List (Nat × α) → Option Nat → Option Nat
  | [], behind => behind
  | (a, _) :: _, _ => some a

/-- The address of the last node, or what is in front of an empty list. -/
def lastOf (front : Option Nat) : List (Nat × α) → Option Nat
  | [] => front
  | (a, _) :: rest => lastOf (some a) rest

/-- The heap holds a list between two outer pointers. -/
def Segment (h : Heap α) : Option Nat → List (Nat × α) → Option Nat → Prop
  | _, [], _ => True
  | front, (a, x) :: rest, behind =>
    h a = some ⟨front, firstOf rest behind, x⟩ ∧ Segment h (some a) rest behind

/-- The addresses of a list. -/
abbrev addresses (l : List (Nat × α)) : List Nat :=
  l.map Prod.fst

/-- The first node of two lists. -/
theorem firstOf_append (l₁ l₂ : List (Nat × α)) (behind : Option Nat) :
    firstOf (l₁ ++ l₂) behind = firstOf l₁ (firstOf l₂ behind) := by
  cases l₁ <;> rfl

/-- Two segments that lie side by side are one. -/
theorem segment_append {h : Heap α} {front behind : Option Nat} {l₁ l₂ : List (Nat × α)} :
    Segment h front (l₁ ++ l₂) behind ↔
      Segment h front l₁ (firstOf l₂ behind) ∧ Segment h (lastOf front l₁) l₂ behind := by
  induction l₁ generalizing front with
  | nil => simp [Segment, lastOf]
  | cons e l₁ ih =>
      simp only [List.cons_append, Segment, lastOf, firstOf_append, ih, and_assoc]

/-- A segment depends on its own nodes only. -/
theorem Segment.frame {h h' : Heap α} {front behind : Option Nat} {l : List (Nat × α)}
    (hl : Segment h front l behind) (heq : ∀ a ∈ addresses l, h' a = h a) :
    Segment h' front l behind := by
  induction l generalizing front with
  | nil => trivial
  | cons e l ih =>
      refine ⟨?_, ih hl.2 fun a ha => heq a (List.mem_cons_of_mem _ ha)⟩
      rw [heq e.1 (List.mem_cons_self ..)]
      exact hl.1

/-- The node of an entry. -/
theorem Segment.get {h : Heap α} {front behind : Option Nat} {l : List (Nat × α)}
    (hl : Segment h front l behind) {e : Nat × α} (he : e ∈ l) :
    ∃ n, h e.1 = some n ∧ n.value = e.2 := by
  induction l generalizing front with
  | nil => cases he
  | cons e' l ih =>
      rcases List.mem_cons.mp he with rfl | he
      · exact ⟨_, hl.1, rfl⟩
      · exact ih hl.2 he

/-- The last node of a list is one of its nodes. -/
theorem lastOf_mem {front : Option Nat} {l : List (Nat × α)} (hne : l ≠ []) :
    ∃ a ∈ addresses l, lastOf front l = some a := by
  induction l generalizing front with
  | nil => exact absurd rfl hne
  | cons e l ih =>
      cases l with
      | nil => exact ⟨e.1, List.mem_cons_self .., rfl⟩
      | cons e' l =>
          obtain ⟨a, ha, hlast⟩ := @ih (some e.1) (by simp)
          exact ⟨a, List.mem_cons_of_mem _ ha, hlast⟩

/-- What is no node of the list is not its first one. -/
theorem firstOf_ne {l : List (Nat × α)} {a : Nat} (ha : a ∉ addresses l) :
    firstOf l none ≠ some a := by
  cases l with
  | nil => simp [firstOf]
  | cons e l =>
      rintro ⟨⟩
      exact ha (List.mem_cons_self ..)

/-- Nor is it its last one. -/
theorem lastOf_ne {l : List (Nat × α)} {a : Nat} (ha : a ∉ addresses l) :
    lastOf none l ≠ some a := by
  cases l with
  | nil => simp [lastOf]
  | cons e l =>
      obtain ⟨b, hb, hlast⟩ := @lastOf_mem α none (e :: l) (List.cons_ne_nil e l)
      rw [hlast]
      rintro ⟨⟩
      exact ha hb

/-- The pointer behind a list is the one of its last node. -/
theorem Segment.setNext {h : Heap α} {front behind : Option Nat} {l : List (Nat × α)}
    (hl : Segment h front l behind) (hnodup : (addresses l).Nodup) (behind' : Option Nat) :
    Segment (h.modify (lastOf none l) fun n => { n with next := behind' }) front l behind' := by
  induction l generalizing front with
  | nil => trivial
  | cons e l ih =>
      obtain ⟨hfirst, hrest⟩ := List.nodup_cons.mp hnodup
      cases l with
      | nil =>
          refine ⟨?_, trivial⟩
          rw [lastOf, lastOf, Heap.modify_self, hl.1]
          rfl
      | cons e' l =>
          have hlast : lastOf none (e :: e' :: l) = lastOf none (e' :: l) := rfl
          rw [hlast]
          refine ⟨?_, ih hl.2 hrest⟩
          obtain ⟨a, ha, heq⟩ := @lastOf_mem α none (e' :: l) (List.cons_ne_nil e' l)
          have hne : some a ≠ some e.1 := by
            rintro ⟨⟩
            exact hfirst ha
          rw [heq, Heap.modify_of_ne hne]
          exact hl.1

/-- The pointer in front of a list is the one of its first node. -/
theorem Segment.setPrev {h : Heap α} {front behind : Option Nat} {l : List (Nat × α)}
    (hl : Segment h front l behind) (hnodup : (addresses l).Nodup) (front' : Option Nat) :
    Segment (h.modify (firstOf l none) fun n => { n with prev := front' }) front' l behind := by
  cases l with
  | nil => trivial
  | cons e l =>
      have hfirst := (List.nodup_cons.mp hnodup).1
      refine ⟨?_, hl.2.frame fun a ha => ?_⟩
      · rw [firstOf, Heap.modify_self, hl.1]
        rfl
      · refine Heap.modify_of_ne ?_ _
        rintro ⟨⟩
        exact hfirst ha

/-- Changing a value in place. -/
theorem Segment.setValue {h : Heap α} {front behind : Option Nat} {l₁ l₂ : List (Nat × α)}
    {a : Nat} {x : α} (hl : Segment h front (l₁ ++ (a, x) :: l₂) behind)
    (hnodup : (addresses (l₁ ++ (a, x) :: l₂)).Nodup) {y : α} {f : Node α → Node α}
    (hf : ∀ n, n.value = x → f n = { n with value := y }) :
    Segment (h.modify (some a) f) front (l₁ ++ (a, y) :: l₂) behind := by
  obtain ⟨hleft, hnode, hright⟩ := segment_append.mp hl
  simp only [addresses, List.map_append, List.map_cons] at hnodup
  obtain ⟨-, hnodup₂, hapart⟩ := List.nodup_append.mp hnodup
  have ha₂ := (List.nodup_cons.mp hnodup₂).1
  apply segment_append.mpr
  refine ⟨hleft.frame fun b hb => Heap.modify_of_ne ?_ _, ?_,
    hright.frame fun b hb => Heap.modify_of_ne ?_ _⟩
  · rintro ⟨⟩
    exact hapart a hb a (List.mem_cons_self ..) rfl
  · rw [Heap.modify_self, hnode, Option.map_some, hf _ rfl]
  · rintro ⟨⟩
    exact ha₂ hb

/-! ## New nodes -/

/-- Put a node in front of a list. -/
def pushFront (h : Heap α) (first : Option Nat) (a : Nat) (x : α) : Heap α :=
  (h.store a ⟨none, first, x⟩).modify first fun n => { n with prev := some a }

/-- A new node in front of a list. -/
theorem segment_pushFront {h : Heap α} {l : List (Nat × α)} {a : Nat}
    (hl : Segment h none l none) (hnodup : (addresses l).Nodup) (ha : a ∉ addresses l) (x : α) :
    Segment (pushFront h (firstOf l none) a x) none ((a, x) :: l) none := by
  have hstored : Segment (h.store a ⟨none, firstOf l none, x⟩) none l none := by
    refine hl.frame fun b hb => Heap.store_of_ne ?_ _
    rintro rfl
    exact ha hb
  refine ⟨?_, hstored.setPrev hnodup (some a)⟩
  rw [pushFront, Heap.modify_of_ne (firstOf_ne ha), Heap.store_self]

/-- An insertion writes the new node and the old first one only. -/
theorem pushFront_of_ne {h : Heap α} {first : Option Nat} {a b : Nat} {x : α} (hab : a ≠ b)
    (hfirst : first ≠ some b) : pushFront h first a x b = h b := by
  rw [pushFront, Heap.modify_of_ne hfirst, Heap.store_of_ne hab]

/-! ## Taking a node out -/

/-- Take a node with these neighbours out. -/
def unlink (h : Heap α) (a : Nat) (n : Node α) : Heap α :=
  ((h.modify n.prev fun m => { m with next := n.next }).modify n.next
    fun m => { m with prev := n.prev }).free a

/-- Only the node and its neighbours change. -/
theorem unlink_of_ne {h : Heap α} {a b : Nat} {n : Node α} (hab : a ≠ b)
    (hprev : n.prev ≠ some b) (hnext : n.next ≠ some b) : unlink h a n b = h b := by
  rw [unlink, Heap.free_of_ne hab, Heap.modify_of_ne hnext, Heap.modify_of_ne hprev]

/-- Taking a node out of a list, wherever it is. -/
theorem segment_unlink {h : Heap α} {l₁ l₂ : List (Nat × α)} {a : Nat} {x : α}
    (hl : Segment h none (l₁ ++ (a, x) :: l₂) none)
    (hnodup : (addresses (l₁ ++ (a, x) :: l₂)).Nodup) :
    Segment (unlink h a ⟨lastOf none l₁, firstOf l₂ none, x⟩) none (l₁ ++ l₂) none := by
  obtain ⟨hleft, -, hright⟩ := segment_append.mp hl
  simp only [addresses, List.map_append, List.map_cons] at hnodup
  obtain ⟨hnodup₁, hnodup₂, hapart⟩ := List.nodup_append.mp hnodup
  obtain ⟨ha₂, hnodup₂⟩ := List.nodup_cons.mp hnodup₂
  apply segment_append.mpr
  constructor
  · refine (hleft.setNext hnodup₁ (firstOf l₂ none)).frame fun b hb => ?_
    have hba : a ≠ b := (hapart b hb a (List.mem_cons_self ..)).symm
    have hb₂ : b ∉ addresses l₂ := fun h => hapart b hb b (List.mem_cons_of_mem _ h) rfl
    rw [unlink, Heap.free_of_ne hba, Heap.modify_of_ne (firstOf_ne hb₂)]
  · have hmoved : Segment (h.modify (lastOf none l₁) fun m => { m with next := firstOf l₂ none })
        (some a) l₂ none := by
      refine hright.frame fun b hb => Heap.modify_of_ne (lastOf_ne fun h => ?_) _
      exact hapart b h b (List.mem_cons_of_mem _ hb) rfl
    refine (hmoved.setPrev hnodup₂ (lastOf none l₁)).frame fun b hb => ?_
    have hba : a ≠ b := fun h => ha₂ (h ▸ hb)
    rw [unlink, Heap.free_of_ne hba]

end Library
end ModpackInstaller
