import Mathlib.Data.List.Nodup
import ModpackInstaller.Text

/-!
# JSON documents

A document as it is written, with the members of an object in order, and the value
that it stands for, in which an object is a map from names to values.  The names
of an object are different in a proper document; otherwise the first one counts.

Main results:

- Theorem {lit}`value_object_eq_iff`: two objects have the same value exactly when
  they have the same members.
-/

namespace ModpackInstaller
namespace Library

/-! ## Members by name -/

section Lookup

variable {α : Type*}

/-- The entry of a name. -/
def lookup (name : Text) : List (Text × α) → Option α
  | [] => none
  | e :: rest => if e.1 = name then some e.2 else lookup name rest

@[simp] theorem lookup_nil (name : Text) : lookup name ([] : List (Text × α)) = none := rfl

theorem lookup_cons (name : Text) (e : Text × α) (rest : List (Text × α)) :
    lookup name (e :: rest) = if e.1 = name then some e.2 else lookup name rest := rfl

theorem lookup_eq_none {name : Text} {entries : List (Text × α)} :
    lookup name entries = none ↔ ∀ e ∈ entries, e.1 ≠ name := by
  induction entries with
  | nil => simp
  | cons e rest ih =>
      rw [lookup_cons, List.forall_mem_cons]
      split_ifs with h
      · simp [h]
      · rw [ih]
        exact (and_iff_right h).symm

theorem mem_of_lookup {name : Text} {entries : List (Text × α)} {a : α}
    (h : lookup name entries = some a) : (name, a) ∈ entries := by
  induction entries with
  | nil => cases h
  | cons e rest ih =>
      rw [lookup_cons] at h
      split_ifs at h with hname
      · rw [← hname, ← Option.some.inj h]
        exact List.mem_cons_self
      · exact List.mem_cons_of_mem e (ih h)

/-- With different names every entry is found. -/
theorem lookup_of_mem {entries : List (Text × α)} (hnodup : (entries.map Prod.fst).Nodup)
    {e : Text × α} (he : e ∈ entries) : lookup e.1 entries = some e.2 := by
  induction entries with
  | nil => cases he
  | cons e' rest ih =>
      rw [List.map_cons, List.nodup_cons] at hnodup
      rw [lookup_cons]
      rcases List.mem_cons.mp he with rfl | hrest
      · rw [if_pos rfl]
      · have hne : e'.1 ≠ e.1 := by
          intro heq
          exact hnodup.1 (heq ▸ List.mem_map_of_mem hrest)
        rw [if_neg hne, ih hnodup.2 hrest]

end Lookup

/-! ## Documents -/

/-- A document.  The numbers that are written as plain integers are told from the
others. -/
inductive Json where
  | null
  | bool (b : Bool)
  | integer (n : Int)
  | real (literal : Text)
  | string (s : Text)
  | array (elements : List Json)
  | object (members : List (Text × Json))

/-- The member of an object. -/
def Json.member (name : Text) : Json → Option Json
  | .object members => lookup name members
  | _ => none

/-- What a document stands for. -/
inductive Value where
  | null
  | bool (b : Bool)
  | integer (n : Int)
  | real (literal : Text)
  | string (s : Text)
  | array (elements : List Value)
  | object (member : Text → Option Value)

mutual

/-- The value of a document. -/
def Json.value : Json → Value
  | .null => .null
  | .bool b => .bool b
  | .integer n => .integer n
  | .real literal => .real literal
  | .string s => .string s
  | .array elements => .array (elementValues elements)
  | .object members => .object fun name => memberValue name members

def elementValues : List Json → List Value
  | [] => []
  | j :: rest => j.value :: elementValues rest

def memberValue (name : Text) : List (Text × Json) → Option Value
  | [] => none
  | (n, j) :: rest => if n = name then some j.value else memberValue name rest

end

theorem elementValues_eq_map (elements : List Json) :
    elementValues elements = elements.map Json.value := by
  induction elements with
  | nil => rfl
  | cons j rest ih => rw [elementValues, ih, List.map_cons]

theorem memberValue_eq (name : Text) (members : List (Text × Json)) :
    memberValue name members = (lookup name members).map Json.value := by
  induction members with
  | nil => rfl
  | cons e rest ih =>
      rw [memberValue, ih, lookup_cons]
      split_ifs <;> rfl

/-- Two arrays have the same value exactly when their elements have. -/
theorem value_array_eq_iff {elements elements' : List Json} :
    (Json.array elements).value = (Json.array elements').value ↔
      elements.map Json.value = elements'.map Json.value := by
  rw [Json.value, Json.value, elementValues_eq_map, elementValues_eq_map, Value.array.injEq]

/-- Two objects have the same value exactly when they have the same members. -/
theorem value_object_eq_iff {members members' : List (Text × Json)} :
    (Json.object members).value = (Json.object members').value ↔
      ∀ name, (lookup name members).map Json.value = (lookup name members').map Json.value := by
  rw [Json.value, Json.value, Value.object.injEq, funext_iff]
  simp only [memberValue_eq]

end Library
end ModpackInstaller
