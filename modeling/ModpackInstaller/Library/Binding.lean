import ModpackInstaller.Library.Json

/-!
# Objects bound to documents

Reading a document into an object of a class and writing it again, by reflection:
members without a field are dropped, absent ones leave the default, null is not
written as a member, and a primitive field is always written.  What becomes of a
literal that is not a plain integer where an integer is wanted is a parameter.

Main results:

- Theorem {lit}`fromJson_isSome_iff`: which documents can be read.
- Theorem {lit}`kept_iff`: a document keeps its value, and is written as a member,
  exactly when it fits the type.
- Theorem {lit}`keptFields_iff`: the same for the members that belong to fields.
-/

namespace ModpackInstaller
namespace Library

/-! ## Types and objects -/

mutual

/-- The type of a field, an element or an entry. -/
inductive Ty where
  | string
  /-- A field of this type is primitive. -/
  | boolean
  | integer
  | map (type : Ty)
  | list (type : Ty)
  | object (fields : Fields)

/-- The declared fields of a class. -/
inductive Fields where
  | nil
  | cons (name : Text) (type : Ty) (rest : Fields)

end

namespace Fields

def names : Fields → List Text
  | nil => []
  | cons name _ rest => name :: rest.names

end Fields

mutual

/-- The fields of every class have different names. -/
def Ty.Proper : Ty → Prop
  | .string => True
  | .boolean => True
  | .integer => True
  | .map type => type.Proper
  | .list type => type.Proper
  | .object fields => fields.Proper

def Fields.Proper : Fields → Prop
  | .nil => True
  | .cons name type rest => name ∉ rest.names ∧ type.Proper ∧ rest.Proper

end

mutual

def Ty.decidableProper : (type : Ty) → Decidable type.Proper
  | .string => inferInstanceAs (Decidable True)
  | .boolean => inferInstanceAs (Decidable True)
  | .integer => inferInstanceAs (Decidable True)
  | .map type => type.decidableProper
  | .list type => type.decidableProper
  | .object fields => fields.decidableProper

def Fields.decidableProper : (fields : Fields) → Decidable fields.Proper
  | .nil => inferInstanceAs (Decidable True)
  | .cons _ type rest =>
    have := type.decidableProper
    have := rest.decidableProper
    inferInstanceAs (Decidable (_ ∧ _ ∧ _))

end

instance (fields : Fields) : Decidable fields.Proper :=
  fields.decidableProper

/-- An object, or a null reference. -/
inductive Obj where
  | null
  | string (s : Text)
  | boolean (b : Bool)
  | integer (n : Int)
  | list (elements : List Obj)
  /-- The entries of a map or the fields of an object. -/
  | members (entries : List (Text × Obj))

def Obj.isNull : Obj → Bool
  | .null => true
  | _ => false

/-- The value of a field that is not set. -/
def Ty.default : Ty → Obj
  | .boolean => .boolean false
  | _ => .null

def Ty.isPrimitive : Ty → Bool
  | .boolean => true
  | _ => false

/-! ## Reading -/

/-- The integers of 32 bits. -/
def InRange (n : Int) : Prop :=
  -2147483648 ≤ n ∧ n ≤ 2147483647

instance : DecidablePred InRange := fun _ => inferInstanceAs (Decidable (_ ∧ _))

/-- Read a document where a string is wanted; `none` when it throws. -/
def readString : Json → Option Obj
  | .null => some .null
  | .bool b => some (.string (if b then "true".toList else "false".toList))
  | .integer n => some (.string (toString n).toList)
  | .real literal => some (.string literal)
  | .string s => some (.string s)
  | .array _ => none
  | .object _ => none

/-- Read a document where a truth value is wanted. -/
def readBoolean : Json → Option Obj
  | .null => some .null
  | .bool b => some (.boolean b)
  | .string s => some (.boolean (decide (s.map Char.toLower = "true".toList)))
  | _ => none

/-- Read every element. -/
def readElements (read : Json → Option Obj) : List Json → Option (List Obj)
  | [] => some []
  | j :: rest =>
    match read j, readElements read rest with
    | some v, some vs => some (v :: vs)
    | _, _ => none

/-- Read every entry. -/
def readEntries (read : Json → Option Obj) : List (Text × Json) → Option (List (Text × Obj))
  | [] => some []
  | e :: rest =>
    match read e.2, readEntries read rest with
    | some v, some vs => some ((e.1, v) :: vs)
    | _, _ => none

section Binding

variable (nextInt : Text → Option Int)

/-- Read a document where an integer is wanted. -/
def readInteger : Json → Option Obj
  | .null => some .null
  | .integer n => if InRange n then some (.integer n) else none
  | .real literal => (nextInt literal).map .integer
  | .string s => (nextInt s).map .integer
  | _ => none

/-- Set a field; null does not change a primitive one. -/
def setField (type : Ty) (v : Obj) : Obj :=
  if v.isNull then type.default else v

mutual

/-- Read a document into an object of a type; `none` when it throws. -/
def fromJson : Ty → Json → Option Obj
  | .string, j => readString j
  | .boolean, j => readBoolean j
  | .integer, j => readInteger nextInt j
  | .map type, j =>
    match j with
    | .null => some .null
    | .object members =>
      if (members.map Prod.fst).Nodup then
        (readEntries (fun j => fromJson type j) members).map .members
      else none
    | _ => none
  | .list type, j =>
    match j with
    | .null => some .null
    | .array elements => (readElements (fun j => fromJson type j) elements).map .list
    | _ => none
  | .object fields, j =>
    match j with
    | .null => some .null
    | .object members => (fromFields fields members).map .members
    | _ => none

def fromFields : Fields → List (Text × Json) → Option (List (Text × Obj))
  | .nil, _ => some []
  | .cons name type rest, members =>
    match lookup name members, fromFields rest members with
    | none, some vs => some ((name, type.default) :: vs)
    | some j, some vs => (fromJson type j).map fun v => (name, setField type v) :: vs
    | _, none => none

end

/-- A map is read member by member, and not at all when a key stands twice. -/
theorem fromJson_map_object (type : Ty) (members : List (Text × Json)) :
    fromJson nextInt (.map type) (.object members) =
      if (members.map Prod.fst).Nodup then
        (readEntries (fun j => fromJson nextInt type j) members).map .members
      else none := by
  rw [fromJson]

/-! ## Writing -/

mutual

/-- Write an object. -/
def toJson : Obj → Json
  | .null => .null
  | .string s => .string s
  | .boolean b => .bool b
  | .integer n => .integer n
  | .list elements => .array (elementsJson elements)
  | .members entries => .object (membersJson entries)

def elementsJson : List Obj → List Json
  | [] => []
  | v :: rest => toJson v :: elementsJson rest

/-- Null is not written as a member. -/
def membersJson : List (Text × Obj) → List (Text × Json)
  | [] => []
  | (name, v) :: rest =>
    if v.isNull then membersJson rest else (name, toJson v) :: membersJson rest

end

/-! ## Which documents can be read -/

mutual

/-- The document can be read into the type. -/
def Bindable : Ty → Json → Prop
  | .string, j =>
    match j with
    | .array _ => False
    | .object _ => False
    | _ => True
  | .boolean, j =>
    match j with
    | .null => True
    | .bool _ => True
    | .string _ => True
    | _ => False
  | .integer, j =>
    match j with
    | .null => True
    | .integer n => InRange n
    | .real literal => (nextInt literal).isSome = true
    | .string s => (nextInt s).isSome = true
    | _ => False
  | .map type, j =>
    match j with
    | .null => True
    | .object members => (members.map Prod.fst).Nodup ∧ ∀ e ∈ members, Bindable type e.2
    | _ => False
  | .list type, j =>
    match j with
    | .null => True
    | .array elements => ∀ j ∈ elements, Bindable type j
    | _ => False
  | .object fields, j =>
    match j with
    | .null => True
    | .object members => BindableFields fields members
    | _ => False

/-- The members that belong to fields can be read. -/
def BindableFields : Fields → List (Text × Json) → Prop
  | .nil, _ => True
  | .cons name type rest, members =>
    (∀ j ∈ lookup name members, Bindable type j) ∧ BindableFields rest members

end

/-- An array is read if each of its elements is. -/
theorem readElements_isSome_iff {read : Json → Option Obj} {elements : List Json} :
    (readElements read elements).isSome = true ↔ ∀ j ∈ elements, (read j).isSome = true := by
  induction elements with
  | nil => simp [readElements]
  | cons j rest ih =>
      rw [readElements, List.forall_mem_cons, ← ih]
      cases read j <;> cases readElements read rest <;> simp

/-- The members of an object are read if each of their values is. -/
theorem readEntries_isSome_iff {read : Json → Option Obj} {members : List (Text × Json)} :
    (readEntries read members).isSome = true ↔ ∀ e ∈ members, (read e.2).isSome = true := by
  induction members with
  | nil => simp [readEntries]
  | cons e rest ih =>
      rw [readEntries, List.forall_mem_cons, ← ih]
      cases read e.2 <;> cases readEntries read rest <;> simp

mutual

/-- The documents that can be read. -/
theorem fromJson_isSome_iff : ∀ (type : Ty) (j : Json),
    (fromJson nextInt type j).isSome = true ↔ Bindable nextInt type j
  | .string, j => by
      cases j with
      | array _ | object _ => exact iff_of_false Bool.false_ne_true id
      | _ => exact iff_of_true rfl trivial
  | .boolean, j => by
      cases j with
      | null | bool _ | string _ => exact iff_of_true rfl trivial
      | _ => exact iff_of_false Bool.false_ne_true id
  | .integer, j => by
      cases j with
      | null => exact iff_of_true rfl trivial
      | integer n => by_cases h : InRange n <;> simp [fromJson, readInteger, Bindable, h]
      | real literal | string literal =>
          simp only [fromJson, readInteger, Bindable, Option.isSome_map]
      | _ => exact iff_of_false Bool.false_ne_true id
  | .map type, j => by
      cases j with
      | object members =>
          have ih := fun e : Text × Json => fromJson_isSome_iff type e.2
          unfold fromJson Bindable
          by_cases hnodup : (members.map Prod.fst).Nodup
          · simp [hnodup, readEntries_isSome_iff, ih]
          · simp [hnodup]
      | null => exact iff_of_true rfl trivial
      | _ => exact iff_of_false Bool.false_ne_true id
  | .list type, j => by
      cases j with
      | array elements =>
          have ih := fun j => fromJson_isSome_iff type j
          unfold fromJson Bindable
          simp [readElements_isSome_iff, ih]
      | null => exact iff_of_true rfl trivial
      | _ => exact iff_of_false Bool.false_ne_true id
  | .object fields, j => by
      cases j with
      | object members =>
          have ih := fromFields_isSome_iff fields members
          unfold fromJson Bindable
          simpa using ih
      | null => exact iff_of_true rfl trivial
      | _ => exact iff_of_false Bool.false_ne_true id

/-- The fields of a class are read if each of them can be bound. -/
theorem fromFields_isSome_iff : ∀ (fields : Fields) (members : List (Text × Json)),
    (fromFields nextInt fields members).isSome = true ↔ BindableFields nextInt fields members
  | .nil, members => by simp [fromFields, BindableFields]
  | .cons name type rest, members => by
      have hrest := fromFields_isSome_iff rest members
      have htype := fun j => fromJson_isSome_iff type j
      unfold fromFields BindableFields
      rw [← hrest]
      cases lookup name members with
      | none => cases fromFields nextInt rest members <;> simp
      | some j => cases fromFields nextInt rest members <;> simp [htype]

end

/-! ## Members behind reading and writing -/

/-- A value as a member. -/
def written (v : Obj) : Option Json :=
  if v.isNull then none else some (toJson v)

/-- A member is written under its name, unless it is null. -/
theorem lookup_membersJson_cons (k : Text) (e : Text × Obj) (rest : List (Text × Obj)) :
    lookup k (membersJson (e :: rest)) =
      if e.1 = k ∧ e.2.isNull = false then some (toJson e.2)
      else lookup k (membersJson rest) := by
  obtain ⟨name, v⟩ := e
  rw [membersJson]
  cases hnull : v.isNull with
  | true => simp
  | false => simp [lookup_cons]

/-- What is not an entry is not written. -/
theorem lookup_membersJson_eq_none {k : Text} {entries : List (Text × Obj)}
    (h : k ∉ entries.map Prod.fst) : lookup k (membersJson entries) = none := by
  induction entries with
  | nil => rfl
  | cons e rest ih =>
      rw [List.map_cons, List.mem_cons, not_or] at h
      rw [lookup_membersJson_cons, if_neg fun heq => h.1 heq.1.symm, ih h.2]

/-- With different names the entry of a name is written, or it is null. -/
theorem lookup_membersJson {entries : List (Text × Obj)}
    (hnodup : (entries.map Prod.fst).Nodup) (k : Text) :
    lookup k (membersJson entries) = (lookup k entries).bind written := by
  induction entries with
  | nil => rfl
  | cons e rest ih =>
      rw [List.map_cons, List.nodup_cons] at hnodup
      rw [lookup_membersJson_cons, lookup_cons]
      by_cases hk : e.1 = k
      · subst hk
        rw [if_pos rfl, Option.bind_some, written, lookup_membersJson_eq_none hnodup.1]
        cases e.2.isNull <;> simp
      · rw [if_neg fun h => hk h.1, if_neg hk, ih hnodup.2]

/-- Reading keeps the names of the members. -/
theorem readEntries_names {read : Json → Option Obj} {members : List (Text × Json)}
    {entries : List (Text × Obj)} (h : readEntries read members = some entries) :
    entries.map Prod.fst = members.map Prod.fst := by
  induction members generalizing entries with
  | nil =>
      rw [readEntries, Option.some.injEq] at h
      rw [← h]
      rfl
  | cons e rest ih =>
      rw [readEntries] at h
      split at h
      · rename_i v vs hv hvs
        rw [← Option.some.inj h, List.map_cons, List.map_cons, ih hvs]
      · cases h

/-- Looking up and reading commute. -/
theorem lookup_readEntries {read : Json → Option Obj} {members : List (Text × Json)}
    {entries : List (Text × Obj)} (h : readEntries read members = some entries) (k : Text) :
    lookup k entries = (lookup k members).bind read := by
  induction members generalizing entries with
  | nil =>
      rw [readEntries, Option.some.injEq] at h
      rw [← h]
      rfl
  | cons e rest ih =>
      rw [readEntries] at h
      split at h
      · rename_i v vs hv hvs
        rw [← Option.some.inj h, lookup_cons, lookup_cons, ih hvs]
        split_ifs with hk
        · rw [Option.bind_some, hv]
        · rfl
      · cases h

/-- A member behind reading and writing a map. -/
theorem lookup_map {read : Json → Option Obj} {members : List (Text × Json)}
    {entries : List (Text × Obj)} (hnodup : (members.map Prod.fst).Nodup)
    (h : readEntries read members = some entries) (k : Text) :
    lookup k (membersJson entries) = (lookup k members).bind fun j => (read j).bind written := by
  rw [lookup_membersJson (readEntries_names h ▸ hnodup), lookup_readEntries h, Option.bind_assoc]

/-- A class has its declared fields, whatever the document has. -/
theorem fromFields_names {fields : Fields} {members : List (Text × Json)}
    {entries : List (Text × Obj)} (h : fromFields nextInt fields members = some entries) :
    entries.map Prod.fst = fields.names := by
  match fields with
  | .nil =>
      rw [fromFields, Option.some.injEq] at h
      rw [← h]
      rfl
  | .cons name type rest =>
      rw [fromFields] at h
      split at h
      · rename_i vs _ hvs
        rw [← Option.some.inj h, List.map_cons, fromFields_names hvs, Fields.names]
      · rename_i j vs _ hvs
        obtain ⟨v, -, rfl⟩ := Option.map_eq_some_iff.mp h
        rw [List.map_cons, fromFields_names hvs, Fields.names]
      · cases h

/-! ## Which documents keep their value -/

mutual

/-- The document has the type through and through, every primitive field is present
and no member is null or without a field. -/
def Fits : Ty → Json → Prop
  | .string, j =>
    match j with
    | .string _ => True
    | _ => False
  | .boolean, j =>
    match j with
    | .bool _ => True
    | _ => False
  | .integer, j =>
    match j with
    | .integer n => InRange n
    | _ => False
  | .map type, j =>
    match j with
    | .object members => (members.map Prod.fst).Nodup ∧ ∀ e ∈ members, Fits type e.2
    | _ => False
  | .list type, j =>
    match j with
    | .array elements => ∀ j ∈ elements, j = .null ∨ Fits type j
    | _ => False
  | .object fields, j =>
    match j with
    | .object members => FitsFields fields members ∧ ∀ e ∈ members, e.1 ∈ fields.names
    | _ => False

/-- The members that belong to fields have the types of these. -/
def FitsFields : Fields → List (Text × Json) → Prop
  | .nil, _ => True
  | .cons name type rest, members =>
    (match lookup name members with
      | none => type.isPrimitive = false
      | some j => Fits type j) ∧ FitsFields rest members

end

/-- The document keeps its value when it is read and written as a member. -/
def Keeps (type : Ty) (j : Json) : Prop :=
  ((fromJson nextInt type j).bind written).map Json.value = some j.value

/-- Null is read from null only. -/
theorem fromJson_eq_null {type : Ty} {j : Json} (h : fromJson nextInt type j = some .null) :
    j = .null := by
  cases type with
  | string =>
      cases j with
      | null => rfl
      | _ => cases h
  | boolean =>
      cases j with
      | null => rfl
      | _ => cases h
  | integer =>
      cases j with
      | null => rfl
      | integer n =>
          rw [fromJson, readInteger] at h
          split_ifs at h
          cases h
      | real literal | string literal =>
          obtain ⟨n, -, hn⟩ := Option.map_eq_some_iff.mp h
          cases hn
      | _ => cases h
  | map type =>
      cases j with
      | null => rfl
      | object members =>
          rw [fromJson] at h
          split_ifs at h
          obtain ⟨vs, -, hvs⟩ := Option.map_eq_some_iff.mp h
          cases hvs
      | _ => cases h
  | list type =>
      cases j with
      | null => rfl
      | array elements =>
          rw [fromJson] at h
          obtain ⟨vs, -, hvs⟩ := Option.map_eq_some_iff.mp h
          cases hvs
      | _ => cases h
  | object fields =>
      cases j with
      | null => rfl
      | object members =>
          rw [fromJson] at h
          obtain ⟨vs, -, hvs⟩ := Option.map_eq_some_iff.mp h
          cases hvs
      | _ => cases h

/-- Null is read as null, at every type. -/
theorem fromJson_null (type : Ty) : fromJson nextInt type .null = some .null := by
  cases type <;> rfl

/-- A value is kept if it is read, is not null, and is written as it was. -/
theorem keeps_iff_exists {type : Ty} {j : Json} :
    Keeps nextInt type j ↔ ∃ v, fromJson nextInt type j = some v ∧ v.isNull = false ∧
      (toJson v).value = j.value := by
  unfold Keeps
  cases fromJson nextInt type j with
  | none => simp
  | some v => cases hnull : v.isNull <;> simp [written, hnull]

/-- An element keeps its value also when it is null. -/
theorem element_iff {type : Ty} {j : Json} :
    (∃ v, fromJson nextInt type j = some v ∧ (toJson v).value = j.value) ↔
      j = .null ∨ Keeps nextInt type j := by
  rw [keeps_iff_exists]
  constructor
  · rintro ⟨v, hv, hvalue⟩
    cases v with
    | null => exact Or.inl (fromJson_eq_null nextInt hv)
    | _ => exact Or.inr ⟨_, hv, rfl, hvalue⟩
  · rintro (rfl | ⟨v, hv, -, hvalue⟩)
    · exact ⟨.null, fromJson_null nextInt type, rfl⟩
    · exact ⟨v, hv, hvalue⟩

/-- An array is kept if each of its elements is. -/
theorem keptElements_iff {read : Json → Option Obj} {elements : List Json} :
    (∃ vs, readElements read elements = some vs ∧
        (elementsJson vs).map Json.value = elements.map Json.value) ↔
      ∀ j ∈ elements, ∃ v, read j = some v ∧ (toJson v).value = j.value := by
  induction elements with
  | nil => simp [readElements, elementsJson]
  | cons j rest ih =>
      rw [List.forall_mem_cons, ← ih, readElements]
      constructor
      · rintro ⟨vs, hread, hvalues⟩
        split at hread
        · rename_i v vs' hv hvs
          rw [← Option.some.inj hread, elementsJson, List.map_cons, List.map_cons,
            List.cons.injEq] at hvalues
          exact ⟨⟨v, hv, hvalues.1⟩, vs', hvs, hvalues.2⟩
        · cases hread
      · rintro ⟨⟨v, hv, hvalue⟩, vs, hvs, hvalues⟩
        refine ⟨v :: vs, by rw [hv, hvs], ?_⟩
        rw [elementsJson, List.map_cons, List.map_cons, hvalue, hvalues]

/-- A map keeps its value exactly when its names are different and every entry keeps
its value. -/
theorem keeps_map_iff {type : Ty} {members : List (Text × Json)} :
    Keeps nextInt (.map type) (.object members) ↔
      (members.map Prod.fst).Nodup ∧ ∀ e ∈ members, Keeps nextInt type e.2 := by
  rw [keeps_iff_exists, fromJson_map_object]
  by_cases hnodup : (members.map Prod.fst).Nodup
  · simp only [true_and, hnodup, if_true]
    constructor
    · rintro ⟨v, hv, -, hvalue⟩ e he
      obtain ⟨vs, hvs, rfl⟩ := Option.map_eq_some_iff.mp hv
      rw [toJson, value_object_eq_iff] at hvalue
      have hmember := hvalue e.1
      rw [lookup_map hnodup hvs, lookup_of_mem hnodup he] at hmember
      exact hmember
    · intro hkeeps
      have hread : (readEntries (fun j => fromJson nextInt type j) members).isSome = true := by
        rw [readEntries_isSome_iff]
        intro e he
        obtain ⟨v, hv, -⟩ := (keeps_iff_exists nextInt).mp (hkeeps e he)
        rw [hv]
        rfl
      obtain ⟨vs, hvs⟩ := Option.isSome_iff_exists.mp hread
      refine ⟨.members vs, by rw [hvs]; rfl, rfl, ?_⟩
      rw [toJson, value_object_eq_iff]
      intro k
      rw [lookup_map hnodup hvs]
      cases hk : lookup k members with
      | none => rfl
      | some j => exact hkeeps (k, j) (mem_of_lookup hk)
  · simp [hnodup]

/-- An object keeps its value exactly when the members that belong to fields do and
there are no others. -/
theorem keeps_object_iff {fields : Fields} {members : List (Text × Json)} :
    Keeps nextInt (.object fields) (.object members) ↔
      (∃ vs, fromFields nextInt fields members = some vs ∧ ∀ k ∈ fields.names,
        (lookup k (membersJson vs)).map Json.value = (lookup k members).map Json.value) ∧
      ∀ e ∈ members, e.1 ∈ fields.names := by
  have habsent : ∀ {vs}, fromFields nextInt fields members = some vs →
      ∀ k, k ∉ fields.names → lookup k (membersJson vs) = none := by
    intro vs hvs k hk
    exact lookup_membersJson_eq_none (fromFields_names nextInt hvs ▸ hk)
  rw [keeps_iff_exists, fromJson]
  constructor
  · rintro ⟨v, hv, -, hvalue⟩
    obtain ⟨vs, hvs, rfl⟩ := Option.map_eq_some_iff.mp hv
    rw [toJson, value_object_eq_iff] at hvalue
    refine ⟨⟨vs, hvs, fun k _ => hvalue k⟩, fun e he => ?_⟩
    by_contra hname
    have hmember := hvalue e.1
    rw [habsent hvs e.1 hname, Option.map_none, eq_comm, Option.map_eq_none_iff,
      lookup_eq_none] at hmember
    exact hmember e he rfl
  · rintro ⟨⟨vs, hvs, hfields⟩, hnames⟩
    refine ⟨.members vs, by rw [hvs]; rfl, rfl, ?_⟩
    rw [toJson, value_object_eq_iff]
    intro k
    by_cases hk : k ∈ fields.names
    · exact hfields k hk
    · have hnone : lookup k members = none := by
        rw [lookup_eq_none]
        rintro e he rfl
        exact hk (hnames e he)
      rw [habsent hvs k hk, hnone]

/-- The default of a type is null unless the type is primitive. -/
theorem default_isNull (type : Ty) : type.default.isNull = !type.isPrimitive := by
  cases type <;> rfl

/-- Setting a field to null and writing the default for it come to the same: the
null is lost. -/
theorem setField_kept_iff {type : Ty} {j : Json} {v : Obj} (h : fromJson nextInt type j = some v) :
    (written (setField type v)).map Json.value = some j.value ↔ Keeps nextInt type j := by
  rw [Keeps, h, Option.bind_some]
  cases v with
  | null =>
      rw [fromJson_eq_null nextInt h]
      cases type <;>
        simp [setField, written, Obj.isNull, Ty.default, toJson, Json.value]
  | _ => simp [setField, Obj.isNull]

/-- The first member is found by its name. -/
theorem lookup_membersJson_head {name : Text} {v : Obj} {rest : List (Text × Obj)}
    (h : name ∉ rest.map Prod.fst) :
    lookup name (membersJson ((name, v) :: rest)) = written v := by
  rw [lookup_membersJson_cons, lookup_membersJson_eq_none h, written]
  cases v.isNull <;> simp

/-- The first field and the others keep their members apart from each other. -/
theorem keptFields_cons_iff {name : Text} {type : Ty} {rest : Fields} (hname : name ∉ rest.names)
    {members : List (Text × Json)} :
    (∃ vs, fromFields nextInt (.cons name type rest) members = some vs ∧
      ∀ k ∈ (Fields.cons name type rest).names,
        (lookup k (membersJson vs)).map Json.value = (lookup k members).map Json.value) ↔
    (match lookup name members with
      | none => type.isPrimitive = false
      | some j => Keeps nextInt type j) ∧
    ∃ vs, fromFields nextInt rest members = some vs ∧ ∀ k ∈ rest.names,
      (lookup k (membersJson vs)).map Json.value = (lookup k members).map Json.value := by
  cases hrest : fromFields nextInt rest members with
  | none => cases hl : lookup name members <;> simp [fromFields, hrest, hl]
  | some vs =>
      have hvs : name ∉ vs.map Prod.fst := fromFields_names nextInt hrest ▸ hname
      have hothers : ∀ v k, k ∈ rest.names →
          lookup k (membersJson ((name, v) :: vs)) = lookup k (membersJson vs) := by
        intro v k hk
        rw [lookup_membersJson_cons, if_neg]
        rintro ⟨rfl, -⟩
        exact hname hk
      have hall : ∀ v, (∀ k ∈ (Fields.cons name type rest).names,
          (lookup k (membersJson ((name, v) :: vs))).map Json.value =
            (lookup k members).map Json.value) ↔
          (written v).map Json.value = (lookup name members).map Json.value ∧
            ∀ k ∈ rest.names, (lookup k (membersJson vs)).map Json.value =
              (lookup k members).map Json.value := by
        intro v
        rw [Fields.names, List.forall_mem_cons, lookup_membersJson_head hvs]
        refine and_congr_right fun _ => forall_congr' fun k => forall_congr' fun hk => ?_
        rw [hothers v k hk]
      cases hl : lookup name members with
      | none =>
          simp only [fromFields, hrest, hl, Option.some.injEq, exists_eq_left', hall]
          rw [written, default_isNull]
          cases type.isPrimitive <;> simp
      | some j =>
          simp only [fromFields, hrest, hl, Option.some.injEq, exists_eq_left',
            Option.map_eq_some_iff]
          cases hv : fromJson nextInt type j with
          | none => simp [Keeps, hv]
          | some v =>
              simp only [Option.some.injEq, exists_eq_left', hall, hl, Option.map_some]
              rw [setField_kept_iff nextInt hv]

mutual

/-- A document keeps its value exactly when it fits the type. -/
theorem kept_iff : ∀ (type : Ty), type.Proper → ∀ j : Json, Keeps nextInt type j ↔ Fits type j
  | .string, _, j => by
      cases j with
      | string s => exact iff_of_true rfl trivial
      | _ => exact iff_of_false nofun id
  | .boolean, _, j => by
      cases j with
      | bool b => exact iff_of_true rfl trivial
      | _ => exact iff_of_false nofun id
  | .integer, _, j => by
      cases j with
      | integer n =>
          by_cases h : InRange n <;>
            simp [Keeps, fromJson, readInteger, written, Obj.isNull, toJson, Json.value, Fits, h]
      | real literal =>
          cases hint : nextInt literal <;>
            simp [Keeps, fromJson, readInteger, written, Obj.isNull, toJson, Json.value, Fits, hint]
      | string s =>
          cases hint : nextInt s <;>
            simp [Keeps, fromJson, readInteger, written, Obj.isNull, toJson, Json.value, Fits, hint]
      | _ => exact iff_of_false nofun id
  | .map type, hproper, j => by
      cases j with
      | object members =>
          have ih := fun e : Text × Json => kept_iff type hproper e.2
          rw [keeps_map_iff]
          simp only [Fits, ih]
      | _ => exact iff_of_false nofun id
  | .list type, hproper, j => by
      cases j with
      | array elements =>
          have ih := fun j => kept_iff type hproper j
          have helements : Keeps nextInt (.list type) (.array elements) ↔
              ∃ vs, readElements (fun j => fromJson nextInt type j) elements = some vs ∧
                (elementsJson vs).map Json.value = elements.map Json.value := by
            rw [keeps_iff_exists, fromJson]
            simp [Option.map_eq_some_iff, Obj.isNull, toJson, value_array_eq_iff]
          rw [helements, keptElements_iff]
          simp only [element_iff, ih, Fits]
      | _ => exact iff_of_false nofun id
  | .object fields, hproper, j => by
      cases j with
      | object members =>
          rw [keeps_object_iff, keptFields_iff fields hproper members, Fits]
      | _ => exact iff_of_false nofun id

/-- The members that belong to fields keep their values exactly when they fit. -/
theorem keptFields_iff : ∀ (fields : Fields), fields.Proper → ∀ members : List (Text × Json),
    (∃ vs, fromFields nextInt fields members = some vs ∧ ∀ k ∈ fields.names,
      (lookup k (membersJson vs)).map Json.value = (lookup k members).map Json.value) ↔
    FitsFields fields members
  | .nil, _, members => by simp [fromFields, Fields.names, FitsFields]
  | .cons name type rest, hproper, members => by
      have hrest := keptFields_iff rest hproper.2.2 members
      have htype := fun j => kept_iff type hproper.2.1 j
      rw [keptFields_cons_iff nextInt hproper.1, hrest, FitsFields]
      cases lookup name members with
      | none => exact Iff.rfl
      | some j => exact and_congr_left' (htype j)

end

end Binding

end Library
end ModpackInstaller
