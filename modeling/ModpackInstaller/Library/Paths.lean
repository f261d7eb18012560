import ModpackInstaller.Library.Lines

/-!
# Paths with dots

A path is walked name by name: an empty name or a dot stays, two dots go up, any
other name goes down, and the root is its own parent.  What a list of names does
to every directory is a number of levels up and then names down.

Main results:

- Theorem {lit}`walk_eq_net`: a walk is given by its net effect.
- Theorem {lit}`prefix_walk_iff`: a walk ends inside of its directory exactly
  when it does not go up in the net, or comes back in through the same names.
- Theorems {lit}`placeOf_append_sep` and {lit}`placeOf_name`: a path is walked
  name by name.
- Theorem {lit}`walk_single`: a single name leads directly into a directory
  exactly when it is not empty and no dots.
-/

namespace ModpackInstaller
namespace Library

variable {α : Type*}

/-! ## Hops -/

/-- What one name of a path does. -/
inductive Hop (α : Type*) where
  | stay
  | up
  | down (name : α)

/-- One hop from a directory. -/
def hop (dir : List α) : Hop α → List α
  | .stay => dir
  | .up => dir.dropLast
  | .down name => dir ++ [name]

/-- A walk from a directory. -/
def walk (dir : List α) (hops : List (Hop α)) : List α :=
  hops.foldl hop dir

@[simp] theorem walk_nil (dir : List α) : walk dir [] = dir := rfl

@[simp] theorem walk_cons (dir : List α) (h : Hop α) (hops : List (Hop α)) :
    walk dir (h :: hops) = walk (hop dir h) hops := rfl

/-! ## Net effect -/

/-- A number of levels up and then names down. -/
structure Net (α : Type*) where
  ups : Nat
  names : List α

/-- One more hop: going up takes back the last name down, if there is one. -/
def Net.push (n : Net α) : Hop α → Net α
  | .stay => n
  | .up => if n.names = [] then ⟨n.ups + 1, []⟩ else ⟨n.ups, n.names.dropLast⟩
  | .down name => ⟨n.ups, n.names ++ [name]⟩

/-- Where the effect leads from a directory. -/
def Net.apply (n : Net α) (dir : List α) : List α :=
  dir.take (dir.length - n.ups) ++ n.names

/-- The net effect of a list of hops. -/
def net (hops : List (Hop α)) : Net α :=
  hops.foldl Net.push ⟨0, []⟩

theorem Net.apply_push (n : Net α) (h : Hop α) (dir : List α) :
    (n.push h).apply dir = hop (n.apply dir) h := by
  cases h with
  | stay => rfl
  | up =>
      by_cases hnames : n.names = []
      · have htake : (dir.take (dir.length - n.ups)).dropLast =
            dir.take (dir.length - (n.ups + 1)) := by
          rw [List.dropLast_eq_take, List.take_take, List.length_take]
          congr 1
          omega
        simp [push, apply, hop, hnames, htake]
      · simp [push, apply, hop, hnames, List.dropLast_append_of_ne_nil]
  | down name => simp [push, apply, hop]

theorem Net.walk_apply (n : Net α) (hops : List (Hop α)) (dir : List α) :
    walk (n.apply dir) hops = (hops.foldl Net.push n).apply dir := by
  induction hops generalizing n with
  | nil => rfl
  | cons h hops ih => rw [walk_cons, ← Net.apply_push, ih, List.foldl_cons]

/-- A walk is given by its net effect. -/
theorem walk_eq_net (dir : List α) (hops : List (Hop α)) :
    walk dir hops = (net hops).apply dir := by
  have hstart : (⟨0, []⟩ : Net α).apply dir = dir := by simp [Net.apply]
  rw [net, ← Net.walk_apply, hstart]

/-- A walk ends inside of its directory exactly when the names it went up come
back. -/
theorem prefix_walk_iff (dir : List α) (hops : List (Hop α)) :
    dir <+: walk dir hops ↔
      dir.drop (dir.length - (net hops).ups) <+: (net hops).names := by
  rw [walk_eq_net, Net.apply]
  nth_rewrite 1 [← List.take_append_drop (dir.length - (net hops).ups) dir]
  exact List.prefix_append_right_inj _

/-! ## Names -/

/-- What a name of a path does. -/
def Hop.ofName (name : List Char) : Hop (List Char) :=
  if name = [] ∨ name = ['.'] then .stay
  else if name = ['.', '.'] then .up
  else .down name

/-- A name that leads to an entry of a directory. -/
def IsName (name : List Char) : Prop :=
  name ≠ [] ∧ name ≠ ['.'] ∧ name ≠ ['.', '.']

instance : DecidablePred IsName := fun _ => inferInstanceAs (Decidable (_ ∧ _))

theorem ofName_of_isName {name : List Char} (h : IsName name) : Hop.ofName name = .down name := by
  simp [Hop.ofName, h.1, h.2.1, h.2.2]

/-- A single name leads directly into a directory exactly when it is the name of
an entry. -/
theorem walk_single {dir : List (List Char)} {name : List Char} :
    (∃ entry, walk dir [Hop.ofName name] = dir ++ [entry]) ↔ IsName name := by
  constructor
  · rintro ⟨entry, hentry⟩
    have hlength := congrArg List.length hentry
    unfold Hop.ofName at hlength
    refine ⟨?_, ?_, ?_⟩
    · rintro rfl
      simp [hop] at hlength
    · rintro rfl
      simp [hop] at hlength
    · rintro rfl
      simp only [List.cons.injEq, reduceCtorEq, and_false, or_self, if_false, if_true, walk_cons,
        walk_nil, hop, List.length_dropLast, List.length_append, List.length_singleton] at hlength
      omega
  · intro hname
    exact ⟨name, by simp [ofName_of_isName hname, hop]⟩

/-- The place of a path that is written down relative to a directory. -/
def placeOf (dir : List (List Char)) (path : List Char) : List (List Char) :=
  walk dir ((pieces '/' path).map Hop.ofName)

/-- The first name of a path. -/
theorem placeOf_append_sep {dir : List (List Char)} {name : List Char} (h : '/' ∉ name)
    (rest : List Char) :
    placeOf dir (name ++ '/' :: rest) = placeOf (hop dir (Hop.ofName name)) rest := by
  rw [placeOf, pieces_append_sep h, List.map_cons, walk_cons, placeOf]

/-- A path of one name. -/
theorem placeOf_name {dir : List (List Char)} {name : List Char} (h : '/' ∉ name) :
    placeOf dir name = walk dir [Hop.ofName name] := by
  by_cases hne : name = []
  · simp [hne, placeOf, Hop.ofName, hop]
  · rw [placeOf, pieces_of_not_mem h hne, List.map_singleton]

end Library
end ModpackInstaller
