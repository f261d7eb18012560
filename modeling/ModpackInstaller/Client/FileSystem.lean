import Mathlib.Data.List.Infix
import ModpackInstaller.Text

/-!
# The file system of the client

The part of {lit}`java.io.File` that the installer uses, over a finite tree of
files and directories with absolute paths.  The root directory is always there.
A {lit}`File` hands its name to the system as it is, and the system walks along it,
as on UNIX: a dot needs a directory to stand in.

Main results:

- Theorems {lit}`Fs.get_set` and {lit}`Fs.get_erase`: the frame of the two
  elementary changes.
- Theorem {lit}`Fs.get_delete`: {lit}`delete` removes a file or an empty
  directory and otherwise changes nothing.
- Theorem {lit}`Fs.mkdirs_child`: {lit}`mkdirs` below an existing directory
  makes one directory.
- Theorem {lit}`IsTree.delete`: trees stay trees.
- Theorem {lit}`File.reached_of_plain`: a name without dots is walked in every tree.
-/

namespace ModpackInstaller
namespace Client

/-- An absolute path, from the root. -/
abbrev Path := List Text

/-- What is at a path. -/
inductive Node where
  | file (content : Text)
  | dir
deriving DecidableEq, Repr

/-- Files and directories by path. -/
structure Fs where
  nodes : List (Path × Node)
deriving DecidableEq, Repr

namespace Fs

/-- The node at a path. -/
def get (fs : Fs) (p : Path) : Option Node :=
  (fs.nodes.find? fun e => decide (e.1 = p)).map Prod.snd

/-- Put a node at a path. -/
def set (fs : Fs) (p : Path) (n : Node) : Fs :=
  ⟨(p, n) :: fs.nodes⟩

/-- Take the node at a path away. -/
def erase (fs : Fs) (p : Path) : Fs :=
  ⟨fs.nodes.filter fun e => decide (e.1 ≠ p)⟩

/-- Something lies below the path. -/
def hasChildren (fs : Fs) (p : Path) : Bool :=
  fs.nodes.any fun e => decide (p <+: e.1 ∧ e.1 ≠ p)

@[simp] theorem get_set (fs : Fs) (p q : Path) (n : Node) :
    (fs.set p n).get q = if q = p then some n else fs.get q := by
  by_cases h : q = p
  · simp [get, set, h]
  · simp [get, set, h, Ne.symm h]

@[simp] theorem get_erase (fs : Fs) (p q : Path) :
    (fs.erase p).get q = if q = p then none else fs.get q := by
  rw [get, erase]
  by_cases h : q = p
  · subst h
    simp
  · rw [if_neg h, get, List.find?_filter]
    congr 1
    refine congrArg (fun f => fs.nodes.find? f) (funext fun e => ?_)
    by_cases he : e.1 = q
    · simp [he, h]
    · simp [he]

theorem get_eq_none {fs : Fs} {p : Path} : fs.get p = none ↔ ∀ e ∈ fs.nodes, e.1 ≠ p := by
  simp [get]

/-- Whether something lies below a path can be seen from the nodes. -/
theorem hasChildren_iff {fs : Fs} {p : Path} :
    fs.hasChildren p = true ↔ ∃ q, p <+: q ∧ q ≠ p ∧ fs.get q ≠ none := by
  rw [hasChildren, List.any_eq_true]
  constructor
  · rintro ⟨e, he, hbelow⟩
    rw [decide_eq_true_eq] at hbelow
    exact ⟨e.1, hbelow.1, hbelow.2, fun h => get_eq_none.mp h e he rfl⟩
  · rintro ⟨q, hpre, hne, hget⟩
    rw [Ne, get_eq_none] at hget
    push Not at hget
    obtain ⟨e, he, rfl⟩ := hget
    exact ⟨e, he, by simpa using ⟨hpre, hne⟩⟩

/-! ## The operations of `java.io.File` -/

/-- `File.exists` -/
def fileExists (fs : Fs) (p : Path) : Bool :=
  decide (p = []) || (fs.get p).isSome

/-- `File.isDirectory` -/
def isDirectory (fs : Fs) (p : Path) : Bool :=
  decide (p = [] ∨ fs.get p = some .dir)

/-- `File.isFile` -/
def isFile (fs : Fs) (p : Path) : Bool :=
  match fs.get p with
  | some (.file _) => true
  | _ => false

/-- `File.delete`: a directory that is not empty stays, and so does the root. -/
def delete (fs : Fs) (p : Path) : Bool × Fs :=
  match fs.get p with
  | none => (false, fs)
  | some (.file _) => (true, fs.erase p)
  | some .dir => if fs.hasChildren p then (false, fs) else (true, fs.erase p)

/-- Make the directories on the way from `done` down along the names. -/
def mkdirsFrom (fs : Fs) (done : Path) : List Text → Option Fs
  | [] => some fs
  | name :: names =>
    match fs.get (done ++ [name]) with
    | none => mkdirsFrom (fs.set (done ++ [name]) .dir) (done ++ [name]) names
    | some .dir => mkdirsFrom fs (done ++ [name]) names
    | some (.file _) => none

/-- `File.mkdirs` on a path that does not exist; `none` is the return value
false, with nothing made. -/
def mkdirs (fs : Fs) (p : Path) : Option Fs :=
  fs.mkdirsFrom [] p

/-- Write a file through a new `FileOutputStream`; `none` is the exception of
its constructor. -/
def write (fs : Fs) (p : Path) (content : Text) : Option Fs :=
  if p ≠ [] ∧ fs.isDirectory p.dropLast ∧ fs.get p ≠ some .dir then
    some (fs.set p (.file content))
  else none

/-- Where a name leads from a directory.  Names that are empty or dots do not stay
in the path. -/
def resolve (dir : Path) (filename : Text) : Path :=
  (Library.pieces '/' filename).foldl
    (fun p name =>
      if name = [] ∨ name = ['.'] then p
      else if name = ['.', '.'] then p.dropLast
      else p ++ [name])
    dir

/-! ## What they do -/

/-- A deletion removes a file or an empty directory and changes nothing else. -/
theorem get_delete (fs : Fs) (p q : Path) :
    (fs.delete p).2.get q =
      if q = p ∧ (fs.get p = some .dir → fs.hasChildren p = false) then none else fs.get q := by
  unfold delete
  cases hp : fs.get p with
  | none =>
      by_cases hq : q = p
      · simp [hq, hp]
      · simp [hq]
  | some n =>
      cases n with
      | file content => by_cases hq : q = p <;> simp [hq]
      | dir =>
          cases hchildren : fs.hasChildren p with
          | false => by_cases hq : q = p <;> simp [hq]
          | true => by_cases hq : q = p <;> simp [hq, hp]

/-- Making directories turns missing paths on the way into directories and
changes nothing else. -/
theorem get_mkdirsFrom {fs fs' : Fs} {done : Path} {names : List Text}
    (h : fs.mkdirsFrom done names = some fs') (q : Path) :
    fs'.get q = fs.get q ∨
      (fs.get q = none ∧ fs'.get q = some .dir ∧ q <+: done ++ names) := by
  induction names generalizing fs done with
  | nil =>
      rw [mkdirsFrom, Option.some.injEq] at h
      exact Or.inl (by rw [h])
  | cons name names ih =>
      have happend : done ++ [name] ++ names = done ++ name :: names := by simp
      rw [mkdirsFrom] at h
      cases hget : fs.get (done ++ [name]) with
      | none =>
          simp only [hget] at h
          rcases ih h with hsame | ⟨hnone, hdir, hpre⟩
          · rw [get_set] at hsame
            by_cases hq : q = done ++ [name]
            · refine Or.inr ⟨by rw [hq, hget], by rw [hsame, if_pos hq], ?_⟩
              rw [hq, ← happend]
              exact List.prefix_append _ _
            · exact Or.inl (by rw [hsame, if_neg hq])
          · rw [get_set] at hnone
            by_cases hq : q = done ++ [name]
            · simp [hq] at hnone
            · rw [if_neg hq] at hnone
              exact Or.inr ⟨hnone, hdir, happend ▸ hpre⟩
      | some n =>
          cases n with
          | file content => simp [hget] at h
          | dir =>
              simp only [hget] at h
              exact (ih h).imp_right fun ⟨hnone, hdir, hpre⟩ => ⟨hnone, hdir, happend ▸ hpre⟩

/-- Making directories does nothing at the root. -/
theorem get_mkdirsFrom_root {fs fs' : Fs} {done : Path} {names : List Text}
    (h : fs.mkdirsFrom done names = some fs') : fs'.get [] = fs.get [] := by
  induction names generalizing fs done with
  | nil =>
      rw [mkdirsFrom, Option.some.injEq] at h
      rw [h]
  | cons name names ih =>
      rw [mkdirsFrom] at h
      split at h
      · rw [ih h, get_set, if_neg (by simp)]
      · exact ih h
      · cases h

/-- Behind a walk of directories everything on the way is a directory. -/
theorem get_mkdirsFrom_way {fs fs' : Fs} {done names : Path}
    (h : fs.mkdirsFrom done names = some fs') {way : Path} (hway : way <+: names)
    (hne : way ≠ []) : fs'.get (done ++ way) = some .dir := by
  induction names generalizing fs done way with
  | nil => exact absurd (List.prefix_nil.mp hway) hne
  | cons name names ih =>
      obtain ⟨way, rfl, hrest⟩ := (List.prefix_cons_iff.mp hway).resolve_left hne
      rw [mkdirsFrom] at h
      have hfirst : ∀ fs₁ : Fs, fs₁.get (done ++ [name]) = some .dir →
          fs₁.mkdirsFrom (done ++ [name]) names = some fs' →
          fs'.get (done ++ name :: way) = some .dir := by
        intro fs₁ hdir hwalk
        by_cases hnil : way = []
        · subst hnil
          rcases get_mkdirsFrom hwalk (done ++ [name]) with hsame | ⟨hnone, -⟩
          · rw [hsame, hdir]
          · rw [hdir] at hnone
            cases hnone
        · have hbelow := ih hwalk hrest hnil
          rwa [List.append_assoc, List.singleton_append] at hbelow
      cases hget : fs.get (done ++ [name]) with
      | none =>
          simp only [hget] at h
          exact hfirst _ (by simp) h
      | some n =>
          cases n with
          | file content => simp [hget] at h
          | dir =>
              simp only [hget] at h
              exact hfirst fs hget h

/-- Behind a walk of directories its end is a directory. -/
theorem get_mkdirsFrom_end {fs fs' : Fs} {done : Path} {names : List Text}
    (h : fs.mkdirsFrom done names = some fs') (hne : names ≠ []) :
    fs'.get (done ++ names) = some .dir :=
  get_mkdirsFrom_way h List.prefix_rfl hne

/-- What is said of every way down along the names is said of the first step and
of every way behind it. -/
theorem forall_way_cons {P : Path → Prop} {done : Path} {name : Text} {names : List Text} :
    (∀ way, way <+: name :: names → way ≠ [] → P (done ++ way)) ↔
      P (done ++ [name]) ∧ ∀ way, way <+: names → way ≠ [] → P (done ++ [name] ++ way) := by
  constructor
  · intro h
    refine ⟨h [name] (by simp) (by simp), fun way hway _ => ?_⟩
    rw [List.append_assoc]
    exact h (name :: way) (List.cons_prefix_cons.mpr ⟨rfl, hway⟩) (by simp)
  · rintro ⟨hfirst, hrest⟩ way hway hne
    obtain ⟨way, rfl, htail⟩ := (List.prefix_cons_iff.mp hway).resolve_left hne
    by_cases hnil : way = []
    · rwa [hnil]
    · have hbelow := hrest way htail hnil
      rwa [List.append_assoc, List.singleton_append] at hbelow

/-- A walk of directories succeeds exactly when no file is on the way. -/
theorem mkdirsFrom_isSome_iff {fs : Fs} {done names : Path} :
    (fs.mkdirsFrom done names).isSome = true ↔
      ∀ way, way <+: names → way ≠ [] → fs.isFile (done ++ way) = false := by
  induction names generalizing fs done with
  | nil =>
      constructor
      · intro _ way hway hne
        exact absurd (List.prefix_nil.mp hway) hne
      · exact fun _ => rfl
  | cons name names ih =>
      rw [forall_way_cons (P := fun q => fs.isFile q = false), mkdirsFrom]
      cases hget : fs.get (done ++ [name]) with
      | none =>
          have hfirst : fs.isFile (done ++ [name]) = false := by rw [isFile, hget]
          simp only [hfirst, true_and]
          rw [ih]
          refine forall_congr' fun way => forall_congr' fun _ => forall_congr' fun hne => ?_
          rw [isFile, isFile, get_set, if_neg (by simpa using hne)]
      | some n =>
          cases n with
          | file content => simp [isFile, hget]
          | dir =>
              have hfirst : fs.isFile (done ++ [name]) = false := by rw [isFile, hget]
              simp only [hfirst, true_and]
              exact ih

/-- A written file is the only change. -/
theorem get_write {fs fs' : Fs} {p : Path} {content : Text} (h : fs.write p content = some fs')
    (q : Path) : fs'.get q = if q = p then some (.file content) else fs.get q := by
  rw [write] at h
  split at h
  · rw [← Option.some.inj h, get_set]
  · simp at h

/-- Walking along existing directories changes nothing. -/
theorem mkdirsFrom_existing {fs : Fs} {done rest : Path}
    (h : ∀ q, q <+: rest → q ≠ [] → fs.get (done ++ q) = some .dir) (names : List Text) :
    fs.mkdirsFrom done (rest ++ names) = fs.mkdirsFrom (done ++ rest) names := by
  induction rest generalizing done with
  | nil => simp
  | cons name rest ih =>
      have hname : fs.get (done ++ [name]) = some .dir := h [name] (by simp) (by simp)
      rw [List.cons_append, mkdirsFrom, hname]
      simp only
      rw [ih]
      · simp
      · intro q hq hne
        simpa using h (name :: q) (by simpa using hq) (by simp)

/-- Below an existing directory one directory is made. -/
theorem mkdirs_child {fs : Fs} {parent : Path} {name : Text}
    (hparent : ∀ q, q <+: parent → q ≠ [] → fs.get q = some .dir)
    (hnew : fs.get (parent ++ [name]) = none) :
    fs.mkdirs (parent ++ [name]) = some (fs.set (parent ++ [name]) .dir) := by
  rw [mkdirs, mkdirsFrom_existing (fun q hq hne => by simpa using hparent q hq hne),
    List.nil_append, mkdirsFrom, hnew]
  rfl

end Fs

/-! ## Trees -/

/-- Every node lies in directories. -/
structure IsTree (fs : Fs) : Prop where
  root : fs.get [] = none
  above : ∀ {q r : Path}, fs.get q ≠ none → r <+: q → r ≠ [] → r ≠ q → fs.get r = some .dir

/-- Whether a file system is a tree can be seen from its nodes. -/
theorem isTree_iff {fs : Fs} :
    IsTree fs ↔ ∀ e ∈ fs.nodes, e.1 ≠ [] ∧
      ∀ r ∈ e.1.inits, r ≠ [] → r ≠ e.1 → fs.get r = some .dir := by
  constructor
  · intro h e he
    have hget : fs.get e.1 ≠ none := fun hnone => Fs.get_eq_none.mp hnone e he rfl
    refine ⟨fun hroot => hget (hroot ▸ h.root), fun r hr => ?_⟩
    exact h.above hget ((List.mem_inits r e.1).mp hr)
  · intro h
    refine ⟨Fs.get_eq_none.mpr fun e he => (h e he).1, ?_⟩
    intro q r hget hr
    rw [Ne, Fs.get_eq_none] at hget
    push Not at hget
    obtain ⟨e, he, rfl⟩ := hget
    exact (h e he).2 r ((List.mem_inits r e.1).mpr hr)

instance (fs : Fs) : Decidable (IsTree fs) :=
  decidable_of_iff _ isTree_iff.symm

/-- A directory with something in it. -/
def Full (fs : Fs) (p : Path) : Prop :=
  fs.get p = some .dir ∧ fs.hasChildren p = true

instance (fs : Fs) (p : Path) : Decidable (Full fs p) :=
  inferInstanceAs (Decidable (_ ∧ _))

/-- In a tree a node above another one is a directory with something in it. -/
theorem IsTree.full {fs : Fs} (h : IsTree fs) {q r : Path} (hget : fs.get q ≠ none)
    (hr : r <+: q) (hroot : r ≠ []) (hne : r ≠ q) : Full fs r :=
  ⟨h.above hget hr hroot hne, Fs.hasChildren_iff.mpr ⟨q, hr, Ne.symm hne, hget⟩⟩

/-- What a deletion leaves, with full directories told apart. -/
theorem get_delete_eq (fs : Fs) (p q : Path) :
    (fs.delete p).2.get q = if q = p ∧ ¬ Full fs p then none else fs.get q := by
  rw [Fs.get_delete]
  refine if_congr (and_congr_right fun _ => ?_) rfl rfl
  unfold Full
  cases fs.hasChildren p <;> simp

/-- Neither a deletion nor a new file nor new directories leave a node outside of
directories. -/
theorem IsTree.delete {fs : Fs} (h : IsTree fs) (p : Path) : IsTree (fs.delete p).2 := by
  refine ⟨by rw [get_delete_eq, h.root, ite_self], ?_⟩
  intro q r hget hr hroot hne
  rw [get_delete_eq] at hget ⊢
  have hq : fs.get q ≠ none := fun hnone => hget (by rw [hnone, ite_self])
  rw [if_neg]
  · exact h.above hq hr hroot hne
  · rintro ⟨rfl, hempty⟩
    exact hempty (h.full hq hr hroot hne)

/-- What is above a path is at its parent or above it. -/
theorem prefix_dropLast {p r : Path} (hr : r <+: p) (hne : r ≠ p) : r <+: p.dropLast := by
  obtain ⟨rest, rfl⟩ := hr
  have hrest : rest ≠ [] := fun h => hne (by rw [h, List.append_nil])
  rw [List.dropLast_append_of_ne_nil hrest]
  exact List.prefix_append _ _

theorem IsTree.write {fs fs' : Fs} (h : IsTree fs) {p : Path} {content : Text}
    (hwrite : fs.write p content = some fs') : IsTree fs' := by
  have hget := Fs.get_write hwrite
  rw [Fs.write] at hwrite
  split at hwrite
  · rename_i hok
    obtain ⟨hp, hparent, hfile⟩ := hok
    rw [Fs.isDirectory, decide_eq_true_eq] at hparent
    refine ⟨by rw [hget, if_neg (Ne.symm hp), h.root], ?_⟩
    intro q r hq hr hroot hne
    rw [hget] at hq ⊢
    by_cases hqp : q = p
    · subst hqp
      rw [if_neg hne]
      have hdrop := prefix_dropLast hr hne
      have hparent' : fs.get q.dropLast = some .dir := by
        rcases hparent with hnil | hdir
        · rw [hnil, List.prefix_nil] at hdrop
          exact absurd hdrop hroot
        · exact hdir
      by_cases heq : r = q.dropLast
      · rw [heq, hparent']
      · exact h.above (by rw [hparent']; exact Option.some_ne_none _) hdrop hroot heq
    · rw [if_neg hqp] at hq
      have hdir := h.above hq hr hroot hne
      have hrp : r ≠ p := by
        rintro rfl
        exact hfile hdir
      rw [if_neg hrp, hdir]
  · cases hwrite

theorem IsTree.mkdirs {fs fs' : Fs} (h : IsTree fs) {p : Path} (hmkdirs : fs.mkdirs p = some fs') :
    IsTree fs' := by
  have hkeep : ∀ r, fs.get r = some .dir → fs'.get r = some .dir := by
    intro r hr
    rcases Fs.get_mkdirsFrom hmkdirs r with hsame | ⟨hnone, -⟩
    · rw [hsame, hr]
    · rw [hr] at hnone
      cases hnone
  refine ⟨(Fs.get_mkdirsFrom_root hmkdirs).trans h.root, ?_⟩
  intro q r hget hr hroot hne
  rcases Fs.get_mkdirsFrom hmkdirs q with hsame | ⟨-, -, hway⟩
  · rw [hsame] at hget
    exact hkeep r (h.above hget hr hroot hne)
  · exact Fs.get_mkdirsFrom_way hmkdirs (hr.trans hway) hroot

/-- What exists is the root or has a node. -/
theorem fileExists_iff {fs : Fs} {p : Path} :
    fs.fileExists p = true ↔ p = [] ∨ fs.get p ≠ none := by
  simp [Fs.fileExists, Option.isSome_iff_ne_none]

/-- Where no file is there is nothing or a directory. -/
theorem isFile_iff {fs : Fs} {p : Path} :
    fs.isFile p = false ↔ fs.get p = none ∨ fs.get p = some .dir := by
  rw [Fs.isFile]
  cases fs.get p with
  | none => simp
  | some node => cases node <;> simp

/-- Everything on the way to a directory is a directory. -/
theorem IsTree.dir_of_way {fs : Fs} (h : IsTree fs) {p q : Path} (hdir : fs.isDirectory p = true)
    (hq : q <+: p) (hroot : q ≠ []) : fs.get q = some .dir := by
  rw [Fs.isDirectory, decide_eq_true_eq] at hdir
  rcases hdir with rfl | hdir
  · exact absurd (List.prefix_nil.mp hq) hroot
  · by_cases heq : q = p
    · rw [heq, hdir]
    · exact h.above (by rw [hdir]; exact Option.some_ne_none _) hq hroot heq

/-- No file is on the way to a directory. -/
theorem IsTree.way_clear {fs : Fs} (h : IsTree fs) {p : Path} (hdir : fs.isDirectory p = true) :
    ∀ q ∈ p.inits, fs.isFile q = false := by
  intro q hq
  rw [isFile_iff]
  by_cases hroot : q = []
  · exact Or.inl (hroot ▸ h.root)
  · exact Or.inr (h.dir_of_way hdir ((List.mem_inits q p).mp hq) hroot)

/-- What is neither missing nor a directory is a file. -/
theorem isFile_of_exists {fs : Fs} {p : Path} (hexists : fs.fileExists p = true)
    (hdir : ¬ fs.isDirectory p = true) : fs.isFile p = true := by
  rw [fileExists_iff] at hexists
  rw [Fs.isDirectory, decide_eq_true_eq] at hdir
  rw [← Bool.not_eq_false, isFile_iff]
  tauto

/-- In a tree directories can be made exactly when no file is on the way. -/
theorem IsTree.mkdirs_iff {fs : Fs} (h : IsTree fs) {p : Path} :
    (fs.mkdirs p).isSome = true ↔ ∀ q ∈ p.inits, fs.isFile q = false := by
  rw [Fs.mkdirs, Fs.mkdirsFrom_isSome_iff]
  constructor
  · intro hway q hq
    by_cases hroot : q = []
    · exact isFile_iff.mpr (Or.inl (hroot ▸ h.root))
    · exact hway q ((List.mem_inits q p).mp hq) hroot
  · intro hway q hq _
    exact hway q ((List.mem_inits q p).mpr hq)

/-- A deletion reports success when something is there that is not a directory
with something in it. -/
theorem Fs.delete_fst_iff {fs : Fs} {p : Path} :
    (fs.delete p).1 = true ↔ fs.get p ≠ none ∧ ¬ Full fs p := by
  unfold Fs.delete Full
  cases hget : fs.get p with
  | none => simp
  | some node =>
      cases node with
      | file content => simp
      | dir => cases fs.hasChildren p <;> simp

/-! ## Names on their way to the system -/

/-- `new File(parent, child)`, with the path that the system has for the parent. -/
structure File where
  parent : Path
  child : Text
deriving DecidableEq, Repr

namespace Fs

/-- The system gets along the pieces of a name: a dot or two need a directory in
front of them.  That the names in between are directories shows at the end of the
path. -/
def walks (fs : Fs) : Path → List Text → Bool
  | _, [] => true
  | p, name :: names =>
    if name = [] then fs.walks p names
    else if name = ['.'] then fs.isDirectory p && fs.walks p names
    else if name = ['.', '.'] then fs.isDirectory p && fs.walks p.dropLast names
    else fs.walks (p ++ [name]) names

end Fs

namespace File

/-- Where the name leads. -/
def path (f : File) : Path :=
  Fs.resolve f.parent f.child

/-- The system gets along the name. -/
def reached (f : File) (fs : Fs) : Bool :=
  fs.walks f.parent (Library.pieces '/' f.child)

/-- The last name is a dot or two; such a directory cannot be removed. -/
def endsInDots (f : File) : Bool :=
  ((Library.pieces '/' f.child).filter fun name => decide (name ≠ [])).getLast?.any fun name =>
    decide (name = ['.'] ∨ name = ['.', '.'])

/-- `File.exists` -/
def fileExists (f : File) (fs : Fs) : Bool :=
  f.reached fs && fs.fileExists f.path

/-- `File.isDirectory` -/
def isDirectory (f : File) (fs : Fs) : Bool :=
  f.reached fs && fs.isDirectory f.path

/-- `File.delete` -/
def delete (f : File) (fs : Fs) : Bool × Fs :=
  if f.reached fs && !f.endsInDots then fs.delete f.path else (false, fs)

/-- `File.mkdirs`: where the system gets along the name the directory is missing;
otherwise it is made at the canonical path, which has no dots, unless something is
there. -/
def mkdirs (f : File) (fs : Fs) : Option Fs :=
  if fs.fileExists f.path then none else fs.mkdirs f.path

/-- A new `FileOutputStream`, and what is written to it. -/
def write (f : File) (fs : Fs) (content : Text) : Option Fs :=
  if f.reached fs then fs.write f.path content else none

/-! ### What they do -/

/-- A file that exists is at its path. -/
theorem fileExists_path {f : File} {fs : Fs} (h : f.fileExists fs = true) :
    fs.fileExists f.path = true :=
  (Bool.and_eq_true_iff.mp h).2

/-- A deletion changes its path only. -/
theorem get_delete_of_ne {f : File} {q : Path} (hq : q ≠ f.path) (fs : Fs) :
    (f.delete fs).2.get q = fs.get q := by
  unfold delete
  split
  · rw [Fs.get_delete, if_neg fun h => hq h.1]
  · rfl

/-- What is made was missing. -/
theorem mkdirs_some {f : File} {fs fs' : Fs} (h : f.mkdirs fs = some fs') :
    fs.fileExists f.path = false ∧ fs.mkdirs f.path = some fs' := by
  unfold mkdirs at h
  split at h
  · cases h
  · rename_i hmissing
    exact ⟨by simpa using hmissing, h⟩

/-- What is written is written at the path. -/
theorem write_some {f : File} {fs fs' : Fs} {content : Text}
    (h : f.write fs content = some fs') : fs.write f.path content = some fs' := by
  unfold write at h
  split at h
  · exact h
  · cases h

/-- A deletion leaves a tree. -/
theorem isTree_delete (f : File) {fs : Fs} (h : IsTree fs) : IsTree (f.delete fs).2 := by
  unfold delete
  split
  · exact h.delete f.path
  · exact h

/-- What is missing stays missing. -/
theorem get_delete_of_none (f : File) {fs : Fs} {q : Path} (h : fs.get q = none) :
    (f.delete fs).2.get q = none := by
  unfold delete
  split
  · rw [Fs.get_delete, h, ite_self]
  · exact h

/-! ### Names without dots -/

/-- No piece of the name is a dot or two. -/
def Plain (f : File) : Prop :=
  ∀ name ∈ Library.pieces '/' f.child, name ≠ ['.'] ∧ name ≠ ['.', '.']

instance (f : File) : Decidable f.Plain :=
  inferInstanceAs (Decidable (∀ name ∈ _, _))

/-- The system gets along names without dots. -/
theorem walks_of_plain {fs : Fs} {names : List Text} (p : Path)
    (h : ∀ name ∈ names, name ≠ ['.'] ∧ name ≠ ['.', '.']) : fs.walks p names = true := by
  induction names generalizing p with
  | nil => rfl
  | cons name names ih =>
      rw [List.forall_mem_cons] at h
      rw [Fs.walks, if_neg h.1.1, if_neg h.1.2]
      split
      · exact ih p h.2
      · exact ih _ h.2

/-- A name without dots is walked in every tree. -/
theorem reached_of_plain {f : File} (h : f.Plain) (fs : Fs) : f.reached fs = true :=
  walks_of_plain f.parent h

theorem endsInDots_of_plain {f : File} (h : f.Plain) : f.endsInDots = false := by
  unfold endsInDots
  cases hlast : ((Library.pieces '/' f.child).filter fun name => decide (name ≠ [])).getLast? with
  | none => rfl
  | some name =>
      have hname := h name (List.mem_filter.mp (List.mem_of_getLast? hlast)).1
      simp [hname]

/-- Without dots the operations are those at the path. -/
theorem fileExists_of_plain {f : File} (h : f.Plain) (fs : Fs) :
    f.fileExists fs = fs.fileExists f.path := by
  rw [fileExists, reached_of_plain h, Bool.true_and]

theorem delete_of_plain {f : File} (h : f.Plain) (fs : Fs) :
    f.delete fs = fs.delete f.path := by
  simp [delete, reached_of_plain h, endsInDots_of_plain h]

theorem write_of_plain {f : File} (h : f.Plain) (fs : Fs) (content : Text) :
    f.write fs content = fs.write f.path content := by
  rw [write, if_pos (reached_of_plain h fs)]

end File

end Client
end ModpackInstaller
