import Mathlib.Data.List.Nodup
import ModpackInstaller.Client.FileSystem
import ModpackInstaller.Server.ListDiff

/-!
# File trees and their listings

A {lit}`FileTree` is a tree of files and directories in the order in which a
walk from the root meets them, ancestors first.  Its listing has the line
{lit}`.` and a line {lit}`./p` for every path.

Main results:

- Theorem {lit}`onlyIn_listing`: the diff loops work on the paths that one tree
  has and the other lacks.
- Theorem {lit}`resolve_mods`: the client finds a listed path under
  {lit}`mods`.
- Theorem {lit}`not_prefix_resolve_of_dotted`: a name without {lit}`./` never
  leads into a directory whose name ends in a dot.
-/

namespace ModpackInstaller
namespace Update

open Library Server Client

/-- What is at a path of a tree. -/
inductive Kind where
  | file
  | dir
deriving DecidableEq, Repr

/-- The kind of a node. -/
def nodeKind : Node → Kind
  | .file _ => .file
  | .dir => .dir

/-- A name that a directory entry can have; listings are for names without
newlines. -/
def ValidName (name : Text) : Prop :=
  name ≠ [] ∧ name ≠ ['.'] ∧ name ≠ ['.', '.'] ∧ '/' ∉ name ∧ '\n' ∉ name ∧ nul ∉ name

instance : DecidablePred ValidName := fun _ => inferInstanceAs (Decidable (_ ∧ _))

/-- A path below the root with valid names. -/
def ValidPath (p : Path) : Prop :=
  p ≠ [] ∧ ∀ name ∈ p, ValidName name

instance : DecidablePred ValidPath := fun _ => inferInstanceAs (Decidable (_ ∧ _))

/-- Every path comes behind the directories it lies in. -/
def AncestorsFirst : List (Path × Kind) → List (Path × Kind) → Prop
  | _, [] => True
  | before, e :: after =>
    (∀ q ∈ e.1.inits, q ≠ [] → q ≠ e.1 → (q, Kind.dir) ∈ before) ∧
      AncestorsFirst (before ++ [e]) after

instance decidableAncestorsFirst :
    (before after : List (Path × Kind)) → Decidable (AncestorsFirst before after)
  | _, [] => inferInstanceAs (Decidable True)
  | before, e :: after =>
    have := decidableAncestorsFirst (before ++ [e]) after
    inferInstanceAs (Decidable (_ ∧ _))

/-- A tree of files and directories, ancestors first. -/
structure FileTree where
  entries : List (Path × Kind)
  nodup : (entries.map Prod.fst).Nodup
  valid : ∀ e ∈ entries, ValidPath e.1
  ancestorsFirst : AncestorsFirst [] entries

namespace FileTree

/-- The directories a path lies in come before it. -/
theorem ancestors (t : FileTree) {before after : List (Path × Kind)} {e : Path × Kind}
    (h : t.entries = before ++ e :: after) {q : Path} (hq : q <+: e.1) (hnil : q ≠ [])
    (hne : q ≠ e.1) : (q, Kind.dir) ∈ before := by
  have hsplit : ∀ (done before : List (Path × Kind)),
      AncestorsFirst done (before ++ e :: after) → (q, Kind.dir) ∈ done ++ before := by
    intro done before
    induction before generalizing done with
    | nil => exact fun h => by simpa using h.1 q ((List.mem_inits _ _).mpr hq) hnil hne
    | cons x before ih => exact fun h => by simpa using ih _ h.2
  simpa using hsplit [] before (h ▸ t.ancestorsFirst)

/-- The kind of the node at a path. -/
def kind (t : FileTree) (p : Path) : Option Kind :=
  (t.entries.find? fun e => decide (e.1 = p)).map Prod.snd

theorem kind_eq_none {t : FileTree} {p : Path} : t.kind p = none ↔ ∀ e ∈ t.entries, e.1 ≠ p := by
  simp [kind]

theorem kind_eq_some {t : FileTree} {p : Path} {k : Kind} :
    t.kind p = some k ↔ (p, k) ∈ t.entries := by
  rw [kind, Option.map_eq_some_iff]
  constructor
  · rintro ⟨e, he, rfl⟩
    have hp := List.find?_some he
    rw [decide_eq_true_eq] at hp
    rw [← hp]
    exact List.mem_of_find?_eq_some he
  · intro hmem
    cases hfind : t.entries.find? fun e => decide (e.1 = p) with
    | none =>
        rw [List.find?_eq_none] at hfind
        exact absurd (hfind _ hmem) (by simp)
    | some e =>
        have hp := List.find?_some hfind
        rw [decide_eq_true_eq] at hp
        have he := List.inj_on_of_nodup_map t.nodup (List.mem_of_find?_eq_some hfind) hmem hp
        exact ⟨e, rfl, by rw [he]⟩

end FileTree

/-! ## Paths as texts -/

/-- A path as a text, with slashes between the names. -/
def joined (p : Path) : Text :=
  ['/'].intercalate p

theorem pieces_joined {p : Path} (hp : ValidPath p) : pieces '/' (joined p) = p :=
  pieces_intercalate hp.1 fun name hname => ⟨(hp.2 name hname).1, (hp.2 name hname).2.2.2.1⟩

theorem joined_inj {p q : Path} (hp : ValidPath p) (hq : ValidPath q) (h : joined p = joined q) :
    p = q := by
  rw [← pieces_joined hp, h, pieces_joined hq]

theorem mem_joined {p : Path} {c : Char} (h : c ∈ joined p) : c = '/' ∨ ∃ name ∈ p, c ∈ name := by
  induction p with
  | nil => simp [joined] at h
  | cons name p ih =>
      cases p with
      | nil => exact Or.inr ⟨name, by simp, by simpa [joined] using h⟩
      | cons name' p =>
          rw [joined, List.intercalate_cons_cons, ← joined, List.mem_append, List.mem_append,
            List.mem_singleton] at h
          rcases h with (h | h) | h
          · exact Or.inr ⟨name, by simp, h⟩
          · exact Or.inl h
          · exact (ih h).imp_right fun ⟨n, hn, hc⟩ => ⟨n, by simp [hn], hc⟩

theorem newline_not_mem_joined {p : Path} (hp : ValidPath p) : '\n' ∉ joined p := by
  intro h
  rcases mem_joined h with h | ⟨name, hname, h⟩
  · exact absurd h (by decide)
  · exact (hp.2 name hname).2.2.2.2.1 h

/-- The path goes through a directory whose name ends in a dot. -/
def DottedDir (p : Path) : Prop :=
  ∃ name ∈ p.dropLast, ['.'] <:+ name

instance : DecidablePred DottedDir := fun p =>
  inferInstanceAs (Decidable (∃ name ∈ p.dropLast, ['.'] <:+ name))

/-- Only such paths have {lit}`./` in their text. -/
theorem not_infix_joined {p : Path} (hp : ∀ name ∈ p, ValidName name) (hdot : ¬ DottedDir p) :
    ¬ ['.', '/'] <:+: joined p := by
  have hname : ∀ name ∈ p, ¬ ['.', '/'] <:+: name := fun name hmem hin =>
    (hp name hmem).2.2.2.1 (hin.subset (by simp))
  induction p with
  | nil => simp [joined]
  | cons name p ih =>
      cases p with
      | nil => simpa [joined] using hname name (by simp)
      | cons name' p =>
          rw [joined, List.intercalate_cons_cons, ← joined, List.append_assoc,
            List.singleton_append]
          intro hin
          rcases pair_infix_append hin with h | h | h
          · exact hname name (by simp) h
          · rcases List.infix_cons_iff.mp h with h | h
            · exact absurd (List.cons_prefix_cons.mp h).1 (by decide)
            · refine ih (fun n hn => hp n (by simp [hn])) ?_ (fun n hn => hname n (by simp [hn])) h
              rintro ⟨n, hn, hend⟩
              exact hdot ⟨n, by simp [hn], hend⟩
          · exact hdot ⟨name, by simp, h.1⟩

/-! ## Where the client finds a path -/

/-- The directory {lit}`mods` of a pack directory. -/
def modsDir (dir : Path) : Path :=
  dir ++ ["mods".toList]

/-- The names on the way to a listed path under {lit}`mods`. -/
theorem pieces_mods {p : Path} (hp : ValidPath p) :
    pieces '/' ("mods/".toList ++ joined p) = "mods".toList :: p := by
  have hslash : "mods/".toList = "mods".toList ++ ['/'] := by decide
  rw [hslash, List.append_assoc, List.singleton_append, pieces_append_sep (by decide),
    pieces_joined hp]

/-- They have no dots among them. -/
theorem plain_mods {dir p : Path} (hp : ValidPath p) :
    (File.mk dir ("mods/".toList ++ joined p)).Plain := by
  intro name hname
  rw [pieces_mods hp] at hname
  rcases List.mem_cons.mp hname with rfl | hname
  · exact ⟨by decide, by decide⟩
  · exact ⟨(hp.2 name hname).2.1, (hp.2 name hname).2.2.1⟩

/-- The client finds a listed path under {lit}`mods`. -/
theorem resolve_mods {dir p : Path} (hp : ValidPath p) :
    Fs.resolve dir ("mods/".toList ++ joined p) = modsDir dir ++ p := by
  have hnames : ∀ (q r : Path), (∀ name ∈ q, ValidName name) →
      q.foldl (fun p name =>
        if name = [] ∨ name = ['.'] then p
        else if name = ['.', '.'] then p.dropLast
        else p ++ [name]) r = r ++ q := by
    intro q
    induction q with
    | nil => simp
    | cons name q ih =>
        intro r hq
        obtain ⟨hempty, hdot, hdots, -⟩ := hq name (by simp)
        rw [List.foldl_cons, if_neg (by simp [hempty, hdot]), if_neg hdots,
          ih _ fun n hn => hq n (by simp [hn])]
        simp
  rw [Fs.resolve, pieces_mods hp, hnames _ _ (List.forall_mem_cons.mpr ⟨by decide, hp.2⟩), modsDir,
    List.append_assoc]
  rfl

/-- Without {lit}`./` in it a name is resolved to names of which only the last
can end in a dot. -/
theorem resolve_prefix {s : Text} (hs : ¬ ['.', '/'] <:+: s) (dir : Path) :
    ∃ names, Fs.resolve dir s <+: dir ++ names ∧ ∀ name ∈ names.dropLast, ¬ ['.'] <:+ name := by
  have hinner : ∀ name ∈ (pieces '/' s).dropLast, ¬ ['.'] <:+ name := by
    rintro name hname ⟨v, rfl⟩
    refine hs (List.IsInfix.trans ⟨v, [], ?_⟩ (infix_of_mem_dropLast_pieces hname))
    simp
  have hinit : ∀ (names : List Text) (r : Path), (∀ name ∈ names, ¬ ['.'] <:+ name) →
      names.foldl (fun p name =>
        if name = [] ∨ name = ['.'] then p
        else if name = ['.', '.'] then p.dropLast
        else p ++ [name]) r = r ++ names.filter (· ≠ []) := by
    intro names
    induction names with
    | nil => simp
    | cons name names ih =>
        intro r hnames
        have hname := hnames name (by simp)
        have hrest := fun r => ih r fun n hn => hnames n (by simp [hn])
        by_cases hempty : name = []
        · rw [List.foldl_cons, if_pos (Or.inl hempty), hrest]
          simp [hempty]
        · have hdot : name ≠ ['.'] := fun h => hname (by simp [h])
          have hdots : name ≠ ['.', '.'] := fun h => hname (by rw [h]; decide)
          rw [List.foldl_cons, if_neg (by simp [hempty, hdot]), if_neg hdots, hrest]
          simp [hempty]
  rcases List.eq_nil_or_concat (pieces '/' s) with hnil | ⟨init, last, hlast⟩
  · exact ⟨[], by simp [Fs.resolve, hnil], by simp⟩
  · rw [hlast] at hinner
    simp only [List.concat_eq_append, List.dropLast_concat] at hinner
    refine ⟨init.filter (· ≠ []) ++ [last], ?_, fun name hname => ?_⟩
    · rw [Fs.resolve, hlast, List.concat_eq_append, List.foldl_append, hinit init dir hinner,
        List.foldl_cons, List.foldl_nil, ← List.append_assoc]
      split
      · exact List.prefix_append _ _
      · split
        · exact (List.dropLast_prefix _).trans (List.prefix_append _ _)
        · exact List.prefix_rfl
    · rw [List.dropLast_concat] at hname
      exact hinner name (List.mem_of_mem_filter hname)

/-- Such a name never leads into a directory whose name ends in a dot. -/
theorem not_prefix_resolve_of_dotted {p : Path} (hp : DottedDir p) {s : Text}
    (hs : ¬ ['.', '/'] <:+: s) (dir : Path) : ¬ modsDir dir ++ p <+: Fs.resolve dir s := by
  intro hpre
  obtain ⟨names, hnames, hdots⟩ := resolve_prefix hs dir
  have hbelow : "mods".toList :: p <+: names := by
    have h := hpre.trans hnames
    rwa [modsDir, List.append_assoc, List.prefix_append_right_inj] at h
  obtain ⟨name, hname, hend⟩ := hp
  refine hdots name ?_ hend
  have hdrop : ("mods".toList :: p).dropLast <+: names.dropLast := by
    obtain ⟨v, rfl⟩ := hbelow
    cases v with
    | nil => simp
    | cons c v =>
        rw [List.dropLast_append_of_ne_nil (by simp)]
        exact (List.dropLast_prefix _).trans (List.prefix_append _ _)
  refine hdrop.subset ?_
  cases p with
  | nil => simp at hname
  | cons n p => exact List.mem_cons_of_mem _ hname

/-! ## Listings -/

namespace FileTree

/-- The listing of a tree: {lit}`.` and a line {lit}`./p` for every path. -/
def listing (t : FileTree) : Text :=
  unpieces '\n' (['.'] :: t.entries.map fun e => listed (joined e.1))

theorem pieces_listing (t : FileTree) :
    pieces '\n' t.listing = ['.'] :: t.entries.map fun e => listed (joined e.1) := by
  refine pieces_unpieces fun l hl => ?_
  rcases List.mem_cons.mp hl with rfl | hl
  · decide
  · obtain ⟨e, he, rfl⟩ := List.mem_map.mp hl
    simpa [listed] using newline_not_mem_joined (t.valid e he)

/-- The entries of a tree that another one lacks. -/
def without (t u : FileTree) : List (Path × Kind) :=
  t.entries.filter fun e => decide (u.kind e.1 = none)

theorem mem_without {t u : FileTree} {e : Path × Kind} :
    e ∈ t.without u ↔ e ∈ t.entries ∧ u.kind e.1 = none := by
  simp [without]

/-- A path that a tree lacks has nothing below it there. -/
theorem kind_below {u : FileTree} {p q : Path} (hnone : u.kind p = none) (hnil : p ≠ [])
    (hpre : p <+: q) (hne : q ≠ p) : u.kind q = none := by
  cases hq : u.kind q with
  | none => rfl
  | some k =>
      obtain ⟨before, after, hsplit⟩ := List.append_of_mem (kind_eq_some.mp hq)
      have hparent := u.ancestors hsplit hpre hnil (Ne.symm hne)
      have hsome : u.kind p = some .dir :=
        kind_eq_some.mpr (by rw [hsplit]; exact List.mem_append_left _ hparent)
      simp [hnone] at hsome

/-- A removed path with something below it is a directory, and comes before
what is below it. -/
theorem without_below {t u : FileTree} {p : Path} {e : Path × Kind} (hnone : u.kind p = none)
    (hnil : p ≠ []) (he : e ∈ t.entries) (hpre : p <+: e.1) (hne : e.1 ≠ p) :
    ∃ before after, t.without u = before ++ (p, Kind.dir) :: after ∧ e ∈ after := by
  obtain ⟨before, after, hsplit⟩ := List.append_of_mem he
  have hdir : (p, Kind.dir) ∈ before.filter fun x => decide (u.kind x.1 = none) :=
    List.mem_filter.mpr ⟨t.ancestors hsplit hpre hnil (Ne.symm hne), by simpa using hnone⟩
  obtain ⟨b₁, b₂, hb⟩ := List.append_of_mem hdir
  have hbelow : u.kind e.1 = none := kind_below hnone hnil hpre hne
  refine ⟨b₁, b₂ ++ e :: after.filter fun x => decide (u.kind x.1 = none), ?_, by simp⟩
  rw [without, hsplit, List.filter_append, hb, List.filter_cons_of_pos (by simpa using hbelow)]
  simp

/-- The diff loops work on the paths that one tree has and the other lacks. -/
theorem onlyIn_listing (t u : FileTree) :
    onlyIn t.listing u.listing = (t.without u).map fun e => listed (joined e.1) := by
  rw [onlyIn, strLines_eq_pieces, pieces_listing, List.filter_cons_of_neg (by simp),
    List.filter_map, without]
  congr 1
  refine List.filter_congr fun e he => ?_
  have hmem : strContainsLine u.listing (listed (joined e.1)) = true ↔ u.kind e.1 ≠ none := by
    rw [strContainsLine_iff, pieces_listing, Ne, kind_eq_none]
    push Not
    constructor
    · intro h
      rcases List.mem_cons.mp h with h | h
      · exact absurd (congrArg List.length h) (by simp [listed])
      · obtain ⟨e', he', heq⟩ := List.mem_map.mp h
        refine ⟨e', he', joined_inj (u.valid e' he') (t.valid e he) ?_⟩
        simpa [listed] using heq
    · rintro ⟨e', he', heq⟩
      exact List.mem_cons_of_mem _ (List.mem_map.mpr ⟨e', he', by rw [heq]⟩)
  have hdot : listed (joined e.1) ≠ ['.'] := fun h =>
    absurd (congrArg List.length h) (by simp [listed])
  have hempty : (listed (joined e.1)).isEmpty = false := rfl
  by_cases hkind : u.kind e.1 = none
  · simp [Function.comp, hdot, hempty, hkind, hmem]
  · simp [Function.comp, hmem.mpr hkind, hkind]

end FileTree

end Update
end ModpackInstaller
