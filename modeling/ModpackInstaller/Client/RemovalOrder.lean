import Mathlib.Data.List.DropRight
import ModpackInstaller.Client.Confinement

/-!
# The order of a removal

{lit}`PathComparator` sorts the files of an addon before {lit}`downloadAddons` deletes
them one by one.  A path is greater than every directory above it, and the larger path
comes first, so that a directory is empty when its turn comes.  The system does not
remove a directory by a name that ends in a dot, and does not get along two dots behind
a directory that is gone.

Main results:

- Theorem {lit}`sortFiles_pairwise`: a path is not sorted behind one of its ancestors.
- Theorem {lit}`get_deleteAll_of_below`: paths that are deleted from below leave nothing
  when nothing else is there.
- Theorem {lit}`oneSpelling_of_writtenAlike`: names that are written alike are in one
  spelling.
- Theorem {lit}`removal_of_sorted`: every list of names is sorted so, and names that are
  written alike are deleted with the directories that have nothing else in them.
- Theorem {lit}`removal_fails`: the directory itself, listed as a dot, and names that
  climb stay.
-/

namespace ModpackInstaller
namespace Client
namespace RemovalOrder

open Library

/-! ## Parents -/

/-- `File.getParent` of a path as `getPath` gives it. -/
def getParent (path : Text) : Option Text :=
  let upToSlash := path.rdropWhile (· ≠ '/')
  let prefixLength := if path.head? = some '/' then 1 else 0
  if upToSlash.length ≤ prefixLength then
    if 0 < prefixLength ∧ prefixLength < path.length then some (path.take prefixLength) else none
  else some upToSlash.dropLast

/-- A path is a directory above another one. -/
def IsAncestor (dir path : Text) : Prop :=
  Relation.TransGen (fun path dir => getParent path = some dir) path dir

/-- A parent is a shorter beginning of the path. -/
theorem prefix_of_getParent {path dir : Text} (h : getParent path = some dir) :
    dir <+: path ∧ dir.length < path.length := by
  have hslash : path.rdropWhile (· ≠ '/') <+: path := List.rdropWhile_prefix _ _
  unfold getParent at h
  dsimp only at h
  generalize (if path.head? = some '/' then 1 else 0) = prefixLength at h
  split at h
  · split at h
    · rename_i hroot
      obtain rfl := Option.some.inj h
      refine ⟨List.take_prefix _ _, ?_⟩
      rw [List.length_take]
      omega
    · cases h
  · rename_i hlong
    obtain rfl := Option.some.inj h
    have hle := hslash.length_le
    refine ⟨(List.dropLast_prefix _).trans hslash, ?_⟩
    rw [List.length_dropLast]
    omega

/-- An ancestor is a proper prefix. -/
theorem IsAncestor.below {dir path : Text} (h : IsAncestor dir path) :
    dir <+: path ∧ dir.length < path.length := by
  induction h with
  | single hparent => exact prefix_of_getParent hparent
  | tail _ hparent ih =>
      obtain ⟨hpre, hlt⟩ := prefix_of_getParent hparent
      exact ⟨hpre.trans ih.1, hlt.trans ih.2⟩

/-! ## The comparator -/

/-- Two sequences of `char` values can be compared. -/
theorem unitsLe_total (s t : List Nat) : unitsLe s t = true ∨ unitsLe t s = true := by
  induction s generalizing t with
  | nil => exact Or.inl rfl
  | cons c s ih =>
      cases t with
      | nil => exact Or.inr rfl
      | cons d t =>
          simp only [unitsLe, Bool.or_eq_true, Bool.and_eq_true, decide_eq_true_eq]
          rcases Nat.lt_trichotomy c d with hlt | heq | hgt
          · exact Or.inl (Or.inl hlt)
          · exact (ih t).imp (fun h => Or.inr ⟨heq, h⟩) fun h => Or.inr ⟨heq.symm, h⟩
          · exact Or.inr (Or.inl hgt)

/-- The order of the UTF-16 units is transitive. -/
theorem unitsLe_trans {s t u : List Nat} (hst : unitsLe s t = true) (htu : unitsLe t u = true) :
    unitsLe s u = true := by
  induction s generalizing t u with
  | nil => rfl
  | cons c s ih =>
      cases t with
      | nil => cases hst
      | cons d t =>
          cases u with
          | nil => cases htu
          | cons e u =>
              simp only [unitsLe, Bool.or_eq_true, Bool.and_eq_true, decide_eq_true_eq]
                at hst htu ⊢
              rcases hst with hlt | ⟨heq, hst⟩
              · rcases htu with hlt' | ⟨heq', -⟩
                · exact Or.inl (hlt.trans hlt')
                · exact Or.inl (heq' ▸ hlt)
              · rcases htu with hlt' | ⟨heq', htu⟩
                · exact Or.inl (heq ▸ hlt')
                · exact Or.inr ⟨heq.trans heq', ih hst htu⟩

/-- A sequence is greater than its proper prefixes. -/
theorem eq_of_prefix_of_unitsLe {s t : List Nat} (hpre : s <+: t) (hle : unitsLe t s = true) :
    t = s := by
  induction s generalizing t with
  | nil =>
      cases t with
      | nil => rfl
      | cons d t => cases hle
  | cons c s ih =>
      cases t with
      | nil => exact absurd (List.prefix_nil.mp hpre) (by simp)
      | cons d t =>
          obtain ⟨rfl, hrest⟩ := List.cons_prefix_cons.mp hpre
          simp only [unitsLe, Bool.or_eq_true, Bool.and_eq_true, decide_eq_true_eq] at hle
          rw [ih hrest (hle.resolve_left (lt_irrefl _)).2]

/-- A character has one `char` value at least. -/
theorem utf16_ne_nil (c : Char) : utf16 c ≠ [] := by
  unfold utf16
  split
  · simp
  · simp

/-- A text is greater than its proper prefixes. -/
theorem eq_of_prefix_of_javaLe {s t : Text} (hpre : s <+: t) (hle : javaLe t s = true) : t = s := by
  obtain ⟨more, rfl⟩ := hpre
  have hunits := eq_of_prefix_of_unitsLe ⟨more.flatMap utf16, List.flatMap_append.symm⟩ hle
  rw [List.flatMap_append, List.append_right_eq_self, List.flatMap_eq_nil_iff] at hunits
  cases more with
  | nil => exact List.append_nil s
  | cons c more => exact absurd (hunits c (List.mem_cons_self ..)) (utf16_ne_nil c)

/-- `PathComparator.compare` is not positive. -/
abbrev comparesLe (o1 o2 : Text) : Prop :=
  javaLe (javaPath o2) (javaPath o1) = true

instance : Std.Total comparesLe :=
  ⟨fun _ _ => unitsLe_total _ _⟩

instance : IsTrans Text comparesLe :=
  ⟨fun _ _ _ h12 h23 => unitsLe_trans h23 h12⟩

/-- What is not behind another path in the order is not above it. -/
theorem not_isAncestor {o1 o2 : Text} (hle : comparesLe o1 o2) :
    ¬ IsAncestor (javaPath o1) (javaPath o2) := by
  intro hancestor
  obtain ⟨hpre, hlt⟩ := hancestor.below
  rw [eq_of_prefix_of_javaLe hpre hle] at hlt
  exact lt_irrefl _ hlt

/-- A path is not sorted behind one of its ancestors. -/
theorem sortFiles_pairwise (files : List Text) :
    (sortFiles files).Pairwise fun earlier later =>
      ¬ IsAncestor (javaPath earlier) (javaPath later) := by
  have hsorted : (sortFiles files).Pairwise comparesLe := List.pairwise_insertionSort _ files
  exact hsorted.imp not_isAncestor

/-- Sorting keeps the files. -/
theorem mem_sortFiles {files : List Text} {f : Text} : f ∈ sortFiles files ↔ f ∈ files :=
  List.mem_insertionSort _

/-! ## Deletions from below -/

/-- In every tree that has the file, deleting it is deleting its path. -/
def Effective (f : File) : Prop :=
  ∀ fs : Fs, IsTree fs → fs.get f.path ≠ none → f.delete fs = fs.delete f.path

/-- What is missing stays missing. -/
theorem get_deleteAll_of_none {fs : Fs} {q : Path} (h : fs.get q = none) (files : List File) :
    (deleteAll fs files).get q = none := by
  unfold deleteAll
  induction files generalizing fs with
  | nil => exact h
  | cons f files ih =>
      rw [List.foldl_cons]
      exact ih (f.get_delete_of_none h)

/-- Deletions leave a tree. -/
theorem isTree_deleteAll {fs : Fs} (h : IsTree fs) (files : List File) :
    IsTree (deleteAll fs files) := by
  unfold deleteAll
  induction files generalizing fs with
  | nil => exact h
  | cons f files ih => exact ih (f.isTree_delete h)

/-- A file is deleted when its turn comes. -/
theorem get_deleteAll_of_file {files : List File} {f : File} (hf : f ∈ files)
    (heffective : Effective f) {fs : Fs} (htree : IsTree fs) {content : Text}
    (hfile : fs.get f.path = some (.file content)) :
    (deleteAll fs files).get f.path = none := by
  induction files generalizing fs with
  | nil => cases hf
  | cons g files ih =>
      have hstep : deleteAll fs (g :: files) = deleteAll (g.delete fs).2 files := rfl
      rw [hstep]
      rcases List.mem_cons.mp hf with rfl | hf
      · -- Its own turn.
        apply get_deleteAll_of_none
        rw [heffective fs htree (by simp [hfile]), Fs.get_delete]
        exact if_pos ⟨rfl, fun hdir => by simp [hfile] at hdir⟩
      · -- Another name may lead to the same file.
        cases hleft : (g.delete fs).2.get f.path with
        | none => exact get_deleteAll_of_none hleft files
        | some node =>
            refine ih hf (g.isTree_delete htree) ?_
            by_cases hpath : f.path = g.path
            · unfold File.delete at hleft ⊢
              split at hleft
              · rename_i hreached
                rw [Fs.get_delete, if_pos ⟨hpath, fun hdir => by
                  rw [← hpath, hfile] at hdir
                  cases hdir⟩] at hleft
                cases hleft
              · rename_i hreached
                rw [if_neg hreached, hfile]
            · rw [File.get_delete_of_ne hpath, hfile]

/-- Files that are deleted from below leave nothing when nothing else is there. -/
theorem get_deleteAll_of_below {files : List File}
    (hsorted : files.Pairwise fun earlier later =>
      ¬ (earlier.path <+: later.path ∧ later.path ≠ earlier.path))
    {fs : Fs} (htree : IsTree fs) {f : File} (hf : f ∈ files) (heffective : Effective f)
    (hbelow : ∀ q, f.path <+: q → q ≠ f.path → fs.get q ≠ none →
      ∃ g ∈ files, Effective g ∧ g.path = q) :
    (deleteAll fs files).get f.path = none := by
  -- The last file finds an empty directory: what was below it was deleted before.
  induction files using List.reverseRecOn generalizing f with
  | nil => cases hf
  | append_singleton init last ih =>
      obtain ⟨hinit, -, hlast⟩ := List.pairwise_append.mp hsorted
      have hstep : deleteAll fs (init ++ [last]) = (last.delete (deleteAll fs init)).2 := by
        simp [deleteAll]
      rw [hstep]
      by_cases hearly : f ∈ init
      · refine last.get_delete_of_none (ih hinit hearly heffective fun q hpre hne hthere => ?_)
        obtain ⟨g, hg, hgood, rfl⟩ := hbelow q hpre hne hthere
        refine ⟨g, ?_, hgood, rfl⟩
        rcases List.mem_append.mp hg with hg | hg
        · exact hg
        · rw [List.mem_singleton] at hg
          subst hg
          exact absurd ⟨hpre, hne⟩ (hlast f hearly g (List.mem_singleton_self g))
      · obtain rfl : f = last := by
          rcases List.mem_append.mp hf with h | h
          · exact absurd h hearly
          · exact List.mem_singleton.mp h
        by_cases hpresent : (deleteAll fs init).get f.path = none
        · exact f.get_delete_of_none hpresent
        rw [heffective _ (isTree_deleteAll htree init) hpresent, Fs.get_delete]
        refine if_pos ⟨rfl, fun _ => ?_⟩
        by_contra hchildren
        rw [Bool.not_eq_false, Fs.hasChildren_iff] at hchildren
        obtain ⟨q, hpre, hne, hleft⟩ := hchildren
        have hmem : ∀ r, f.path <+: r → r ≠ f.path → fs.get r ≠ none →
            ∃ g ∈ init, Effective g ∧ g.path = r := by
          intro r hr hrne hthere
          obtain ⟨g, hg, hgood, rfl⟩ := hbelow r hr hrne hthere
          rcases List.mem_append.mp hg with hg | hg
          · exact ⟨g, hg, hgood, rfl⟩
          · rw [List.mem_singleton] at hg
            exact absurd (congrArg File.path hg) hrne
        have hold : fs.get q ≠ none := fun h => hleft (get_deleteAll_of_none h init)
        obtain ⟨g, hg, hgood, rfl⟩ := hmem q hpre hne hold
        refine hleft (ih hinit hg hgood fun r hr hrq hthere => hmem r (hpre.trans hr) ?_ hthere)
        rintro rfl
        exact hrq (hr.eq_of_length_le hpre.length_le).symm

/-! ## One spelling -/

variable (w : AddonCall)

/-- A listed directory is written as the names of the entries below it write it. -/
def OneSpelling (files : List Text) : Prop :=
  ∀ d ∈ files, ∀ f ∈ files,
    (fileOf w.cwd w.directory d).path <+: (fileOf w.cwd w.directory f).path →
    (fileOf w.cwd w.directory f).path ≠ (fileOf w.cwd w.directory d).path →
      javaPath d = [] ∨ IsAncestor (javaPath d) (javaPath f)

/-- The names between the slashes. -/
def names (f : Text) : List Text :=
  (pieces '/' f).filter fun piece => decide (piece ≠ [])

/-- All names start alike, and no dots follow. -/
def WrittenAlike (absolute : Bool) (lead : List Text) (files : List Text) : Prop :=
  ∀ f ∈ files, decide (f.head? = some '/') = absolute ∧
    ∃ rest, names f = lead ++ rest ∧ ∀ name ∈ rest, IsName name

/-- A path from its names, as `getPath` gives it. -/
def spell (absolute : Bool) (ns : List Text) : Text :=
  (if absolute then ['/'] else []) ++ List.intercalate ['/'] ns

/-- What `File` makes of a name is its components with single slashes. -/
theorem javaPath_eq_spell (f : Text) :
    javaPath f = spell (decide (f.head? = some '/')) (names f) := by
  rw [javaPath, spell, names]
  simp only [decide_eq_true_eq]

/-- A component is not empty and has no slash in it. -/
theorem mem_names {f name : Text} (h : name ∈ names f) : name ≠ [] ∧ '/' ∉ name := by
  rw [names, List.mem_filter, decide_eq_true_eq] at h
  exact ⟨h.2, not_mem_of_mem_pieces h.1⟩

/-- Resolving a name is walking its components. -/
theorem walk_names (dir : Path) (f : Text) :
    Fs.resolve dir f = walk dir ((names f).map Hop.ofName) := by
  rw [Confinement.resolve_eq_walk, Confinement.hops, names]
  induction pieces '/' f generalizing dir with
  | nil => rfl
  | cons piece ps ih =>
      by_cases hempty : piece = []
      · subst hempty
        rw [List.map_cons, walk_cons, ih, List.filter_cons_of_neg (by simp)]
        rfl
      · rw [List.map_cons, walk_cons, ih, List.filter_cons_of_pos (by simpa using hempty),
          List.map_cons, walk_cons]

/-- Plain components at the end are appended to where the walk has led. -/
theorem walk_append_names {dir : Path} {lead rest : List Text} (h : ∀ name ∈ rest, IsName name) :
    walk dir ((lead ++ rest).map Hop.ofName) = walk dir (lead.map Hop.ofName) ++ rest := by
  induction rest using List.reverseRecOn with
  | nil => simp
  | append_singleton rest name ih =>
      have hname : IsName name := h name (by simp)
      have hrest := ih fun n hn => h n (List.mem_append_left _ hn)
      rw [walk, List.map_append, List.foldl_append] at hrest ⊢
      rw [List.map_append, List.foldl_append, hrest]
      simp [ofName_of_isName hname, hop, walk]

/-- Cutting a path at its last slash. -/
theorem rdropWhile_slash (s : Text) {name : Text} (hname : '/' ∉ name) :
    (s ++ '/' :: name).rdropWhile (· ≠ '/') = s ++ ['/'] := by
  have hreverse : s ++ '/' :: name = (name.reverse ++ '/' :: s.reverse).reverse := by simp
  have hplain : ∀ c ∈ name.reverse, decide (c ≠ '/') = true :=
    forall_ne_of_not_mem (by simpa using hname)
  rw [hreverse, List.rdropWhile_reverse, dropWhile_append_cons hplain (by simp)]
  simp

/-- A path of several names is split at its last slash. -/
theorem spell_concat (absolute : Bool) {ns : List Text} (name : Text) (hne : ns ≠ []) :
    spell absolute (ns ++ [name]) = spell absolute ns ++ '/' :: name := by
  obtain ⟨init, n, rfl⟩ := (List.eq_nil_or_concat ns).resolve_left hne
  rw [List.concat_eq_append, spell, spell, intercalate_concat, intercalate_concat]
  simp

/-- The last name of a path is taken off to get its parent. -/
theorem getParent_spell {absolute : Bool} {ns : List Text} {name : Text}
    (hns : ∀ n ∈ ns, n ≠ []) (hname : name ≠ []) (hslash : '/' ∉ name)
    (hlong : absolute = true ∨ ns ≠ []) :
    getParent (spell absolute (ns ++ [name])) = some (spell absolute ns) := by
  by_cases hempty : ns = []
  · subst hempty
    obtain rfl : absolute = true := hlong.resolve_right (by simp)
    have hspell : spell true ([] ++ [name]) = '/' :: name := by simp [spell]
    have hup : ('/' :: name).rdropWhile (· ≠ '/') = ['/'] := rdropWhile_slash [] hslash
    rw [hspell, getParent, hup]
    simpa [spell] using hname
  · have hpos : 0 < (spell absolute ns).length := by
      obtain ⟨n, rest, rfl⟩ := List.exists_cons_of_ne_nil hempty
      have hn := List.length_pos_of_ne_nil (hns n (by simp))
      rw [spell, List.length_append]
      cases rest with
      | nil =>
          simp only [List.intercalate_singleton]
          omega
      | cons n' rest =>
          rw [List.intercalate_cons_cons]
          simp only [List.length_append, List.length_singleton]
          omega
    rw [spell_concat absolute name hempty, getParent, rdropWhile_slash _ hslash]
    rw [if_neg, List.dropLast_concat]
    rw [List.length_append, List.length_singleton]
    split <;> omega

/-- The names on the way down are the ancestors of a path. -/
theorem isAncestor_spell {absolute : Bool} {ns more : List Text}
    (hns : ∀ n ∈ ns ++ more, n ≠ [] ∧ '/' ∉ n) (hlong : absolute = true ∨ ns ≠ [])
    (hmore : more ≠ []) :
    IsAncestor (spell absolute ns) (spell absolute (ns ++ more)) := by
  induction more using List.reverseRecOn with
  | nil => exact absurd rfl hmore
  | append_singleton more name ih =>
      rw [← List.append_assoc] at hns ⊢
      have hparent : getParent (spell absolute (ns ++ more ++ [name])) =
          some (spell absolute (ns ++ more)) := by
        apply getParent_spell
        · exact fun n hn => (hns n (List.mem_append_left _ hn)).1
        · exact (hns name (by simp)).1
        · exact (hns name (by simp)).2
        · exact hlong.imp_right fun h => by simp [h]
      by_cases hend : more = []
      · rw [hend, List.append_nil] at hparent ⊢
        exact Relation.TransGen.single hparent
      · have habove := ih (fun n hn => hns n (List.mem_append_left _ hn)) hend
        exact Relation.TransGen.head hparent habove

/-- Where a file of an addon is, as a walk. -/
theorem fileOf_names {absolute : Bool} {f : Text}
    (habsolute : decide (f.head? = some '/') = absolute) :
    (fileOf w.cwd w.directory f).path =
      walk (w.directory.getD (if absolute then [] else w.cwd)) ((names f).map Hop.ofName) := by
  rw [← walk_names, ← habsolute, File.path]
  cases hdir : w.directory with
  | none => simp [fileOf]
  | some dir => simp [fileOf]

/-- Where a name leads whose start is shared. -/
theorem fileOf_lead {absolute : Bool} {lead rest : List Text} {f : Text}
    (habsolute : decide (f.head? = some '/') = absolute) (hnames : names f = lead ++ rest)
    (hrest : ∀ name ∈ rest, IsName name) :
    (fileOf w.cwd w.directory f).path =
      walk (w.directory.getD (if absolute then [] else w.cwd)) (lead.map Hop.ofName) ++ rest := by
  rw [fileOf_names w habsolute, hnames, walk_append_names hrest]

/-- Names that are written alike are in one spelling. -/
theorem oneSpelling_of_writtenAlike {absolute : Bool} {lead files : List Text}
    (h : WrittenAlike absolute lead files) : OneSpelling w files := by
  intro d hd f hf hpre hne
  obtain ⟨habsD, restD, hnamesD, hplainD⟩ := h d hd
  obtain ⟨habsF, restF, hnamesF, hplainF⟩ := h f hf
  rw [fileOf_lead w habsD hnamesD hplainD, fileOf_lead w habsF hnamesF hplainF] at hpre hne
  obtain ⟨more, hmore⟩ := (List.prefix_append_right_inj _).mp hpre
  have hbelow : names f = names d ++ more := by
    rw [hnamesF, hnamesD, ← hmore, List.append_assoc]
  rw [javaPath_eq_spell, javaPath_eq_spell, habsD, habsF, hbelow]
  by_cases hlong : absolute = true ∨ names d ≠ []
  · right
    refine isAncestor_spell (fun n hn => mem_names (hbelow ▸ hn)) hlong ?_
    rintro rfl
    exact hne (by rw [← hmore, List.append_nil])
  · left
    push Not at hlong
    simp [spell, hlong.1, hlong.2]

/-! ## Names that the system gets along -/

/-- Without two dots a name leads down along its names. -/
theorem foldl_of_notClimbing {ns : List Text} (h : ['.', '.'] ∉ ns) (p : Path) :
    ns.foldl (fun p name => if name = [] ∨ name = ['.'] then p
      else if name = ['.', '.'] then p.dropLast else p ++ [name]) p =
      p ++ ns.filter fun name => decide (name ≠ [] ∧ name ≠ ['.']) := by
  induction ns generalizing p with
  | nil => simp
  | cons name ns ih =>
      rw [List.mem_cons, not_or] at h
      rw [List.foldl_cons, ih h.2]
      by_cases hskip : name = [] ∨ name = ['.']
      · rw [if_pos hskip, List.filter_cons_of_neg]
        simpa only [decide_eq_true_eq, not_and_or, not_not] using hskip
      · rw [if_neg hskip, if_neg (Ne.symm h.1), List.filter_cons_of_pos]
        · simp
        · simpa only [decide_eq_true_eq, not_or] using hskip

/-- The system gets along to what is there, when no two dots are on the way and no dot
is at its end. -/
theorem walks_of_present {fs : Fs} (htree : IsTree fs) {ns : List Text} (h : ['.', '.'] ∉ ns)
    (hend : (ns.filter fun name => decide (name ≠ [])).getLast? ≠ some ['.']) {p : Path}
    (hpresent : fs.get (p ++ ns.filter fun name => decide (name ≠ [] ∧ name ≠ ['.'])) ≠ none) :
    fs.walks p ns = true := by
  induction ns generalizing p with
  | nil => rfl
  | cons name ns ih =>
      rw [List.mem_cons, not_or] at h
      rw [Fs.walks]
      by_cases hempty : name = []
      · subst hempty
        rw [if_pos rfl]
        exact ih h.2 hend hpresent
      · have hrest : (ns.filter fun name => decide (name ≠ [])).getLast? ≠ some ['.'] := by
          rw [List.filter_cons_of_pos (by simpa using hempty), List.getLast?_cons] at hend
          intro hlast
          rw [hlast] at hend
          exact hend rfl
        rw [if_neg hempty]
        by_cases hdot : name = ['.']
        · subst hdot
          rw [List.filter_cons_of_neg (by simp)] at hpresent
          rw [if_pos rfl, ih h.2 hrest hpresent, Bool.and_true, Fs.isDirectory, decide_eq_true_eq]
          by_cases hroot : p = []
          · exact Or.inl hroot
          · refine Or.inr (htree.above hpresent (List.prefix_append _ _) hroot fun heq => ?_)
            -- Behind the dot another name follows.
            have hnone : (ns.filter fun name => decide (name ≠ [] ∧ name ≠ ['.'])) = [] :=
              List.append_right_eq_self.mp heq.symm
            rw [List.filter_cons_of_pos (by simp), List.getLast?_cons] at hend
            cases hlast : (ns.filter fun name => decide (name ≠ [])).getLast? with
            | none => exact hend (by rw [hlast]; rfl)
            | some last =>
                have hmem := List.mem_filter.mp (List.mem_of_getLast? hlast)
                rw [List.filter_eq_nil_iff] at hnone
                have hdots := hnone last hmem.1
                rw [decide_eq_true_eq, not_and_or, not_not, not_not] at hdots
                rcases hdots with rfl | rfl
                · simpa using hmem.2
                · exact hrest hlast
        · rw [if_neg hdot, if_neg (Ne.symm h.1)]
          refine ih h.2 hrest ?_
          rw [List.filter_cons_of_pos (by simpa using ⟨hempty, hdot⟩)] at hpresent
          simpa using hpresent

/-- Such a name is deleted as its path. -/
theorem effective_of_names {f : File} (hclimb : ['.', '.'] ∉ names f.child)
    (hend : (names f.child).getLast? ≠ some ['.']) : Effective f := by
  have hpieces : ['.', '.'] ∉ pieces '/' f.child := fun hmem =>
    hclimb (List.mem_filter.mpr ⟨hmem, by simp⟩)
  intro fs htree hpresent
  have hreached : f.reached fs = true := by
    refine walks_of_present htree hpieces hend ?_
    rwa [File.path, Fs.resolve, foldl_of_notClimbing hpieces] at hpresent
  have hdots : f.endsInDots = false := by
    rw [File.endsInDots]
    change (names f.child).getLast?.any _ = false
    cases hlast : (names f.child).getLast? with
    | none => rfl
    | some last =>
        have hone : last ≠ ['.'] := fun h => hend (h ▸ hlast)
        have htwo : last ≠ ['.', '.'] := fun h => hclimb (h ▸ List.mem_of_getLast? hlast)
        simp [hone, htwo]
  rw [File.delete, hreached, hdots]
  rfl

/-! ## Removals -/

/-- Only the empty name has an empty path. -/
theorem javaPath_eq_nil {f : Text} (h : javaPath f = []) :
    decide (f.head? = some '/') = false ∧ names f = [] := by
  rw [javaPath_eq_spell, spell, List.append_eq_nil_iff] at h
  refine ⟨by simpa using h.1, ?_⟩
  cases hnames : names f with
  | nil => rfl
  | cons n ns =>
      have hn : n ≠ [] := (mem_names (hnames ▸ List.mem_cons_self ..)).1
      cases ns <;> simp [hnames, List.intercalate_cons_cons, hn] at h

/-- No directory is deleted before what is below it. -/
theorem removalFiles_pairwise {files : List Text} (h : OneSpelling w files) :
    (removalFiles w files).Pairwise fun earlier later =>
      ¬ (earlier.path <+: later.path ∧ later.path ≠ earlier.path) := by
  have hsorted : (sortFiles files).Pairwise comparesLe := List.pairwise_insertionSort _ files
  rw [removalFiles, List.pairwise_map]
  refine hsorted.imp_of_mem fun {d f} hd hf hle hbelow => ?_
  rcases h d (mem_sortFiles.mp hd) f (mem_sortFiles.mp hf) hbelow.1 hbelow.2 with hnil | hancestor
  · -- What stands behind the empty name is the empty name.
    have hnil' : javaPath f = [] := by
      rw [comparesLe, hnil] at hle
      exact eq_of_prefix_of_javaLe List.nil_prefix hle
    obtain ⟨habsD, hnamesD⟩ := javaPath_eq_nil hnil
    obtain ⟨habsF, hnamesF⟩ := javaPath_eq_nil hnil'
    apply hbelow.2
    rw [fileOf_names w habsF, fileOf_names w habsD, hnamesF, hnamesD]
  · exact not_isAncestor hle hancestor

/-- A file keeps the name it was given. -/
theorem fileOf_child (f : Text) : (fileOf w.cwd w.directory f).child = f := by
  unfold fileOf
  cases w.directory <;> rfl

/-- A name that is written alike with the others, does not climb and does not end in a
dot is deleted as its path. -/
theorem effective_of_writtenAlike {absolute : Bool} {lead files : List Text}
    (h : WrittenAlike absolute lead files) (hclimb : ['.', '.'] ∉ lead) {f : Text} (hf : f ∈ files)
    (hend : (names f).getLast? ≠ some ['.']) : Effective (fileOf w.cwd w.directory f) := by
  obtain ⟨-, rest, hnames, hplain⟩ := h f hf
  apply effective_of_names
  · rw [fileOf_child, hnames, List.mem_append, not_or]
    exact ⟨hclimb, fun hmem => (hplain _ hmem).2.2 rfl⟩
  · rwa [fileOf_child]

/-- Only the directory in which all names start can be listed as a dot. -/
theorem getLast?_names_of_below {absolute : Bool} {lead files : List Text}
    (h : WrittenAlike absolute lead files) {d g : Text} (hd : d ∈ files) (hg : g ∈ files)
    (hbelow : (fileOf w.cwd w.directory d).path <+: (fileOf w.cwd w.directory g).path)
    (hne : (fileOf w.cwd w.directory g).path ≠ (fileOf w.cwd w.directory d).path) :
    (names g).getLast? ≠ some ['.'] := by
  obtain ⟨habsD, restD, hnamesD, hplainD⟩ := h d hd
  obtain ⟨habsG, restG, hnamesG, hplainG⟩ := h g hg
  rw [fileOf_lead w habsD hnamesD hplainD, fileOf_lead w habsG hnamesG hplainG] at hbelow hne
  have hrest : restG ≠ [] := by
    rintro rfl
    obtain ⟨more, hmore⟩ := (List.prefix_append_right_inj _).mp hbelow
    have hnil := (List.append_eq_nil_iff.mp hmore).1
    exact hne (by rw [hnil])
  obtain ⟨init, last, rfl⟩ := (List.eq_nil_or_concat restG).resolve_left hrest
  rw [hnamesG, List.concat_eq_append, ← List.append_assoc, List.getLast?_concat]
  intro hlast
  exact (hplainG last (by simp)).2.1 (Option.some.inj hlast)

/-- Every list of names is sorted so that no directory stands in front of what is below
it.  Names that are written alike and do not climb are in one spelling, and the removal
deletes every file of the list and every directory of the list in which nothing else is,
unless it is listed by a name that ends in a dot. -/
theorem removal_of_sorted :
    (∀ files, (sortFiles files).Perm files ∧
      (sortFiles files).Pairwise fun earlier later =>
        ¬ IsAncestor (javaPath earlier) (javaPath later)) ∧
      ∀ absolute lead files, WrittenAlike absolute lead files → ['.', '.'] ∉ lead →
        OneSpelling w files ∧
        ∀ fs : Fs, IsTree fs → ∀ f ∈ files, (names f).getLast? ≠ some ['.'] →
          ∀ p, p = (fileOf w.cwd w.directory f).path →
            (fs.isFile p = true ∨
              ∀ q, p <+: q → q ≠ p → fs.get q ≠ none → q ∈ removalPaths w files) →
            (deleteAll fs (removalFiles w files)).get p = none := by
  refine ⟨fun files => ⟨List.perm_insertionSort _ files, sortFiles_pairwise files⟩, ?_⟩
  intro absolute lead files halike hclimb
  refine ⟨oneSpelling_of_writtenAlike w halike, ?_⟩
  rintro fs htree f hf hend p rfl hcase
  have hspelling := oneSpelling_of_writtenAlike w halike
  have hmem : fileOf w.cwd w.directory f ∈ removalFiles w files :=
    List.mem_map_of_mem (mem_sortFiles.mpr hf)
  have heffective := effective_of_writtenAlike w halike hclimb hf hend
  rcases hcase with hfile | hbelow
  · unfold Fs.isFile at hfile
    split at hfile
    · rename_i content hget
      exact get_deleteAll_of_file hmem heffective htree hget
    · cases hfile
  · refine get_deleteAll_of_below (removalFiles_pairwise w hspelling) htree hmem heffective ?_
    intro q hpre hne hthere
    obtain ⟨g, hg, rfl⟩ := List.mem_map.mp (hbelow q hpre hne hthere)
    obtain ⟨name, hname, rfl⟩ := List.mem_map.mp hg
    have hlisted := mem_sortFiles.mp hname
    exact ⟨_, hg, effective_of_writtenAlike w halike hclimb hlisted
      (getLast?_names_of_below w halike hf hlisted hpre hne), rfl⟩

/-- A call for a pack in `/mc`. -/
def inMc : AddonCall :=
  ⟨[], [], some ["mc".toList], [], fun _ => none, fun _ => []⟩

/-- A directory that is listed first, with a file in it. -/
theorem removal_of_sorted_nested :
    let files := ["./mods/".toList, "./mods/a".toList]
    let fs : Fs := ⟨[(["mc".toList], .dir), (["mc".toList, "mods".toList], .dir),
      (["mc".toList, "mods".toList, "a".toList], .file [])]⟩
    (deleteAll fs (removalFiles inMc files)).get ["mc".toList, "mods".toList] = none := by
  intro files fs
  have halike : WrittenAlike false [['.']] files := by
    intro f hf
    rcases List.mem_pair.mp hf with rfl | rfl
    · exact ⟨by decide, ["mods".toList], by decide, by decide⟩
    · exact ⟨by decide, ["mods".toList, "a".toList], by decide, by decide⟩
  obtain ⟨-, hdeleted⟩ := (removal_of_sorted inMc).2 false [['.']] files halike (by decide)
  refine hdeleted fs (by decide) "./mods/".toList (by decide) (by decide) _ rfl
    (Or.inr fun q hpre hne hpresent => ?_)
  obtain ⟨e, he, rfl⟩ : ∃ e ∈ fs.nodes, e.1 = q := by
    by_contra hnone
    push Not at hnone
    exact hpresent (Fs.get_eq_none.mpr hnone)
  rcases List.mem_cons.mp he with rfl | he
  · exact absurd hpre (by decide)
  rcases List.mem_pair.mp he with rfl | rfl
  · exact absurd rfl hne
  · decide

/-- The directory that an archive lists as `./` stays, although nothing but a listed file
was in it; and a listed file stays that is reached through a directory which goes
first. -/
theorem removal_fails :
    (let files := ["./".toList, "./a".toList]
      let fs : Fs := ⟨[(["mc".toList], .dir), (["mc".toList, "a".toList], .file [])]⟩
      WrittenAlike false [['.']] files ∧
        removalPaths inMc files = [["mc".toList, "a".toList], ["mc".toList]] ∧
        deleteAll fs (removalFiles inMc files) = ⟨[(["mc".toList], .dir)]⟩) ∧
      let files := ["../mc".toList, "../a".toList]
      let fs : Fs := ⟨[(["mc".toList], .dir), (["a".toList], .file [])]⟩
      WrittenAlike false [['.', '.']] files ∧
        removalPaths inMc files = [["mc".toList], ["a".toList]] ∧
        deleteAll fs (removalFiles inMc files) = ⟨[(["a".toList], .file [])]⟩ := by
  refine ⟨⟨?_, by decide, by decide⟩, ?_, by decide, by decide⟩
  · intro f hf
    rcases List.mem_pair.mp hf with rfl | rfl
    · exact ⟨by decide, [], by decide, by decide⟩
    · exact ⟨by decide, ["a".toList], by decide, by decide⟩
  · intro f hf
    rcases List.mem_pair.mp hf with rfl | rfl
    · exact ⟨by decide, ["mc".toList], by decide, by decide⟩
    · exact ⟨by decide, ["a".toList], by decide, by decide⟩

end RemovalOrder
end Client
end ModpackInstaller
