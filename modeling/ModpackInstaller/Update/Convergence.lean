import ModpackInstaller.Server.Plan
import ModpackInstaller.Update.ModsTree

/-!
# Convergence of the mods tree

The server diffs the listings of two trees, and the client executes the lines
of the diff in order: first all removals, ancestors first, then all additions.

Main results:

- Theorem {lit}`diffLines_listing`: the lines of the list diff of two trees.
- Theorem {lit}`runInstructions_planLines`: on trees that can be diffed they
  turn the old tree into the latest one.
- Theorem {lit}`converges_iff`: and on no others.
-/

namespace ModpackInstaller
namespace Update

open Library Server Client

/-! ## The lines of the diff -/

/-- The file type behind a kind. -/
def Kind.fileType : Kind → FileType
  | .file => .regular
  | .dir => .directory

/-- The instructions for the change from one tree to another. -/
def planLines (old latest : FileTree) : List Text :=
  (old.without latest).map (fun e => removeLine e.1) ++
    (latest.without old).map (fun e => addLine e.2 e.1)

private theorem addedLine_kind (modpack : Text) (k : Kind) (p : Path) :
    addedLine modpack (listed (joined p)) (some k.fileType) = addLine k p := by
  have hdot : "./".toList = ['.', '/'] := by decide
  have hfile : "+fmods/".toList = '+' :: 'f' :: "mods/".toList := by decide
  have hdir : "+dmods/".toList = '+' :: 'd' :: "mods/".toList := by decide
  have hreplace : ∀ rep : Text, strReplaceText (listed (joined p)) "./".toList rep =
      replaceAll ['.', '/'] rep (listed (joined p)) := by
    intro rep
    rw [strReplaceText_eq_replaceAll (by decide), hdot]
  cases k with
  | file =>
      change strReplaceText _ _ "+fmods/".toList = _
      rw [hreplace, hfile]
      rfl
  | dir =>
      change strReplaceText _ _ "+dmods/".toList = _
      rw [hreplace, hdir]
      rfl

theorem newline_not_mem_addLine {p : Path} (hp : ValidPath p) (k : Kind) : '\n' ∉ addLine k p := by
  intro h
  rcases mem_replaceAll h with h | h
  · exact absurd h (by simpa [listed] using newline_not_mem_joined hp)
  · cases k <;> exact absurd h (by decide)

theorem newline_not_mem_removeLine {p : Path} (hp : ValidPath p) : '\n' ∉ removeLine p := by
  intro h
  rcases mem_replaceAll h with h | h
  · exact absurd h (by simpa [listed] using newline_not_mem_joined hp)
  · exact absurd h (by decide)

/-- The lines of the list diff of two trees, when the server holds the latest
one. -/
theorem diffLines_listing {k : Kernel} {modpack : Text} {old latest : FileTree}
    (hstat : ∀ t, ∀ e ∈ latest.entries,
      k.stat t (cstr (serverPath modpack (listed (joined e.1)))) = some e.2.fileType) (sys : Sys) :
    diffLines k sys modpack old.listing latest.listing = planLines old latest := by
  have hdot : "./".toList = ['.', '/'] := by decide
  have hremove : "-umods/".toList = '-' :: 'u' :: "mods/".toList := by decide
  have hadded : ∀ (es : List (Path × Kind)) (clock : Nat), (∀ e ∈ es, e ∈ latest.entries) →
      (addedTexts k modpack clock (es.map fun e => listed (joined e.1))).flatMap textLines =
        es.map fun e => addLine e.2 e.1 := by
    intro es
    induction es with
    | nil => intro _ _; rfl
    | cons e es ih =>
        intro clock hes
        have he := hes e (by simp)
        rw [List.map_cons, addedTexts, List.flatMap_cons, ih _ fun x hx => hes x (by simp [hx]),
          hstat _ e he, addedLine_kind,
          textLines_of_not_mem (newline_not_mem_addLine (latest.valid e he) _)]
        rfl
  rw [diffLines, planLines, FileTree.onlyIn_listing, FileTree.onlyIn_listing, List.map_map,
    hadded _ _ fun e he => (FileTree.mem_without.mp he).1, hdot, hremove]
  rfl

/-! ## Trees that can be diffed -/

/-- What the two trees must be like for the diff to work. -/
structure Diffable (old latest : FileTree) : Prop where
  /-- No path changes between file and directory. -/
  sameKind : ∀ p k k', old.kind p = some k → latest.kind p = some k' → k = k'
  /-- Only files and empty directories are removed. -/
  leaves : ∀ e ∈ old.without latest, ∀ e' ∈ old.entries, e.1 <+: e'.1 → e'.1 = e.1
  /-- No added or removed path goes through a directory whose name ends in a dot. -/
  noDots : ∀ e ∈ old.without latest ++ latest.without old, ¬ DottedDir e.1

section Execute

variable {dir : Path} {transfer : Nat → Text → Transfer} {fs : Fs}

/-- Removals of leaves take them away. -/
theorem runInstructions_removals (transfer : Nat → Text → Transfer) {f : KindMap}
    {es : List (Path × Kind)}
    (hes : ∀ e ∈ es, ValidPath e.1 ∧ ¬ DottedDir e.1)
    (hleaf : ∀ e ∈ es, ∀ q, e.1 <+: q → q ≠ e.1 → f q = none) (h : ModsHolds dir fs f) (n : Nat) :
    ∃ fs', runInstructions dir transfer n (es.map fun e => removeLine e.1) fs = (none, fs') ∧
      ModsHolds dir fs' fun q => if q ∈ es.map Prod.fst then none else f q := by
  induction es generalizing f fs n with
  | nil => exact ⟨fs, rfl, by simpa using h⟩
  | cons e es ih =>
      obtain ⟨hvalid, hdot⟩ := hes e (by simp)
      obtain ⟨fs₁, hround, hholds⟩ :=
        h.removeLine (transfer n) hvalid hdot (hleaf e (by simp))
      obtain ⟨fs', hrest, hholds'⟩ := ih (fun x hx => hes x (by simp [hx])) (fun x hx q hq hne => by
        by_cases hqe : q = e.1
        · rw [hqe, Function.update_self]
        · rw [Function.update_of_ne hqe]
          exact hleaf x (by simp [hx]) q hq hne) hholds (n + 1)
      refine ⟨fs', ?_, ?_⟩
      · rw [List.map_cons, runInstructions, hround]
        exact hrest
      · convert hholds' using 2 with q
        by_cases hqe : q = e.1
        · simp [hqe]
        · have hmem : q ∈ (e :: es).map Prod.fst ↔ q ∈ es.map Prod.fst := by
            rw [List.map_cons, List.mem_cons, or_iff_right hqe]
          rw [if_congr hmem rfl rfl, Function.update_of_ne hqe]

/-- The state between two additions: the common paths and the added ones so
far. -/
private def reached (common : Path → Bool) (t : FileTree) (done : List (Path × Kind)) : KindMap :=
  fun q => if common q = true ∨ q ∈ done.map Prod.fst then t.kind q else none

private theorem reached_append_of_ne {common : Path → Bool} {t : FileTree}
    {done : List (Path × Kind)} {e : Path × Kind} {q : Path} (hq : q ≠ e.1) :
    reached common t (done ++ [e]) q = reached common t done q := by
  have hmem : (common q = true ∨ q ∈ (done ++ [e]).map Prod.fst) ↔
      (common q = true ∨ q ∈ done.map Prod.fst) := by
    rw [List.map_append, List.mem_append, List.map_singleton, List.mem_singleton, or_iff_left hq]
  rw [reached, reached, if_congr hmem rfl rfl]

/-- Additions in the order of the tree complete it. -/
theorem runInstructions_additions {common : Path → Bool} {t : FileTree}
    (htransfer : ∀ n name, ∃ content, transfer n name = .complete content)
    {before after : List (Path × Kind)} (hsplit : t.entries = before ++ after)
    (hdots : ∀ e ∈ after, common e.1 = false → ¬ DottedDir e.1)
    (h : ModsHolds dir fs (reached common t before)) (n : Nat) :
    ∃ fs', runInstructions dir transfer n
        ((after.filter fun e => !common e.1).map fun e => addLine e.2 e.1) fs = (none, fs') ∧
      ModsHolds dir fs' (reached common t t.entries) := by
  induction after generalizing before fs n with
  | nil =>
      rw [List.append_nil] at hsplit
      exact ⟨fs, rfl, hsplit ▸ h⟩
  | cons e after ih =>
      have hnext : t.entries = (before ++ [e]) ++ after := by rw [hsplit]; simp
      have he : t.kind e.1 = some e.2 := FileTree.kind_eq_some.mpr (by rw [hsplit]; simp)
      have hdots' : ∀ x ∈ after, common x.1 = false → ¬ DottedDir x.1 :=
        fun x hx => hdots x (by simp [hx])
      cases hcommon : common e.1 with
      | true =>
          have hsame : reached common t (before ++ [e]) = reached common t before := by
            funext q
            by_cases hq : q = e.1
            · rw [reached, reached, hq, if_pos (Or.inl hcommon), if_pos (Or.inl hcommon)]
            · exact reached_append_of_ne hq
          rw [List.filter_cons_of_neg (by simp [hcommon])]
          exact ih hnext hdots' (hsame ▸ h) n
      | false =>
          have hnodup := t.nodup
          rw [hsplit, List.map_append, List.nodup_append] at hnodup
          have hfresh : e.1 ∉ before.map Prod.fst := fun hmem =>
            hnodup.2.2 _ hmem _ (by simp) rfl
          have hnew : reached common t before e.1 = none := by
            rw [reached, if_neg]
            simpa only [hcommon, Bool.false_eq_true, false_or] using hfresh
          have habove : ∀ q, q <+: e.1 → q ≠ [] → q ≠ e.1 →
              reached common t before q = some .dir := by
            intro q hq hnil hne
            have hmem := t.ancestors hsplit hq hnil hne
            rw [reached, if_pos (Or.inr (List.mem_map_of_mem hmem)), FileTree.kind_eq_some, hsplit]
            exact List.mem_append_left _ hmem
          have hvalid : ValidPath e.1 := t.valid e (by rw [hsplit]; simp)
          obtain ⟨fs₁, hround, hholds⟩ := h.addLine hvalid (hdots e (by simp) hcommon) hnew habove
            (htransfer n) e.2
          have hstate : Function.update (reached common t before) e.1 (some e.2) =
              reached common t (before ++ [e]) := by
            funext q
            by_cases hq : q = e.1
            · rw [hq, Function.update_self, reached, if_pos (by simp), he]
            · rw [Function.update_of_ne hq]
              exact (reached_append_of_ne hq).symm
          obtain ⟨fs', hrest, hholds'⟩ := ih hnext hdots' (hstate ▸ hholds) (n + 1)
          refine ⟨fs', ?_, hholds'⟩
          rw [List.filter_cons_of_pos (by simp [hcommon]), List.map_cons, runInstructions, hround]
          exact hrest

/-- On trees that can be diffed the plan turns the old tree into the latest
one. -/
theorem runInstructions_planLines {old latest : FileTree} (hdiff : Diffable old latest)
    (htransfer : ∀ n name, ∃ content, transfer n name = .complete content)
    (h : ModsHolds dir fs old.kind) :
    ∃ fs', runInstructions dir transfer 0 (planLines old latest) fs = (none, fs') ∧
      ModsHolds dir fs' latest.kind := by
  have hremovals : ∀ e ∈ old.without latest, ValidPath e.1 ∧ ¬ DottedDir e.1 := fun e he =>
    ⟨old.valid e (FileTree.mem_without.mp he).1, hdiff.noDots e (List.mem_append_left _ he)⟩
  have hleaf : ∀ e ∈ old.without latest, ∀ q, e.1 <+: q → q ≠ e.1 → old.kind q = none := by
    intro e he q hq hne
    rw [FileTree.kind_eq_none]
    rintro e' he' rfl
    exact hne (hdiff.leaves e he e' he' hq)
  obtain ⟨fs₁, hrun₁, hholds₁⟩ :=
    runInstructions_removals transfer hremovals hleaf h 0
  -- What is left of the old tree is what the trees have in common.
  have hcommon : (fun q => if q ∈ (old.without latest).map Prod.fst then none else old.kind q) =
      reached (fun q => (old.kind q).isSome) latest [] := by
    funext q
    cases hold : old.kind q with
    | none => simp [reached, hold]
    | some k =>
        have hmem : q ∈ (old.without latest).map Prod.fst ↔ latest.kind q = none := by
          constructor
          · intro hq
            obtain ⟨e, he, rfl⟩ := List.mem_map.mp hq
            exact (FileTree.mem_without.mp he).2
          · intro hlatest
            exact List.mem_map.mpr ⟨(q, k), FileTree.mem_without.mpr
              ⟨FileTree.kind_eq_some.mp hold, hlatest⟩, rfl⟩
        rw [if_congr hmem rfl rfl, reached, if_pos (Or.inl (by rw [hold]; rfl))]
        cases hlatest : latest.kind q with
        | none => simp
        | some k' => simp [hdiff.sameKind q k k' hold hlatest]
  have hall : reached (fun q => (old.kind q).isSome) latest latest.entries = latest.kind := by
    funext q
    rw [reached]
    split
    · rfl
    · rename_i hq
      rw [not_or] at hq
      rw [eq_comm, FileTree.kind_eq_none]
      exact fun e he heq => hq.2 (heq ▸ List.mem_map_of_mem he)
  have hwithout : latest.without old =
      latest.entries.filter fun e => !(old.kind e.1).isSome := by
    rw [FileTree.without]
    refine List.filter_congr fun e _ => ?_
    cases old.kind e.1 <;> rfl
  have hadded : ∀ e ∈ latest.entries, (old.kind e.1).isSome = false → ¬ DottedDir e.1 := by
    intro e he hnew
    exact hdiff.noDots e (List.mem_append_right _
      (FileTree.mem_without.mpr ⟨he, by simpa using hnew⟩))
  rw [hcommon] at hholds₁
  obtain ⟨fs', hrun, hholds⟩ := runInstructions_additions htransfer
    (show latest.entries = [] ++ latest.entries from rfl) hadded hholds₁
    (0 + ((old.without latest).map fun e => removeLine e.1).length)
  refine ⟨fs', ?_, hall ▸ hholds⟩
  rw [planLines, runInstructions_append hrun₁, hwithout]
  exact hrun

/-- What the plan names without dotted directories is a changed path. -/
private theorem names_planLines {lines : List Text} {S : Path → Prop}
    (hlines : ∀ l ∈ lines, ∃ q, ValidPath q ∧ ¬ DottedDir q ∧ S q ∧
      (l = removeLine q ∨ ∃ k, l = addLine k q)) {p : Path}
    (h : Names dir lines (modsDir dir ++ p)) : S p := by
  obtain ⟨o, t, name, hmem, hr⟩ := h
  obtain ⟨q, hvalid, hdot, hS, hl⟩ := hlines _ hmem
  have hname : name = "mods/".toList ++ joined q := by
    rcases hl with hl | ⟨k, hl⟩
    · rw [removeLine, planLine_eq, List.cons.injEq, List.cons.injEq] at hl
      rw [hl.2.2, planName_of_not_dotted hvalid.2 hdot]
    · rw [addLine, planLine_eq, List.cons.injEq, List.cons.injEq] at hl
      rw [hl.2.2, planName_of_not_dotted hvalid.2 hdot]
  rw [hname, resolve_mods hvalid, List.append_cancel_left_eq] at hr
  exact hr ▸ hS

/-! ## What a successful plan says about the trees -/

section Converse

variable {old latest : FileTree} {fs' : Fs}

/-- A client that holds a tree has a node of the right kind for every entry. -/
private theorem get_entry (h : ModsHolds dir fs old.kind) {e : Path × Kind}
    (he : e ∈ old.entries) :
    ∃ n, fs.get (modsDir dir ++ e.1) = some n ∧ nodeKind n = e.2 := by
  have hkind := h.kinds e.1 (old.valid e he).1
  rwa [FileTree.kind_eq_some.mpr he, Option.map_eq_some_iff] at hkind

/-- A change of the trees goes through no dotted directory: no instruction
reaches a path behind one. -/
theorem noDots_of_runInstructions (h : ModsHolds dir fs old.kind)
    (hrun : runInstructions dir transfer 0 (planLines old latest) fs = (none, fs'))
    (h' : ModsHolds dir fs' latest.kind) :
    ∀ e ∈ old.without latest ++ latest.without old, ¬ DottedDir e.1 := by
  have hform : ∀ l ∈ planLines old latest, ∃ q k, l = removeLine q ∨ l = addLine k q := by
    intro l hl
    rcases List.mem_append.mp hl with hl | hl
    · obtain ⟨e, -, rfl⟩ := List.mem_map.mp hl
      exact ⟨e.1, .file, Or.inl rfl⟩
    · obtain ⟨e, -, rfl⟩ := List.mem_map.mp hl
      exact ⟨e.1, e.2, Or.inr rfl⟩
  intro e he hdot
  rcases List.mem_append.mp he with he | he
  · obtain ⟨hmem, hnone⟩ := FileTree.mem_without.mp he
    obtain ⟨n, hget, -⟩ := get_entry h hmem
    have hkept := runInstructions_get_some hrun hget fun hnames =>
      not_prefix_of_names hdot hform hnames List.prefix_rfl
    rw [← h'.get_none (old.valid e hmem).1, hkept] at hnone
    exact absurd hnone (by simp)
  · obtain ⟨hmem, hnone⟩ := FileTree.mem_without.mp he
    have hnil := (latest.valid e hmem).1
    have hkept := runInstructions_get_none hrun ((h.get_none hnil).mpr hnone) fun r hr =>
      not_prefix_of_names hdot hform hr
    rw [h'.get_none hnil, FileTree.kind_eq_some.mpr hmem] at hkept
    exact absurd hkept (by simp)

section NoDots

variable (hnoDots : ∀ e ∈ old.without latest ++ latest.without old, ¬ DottedDir e.1)

include hnoDots

/-- Some of the removals, by the paths they name. -/
private theorem removals_form {es : List (Path × Kind)} (hes : ∀ e ∈ es, e ∈ old.without latest) :
    ∀ l ∈ es.map fun e => removeLine e.1, ∃ q, ValidPath q ∧ ¬ DottedDir q ∧
      q ∈ es.map Prod.fst ∧ (l = removeLine q ∨ ∃ k, l = addLine k q) := by
  intro l hl
  obtain ⟨e, he, rfl⟩ := List.mem_map.mp hl
  exact ⟨e.1, old.valid e (FileTree.mem_without.mp (hes e he)).1,
    hnoDots e (List.mem_append_left _ (hes e he)), List.mem_map_of_mem he, Or.inl rfl⟩

/-- The additions name paths that the old tree does not have. -/
private theorem additions_form :
    ∀ l ∈ (latest.without old).map fun e => addLine e.2 e.1, ∃ q, ValidPath q ∧
      ¬ DottedDir q ∧ old.kind q = none ∧ (l = removeLine q ∨ ∃ k, l = addLine k q) := by
  intro l hl
  obtain ⟨e, he, rfl⟩ := List.mem_map.mp hl
  exact ⟨e.1, latest.valid e (FileTree.mem_without.mp he).1,
    hnoDots e (List.mem_append_right _ he), (FileTree.mem_without.mp he).2, Or.inr ⟨e.2, rfl⟩⟩

/-- A path of both trees is not named, so its node stays. -/
theorem sameKind_of_runInstructions (h : ModsHolds dir fs old.kind)
    (hrun : runInstructions dir transfer 0 (planLines old latest) fs = (none, fs'))
    (h' : ModsHolds dir fs' latest.kind) {p : Path} {k k' : Kind} (hk : old.kind p = some k)
    (hk' : latest.kind p = some k') : k = k' := by
  obtain ⟨n, hget, hkind⟩ := get_entry h (FileTree.kind_eq_some.mp hk)
  have hchanged : ∀ l ∈ planLines old latest, ∃ q, ValidPath q ∧ ¬ DottedDir q ∧
      (old.kind q = none ∨ latest.kind q = none) ∧
      (l = removeLine q ∨ ∃ k, l = addLine k q) := by
    intro l hl
    rcases List.mem_append.mp hl with hl | hl
    · obtain ⟨q, hvalid, hdot, hq, hl⟩ := removals_form hnoDots (fun e he => he) l hl
      obtain ⟨e, he, rfl⟩ := List.mem_map.mp hq
      exact ⟨e.1, hvalid, hdot, Or.inr (FileTree.mem_without.mp he).2, hl⟩
    · obtain ⟨q, hvalid, hdot, hq, hl⟩ := additions_form hnoDots l hl
      exact ⟨q, hvalid, hdot, Or.inl hq, hl⟩
  have hkept := runInstructions_get_some hrun hget fun hnames => by
    rcases names_planLines hchanged hnames with hnone | hnone
    · simp [hk] at hnone
    · simp [hk'] at hnone
  have hnew := h'.kinds p (old.valid _ (FileTree.kind_eq_some.mp hk)).1
  rw [hkept, hk', Option.map_some, Option.some.injEq] at hnew
  exact hkind.symm.trans hnew

/-- The removal of a directory that still has something in it does nothing, and
no later instruction names the directory. -/
private theorem dir_stays {before after : List (Path × Kind)} {p : Path} {e' : Path × Kind}
    (h : ModsHolds dir fs old.kind)
    (hrun : runInstructions dir transfer 0 (planLines old latest) fs = (none, fs'))
    (hwithout : old.without latest = before ++ (p, Kind.dir) :: after) (he' : e' ∈ after)
    (hpre : p <+: e'.1) : fs'.get (modsDir dir ++ p) = some .dir := by
  have hsub : ∀ x, x ∈ before ∨ x = (p, Kind.dir) ∨ x ∈ after → x ∈ old.without latest := by
    intro x hx
    rw [hwithout, List.mem_append, List.mem_cons]
    exact hx
  have hp : (p, Kind.dir) ∈ old.without latest := hsub _ (Or.inr (Or.inl rfl))
  have hnodup : ((old.without latest).map Prod.fst).Nodup :=
    old.nodup.sublist (List.filter_sublist.map Prod.fst)
  rw [hwithout, List.map_append, List.map_cons, List.nodup_append, List.nodup_cons] at hnodup
  obtain ⟨-, ⟨hrest, -⟩, hfirst⟩ := hnodup
  rw [planLines, hwithout, List.map_append, List.map_cons, List.append_assoc,
    List.cons_append] at hrun
  obtain ⟨fs₁, hrun₁, hrun₂⟩ := exists_of_runInstructions_append hrun
  have hbelow : e'.1 ∈ after.map Prod.fst := List.mem_map_of_mem he'
  -- The removals before leave the directory and what is in it.
  have hkept : ∀ x ∈ old.without latest, x.1 ∈ p :: after.map Prod.fst →
      ∃ n, fs₁.get (modsDir dir ++ x.1) = some n ∧ nodeKind n = x.2 := by
    intro x hx hxe
    obtain ⟨n, hget, hkind⟩ := get_entry h (FileTree.mem_without.mp hx).1
    refine ⟨n, runInstructions_get_some hrun₁ hget fun hnames => ?_, hkind⟩
    have hin := names_planLines (removals_form hnoDots fun y hy => hsub y (Or.inl hy)) hnames
    exact hfirst _ hin _ hxe rfl
  obtain ⟨n, hget, hkind⟩ := hkept _ hp (by simp)
  obtain ⟨n', hget', -⟩ := hkept e' (hsub _ (Or.inr (Or.inr he')))
    (List.mem_cons_of_mem _ hbelow)
  have hget₁ : fs₁.get (modsDir dir ++ p) = some .dir := by
    cases n with
    | file content => simp [nodeKind] at hkind
    | dir => exact hget
  have hne : e'.1 ≠ p := fun heq => hrest (heq ▸ hbelow)
  have hchildren : fs₁.hasChildren (modsDir dir ++ p) = true := by
    refine Fs.hasChildren_iff.mpr ⟨modsDir dir ++ e'.1, ?_, ?_, by simp [hget']⟩
    · rwa [List.prefix_append_right_inj]
    · simpa using hne
  have hmem := (FileTree.mem_without.mp hp).1
  rw [runInstructions, removeLine_blocked (old.valid _ hmem)
    (hnoDots _ (List.mem_append_left _ hp)) hget₁ hchildren] at hrun₂
  have hlater : ∀ l ∈ (after.map fun e => removeLine e.1) ++
      (latest.without old).map fun e => addLine e.2 e.1, ∃ q, ValidPath q ∧ ¬ DottedDir q ∧
        (q ∈ after.map Prod.fst ∨ old.kind q = none) ∧
        (l = removeLine q ∨ ∃ k, l = addLine k q) := by
    intro l hl
    rcases List.mem_append.mp hl with hl | hl
    · obtain ⟨q, hvalid, hdot, hq, hl⟩ :=
        removals_form hnoDots (fun x hx => hsub x (Or.inr (Or.inr hx))) l hl
      exact ⟨q, hvalid, hdot, Or.inl hq, hl⟩
    · obtain ⟨q, hvalid, hdot, hq, hl⟩ := additions_form hnoDots l hl
      exact ⟨q, hvalid, hdot, Or.inr hq, hl⟩
  refine runInstructions_get_some hrun₂ hget₁ fun hnames => ?_
  rcases names_planLines hlater hnames with hin | hin
  · exact hrest hin
  · simp [FileTree.kind_eq_some.mpr hmem] at hin

/-- Only files and empty directories are removed: the removal of a directory
comes before those of its children. -/
theorem leaves_of_runInstructions (h : ModsHolds dir fs old.kind)
    (hrun : runInstructions dir transfer 0 (planLines old latest) fs = (none, fs'))
    (h' : ModsHolds dir fs' latest.kind) {e e' : Path × Kind} (he : e ∈ old.without latest)
    (he' : e' ∈ old.entries) (hpre : e.1 <+: e'.1) : e'.1 = e.1 := by
  by_contra hne
  obtain ⟨hmem, hnone⟩ := FileTree.mem_without.mp he
  have hnil := (old.valid e hmem).1
  obtain ⟨before, after, hwithout, hafter⟩ := FileTree.without_below hnone hnil he' hpre hne
  have hstays := dir_stays hnoDots h hrun hwithout hafter hpre
  rw [← h'.get_none hnil, hstays] at hnone
  exact absurd hnone (by simp)

end NoDots

/-- When the plan turns the old tree into the latest one, the trees can be
diffed. -/
theorem diffable_of_runInstructions (h : ModsHolds dir fs old.kind)
    (hrun : runInstructions dir transfer 0 (planLines old latest) fs = (none, fs'))
    (h' : ModsHolds dir fs' latest.kind) : Diffable old latest := by
  have hnoDots := noDots_of_runInstructions h hrun h'
  exact ⟨fun _ _ _ hk hk' => sameKind_of_runInstructions hnoDots h hrun h' hk hk',
    fun _ he _ he' hpre => leaves_of_runInstructions hnoDots h hrun h' he he' hpre, hnoDots⟩

end Converse

end Execute

/-! ## From the list files to the tree -/

/-- The loop goes through and leaves the directory {lit}`mods` with the files
and directories of the tree. -/
def Converges (dir : Path) (transfer : Nat → Text → Transfer) (instrs : List Text) (fs : Fs)
    (t : FileTree) : Prop :=
  ∃ fs', runInstructions dir transfer 0 instrs fs = (none, fs') ∧ ModsHolds dir fs' t.kind

theorem newline_not_mem_planLines (old latest : FileTree) :
    ∀ l ∈ planLines old latest, '\n' ∉ l := by
  intro l hl
  rcases List.mem_append.mp hl with hl | hl
  · obtain ⟨e, he, rfl⟩ := List.mem_map.mp hl
    exact newline_not_mem_removeLine (old.valid e (FileTree.mem_without.mp he).1)
  · obtain ⟨e, he, rfl⟩ := List.mem_map.mp hl
    exact newline_not_mem_addLine (latest.valid e (FileTree.mem_without.mp he).1) _

/-- The loop over the received text is the loop over the plan. -/
theorem runInstructions_received (dir : Path) (transfer : Nat → Text → Transfer)
    (old latest : FileTree) (fs : Fs) :
    runInstructions dir transfer 0 (javaSplit (unpieces '\n' (planLines old latest))) fs =
      runInstructions dir transfer 0 (planLines old latest) fs := by
  by_cases hnil : planLines old latest = []
  · rw [hnil]
    rfl
  · rw [javaSplit_unpieces (newline_not_mem_planLines old latest) hnil]
    have hlast := List.getLast_mem hnil
    rcases List.mem_append.mp hlast with hlast | hlast
    · obtain ⟨e, -, he⟩ := List.mem_map.mp hlast
      rw [← he, removeLine, planLine_eq]
      simp
    · obtain ⟨e, -, he⟩ := List.mem_map.mp hlast
      rw [← he, addLine, planLine_eq]
      simp

/-- The listings of two trees are stored as the old and the latest list file,
the log has no entries for the client's version, the server holds the latest
tree, and every download succeeds.  Then the update turns the old tree into the
latest one exactly when the two can be diffed. -/
theorem converges_iff {k : Kernel} {modpack version vers changes : Text} {log : List Text}
    {old latest : FileTree} (hvers : Stored k (versionPath modpack) vers)
    (hold : Stored k (listfilePath modpack version) old.listing)
    (hlatest : Stored k (listfilePath modpack (statedVersion vers)) latest.listing)
    (hchanges : Stored k (changePath modpack) changes)
    (hlog : findVersionLine ('@' :: version) (strLines (changes.take listLimit)) = some log)
    (hentries : ∀ entry ∈ log, parseLine entry = none)
    (hshort : old.listing.length ≤ listLimit ∧ latest.listing.length ≤ listLimit)
    (hstat : ∀ t, ∀ e ∈ latest.entries,
      k.stat t (cstr (serverPath modpack (listed (joined e.1)))) = some e.2.fileType)
    (sys : Sys) (instr : Text) {dir : Path} {transfer : Nat → Text → Transfer} {fs : Fs}
    (htransfer : ∀ n name, ∃ content, transfer n name = .complete content)
    (hfs : ModsHolds dir fs old.kind) :
    ∃ out sys', mcuCreateUpdateInstructions k sys instr modpack version = .ok ((0, out), sys') ∧
      (Converges dir transfer (javaSplit out) fs latest ↔ Diffable old latest) := by
  have hp := readFrom_of_stored hvers hold hlatest hchanges hlog sys
  obtain ⟨sys', hreturns⟩ := mcuCreateUpdateInstructions_of_reads hp instr
  have hkeep : ∀ (text : Text), applyChanges text log = text := by
    intro text
    clear hlog hp hreturns
    induction log with
    | nil => rfl
    | cons entry log ih =>
        rw [applyChanges, List.foldl_cons,
          applyChange_of_parseLine_none (hentries entry (by simp)), ← applyChanges]
        exact ih fun e he => hentries e (by simp [he])
  refine ⟨_, sys', hreturns, ?_⟩
  rw [PlanReads.instructions, storedReads, hkeep, listDiff_eq, List.take_of_length_le hshort.1,
    List.take_of_length_le hshort.2, diffLines_listing hstat, Converges, runInstructions_received]
  constructor
  · rintro ⟨fs', hrun, hholds⟩
    exact diffable_of_runInstructions hfs hrun hholds
  · exact fun hdiff => runInstructions_planLines hdiff htransfer hfs

/-- A mods directory with the file {lit}`a`. -/
def fileA : FileTree where
  entries := [([['a']], .file)]
  nodup := by decide
  valid := by decide
  ancestorsFirst := by decide

/-- A mods directory with the file {lit}`b`. -/
def fileB : FileTree where
  entries := [([['b']], .file)]
  nodup := by decide
  valid := by decide
  ancestorsFirst := by decide

/-- A mods directory with the directory {lit}`d` and the file {lit}`d/a`. -/
def fileInDir : FileTree where
  entries := [([['d']], .dir), ([['d'], ['a']], .file)]
  nodup := by decide
  valid := by decide
  ancestorsFirst := by decide

/-- A mods directory with nothing in it. -/
def noFiles : FileTree where
  entries := []
  nodup := by decide
  valid := by decide
  ancestorsFirst := by decide

/-- A file is replaced by another one. -/
theorem converges_replaced :
    ∃ out sys', mcuCreateUpdateInstructions
        (outdated fileA.listing fileB.listing "@1\n".toList fun _ => some .regular) ⟨0, []⟩ []
        ['m'] ['1'] = .ok ((0, out), sys') ∧
      Converges [] (fun _ _ => .complete []) (javaSplit out) (clientOf [] fileA) fileB := by
  have hlog : findVersionLine ['@', '1'] (strLines ("@1\n".toList.take listLimit)) = some [] := by
    decide
  have hstat : ∀ t, ∀ e ∈ fileB.entries, (outdated fileA.listing fileB.listing "@1\n".toList
      fun _ => some .regular).stat t (cstr (serverPath ['m'] (listed (joined e.1)))) =
        some e.2.fileType := by
    intro t e he
    rw [List.mem_singleton.mp he]
    rfl
  obtain ⟨out, sys', hreturns, hiff⟩ := converges_iff (outdated_version _ _ _ _)
    (outdated_old _ _ _ _) (outdated_latest _ _ _ _) (outdated_changes _ _ _ _) hlog (by simp)
    (by decide) hstat ⟨0, []⟩ [] (fun _ _ => ⟨[], rfl⟩) (modsHolds_clientOf [] fileA)
  refine ⟨out, sys', hreturns, hiff.mpr ⟨?_, by decide, by decide⟩⟩
  intro p k k' hk hk'
  have hp := List.mem_singleton.mp (FileTree.kind_eq_some.mp hk)
  have hp' := List.mem_singleton.mp (FileTree.kind_eq_some.mp hk')
  rw [Prod.mk.injEq] at hp hp'
  rw [hp.2, hp'.2]

/-- A directory is removed together with the file in it.  The client is told to
delete the directory first, and keeps it. -/
theorem converges_fails :
    ∃ out sys', mcuCreateUpdateInstructions
        (outdated fileInDir.listing noFiles.listing "@1\n".toList fun _ => none) ⟨0, []⟩ []
        ['m'] ['1'] = .ok ((0, out), sys') ∧
      javaSplit out = ["-umods/d".toList, "-umods/d/a".toList] ∧
      ¬ Converges [] (fun _ _ => .complete []) (javaSplit out) (clientOf [] fileInDir) noFiles := by
  refine ⟨"-umods/d\n-umods/d/a\n".toList, ⟨4, []⟩, by decide, by decide, ?_⟩
  rintro ⟨fs', hrun, hholds⟩
  have hleft : (runInstructions [] (fun _ _ => .complete []) 0
      (javaSplit "-umods/d\n-umods/d/a\n".toList) (clientOf [] fileInDir)).2.get
        (modsDir [] ++ [['d']]) = some .dir := by decide
  rw [hrun] at hleft
  have hkind := hholds.kinds [['d']] (by decide)
  rw [hleft] at hkind
  exact absurd hkind (by decide)

end Update
end ModpackInstaller
