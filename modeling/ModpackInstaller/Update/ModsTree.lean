import ModpackInstaller.Client.UpdateLoop
import ModpackInstaller.Update.FileTree

/-!
# The mods tree of a client

{lit}`ModsHolds dir fs f` says that below the directory {lit}`mods` of a pack
the client has exactly the files and directories of {lit}`f`.  Each instruction
of the list diff changes {lit}`f` at one path.

Main results:

- Theorem {lit}`ModsHolds.removeLine`: a removal of a leaf takes it away.
- Theorem {lit}`ModsHolds.addLine`: an addition below existing directories
  brings the path.
- Theorem {lit}`removeLine_blocked`: a removal of a directory that is not empty
  changes nothing.
-/

namespace ModpackInstaller
namespace Update

open Library Server Client

/-- Kinds by path, below {lit}`mods`. -/
abbrev KindMap := Path → Option Kind

/-- Below the directory {lit}`mods` the file system has the kinds of {lit}`f`. -/
structure ModsHolds (dir : Path) (fs : Fs) (f : KindMap) : Prop where
  /-- The directory itself and those above it exist. -/
  dirs : ∀ q, q <+: modsDir dir → q ≠ [] → fs.get q = some .dir
  kinds : ∀ q, q ≠ [] → (fs.get (modsDir dir ++ q)).map nodeKind = f q

/-- A client whose directory {lit}`mods` is a tree of empty files. -/
def clientOf (dir : Path) (t : FileTree) : Fs :=
  ⟨(modsDir dir).inits.map (fun q => (q, Node.dir)) ++ t.entries.map fun e =>
    (modsDir dir ++ e.1, match e.2 with | .file => .file [] | .dir => .dir)⟩

theorem modsHolds_clientOf (dir : Path) (t : FileTree) : ModsHolds dir (clientOf dir t) t.kind where
  dirs := by
    intro q hq hnil
    have hmem : q ∈ (modsDir dir).inits := (List.mem_inits _ _).mpr hq
    rw [Fs.get, clientOf, List.find?_append, List.find?_map]
    cases hfind : (modsDir dir).inits.find? ((fun e : Path × Node => decide (e.1 = q)) ∘
        fun q => (q, Node.dir)) with
    | none => exact absurd (List.find?_eq_none.mp hfind q hmem) (by simp)
    | some r => rfl
  kinds := by
    intro q hnil
    have hfirst : ∀ e ∈ (modsDir dir).inits.map (fun q => (q, Node.dir)),
        ¬ decide (e.1 = modsDir dir ++ q) = true := by
      intro e he heq
      obtain ⟨r, hr, rfl⟩ := List.mem_map.mp he
      have hr' : r = modsDir dir ++ q := by simpa using heq
      have hlen := ((List.mem_inits _ _).mp hr).length_le
      have hpos := List.length_pos_iff.mpr hnil
      rw [hr', List.length_append] at hlen
      omega
    rw [Fs.get, clientOf, List.find?_append, List.find?_eq_none.mpr hfirst, Option.none_or,
      List.find?_map, FileTree.kind]
    have hkey : ((fun e : Path × Node => decide (e.1 = modsDir dir ++ q)) ∘ fun e : Path × Kind =>
        (modsDir dir ++ e.1, match e.2 with | .file => Node.file [] | .dir => .dir)) =
          fun e => decide (e.1 = q) := by
      funext e
      simp
    rw [hkey]
    cases t.entries.find? fun e => decide (e.1 = q) with
    | none => rfl
    | some e =>
        obtain ⟨p, k⟩ := e
        cases k <;> rfl

section Operations

variable {dir : Path} {fs : Fs} {f : KindMap} {p : Path}

theorem modsDir_ne_nil (dir : Path) : modsDir dir ≠ [] := by
  simp [modsDir]

theorem ModsHolds.get_dir (h : ModsHolds dir fs f) {q : Path} (hq : q = [] ∨ f q = some .dir) :
    fs.get (modsDir dir ++ q) = some .dir := by
  by_cases hnil : q = []
  · rw [hnil, List.append_nil]
    exact h.dirs _ List.prefix_rfl (modsDir_ne_nil dir)
  · have hkind := h.kinds q hnil
    rw [hq.resolve_left hnil, Option.map_eq_some_iff] at hkind
    obtain ⟨n, hget, hn⟩ := hkind
    cases n with
    | file content => simp [nodeKind] at hn
    | dir => exact hget

theorem ModsHolds.get_none (h : ModsHolds dir fs f) {q : Path} (hnil : q ≠ []) :
    fs.get (modsDir dir ++ q) = none ↔ f q = none := by
  rw [← h.kinds q hnil, Option.map_eq_none_iff]

/-- Directories above and on the way to a path, when those below {lit}`mods` are. -/
private theorem ModsHolds.get_above (h : ModsHolds dir fs f)
    (habove : ∀ q, q <+: p → q ≠ [] → q ≠ p → f q = some .dir) (hp : p ≠ []) :
    ∀ q, q <+: modsDir dir ++ p.dropLast → q ≠ [] → fs.get q = some .dir := by
  intro q hq hnil
  rcases List.prefix_or_prefix_of_prefix hq (List.prefix_append _ _) with hle | ⟨r, rfl⟩
  · exact h.dirs q hle hnil
  · rw [List.prefix_append_right_inj] at hq
    have hrp : r <+: p := hq.trans (List.dropLast_prefix p)
    have hne : r ≠ p := by
      rintro rfl
      have hlen := hq.length_le
      rw [List.length_dropLast] at hlen
      have hpos := List.length_pos_iff.mpr hp
      omega
    refine h.get_dir ?_
    by_cases hr : r = []
    · exact Or.inl hr
    · exact Or.inr (habove r hrp hr hne)

/-- A change at one path below {lit}`mods`. -/
theorem ModsHolds.update (h : ModsHolds dir fs f) (hp : p ≠ []) {fs' : Fs} {n : Option Node}
    (hget : ∀ q, fs'.get q = if q = modsDir dir ++ p then n else fs.get q) :
    ModsHolds dir fs' (Function.update f p (n.map nodeKind)) where
  dirs := by
    intro q hq hnil
    have hne : q ≠ modsDir dir ++ p := by
      rintro rfl
      have hlen := hq.length_le
      have hpos := List.length_pos_iff.mpr hp
      simp only [List.length_append] at hlen
      omega
    rw [hget, if_neg hne]
    exact h.dirs q hq hnil
  kinds := by
    intro q hnil
    by_cases hq : q = p
    · rw [hq, hget, if_pos rfl, Function.update_self]
    · rw [hget, if_neg (by simpa using hq), Function.update_of_ne hq]
      exact h.kinds q hnil

/-- A deletion of a leaf takes it away. -/
theorem ModsHolds.delete (h : ModsHolds dir fs f) (hp : p ≠ [])
    (hleaf : ∀ q, p <+: q → q ≠ p → f q = none) :
    ModsHolds dir (fs.delete (modsDir dir ++ p)).2 (Function.update f p none) := by
  refine h.update hp (n := none) fun q => ?_
  have hempty : fs.hasChildren (modsDir dir ++ p) = false := by
    rw [← Bool.not_eq_true, Fs.hasChildren_iff]
    rintro ⟨_, ⟨r, rfl⟩, hne, hget⟩
    rw [List.append_assoc] at hne hget
    have hr : p ++ r ≠ p := fun hpr => hne (by rw [hpr])
    exact hget ((h.get_none (by simp [hp])).mpr (hleaf _ (List.prefix_append _ _) hr))
  rw [Fs.get_delete]
  simp only [hempty, implies_true, and_true]

/-- A new file below existing directories. -/
theorem ModsHolds.write (h : ModsHolds dir fs f) (hp : p ≠ []) (hnew : f p = none)
    (habove : ∀ q, q <+: p → q ≠ [] → q ≠ p → f q = some .dir) (content : Text) :
    ∃ fs', fs.write (modsDir dir ++ p) content = some fs' ∧
      ModsHolds dir fs' (Function.update f p (some .file)) := by
  have hparent : fs.isDirectory (modsDir dir ++ p).dropLast = true := by
    rw [List.dropLast_append_of_ne_nil hp, Fs.isDirectory, decide_eq_true_eq]
    right
    exact h.get_above habove hp _ List.prefix_rfl (by simp [modsDir_ne_nil])
  have hget : fs.get (modsDir dir ++ p) = none := (h.get_none hp).mpr hnew
  refine ⟨fs.set (modsDir dir ++ p) (.file content), ?_, ?_⟩
  · rw [Fs.write, if_pos ⟨by simp [hp], hparent, by simp [hget]⟩]
  · exact h.update hp (n := some (.file content)) fun q => Fs.get_set _ _ _ _

/-- A new directory below existing directories. -/
theorem ModsHolds.mkdirs (h : ModsHolds dir fs f) (hp : p ≠ []) (hnew : f p = none)
    (habove : ∀ q, q <+: p → q ≠ [] → q ≠ p → f q = some .dir) :
    fs.fileExists (modsDir dir ++ p) = false ∧
      ∃ fs', fs.mkdirs (modsDir dir ++ p) = some fs' ∧
        ModsHolds dir fs' (Function.update f p (some .dir)) := by
  have hget : fs.get (modsDir dir ++ p) = none := (h.get_none hp).mpr hnew
  have hsplit : modsDir dir ++ p = modsDir dir ++ p.dropLast ++ [p.getLast hp] := by
    rw [List.append_assoc, List.dropLast_append_getLast]
  refine ⟨by simp [Fs.fileExists, hget, hp], fs.set (modsDir dir ++ p) .dir, ?_, ?_⟩
  · rw [hsplit] at hget ⊢
    exact Fs.mkdirs_child (h.get_above habove hp) hget
  · exact h.update hp (n := some .dir) fun q => Fs.get_set _ _ _ _

end Operations

/-! ## The instructions of the list diff -/

/-- The instruction the list diff makes of a listed path. -/
def planLine (operation filetype : Char) (p : Path) : Text :=
  replaceAll ['.', '/'] (operation :: filetype :: "mods/".toList) (listed (joined p))

/-- The instruction for a removed path. -/
def removeLine (p : Path) : Text :=
  planLine '-' 'u' p

/-- The type character of a kind. -/
def kindChar : Kind → Char
  | .file => 'f'
  | .dir => 'd'

/-- The instruction for an added path. -/
def addLine (k : Kind) (p : Path) : Text :=
  planLine '+' (kindChar k) p

/-- The file name in the instruction. -/
def planName (operation filetype : Char) (p : Path) : Text :=
  "mods/".toList ++
    replaceAll ['.', '/'] (operation :: filetype :: "mods/".toList) (joined p)

theorem planLine_eq (operation filetype : Char) (p : Path) :
    planLine operation filetype p =
      operation :: filetype :: planName operation filetype p := by
  have hlisted : listed (joined p) = ['.', '/'] ++ joined p := by
    have hdot : "./".toList = ['.', '/'] := by decide
    rw [listed, hdot]
  rw [planLine, hlisted, replaceAll_matched (by simp)]
  rfl

/-- A path without dotted directories keeps its name. -/
theorem planName_of_not_dotted {operation filetype : Char} {p : Path}
    (hp : ∀ name ∈ p, ValidName name) (hdot : ¬ DottedDir p) :
    planName operation filetype p = "mods/".toList ++ joined p := by
  have hkept := replaceAll_of_not_infix (not_infix_joined hp hdot)
  unfold planName
  rw [hkept]

/-- The name in an instruction has no {lit}`./` in it. -/
theorem not_infix_planName {operation filetype : Char} (hslash : operation ≠ '/')
    (hdot : operation ≠ '.') (hdot' : filetype ≠ '.') (p : Path) :
    ¬ ['.', '/'] <:+: planName operation filetype p := by
  have hinside : ¬ ['.', '/'] <:+: operation :: filetype :: "mods/".toList := by
    rw [List.infix_cons_iff, List.infix_cons_iff]
    rintro (h | h | h)
    · exact hdot (List.cons_prefix_cons.mp h).1.symm
    · exact hdot' (List.cons_prefix_cons.mp h).1.symm
    · exact absurd h (by decide)
  have hleft : ¬ ['/'] <+: operation :: filetype :: "mods/".toList := fun h =>
    hslash (List.cons_prefix_cons.mp h).1.symm
  have hright : ¬ ['.'] <:+ operation :: filetype :: "mods/".toList := by
    rintro ⟨v, hv⟩
    have hlast := congrArg List.getLast? hv
    rw [List.getLast?_append] at hlast
    simp at hlast
  unfold planName
  intro h
  rcases pair_infix_append h with h | h | h
  · exact absurd h (by decide)
  · exact not_infix_replaceAll (by simp) hinside hleft hright _ h
  · exact absurd h.1 (by decide)

/-- The instructions of a list diff keep out of dotted directories. -/
theorem not_prefix_of_names {dir p r : Path} {lines : List Text} (hp : DottedDir p)
    (hlines : ∀ l ∈ lines, ∃ q k, l = removeLine q ∨ l = addLine k q)
    (hr : Names dir lines r) : ¬ modsDir dir ++ p <+: r := by
  obtain ⟨o, t, name, hmem, rfl⟩ := hr
  refine not_prefix_resolve_of_dotted hp ?_ dir
  obtain ⟨q, k, h | h⟩ := hlines _ hmem
  · rw [removeLine, planLine_eq, List.cons.injEq, List.cons.injEq] at h
    rw [h.2.2]
    exact not_infix_planName (by decide) (by decide) (by decide) q
  · rw [addLine, planLine_eq, List.cons.injEq, List.cons.injEq] at h
    rw [h.2.2]
    exact not_infix_planName (by decide) (by decide) (by cases k <;> decide) q

section Instructions

variable {dir : Path} {transfer : Text → Transfer} {fs : Fs} {f : KindMap} {p : Path}

/-- Without dotted directories the removal deletes the path. -/
theorem execInstruction_removeLine (hp : ValidPath p) (hdot : ¬ DottedDir p) :
    execInstruction dir transfer fs (removeLine p) =
      (none, (fs.delete (modsDir dir ++ p)).2) := by
  rw [removeLine, planLine_eq, planName_of_not_dotted hp.2 hdot, execInstruction, ← resolve_mods hp]
  exact congrArg (fun r : Bool × Fs => (none, r.2)) (File.delete_of_plain (plain_mods hp) fs)

/-- A removal of a leaf takes it away. -/
theorem ModsHolds.removeLine (h : ModsHolds dir fs f) (transfer : Text → Transfer)
    (hp : ValidPath p) (hdot : ¬ DottedDir p) (hleaf : ∀ q, p <+: q → q ≠ p → f q = none) :
    ∃ fs', execInstruction dir transfer fs (removeLine p) = (none, fs') ∧
      ModsHolds dir fs' (Function.update f p none) :=
  ⟨_, execInstruction_removeLine hp hdot, h.delete hp.1 hleaf⟩

/-- A removal of a directory that is not empty changes nothing. -/
theorem removeLine_blocked (hp : ValidPath p) (hdot : ¬ DottedDir p)
    (hdir : fs.get (modsDir dir ++ p) = some .dir)
    (hchildren : fs.hasChildren (modsDir dir ++ p) = true) :
    execInstruction dir transfer fs (removeLine p) = (none, fs) := by
  rw [execInstruction_removeLine hp hdot, Fs.delete, hdir]
  simp [hchildren]

/-- An addition below existing directories brings the path. -/
theorem ModsHolds.addLine (h : ModsHolds dir fs f) (hp : ValidPath p) (hdot : ¬ DottedDir p)
    (hnew : f p = none) (habove : ∀ q, q <+: p → q ≠ [] → q ≠ p → f q = some .dir)
    (htransfer : ∀ name, ∃ content, transfer name = .complete content) (k : Kind) :
    ∃ fs', execInstruction dir transfer fs (addLine k p) = (none, fs') ∧
      ModsHolds dir fs' (Function.update f p (some k)) := by
  have hplain : (File.mk dir ("mods/".toList ++ joined p)).Plain := plain_mods hp
  have hpath : (File.mk dir ("mods/".toList ++ joined p)).path = modsDir dir ++ p := resolve_mods hp
  rw [Update.addLine, planLine_eq, planName_of_not_dotted hp.2 hdot, execInstruction]
  simp only [if_true, install]
  cases k with
  | file =>
      obtain ⟨content, hcontent⟩ := htransfer ("mods/".toList ++ joined p)
      obtain ⟨fs', hwrite, hholds⟩ := h.write hp.1 hnew habove content
      refine ⟨fs', ?_, hholds⟩
      have hwritten := (File.write_of_plain hplain fs content).trans (hpath ▸ hwrite)
      simp only [kindChar, if_true, hcontent, downloadFile, hwritten]
  | dir =>
      obtain ⟨hexists, fs', hmkdirs, hholds⟩ := h.mkdirs hp.1 hnew habove
      have hne : ¬ 'd' = 'f' := by decide
      refine ⟨fs', ?_, hholds⟩
      have hmissing := (File.fileExists_of_plain hplain fs).trans (hpath ▸ hexists)
      have hmade : File.mkdirs ⟨dir, "mods/".toList ++ joined p⟩ fs = some fs' := by
        rw [File.mkdirs, hpath, hexists]
        exact hmkdirs
      simp only [kindChar, hne, if_false, if_true, hmissing, hmade, Bool.false_eq_true]

end Instructions

end Update
end ModpackInstaller
