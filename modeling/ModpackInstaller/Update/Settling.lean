import ModpackInstaller.Client.Touches

/-!
# What an instruction settles

An instruction that the loop carries out puts a node at some paths, whatever was
there, and leaves the others alone.  Only a deletion looks at what it finds: a
directory with something in it stays, and so does what the system cannot delete by
the name, for its dots.

Main results:

- Theorem {lit}`isTree_runInstructions`: the loop keeps every node inside of
  directories, however it ends.
- Theorem {lit}`execInstruction_iff`: which instructions are carried out.
- Theorem {lit}`get_execInstruction`: the tree behind such an instruction, path
  by path.
- Theorem {lit}`runInstructions_kept`: a path that no instruction settles stays
  as it was, also when the loop gives up.
-/

namespace ModpackInstaller
namespace Update

open Client

/-! ## Trees -/

/-- An operation leaves a tree. -/
theorem isTree_apply {fs : Fs} (h : IsTree fs) (t : Touch) : IsTree (Client.apply fs t) := by
  obtain ⟨op, base, name⟩ := t
  cases op with
  | delete =>
      rw [apply_delete]
      exact File.isTree_delete _ h
  | write content =>
      rw [Client.apply, run_write]
      cases hwrite : File.write ⟨base, name⟩ fs content with
      | none => exact h
      | some fs' => exact h.write (File.write_some hwrite)
  | mkdirs =>
      rw [Client.apply, run_mkdirs]
      cases hmkdirs : File.mkdirs ⟨base, name⟩ fs with
      | none => exact h
      | some fs' => exact h.mkdirs (File.mkdirs_some hmkdirs).2

/-- So does a sequence of operations. -/
theorem isTree_foldl {fs : Fs} (h : IsTree fs) (touches : List Touch) :
    IsTree (touches.foldl Client.apply fs) := by
  induction touches generalizing fs with
  | nil => exact h
  | cons t touches ih => exact ih (isTree_apply h t)

theorem isTree_execInstruction {fs : Fs} (h : IsTree fs) {dir : Path} {transfer : Text → Transfer}
    {line : Text} : IsTree (execInstruction dir transfer fs line).2 := by
  rw [← roundTouches_foldl]
  exact isTree_foldl h _

/-- The loop keeps every node inside of directories, however it ends. -/
theorem isTree_runInstructions {fs : Fs} (h : IsTree fs) {dir : Path}
    {transfer : Nat → Text → Transfer} {n : Nat} {instrs : List Text} :
    IsTree (runInstructions dir transfer n instrs fs).2 := by
  rw [← loopTouches_foldl]
  exact isTree_foldl h _

/-! ## Which instructions are carried out -/

/-- What is at the path of a file stays behind a deletion: it is a directory with
something in it, or the system does not delete by the name. -/
def Stuck (fs : Fs) (file : File) : Prop :=
  Full fs file.path ∨ file.reached fs = false ∨ file.endsInDots = true

instance (fs : Fs) (file : File) : Decidable (Stuck fs file) :=
  inferInstanceAs (Decidable (_ ∨ _))

/-- The inner `switch (filetype)` succeeds when the transfer does. -/
def Installable (fs : Fs) (file : File) (filetype : Char) : Prop :=
  if filetype = 'f' then
    file.reached fs = true ∧ file.path ≠ [] ∧ fs.isDirectory file.path.dropLast = true ∧
      fs.get file.path ≠ some .dir
  else filetype = 'd' ∧ (∀ q ∈ file.path.inits, fs.isFile q = false) ∧
    (file.reached fs = true ∨ fs.fileExists file.path = false)

instance (fs : Fs) (file : File) (filetype : Char) : Decidable (Installable fs file filetype) :=
  inferInstanceAs (Decidable (if filetype = 'f' then _ ∧ _ ∧ _ ∧ _ else _ ∧ _ ∧ _))

/-- The loop goes on behind the line when its transfer succeeds. -/
def Admits (dir : Path) (fs : Fs) : Text → Prop
  | [] => True
  | [_] => False
  | operation :: filetype :: filename =>
    let file : File := ⟨dir, filename⟩
    if operation = '+' then Installable fs file filetype
    else if operation = '-' then True
    else if operation = '*' then
      (file.fileExists fs = true → file.path ≠ [] ∧ ¬ Stuck fs file) ∧
        Installable (file.delete fs).2 file filetype
    else True

instance decidableAdmits (dir : Path) (fs : Fs) : (line : Text) → Decidable (Admits dir fs line)
  | [] => inferInstanceAs (Decidable True)
  | [_] => inferInstanceAs (Decidable False)
  | operation :: _ :: _ =>
    inferInstanceAs (Decidable (if operation = '+' then Installable _ _ _
      else if operation = '-' then True
      else if operation = '*' then (_ → _ ∧ ¬ Stuck _ _) ∧ Installable _ _ _ else True))

/-- All transfers succeed. -/
def working (content : Text → Text) (filename : Text) : Transfer :=
  .complete (content filename)

section Install

variable {fs : Fs} {dir : Path} {content : Text → Text} {filetype : Char} {filename : Text}

/-- Which installations succeed in a tree. -/
theorem install_iff (h : IsTree fs) :
    (install dir (working content) fs filetype filename).1 = none ↔
      Installable fs ⟨dir, filename⟩ filetype := by
  unfold install Installable
  generalize (⟨dir, filename⟩ : File) = file
  dsimp only
  split_ifs with hfile hdir hexists hisdir
  · rw [working, downloadFile, File.write]
    by_cases hreached : file.reached fs = true
    · rw [if_pos hreached, Fs.write]
      split_ifs with hok
      · simpa using ⟨hreached, hok⟩
      · simpa [hreached] using hok
    · rw [if_neg hreached]
      exact iff_of_false (by simp) fun hway => hreached hway.1
  · have hboth := Bool.and_eq_true_iff.mp hisdir
    exact iff_of_true rfl ⟨hdir, h.way_clear hboth.2, Or.inl hboth.1⟩
  · refine iff_of_false (by simp) fun hway => ?_
    have hboth := Bool.and_eq_true_iff.mp hexists
    have hself := hway.2.1 file.path ((List.mem_inits _ _).mpr List.prefix_rfl)
    rw [isFile_of_exists hboth.2 fun hd => hisdir (Bool.and_eq_true_iff.mpr ⟨hboth.1, hd⟩)] at hself
    cases hself
  · -- The directory is made where nothing is.
    rw [and_iff_right hdir, ← h.mkdirs_iff, File.mkdirs]
    by_cases hthere : fs.fileExists file.path = true
    · have hreached : file.reached fs = false := by
        rw [← Bool.not_eq_true]
        exact fun hr => hexists (Bool.and_eq_true_iff.mpr ⟨hr, hthere⟩)
      simp [hthere, hreached]
    · rw [if_neg hthere, and_iff_left (Or.inr (by simpa using hthere))]
      cases fs.mkdirs file.path <;> simp
  · exact iff_of_false (by simp) fun hway => hdir hway.1

/-- A file is put at the path, or directories everywhere on the way to it. -/
theorem install_get (h : IsTree fs) (hok : Installable fs ⟨dir, filename⟩ filetype) (q : Path) :
    (install dir (working content) fs filetype filename).2.get q =
      if filetype = 'f' then
        if q = Fs.resolve dir filename then some (.file (content filename)) else fs.get q
      else if q ≠ [] ∧ q <+: Fs.resolve dir filename then some .dir else fs.get q := by
  unfold install
  unfold Installable at hok
  have hpath : Fs.resolve dir filename = (⟨dir, filename⟩ : File).path := rfl
  rw [hpath]
  generalize (⟨dir, filename⟩ : File) = file at hok ⊢
  dsimp only
  split_ifs at hok with hfile
  · rw [if_pos hfile, if_pos hfile, working, downloadFile]
    have hwrite : file.write fs (content filename) =
        some (fs.set file.path (.file (content filename))) := by
      rw [File.write, if_pos hok.1]
      exact if_pos hok.2
    simp only [hwrite]
    exact Fs.get_set fs file.path q _
  · rw [if_neg hfile, if_neg hfile, if_pos hok.1]
    by_cases hthere : fs.fileExists file.path = true
    · have hreached : file.reached fs = true := hok.2.2.resolve_right (by simp [hthere])
      have hisdir : fs.isDirectory file.path = true := by
        by_contra hdir
        have hself := hok.2.1 file.path ((List.mem_inits _ _).mpr List.prefix_rfl)
        rw [isFile_of_exists hthere hdir] at hself
        cases hself
      rw [File.fileExists, File.isDirectory, hreached, hthere, hisdir]
      simp only [Bool.and_self, if_true]
      split_ifs with hway
      · exact h.dir_of_way hisdir hway.2 hway.1
      · rfl
    · have hnot : file.fileExists fs = false := by
        rw [File.fileExists, Bool.and_eq_false_iff]
        exact Or.inr (by simpa using hthere)
      have hmade := h.mkdirs_iff.mpr hok.2.1
      rw [hnot, if_neg (by simp), File.mkdirs, if_neg hthere]
      cases hmkdirs : fs.mkdirs file.path with
      | none =>
          rw [hmkdirs] at hmade
          cases hmade
      | some fs' =>
          dsimp only
          split_ifs with hway
          · exact Fs.get_mkdirsFrom_way hmkdirs hway.2 hway.1
          · rcases Fs.get_mkdirsFrom hmkdirs q with hsame | ⟨-, -, hprefix⟩
            · exact hsame
            · have hroot : q = [] := by
                by_contra hne
                exact hway ⟨hne, hprefix⟩
              rw [hroot, Fs.get_mkdirsFrom_root hmkdirs]

end Install

section Update

variable {fs : Fs}

/-- A deletion takes its path away unless that is stuck. -/
theorem get_fileDelete (fs : Fs) (file : File) (q : Path) :
    (file.delete fs).2.get q = if q = file.path ∧ ¬ Stuck fs file then none else fs.get q := by
  by_cases hnamed : (file.reached fs && !file.endsInDots) = true
  · have hstuck : Stuck fs file ↔ Full fs file.path := by
      rw [Bool.and_eq_true, Bool.not_eq_true'] at hnamed
      simp [Stuck, hnamed]
    rw [File.delete, if_pos hnamed, get_delete_eq]
    simp only [hstuck]
  · have hstuck : Stuck fs file := by
      rw [Bool.not_eq_true, Bool.and_eq_false_iff, Bool.not_eq_false'] at hnamed
      exact Or.inr hnamed
    rw [File.delete, if_neg hnamed, if_neg fun h => h.2 hstuck]

/-- A deletion reports success when something is there that is not stuck. -/
theorem delete_fst_iff {file : File} :
    (file.delete fs).1 = true ↔ fs.get file.path ≠ none ∧ ¬ Stuck fs file := by
  by_cases hnamed : (file.reached fs && !file.endsInDots) = true
  · have hstuck : Stuck fs file ↔ Full fs file.path := by
      rw [Bool.and_eq_true, Bool.not_eq_true'] at hnamed
      simp [Stuck, hnamed]
    rw [File.delete, if_pos hnamed, hstuck, Fs.delete_fst_iff]
  · have hstuck : Stuck fs file := by
      rw [Bool.not_eq_true, Bool.and_eq_false_iff, Bool.not_eq_false'] at hnamed
      exact Or.inr hnamed
    rw [File.delete, if_neg hnamed]
    exact iff_of_false (by simp) fun h => h.2 hstuck

/-- A deletion of what is not there changes nothing. -/
theorem delete_of_missing {file : File} (h : file.fileExists fs = false) :
    (file.delete fs).2 = fs := by
  refine delete_snd_of_not fun hdeleted => ?_
  obtain ⟨hget, hfree⟩ := delete_fst_iff.mp hdeleted
  rw [File.fileExists, Bool.and_eq_false_iff] at h
  rcases h with hreached | hthere
  · exact hfree (Or.inr (Or.inl hreached))
  · rw [← Bool.not_eq_true, fileExists_iff] at hthere
    exact hthere (Or.inr hget)

variable {dir : Path} {transfer : Text → Transfer} {filetype : Char} {filename : Text}

/-- The round of an update is a deletion that succeeds, if there is something,
and an installation. -/
theorem update_eq (hok : File.fileExists ⟨dir, filename⟩ fs = true →
      Fs.resolve dir filename ≠ [] ∧ ¬ Stuck fs ⟨dir, filename⟩) :
    execInstruction dir transfer fs ('*' :: filetype :: filename) =
      install dir transfer (File.delete ⟨dir, filename⟩ fs).2 filetype filename := by
  have hadd : ¬ '*' = '+' := by decide
  have hdel : ¬ '*' = '-' := by decide
  simp only [execInstruction, hadd, hdel, if_false, if_true]
  by_cases hexists : File.fileExists ⟨dir, filename⟩ fs = true
  · have hthere := (fileExists_iff.mp (File.fileExists_path hexists)).resolve_left (hok hexists).1
    have hdeleted := delete_fst_iff.mpr ⟨hthere, (hok hexists).2⟩
    rw [if_pos hexists]
    rcases hdelete : File.delete ⟨dir, filename⟩ fs with ⟨deleted, fs'⟩
    rw [hdelete] at hdeleted
    rw [show deleted = true from hdeleted]
  · rw [if_neg hexists, delete_of_missing (by simpa using hexists)]

/-- The round of an update gives up at the root and at what is stuck. -/
theorem update_refused (h : IsTree fs)
    (hkept : ¬ (File.fileExists ⟨dir, filename⟩ fs = true →
      Fs.resolve dir filename ≠ [] ∧ ¬ Stuck fs ⟨dir, filename⟩)) :
    (execInstruction dir transfer fs ('*' :: filetype :: filename)).1 =
      some (.returnsFalse .delete) := by
  have hadd : ¬ '*' = '+' := by decide
  have hdel : ¬ '*' = '-' := by decide
  obtain ⟨hexists, hbad⟩ := Classical.not_imp.mp hkept
  have hfails : (File.delete ⟨dir, filename⟩ fs).1 = false := by
    rw [← Bool.not_eq_true, delete_fst_iff]
    rintro ⟨hget, hfree⟩
    refine hbad ⟨fun hroot => hget ?_, hfree⟩
    rw [File.path, hroot, h.root]
  simp only [execInstruction, hadd, hdel, if_false, if_true]
  rw [if_pos hexists]
  rcases hdelete : File.delete ⟨dir, filename⟩ fs with ⟨deleted, fs'⟩
  rw [hdelete] at hfails
  rw [show deleted = false from hfails]

end Update

/-- The lines that are carried out in a tree. -/
theorem execInstruction_iff {fs : Fs} (h : IsTree fs) {dir : Path} {content : Text → Text}
    {line : Text} :
    (execInstruction dir (working content) fs line).1 = none ↔ Admits dir fs line := by
  match line with
  | [] => exact iff_of_true rfl trivial
  | [_] => exact iff_of_false (by simp [execInstruction]) id
  | operation :: filetype :: filename =>
      unfold Admits
      dsimp only
      split_ifs with hadd hdel hupd
      · rw [← install_iff h, execInstruction, if_pos hadd]
      · exact iff_of_true (by rw [execInstruction, if_neg hadd, if_pos hdel]) trivial
      · subst hupd
        by_cases hok : File.fileExists ⟨dir, filename⟩ fs = true →
            Fs.resolve dir filename ≠ [] ∧ ¬ Stuck fs ⟨dir, filename⟩
        · rw [update_eq hok, install_iff (File.isTree_delete _ h)]
          exact (and_iff_right hok).symm
        · refine iff_of_false ?_ fun hadmits => hok hadmits.1
          rw [update_refused h hok]
          simp
      · exact iff_of_true (by rw [execInstruction, if_neg hadd, if_neg hdel, if_neg hupd]) trivial

/-! ## What they settle -/

/-- What an instruction that is carried out means for a path. -/
inductive Fate where
  /-- The node is there, whatever was there. -/
  | put (node : Node)
  /-- Nothing is there, unless it is stuck. -/
  | cleared (file : File)
  | kept
deriving DecidableEq, Repr

/-- What a line means for a path. -/
def fate (dir : Path) (content : Text → Text) : Text → Path → Fate
  | operation :: filetype :: filename, q =>
    let file := Fs.resolve dir filename
    if operation = '+' ∨ operation = '*' then
      if filetype = 'f' then if q = file then .put (.file (content filename)) else .kept
      else if q ≠ [] ∧ q <+: file then .put .dir else .kept
    else if operation = '-' ∧ q = file then .cleared ⟨dir, filename⟩
    else .kept
  | _, _ => .kept

/-- What a deletion leaves at its path. -/
def left (fs : Fs) (file : File) : Option Node :=
  if Stuck fs file then fs.get file.path else none

/-- The node behind the instruction. -/
def Fate.after (fs : Fs) (q : Path) : Fate → Option Node
  | .put node => some node
  | .cleared file => left fs file
  | .kept => fs.get q

/-- The tree behind an instruction that is carried out, path by path. -/
theorem get_execInstruction {fs : Fs} (h : IsTree fs) {dir : Path} {content : Text → Text}
    {line : Text} (hadmits : Admits dir fs line) (q : Path) :
    (execInstruction dir (working content) fs line).2.get q =
      (fate dir content line q).after fs q := by
  match line, hadmits with
  | [], _ => rfl
  | operation :: filetype :: filename, hadmits =>
      unfold Admits at hadmits
      unfold fate
      dsimp only at hadmits ⊢
      split_ifs at hadmits with hadd hdel hupd
      · rw [if_pos (Or.inl hadd), execInstruction, if_pos hadd, install_get h hadmits]
        split_ifs <;> rfl
      · have hnot : ¬ (operation = '+' ∨ operation = '*') := by
          rw [hdel]
          decide
        rw [if_neg hnot, execInstruction, if_neg hadd, if_pos hdel, get_fileDelete]
        by_cases hq : q = Fs.resolve dir filename
        · rw [if_pos (⟨hdel, hq⟩ : operation = '-' ∧ q = Fs.resolve dir filename), Fate.after, left]
          by_cases hstuck : Stuck fs ⟨dir, filename⟩
          · rw [if_neg fun hgone => hgone.2 hstuck, if_pos hstuck, hq]
            rfl
          · rw [if_pos ⟨hq, hstuck⟩, if_neg hstuck]
        · rw [if_neg fun hgone => hq hgone.1, if_neg fun hgone => hq hgone.2]
          rfl
      · rw [if_pos (Or.inr hupd)]
        subst hupd
        rw [update_eq hadmits.1, install_get (File.isTree_delete _ h) hadmits.2, get_fileDelete]
        split_ifs with hfile hq hgone hway hgone
        · rfl
        · exact absurd hgone.1 hq
        · rfl
        · rfl
        · -- Only the root is at the end of no way, and nothing is there.
          have hroot : q = [] := by
            by_contra hne
            exact hway ⟨hne, by rw [hgone.1]; exact List.prefix_rfl⟩
          rw [hroot]
          exact h.root.symm
        · rfl
      · rw [if_neg (by tauto), if_neg (by tauto), execInstruction, if_neg hadd, if_neg hdel,
          if_neg hupd]
        rfl

/-! ## What is left alone -/

/-- In a tree an operation changes its own path, and `mkdirs` what is on the way to
it; never the root. -/
theorem mem_changed {fs : Fs} (htree : IsTree fs) {t : Touch} {q : Path} (h : q ∈ changed fs t) :
    q ≠ [] ∧ q <+: t.file.path ∧ (t.op ≠ .mkdirs → q = t.file.path) := by
  obtain ⟨op, base, name⟩ := t
  have hown : q ≠ [] → q = Fs.resolve base name →
      q ≠ [] ∧ q <+: Fs.resolve base name ∧ (op ≠ .mkdirs → q = Fs.resolve base name) :=
    fun hroot heq => ⟨hroot, heq ▸ List.prefix_rfl, fun _ => heq⟩
  cases op with
  | mkdirs =>
      obtain ⟨-, hway, hroot, -⟩ := mem_mkdirs_changed.mp h
      exact ⟨hroot, hway, fun hop => absurd rfl hop⟩
  | write content =>
      unfold changed at h
      split at h
      · rename_i hrun
        have heq : q = Fs.resolve base name := List.mem_singleton.mp h
        rw [run_write, Option.isSome_iff_exists] at hrun
        obtain ⟨fs', hwrite⟩ := hrun
        have hwritten := File.write_some hwrite
        rw [Fs.write] at hwritten
        split at hwritten
        · rename_i hok
          exact hown (heq ▸ hok.1) heq
        · cases hwritten
      · cases h
  | delete =>
      unfold changed at h
      split at h
      · rename_i hrun
        have heq : q = Fs.resolve base name := List.mem_singleton.mp h
        rw [run_delete] at hrun
        split at hrun
        · rename_i hdeleted
          refine hown ?_ heq
          rintro rfl
          refine (delete_fst_iff.mp hdeleted).1 ?_
          rw [File.path, ← heq, htree.root]
        · cases hrun
      · cases h

theorem mem_downloadTouches {base : Path} {name : Text} {transfer : Transfer} {t : Touch}
    (h : t ∈ downloadTouches base name transfer) :
    t.file = ⟨base, name⟩ ∧ t.op ≠ .mkdirs := by
  unfold downloadTouches at h
  split at h
  · rw [List.mem_singleton.mp h]
    exact ⟨rfl, by simp⟩
  · rw [List.mem_singleton.mp h]
    exact ⟨rfl, by simp⟩
  · cases h
  · cases h

theorem mem_installTouches {dir : Path} {transfer : Text → Transfer} {fs : Fs} {filetype : Char}
    {filename : Text} {t : Touch} (h : t ∈ installTouches dir transfer fs filetype filename) :
    t.file = ⟨dir, filename⟩ ∧ (t.op = .mkdirs → filetype ≠ 'f') := by
  unfold installTouches at h
  split_ifs at h with hf hd hexists
  · exact (mem_downloadTouches h).imp_right fun hop hmkdirs => absurd hmkdirs hop
  · cases h
  · rw [List.mem_singleton.mp h]
    exact ⟨rfl, fun _ => hf⟩
  · cases h

/-- The operations of a line work at the path it names. -/
theorem mem_roundTouches {dir : Path} {transfer : Text → Transfer} {fs : Fs}
    {operation filetype : Char} {filename : Text} {t : Touch}
    (h : t ∈ roundTouches dir transfer fs (operation :: filetype :: filename)) :
    t.file = ⟨dir, filename⟩ ∧ (t.op = .mkdirs → filetype ≠ 'f') ∧
      (operation = '+' ∨ operation = '*' ∨ (operation = '-' ∧ t.op ≠ .mkdirs)) := by
  unfold roundTouches at h
  dsimp only at h
  split_ifs at h with hadd hdel hupd hexists
  · exact ⟨(mem_installTouches h).1, (mem_installTouches h).2, Or.inl hadd⟩
  · rw [List.mem_singleton.mp h]
    exact ⟨rfl, by simp, Or.inr (Or.inr ⟨hdel, by simp⟩)⟩
  · rcases List.mem_cons.mp h with rfl | h
    · exact ⟨rfl, by simp, Or.inr (Or.inl hupd)⟩
    · split at h
      · exact ⟨(mem_installTouches h).1, (mem_installTouches h).2, Or.inr (Or.inl hupd)⟩
      · cases h
  · exact ⟨(mem_installTouches h).1, (mem_installTouches h).2, Or.inr (Or.inl hupd)⟩
  · cases h

/-- An operation of a round leaves a path alone that the line does not settle. -/
theorem not_mem_changed {dir : Path} {transfer : Text → Transfer} {content : Text → Text}
    {fs fs' : Fs} (htree : IsTree fs') {line : Text} {q : Path}
    (h : fate dir content line q = .kept) {t : Touch}
    (ht : t ∈ roundTouches dir transfer fs line) : q ∉ changed fs' t := by
  intro hq
  obtain ⟨hroot, hway, hown⟩ := mem_changed htree hq
  match line with
  | [] => cases ht
  | [_] => cases ht
  | operation :: filetype :: filename =>
      obtain ⟨hfile, hmkdirs, hop⟩ := mem_roundTouches ht
      have hpath : Fs.resolve dir filename = t.file.path := by rw [hfile, File.path]
      unfold fate at h
      dsimp only at h
      rw [hpath] at h
      by_cases hinstalls : operation = '+' ∨ operation = '*'
      · rw [if_pos hinstalls, if_pos (⟨hroot, hway⟩ : q ≠ [] ∧ q <+: t.file.path)] at h
        split_ifs at h with hf hq
        exact hq (hown fun hop => hmkdirs hop hf)
      · have hdel : operation = '-' ∧ t.op ≠ .mkdirs := by tauto
        rw [if_neg hinstalls, if_pos ⟨hdel.1, hown hdel.2⟩] at h
        cases h

/-- A path that a line does not settle stays as it was, however the round ends. -/
theorem execInstruction_kept {dir : Path} {transfer : Text → Transfer} {content : Text → Text}
    {fs : Fs} (htree : IsTree fs) {line : Text} {q : Path}
    (h : fate dir content line q = .kept) :
    (execInstruction dir transfer fs line).2.get q = fs.get q := by
  have hfold : ∀ (touches : List Touch), (∀ t ∈ touches, t ∈ roundTouches dir transfer fs line) →
      ∀ fs' : Fs, IsTree fs' → (touches.foldl Client.apply fs').get q = fs'.get q := by
    intro touches
    induction touches with
    | nil => exact fun _ _ _ => rfl
    | cons t touches ih =>
        intro hmem fs' htree'
        rw [List.foldl_cons, ih (fun t ht => hmem t (by simp [ht])) _ (isTree_apply htree' t),
          get_apply (not_mem_changed htree' h (hmem t (by simp)))]
  rw [← roundTouches_foldl]
  exact hfold _ (fun _ ht => ht) fs htree

/-- A path that no line settles stays as it was, however the loop ends. -/
theorem runInstructions_kept {dir : Path} {transfer : Nat → Text → Transfer}
    {content : Text → Text} {n : Nat} {instrs : List Text} {fs : Fs} (htree : IsTree fs) {q : Path}
    (h : ∀ line ∈ instrs, fate dir content line q = .kept) :
    (runInstructions dir transfer n instrs fs).2.get q = fs.get q := by
  induction instrs generalizing n fs with
  | nil => rfl
  | cons line rest ih =>
      have hkept : (execInstruction dir (transfer n) fs line).2.get q = fs.get q :=
        execInstruction_kept htree (h line (by simp))
      have htree' : IsTree (execInstruction dir (transfer n) fs line).2 :=
        isTree_execInstruction htree
      rw [runInstructions]
      generalize execInstruction dir (transfer n) fs line = round at hkept htree' ⊢
      obtain ⟨stop, fs'⟩ := round
      cases stop with
      | some stop => exact hkept
      | none => exact (ih htree' fun l hl => h l (by simp [hl])).trans hkept

end Update
end ModpackInstaller
