import ModpackInstaller.Client.Addons
import ModpackInstaller.Client.UpdateLoop
import ModpackInstaller.Library.Paths
import ModpackInstaller.Library.Run

/-!
# What the installer does to the file system

The three routines that work with names from the outside, as the operations of
{lit}`java.io.File` that they come to: the instruction loop of
{lit}`updatePack`, {lit}`unTar`, and the removal loop of {lit}`downloadAddons`.

Main results:

- Theorem {lit}`get_apply`: an operation changes no path but those it is said to
  change.
- Theorems {lit}`loopTouches_foldl`, {lit}`entriesTouches_foldl` and
  {lit}`removalTouches_foldl`: the operations of a routine are all that it does.
-/

namespace ModpackInstaller
namespace Client

open Library

/-! ## Operations -/

/-- The operations of `java.io.File` and `FileOutputStream` that change
something. -/
inductive FileOp where
  | write (content : Text)
  | delete
  | mkdirs
deriving DecidableEq, Repr

/-- An operation on a name below a directory. -/
structure Touch where
  op : FileOp
  base : Path
  name : Text
deriving DecidableEq, Repr

/-- `new File(base, name)` -/
def Touch.file (t : Touch) : File :=
  ⟨t.base, t.name⟩

/-- The operation; `none` when it fails. -/
def Touch.run (t : Touch) (fs : Fs) : Option Fs :=
  match t.op with
  | .write content => t.file.write fs content
  | .delete => if (t.file.delete fs).1 then some (t.file.delete fs).2 else none
  | .mkdirs => t.file.mkdirs fs

section Run

variable (fs : Fs) (base : Path) (name : Text)

theorem run_write (content : Text) :
    Touch.run ⟨.write content, base, name⟩ fs = File.write ⟨base, name⟩ fs content := rfl

theorem run_delete :
    Touch.run ⟨.delete, base, name⟩ fs =
      if (File.delete ⟨base, name⟩ fs).1 then some (File.delete ⟨base, name⟩ fs).2 else none := rfl

theorem run_mkdirs :
    Touch.run ⟨.mkdirs, base, name⟩ fs = File.mkdirs ⟨base, name⟩ fs := rfl

end Run

/-- The tree behind an operation. -/
def apply (fs : Fs) (t : Touch) : Fs :=
  (t.run fs).getD fs

/-- What an operation creates, overwrites or deletes; `mkdirs` also creates the
directories on the way. -/
def changed (fs : Fs) (t : Touch) : List Path :=
  if (t.run fs).isSome then
    match t.op with
    | .mkdirs => t.file.path.inits.filter fun q => decide (q ≠ [] ∧ fs.get q = none)
    | _ => [t.file.path]
  else []

theorem mem_mkdirs_changed {fs : Fs} {base : Path} {name : Text} {q : Path} :
    q ∈ changed fs ⟨.mkdirs, base, name⟩ ↔
      (Touch.run ⟨.mkdirs, base, name⟩ fs).isSome = true ∧ q <+: Fs.resolve base name ∧ q ≠ [] ∧
        fs.get q = none := by
  unfold changed
  split
  · rename_i hrun
    simp [hrun, Touch.file, File.path]
  · rename_i hrun
    simp [hrun]

/-- An operation changes no path but those it is said to change. -/
theorem get_apply {fs : Fs} {t : Touch} {q : Path} (hq : q ∉ changed fs t) :
    (apply fs t).get q = fs.get q := by
  obtain ⟨op, base, name⟩ := t
  unfold apply
  cases hrun : Touch.run ⟨op, base, name⟩ fs with
  | none => rfl
  | some fs' =>
      rw [Option.getD_some]
      cases op with
      | write content =>
          have hne : q ≠ (File.mk base name).path := by simpa [changed, hrun, Touch.file] using hq
          rw [run_write] at hrun
          rw [Fs.get_write (File.write_some hrun), if_neg hne]
      | delete =>
          have hne : q ≠ (File.mk base name).path := by simpa [changed, hrun, Touch.file] using hq
          rw [run_delete] at hrun
          split at hrun
          · rw [← Option.some.inj hrun, File.get_delete_of_ne hne]
          · cases hrun
      | mkdirs =>
          rw [mem_mkdirs_changed, hrun] at hq
          rw [run_mkdirs] at hrun
          have hmade := (File.mkdirs_some hrun).2
          rcases Fs.get_mkdirsFrom hmade q with hsame | ⟨hnone, -, hprefix⟩
          · exact hsame
          · by_cases hroot : q = []
            · rw [hroot, Fs.get_mkdirsFrom_root hmade]
            · exact absurd ⟨rfl, hprefix, hroot, hnone⟩ hq

/-! ## The instruction loop -/

/-- The operations of `downloadFile`. -/
def downloadTouches (base : Path) (name : Text) : Transfer → List Touch
  | .complete content => [⟨.write content, base, name⟩]
  | .broken (some content) => [⟨.write content, base, name⟩]
  | .broken none => []
  | .networkError => []

/-- The operations of the inner `switch (filetype)`. -/
def installTouches (dir : Path) (transfer : Text → Transfer) (fs : Fs) (filetype : Char)
    (filename : Text) : List Touch :=
  if filetype = 'f' then downloadTouches dir filename (transfer filename)
  else if filetype = 'd' then
    if File.fileExists ⟨dir, filename⟩ fs then [] else [⟨.mkdirs, dir, filename⟩]
  else []

/-- The operations of one round. -/
def roundTouches (dir : Path) (transfer : Text → Transfer) (fs : Fs) : Text → List Touch
  | [] => []
  | [_] => []
  | operation :: filetype :: filename =>
    let file : File := ⟨dir, filename⟩
    if operation = '+' then installTouches dir transfer fs filetype filename
    else if operation = '-' then [⟨.delete, dir, filename⟩]
    else if operation = '*' then
      if file.fileExists fs then
        ⟨.delete, dir, filename⟩ ::
          match file.delete fs with
          | (true, fs) => installTouches dir transfer fs filetype filename
          | (false, _) => []
      else installTouches dir transfer fs filetype filename
    else []

/-- The operations of the loop. -/
def loopTouches (dir : Path) (transfer : Nat → Text → Transfer) :
    Nat → List Text → Fs → List Touch
  | _, [], _ => []
  | n, s :: rest, fs =>
    roundTouches dir (transfer n) fs s ++
      match execInstruction dir (transfer n) fs s with
      | (some _, _) => []
      | (none, fs) => loopTouches dir transfer (n + 1) rest fs

/-- A deletion that fails changes nothing. -/
theorem delete_snd_of_not {f : File} {fs : Fs} (h : ¬ (f.delete fs).1 = true) :
    (f.delete fs).2 = fs := by
  rw [File.delete] at h ⊢
  split at h
  · rename_i hreached
    rw [if_pos hreached]
    unfold Fs.delete at h ⊢
    split at h
    · rfl
    · exact absurd rfl h
    · split at h
      · rename_i hchildren
        rw [if_pos hchildren]
      · exact absurd rfl h
  · rename_i hreached
    rw [if_neg hreached]

/-- The tree behind a deletion, whether it succeeds or not. -/
theorem apply_delete (fs : Fs) (dir : Path) (name : Text) :
    apply fs ⟨.delete, dir, name⟩ = (File.delete ⟨dir, name⟩ fs).2 := by
  rw [apply, run_delete]
  split
  · rfl
  · rename_i hfails
    exact (delete_snd_of_not hfails).symm

theorem downloadTouches_foldl {base : Path} {name : Text} {transfer : Transfer} {fs : Fs} :
    (downloadTouches base name transfer).foldl apply fs =
      match downloadFile fs ⟨base, name⟩ transfer with
      | .ok (_, fs) => fs
      | .error _ => fs := by
  cases transfer with
  | complete content =>
      rw [downloadTouches, List.foldl_cons, List.foldl_nil, apply, run_write, downloadFile]
      cases File.write ⟨base, name⟩ fs content <;> rfl
  | broken written =>
      cases written with
      | none => rfl
      | some content => rfl
  | networkError => rfl

theorem installTouches_foldl {dir : Path} {transfer : Text → Transfer} {fs : Fs} {filetype : Char}
    {filename : Text} : (installTouches dir transfer fs filetype filename).foldl apply fs =
      (install dir transfer fs filetype filename).2 := by
  unfold installTouches install
  dsimp only
  split_ifs with hfile hdir hexists hisdir
  · rw [downloadTouches_foldl]
    cases downloadFile fs ⟨dir, filename⟩ (transfer filename) with
    | error e => rfl
    | ok r =>
        obtain ⟨ok, fs'⟩ := r
        cases ok <;> rfl
  · rfl
  · rfl
  · rw [List.foldl_cons, List.foldl_nil, apply, run_mkdirs]
    cases File.mkdirs ⟨dir, filename⟩ fs <;> rfl
  · rfl

theorem roundTouches_foldl {dir : Path} {transfer : Text → Transfer} {fs : Fs} {s : Text} :
    (roundTouches dir transfer fs s).foldl apply fs = (execInstruction dir transfer fs s).2 := by
  match s with
  | [] => rfl
  | [_] => rfl
  | operation :: filetype :: filename =>
      unfold roundTouches execInstruction
      dsimp only
      split_ifs with hadd hdel hupd hexists
      · exact installTouches_foldl
      · rw [List.foldl_cons, List.foldl_nil, apply_delete]
      · rw [List.foldl_cons, apply_delete]
        rcases File.delete ⟨dir, filename⟩ fs with ⟨deleted, fs'⟩
        cases deleted with
        | false => rfl
        | true => exact installTouches_foldl
      · exact installTouches_foldl
      · rfl

/-- The operations of the loop are all that it does. -/
theorem loopTouches_foldl {dir : Path} {transfer : Nat → Text → Transfer} {n : Nat}
    {instrs : List Text} {fs : Fs} : (loopTouches dir transfer n instrs fs).foldl apply fs =
      (runInstructions dir transfer n instrs fs).2 := by
  induction instrs generalizing n fs with
  | nil => rfl
  | cons s rest ih =>
      rw [loopTouches, List.foldl_append, roundTouches_foldl, runInstructions]
      rcases execInstruction dir (transfer n) fs s with ⟨stop, fs'⟩
      cases stop with
      | some stop => rfl
      | none => exact ih

/-! ## The loop in `unTar` -/

/-- The operations of one entry. -/
def entryTouches (outputDir : Path) (fs : Fs) (entry : TarEntry) : List Touch :=
  if entry.isDirectory then
    if File.fileExists ⟨outputDir, entry.name⟩ fs then []
    else [⟨.mkdirs, outputDir, entry.name⟩]
  else [⟨.write entry.content, outputDir, entry.name⟩]

/-- The operations of an archive. -/
def entriesTouches (outputDir : Path) : List TarEntry → Fs → List Touch
  | [], _ => []
  | entry :: entries, fs =>
    entryTouches outputDir fs entry ++
      match unTarEntry outputDir fs entry with
      | none => []
      | some fs => entriesTouches outputDir entries fs

theorem entryTouches_foldl {outputDir : Path} {fs : Fs} {entry : TarEntry} :
    (entryTouches outputDir fs entry).foldl apply fs =
      (unTarEntry outputDir fs entry).getD fs := by
  unfold entryTouches unTarEntry
  dsimp only
  split_ifs with hdir hexists
  · rfl
  · rw [List.foldl_cons, List.foldl_nil, apply, run_mkdirs]
  · rw [List.foldl_cons, List.foldl_nil, apply, run_write]

/-- The operations of an archive are all that `unTar` does. -/
theorem entriesTouches_foldl {outputDir : Path} {entries : List TarEntry} {fs : Fs} :
    (entriesTouches outputDir entries fs).foldl apply fs =
      (unTarEntries outputDir entries fs).2 := by
  induction entries generalizing fs with
  | nil => rfl
  | cons entry entries ih =>
      rw [entriesTouches, List.foldl_append, entryTouches_foldl, unTarEntries]
      cases unTarEntry outputDir fs entry with
      | none => rfl
      | some fs' => exact ih

/-! ## The removal loop -/

/-- The operations of a removal that makes a file of every name. -/
def removalTouches (file : Text → File) (files : List Text) : List Touch :=
  (sortFiles files).map fun f => ⟨.delete, (file f).parent, (file f).child⟩

/-- The operations of a removal are all that the loop does to the tree. -/
theorem removalTouches_foldl {file : Text → File} {files : List Text} {fs : Fs} :
    (removalTouches file files).foldl apply fs =
      deleteAll fs ((sortFiles files).map file) := by
  unfold removalTouches deleteAll
  rw [List.foldl_map, List.foldl_map]
  refine congrArg (fun step => List.foldl step fs (sortFiles files)) ?_
  funext fs f
  exact apply_delete fs (file f).parent (file f).child

end Client
end ModpackInstaller
