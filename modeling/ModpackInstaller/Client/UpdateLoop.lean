import Mathlib.Data.List.DropRight
import ModpackInstaller.Client.FileSystem
import ModpackInstaller.Client.Response

/-!
# The instruction loop of the installer

The loop in {lit}`InstallPanel.updatePack` that executes the instruction
lines.  It reads the characters 0 and 1 of a line and the rest from 2 on, so a
line of one character throws.  The transfer of a file is an input: what
{lit}`downloadFile` gets depends on the server and the connection.

Main results:

- Theorem {lit}`runInstructions_append`: the loop over two lists is one loop
  after the other.
- Theorems {lit}`runInstructions_get_some` and {lit}`runInstructions_get_none`:
  the frame of a loop.
- Theorem {lit}`runInstructions_readable`: lines that can be interpreted are
  never refused for their text.
- Theorem {lit}`mem_javaSplit`: what {lit}`String.split` hands to the loop.
-/

namespace ModpackInstaller
namespace Client

open Library

/-! ## Outcomes -/

/-- What the data thread reports for a transfer. -/
inductive Transfer where
  /-- It set {lit}`success`, having read this. -/
  | complete (content : Text)
  /-- It did not; a part may have been written. -/
  | broken (written : Option Text)
  /-- The data channel timed out while the command was waiting for its reply. -/
  | networkError
deriving DecidableEq, Repr

/-- Why the loop gives up. -/
inductive Refusal where
  | download
  | directory
  | delete
  /-- The type character is neither {lit}`f` nor {lit}`d`. -/
  | filetype
deriving DecidableEq, Repr

/-- How the loop ends early. -/
inductive Stop where
  | returnsFalse (cause : Refusal)
  | throws (exception : Thrown)
deriving DecidableEq, Repr

/-! ## One instruction -/

/-- `downloadFile` -/
def downloadFile (fs : Fs) (file : File) : Transfer → Except Thrown (Bool × Fs)
  | .complete content =>
    match file.write fs content with
    | some fs => .ok (true, fs)
    | none => .ok (false, fs)
  | .broken written => .ok (false, (written.bind (file.write fs)).getD fs)
  | .networkError => .error .network

/-- The inner `switch (filetype)`. -/
def install (dir : Path) (transfer : Text → Transfer) (fs : Fs) (filetype : Char)
    (filename : Text) : Option Stop × Fs :=
  let file : File := ⟨dir, filename⟩
  if filetype = 'f' then
    match downloadFile fs file (transfer filename) with
    | .error e => (some (.throws e), fs)
    | .ok (true, fs) => (none, fs)
    | .ok (false, fs) => (some (.returnsFalse .download), fs)
  else if filetype = 'd' then
    if file.fileExists fs then
      if file.isDirectory fs then (none, fs) else (some (.returnsFalse .directory), fs)
    else
      match file.mkdirs fs with
      | some fs => (none, fs)
      | none => (some (.returnsFalse .directory), fs)
  else (some (.returnsFalse .filetype), fs)

/-- One round of the loop; `none` goes on with the next instruction. -/
def execInstruction (dir : Path) (transfer : Text → Transfer) (fs : Fs) :
    Text → Option Stop × Fs
  | [] => (none, fs)
  | [_] => (some (.throws .stringIndex), fs)
  | operation :: filetype :: filename =>
    let file : File := ⟨dir, filename⟩
    if operation = '+' then install dir transfer fs filetype filename
    else if operation = '-' then
      -- The result of the deletion is not looked at.
      (none, (file.delete fs).2)
    else if operation = '*' then
      if file.fileExists fs then
        match file.delete fs with
        | (true, fs) => install dir transfer fs filetype filename
        | (false, fs) => (some (.returnsFalse .delete), fs)
      else install dir transfer fs filetype filename
    else (none, fs)

/-- The loop; `none` when it goes through.  The transfers are numbered by the
instructions. -/
def runInstructions (dir : Path) (transfer : Nat → Text → Transfer) :
    Nat → List Text → Fs → Option Stop × Fs
  | _, [], fs => (none, fs)
  | n, s :: rest, fs =>
    match execInstruction dir (transfer n) fs s with
    | (some stop, fs) => (some stop, fs)
    | (none, fs) => runInstructions dir transfer (n + 1) rest fs

/-- A loop over two lists is one loop after the other. -/
theorem runInstructions_append {dir : Path} {transfer : Nat → Text → Transfer} {n : Nat}
    {xs ys : List Text} {fs fs' : Fs}
    (h : runInstructions dir transfer n xs fs = (none, fs')) :
    runInstructions dir transfer n (xs ++ ys) fs =
      runInstructions dir transfer (n + xs.length) ys fs' := by
  induction xs generalizing n fs with
  | nil =>
      simp only [runInstructions, Prod.mk.injEq, true_and] at h
      simp [h]
  | cons s xs ih =>
      rw [runInstructions] at h
      rw [List.cons_append, runInstructions]
      rcases hstep : execInstruction dir (transfer n) fs s with ⟨stop, fs₁⟩
      rw [hstep] at h
      cases stop with
      | some stop => simp at h
      | none =>
          simp only at h ⊢
          rw [ih h, List.length_cons]
          congr 1
          omega

/-- A loop over two lists that goes through goes through both. -/
theorem exists_of_runInstructions_append {dir : Path} {transfer : Nat → Text → Transfer}
    {n : Nat} {xs ys : List Text} {fs fs' : Fs}
    (h : runInstructions dir transfer n (xs ++ ys) fs = (none, fs')) :
    ∃ fs₁, runInstructions dir transfer n xs fs = (none, fs₁) ∧
      runInstructions dir transfer (n + xs.length) ys fs₁ = (none, fs') := by
  induction xs generalizing n fs with
  | nil => exact ⟨fs, rfl, h⟩
  | cons s xs ih =>
      rw [List.cons_append, runInstructions] at h
      rcases hstep : execInstruction dir (transfer n) fs s with ⟨stop, fs₁⟩
      rw [hstep] at h
      cases stop with
      | some stop => simp at h
      | none =>
          obtain ⟨fs₂, hxs, hys⟩ := ih h
          refine ⟨fs₂, by rw [runInstructions, hstep]; exact hxs, ?_⟩
          rw [List.length_cons, Nat.add_comm xs.length, ← Nat.add_assoc]
          exact hys

/-! ## What an instruction can change -/

section Frame

variable {dir : Path} {transfer : Text → Transfer} {fs fs' : Fs} {filetype : Char}
  {filename : Text} {q : Path}

/-- An installation changes a path only by putting a file there, or by making a
missing directory on the way to its own path. -/
private theorem install_get (h : install dir transfer fs filetype filename = (none, fs'))
    (hq : q ≠ Fs.resolve dir filename) :
    fs'.get q = fs.get q ∨
      (fs.get q = none ∧ fs'.get q = some .dir ∧ q <+: Fs.resolve dir filename) := by
  unfold install at h
  simp only at h
  split at h
  · cases htransfer : transfer filename with
    | complete content =>
        cases hwrite : File.write ⟨dir, filename⟩ fs content with
        | none => simp [htransfer, downloadFile, hwrite] at h
        | some fs₁ =>
            simp only [htransfer, downloadFile, hwrite, Prod.mk.injEq, true_and] at h
            rw [← h, Fs.get_write (File.write_some hwrite)]
            exact Or.inl (if_neg hq)
    | broken written => simp [htransfer, downloadFile] at h
    | networkError => simp [htransfer, downloadFile] at h
  · split at h
    · split at h
      · split at h
        · simp only [Prod.mk.injEq, true_and] at h
          exact Or.inl (by rw [h])
        · simp at h
      · split at h
        · rename_i fs₁ hmkdirs
          simp only [Prod.mk.injEq, true_and] at h
          rw [← h]
          exact Fs.get_mkdirsFrom (File.mkdirs_some hmkdirs).2 q
        · simp at h
    · simp at h

/-- A round that goes on leaves every other path alone, except that it may make
missing directories on the way to its own path. -/
theorem execInstruction_get {operation : Char}
    (h : execInstruction dir transfer fs (operation :: filetype :: filename) = (none, fs'))
    (hq : q ≠ Fs.resolve dir filename) :
    fs'.get q = fs.get q ∨
      (fs.get q = none ∧ fs'.get q = some .dir ∧ q <+: Fs.resolve dir filename) := by
  have hdelete : (File.delete ⟨dir, filename⟩ fs).2.get q = fs.get q :=
    File.get_delete_of_ne hq fs
  simp only [execInstruction] at h
  split at h
  · exact install_get h hq
  · split at h
    · simp only [Prod.mk.injEq, true_and] at h
      exact Or.inl (by rw [← h, hdelete])
    · split at h
      · split at h
        · split at h
          · rename_i fs₁ hfs₁
            rw [hfs₁] at hdelete
            have hinstall := install_get h hq
            rwa [hdelete] at hinstall
          · simp at h
        · exact install_get h hq
      · simp only [Prod.mk.injEq, true_and] at h
        exact Or.inl (by rw [h])

end Frame

/-- The paths that a list of instructions names. -/
def Names (dir : Path) (instrs : List Text) (q : Path) : Prop :=
  ∃ operation filetype filename, operation :: filetype :: filename ∈ instrs ∧
    q = Fs.resolve dir filename

/-- What every instruction of the list preserves, a loop that goes through
preserves. -/
theorem runInstructions_preserves {dir : Path} {transfer : Nat → Text → Transfer} {P : Fs → Prop}
    {instrs : List Text}
    (hstep : ∀ n operation filetype filename fs fs', operation :: filetype :: filename ∈ instrs →
      execInstruction dir (transfer n) fs (operation :: filetype :: filename) = (none, fs') →
      P fs → P fs')
    {n : Nat} {fs fs' : Fs} (h : runInstructions dir transfer n instrs fs = (none, fs'))
    (hP : P fs) : P fs' := by
  induction instrs generalizing n fs with
  | nil =>
      simp only [runInstructions, Prod.mk.injEq, true_and] at h
      exact h ▸ hP
  | cons s rest ih =>
      rw [runInstructions] at h
      rcases hround : execInstruction dir (transfer n) fs s with ⟨stop, fs₁⟩
      rw [hround] at h
      cases stop with
      | some stop => simp at h
      | none =>
          refine ih (fun n o t f fs fs' hmem => hstep n o t f fs fs' (by simp [hmem])) h ?_
          match s, hround with
          | [], hround =>
              simp only [execInstruction, Prod.mk.injEq, true_and] at hround
              exact hround ▸ hP
          | [_], hround => simp [execInstruction] at hround
          | o :: t :: f, hround => exact hstep n o t f fs fs₁ (by simp) hround hP

/-- A loop that goes through keeps a node that no instruction names. -/
theorem runInstructions_get_some {dir : Path} {transfer : Nat → Text → Transfer} {n : Nat}
    {instrs : List Text} {fs fs' : Fs}
    (h : runInstructions dir transfer n instrs fs = (none, fs')) {q : Path} {node : Node}
    (hget : fs.get q = some node) (hq : ¬ Names dir instrs q) : fs'.get q = some node := by
  refine runInstructions_preserves (P := fun fs => fs.get q = some node) ?_ h hget
  intro n o t f fs fs' hmem hround hget
  rcases execInstruction_get hround fun heq => hq ⟨o, t, f, hmem, heq⟩ with h | h
  · rw [h, hget]
  · simp [hget] at h

/-- A loop that goes through makes nothing at a path that does not lie on the
way to the path of an instruction. -/
theorem runInstructions_get_none {dir : Path} {transfer : Nat → Text → Transfer} {n : Nat}
    {instrs : List Text} {fs fs' : Fs}
    (h : runInstructions dir transfer n instrs fs = (none, fs')) {q : Path}
    (hget : fs.get q = none) (hq : ∀ r, Names dir instrs r → ¬ q <+: r) : fs'.get q = none := by
  refine runInstructions_preserves (P := fun fs => fs.get q = none) ?_ h hget
  intro n o t f fs fs' hmem hround hget
  have hbelow : ¬ q <+: Fs.resolve dir f := hq _ ⟨o, t, f, hmem, rfl⟩
  rcases execInstruction_get hround fun heq => hbelow (heq ▸ List.prefix_rfl) with h | h
  · rw [h, hget]
  · exact absurd h.2.2 hbelow

/-! ## Instructions that cannot be interpreted -/

/-- The text of the instruction itself makes the loop give up. -/
def Stop.unreadable : Stop → Prop
  | .returnsFalse .filetype => True
  | .throws .stringIndex => True
  | _ => False

/-- The loop can interpret a line: it is empty, or has two characters at least
and a known type when it installs. -/
def Readable : Text → Prop
  | [] => True
  | [_] => False
  | operation :: filetype :: _ =>
    operation = '+' ∨ operation = '*' → filetype = 'f' ∨ filetype = 'd'

instance : DecidablePred Readable
  | [] => inferInstanceAs (Decidable True)
  | [_] => inferInstanceAs (Decidable False)
  | _ :: _ :: _ => inferInstanceAs (Decidable (_ → _))

private theorem install_readable {dir : Path} {transfer : Text → Transfer} {fs : Fs}
    {filetype : Char} (h : filetype = 'f' ∨ filetype = 'd') {filename : Text} {stop : Stop}
    (hstop : (install dir transfer fs filetype filename).1 = some stop) : ¬ stop.unreadable := by
  unfold install at hstop
  rcases h with rfl | rfl
  · simp only [if_true] at hstop
    cases htransfer : transfer filename with
    | complete content =>
        cases hwrite : File.write ⟨dir, filename⟩ fs content with
        | none =>
            simp only [htransfer, downloadFile, hwrite, Option.some.injEq] at hstop
            simp [← hstop, Stop.unreadable]
        | some fs' => simp [htransfer, downloadFile, hwrite] at hstop
    | broken written =>
        simp only [htransfer, downloadFile, Option.some.injEq] at hstop
        simp [← hstop, Stop.unreadable]
    | networkError =>
        simp only [htransfer, downloadFile, Option.some.injEq] at hstop
        simp [← hstop, Stop.unreadable]
  · have hne : ¬ 'd' = 'f' := by decide
    simp only [hne, if_false, if_true] at hstop
    split at hstop
    · split at hstop
      · simp at hstop
      · simp only [Option.some.injEq] at hstop
        simp [← hstop, Stop.unreadable]
    · split at hstop
      · simp at hstop
      · simp only [Option.some.injEq] at hstop
        simp [← hstop, Stop.unreadable]

/-- A line that the loop can interpret is not refused for its text. -/
theorem execInstruction_readable {dir : Path} {transfer : Text → Transfer} {fs : Fs} {s : Text}
    (h : Readable s) {stop : Stop} (hstop : (execInstruction dir transfer fs s).1 = some stop) :
    ¬ stop.unreadable := by
  match s, h with
  | [], _ => simp [execInstruction] at hstop
  | operation :: filetype :: filename, h =>
      simp only [execInstruction] at hstop
      split at hstop
      · rename_i hadd
        exact install_readable (h (Or.inl hadd)) hstop
      · split at hstop
        · simp at hstop
        · split at hstop
          · rename_i hupd
            split at hstop
            · split at hstop
              · exact install_readable (h (Or.inr hupd)) hstop
              · simp only [Option.some.injEq] at hstop
                simp [← hstop, Stop.unreadable]
            · exact install_readable (h (Or.inr hupd)) hstop
          · simp at hstop

/-- The loop goes through lines it can interpret without giving up for their
text. -/
theorem runInstructions_readable {dir : Path} {transfer : Nat → Text → Transfer} {n : Nat}
    {instrs : List Text} {fs : Fs} (h : ∀ s ∈ instrs, Readable s) {stop : Stop}
    (hstop : (runInstructions dir transfer n instrs fs).1 = some stop) : ¬ stop.unreadable := by
  induction instrs generalizing n fs with
  | nil => simp [runInstructions] at hstop
  | cons s rest ih =>
      rw [runInstructions] at hstop
      rcases hstep : execInstruction dir (transfer n) fs s with ⟨e, fs₁⟩
      rw [hstep] at hstop
      cases e with
      | some e =>
          rw [← Option.some.inj hstop]
          exact execInstruction_readable (h s (by simp)) (by rw [hstep])
      | none => exact ih (fun l hl => h l (by simp [hl])) hstop

/-! ## Splitting the received text -/

/-- `String.split("\n")`: trailing empty strings are removed, and a text
without a newline is kept. -/
def javaSplit (s : Text) : List Text :=
  if '\n' ∈ s then (pieces '\n' s).rdropWhile List.isEmpty else [s]

/-- Written lines of which the last is not empty are split again. -/
theorem javaSplit_unpieces {lines : List Text} (hlines : ∀ l ∈ lines, '\n' ∉ l) (hne : lines ≠ [])
    (hlast : lines.getLast hne ≠ []) : javaSplit (unpieces '\n' lines) = lines := by
  have hmem : '\n' ∈ unpieces '\n' lines := by
    cases lines with
    | nil => exact absurd rfl hne
    | cons l lines => simp
  rw [javaSplit, if_pos hmem, pieces_unpieces hlines, List.rdropWhile_eq_self_iff]
  intro _
  simpa using hlast

/-- What the loop gets to see are lines of the text, or the empty text. -/
theorem mem_javaSplit {s l : Text} (h : l ∈ javaSplit s) : l = [] ∨ l ∈ pieces '\n' s := by
  rw [javaSplit] at h
  split at h
  · exact Or.inr ((List.rdropWhile_prefix _ _).subset h)
  · rename_i hnewline
    rw [List.mem_singleton] at h
    by_cases hs : s = []
    · exact Or.inl (h.trans hs)
    · rw [pieces_of_not_mem hnewline hs, h]
      simp

end Client
end ModpackInstaller
