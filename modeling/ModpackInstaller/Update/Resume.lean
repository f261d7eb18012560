import ModpackInstaller.Update.Settling

/-!
# Resuming an interrupted update

When a transfer fails the loop gives up, the recorded version stays, and the next
start executes the whole list again, on the tree that the interruption left.

Main results:

- Theorem {lit}`repeated_iff`: when the list goes through from one tree, it leads
  to the same tree from another one exactly when it goes through there, every
  deletion that counts decides alike, and the two agree where no line settles
  anything.
- Theorem {lit}`resumed_iff`: an interrupted update is resumed exactly under the
  first two of these conditions.
- Theorem {lit}`resumed_fails`: a directory that is replaced and then filled, and
  a directory that is deleted before its file.
-/

namespace ModpackInstaller
namespace Update

open Client

/-! ## Two executions -/

/-- The tree behind a line, all transfers working. -/
def behind (dir : Path) (content : Text → Text) (fs : Fs) (line : Text) : Fs :=
  (execInstruction dir (working content) fs line).2

/-- The file that a line deletes. -/
def removed (dir : Path) : Text → Option File
  | operation :: _ :: filename => if operation = '-' then some ⟨dir, filename⟩ else none
  | _ => none

/-- A line clears the path of the file that it deletes. -/
theorem fate_eq_cleared {dir : Path} {content : Text → Text} {line : Text} {q : Path}
    {file : File} :
    fate dir content line q = .cleared file ↔ file ∈ removed dir line ∧ q = file.path := by
  match line with
  | [] => simp [fate, removed]
  | [_] => simp [fate, removed]
  | operation :: filetype :: filename =>
      unfold fate removed
      dsimp only
      by_cases hop : operation = '+' ∨ operation = '*'
      · have hdel : operation ≠ '-' := by
          rcases hop with rfl | rfl <;> decide
        rw [if_pos hop, if_neg hdel]
        split_ifs <;> simp
      · rw [if_neg hop]
        by_cases hdel : operation = '-'
        · rw [if_pos hdel, Option.mem_def, Option.some.injEq]
          constructor
          · intro h
            split_ifs at h with hq
            obtain rfl := Fate.cleared.inj h
            exact ⟨rfl, hq.2⟩
          · rintro ⟨rfl, hq⟩
            exact if_pos ⟨hdel, hq⟩
        · rw [if_neg hdel, if_neg fun h => hdel h.1]
          simp

/-- The list is executed side by side from two trees.  In the second one every line
is carried out, and a deletion whose path no later line settles leaves the same node
there, or nothing, in both of them. -/
def Repeats (dir : Path) (content : Text → Text) : Fs → Fs → List Text → Prop
  | _, _, [] => True
  | first, again, line :: rest =>
    Admits dir again line ∧
      (∀ file ∈ removed dir line, (∀ l ∈ rest, fate dir content l file.path = .kept) →
        left again file = left first file) ∧
      Repeats dir content (behind dir content first line) (behind dir content again line) rest

instance decidableRepeats (dir : Path) (content : Text → Text) :
    (first again : Fs) → (instrs : List Text) → Decidable (Repeats dir content first again instrs)
  | _, _, [] => inferInstanceAs (Decidable True)
  | first, again, line :: rest =>
    have := decidableRepeats dir content (behind dir content first line)
      (behind dir content again line) rest
    inferInstanceAs (Decidable (_ ∧ (∀ file ∈ removed dir line, _ → _) ∧ _))

/-- The list goes through from a tree and leads to the same nodes. -/
def LeadsTo (dir : Path) (content : Text → Text) (instrs : List Text) (again final : Fs) : Prop :=
  ∃ final', runInstructions dir (fun _ => working content) 0 instrs again = (none, final') ∧
    ∀ q, final'.get q = final.get q

/-- Without a failing transfer the numbers of the instructions do not matter. -/
theorem runInstructions_working {dir : Path} {content : Text → Text} (n m : Nat)
    (instrs : List Text) (fs : Fs) :
    runInstructions dir (fun _ => working content) n instrs fs =
      runInstructions dir (fun _ => working content) m instrs fs := by
  induction instrs generalizing n m fs with
  | nil => rfl
  | cons line rest ih =>
      rw [runInstructions, runInstructions]
      rcases execInstruction dir (working content) fs line with ⟨stop, fs'⟩
      cases stop with
      | some stop => rfl
      | none => exact ih (n + 1) (m + 1) fs'

/-- A list goes through when its first line is carried out and the rest goes
through behind it. -/
theorem runInstructions_cons_iff {dir : Path} {content : Text → Text} {line : Text}
    {rest : List Text} {fs fs' : Fs} (htree : IsTree fs) :
    runInstructions dir (fun _ => working content) 0 (line :: rest) fs = (none, fs') ↔
      Admits dir fs line ∧
        runInstructions dir (fun _ => working content) 0 rest (behind dir content fs line) =
          (none, fs') := by
  rw [← execInstruction_iff htree, runInstructions, behind]
  rcases execInstruction dir (working content) fs line with ⟨stop, fs₁⟩
  cases stop with
  | some stop => simp
  | none => simp [runInstructions_working (0 + 1) 0]

/-- Behind a line that is carried out in both trees a path has the same node
exactly when it is installed, or deleted in both or neither, or was the same. -/
theorem behind_get_eq_iff {dir : Path} {content : Text → Text} {first again : Fs} {line : Text}
    (hfirst : IsTree first) (hagain : IsTree again) (hadmits : Admits dir first line)
    (hadmits' : Admits dir again line) (q : Path) :
    (behind dir content again line).get q = (behind dir content first line).get q ↔
      (∀ file ∈ removed dir line, q = file.path → left again file = left first file) ∧
        (fate dir content line q = .kept → again.get q = first.get q) := by
  rw [behind, behind, get_execInstruction hagain hadmits', get_execInstruction hfirst hadmits]
  have hcleared : (∀ file ∈ removed dir line, q = file.path → left again file = left first file) ↔
      ∀ file, fate dir content line q = .cleared file → left again file = left first file := by
    simp only [fate_eq_cleared, and_imp]
  rw [hcleared]
  cases fate dir content line q with
  | put node => simp [Fate.after]
  | kept => simp [Fate.after]
  | cleared file => simp [Fate.after]

/-- A list that goes through from one tree leads to the same tree from another one
exactly when it repeats and the trees agree where no line settles anything. -/
theorem repeated_iff {dir : Path} {content : Text → Text} {instrs : List Text}
    {first again final : Fs} (hfirst : IsTree first) (hagain : IsTree again)
    (hrun : runInstructions dir (fun _ => working content) 0 instrs first = (none, final)) :
    LeadsTo dir content instrs again final ↔
      Repeats dir content first again instrs ∧
        ∀ q, (∀ line ∈ instrs, fate dir content line q = .kept) → again.get q = first.get q := by
  induction instrs generalizing first again with
  | nil =>
      rw [runInstructions, Prod.mk.injEq] at hrun
      simp [LeadsTo, Repeats, runInstructions, hrun.2]
  | cons line rest ih =>
      obtain ⟨hadmits, hrest⟩ := (runInstructions_cons_iff hfirst).mp hrun
      have htree : ∀ {fs : Fs}, IsTree fs → IsTree (behind dir content fs line) :=
        fun h => isTree_execInstruction h
      have hsplit : LeadsTo dir content (line :: rest) again final ↔
          Admits dir again line ∧
            LeadsTo dir content rest (behind dir content again line) final := by
        unfold LeadsTo
        simp only [runInstructions_cons_iff hagain, and_assoc, exists_and_left]
      rw [hsplit, Repeats, ih (htree hfirst) (htree hagain) hrest, and_assoc, and_assoc]
      refine and_congr_right fun hadmits' => ?_
      have hagree : ∀ q, (behind dir content again line).get q =
          (behind dir content first line).get q ↔
            (∀ file ∈ removed dir line, q = file.path → left again file = left first file) ∧
              (fate dir content line q = .kept → again.get q = first.get q) :=
        behind_get_eq_iff hfirst hagain hadmits hadmits'
      constructor
      · rintro ⟨hrepeats, hrest⟩
        refine ⟨fun file hfile hlast => ?_, hrepeats, fun q hq => ?_⟩
        · exact ((hagree file.path).mp (hrest file.path hlast)).1 file hfile rfl
        rw [List.forall_mem_cons] at hq
        exact ((hagree q).mp (hrest q hq.2)).2 hq.1
      · rintro ⟨hremoved, hrepeats, hkept⟩
        refine ⟨hrepeats, fun q hlast => (hagree q).mpr ⟨?_, ?_⟩⟩
        · rintro file hfile rfl
          exact hremoved file hfile hlast
        exact fun hq => hkept q (List.forall_mem_cons.mpr ⟨hq, hlast⟩)

/-! ## Interruptions -/

/-- All transfers succeed but the one of line `k`. -/
def interrupted (content : Text → Text) (k : Nat) (failed : Transfer) (n : Nat) (filename : Text) :
    Transfer :=
  if n = k then failed else working content filename

/-- An update that goes through when nothing fails, and that was interrupted by a
failing transfer, is resumed exactly when the list repeats from the tree the
interruption left. -/
theorem resumed_iff {dir : Path} {content : Text → Text} {instrs : List Text} {start final cut : Fs}
    {k : Nat} {failed : Transfer} {stop : Stop} (htree : IsTree start)
    (hrun : runInstructions dir (fun _ => working content) 0 instrs start = (none, final))
    (hcut : runInstructions dir (interrupted content k failed) 0 instrs start =
      (some stop, cut)) :
    LeadsTo dir content instrs cut final ↔ Repeats dir content start cut instrs := by
  have hcut' : cut = (runInstructions dir (interrupted content k failed) 0 instrs start).2 := by
    rw [hcut]
  rw [repeated_iff htree (hcut' ▸ isTree_runInstructions htree) hrun]
  refine and_iff_left fun q hq => ?_
  rw [hcut', runInstructions_kept htree hq]

/-- A directory with a new file in it, and a file that replaces an old one. -/
def harmless : List Text :=
  ["+dd".toList, "+fd/x".toList, "*fy".toList]

/-- The last transfer breaks off in the middle. -/
theorem resumed_harmless :
    LeadsTo [] (fun _ => ['c']) harmless
      ⟨[([['y']], .file ['h']), ([['d'], ['x']], .file ['c']), ([['d']], .dir)]⟩
      ⟨[([['y']], .file ['c']), ([['d'], ['x']], .file ['c']), ([['d']], .dir)]⟩ := by
  have htree : IsTree ⟨[([['y']], .file ['0'])]⟩ := by decide
  have hrun : runInstructions [] (fun _ => working fun _ => ['c']) 0 harmless
      ⟨[([['y']], .file ['0'])]⟩ =
        (none, ⟨[([['y']], .file ['c']), ([['d'], ['x']], .file ['c']), ([['d']], .dir)]⟩) := by
    decide
  have hcut : runInstructions [] (interrupted (fun _ => ['c']) 2 (.broken (some ['h']))) 0 harmless
      ⟨[([['y']], .file ['0'])]⟩ = (some (.returnsFalse .download),
        ⟨[([['y']], .file ['h']), ([['d'], ['x']], .file ['c']), ([['d']], .dir)]⟩) := by
    decide
  exact (resumed_iff htree hrun hcut).mpr (by decide)

/-- A directory that is replaced and then filled. -/
def replacing : List Text :=
  ["*dd".toList, "+fd/x".toList, "+fy".toList]

/-- A directory that is deleted before the file in it. -/
def emptying : List Text :=
  ["-up".toList, "-up/c".toList, "+fy".toList]

/-- In the second execution the replaced directory is not empty, and the deleted
one is. -/
theorem resumed_fails :
    (IsTree ⟨[([['d']], .dir)]⟩ ∧
      runInstructions [] (fun _ => working fun _ => ['c']) 0 replacing ⟨[([['d']], .dir)]⟩ =
        (none, ⟨[([['y']], .file ['c']), ([['d'], ['x']], .file ['c']), ([['d']], .dir)]⟩) ∧
      runInstructions [] (interrupted (fun _ => ['c']) 2 .networkError) 0 replacing
          ⟨[([['d']], .dir)]⟩ =
        (some (.throws .network), ⟨[([['d'], ['x']], .file ['c']), ([['d']], .dir)]⟩) ∧
      ¬ LeadsTo [] (fun _ => ['c']) replacing
        ⟨[([['d'], ['x']], .file ['c']), ([['d']], .dir)]⟩
        ⟨[([['y']], .file ['c']), ([['d'], ['x']], .file ['c']), ([['d']], .dir)]⟩) ∧
    IsTree ⟨[([['p']], .dir), ([['p'], ['c']], .file [])]⟩ ∧
      runInstructions [] (fun _ => working fun _ => ['c']) 0 emptying
          ⟨[([['p']], .dir), ([['p'], ['c']], .file [])]⟩ =
        (none, ⟨[([['y']], .file ['c']), ([['p']], .dir)]⟩) ∧
      runInstructions [] (interrupted (fun _ => ['c']) 2 .networkError) 0 emptying
          ⟨[([['p']], .dir), ([['p'], ['c']], .file [])]⟩ =
        (some (.throws .network), ⟨[([['p']], .dir)]⟩) ∧
      ¬ LeadsTo [] (fun _ => ['c']) emptying ⟨[([['p']], .dir)]⟩
        ⟨[([['y']], .file ['c']), ([['p']], .dir)]⟩ := by
  refine ⟨⟨by decide, by decide, by decide, ?_⟩, by decide, by decide, by decide, ?_⟩
  · rintro ⟨final', hrun, -⟩
    have hstop : (runInstructions [] (fun _ => working fun _ => ['c']) 0 replacing
        ⟨[([['d'], ['x']], .file ['c']), ([['d']], .dir)]⟩).1 ≠ none := by decide
    exact hstop (congrArg Prod.fst hrun)
  · rintro ⟨final', hrun, hget⟩
    have hgone : runInstructions [] (fun _ => working fun _ => ['c']) 0 emptying
        ⟨[([['p']], .dir)]⟩ = (none, ⟨[([['y']], .file ['c'])]⟩) := by decide
    rw [hgone, Prod.mk.injEq] at hrun
    have hfinal := hget [['p']]
    rw [← hrun.2] at hfinal
    exact absurd hfinal (by decide)

end Update
end ModpackInstaller
