import ModpackInstaller.Server.Plan

/-!
# The list diff, path by path

What the list diff is to be, stated on the paths of the two lists: one removal for
every path that only the old list has, and one line for every path that only the
latest list has, by the type of the server's copy.  The rewriting of the prefix
goes over the whole line, so a path with a further {lit}`./` comes out longer.

Main results:

- Theorem {lit}`replaceAll_listed_iff`: which paths the rewriting copies.
- Theorem {lit}`listDiff_exact_iff`: the text of the diff is the stated one exactly
  when no path that is written has a further {lit}`./` in it.
-/

namespace ModpackInstaller
namespace Server

open Library

/-! ## The stated diff -/

/-- A line of a list file: {lit}`.` or {lit}`./p`. -/
def ListLine (l : Text) : Prop :=
  l = ['.'] ∨ ∃ path, l = listed path

/-- The paths of the first list that are no lines of the second. -/
def pathsOnly (own other : Text) : List Text :=
  ((pieces '\n' own).filter fun l => decide (l ≠ ['.'] ∧ l ∉ pieces '\n' other)).map (List.drop 2)

/-- The line for an added path. -/
def addedInstruction (modpack path : Text) : Option FileType → Text
  | none => "# unstatable file: ".toList ++ serverPath modpack (listed path)
  | some type => '+' :: typeChar type :: ("mods/".toList ++ path)

/-- The look-up of the server's copy of a path. -/
def statListed (k : Kernel) (clock : Nat) (modpack path : Text) : Option FileType :=
  k.stat clock (cstr (serverPath modpack (listed path)))

/-- The lines for the added paths; every path takes two look-ups. -/
def addedInstructions (k : Kernel) (modpack : Text) : Nat → List Text → List Text
  | _, [] => []
  | clock, path :: paths =>
    addedInstruction modpack path (statListed k (clock + 1) modpack path) ::
      addedInstructions k modpack (clock + 2) paths

/-- The lines that the diff is to have. -/
def statedLines (k : Kernel) (sys : Sys) (modpack list1 list2 : Text) : List Text :=
  (pathsOnly list1 list2).map ("-umods/".toList ++ ·) ++
    addedInstructions k modpack sys.clock (pathsOnly list2 list1)

/-- No path has a further {lit}`./` in it, but for those whose copy cannot be
looked up. -/
def PlainAdded (k : Kernel) (modpack : Text) : Nat → List Text → Prop
  | _, [] => True
  | clock, path :: paths =>
    ((statListed k (clock + 1) modpack path).isSome = true → ¬ "./".toList <:+: path) ∧
      PlainAdded k modpack (clock + 2) paths

/-! ## One line -/

/-- The files of the diff are the listed paths. -/
theorem onlyIn_eq_map_listed {own other : Text} (hown : ∀ l ∈ pieces '\n' own, ListLine l) :
    onlyIn own other = (pathsOnly own other).map listed := by
  rw [onlyIn, strLines_eq_pieces, pathsOnly]
  generalize pieces '\n' own = ls at hown
  induction ls with
  | nil => rfl
  | cons l ls ih =>
      have ih' := ih fun l' hl' => hown l' (by simp [hl'])
      rcases hown l (by simp) with rfl | ⟨path, rfl⟩
      · simpa using ih'
      · have hnot : listed path ≠ ['.'] := by simp [listed]
        have hempty : (listed path).isEmpty = false := rfl
        by_cases hin : listed path ∈ pieces '\n' other
        · rw [List.filter_cons_of_neg, List.filter_cons_of_neg, ih']
          · simp [hin]
          · simp [strContainsLine_iff, hin]
        · rw [List.filter_cons_of_pos, List.filter_cons_of_pos, ih']
          · rfl
          · simp [hin, hnot]
          · simp [strContainsLine_iff, hin, hnot, hempty]

section Rewriting

variable {rep path : Text}

/-- Which paths the rewriting of the prefix copies. -/
theorem replaceAll_listed_iff (hrep : 2 < rep.length) :
    replaceAll "./".toList rep (listed path) = rep ++ path ↔ ¬ "./".toList <:+: path := by
  constructor
  · intro h
    rw [listed, replaceAll_matched (by decide), List.append_cancel_left_eq] at h
    refine not_infix_of_replaceAll_eq (by decide) (by simpa using hrep.le) ?_ h
    rintro rfl
    simp at hrep
  · exact fun hin => replaceAll_listed hin rep

/-- The other ones come out longer. -/
theorem replaceAll_listed_or (hrep : 2 < rep.length) :
    replaceAll "./".toList rep (listed path) = rep ++ path ∨
      (rep ++ path).length < (replaceAll "./".toList rep (listed path)).length := by
  by_cases hin : "./".toList <:+: path
  · have hlonger : path.length < (replaceAll "./".toList rep path).length :=
      length_lt_length_replaceAll (by decide) (by simpa using hrep) hin
    rw [listed, replaceAll_matched (by decide), List.length_append, List.length_append]
    exact Or.inr (Nat.add_lt_add_left hlonger _)
  · exact Or.inl (replaceAll_listed hin rep)

end Rewriting

/-- The line for an added path is as stated when the path is copied or its copy
cannot be looked up. -/
theorem addedLine_iff (modpack path : Text) (type : Option FileType) :
    addedLine modpack (listed path) type = addedInstruction modpack path type ↔
      (type.isSome = true → ¬ "./".toList <:+: path) := by
  cases type with
  | none => exact iff_of_true rfl (fun h => nomatch h)
  | some type =>
      have hrep : 2 < (addedPrefix type).length := by cases type <;> decide
      rw [addedLine_some]
      refine (replaceAll_listed_iff hrep).trans ⟨fun hplain _ => hplain, fun hplain => ?_⟩
      exact hplain rfl

theorem addedLine_or (modpack path : Text) (type : Option FileType) :
    addedLine modpack (listed path) type = addedInstruction modpack path type ∨
      (addedInstruction modpack path type).length <
        (addedLine modpack (listed path) type).length := by
  cases type with
  | none => exact Or.inl rfl
  | some type =>
      have hrep : 2 < (addedPrefix type).length := by cases type <;> decide
      rw [addedLine_some]
      exact replaceAll_listed_or hrep

/-! ## All the lines -/

theorem removed_iff (paths : List Text) :
    (paths.map listed).map (replaceAll "./".toList "-umods/".toList) =
        paths.map ("-umods/".toList ++ ·) ↔ ∀ path ∈ paths, ¬ "./".toList <:+: path := by
  rw [List.map_map, List.map_inj_left]
  exact forall₂_congr fun path _ => replaceAll_listed_iff (by decide)

section Added

variable {k : Kernel} {modpack : Text}

theorem added_iff (clock : Nat) (paths : List Text) :
    addedTexts k modpack clock (paths.map listed) = addedInstructions k modpack clock paths ↔
      PlainAdded k modpack clock paths := by
  induction paths generalizing clock with
  | nil => exact iff_of_true rfl trivial
  | cons path paths ih =>
      rw [List.map_cons, addedTexts, addedInstructions, List.cons.injEq, ih]
      exact and_congr (addedLine_iff modpack path _) Iff.rfl

/-- The lines for the added paths are as stated or longer. -/
theorem added_or (clock : Nat) (paths : List Text) :
    List.Forall₂ (fun l l' => l = l' ∨ l'.length < l.length)
      (addedTexts k modpack clock (paths.map listed))
      (addedInstructions k modpack clock paths) := by
  induction paths generalizing clock with
  | nil => exact List.Forall₂.nil
  | cons path paths ih =>
      rw [List.map_cons, addedTexts, addedInstructions]
      exact List.Forall₂.cons (addedLine_or modpack path _) (ih (clock + 2))

end Added

theorem removed_or (paths : List Text) :
    List.Forall₂ (fun l l' => l = l' ∨ l'.length < l.length)
      ((paths.map listed).map (replaceAll "./".toList "-umods/".toList))
      (paths.map ("-umods/".toList ++ ·)) := by
  induction paths with
  | nil => exact List.Forall₂.nil
  | cons path paths ih => exact List.Forall₂.cons (replaceAll_listed_or (by decide)) ih

/-- The text of the list diff is the stated one exactly when no removed path and no
added path whose copy can be looked up has a further {lit}`./` in it. -/
theorem listDiff_exact_iff {k : Kernel} {sys : Sys} {modpack list1 list2 : Text}
    (hlist1 : ∀ l ∈ pieces '\n' list1, ListLine l) (hlist2 : ∀ l ∈ pieces '\n' list2, ListLine l) :
    (listDiff k sys modpack list1 list2).1 =
        unpieces '\n' (statedLines k sys modpack list1 list2) ↔
      (∀ path ∈ pathsOnly list1 list2, ¬ "./".toList <:+: path) ∧
        PlainAdded k modpack sys.clock (pathsOnly list2 list1) := by
  have htext : (listDiff k sys modpack list1 list2).1 = unpieces '\n'
      (((pathsOnly list1 list2).map listed).map (replaceAll "./".toList "-umods/".toList) ++
        addedTexts k modpack sys.clock ((pathsOnly list2 list1).map listed)) := by
    rw [listDiff_eq, diffLines, unpieces_append, unpieces_flatMap_textLines, ← unpieces_append,
      onlyIn_eq_map_listed hlist1, onlyIn_eq_map_listed hlist2]
  rw [htext, ← removed_iff, ← added_iff]
  constructor
  · intro h
    have hlines := eq_of_unpieces_eq
      (List.rel_append (removed_or (pathsOnly list1 list2))
        (added_or sys.clock (pathsOnly list2 list1))) h
    exact List.append_inj hlines (by simp)
  · rintro ⟨hremoved, hadded⟩
    rw [hremoved, hadded, statedLines]

/-- One file that went and one that came. -/
theorem listDiff_exact_plain :
    (listDiff (outdated [] [] [] fun _ => some .regular) ⟨0, []⟩ ['m'] ".\n./a\n".toList
      ".\n./b\n".toList).1 = unpieces '\n' (statedLines (outdated [] [] [] fun _ => some .regular)
        ⟨0, []⟩ ['m'] ".\n./a\n".toList ".\n./b\n".toList) := by
  have hlist (c : Char) (hc : c ≠ '\n') :
      ∀ l ∈ pieces '\n' ['.', '\n', '.', '/', c, '\n'], ListLine l := by
    simp [pieces, hc, ListLine, listed]
  refine (listDiff_exact_iff (hlist 'a' (by decide)) (hlist 'b' (by decide))).mpr ⟨?_, ?_, trivial⟩
  · decide
  · exact fun _ => by decide

/-- The text for a removed {lit}`./a./b` names another file. -/
theorem listDiff_exact_fails :
    (listDiff (outdated [] [] [] fun _ => some .regular) ⟨0, []⟩ ['m'] "./a./b\n".toList
        ".\n".toList).1 = "-umods/a-umods/b\n".toList ∧
      unpieces '\n' (statedLines (outdated [] [] [] fun _ => some .regular) ⟨0, []⟩ ['m']
        "./a./b\n".toList ".\n".toList) = "-umods/a./b\n".toList := by
  decide

end Server
end ModpackInstaller
