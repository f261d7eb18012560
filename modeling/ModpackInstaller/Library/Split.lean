import Mathlib.Data.List.DropRight
import ModpackInstaller.Library.Lines

/-!
# Splitting without empty texts at the end

A text without the separator is kept whole, and from the fields of any other one those
at the end that are empty are taken away.  This is how a string is split in Java.

Main results:

- Theorem {lit}`splitTrim_of_mem`: the fields beside those of the library's split.
- Theorem {lit}`splitTrim_cons_cons`: the first fields of a text with the separator.
- Theorem {lit}`splitTrim_intercalate`: joined fields are split again.
- Theorem {lit}`filter_splitTrim`: the fields that are not empty are those of the
  library's split.
-/

namespace ModpackInstaller
namespace Library

variable {α : Type*}

/-! ## Dropping at the end -/

section Dropping

variable (p : α → Bool)

/-- What is dropped at the end may reach the first element. -/
theorem rdropWhile_cons (x : α) (xs : List α) :
    (x :: xs).rdropWhile p =
      if xs.all p then (if p x then [] else [x]) else x :: xs.rdropWhile p := by
  induction xs using List.reverseRecOn with
  | nil => simp [List.rdropWhile_singleton]
  | append_singleton xs y ih =>
      rw [← List.cons_append]
      by_cases hy : p y = true
      · rw [List.rdropWhile_concat_pos p _ y hy, List.rdropWhile_concat_pos p _ y hy, ih]
        simp [hy]
      · rw [List.rdropWhile_concat_neg p _ y hy, List.rdropWhile_concat_neg p _ y hy]
        simp [hy]

/-- Nothing is dropped beyond an element that is not to be dropped. -/
theorem rdropWhile_append_cons {x : α} (hx : p x = false) (xs ys : List α) :
    (xs ++ x :: ys).rdropWhile p = xs ++ x :: ys.rdropWhile p := by
  induction ys using List.reverseRecOn with
  | nil =>
      rw [List.rdropWhile_concat_neg p xs x (by simp [hx])]
      simp
  | append_singleton ys y ih =>
      rw [← List.cons_append, ← List.append_assoc]
      by_cases hy : p y = true
      · rw [List.rdropWhile_concat_pos p _ y hy, List.rdropWhile_concat_pos p _ y hy, ih]
      · rw [List.rdropWhile_concat_neg p _ y hy, List.rdropWhile_concat_neg p _ y hy]
        simp

/-- Nothing is lost but what may be dropped. -/
theorem filter_rdropWhile (xs : List α) :
    (xs.rdropWhile p).filter (fun x => !p x) = xs.filter fun x => !p x := by
  induction xs using List.reverseRecOn with
  | nil => simp
  | append_singleton xs y ih =>
      by_cases hy : p y = true
      · rw [List.rdropWhile_concat_pos p _ y hy, ih]
        simp [hy]
      · rw [List.rdropWhile_concat_neg p _ y hy]

end Dropping

/-! ## Fields -/

variable [DecidableEq α]

/-- The fields of a text between separators, without those at the end that are empty. -/
def splitTrim (sep : α) (s : List α) : List (List α) :=
  if sep ∈ s then (pieces sep s).rdropWhile List.isEmpty else [s]

theorem splitTrim_of_not_mem {sep : α} {s : List α} (h : sep ∉ s) : splitTrim sep s = [s] :=
  if_neg h

/-- With the separator the fields are those of the library's split, up to the end. -/
theorem splitTrim_of_mem {sep : α} {s : List α} (h : sep ∈ s) :
    splitTrim sep s = (s.splitOn sep).rdropWhile List.isEmpty := by
  rw [splitTrim, if_pos h, pieces_eq_splitOn]
  split
  · rename_i hlast
    obtain ⟨init, hinit⟩ := List.getLast?_eq_some_iff.mp hlast
    rw [hinit, List.dropLast_concat, List.rdropWhile_concat_pos _ _ _ rfl]
  · rfl

/-- A text is split in several fields when the separator is in it. -/
theorem mem_of_splitOn {sep : α} {s f g : List α} {more : List (List α)}
    (h : s.splitOn sep = f :: g :: more) : sep ∈ s := by
  by_contra hmem
  rw [List.splitOn_eq_singleton hmem] at h
  cases h

/-- The fields of a text with the separator. -/
theorem splitTrim_cons_cons {sep : α} {s f g : List α} {more : List (List α)}
    (h : s.splitOn sep = f :: g :: more) :
    splitTrim sep s =
      if ∀ e ∈ g :: more, e = [] then (if f = [] then [] else [f])
      else f :: (g :: more).rdropWhile List.isEmpty := by
  rw [splitTrim_of_mem (mem_of_splitOn h), h, rdropWhile_cons]
  by_cases hempty : ∀ e ∈ g :: more, e = []
  · have hall : (g :: more).all List.isEmpty = true := by simpa using hempty
    rw [if_pos hempty, if_pos hall]
    simp only [List.isEmpty_iff]
  · have hall : ¬ (g :: more).all List.isEmpty = true := by simpa using hempty
    rw [if_neg hempty, if_neg hall]

/-- Joined fields of which the last is not empty are split again. -/
theorem splitTrim_intercalate {sep : α} {f g : List α} {more : List (List α)}
    (hfree : ∀ e ∈ f :: g :: more, sep ∉ e) (hlast : (g :: more).getLast (by simp) ≠ []) :
    splitTrim sep ([sep].intercalate (f :: g :: more)) = f :: g :: more := by
  have hsplit := List.splitOn_intercalate sep hfree (by simp)
  rw [splitTrim_of_mem (mem_of_splitOn hsplit), hsplit, List.rdropWhile_eq_self_iff]
  intro _
  simpa using hlast

/-- The fields that are not empty. -/
theorem filter_splitTrim (sep : α) (s : List α) :
    (splitTrim sep s).filter (fun f => !f.isEmpty) =
      (s.splitOn sep).filter fun f => !f.isEmpty := by
  by_cases hmem : sep ∈ s
  · rw [splitTrim_of_mem hmem, filter_rdropWhile]
  · rw [splitTrim_of_not_mem hmem, List.splitOn_eq_singleton hmem]

end Library
end ModpackInstaller
