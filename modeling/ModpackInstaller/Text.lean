import Mathlib.Data.List.TakeWhile
import ModpackInstaller.Library.Replace

/-!
# Texts

The server handles strings of bytes and the installer strings of characters.
Both are lists of characters here: a byte is the character with its code, and
the decoding of the data and control streams is the identity.

Main results:

- Definition {lit}`cstr`: what a C function sees of a buffer handed over as a
  plain {lit}`char` pointer.
- Theorem {lit}`cstr_eq_self_iff`: exactly the texts without NUL are passed
  whole.
-/

namespace ModpackInstaller

/-- A string of bytes or of characters. -/
abbrev Text := List Char

/-- Equality tests of texts are lawful, under one name for all of them. -/
instance lawfulBEqText : LawfulBEq Text :=
  inferInstanceAs (LawfulBEq (List Char))

/-- The character {lit}`'\0'`. -/
def nul : Char := Char.ofNat 0

/-- The part of a buffer that a C string function reads: up to the first NUL. -/
def cstr (s : Text) : Text :=
  s.takeWhile (· ≠ nul)

theorem not_mem_cstr (s : Text) : nul ∉ cstr s := by
  intro h
  simpa using List.mem_takeWhile_imp h

/-- Exactly the texts without NUL are passed whole. -/
theorem cstr_eq_self_iff (s : Text) : cstr s = s ↔ nul ∉ s := by
  constructor
  · intro h
    rw [← h]
    exact not_mem_cstr s
  · intro h
    refine List.takeWhile_eq_self_iff.mpr fun c hc => ?_
    have hne : c ≠ nul := fun heq => h (heq ▸ hc)
    simpa using hne

end ModpackInstaller
