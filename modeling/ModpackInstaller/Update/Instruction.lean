import Mathlib.Data.List.Basic
import ModpackInstaller.Library.Run
import ModpackInstaller.Text

/-!
# Instruction lines and the merge of a change entry

An instruction line is an operation character followed by a key; the key is a
type character followed by a path.  This file is the abstract side of the
change-log fold of the server: what the fold is meant to do to a list of
lines, without any text surgery.

Main results:

- Theorem {lit}`foldStep_foldLine`: what one fold step can do.  It relabels the
  lines of its key, cancels them, appends one or does nothing.
- Theorem {lit}`foldLine_filter`: lines of other keys stay, in order.
-/

namespace ModpackInstaller
namespace Update

/-! ## Operations and lines -/

/-- The operations of the instruction language. -/
inductive Op where
  | add
  | del
  | upd
deriving DecidableEq, Repr

/-- The operation characters `+`, `-` and `*`. -/
def Op.char : Op → Char
  | .add => '+'
  | .del => '-'
  | .upd => '*'

/-- The operation of a character, if it is one. -/
def Op.ofChar (c : Char) : Option Op :=
  if c = '+' then some .add
  else if c = '-' then some .del
  else if c = '*' then some .upd
  else none

/-- The line for an operation on a key. -/
def Op.line (o : Op) (key : Text) : Text :=
  o.char :: key

/-- An operation is read back from its character. -/
@[simp] theorem Op.ofChar_char (o : Op) : Op.ofChar o.char = some o := by
  cases o <;> rfl

/-- And a character from the operation that was read. -/
theorem Op.char_of_ofChar {c : Char} {o : Op} (h : Op.ofChar c = some o) : o.char = c := by
  unfold Op.ofChar at h
  split at h
  · cases h
    simp_all [Op.char]
  · split at h
    · cases h
      simp_all [Op.char]
    · split at h
      · cases h
        simp_all [Op.char]
      · simp at h

/-- No two operations have the same character. -/
theorem Op.char_injective : Function.Injective Op.char := by
  intro o o' h
  have := congrArg Op.ofChar h
  simpa using this

/-- A line says its operation and its key. -/
@[simp] theorem Op.line_inj {o o' : Op} {k k' : Text} :
    o.line k = o'.line k' ↔ o = o' ∧ k = k' := by
  simp only [Op.line, List.cons.injEq]
  exact and_congr_left fun _ => Op.char_injective.eq_iff

/-- The operation and the key of a line; a line that starts with another
character is no instruction. -/
def parseLine : Text → Option (Op × Text)
  | [] => none
  | c :: key => (Op.ofChar c).map fun o => (o, key)

/-- A line is read back. -/
@[simp] theorem parseLine_line (o : Op) (key : Text) : parseLine (o.line key) = some (o, key) := by
  simp [parseLine, Op.line]

/-- Only the lines of operations are read. -/
theorem parseLine_eq_some {l : Text} {o : Op} {key : Text} :
    parseLine l = some (o, key) ↔ l = o.line key := by
  constructor
  · intro h
    cases l with
    | nil => simp [parseLine] at h
    | cons c k =>
        simp only [parseLine, Option.map_eq_some_iff, Prod.mk.injEq] at h
        obtain ⟨o', ho', rfl, rfl⟩ := h
        rw [Op.line, Op.char_of_ofChar ho']
  · rintro rfl
    exact parseLine_line o key

/-- The key a line is about. -/
def keyOf (l : Text) : Option Text :=
  (parseLine l).map Prod.snd

@[simp] theorem keyOf_line (o : Op) (key : Text) : keyOf (o.line key) = some key := by
  simp [keyOf]

/-- A line has a key if it is the line of some operation with it. -/
theorem keyOf_eq_some {l key : Text} : keyOf l = some key ↔ ∃ o : Op, l = o.line key := by
  simp only [keyOf, Option.map_eq_some_iff, Prod.exists, exists_eq_right]
  exact exists_congr fun o => parseLine_eq_some

/-- What a line says: of which key, and whether it is a deletion. -/
def reading (l : Text) : Option (Text × Bool) :=
  (parseLine l).map fun e => (e.2, decide (e.1 = .del))

@[simp] theorem reading_line (o : Op) (key : Text) :
    reading (o.line key) = some (key, decide (o = .del)) := by
  simp [reading]

/-- The key is the first half of the reading. -/
theorem keyOf_eq_map_reading (l : Text) : keyOf l = (reading l).map Prod.fst := by
  simp [keyOf, reading, Function.comp_def]

/-- The path of a key: what follows the type character. -/
def pathOfKey : Text → Option Text
  | [] => none
  | _ :: path => some path

/-- The path a line names. -/
def pathOf (l : Text) : Option Text :=
  (keyOf l).bind pathOfKey

/-- The path of a line is its key behind the type character. -/
theorem pathOf_eq_some {l path : Text} :
    pathOf l = some path ↔ ∃ (o : Op) (t : Char), l = o.line (t :: path) := by
  constructor
  · intro h
    simp only [pathOf, Option.bind_eq_some_iff] at h
    obtain ⟨key, hkey, hpath⟩ := h
    obtain ⟨o, rfl⟩ := keyOf_eq_some.mp hkey
    cases key with
    | nil => simp [pathOfKey] at hpath
    | cons t p =>
        simp only [pathOfKey, Option.some.injEq] at hpath
        exact ⟨o, t, by rw [hpath]⟩
  · rintro ⟨o, t, rfl⟩
    simp [pathOf, pathOfKey]

/-! ## Merging a change entry -/

/-- A line of the key under this operation becomes an update. -/
def relabel (frm : Op) (key l : Text) : Text :=
  if l = frm.line key then Op.upd.line key else l

/-- The lines without the installations of a key. -/
def cancel (key : Text) (lines : List Text) : List Text :=
  (lines.filter (· ≠ Op.add.line key)).filter (· ≠ Op.upd.line key)

/-- What one change entry does to the list of lines. -/
def foldLine (lines : List Text) (o : Op) (key : Text) : List Text :=
  match o with
  | .add =>
    if Op.del.line key ∈ lines then lines.map (relabel .del key)
    else if Op.add.line key ∉ lines ∧ Op.upd.line key ∉ lines then lines ++ [Op.add.line key]
    else lines
  | .del =>
    if Op.add.line key ∈ lines ∨ Op.upd.line key ∈ lines then cancel key lines
    else if Op.del.line key ∉ lines then lines ++ [Op.del.line key]
    else lines
  | .upd =>
    if Op.del.line key ∈ lines then lines.map (relabel .del key)
    else if Op.add.line key ∈ lines then lines.map (relabel .add key)
    else if Op.upd.line key ∉ lines then lines ++ [Op.upd.line key]
    else lines

/-- One change line: entries fold, anything else is skipped. -/
def foldEntry (lines : List Text) (entry : Text) : List Text :=
  match parseLine entry with
  | none => lines
  | some (o, key) => foldLine lines o key

@[simp] theorem foldEntry_line (lines : List Text) (o : Op) (key : Text) :
    foldEntry lines (o.line key) = foldLine lines o key := by
  simp [foldEntry]

/-- A line that is not read changes nothing. -/
theorem foldEntry_of_parseLine_none {lines : List Text} {entry : Text}
    (h : parseLine entry = none) : foldEntry lines entry = lines := by
  rw [foldEntry, h]

/-- A cancel takes away the additions and updates of its key. -/
@[simp] theorem mem_cancel {key l : Text} {lines : List Text} :
    l ∈ cancel key lines ↔ l ∈ lines ∧ l ≠ Op.add.line key ∧ l ≠ Op.upd.line key := by
  simp only [cancel, List.mem_filter, decide_not, Bool.not_eq_true', decide_eq_false_iff_not,
    and_assoc]

/-- The four things a fold step can do. -/
inductive FoldStep (lines : List Text) (o : Op) (key : Text) : List Text → Prop where
  /-- An installation meets a deletion, or an update meets an addition. -/
  | relabel (frm : Op) (install : o ≠ .del) (present : frm.line key ∈ lines)
      (clean : frm = .del ∨ Op.del.line key ∉ lines) :
      FoldStep lines o key (lines.map (relabel frm key))
  /-- A deletion meets an installation. -/
  | cancel (delete : o = .del) (present : Op.add.line key ∈ lines ∨ Op.upd.line key ∈ lines) :
      FoldStep lines o key (cancel key lines)
  /-- No line has the key yet. -/
  | append (fresh : ∀ o' : Op, o'.line key ∉ lines) :
      FoldStep lines o key (lines ++ [o.line key])
  /-- The lines already say it. -/
  | keep (install : o ≠ .del →
        (Op.add.line key ∈ lines ∨ Op.upd.line key ∈ lines) ∧ Op.del.line key ∉ lines)
      (delete : o = .del → Op.del.line key ∈ lines ∧ Op.add.line key ∉ lines ∧
        Op.upd.line key ∉ lines) :
      FoldStep lines o key lines

/-- What one fold step can do. -/
theorem foldStep_foldLine (lines : List Text) (o : Op) (key : Text) :
    FoldStep lines o key (foldLine lines o key) := by
  have hfresh : Op.add.line key ∉ lines → Op.del.line key ∉ lines → Op.upd.line key ∉ lines →
      ∀ o' : Op, o'.line key ∉ lines := by
    intro hadd hdel hupd o'
    cases o' <;> assumption
  cases o with
  | add =>
      rw [foldLine]
      split
      · rename_i hdel
        exact .relabel .del (by decide) hdel (Or.inl rfl)
      · rename_i hdel
        split
        · rename_i hnew
          exact .append (hfresh hnew.1 hdel hnew.2)
        · rename_i hold
          exact .keep (fun _ => ⟨by tauto, hdel⟩) (fun h => absurd h (by decide))
  | del =>
      rw [foldLine]
      split
      · rename_i hpresent
        exact .cancel rfl hpresent
      · rename_i habsent
        push Not at habsent
        split
        · rename_i hdel
          exact .append (hfresh habsent.1 hdel habsent.2)
        · rename_i hdel
          exact .keep (fun h => absurd rfl h) (fun _ => ⟨not_not.mp hdel, habsent⟩)
  | upd =>
      rw [foldLine]
      split
      · rename_i hdel
        exact .relabel .del (by decide) hdel (Or.inl rfl)
      · rename_i hdel
        split
        · rename_i hadd
          exact .relabel .add (by decide) hadd (Or.inr hdel)
        · rename_i hadd
          split
          · rename_i hupd
            exact .append (hfresh hadd hdel hupd)
          · rename_i hupd
            exact .keep (fun _ => ⟨Or.inr (not_not.mp hupd), hdel⟩)
              (fun h => absurd h (by decide))

/-! ## The lines of other keys -/

section Frame

variable {lines : List Text} {o : Op} {key : Text}

private theorem filter_relabel {frm : Op} {p : Text → Bool}
    (hp : ∀ o : Op, p (o.line key) = false) :
    (lines.map (relabel frm key)).filter p = lines.filter p := by
  induction lines with
  | nil => rfl
  | cons l ls ih =>
      by_cases hhit : l = frm.line key
      · simp [relabel, hhit, hp, ih]
      · simp [relabel, hhit, List.filter_cons, ih]

private theorem filter_cancel {p : Text → Bool} (hp : ∀ o : Op, p (o.line key) = false) :
    (cancel key lines).filter p = lines.filter p := by
  rw [cancel, List.filter_filter, List.filter_filter]
  refine List.filter_congr fun l _ => ?_
  by_cases hadd : l = Op.add.line key
  · simp [hadd, hp]
  · by_cases hupd : l = Op.upd.line key
    · simp [hupd, hp]
    · simp [hadd, hupd]

/-- A fold step keeps every line that is not about its key, in order. -/
theorem foldLine_filter {p : Text → Bool} (hp : ∀ o : Op, p (o.line key) = false) :
    (foldLine lines o key).filter p = lines.filter p := by
  have hstep := foldStep_foldLine lines o key
  generalize foldLine lines o key = result at hstep ⊢
  cases hstep with
  | relabel frm => exact filter_relabel hp
  | cancel => exact filter_cancel hp
  | append => simp [List.filter_append, hp]
  | keep => rfl

/-- A line of the changes leaves the lines of other keys alone. -/
theorem mem_foldLine_of_keyOf_ne {l : Text} (h : keyOf l ≠ some key) :
    l ∈ foldLine lines o key ↔ l ∈ lines := by
  have hfilter : (foldLine lines o key).filter (keyOf · ≠ some key) =
      lines.filter (keyOf · ≠ some key) := foldLine_filter fun o => by simp
  have hmem := congrArg (l ∈ ·) hfilter
  simpa [List.mem_filter, h] using hmem

end Frame

end Update
end ModpackInstaller
