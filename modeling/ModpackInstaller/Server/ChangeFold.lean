import ModpackInstaller.Server.McUpdate
import ModpackInstaller.Update.Instruction

/-!
# The change-log fold as an operation on lines

{lit}`applyChange` finds the line of a change entry by comparing whole lines,
but rewrites it with a text replacement over the whole buffer, which also hits
the same characters inside other lines.  {lit}`Spared` says that a step does
this to no other line's key and to no deletion.  Then the lines that it leaves
read like those of the line operation {lit}`Update.foldLine`.

Main results:

- Theorem {lit}`applyChange_unpieces`: a step that spares the other lines is an
  operation on the lines, {lit}`rewriteLine`.
- Theorem {lit}`map_reading_rewriteEntry`: a step that spares the other lines
  leaves lines that read like those of {lit}`Update.foldEntry`.
- Theorem {lit}`applyChanges_unpieces`: a log whose steps all spare the other
  lines is the fold of {lit}`rewriteEntry`.
-/

namespace ModpackInstaller
namespace Server

open Library Update

/-! ## Steps on the lines -/

/-- What the rewriting of an operation on a key does to a line: every occurrence
becomes an update. -/
def swap (frm : Op) (key l : Text) : Text :=
  replaceAll (cstr (frm.line key)) (cstr (Op.upd.line key)) l

/-- What a change entry does to the lines of the buffer. -/
def rewriteLine (lines : List Text) (o : Op) (key : Text) : List Text :=
  match o with
  | .add =>
    if Op.del.line key ∈ lines then lines.map (swap .del key)
    else if Op.add.line key ∉ lines ∧ Op.upd.line key ∉ lines then lines ++ [Op.add.line key]
    else lines
  | .del =>
    if Op.add.line key ∈ lines ∨ Op.upd.line key ∈ lines then cancel key lines
    else if Op.del.line key ∉ lines then lines ++ [Op.del.line key]
    else lines
  | .upd =>
    if Op.del.line key ∈ lines then lines.map (swap .del key)
    else if Op.add.line key ∈ lines then lines.map (swap .add key)
    else if Op.upd.line key ∉ lines then lines ++ [Op.upd.line key]
    else lines

/-- One change line: entries rewrite, anything else is skipped. -/
def rewriteEntry (lines : List Text) (entry : Text) : List Text :=
  match parseLine entry with
  | none => lines
  | some (o, key) => rewriteLine lines o key

/-! ## Steps that spare the other lines -/

/-- The text for this operation on the key occurs in the lines only as a whole
line, and no NUL cuts it short. -/
def OnlyWhole (lines : List Text) (o : Op) (key : Text) : Prop :=
  nul ∉ key ∧ ∀ l ∈ lines, o.line key <:+: l → l = o.line key

/-- The same for a replacement that takes the end of the line with it. -/
def OnlyWholeAtEnd (lines : List Text) (o : Op) (key : Text) : Prop :=
  nul ∉ key ∧ ∀ l ∈ lines, o.line key <:+ l → l = o.line key

/-- The rewriting turns the lines of the operation on the key into updates and changes
neither the key of another line nor whether it deletes. -/
def SwapSpares (lines : List Text) (frm : Op) (key : Text) : Prop :=
  ∀ l ∈ lines, reading (swap frm key l) = reading (relabel frm key l)

/-- If the step for this entry rewrites the buffer, it does no more to the other lines
than to turn an installation into an update. -/
def Spared (lines : List Text) (o : Op) (key : Text) : Prop :=
  match o with
  | .add => Op.del.line key ∈ lines → SwapSpares lines .del key
  | .del =>
    Op.add.line key ∈ lines ∨ Op.upd.line key ∈ lines →
      OnlyWholeAtEnd lines .add key ∧ OnlyWholeAtEnd lines .upd key
  | .upd =>
    (Op.del.line key ∈ lines → SwapSpares lines .del key) ∧
      (Op.del.line key ∉ lines → Op.add.line key ∈ lines → SwapSpares lines .add key)

instance (lines : List Text) (o : Op) (key : Text) : Decidable (OnlyWhole lines o key) :=
  inferInstanceAs (Decidable (_ ∧ _))

instance (lines : List Text) (o : Op) (key : Text) : Decidable (OnlyWholeAtEnd lines o key) :=
  inferInstanceAs (Decidable (_ ∧ _))

instance (lines : List Text) (frm : Op) (key : Text) : Decidable (SwapSpares lines frm key) :=
  inferInstanceAs (Decidable (∀ l ∈ lines, _ = _))

instance (lines : List Text) (o : Op) (key : Text) : Decidable (Spared lines o key) :=
  match o with
  | .add => inferInstanceAs (Decidable (_ → _))
  | .del => inferInstanceAs (Decidable (_ → _))
  | .upd => inferInstanceAs (Decidable (_ ∧ _))

/-- A change line spares the other lines when it is no entry or one that does. -/
def SparedEntry (lines : List Text) (entry : Text) : Prop :=
  ∀ e ∈ parseLine entry, Spared lines e.1 e.2

instance (lines : List Text) (entry : Text) : Decidable (SparedEntry lines entry) :=
  match h : parseLine entry with
  | none => .isTrue (by simp [SparedEntry, h])
  | some e => decidable_of_iff (Spared lines e.1 e.2) (by simp [SparedEntry, h])

/-- Every step of a log spares the other lines that it meets. -/
abbrev SparedRun : List Text → List Text → Prop :=
  MeetsAlong rewriteEntry SparedEntry

/-! ## One step -/

section Step

variable {lines : List Text} {key : Text}

theorem newline_not_mem_line {o : Op} (hkey : '\n' ∉ key) : '\n' ∉ o.line key := by
  cases o <;> simpa [Op.line, Op.char] using hkey

theorem cstr_line {o : Op} (hnul : nul ∉ key) : cstr (o.line key) = o.line key := by
  rw [cstr_eq_self_iff]
  cases o <;> simpa [Op.line, Op.char, nul] using hnul

theorem cstr_line_newline {o : Op} (hnul : nul ∉ key) :
    cstr (o.line key ++ ['\n']) = o.line key ++ ['\n'] := by
  rw [cstr_eq_self_iff]
  cases o <;> simpa [Op.line, Op.char, nul] using hnul

theorem cstr_line_ne_nil (o : Op) (key : Text) : cstr (o.line key) ≠ [] := by
  cases o <;> simp [cstr, Op.line, Op.char, nul]

theorem newline_not_mem_cstr_line {o : Op} (hkey : '\n' ∉ key) : '\n' ∉ cstr (o.line key) :=
  fun h => newline_not_mem_line hkey ((List.takeWhile_sublist _).subset h)

/-- Rewriting an operation character in place. -/
private theorem strReplaceText_swap (frm : Op) (hkey : '\n' ∉ key) :
    strReplaceText (unpieces '\n' lines) (cstr (frm.line key)) (cstr (Op.upd.line key)) =
      unpieces '\n' (lines.map (swap frm key)) := by
  rw [strReplaceText_eq_replaceAll (cstr_line_ne_nil frm key),
    replaceAll_unpieces (cstr_line_ne_nil frm key) (newline_not_mem_cstr_line hkey)]
  rfl

/-- Deleting an operation line with its newline. -/
private theorem strReplaceText_remove {o : Op} (hlines : ∀ l ∈ lines, '\n' ∉ l)
    (hkey : '\n' ∉ key) (hwhole : OnlyWholeAtEnd lines o key) :
    strReplaceText (unpieces '\n' lines) (cstr (o.line key ++ ['\n'])) [] =
      unpieces '\n' (lines.filter (· ≠ o.line key)) := by
  obtain ⟨hnul, honly⟩ := hwhole
  rw [cstr_line_newline hnul, strReplaceText_eq_replaceAll (by simp)]
  exact replaceAll_terminated_unpieces (newline_not_mem_line hkey) hlines honly

private theorem unpieces_append_line (l : Text) :
    unpieces '\n' lines ++ (l ++ ['\n']) = unpieces '\n' (lines ++ [l]) := by
  simp

section Equations

variable (t key : Text)

/-- A line `+` turns a deletion into an update, or is written behind the text. -/
theorem applyChange_add :
    applyChange t (Op.add.line key) =
      if Op.del.line key ∈ pieces '\n' t then
        strReplaceText t (cstr (Op.del.line key)) (cstr (Op.upd.line key))
      else if Op.add.line key ∉ pieces '\n' t ∧ Op.upd.line key ∉ pieces '\n' t then
        t ++ (Op.add.line key ++ ['\n'])
      else t := by
  change (if strContainsLine _ (Op.del.line key) = true then _
    else if (!strContainsLine _ (Op.add.line key) &&
        !strContainsLine _ (Op.upd.line key)) = true then _ ++ (Op.add.line key ++ ['\n'])
    else _) = _
  simp only [strContainsLine_iff, Bool.and_eq_true, Bool.not_eq_true', ← Bool.not_eq_true]
  rfl

/-- A line `-` removes installations and updates, or is written behind the text. -/
theorem applyChange_del :
    applyChange t (Op.del.line key) =
      if Op.add.line key ∈ pieces '\n' t ∨ Op.upd.line key ∈ pieces '\n' t then
        strReplaceText (strReplaceText t (cstr (Op.add.line key ++ ['\n'])) [])
          (cstr (Op.upd.line key ++ ['\n'])) []
      else if Op.del.line key ∉ pieces '\n' t then t ++ (Op.del.line key ++ ['\n'])
      else t := by
  change (if (strContainsLine _ (Op.add.line key) ||
        strContainsLine _ (Op.upd.line key)) = true then _
    else if (!strContainsLine _ (Op.del.line key)) = true then _ ++ (Op.del.line key ++ ['\n'])
    else _) = _
  simp only [strContainsLine_iff, Bool.or_eq_true, Bool.not_eq_true', ← Bool.not_eq_true]
  rfl

/-- A line `*` turns a deletion or an installation into an update, or is written
behind the text. -/
theorem applyChange_upd :
    applyChange t (Op.upd.line key) =
      if Op.del.line key ∈ pieces '\n' t then
        strReplaceText t (cstr (Op.del.line key)) (cstr (Op.upd.line key))
      else if Op.add.line key ∈ pieces '\n' t then
        strReplaceText t (cstr (Op.add.line key)) (cstr (Op.upd.line key))
      else if Op.upd.line key ∉ pieces '\n' t then t ++ (Op.upd.line key ++ ['\n'])
      else t := by
  change (if strContainsLine _ (Op.del.line key) = true then _
    else if strContainsLine _ (Op.add.line key) = true then _
    else if (!strContainsLine _ (Op.upd.line key)) = true then _ ++ (Op.upd.line key ++ ['\n'])
    else _) = _
  simp only [strContainsLine_iff, Bool.not_eq_true', ← Bool.not_eq_true]
  rfl

end Equations

/-- A step that spares the other lines is an operation on the lines. -/
theorem applyChange_unpieces {o : Op} (hlines : ∀ l ∈ lines, '\n' ∉ l) (hkey : '\n' ∉ key)
    (hspared : Spared lines o key) :
    applyChange (unpieces '\n' lines) (o.line key) = unpieces '\n' (rewriteLine lines o key) := by
  cases o with
  | add =>
      rw [applyChange_add, pieces_unpieces hlines, rewriteLine]
      split
      · exact strReplaceText_swap .del hkey
      · split
        · exact unpieces_append_line _
        · rfl
  | del =>
      rw [applyChange_del, pieces_unpieces hlines, rewriteLine]
      split
      · rename_i hpresent
        obtain ⟨hadd, hupd⟩ := hspared hpresent
        rw [strReplaceText_remove hlines hkey hadd]
        refine strReplaceText_remove (fun l hl => hlines l (List.mem_of_mem_filter hl)) hkey ?_
        exact ⟨hupd.1, fun l hl => hupd.2 l (List.mem_of_mem_filter hl)⟩
      · split
        · exact unpieces_append_line _
        · rfl
  | upd =>
      rw [applyChange_upd, pieces_unpieces hlines, rewriteLine]
      split
      · exact strReplaceText_swap .del hkey
      · split
        · exact strReplaceText_swap .add hkey
        · split
          · exact unpieces_append_line _
          · rfl

/-- A change line that is no entry leaves the buffer alone. -/
theorem applyChange_of_parseLine_none {instr entry : Text} (h : parseLine entry = none) :
    applyChange instr entry = instr := by
  cases entry with
  | nil => rfl
  | cons c file2 =>
      simp only [applyChange]
      split
      · simp [parseLine, Op.ofChar] at h
      · simp [parseLine, Op.ofChar] at h
      · simp [parseLine, Op.ofChar] at h
      · rfl

/-- One line of a log, entry or not. -/
theorem applyChange_entry {entry : Text} (hlines : ∀ l ∈ lines, '\n' ∉ l)
    (hentry : '\n' ∉ entry) (hspared : SparedEntry lines entry) :
    applyChange (unpieces '\n' lines) entry = unpieces '\n' (rewriteEntry lines entry) := by
  cases hparse : parseLine entry with
  | none => rw [applyChange_of_parseLine_none hparse, rewriteEntry, hparse]
  | some e =>
      obtain ⟨o, key⟩ := e
      have hline := parseLine_eq_some.mp hparse
      have hkey : '\n' ∉ key := fun h => hentry (by rw [hline, Op.line]; simp [h])
      have hthis : Spared lines o key := hspared (o, key) (by rw [hparse]; rfl)
      rw [rewriteEntry, hparse, hline]
      exact applyChange_unpieces hlines hkey hthis

/-- The rewriting of a step that spares the other lines reads like a relabelling. -/
private theorem map_reading_swap {frm : Op} (h : SwapSpares lines frm key) :
    (lines.map (swap frm key)).map reading = (lines.map (relabel frm key)).map reading := by
  rw [List.map_map, List.map_map]
  exact List.map_congr_left h

/-- A step that spares the other lines leaves lines that read like those of the line-wise
merge. -/
theorem map_reading_rewriteEntry {entry : Text} (h : SparedEntry lines entry) :
    (rewriteEntry lines entry).map reading = (foldEntry lines entry).map reading := by
  cases hparse : parseLine entry with
  | none => rw [rewriteEntry, foldEntry, hparse]
  | some e =>
      obtain ⟨o, key⟩ := e
      have hthis : Spared lines o key := h (o, key) (by rw [hparse]; rfl)
      simp only [rewriteEntry, foldEntry, hparse]
      cases o with
      | add =>
          rw [rewriteLine, foldLine]
          split
          · rename_i hdel
            exact map_reading_swap (hthis hdel)
          · rfl
      | del => rfl
      | upd =>
          rw [rewriteLine, foldLine]
          split
          · rename_i hdel
            exact map_reading_swap (hthis.1 hdel)
          · split
            · rename_i hdel hadd
              exact map_reading_swap (hthis.2 hdel hadd)
            · rfl

end Step

/-! ## A whole log -/

/-- A step puts no newline into a line. -/
theorem newline_not_mem_rewriteEntry {lines : List Text} {entry : Text}
    (hlines : ∀ l ∈ lines, '\n' ∉ l) (hentry : '\n' ∉ entry) :
    ∀ l ∈ rewriteEntry lines entry, '\n' ∉ l := by
  cases hparse : parseLine entry with
  | none =>
      rw [rewriteEntry, hparse]
      exact hlines
  | some e =>
      obtain ⟨o, key⟩ := e
      have hline := parseLine_eq_some.mp hparse
      have hkey : '\n' ∉ key := fun h => hentry (by rw [hline, Op.line]; simp [h])
      have hswap : ∀ frm : Op, ∀ l ∈ lines.map (swap frm key), '\n' ∉ l := by
        intro frm l hl hmem
        obtain ⟨l', hl', rfl⟩ := List.mem_map.mp hl
        rcases mem_replaceAll hmem with h | h
        · exact hlines l' hl' h
        · exact newline_not_mem_cstr_line hkey h
      have happend : ∀ o' : Op, ∀ l ∈ lines ++ [o'.line key], '\n' ∉ l := by
        intro o' l hl
        rcases List.mem_append.mp hl with hl | hl
        · exact hlines l hl
        · rw [List.mem_singleton.mp hl]
          exact newline_not_mem_line hkey
      simp only [rewriteEntry, hparse]
      cases o with
      | add =>
          rw [rewriteLine]
          split
          · exact hswap .del
          · split
            · exact happend .add
            · exact hlines
      | del =>
          rw [rewriteLine]
          split
          · exact fun l hl => hlines l (mem_cancel.mp hl).1
          · split
            · exact happend .del
            · exact hlines
      | upd =>
          rw [rewriteLine]
          split
          · exact hswap .del
          · split
            · exact hswap .add
            · split
              · exact happend .upd
              · exact hlines

/-- A log whose steps all spare the other lines is worked into the lines. -/
theorem applyChanges_unpieces {lines log : List Text} (hlines : ∀ l ∈ lines, '\n' ∉ l)
    (hlog : ∀ l ∈ log, '\n' ∉ l) (hspared : SparedRun lines log) :
    applyChanges (unpieces '\n' lines) log = unpieces '\n' (log.foldl rewriteEntry lines) ∧
      ∀ l ∈ log.foldl rewriteEntry lines, '\n' ∉ l := by
  induction log generalizing lines with
  | nil => exact ⟨rfl, hlines⟩
  | cons entry log ih =>
      have hentry : '\n' ∉ entry := hlog entry (by simp)
      have hstep := applyChange_entry hlines hentry hspared.1
      have hrest := ih (newline_not_mem_rewriteEntry hlines hentry)
        (fun l hl => hlog l (by simp [hl])) hspared.2
      rw [applyChanges, List.foldl_cons, ← applyChanges, hstep]
      exact hrest

end Server
end ModpackInstaller
