import ModpackInstaller.Text

/-!
# The string buffers of the server

The functions of {lit}`str.c` that the update planner and the reply writer
use.  A {lit}`struct mystr` is its text: allocation sizes and the limit of the
allocator are left out.

Main results:

- Theorem {lit}`strLines_eq_pieces`: reading a buffer with
  {lit}`strGetline` from position 0 yields its newline-separated pieces, and
  never runs into the range check.
- Theorem {lit}`strReplaceText_eq_replaceAll`: {lit}`strReplaceText` replaces
  every occurrence from left to right.
-/

namespace ModpackInstaller
namespace Server

open Library

/-! ## Reading lines -/

/-- What one call of {lit}`str_getline` does. -/
inductive LineRead where
  /-- `bug("p_pos out of range in str_getline")` -/
  | outOfRange
  /-- Returns 0; the output line is emptied and the position kept. -/
  | atEnd
  /-- Returns 1 with a line and the position behind it. -/
  | line (text : Text) (pos : Nat)
deriving DecidableEq, Repr

/-- `str_getline` -/
def strGetline (s : Text) (pos : Nat) : LineRead :=
  if s.length < pos then .outOfRange
  else if pos = s.length then .atEnd
  else
    let out := (s.drop pos).takeWhile (· ≠ '\n')
    let curr := pos + out.length
    .line out (if curr < s.length then curr + 1 else curr)

/-- The lines that repeated calls hand out, for at most `fuel` calls. -/
def strGetlines (s : Text) : Nat → Nat → List Text
  | 0, _ => []
  | fuel + 1, pos =>
    match strGetline s pos with
    | .line text next => text :: strGetlines s fuel next
    | _ => []

/-- The lines a loop over {lit}`str_getline` from position 0 goes through.
Every call advances the position, so `s.length` calls reach the end. -/
def strLines (s : Text) : List Text :=
  strGetlines s s.length 0

/-- `str_contains_line` -/
def strContainsLine (s line : Text) : Bool :=
  (strLines s).any (· == line)

private theorem pieces_eq_takeWhile {c : Char} {s : Text} :
    pieces '\n' (c :: s) =
      (c :: s).takeWhile (· ≠ '\n') ::
        pieces '\n' ((c :: s).drop (((c :: s).takeWhile (· ≠ '\n')).length + 1)) := by
  induction s generalizing c with
  | nil => by_cases hc : c = '\n' <;> simp [pieces, hc]
  | cons d s ih =>
      by_cases hc : c = '\n'
      · simp [pieces, hc]
      · rw [pieces, if_neg hc, ih (c := d)]
        simp [hc]

/-- One call inside the buffer returns its next piece and a later position. -/
theorem strGetline_of_lt {s : Text} {pos : Nat} (h : pos < s.length) :
    ∃ text next, strGetline s pos = .line text next ∧ pos < next ∧ next ≤ s.length ∧
      pieces '\n' (s.drop pos) = text :: pieces '\n' (s.drop next) := by
  obtain ⟨c, rest, hdrop⟩ : ∃ c rest, s.drop pos = c :: rest := by
    cases hd : s.drop pos with
    | nil =>
        have := List.drop_eq_nil_iff.mp hd
        omega
    | cons c rest => exact ⟨c, rest, rfl⟩
  have hlen : (c :: rest).length = s.length - pos := by
    rw [← hdrop, List.length_drop]
  have htake := (List.takeWhile_prefix (· ≠ '\n') (l := c :: rest)).length_le
  have hdropAdd : ∀ n, (c :: rest).drop n = s.drop (pos + n) := by
    intro n
    rw [← hdrop, List.drop_drop]
  refine ⟨_, _, by
    rw [strGetline, if_neg (by omega), if_neg (by omega), hdrop], ?_, ?_, ?_⟩
  · split
    · omega
    · simp only [List.length_cons] at hlen
      omega
  · split <;> omega
  · rw [hdrop, pieces_eq_takeWhile, hdropAdd]
    split
    · rw [Nat.add_assoc]
    · -- The last line has no terminator: nothing is left behind it.
      rw [List.drop_eq_nil_of_le (by omega), List.drop_eq_nil_of_le (by omega)]

theorem strGetlines_eq_pieces {s : Text} {fuel pos : Nat} (hpos : pos ≤ s.length)
    (hfuel : s.length ≤ fuel + pos) : strGetlines s fuel pos = pieces '\n' (s.drop pos) := by
  induction fuel generalizing pos with
  | zero =>
      rw [strGetlines, List.drop_eq_nil_of_le (by omega), pieces_nil]
  | succ fuel ih =>
      rcases Nat.lt_or_eq_of_le hpos with hlt | heq
      · obtain ⟨text, next, hcall, hnext, hle, hpieces⟩ := strGetline_of_lt hlt
        rw [strGetlines, hcall, hpieces, ← ih hle (by omega)]
      · have hcall : strGetline s pos = .atEnd := by
          rw [strGetline, if_neg (by omega), if_pos heq]
        rw [strGetlines, hcall, List.drop_eq_nil_of_le (by omega), pieces_nil]

/-- The lines of a buffer are its pieces between newlines. -/
theorem strLines_eq_pieces (s : Text) : strLines s = pieces '\n' s := by
  rw [strLines, strGetlines_eq_pieces (Nat.zero_le _) (by omega), List.drop_zero]

theorem strContainsLine_iff (s line : Text) :
    strContainsLine s line = true ↔ line ∈ pieces '\n' s := by
  rw [strContainsLine, strLines_eq_pieces]
  simp

/-! ## Replacing text -/

/-- `str_locate_text`: the first index of a nonempty text. -/
def strLocateText (s text : Text) : Option Nat :=
  if text.length = 0 ∨ s.length < text.length then none
  else
    (List.range (s.length - text.length + 1)).find? fun i =>
      (s.drop i).take text.length == text

/-- `str_split_text`: the part before the first hit and the part behind it.
Without a hit the source is kept and the right part emptied. -/
def strSplitText (src text : Text) : Text × Text :=
  match strLocateText src text with
  | none => (src, [])
  | some i => (src.take i, src.drop (i + text.length))

/-- The loop of `str_replace_text`: `lhs` is the rest to be scanned, `out` the
rewritten part. -/
def strReplaceLoop (frm repl : Text) : Nat → Text → Text → Text
  | 0, _, out => out
  | fuel + 1, lhs, out =>
    let split := strSplitText lhs frm
    -- A hit shows as a shorter left part.
    let out := out ++ split.1 ++ (if split.1.length < lhs.length then repl else [])
    if split.2.isEmpty then out else strReplaceLoop frm repl fuel split.2 out

/-- `str_replace_text`.  Each round with a nonempty rest consumes a character,
so the length of the buffer bounds the rounds. -/
def strReplaceText (s frm repl : Text) : Text :=
  strReplaceLoop frm repl (s.length + 1) s []

/-- A hit is an occurrence with none before it. -/
theorem strLocateText_eq_some {s text : Text} {i : Nat} (h : strLocateText s text = some i) :
    text ≠ [] ∧ s = s.take i ++ (text ++ s.drop (i + text.length)) ∧
      ∀ j < i, ¬ text <+: s.drop j := by
  unfold strLocateText at h
  split at h
  · simp at h
  · rename_i hbounds
    push Not at hbounds
    rw [List.find?_range_eq_some] at h
    obtain ⟨hi, hmem, hfirst⟩ := h
    have hhit : (s.drop i).take text.length = text := by simpa using hi
    refine ⟨fun h => hbounds.1 (by simp [h]), ?_, ?_⟩
    · have hrest : s.drop i = text ++ s.drop (i + text.length) := by
        conv_lhs => rw [← List.take_append_drop text.length (s.drop i), hhit, List.drop_drop]
      rw [← hrest, List.take_append_drop]
    · intro j hj hpre
      have hmiss := hfirst j hj
      have : (s.drop j).take text.length = text := List.prefix_iff_eq_take.mp hpre |>.symm
      simp [this] at hmiss

/-- No hit means no occurrence. -/
theorem strLocateText_eq_none {s text : Text} (hne : text ≠ [])
    (h : strLocateText s text = none) : ¬ text <:+: s := by
  rintro ⟨u, v, huv⟩
  have hlen : u.length + text.length + v.length = s.length := by
    simp only [← huv, List.length_append]
  have hpos : 0 < text.length := List.length_pos_iff.mpr hne
  rw [strLocateText, if_neg (by omega), List.find?_range_eq_none] at h
  have hmiss := h u.length (by omega)
  rw [← huv] at hmiss
  simp at hmiss

/-- The rounds replace what is to be scanned, behind what is rewritten already. -/
theorem strReplaceLoop_eq {frm : Text} (hne : frm ≠ []) (repl : Text) {fuel : Nat} {lhs : Text}
    (hfuel : lhs.length < fuel) (out : Text) :
    strReplaceLoop frm repl fuel lhs out = out ++ replaceAll frm repl lhs := by
  induction fuel generalizing lhs out with
  | zero => omega
  | succ fuel ih =>
      cases hloc : strLocateText lhs frm with
      | none =>
          have hkeep := replaceAll_of_not_infix (strLocateText_eq_none hne hloc) repl
          simp [strReplaceLoop, strSplitText, hloc, hkeep]
      | some i =>
          obtain ⟨-, hsplit, hfirst⟩ := strLocateText_eq_some hloc
          have hflen : 0 < frm.length := List.length_pos_iff.mpr hne
          have hlen := congrArg List.length hsplit
          simp only [List.length_append, List.length_take, List.length_drop] at hlen
          have hshort : (lhs.take i).length < lhs.length := by
            simp only [List.length_take]
            omega
          have hspec : replaceAll frm repl lhs =
              lhs.take i ++ (repl ++ replaceAll frm repl (lhs.drop (i + frm.length))) := by
            conv_lhs => rw [hsplit]
            refine replaceAll_split hne repl fun x y hxy hy hpre => ?_
            have hj : x.length < i := by
              have := congrArg List.length hxy
              have hypos : 0 < y.length := List.length_pos_iff.mpr hy
              simp only [List.length_append, List.length_take] at this
              omega
            refine hfirst x.length hj ?_
            rw [hsplit, hxy]
            simpa using hpre
          cases hrest : lhs.drop (i + frm.length) with
          | nil =>
              simp only [strReplaceLoop, strSplitText, hloc, hspec, hrest, if_pos hshort]
              simp
          | cons c rest =>
              have hfuel' : (c :: rest).length < fuel := by
                rw [← hrest, List.length_drop]
                omega
              simp only [strReplaceLoop, strSplitText, hloc, hspec, hrest, if_pos hshort]
              simp [ih hfuel']

/-- `str_replace_text` replaces every occurrence from left to right. -/
theorem strReplaceText_eq_replaceAll {frm : Text} (hne : frm ≠ []) (s repl : Text) :
    strReplaceText s frm repl = replaceAll frm repl s := by
  rw [strReplaceText, strReplaceLoop_eq hne repl (by omega), List.nil_append]

example : strReplaceText "./a./b".toList "./".toList "-umods/".toList =
    "-umods/a-umods/b".toList := by decide

end Server
end ModpackInstaller
