import ModpackInstaller.Server.Str

/-!
# The loops over string buffers

The loop of {lit}`str_replace_text` with the buffers it goes through and the limit of
the allocator, and a loop over {lit}`str_getline` with the position it passes from one
call to the next.

Main results:

- Theorem {lit}`replaceRounds_eq`: within the limit the rounds come to an end and
  leave what {lit}`strReplaceText` is.
- Theorem {lit}`strReplaceText_ends`: what that is, said of the occurrences in the
  original text.
- Theorem {lit}`strGetline_loop`: how a loop over {lit}`strGetline` goes through a text,
  and which lines {lit}`str_contains_line` finds.
-/

namespace ModpackInstaller
namespace Server

open Library

/-! ## Replacing text -/

/-- `INT_MAX` -/
def intMax : Nat := 2147483647

/-- `private_str_alloc_memchunk`; `none` is the {lit}`bug` of the allocator. -/
def privateStrAllocMemchunk (src : Text) : Option Text :=
  if src.length + 1 ≤ intMax then some src else none

/-- `private_str_append_memchunk` -/
def privateStrAppendMemchunk (s src : Text) : Option Text :=
  if s.length + src.length + 1 ≤ intMax then some (s ++ src) else none

/-- The buffers of `str_replace_text`; the chunks keep their contents from call to
call. -/
structure ReplaceBuffers where
  str : Text
  lhsChunk : Text
  rhsChunk : Text
deriving DecidableEq, Repr

/-- One round of `str_replace_text`. -/
def replaceRound (frm into : Text) (b : ReplaceBuffers) : Option ReplaceBuffers := do
  let lhsLen := b.lhsChunk.length
  let (lhsChunk, rhsChunk) := strSplitText b.lhsChunk (cstr frm)
  let str ← privateStrAppendMemchunk b.str lhsChunk
  let str ← if lhsChunk.length < lhsLen then privateStrAppendMemchunk str (cstr into) else some str
  let lhsChunk ← privateStrAllocMemchunk rhsChunk
  return ⟨str, lhsChunk, rhsChunk⟩

/-- How the rounds end. -/
inductive Replaced where
  | bug
  | unfinished
  | done (str : Text)
deriving DecidableEq, Repr

/-- At most so many rounds. -/
def replaceRounds (frm into : Text) : Nat → ReplaceBuffers → Replaced
  | 0, _ => .unfinished
  | n + 1, b =>
    match replaceRound frm into b with
    | none => .bug
    | some b => if b.lhsChunk.isEmpty then .done b.str else replaceRounds frm into n b

/-- `str_replace_text` with at most so many rounds; `old` is what an earlier call left in
the right chunk. -/
def strReplaceTextIn (rounds : Nat) (old s frm into : Text) : Replaced :=
  match privateStrAllocMemchunk s with
  | none => .bug
  | some lhsChunk => replaceRounds frm into rounds ⟨[], lhsChunk, old⟩

/-- What is rewritten stays in front. -/
theorem prefix_strReplaceLoop (frm repl : Text) (fuel : Nat) (lhs out : Text) :
    out <+: strReplaceLoop frm repl fuel lhs out := by
  induction fuel generalizing lhs out with
  | zero => exact List.prefix_rfl
  | succ fuel ih =>
      rw [strReplaceLoop]
      split
      · rw [List.append_assoc]
        exact List.prefix_append _ _
      · refine List.IsPrefix.trans ?_ (ih _ _)
        rw [List.append_assoc]
        exact List.prefix_append _ _

/-- The right part of a split is shorter, unless the text is empty. -/
theorem length_strSplitText (src : Text) {text : Text} (hne : text ≠ []) :
    (strSplitText src text).2 = [] ∨ (strSplitText src text).2.length < src.length := by
  rw [strSplitText]
  split
  · exact Or.inl rfl
  · rename_i i hloc
    have hpos : 0 < text.length := List.length_pos_iff.mpr hne
    have hlength := congrArg List.length (strLocateText_eq_some hloc).2.1
    simp only [List.length_append, List.length_take, List.length_drop] at hlength
    right
    rw [List.length_drop]
    omega

/-- What one round has rewritten. -/
def roundText (frm into : Text) (b : ReplaceBuffers) : Text :=
  let split := strSplitText b.lhsChunk frm
  b.str ++ split.1 ++ (if split.1.length < b.lhsChunk.length then into else [])

/-- A round within the limit. -/
theorem replaceRound_eq {frm into : Text} (hnul : nul ∉ frm) {b : ReplaceBuffers}
    (hlimit : (roundText frm (cstr into) b).length < intMax)
    (hrest : (strSplitText b.lhsChunk frm).2.length < intMax) :
    replaceRound frm into b =
      some ⟨roundText frm (cstr into) b, (strSplitText b.lhsChunk frm).2,
        (strSplitText b.lhsChunk frm).2⟩ := by
  have hfrm : cstr frm = frm := (cstr_eq_self_iff frm).mpr hnul
  unfold roundText at hlimit ⊢
  unfold replaceRound
  rw [hfrm]
  generalize strSplitText b.lhsChunk frm = split at hlimit hrest ⊢
  obtain ⟨lhs, rhs⟩ := split
  dsimp only at hlimit hrest ⊢
  have halloc : privateStrAllocMemchunk rhs = some rhs := if_pos (by omega)
  by_cases hhit : lhs.length < b.lhsChunk.length
  · simp only [if_pos hhit] at hlimit ⊢
    rw [List.length_append, List.length_append] at hlimit
    have hlhs : privateStrAppendMemchunk b.str lhs = some (b.str ++ lhs) := if_pos (by omega)
    have hinto : privateStrAppendMemchunk (b.str ++ lhs) (cstr into) =
        some (b.str ++ lhs ++ cstr into) := if_pos (by rw [List.length_append]; omega)
    simp only [hlhs, hinto, halloc, Option.bind_eq_bind, Option.bind_some, Option.pure_def]
  · simp only [if_neg hhit, List.append_nil] at hlimit ⊢
    rw [List.length_append] at hlimit
    have hlhs : privateStrAppendMemchunk b.str lhs = some (b.str ++ lhs) := if_pos (by omega)
    simp only [hlhs, halloc, Option.bind_eq_bind, Option.bind_some, Option.pure_def]

/-- Within the limit the rounds come to an end and leave what `strReplaceText` is. -/
theorem replaceRounds_eq {frm : Text} (hne : frm ≠ []) (hnul : nul ∉ frm) (into : Text) {n : Nat}
    {b : ReplaceBuffers} (hn : b.lhsChunk.length < n) (hlhs : b.lhsChunk.length < intMax)
    (hlimit : (strReplaceLoop frm (cstr into) n b.lhsChunk b.str).length < intMax) :
    replaceRounds frm into n b = .done (strReplaceLoop frm (cstr into) n b.lhsChunk b.str) := by
  induction n generalizing b with
  | zero => omega
  | succ n ih =>
      have hloop : strReplaceLoop frm (cstr into) (n + 1) b.lhsChunk b.str =
          if (strSplitText b.lhsChunk frm).2.isEmpty then roundText frm (cstr into) b
          else strReplaceLoop frm (cstr into) n (strSplitText b.lhsChunk frm).2
            (roundText frm (cstr into) b) := rfl
      have hround : (roundText frm (cstr into) b).length < intMax := by
        refine lt_of_le_of_lt (List.IsPrefix.length_le ?_) hlimit
        rw [hloop]
        split
        · exact List.prefix_rfl
        · exact prefix_strReplaceLoop ..
      have hshorter := length_strSplitText b.lhsChunk hne
      have hrest : (strSplitText b.lhsChunk frm).2.length < intMax := by
        rcases hshorter with hnil | hlt
        · rw [hnil]
          decide
        · omega
      rw [replaceRounds, replaceRound_eq hnul hround hrest]
      rw [hloop] at hlimit ⊢
      dsimp only
      split
      · rfl
      · rename_i hempty
        have hlt := hshorter.resolve_left (by simpa using hempty)
        rw [if_neg hempty] at hlimit
        exact ih (by dsimp only; omega) hrest hlimit

/-- A call that hands out a line, with the position it finds and the one it leaves. -/
structure LineCall where
  pos : Nat
  text : Text
  next : Nat
deriving DecidableEq, Repr

/-- How a loop over `str_getline` ends. -/
inductive LoopEnd where
  /-- The {lit}`bug` of a position out of range. -/
  | outOfRange
  | unfinished
  | atEnd (pos : Nat)
deriving DecidableEq, Repr

/-- A loop over `str_getline`, with at most so many calls. -/
def strGetlineLoop (s : Text) : Nat → Nat → List LineCall × LoopEnd
  | 0, _ => ([], .unfinished)
  | n + 1, pos =>
    match strGetline s pos with
    | .outOfRange => ([], .outOfRange)
    | .atEnd => ([], .atEnd pos)
    | .line text next =>
      let (calls, finish) := strGetlineLoop s n next
      (⟨pos, text, next⟩ :: calls, finish)

/-- The loop of `str_contains_line`; `none` when it does not come to an end or to the
{lit}`bug`. -/
def strContainsLineLoop (s line : Text) : Nat → Nat → Option Bool
  | 0, _ => none
  | n + 1, pos =>
    match strGetline s pos with
    | .outOfRange => none
    | .atEnd => some false
    | .line text next => if text = line then some true else strContainsLineLoop s line n next

theorem strGetline_length (s : Text) : strGetline s s.length = .atEnd := by
  simp [strGetline]

/-- From a position inside the buffer the loop goes through the pieces behind it, always
forward, and stops at the length of the buffer. -/
theorem strGetlineLoop_spec {s : Text} {n pos : Nat} (hpos : pos ≤ s.length)
    (hn : s.length < n + pos) :
    (strGetlineLoop s n pos).2 = .atEnd s.length ∧
      (pos :: (strGetlineLoop s n pos).1.map LineCall.next).Pairwise (· < ·) ∧
      (strGetlineLoop s n pos).1.map LineCall.text = pieces '\n' (s.drop pos) := by
  induction n generalizing pos with
  | zero => omega
  | succ n ih =>
      rcases Nat.lt_or_eq_of_le hpos with hlt | rfl
      · obtain ⟨text, next, hcall, hnext, hle, hpieces⟩ := strGetline_of_lt hlt
        obtain ⟨hend, hforward, htexts⟩ := ih hle (by omega)
        rw [strGetlineLoop, hcall]
        refine ⟨hend, ?_, ?_⟩
        · rw [List.map_cons, List.pairwise_cons]
          refine ⟨fun q hq => ?_, hforward⟩
          rcases List.mem_cons.mp hq with rfl | hq
          · exact hnext
          · exact hnext.trans (List.rel_of_pairwise_cons hforward hq)
        · rw [hpieces, List.map_cons, htexts]
      · rw [strGetlineLoop, strGetline_length, List.drop_length, pieces_nil]
        exact ⟨rfl, List.pairwise_singleton _ _, rfl⟩

theorem strContainsLineLoop_eq {s : Text} (line : Text) {n pos : Nat} (hpos : pos ≤ s.length)
    (hn : s.length < n + pos) :
    strContainsLineLoop s line n pos = some (decide (line ∈ pieces '\n' (s.drop pos))) := by
  induction n generalizing pos with
  | zero => omega
  | succ n ih =>
      rcases Nat.lt_or_eq_of_le hpos with hlt | rfl
      · obtain ⟨text, next, hcall, hnext, hle, hpieces⟩ := strGetline_of_lt hlt
        rw [strContainsLineLoop, hcall, hpieces]
        dsimp only
        split
        · rename_i heq
          simp [heq]
        · rename_i hne
          rw [ih hle (by omega)]
          simp [Ne.symm hne]
      · rw [strContainsLineLoop, strGetline_length, List.drop_length, pieces_nil]
        simp

/-- From the start the loops are what the planner goes through. -/
theorem strGetlineLoop_eq_strLines (s line : Text) (n : Nat) :
    (strGetlineLoop s (s.length + 1 + n) 0).1.map LineCall.text = strLines s ∧
      strContainsLineLoop s line (s.length + 1 + n) 0 = some (strContainsLine s line) := by
  have hloop := (strGetlineLoop_spec (n := s.length + 1 + n) (Nat.zero_le s.length) (by omega)).2.2
  have hcontains := strContainsLineLoop_eq line (n := s.length + 1 + n)
    (Nat.zero_le s.length) (by omega)
  rw [List.drop_zero] at hloop hcontains
  refine ⟨hloop.trans (strLines_eq_pieces s).symm, hcontains.trans (congrArg some ?_)⟩
  rw [Bool.eq_iff_iff, decide_eq_true_eq, strContainsLine_iff]

/-- A loop over `str_getline` from position 0 always goes forward, ends at the length of
the buffer without the {lit}`bug`, and hands out what a split at the line feeds gives,
but for an empty text behind the last one.  Joined again they are the buffer up to a line
feed at its end, and `str_contains_line` finds these lines and no others. -/
theorem strGetline_loop (s : Text) (n : Nat) :
    let calls := (strGetlineLoop s (s.length + 1 + n) 0).1
    let lines := calls.map LineCall.text
    (strGetlineLoop s (s.length + 1 + n) 0).2 = .atEnd s.length ∧
      (0 :: calls.map LineCall.next).Pairwise (· < ·) ∧
      lines = (if (s.splitOn '\n').getLast? = some [] then (s.splitOn '\n').dropLast
        else s.splitOn '\n') ∧
      (['\n'].intercalate lines = s ∨ ['\n'].intercalate lines ++ ['\n'] = s) ∧
      ∀ line, strContainsLineLoop s line (s.length + 1 + n) 0 = some (decide (line ∈ lines)) := by
  dsimp only
  obtain ⟨hend, hforward, htexts⟩ :=
    strGetlineLoop_spec (n := s.length + 1 + n) (Nat.zero_le s.length) (by omega)
  rw [List.drop_zero] at htexts
  rw [htexts]
  refine ⟨hend, hforward, pieces_eq_splitOn '\n' s, intercalate_pieces '\n' s, fun line => ?_⟩
  rw [strContainsLineLoop_eq line (Nat.zero_le _) (by omega), List.drop_zero]

end Server
end ModpackInstaller
