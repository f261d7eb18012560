import ModpackInstaller.Library.Transducer
import ModpackInstaller.Text

/-!
# Conversion of line ends

The two functions of {lit}`ascii.c` that convert a transfer in ASCII mode one buffer at a
time, {lit}`vsf_ascii_ascii_to_bin` in the buffer that it reads from.  Above them stand a
transducer for each direction and what it does to a whole text.

Main results:

- Theorem {lit}`vsfAsciiBinToAscii_eq`, Theorem {lit}`vsfAsciiAsciiToBin_eq`: what the two
  functions do to one buffer is what the transducer does to it.
- Theorem {lit}`toAscii_output`, Theorem {lit}`toBin_output`: what the transducers do to a
  whole text, however it is cut into buffers.
- Theorem {lit}`toBin_toAscii_eq_self_iff`: which texts survive the way out and back.
-/

namespace ModpackInstaller
namespace Server
namespace Ascii

open Library

/-! ## Towards the network -/

/-- The output buffer and the variables of the loop of `vsf_ascii_bin_to_ascii`. -/
structure BinToAscii where
  pOut : Text
  written : Nat
  lastChar : Char
  lastWasCr : Bool
deriving DecidableEq, Repr

/-- One round of `vsf_ascii_bin_to_ascii`. -/
def binToAsciiRound (s : BinToAscii) (theChar : Char) : BinToAscii :=
  let insert := theChar = '\n' ∧ s.lastChar ≠ '\r'
  { pOut := s.pOut ++ (if insert then ['\r'] else []) ++ [theChar]
    written := s.written + (if insert then 1 else 0) + 1
    lastChar := theChar
    lastWasCr := theChar = '\r' }

/-- `vsf_ascii_bin_to_ascii`; `written` is the field `stored` of the result. -/
def vsfAsciiBinToAscii (pIn : Text) (prevCr : Bool) : BinToAscii :=
  pIn.foldl binToAsciiRound
    { pOut := []
      written := 0
      lastChar := if prevCr then '\r' else nul
      lastWasCr := prevCr }

/-- The line feeds that have no carriage return in front get one. -/
def toAscii : Transducer Bool Char Char where
  start := false
  step prevCr c := (c = '\r', if c = '\n' ∧ ¬ prevCr then ['\r', '\n'] else [c])
  finish _ := []

/-! ## From the network -/

/-- The buffer and the variables of the loop of `vsf_ascii_ascii_to_bin`; `pOut` is a
position in the buffer. -/
structure AsciiToBin where
  buf : Text
  pOut : Nat
  written : Nat
  lastWasCr : Bool
deriving DecidableEq, Repr

/-- `*p_out++ = the_char; written++;` -/
def AsciiToBin.put (s : AsciiToBin) (theChar : Char) : AsciiToBin :=
  { s with buf := s.buf.set s.pOut theChar, pOut := s.pOut + 1, written := s.written + 1 }

/-- One round of `vsf_ascii_ascii_to_bin`. -/
def asciiToBinRound (inLen : Nat) (s : AsciiToBin) (indexx : Nat) : AsciiToBin :=
  let theChar := s.buf.getD (indexx + 1) nul
  if theChar ≠ '\r' then s.put theChar
  else if indexx = inLen - 1 then { s with lastWasCr := true }
  else if s.buf.getD (indexx + 2) nul ≠ '\n' then s.put theChar
  else s

/-- The result of `vsf_ascii_ascii_to_bin` with the buffer it leaves; `pBuf` is a position
in it. -/
structure AsciiToBinRet where
  stored : Nat
  lastWasCr : Bool
  pBuf : Nat
  buf : Text
deriving DecidableEq, Repr

/-- The carriage return that was held back goes in front of the data: nothing follows, or
no line feed. -/
def Sticks (buf : Text) (inLen : Nat) (prevCr : Bool) : Prop :=
  prevCr ∧ (inLen = 0 ∨ buf.getD 1 nul ≠ '\n')

instance (buf : Text) (inLen : Nat) (prevCr : Bool) : Decidable (Sticks buf inLen prevCr) :=
  inferInstanceAs (Decidable (_ ∧ _))

/-- The variables in front of the loop. -/
def AsciiToBin.init (buf : Text) (inLen : Nat) (prevCr : Bool) : AsciiToBin :=
  if Sticks buf inLen prevCr then ⟨buf.set 0 '\r', 1, 1, false⟩ else ⟨buf, 1, 0, false⟩

/-- `vsf_ascii_ascii_to_bin` -/
def vsfAsciiAsciiToBin (buf : Text) (inLen : Nat) (prevCr : Bool) : AsciiToBinRet :=
  let s := (List.range inLen).foldl (asciiToBinRound inLen) (AsciiToBin.init buf inLen prevCr)
  { stored := s.written
    lastWasCr := s.lastWasCr
    pBuf := if Sticks buf inLen prevCr then 0 else 1
    buf := s.buf }

/-- What the result points at. -/
def AsciiToBinRet.text (r : AsciiToBinRet) : Text :=
  (r.buf.drop r.pBuf).take r.stored

/-- The carriage returns in front of a line feed go; one at the end of a buffer is held
back until it is known what follows. -/
def toBin : Transducer Bool Char Char where
  start := false
  step prevCr c :=
    if c = '\r' then (true, if prevCr then ['\r'] else [])
    else (false, if prevCr ∧ c ≠ '\n' then ['\r', c] else [c])
  finish prevCr := if prevCr then ['\r'] else []

/-! ## One buffer towards the network -/

/-- The loop of the conversion writes what the transducer writes, and carries the same memory of a
CR. -/
theorem binToAscii_foldl (s : BinToAscii) (prevCr : Bool) (pIn : Text)
    (hlast : s.lastChar = '\r' ↔ prevCr = true) :
    let r := pIn.foldl binToAsciiRound s
    r.pOut = s.pOut ++ (toAscii.feed prevCr pIn).2 ∧
      r.written = s.written + (toAscii.feed prevCr pIn).2.length ∧
      r.lastWasCr = (if pIn = [] then s.lastWasCr else (toAscii.feed prevCr pIn).1) := by
  induction pIn generalizing s prevCr with
  | nil => simp
  | cons c cs ih =>
      obtain ⟨hout, hwritten, hcr⟩ := ih (binToAsciiRound s c) (decide (c = '\r'))
        (by simp [binToAsciiRound])
      have hinsert : (c = '\n' ∧ s.lastChar ≠ '\r') ↔ (c = '\n' ∧ ¬ prevCr) := by
        rw [Ne, hlast]
      have hout' : (binToAsciiRound s c).pOut = s.pOut ++ (toAscii.step prevCr c).2 := by
        simp only [binToAsciiRound, toAscii, hinsert, List.append_assoc]
        split <;> simp_all
      have hwritten' : (binToAsciiRound s c).written =
          s.written + (toAscii.step prevCr c).2.length := by
        simp only [binToAsciiRound, toAscii, hinsert]
        split <;> simp
      refine ⟨?_, ?_, ?_⟩
      · rw [List.foldl_cons, hout, hout', Transducer.feed_cons, List.append_assoc]
        rfl
      · rw [List.foldl_cons, hwritten, hwritten', Transducer.feed_cons, List.length_append,
          Nat.add_assoc]
        rfl
      · rw [List.foldl_cons, hcr, if_neg (List.cons_ne_nil c cs)]
        cases cs with
        | nil => rfl
        | cons d ds => rfl

/-- What the function does to one buffer is what the transducer does to it. -/
theorem vsfAsciiBinToAscii_eq (pIn : Text) (prevCr : Bool) :
    (vsfAsciiBinToAscii pIn prevCr).pOut = (toAscii.feed prevCr pIn).2 ∧
      (vsfAsciiBinToAscii pIn prevCr).written = (toAscii.feed prevCr pIn).2.length ∧
      (vsfAsciiBinToAscii pIn prevCr).lastWasCr = (toAscii.feed prevCr pIn).1 := by
  have hfold := binToAscii_foldl ⟨[], 0, if prevCr then '\r' else nul, prevCr⟩ prevCr pIn
    (by cases prevCr <;> decide)
  obtain ⟨hout, hwritten, hcr⟩ := hfold
  refine ⟨hout.trans (List.nil_append _), hwritten.trans (Nat.zero_add _), hcr.trans ?_⟩
  split
  · rename_i hnil
    rw [hnil]
    rfl
  · rfl

/-! ## One buffer from the network -/

/-- The loop copies a symbol in front of the rest of the buffer. -/
def copied (c : Char) (rest : Text) : Prop :=
  c ≠ '\r' ∨ ∃ d ∈ rest.head?, d ≠ '\n'

instance (c : Char) (rest : Text) : Decidable (copied c rest) :=
  inferInstanceAs (Decidable (_ ∨ _))

/-- What the loop copies of the rest of a buffer. -/
def keptAhead : Text → Text
  | [] => []
  | c :: rest => if copied c rest then c :: keptAhead rest else keptAhead rest

section Put

variable (s : AsciiToBin) (c : Char)

@[simp] theorem put_pOut : (s.put c).pOut = s.pOut + 1 := rfl
@[simp] theorem put_written : (s.put c).written = s.written + 1 := rfl
@[simp] theorem put_lastWasCr : (s.put c).lastWasCr = s.lastWasCr := rfl
@[simp] theorem length_put : (s.put c).buf.length = s.buf.length := List.length_set

end Put

/-- A put writes at its place only. -/
theorem drop_put {s : AsciiToBin} {i : Nat} (hpos : s.pOut ≤ i) (c : Char) :
    (s.put c).buf.drop (i + 1) = s.buf.drop (i + 1) := by
  rw [AsciiToBin.put, List.drop_set_of_lt (by omega)]

/-- What is in front of the write position grows by the character that is put. -/
theorem take_put {s : AsciiToBin} (h : s.pOut < s.buf.length) (c : Char) :
    (s.put c).buf.take (s.put c).pOut = s.buf.take s.pOut ++ [c] := by
  simp only [AsciiToBin.put]
  rw [List.take_add_one, List.take_set_of_le (le_refl _), List.getElem?_set_self h]
  rfl

/-- A round, in terms of what is in the buffer from its position on. -/
theorem asciiToBinRound_eq {inLen i : Nat} {s : AsciiToBin} {c : Char} {rest tail : Text}
    (hdrop : s.buf.drop (i + 1) = c :: rest ++ tail) (hi : i + 1 + rest.length = inLen) :
    asciiToBinRound inLen s i =
      if copied c rest then s.put c
      else if rest = [] then { s with lastWasCr := true } else s := by
  have hchar : s.buf.getD (i + 1) nul = c := by
    have hget := congrArg List.head? hdrop
    rw [List.head?_drop] at hget
    simp [List.getD, hget]
  have hnext : s.buf.getD (i + 2) nul = (rest ++ tail).headD nul := by
    have hget := congrArg (fun l => (List.tail l).head?) hdrop
    rw [List.tail_drop, List.head?_drop] at hget
    simp [List.getD, hget, List.headD_eq_head?_getD]
  rw [asciiToBinRound, hchar, hnext]
  by_cases hc : c = '\r'
  · cases rest with
    | nil =>
        have hlast : i = inLen - 1 := by simp at hi; omega
        simp [copied, hc, hlast]
    | cons d ds =>
        have hmore : i ≠ inLen - 1 := by simp at hi; omega
        simp [copied, hc, hmore]
  · simp [copied, hc]

/-- The rounds from one position on: they copy what is kept of the rest to the place
they have come to, and what is behind the data stays. -/
theorem asciiToBin_foldl {inLen i : Nat} {rest tail : Text} (hi : i + rest.length = inLen)
    {s : AsciiToBin} (hdrop : s.buf.drop (i + 1) = rest ++ tail) (hpos : s.pOut ≤ i + 1)
    (hlen : inLen < s.buf.length) (hcr : s.lastWasCr = false) :
    let r := (List.range' i rest.length).foldl (asciiToBinRound inLen) s
    r.buf.take r.pOut = s.buf.take s.pOut ++ keptAhead rest ∧
      r.pOut = s.pOut + (keptAhead rest).length ∧
      r.written = s.written + (keptAhead rest).length ∧
      r.lastWasCr = decide (rest.getLast? = some '\r') ∧
      r.buf.length = s.buf.length ∧ r.buf.drop (inLen + 1) = tail := by
  induction rest generalizing i s with
  | nil =>
      have hend : i = inLen := by simpa using hi
      subst hend
      simpa [keptAhead, hcr] using hdrop
  | cons c rest ih =>
      have hi' : i + 1 + rest.length = inLen := by
        rw [List.length_cons] at hi
        omega
      have hdrop' : s.buf.drop (i + 2) = rest ++ tail := by
        have htail := congrArg List.tail hdrop
        rwa [List.tail_drop] at htail
      rw [List.length_cons, List.range'_succ, List.foldl_cons, asciiToBinRound_eq hdrop hi',
        keptAhead]
      by_cases hcopied : copied c rest
      · have hput := ih hi' (s := s.put c) (by rw [drop_put (by omega), hdrop'])
          (by rw [put_pOut]; omega) (by rwa [length_put]) hcr
        rw [if_pos hcopied, if_pos hcopied]
        obtain ⟨htake, hout, hwritten, hlast, hlength, hbehind⟩ := hput
        refine ⟨?_, ?_, ?_, ?_, ?_, hbehind⟩
        · rw [htake, take_put (by omega), List.append_assoc]
          rfl
        · rw [hout, put_pOut, List.length_cons]
          omega
        · rw [hwritten, put_written, List.length_cons]
          omega
        · rw [hlast]
          cases rest with
          | nil =>
              have hc : c ≠ '\r' := by simpa [copied] using hcopied
              simp [hc]
          | cons d ds => simp
        · rw [hlength, length_put]
      · rw [if_neg hcopied, if_neg hcopied]
        cases rest with
        | nil =>
            have hc : c = '\r' := by simpa [copied] using hcopied
            have hend : inLen = i + 1 := by simpa using hi'.symm
            simpa [keptAhead, hc, hend] using hdrop'
        | cons d ds =>
            rw [if_neg (List.cons_ne_nil d ds)]
            have hskip := ih hi' hdrop' (by omega) hlen hcr
            simpa using hskip

/-- Within a buffer the transducer hands out what the loop keeps, behind a carriage return
that was held back and is none of a line end. -/
theorem toBin_feed (prevCr : Bool) (c : Char) (rest : Text) :
    toBin.feed prevCr (c :: rest) =
      (decide ((c :: rest).getLast? = some '\r'),
        (if prevCr ∧ c ≠ '\n' then ['\r'] else []) ++ keptAhead (c :: rest)) := by
  induction rest generalizing prevCr c with
  | nil =>
      by_cases hc : c = '\r'
      · cases prevCr <;> simp [Transducer.feed_cons, toBin, keptAhead, copied, hc]
      · by_cases hn : c = '\n' <;> cases prevCr <;>
          simp [Transducer.feed_cons, toBin, keptAhead, copied, hc, hn]
  | cons d ds ih =>
      have hkept : keptAhead (c :: d :: ds) =
          if copied c (d :: ds) then c :: keptAhead (d :: ds) else keptAhead (d :: ds) := rfl
      rw [Transducer.feed_cons, ih, hkept]
      generalize keptAhead (d :: ds) = kept
      by_cases hc : c = '\r'
      · by_cases hd : d = '\n' <;> cases prevCr <;> simp [toBin, copied, hc, hd]
      · by_cases hn : c = '\n' <;> cases prevCr <;> simp [toBin, copied, hc, hn]

/-- What is in the buffer when the function comes back. -/
theorem vsfAsciiAsciiToBin_text (front : Char) (data tail : Text) (prevCr : Bool) :
    let buf := front :: (data ++ tail)
    let r := vsfAsciiAsciiToBin buf data.length prevCr
    r.text = (if Sticks buf data.length prevCr then ['\r'] else []) ++ keptAhead data ∧
      r.stored = r.text.length ∧
      r.lastWasCr = decide (data.getLast? = some '\r') ∧
      r.buf.length = buf.length ∧ r.buf.drop (data.length + 1) = tail := by
  dsimp only
  set buf := front :: (data ++ tail) with hbuf
  set init := AsciiToBin.init buf data.length prevCr with hinit
  have hfits : data.length < buf.length := by
    rw [hbuf, List.length_cons, List.length_append]
    omega
  have hfold := @asciiToBin_foldl data.length 0 data tail (Nat.zero_add _) init
    (by rw [hinit, AsciiToBin.init]; split <;> rfl)
    (by rw [hinit, AsciiToBin.init]; split <;> exact le_refl _)
    (by rw [hinit, AsciiToBin.init]; split <;> simpa using hfits)
    (by rw [hinit, AsciiToBin.init]; split <;> rfl)
  rw [← List.range_eq_range'] at hfold
  obtain ⟨htake, hout, hwritten, hlast, hlength, hbehind⟩ := hfold
  have htext : (vsfAsciiAsciiToBin buf data.length prevCr).text =
      (if Sticks buf data.length prevCr then ['\r'] else []) ++ keptAhead data := by
    have hcut := congrArg (List.drop (if Sticks buf data.length prevCr then 0 else 1)) htake
    rw [List.drop_take, hout] at hcut
    rw [AsciiToBinRet.text, vsfAsciiAsciiToBin, ← hinit, hwritten]
    by_cases hstick : Sticks buf data.length prevCr
    · simp only [hinit, AsciiToBin.init, if_pos hstick] at hcut ⊢
      simpa [hbuf, Nat.add_comm] using hcut
    · simp only [hinit, AsciiToBin.init, if_neg hstick] at hcut ⊢
      simpa [hbuf] using hcut
  refine ⟨htext, ?_, hlast, ?_, hbehind⟩
  · rw [htext, vsfAsciiAsciiToBin, ← hinit, hwritten, List.length_append, hinit, AsciiToBin.init]
    split <;> rfl
  · rw [vsfAsciiAsciiToBin, ← hinit, hlength, hinit, AsciiToBin.init]
    split <;> simp

/-- What the function does to one buffer is what the transducer does to it; on an empty
one it ends the text.  Nothing behind the data is touched. -/
theorem vsfAsciiAsciiToBin_eq (front : Char) (data tail : Text) (prevCr : Bool) :
    let r := vsfAsciiAsciiToBin (front :: (data ++ tail)) data.length prevCr
    r.text = (if data = [] then toBin.finish prevCr else (toBin.feed prevCr data).2) ∧
      r.stored = r.text.length ∧
      r.lastWasCr = (if data = [] then false else (toBin.feed prevCr data).1) ∧
      r.buf.length = (front :: (data ++ tail)).length ∧
      r.buf.drop (data.length + 1) = tail := by
  obtain ⟨htext, hstored, hlast, hlength, hbehind⟩ :=
    vsfAsciiAsciiToBin_text front data tail prevCr
  refine ⟨htext.trans ?_, hstored, hlast.trans ?_, hlength, hbehind⟩
  · cases data with
    | nil => cases prevCr <;> simp [Sticks, keptAhead, toBin]
    | cons c rest =>
        rw [if_neg (List.cons_ne_nil c rest), toBin_feed]
        simp [Sticks]
  · cases data with
    | nil => rfl
    | cons c rest => rw [if_neg (List.cons_ne_nil c rest), toBin_feed]

/-! ## Whole texts -/

/-- The line ends of the network as line feeds. -/
def toLf (s : Text) : Text :=
  replaceAll ['\r', '\n'] ['\n'] s

/-- The line feeds as line ends of the network. -/
def toCrlf (s : Text) : Text :=
  replaceAll ['\n'] ['\r', '\n'] s

@[simp] theorem toLf_nil : toLf [] = [] := rfl

@[simp] theorem toLf_crlf (s : Text) : toLf ('\r' :: '\n' :: s) = '\n' :: toLf s :=
  replaceAll_matched (by simp) _ s

@[simp] theorem toLf_cr_cr (s : Text) : toLf ('\r' :: '\r' :: s) = '\r' :: toLf ('\r' :: s) :=
  replaceAll_cons_of_unmatched (by simp) _

/-- Any character but CR is kept. -/
theorem toLf_cons {c : Char} (hc : c ≠ '\r') (s : Text) : toLf (c :: s) = c :: toLf s :=
  replaceAll_cons_of_unmatched (by simp [Ne.symm hc]) _

/-- A CR is kept where no LF follows it. -/
theorem toLf_cr_cons {c : Char} (hc : c ≠ '\n') (s : Text) :
    toLf ('\r' :: c :: s) = '\r' :: toLf (c :: s) :=
  replaceAll_cons_of_unmatched (by simp [Ne.symm hc]) _

@[simp] theorem toCrlf_nil : toCrlf [] = [] := rfl

@[simp] theorem toCrlf_lf (s : Text) : toCrlf ('\n' :: s) = '\r' :: '\n' :: toCrlf s :=
  replaceAll_matched (by simp) _ s

/-- Any character but LF is kept. -/
theorem toCrlf_cons {c : Char} (hc : c ≠ '\n') (s : Text) : toCrlf (c :: s) = c :: toCrlf s :=
  replaceAll_cons_of_unmatched (by simp [Ne.symm hc]) _

/-- What the transducer makes of the data behind a carriage return that is held back. -/
theorem toBin_complete (prevCr : Bool) (s : Text) :
    toBin.complete prevCr s = toLf ((if prevCr then ['\r'] else []) ++ s) := by
  refine toBin.complete_eq (f := fun prevCr s => toLf ((if prevCr then ['\r'] else []) ++ s))
    (fun prevCr => by cases prevCr <;> rfl) (fun prevCr c s => ?_) prevCr s
  by_cases hc : c = '\r'
  · cases prevCr <;> simp [toBin, hc]
  · by_cases hn : c = '\n'
    · cases prevCr <;> simp [toBin, hn, toLf_cons]
    · cases prevCr <;> simp [toBin, hc, hn, toLf_cons, toLf_cr_cons]

/-- What comes from the network is stored with plain line feeds. -/
theorem toBin_output (s : Text) : toBin.output s = toLf s :=
  toBin_complete false s

/-- What the transducer makes of the data behind a carriage return that is out already. -/
theorem toAscii_complete (prevCr : Bool) (s : Text) :
    (if prevCr then ['\r'] else []) ++ toAscii.complete prevCr s =
      toCrlf (toLf ((if prevCr then ['\r'] else []) ++ s)) := by
  induction s generalizing prevCr with
  | nil => cases prevCr <;> rfl
  | cons c s ih =>
      rw [Transducer.complete_cons]
      by_cases hc : c = '\r'
      · have hrest := ih true
        subst hc
        cases prevCr <;> simpa [toAscii, toCrlf_cons] using hrest
      · have hrest := ih false
        by_cases hn : c = '\n'
        · subst hn
          cases prevCr <;> simpa [toAscii, toLf_cons] using hrest
        · cases prevCr <;>
            simpa [toAscii, hc, hn, toLf_cons hc, toLf_cr_cons hn, toCrlf_cons] using hrest

/-- What goes to the network has a carriage return in front of every line feed, and one is
not doubled. -/
theorem toAscii_output (s : Text) : toAscii.output s = toCrlf (toLf s) :=
  toAscii_complete false s

/-- A carriage return in front of such a text is none of a line end. -/
theorem toLf_cr_toCrlf (s : Text) : toLf ('\r' :: toCrlf s) = '\r' :: toLf (toCrlf s) := by
  cases s with
  | nil => rfl
  | cons c s =>
      by_cases hn : c = '\n'
      · rw [hn, toCrlf_lf, toLf_cr_cr]
      · rw [toCrlf_cons hn, toLf_cr_cons hn]

/-- What was given line ends of the network gets its line feeds back. -/
theorem toLf_toCrlf (s : Text) : toLf (toCrlf s) = s := by
  induction s with
  | nil => rfl
  | cons c s ih =>
      by_cases hn : c = '\n'
      · rw [hn, toCrlf_lf, toLf_crlf, ih]
      · rw [toCrlf_cons hn]
        by_cases hc : c = '\r'
        · subst hc
          rw [toLf_cr_toCrlf, ih]
        · rw [toLf_cons hc, ih]

/-- A text comes back from the network as it was exactly when it has no line end of the
network in it. -/
theorem toBin_toAscii_eq_self_iff (s : Text) :
    toBin.output (toAscii.output s) = s ↔ ¬ ['\r', '\n'] <:+: s := by
  rw [toBin_output, toAscii_output, toLf_toCrlf]
  exact replaceAll_eq_self_iff (by simp)

end Ascii
end Server
end ModpackInstaller
