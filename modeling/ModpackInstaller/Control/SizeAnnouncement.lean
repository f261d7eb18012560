import Mathlib.Data.Bool.AllAny
import ModpackInstaller.Client.Response
import ModpackInstaller.Library.Search
import ModpackInstaller.Server.Transfer

/-!
# The announced size

The reply 150 of {lit}`handle_retr` carries the name of the file and its size, and
{lit}`FtpClient.getLength` takes the size out of it again: what stands between the
first parenthesis and the first {lit}`" bytes"` of the line.  The name stands in
front of both.

Main results:

- Theorem {lit}`getLength_plain`: with neither of them in front, the size is read.
- Theorem {lit}`announced_fixed`: behind any other name the size has no influence
  on what is read.
- Theorem {lit}`announced_iff`: the sizes of a file are read as they are announced
  exactly when its name is plain.
- Theorem {lit}`announced_fails`: a name with a parenthesis is read as zero, and one
  that ends in {lit}`" bytes"` throws.
-/

namespace ModpackInstaller
namespace Control

open Library Server Client

/-! ## Searching the line -/

/-- {lit}`String.indexOf` is the search for the first occurrence. -/
theorem indexOf_eq (s needle : Text) :
    indexOf s needle = ((firstAt needle s).map Int.ofNat).getD (-1) := by
  have hfind : (List.range (s.length + 1)).find? (fun i => needle.isPrefixOf (s.drop i)) =
      firstAt needle s := by
    induction s with
    | nil => cases needle <;> simp [firstAt, List.range_succ]
    | cons c cs ih =>
        rw [List.length_cons, List.range_succ_eq_map, List.find?_cons, List.find?_map, firstAt]
        by_cases hhit : needle <+: c :: cs
        · have hmatch : needle.isPrefixOf (c :: cs) = true := List.isPrefixOf_iff_prefix.mpr hhit
          simp only [List.drop_zero, hmatch, if_pos hhit]
        · have hmiss : needle.isPrefixOf (c :: cs) = false := by
            rwa [← Bool.not_eq_true, List.isPrefixOf_iff_prefix]
          simp only [List.drop_zero, hmiss, if_neg hhit, ← ih]
          rfl
  rw [indexOf, hfind]
  cases firstAt needle s <;> rfl

/-- What the size is followed by. -/
def bytesMark : Text :=
  " bytes".toList

section Search

variable {line a t digits rest : Text}

/-- What is read when both marks are found. -/
theorem getLength_found {i j : Nat} (hi : firstAt ['('] line = some i)
    (hj : firstAt bytesMark line = some j) :
    getLength line =
      if j < i + 1 then .error .stringIndex
      else .ok ((parseInt ((line.take j).drop (i + 1))).getD 0) := by
  have hstart : indexOf line ['('] + 1 = ((i + 1 : Nat) : Int) := by
    rw [indexOf_eq, hi]
    rfl
  have hstop : indexOf line " bytes".toList = (j : Int) := by
    rw [indexOf_eq]
    exact congrArg (fun n => (Option.map Int.ofNat n).getD (-1)) hj
  simp only [getLength, hstart, hstop, Int.toNat_natCast, Int.ofNat_lt]

/-- A text with a space in it is no number. -/
theorem parseInt_of_space {s : Text} (h : ' ' ∈ s) : parseInt s = none := by
  rw [Option.eq_none_iff_forall_not_mem]
  intro n hn
  exact absurd (sign_or_isDigit_of_parseInt hn ' ' h) (by decide)

/-- The mark of the announcement is found when none comes in front. -/
theorem firstAt_bytesMark (hbytes : ¬ bytesMark <:+: a) (hdigits : ' ' ∉ digits) :
    firstAt bytesMark (a ++ ' ' :: '(' :: (digits ++ bytesMark ++ rest)) =
      some (a.length + digits.length + 2) := by
  have hmark : bytesMark = ' ' :: "bytes".toList := by decide
  have hletters : ' ' ∉ "bytes".toList := by decide
  have hopened : ¬ bytesMark <:+: ' ' :: '(' :: digits := by
    rw [hmark, List.infix_cons_iff, not_or]
    constructor
    · intro h
      have hletter := (List.cons_prefix_cons.mp (List.cons_prefix_cons.mp h).2).1
      exact absurd hletter (by decide)
    · intro h
      have hspace : ' ' ∈ '(' :: digits := h.subset (List.mem_cons_self ..)
      simp [hdigits] at hspace
  have hmiss : ¬ ' ' :: "bytes".toList <:+: a ++ ' ' :: '(' :: digits := by
    rw [infix_append_head hletters, ← hmark, not_or]
    exact ⟨hbytes, hopened⟩
  have hline : a ++ ' ' :: '(' :: (digits ++ bytesMark ++ rest) =
      (a ++ ' ' :: '(' :: digits) ++ ' ' :: ("bytes".toList ++ rest) := by
    simp [hmark]
  rw [hline, hmark, firstAt_append_head hletters hmiss, firstAt_of_start]
  · simp
    omega
  · exact List.cons_prefix_cons.mpr ⟨rfl, List.prefix_append _ _⟩

/-- What stands in front of the mark of the announcement. -/
theorem take_announced :
    (a ++ ' ' :: '(' :: (digits ++ bytesMark ++ rest)).take (a.length + digits.length + 2) =
      a ++ ' ' :: '(' :: digits := by
  have hline : a ++ ' ' :: '(' :: (digits ++ bytesMark ++ rest) =
      (a ++ ' ' :: '(' :: digits) ++ (bytesMark ++ rest) := by simp
  have hlength : a.length + digits.length + 2 = (a ++ ' ' :: '(' :: digits).length := by
    rw [List.length_append, List.length_cons, List.length_cons]
    omega
  rw [hline, hlength, List.take_left]

/-- With neither mark in front, the size is read. -/
theorem getLength_plain (hparen : '(' ∉ a) (hbytes : ¬ bytesMark <:+: a) (hdigits : ' ' ∉ digits) :
    getLength (a ++ ' ' :: '(' :: (digits ++ bytesMark ++ rest)) =
      .ok ((parseInt digits).getD 0) := by
  have hi : firstAt ['('] (a ++ ' ' :: '(' :: (digits ++ bytesMark ++ rest)) =
      some (a.length + 1) := by
    have hmiss : '(' ∉ a ++ [' '] := by simp [hparen]
    have hfirst := firstAt_singleton (t := digits ++ bytesMark ++ rest) hmiss
    simpa using hfirst
  have hdrop : (a ++ ' ' :: '(' :: digits).drop (a.length + 1 + 1) = digits := by
    rw [Nat.add_assoc, List.drop_append, List.drop_eq_nil_of_le (by omega),
      Nat.add_sub_cancel_left]
    rfl
  rw [getLength_found hi (firstAt_bytesMark hbytes hdigits), if_neg (by omega), take_announced,
    hdrop]

/-- A parenthesis in front lets more be read than the size. -/
theorem getLength_paren (hparen : '(' ∈ a) (hbytes : ¬ bytesMark <:+: a) (hdigits : ' ' ∉ digits) :
    getLength (a ++ ' ' :: '(' :: (digits ++ bytesMark ++ rest)) = .ok 0 := by
  have hinfix : ['('] <:+: a := (List.singleton_infix_iff _ _).mpr hparen
  obtain ⟨i, hi⟩ : ∃ i, firstAt ['('] a = some i := by
    rw [← Option.ne_none_iff_exists', Ne, firstAt_eq_none, not_not]
    exact hinfix
  have hle := firstAt_le hi
  have hfirst := (firstAt_append_of_inside hinfix
    (' ' :: '(' :: (digits ++ bytesMark ++ rest))).trans hi
  rw [List.length_singleton] at hle
  have hspace : ' ' ∈ (a ++ ' ' :: '(' :: digits).drop (i + 1) := by
    rw [List.drop_append_of_le_length hle]
    simp
  rw [getLength_found hfirst (firstAt_bytesMark hbytes hdigits), if_neg (by omega), take_announced,
    parseInt_of_space hspace]
  rfl

/-- A second mark in front ends what is read before the size. -/
theorem getLength_bytes (hbytes : bytesMark <:+: a) (hparen : '(' ∈ t) :
    getLength (a ++ t) = if '(' ∈ a then getLength a else .error .stringIndex := by
  obtain ⟨j, hj⟩ : ∃ j, firstAt bytesMark a = some j := by
    rw [← Option.ne_none_iff_exists', Ne, firstAt_eq_none, not_not]
    exact hbytes
  have hlej := firstAt_le hj
  have hsecond := (firstAt_append_of_inside hbytes t).trans hj
  split_ifs with hfront
  · have hinfix : ['('] <:+: a := (List.singleton_infix_iff _ _).mpr hfront
    obtain ⟨i, hi⟩ : ∃ i, firstAt ['('] a = some i := by
      rw [← Option.ne_none_iff_exists', Ne, firstAt_eq_none, not_not]
      exact hinfix
    have hfirst := (firstAt_append_of_inside hinfix t).trans hi
    rw [getLength_found hfirst hsecond, getLength_found hi hj,
      List.take_append_of_le_length (by omega)]
  · obtain ⟨u, v, rfl, hu⟩ := List.eq_append_cons_of_mem hparen
    have hmiss : '(' ∉ a ++ u := by simp [hfront, hu]
    have hfirst := firstAt_singleton (t := v) hmiss
    rw [List.append_assoc] at hfirst
    rw [getLength_found hfirst hsecond, if_pos]
    rw [List.length_append]
    omega

end Search

/-! ## The line of an announcement -/

/-- What mangling makes of a character. -/
def mangled (c : Char) : Text :=
  if c = '\xff' then ['\xff', '\xff'] else if c = '\n' then [nul] else [c]

/-- Mangling goes character by character. -/
theorem mangle_eq_flatMap (text : Text) : mangle text = text.flatMap mangled := by
  rw [mangle, strReplaceText_eq_replaceAll (by simp), replaceAll_singleton, strReplaceChar,
    List.map_flatMap]
  refine List.flatMap_congr fun c _ => ?_
  unfold mangled
  split_ifs <;> simp_all

/-- So it goes part by part. -/
theorem mangle_append (s t : Text) : mangle (s ++ t) = mangle s ++ mangle t := by
  rw [mangle_eq_flatMap, mangle_eq_flatMap, mangle_eq_flatMap, List.flatMap_append]

section Announcing

variable (tun : Transfer.Tunables) (s : Transfer.Session)

/-- The line that the client reads of the reply 150. -/
def announcement (w : Transfer.Retr) : Text :=
  (vsfCmdioWrite 150 (Transfer.retrMark tun w s)).takeWhile fun c => !isLineBreak c

/-- What `retr` returns for it. -/
def announced (w : Transfer.Retr) : Option (Except Thrown Int) :=
  (readLine (vsfCmdioWrite 150 (Transfer.retrMark tun w s))).map fun read =>
    (retr (.line read.1)).result

/-- The mark text in front of the file name, without the last space. -/
def opening : Text :=
  "Opening ".toList ++
    (if tun.asciiDownloadEnable && s.isAscii then "ASCII".toList else "BINARY".toList) ++
    " mode data connection for".toList

/-- The announcement behind the file name, without the first space. -/
def sizeText (size : Nat) : Text :=
  '(' :: (Nat.toDigits 10 size ++ " bytes).".toList)

/-- The 150 line of RETR, split at the name of the file. -/
theorem retrMark_eq (w : Transfer.Retr) :
    Transfer.retrMark tun w s = (opening tun s ++ ' ' :: w.filename) ++ ' ' :: sizeText w.size := by
  have hfor : " mode data connection for ".toList =
      " mode data connection for".toList ++ [' '] := by
    decide
  have hparen : " (".toList = [' ', '('] := by decide
  unfold Transfer.retrMark opening sizeText
  rw [hfor, hparen]
  simp only [List.append_assoc, List.cons_append, List.nil_append]

/-- A text with a line end in it has a line to read. -/
theorem exists_readLine {text : Text} {c : Char} (hc : c ∈ text) (hbreak : isLineBreak c = true) :
    ∃ rest, readLine text = some (text.takeWhile fun c => !isLineBreak c, rest) := by
  have hend : text.dropWhile (fun c => !isLineBreak c) ≠ [] := by
    intro h
    have hall := List.dropWhile_eq_nil_iff.mp h c hc
    simp [hbreak] at hall
  unfold readLine
  split
  · rename_i h
    exact absurd h hend
  · exact ⟨_, rfl⟩
  · exact ⟨_, rfl⟩

end Announcing

/-- A file name in which neither the end of the line nor the size is looked for. -/
structure Plain (name : Text) : Prop where
  paren : '(' ∉ name
  bytes : ¬ bytesMark <:+: ' ' :: name
  cr : '\r' ∉ name
  nul : nul ∉ name

section Lines

variable {tun : Transfer.Tunables} {s : Transfer.Session} {w : Transfer.Retr}

/-- The beginning of the line, up to the file name. -/
def lineStart (tun : Transfer.Tunables) (s : Transfer.Session) : Text :=
  "150 ".toList ++ opening tun s

/-- The opening is one of two texts. -/
theorem opening_cases (tun : Transfer.Tunables) (s : Transfer.Session) :
    opening tun s = "Opening ASCII mode data connection for".toList ∨
      opening tun s = "Opening BINARY mode data connection for".toList := by
  unfold opening
  split_ifs
  · exact Or.inl (by decide)
  · exact Or.inr (by decide)

/-- The characters that end a line or a text, or are not sent as they are. -/
def special : Text :=
  ['\r', '\n', nul, '\xff']

/-- No special character stands in front of the name. -/
theorem not_mem_opening {c : Char} (hc : c ∈ special) : c ∉ opening tun s := by
  have hboth : ∀ c ∈ special, c ∉ "Opening ASCII mode data connection for".toList ∧
      c ∉ "Opening BINARY mode data connection for".toList :=
    List.all_iff_forall_prop.mp (by decide)
  rcases opening_cases tun s with h | h
  · exact h ▸ (hboth c hc).1
  · exact h ▸ (hboth c hc).2

/-- None stands behind it. -/
theorem not_mem_sizeText {c : Char} (hc : c ∈ special) (size : Nat) : c ∉ sizeText size := by
  have hstrange : ∀ c ∈ special, c ∉ '(' :: " bytes).".toList ∧ c.isDigit = false :=
    List.all_iff_forall_prop.mp (by decide)
  obtain ⟨htext, hdigit⟩ := hstrange c hc
  intro h
  rw [sizeText, List.mem_cons, List.mem_append] at h
  rcases h with rfl | h | h
  · exact htext (List.mem_cons_self ..)
  · have hdigits := Nat.isDigit_of_mem_toDigits (by decide) (by decide) h
    rw [hdigit] at hdigits
    exact absurd hdigits (by decide)
  · exact htext (List.mem_cons_of_mem _ h)

/-- The line is cut off at the first line end of the text. -/
theorem announcement_eq (w : Transfer.Retr) :
    announcement tun s w = "150 ".toList ++
      (mangle (cstr (Transfer.retrMark tun w s))).takeWhile fun c => !isLineBreak c := by
  have hcode : ∀ c ∈ "150 ".toList, (!isLineBreak c) = true :=
    List.all_iff_forall_prop.mp (by decide)
  have hstatus : "150 ".toList = Nat.toDigits 10 150 ++ [' '] := by decide
  have hwire : vsfCmdioWrite 150 (Transfer.retrMark tun w s) =
      "150 ".toList ++ (mangle (cstr (Transfer.retrMark tun w s)) ++ '\r' :: ['\n']) := by
    rw [vsfCmdioWrite, ftpWriteStrCommon, replyLine, hstatus]
    simp only [List.append_assoc, List.cons_append, List.nil_append]
  rw [announcement, hwire, List.takeWhile_append_of_pos hcode, List.takeWhile_append]
  split_ifs with hall
  · rw [List.takeWhile_cons_of_neg (by decide), List.append_nil,
      (List.takeWhile_prefix _).eq_of_length hall]
  · rfl

/-- A line is read, and `retr` looks for the size in it. -/
theorem announced_eq (w : Transfer.Retr) :
    announced tun s w = some (getLength (announcement tun s w)) := by
  have hcr : '\r' ∈ vsfCmdioWrite 150 (Transfer.retrMark tun w s) := by
    rw [vsfCmdioWrite, ftpWriteStrCommon]
    simp
  obtain ⟨rest, hread⟩ := exists_readLine hcr (by decide)
  have hcode : getResponseCode (announcement tun s w) = .ok 150 := by
    have hstatus : parseInt ['1', '5', '0'] = some 150 := by decide
    have hstart : "150 ".toList = ['1', '5', '0', ' '] := by decide
    rw [announcement_eq, hstart, getResponseCode, if_neg (by simp)]
    simp [hstatus]
  have hresult :
      (retr (.line (announcement tun s w))).result = getLength (announcement tun s w) := by
    simp [retr, transferCommand, hcode]
  rw [announced, hread, ← hresult]
  rfl

/-- The line when the file name does not end it. -/
theorem announcement_of_unbroken (hcr : '\r' ∉ w.filename) (hnul : nul ∉ w.filename) :
    announcement tun s w =
      (lineStart tun s ++ ' ' :: mangle w.filename) ++ ' ' :: sizeText w.size := by
  have hmark : ∀ c ∈ special, c ∉ w.filename → c ∉ Transfer.retrMark tun w s := by
    intro c hc hname
    have hspace : c ≠ ' ' := fun h => absurd (h ▸ hc) (by decide)
    rw [retrMark_eq]
    simp [not_mem_opening hc, not_mem_sizeText hc, hname, hspace]
  have hcstr : cstr (Transfer.retrMark tun w s) = Transfer.retrMark tun w s :=
    (cstr_eq_self_iff _).mpr (hmark nul (by decide) hnul)
  have hunbroken : ∀ c ∈ mangle (Transfer.retrMark tun w s), (!isLineBreak c) = true := by
    intro c hc
    have hnewline : c ≠ '\n' := fun h => newline_not_mem_mangle _ (h ▸ hc)
    have hreturn : c ≠ '\r' := fun h =>
      hmark '\r' (by decide) hcr ((cr_mem_mangle _).mp (h ▸ hc))
    simp [isLineBreak, hnewline, hreturn]
  have hopening : mangle (opening tun s ++ [' ']) = opening tun s ++ [' '] :=
    mangle_of_plain (by simp [@not_mem_opening tun s '\n' (by decide)])
      (by simp [@not_mem_opening tun s '\xff' (by decide)])
  have hsize : mangle (' ' :: sizeText w.size) = ' ' :: sizeText w.size :=
    mangle_of_plain (by simp [not_mem_sizeText (c := '\n') (by decide)])
      (by simp [not_mem_sizeText (c := '\xff') (by decide)])
  have hname : opening tun s ++ ' ' :: w.filename = (opening tun s ++ [' ']) ++ w.filename := by
    simp
  rw [announcement_eq, hcstr, List.takeWhile_eq_self_iff.mpr hunbroken, retrMark_eq, mangle_append,
    hsize, hname, mangle_append, hopening, lineStart]
  simp

/-- The line when the file name ends it. -/
theorem announcement_of_broken (h : '\r' ∈ w.filename ∨ nul ∈ w.filename) (size : Nat) :
    announcement tun s { w with size := size } = announcement tun s w := by
  have hsame : ∀ text : Text,
      (mangle (cstr ((opening tun s ++ ' ' :: w.filename) ++ text))).takeWhile
          (fun c => !isLineBreak c) =
        (mangle (cstr (opening tun s ++ ' ' :: w.filename))).takeWhile fun c => !isLineBreak c := by
    intro text
    by_cases hnul : nul ∈ w.filename
    · have hstop : nul ∈ opening tun s ++ ' ' :: w.filename := by simp [hnul]
      rw [cstr, takeWhile_append_stop hstop (by simp)]
      rfl
    · have hpass : ∀ c ∈ opening tun s ++ ' ' :: w.filename, decide (c ≠ nul) = true := by
        have hopening : nul ∉ opening tun s := not_mem_opening (by decide)
        have hspace : ' ' ≠ nul := by decide
        intro c hc
        have hne : c ≠ nul := by
          rintro rfl
          simp [hopening, hnul, hspace.symm] at hc
        simpa using hne
      have hcr : '\r' ∈ mangle (opening tun s ++ ' ' :: w.filename) := by
        rw [cr_mem_mangle]
        simp [h.resolve_right hnul]
      have hwhole :
          cstr (opening tun s ++ ' ' :: w.filename) = opening tun s ++ ' ' :: w.filename :=
        List.takeWhile_eq_self_iff.mpr hpass
      rw [hwhole, cstr, List.takeWhile_append_of_pos hpass, mangle_append,
        takeWhile_append_stop hcr (by decide)]
  rw [announcement_eq, announcement_eq, retrMark_eq, retrMark_eq, hsame, hsame]

/-- The mark is not in a name because it is sent. -/
theorem infix_mangle {name : Text} : bytesMark <:+: mangle name ↔ bytesMark <:+: name := by
  have hkeep : KeepsPattern mangled bytesMark := by
    intro c
    unfold mangled
    split_ifs with hescape hnewline
    · subst hescape
      exact Or.inr ⟨by decide, by decide, List.all_iff_forall_prop.mp (by decide)⟩
    · subst hnewline
      exact Or.inr ⟨by decide, by decide, List.all_iff_forall_prop.mp (by decide)⟩
    · exact Or.inl rfl
  rw [mangle_eq_flatMap]
  exact infix_flatMap_iff (by decide) hkeep

/-- Both marks come in front of the size exactly when the file name has them. -/
theorem paren_mem_lineStart :
    '(' ∈ lineStart tun s ++ ' ' :: mangle w.filename ↔ '(' ∈ w.filename := by
  have hstart : '(' ∉ lineStart tun s := by
    rw [lineStart]
    rcases opening_cases tun s with h | h <;> rw [h] <;> decide
  have hnul : '(' ≠ nul := by decide
  simp [hstart, mem_mangle, hnul]

/-- The mark of the size stands in front of its place only inside of the name. -/
theorem bytes_infix_lineStart :
    bytesMark <:+: lineStart tun s ++ ' ' :: mangle w.filename ↔
      bytesMark <:+: ' ' :: w.filename := by
  have hmark : bytesMark = ' ' :: "bytes".toList := by decide
  have hstart : ¬ bytesMark <:+: lineStart tun s := by
    rw [lineStart]
    rcases opening_cases tun s with h | h <;> rw [h] <;> decide
  have hspace : ' ' :: mangle w.filename = mangle (' ' :: w.filename) := by
    rw [mangle_eq_flatMap, mangle_eq_flatMap]
    rfl
  rw [hmark, infix_append_head (by decide), ← hmark, hspace, infix_mangle]
  exact or_iff_right hstart

/-- A number is written with digits. -/
theorem isDigit_of_mem_toDigits {n : Nat} {c : Char} (h : c ∈ Nat.toDigits 10 n) :
    c.isDigit = true :=
  Nat.isDigit_of_mem_toDigits (by decide) (by decide) h

/-- A number is read back from its digits. -/
theorem digitsValue_toDigits (n : Nat) : digitsValue (Nat.toDigits 10 n) = n := by
  have hfold : digitsValue (Nat.toDigits 10 n) = Nat.ofDigitChars 10 (Nat.toDigits 10 n) 0 := by
    rw [digitsValue, Nat.ofDigitChars_eq_foldl]
    simp only [Nat.mul_comm]
  rw [hfold, Nat.ofDigitChars_ten_toDigits]

/-- A number is read as it was written. -/
theorem parseInt_toDigits {n : Nat} (h : n ≤ 2147483647) :
    parseInt (Nat.toDigits 10 n) = some (n : Int) := by
  rw [parseInt_of_digits Nat.toDigits_ne_nil fun c hc => isDigit_of_mem_toDigits hc,
    digitsValue_toDigits, if_pos h]

end Lines

/-! ## Announced sizes -/

section Sizes

variable (tun : Transfer.Tunables) (s : Transfer.Session)

/-- The end of the line, with the mark. -/
theorem sizeText_eq (size : Nat) :
    sizeText size = '(' :: (Nat.toDigits 10 size ++ bytesMark ++ ").".toList) := by
  have hend : " bytes).".toList = bytesMark ++ ").".toList := by decide
  rw [sizeText, hend, List.append_assoc]

/-- There is no space in a number. -/
theorem space_not_mem_toDigits (n : Nat) : ' ' ∉ Nat.toDigits 10 n := fun h =>
  absurd (Nat.isDigit_of_mem_toDigits (by decide) (by decide) h) (by decide)

/-- Behind a name that is not plain the size has no influence on what is read. -/
theorem announced_fixed {w : Transfer.Retr} (h : ¬ Plain w.filename) (size : Nat) :
    announced tun s { w with size := size } = announced tun s w := by
  rw [announced_eq, announced_eq]
  by_cases hbroken : '\r' ∈ w.filename ∨ nul ∈ w.filename
  · rw [announcement_of_broken hbroken]
  · rw [not_or] at hbroken
    have hother : announcement tun s { w with size := size } =
        (lineStart tun s ++ ' ' :: mangle w.filename) ++ ' ' :: sizeText size :=
      announcement_of_unbroken hbroken.1 hbroken.2
    rw [hother, announcement_of_unbroken hbroken.1 hbroken.2]
    by_cases hbytes : bytesMark <:+: ' ' :: w.filename
    · have hbytes' := (@bytes_infix_lineStart tun s w).mpr hbytes
      have hopen : ∀ size, '(' ∈ ' ' :: sizeText size := fun size => by simp [sizeText]
      rw [getLength_bytes hbytes' (hopen _), getLength_bytes hbytes' (hopen _)]
    · have hparen : '(' ∈ w.filename := by
        by_contra hmiss
        exact h ⟨hmiss, hbytes, hbroken.1, hbroken.2⟩
      have hparen' := (@paren_mem_lineStart tun s w).mpr hparen
      have hbytes' := fun h => hbytes ((@bytes_infix_lineStart tun s w).mp h)
      rw [sizeText_eq, sizeText_eq, getLength_paren hparen' hbytes' (space_not_mem_toDigits _),
        getLength_paren hparen' hbytes' (space_not_mem_toDigits _)]

/-- Behind a plain name the size is read. -/
theorem announced_plain {w : Transfer.Retr} (h : Plain w.filename) (hsize : w.size ≤ 2147483647) :
    announced tun s w = some (.ok w.size) := by
  have hparen := mt (@paren_mem_lineStart tun s w).mp h.paren
  have hbytes := mt (@bytes_infix_lineStart tun s w).mp h.bytes
  rw [announced_eq, announcement_of_unbroken h.cr h.nul, sizeText_eq,
    getLength_plain hparen hbytes (space_not_mem_toDigits _), parseInt_toDigits hsize]
  rfl

/-- A download of a file with this name and size. -/
def download (name : Text) (size : Nat) : Transfer.Retr where
  filename := name
  permitted := true
  opened := true
  regular := true
  readableOther := true
  size := size
  transRet := 0
  conn := ⟨.fd 0, [], true, [], [], true⟩

/-- The sizes of a file are read as they are announced exactly when its name is
plain. -/
theorem announced_iff (name : Text) :
    (∀ w : Transfer.Retr, w.filename = name → w.size ≤ 2147483647 →
      announced tun s w = some (.ok w.size)) ↔ Plain name := by
  constructor
  · intro h
    by_contra hname
    have hempty := h (download name 0) rfl (Nat.zero_le _)
    have hone := h (download name 1) rfl (by simp [download])
    have hfixed := announced_fixed tun s (w := download name 0) hname 1
    have hsame := hempty.symm.trans (hfixed.symm.trans hone)
    exact absurd hsame (by simp [download])
  · rintro h w rfl hsize
    exact announced_plain tun s h hsize

end Sizes

/-- The tunables of a server without TLS. -/
def plainServer : Transfer.Tunables :=
  ⟨false, false, false, false, false, false, false⟩

/-- A name with a parenthesis is read as zero, one with the mark in it throws. -/
theorem announced_fails :
    announced plainServer (.start false false false false) (download "a (1).zip".toList 5) =
        some (.ok 0) ∧
      announced plainServer (.start false false false false) (download "two bytes".toList 5) =
        some (.error .stringIndex) := by
  constructor
  · decide
  · decide

end Control
end ModpackInstaller
