import ModpackInstaller.Text

/-!
# Reply lines at the installer

How {lit}`FtpClient` takes a reply line from the control connection and what it
reads out of it.  The lines are those of {lit}`BufferedReader.readLine`, which
ends a line at a line feed, at a carriage return, or at both.

Main results:

- Theorem {lit}`readLine_crlf`: a text without line ends, written with CR LF,
  is read back and consumed.
- Theorem {lit}`lineBreak_not_mem_readLine`: a line that is read has no line
  end in it.
-/

namespace ModpackInstaller
namespace Client

/-- An exception that leaves a routine of the installer. -/
inductive Thrown where
  /-- `StringIndexOutOfBoundsException` -/
  | stringIndex
  /-- `NetworkException` -/
  | network
deriving DecidableEq, Repr

/-! ## Lines -/

/-- A character that ends a line. -/
def isLineBreak (c : Char) : Bool :=
  c = '\n' || c = '\r'

/-- `BufferedReader.readLine`: the next line and the characters behind its end.
`none` waits for more characters. -/
def readLine (s : Text) : Option (Text × Text) :=
  match s.dropWhile fun c => !isLineBreak c with
  | [] => none
  | '\r' :: '\n' :: rest => some (s.takeWhile fun c => !isLineBreak c, rest)
  | _ :: rest => some (s.takeWhile fun c => !isLineBreak c, rest)

/-- A text without line ends, written with CR LF, is read back and consumed. -/
theorem readLine_crlf {s : Text} (h : ∀ c ∈ s, isLineBreak c = false) (rest : Text) :
    readLine (s ++ '\r' :: '\n' :: rest) = some (s, rest) := by
  have hs : ∀ c ∈ s, (!isLineBreak c) = true := fun c hc => by simp [h c hc]
  have hstop : (!isLineBreak '\r') = false := by decide
  have htake := Library.takeWhile_append_cons hs hstop ('\n' :: rest)
  have hdrop := Library.dropWhile_append_cons hs hstop ('\n' :: rest)
  simp only [readLine, hdrop, htake]

/-- A line that is read is the text up to its first line end. -/
theorem readLine_eq_takeWhile {s line rest : Text} (h : readLine s = some (line, rest)) :
    line = s.takeWhile fun c => !isLineBreak c := by
  unfold readLine at h
  split at h <;> simp_all

/-- A line that is read has no line end in it. -/
theorem lineBreak_not_mem_readLine {s line rest : Text} (h : readLine s = some (line, rest)) :
    ∀ c ∈ line, isLineBreak c = false := by
  intro c hc
  rw [readLine_eq_takeWhile h] at hc
  simpa using List.mem_takeWhile_imp hc

/-! ## Reply codes -/

/-- The value of a string of decimal digits. -/
def digitsValue (s : Text) : Nat :=
  s.foldl (fun n c => n * 10 + (c.toNat - '0'.toNat)) 0

/-- `Integer.parseInt`; `none` is a `NumberFormatException`. -/
def parseInt (s : Text) : Option Int :=
  let digits (ds : Text) (sign : Int) : Option Int :=
    if ds.isEmpty ∨ ¬ ds.all Char.isDigit then none
    else
      let n := sign * digitsValue ds
      if -2147483648 ≤ n ∧ n ≤ 2147483647 then some n else none
  match s with
  | '-' :: ds => digits ds (-1)
  | '+' :: ds => digits ds 1
  | ds => digits ds 1

/-- A number has digits in it, and a sign at most. -/
theorem sign_or_isDigit_of_parseInt {s : Text} {n : Int} (h : parseInt s = some n) :
    ∀ c ∈ s, c = '-' ∨ c = '+' ∨ c.isDigit = true := by
  have hdigits : ∀ {ds : Text}, ¬ (ds.isEmpty ∨ ¬ ds.all Char.isDigit) →
      ∀ c ∈ ds, c = '-' ∨ c = '+' ∨ c.isDigit = true := by
    intro ds hds c hc
    rw [not_or, not_not] at hds
    exact Or.inr (Or.inr (List.all_eq_true.mp hds.2 c hc))
  unfold parseInt at h
  split at h <;> dsimp only at h <;> split at h
  · cases h
  · rename_i hds
    exact List.forall_mem_cons.mpr ⟨Or.inl rfl, hdigits hds⟩
  · cases h
  · rename_i hds
    exact List.forall_mem_cons.mpr ⟨Or.inr (Or.inl rfl), hdigits hds⟩
  · cases h
  · rename_i hds
    exact hdigits hds

/-- Digits alone are read when their value is in range. -/
theorem parseInt_of_digits {s : Text} (hne : s ≠ []) (hs : ∀ c ∈ s, c.isDigit = true) :
    parseInt s = if digitsValue s ≤ 2147483647 then some (digitsValue s : Int) else none := by
  have hempty : s.isEmpty = false := by simpa using hne
  have hall : s.all Char.isDigit = true := List.all_eq_true.mpr hs
  have hvalue : -2147483648 ≤ 1 * (digitsValue s : Int) ∧ 1 * (digitsValue s : Int) ≤ 2147483647 ↔
      digitsValue s ≤ 2147483647 := by omega
  unfold parseInt
  split
  · exact absurd (hs '-' (by simp)) (by decide)
  · exact absurd (hs '+' (by simp)) (by decide)
  · dsimp only
    rw [if_neg (by simp [hempty, hall]), Int.one_mul]
    rw [Int.one_mul] at hvalue
    simp only [hvalue]

/-- `getResponseCode` -/
def getResponseCode (response : Text) : Except Thrown Int :=
  if response.length < 3 then .error .stringIndex
  else .ok ((parseInt (response.take 3)).getD (-1))

/-- `String.indexOf`; -1 when there is no occurrence. -/
def indexOf (s needle : Text) : Int :=
  match (List.range (s.length + 1)).find? fun i => needle.isPrefixOf (s.drop i) with
  | some i => i
  | none => -1

/-- `getLength` -/
def getLength (str : Text) : Except Thrown Int :=
  let start := indexOf str ['('] + 1
  let stop := indexOf str " bytes".toList
  if stop < start then .error .stringIndex
  else .ok ((parseInt ((str.take stop.toNat).drop start.toNat)).getD 0)

/-- What `getLatestVersion` makes of its reply line; `none` is `null`. -/
def getLatestVersion (response : Text) : Except Thrown (Option Text) :=
  match getResponseCode response with
  | .error e => .error e
  | .ok code =>
    if code = 216 then
      if response.length < 4 then .error .stringIndex else .ok (some (response.drop 4))
    else .ok none

/-! ## Transfer commands -/

/-- What `chat` comes to. -/
inductive ControlReply where
  | line (response : Text)
  /-- An `IOException`; the data channel may have left a network error. -/
  | ioError (theNetworkError : Bool)
deriving DecidableEq, Repr

/-- What a transfer command comes to: its result or an exception, and whether
it started a completion thread. -/
structure CallResult where
  result : Except Thrown Int
  started : Bool

/-- The common part of `retr` and `uins`; `length` is what they return for
the reply `150`. -/
def transferCommand (length : Text → Except Thrown Int) : ControlReply → CallResult
  | .line response =>
    match getResponseCode response with
    | .error e => ⟨.error e, false⟩
    | .ok code =>
      if code = 421 then ⟨.ok (-1), false⟩
      else if code = 150 then ⟨length response, true⟩
      else if code = 425 then ⟨.ok (-3), false⟩
      else ⟨.ok (-2), false⟩
  | .ioError theNetworkError =>
    if theNetworkError then ⟨.error .network, false⟩ else ⟨.ok (-4), false⟩

/-- `retr` -/
def retr : ControlReply → CallResult :=
  transferCommand getLength

/-- `uins` -/
def uins : ControlReply → CallResult :=
  transferCommand fun _ => .ok 0

/-- A transfer command that starts no completion thread throws or returns a
negative result. -/
theorem transferCommand_not_started {length : Text → Except Thrown Int} {reply : ControlReply}
    (h : (transferCommand length reply).started = false) :
    (∃ e, (transferCommand length reply).result = .error e) ∨
      ∃ n < 0, (transferCommand length reply).result = .ok n := by
  cases reply with
  | line response =>
      cases hcode : getResponseCode response with
      | error e => exact Or.inl ⟨e, by simp [transferCommand, hcode]⟩
      | ok code =>
          simp only [transferCommand, hcode] at h ⊢
          split
          · exact Or.inr ⟨-1, by decide, rfl⟩
          · rename_i htimeout
            split
            · rename_i hdata
              simp [hdata] at h
            · split
              · exact Or.inr ⟨-3, by decide, rfl⟩
              · exact Or.inr ⟨-2, by decide, rfl⟩
  | ioError theNetworkError =>
      cases theNetworkError with
      | false => exact Or.inr ⟨-4, by decide, rfl⟩
      | true => exact Or.inl ⟨.network, rfl⟩

end Client
end ModpackInstaller
