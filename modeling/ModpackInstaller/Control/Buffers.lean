import Mathlib.Data.List.DropRight
import ModpackInstaller.Control.Receiver
import ModpackInstaller.Library.Lines

/-!
# The buffers of the control connection

The receiving thread of {lit}`FtpCommandChannelReader.java` appends what arrives to
two buffers: {lit}`sb`, out of which the calls of {lit}`read` take characters, and
{lit}`lb`, out of which {lit}`logLine` takes a line for every newline in the chunk.
The steps are those of the receiving thread and of its callers, with the arrays of
the calls; the log is assumed to return.

Main results:

- Theorem {lit}`logNext_fold`: the loop over a chunk takes out the lines that it ends.
- Theorem {lit}`reader_of_run`: a run is a run of the receiving thread.
- Theorem {lit}`buffers_of_run`: over every run the characters that were handed out are
  those that were received, in front of those in the buffer, the lines of the log are
  those that a newline has ended, and every newline is found.
-/

namespace ModpackInstaller
namespace Control
namespace Buffers

open Library Receiver

variable {Caller : Type} [DecidableEq Caller]

/-! ## Reading -/

/-- The arguments of a call of `read`. -/
structure ReadCall where
  /-- The length of `cbuf`. -/
  size : Nat
  off : Int
  len : Int
deriving DecidableEq, Repr

/-- What a call of `read` copies and consumes when it does not wait; `none` when it
throws, behind a buffer that is too short or in front of `delete`. -/
def read (sb : Text) (r : ReadCall) : Option Text :=
  let n : Int := if (sb.length : Int) > r.len then r.len else sb.length
  if n < 0 then none
  else if 0 < n ∧ ¬ (0 ≤ r.off ∧ r.off + n ≤ r.size) then none
  else some (sb.take n.toNat)

/-- The characters that a call hands out. -/
def handedOut (sb : Text) (r : ReadCall) : Text :=
  (read sb r).getD []

/-- The reader with the buffer for the log. -/
structure Channel (Caller : Type) where
  reader : ReaderState Caller
  lb : Text
  log : List Text
  /-- The chunks that were received, for the statements only. -/
  received : List Text
  /-- What the calls of `read` have handed out, for the statements only. -/
  handed : List Text
  /-- `logLine` has not found a newline, and its exception has ended the thread. -/
  uncaught : Bool

/-- The buffers behind `start`. -/
def start : Channel Caller where
  reader := Receiver.start
  lb := []
  log := []
  received := []
  handed := []
  uncaught := false

/-! ## Lines -/

/-- `String.trim` -/
def trim (s : Text) : Text :=
  (s.dropWhile fun c => decide (c ≤ ' ')).rdropWhile fun c => decide (c ≤ ' ')

/-- `logLine` -/
def logLine (s : Channel Caller) : Channel Caller :=
  match s.lb.idxOf? '\n' with
  | none => { s with uncaught := true }
  | some n => { s with lb := s.lb.drop (n + 1), log := s.log ++ [trim (s.lb.take n)] }

/-- One turn of the loop over a chunk. -/
def logNext (s : Channel Caller) (c : Char) : Channel Caller :=
  if c = '\n' ∧ s.uncaught = false then logLine s else s

/-! ## Steps -/

inductive Event (Caller : Type) where
  | receive (data : Text) (woken : Option Caller)
  | endOfStream (woken : Option Caller)
  | fail
  | finish
  | enter (c : Caller) (r : ReadCall)
  | wait (c : Caller)
  | wake (c : Caller) (r : ReadCall)
  | spurious (c : Caller)
  | interrupt (c : Caller)

/-- The event of the receiving thread and its callers. -/
def Event.toReader (sb : Text) : Event Caller → ReaderEvent Caller
  | .receive data woken => .receive data woken
  | .endOfStream woken => .endOfStream woken
  | .fail => .fail
  | .finish => .finish
  | .enter c r => .enter c (handedOut sb r).length
  | .wait c => .wait c
  | .wake c r => .wake c (handedOut sb r).length
  | .spurious c => .spurious c
  | .interrupt c => .interrupt c

/-- The event is one of the receiving thread. -/
def Event.ofThread : Event Caller → Bool
  | .receive _ _ => true
  | .endOfStream _ => true
  | .fail => true
  | .finish => true
  | _ => false

def Enabled (s : Channel Caller) (e : Event Caller) : Prop :=
  ReaderEnabled s.reader (e.toReader s.reader.sb) ∧ (e.ofThread = true → s.uncaught = false)

instance (s : Channel Caller) (e : Event Caller) : Decidable (Enabled s e) :=
  inferInstanceAs (Decidable (_ ∧ (_ → _)))

/-- What happens to the reader. -/
def advance (s : Channel Caller) (e : Event Caller) : Channel Caller :=
  { s with reader := readerEffect s.reader (e.toReader s.reader.sb) }

def effect (s : Channel Caller) (e : Event Caller) : Channel Caller :=
  match e with
  | .receive data _ =>
    data.foldl logNext
      { advance s e with
        lb := s.lb ++ data
        received := s.received ++ [data] }
  | .enter _ r => { advance s e with handed := s.handed ++ [handedOut s.reader.sb r] }
  | .wake _ r => { advance s e with handed := s.handed ++ [handedOut s.reader.sb r] }
  | _ => advance s e

def step : Channel Caller → Event Caller → Option (Channel Caller) :=
  guarded Enabled effect

/-! ## What is handed out -/

/-- A call hands out characters from the front of the buffer. -/
theorem handedOut_front (sb : Text) (r : ReadCall) : handedOut sb r <+: sb := by
  unfold handedOut read
  dsimp only
  generalize (if (sb.length : Int) > r.len then r.len else (sb.length : Int)) = n
  split_ifs
  · exact List.nil_prefix
  · exact List.nil_prefix
  · exact List.take_prefix _ _

/-- What a call hands out stands in front of what it leaves. -/
theorem handedOut_append_drop (sb : Text) (r : ReadCall) :
    handedOut sb r ++ sb.drop (handedOut sb r).length = sb :=
  (List.prefix_append_drop (handedOut_front sb r)).symm

/-! ## The lines of a chunk -/

/-- The first newline stands behind the line that it ends. -/
theorem idxOf_newline {l : Text} (hl : '\n' ∉ l) (rest : Text) :
    (l ++ '\n' :: rest).idxOf? '\n' = some l.length := by
  induction l with
  | nil => simp [List.idxOf?_cons]
  | cons c l ih =>
      have hc : c ≠ '\n' := fun h => hl (h ▸ List.mem_cons_self)
      have hrest : '\n' ∉ l := fun h => hl (List.mem_cons_of_mem c h)
      rw [List.cons_append, List.idxOf?_cons, if_neg (by simpa using hc), ih hrest]
      rfl

omit [DecidableEq Caller] in
/-- A line in front of a newline is taken out. -/
theorem logLine_of_line {s : Channel Caller} {l rest : Text} (hl : '\n' ∉ l)
    (hlb : s.lb = l ++ '\n' :: rest) :
    logLine s = { s with lb := rest, log := s.log ++ [trim l] } := by
  have hfound : s.lb.idxOf? '\n' = some l.length := by
    rw [hlb]
    exact idxOf_newline hl rest
  simp only [logLine, hfound]
  rw [hlb]
  simp

omit [DecidableEq Caller] in
/-- The loop over a chunk takes out one line for each of its newlines. -/
theorem logNext_fold (data : Text) {s : Channel Caller} {ls : List Text} {e : Text}
    (hls : ∀ l ∈ ls, '\n' ∉ l) (hlb : s.lb = unpieces '\n' ls ++ e)
    (hcount : data.count '\n' = ls.length) (hfound : s.uncaught = false) :
    data.foldl logNext s = { s with lb := e, log := s.log ++ ls.map trim } := by
  induction data generalizing s ls with
  | nil =>
      have hnil : ls = [] := List.length_eq_zero_iff.mp hcount.symm
      rw [hnil, unpieces_nil, List.nil_append] at hlb
      rw [hnil, ← hlb]
      simp
  | cons c data ih =>
      rw [List.foldl_cons]
      by_cases hc : c = '\n'
      · cases ls with
        | nil => simp [hc] at hcount
        | cons l ls =>
            rw [unpieces_cons, List.append_assoc, List.cons_append] at hlb
            have hnext := logLine_of_line (hls l List.mem_cons_self) hlb
            have hrest : ∀ l' ∈ ls, '\n' ∉ l' :=
              fun l' hl' => hls l' (List.mem_cons_of_mem l hl')
            have hcount' : data.count '\n' = ls.length := by simpa [hc] using hcount
            have hloop := ih (s := logLine s) hrest (by rw [hnext]) hcount' (by rwa [hnext])
            rw [logNext, if_pos ⟨hc, hfound⟩, hloop, hnext]
            simp
      · rw [logNext, if_neg fun h => hc h.1]
        refine ih hls hlb ?_ hfound
        rwa [List.count_cons_of_ne hc] at hcount

/-- A text has a newline for each of its ended lines. -/
theorem count_unpieces_append {ls : List Text} {e : Text} (hls : ∀ l ∈ ls, '\n' ∉ l)
    (he : '\n' ∉ e) : (unpieces '\n' ls ++ e).count '\n' = ls.length := by
  induction ls with
  | nil => exact List.count_eq_zero_of_not_mem he
  | cons l ls ih =>
      have hl : l.count '\n' = 0 := List.count_eq_zero_of_not_mem (hls l List.mem_cons_self)
      rw [unpieces_cons, List.append_assoc, List.cons_append, List.count_append, hl,
        List.count_cons_self, ih fun l' hl' => hls l' (List.mem_cons_of_mem l hl')]
      simp

/-! ## The invariant -/

/-- What was handed out and what is in the buffer is what was received, the buffer for the
log holds what stands behind the last newline, and the lines in front of it are in the log. -/
structure Kept (s : Channel Caller) : Prop where
  stream : s.handed.flatten ++ s.reader.sb = s.received.flatten
  lines : ∃ ls : List Text, (∀ l ∈ ls, '\n' ∉ l) ∧ '\n' ∉ s.lb ∧
    s.received.flatten = unpieces '\n' ls ++ s.lb ∧ s.log = ls.map trim
  found : s.uncaught = false

omit [DecidableEq Caller] in
theorem kept_start : Kept (start : Channel Caller) :=
  ⟨rfl, ⟨[], by simp, List.not_mem_nil, rfl, rfl⟩, rfl⟩

section Steps

variable {s : Channel Caller}

/-- A step of the reader that takes nothing out of the buffer. -/
theorem Kept.advance (h : Kept s) {e : Event Caller}
    (hsb : (Buffers.advance s e).reader.sb = s.reader.sb) : Kept (Buffers.advance s e) :=
  ⟨by rw [hsb]; exact h.stream, h.lines, h.found⟩

/-- A call that takes what it hands out. -/
theorem Kept.handed (h : Kept s) {e : Event Caller} {r : ReadCall}
    (hsb : (Buffers.advance s e).reader.sb = s.reader.sb.drop (handedOut s.reader.sb r).length) :
    Kept { Buffers.advance s e with handed := s.handed ++ [handedOut s.reader.sb r] } := by
  refine ⟨?_, h.lines, h.found⟩
  rw [List.flatten_append, List.flatten_singleton, List.append_assoc, hsb, handedOut_append_drop]
  exact h.stream

/-- A call that enters takes what it hands out; one that has to wait hands out nothing. -/
theorem enter_sb (s : ReaderState Caller) (c : Caller) (r : ReadCall) :
    (readerEffect s (.enter c (handedOut s.sb r).length)).sb =
      s.sb.drop (handedOut s.sb r).length := by
  unfold readerEffect
  dsimp only
  cases hanswer : readAnswer s (handedOut s.sb r).length with
  | some a => rfl
  | none =>
      have hempty : s.sb = [] := by
        by_contra hne
        simp [readAnswer, hne] at hanswer
      simp [hempty]

/-- The chunk goes to both buffers, and the lines that it ends go to the log. -/
theorem Kept.receive (h : Kept s) (data : Text) (woken : Option Caller) :
    Kept (effect s (.receive data woken)) := by
  obtain ⟨ls, hls, -, hreceived, hlog⟩ := h.lines
  obtain ⟨new, e, hnew, he, hsplit⟩ := exists_unpieces_append '\n' (s.lb ++ data)
  have hlb : '\n' ∉ s.lb := h.lines.choose_spec.2.1
  have hcount : data.count '\n' = new.length := by
    have hall := count_unpieces_append hnew he
    rw [← hsplit, List.count_append, List.count_eq_zero_of_not_mem hlb, Nat.zero_add] at hall
    exact hall
  have hloop : effect s (.receive data woken) = _ := logNext_fold data (s :=
    { Buffers.advance s (.receive data woken) with
      lb := s.lb ++ data
      received := s.received ++ [data] }) hnew hsplit hcount h.found
  rw [hloop]
  have hlines : (s.received ++ [data]).flatten = unpieces '\n' (ls ++ new) ++ e := by
    rw [List.flatten_append, List.flatten_singleton, hreceived, List.append_assoc, hsplit,
      unpieces_append, List.append_assoc]
  have hlogged : s.log ++ new.map trim = (ls ++ new).map trim := by
    rw [List.map_append, ← hlog]
  have hfree : ∀ l ∈ ls ++ new, '\n' ∉ l := List.forall_mem_append.mpr ⟨hls, hnew⟩
  refine ⟨?_, ⟨ls ++ new, hfree, he, hlines, hlogged⟩, h.found⟩
  rw [List.flatten_append, List.flatten_singleton, ← h.stream, List.append_assoc]
  simp [Buffers.advance, Event.toReader, readerEffect]

/-- Every step keeps the buffers in step with the stream. -/
theorem kept_step (h : Kept s) (e : Event Caller) : Kept (effect s e) := by
  cases e with
  | receive data woken => exact h.receive data woken
  | endOfStream woken => exact h.advance (by simp [Buffers.advance, Event.toReader, readerEffect])
  | fail => exact h.advance rfl
  | finish => exact h.advance rfl
  | enter c r => exact h.handed (enter_sb s.reader c r)
  | wait c => exact h.advance rfl
  | wake c r => exact h.handed rfl
  | spurious c => exact h.advance rfl
  | interrupt c => exact h.advance rfl

end Steps

/-! ## Runs -/

omit [DecidableEq Caller] in
/-- The loop over a chunk does not touch the reader. -/
@[simp] theorem logNext_reader (data : Text) (s : Channel Caller) :
    (data.foldl logNext s).reader = s.reader := by
  induction data generalizing s with
  | nil => rfl
  | cons c data ih =>
      rw [List.foldl_cons, ih]
      unfold logNext logLine
      split_ifs
      · split <;> rfl
      · rfl

/-- A step is the step of the reader. -/
theorem effect_reader (s : Channel Caller) (e : Event Caller) :
    (effect s e).reader = readerEffect s.reader (e.toReader s.reader.sb) := by
  cases e with
  | receive data woken => exact logNext_reader data _
  | endOfStream woken => rfl
  | fail => rfl
  | finish => rfl
  | enter c r => rfl
  | wait c => rfl
  | wake c r => rfl
  | spurious c => rfl
  | interrupt c => rfl

/-- A run is a run of the receiving thread and its callers. -/
theorem reader_of_run {events : List (Event Caller)} {s₀ s : Channel Caller}
    (hrun : run step s₀ events = some s) :
    ∃ readerEvents, run readerStep s₀.reader readerEvents = some s.reader := by
  induction events generalizing s₀ with
  | nil =>
      rw [run_nil, Option.some.injEq] at hrun
      exact ⟨[], by rw [hrun, run_nil]⟩
  | cons e events ih =>
      rw [run_cons, Option.bind_eq_some_iff] at hrun
      obtain ⟨s₁, hfirst, hrest⟩ := hrun
      obtain ⟨⟨henabled, -⟩, rfl⟩ := guarded_eq_some.mp hfirst
      obtain ⟨rest, hreader⟩ := ih hrest
      refine ⟨e.toReader s₀.reader.sb :: rest, ?_⟩
      have hstep : readerStep s₀.reader (e.toReader s₀.reader.sb) =
          some (effect s₀ e).reader :=
        guarded_eq_some.mpr ⟨henabled, (effect_reader s₀ e).symm⟩
      rw [run_cons, hstep, Option.bind_some, hreader]

/-- Over every run the characters that were handed out are those that were received, in
front of those in the buffer, the lines of the log are those that a newline has ended, and
every newline is found. -/
theorem buffers_of_run {events : List (Event Caller)} {s : Channel Caller}
    (hrun : run step start events = some s) :
    s.handed.flatten <+: s.received.flatten ∧
      s.handed.flatten ++ s.reader.sb = s.received.flatten ∧
      s.log = ((s.received.flatten.splitOn '\n').dropLast).map trim ∧ s.uncaught = false := by
  have hkept : Kept s :=
    guarded_invariant_of_step (fun s e (h : Kept s) _ => kept_step h e) kept_start hrun
  obtain ⟨ls, hls, hlb, hreceived, hlog⟩ := hkept.lines
  refine ⟨⟨s.reader.sb, hkept.stream⟩, hkept.stream, ?_, hkept.found⟩
  rw [hlog, hreceived, splitOn_unpieces_append hls hlb, List.dropLast_concat]

/-- A caller takes one character between two chunks, and the second chunk ends the line. -/
theorem buffers_twoChunks :
    ∃ s, run step (start : Channel Nat)
      [.receive "ab".toList none, .enter 0 ⟨1, 0, 1⟩, .receive "c\nd".toList none] = some s ∧
      s.handed.flatten <+: s.received.flatten ∧
      s.handed.flatten ++ s.reader.sb = s.received.flatten ∧
      s.log = ((s.received.flatten.splitOn '\n').dropLast).map trim ∧ s.uncaught = false := by
  refine ⟨_, rfl, ?_⟩
  exact @buffers_of_run Nat _
    [.receive "ab".toList none, .enter 0 ⟨1, 0, 1⟩, .receive "c\nd".toList none] _ rfl

end Buffers
end Control
end ModpackInstaller
