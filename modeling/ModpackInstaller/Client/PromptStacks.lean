import ModpackInstaller.Client.InstallerWindow
import ModpackInstaller.Library.Traced

/-!
# The prompt stacks of the window

The two lists of listeners of {lit}`InstallerWindow` beside what its buttons show, with
every operation on them.  A listener is an object; what it does when it is called is a
list of operations again, clicks among them.

Main results:

- Theorem {lit}`inOrder_perform`: an operation, with all that the listeners do that it
  calls, keeps the buttons in order and finds a listener where it looks for one.
- Theorem {lit}`inOrder_performAll`: the same for every sequence of operations.
-/

namespace ModpackInstaller
namespace Client
namespace PromptStacks

open Library Library.Traced

/-! ## The operations -/

/-- The text of the proceed button. -/
inductive ProceedText where
  | startLauncher
  | proceed
deriving DecidableEq, Repr

/-- The lists of the window and its buttons. -/
structure Prompts (Listener : Type) where
  proceedListeners : List Listener
  abortListeners : List Listener
  proceedEnabled : Bool
  proceedText : ProceedText
  abortEnabled : Bool
deriving DecidableEq, Repr

variable {Listener : Type} [DecidableEq Listener]

/-- The window behind `initComponents`. -/
def Prompts.start : Prompts Listener where
  proceedListeners := []
  abortListeners := []
  proceedEnabled := false
  proceedText := .proceed
  abortEnabled := false

section Operations

variable (startMinecraftListener : Listener)

/-- The text for a list of listeners. -/
def textFor (proceedListeners : List Listener) : ProceedText :=
  if proceedListeners.getLast? = some startMinecraftListener then .startLauncher else .proceed

namespace Prompts

variable (p : Prompts Listener)

/-- `setProceedListener` -/
def setProceedListener (proceedListener : Listener) : Prompts Listener :=
  let proceedListeners := p.proceedListeners ++ [proceedListener]
  { p with
    proceedListeners := proceedListeners
    proceedEnabled := true
    proceedText := textFor startMinecraftListener proceedListeners }

omit [DecidableEq Listener] in
/-- `setAbortListener` -/
def setAbortListener (abortListener : Listener) : Prompts Listener :=
  { p with abortListeners := p.abortListeners ++ [abortListener], abortEnabled := true }

/-- `dropProceedListener` -/
def dropProceedListener (proceedListener : Listener) : Prompts Listener :=
  let proceedListeners := p.proceedListeners.erase proceedListener
  { p with
    proceedListeners := proceedListeners
    proceedEnabled := !proceedListeners.isEmpty
    proceedText := textFor startMinecraftListener proceedListeners }

/-- `dropAbortListener` -/
def dropAbortListener (abortListener : Listener) : Prompts Listener :=
  let abortListeners := p.abortListeners.erase abortListener
  { p with abortListeners := abortListeners, abortEnabled := !abortListeners.isEmpty }

/-- `dropAllProceedListeners` -/
def dropAllProceedListeners : Prompts Listener :=
  { p with proceedListeners := [], proceedEnabled := false, proceedText := .proceed }

/-- `dropAllAbortListeners` -/
def dropAllAbortListeners : Prompts Listener :=
  { p with abortListeners := [], abortEnabled := false }

/-- `proceedButtonActionPerformed` up to the call of the listener. -/
def takeProceed (listener : Listener) : Prompts Listener :=
  let proceedListeners := p.proceedListeners.erase listener
  let p := { p with
    proceedListeners := proceedListeners
    proceedEnabled := !proceedListeners.isEmpty }
  let p := match p.abortListeners.getLast? with
    | some abortListener => p.dropAbortListener abortListener
    | none => p
  { p with proceedText := textFor startMinecraftListener p.proceedListeners }

/-- `abortButtonActionPerformed` up to the call of the listener. -/
def takeAbort (listener : Listener) : Prompts Listener :=
  let abortListeners := p.abortListeners.erase listener
  let p := { p with abortListeners := abortListeners, abortEnabled := !abortListeners.isEmpty }
  let p := match p.proceedListeners.getLast? with
    | some proceedListener => p.dropProceedListener startMinecraftListener proceedListener
    | none => p
  { p with proceedText := textFor startMinecraftListener p.proceedListeners }

end Prompts

/-- What `proceedButtonActionPerformed` looks at in the window. -/
structure Front where
  state : InstallerWindow.Bits
  selectedIndex : Int
  componentCount : Nat
deriving DecidableEq, Repr

/-- The button only leads back from the log to a panel. -/
def Front.leadsBack (f : Front) : Bool :=
  f.state ≠ InstallerWindow.stateOk && f.selectedIndex == 0 && decide (1 < f.componentCount)

/-- An operation.  A click comes with what the listener does that it calls. -/
inductive Op (Listener : Type) where
  | setProceedListener (proceedListener : Listener)
  | setAbortListener (abortListener : Listener)
  | dropProceedListener (proceedListener : Listener)
  | dropAbortListener (abortListener : Listener)
  | dropAllProceedListeners
  | dropAllAbortListeners
  | clickProceed (front : Front) (actionPerformed : List (Op Listener))
  | clickAbort (actionPerformed : List (Op Listener))

/-- `IndexOutOfBoundsException` -/
inductive Failure where
  | indexOutOfBounds
deriving DecidableEq, Repr

/-- A part of a run, with the windows that it leaves on its way. -/
abbrev Part (Listener : Type) := Traced (Prompts Listener) Failure (Prompts Listener)

/-- A window is left. -/
def leave (p : Prompts Listener) : Part Listener :=
  (emit p).andThen fun _ => call (.ok p)

mutual

/-- One operation.  A button that is not enabled cannot be clicked. -/
def perform : Op Listener → Prompts Listener → Part Listener
  | .setProceedListener l, p => leave (p.setProceedListener startMinecraftListener l)
  | .setAbortListener l, p => leave (p.setAbortListener l)
  | .dropProceedListener l, p => leave (p.dropProceedListener startMinecraftListener l)
  | .dropAbortListener l, p => leave (p.dropAbortListener l)
  | .dropAllProceedListeners, p => leave p.dropAllProceedListeners
  | .dropAllAbortListeners, p => leave p.dropAllAbortListeners
  | .clickProceed front actionPerformed, p =>
    if !p.proceedEnabled then call (.ok p)
    else if front.leadsBack then call (.ok p)
    else
      match p.proceedListeners.getLast? with
      | none => call (.error .indexOutOfBounds)
      | some listener =>
        (leave (p.takeProceed startMinecraftListener listener)).andThen
          (performAll actionPerformed)
  | .clickAbort actionPerformed, p =>
    if !p.abortEnabled then call (.ok p)
    else
      match p.abortListeners.getLast? with
      | none => call (.error .indexOutOfBounds)
      | some listener =>
        (leave (p.takeAbort startMinecraftListener listener)).andThen (performAll actionPerformed)

/-- One operation after the other. -/
def performAll : List (Op Listener) → Prompts Listener → Part Listener
  | [], p => call (.ok p)
  | op :: ops, p => (perform op p).andThen (performAll ops)

end

/-! ## Buttons in order -/

/-- The buttons show what the lists say. -/
structure InOrder (p : Prompts Listener) : Prop where
  proceed : p.proceedEnabled = true ↔ p.proceedListeners ≠ []
  abort : p.abortEnabled = true ↔ p.abortListeners ≠ []
  text : p.proceedText = .startLauncher ↔
    p.proceedListeners.getLast? = some startMinecraftListener

variable {startMinecraftListener} {p : Prompts Listener}

omit [DecidableEq Listener] in
/-- The buttons are in order when the window opens: the start of Minecraft is the one listener. -/
theorem inOrder_start : InOrder startMinecraftListener Prompts.start := by
  constructor <;> simp [Prompts.start]

/-- The text offers the start of the launcher exactly when the start is the last listener. -/
theorem textFor_eq_startLauncher (ls : List Listener) :
    textFor startMinecraftListener ls = .startLauncher ↔
      ls.getLast? = some startMinecraftListener := by
  simp [textFor]

/-- A further listener of the left button enables it and sets its text. -/
theorem InOrder.setProceedListener (h : InOrder startMinecraftListener p) (l : Listener) :
    InOrder startMinecraftListener (p.setProceedListener startMinecraftListener l) where
  proceed := by simp [Prompts.setProceedListener]
  abort := h.abort
  text := textFor_eq_startLauncher _

omit [DecidableEq Listener] in
/-- A further listener of the right button enables it. -/
theorem InOrder.setAbortListener (h : InOrder startMinecraftListener p) (l : Listener) :
    InOrder startMinecraftListener (p.setAbortListener l) where
  proceed := h.proceed
  abort := by simp [Prompts.setAbortListener]
  text := h.text

/-- Without one of its listeners the left button follows what is left. -/
theorem InOrder.dropProceedListener (h : InOrder startMinecraftListener p) (l : Listener) :
    InOrder startMinecraftListener (p.dropProceedListener startMinecraftListener l) where
  proceed := by simp [Prompts.dropProceedListener]
  abort := h.abort
  text := textFor_eq_startLauncher _

/-- Without one of its listeners the right button follows what is left. -/
theorem InOrder.dropAbortListener (h : InOrder startMinecraftListener p) (l : Listener) :
    InOrder startMinecraftListener (p.dropAbortListener l) where
  proceed := h.proceed
  abort := by simp [Prompts.dropAbortListener]
  text := h.text

omit [DecidableEq Listener] in
/-- Without any listener the left button is disabled. -/
theorem InOrder.dropAllProceedListeners (h : InOrder startMinecraftListener p) :
    InOrder startMinecraftListener p.dropAllProceedListeners where
  proceed := by simp [Prompts.dropAllProceedListeners]
  abort := h.abort
  text := by simp [Prompts.dropAllProceedListeners]

omit [DecidableEq Listener] in
/-- Without any listener the right button is disabled. -/
theorem InOrder.dropAllAbortListeners (h : InOrder startMinecraftListener p) :
    InOrder startMinecraftListener p.dropAllAbortListeners where
  proceed := h.proceed
  abort := by simp [Prompts.dropAllAbortListeners]
  text := h.text

/-- A click takes the last listener off and leaves the left button in order. -/
theorem InOrder.takeProceed (h : InOrder startMinecraftListener p) (l : Listener) :
    InOrder startMinecraftListener (p.takeProceed startMinecraftListener l) := by
  unfold Prompts.takeProceed
  cases hlast : p.abortListeners.getLast? with
  | none =>
      simp only [hlast]
      exact ⟨by simp, h.abort, textFor_eq_startLauncher _⟩
  | some abortListener =>
      simp only [hlast]
      exact ⟨by simp [Prompts.dropAbortListener], by simp [Prompts.dropAbortListener],
        textFor_eq_startLauncher _⟩

/-- The same of the right button. -/
theorem InOrder.takeAbort (h : InOrder startMinecraftListener p) (l : Listener) :
    InOrder startMinecraftListener (p.takeAbort startMinecraftListener l) := by
  unfold Prompts.takeAbort
  cases hlast : p.proceedListeners.getLast? with
  | none =>
      simp only [hlast]
      exact ⟨h.proceed, by simp, textFor_eq_startLauncher _⟩
  | some proceedListener =>
      simp only [hlast]
      exact ⟨by simp [Prompts.dropProceedListener], by simp [Prompts.dropProceedListener],
        textFor_eq_startLauncher _⟩

/-! ## Runs -/

variable (startMinecraftListener) in
/-- A part of a run that finds a listener wherever it looks for one and leaves the buttons
in order, at its end and all the way. -/
def Sound (x : Part Listener) : Prop :=
  (∃ p, x.result = .ok p ∧ InOrder startMinecraftListener p) ∧
    ∀ q ∈ x.events, InOrder startMinecraftListener q

omit [DecidableEq Listener] in
/-- A call that touches nothing is sound. -/
theorem sound_call (h : InOrder startMinecraftListener p) :
    Sound startMinecraftListener (call (.ok p)) :=
  ⟨⟨p, rfl, h⟩, by simp⟩

omit [DecidableEq Listener] in
/-- So is leaving a window in order. -/
theorem sound_leave (h : InOrder startMinecraftListener p) :
    Sound startMinecraftListener (leave p) :=
  ⟨⟨p, rfl, h⟩, by simpa [leave, emit, andThen, call] using h⟩

omit [DecidableEq Listener] in
/-- Two sound parts are sound one after the other. -/
theorem sound_andThen {x : Part Listener} {f : Prompts Listener → Part Listener}
    (hx : Sound startMinecraftListener x)
    (hf : ∀ q, InOrder startMinecraftListener q →
      Sound startMinecraftListener (f q)) :
    Sound startMinecraftListener (x.andThen f) := by
  obtain ⟨⟨q, hq, horder⟩, hevents⟩ := hx
  obtain ⟨hresult, hrest⟩ := hf q horder
  rw [andThen_of_ok hq]
  exact ⟨hresult, List.forall_mem_append.mpr ⟨hevents, hrest⟩⟩

mutual

/-- An operation keeps the buttons in order, with all that the listeners do that it
calls, and a click finds a listener. -/
theorem inOrder_perform : ∀ (op : Op Listener) {p : Prompts Listener},
    InOrder startMinecraftListener p →
      Sound startMinecraftListener (perform startMinecraftListener op p)
  | .setProceedListener l, _, h => sound_leave (h.setProceedListener l)
  | .setAbortListener l, _, h => sound_leave (h.setAbortListener l)
  | .dropProceedListener l, _, h => sound_leave (h.dropProceedListener l)
  | .dropAbortListener l, _, h => sound_leave (h.dropAbortListener l)
  | .dropAllProceedListeners, _, h => sound_leave h.dropAllProceedListeners
  | .dropAllAbortListeners, _, h => sound_leave h.dropAllAbortListeners
  | .clickProceed front actionPerformed, p, h => by
      rw [perform]
      split
      · exact sound_call h
      · rename_i henabled
        split
        · exact sound_call h
        · -- An enabled button has a listener.
          have hlisteners : p.proceedListeners ≠ [] := h.proceed.mp (by simpa using henabled)
          rw [List.getLast?_eq_some_getLast hlisteners]
          exact sound_andThen (sound_leave (h.takeProceed _)) fun q hq =>
            inOrder_performAll actionPerformed hq
  | .clickAbort actionPerformed, p, h => by
      rw [perform]
      split
      · exact sound_call h
      · rename_i henabled
        have hlisteners : p.abortListeners ≠ [] := h.abort.mp (by simpa using henabled)
        rw [List.getLast?_eq_some_getLast hlisteners]
        exact sound_andThen (sound_leave (h.takeAbort _)) fun q hq =>
          inOrder_performAll actionPerformed hq

/-- All operations of a listener in turn keep the buttons in order. -/
theorem inOrder_performAll : ∀ (ops : List (Op Listener)) {p : Prompts Listener},
    InOrder startMinecraftListener p →
      Sound startMinecraftListener (performAll startMinecraftListener ops p)
  | [], _, h => by
      rw [performAll]
      exact sound_call h
  | op :: ops, _, h => by
      rw [performAll]
      exact sound_andThen (inOrder_perform op h) fun q hq => inOrder_performAll ops hq

end

variable (startMinecraftListener) in
/-- Over every sequence of operations on a new window, with whatever the listeners do that
are called on the way, no click fails, and behind every operation the buttons are enabled
when their lists are not empty and the proceed button offers the launcher when its last
listener is the one that starts it. -/
theorem inOrder_of_start (ops : List (Op Listener)) :
    (∃ p, (performAll startMinecraftListener ops Prompts.start).result = .ok p ∧
      InOrder startMinecraftListener p) ∧
    ∀ q ∈ (performAll startMinecraftListener ops Prompts.start).events,
      InOrder startMinecraftListener q :=
  inOrder_performAll ops inOrder_start

/-- A proceed listener that sets the launcher's and an abort prompt of its own, which is
taken back. -/
example :
    (performAll 0 [.setProceedListener 1, .clickProceed ⟨0, 0, 1⟩
        [.setProceedListener 0, .setAbortListener 2], .clickAbort []] Prompts.start).events.map
      (fun p => (p.proceedListeners, p.proceedText, p.abortEnabled)) =
    [([1], .proceed, false), ([], .proceed, false), ([0], .startLauncher, false),
      ([0], .startLauncher, true), ([], .proceed, false)] := by
  decide

end Operations

end PromptStacks
end Client
end ModpackInstaller
