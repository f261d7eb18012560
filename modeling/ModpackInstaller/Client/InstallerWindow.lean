import Mathlib.Data.List.Basic
import ModpackInstaller.Library.Run

/-!
# The installer window

The state of {lit}`InstallerWindow` with its two listener stacks, the panels in its
tab pane and the threads at work, and what the menus, the buttons, the panels of
{lit}`InstallPanel` and the threads do to it.  What a connection, a file or the user
comes to is the input of a step.  A step is a stretch of a thread in which it reads
the state once at most or writes it once at most: a thread that does {lit}`state |= bits`
or {lit}`state &= ~bits` reads the state in one step and writes it in a later one.  The
event thread finishes what it has begun before it takes up something else.  A listener
is named by the place that sets it.

Main results:

- Theorem {lit}`mem_removeLast`: which listeners stay when the last one is taken.
-/

namespace ModpackInstaller
namespace Client
namespace InstallerWindow

open Library

/-! ## States -/

/-- `int state` -/
abbrev Bits := BitVec 32

def stateOk : Bits := 0
def stateConfig : Bits := 1
def stateInstall : Bits := 2
def stateWorking : Bits := 4
def stateError : Bits := 8
def stateFirst : Bits := 16

/-- `ERROR` as a window sees it, which is `ImageObserver.ERROR`. -/
def imageObserverError : Bits := 64

/-- The listeners of the proceed button. -/
inductive Proceed where
  /-- `startMinecraftListener` -/
  | startMinecraft
  | askFtpCredentials
  | update
  | commitConfig
  | commitParams
  /-- `begin((state & STATE_FIRST) > 0)` -/
  | begin
  /-- `begin(false)` -/
  | beginAgain
  /-- The add-on panel of a first installation. -/
  | firstAddons
  /-- The add-on panel behind its button. -/
  | addons
deriving DecidableEq, Repr

/-- The listeners of the abort button. -/
inductive Abort where
  | revertConfig
  | dropParams
  | dropInstall
  /-- The add-on panel of a first installation. -/
  | firstAddons
  /-- The install panel behind that one. -/
  | dropAll
  /-- The add-on panel behind its button. -/
  | addons
deriving DecidableEq, Repr

/-- The updates `state |= bits` and `state &= ~bits`, by the place that makes them. -/
inductive Update where
  | commitConfig
  | commitParams
  | revertConfig
  | dropParams
  /-- The abort listener of the install panel. -/
  | dropInstall
  | prefMenu
  /-- `paramsMenuActionPerformed` on the event thread, or on the installer thread. -/
  | paramsMenu (onEvents : Bool)
  /-- `beginWithInstallation` on the event thread, or on the login thread. -/
  | beginWithInstallation (onEvents : Bool)
  /-- `state |= STATE_FIRST` -/
  | firstRun
  /-- The listener behind the list of packs. -/
  | showInstall
  /-- The completed listener. -/
  | completed
deriving DecidableEq, Repr

/-- The value that is written for the one that was read. -/
def Update.apply (read : Bits) : Update → Bits
  | .commitConfig | .commitParams | .revertConfig | .dropParams => read &&& ~~~stateConfig
  | .dropInstall => read &&& ~~~(stateInstall ||| stateWorking)
  | .prefMenu | .paramsMenu _ => read ||| stateConfig
  | .beginWithInstallation _ => read ||| stateInstall
  | .firstRun => read ||| stateFirst
  | .showInstall => read &&& ~~~stateWorking
  | .completed => read &&& ~~~stateInstall

/-- The event thread makes this update. -/
def Update.onEvents : Update → Bool
  | .paramsMenu onEvents | .beginWithInstallation onEvents => onEvents
  | .firstRun | .showInstall | .completed => false
  | _ => true

/-- What the installer thread downloads. -/
inductive Installation where
  | pack
  /-- A pack that is there and not registered. -/
  | update
  | addons
deriving DecidableEq, Repr

/-- The threads, dialogs and tasks that are under way, by what they wait for. -/
inductive Worker where
  /-- `beginWithFTP` -/
  | connect
  /-- The dialog of `askFtpCredentialsAndLogin` -/
  | askCredentials
  /-- `LoginAndCheckUpdate` -/
  | login
  /-- The same behind the offer of an update. -/
  | loginOffered
  /-- The same with everything up to date. -/
  | loginFine
  /-- The update threads, which set the state first. -/
  | updateStart
  | update
  /-- `beginWithInstallation` -/
  | listRequest
  /-- The transfer of the list of packs. -/
  | listTransfer
  /-- The task that sets the proceed listener behind it. -/
  | offerBegin
  /-- `testMenuActionPerformed` before it reads the state, before it writes it and
  behind that; `oldState` is what it read. -/
  | testStart
  | testBegins (oldState : Bits)
  | test (oldState : Bits)
  /-- The data thread alone. -/
  | testData (oldState : Bits)
  /-- The test thread alone. -/
  | testReply
  /-- `begin` with its argument; `inTabs` says whether it found the tab pane. -/
  | installStart (first : Bool)
  | install (first inTabs : Bool)
  /-- `begin` behind the removal of its panel, with the add-on panel next. -/
  | nextAddons (inTabs : Bool)
  | download (what : Installation)
  /-- The completed listener before it looks for `STATE_FIRST`, and before
  `paramsMenuActionPerformed`. -/
  | completes
  | asksParams
  /-- `startMinecraft` -/
  | launch
  /-- The listener that calls `begin((state & STATE_FIRST) > 0)`. -/
  | beginning
  /-- The listener of the add-on panel of a first installation, which takes over the
  selection. -/
  | takeAddons
  /-- A thread that is about to read the state for an update. -/
  | updates (u : Update)
  /-- A thread that has read the state and is about to write it. -/
  | stores (u : Update) (read : Bits)
deriving DecidableEq, Repr

/-- The event thread is in the middle of something. -/
def Worker.onEvents : Worker → Bool
  | .beginning | .takeAddons => true
  | .updates u | .stores u _ => u.onEvents
  | _ => false

/-- A window. -/
structure Window where
  state : Bits
  proceedListeners : List Proceed
  abortListeners : List Abort
  configPanel : Bool
  installPanel : Bool
  parameterPanel : Bool
  /-- The tabs with add-ons, and whether `addonsPanel` is one of them. -/
  addonTabs : Nat
  addonsPanel : Bool
  addonsOpenedOnce : Bool
  workers : List Worker
deriving DecidableEq, Repr

/-- The window as its constructor leaves it. -/
def Window.start : Window where
  state := stateWorking
  proceedListeners := []
  abortListeners := []
  configPanel := false
  installPanel := false
  parameterPanel := false
  addonTabs := 0
  addonsPanel := false
  addonsOpenedOnce := false
  workers := [.connect]

namespace Window

variable (w : Window)

/-- `setProceedListener` -/
def setProceedListener (l : Proceed) : Window :=
  { w with proceedListeners := w.proceedListeners ++ [l] }

/-- `setAbortListener` -/
def setAbortListener (l : Abort) : Window :=
  { w with abortListeners := w.abortListeners ++ [l] }

/-- `dropAllProceedListeners` -/
def dropAllProceedListeners : Window :=
  { w with proceedListeners := [] }

/-- `dropAllAbortListeners` -/
def dropAllAbortListeners : Window :=
  { w with abortListeners := [] }

/-- A thread starts. -/
def spawn (x : Worker) : Window :=
  { w with workers := x :: w.workers }

/-- A thread ends. -/
def finish (x : Worker) : Window :=
  { w with workers := w.workers.erase x }

/-- A new add-on panel. -/
def openAddons : Window :=
  { w with addonTabs := w.addonTabs + 1, addonsPanel := true, addonsOpenedOnce := true }

/-- `tabPane.remove(addonsPanel)` -/
def removeAddons : Window :=
  if w.addonsPanel then { w with addonTabs := w.addonTabs - 1, addonsPanel := false } else w

@[simp] theorem removeAddons_state : w.removeAddons.state = w.state := by
  unfold removeAddons
  split <;> rfl

@[simp] theorem removeAddons_workers : w.removeAddons.workers = w.workers := by
  unfold removeAddons
  split <;> rfl

/-- The tab pane has more than the log. -/
def hasTabs : Bool :=
  w.configPanel || w.installPanel || w.parameterPanel || decide (0 < w.addonTabs)

/-- `(state & STATE_FIRST) > 0` -/
def isFirst : Bool :=
  decide (w.state &&& stateFirst ≠ 0)

end Window

/-- `proceedListeners.remove` of the last listener.  All listeners are objects of
their own but that of the launcher, whose first occurrence goes. -/
def removeLast (ls : List Proceed) : List Proceed :=
  if ls.getLast? = some .startMinecraft then ls.erase .startMinecraft else ls.dropLast

/-- Both buttons take the last listener of each. -/
def popListeners (w : Window) : Window :=
  { w with
    proceedListeners := removeLast w.proceedListeners
    abortListeners := w.abortListeners.dropLast }

/-! ## Installing -/

/-- `beginWithInstallation` -/
def beginWithInstallation (onEvents : Bool) (w : Window) : Window :=
  w.spawn (.updates (.beginWithInstallation onEvents))

/-- `InstallPanel.begin` -/
def begin (first : Bool) (w : Window) : Window :=
  w.dropAllProceedListeners.spawn (.installStart first)

/-- `paramsMenuActionPerformed`; `changes` is what `changeJvmParameters` returns. -/
def paramsMenu (onEvents changes : Bool) (w : Window) : Window :=
  if w.state &&& ~~~stateFirst = stateOk ∧ changes = true then
    ((w.setProceedListener .commitParams).setAbortListener .dropParams).spawn
      (.updates (.paramsMenu onEvents))
  else w

/-- The completed listener with id 0 or 1. -/
def completed (w : Window) : Window :=
  (w.setProceedListener .startMinecraft).spawn (.updates .completed)

/-- The completed listener with id 2. -/
def refused (w : Window) : Window :=
  (w.setAbortListener .dropInstall).setProceedListener .begin

/-- What the installer thread finds in the directory. -/
inductive Detected where
  /-- No pack, but files. -/
  | unknown
  | nothing
  /-- The chosen pack, registered or not. -/
  | chosen (installed : Bool)
  | otherPack
deriving DecidableEq, Repr

/-- The installer thread behind `detectPack`.  Without a tab pane it dies where it
uses it on its own, and a failure on the event thread is swallowed. -/
def detected (first inTabs : Bool) (r : Detected) (w : Window) : Window :=
  let without := if inTabs then { w with installPanel := false } else w
  match r with
  | .unknown | .otherPack => refused w
  | .nothing =>
    if first = true ∧ w.addonsOpenedOnce = false then without.spawn (.nextAddons inTabs)
    else without.spawn (.download .pack)
  | .chosen true => without.spawn (.download .addons)
  | .chosen false => if inTabs then without.spawn (.download .update) else w

/-- The add-on panel of a first installation.  Without a tab pane the new panel is
nowhere, and the thread dies. -/
def addonsOpened (inTabs : Bool) (w : Window) : Window :=
  if inTabs then
    (w.openAddons.setAbortListener .firstAddons).setProceedListener .firstAddons
  else { w with addonsPanel := false }

/-- The installer thread behind its downloads. -/
def installed (what : Installation) (success : Bool) (w : Window) : Window :=
  if what = .pack ∨ success = true then completed w else w

/-- What a thread does behind an update. -/
def goOn (w : Window) : Update → Window
  | .commitConfig => { w.dropAllProceedListeners.spawn .connect with configPanel := false }
  | .commitParams | .revertConfig | .dropParams | .dropInstall => w
  | .prefMenu =>
    ({ w with configPanel := true }.setProceedListener .commitConfig).setAbortListener .revertConfig
  | .paramsMenu _ => { w with parameterPanel := true }
  | .beginWithInstallation _ => w.spawn .listRequest
  | .firstRun => beginWithInstallation false w
  | .showInstall => (w.setAbortListener .dropInstall).spawn .offerBegin
  | .completed => w.spawn .completes

/-! ## Listeners -/

/-- The listeners of the proceed button; `commits` is what `ConfigPanel.commit`
returns, with an exception as `false`. -/
def onProceed (commits : Bool) (w : Window) : Proceed → Window
  | .startMinecraft => w.spawn .launch
  | .askFtpCredentials => w.spawn .askCredentials
  | .update => w.spawn .updateStart
  | .commitConfig => if commits then w.spawn (.updates .commitConfig) else w
  -- Without its panel in the tab pane the listener dies.
  | .commitParams =>
    if w.parameterPanel then { w with parameterPanel := false }.spawn (.updates .commitParams)
    else w
  | .begin => w.spawn .beginning
  | .beginAgain => begin false w
  | .firstAddons => w.removeAddons.spawn .takeAddons
  | .addons => { w.removeAddons with installPanel := true }

/-- The proceed button only leads back from the log to a panel. -/
def LeadsBack (onLog : Bool) (w : Window) : Prop :=
  w.state ≠ stateOk ∧ onLog = true ∧ w.hasTabs = true

instance (onLog : Bool) (w : Window) : Decidable (LeadsBack onLog w) :=
  inferInstanceAs (Decidable (_ ∧ _ ∧ _))

/-- `proceedButtonActionPerformed`; `onLog` says that the log is selected. -/
def proceedButton (onLog commits : Bool) (w : Window) : Window :=
  if LeadsBack onLog w then w
  else
    match w.proceedListeners.getLast? with
    | none => w
    | some l => onProceed commits (popListeners w) l

/-- The listeners of the abort button; `reverts` is false when `ConfigPanel.revert` ends
in an exception. -/
def onAbort (reverts : Bool) (w : Window) : Abort → Window
  | .revertConfig =>
    if reverts then { w with configPanel := false }.spawn (.updates .revertConfig) else w
  | .dropParams =>
    if w.parameterPanel then { w with parameterPanel := false }.spawn (.updates .dropParams) else w
  | .dropInstall => { w with installPanel := false }.spawn (.updates .dropInstall)
  | .firstAddons =>
    ({ w.removeAddons with installPanel := true }.setProceedListener .beginAgain).setAbortListener
      .dropAll
  | .dropAll =>
    { w.dropAllAbortListeners.dropAllProceedListeners with
      installPanel := false, state := stateOk }
  | .addons => { w.removeAddons with installPanel := true }

/-- `abortButtonActionPerformed` -/
def abortButton (reverts : Bool) (w : Window) : Window :=
  match w.abortListeners.getLast? with
  | none => w
  | some l => onAbort reverts (popListeners w) l

/-! ## Menus -/

/-- `testMenuActionPerformed` -/
def testMenu (w : Window) : Window :=
  if w.state &&& ~~~(stateFirst ||| stateError) ≠ 0 then w else w.spawn .testStart

/-- `prefMenuActionPerformed` -/
def prefMenu (w : Window) : Window :=
  if w.state &&& ~~~stateFirst = stateOk ∨ w.state &&& ~~~stateFirst = stateError then
    w.spawn (.updates .prefMenu)
  else w

/-- `installMenuActionPerformed` -/
def installMenu (w : Window) : Window :=
  if w.state &&& ~~~stateFirst = stateOk then beginWithInstallation true w else w

/-- `addonsActionPerformed` of the install panel. -/
def addonsButton (w : Window) : Window :=
  ({ w with installPanel := false }.openAddons.setAbortListener .addons).setProceedListener .addons

/-! ## Threads -/

/-- How the login thread goes on. -/
inductive LoginResult where
  | refused
  /-- `IOException("Timeout")` -/
  | timeout
  /-- Another I/O error, a network error, or no launcher. -/
  | failed
  | firstRun
  | outdated
  | upToDate
deriving DecidableEq, Repr

/-- How the request of the list of packs goes on. -/
inductive ListResult where
  /-- The transfer begins. -/
  | transfers
  /-- `NetworkException`; the loop goes on. -/
  | network
  /-- The channel cannot be opened, a reconnection fails, or `retr` is refused. -/
  | fails
deriving DecidableEq, Repr

/-- How the test thread goes on. -/
inductive TestResult where
  /-- The data thread is through and puts the old state back. -/
  | restores
  /-- `retr` succeeds. -/
  | transfers
  | network
  /-- The channel cannot be opened, a reconnection fails, or `retr` is refused; the
  data thread is abandoned. -/
  | fails
deriving DecidableEq, Repr

/-- What can happen. -/
inductive Event where
  | proceed (onLog commits : Bool)
  | abort (reverts : Bool)
  | testMenu
  | prefMenu
  | installMenu
  | paramsMenu (changes : Bool)
  | addonsButton
  /-- `empty` says that there is no user name. -/
  | connected (success empty : Bool)
  | asked (given : Bool)
  | loggedIn (r : LoginResult)
  | offered
  | saidFine
  | updateStarted
  /-- `false` for a `NetworkException` -/
  | updated (success : Bool)
  | listRequested (r : ListResult)
  /-- `false` when there is no list. -/
  | listTransferred (success : Bool)
  | offeredBegin
  | testRead
  | testStarted (oldState : Bits)
  | tested (oldState : Bits) (r : TestResult)
  /-- `false` when the data connection does not come. -/
  | testRestored (oldState : Bits) (success : Bool)
  /-- `true` for a `NetworkException` -/
  | testReplied (network : Bool)
  /-- `getParent` of the install panel -/
  | parentRead (first : Bool)
  | detected (first inTabs : Bool) (r : Detected)
  | addonsOpened (inTabs : Bool)
  | installed (what : Installation) (success : Bool)
  /-- The completed listener has looked for `STATE_FIRST`. -/
  | firstRead
  | paramsAsked (changes : Bool)
  | launched
  | begun
  | addonsTaken
  /-- The state is read for an update. -/
  | reads (u : Update)
  /-- The state is written. -/
  | writes (u : Update) (read : Bits)
  /-- An exception that nobody catches, or a `NetworkException` in the installer
  thread. -/
  | died (x : Worker)
deriving DecidableEq, Repr

/-- The worker that makes a step. -/
def Event.worker : Event → Option Worker
  | .proceed _ _ | .abort _ | .testMenu | .prefMenu | .installMenu | .paramsMenu _
  | .addonsButton => none
  | .connected _ _ => some .connect
  | .asked _ => some .askCredentials
  | .loggedIn _ => some .login
  | .offered => some .loginOffered
  | .saidFine => some .loginFine
  | .updateStarted => some .updateStart
  | .updated _ => some .update
  | .listRequested _ => some .listRequest
  | .listTransferred _ => some .listTransfer
  | .offeredBegin => some .offerBegin
  | .testRead => some .testStart
  | .testStarted oldState => some (.testBegins oldState)
  | .tested oldState _ => some (.test oldState)
  | .testRestored oldState _ => some (.testData oldState)
  | .testReplied _ => some .testReply
  | .parentRead first => some (.installStart first)
  | .detected first inTabs _ => some (.install first inTabs)
  | .addonsOpened inTabs => some (.nextAddons inTabs)
  | .installed what _ => some (.download what)
  | .firstRead => some .completes
  | .paramsAsked _ => some .asksParams
  | .launched => some .launch
  | .begun => some .beginning
  | .addonsTaken => some .takeAddons
  | .reads u => some (.updates u)
  | .writes u read => some (.stores u read)
  | .died x => some x

/-- The event thread takes up something else: a button, a menu, a dialog that is closed,
or a task that another thread waits for. -/
def Event.isNew : Event → Bool
  | .proceed _ _ | .abort _ | .testMenu | .prefMenu | .installMenu | .paramsMenu _
  | .addonsButton | .asked _ | .offeredBegin => true
  | .detected _ _ r => r ≠ .chosen false
  | _ => false

/-- The login thread behind its last call. -/
def loggedIn (w : Window) : LoginResult → Window
  | .refused => w.spawn .askCredentials
  | .timeout => w.spawn .connect
  | .failed => { w with state := stateError }
  | .firstRun => w.spawn (.updates .firstRun)
  | .outdated => (w.setProceedListener .update).spawn .loginOffered
  | .upToDate => { w with state := stateOk }.spawn .loginFine

/-- What a step does to the window, with its worker gone. -/
def act (w : Window) : Event → Window
  | .proceed onLog commits => proceedButton onLog commits w
  | .abort reverts => abortButton reverts w
  | .testMenu => testMenu w
  | .prefMenu => prefMenu w
  | .installMenu => installMenu w
  | .paramsMenu changes => paramsMenu true changes w
  | .addonsButton => addonsButton w
  | .connected success empty =>
    -- A connection that failed is no reason to stop.
    (if success then w else { w with state := stateError }).spawn
      (if empty then .askCredentials else .login)
  | .asked given => if given then w.spawn .login else w.setProceedListener .askFtpCredentials
  | .loggedIn r => loggedIn w r
  | .offered => { w with state := stateOk }
  | .saidFine => w.setProceedListener .startMinecraft
  | .updateStarted => { w with state := stateWorking }.spawn .update
  | .updated success =>
    if success then { w with state := stateOk }.setProceedListener .startMinecraft
    else { w with state := imageObserverError }
  | .listRequested .transfers => w.spawn .listTransfer
  | .listRequested .network => { w with state := stateError }.spawn .listRequest
  | .listRequested .fails => w
  | .listTransferred success =>
    if success then { w with installPanel := true }.spawn (.updates .showInstall) else w
  | .offeredBegin => w.setProceedListener .begin
  | .testRead => w.spawn (.testBegins w.state)
  | .testStarted oldState => { w with state := stateWorking }.spawn (.test oldState)
  | .tested oldState .restores => { w with state := oldState }.spawn .testReply
  | .tested oldState .transfers => w.spawn (.testData oldState)
  | .tested oldState .network => { w with state := stateError }.spawn (.testData oldState)
  | .tested _ .fails => w
  | .testRestored oldState success => if success then { w with state := oldState } else w
  | .testReplied network => if network then { w with state := stateError } else w
  | .parentRead first => w.spawn (.install first w.installPanel)
  | .detected first inTabs r => detected first inTabs r w
  | .addonsOpened inTabs => addonsOpened inTabs w
  | .installed what success => installed what success w
  | .firstRead => if w.isFirst then w.spawn .asksParams else w
  | .paramsAsked changes => paramsMenu false changes w
  | .launched => w
  | .begun => begin w.isFirst w
  | .addonsTaken => begin false w
  | .reads u => w.spawn (.stores u w.state)
  | .writes u read => goOn { w with state := u.apply read } u
  | .died _ => w

/-- The window without the worker of a step. -/
def leave (w : Window) (e : Event) : Window :=
  match e.worker with
  | none => w
  | some x => w.finish x

/-- The event thread waits. -/
def Window.idle (w : Window) : Bool :=
  w.workers.all fun x => !x.onEvents

/-- What can happen now. -/
def enabled (w : Window) (e : Event) : Bool :=
  (!e.isNew || w.idle) &&
    match e.worker with
    | some x => decide (x ∈ w.workers)
    | none =>
      match e with
      | .proceed _ _ => !w.proceedListeners.isEmpty
      | .abort _ => !w.abortListeners.isEmpty
      | .addonsButton => w.installPanel
      | _ => true

/-- One step. -/
def step (w : Window) (e : Event) : Option Window :=
  guarded (fun w e => enabled w e = true) (fun w e => act (leave w e) e) w e

/-- Only the listener that is taken may go. -/
theorem mem_removeLast {ls : List Proceed} {l m : Proceed} (hl : ls.getLast? = some l)
    (hm : m ∈ ls) (hne : m ≠ l) : m ∈ removeLast ls := by
  obtain ⟨init, rfl⟩ := List.getLast?_eq_some_iff.mp hl
  rw [removeLast]
  split
  · rename_i hstart
    obtain rfl : l = .startMinecraft := Option.some.inj (hl.symm.trans hstart)
    exact (List.mem_erase_of_ne hne).mpr hm
  · rw [List.dropLast_concat]
    rcases List.mem_append.mp hm with hin | hin
    · exact hin
    · exact absurd (List.mem_singleton.mp hin) hne

end InstallerWindow
end Client
end ModpackInstaller
