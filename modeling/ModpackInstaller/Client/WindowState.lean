import ModpackInstaller.Client.InstallerWindow

/-!
# The state of the installer window

Which step of a window sets and clears a flag of its state, and what will clear a
flag that is set: the configuration panel, the parameter panel or a listener that has
taken one of them away for {lit}`STATE_CONFIG`; a thread, a panel or a listener of the
installation for {lit}`STATE_INSTALL`; a test, an update, the list of packs or the first
connection for {lit}`STATE_WORKING`.

Main results:

- Theorem {lit}`inv_step`: every step that meets its condition keeps a holder for
  each flag.
- Theorem {lit}`windowOk_of_meets`: in every run whose steps meet the condition the
  state has no bit but the flags, and a window at rest can open its preferences.
-/

namespace ModpackInstaller
namespace Client
namespace InstallerWindow

open Library

/-! ## Bits -/

/-- At most `STATE_FIRST` and `STATE_ERROR` are set. -/
def Resting (state : Bits) : Prop :=
  state &&& ~~~(stateFirst ||| stateError) = 0

/-- No flag is set. -/
theorem resting_stateOk : Resting stateOk := rfl

/-- Only `STATE_ERROR` is set. -/
theorem resting_stateError : Resting stateError := rfl

/-- A flag has one bit. -/
theorem getLsbD_flag {flag : Bits} {k : Nat} (hflag : flag = BitVec.twoPow 32 k) (hk : k < 32)
    (i : Nat) : flag.getLsbD i = decide (i = k) := by
  rw [hflag, BitVec.getLsbD_twoPow, decide_eq_true hk, Bool.true_and, decide_eq_decide]
  exact eq_comm

/-- The bits of the flags. -/
theorem getLsbD_stateConfig (i : Nat) : stateConfig.getLsbD i = decide (i = 0) :=
  getLsbD_flag (k := 0) rfl (by decide) i

theorem getLsbD_stateInstall (i : Nat) : stateInstall.getLsbD i = decide (i = 1) :=
  getLsbD_flag (k := 1) rfl (by decide) i

theorem getLsbD_stateWorking (i : Nat) : stateWorking.getLsbD i = decide (i = 2) :=
  getLsbD_flag (k := 2) rfl (by decide) i

theorem getLsbD_stateError (i : Nat) : stateError.getLsbD i = decide (i = 3) :=
  getLsbD_flag (k := 3) rfl (by decide) i

theorem getLsbD_stateFirst (i : Nat) : stateFirst.getLsbD i = decide (i = 4) :=
  getLsbD_flag (k := 4) rfl (by decide) i

/-- A mask clears its bits. -/
theorem getLsbD_andNot (state bits : Bits) (i : Nat) :
    (state &&& ~~~bits).getLsbD i = (state.getLsbD i && !bits.getLsbD i) := by
  by_cases hi : i < 32
  · rw [BitVec.getLsbD_and, BitVec.getLsbD_not, decide_eq_true hi, Bool.true_and]
  · rw [BitVec.getLsbD_of_ge _ i (by omega), BitVec.getLsbD_of_ge state i (by omega)]
    rfl

/-- The other bits of a state at rest are clear. -/
theorem Resting.getLsbD {state : Bits} (h : Resting state) {i : Nat} (hthree : i ≠ 3)
    (hfour : i ≠ 4) : state.getLsbD i = false := by
  have hbit : (state &&& ~~~(stateFirst ||| stateError)).getLsbD i = false := by
    rw [h]
    exact BitVec.getLsbD_zero
  rw [getLsbD_andNot, BitVec.getLsbD_or, getLsbD_stateFirst, getLsbD_stateError,
    decide_eq_false hthree, decide_eq_false hfour] at hbit
  simpa only [Bool.or_false, Bool.not_false, Bool.and_true] using hbit

/-- A state with no bit but the two is one of the two that the preferences look
for. -/
theorem masked_of_low {state : Bits}
    (hlow : ∀ i, i ≠ 3 → i ≠ 4 → state.getLsbD i = false) :
    state &&& ~~~stateFirst = stateOk ∨ state &&& ~~~stateFirst = stateError := by
  have hbit (i : Nat) :
      (state &&& ~~~stateFirst).getLsbD i = (state.getLsbD 3 && decide (i = 3)) := by
    rw [getLsbD_andNot, getLsbD_stateFirst]
    by_cases hfour : i = 4
    · simp [hfour]
    · by_cases hthree : i = 3
      · rw [hthree]
        rfl
      · rw [hlow i hthree hfour, decide_eq_false hthree, Bool.and_false, Bool.false_and]
  cases herror : state.getLsbD 3 with
  | false =>
      refine Or.inl (BitVec.eq_of_getLsbD_eq fun i hi => ?_)
      rw [hbit i, herror, Bool.false_and]
      exact BitVec.getLsbD_zero.symm
  | true =>
      refine Or.inr (BitVec.eq_of_getLsbD_eq fun i hi => ?_)
      rw [hbit i, herror, getLsbD_stateError, Bool.true_and]

/-- What the menus check says that a flag is clear. -/
theorem getLsbD_of_masked {state : Bits}
    (h : state &&& ~~~stateFirst = stateOk ∨ state &&& ~~~stateFirst = stateError) {i : Nat}
    (hthree : i ≠ 3) (hfour : i ≠ 4) : state.getLsbD i = false := by
  have hbit : (state &&& ~~~stateFirst).getLsbD i = false := by
    rcases h with h | h
    · rw [h]
      exact BitVec.getLsbD_zero
    · rw [h, getLsbD_stateError, decide_eq_false hthree]
  rw [getLsbD_andNot, getLsbD_stateFirst, decide_eq_false hfour] at hbit
  simpa only [Bool.not_false, Bool.and_true] using hbit

/-! ## Holders -/

/-- What ends in clearing `STATE_INSTALL`, or hands it on. -/
def Worker.installs : Worker → Bool
  | .listRequest | .listTransfer | .installStart _ | .install _ _ | .nextAddons _ | .download _
  | .beginning | .takeAddons => true
  | .updates u | .stores u _ => u = .dropInstall ∨ u = .completed
  | _ => false

/-- What ends in setting a state without `STATE_WORKING`, or in clearing that flag. -/
def Worker.works : Worker → Bool
  | .loginOffered | .update | .test _ | .testData _ => true
  | .updates u | .stores u _ => u = .dropInstall ∨ u = .showInstall
  | _ => false

/-- What ends in clearing `STATE_CONFIG` when its panel has gone. -/
def Worker.configures : Worker → Bool
  | .updates u | .stores u _ => u = .commitParams ∨ u = .revertConfig ∨ u = .dropParams
  | _ => false

/-- The state that a test will put back. -/
def Worker.oldState : Worker → Option Bits
  | .testBegins oldState | .test oldState | .testData oldState => some oldState
  | _ => none

/-- The listeners that go on with an installation. -/
def Proceed.installs : Proceed → Bool
  | .begin | .beginAgain => true
  | _ => false

/-- Something will clear `STATE_INSTALL`. -/
def Installing (w : Window) : Prop :=
  w.installPanel = true ∨ 0 < w.addonTabs ∨ (∃ x ∈ w.workers, x.installs = true) ∨
    ∃ l ∈ w.proceedListeners, l.installs = true

/-- A test, an update, the offer of one or a panel that is being shown or dropped will
clear `STATE_WORKING`. -/
def Busy (w : Window) : Prop :=
  ∃ x ∈ w.workers, x.works = true

/-- A panel, or the listener that has taken it away, will clear `STATE_CONFIG`. -/
def Configuring (w : Window) : Prop :=
  w.configPanel = true ∨ w.parameterPanel = true ∨ ∃ x ∈ w.workers, x.configures = true

/-- The state has no bit but the flags, `STATE_CONFIG` has its panel, and a test puts
back a state at rest. -/
structure Base (w : Window) : Prop where
  flags : ∀ i, 5 ≤ i → w.state.getLsbD i = false
  config : w.state.getLsbD 0 = true → Configuring w
  saved : ∀ x ∈ w.workers, ∀ oldState, x.oldState = some oldState → Resting oldState

/-- The two flags of work are held. -/
structure Held (w : Window) : Prop where
  install : w.state.getLsbD 1 = true → Installing w
  working : w.state.getLsbD 2 = true → Busy w

/-- The condition of a step.  An update writes the state that it has read; a thread that
ends without setting the state, and a button that takes a listener of an installation on
its way, leave the flags to somebody else; the update thread has no network error; a test
finds what its menu checked. -/
def Meets (w : Window) (e : Event) : Prop :=
  match e with
  | .writes u read =>
    w.state = read ∧
      (u = .commitConfig → w.state.getLsbD 1 = true → Installing w.dropAllProceedListeners)
  | .abort _ =>
    w.abortListeners.getLast? = some .revertConfig ∨
        w.abortListeners.getLast? = some .dropParams →
      w.state.getLsbD 1 = true → Installing (popListeners w)
  | .updated success => success = true
  | .testRead => Resting w.state
  | .listRequested .fails | .tested _ .fails => Held (leave w e)
  | .died _ => Held (leave w e) ∧ (w.state.getLsbD 0 = true → Configuring (leave w e))
  | .listTransferred success | .testRestored _ success => success = false → Held (leave w e)
  | .detected _ inTabs r => inTabs = false → r = .chosen false → Held (leave w e)
  | .addonsOpened inTabs => inTabs = false → Held (leave w e)
  | .installed what success => what ≠ .pack → success = false → Held (leave w e)
  | _ => True

instance : DecidablePred Resting := fun _ => inferInstanceAs (Decidable (_ = _))

instance : DecidablePred Installing := fun _ => inferInstanceAs (Decidable (_ ∨ _ ∨ _ ∨ _))

instance : DecidablePred Busy := fun w => inferInstanceAs (Decidable (∃ x ∈ w.workers, _))

instance : DecidablePred Configuring := fun _ => inferInstanceAs (Decidable (_ ∨ _ ∨ _))

instance : DecidablePred Held := fun w =>
  decidable_of_iff ((w.state.getLsbD 1 = true → Installing w) ∧ (w.state.getLsbD 2 = true → Busy w))
    ⟨fun h => ⟨h.1, h.2⟩, fun h => ⟨h.install, h.working⟩⟩

instance (w : Window) : (e : Event) → Decidable (Meets w e)
  | .writes _ _ => inferInstanceAs (Decidable (_ = _ ∧ (_ → _ → Installing _)))
  | .abort _ => inferInstanceAs (Decidable (_ ∨ _ → _ → Installing _))
  | .updated _ => inferInstanceAs (Decidable (_ = true))
  | .testRead => inferInstanceAs (Decidable (Resting _))
  | .listRequested .fails | .tested _ .fails => inferInstanceAs (Decidable (Held _))
  | .died _ => inferInstanceAs (Decidable (Held _ ∧ (_ → Configuring _)))
  | .listTransferred _ | .testRestored _ _ | .addonsOpened _ =>
    inferInstanceAs (Decidable (_ → Held _))
  | .detected _ _ _ | .installed _ _ => inferInstanceAs (Decidable (_ → _ → Held _))
  | .proceed _ _ | .testMenu | .prefMenu | .installMenu | .paramsMenu _ | .addonsButton
  | .connected _ _ | .asked _ | .loggedIn _ | .offered | .saidFine | .updateStarted
  | .listRequested .transfers | .listRequested .network | .offeredBegin | .testStarted _
  | .tested _ .restores | .tested _ .transfers | .tested _ .network | .testReplied _ | .parentRead _
  | .firstRead | .paramsAsked _ | .launched | .begun | .addonsTaken | .reads _ => .isTrue trivial

/-! ## Bits and panels -/

section Base

variable {w w' : Window}

/-- Panels and threads that stay go on holding `STATE_CONFIG`. -/
theorem Configuring.mono (h : Configuring w)
    (hconfig : w.configPanel = true → w'.configPanel = true)
    (hparameter : w.parameterPanel = true → w'.parameterPanel = true)
    (hworkers : ∀ x ∈ w.workers, x.configures = true → x ∈ w'.workers) : Configuring w' := by
  rcases h with h | h | ⟨x, hx, hconfigures⟩
  · exact Or.inl (hconfig h)
  · exact Or.inr (Or.inl (hparameter h))
  · exact Or.inr (Or.inr ⟨x, hworkers x hx hconfigures, hconfigures⟩)

/-- One more thread takes nothing away. -/
theorem Configuring.spawn (h : Configuring w) (x : Worker) : Configuring (w.spawn x) :=
  h.mono id id fun _ hy _ => List.mem_cons_of_mem x hy

/-- A thread that holds nothing may end. -/
theorem Configuring.finish (h : Configuring w) {x : Worker} (hx : x.configures = false) :
    Configuring (w.finish x) := by
  refine h.mono id id fun y hy hconfigures => (List.mem_erase_of_ne ?_).mpr hy
  rintro rfl
  rw [hx] at hconfigures
  cases hconfigures

/-- A state with fewer bits keeps its panels. -/
theorem Base.mono (h : Base w)
    (hstate : ∀ i, i ≠ 3 → i ≠ 4 → w'.state.getLsbD i = true → w.state.getLsbD i = true)
    (hconfig : w'.state.getLsbD 0 = true → Configuring w → Configuring w')
    (hworkers : ∀ x ∈ w'.workers, x ∈ w.workers ∨ x.oldState = none) : Base w' where
  flags i hi := by
    rw [← Bool.not_eq_true]
    intro hbit
    have hbefore := hstate i (by omega) (by omega) hbit
    rw [h.flags i hi] at hbefore
    cases hbefore
  config hbit := hconfig hbit (h.config (hstate 0 (by decide) (by decide) hbit))
  saved x hx oldState hold := by
    rcases hworkers x hx with hin | hnone
    · exact h.saved x hin oldState hold
    · rw [hnone] at hold
      cases hold

/-- A new state at rest needs no panel. -/
theorem Base.rest (h : Base w) {state : Bits} (hrest : Resting state) :
    Base { w with state } where
  flags i hi := hrest.getLsbD (by omega) (by omega)
  config hbit := by
    rw [hrest.getLsbD (by decide) (by decide)] at hbit
    cases hbit
  saved := h.saved

/-- A test starts from a state at rest. -/
theorem Base.spawnTest (h : Base w) {x : Worker}
    (hx : ∀ oldState, x.oldState = some oldState → Resting oldState) : Base (w.spawn x) where
  flags := h.flags
  config hbit := (h.config hbit).spawn x
  saved y hy oldState hold := by
    rcases List.mem_cons.mp hy with rfl | hy
    · exact hx oldState hold
    · exact h.saved y hy oldState hold

/-- Another thread puts no state back. -/
theorem Base.spawn (h : Base w) {x : Worker} (hx : x.oldState = none) : Base (w.spawn x) :=
  h.spawnTest fun oldState hold => absurd (hx.symm.trans hold) (by simp)

/-- `STATE_WORKING` alone needs no panel. -/
theorem Base.work (h : Base w) : Base { w with state := stateWorking } where
  flags i hi := by
    rw [getLsbD_stateWorking]
    simp
    omega
  config hbit := by
    rw [getLsbD_stateWorking] at hbit
    cases hbit
  saved := h.saved

/-- A thread that holds no panel may end. -/
theorem Base.finish (h : Base w) {x : Worker} (hx : x.configures = false) : Base (w.finish x) :=
  h.mono (fun _ _ _ hbit => hbit) (fun _ hpanel => hpanel.finish hx)
    fun _ hy => Or.inl (List.mem_of_mem_erase hy)

/-- A thread hands what it holds to another one. -/
theorem Base.relay (h : Base w) {x y : Worker} (hx : x.configures = true → y.configures = true)
    (hold : y.oldState = none) : Base ((w.finish x).spawn y) := by
  refine h.mono (fun _ _ _ hbit => hbit) (fun _ hpanel => ?_) fun z hz => ?_
  · cases hconfigures : x.configures with
    | true => exact Or.inr (Or.inr ⟨y, List.mem_cons_self, hx hconfigures⟩)
    | false => exact (hpanel.finish hconfigures).spawn y
  · rcases List.mem_cons.mp hz with rfl | hz
    · exact Or.inr hold
    · exact Or.inl (List.mem_of_mem_erase hz)

/-- Fewer flags need no more panels. -/
theorem Base.clear (h : Base w) (bits : Bits) (hstate : w'.state = w.state &&& ~~~bits)
    (hpanel : Configuring w → Configuring w') (hworkers : w'.workers = w.workers) : Base w' := by
  refine h.mono (fun i _ _ hbit => ?_) (fun _ => hpanel) fun _ hy => Or.inl (hworkers ▸ hy)
  rw [hstate, getLsbD_andNot, Bool.and_eq_true] at hbit
  exact hbit.1

/-- The flags of installations need no panel. -/
theorem Base.setBits (h : Base w) {bits : Bits}
    (hbits : bits = stateInstall ∨ bits = stateFirst) :
    Base { w with state := w.state ||| bits } := by
  have hkept (i : Nat) (hone : i ≠ 1) (hfour : i ≠ 4) :
      (w.state ||| bits).getLsbD i = w.state.getLsbD i := by
    rw [BitVec.getLsbD_or]
    rcases hbits with rfl | rfl
    · rw [getLsbD_stateInstall, decide_eq_false hone, Bool.or_false]
    · rw [getLsbD_stateFirst, decide_eq_false hfour, Bool.or_false]
  exact ⟨fun i hi => (hkept i (by omega) (by omega)).trans (h.flags i hi),
    fun hbit => h.config ((hkept 0 (by decide) (by decide)).symm.trans hbit), h.saved⟩

/-- A panel comes with `STATE_CONFIG`. -/
theorem Base.configure (h : Base w) (hstate : w'.state = w.state ||| stateConfig)
    (hpanel : Configuring w') (hworkers : w'.workers = w.workers) : Base w' where
  flags i hi := by
    rw [hstate, BitVec.getLsbD_or, h.flags i hi, getLsbD_stateConfig]
    simp
    omega
  config _ := hpanel
  saved := hworkers ▸ h.saved

/-- Without `STATE_CONFIG` nothing has to hold it. -/
theorem Base.configured (h : Base w) (hstate : w'.state = w.state &&& ~~~stateConfig)
    (hworkers : ∀ x ∈ w'.workers, x ∈ w.workers ∨ x.oldState = none) : Base w' := by
  refine h.mono (fun i _ _ hbit => ?_) (fun hbit _ => ?_) hworkers
  · rw [hstate, getLsbD_andNot, Bool.and_eq_true] at hbit
    exact hbit.1
  · rw [hstate, getLsbD_andNot, getLsbD_stateConfig] at hbit
    simp at hbit

/-- A listener takes a panel away and goes on to clear `STATE_CONFIG`. -/
theorem Base.unconfigure (h : Base w) {x : Worker} (hx : x.configures = true)
    (hold : x.oldState = none) (hstate : w'.state = w.state)
    (hworkers : w'.workers = x :: w.workers) : Base w' where
  flags := hstate ▸ h.flags
  config _ := Or.inr (Or.inr ⟨x, hworkers ▸ List.mem_cons_self, hx⟩)
  saved := hworkers ▸ (h.spawn hold).saved

/-- The listeners and the panels of the installation do not matter. -/
theorem Base.same (h : Base w) (hstate : w'.state = w.state)
    (hpanel : Configuring w → Configuring w') (hworkers : w'.workers = w.workers) : Base w' where
  flags := hstate ▸ h.flags
  config := hstate ▸ fun hbit => hpanel (h.config hbit)
  saved := hworkers ▸ h.saved

end Base

section Steps

variable {w : Window}

/-- A window that begins is sound. -/
theorem base_begin (h : Base w) (first : Bool) : Base (begin first w) :=
  (h.same rfl id rfl : Base w.dropAllProceedListeners).spawn rfl

/-- The panel of the addons may go. -/
theorem base_removeAddons (h : Base w) : Base w.removeAddons := by
  unfold Window.removeAddons
  split
  · exact h.same rfl id rfl
  · exact h

/-- The menu of the parameters keeps a window sound. -/
theorem base_paramsMenu (h : Base w) (onEvents changes : Bool) :
    Base (paramsMenu onEvents changes w) := by
  unfold paramsMenu
  split
  · exact (h.same rfl id rfl :
      Base ((w.setProceedListener .commitParams).setAbortListener .dropParams)).spawn rfl
  · exact h

/-- What a detection comes to keeps a window sound. -/
theorem base_detected (h : Base w) (first inTabs : Bool) (r : Detected) :
    Base (detected first inTabs r w) := by
  have hwithout : Base (if inTabs then { w with installPanel := false } else w) := by
    split
    · exact h.same rfl id rfl
    · exact h
  unfold detected
  simp only
  split
  · exact h.same rfl id rfl
  · exact h.same rfl id rfl
  · split
    · exact hwithout.spawn rfl
    · exact hwithout.spawn rfl
  · exact hwithout.spawn rfl
  · split
    · exact (h.same rfl id rfl : Base { w with installPanel := false }).spawn rfl
    · exact h

/-- A listener behind the proceed button keeps a window sound. -/
theorem base_onProceed (h : Base w) (commits : Bool) (l : Proceed) :
    Base (onProceed commits w l) := by
  cases l with
  | startMinecraft | askFtpCredentials | update | begin => exact h.spawn rfl
  | commitConfig =>
      rw [onProceed]
      split
      · exact h.spawn rfl
      · exact h
  | commitParams =>
      rw [onProceed]
      split
      · exact h.unconfigure (x := .updates .commitParams) rfl rfl rfl rfl
      · exact h
  | beginAgain => exact base_begin h false
  | firstAddons => exact (base_removeAddons h).spawn rfl
  | addons => exact (base_removeAddons h).same rfl id rfl

/-- A listener behind the abort button keeps a window sound. -/
theorem base_onAbort (h : Base w) (reverts : Bool) (l : Abort) : Base (onAbort reverts w l) := by
  cases l with
  | revertConfig =>
      rw [onAbort]
      split
      · exact h.unconfigure (x := .updates .revertConfig) rfl rfl rfl rfl
      · exact h
  | dropParams =>
      rw [onAbort]
      split
      · exact h.unconfigure (x := .updates .dropParams) rfl rfl rfl rfl
      · exact h
  | dropInstall => exact (h.same rfl id rfl : Base { w with installPanel := false }).spawn rfl
  | firstAddons => exact (base_removeAddons h).same rfl id rfl
  | dropAll =>
      have hrest : Base { w with state := stateOk } := h.rest resting_stateOk
      exact hrest.same rfl id rfl
  | addons => exact (base_removeAddons h).same rfl id rfl

/-- So does the proceed button. -/
theorem base_proceedButton (h : Base w) (onLog commits : Bool) :
    Base (proceedButton onLog commits w) := by
  unfold proceedButton
  split
  · exact h
  · split
    · exact h
    · exact base_onProceed (h.same rfl id rfl : Base (popListeners w)) commits _

/-- So does the abort button. -/
theorem base_abortButton (h : Base w) (reverts : Bool) : Base (abortButton reverts w) := by
  unfold abortButton
  split
  · exact h
  · exact base_onAbort (h.same rfl id rfl : Base (popListeners w)) reverts _

/-- The menu of the test keeps a window sound. -/
theorem base_testMenu (h : Base w) : Base (testMenu w) := by
  unfold testMenu
  split
  · exact h
  · exact h.spawn rfl

/-- The menu of the preferences keeps a window sound. -/
theorem base_prefMenu (h : Base w) : Base (prefMenu w) := by
  unfold prefMenu
  split
  · exact h.spawn rfl
  · exact h

/-- The menu of the installation keeps a window sound. -/
theorem base_installMenu (h : Base w) : Base (installMenu w) := by
  unfold installMenu
  split
  · exact h.spawn rfl
  · exact h

/-- What a login comes to keeps a window sound. -/
theorem base_loggedIn (h : Base w) (r : LoginResult) : Base (loggedIn w r) := by
  cases r with
  | refused | timeout | firstRun => exact h.spawn rfl
  | failed => exact h.rest resting_stateError
  | outdated => exact (h.same rfl id rfl : Base (w.setProceedListener .update)).spawn rfl
  | upToDate =>
      have hrest : Base { w with state := stateOk } := h.rest resting_stateOk
      exact hrest.spawn rfl

/-- A thread that writes what it has read, and goes on. -/
theorem base_writes (h : Base w) (u : Update) :
    Base (goOn { w.finish (.stores u w.state) with state := u.apply w.state } u) := by
  have herase {x : Worker} (hx : x ∈ w.workers.erase (.stores u w.state)) :
      x ∈ w.workers ∨ x.oldState = none := Or.inl (List.mem_of_mem_erase hx)
  cases u with
  | commitConfig =>
      refine h.configured rfl fun x hx => ?_
      rcases List.mem_cons.mp hx with rfl | hx
      · exact Or.inr rfl
      · exact herase hx
  | commitParams | revertConfig | dropParams => exact h.configured rfl fun x => herase
  | dropInstall =>
      exact (h.finish rfl).clear (stateInstall ||| stateWorking) rfl id rfl
  | prefMenu => exact (h.finish rfl).configure rfl (Or.inl rfl) rfl
  | paramsMenu => exact (h.finish rfl).configure rfl (Or.inr (Or.inl rfl)) rfl
  | beginWithInstallation => exact ((h.finish rfl).setBits (Or.inl rfl)).spawn rfl
  | firstRun => exact ((h.finish rfl).setBits (Or.inr rfl)).spawn rfl
  | showInstall =>
      have hcleared : Base { w.finish (.stores .showInstall w.state) with
          state := w.state &&& ~~~stateWorking } := (h.finish rfl).clear stateWorking rfl id rfl
      have hdrops : Base (Window.setAbortListener { w.finish (.stores .showInstall w.state) with
          state := w.state &&& ~~~stateWorking } .dropInstall) := hcleared.same rfl id rfl
      exact hdrops.spawn rfl
  | completed =>
      have hcleared : Base { w.finish (.stores .completed w.state) with
          state := w.state &&& ~~~stateInstall } := (h.finish rfl).clear stateInstall rfl id rfl
      exact hcleared.spawn rfl

/-- The worker of a step is there. -/
theorem mem_of_enabled {e : Event} {x : Worker} (hx : e.worker = some x)
    (henabled : enabled w e = true) : x ∈ w.workers := by
  simp only [enabled, hx, Bool.and_eq_true, decide_eq_true_eq] at henabled
  exact henabled.2

/-- The connection is up, or the window shows the error; the login follows. -/
theorem base_connected (h : Base w) (success empty : Bool) :
    Base (act w (.connected success empty)) := by
  have hstate : Base (if success then w else { w with state := stateError }) := by
    split
    · exact h
    · exact h.rest resting_stateError
  exact hstate.spawn (by cases empty <;> rfl)

/-- The end of a connection test restores the state that was saved in front of it. -/
theorem base_tested {oldState : Bits} (h : Base w) (hold : Resting oldState)
    (r : TestResult) : Base (act w (.tested oldState r)) := by
  have hdata : ∀ old, (Worker.testData oldState).oldState = some old → Resting old :=
    fun old heq => Option.some.inj heq ▸ hold
  cases r with
  | restores => exact (h.rest hold).spawn rfl
  | transfers => exact h.spawnTest hdata
  | network => exact (h.rest resting_stateError).spawnTest hdata
  | fails => exact h

/-- The end of an installation offers the start of Minecraft, or leaves the window as it is. -/
theorem base_installed (h : Base w) (what : Installation) (success : Bool) :
    Base (act w (.installed what success)) := by
  rw [act, installed]
  split
  · exact (h.same rfl id rfl : Base (w.setProceedListener .startMinecraft)).spawn rfl
  · exact h

/-- Every step keeps the flags and the panels. -/
theorem base_step {e : Event} (h : Base w) (hmeets : Meets w e) (henabled : enabled w e = true) :
    Base (act (leave w e) e) := by
  cases e with
  | proceed onLog commits => exact base_proceedButton h onLog commits
  | abort reverts => exact base_abortButton h reverts
  | testMenu => exact base_testMenu h
  | prefMenu => exact base_prefMenu h
  | installMenu => exact base_installMenu h
  | paramsMenu changes => exact base_paramsMenu h true changes
  | addonsButton => exact h.same rfl id rfl
  | connected success empty => exact base_connected (h.finish rfl) success empty
  | asked given =>
      have hleave : Base (w.finish .askCredentials) := h.finish rfl
      rw [act]
      split
      · exact hleave.spawn rfl
      · exact hleave.same rfl id rfl
  | loggedIn r => exact base_loggedIn (h.finish rfl) r
  | offered => exact (h.finish (x := .loginOffered) rfl).rest resting_stateOk
  | saidFine => exact (h.finish (x := .loginFine) rfl).same rfl id rfl
  | offeredBegin => exact (h.finish (x := .offerBegin) rfl).same rfl id rfl
  | updateStarted => exact (h.finish (x := .updateStart) rfl).work.spawn rfl
  | updated success =>
      obtain rfl : success = true := hmeets
      exact ((h.finish (x := .update) rfl).rest resting_stateOk).same rfl id rfl
  | listRequested r =>
      have hleave : Base (w.finish .listRequest) := h.finish rfl
      cases r with
      | transfers => exact hleave.spawn rfl
      | network => exact (hleave.rest resting_stateError).spawn rfl
      | fails => exact hleave
  | listTransferred success =>
      have hleave : Base (w.finish .listTransfer) := h.finish rfl
      rw [act]
      split
      · exact (hleave.same rfl id rfl :
          Base { w.finish .listTransfer with installPanel := true }).spawn rfl
      · exact hleave
  | testRead =>
      refine (h.finish (x := .testStart) rfl).spawnTest fun oldState hold => ?_
      exact Option.some.inj hold ▸ hmeets
  | testStarted oldState =>
      have hold : Resting oldState := h.saved _ (mem_of_enabled rfl henabled) oldState rfl
      exact (h.finish (x := .testBegins oldState) rfl).work.spawnTest fun old heq =>
        Option.some.inj heq ▸ hold
  | tested oldState r =>
      exact base_tested (h.finish rfl) (h.saved _ (mem_of_enabled rfl henabled) oldState rfl) r
  | testRestored oldState success =>
      have hleave : Base (w.finish (.testData oldState)) := h.finish rfl
      have hold : Resting oldState := h.saved _ (mem_of_enabled rfl henabled) oldState rfl
      rw [act]
      split
      · exact hleave.rest hold
      · exact hleave
  | testReplied network =>
      have hleave : Base (w.finish .testReply) := h.finish rfl
      rw [act]
      split
      · exact hleave.rest resting_stateError
      · exact hleave
  | parentRead first => exact (h.finish (x := .installStart first) rfl).spawn rfl
  | detected first inTabs r => exact base_detected (h.finish rfl) first inTabs r
  | addonsOpened inTabs =>
      have hleave : Base (w.finish (.nextAddons inTabs)) := h.finish rfl
      rw [act, addonsOpened]
      split
      · exact hleave.same rfl id rfl
      · exact hleave.same rfl id rfl
  | installed what success => exact base_installed (h.finish rfl) what success
  | firstRead =>
      have hleave : Base (w.finish .completes) := h.finish rfl
      rw [act]
      split
      · exact hleave.spawn rfl
      · exact hleave
  | paramsAsked changes => exact base_paramsMenu (h.finish rfl) false changes
  | launched => exact h.finish (x := .launch) rfl
  | begun => exact base_begin (h.finish rfl) _
  | addonsTaken => exact base_begin (h.finish rfl) false
  | reads u => exact h.relay (x := .updates u) (y := .stores u w.state) id rfl
  | writes u read =>
      obtain ⟨rfl, -⟩ := hmeets
      exact base_writes h u
  | died x => exact ⟨h.flags, hmeets.2, fun y hy => h.saved y (List.mem_of_mem_erase hy)⟩

end Steps

/-! ## The flags of work -/

section Held

variable {w w' : Window}

/-- A state at rest has neither flag. -/
theorem held_of_rest (hrest : Resting w.state) : Held w := by
  constructor <;> intro hbit <;> rw [hrest.getLsbD (by decide) (by decide)] at hbit <;> cases hbit

/-- Panels, threads and prompts that stay go on holding `STATE_INSTALL`. -/
theorem Installing.mono (h : Installing w) (hpanel : w.installPanel = true → w'.installPanel = true)
    (haddons : 0 < w.addonTabs → 0 < w'.addonTabs)
    (hworkers : ∀ x ∈ w.workers, x.installs = true → x ∈ w'.workers)
    (hlisteners : ∀ l ∈ w.proceedListeners, l.installs = true → l ∈ w'.proceedListeners) :
    Installing w' := by
  rcases h with h | h | ⟨x, hx, hinstalls⟩ | ⟨l, hl, hinstalls⟩
  · exact Or.inl (hpanel h)
  · exact Or.inr (Or.inl (haddons h))
  · exact Or.inr (Or.inr (Or.inl ⟨x, hworkers x hx hinstalls, hinstalls⟩))
  · exact Or.inr (Or.inr (Or.inr ⟨l, hlisteners l hl hinstalls, hinstalls⟩))

/-- A worker that installs is one. -/
theorem installing_spawn {x : Worker} (hx : x.installs = true) : Installing (w.spawn x) :=
  Or.inr (Or.inr (Or.inl ⟨x, List.mem_cons_self, hx⟩))

/-- A worker that works is one. -/
theorem busy_spawn {x : Worker} (hx : x.works = true) : Busy (w.spawn x) :=
  ⟨x, List.mem_cons_self, hx⟩

/-- A thread that does not hold `STATE_WORKING` may end. -/
theorem Busy.finish (h : Busy w) {x : Worker} (hx : x.works = false) : Busy (w.finish x) := by
  obtain ⟨y, hy, hworks⟩ := h
  refine ⟨y, (List.mem_erase_of_ne ?_).mpr hy, hworks⟩
  rintro rfl
  rw [hx] at hworks
  cases hworks

/-- The same workers are as busy. -/
theorem Busy.of_workers (h : Busy w) (hworkers : w'.workers = w.workers) : Busy w' := by
  obtain ⟨y, hy, hworks⟩ := h
  exact ⟨y, hworkers ▸ hy, hworks⟩

/-- One more worker leaves the others busy. -/
theorem Busy.spawn (h : Busy w) (x : Worker) : Busy (w.spawn x) := by
  obtain ⟨y, hy, hworks⟩ := h
  exact ⟨y, List.mem_cons_of_mem x hy, hworks⟩

/-- One more worker leaves the installation. -/
theorem Installing.spawn (h : Installing w) (x : Worker) : Installing (w.spawn x) :=
  h.mono id id (fun _ hy _ => List.mem_cons_of_mem x hy) fun _ hl _ => hl

/-- A thread that does not hold `STATE_INSTALL` may end. -/
theorem Installing.finish (h : Installing w) {x : Worker} (hx : x.installs = false) :
    Installing (w.finish x) := by
  refine h.mono id id (fun y hy hinstalls => (List.mem_erase_of_ne ?_).mpr hy) fun _ hl _ => hl
  rintro rfl
  rw [hx] at hinstalls
  cases hinstalls

/-- One more worker leaves the flags held. -/
theorem Held.spawn (h : Held w) (x : Worker) : Held (w.spawn x) :=
  ⟨fun hbit => (h.install hbit).spawn x, fun hbit => (h.working hbit).spawn x⟩

/-- A thread that holds nothing may end. -/
theorem Held.finish (h : Held w) {x : Worker} (hinstalls : x.installs = false)
    (hworks : x.works = false) : Held (w.finish x) :=
  ⟨fun hbit => (h.install hbit).finish hinstalls, fun hbit => (h.working hbit).finish hworks⟩

/-- A thread hands what it holds to another one. -/
theorem Held.relay (h : Held w) {x y : Worker} (hinstalls : x.installs = true → y.installs = true)
    (hworks : x.works = true → y.works = true) : Held ((w.finish x).spawn y) where
  install hbit := by
    cases hx : x.installs with
    | true => exact installing_spawn (hinstalls hx)
    | false => exact ((h.install hbit).finish hx).spawn y
  working hbit := by
    cases hx : x.works with
    | true => exact busy_spawn (hworks hx)
    | false => exact ((h.working hbit).finish hx).spawn y

/-- `STATE_WORKING` alone, set for a thread that will clear it. -/
theorem held_work {x : Worker} (hx : x.works = true) :
    Held ({ w with state := stateWorking }.spawn x) where
  install hbit := by
    change stateWorking.getLsbD 1 = true at hbit
    rw [getLsbD_stateWorking] at hbit
    cases hbit
  working _ := busy_spawn hx

/-- One more listener takes nothing away. -/
theorem Installing.listen (h : Installing w) {l : Proceed}
    (hpanel : w'.installPanel = w.installPanel) (haddons : w'.addonTabs = w.addonTabs)
    (hworkers : w'.workers = w.workers)
    (hlisteners : w'.proceedListeners = w.proceedListeners ++ [l]) : Installing w' :=
  h.mono (fun hp => hpanel ▸ hp) (fun ha => haddons ▸ ha) (fun _ hx _ => hworkers ▸ hx)
    fun _ hm _ => hlisteners ▸ List.mem_append_left _ hm

/-- One more listener leaves the flags held. -/
theorem Held.setProceedListener (h : Held w) (l : Proceed) : Held (w.setProceedListener l) :=
  ⟨fun hbit => (h.install hbit).listen rfl rfl rfl rfl, h.working⟩

/-- A window whose last listener is no part of an installation loses no holder. -/
theorem Held.pop (h : Held w) {l : Proceed} (hl : w.proceedListeners.getLast? = some l)
    (hinstalls : l.installs = false) : Held (popListeners w) where
  install hbit := by
    refine (h.install hbit).mono id id (fun _ hx _ => hx) fun m hm hpart => ?_
    refine mem_removeLast hl hm ?_
    rintro rfl
    rw [hinstalls] at hpart
    cases hpart
  working := h.working

/-- With the panel of the installation only `STATE_WORKING` needs a holder. -/
theorem Held.show (h : Held w) (hstate : w'.state = w.state) (hpanel : Installing w')
    (hworkers : w'.workers = w.workers) : Held w' where
  install _ := hpanel
  working hbit := (h.working (hstate ▸ hbit)).of_workers hworkers

/-- A flag that is left was there and is not one of those that were cleared. -/
theorem getLsbD_of_clearBits {state bits : Bits} {i : Nat}
    (h : (state &&& ~~~bits).getLsbD i = true) :
    state.getLsbD i = true ∧ bits.getLsbD i = false := by
  rwa [getLsbD_andNot, Bool.and_eq_true, Bool.not_eq_true'] at h

/-- A state with fewer flags of work. -/
theorem Held.fewer (h : Held w) (hinstall : w'.state.getLsbD 1 = true → w.state.getLsbD 1 = true)
    (hworking : w'.state.getLsbD 2 = true → w.state.getLsbD 2 = true)
    (hinstalling : w'.state.getLsbD 1 = true → Installing w → Installing w')
    (hworkers : w'.workers = w.workers) : Held w' where
  install hbit := hinstalling hbit (h.install (hinstall hbit))
  working hbit := (h.working (hworking hbit)).of_workers hworkers

/-- A flag that is cleared needs no holder any more. -/
theorem Held.clear (h : Held w) (bits : Bits) (hstate : w'.state = w.state &&& ~~~bits)
    (hinstalling : Installing w → Installing w') (hworkers : w'.workers = w.workers) : Held w' := by
  have hfewer {i : Nat} (hbit : w'.state.getLsbD i = true) : w.state.getLsbD i = true := by
    rw [hstate] at hbit
    exact (getLsbD_of_clearBits hbit).1
  exact h.fewer hfewer hfewer (fun _ => hinstalling) hworkers

/-- The flag of a panel and that of a first run are no flags of work. -/
theorem Held.setBits (h : Held w) {bits : Bits} (hbits : bits = stateConfig ∨ bits = stateFirst)
    (hstate : w'.state = w.state ||| bits) (hinstalling : Installing w → Installing w')
    (hworkers : w'.workers = w.workers) : Held w' := by
  have hsame (i : Nat) (hzero : i ≠ 0) (hfour : i ≠ 4) :
      w'.state.getLsbD i = w.state.getLsbD i := by
    rw [hstate, BitVec.getLsbD_or]
    rcases hbits with rfl | rfl
    · rw [getLsbD_stateConfig, decide_eq_false hzero, Bool.or_false]
    · rw [getLsbD_stateFirst, decide_eq_false hfour, Bool.or_false]
  exact h.fewer (fun hbit => (hsame 1 (by decide) (by decide)).symm.trans hbit)
    (fun hbit => (hsame 2 (by decide) (by decide)).symm.trans hbit) (fun _ => hinstalling) hworkers

/-- The menu of the parameters keeps the flags held. -/
theorem held_paramsMenu (h : Held w) (onEvents changes : Bool) :
    Held (paramsMenu onEvents changes w) := by
  unfold paramsMenu
  split
  · have hprompt : Held (w.setProceedListener .commitParams) := h.setProceedListener _
    have hlistens : Held ((w.setProceedListener .commitParams).setAbortListener .dropParams) :=
      ⟨hprompt.install, hprompt.working⟩
    exact hlistens.spawn _
  · exact h

/-- `begin` has its thread. -/
theorem held_begin (hworking : w.state.getLsbD 2 = true → Busy w) (first : Bool) :
    Held (begin first w) :=
  ⟨fun _ => installing_spawn rfl, fun hbit => (hworking hbit).spawn _⟩

/-- The listener that the proceed button takes keeps the flags held. -/
theorem held_onProceed (h : Held w) {l : Proceed} (hl : w.proceedListeners.getLast? = some l)
    (commits : Bool) : Held (onProceed commits (popListeners w) l) := by
  have hworking : w.state.getLsbD 2 = true → Busy (popListeners w) := h.working
  cases l with
  | startMinecraft | askFtpCredentials | update => exact (h.pop hl rfl).spawn _
  | commitConfig =>
      rw [onProceed]
      split
      · exact (h.pop hl rfl).spawn _
      · exact h.pop hl rfl
  | commitParams =>
      have hpop : Held (popListeners w) := h.pop hl rfl
      rw [onProceed]
      split
      · exact Held.spawn (w := { popListeners w with parameterPanel := false })
          ⟨hpop.install, hpop.working⟩ _
      · exact hpop
  | begin => exact ⟨fun _ => installing_spawn rfl, fun hbit => (hworking hbit).spawn _⟩
  | beginAgain => exact held_begin (w := popListeners w) hworking false
  | firstAddons =>
      refine ⟨fun _ => installing_spawn rfl, fun hbit => Busy.spawn ?_ _⟩
      change (popListeners w).removeAddons.state.getLsbD 2 = true at hbit
      rw [Window.removeAddons_state] at hbit
      exact (hworking hbit).of_workers (popListeners w).removeAddons_workers
  | addons =>
      refine h.show ?_ (Or.inl rfl) ?_
      · simp [onProceed, popListeners]
      · simp [onProceed, popListeners]

/-- The proceed button keeps the flags held. -/
theorem held_proceedButton (h : Held w) (onLog commits : Bool) :
    Held (proceedButton onLog commits w) := by
  unfold proceedButton
  split
  · exact h
  · split
    · exact h
    · rename_i l hl
      exact held_onProceed h hl commits

/-- The abort button keeps them held, when an installation goes on behind a form that is dropped. -/
theorem held_abortButton (h : Held w) (reverts : Bool)
    (hdrop : w.abortListeners.getLast? = some .revertConfig ∨
      w.abortListeners.getLast? = some .dropParams →
        w.state.getLsbD 1 = true → Installing (popListeners w)) :
    Held (abortButton reverts w) := by
  have hworking : w.state.getLsbD 2 = true → Busy (popListeners w) := h.working
  unfold abortButton
  split
  · exact h
  · rename_i l hl
    cases l with
    | revertConfig =>
        rw [onAbort]
        split
        · exact Held.spawn (w := { popListeners w with configPanel := false })
            ⟨hdrop (Or.inl hl), hworking⟩ _
        · exact ⟨hdrop (Or.inl hl), hworking⟩
    | dropParams =>
        rw [onAbort]
        split
        · exact Held.spawn (w := { popListeners w with parameterPanel := false })
            ⟨hdrop (Or.inr hl), hworking⟩ _
        · exact ⟨hdrop (Or.inr hl), hworking⟩
    | dropInstall => exact ⟨fun _ => installing_spawn rfl, fun _ => busy_spawn rfl⟩
    | firstAddons | addons =>
        refine h.show ?_ (Or.inl rfl) ?_
        · simp [onAbort, popListeners, Window.setProceedListener, Window.setAbortListener]
        · simp [onAbort, popListeners, Window.setProceedListener, Window.setAbortListener]
    | dropAll => exact held_of_rest resting_stateOk

/-- The menu of the test keeps the flags held. -/
theorem held_testMenu (h : Held w) : Held (testMenu w) := by
  unfold testMenu
  split
  · exact h
  · exact h.spawn _

/-- The menu of the preferences keeps the flags held. -/
theorem held_prefMenu (h : Held w) : Held (prefMenu w) := by
  unfold prefMenu
  split
  · exact h.spawn _
  · exact h

/-- The menu of the installation keeps the flags held. -/
theorem held_installMenu (h : Held w) : Held (installMenu w) := by
  unfold installMenu
  split
  · exact h.spawn _
  · exact h

/-- The login thread gone, what it goes on with. -/
theorem held_loggedIn (h : Held w) (r : LoginResult) :
    Held (loggedIn (w.finish .login) r) := by
  have hfinish : Held (w.finish .login) := h.finish rfl rfl
  cases r with
  | refused | timeout | firstRun => exact hfinish.spawn _
  | failed => exact held_of_rest resting_stateError
  | outdated => exact (hfinish.setProceedListener .update).spawn _
  | upToDate => exact held_of_rest resting_stateOk

/-- The installer thread gone, what it goes on with. -/
theorem held_detected (h : Held w) (first inTabs : Bool) (r : Detected)
    (hdies : inTabs = false → r = .chosen false → Held (w.finish (.install first inTabs))) :
    Held (detected first inTabs r (w.finish (.install first inTabs))) := by
  have hworking : w.state.getLsbD 2 = true → Busy (w.finish (.install first inTabs)) :=
    fun hbit => (h.working hbit).finish rfl
  have hrefused : Held (refused (w.finish (.install first inTabs))) :=
    ⟨fun _ => Or.inr (Or.inr (Or.inr ⟨.begin, by simp [refused, Window.setProceedListener], rfl⟩)),
      hworking⟩
  -- What comes next belongs to the installation, wherever the panel is.
  have hnext {x : Worker} (hx : x.installs = true) (shown : Bool) :
      Held ({ w.finish (.install first inTabs) with installPanel := shown }.spawn x) :=
    ⟨fun _ => installing_spawn hx, fun hbit => Busy.spawn (hworking hbit) _⟩
  have hwithout {x : Worker} (hx : x.installs = true) :
      Held (Window.spawn (if inTabs = true then
          { w.finish (.install first inTabs) with installPanel := false }
        else w.finish (.install first inTabs)) x) := by
    split
    · exact hnext hx false
    · exact hnext hx w.installPanel
  cases r with
  | unknown | otherPack => exact hrefused
  | nothing =>
      rw [detected]
      split
      · exact hwithout rfl
      · exact hwithout rfl
  | chosen known =>
      cases known with
      | true => exact hwithout rfl
      | false =>
          cases inTabs with
          | true => exact hnext rfl false
          | false => exact hdies rfl rfl

/-- The flags of work behind an update that writes what it has read. -/
theorem held_writes (h : Held w) (u : Update)
    (hcommit : u = .commitConfig → w.state.getLsbD 1 = true →
      Installing w.dropAllProceedListeners) :
    Held (goOn { w.finish (.stores u w.state) with state := u.apply w.state } u) := by
  cases u with
  | commitConfig =>
      constructor
      · intro hbit
        have hinstalling := (hcommit rfl (getLsbD_of_clearBits hbit).1).finish
          (x := .stores .commitConfig w.state) rfl
        exact (hinstalling.mono id id (fun _ hx _ => hx) fun _ hm _ => hm :
          Installing { (w.finish (.stores .commitConfig w.state)).dropAllProceedListeners with
            configPanel := false }).spawn .connect
      · intro hbit
        exact Busy.spawn ((h.working (getLsbD_of_clearBits hbit).1).finish rfl) .connect
  | commitParams | revertConfig | dropParams =>
      exact (h.finish rfl rfl).clear stateConfig rfl id rfl
  | dropInstall =>
      constructor <;> intro hbit <;> exact absurd (getLsbD_of_clearBits hbit).2 (by decide)
  | prefMenu =>
      exact (h.finish rfl rfl).setBits (Or.inl rfl) rfl
        (fun hinstalling => hinstalling.listen rfl rfl rfl rfl) rfl
  | paramsMenu => exact (h.finish rfl rfl).setBits (Or.inl rfl) rfl id rfl
  | beginWithInstallation onEvents =>
      refine ⟨fun _ => installing_spawn rfl, fun hbit => ?_⟩
      change (w.state ||| stateInstall).getLsbD 2 = true at hbit
      rw [BitVec.getLsbD_or, getLsbD_stateInstall, decide_eq_false (by decide),
        Bool.or_false] at hbit
      exact Busy.spawn ((h.working hbit).finish rfl) _
  | firstRun =>
      have hfirst : Held { w.finish (.stores .firstRun w.state) with
          state := w.state ||| stateFirst } :=
        (h.finish rfl rfl).setBits (Or.inr rfl) rfl id rfl
      exact hfirst.spawn _
  | showInstall =>
      constructor
      · intro hbit
        exact Installing.spawn ((h.install (getLsbD_of_clearBits hbit).1).finish rfl) _
      · intro hbit
        exact absurd (getLsbD_of_clearBits hbit).2 (by decide)
  | completed =>
      constructor
      · intro hbit
        exact absurd (getLsbD_of_clearBits hbit).2 (by decide)
      · intro hbit
        exact Busy.spawn ((h.working (getLsbD_of_clearBits hbit).1).finish rfl) _

/-- The end of a connection test restores a state at rest, or hands the work over. -/
theorem held_tested {oldState : Bits} (h : Held w) (hold : Resting oldState) (r : TestResult)
    (hmeets : Meets w (.tested oldState r)) :
    Held (act (leave w (.tested oldState r)) (.tested oldState r)) := by
  cases r with
  | restores => exact held_of_rest hold
  | transfers => exact h.relay (fun hinstalls => hinstalls) (fun _ => rfl)
  | network => exact held_of_rest resting_stateError
  | fails => exact hmeets

/-- The end of an installation hands the flag over to what follows, if it succeeds. -/
theorem held_installed (h : Held w) (what : Installation) (success : Bool)
    (hmeets : Meets w (.installed what success)) :
    Held (act (leave w (.installed what success)) (.installed what success)) := by
  rw [act, installed]
  split
  · exact ⟨fun _ => installing_spawn rfl, fun hbit => Busy.spawn ((h.working hbit).finish rfl) _⟩
  · rename_i hfails
    rw [not_or, Bool.not_eq_true] at hfails
    exact hmeets hfails.1 hfails.2

/-- Every step that meets its condition keeps a holder for the flags of work. -/
theorem held_step {e : Event} (hbase : Base w) (h : Held w) (hmeets : Meets w e)
    (henabled : enabled w e = true) : Held (act (leave w e) e) := by
  cases e with
  | proceed onLog commits => exact held_proceedButton h onLog commits
  | abort reverts => exact held_abortButton h reverts hmeets
  | testMenu => exact held_testMenu h
  | prefMenu => exact held_prefMenu h
  | installMenu => exact held_installMenu h
  | paramsMenu changes => exact held_paramsMenu h true changes
  | addonsButton => exact h.show rfl (Or.inr (Or.inl (Nat.succ_pos _))) rfl
  | connected success empty =>
      have hrelay : Held ((w.finish .connect).spawn (if empty then .askCredentials else .login)) :=
        (h.finish rfl rfl).spawn _
      cases success with
      | true => exact hrelay
      | false => exact held_of_rest resting_stateError
  | asked given =>
      have hfinish : Held (w.finish .askCredentials) := h.finish rfl rfl
      cases given with
      | true => exact hfinish.spawn _
      | false => exact hfinish.setProceedListener _
  | loggedIn r => exact held_loggedIn h r
  | offered => exact held_of_rest resting_stateOk
  | saidFine => exact (h.finish rfl rfl).setProceedListener _
  | updateStarted => exact held_work rfl
  | updated success =>
      obtain rfl : success = true := hmeets
      exact held_of_rest resting_stateOk
  | listRequested r =>
      cases r with
      | transfers => exact h.relay (fun _ => rfl) (fun hworks => hworks)
      | network => exact held_of_rest resting_stateError
      | fails => exact hmeets
  | listTransferred success =>
      cases success with
      | true => exact ⟨fun _ => Or.inl rfl, fun _ => busy_spawn rfl⟩
      | false => exact hmeets rfl
  | offeredBegin => exact (h.finish rfl rfl).setProceedListener _
  | testRead => exact (h.finish rfl rfl).spawn _
  | testStarted oldState => exact held_work rfl
  | tested oldState r =>
      have hold : Resting oldState := hbase.saved _ (mem_of_enabled rfl henabled) oldState rfl
      exact held_tested h hold r hmeets
  | testRestored oldState success =>
      have hold : Resting oldState := hbase.saved _ (mem_of_enabled rfl henabled) oldState rfl
      cases success with
      | true => exact held_of_rest hold
      | false => exact hmeets rfl
  | testReplied network =>
      cases network with
      | true => exact held_of_rest resting_stateError
      | false => exact h.finish rfl rfl
  | parentRead first => exact h.relay (fun _ => rfl) (fun hworks => hworks)
  | detected first inTabs r => exact held_detected h first inTabs r hmeets
  | addonsOpened inTabs =>
      cases inTabs with
      | true =>
          exact ⟨fun _ => Or.inr (Or.inl (Nat.succ_pos _)), fun hbit => (h.working hbit).finish rfl⟩
      | false => exact ⟨(hmeets rfl).install, (hmeets rfl).working⟩
  | installed what success => exact held_installed h what success hmeets
  | firstRead =>
      have hfinish : Held (w.finish .completes) := h.finish rfl rfl
      rw [act]
      split
      · exact hfinish.spawn _
      · exact hfinish
  | paramsAsked changes => exact held_paramsMenu (h.finish rfl rfl) false changes
  | launched => exact h.finish rfl rfl
  | begun =>
      have hworking : w.state.getLsbD 2 = true → Busy (w.finish .beginning) :=
        fun hbit => (h.working hbit).finish rfl
      exact held_begin hworking _
  | addonsTaken =>
      have hworking : w.state.getLsbD 2 = true → Busy (w.finish .takeAddons) :=
        fun hbit => (h.working hbit).finish rfl
      exact held_begin hworking false
  | reads u => exact h.relay id id
  | writes u read =>
      obtain ⟨rfl, hcommit⟩ := hmeets
      exact held_writes h u hcommit
  | died x => exact hmeets.1

/-- A flag other than the last two stops every menu. -/
theorem menus_still {i : Nat} (hthree : i ≠ 3) (hfour : i ≠ 4)
    (hbit : w.state.getLsbD i = true) :
    testMenu w = w ∧ prefMenu w = w ∧ installMenu w = w ∧
      ∀ onEvents changes, paramsMenu onEvents changes w = w := by
  have hmasked : ¬ (w.state &&& ~~~stateFirst = stateOk ∨
      w.state &&& ~~~stateFirst = stateError) := by
    intro hmasked
    rw [getLsbD_of_masked hmasked hthree hfour] at hbit
    cases hbit
  have hrest : ¬ Resting w.state := by
    intro hrest
    rw [hrest.getLsbD hthree hfour] at hbit
    cases hbit
  exact ⟨if_pos hrest, if_neg hmasked, if_neg fun hok => hmasked (Or.inl hok),
    fun _ changes => if_neg fun hboth => hmasked (Or.inl hboth.1)⟩

end Held

/-! ## The first connection -/

/-- The threads of a window that has not been connected. -/
def Worker.starts : Worker → Bool
  | .connect | .askCredentials | .login | .listRequest | .listTransfer => true
  | .updates u | .stores u _ => u = .firstRun ∨ u = .beginWithInstallation false
  | _ => false

/-- A window on its way to its first connection: one thread or the prompt for
credentials, and nothing else. -/
structure Startup (w : Window) : Prop where
  working : w.state.getLsbD 2 = true
  install : w.state.getLsbD 1 = true → ∃ x ∈ w.workers, x.installs = true
  aborts : w.abortListeners = []
  tabs : w.hasTabs = false
  alone : (∃ x : Worker, x.starts = true ∧ w.workers = [x] ∧ w.proceedListeners = []) ∨
    w.workers = [] ∧ w.proceedListeners = [.askFtpCredentials]

/-- Somebody holds every flag. -/
structure Inv (w : Window) : Prop extends Base w where
  work : Held w ∨ Startup w

section Startup

variable {w : Window}

/-- The window starts on its way. -/
theorem startup_start : Startup .start where
  working := rfl
  install hbit := absurd hbit (by decide)
  aborts := rfl
  tabs := rfl
  alone := Or.inl ⟨.connect, rfl, rfl, rfl⟩

/-- The window of the constructor. -/
theorem inv_start : Inv .start where
  flags i hi := by
    change stateWorking.getLsbD i = false
    rw [getLsbD_stateWorking]
    exact decide_eq_false (by omega)
  config hbit := absurd hbit (by decide)
  saved x hx oldState hold := by
    obtain rfl := List.mem_singleton.mp hx
    cases hold
  work := Or.inr startup_start

/-- A thread that is there is the only one. -/
theorem Startup.only (h : Startup w) {x : Worker} (hx : x ∈ w.workers) :
    x.starts = true ∧ w.workers = [x] ∧ w.proceedListeners = [] := by
  rcases h.alone with ⟨y, hy, hworkers, hlisteners⟩ | ⟨hnone, -⟩
  · rw [hworkers, List.mem_singleton] at hx
    exact ⟨hx ▸ hy, hx ▸ hworkers, hlisteners⟩
  · rw [hnone] at hx
    cases hx

/-- Without its thread a window has none. -/
theorem Startup.finish_workers (h : Startup w) {x : Worker} (hx : x ∈ w.workers) :
    (w.finish x).workers = [] := by
  rw [Window.finish, (h.only hx).2.1]
  simp

/-- A thread hands over to the next one. -/
theorem Startup.relay (h : Startup w) {x y : Worker} (hx : x ∈ w.workers) (hy : y.starts = true)
    (hinstalls : x.installs = true → y.installs = true) : Startup ((w.finish x).spawn y) where
  working := h.working
  install hbit := by
    obtain ⟨z, hz, hpart⟩ := h.install hbit
    rw [(h.only hx).2.1, List.mem_singleton] at hz
    exact ⟨y, List.mem_cons_self, hinstalls (hz ▸ hpart)⟩
  aborts := h.aborts
  tabs := h.tabs
  alone := Or.inl ⟨y, hy, congrArg (y :: ·) (h.finish_workers hx), (h.only hx).2.2⟩

/-- Without a thread of an installation there is none. -/
theorem Startup.install_clear (h : Startup w) {x : Worker} (hx : x ∈ w.workers)
    (hinstalls : x.installs = false) : w.state.getLsbD 1 = false := by
  rw [← Bool.not_eq_true]
  intro hbit
  obtain ⟨y, hy, hpart⟩ := h.install hbit
  rw [(h.only hx).2.1, List.mem_singleton] at hy
  rw [hy, hinstalls] at hpart
  cases hpart

/-- The only prompt is the one for the credentials. -/
theorem startup_proceedButton (h : Startup w) (onLog commits : Bool)
    (hlisteners : w.proceedListeners ≠ []) : Startup (proceedButton onLog commits w) := by
  obtain ⟨hnone, hask⟩ := h.alone.resolve_left fun ⟨_, _, _, hempty⟩ => hlisteners hempty
  have hopen : ¬ LeadsBack onLog w := by simp [LeadsBack, h.tabs]
  have hask' : w.proceedListeners.getLast? = some .askFtpCredentials := by rw [hask]; rfl
  rw [proceedButton, if_neg hopen, hask']
  refine ⟨h.working, fun hbit => ?_, ?_, h.tabs, Or.inl ⟨.askCredentials, rfl, ?_, ?_⟩⟩
  · obtain ⟨x, hx, -⟩ := h.install hbit
    rw [hnone] at hx
    cases hx
  · exact congrArg List.dropLast h.aborts
  · exact congrArg (Worker.askCredentials :: ·) hnone
  · exact congrArg removeLast hask

/-- The login thread hands over, or leaves a state at rest or a holder. -/
theorem startup_loggedIn (h : Startup w) (hx : .login ∈ w.workers) (r : LoginResult) :
    Held (loggedIn (w.finish .login) r) ∨ Startup (loggedIn (w.finish .login) r) := by
  cases r with
  | refused | timeout | firstRun => exact Or.inr (h.relay hx rfl nofun)
  | failed => exact Or.inl (held_of_rest resting_stateError)
  | outdated =>
      refine Or.inl ⟨fun hbit => ?_, fun _ => busy_spawn rfl⟩
      exact absurd ((h.install_clear hx rfl).symm.trans hbit) (by simp)
  | upToDate => exact Or.inl (held_of_rest resting_stateOk)

/-- The two updates of a first run hand over to the thread that requests the list. -/
theorem startup_writes (h : Startup w) {u : Update} (hx : .stores u w.state ∈ w.workers) :
    Startup (goOn { w.finish (.stores u w.state) with state := u.apply w.state } u) := by
  have hset (bits : Bits) : (w.state ||| bits).getLsbD 2 = true := by
    rw [BitVec.getLsbD_or, h.working, Bool.true_or]
  have hgone : w.workers.erase (.stores u w.state) = [] := h.finish_workers hx
  have hu : u = .firstRun ∨ u = .beginWithInstallation false := of_decide_eq_true (h.only hx).1
  rcases hu with rfl | rfl
  · refine ⟨hset _, fun hbit => ?_, h.aborts, h.tabs,
      Or.inl ⟨.updates (.beginWithInstallation false), rfl, congrArg (_ :: ·) hgone,
        (h.only hx).2.2⟩⟩
    change (w.state ||| stateFirst).getLsbD 1 = true at hbit
    rw [BitVec.getLsbD_or, h.install_clear hx rfl] at hbit
    cases hbit
  · exact ⟨hset _, fun _ => ⟨.listRequest, List.mem_cons_self, rfl⟩, h.aborts, h.tabs,
      Or.inl ⟨.listRequest, rfl, congrArg (_ :: ·) hgone, (h.only hx).2.2⟩⟩

/-- Every step that meets its condition brings the window closer to its first
connection or leaves a holder for the flags of work. -/
theorem startup_step {e : Event} (h : Startup w) (hmeets : Meets w e)
    (henabled : enabled w e = true) :
    Held (act (leave w e) e) ∨ Startup (act (leave w e) e) := by
  obtain ⟨htest, hpref, hinstall, hparams⟩ := menus_still (by decide) (by decide) h.working
  cases e with
  | proceed onLog commits =>
      refine Or.inr (startup_proceedButton h onLog commits fun hempty => ?_)
      simp [enabled, Event.worker, hempty] at henabled
  | abort reverts => simp [enabled, Event.worker, h.aborts] at henabled
  | testMenu =>
      right
      change Startup (testMenu w)
      rwa [htest]
  | prefMenu =>
      right
      change Startup (prefMenu w)
      rwa [hpref]
  | installMenu =>
      right
      change Startup (installMenu w)
      rwa [hinstall]
  | paramsMenu changes =>
      right
      change Startup (paramsMenu true changes w)
      rwa [hparams]
  | addonsButton =>
      have hshown : w.installPanel = true := by
        simp only [enabled, Event.worker, Bool.and_eq_true] at henabled
        exact henabled.2
      have htabs := h.tabs
      simp [Window.hasTabs, hshown] at htabs
  | connected success empty =>
      cases success with
      | true => exact Or.inr (h.relay (mem_of_enabled rfl henabled) (by cases empty <;> rfl) nofun)
      | false => exact Or.inl (held_of_rest resting_stateError)
  | asked given =>
      have hx : Worker.askCredentials ∈ w.workers := mem_of_enabled rfl henabled
      cases given with
      | true => exact Or.inr (h.relay hx rfl nofun)
      | false =>
          refine Or.inr ⟨h.working, fun hbit => ?_, h.aborts, h.tabs,
            Or.inr ⟨h.finish_workers hx, ?_⟩⟩
          · exact absurd ((h.install_clear hx rfl).symm.trans hbit) (by simp)
          · exact congrArg (· ++ [Proceed.askFtpCredentials]) (h.only hx).2.2
  | loggedIn r => exact startup_loggedIn h (mem_of_enabled rfl henabled) r
  | listRequested r =>
      cases r with
      | transfers => exact Or.inr (h.relay (mem_of_enabled rfl henabled) rfl fun _ => rfl)
      | network => exact Or.inl (held_of_rest resting_stateError)
      | fails => exact Or.inl hmeets
  | listTransferred success =>
      cases success with
      | true => exact Or.inl ⟨fun _ => Or.inl rfl, fun _ => busy_spawn rfl⟩
      | false => exact Or.inl (hmeets rfl)
  | reads u =>
      have hx : Worker.updates u ∈ w.workers := mem_of_enabled rfl henabled
      exact Or.inr (h.relay hx (h.only hx).1 id)
  | writes u read =>
      obtain ⟨rfl, -⟩ := hmeets
      exact Or.inr (startup_writes h (mem_of_enabled rfl henabled))
  | died x => exact Or.inl hmeets.1
  | offered | saidFine | updateStarted | updated | offeredBegin | testRead | testStarted | tested
  | testRestored | testReplied | parentRead | detected | addonsOpened | installed | firstRead
  | paramsAsked | launched | begun | addonsTaken =>
      exact nomatch (h.only (mem_of_enabled rfl henabled)).1

end Startup

/-! ## Runs -/

/-- Every step that meets its condition keeps a holder for each flag. -/
theorem inv_step {w w' : Window} {e : Event} (h : Inv w) (hmeets : Meets w e)
    (hstep : step w e = some w') : Inv w' := by
  obtain ⟨henabled, rfl⟩ := guarded_eq_some.mp hstep
  refine ⟨base_step h.toBase hmeets henabled, ?_⟩
  rcases h.work with hheld | hstartup
  · exact Or.inl (held_step h.toBase hheld hmeets henabled)
  · exact startup_step hstartup hmeets henabled

/-- Nobody is at work, no panel is shown, and no prompt waits but the launcher's. -/
def Quiet (w : Window) : Prop :=
  w.workers = [] ∧ w.hasTabs = false ∧ ∀ l ∈ w.proceedListeners, l = .startMinecraft

/-- All the flags. -/
def stateFlags : Bits :=
  stateConfig ||| stateInstall ||| stateWorking ||| stateError ||| stateFirst

/-- The state has no bit but the flags, and at rest it is one that the preferences
look for. -/
def WindowOk (w : Window) : Prop :=
  w.state &&& ~~~stateFlags = 0 ∧
    (Quiet w → w.state &&& ~~~stateFirst = stateOk ∨ w.state &&& ~~~stateFirst = stateError)

/-- The five flags are the five lowest bits. -/
theorem getLsbD_stateFlags (i : Nat) : stateFlags.getLsbD i = decide (i < 5) := by
  simp only [stateFlags, BitVec.getLsbD_or, getLsbD_stateConfig, getLsbD_stateInstall,
    getLsbD_stateWorking, getLsbD_stateError, getLsbD_stateFirst, ← Bool.decide_or]
  exact decide_eq_decide.mpr (by omega)

/-- A window at rest has no holder. -/
theorem Quiet.not_installing {w : Window} (h : Quiet w) : ¬ Installing w := by
  obtain ⟨hworkers, htabs, hlisteners⟩ := h
  simp only [Window.hasTabs, Bool.or_eq_false_iff, decide_eq_false_iff_not] at htabs
  rintro (hpanel | haddons | ⟨x, hx, -⟩ | ⟨l, hl, hinstalls⟩)
  · rw [htabs.1.1.2] at hpanel
    cases hpanel
  · exact htabs.2 haddons
  · rw [hworkers] at hx
    cases hx
  · rw [hlisteners l hl] at hinstalls
    cases hinstalls

/-- Nor one for the configuration. -/
theorem Quiet.not_configuring {w : Window} (h : Quiet w) : ¬ Configuring w := by
  have htabs := h.2.1
  simp only [Window.hasTabs, Bool.or_eq_false_iff] at htabs
  rintro (hpanel | hpanel | ⟨x, hx, -⟩)
  · rw [htabs.1.1.1] at hpanel
    cases hpanel
  · rw [htabs.1.2] at hpanel
    cases hpanel
  · rw [h.1] at hx
    cases hx

/-- Nor is it on its way to a connection. -/
theorem Quiet.not_startup {w : Window} (h : Quiet w) : ¬ Startup w := by
  intro hstartup
  rcases hstartup.alone with ⟨x, -, hworkers, -⟩ | ⟨-, hlisteners⟩
  · rw [h.1] at hworkers
    cases hworkers
  · have hprompt := h.2.2 .askFtpCredentials (by simp [hlisteners])
    cases hprompt

/-- With a holder for every flag a window at rest has none of the three. -/
theorem windowOk_of_inv {w : Window} (h : Inv w) : WindowOk w := by
  constructor
  · refine BitVec.eq_of_getLsbD_eq fun i _ => ?_
    rw [getLsbD_andNot, getLsbD_stateFlags]
    by_cases hi : i < 5
    · rw [decide_eq_true hi, Bool.not_true, Bool.and_false]
      exact BitVec.getLsbD_zero.symm
    · rw [h.flags i (by omega), Bool.false_and]
      exact BitVec.getLsbD_zero.symm
  · intro hquiet
    have hheld : Held w := h.work.resolve_right hquiet.not_startup
    refine masked_of_low fun i hthree hfour => ?_
    by_cases hi : 5 ≤ i
    · exact h.flags i hi
    · rw [← Bool.not_eq_true]
      intro hbit
      obtain rfl | rfl | rfl : i = 0 ∨ i = 1 ∨ i = 2 := by omega
      · exact hquiet.not_configuring (h.config hbit)
      · exact hquiet.not_installing (hheld.install hbit)
      · obtain ⟨x, hx, -⟩ := hheld.working hbit
        rw [hquiet.1] at hx
        cases hx

/-- In every run whose steps meet the condition the state has no bit but the flags,
and whenever nobody is at work, no panel is shown and no prompt waits but the
launcher's, the preferences can be opened. -/
theorem windowOk_of_meets {es : List Event} {w : Window} (hmeets : RunMeets step Meets .start es)
    (hrun : run step .start es = some w) : WindowOk w :=
  windowOk_of_inv (run_invariant (fun _ _ _ => inv_step) inv_start hmeets hrun)

/-- At rest the holders are exactly what is needed. -/
theorem windowOk_iff_held {w : Window} (h : Base w) (hquiet : Quiet w) : WindowOk w ↔ Held w := by
  constructor
  · intro hok
    have hclear (i : Nat) (hthree : i ≠ 3) (hfour : i ≠ 4) : w.state.getLsbD i = false :=
      getLsbD_of_masked (hok.2 hquiet) hthree hfour
    exact ⟨fun hbit => absurd (hclear 1 (by decide) (by decide)) (by simp [hbit]),
      fun hbit => absurd (hclear 2 (by decide) (by decide)) (by simp [hbit])⟩
  · exact fun hheld => windowOk_of_inv ⟨h, Or.inl hheld⟩

/-- A flag of work that nobody holds stops every menu. -/
theorem menus_stuck {w : Window} (hheld : ¬ Held w) :
    testMenu w = w ∧ prefMenu w = w ∧ installMenu w = w ∧
      ∀ onEvents changes, paramsMenu onEvents changes w = w := by
  have hflag : ∃ i, i ≠ 3 ∧ i ≠ 4 ∧ w.state.getLsbD i = true := by
    by_contra hnone
    exact hheld ⟨fun hbit => absurd ⟨1, by decide, by decide, hbit⟩ hnone,
      fun hbit => absurd ⟨2, by decide, by decide, hbit⟩ hnone⟩
  obtain ⟨i, hthree, hfour, hbit⟩ := hflag
  exact menus_still hthree hfour hbit

/-- An installation that is dropped in its panel. -/
def droppedRun : List Event :=
  [.connected true false, .loggedIn .upToDate, .saidFine, .installMenu,
    .reads (.beginWithInstallation true), .writes (.beginWithInstallation true) stateOk,
    .listRequested .transfers, .listTransferred true, .reads .showInstall,
    .writes .showInstall stateInstall, .offeredBegin, .abort true, .reads .dropInstall,
    .writes .dropInstall stateInstall]

/-- In this run the conditions are met. -/
theorem droppedRun_meets : RunMeets step Meets .start droppedRun := by
  decide

/-- Nothing is left of it. -/
theorem windowOk_dropped :
    ∃ w, run step .start droppedRun = some w ∧ Quiet w ∧ WindowOk w :=
  ⟨_, rfl, ⟨rfl, rfl, by decide⟩, windowOk_of_meets droppedRun_meets rfl⟩

/-- A first run up to the panel of the installation and its prompt. -/
def shownRun : List Event :=
  [.connected true false, .loggedIn .firstRun, .reads .firstRun, .writes .firstRun stateWorking,
    .reads (.beginWithInstallation false),
    .writes (.beginWithInstallation false) (stateWorking ||| stateFirst),
    .listRequested .transfers, .listTransferred true, .reads .showInstall,
    .writes .showInstall (stateWorking ||| stateFirst ||| stateInstall), .offeredBegin]

/-- The list of packs is refused, and no menu reacts any more; nor does one when the first
installation is of a pack without a list of add-ons, or when the preferences read the flag of
a test and write it behind the end of the test.  The update loses its connection, and the
state has a bit that is no flag. -/
theorem windowOk_fails :
    (∃ w, run step .start [.connected true false, .loggedIn .upToDate, .saidFine, .installMenu,
      .reads (.beginWithInstallation true), .writes (.beginWithInstallation true) stateOk,
      .listRequested .fails] = some w ∧ Quiet w ∧ ¬ WindowOk w) ∧
    (∃ w, run step .start (shownRun ++ [.proceed false true, .begun, .parentRead true,
      .detected true true .nothing, .died (.nextAddons true)]) = some w ∧ Quiet w ∧ ¬ WindowOk w) ∧
    (∃ w, run step .start [.connected true false, .loggedIn .upToDate, .saidFine, .testMenu,
      .prefMenu, .testRead, .testStarted stateOk, .reads .prefMenu, .tested stateOk .restores,
      .writes .prefMenu stateWorking, .testReplied false, .abort true, .reads .revertConfig,
      .writes .revertConfig (stateWorking ||| stateConfig)] = some w ∧ Quiet w ∧ ¬ WindowOk w) ∧
    ∃ w, run step .start [.connected true false, .loggedIn .outdated, .offered,
      .proceed true true, .updateStarted, .updated false] = some w ∧ ¬ WindowOk w := by
  refine ⟨⟨_, rfl, ⟨rfl, rfl, by decide⟩, fun h => ?_⟩,
    ⟨_, rfl, ⟨rfl, rfl, by decide⟩, fun h => ?_⟩, ⟨_, rfl, ⟨rfl, rfl, by decide⟩, fun h => ?_⟩,
    _, rfl, fun h => ?_⟩
  · exact absurd (h.2 ⟨rfl, rfl, by decide⟩) (by decide)
  · exact absurd (h.2 ⟨rfl, rfl, by decide⟩) (by decide)
  · exact absurd (h.2 ⟨rfl, rfl, by decide⟩) (by decide)
  · exact absurd h.1 (by decide)

end InstallerWindow
end Client
end ModpackInstaller
