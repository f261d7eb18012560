import ModpackInstaller.Channel.Opened

/-!
# Who runs a data listener, and when

In passive mode a data thread waits for a permit before it runs its listener,
and the reply 150 to the transfer command makes the permit.  The permits are not
bound to a channel, the listener of a channel that is used again runs on the
command thread, and the listener of a failed connection runs at once.

Main results:

- Theorem {lit}`patient_step`: a step that meets the condition leaves every
  permit to threads whose transfer was answered.
- Theorem {lit}`timely_of_unhurried`: in a run of such steps every listener runs
  on its data thread, behind the reply 150.
- Theorem {lit}`timely_fails`: after a refused transfer the next call runs its
  listener on the command thread.
-/

namespace ModpackInstaller
namespace Channel

open Library Client

/-- The thread may still run its listener. -/
def DataThread.Running : DataThread → Prop
  | .connecting => True
  | .waiting => True
  | _ => False

instance : DecidablePred DataThread.Running
  | .created => inferInstanceAs (Decidable False)
  | .connecting => inferInstanceAs (Decidable True)
  | .waiting => inferInstanceAs (Decidable True)
  | .done => inferInstanceAs (Decidable False)

/-- Every data listener ran on a data thread and behind the reply 150 to its
transfer command, and the command thread is not inside one. -/
def Timely (s : FtpClient) : Prop :=
  (∀ x ∈ s.executions, x.onCommandThread = false ∧ x.answered = true) ∧
    ∀ l, s.phase ≠ .listening l

/-- A channel is opened only when the field is empty and no permit is left over.
A transfer is answered with 150 only when every other data thread that still has
a listener was answered so, and a data connection fails only when its transfer
was, or when the channel was abandoned. -/
def Unhurried (s : FtpClient) : Event → Prop
  | .openDataChannel => s.channel = none ∧ s.permits = 0
  | .transfer kind reply =>
    (kind.call reply).started = true →
      ∀ c < s.made, (s.chans c).thread.Running →
        ∀ l ∈ (s.chans c).listener, s.answered l = true ∨ s.awaiting = some l
  | .dataFails c _ => ∀ l ∈ (s.chans c).listener, s.answered l = true
  | _ => True

instance (s : FtpClient) : (e : Event) → Decidable (Unhurried s e)
  | .openDataChannel => inferInstanceAs (Decidable (_ ∧ _))
  | .transfer _ _ =>
    inferInstanceAs (Decidable (_ → ∀ c < s.made, _ → ∀ l ∈ (s.chans c).listener, _))
  | .dataFails c _ => inferInstanceAs (Decidable (∀ l ∈ (s.chans c).listener, _))
  | .connect _ => inferInstanceAs (Decidable True)
  | .login => inferInstanceAs (Decidable True)
  | .reuse _ => inferInstanceAs (Decidable True)
  | .listenerReturns _ => inferInstanceAs (Decidable True)
  | .pasvReply _ _ => inferInstanceAs (Decidable True)
  | .construct _ _ => inferInstanceAs (Decidable True)
  | .startThread _ _ => inferInstanceAs (Decidable True)
  | .sendPort _ _ => inferInstanceAs (Decidable True)
  | .portReply _ _ _ => inferInstanceAs (Decidable True)
  | .abandonDataChannel => inferInstanceAs (Decidable True)
  | .closeDataChannel => inferInstanceAs (Decidable True)
  | .dataConnects _ => inferInstanceAs (Decidable True)
  | .dataClosed _ => inferInstanceAs (Decidable True)
  | .acquires _ => inferInstanceAs (Decidable True)

/-- The phases of a passive call that finds no channel; no permit is there until
the channel is started. -/
def PatientAt (permits : Nat) : Phase → Prop
  | .idle => True
  | .asking _ => permits = 0
  | .starting _ _ => permits = 0
  | _ => False

/-- A permit is there only for threads whose transfer was answered with 150. -/
structure Patient (s : FtpClient) : Prop where
  passive : s.passive = true
  phase : PatientAt s.permits s.phase
  timely : ∀ x ∈ s.executions, x.onCommandThread = false ∧ x.answered = true
  mode : ∀ c, (s.chans c).isActive = false
  field : ∀ c ∈ s.channel, c < s.made
  made : ∀ c, (s.chans c).thread.Running → c < s.made
  permits : 0 < s.permits → ∀ c, (s.chans c).thread.Running →
    ∀ l ∈ (s.chans c).listener, s.answered l = true

/-! ## Steps -/

section Steps

variable {env : Setting} {s : FtpClient}

/-- The phase does not depend on more permits being taken. -/
theorem PatientAt.mono {permits permits' : Nat} {phase : Phase} (h : PatientAt permits phase)
    (hle : permits' ≤ permits) : PatientAt permits' phase := by
  cases phase <;> simp_all [PatientAt]

/-- The end of the call keeps the invariant. -/
theorem Patient.finish (hs : Patient s) (outcome : Except Unchecked Int) :
    Patient (finish s outcome) :=
  ⟨hs.passive, trivial, hs.timely, hs.mode, hs.field, hs.made, hs.permits⟩

/-- A change of one record that starts no thread and passes no listener. -/
theorem Patient.modify (hs : Patient s) {c : Nat} {f : Chan → Chan}
    (hmode : (f (s.chans c)).isActive = (s.chans c).isActive)
    (hthread : (f (s.chans c)).thread.Running → (s.chans c).thread.Running)
    (hlistener : ∀ l ∈ (f (s.chans c)).listener, l ∈ (s.chans c).listener) :
    Patient (modify s c f) := by
  have hsame : ∀ c', ((Channel.modify s c f).chans c').isActive = (s.chans c').isActive ∧
      (((Channel.modify s c f).chans c').thread.Running → (s.chans c').thread.Running) ∧
      ∀ l ∈ ((Channel.modify s c f).chans c').listener, l ∈ (s.chans c').listener := by
    intro c'
    by_cases h : c' = c
    · rw [h, modify_chans, Function.update_self]
      exact ⟨hmode, hthread, hlistener⟩
    · rw [modify_chans, Function.update_of_ne h]
      exact ⟨rfl, id, fun _ h => h⟩
  refine ⟨hs.passive, hs.phase, hs.timely, fun c' => ?_, hs.field, fun c' h => ?_, ?_⟩
  · rw [(hsame c').1]
    exact hs.mode c'
  · exact hs.made c' ((hsame c').2.1 h)
  · intro hpos c' hrunning l hl
    exact hs.permits hpos c' ((hsame c').2.1 hrunning) l ((hsame c').2.2 l hl)

/-- A data thread is through. -/
theorem Patient.threadDone (hs : Patient s) (c : Nat) :
    Patient (Channel.modify s c fun ch => { ch with thread := .done }) := by
  refine hs.modify rfl ?_ fun _ h => h
  simp [DataThread.Running]

/-- An execution behind the reply 150. -/
theorem Patient.execute (hs : Patient s) {l : Option Nat}
    (hanswered : ∀ l' ∈ l, s.answered l' = true) : Patient (execute s l false) where
  passive := by rw [execute_passive]; exact hs.passive
  phase := by rw [execute_permits, execute_phase]; exact hs.phase
  timely := by
    intro x hx
    rcases (mem_execute s).mp hx with hx | ⟨l', hl', rfl⟩
    · exact hs.timely x hx
    · exact ⟨rfl, hanswered l' hl'⟩
  mode := by rw [execute_chans]; exact hs.mode
  field := by cases l <;> exact hs.field
  made := by cases l <;> exact hs.made
  permits := by cases l <;> exact hs.permits

/-- So does emptying the field. -/
theorem Patient.emptied (hs : Patient s) : Patient { s with channel := none } :=
  ⟨hs.passive, hs.phase, hs.timely, hs.mode, by simp, hs.made, hs.permits⟩

/-- The call starts without a permit of an earlier one. -/
theorem patient_openDataChannel (hs : Patient s) (hmeets : Unhurried s .openDataChannel) :
    Patient (clientEffect env s .openDataChannel) := by
  obtain ⟨hempty, hpermits⟩ := hmeets
  have hpassive := hs.passive
  simp only [clientEffect, lookAtField, hempty, hpassive, if_true]
  exact ⟨rfl, hpermits, hs.timely, hs.mode, by simp, hs.made, hs.permits⟩

/-- The new channel is made before its thread runs. -/
theorem patient_assign (hs : Patient s) (hpermits : s.permits = 0) (l : Nat)
    (accepted : Option Nat) : Patient (assign s l false accepted) where
  passive := hs.passive
  phase := hpermits
  timely := hs.timely
  mode := by
    intro c
    by_cases h : c = s.made
    · simp [assign, h]
    · simp [assign, Function.update_of_ne h, hs.mode c]
  field := by simp [assign]
  made := by
    intro c hrunning
    by_cases h : c = s.made
    · simp [assign, h]
    · simp only [assign, Function.update_of_ne h] at hrunning ⊢
      exact Nat.lt_succ_of_lt (hs.made c hrunning)
  permits := by
    intro hpos
    exact absurd hpos (by simp [assign, hpermits])

/-- The reply to PASV ends the call or leads to a new channel. -/
theorem patient_afterPasv (hs : Patient s) {l : Nat} (hphase : s.phase = .asking l)
    (reply : ControlReply) : Patient (afterPasv s env l reply) := by
  have hpermits : PatientAt s.permits (.asking l) := hphase ▸ hs.phase
  cases reply with
  | ioError e => exact hs.finish _
  | line response =>
      simp only [afterPasv]
      split
      · exact hs.finish _
      · split
        · exact hs.finish _
        · split
          · split
            · exact hs.finish _
            · exact patient_assign hs hpermits l _
          · exact hs.finish _

/-- The thread starts while no permit is there. -/
theorem patient_startChannel (hs : Patient s) {l c : Nat} (hphase : s.phase = .starting l c) :
    Patient (startChannel s l c) := by
  have hpermits : PatientAt s.permits (.starting l c) := hphase ▸ hs.phase
  simp only [startChannel]
  split
  · exact hs.finish _
  · rename_i c' hchannel
    have hc' : c' < s.made := hs.field c' hchannel
    have hmodify : Patient (modify s c' fun ch => { ch with thread := .connecting }) := by
      refine ⟨hs.passive, hs.phase, hs.timely, fun c'' => ?_, hs.field, fun c'' hrunning => ?_, ?_⟩
      · by_cases h : c'' = c'
        · simpa [h] using hs.mode c'
        · simpa [Function.update_of_ne h] using hs.mode c''
      · by_cases h : c'' = c'
        · rw [h]
          exact hc'
        · rw [modify_chans, Function.update_of_ne h] at hrunning
          exact hs.made c'' hrunning
      · intro hpos
        have hzero : s.permits = 0 := hpermits
        exact absurd hpos (by simp [Channel.modify, hzero])
    have hmode := hmodify.mode c
    rw [if_neg (by rw [hmode]; simp)]
    exact hmodify.finish _

/-- A permit is given for a transfer that was answered with 150. -/
theorem patient_afterTransfer (hs : Patient s) (hphase : s.phase = .idle) {kind : TransferKind}
    {reply : ControlReply} (hmeets : Unhurried s (.transfer kind reply)) :
    Patient (afterTransfer s kind reply) := by
  simp only [afterTransfer]
  split
  · rename_i hstarted
    refine ⟨hs.passive, by rw [hphase]; trivial, hs.timely, hs.mode, hs.field, hs.made, ?_⟩
    intro _ c hrunning l hl
    have hl' := hmeets hstarted c (hs.made c hrunning) hrunning l hl
    cases hawaiting : s.awaiting with
    | none => simpa [hawaiting] using hl'
    | some l' =>
        by_cases h : l = l'
        · simp [h]
        · simp only [Function.update_of_ne h]
          exact hl'.resolve_right (by simp [hawaiting, Ne.symm h])
  · exact ⟨hs.passive, hs.phase, hs.timely, hs.mode, hs.field, hs.made, hs.permits⟩

/-- A thread that fails uses no permit. -/
theorem patient_dataFailed (hs : Patient s) {c : Nat} {timeout : Bool}
    (hmeets : Unhurried s (.dataFails c timeout)) : Patient (dataFailed s c timeout) := by
  have hpassive : ¬ (s.chans c).isActive = true := by simp [hs.mode c]
  simp only [dataFailed, if_neg hpassive]
  refine Patient.execute (Patient.execute (hs.threadDone c).emptied hmeets) ?_
  rw [execute_answered]
  exact hmeets

/-- A thread that takes the permit runs its listener behind the 150. -/
theorem patient_acquires (hs : Patient s) {c : Nat} (henabled : ClientEnabled s (.acquires c)) :
    Patient (clientEffect env s (.acquires c)) := by
  obtain ⟨hwaiting, hpos⟩ := henabled
  have hrunning : (s.chans c).thread.Running := by rw [hwaiting]; trivial
  have hdone := hs.threadDone c
  refine Patient.execute ?_ (hs.permits hpos c hrunning)
  refine ⟨hs.passive, hs.phase.mono (Nat.sub_le _ _), hs.timely, hdone.mode, hs.field,
    hdone.made, fun hpos' => hdone.permits ?_⟩
  exact hpos

/-- A step that meets the condition leaves every permit to threads whose
transfer was answered. -/
theorem patient_step {e : Event} (hs : Patient s) (hmeets : Unhurried s e)
    (henabled : ClientEnabled s e) : Patient (clientEffect env s e) := by
  have hphase := hs.phase
  cases e with
  | connect established =>
      refine ⟨by simp [clientEffect, hs.passive], hs.phase, hs.timely, hs.mode, hs.field, hs.made,
        hs.permits⟩
  | login =>
      refine ⟨by simp [clientEffect, hs.passive], hs.phase, hs.timely, hs.mode, hs.field, hs.made,
        hs.permits⟩
  | openDataChannel => exact patient_openDataChannel hs hmeets
  | pasvReply l reply => exact patient_afterPasv hs henabled reply
  | startThread l c => exact patient_startChannel hs henabled
  | transfer kind reply => exact patient_afterTransfer hs henabled hmeets
  | abandonDataChannel =>
      simp only [clientEffect]
      split
      · exact hs
      · exact hs.modify rfl id (by simp)
  | closeDataChannel =>
      simp only [clientEffect, closeField]
      split
      · exact hs
      · rename_i c _
        have hclose : (s.chans c).close.2 = s.chans c := by simp [Chan.close, hs.mode c]
        exact (hs.modify (by rw [hclose]) (by rw [hclose]; exact id)
          (by rw [hclose]; exact fun _ h => h)).emptied
  | dataConnects c =>
      have hrunning : (s.chans c).thread.Running := by rw [henabled.1]; trivial
      have hpassive : ¬ (s.chans c).isActive = true := by simp [hs.mode c]
      simp only [clientEffect, dataConnected, if_neg hpassive]
      exact hs.modify rfl (fun _ => hrunning) fun _ h => h
  | dataFails c timeout => exact patient_dataFailed hs hmeets
  | dataClosed c => exact hs.threadDone c
  | acquires c => exact patient_acquires hs henabled
  | reuse l =>
      rw [show s.phase = .reusing l from henabled] at hphase
      exact hphase.elim
  | listenerReturns l =>
      rw [show s.phase = .listening l from henabled] at hphase
      exact hphase.elim
  | construct l bound =>
      rw [show s.phase = .constructing l from henabled] at hphase
      exact hphase.elim
  | sendPort l c =>
      rw [show s.phase = .started l c from henabled] at hphase
      exact hphase.elim
  | portReply l c reply =>
      rw [show s.phase = .portSent l c from henabled] at hphase
      exact hphase.elim

end Steps

/-! ## Runs -/

/-- A new client has no threads and no permits. -/
theorem patient_start : Patient (.start true) where
  passive := rfl
  phase := trivial
  timely := by simp [FtpClient.start]
  mode := fun _ => rfl
  field := by simp [FtpClient.start]
  made := fun _ h => h.elim
  permits := fun h => absurd h (by simp [FtpClient.start])

/-- In a passive run of unhurried steps every data listener runs on its data
thread, behind the reply 150 to its transfer command, and the command thread is
never inside one. -/
theorem timely_of_unhurried {env : Setting} {es : List Event} {s : FtpClient}
    (hmeets : RunMeets (clientStep env) Unhurried (.start true) es)
    (hrun : run (clientStep env) (.start true) es = some s) : Timely s := by
  have hpatient : Patient s :=
    guarded_invariant (fun _ _ hs hmeet henabled => patient_step hs hmeet henabled)
      patient_start hmeets hrun
  refine ⟨hpatient.timely, fun l hphase => ?_⟩
  have hat := hpatient.phase
  rw [hphase] at hat
  exact hat

/-- The reply of the server to `PASV`. -/
def pasvLine : ControlReply :=
  .line "227 Entering Passive Mode (1,2,3,4,4,5).".toList

/-- A refused transfer whose channel is abandoned and closed, and a transfer that
goes through, in which the thread of the new channel runs its listener. -/
def refusedAndClosed : List Event :=
  [.openDataChannel, .pasvReply 0 pasvLine, .startThread 0 0, .dataConnects 0,
    .transfer .retr (.line "550 Failed to open file.".toList), .abandonDataChannel,
    .closeDataChannel, .openDataChannel, .pasvReply 1 pasvLine, .startThread 1 1,
    .dataConnects 1, .transfer .uins (.line "150 Here comes the update instructions.".toList),
    .acquires 1]

/-- The run that `refusedAndClosed` describes. -/
theorem timely_closed :
    ∃ s, run (clientStep direct) (.start true) refusedAndClosed = some s ∧
      s.executions = [⟨1, false, true⟩] ∧ Timely s := by
  have hmeets : RunMeets (clientStep direct) Unhurried (.start true) refusedAndClosed := by
    decide
  exact ⟨_, rfl, rfl, timely_of_unhurried hmeets rfl⟩

/-- A refused transfer whose channel is abandoned, as the routines do it: the
next call runs its listener on the command thread, before its transfer command
is sent. -/
theorem timely_fails :
    ∃ s, run (clientStep direct) (.start true)
        [.openDataChannel, .pasvReply 0 pasvLine, .startThread 0 0, .dataConnects 0,
          .transfer .retr (.line "550 Failed to open file.".toList), .abandonDataChannel,
          .openDataChannel, .reuse 1] = some s ∧
      s.phase = .listening 1 ∧ s.executions = [⟨1, true, false⟩] ∧ ¬ Timely s :=
  ⟨_, rfl, rfl, rfl, fun h => h.2 1 rfl⟩

end Channel
end ModpackInstaller
