import ModpackInstaller.Download.Machine

/-!
# Success on whole data

A routine reports success by what its data thread has seen, and the completion
thread wakes it whatever the final reply says.  So success means whole data
only when the end of the stream does, and, for the instructions, only when the
data thread is through before the completion thread.

The calls of a panel share its field {lit}`success`, and a data thread can outlive
its call: the routine may be woken or interrupted before, and closing a passive
channel does not stop it.  Every call opens a channel of its own.

Main results:

- Theorem {lit}`whole_of_success`: of all the calls of a panel one after the other,
  those that return success have consumed all the server had to send, when the
  server closes the data connection only behind the last byte, the archive reader
  ends only at the end of the stream, the final reply of {lit}`SITE UINS` is handled
  only behind the data, and no call begins while an earlier data thread still runs.
- Theorem {lit}`whole_fails`: a transfer that breaks off, a final reply that
  overtakes the data, and a data thread that sets {lit}`success` for a later call.
-/

namespace ModpackInstaller
namespace Download

open Library Client

/-! ## The panel -/

/-- The calls of a panel, the last one first, and the field that they share. -/
structure Panel where
  success : Bool
  calls : List (Call × TransferState)

/-- The start: nothing has been called. -/
def Panel.start : Panel :=
  ⟨false, []⟩

/-- A call, with the field of the panel. -/
def Panel.call? (p : Panel) (n : Nat) : Option (Call × TransferState) :=
  p.calls[n]?.map fun call => (call.1, { call.2 with success := p.success })

/-- A routine is called, or a thread of a call or its server takes a step. -/
inductive PanelEvent where
  | begin (c : Call)
  | step (n : Nat) (e : TransferEvent)

section Panels

variable (p : Panel)

/-- When a step is possible. -/
def PanelEnabled : PanelEvent → Prop
  | .begin _ => ∀ call ∈ p.calls, call.2.phase.isOver = true
  | .step n e => ∃ call ∈ p.call? n, TransferEnabled call.1 call.2 e

instance : (e : PanelEvent) → Decidable (PanelEnabled p e)
  | .begin _ => inferInstanceAs (Decidable (∀ call ∈ p.calls, _ = _))
  | .step n e => inferInstanceAs (Decidable (∃ call ∈ p.call? n, TransferEnabled _ _ e))

/-- What a step does; only the downloads begin with `success = false`. -/
def panelEffect : PanelEvent → Panel
  | .begin c =>
    { success := match c.routine with
        | .fetchUpdateInstructions => p.success
        | _ => false
      calls := (c, .start) :: p.calls }
  | .step n e =>
    match p.call? n with
    | none => p
    | some call =>
      let s' := transferEffect call.1 call.2 e
      { success := s'.success, calls := p.calls.set n (call.1, s') }

/-- One step of the panel. -/
def panelStep : Panel → PanelEvent → Option Panel :=
  guarded PanelEnabled panelEffect

end Panels

/-- The end of the stream is the end of the data, and the routine is woken
behind the data thread where it does not look at what that saw. -/
def EndsWhole (c : Call) (s : TransferState) : TransferEvent → Prop
  | .close => s.sent = c.content.length
  | .unpacked => s.closed = true ∧ s.consumed = s.sent
  | .completes _ => c.routine = .fetchUpdateInstructions → s.data = .ended true
  | _ => True

instance (c : Call) (s : TransferState) : (e : TransferEvent) → Decidable (EndsWhole c s e)
  | .close => inferInstanceAs (Decidable (_ = _))
  | .unpacked => inferInstanceAs (Decidable (_ ∧ _))
  | .completes _ => inferInstanceAs (Decidable (_ → _))
  | .opened _ _ => inferInstanceAs (Decidable True)
  | .replied => inferInstanceAs (Decidable True)
  | .acquire => inferInstanceAs (Decidable True)
  | .interrupt => inferInstanceAs (Decidable True)
  | .connect => inferInstanceAs (Decidable True)
  | .connectFails => inferInstanceAs (Decidable True)
  | .enter => inferInstanceAs (Decidable True)
  | .send _ => inferInstanceAs (Decidable True)
  | .read _ => inferInstanceAs (Decidable True)
  | .atEnd => inferInstanceAs (Decidable True)
  | .dataError => inferInstanceAs (Decidable True)

/-- The data thread has nothing to say to `success` any more. -/
def DataOver (call : Call × TransferState) : Prop :=
  call.1.routine ≠ .fetchUpdateInstructions → ∃ whole, call.2.data = .ended whole

instance : DecidablePred DataOver :=
  fun call => inferInstanceAs
    (Decidable (call.1.routine ≠ _ → ∃ whole, call.2.data = .ended whole))

/-- No call begins while a data thread of an earlier download still runs, and every
transfer ends whole. -/
def Meets (p : Panel) : PanelEvent → Prop
  | .begin _ => ∀ call ∈ p.calls, DataOver call
  | .step n e => ∀ call ∈ p.call? n, EndsWhole call.1 call.2 e

instance (p : Panel) : (e : PanelEvent) → Decidable (Meets p e)
  | .begin _ => inferInstanceAs (Decidable (∀ call ∈ p.calls, DataOver call))
  | .step n e => inferInstanceAs (Decidable (∀ call ∈ p.call? n, EndsWhole _ _ e))

/-- What the flags of a transfer stand for. -/
structure Faithful (c : Call) (s : TransferState) : Prop where
  closed : s.closed = true → s.sent = c.content.length
  ended : s.data = .ended true → s.closed = true ∧ s.consumed = s.sent
  success : c.routine ≠ .fetchUpdateInstructions → s.success = true → s.data = .ended true
  permits : 0 < s.permits → c.routine = .fetchUpdateInstructions → s.data = .ended true
  returned : ∀ held, s.phase = .returned true held → held = c.content.length

section Steps

variable {c : Call} {s : TransferState}

/-- A data thread that is through has consumed everything. -/
theorem Faithful.consumed_of_ended (hs : Faithful c s) (h : s.data = .ended true) :
    s.consumed = c.content.length := by
  obtain ⟨hclosed, hconsumed⟩ := hs.ended h
  rw [hconsumed, hs.closed hclosed]

/-- A change of the phase that is no successful return keeps what the flags
stand for. -/
theorem Faithful.leave (hs : Faithful c s) {phase : Phase}
    (hphase : ∀ held, phase ≠ .returned true held) : Faithful c { s with phase := phase } :=
  ⟨hs.closed, hs.ended, hs.success, hs.permits, fun held h => absurd h (hphase held)⟩

/-- A data thread that is not through may go on in any way that does not end
it well. -/
theorem Faithful.goOn (hs : Faithful c s) (hdata : s.data ≠ .ended true) {data : DataThread}
    (hne : data ≠ .ended true) {success : Bool} (hsuccess : success = true → s.success = true) :
    Faithful c { s with data := data, success := success } where
  closed := hs.closed
  ended h := absurd h hne
  success hroutine h := absurd (hs.success hroutine (hsuccess h)) hdata
  permits h hroutine := absurd (hs.permits h hroutine) hdata
  returned := hs.returned

/-- The completion thread wakes the routine. -/
theorem Faithful.deliver (hs : Faithful c s)
    (he : c.routine = .fetchUpdateInstructions → s.data = .ended true) :
    Faithful c (deliver c s) :=
  ⟨hs.closed, hs.ended, hs.success, fun _ => he, hs.returned⟩

/-- A routine that is woken and returns success holds everything. -/
theorem Faithful.acquire (hs : Faithful c s) (hpermits : 0 < s.permits) :
    Faithful c (transferEffect c s .acquire) where
  closed := hs.closed
  ended := hs.ended
  success := hs.success
  permits _ := hs.permits hpermits
  returned := by
    intro held hreturned
    simp only [transferEffect, Phase.returned.injEq] at hreturned
    obtain ⟨hsuccess, rfl⟩ := hreturned
    refine hs.consumed_of_ended ?_
    cases hroutine : c.routine with
    | fetchUpdateInstructions => exact hs.permits hpermits hroutine
    | downloadFile => exact hs.success (by simp [hroutine]) (by simpa [hroutine] using hsuccess)
    | downloadArchive =>
        exact hs.success (by simp [hroutine]) (by simpa [hroutine] using hsuccess)

/-- A step of a transfer keeps what its flags stand for. -/
theorem faithful_step {e : TransferEvent} (hs : Faithful c s) (he : EndsWhole c s e)
    (henabled : TransferEnabled c s e) : Faithful c (transferEffect c s e) := by
  cases e with
  | opened result reconnects =>
      simp only [transferEffect]
      split
      · exact hs.leave (by simp)
      · split
        · exact hs
        · exact hs.leave (by simp)
  | replied =>
      have hne : ∀ held, afterCommand c.routine s.consumed c.command.result ≠
          .returned true held := by
        intro held
        rcases afterCommand_cases c.routine s.consumed c.command.result with
          hafter | hafter | ⟨e, hafter⟩ <;> simp [hafter]
      have hleave := hs.leave hne
      exact ⟨hleave.closed, hleave.ended, hleave.success, hleave.permits, hleave.returned⟩
  | acquire => exact hs.acquire henabled.2
  | interrupt => exact hs.leave (by simp)
  | connect =>
      have hdata : s.data ≠ .ended true := by simp [henabled.1]
      refine hs.goOn hdata ?_ id
      split <;> simp
  | connectFails =>
      have hdata : s.data ≠ .ended true := by simp [henabled.1]
      exact hs.goOn hdata (by simp) fun hsuccess => (Bool.and_eq_true_iff.mp hsuccess).1
  | enter =>
      have hdata : s.data ≠ .ended true := by simp [henabled.1]
      exact hs.goOn hdata (by simp) id
  | send n =>
      have hopen : ¬ s.closed = true := by simp [henabled.1]
      exact ⟨fun h => absurd h hopen, fun h => absurd (hs.ended h).1 hopen, hs.success,
        hs.permits, hs.returned⟩
  | close =>
      have hopen : ¬ s.closed = true := by simpa [TransferEnabled] using henabled
      exact ⟨fun _ => he, fun h => absurd (hs.ended h).1 hopen, hs.success, hs.permits,
        hs.returned⟩
  | read n =>
      have hdata : s.data ≠ .ended true := by simp [henabled.1]
      exact ⟨hs.closed, fun h => absurd h hdata, hs.success, hs.permits, hs.returned⟩
  | atEnd =>
      obtain ⟨-, -, -, hclosed, hconsumed⟩ := henabled
      exact ⟨hs.closed, fun _ => ⟨hclosed, hconsumed⟩, fun _ _ => rfl, fun _ _ => rfl,
        hs.returned⟩
  | unpacked => exact ⟨hs.closed, fun _ => he, fun _ _ => rfl, fun _ _ => rfl, hs.returned⟩
  | dataError =>
      have hdata : s.data ≠ .ended true := by
        have hreading : s.data = .reading := henabled
        simp [hreading]
      refine hs.goOn hdata (by simp) ?_
      split <;> simp
  | completes final =>
      cases final with
      | line response =>
          simp only [transferEffect]
          split
          · exact ⟨hs.closed, hs.ended, hs.success, hs.permits, hs.returned⟩
          · exact hs.deliver he
      | ioError theNetworkError => exact hs.deliver he

/-- A call that is through, and whose data thread is, keeps its result, and leaves
`success` alone. -/
theorem over_step {e : TransferEvent} (hphase : s.phase.isOver = true) (hdata : DataOver (c, s))
    (henabled : TransferEnabled c s e) :
    (transferEffect c s e).phase = s.phase ∧ (transferEffect c s e).success = s.success ∧
      DataOver (c, transferEffect c s e) := by
  -- A data thread that takes a step is one of the instructions.
  have hfetch : (∀ whole, s.data ≠ .ended whole) → c.routine = .fetchUpdateInstructions := by
    intro hruns
    by_contra hroutine
    obtain ⟨whole, hended⟩ := hdata hroutine
    exact hruns whole hended
  cases e with
  | opened result reconnects =>
      have hopening : s.phase = .opening := henabled
      simp [hopening, Phase.isOver] at hphase
  | replied =>
      have hcommanding : s.phase = .commanding := henabled
      simp [hcommanding, Phase.isOver] at hphase
  | acquire => simp [henabled.1, Phase.isOver] at hphase
  | interrupt =>
      have hwaiting : s.phase = .waiting := henabled
      simp [hwaiting, Phase.isOver] at hphase
  | connect =>
      have hroutine := hfetch (by simp [henabled.1])
      exact ⟨rfl, rfl, fun h => absurd hroutine h⟩
  | connectFails =>
      have hroutine := hfetch (by simp [henabled.1])
      exact ⟨rfl, by simp [transferEffect, hroutine], fun _ => ⟨false, rfl⟩⟩
  | enter =>
      have hroutine := hfetch (by simp [henabled.1])
      exact ⟨rfl, rfl, fun h => absurd hroutine h⟩
  | send n => exact ⟨rfl, rfl, hdata⟩
  | close => exact ⟨rfl, rfl, hdata⟩
  | read n => exact ⟨rfl, rfl, hdata⟩
  | atEnd =>
      have hroutine := hfetch (by simp [henabled.1])
      exact ⟨rfl, by simp [transferEffect, hroutine], fun _ => ⟨true, rfl⟩⟩
  | unpacked =>
      have hroutine := hfetch (by simp [henabled.1])
      simp [henabled.2] at hroutine
  | dataError =>
      have hreading : s.data = .reading := henabled
      have hroutine := hfetch (by simp [hreading])
      exact ⟨rfl, by simp [transferEffect, hroutine], fun _ => ⟨false, rfl⟩⟩
  | completes final =>
      cases final with
      | line response =>
          simp only [transferEffect]
          split
          · exact ⟨rfl, rfl, hdata⟩
          · exact ⟨rfl, rfl, hdata⟩
      | ioError theNetworkError => exact ⟨rfl, rfl, hdata⟩

end Steps

/-! ## The calls of a panel -/

/-- The call has returned success only with everything. -/
def Right (call : Call × TransferState) : Prop :=
  ∀ held, call.2.phase = .returned true held → held = call.1.content.length

/-- The flags of the last call stand for what they should, and the earlier ones are over. -/
def AllRight (p : Panel) : Prop :=
  match p.calls with
  | [] => True
  | (c, s) :: earlier =>
    Faithful c { s with success := p.success } ∧
      ∀ call ∈ earlier, call.2.phase.isOver = true ∧ DataOver call ∧ Right call

theorem AllRight.right {p : Panel} (h : AllRight p) : ∀ call ∈ p.calls, Right call := by
  obtain ⟨success, _ | ⟨⟨c, s⟩, earlier⟩⟩ := p
  · exact fun call hcall => absurd hcall List.not_mem_nil
  · intro call hcall
    rcases List.mem_cons.mp hcall with rfl | hcall
    · exact h.1.returned
    · exact (h.2 call hcall).2.2

/-- A call that begins finds all the earlier ones over. -/
theorem allRight_begin {p : Panel} (c : Call) (h : AllRight p) (he : Meets p (.begin c))
    (henabled : PanelEnabled p (.begin c)) : AllRight (panelEffect p (.begin c)) := by
  refine ⟨⟨nofun, nofun, fun hroutine hsuccess => ?_, nofun, nofun⟩, fun call hcall =>
    ⟨henabled call hcall, he call hcall, h.right call hcall⟩⟩
  cases hc : c.routine with
  | fetchUpdateInstructions => exact absurd hc hroutine
  | downloadFile => simp [panelEffect, hc] at hsuccess
  | downloadArchive => simp [panelEffect, hc] at hsuccess

/-- A step of the last call keeps its flags right, and one of an earlier call changes
neither its result nor `success`. -/
theorem allRight_step {p : Panel} {n : Nat} {e : TransferEvent} (h : AllRight p)
    (he : Meets p (.step n e)) (henabled : PanelEnabled p (.step n e)) :
    AllRight (panelEffect p (.step n e)) := by
  obtain ⟨success, _ | ⟨⟨c, s⟩, earlier⟩⟩ := p
  · exact h
  rcases n with _ | n
  · obtain ⟨hfaithful, hearlier⟩ := h
    obtain ⟨call, hcall, henabled⟩ := henabled
    obtain rfl := Option.some.inj hcall
    exact ⟨faithful_step hfaithful (he _ rfl) henabled, hearlier⟩
  · obtain ⟨hfaithful, hearlier⟩ := h
    obtain ⟨call, hcall, henabled⟩ := henabled
    obtain ⟨call, hmem, rfl⟩ := Option.map_eq_some_iff.mp hcall
    have hsome : Panel.call? ⟨success, (c, s) :: earlier⟩ (n + 1) =
        some (call.1, { call.2 with success := success }) := hcall
    obtain ⟨hphase, hdata, hright⟩ := hearlier call (List.mem_of_getElem? hmem)
    obtain ⟨hresult, hsuccess, hover⟩ :=
      over_step (s := { call.2 with success := success }) hphase hdata henabled
    simp only [panelEffect, hsome]
    refine ⟨?_, fun other hother => ?_⟩
    · rw [hsuccess]
      exact hfaithful
    · rcases List.mem_or_eq_of_mem_set hother with hother | rfl
      · exact hearlier other hother
      · refine ⟨?_, hover, fun held hheld => hright held ?_⟩
        · rw [hresult]
          exact hphase
        · rw [← hresult]
          exact hheld

/-! ## Schedules -/

/-- The calls that return success have consumed all the server had to send, in every
schedule in which no call begins while an earlier data thread runs and every transfer
ends whole. -/
theorem whole_of_success {es : List PanelEvent} {p : Panel}
    (hmeets : RunMeets panelStep Meets .start es) (hrun : run panelStep .start es = some p) :
    ∀ call ∈ p.calls, ∀ held, call.2.phase = .returned true held →
      held = call.1.content.length := by
  have hstart : AllRight .start := trivial
  refine (guarded_invariant (P := AllRight) (fun p e hp he henabled => ?_) hstart hmeets
    hrun).right
  cases e with
  | begin c => exact allRight_begin c hp he henabled
  | step n e => exact allRight_step hp he henabled

/-- The reply that begins a transfer of five bytes. -/
def fiveBytes : ControlReply :=
  .line "150 Opening BINARY mode data connection for a (5 bytes).".toList

/-- A download of five bytes. -/
def fiveByteFile : Call :=
  ⟨.downloadFile, false, "hello".toList, fiveBytes⟩

/-- The steps in which a call is made and a file of five bytes arrives in two parts, and
then its final reply. -/
def fileArrives : List PanelEvent :=
  .begin fiveByteFile :: [.opened 0 false, .replied, .connect, .send 2, .read 2, .send 3, .close,
    .read 3, .atEnd, .completes (.line "226 File send OK.".toList), .acquire].map (.step 0)

/-- Two files are downloaded one after the other. -/
theorem whole_file :
    ∃ p, run panelStep .start (fileArrives ++ fileArrives) = some p ∧ p.calls.length = 2 ∧
      (∀ call ∈ p.calls, call.2.phase = .returned true 5) ∧
      ∀ call ∈ p.calls, ∀ held, call.2.phase = .returned true held →
        held = call.1.content.length := by
  have hmeets : RunMeets panelStep Meets .start (fileArrives ++ fileArrives) := by decide
  exact ⟨_, rfl, rfl, by decide, whole_of_success hmeets rfl⟩

/-- The server breaks off behind two bytes of five and says so: the file and
the archive count as downloaded.  The final reply of the instructions overtakes
the data: an empty list is returned.  The final reply of a passive download overtakes its
data thread, and this ends in a later download that it makes a success. -/
theorem whole_fails :
    (∃ p, run panelStep .start (.begin fiveByteFile ::
        [.opened 0 false, .replied, .connect, .send 2, .read 2, .close, .atEnd,
          .completes (.line "426 Failure writing network stream.".toList), .acquire].map
          (.step 0)) = some p ∧
      p.calls.map (fun call => call.2.phase) = [.returned true 2]) ∧
    (∃ p, run panelStep .start (.begin ⟨.downloadArchive, false, "hello".toList, fiveBytes⟩ ::
        [.opened 0 false, .replied, .connect, .enter, .send 2, .read 2, .close, .unpacked,
          .completes (.line "426 Failure writing network stream.".toList), .acquire].map
          (.step 0)) = some p ∧
      p.calls.map (fun call => call.2.phase) = [.returned true 2]) ∧
    (∃ p, run panelStep .start (.begin ⟨.fetchUpdateInstructions, false, "hello".toList,
          .line "150 Here comes the update instructions.".toList⟩ ::
        [.opened 0 false, .replied, .connect, .send 5, .close,
          .completes (.line "226 Instructions send OK.".toList), .acquire].map
          (.step 0)) = some p ∧
      p.calls.map (fun call => call.2.phase) = [.returned true 0]) ∧
    ∃ p, run panelStep .start
        ([.begin ⟨.downloadFile, true, "hello".toList, fiveBytes⟩, .step 0 (.opened 0 false),
          .step 0 .replied, .step 0 .connect, .step 0 (.send 5), .step 0 .close,
          .step 0 (.completes (.line "226 File send OK.".toList)), .step 0 .acquire,
          .begin ⟨.downloadFile, true, "hello".toList, fiveBytes⟩, .step 0 (.opened 0 false),
          .step 0 .replied, .step 0 .connect, .step 1 (.read 5), .step 1 .atEnd,
          .step 0 (.send 5), .step 0 .close,
          .step 0 (.completes (.line "226 File send OK.".toList)), .step 0 .acquire]) = some p ∧
      p.calls.map (fun call => call.2.phase) = [.returned true 0, .returned false 0] :=
  ⟨⟨_, rfl, rfl⟩, ⟨_, rfl, rfl⟩, ⟨_, rfl, rfl⟩, _, rfl, rfl⟩

end Download
end ModpackInstaller
