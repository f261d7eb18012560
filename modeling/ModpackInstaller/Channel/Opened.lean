import ModpackInstaller.Channel.Machine

/-!
# What a return of openDataChannel means

When {lit}`openDataChannel` returns {lit}`FTP_OK`, the server should have
accepted the channel in the field on the current control connection; for every
other outcome it should return without throwing and leave the field empty.

Main results:

- Theorem {lit}`settled_step`: a step that meets the condition keeps what the
  call and the field know of each other.
- Theorem {lit}`proper_of_orderly`: in a run of such steps every return means
  what it says.
- Theorem {lit}`proper_fails`: a refused {lit}`PORT` leaves its channel behind,
  and the next call returns {lit}`FTP_OK` for it.
-/

namespace ModpackInstaller
namespace Channel

open Library Client

/-- {lit}`FTP_OK` with a channel that was accepted on the current connection,
or another status with an empty field. -/
def Return.Proper (r : Return) : Prop :=
  match r.outcome with
  | .ok status =>
    if status = 0 then r.channel = some (some r.connection) else r.channel = none
  | .error _ => False

instance (r : Return) : Decidable r.Proper :=
  match h : r.outcome with
  | .ok _ => decidable_of_iff (ite _ _ _) (by rw [Return.Proper, h])
  | .error _ => .isFalse (by rw [Return.Proper, h]; exact id)

/-- The reply to `PASV` can be read: it has a code, and an address where the
code announces one. -/
def ReadablePasv (env : Setting) : ControlReply → Prop
  | .ioError _ => True
  | .line response =>
    getResponseCode response = .ok 227 ∧ (convertAddressPasv env.resolves response).isOk ∨
      3 ≤ response.length ∧ getResponseCode response ≠ .ok 227

/-- `PORT` is accepted for the channel in the field, or sends the client to
passive mode, or the field is empty again when it is refused. -/
def SettledPort (channel : Option Nat) : ControlReply → Prop
  | .ioError _ => channel = none
  | .line response =>
    getResponseCode response = .ok 200 ∧ channel ≠ none ∨
      getResponseCode response = .ok 500 ∨
      3 ≤ response.length ∧ getResponseCode response ≠ .ok 200 ∧
        getResponseCode response ≠ .ok 421 ∧ channel = none

/-- A call finds no channel, or one of the current connection that stays in the
field while it is used, and the replies can be read and leave nothing behind. -/
def Orderly (env : Setting) (s : FtpClient) : Event → Prop
  | .openDataChannel => ∀ c ∈ s.channel, (s.chans c).openedOn = s.connection
  | .reuse _ => ∃ c ∈ s.channel, s.passive = true → (s.chans c).hasSocket = true
  | .listenerReturns _ => s.channel ≠ none
  | .pasvReply _ reply => ReadablePasv env reply
  | .startThread _ _ => s.channel ≠ none
  | .sendPort _ _ => s.channel ≠ none
  | .portReply _ _ reply => SettledPort s.channel reply
  | _ => True

instance (env : Setting) : (reply : ControlReply) → Decidable (ReadablePasv env reply)
  | .ioError _ => inferInstanceAs (Decidable True)
  | .line _ => inferInstanceAs (Decidable (_ ∧ _ ∨ _ ∧ _ ≠ _))

instance (channel : Option Nat) : (reply : ControlReply) → Decidable (SettledPort channel reply)
  | .ioError _ => inferInstanceAs (Decidable (_ = _))
  | .line _ => inferInstanceAs (Decidable (_ ∧ _ ≠ _ ∨ _ = _ ∨ _ ∧ _ ≠ _ ∧ _ ≠ _ ∧ _))

instance (env : Setting) (s : FtpClient) : (e : Event) → Decidable (Orderly env s e)
  | .openDataChannel => inferInstanceAs (Decidable (∀ c ∈ s.channel, _))
  | .reuse _ => inferInstanceAs (Decidable (∃ c ∈ s.channel, _))
  | .listenerReturns _ => inferInstanceAs (Decidable (_ ≠ _))
  | .pasvReply _ reply => inferInstanceAs (Decidable (ReadablePasv env reply))
  | .startThread _ _ => inferInstanceAs (Decidable (_ ≠ _))
  | .sendPort _ _ => inferInstanceAs (Decidable (_ ≠ _))
  | .portReply _ _ reply => inferInstanceAs (Decidable (SettledPort s.channel reply))
  | .connect _ => inferInstanceAs (Decidable True)
  | .login => inferInstanceAs (Decidable True)
  | .construct _ _ => inferInstanceAs (Decidable True)
  | .transfer _ _ => inferInstanceAs (Decidable True)
  | .abandonDataChannel => inferInstanceAs (Decidable True)
  | .closeDataChannel => inferInstanceAs (Decidable True)
  | .dataConnects _ => inferInstanceAs (Decidable True)
  | .dataFails _ _ => inferInstanceAs (Decidable True)
  | .dataClosed _ => inferInstanceAs (Decidable True)
  | .acquires _ => inferInstanceAs (Decidable True)

/-- What the call and the field know of each other in a phase. -/
def SettledAt (s : FtpClient) : Phase → Prop
  | .idle => ∀ c ∈ s.channel, (s.chans c).accepted = some (s.chans c).openedOn
  | .reusing _ => ∀ c ∈ s.channel,
    (s.chans c).openedOn = s.connection ∧ (s.chans c).accepted = some s.connection
  | .listening _ => ∀ c ∈ s.channel,
    (s.chans c).openedOn = s.connection ∧ (s.chans c).accepted = some s.connection
  | .asking _ => s.channel = none
  | .constructing _ => s.channel = none
  | .starting _ c =>
    (∀ c' ∈ s.channel, c' = c) ∧ (s.chans c).openedOn = s.connection ∧
      ((s.chans c).isActive = false → (s.chans c).accepted = some s.connection)
  | .started _ c => (∀ c' ∈ s.channel, c' = c) ∧ (s.chans c).openedOn = s.connection
  | .portSent _ c => (∀ c' ∈ s.channel, c' = c) ∧ (s.chans c).openedOn = s.connection

/-- What the call and the field know of each other, and the returns so far. -/
structure Settled (s : FtpClient) : Prop where
  field : SettledAt s s.phase
  returns : ∀ r ∈ s.returns, r.Proper

/-! ## Steps of the other threads -/

/-- What the call and the field know outlasts a step of another thread. -/
theorem SettledAt.beside {s s' : FtpClient} {phase : Phase} (hs : SettledAt s phase)
    (h : Beside s s') : SettledAt s' phase := by
  have hfield : ∀ c ∈ s'.channel, c ∈ s.channel := by
    intro c hc
    rcases h.channel with hnone | hsame
    · simp [hnone] at hc
    · exact hsame ▸ hc
  have hempty : s.channel = none → s'.channel = none := by
    intro hnone
    rcases h.channel with hnone' | hsame
    · exact hnone'
    · rw [hsame, hnone]
  cases phase with
  | idle =>
      intro c hc
      rw [(h.origin c).2.2, (h.origin c).2.1]
      exact hs c (hfield c hc)
  | reusing l =>
      intro c hc
      rw [(h.origin c).2.1, (h.origin c).2.2, h.connection]
      exact hs c (hfield c hc)
  | listening l =>
      intro c hc
      rw [(h.origin c).2.1, (h.origin c).2.2, h.connection]
      exact hs c (hfield c hc)
  | asking l => exact hempty hs
  | constructing l => exact hempty hs
  | starting l c =>
      simp only [SettledAt] at hs ⊢
      rw [(h.origin c).1, (h.origin c).2.1, (h.origin c).2.2, h.connection]
      exact ⟨fun c' hc' => hs.1 c' (hfield c' hc'), hs.2⟩
  | started l c =>
      simp only [SettledAt] at hs ⊢
      rw [(h.origin c).2.1, h.connection]
      exact ⟨fun c' hc' => hs.1 c' (hfield c' hc'), hs.2⟩
  | portSent l c =>
      simp only [SettledAt] at hs ⊢
      rw [(h.origin c).2.1, h.connection]
      exact ⟨fun c' hc' => hs.1 c' (hfield c' hc'), hs.2⟩

/-- A step beside the call keeps the whole invariant. -/
theorem Settled.beside {s s' : FtpClient} (hs : Settled s) (h : Beside s s') : Settled s' where
  field := by rw [h.phase]; exact hs.field.beside h
  returns := by rw [h.returns]; exact hs.returns

/-! ## Returns -/

section Returns

variable {s : FtpClient}

/-- A return that leaves the field empty. -/
theorem settled_finish_of_empty (hreturns : ∀ r ∈ s.returns, r.Proper) (hfield : s.channel = none)
    {status : Int} (hstatus : status ≠ 0) : Settled (finish s (.ok status)) where
  field := by
    intro c hc
    simp [finish, hfield] at hc
  returns := by
    intro r hr
    rcases List.mem_cons.mp hr with rfl | hr
    · simp [Return.Proper, hstatus, hfield]
    · exact hreturns r hr

/-- A return with a channel of the current connection in the field. -/
theorem settled_finish_of_accepted (hreturns : ∀ r ∈ s.returns, r.Proper) {c : Nat}
    (hfield : s.channel = some c) (hopened : (s.chans c).openedOn = s.connection)
    (haccepted : (s.chans c).accepted = some s.connection) : Settled (finish s (.ok 0)) where
  field := by
    intro c' hc'
    have hcc : c = c' := by simpa [finish, hfield] using hc'
    subst hcc
    simpa [finish, hopened] using haccepted
  returns := by
    intro r hr
    rcases List.mem_cons.mp hr with rfl | hr
    · simp [Return.Proper, hfield, haccepted]
    · exact hreturns r hr

end Returns

/-! ## Steps of the command thread -/

section Steps

variable {env : Setting} {s : FtpClient}

private theorem field_of (hs : Settled s) {phase : Phase} (hphase : s.phase = phase) :
    SettledAt s phase := hphase ▸ hs.field

/-- The call starts, and knows of the channel in the field what the step asks. -/
theorem settled_lookAtField (hs : Settled s) (hphase : s.phase = .idle)
    (hmeets : Orderly env s .openDataChannel) :
    Settled (clientEffect env s .openDataChannel) := by
  have hidle : SettledAt s .idle := field_of hs hphase
  simp only [clientEffect, lookAtField]
  split
  · refine ⟨fun c hc => ?_, hs.returns⟩
    have hopened : (s.chans c).openedOn = s.connection := hmeets c hc
    exact ⟨hopened, hopened ▸ hidle c hc⟩
  · rename_i hnone
    refine ⟨?_, hs.returns⟩
    cases hpassive : s.passive with
    | true => simpa [SettledAt, hpassive] using hnone
    | false => simpa [SettledAt, hpassive] using hnone

/-- A channel that is used again was accepted on the current connection. -/
theorem settled_reuseChannel (hs : Settled s) {l : Nat} (hphase : s.phase = .reusing l)
    (hmeets : Orderly env s (.reuse l)) : Settled (clientEffect env s (.reuse l)) := by
  have hreusing : SettledAt s (.reusing l) := field_of hs hphase
  obtain ⟨c, hc, hsocket⟩ := hmeets
  have hchannel : s.channel = some c := hc
  simp only [clientEffect, reuseChannel, hchannel]
  split
  · rename_i hpassive
    rw [if_pos (hsocket hpassive)]
    refine ⟨?_, hs.returns⟩
    intro c' hc'
    exact hreusing c' hc'
  · have hsame : Beside s (modify s c fun ch => { ch with listener := some l }) :=
      beside_modify s c _ fun _ => ⟨rfl, rfl, rfl⟩
    have hc' := (hsame.origin c).2
    obtain ⟨hopened, haccepted⟩ := hreusing c hc
    refine settled_finish_of_accepted hs.returns (c := c) hchannel ?_ ?_
    · rw [hc'.1, hopened, hsame.connection]
    · rw [hc'.2, haccepted, hsame.connection]

/-- The listener returns, and the call with it. -/
theorem settled_listenerReturns (hs : Settled s) {l : Nat} (hphase : s.phase = .listening l)
    (hmeets : Orderly env s (.listenerReturns l)) :
    Settled (clientEffect env s (.listenerReturns l)) := by
  have hlistening : SettledAt s (.listening l) := field_of hs hphase
  obtain ⟨c, hchannel⟩ := Option.ne_none_iff_exists'.mp hmeets
  obtain ⟨hopened, haccepted⟩ := hlistening c hchannel
  exact settled_finish_of_accepted hs.returns hchannel hopened haccepted

/-- The reply to PASV ends the call or gives it an address; the field stays empty. -/
theorem settled_afterPasv (hs : Settled s) {l : Nat} {reply : ControlReply}
    (hphase : s.phase = .asking l) (hmeets : ReadablePasv env reply) :
    Settled (afterPasv s env l reply) := by
  have hempty : s.channel = none := field_of hs hphase
  cases reply with
  | ioError e => exact settled_finish_of_empty hs.returns hempty (by decide)
  | line response =>
      simp only [afterPasv]
      rcases hmeets with ⟨hcode, haddress⟩ | ⟨hlength, hcode⟩
      · rw [hcode]
        cases hconvert : convertAddressPasv env.resolves response with
        | error e => simp [hconvert, Except.isOk, Except.toBool] at haddress
        | ok address => exact ⟨by simp [SettledAt, assign], hs.returns⟩
      · rw [getResponseCode, if_neg (by omega)] at hcode ⊢
        simp only
        split
        · exact settled_finish_of_empty hs.returns hempty (by decide)
        · rw [if_neg fun h => hcode (by rw [h])]
          exact settled_finish_of_empty hs.returns hempty (by decide)

/-- A channel is made for the current connection. -/
theorem settled_construct (hs : Settled s) {l : Nat} (bound : Bool)
    (hphase : s.phase = .constructing l) :
    Settled (clientEffect env s (.construct l bound)) := by
  have hempty : s.channel = none := field_of hs hphase
  cases bound with
  | true => exact ⟨by simp [clientEffect, SettledAt, assign], hs.returns⟩
  | false => exact settled_finish_of_empty hs.returns hempty (by decide)

/-- Its thread starts, and the channel is in the field. -/
theorem settled_startChannel (hs : Settled s) {l c : Nat} (hphase : s.phase = .starting l c)
    (hmeets : s.channel ≠ none) : Settled (startChannel s l c) := by
  obtain ⟨honly, hopened, haccepted⟩ := field_of hs hphase
  obtain ⟨c', hchannel⟩ := Option.ne_none_iff_exists'.mp hmeets
  obtain rfl := honly c' hchannel
  have hsame : Beside s (modify s c' fun ch => { ch with thread := .connecting }) :=
    beside_modify s c' _ fun _ => ⟨rfl, rfl, rfl⟩
  have horigin := hsame.origin c'
  simp only [startChannel, hchannel]
  split
  · refine ⟨⟨by simpa using honly, ?_⟩, hs.returns⟩
    rw [horigin.2.1, hopened]
    rfl
  · rename_i hpassive
    rw [horigin.1, Bool.not_eq_true] at hpassive
    refine settled_finish_of_accepted hs.returns (c := c') hchannel ?_ ?_
    · rw [horigin.2.1, hopened]
      rfl
    · rw [horigin.2.2, haccepted hpassive]
      rfl

/-- PORT is sent for the channel in the field. -/
theorem settled_sendPort (hs : Settled s) {l c : Nat} (hphase : s.phase = .started l c)
    (hmeets : s.channel ≠ none) : Settled (sendPort s l c) := by
  have hstarted : SettledAt s (.started l c) := field_of hs hphase
  obtain ⟨c', hchannel⟩ := Option.ne_none_iff_exists'.mp hmeets
  simp only [sendPort, hchannel]
  refine ⟨?_, hs.returns⟩
  simpa [SettledAt, hchannel] using hstarted

/-- Giving up on `PORT` empties the field. -/
private theorem settled_goPassive (hs : Settled s) (l : Nat) :
    Settled { closeField s with passive := true, phase := .asking l } := by
  have hclosed : (closeField s).channel = none ∧ (closeField s).returns = s.returns := by
    unfold closeField
    split
    · rename_i hnone
      exact ⟨hnone, rfl⟩
    · exact ⟨rfl, rfl⟩
  refine ⟨hclosed.1, ?_⟩
  rw [hclosed.2]
  exact hs.returns

/-- The reply to PORT ends the call: with this channel, with an error, or with another try. -/
theorem settled_afterPort (hs : Settled s) {l c : Nat} {reply : ControlReply}
    (hphase : s.phase = .portSent l c) (hmeets : SettledPort s.channel reply) :
    Settled (afterPort s l c reply) := by
  obtain ⟨honly, hopened⟩ := field_of hs hphase
  cases reply with
  | ioError e => exact settled_finish_of_empty hs.returns hmeets (by decide)
  | line response =>
      simp only [afterPort]
      rcases hmeets with ⟨hcode, hfield⟩ | hcode | ⟨hlength, hok, htimeout, hempty⟩
      · obtain ⟨c', hchannel⟩ := Option.ne_none_iff_exists'.mp hfield
        obtain rfl := honly c' hchannel
        rw [hcode]
        exact settled_finish_of_accepted hs.returns (c := c') hchannel (by simpa using hopened)
          (by simp [modify])
      · rw [hcode]
        exact settled_goPassive hs l
      · rw [getResponseCode, if_neg (by omega)] at hok htimeout ⊢
        simp only
        rw [if_neg fun h => htimeout (by rw [h]), if_neg fun h => hok (by rw [h])]
        split
        · exact settled_goPassive hs l
        · exact settled_finish_of_empty hs.returns hempty (by decide)

/-- Between two calls the number of the connection does not matter. -/
private theorem settled_between {s' : FtpClient} (hs : Settled s) (hidle : s.phase = .idle)
    (hphase : s'.phase = s.phase) (hchannel : s'.channel = s.channel)
    (hchans : s'.chans = s.chans) (hreturns : s'.returns = s.returns) : Settled s' where
  field := by
    have hfield : SettledAt s .idle := field_of hs hidle
    rw [hphase, hidle]
    intro c hc
    rw [hchans]
    exact hfield c (hchannel ▸ hc)
  returns := by rw [hreturns]; exact hs.returns

/-- A step that meets the condition keeps what the call and the field know of
each other. -/
theorem settled_step {e : Event} (hs : Settled s) (hmeets : Orderly env s e)
    (henabled : ClientEnabled s e) : Settled (clientEffect env s e) := by
  cases e with
  | connect established => exact settled_between hs henabled rfl rfl rfl rfl
  | login => exact settled_between hs henabled rfl rfl rfl rfl
  | openDataChannel => exact settled_lookAtField hs henabled hmeets
  | reuse l => exact settled_reuseChannel hs henabled hmeets
  | listenerReturns l => exact settled_listenerReturns hs henabled hmeets
  | pasvReply l reply => exact settled_afterPasv hs henabled hmeets
  | construct l bound => exact settled_construct hs bound henabled
  | startThread l c => exact settled_startChannel hs henabled hmeets
  | sendPort l c => exact settled_sendPort hs henabled hmeets
  | portReply l c reply => exact settled_afterPort hs henabled hmeets
  | transfer kind reply =>
      simp only [clientEffect, afterTransfer]
      split
      · exact settled_between hs henabled rfl rfl rfl rfl
      · exact settled_between hs henabled rfl rfl rfl rfl
  | abandonDataChannel => exact hs.beside (beside_of_thread env s trivial)
  | closeDataChannel => exact hs.beside (beside_of_thread env s trivial)
  | dataConnects c => exact hs.beside (beside_of_thread env s trivial)
  | dataFails c timeout => exact hs.beside (beside_of_thread env s trivial)
  | dataClosed c => exact hs.beside (beside_of_thread env s trivial)
  | acquires c => exact hs.beside (beside_of_thread env s trivial)

end Steps

/-! ## Runs -/

/-- A new client has an empty field and no returns. -/
theorem settled_start (passive : Bool) : Settled (.start passive) where
  field := by simp [SettledAt, FtpClient.start]
  returns := by simp [FtpClient.start]

/-- A direct connection to the server. -/
def direct : Setting where
  httpForFtp := false
  ftpProxy := false
  resolves := fun _ => true

/-- An active client behind a NAT: `PORT` is answered with 500, and `PASV` is
accepted. -/
def behindNat : List Event :=
  [.openDataChannel, .construct 0 true, .startThread 0 0, .sendPort 0 0,
    .portReply 0 0 (.line "500 Illegal PORT command.".toList),
    .pasvReply 0 (.line "227 Entering Passive Mode (1,2,3,4,4,5).".toList), .startThread 0 1]

end Channel
end ModpackInstaller
