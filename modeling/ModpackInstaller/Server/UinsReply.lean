import ModpackInstaller.Server.UsedOnce

/-!
# The answer to SITE UINS

The end of {lit}`handle_site_uins`, with {lit}`trans_ret` as a variable that may
not have been assigned.  The write of the instructions is an input, and so is what
an unassigned variable holds.  Closing is successful when
{lit}`vsf_ftpdataio_dispose_transfer_fd` says so.

Main results:

- Theorem {lit}`uinsEnd_eq_uinsOver`: this is the end that the command loop has.
- Theorem {lit}`uinsEnd_of_established`: what it answers on a connection that is
  there.
- Theorem {lit}`answersOnce_iff`: the command is answered once and rightly exactly
  when the connection is there, the text is not empty or the closing fails, and the
  process that encrypts takes the text.
-/

namespace ModpackInstaller
namespace Server
namespace Transfer

/-! ## The end of the handler -/

/-- `ftp_write_str` on the data connection: 0 when all the bytes were written, and
nothing where the process ends. -/
def ftpWriteStr (s : Session) (text : Text) (wrote : Bool) : Option Int :=
  if slaveDies s text then none else some (if wrote then 0 else -1)

/-- `trans_ret` behind the write; an empty text is not written. -/
def transRet (s : Session) (text : Text) (wrote : Bool) : Option (Option Int) :=
  if text.isEmpty then some none else (ftpWriteStr s text wrote).map some

/-- The session behind the handler, and whether the choice of its reply looked at
`trans_ret` without an assignment. -/
structure UinsEnd where
  session : Session
  unassigned : Bool

/-- `handle_site_uins` from `get_remote_transfer_fd` on. -/
def uinsEnd (tun : Tunables) (c : Connection) (text : Text) (wrote : Bool) (garbage : Int)
    (s : Session) : Option UinsEnd := do
  let (_, s) ← getRemoteTransferFd tun c "Here comes the update instructions.".toList s
  let transRet ← transRet s text wrote
  let s ← disposeTransferFd tun c (sigurgs tun s c.urgentTransfer)
  -- `trans_ret` is looked at behind a successful disposal only.
  let unassigned := c.closes && transRet.isNone
  if !c.closes || transRet.getD garbage < 0 then
    return ⟨s.put 426 "Failure writing network stream.".toList, unassigned⟩
  else return ⟨s.put 226 "Instructions send OK.".toList, unassigned⟩

/-- The encrypting process never gets an empty text. -/
theorem slaveDies_nil (s : Session) : slaveDies s [] = false := by
  simp [slaveDies]

/-- What a write that comes back leaves in `trans_ret`. -/
def written (text : Text) (wrote : Bool) : Option Int :=
  if text.isEmpty then none else some (if wrote then 0 else -1)

/-- There is nothing to send exactly for an empty text. -/
theorem isNone_written (text : Text) (wrote : Bool) :
    (written text wrote).isNone = text.isEmpty := by
  unfold written
  cases text.isEmpty <;> rfl

/-- Without a text that is too long the write comes back. -/
theorem transRet_of_not_dies {s : Session} {text : Text} (h : slaveDies s text = false)
    (wrote : Bool) : transRet s text wrote = some (written text wrote) := by
  simp only [transRet, ftpWriteStr, h, written]
  split <;> rfl

/-- A text that is too long ends the process. -/
theorem transRet_of_dies {s : Session} {text : Text} (h : slaveDies s text = true)
    (wrote : Bool) : transRet s text wrote = none := by
  have htext : text.isEmpty = false := by
    cases text with
    | nil => rw [slaveDies_nil] at h; cases h
    | cons => rfl
  simp [transRet, ftpWriteStr, h, htext]

/-- How the data connection of a session is encrypted. -/
def Session.ssl (s : Session) : Bool × Bool :=
  (s.dataUseSsl, s.sslSlaveActive)

/-- A reply leaves the TLS session as it is. -/
@[simp] theorem ssl_put (s : Session) (status : Nat) (text : Text) :
    (s.put status text).ssl = s.ssl := rfl

@[simp] theorem ssl_sigurgs (tun : Tunables) (s : Session) (urgent : List Text) :
    (sigurgs tun s urgent).ssl = s.ssl := by
  simp [Session.ssl]

/-- So does closing the data connection. -/
theorem ssl_disposeTransferFd {tun : Tunables} {c : Connection} {s s' : Session}
    (h : disposeTransferFd tun c s = some s') : s'.ssl = s.ssl := by
  unfold disposeTransferFd at h
  split at h
  · cases h
  · obtain rfl := Option.some.inj h
    exact ssl_sigurgs tun s c.urgentClose

/-- A new descriptor, or none, leaves the encryption as it is. -/
theorem ssl_getFd {pasv : Bool} {c : Connection} {s s' : Session} {fd : Option Nat}
    (h : getFd pasv c s = some (fd, s')) : s'.ssl = s.ssl := by
  rcases getFd_cases h with ⟨-, -, text, rfl⟩ | ⟨n, -, -, -, rfl⟩
  · exact ssl_put s 425 text
  · rfl

/-- So does opening it. -/
theorem ssl_markConnect {tun : Tunables} {c : Connection} {mark : Text} {n : Nat}
    {s s' : Session} {fd : Option Nat} (h : markConnect tun c mark n s = some (fd, s')) :
    s'.ssl = s.ssl := by
  rw [markConnect, postMarkConnect_eq] at h
  by_cases hfails : (sigurgs tun (s.put 150 mark) c.urgentMark).dataUseSsl = true ∧
      c.handshake = false
  · rw [if_pos hfails] at h
    obtain ⟨s₂, hdispose, hs₂⟩ := Option.map_eq_some_iff.mp h
    obtain ⟨-, rfl⟩ := Prod.mk.inj hs₂
    rw [ssl_disposeTransferFd hdispose, ssl_put, ssl_sigurgs, ssl_put]
  · rw [if_neg hfails, Option.some.injEq, Prod.mk.injEq] at h
    obtain ⟨-, rfl⟩ := h
    rw [ssl_sigurgs, ssl_put]

/-- A data connection is encrypted as the session says before it comes up. -/
theorem ssl_getRemoteTransferFd {tun : Tunables} {c : Connection} {mark : Text}
    {s s' : Session} {fd : Option Nat} (h : getRemoteTransferFd tun c mark s = some (fd, s')) :
    s'.ssl = s.ssl := by
  simp only [getRemoteTransferFd, bind, Option.bind_eq_some_iff] at h
  obtain ⟨pasv, -, port, -, h⟩ := h
  split at h
  · cases h
  obtain ⟨⟨fd₁, s₁⟩, hremote, h⟩ := Option.bind_eq_some_iff.mp h
  have hopened := ssl_getFd hremote
  cases fd₁ with
  | none =>
      obtain ⟨-, rfl⟩ := Prod.mk.inj (Option.some.inj h)
      exact hopened
  | some n =>
      exact (ssl_markConnect h).trans hopened

/-- Whether the encrypting process takes a text is settled with the session. -/
theorem getRemoteTransferFd_slaveDies {tun : Tunables} {c : Connection} {mark : Text}
    {s s' : Session} {fd : Option Nat} (h : getRemoteTransferFd tun c mark s = some (fd, s'))
    (text : Text) : slaveDies s' text = slaveDies s text := by
  have hkeeps := Prod.mk.inj (ssl_getRemoteTransferFd h)
  simp only [slaveDies, hkeeps.1, hkeeps.2]

/-- The handler ends as in the command loop. -/
theorem uinsEnd_eq_uinsOver (tun : Tunables) (c : Connection) (text : Text) (wrote : Bool)
    (garbage : Int) (s : Session) :
    (uinsEnd tun c text wrote garbage s).map UinsEnd.session =
      if slaveDies s text then none
      else uinsOver tun c ((written text wrote).getD garbage) s := by
  unfold uinsEnd uinsOver
  cases hremote : getRemoteTransferFd tun c "Here comes the update instructions.".toList s with
  | none => exact (ite_self none).symm
  | some r =>
      simp only [bind, Option.bind_some]
      rw [← getRemoteTransferFd_slaveDies hremote text]
      cases hdies : slaveDies r.2 text with
      | true =>
          rw [transRet_of_dies hdies]
          rfl
      | false =>
          rw [transRet_of_not_dies hdies, Option.bind_some]
          cases disposeTransferFd tun c (sigurgs tun r.2 c.urgentTransfer) with
          | none => rfl
          | some s' =>
              simp only [Option.bind_some, Bool.false_eq_true, if_false]
              split <;> rfl

/-! ## Replies -/

/-- The reply to a command word that comes as urgent data. -/
def unknownCommand : Text :=
  vsfCmdioWrite 500 "Unknown command.".toList

/-- The replies that the command itself gets. -/
def Session.answers (s : Session) : List Text :=
  s.trace.replies.filter fun reply => decide (reply ≠ unknownCommand)

/-- Urgent lines are answered by the signal's handler; the command's own answers stay. -/
@[simp] theorem answers_sigurgs (tun : Tunables) (s : Session) (urgent : List Text) :
    (sigurgs tun s urgent).answers = s.answers := by
  refine sigurgs_keeps (f := Session.answers) (fun s cmd => ?_) tun s urgent
  unfold handleSigurg
  split_ifs
  · rfl
  · rfl
  · simp [Session.answers, Session.put, unknownCommand]

/-- A reply other than that to an unknown command counts as an answer. -/
theorem answers_put (s : Session) (status : Nat) (text : Text)
    (h : vsfCmdioWrite status text ≠ unknownCommand) :
    (s.put status text).answers = s.answers ++ [vsfCmdioWrite status text] := by
  simp [Session.answers, Session.put, h]

/-- The reply with which the transfer begins. -/
def uinsMark : Text :=
  vsfCmdioWrite 150 "Here comes the update instructions.".toList

/-- The data connection comes up, with its handshake. -/
def Established (c : Connection) (s : Session) : Prop :=
  (∃ n, c.remote = .fd n) ∧ (s.dataUseSsl = true → c.handshake = true)

/-- The command gets one final reply, behind the mark or alone, which says that
everything went well when it did, and no variable is used unassigned. -/
def AnswersOnce (tun : Tunables) (c : Connection) (text : Text) (wrote : Bool) (garbage : Int)
    (s : Session) : Prop :=
  ∃ e, uinsEnd tun c text wrote garbage s.fresh = some e ∧ e.unassigned = false ∧
    ∃ final, (e.session.answers = [final] ∨ e.session.answers = [uinsMark, final]) ∧
      final ≠ uinsMark ∧
      (final = vsfCmdioWrite 226 "Instructions send OK.".toList ↔
        Established c s ∧ (text = [] ∨ wrote = true) ∧ c.closes = true)

/-! ## The connection -/

/-- 425 is neither the mark nor the reply to an unknown command. -/
theorem vsfCmdioWrite_425 (text : Text) :
    vsfCmdioWrite 425 text ≠ unknownCommand ∧ vsfCmdioWrite 425 text ≠ uinsMark := by
  have hhead : (vsfCmdioWrite 425 text).head? = some '4' := rfl
  constructor
  · intro h
    rw [h] at hhead
    exact absurd hhead (by decide)
  · intro h
    rw [h] at hhead
    exact absurd hhead (by decide)

/-- The disposal sends nothing but answers to urgent data. -/
theorem disposeTransferFd_answers {tun : Tunables} {c : Connection} {s s' : Session}
    (h : disposeTransferFd tun c s = some s') : s'.answers = s.answers := by
  unfold disposeTransferFd at h
  split at h
  · cases h
  · obtain rfl := Option.some.inj h
    exact answers_sigurgs tun s c.urgentClose

section Connection

variable {tun : Tunables} {c : Connection} {s s' : Session} {fd : Option Nat}

/-- Whoever gets a descriptor had none, and who gets none is told so, with a
connection that fails, or has none behind a handshake that fails. -/
theorem getRemoteTransferFd_ends {mark : Text}
    (h : getRemoteTransferFd tun c mark s = some (fd, s')) :
    (∃ text, s'.answers = s.answers ++ [vsfCmdioWrite 425 text]) ∨
      s.dataFd = none ∧ (s'.dataFd = none ∨ Established c s) := by
  simp only [getRemoteTransferFd, bind, Option.bind_eq_some_iff] at h
  obtain ⟨pasv, -, port, -, h⟩ := h
  split at h
  · cases h
  obtain ⟨⟨fd₁, s₁⟩, hremote, h⟩ := Option.bind_eq_some_iff.mp h
  rcases getFd_cases hremote with ⟨rfl, hnone, text, rfl⟩ | ⟨n, hfd, rfl, hidle, rfl⟩
  · simp only [Option.some.injEq, Prod.mk.injEq] at h
    obtain ⟨rfl, rfl⟩ := h
    exact Or.inl ⟨text, answers_put _ 425 text (vsfCmdioWrite_425 text).1⟩
  · refine Or.inr ⟨hidle, ?_⟩
    by_cases hfails : s.dataUseSsl = true ∧ c.handshake = false
    · left
      change markConnect tun c mark n _ = some (fd, s') at h
      rw [markConnect, postMarkConnect_eq] at h
      simp only [sigurgs_dataUseSsl, put_dataUseSsl] at h
      rw [if_pos hfails] at h
      obtain ⟨s₂, hdispose, hs₂⟩ := Option.map_eq_some_iff.mp h
      obtain ⟨-, rfl⟩ := Prod.mk.inj hs₂
      exact (disposeTransferFd_disposed hdispose).dataFd
    · refine Or.inr ⟨⟨n, hfd⟩, fun hssl => ?_⟩
      by_contra hshake
      exact hfails ⟨hssl, by simpa using hshake⟩

/-- On a connection that is there the command gets its mark and a descriptor. -/
theorem getRemoteTransferFd_established (hchecks : dataTransferChecksOk tun s = some none)
    (hidle : s.dataFd = none) (hestablished : Established c s) :
    ∃ n s', getRemoteTransferFd tun c "Here comes the update instructions.".toList s =
        some (some n, s') ∧ s'.dataFd = some n ∧ s'.answers = s.answers ++ [uinsMark] := by
  obtain ⟨⟨n, hremote⟩, hshake⟩ := hestablished
  simp only [dataTransferChecksOk, bind, Option.bind_eq_some_iff] at hchecks
  obtain ⟨pasv, hpasv, port, hport, hchecks⟩ := hchecks
  have hactive : (!pasv && !port) = false := by
    rw [← Bool.not_eq_true]
    intro hnone
    rw [if_pos hnone] at hchecks
    cases hchecks
  have hopen (s₁ : Session) (hs₁ : s₁.dataFd = none) :
      getFd pasv c s₁ = some (some n, { s₁ with dataFd := some n }) := by
    cases pasv <;> simp [getFd, getPasvFd, getPortFd, hremote, initDataSockParams, hs₁]
  have hmarked (s₁ : Session) (hssl : s₁.dataUseSsl = s.dataUseSsl) :
      postMarkConnect tun c s₁ = (true, s₁) := by
    rw [postMarkConnect_eq, if_neg]
    rintro ⟨huse, hfails⟩
    rw [hshake (hssl ▸ huse)] at hfails
    cases hfails
  set called : Session := { s with trace := { s.trace with called := true } } with hcalled
  have hfirst : pasvActive called = some pasv := hpasv
  have hsecond : portActive called = some port := hport
  set opened : Session := { called with aborReceived := false, dataFd := some n }
  refine ⟨n, sigurgs tun (opened.put 150 "Here comes the update instructions.".toList)
    c.urgentMark, ?_, by simp [opened], ?_⟩
  · simp only [getRemoteTransferFd, bind, ← hcalled, hfirst, hsecond, Option.bind_some, hactive,
      Bool.false_eq_true, if_false]
    refine (congrArg (Option.bind · _) (hopen { called with aborReceived := false } hidle)).trans ?_
    change markConnect tun c _ n opened = _
    rw [markConnect, hmarked]
    simp [opened, hcalled]
  · rw [answers_sigurgs, answers_put _ _ _ (by decide)]
    rfl

end Connection

/-! ## The answer -/

section Answer

variable {tun : Tunables} {c : Connection} {text : Text} {wrote : Bool} {garbage : Int}
  {s : Session}

/-- The reply that the handler chooses, with what `trans_ret` holds. -/
def finalReply (c : Connection) (text : Text) (wrote : Bool) (garbage : Int) : Text :=
  if !c.closes || (written text wrote).getD garbage < 0 then
    vsfCmdioWrite 426 "Failure writing network stream.".toList
  else vsfCmdioWrite 226 "Instructions send OK.".toList

/-- On a connection that is there the command gets its mark and one of its two
final replies, unless the encrypting process does not take the text. -/
theorem uinsEnd_of_established (text : Text) (wrote : Bool) (garbage : Int)
    (hchecks : dataTransferChecksOk tun s = some none) (hidle : s.dataFd = none)
    (hestablished : Established c s) (hdies : slaveDies s text = false) :
    ∃ e, uinsEnd tun c text wrote garbage s.fresh = some e ∧
      e.unassigned = (c.closes && text.isEmpty) ∧
      e.session.answers = [uinsMark, finalReply c text wrote garbage] := by
  obtain ⟨n, s₁, hremote, hfd, hanswers⟩ :=
    getRemoteTransferFd_established (s := s.fresh) hchecks hidle hestablished
  have hlives : slaveDies s₁ text = false :=
    (getRemoteTransferFd_slaveDies hremote text).trans hdies
  have hdispose : disposeTransferFd tun c (sigurgs tun s₁ c.urgentTransfer) =
      some { sigurgs tun (sigurgs tun s₁ c.urgentTransfer) c.urgentClose with dataFd := none } := by
    rw [disposeTransferFd, if_neg (by simp [hfd])]
  have hput (status : Nat) (reply : Text) (hne : vsfCmdioWrite status reply ≠ unknownCommand) :
      (Session.put { sigurgs tun (sigurgs tun s₁ c.urgentTransfer) c.urgentClose with
        dataFd := none } status reply).answers = [uinsMark, vsfCmdioWrite status reply] := by
    rw [answers_put _ _ _ hne, disposeTransferFd_answers hdispose, answers_sigurgs, hanswers]
    rfl
  simp only [uinsEnd, bind, hremote, Option.bind_some, transRet_of_not_dies hlives, hdispose,
    isNone_written]
  unfold finalReply
  split
  · exact ⟨_, rfl, rfl, hput _ _ (by decide)⟩
  · exact ⟨_, rfl, rfl, hput _ _ (by decide)⟩

/-- A command that is answered once had a connection, and its text was taken. -/
theorem established_of_answersOnce (h : AnswersOnce tun c text wrote garbage s) :
    s.dataFd = none ∧ Established c s ∧ slaveDies s text = false := by
  obtain ⟨e, hend, -, final, hanswers, -⟩ := h
  simp only [uinsEnd, bind, Option.bind_eq_some_iff] at hend
  obtain ⟨⟨fd, s₁⟩, hremote, transRet, hwritten, s₂, hdispose, hend⟩ := hend
  have hlives : slaveDies s text = false := by
    rw [← Bool.not_eq_true]
    intro hdies
    have hdies' : slaveDies s₁ text = true :=
      (getRemoteTransferFd_slaveDies hremote text).trans hdies
    rw [transRet_of_dies hdies'] at hwritten
    cases hwritten
  have hdisposed := disposeTransferFd_disposed hdispose
  have hopened : s₁.dataFd ≠ none := by simpa using hdisposed.opened
  rcases getRemoteTransferFd_ends hremote with ⟨text', hfailed⟩ | ⟨hidle, hnone | hestablished⟩
  · -- The failed connection has a reply of its own.
    have hbefore : s₂.answers = [vsfCmdioWrite 425 text'] := by
      rw [disposeTransferFd_answers hdispose, answers_sigurgs, hfailed]
      rfl
    obtain ⟨last, hreplies⟩ : ∃ last, e.session.answers = [vsfCmdioWrite 425 text', last] := by
      split at hend
      · obtain rfl := Option.some.inj hend
        exact ⟨_, by rw [answers_put _ _ _ (by decide), hbefore]; rfl⟩
      · obtain rfl := Option.some.inj hend
        exact ⟨_, by rw [answers_put _ _ _ (by decide), hbefore]; rfl⟩
    rw [hreplies] at hanswers
    rcases hanswers with h | h
    · simp at h
    · exact absurd (List.cons.inj h).1 (vsfCmdioWrite_425 text').2
  · exact absurd hnone hopened
  · exact ⟨hidle, hestablished, hlives⟩

/-- When `trans_ret` is assigned or not needed, the final reply is the good one
exactly when everything was written and the connection was closed. -/
theorem finalReply_iff (garbage : Int) (hassigned : text ≠ [] ∨ c.closes = false) :
    finalReply c text wrote garbage = vsfCmdioWrite 226 "Instructions send OK.".toList ↔
      (text = [] ∨ wrote = true) ∧ c.closes = true := by
  have hfailed : vsfCmdioWrite 426 "Failure writing network stream.".toList ≠
      vsfCmdioWrite 226 "Instructions send OK.".toList := by decide
  rw [finalReply, ite_eq_right_iff, imp_iff_not hfailed]
  rcases hassigned with htext | hcloses
  · have hempty : text.isEmpty = false := by simpa using htext
    cases wrote <;> simp [written, hempty, htext]
  · simp [hcloses]

/-- In every session that passes the checks `SITE UINS` is answered once and
rightly exactly when the connection comes up, the text is not too long for the
encrypting process, and `trans_ret` is assigned or not needed. -/
theorem answersOnce_iff (hchecks : dataTransferChecksOk tun s = some none) :
    AnswersOnce tun c text wrote garbage s ↔
      s.dataFd = none ∧ Established c s ∧ (text ≠ [] ∨ c.closes = false) ∧
        (s.dataUseSsl = true → s.sslSlaveActive = true → text.length ≤ privSockMaxstr) := by
  have htaken : slaveDies s text = false ↔
      (s.dataUseSsl = true → s.sslSlaveActive = true → text.length ≤ privSockMaxstr) := by
    simp [slaveDies]
  rw [← htaken]
  constructor
  · intro h
    obtain ⟨hidle, hestablished, hdies⟩ := established_of_answersOnce h
    obtain ⟨e, hend, hassigned, -⟩ := h
    obtain ⟨e', hend', hunassigned, -⟩ :=
      uinsEnd_of_established text wrote garbage hchecks hidle hestablished hdies
    obtain rfl : e = e' := Option.some.inj (hend.symm.trans hend')
    refine ⟨hidle, hestablished, ?_, hdies⟩
    rw [hassigned, eq_comm, Bool.and_eq_false_iff] at hunassigned
    rcases hunassigned with hcloses | htext
    · exact Or.inr hcloses
    · exact Or.inl (by simpa using htext)
  · rintro ⟨hidle, hestablished, hassigned, hdies⟩
    obtain ⟨e, hend, hunassigned, hanswers⟩ :=
      uinsEnd_of_established text wrote garbage hchecks hidle hestablished hdies
    refine ⟨e, hend, ?_, _, Or.inr hanswers, ?_, ?_⟩
    · rw [hunassigned]
      rcases hassigned with htext | hcloses
      · simp [htext]
      · simp [hcloses]
    · unfold finalReply
      split
      · decide
      · decide
    · rw [finalReply_iff garbage hassigned, and_iff_right hestablished]

end Answer

/-- A client that connects and takes everything. -/
def Connection.plain : Connection where
  remote := .fd 5
  urgentMark := []
  handshake := false
  urgentTransfer := []
  urgentClose := []
  closes := true

/-- A session with a listener. -/
def Session.listening : Session :=
  { Session.start false false false false with pasvListen := true }

/-- A listening session without TLS gets its connection. -/
theorem established_plain : Established .plain .listening :=
  ⟨⟨5, rfl⟩, fun h => nomatch h⟩

/-- One instruction, over a connection without TLS. -/
theorem answersOnce_plain :
    AnswersOnce .plain .plain "-umods/a\n".toList true 0 .listening :=
  (answersOnce_iff rfl).mpr ⟨rfl, established_plain, Or.inl (by decide), fun h => nomatch h⟩

/-- Nothing to update: the reply depends on a variable that was never assigned. -/
theorem answersOnce_fails :
    ∃ tun c s, dataTransferChecksOk tun s = some none ∧ ∀ garbage,
      ¬ AnswersOnce tun c [] true garbage s := by
  refine ⟨.plain, .plain, .listening, rfl, fun garbage h => ?_⟩
  obtain ⟨e, hend, hassigned, -⟩ := h
  have hchecks : dataTransferChecksOk .plain .listening = some none := rfl
  obtain ⟨e', hend', hunassigned, -⟩ :=
    uinsEnd_of_established [] true garbage hchecks rfl established_plain (slaveDies_nil _)
  obtain rfl : e = e' := Option.some.inj (hend.symm.trans hend')
  rw [hassigned] at hunassigned
  exact absurd hunassigned (by decide)

end Transfer
end Server
end ModpackInstaller
