import ModpackInstaller.Library.Run
import ModpackInstaller.Server.Transfer

/-!
# A data connection is used once

Whether a transfer command gives back everything that {lit}`PORT` or
{lit}`PASV` prepared for it, over every run of the command loop.

Main results:

- Theorem {lit}`idle_of_run`: between two commands no session has a data
  descriptor.
- Theorem {lit}`refused_of_clean`: behind a clean command no transfer starts
  without a new address.
- Theorem {lit}`usedOnce_iff`: in a reachable session a transfer command is clean
  exactly when it is not {lit}`SITE UINS` and no {lit}`ABOR` comes in front of a
  handshake that fails.
- Theorem {lit}`usedOnce_fails`: {lit}`SITE UINS` keeps the listener, and a
  second transfer uses it.
-/

namespace ModpackInstaller
namespace Server
namespace Transfer

open Library

/-! ## What a command comes to -/

/-- The commands that prepare a data connection. -/
def Command.prepares : Command → Bool
  | .port _ _ => true
  | .eprt _ _ => true
  | .pasv _ _ _ => true
  | _ => false

/-- The session when a command starts. -/
def Session.fresh (s : Session) : Session :=
  { s with trace := ⟨[], false, false⟩ }

/-- A command that does not get to a data connection. -/
structure Quiet (cmd : Command) (s s' : Session) : Prop where
  called : s'.trace.called = false
  dataFd : s'.dataFd = s.dataFd
  portSockaddr : cmd.prepares = false → s'.portSockaddr = s.portSockaddr
  pasvListen : cmd.prepares = false → s'.pasvListen = s.pasvListen

/-- A command that only answers is quiet. -/
theorem Quiet.of_send {cmd : Command} {s s' : Session} {reply : Text} (pos : Nat)
    (h : { s.fresh with restartPos := pos }.send reply = s') : Quiet cmd s s' := by
  subst h
  exact ⟨rfl, rfl, fun _ => rfl, fun _ => rfl⟩

/-- A command that prepares a connection may set the addresses, and nothing else. -/
theorem Quiet.of_prepares {cmd : Command} {s s' : Session} (hprepares : cmd.prepares = true)
    (hkeeps : s'.trace.called = false ∧ s'.dataFd = s.dataFd) : Quiet cmd s s' where
  called := hkeeps.1
  dataFd := hkeeps.2
  portSockaddr := by simp [hprepares]
  pasvListen := by simp [hprepares]

/-- A handler refuses, or it comes to the end of the three handlers. -/
def Handled (tun : Tunables) (c : Connection) (cmd : Command) (s s' : Session) : Prop :=
  Quiet cmd s s' ∨
    ∃ mark result pos, transferOver tun c mark result { s.fresh with restartPos := pos } = some s'

/-- RETR refuses, or comes to the common end. -/
theorem handleRetr_cases {tun : Tunables} {w : Retr} {s s' : Session}
    (h : handleRetr tun w s.fresh = some s') : Handled tun w.conn (.retr w) s s' := by
  simp only [handleRetr, bind, Option.bind_eq_some_iff] at h
  obtain ⟨checks, -, h⟩ := h
  cases checks with
  | some reply => exact Or.inl (.of_send 0 (Option.some.inj h))
  | none =>
      dsimp only at h
      split_ifs at h
      · exact Or.inl (.of_send 0 (Option.some.inj h))
      · exact Or.inl (.of_send 0 (Option.some.inj h))
      · exact Or.inl (.of_send 0 (Option.some.inj h))
      · exact Or.inl (.of_send 0 (Option.some.inj h))
      · exact Or.inl (.of_send 0 (Option.some.inj h))
      · exact Or.inr ⟨_, _, 0, h⟩

/-- LIST and NLST refuse, or come to the common end. -/
theorem handleDirCommon_cases {tun : Tunables} {w : Dir} {s s' : Session}
    (h : handleDirCommon tun false w s.fresh = some s') :
    Handled tun w.conn (.dir false w) s s' := by
  simp only [handleDirCommon, Bool.false_eq_true, if_false, bind, Option.bind_eq_some_iff] at h
  obtain ⟨checks, -, h⟩ := h
  cases checks with
  | some reply => exact Or.inl (.of_send s.restartPos (Option.some.inj h))
  | none =>
      dsimp only at h
      split_ifs at h
      · exact Or.inl (.of_send s.restartPos (Option.some.inj h))
      · exact Or.inr ⟨_, _, s.restartPos, h⟩

/-- STOR, APPE and STOU refuse, or come to the common end. -/
theorem handleUploadCommon_cases {tun : Tunables} {isUnique : Bool} {w : Upload} {s s' : Session}
    (h : handleUploadCommon tun isUnique w s.fresh = some s') :
    Handled tun w.conn (.upload isUnique w) s s' := by
  simp only [handleUploadCommon, bind, Option.bind_eq_some_iff] at h
  obtain ⟨checks, -, h⟩ := h
  cases checks with
  | some reply => exact Or.inl (.of_send 0 (Option.some.inj h))
  | none =>
      dsimp only at h
      split at h
      · exact Or.inl (.of_send 0 (Option.some.inj h))
      · split at h
        · exact Or.inl (.of_send 0 (Option.some.inj h))
        · exact Or.inr ⟨_, _, 0, h⟩

/-- `STAT` uses the control connection. -/
theorem handleDirCommon_stat {tun : Tunables} {w : Dir} {s s' : Session}
    (h : handleDirCommon tun true w s.fresh = some s') : Quiet (.dir true w) s s' := by
  simp only [handleDirCommon, if_true] at h
  split at h
  · exact .of_send s.restartPos (Option.some.inj h)
  · obtain rfl := Option.some.inj h
    unfold checkAbor
    split
    · exact ⟨rfl, rfl, fun _ => rfl, fun _ => rfl⟩
    · exact ⟨rfl, rfl, fun _ => rfl, fun _ => rfl⟩

/-- SITE UINS refuses, or comes to its own end. -/
theorem siteUins_cases {tun : Tunables} {w : Uins} {s s' : Session}
    (h : siteUins tun w s.fresh = some s') :
    Quiet (.uins w) s s' ∨ uinsOver tun w.conn w.wrote s.fresh = some s' := by
  simp only [siteUins, bind, Option.bind_eq_some_iff] at h
  obtain ⟨checks, -, h⟩ := h
  split at h
  · cases h
  · exact Or.inl (.of_send s.restartPos (Option.some.inj h))
  · exact Or.inr (Option.ite_none_left_eq_some.mp h).2

/-- PORT opens no data connection. -/
theorem handlePort_keeps (addr : Option Text) (legal : Bool) (s : Session) :
    (handlePort addr legal s).trace.called = s.trace.called ∧
      (handlePort addr legal s).dataFd = s.dataFd := by
  cases addr <;> cases legal <;> exact ⟨rfl, rfl⟩

/-- Neither does EPRT. -/
theorem handleEprt_keeps (addr : Except Text Text) (legal : Bool) (s : Session) :
    (handleEprt addr legal s).trace.called = s.trace.called ∧
      (handleEprt addr legal s).dataFd = s.dataFd := by
  cases addr <;> cases legal <;> exact ⟨rfl, rfl⟩

/-- Nor do PASV and EPSV, which only listen. -/
theorem handlePasv_keeps (isEpsv : Bool) (arg : Option EpsvArg) (text : Text) (s : Session) :
    (handlePasv isEpsv arg text s).trace.called = s.trace.called ∧
      (handlePasv isEpsv arg text s).dataFd = s.dataFd := by
  unfold handlePasv
  split <;> exact ⟨rfl, rfl⟩

/-- The data connection of a command that goes through the common end. -/
def Command.conn : Command → Option Connection
  | .retr w => some w.conn
  | .dir _ w => some w.conn
  | .upload _ w => some w.conn
  | _ => none

/-- A command is quiet, or it is one of the six with the common end, or it is
`SITE UINS`. -/
theorem step_cases {tun : Tunables} {cmd : Command} {s s' : Session}
    (h : step tun s cmd = some s') :
    Quiet cmd s s' ∨
      (∃ c ∈ cmd.conn, ∃ mark result pos,
        transferOver tun c mark result { s.fresh with restartPos := pos } = some s') ∨
      ∃ w, cmd = .uins w ∧ uinsOver tun w.conn w.wrote s.fresh = some s' := by
  cases cmd with
  | port addr legal =>
      obtain rfl := Option.some.inj h
      exact Or.inl (.of_prepares rfl (handlePort_keeps ..))
  | eprt addr legal =>
      obtain rfl := Option.some.inj h
      exact Or.inl (.of_prepares rfl (handleEprt_keeps ..))
  | pasv isEpsv arg text =>
      obtain rfl := Option.some.inj h
      exact Or.inl (.of_prepares rfl (handlePasv_keeps ..))
  | type arg =>
      obtain rfl := Option.some.inj h
      unfold handleType
      dsimp only
      refine Or.inl ⟨?_, ?_, fun _ => ?_, fun _ => ?_⟩ <;> split_ifs <;> rfl
  | rest val =>
      obtain rfl := Option.some.inj h
      exact Or.inl ⟨rfl, rfl, fun _ => rfl, fun _ => rfl⟩
  | prot arg =>
      obtain rfl := Option.some.inj h
      unfold handleProt
      dsimp only
      refine Or.inl ⟨?_, ?_, fun _ => ?_, fun _ => ?_⟩ <;> split_ifs <;> rfl
  | retr w => exact (handleRetr_cases h).imp_right fun hover => Or.inl ⟨w.conn, rfl, hover⟩
  | dir statCmd w =>
      cases statCmd with
      | true => exact Or.inl (handleDirCommon_stat h)
      | false =>
          exact (handleDirCommon_cases h).imp_right fun hover => Or.inl ⟨w.conn, rfl, hover⟩
  | upload isUnique w =>
      exact (handleUploadCommon_cases h).imp_right fun hover => Or.inl ⟨w.conn, rfl, hover⟩
  | uins w => exact (siteUins_cases h).imp_right fun hover => Or.inr ⟨w, rfl, hover⟩
  | other reply => exact Or.inl (.of_send s.restartPos (Option.some.inj h))

/-! ## Over a run -/

/-- No command leaves a data descriptor behind. -/
theorem idle_step {tun : Tunables} (s : Session) (cmd : Command) (s' : Session)
    (hidle : s.dataFd = none) (h : step tun s cmd = some s') : s'.dataFd = none := by
  rcases step_cases h with hquiet | ⟨c, -, mark, result, pos, hover⟩ | ⟨w, -, hover⟩
  · exact hquiet.dataFd.trans hidle
  · exact (transferOver_cases hover hidle rfl).2.1
  · exact (uinsOver_cases hover hidle rfl).2.1

/-- Between two commands no data connection is open. -/
theorem idle_of_run {tun : Tunables}
    {isAnonymous controlUseSsl dataUseSsl sslSlaveActive : Bool}
    {cmds : List Command} {s : Session}
    (h : run (step tun) (.start isAnonymous controlUseSsl dataUseSsl sslSlaveActive) cmds =
      some s) :
    s.dataFd = none := by
  refine run_invariant_of_step (P := fun s => s.dataFd = none) ?_ ?_ h
  · exact fun s cmd s' hidle hstep => idle_step s cmd s' hidle hstep
  · rfl

/-- Without an address there is no data connection. -/
structure Closed (s : Session) : Prop where
  portSockaddr : s.portSockaddr = none
  pasvListen : s.pasvListen = false
  dataFd : s.dataFd = none

/-- A clean session is closed. -/
theorem Clean.closed {s : Session} (h : Clean s) : Closed s :=
  ⟨h.portSockaddr, h.pasvListen, h.dataFd⟩

/-- A closed session answers every command without a data connection. -/
theorem closed_step {tun : Tunables} {s s' : Session} {cmd : Command} (hclosed : Closed s)
    (hprepares : cmd.prepares = false) (h : step tun s cmd = some s') :
    Closed s' ∧ s'.trace.called = false := by
  have hinactive : ¬ (s.pasvListen = true ∨ s.portSockaddr ≠ none) := by
    simp [hclosed.portSockaddr, hclosed.pasvListen]
  rcases step_cases h with hquiet | ⟨c, -, mark, result, pos, hover⟩ | ⟨w, -, hover⟩
  · refine ⟨⟨?_, ?_, hquiet.dataFd.trans hclosed.dataFd⟩, hquiet.called⟩
    · exact (hquiet.portSockaddr hprepares).trans hclosed.portSockaddr
    · exact (hquiet.pasvListen hprepares).trans hclosed.pasvListen
  · exact absurd (transferOver_active hover hclosed.dataFd rfl) hinactive
  · exact absurd (uinsOver_active hover hclosed.dataFd rfl) hinactive

/-- Until the next `PORT` or `PASV` every transfer command is refused. -/
def RefusedNext (tun : Tunables) (s : Session) : Prop :=
  ∀ cmds s₁ cmd s₂, (∀ e ∈ cmds, e.prepares = false) → run (step tun) s cmds = some s₁ →
    cmd.prepares = false → step tun s₁ cmd = some s₂ → s₂.trace.called = false

/-- A clean session refuses every transfer until the next PORT or PASV: what the commands in between
keep is that it is closed. -/
theorem refused_of_clean {tun : Tunables} {s : Session} (hclean : Clean s) :
    RefusedNext tun s := by
  intro cmds s₁ cmd s₂ hcmds hrun hcmd hstep
  have hclosed : Closed s₁ := by
    have hmeets : RunMeets (step tun) (fun _ e => e.prepares = false) s cmds :=
      runMeets_of_forall (fun e he _ => hcmds e he) s
    refine run_invariant ?_ hclean.closed hmeets hrun
    exact fun s e s' hclosed hprepares h => (closed_step hclosed hprepares h).1
  exact (closed_step hclosed hcmd hstep).2

/-! ## Used once -/

/-- The address of a data connection is used up. -/
def UsedOnce (tun : Tunables) (s : Session) : Prop :=
  Clean s ∧ RefusedNext tun s

/-- The command is not `SITE UINS`, and no `ABOR` comes in front of a handshake
that fails. -/
def Orderly (tun : Tunables) (s : Session) (cmd : Command) : Prop :=
  (∀ w, cmd ≠ .uins w) ∧ ∀ c ∈ cmd.conn, ¬ AbortedHandshake tun c s

/-- In a reachable session a command that got to a data connection and returned
has used it up exactly when it met the condition. -/
theorem usedOnce_iff {tun : Tunables}
    {isAnonymous controlUseSsl dataUseSsl sslSlaveActive : Bool}
    {cmds : List Command} {cmd : Command} {s s' : Session}
    (hrun : run (step tun) (.start isAnonymous controlUseSsl dataUseSsl sslSlaveActive) cmds =
      some s)
    (hstep : step tun s cmd = some s') (hcalled : s'.trace.called = true) :
    UsedOnce tun s' ↔ Orderly tun s cmd := by
  have hidle := idle_of_run hrun
  have hclean : UsedOnce tun s' ↔ Clean s' :=
    ⟨And.left, fun h => ⟨h, refused_of_clean h⟩⟩
  rw [hclean]
  rcases step_cases hstep with hquiet | ⟨c, hc, mark, result, pos, hover⟩ | ⟨w, rfl, hover⟩
  · rw [hquiet.called] at hcalled
    cases hcalled
  · rw [(transferOver_cases hover hidle rfl).2.2]
    have hother : ∀ w, cmd ≠ .uins w := by
      rintro w rfl
      cases hc
    constructor
    · intro hno
      refine ⟨hother, fun c' hc' => ?_⟩
      obtain rfl : c = c' := Option.mem_unique hc hc'
      exact hno
    · exact fun horderly => horderly.2 c hc
  · refine iff_of_false (uinsOver_cases hover hidle rfl).2.2.2.2 ?_
    exact fun horderly => horderly.1 w rfl

/-- A plain configuration. -/
def Tunables.plain : Tunables where
  sslEnable := false
  forceLocalDataSsl := false
  forceAnonDataSsl := false
  requireSslReuse := false
  asyncAborEnable := true
  anonWorldReadableOnly := true
  asciiDownloadEnable := false

/-- A client that connects and sends an `ABOR` during the transfer. -/
def Connection.aborted : Connection where
  remote := .fd 5
  urgentMark := []
  handshake := false
  urgentTransfer := ["\xff\xf4\xff\xf2ABOR".toList]
  urgentClose := []
  closes := true

/-- The download of a file of three bytes that the client gives up. -/
def Retr.aborted : Retr where
  filename := "a".toList
  permitted := true
  opened := true
  regular := true
  readableOther := true
  size := 3
  transRet := -2
  conn := .aborted

/-- A download that the client aborts. -/
theorem usedOnce_aborted :
    ∃ s s', run (step .plain) (.start false false false false) [.pasv false none []] = some s ∧
      step .plain s (.retr .aborted) = some s' ∧ s'.trace.called = true ∧
      (UsedOnce .plain s' ↔ Orderly .plain s (.retr .aborted)) := by
  have hrun : run (step .plain) (.start false false false false) [.pasv false none []] =
    some _ := rfl
  exact ⟨_, _, hrun, rfl, rfl, usedOnce_iff hrun rfl rfl⟩

/-- The published files of a modpack with one version. -/
def oneVersion : Kernel where
  openRead _ path :=
    if path = "/DATA/VERSION/m".toList then some (.ofText "v".toList)
    else if path = "/DATA/LISTFILE/m/v".toList then some (.ofText ".\n".toList)
    else if path = "/DATA/CHANGE/m".toList then some (.ofText "@v\n".toList)
    else none
  stat _ _ := none

/-- A `SITE UINS` that finds everything in order. -/
def Uins.plain : Uins where
  kernel := oneVersion
  sys := ⟨0, []⟩
  instr := []
  arg := "m v".toList
  wrote := 0
  conn := .aborted

/-- Behind a successful `SITE UINS` the listener is still open, the `ABOR` is not
answered, and a download without a new `PASV` is not refused. -/
theorem usedOnce_fails :
    ∃ s s' s'', run (step .plain) (.start false false false false) [.pasv false none []] = some s ∧
      step .plain s (.uins .plain) = some s' ∧ s'.trace.called = true ∧
      ¬ UsedOnce .plain s' ∧ s'.pasvListen = true ∧ s'.aborReceived = true ∧
      step .plain s' (.retr .aborted) = some s'' ∧ s''.trace.called = true := by
  refine ⟨_, _, _, rfl, rfl, rfl, ?_, rfl, rfl, rfl, rfl⟩
  intro hused
  exact absurd hused.1.pasvListen (by decide)

end Transfer
end Server
end ModpackInstaller
