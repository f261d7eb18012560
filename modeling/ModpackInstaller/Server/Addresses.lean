import ModpackInstaller.Server.UsedOnce

/-!
# The two addresses of a data connection

{lit}`port_active` and {lit}`pasv_active` call each other, with nothing that
decreases.  Here they are followed call by call, with a bound on the depth, and so
are the writes to the two addresses while a command runs.

Main results:

- Theorem {lit}`active_of_exclusive`: as long as at most one address is there, a
  call of one predicate makes at most one of the other, and no more.
- Theorem {lit}`active_of_both`: with both of them no depth is enough, and neither
  {lit}`bug` is reached.
- Theorem {lit}`addressWrites_exclusive`: no write of a command brings the second
  address.
- Theorem {lit}`exclusive_of_run`: over every run, at every moment of every command
  at most one address is there.
-/

namespace ModpackInstaller
namespace Server
namespace Transfer

open Library

/-! ## The two predicates -/

/-- How a call ends that may go this deep. -/
inductive Called where
  | returns (b : Bool)
  | bug
  | tooDeep
deriving DecidableEq, Repr

/-- A predicate that holds only when the other one does not. -/
def Called.unless (other : Called) : Called :=
  match other with
  | .returns true => .bug
  | .returns false => .returns true
  | other => other

mutual

/-- `port_active` with its calls. -/
def portActiveIn : Nat → Session → Called
  | 0, _ => .tooDeep
  | depth + 1, s =>
    if s.portSockaddr.isSome then (pasvActiveIn depth s).unless else .returns false

/-- `pasv_active` with its calls. -/
def pasvActiveIn : Nat → Session → Called
  | 0, _ => .tooDeep
  | depth + 1, s =>
    if s.pasvListen then (portActiveIn depth s).unless else .returns false

end

/-- Whether a `PORT` address is set and whether a listener is open. -/
structure Addresses where
  port : Option Text
  listening : Bool
deriving DecidableEq, Repr

def Session.addresses (s : Session) : Addresses :=
  ⟨s.portSockaddr, s.pasvListen⟩

/-- Not both at the same time. -/
def Exclusive (a : Addresses) : Prop :=
  ¬ (a.port.isSome = true ∧ a.listening = true)

instance : DecidablePred Exclusive :=
  fun _ => inferInstanceAs (Decidable (¬ _))

/-- With at most one address the predicates come to an end in two calls. -/
theorem active_of_exclusive {s : Session} (h : Exclusive s.addresses) {depth : Nat}
    (hdepth : 2 ≤ depth) :
    portActiveIn depth s = .returns s.portSockaddr.isSome ∧
      pasvActiveIn depth s = .returns s.pasvListen := by
  obtain ⟨n, rfl⟩ := Nat.exists_eq_add_of_le' hdepth
  cases hport : s.portSockaddr.isSome with
  | false => cases hpasv : s.pasvListen <;>
      simp [portActiveIn, pasvActiveIn, Called.unless, hport, hpasv]
  | true =>
      have hpasv : s.pasvListen = false := by
        rw [← Bool.not_eq_true]
        exact fun hpasv => h ⟨hport, hpasv⟩
      simp [portActiveIn, pasvActiveIn, Called.unless, hport, hpasv]

/-- With both addresses the calls go on without end. -/
theorem active_of_both {s : Session} (h : ¬ Exclusive s.addresses) (depth : Nat) :
    portActiveIn depth s = .tooDeep ∧ pasvActiveIn depth s = .tooDeep := by
  obtain ⟨hport, hpasv⟩ : s.portSockaddr.isSome = true ∧ s.pasvListen = true := not_not.mp h
  induction depth with
  | zero => exact ⟨rfl, rfl⟩
  | succ depth ih => simp [portActiveIn, pasvActiveIn, hport, hpasv, ih, Called.unless]

/-- The value of a call that returns. -/
def Called.value : Called → Option Bool
  | .returns b => some b
  | _ => none

/-- The predicates of the command loop are the ones that are called. -/
theorem active_eq_value (s : Session) {depth : Nat} (hdepth : 2 ≤ depth) :
    portActive s = (portActiveIn depth s).value ∧ pasvActive s = (pasvActiveIn depth s).value := by
  by_cases h : Exclusive s.addresses
  · obtain ⟨hport, hpasv⟩ := active_of_exclusive h hdepth
    have hboth : ¬ (s.pasvListen && s.portSockaddr.isSome) = true := by
      rw [Bool.and_eq_true]
      exact fun hboth => h hboth.symm
    rw [hport, hpasv, portActive, pasvActive, if_neg hboth, if_neg hboth]
    exact ⟨rfl, rfl⟩
  · obtain ⟨hport, hpasv⟩ := active_of_both h depth
    have hboth : (s.pasvListen && s.portSockaddr.isSome) = true := by
      rw [Bool.and_eq_true]
      exact (not_not.mp h).symm
    rw [hport, hpasv, portActive, pasvActive, if_pos hboth, if_pos hboth]
    exact ⟨rfl, rfl⟩

/-- The checks of a transfer come to an end. -/
theorem checks_of_exclusive (tun : Tunables) {s : Session} (h : Exclusive s.addresses) :
    dataTransferChecksOk tun s ≠ none := by
  obtain ⟨hport, hpasv⟩ := active_eq_value s (le_refl 2)
  obtain ⟨hport', hpasv'⟩ := active_of_exclusive h (le_refl 2)
  rw [hport', Called.value] at hport
  rw [hpasv', Called.value] at hpasv
  simp only [dataTransferChecksOk, hport, hpasv, bind, Option.bind_some]
  split_ifs <;> simp [pure]

/-! ## The writes of a command -/

/-- A write to one of the two addresses. -/
inductive AddressWrite where
  | set (addr : Text)
  /-- `port_cleanup` -/
  | clear
  | listen
  /-- `pasv_cleanup` -/
  | close
deriving DecidableEq, Repr

def Addresses.write (a : Addresses) : AddressWrite → Addresses
  | .set addr => { a with port := some addr }
  | .clear => { a with port := none }
  | .listen => { a with listening := true }
  | .close => { a with listening := false }

/-- The writes of a command, in their order.  The addresses are cleaned up behind
every data connection that was asked for, but for `SITE UINS`. -/
def addressWrites (tun : Tunables) (s : Session) (cmd : Command) : List AddressWrite :=
  match cmd with
  | .port none _ => [.close, .clear]
  | .port (some addr) true => [.close, .clear, .set addr]
  | .port (some addr) false => [.close, .clear, .set addr, .clear]
  | .eprt (.error _) _ => [.clear, .close]
  | .eprt (.ok addr) true => [.clear, .close, .set addr]
  | .eprt (.ok addr) false => [.clear, .close, .set addr, .clear]
  | .pasv true (some _) _ => []
  | .pasv _ _ _ => [.close, .clear, .listen]
  | .retr _ | .dir _ _ | .upload _ _ =>
    if (step tun s cmd).any (·.trace.called) then [.clear, .close] else []
  | _ => []

/-- A write that brings an address finds the other one cleaned up. -/
def Alone (a : Addresses) : AddressWrite → Prop
  | .set _ => a.listening = false
  | .listen => a.port = none
  | _ => True

theorem exclusive_write_iff (a : Addresses) (w : AddressWrite) :
    Exclusive (a.write w) ↔ Alone a w := by
  cases w with
  | set addr => simp [Exclusive, Alone, Addresses.write]
  | clear => simp [Exclusive, Alone, Addresses.write]
  | listen => simp [Exclusive, Alone, Addresses.write]
  | close => simp [Exclusive, Alone, Addresses.write]

/-- Every write of a command finds the other address cleaned up. -/
theorem addressWrites_alone (tun : Tunables) (s : Session) (cmd : Command) (a : Addresses) :
    MeetsAlong Addresses.write Alone a (addressWrites tun s cmd) := by
  cases cmd with
  | port addr legal => cases addr <;> cases legal <;>
      simp [addressWrites, MeetsAlong, Alone, Addresses.write]
  | eprt addr legal => cases addr <;> cases legal <;>
      simp [addressWrites, MeetsAlong, Alone, Addresses.write]
  | pasv isEpsv arg text => cases isEpsv <;> cases arg <;>
      simp [addressWrites, MeetsAlong, Alone, Addresses.write]
  | type arg => trivial
  | rest val => trivial
  | prot arg => trivial
  | retr w =>
      rw [addressWrites]
      split <;> simp [MeetsAlong, Alone]
  | dir statCmd w =>
      rw [addressWrites]
      split <;> simp [MeetsAlong, Alone]
  | upload isUnique w =>
      rw [addressWrites]
      split <;> simp [MeetsAlong, Alone]
  | uins w => trivial
  | other reply => trivial

/-- No write of a command brings the second address. -/
theorem addressWrites_exclusive {tun : Tunables} {s : Session} {cmd : Command} {a : Addresses}
    (h : Exclusive a) (k : Nat) :
    Exclusive (((addressWrites tun s cmd).take k).foldl Addresses.write a) :=
  (invariant_iff_meetsAlong (P := Exclusive) (fun a w _ => exclusive_write_iff a w) a
    (addressWrites tun s cmd)).mpr ⟨h, addressWrites_alone tun s cmd a⟩ k

/-- A transfer that was asked for ends with the clean-up. -/
theorem addresses_of_transferOver {tun : Tunables} {c : Connection} {mark : Text}
    {result : Bool → Session → Nat × Text} {s s' : Session}
    (h : transferOver tun c mark result s = some s') : s'.addresses = ⟨none, false⟩ := by
  simp only [transferOver, bind, Option.bind_eq_some_iff] at h
  obtain ⟨⟨fd, s₁⟩, -, h⟩ := h
  cases fd with
  | none =>
      obtain rfl := Option.some.inj h
      rfl
  | some n =>
      obtain ⟨s₂, -, h⟩ := Option.bind_eq_some_iff.mp h
      obtain rfl := Option.some.inj h
      rfl

theorem Quiet.addresses {cmd : Command} {s s' : Session} (h : Quiet cmd s s')
    (hprepares : cmd.prepares = false) : s'.addresses = s.addresses := by
  rw [Session.addresses, h.portSockaddr hprepares, h.pasvListen hprepares]
  rfl

/-- A transfer command cleans up exactly when it asked for a data connection. -/
theorem addresses_of_transfer {tun : Tunables} {s s' : Session} {cmd : Command} {c : Connection}
    (hidle : s.dataFd = none) (h : step tun s cmd = some s') (hconn : cmd.conn = some c) :
    s'.addresses = (if (step tun s cmd).any (·.trace.called) then
      [AddressWrite.clear, .close] else []).foldl Addresses.write s.addresses := by
  have hprepares : cmd.prepares = false := by
    cases cmd <;> simp_all [Command.conn, Command.prepares]
  rw [h, Option.any_some]
  rcases step_cases h with hquiet | ⟨c', -, mark, result, pos, hover⟩ | ⟨w, rfl, -⟩
  · rw [hquiet.called]
    exact hquiet.addresses hprepares
  · rw [(transferOver_cases hover hidle rfl).1]
    exact addresses_of_transferOver hover
  · cases hconn

/-- The other commands leave the addresses, `SITE UINS` among them. -/
theorem addresses_of_keeps {tun : Tunables} {s s' : Session} {cmd : Command}
    (hidle : s.dataFd = none) (h : step tun s cmd = some s') (hprepares : cmd.prepares = false)
    (hconn : cmd.conn = none) : s'.addresses = s.addresses := by
  rcases step_cases h with hquiet | ⟨c, hc, -⟩ | ⟨w, rfl, hover⟩
  · exact hquiet.addresses hprepares
  · rw [hconn] at hc
    cases hc
  · obtain ⟨-, -, hport, hpasv, -⟩ := uinsOver_cases hover hidle rfl
    rw [Session.addresses, hport, hpasv]
    rfl

/-- What a command leaves of the addresses is what its writes make of them. -/
theorem step_addresses {tun : Tunables} {s s' : Session} {cmd : Command}
    (hidle : s.dataFd = none) (h : step tun s cmd = some s') :
    s'.addresses = (addressWrites tun s cmd).foldl Addresses.write s.addresses := by
  cases cmd with
  | port addr legal =>
      obtain rfl := Option.some.inj h
      cases addr <;> cases legal <;> rfl
  | eprt addr legal =>
      obtain rfl := Option.some.inj h
      cases addr <;> cases legal <;> rfl
  | pasv isEpsv arg text =>
      obtain rfl := Option.some.inj h
      rcases arg with _ | _ | _ <;> cases isEpsv <;> rfl
  | type arg => exact addresses_of_keeps hidle h rfl rfl
  | rest val => exact addresses_of_keeps hidle h rfl rfl
  | prot arg => exact addresses_of_keeps hidle h rfl rfl
  | retr w => exact addresses_of_transfer hidle h rfl
  | dir statCmd w => exact addresses_of_transfer hidle h rfl
  | upload isUnique w => exact addresses_of_transfer hidle h rfl
  | uins w => exact addresses_of_keeps hidle h rfl rfl
  | other reply => exact addresses_of_keeps hidle h rfl rfl

/-! ## Over a run -/

/-- Between two commands at most one address is there. -/
theorem exclusive_between {tun : Tunables}
    {isAnonymous controlUseSsl dataUseSsl sslSlaveActive : Bool}
    {cmds : List Command} {s : Session}
    (hrun : run (step tun) (.start isAnonymous controlUseSsl dataUseSsl sslSlaveActive) cmds =
      some s) :
    Exclusive s.addresses := by
  have hboth : s.dataFd = none ∧ Exclusive s.addresses := by
    refine run_invariant_of_step (P := fun s => s.dataFd = none ∧ Exclusive s.addresses)
      (fun s cmd s' hs hstep => ?_)
      ⟨rfl, by simp [Exclusive, Session.start, Session.addresses]⟩ hrun
    refine ⟨idle_step s cmd s' hs.1 hstep, ?_⟩
    rw [step_addresses hs.1 hstep, ← List.take_length (l := addressWrites tun s cmd)]
    exact addressWrites_exclusive hs.2 _
  exact hboth.2

/-- At every moment of every command of a run at most one address is there, and
both predicates come to an end in two calls, with the right answer. -/
theorem exclusive_of_run {tun : Tunables}
    {isAnonymous controlUseSsl dataUseSsl sslSlaveActive : Bool}
    {cmds : List Command} {s : Session}
    (hrun : run (step tun) (.start isAnonymous controlUseSsl dataUseSsl sslSlaveActive) cmds =
      some s)
    (cmd : Command) :
    (∀ k a, ((addressWrites tun s cmd).take k).foldl Addresses.write s.addresses = a →
      Exclusive a ∧ ∀ s₁ : Session, s₁.addresses = a → ∀ depth, 2 ≤ depth →
        portActiveIn depth s₁ = .returns s₁.portSockaddr.isSome ∧
          pasvActiveIn depth s₁ = .returns s₁.pasvListen ∧ dataTransferChecksOk tun s₁ ≠ none) ∧
      ∀ s', step tun s cmd = some s' →
        s'.addresses = (addressWrites tun s cmd).foldl Addresses.write s.addresses := by
  refine ⟨fun k a ha => ?_, fun s' hstep => step_addresses (idle_of_run hrun) hstep⟩
  have hexclusive : Exclusive a := ha ▸ addressWrites_exclusive (exclusive_between hrun) k
  refine ⟨hexclusive, fun s₁ hs₁ depth hdepth => ?_⟩
  have hs₁ : Exclusive s₁.addresses := hs₁ ▸ hexclusive
  obtain ⟨hport, hpasv⟩ := active_of_exclusive hs₁ hdepth
  exact ⟨hport, hpasv, checks_of_exclusive tun hs₁⟩

/-- A listener, and the moment in `PORT` at which the address is set. -/
theorem exclusive_set :
    ∃ s, run (step .plain) (.start false false false false) [.pasv false none []] = some s ∧
      Exclusive (((addressWrites .plain s (.port (some "a".toList) true)).take 3).foldl
        Addresses.write s.addresses) := by
  have hrun : run (step .plain) (.start false false false false) [.pasv false none []] =
    some _ := rfl
  exact ⟨_, hrun, ((exclusive_of_run hrun (.port (some "a".toList) true)).1 3 _ rfl).1⟩

end Transfer
end Server
end ModpackInstaller
