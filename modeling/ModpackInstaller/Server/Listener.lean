import ModpackInstaller.Library.Run
import ModpackInstaller.Server.Hash

/-!
# The listener

{lit}`standalone.c`: the process that accepts connections and forks a server for each of
them, and {lit}`check_limits` of {lit}`prelogin.c` in the new process.  The handlers of
{lit}`SIGCHLD` run where {lit}`sysutil.c` looks at pending signals: behind {lit}`accept` and
in a {lit}`close` that is interrupted.  Servers end at any time.

Main results:

- Theorem {lit}`faultless_iff`: the listener goes wrong in no other way than by an
  interrupted {lit}`close` that reaps the server which it has just forked.
- Theorem {lit}`accounts_exact`: between two connections the counters and the tables are
  those of the processes that there are.
- Theorem {lit}`admitted_le`: how many admitted servers there can be, in all and for one
  address.
-/

namespace ModpackInstaller
namespace Server
namespace Listener

open Library Hash

/-! ## Counters -/

/-- A raw address, `s_ipaddr_size` bytes. -/
abbrev Ip := List UInt8

/-- `hash_ip` -/
def hashIp (buckets : Nat) (key : Ip) : Nat :=
  let round := fun (val, shift) (b : UInt8) =>
    (val ^^^ (b.toNat <<< shift), if shift < 8 then 24 else shift - 8)
  (key.foldl round (0, 24)).1 % buckets

/-- `hash_pid` -/
def hashPid (buckets : Nat) (key : Nat) : Nat :=
  key % buckets

/-- `handle_ip_count` -/
def handleIpCount (t : Table Ip Nat) (ip : Ip) : Except Fault (Table Ip Nat × Nat) :=
  match hashLookupEntry t ip with
  | .error e => .error e
  | .ok none =>
    match hashAddEntry t ip 1 with
    | .error e => .error e
    | .ok t => .ok (t, 1)
  | .ok (some p) =>
    match t.read p with
    | none => .error .wild
    | some count => .ok (t.write p (count + 1), count + 1)

/-- `drop_ip_count`; `none` is a null pointer, which `hash_ip` reads through. -/
def dropIpCount (t : Table Ip Nat) : Option Ip → Except Fault (Table Ip Nat)
  | none => .error .wild
  | some ip =>
    match hashLookupEntry t ip with
    | .error e => .error e
    | .ok none => .error (.bug "IP address missing from hash")
    | .ok (some p) =>
      match t.read p with
      | none => .error .wild
      | some count =>
        if count = 0 then .error (.bug "zero count for IP address")
        else if count - 1 = 0 then hashFreeEntry (t.write p 0) ip
        else .ok (t.write p (count - 1))

/-! ## Processes -/

/-- A server process with what it was launched with: the two counts of
`struct vsf_client_launch` and the tunables it has a copy of. -/
structure Child where
  pid : Nat
  ip : Ip
  numClients : Nat
  numThisIp : Nat
  maxClients : Nat
  maxPerIp : Nat
  /-- It has ended and was not waited for yet. -/
  ended : Bool
deriving DecidableEq, Repr

/-- `check_limits` lets the client in, as far as the counts go. -/
def checkLimits (c : Child) : Bool :=
  ¬ (0 < c.maxClients ∧ c.maxClients < c.numClients) ∧
    ¬ (0 < c.maxPerIp ∧ c.maxPerIp < c.numThisIp)

/-- Where the listener is in its loop. -/
inductive Pc where
  | accepting
  /-- Behind `handle_ip_count`. -/
  | forking (ip : Ip) (numThisIp : Nat)
  /-- Behind `fork`, with the process that it made. -/
  | closing (child : Option Nat) (ip : Ip)
deriving DecidableEq, Repr

/-- The listener, and the processes that the kernel has of it in the order of their launch. -/
structure State where
  /-- `s_children` -/
  children : Nat
  /-- `s_p_ip_count_hash` -/
  ipCount : Table Ip Nat
  /-- `s_p_pid_ip_hash` -/
  pidIp : Table Nat Ip
  pc : Pc
  procs : List Child
  fault : Option Fault

/-- The listener in front of its loop. -/
def State.start : State where
  children := 0
  ipCount := hashAlloc 256 hashIp
  pidIp := hashAlloc 256 hashPid
  pc := .accepting
  procs := []
  fault := none

/-- One round of `handle_sigchld`. -/
def reapOne (s : State) (pid : Nat) : Except Fault State :=
  let s := { s with children := s.children - 1, procs := s.procs.filter (·.pid ≠ pid) }
  match hashLookupEntry s.pidIp pid with
  | .error e => .error e
  | .ok p =>
    match dropIpCount s.ipCount (p.bind s.pidIp.read) with
    | .error e => .error e
    | .ok ipCount =>
      match hashFreeEntry s.pidIp pid with
      | .error e => .error e
      | .ok pidIp => .ok { s with ipCount := ipCount, pidIp := pidIp }

/-- `handle_sigchld`, with the processes in the order in which they are waited for. -/
def handleSigchld (s : State) (pids : List Nat) : Except Fault State :=
  pids.foldlM reapOne s

/-- What can happen.  The lists are the processes that the handler reaps. -/
inductive Event where
  /-- A server ends. -/
  | exits (pid : Nat)
  | acceptFails (reaped : List Nat)
  | accepts (reaped : List Nat) (ip : Ip)
  /-- `fork` makes a process; the limits are those that it has a copy of. -/
  | forks (pid maxClients maxPerIp : Nat)
  | forkFails
  | closeInterrupted (reaped : List Nat)
  | closes
deriving DecidableEq, Repr

/-- The listener stops with a fault. -/
def State.stopped (s : State) (e : Fault) : State :=
  { s with fault := some e }

/-- `++s_children` and `handle_ip_count` behind `accept`. -/
def State.count (s : State) (ip : Ip) : State :=
  match handleIpCount s.ipCount ip with
  | .error e => s.stopped e
  | .ok (ipCount, count) =>
    { s with children := s.children + 1, ipCount := ipCount, pc := .forking ip count }

/-- The rest of the loop body behind `close`. -/
def State.launched (s : State) : Option Nat → Ip → State
  | some pid, ip =>
    match hashAddEntry s.pidIp pid ip with
    | .error e => s.stopped e
    | .ok pidIp => { s with pidIp := pidIp, pc := .accepting }
  | none, ip =>
    match dropIpCount s.ipCount (some ip) with
    | .error e => s.stopped e
    | .ok ipCount => { s with children := s.children - 1, ipCount := ipCount, pc := .accepting }

/-- The processes that wait to be reaped. -/
def State.endedPids (s : State) : List Nat :=
  (s.procs.filter (·.ended)).map (·.pid)

/-- A server ends. -/
def Child.mark (pid : Nat) (c : Child) : Child :=
  if c.pid = pid then { c with ended := true } else c

/-- An event in a state where it can happen; `none` where it cannot. -/
def step (s : State) (e : Event) : Option State :=
  if s.fault.isSome then none
  else
    match e, s.pc with
    | .exits pid, _ =>
      if ∃ c ∈ s.procs, c.pid = pid ∧ ¬ c.ended then
        some { s with procs := s.procs.map (Child.mark pid) }
      else none
    | .acceptFails reaped, .accepting =>
      if reaped.isPerm s.endedPids then
        match handleSigchld s reaped with
        | .error e => some (s.stopped e)
        | .ok s => some s
      else none
    | .accepts reaped ip, .accepting =>
      if reaped.isPerm s.endedPids then
        match handleSigchld s reaped with
        | .error e => some (s.stopped e)
        | .ok s => some (s.count ip)
      else none
    | .forks pid maxClients maxPerIp, .forking ip numThisIp =>
      if pid ∉ s.procs.map (·.pid) then
        some { s with
          procs := s.procs ++ [⟨pid, ip, s.children, numThisIp, maxClients, maxPerIp, false⟩]
          pc := .closing (some pid) ip }
      else none
    | .forkFails, .forking ip _ => some { s with pc := .closing none ip }
    | .closeInterrupted reaped, .closing _ _ =>
      if reaped.isPerm s.endedPids then
        match handleSigchld s reaped with
        | .error e => some (s.stopped e)
        | .ok s => some s
      else none
    | .closes, .closing child ip => some (s.launched child ip)
    | _, _ => none

/-! ## The tables -/

/-- How often each address occurs. -/
def countOf (ips : List Ip) (ip : Ip) : Option Nat :=
  if ips.count ip = 0 then none else some (ips.count ip)

/-- The addresses of processes. -/
def ipOf (procs : List Child) (pid : Nat) : Option Ip :=
  (procs.find? (·.pid = pid)).map (·.ip)

/-- The table counts these addresses. -/
def CountsIps (t : Table Ip Nat) (ips : List Ip) : Prop :=
  Represents t (countOf ips) ∧ t.buckets = 256 ∧ t.hashFunc = hashIp

/-- The table has these processes. -/
def HasPids (t : Table Nat Ip) (procs : List Child) : Prop :=
  Represents t (ipOf procs) ∧ t.buckets = 256 ∧ t.hashFunc = hashPid

/-- The count does not depend on the order. -/
theorem countOf_perm {ips ips' : List Ip} (h : ips.Perm ips') : countOf ips = countOf ips' := by
  ext ip : 1
  rw [countOf, countOf, h.count_eq]

/-- Neither does what the table counts. -/
theorem CountsIps.perm {t : Table Ip Nat} {ips ips' : List Ip} (h : CountsIps t ips)
    (hperm : ips.Perm ips') : CountsIps t ips' :=
  ⟨countOf_perm hperm ▸ h.1, h.2⟩

/-- Every address has its bucket. -/
theorem CountsIps.bucket {t : Table Ip Nat} {ips : List Ip} (h : CountsIps t ips) (ip : Ip) :
    t.hashFunc t.buckets ip < t.buckets := by
  rw [h.2.1, h.2.2]
  exact Nat.mod_lt _ (by omega)

/-- Every number of a process has its bucket. -/
theorem HasPids.bucket {t : Table Nat Ip} {procs : List Child} (h : HasPids t procs) (pid : Nat) :
    t.hashFunc t.buckets pid < t.buckets := by
  rw [h.2.1, h.2.2]
  exact Nat.mod_lt _ (by omega)

/-- One more connection of an address. -/
theorem countOf_cons (ips : List Ip) (ip : Ip) :
    countOf (ip :: ips) = Function.update (countOf ips) ip (some (ips.count ip + 1)) := by
  ext ip' : 1
  by_cases h : ip' = ip
  · subst h
    rw [Function.update_self, countOf, List.count_cons_self, if_neg (Nat.succ_ne_zero _)]
  · rw [Function.update_of_ne h, countOf, countOf, List.count_cons_of_ne (Ne.symm h)]

/-- A new connection is counted. -/
theorem handleIpCount_spec {t : Table Ip Nat} {ips : List Ip} (h : CountsIps t ips) (ip : Ip) :
    ∃ t', handleIpCount t ip = .ok (t', ips.count ip + 1) ∧ CountsIps t' (ip :: ips) := by
  obtain ⟨hrep, hbuckets, hfunc⟩ := h
  have hbucket := CountsIps.bucket ⟨hrep, hbuckets, hfunc⟩ ip
  by_cases hzero : ips.count ip = 0
  · have hnone : countOf ips ip = none := if_pos hzero
    obtain ⟨t', hadd, hbuckets', hfunc', hrep'⟩ := represents_add hrep hbucket hnone 1
    refine ⟨t', ?_, ?_, hbuckets'.trans hbuckets, hfunc'.trans hfunc⟩
    · rw [handleIpCount, lookup_of_none hrep hbucket hnone]
      dsimp only
      rw [hadd, hzero]
    · rwa [countOf_cons, hzero]
  · have hsome : countOf ips ip = some (ips.count ip) := if_neg hzero
    obtain ⟨p, hlookup, hread, hwrite⟩ := represents_write hrep hbucket hsome
    refine ⟨t.write p (ips.count ip + 1), ?_, ?_, hbuckets, hfunc⟩
    · rw [handleIpCount, hlookup]
      dsimp only
      rw [hread]
    · rw [countOf_cons]
      exact hwrite _

/-- A connection that is over is counted no more. -/
theorem dropIpCount_spec {t : Table Ip Nat} {ips : List Ip} {ip : Ip}
    (h : CountsIps t (ip :: ips)) :
    ∃ t', dropIpCount t (some ip) = .ok t' ∧ CountsIps t' ips := by
  obtain ⟨hrep, hbuckets, hfunc⟩ := h
  have hbucket := CountsIps.bucket ⟨hrep, hbuckets, hfunc⟩ ip
  have hsome : countOf (ip :: ips) ip = some (ips.count ip + 1) := by
    rw [countOf_cons, Function.update_self]
  have hrest : Function.update (countOf (ip :: ips)) ip (countOf ips ip) = countOf ips := by
    rw [countOf_cons, Function.update_idem, Function.update_eq_self]
  obtain ⟨p, hlookup, hread, hwrite⟩ := represents_write hrep hbucket hsome
  by_cases hzero : ips.count ip = 0
  · have hwritten := hwrite 0
    have hself : Function.update (countOf (ip :: ips)) ip (some 0) ip = some 0 :=
      Function.update_self ..
    obtain ⟨t', hfree, hbuckets', hfunc', hrep'⟩ := represents_free hwritten hbucket hself
    refine ⟨t', ?_, ?_, hbuckets'.trans hbuckets, hfunc'.trans hfunc⟩
    · rw [dropIpCount, hlookup]
      dsimp only
      rw [hread]
      dsimp only
      rw [if_neg (Nat.succ_ne_zero _), hzero, if_pos rfl, hfree]
    · have hnone : countOf ips ip = none := if_pos hzero
      rwa [Function.update_idem, ← hnone, hrest] at hrep'
  · have hcount : countOf ips ip = some (ips.count ip) := if_neg hzero
    refine ⟨t.write p (ips.count ip), ?_, ?_, hbuckets, hfunc⟩
    · rw [dropIpCount, hlookup]
      dsimp only
      rw [hread]
      dsimp only
      rw [if_neg (Nat.succ_ne_zero _), Nat.add_sub_cancel, if_neg hzero]
    · rw [← hrest, hcount]
      exact hwrite _

/-! ## The processes of the table -/

/-- The processes without one of them. -/
abbrev without (procs : List Child) (pid : Nat) : List Child :=
  procs.filter (·.pid ≠ pid)

/-- A process that is gone has no address. -/
theorem ipOf_without (procs : List Child) (pid : Nat) :
    ipOf (without procs pid) = Function.update (ipOf procs) pid none := by
  ext pid' : 1
  by_cases h : pid' = pid
  · subst h
    rw [Function.update_self, ipOf, Option.map_eq_none_iff, List.find?_eq_none]
    intro c hc
    simpa using (List.mem_filter.mp hc).2
  · rw [Function.update_of_ne h, ipOf, ipOf, List.find?_filter]
    congr 2
    ext c : 1
    by_cases hc : c.pid = pid'
    · simp [hc, h]
    · simp [hc]

/-- A process has its address. -/
theorem ipOf_of_mem {procs : List Child} (hnodup : (procs.map (·.pid)).Nodup) {c : Child}
    (hc : c ∈ procs) : ipOf procs c.pid = some c.ip := by
  cases hfind : procs.find? (·.pid = c.pid) with
  | none =>
      have hne := List.find?_eq_none.mp hfind c hc
      simp at hne
  | some c' =>
      have hpid : c'.pid = c.pid := by simpa using List.find?_some hfind
      have heq := List.inj_on_of_nodup_map hnodup (List.mem_of_find?_eq_some hfind) hc hpid
      rw [ipOf, hfind, heq]
      rfl

/-- Who is no process has none. -/
theorem ipOf_eq_none {procs : List Child} {pid : Nat} (h : pid ∉ procs.map (·.pid)) :
    ipOf procs pid = none := by
  rw [ipOf, Option.map_eq_none_iff, List.find?_eq_none]
  intro c hc
  have hne : c.pid ≠ pid := fun heq => h (List.mem_map.mpr ⟨c, hc, heq⟩)
  simpa using hne

/-- A process and the others. -/
theorem perm_cons_without {procs : List Child} (hnodup : (procs.map (·.pid)).Nodup) {c : Child}
    (hc : c ∈ procs) : procs.Perm (c :: without procs c.pid) := by
  induction procs with
  | nil => cases hc
  | cons c' procs ih =>
      obtain ⟨hfirst, hrest⟩ := List.nodup_cons.mp hnodup
      rcases List.mem_cons.mp hc with rfl | hc
      · have hkept : without procs c.pid = procs := by
          refine List.filter_eq_self.mpr fun d hd => ?_
          have hne : d.pid ≠ c.pid := fun h => hfirst (List.mem_map.mpr ⟨d, hd, h⟩)
          simpa using hne
        have hdrop : without (c :: procs) c.pid = without procs c.pid :=
          List.filter_cons_of_neg (by simp)
        rw [hdrop, hkept]
      · have hne : c'.pid ≠ c.pid := fun h => hfirst (List.mem_map.mpr ⟨c, hc, h.symm⟩)
        rw [without, List.filter_cons_of_pos (by simpa using hne)]
        exact ((ih hrest hc).cons c').trans (List.Perm.swap c c' _)

/-! ## The accounts -/

/-- The process that is forked and not entered into the table yet. -/
def State.pending (s : State) : Option Nat :=
  match s.pc with
  | .closing (some pid) _ => some pid
  | _ => none

/-- The address of the connection in hand, which is counted already. -/
def State.inHand (s : State) : List Ip :=
  match s.pc with
  | .accepting => []
  | .forking ip _ => [ip]
  | .closing _ ip => [ip]

/-- The processes in the table. -/
def State.entered (s : State) : List Child :=
  s.procs.filter fun c => some c.pid ≠ s.pending

/-- The counters and the tables are those of the processes in the table and the connection in
hand. -/
structure Accounts (s : State) : Prop where
  nodup : (s.procs.map (·.pid)).Nodup
  children : s.children = s.entered.length + s.inHand.length
  ips : CountsIps s.ipCount (s.entered.map (·.ip) ++ s.inHand)
  pids : HasPids s.pidIp s.entered
  pending : ∀ pid ip, s.pc = .closing (some pid) ip → ∃ c ∈ s.procs, c.pid = pid ∧ c.ip = ip

/-- The processes in the table are different ones. -/
theorem Accounts.nodup_entered {s : State} (h : Accounts s) : (s.entered.map (·.pid)).Nodup :=
  h.nodup.sublist (List.filter_sublist.map _)

/-- A process of the table is reaped and leaves the accounts. -/
theorem reapOne_spec {s : State} (h : Accounts s) {c : Child} (hc : c ∈ s.entered) :
    ∃ s', reapOne s c.pid = .ok s' ∧ Accounts s' ∧ s'.procs = without s.procs c.pid ∧
      s'.pc = s.pc ∧ s'.fault = s.fault := by
  have hperm := perm_cons_without h.nodup_entered hc
  have hfound : ipOf s.entered c.pid = some c.ip := ipOf_of_mem h.nodup_entered hc
  have hbucket := h.pids.bucket c.pid
  obtain ⟨p, hlookup, hread, -⟩ := represents_write h.pids.1 hbucket hfound
  obtain ⟨pidIp, hfree, hbuckets, hfunc, hrep⟩ := represents_free h.pids.1 hbucket hfound
  have hips : CountsIps s.ipCount
      (c.ip :: ((without s.entered c.pid).map (·.ip) ++ s.inHand)) :=
    h.ips.perm ((hperm.map _).append_right _)
  obtain ⟨ipCount, hdrop, hcounts⟩ := dropIpCount_spec hips
  set s' : State := { s with
    children := s.children - 1, procs := without s.procs c.pid, ipCount := ipCount, pidIp := pidIp }
    with hs'
  have hentered : s'.entered = without s.entered c.pid := by
    change (without s.procs c.pid).filter _ = _
    rw [without, without, State.entered, List.filter_comm]
    rfl
  refine ⟨s', ?_, ⟨?_, ?_, ?_, ?_, ?_⟩, rfl, rfl, rfl⟩
  · rw [reapOne]
    dsimp only
    rw [hlookup]
    dsimp only
    rw [Option.bind_some, hread, hdrop]
    dsimp only
    rw [hfree]
  · exact h.nodup.sublist (List.filter_sublist.map _)
  · have hlength := hperm.length_eq
    rw [hentered]
    change s.children - 1 = _ + s.inHand.length
    rw [h.children, hlength, List.length_cons]
    omega
  · rw [hentered]
    exact hcounts
  · rw [hentered, HasPids, ipOf_without]
    exact ⟨hrep, hbuckets.trans h.pids.2.1, hfunc.trans h.pids.2.2⟩
  · intro pid ip hpc
    obtain ⟨d, hd, hpid, hip⟩ := h.pending pid ip hpc
    refine ⟨d, List.mem_filter.mpr ⟨hd, ?_⟩, hpid, hip⟩
    have hne := (List.mem_filter.mp hc).2
    have hpending : s.pending = some pid := by rw [State.pending, show s.pc = _ from hpc]
    rw [hpending] at hne
    have hcp : c.pid ≠ pid := by simpa using hne
    simpa [hpid] using hcp.symm

/-- The process that is not in the table yet cannot be reaped. -/
theorem reapOne_pending {s : State} (h : Accounts s) {pid : Nat} (hpid : s.pending = some pid) :
    reapOne s pid = .error .wild := by
  have hout : pid ∉ s.entered.map (·.pid) := by
    intro hin
    obtain ⟨c, hc, rfl⟩ := List.mem_map.mp hin
    have hne := (List.mem_filter.mp hc).2
    simp [hpid] at hne
  have hlookup := lookup_of_none h.pids.1 (h.pids.bucket pid) (ipOf_eq_none hout)
  rw [reapOne]
  dsimp only
  rw [hlookup]
  rfl

/-- The handler reaps its processes, unless one of them is not in the table yet. -/
theorem handleSigchld_spec {s : State} (h : Accounts s) {pids : List Nat} (hnodup : pids.Nodup)
    (hprocs : ∀ pid ∈ pids, pid ∈ s.procs.map (·.pid)) :
    ((∃ pid ∈ pids, s.pending = some pid) ∧ ∃ e, handleSigchld s pids = .error e) ∨
      ((∀ pid ∈ pids, s.pending ≠ some pid) ∧ ∃ s', handleSigchld s pids = .ok s' ∧ Accounts s' ∧
        s'.procs = s.procs.filter (fun c => c.pid ∉ pids) ∧ s'.pc = s.pc ∧
        s'.fault = s.fault) := by
  induction pids generalizing s with
  | nil =>
      right
      exact ⟨by simp, s, rfl, h, by simp, rfl, rfl⟩
  | cons pid pids ih =>
      obtain ⟨hfirst, hrest⟩ := List.nodup_cons.mp hnodup
      by_cases hpending : s.pending = some pid
      · left
        refine ⟨⟨pid, List.mem_cons_self .., hpending⟩, .wild, ?_⟩
        rw [handleSigchld, List.foldlM_cons, reapOne_pending h hpending]
        rfl
      · obtain ⟨c, hc, rfl⟩ := List.mem_map.mp (hprocs pid (List.mem_cons_self ..))
        have hentered : c ∈ s.entered :=
          List.mem_filter.mpr ⟨hc, by simpa using fun h => hpending h.symm⟩
        obtain ⟨s₁, hreap, hacc, hprocs₁, hpc, hfault⟩ := reapOne_spec h hentered
        have hsame : s₁.pending = s.pending := by rw [State.pending, State.pending, hpc]
        have hstill : ∀ pid ∈ pids, pid ∈ s₁.procs.map (·.pid) := by
          intro pid' hpid'
          obtain ⟨d, hd, rfl⟩ := List.mem_map.mp (hprocs pid' (List.mem_cons_of_mem _ hpid'))
          have hne : d.pid ≠ c.pid := fun heq => hfirst (heq ▸ hpid')
          rw [hprocs₁]
          exact List.mem_map.mpr ⟨d, List.mem_filter.mpr ⟨hd, by simpa using hne⟩, rfl⟩
        have hfold : handleSigchld s (c.pid :: pids) = handleSigchld s₁ pids := by
          rw [handleSigchld, List.foldlM_cons, hreap]
          rfl
        rw [hfold]
        rcases ih hacc hrest hstill with
          ⟨⟨pid', hpid', hp⟩, herror⟩ | ⟨hnone, s', hrun, hacc', hp', hpc', hf'⟩
        · left
          exact ⟨⟨pid', List.mem_cons_of_mem _ hpid', hsame ▸ hp⟩, herror⟩
        · right
          refine ⟨?_, s', hrun, hacc', ?_, hpc'.trans hpc, hf'.trans hfault⟩
          · intro pid' hpid'
            rcases List.mem_cons.mp hpid' with rfl | hpid'
            · exact hpending
            · exact hsame ▸ hnone pid' hpid'
          · rw [hp', hprocs₁, without, List.filter_filter]
            apply List.filter_congr
            intro d _
            by_cases hd : d.pid = c.pid <;> simp [hd]

/-! ## Steps -/

/-- A `close` is interrupted, and the handler reaps the server that was forked just now. -/
def Races (s : State) (e : Event) : Prop :=
  ∃ reaped pid, e = .closeInterrupted reaped ∧ s.pending = some pid ∧ pid ∈ reaped

/-- Who waits to be reaped is a process. -/
theorem endedPids_spec {s : State} (h : Accounts s) {reaped : List Nat}
    (hperm : reaped.isPerm s.endedPids = true) :
    reaped.Nodup ∧ ∀ pid ∈ reaped, pid ∈ s.procs.map (·.pid) := by
  have hperm := List.isPerm_iff.mp hperm
  have hsub : s.endedPids.Sublist (s.procs.map (·.pid)) := List.filter_sublist.map _
  exact ⟨hperm.nodup_iff.mpr (h.nodup.sublist hsub), fun pid hpid =>
    hsub.subset (hperm.subset hpid)⟩

/-- Outside of `fork` every process is in the table. -/
theorem entered_of_pending {s : State} (h : s.pending = none) : s.entered = s.procs := by
  rw [State.entered, List.filter_eq_self]
  intro c _
  simp [h]

/-- Behind `accept` the new connection is counted. -/
theorem count_spec {s : State} (h : Accounts s) (hpc : s.pc = .accepting) (ip : Ip) :
    (s.count ip).fault = s.fault ∧ Accounts (s.count ip) ∧ (s.count ip).procs = s.procs ∧
      (s.count ip).pc = .forking ip ((s.procs.map (·.ip)).count ip + 1) := by
  have hentered : s.entered = s.procs := entered_of_pending (by rw [State.pending, hpc])
  have hinHand : s.inHand = [] := by rw [State.inHand, hpc]
  have hips := h.ips
  rw [hinHand, List.append_nil] at hips
  obtain ⟨t, hcount, hcounts⟩ := handleIpCount_spec hips ip
  rw [State.count, hcount]
  set s' : State := { s with
    children := s.children + 1, ipCount := t
    pc := .forking ip ((s.entered.map (·.ip)).count ip + 1) } with hs'
  have hentered' : s'.entered = s.entered := by
    rw [hentered]
    exact entered_of_pending rfl
  refine ⟨rfl, ⟨h.nodup, ?_, ?_, ?_, by simp⟩, rfl, by rw [← hentered]⟩
  · change s.children + 1 = _ + 1
    rw [hentered', h.children, hinHand]
    rfl
  · rw [hentered']
    exact hcounts.perm (List.perm_append_singleton ip _).symm
  · rw [hentered']
    exact h.pids

/-- Behind `fork` the new process is not in the table yet. -/
theorem forks_spec {s : State} (h : Accounts s) {ip : Ip} {n pid : Nat} (hpc : s.pc = .forking ip n)
    (hnew : pid ∉ s.procs.map (·.pid)) (maxClients maxPerIp : Nat) :
    Accounts { s with
      procs := s.procs ++ [⟨pid, ip, s.children, n, maxClients, maxPerIp, false⟩]
      pc := .closing (some pid) ip } := by
  have hentered : s.entered = s.procs := entered_of_pending (by rw [State.pending, hpc])
  have hinHand : s.inHand = [ip] := by rw [State.inHand, hpc]
  set c : Child := ⟨pid, ip, s.children, n, maxClients, maxPerIp, false⟩ with hc
  set s' : State := { s with procs := s.procs ++ [c], pc := .closing (some pid) ip } with hs'
  have hkept : s.procs.filter (fun d => some d.pid ≠ some pid) = s.procs := by
    refine List.filter_eq_self.mpr fun d hd => ?_
    have hne : d.pid ≠ pid := fun heq => hnew (List.mem_map.mpr ⟨d, hd, heq⟩)
    simpa using hne
  have hentered' : s'.entered = s.entered := by
    change (s.procs ++ [c]).filter (fun d => some d.pid ≠ some pid) = _
    rw [List.filter_append, hkept, hentered, List.filter_cons_of_neg (by simp [hc])]
    simp
  have hinHand' : s'.inHand = s.inHand := hinHand.symm
  refine ⟨?_, ?_, ?_, ?_, ?_⟩
  · change ((s.procs ++ [c]).map (·.pid)).Nodup
    rw [List.map_append, List.nodup_append]
    refine ⟨h.nodup, List.nodup_singleton _, fun a ha b hb heq => ?_⟩
    rw [List.map_singleton, List.mem_singleton] at hb
    exact hnew (by rwa [heq, hb] at ha)
  · rw [hentered', hinHand']
    exact h.children
  · rw [hentered', hinHand']
    exact h.ips
  · rw [hentered']
    exact h.pids
  · intro pid' ip' hpc'
    cases hpc'
    exact ⟨c, List.mem_append_right _ (List.mem_singleton_self c), rfl, rfl⟩

/-- A failed `fork` changes no account. -/
theorem forkFails_spec {s : State} (h : Accounts s) {ip : Ip} {n : Nat}
    (hpc : s.pc = .forking ip n) : Accounts { s with pc := .closing none ip } := by
  have hentered : s.entered = s.procs := entered_of_pending (by rw [State.pending, hpc])
  have hinHand : s.inHand = [ip] := by rw [State.inHand, hpc]
  have hentered' : ({ s with pc := .closing none ip } : State).entered = s.entered := by
    rw [hentered]
    exact entered_of_pending rfl
  have hinHand' : ({ s with pc := .closing none ip } : State).inHand = s.inHand := hinHand.symm
  refine ⟨h.nodup, ?_, ?_, ?_, by simp⟩
  · rw [hentered', hinHand']
    exact h.children
  · rw [hentered', hinHand']
    exact h.ips
  · rw [hentered']
    exact h.pids

/-- Behind `close` the process is entered, or the connection is taken back. -/
theorem launched_spec {s : State} (h : Accounts s) {child : Option Nat} {ip : Ip}
    (hpc : s.pc = .closing child ip) :
    (s.launched child ip).fault = s.fault ∧ Accounts (s.launched child ip) := by
  have hinHand : s.inHand = [ip] := by rw [State.inHand, hpc]
  have hips := h.ips
  have hchildren := h.children
  rw [hinHand] at hips hchildren
  cases child with
  | none =>
      have hentered : s.entered = s.procs := entered_of_pending (by rw [State.pending, hpc])
      obtain ⟨t, hdrop, hcounts⟩ :=
        dropIpCount_spec (hips.perm (List.perm_append_singleton ip _))
      rw [State.launched, hdrop]
      set s' : State :=
        { s with children := s.children - 1, ipCount := t, pc := .accepting } with hs'
      have hentered' : s'.entered = s.entered := by
        rw [hentered]
        exact entered_of_pending rfl
      refine ⟨rfl, h.nodup, ?_, ?_, ?_, by simp⟩
      · change s.children - 1 = _
        rw [hentered', hchildren]
        rfl
      · rw [hentered']
        exact hcounts.perm (by rw [State.inHand, List.append_nil])
      · rw [hentered']
        exact h.pids
  | some pid =>
      obtain ⟨c, hc, rfl, rfl⟩ := h.pending pid ip hpc
      have hperm := perm_cons_without h.nodup hc
      have hentered : s.entered = without s.procs c.pid := by
        rw [State.entered, State.pending, hpc]
        exact List.filter_congr fun d _ => by simp
      have hnone : ipOf s.entered c.pid = none := by
        rw [hentered, ipOf_without, Function.update_self]
      obtain ⟨t, hadd, hbuckets, hfunc, hrep⟩ :=
        represents_add h.pids.1 (h.pids.bucket c.pid) hnone c.ip
      rw [State.launched, hadd]
      set s' : State := { s with pidIp := t, pc := .accepting } with hs'
      have hentered' : s'.entered = s.procs := entered_of_pending rfl
      refine ⟨rfl, h.nodup, ?_, ?_, ?_, by simp⟩
      · change s.children = _
        rw [hentered', hchildren, hentered, hperm.length_eq]
        rfl
      · rw [hentered']
        refine hips.perm ?_
        rw [hentered]
        refine (List.perm_append_singleton c.ip _).trans ?_
        change ((c :: without s.procs c.pid).map (·.ip)).Perm _
        rw [State.inHand, List.append_nil]
        exact hperm.symm.map _
      · rw [hentered']
        refine ⟨?_, hbuckets.trans h.pids.2.1, hfunc.trans h.pids.2.2⟩
        have hall : Function.update (ipOf s.entered) c.pid (some c.ip) = ipOf s.procs := by
          rw [hentered, ipOf_without, Function.update_idem, ← ipOf_of_mem h.nodup hc,
            Function.update_eq_self]
        rwa [hall] at hrep

/-- Who is marked keeps its number. -/
theorem mark_pid (pid : Nat) (c : Child) : (c.mark pid).pid = c.pid := by
  rw [Child.mark]
  split <;> rfl

/-- Who is marked keeps its address. -/
theorem mark_ip (pid : Nat) (c : Child) : (c.mark pid).ip = c.ip := by
  rw [Child.mark]
  split <;> rfl

/-- Who is marked keeps what it was told. -/
theorem mark_told (pid : Nat) (c : Child) :
    (c.mark pid).numClients = c.numClients ∧ (c.mark pid).numThisIp = c.numThisIp := by
  rw [Child.mark]
  split <;> exact ⟨rfl, rfl⟩

/-- A server that ends stays in the accounts until it is reaped. -/
theorem exits_spec {s : State} (h : Accounts s) (pid : Nat) :
    Accounts { s with procs := s.procs.map (Child.mark pid) } := by
  set mark := Child.mark pid with hmark
  have hpid : ∀ c, (mark c).pid = c.pid := fun c => mark_pid pid c
  have hip : ∀ c, (mark c).ip = c.ip := fun c => mark_ip pid c
  set s' : State := { s with procs := s.procs.map mark } with hs'
  have hentered : s'.entered = s.entered.map mark := by
    change (s.procs.map mark).filter (fun c => some c.pid ≠ s.pending) = _
    rw [List.filter_map, State.entered]
    congr 1
    exact List.filter_congr fun c _ => by simp [hpid]
  have hips : s'.entered.map (·.ip) = s.entered.map (·.ip) := by
    rw [hentered, List.map_map]
    exact List.map_congr_left fun c _ => hip c
  have hof : ipOf s'.entered = ipOf s.entered := by
    ext pid' : 1
    rw [hentered, ipOf, ipOf, List.find?_map, Option.map_map]
    have hsame : ((fun c : Child => decide (c.pid = pid')) ∘ mark) =
        fun c => decide (c.pid = pid') := by
      ext c : 1
      simp [hpid]
    have hread : (fun c : Child => c.ip) ∘ mark = fun c => c.ip := by
      ext c : 1
      exact hip c
    rw [hsame, hread]
  have hpids : (s.procs.map mark).map (·.pid) = s.procs.map (·.pid) := by
    rw [List.map_map]
    exact List.map_congr_left fun c _ => hpid c
  refine ⟨?_, ?_, ?_, ?_, ?_⟩
  · change ((s.procs.map mark).map (·.pid)).Nodup
    rw [hpids]
    exact h.nodup
  · rw [hentered, List.length_map]
    exact h.children
  · rw [hips]
    exact h.ips
  · rw [HasPids, hof]
    exact h.pids
  · intro pid' ip hpc
    obtain ⟨c, hc, hcpid, hcip⟩ := h.pending pid' ip hpc
    exact ⟨mark c, List.mem_map_of_mem hc, (hpid c).trans hcpid, (hip c).trans hcip⟩

/-- The handler while no process is between `fork` and the table. -/
theorem reaped_spec {s : State} (h : Accounts s) (hpending : s.pending = none) {reaped : List Nat}
    (hperm : reaped.isPerm s.endedPids = true) :
    ∃ s', handleSigchld s reaped = .ok s' ∧ Accounts s' ∧
      s'.procs = s.procs.filter (fun c => c.pid ∉ reaped) ∧ s'.pc = s.pc ∧
      s'.fault = s.fault := by
  obtain ⟨hnodup, hprocs⟩ := endedPids_spec h hperm
  rcases handleSigchld_spec h hnodup hprocs with ⟨⟨pid, -, hpid⟩, -⟩ | ⟨-, hreaped⟩
  · rw [hpending] at hpid
    cases hpid
  · exact hreaped

/-- What a step does. -/
inductive Did (s : State) : Event → State → Prop where
  | exits (pid : Nat) : Did s (.exits pid) { s with procs := s.procs.map (Child.mark pid) }
  | reaps {e : Event} {s' : State} (reaped : List Nat) (hevent : ¬ Races s e) (hacc : Accounts s')
      (hprocs : s'.procs = s.procs.filter fun c => c.pid ∉ reaped) (hpc : s'.pc = s.pc)
      (hhere : ∀ ip n, s.pc ≠ .forking ip n) (hfault : s'.fault = s.fault) : Did s e s'
  | accepts {s₁ : State} (reaped : List Nat) (ip : Ip) (hacc : Accounts s₁)
      (hprocs : s₁.procs = s.procs.filter fun c => c.pid ∉ reaped) (hpc : s₁.pc = .accepting)
      (hfault : s₁.fault = s.fault) : Did s (.accepts reaped ip) (s₁.count ip)
  | forks {ip : Ip} {n : Nat} (pid maxClients maxPerIp : Nat) (hpc : s.pc = .forking ip n)
      (hnew : pid ∉ s.procs.map (·.pid)) : Did s (.forks pid maxClients maxPerIp) { s with
        procs := s.procs ++ [⟨pid, ip, s.children, n, maxClients, maxPerIp, false⟩]
        pc := .closing (some pid) ip }
  | forkFails {ip : Ip} {n : Nat} (hpc : s.pc = .forking ip n) :
      Did s .forkFails { s with pc := .closing none ip }
  | closes {child : Option Nat} {ip : Ip} (hpc : s.pc = .closing child ip) :
      Did s .closes (s.launched child ip)
  | races {e : Event} (hrace : Races s e) (fault : Fault) : Did s e (s.stopped fault)

/-- Only the handler in `close` can race. -/
theorem not_races {s : State} {e : Event} (h : ∀ reaped, e ≠ .closeInterrupted reaped) :
    ¬ Races s e := by
  rintro ⟨reaped, pid, rfl, -, -⟩
  exact h reaped rfl

/-- A listener that went wrong does nothing any more. -/
theorem fault_of_step {s s' : State} {e : Event} (hstep : step s e = some s') : s.fault = none := by
  unfold step at hstep
  split at hstep
  · cases hstep
  · rename_i hfault
    simpa using hfault

/-- The handler in `close` reaps, or races with the process that was just made. -/
theorem did_closeInterrupted {s s' : State} (h : Accounts s) {child : Option Nat} {ip : Ip}
    (hpc : s.pc = .closing child ip) {reaped : List Nat}
    (hperm : reaped.isPerm s.endedPids = true)
    (hhandled : (match handleSigchld s reaped with
      | .error e => some (s.stopped e)
      | .ok s => some s) = some s') : Did s (.closeInterrupted reaped) s' := by
  obtain ⟨hnodup, hprocs⟩ := endedPids_spec h hperm
  rcases handleSigchld_spec h hnodup hprocs with
    ⟨⟨pid, hmem, hpid⟩, e, hrun⟩ | ⟨hnone, s₁, hrun, hacc, hprocs₁, hpc₁, hf⟩
  · rw [hrun] at hhandled
    cases hhandled
    exact .races ⟨reaped, pid, rfl, hpid, hmem⟩ e
  · rw [hrun] at hhandled
    cases hhandled
    refine .reaps reaped ?_ hacc hprocs₁ hpc₁ (by simp [hpc]) hf
    rintro ⟨reaped', pid, ⟨⟩, hpid, hmem⟩
    exact hnone pid hmem hpid

/-- Every step is one of these. -/
theorem did_of_step {s s' : State} (h : Accounts s) {e : Event} (hstep : step s e = some s') :
    Did s e s' := by
  unfold step at hstep
  split at hstep
  · cases hstep
  cases e with
  | exits pid =>
      dsimp only at hstep
      split at hstep
      · cases hstep
        exact .exits pid
      · cases hstep
  | acceptFails reaped =>
      cases hpc : s.pc with
      | accepting =>
          rw [hpc] at hstep
          dsimp only at hstep
          split at hstep
          · rename_i hperm
            obtain ⟨s₁, hrun, hacc, hprocs, hpc₁, hf⟩ :=
              reaped_spec h (by rw [State.pending, hpc]) hperm
            rw [hrun] at hstep
            cases hstep
            exact .reaps reaped (not_races (by simp)) hacc hprocs hpc₁ (by simp [hpc]) hf
          · cases hstep
      | _ => simp [hpc] at hstep
  | accepts reaped ip =>
      cases hpc : s.pc with
      | accepting =>
          rw [hpc] at hstep
          dsimp only at hstep
          split at hstep
          · rename_i hperm
            obtain ⟨s₁, hrun, hacc, hprocs, hpc₁, hf⟩ :=
              reaped_spec h (by rw [State.pending, hpc]) hperm
            rw [hrun] at hstep
            cases hstep
            exact .accepts reaped ip hacc hprocs (hpc₁.trans hpc) hf
          · cases hstep
      | _ => simp [hpc] at hstep
  | forks pid maxClients maxPerIp =>
      cases hpc : s.pc with
      | forking ip n =>
          rw [hpc] at hstep
          dsimp only at hstep
          split at hstep
          · rename_i hnew
            cases hstep
            exact .forks pid maxClients maxPerIp hpc hnew
          · cases hstep
      | _ => simp [hpc] at hstep
  | forkFails =>
      cases hpc : s.pc with
      | forking ip n =>
          rw [hpc] at hstep
          cases hstep
          exact .forkFails hpc
      | _ => simp [hpc] at hstep
  | closeInterrupted reaped =>
      cases hpc : s.pc with
      | closing child ip =>
          rw [hpc] at hstep
          dsimp only at hstep
          split at hstep
          · rename_i hperm
            exact did_closeInterrupted h hpc hperm hstep
          · cases hstep
      | _ => simp [hpc] at hstep
  | closes =>
      cases hpc : s.pc with
      | closing child ip =>
          rw [hpc] at hstep
          cases hstep
          exact .closes hpc
      | _ => simp [hpc] at hstep

/-- A step keeps the accounts, unless it is a race; then the listener goes wrong. -/
theorem step_spec {s s' : State} (h : Accounts s) {e : Event} (hstep : step s e = some s') :
    (Races s e ∧ s'.fault.isSome) ∨ (¬ Races s e ∧ s'.fault = none ∧ Accounts s') := by
  have hfault := fault_of_step hstep
  cases did_of_step h hstep with
  | exits pid => exact Or.inr ⟨not_races (by simp), hfault, exits_spec h pid⟩
  | reaps reaped hevent hacc hprocs hpc hhere hf => exact Or.inr ⟨hevent, hf.trans hfault, hacc⟩
  | accepts reaped ip hacc hprocs hpc hf =>
      obtain ⟨hf', hacc', -, -⟩ := count_spec hacc hpc ip
      exact Or.inr ⟨not_races (by simp), hf'.trans (hf.trans hfault), hacc'⟩
  | forks pid maxClients maxPerIp hpc hnew =>
      exact Or.inr ⟨not_races (by simp), hfault, forks_spec h hpc hnew maxClients maxPerIp⟩
  | forkFails hpc => exact Or.inr ⟨not_races (by simp), hfault, forkFails_spec h hpc⟩
  | closes hpc =>
      obtain ⟨hf, hacc⟩ := launched_spec h hpc
      exact Or.inr ⟨not_races (by simp), hf.trans hfault, hacc⟩
  | races hrace fault => exact Or.inl ⟨hrace, rfl⟩

/-! ## Runs -/

/-- At the start there is nothing to account for. -/
theorem accounts_start : Accounts State.start := by
  refine ⟨List.nodup_nil, rfl, ⟨?_, rfl, rfl⟩, ⟨?_, rfl, rfl⟩, by simp [State.start]⟩
  · exact represents_hashAlloc 256 hashIp
  · exact represents_hashAlloc 256 hashPid

/-- The accounts hold as long as nothing has gone wrong. -/
theorem accounts_step {s s' : State} {e : Event} (h : s.fault = none → Accounts s)
    (hstep : step s e = some s') : s'.fault = none → Accounts s' := by
  intro hfine
  rcases step_spec (h (fault_of_step hstep)) hstep with ⟨-, hsome⟩ | ⟨-, -, hacc⟩
  · rw [hfine] at hsome
    cases hsome
  · exact hacc

/-- The accounts are right as long as nothing goes wrong. -/
theorem accounts_of_run {s : State} {es : List Event} (hrun : run step State.start es = some s) :
    s.fault = none → Accounts s :=
  run_invariant_of_step (P := fun s => s.fault = none → Accounts s)
    (fun _ _ _ h hstep => accounts_step h hstep) (fun _ => accounts_start) hrun

/-- Over any run, the listener goes wrong exactly when an interrupted `close` reaps the server
that was forked just now. -/
theorem faultless_iff {s : State} {es : List Event} (hrun : run step State.start es = some s) :
    (∀ n t, run step State.start (es.take n) = some t → t.fault = none) ↔
      RunMeets step (fun s e => ¬ Races s e) State.start es := by
  have hiff : (∀ n t, run step State.start (es.take n) = some t → t.fault = none) ↔
      State.start.fault = none ∧ RunMeets step (fun s e => ¬ Races s e) State.start es := by
    refine run_states_iff (I := fun s => s.fault = none → Accounts s)
      (fun s e s' h hstep => accounts_step h hstep) (fun s e s' h hfine hstep => ?_)
      (fun _ => accounts_start) hrun
    rcases step_spec (h hfine) hstep with ⟨hrace, hsome⟩ | ⟨hquiet, hnone, -⟩
    · refine iff_of_false ?_ (not_not_intro hrace)
      intro hnone
      rw [hnone] at hsome
      cases hsome
    · exact iff_of_true hnone hquiet
  rw [hiff]
  exact and_iff_right rfl

/-- A server that ends before the listener has closed its connection. -/
def racing : List Event :=
  [.accepts [] [10, 0, 0, 1], .forks 7 0 0, .exits 7, .closeInterrupted [7]]

/-- A run with a race. -/
theorem faultless_iff_racing :
    (∀ n t, run step State.start (racing.take n) = some t → t.fault = none) ↔
      RunMeets step (fun s e => ¬ Races s e) State.start racing :=
  faultless_iff (s := (run step State.start racing).get (by decide)) (Option.some_get _).symm

/-- What a lookup finds. -/
def lookupValue {κ ν : Type} [DecidableEq κ] (t : Table κ ν) (key : κ) :
    Except Fault (Option ν) :=
  match hashLookupEntry t key with
  | .error e => .error e
  | .ok p => .ok (p.bind t.read)

/-- The table has the value that it stands for. -/
theorem lookupValue_of_represents {κ ν : Type} [DecidableEq κ] {t : Table κ ν} {m : κ → Option ν}
    (h : Represents t m) {key : κ} (hkey : t.hashFunc t.buckets key < t.buckets) :
    lookupValue t key = .ok (m key) := by
  cases hvalue : m key with
  | none =>
      rw [lookupValue, lookup_of_none h hkey hvalue]
      rfl
  | some v =>
      obtain ⟨p, hlookup, hread, -⟩ := represents_write h hkey hvalue
      rw [lookupValue, hlookup]
      dsimp only
      rw [Option.bind_some, hread]

/-- In every state between two connections the counter is the number of processes that there
are, the table of addresses has for each address how many of them serve it, and the table of
processes has exactly their addresses. -/
theorem accounts_exact {s : State} {es : List Event} (hrun : run step State.start es = some s)
    (hfine : s.fault = none) (hpc : s.pc = .accepting) :
    s.children = s.procs.length ∧
      (∀ ip, lookupValue s.ipCount ip = .ok (countOf (s.procs.map (·.ip)) ip)) ∧
      ∀ pid, lookupValue s.pidIp pid = .ok (ipOf s.procs pid) := by
  have hacc := accounts_of_run hrun hfine
  have hentered : s.entered = s.procs := entered_of_pending (by rw [State.pending, hpc])
  have hinHand : s.inHand = [] := by rw [State.inHand, hpc]
  have hchildren := hacc.children
  have hips := hacc.ips
  have hpids := hacc.pids
  rw [hentered, hinHand] at hchildren hips
  rw [hentered] at hpids
  rw [List.append_nil] at hips
  exact ⟨hchildren, fun ip => lookupValue_of_represents hips.1 (hips.bucket ip),
    fun pid => lookupValue_of_represents hpids.1 (hpids.bucket pid)⟩

/-- Two connections of one address, with a limit of one. -/
def twice : List Event :=
  [.accepts [] [10, 0, 0, 1], .forks 7 1 1, .closes, .accepts [] [10, 0, 0, 1], .forks 8 1 1,
    .closes]

/-- The accounts of a run with two connections. -/
theorem accounts_exact_twice :
    ∃ s, run step State.start twice = some s ∧ s.children = s.procs.length ∧
      (∀ ip, lookupValue s.ipCount ip = .ok (countOf (s.procs.map (·.ip)) ip)) ∧
      ∀ pid, lookupValue s.pidIp pid = .ok (ipOf s.procs pid) :=
  ⟨(run step State.start twice).get (by decide), (Option.some_get _).symm,
    accounts_exact (Option.some_get _).symm (by decide) (by decide)⟩

/-! ## Limits -/

/-- What each process was told of the number of clients is no less than the number of older
processes and itself, in all and for its address. -/
def Ranked (procs : List Child) : Prop :=
  ∀ before c after, procs = before ++ c :: after →
    before.length < c.numClients ∧ (before.filter (·.ip = c.ip)).length < c.numThisIp

/-- The processes that are left keep their ranks. -/
theorem Ranked.filter {procs : List Child} (h : Ranked procs) (p : Child → Bool) :
    Ranked (procs.filter p) := by
  intro before c after heq
  obtain ⟨l₁, l₂, rfl, rfl, hl₂⟩ := List.filter_eq_append_iff.mp heq
  obtain ⟨l₃, l₄, rfl, -, -, rfl⟩ := List.filter_eq_cons_iff.mp hl₂
  obtain ⟨hall, hip⟩ := h (l₁ ++ l₃) c l₄ (by simp)
  have hle := (List.filter_sublist (p := p) (l := l₁)).length_le
  have hle' := (List.filter_sublist (p := p) (l := l₁)).filter (fun d => decide (d.ip = c.ip))
  have hle'' := hle'.length_le
  rw [List.length_append] at hall
  rw [List.filter_append, List.length_append] at hip
  omega

/-- So do processes that are only marked. -/
theorem Ranked.map {procs : List Child} (h : Ranked procs) {f : Child → Child}
    (hf : ∀ c, (f c).ip = c.ip ∧ (f c).numClients = c.numClients ∧
      (f c).numThisIp = c.numThisIp) : Ranked (procs.map f) := by
  intro before c after heq
  obtain ⟨l₁, l₂, rfl, rfl, hl₂⟩ := List.map_eq_append_iff.mp heq
  obtain ⟨d, l₃, rfl, rfl, rfl⟩ := List.map_eq_cons_iff.mp hl₂
  obtain ⟨hall, hip⟩ := h l₁ d l₃ rfl
  obtain ⟨hfip, hfclients, hfthis⟩ := hf d
  rw [List.length_map, List.filter_map, List.length_map, hfclients, hfthis]
  refine ⟨hall, ?_⟩
  have hsame :
      ((fun e : Child => decide (e.ip = (f d).ip)) ∘ f) = fun e => decide (e.ip = d.ip) := by
    ext e : 1
    simp [(hf e).1, hfip]
  rwa [hsame]

/-- A new process ranks behind the others. -/
theorem Ranked.concat {procs : List Child} (h : Ranked procs) {c : Child}
    (hall : procs.length < c.numClients)
    (hip : (procs.filter (·.ip = c.ip)).length < c.numThisIp) : Ranked (procs ++ [c]) := by
  intro before d after heq
  rcases List.eq_nil_or_concat after with rfl | ⟨after, e, rfl⟩
  · obtain ⟨rfl, hcd⟩ := List.append_inj' heq rfl
    cases hcd
    exact ⟨hall, hip⟩
  · rw [List.concat_eq_append, ← List.cons_append, ← List.append_assoc] at heq
    exact h before d after (List.append_inj' heq rfl).1

/-- The ranks of the processes, and what the next one will be told. -/
structure Limits (s : State) : Prop where
  ranked : Ranked s.procs
  told : ∀ ip n, s.pc = .forking ip n → (s.procs.filter (·.ip = ip)).length < n

/-- Processes of an address are counted by it. -/
theorem length_filter_ip (procs : List Child) (ip : Ip) :
    (procs.filter (·.ip = ip)).length = (procs.map (·.ip)).count ip := by
  rw [List.count_eq_countP, List.countP_map, List.countP_eq_length_filter]
  congr 1
  apply List.filter_congr
  intro c _
  simp [beq_eq_decide]

/-- Behind `close` the processes are the same, and the loop starts again. -/
theorem launched_keeps (s : State) (child : Option Nat) (ip : Ip) :
    (s.launched child ip).procs = s.procs ∧
      ((s.launched child ip).pc = .accepting ∨ (s.launched child ip).pc = s.pc) := by
  cases child with
  | none =>
      rw [State.launched]
      split
      · exact ⟨rfl, Or.inr rfl⟩
      · exact ⟨rfl, Or.inl rfl⟩
  | some pid =>
      rw [State.launched]
      split
      · exact ⟨rfl, Or.inr rfl⟩
      · exact ⟨rfl, Or.inl rfl⟩

/-- Every step keeps the ranks. -/
theorem limits_step {s s' : State} {e : Event} (hacc : Accounts s) (h : Limits s)
    (hstep : step s e = some s') : Limits s' := by
  cases did_of_step hacc hstep with
  | exits pid =>
      refine ⟨h.ranked.map fun c => ⟨mark_ip pid c, mark_told pid c⟩, fun ip n hpc => ?_⟩
      have htold := h.told ip n hpc
      have hips : (s.procs.map (Child.mark pid)).map (·.ip) = s.procs.map (·.ip) := by
        rw [List.map_map]
        exact List.map_congr_left fun c _ => mark_ip pid c
      rw [length_filter_ip] at htold ⊢
      rwa [hips]
  | reaps reaped hevent hacc' hprocs hpc hhere hf =>
      refine ⟨hprocs ▸ h.ranked.filter _, fun ip n hforking => ?_⟩
      exact absurd (hpc.symm.trans hforking) (hhere ip n)
  | accepts reaped ip hacc₁ hprocs hpc hf =>
      obtain ⟨-, -, hsame, hforked⟩ := count_spec hacc₁ hpc ip
      refine ⟨hsame ▸ hprocs ▸ h.ranked.filter _, fun ip' n hforking => ?_⟩
      rw [hforked] at hforking
      cases hforking
      rw [hsame, length_filter_ip]
      exact Nat.lt_succ_self _
  | forks pid maxClients maxPerIp hpc hnew =>
      rename_i ip n
      have hchildren := hacc.children
      rw [entered_of_pending (by rw [State.pending, hpc]), State.inHand, hpc] at hchildren
      refine ⟨h.ranked.concat ?_ (h.told ip n hpc), by simp⟩
      change s.procs.length < s.children
      rw [hchildren]
      exact Nat.lt_succ_self _
  | forkFails hpc => exact ⟨h.ranked, by simp⟩
  | closes hpc =>
      rename_i child ip
      obtain ⟨hprocs, hkept⟩ := launched_keeps s child ip
      refine ⟨hprocs ▸ h.ranked, fun ip' n hforking => ?_⟩
      rcases hkept with hkept | hkept
      · rw [hkept] at hforking
        cases hforking
      · rw [hkept, hpc] at hforking
        cases hforking
  | races hrace fault => exact ⟨h.ranked, h.told⟩

/-- The limits hold in every state. -/
theorem limits_of_run {s : State} {es : List Event} (hrun : run step State.start es = some s) :
    Limits s := by
  have hboth := run_invariant_of_step (P := fun s => (s.fault = none → Accounts s) ∧ Limits s)
    (fun s e s' h hstep => ⟨accounts_step h.1 hstep,
      limits_step (h.1 (fault_of_step hstep)) h.2 hstep⟩)
    ⟨fun _ => accounts_start, ⟨fun before c after heq => by simp [State.start] at heq, by
      simp [State.start]⟩⟩ hrun
  exact hboth.2

/-- The processes that `check_limits` has let in and that have not ended. -/
def admitted (s : State) : List Child :=
  s.procs.filter fun c => checkLimits c && !c.ended

/-- The servers of a run have their limits from its events. -/
theorem limits_of_events {P : Nat → Nat → Prop} {s : State} {es : List Event}
    (hrun : run step State.start es = some s)
    (hes : ∀ pid maxClients maxPerIp, .forks pid maxClients maxPerIp ∈ es → P maxClients maxPerIp) :
    ∀ c ∈ s.procs, P c.maxClients c.maxPerIp := by
  have hmeets : RunMeets step (fun _ e => ∀ pid maxClients maxPerIp,
      e = .forks pid maxClients maxPerIp → P maxClients maxPerIp) State.start es :=
    runMeets_of_forall (fun e he _ pid maxClients maxPerIp heq =>
      hes pid maxClients maxPerIp (by rw [← heq]; exact he)) _
  have hboth := run_invariant
    (P := fun s => (s.fault = none → Accounts s) ∧ ∀ c ∈ s.procs, P c.maxClients c.maxPerIp)
    (fun s e s' h hmeet hstep => ⟨accounts_step h.1 hstep, ?_⟩)
    ⟨fun _ => accounts_start, by simp [State.start]⟩ hmeets hrun
  · exact hboth.2
  · cases did_of_step (h.1 (fault_of_step hstep)) hstep with
    | exits pid =>
        intro c hc
        obtain ⟨d, hd, rfl⟩ := List.mem_map.mp hc
        have hkept :
            (d.mark pid).maxClients = d.maxClients ∧ (d.mark pid).maxPerIp = d.maxPerIp := by
          rw [Child.mark]
          split <;> exact ⟨rfl, rfl⟩
        rw [hkept.1, hkept.2]
        exact h.2 d hd
    | reaps reaped hevent hacc hprocs hpc hhere hf =>
        rw [hprocs]
        exact fun c hc => h.2 c (List.mem_filter.mp hc).1
    | accepts reaped ip hacc hprocs hpc hf =>
        rw [(count_spec hacc hpc ip).2.2.1, hprocs]
        exact fun c hc => h.2 c (List.mem_filter.mp hc).1
    | forks pid maxClients maxPerIp hpc hnew =>
        intro c hc
        rcases List.mem_append.mp hc with hc | hc
        · exact h.2 c hc
        · rw [List.mem_singleton.mp hc]
          exact hmeet pid maxClients maxPerIp rfl
    | forkFails hpc => exact h.2
    | closes hpc =>
        rw [(launched_keeps s _ _).1]
        exact h.2
    | races hrace fault => exact h.2

/-- The last one of the chosen processes knows how many they are. -/
theorem length_filter_lt {procs : List Child} {p : Child → Bool} {n : Nat}
    (h : ∀ before c after, procs = before ++ c :: after → p c = true →
      (before.filter p).length < n) : (procs.filter p).length ≤ n := by
  rcases List.eq_nil_or_concat (procs.filter p) with hnil | ⟨first, c, hlast⟩
  · rw [hnil]
    exact Nat.zero_le n
  · rw [List.concat_eq_append] at hlast
    obtain ⟨l₁, l₂, rfl, rfl, hl₂⟩ := List.filter_eq_append_iff.mp hlast
    obtain ⟨l₃, l₄, rfl, hl₃, hc, -⟩ := List.filter_eq_cons_iff.mp hl₂
    have hlt := h (l₁ ++ l₃) c l₄ (by simp) hc
    rw [List.filter_append, List.length_append] at hlt
    rw [hlast, List.length_append, List.length_singleton]
    omega

/-- When every server is launched with a limit of at most so many clients, there are never
more admitted ones; and with a limit for one address, never more for any address. -/
theorem admitted_le {s : State} {es : List Event} (hrun : run step State.start es = some s)
    (limit perIp : Nat) :
    ((∀ pid maxClients maxPerIp, .forks pid maxClients maxPerIp ∈ es →
        0 < maxClients ∧ maxClients ≤ limit) → (admitted s).length ≤ limit) ∧
      ((∀ pid maxClients maxPerIp, .forks pid maxClients maxPerIp ∈ es →
        0 < maxPerIp ∧ maxPerIp ≤ perIp) →
        ∀ ip, ((admitted s).filter (·.ip = ip)).length ≤ perIp) := by
  have hranked := (limits_of_run hrun).ranked
  constructor
  · intro hes
    have hlimits := limits_of_events (P := fun maxClients _ => 0 < maxClients ∧ maxClients ≤ limit)
      hrun hes
    refine length_filter_lt fun before c after heq hc => ?_
    obtain ⟨hpos, hle⟩ := hlimits c (by rw [heq]; simp)
    have hrank := (hranked before c after heq).1
    have hfilter := (List.filter_sublist (p := fun c => checkLimits c && !c.ended)
      (l := before)).length_le
    simp only [Bool.and_eq_true, checkLimits, decide_eq_true_eq] at hc
    omega
  · intro hes ip
    have hlimits := limits_of_events (P := fun _ maxPerIp => 0 < maxPerIp ∧ maxPerIp ≤ perIp)
      hrun hes
    rw [admitted, List.filter_filter]
    refine length_filter_lt fun before c after heq hc => ?_
    obtain ⟨hpos, hle⟩ := hlimits c (by rw [heq]; simp)
    have hrank := (hranked before c after heq).2
    simp only [Bool.and_eq_true, checkLimits, decide_eq_true_eq] at hc
    obtain ⟨rfl, hc, -⟩ := hc
    have hfilter : (before.filter fun d => decide (d.ip = c.ip) &&
        (checkLimits d && !d.ended)).length ≤ (before.filter (·.ip = c.ip)).length := by
      rw [← List.filter_filter]
      exact (List.filter_sublist.filter _).length_le
    omega

/-- Of two clients one is let in where one is the limit. -/
theorem admitted_le_twice :
    ((∀ pid maxClients maxPerIp, .forks pid maxClients maxPerIp ∈ twice →
        0 < maxClients ∧ maxClients ≤ 1) →
        (admitted ((run step State.start twice).get (by decide))).length ≤ 1) ∧
      ((∀ pid maxClients maxPerIp, .forks pid maxClients maxPerIp ∈ twice →
        0 < maxPerIp ∧ maxPerIp ≤ 1) →
        ∀ ip, ((admitted ((run step State.start twice).get (by decide))).filter
          (·.ip = ip)).length ≤ 1) :=
  admitted_le (s := (run step State.start twice).get (by decide)) (Option.some_get _).symm 1 1

end Listener
end Server
end ModpackInstaller
