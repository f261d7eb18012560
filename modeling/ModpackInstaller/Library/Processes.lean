import ModpackInstaller.Library.Run

/-!
# Processes with channels between them

A process sends items, receives items and works on a state of its own.  A client and a
server are joined by two channels; either of them takes the next step, in any order.  The
server is a loop that starts anew when it is done.  Behind a side that has died, the other
one reads the end of the channel.

Main results:

- Theorem {lit}`settles_of_run`: where the steps of different parties commute, one run to a
  state without a step determines how all runs end, and how long they are.
- Theorem {lit}`Duo.diamond`: the steps of the two processes commute.
- Theorem {lit}`Duo.leads_call`: a call with its reply, put together from what each side
  does on its own.
- Theorem {lit}`Duo.unbroken_of_settles`: where all runs end with empty channels, nobody writes
  to a side that has died.
- Theorem {lit}`Exposed.meets_of_run`: what each round of the server keeps is kept over
  every run, whatever the client writes, and where it stops.
- Theorem {lit}`Proc.Alike.bind`: processes that end alike are put together.
-/

namespace ModpackInstaller
namespace Library

/-! ## Steps that commute -/

section Commuting

variable {σ ι : Type*} {step : σ → ι → Option σ}

/-- The steps of different parties commute. -/
def Commuting (step : σ → ι → Option σ) : Prop :=
  ∀ s a b t u, a ≠ b → step s a = some t → step s b = some u →
    ∃ v, step t b = some v ∧ step u a = some v

/-- All runs end in one state, behind as many steps. -/
def Settles (step : σ → ι → Option σ) (start final : σ) : Prop :=
  (∀ a, step final a = none) ∧ ∃ n, ∀ es t, run step start es = some t →
    ∃ rest, run step t rest = some final ∧ es.length + rest.length = n

/-- A step can be taken first. -/
theorem run_after_step (hcomm : Commuting step) {s t final : σ} {a : ι} {es : List ι}
    (hquiet : ∀ a, step final a = none) (hstep : step s a = some t)
    (hrun : run step s es = some final) :
    ∃ rest, run step t rest = some final ∧ rest.length + 1 = es.length := by
  induction es generalizing s t with
  | nil =>
      rw [run_nil, Option.some.injEq] at hrun
      rw [hrun, hquiet] at hstep
      cases hstep
  | cons b es ih =>
      rw [run_cons, Option.bind_eq_some_iff] at hrun
      obtain ⟨u, hfirst, hrest⟩ := hrun
      by_cases hab : a = b
      · subst hab
        obtain rfl := Option.some.inj (hstep.symm.trans hfirst)
        exact ⟨es, hrest, rfl⟩
      · obtain ⟨v, htv, huv⟩ := hcomm s a b t u hab hstep hfirst
        obtain ⟨rest, hend, hlength⟩ := ih huv hrest
        refine ⟨b :: rest, ?_, by simp [hlength]⟩
        rw [run_cons, htv, Option.bind_some, hend]

/-- There is one end. -/
theorem Settles.unique {start final final' : σ} (h : Settles step start final)
    (h' : Settles step start final') : final = final' := by
  obtain ⟨hquiet, n, hends⟩ := h
  obtain ⟨-, n', hends'⟩ := h'
  obtain ⟨es, hrun, -⟩ := hends [] start (run_nil _ _)
  obtain ⟨rest, hrest, -⟩ := hends' es final hrun
  cases rest with
  | nil =>
      rw [run_nil] at hrest
      exact Option.some.inj hrest
  | cons a rest =>
      rw [run_cons, hquiet] at hrest
      cases hrest

/-- Where steps commute, one run to its end says how all of them end. -/
theorem settles_of_run (hcomm : Commuting step) {start final : σ} {es : List ι}
    (hquiet : ∀ a, step final a = none) (hrun : run step start es = some final) :
    Settles step start final := by
  refine ⟨hquiet, es.length, fun fs t hfs => ?_⟩
  induction fs generalizing start es with
  | nil =>
      rw [run_nil, Option.some.injEq] at hfs
      exact ⟨es, hfs ▸ hrun, by simp⟩
  | cons a fs ih =>
      rw [run_cons, Option.bind_eq_some_iff] at hfs
      obtain ⟨s, hfirst, hrest⟩ := hfs
      obtain ⟨rest, hend, hlength⟩ := run_after_step hcomm hquiet hfirst hrun
      obtain ⟨last, hlast, hsum⟩ := ih hend hrest
      refine ⟨last, hlast, ?_⟩
      rw [List.length_cons]
      omega

end Commuting

/-! ## Processes -/

/-- A process over items `ι`, with a state `σ`; it returns an `α` or dies of an `ε`. -/
inductive Proc (ι ε σ α : Type) where
  | done (a : α)
  | dead (e : ε)
  | send (i : ι) (next : Proc ι ε σ α)
  /-- Read an item; `none` is the end of the channel. -/
  | recv (next : Option ι → Proc ι ε σ α)
  /-- Work on the state; what comes next depends on the state before. -/
  | act (change : σ → σ) (next : σ → Proc ι ε σ α)

variable {ι ε σ α β : Type}

namespace Proc

/-- One process behind the other. -/
def bind : Proc ι ε σ α → (α → Proc ι ε σ β) → Proc ι ε σ β
  | done a, k => k a
  | dead e, _ => dead e
  | send i next, k => send i (next.bind k)
  | recv next, k => recv fun i => (next i).bind k
  | act change next, k => act change fun s => (next s).bind k

instance : Monad (Proc ι ε σ) where
  pure := done
  bind := bind

/-- Write a list of items. -/
def sendAll : List ι → Proc ι ε σ Unit
  | [] => done ()
  | i :: is => send i (sendAll is)

/-- Read so many items; `none` where the channel ends in front of the last of them. -/
def recvN : Nat → Proc ι ε σ (Option (List ι))
  | 0 => done (some [])
  | n + 1 => recv fun
    | none => done none
    | some i => (recvN n).bind fun is => done (is.map (i :: ·))

/-- The process has died. -/
def isDead : Proc ι ε σ α → Bool
  | dead _ => true
  | _ => false

/-- The process is about to write. -/
def isSend : Proc ι ε σ α → Bool
  | send _ _ => true
  | _ => false

end Proc

/-- Where a process is, with what it has not read and what it has written. -/
structure Executed (ι ε σ α : Type) where
  rest : Proc ι ε σ α
  state : σ
  unread : List ι
  sent : List ι

namespace Proc

/-- Everything that a process can do with these items to read; behind them it waits. -/
def exec : Proc ι ε σ α → σ → List ι → Executed ι ε σ α
  | done a, s, inbox => ⟨done a, s, inbox, []⟩
  | dead e, s, inbox => ⟨dead e, s, inbox, []⟩
  | send i next, s, inbox =>
    { exec next s inbox with sent := i :: (exec next s inbox).sent }
  | recv next, s, [] => ⟨recv next, s, [], []⟩
  | recv next, s, i :: inbox => exec (next (some i)) s inbox
  | act change next, s, inbox => exec (next s) (change s) inbox

/-- A process that is done leaves its state and its inbox as they are. -/
@[simp] theorem exec_done (a : α) (s : σ) (inbox : List ι) :
    (done a : Proc ι ε σ α).exec s inbox = ⟨done a, s, inbox, []⟩ := rfl

@[simp] theorem exec_pure (a : α) (s : σ) (inbox : List ι) :
    (pure a : Proc ι ε σ α).exec s inbox = ⟨done a, s, inbox, []⟩ := rfl

/-- So does one that has died. -/
@[simp] theorem exec_dead (e : ε) (s : σ) (inbox : List ι) :
    (dead e : Proc ι ε σ α).exec s inbox = ⟨dead e, s, inbox, []⟩ := rfl

/-- Another process behind the one that was executed. -/
def andThen (r : Executed ι ε σ α) (k : α → Proc ι ε σ β) : Executed ι ε σ β :=
  match r.rest with
  | done a =>
    { (k a).exec r.state r.unread with sent := r.sent ++ ((k a).exec r.state r.unread).sent }
  | p => ⟨p.bind k, r.state, r.unread, r.sent⟩

/-- One process behind the other does what they do. -/
theorem exec_bind (p : Proc ι ε σ α) (k : α → Proc ι ε σ β) (s : σ) (inbox : List ι) :
    (p >>= k).exec s inbox = andThen (p.exec s inbox) k := by
  change (p.bind k).exec s inbox = _
  induction p generalizing s inbox with
  | done a => rfl
  | dead e => rfl
  | send i next ih =>
      rw [bind, exec, ih]
      simp only [exec, andThen]
      cases (next.exec s inbox).rest <;> rfl
  | recv next ih =>
      cases inbox with
      | nil => rfl
      | cons i inbox => exact ih (some i) s inbox
  | act change next ih => exact ih s (change s) inbox

/-- A process that is done is followed by the next one. -/
theorem exec_bind_of_done {p : Proc ι ε σ α} {s s' : σ} {inbox unread sent : List ι} {a : α}
    (h : p.exec s inbox = ⟨done a, s', unread, sent⟩) (k : α → Proc ι ε σ β) :
    (p >>= k).exec s inbox =
      { (k a).exec s' unread with sent := sent ++ ((k a).exec s' unread).sent } := by
  rw [exec_bind, h]
  rfl

/-- Nothing follows a process that has died. -/
theorem exec_bind_of_dead {p : Proc ι ε σ α} {s s' : σ} {inbox unread sent : List ι} {e : ε}
    (h : p.exec s inbox = ⟨dead e, s', unread, sent⟩) (k : α → Proc ι ε σ β) :
    (p >>= k).exec s inbox = ⟨dead e, s', unread, sent⟩ := by
  rw [exec_bind, h]
  rfl

/-- `sendAll` sends its items in order and reads nothing. -/
theorem exec_sendAll (is : List ι) (s : σ) (inbox : List ι) :
    (sendAll is : Proc ι ε σ Unit).exec s inbox = ⟨done (), s, inbox, is⟩ := by
  induction is with
  | nil => rfl
  | cons i is ih => rw [sendAll, exec, ih]

/-- `recvN` reads as many items as it asks for, when they are there. -/
theorem exec_recvN (is : List ι) (s : σ) (inbox : List ι) :
    (recvN is.length : Proc ι ε σ (Option (List ι))).exec s (is ++ inbox) =
      ⟨done (some is), s, inbox, []⟩ := by
  induction is with
  | nil => rfl
  | cons i is ih =>
      rw [List.length_cons, recvN, List.cons_append, exec]
      exact exec_bind_of_done ih _

/-- One step of a process; in front of a channel that is `closed`, it reads the end of it. -/
def step (closed : Bool) : Proc ι ε σ α → σ → List ι → Option (Executed ι ε σ α)
  | done _, _, _ => none
  | dead _, _, _ => none
  | send i next, s, inbox => some ⟨next, s, inbox, [i]⟩
  | recv next, s, [] => if closed then some ⟨next none, s, [], []⟩ else none
  | recv next, s, i :: inbox => some ⟨next (some i), s, inbox, []⟩
  | act change next, s, inbox => some ⟨next s, change s, inbox, []⟩

/-- What arrives behind the items that are there, and the end of the channel behind it, do not
matter for a step. -/
theorem step_append {p : Proc ι ε σ α} {s : σ} {inbox : List ι} {r : Executed ι ε σ α}
    (h : p.step false s inbox = some r) (closed : Bool) (more : List ι) :
    p.step closed s (inbox ++ more) = some { r with unread := r.unread ++ more } := by
  cases p with
  | done a => cases h
  | dead e => cases h
  | send i next =>
      cases h
      rfl
  | recv next =>
      cases inbox with
      | nil => cases h
      | cons i inbox =>
          cases h
          rfl
  | act change next =>
      cases h
      rfl

end Proc

/-! ## A client and a server -/

/-- Who takes the next step. -/
inductive Side where
  | client
  | server
deriving DecidableEq, Repr

/-- A client and a server with the two channels between them. -/
structure Duo (ι ε γ σ α β : Type) where
  client : Proc ι ε γ α
  clientState : γ
  server : Proc ι ε σ β
  serverState : σ
  /-- From the client to the server. -/
  up : List ι
  down : List ι

variable {γ δ : Type}

/-- What a server works on: it starts anew when it is done. -/
def serving (loop : β → Option (Proc ι ε σ β)) : Proc ι ε σ β → Proc ι ε σ β
  | .done b => (loop b).getD (.done b)
  | p => p

namespace Duo

variable (loop : β → Option (Proc ι ε σ β))

/-- A step of one side. -/
def step (d : Duo ι ε γ σ α β) : Side → Option (Duo ι ε γ σ α β)
  | .client => (d.client.step d.server.isDead d.clientState d.down).map fun r =>
    { d with client := r.rest, clientState := r.state, down := r.unread, up := d.up ++ r.sent }
  | .server => ((serving loop d.server).step d.client.isDead d.serverState d.up).map fun r =>
    { d with server := r.rest, serverState := r.state, up := r.unread, down := d.down ++ r.sent }

/-- One side is about to write to a side that has died. -/
def Broken (d : Duo ι ε γ σ α β) : Prop :=
  d.server.isDead = true ∧ d.client.isSend = true ∨
    d.client.isDead = true ∧ (serving loop d.server).isSend = true

/-- In no run does it come to that. -/
def Unbroken (d : Duo ι ε γ σ α β) : Prop :=
  ∀ sides e, run (step loop) d sides = some e → ¬ e.Broken loop

variable {loop}

/-- A step of the client, with what it sends put behind what is on its way up. -/
theorem step_client (d : Duo ι ε γ σ α β) :
    d.step loop .client = (d.client.step d.server.isDead d.clientState d.down).map fun r =>
      { d with client := r.rest, clientState := r.state, down := r.unread, up := d.up ++ r.sent } :=
  rfl

/-- A step of the server, in its loop, with what it sends put behind what is on its way down. -/
theorem step_server (d : Duo ι ε γ σ α β) :
    d.step loop .server =
      ((serving loop d.server).step d.client.isDead d.serverState d.up).map fun r =>
      { d with
        server := r.rest, serverState := r.state, up := r.unread, down := d.down ++ r.sent } :=
  rfl

/-- A side that takes a step is alive. -/
theorem isDead_of_step {p : Proc ι ε σ α} {closed : Bool} {s : σ} {inbox : List ι}
    {r : Executed ι ε σ α} (h : p.step closed s inbox = some r) : p.isDead = false := by
  cases p with
  | dead e => cases h
  | _ => rfl

/-- A server that is dead stays so when it is looked at anew. -/
theorem isDead_serving {p : Proc ι ε σ β} (h : (serving loop p).isDead = false) :
    p.isDead = false := by
  cases p with
  | dead e => cases h
  | _ => rfl

/-- The two sides do not get in each other's way. -/
theorem diamond {d c s : Duo ι ε γ σ α β} (hc : d.step loop .client = some c)
    (hs : d.step loop .server = some s) :
    ∃ t, c.step loop .server = some t ∧ s.step loop .client = some t := by
  rw [step_client, Option.map_eq_some_iff] at hc
  rw [step_server, Option.map_eq_some_iff] at hs
  obtain ⟨rc, hclient, rfl⟩ := hc
  obtain ⟨rs, hserver, rfl⟩ := hs
  -- both are alive in front of their steps, so neither of them has read an end
  rw [isDead_serving (isDead_of_step hserver)] at hclient
  rw [isDead_of_step hclient] at hserver
  refine ⟨⟨rc.rest, rc.state, rs.rest, rs.state, rs.unread ++ rc.sent, rc.unread ++ rs.sent⟩,
    ?_, ?_⟩
  · rw [step_server, Proc.step_append hserver, Option.map_some]
  · rw [step_client, Proc.step_append hclient, Option.map_some]

/-- Steps of different sides commute. -/
theorem commuting :
    Commuting (step loop : Duo ι ε γ σ α β → Side → Option (Duo ι ε γ σ α β)) := by
  intro d a b t u hab ha hb
  cases a with
  | client =>
      cases b with
      | client => exact absurd rfl hab
      | server => exact diamond ha hb
  | server =>
      cases b with
      | client =>
          obtain ⟨v, hv, hv'⟩ := diamond hb ha
          exact ⟨v, hv', hv⟩
      | server => exact absurd rfl hab

/-- Some order of steps leads from one state to the other. -/
def Leads (loop : β → Option (Proc ι ε σ β)) (d e : Duo ι ε γ σ α β) : Prop :=
  ∃ sides, run (step loop) d sides = some e

/-- No step leads from a pair to itself. -/
theorem Leads.refl (d : Duo ι ε γ σ α β) : Leads loop d d :=
  ⟨[], rfl⟩

/-- What leads on can be followed by what leads on from there. -/
theorem Leads.trans {d e f : Duo ι ε γ σ α β} (h : Leads loop d e) (h' : Leads loop e f) :
    Leads loop d f := by
  obtain ⟨sides, hrun⟩ := h
  obtain ⟨sides', hrun'⟩ := h'
  refine ⟨sides ++ sides', ?_⟩
  rw [run_append, hrun, Option.bind_some, hrun']

/-- One step in front. -/
theorem Leads.head {d e f : Duo ι ε γ σ α β} (side : Side) (hstep : d.step loop side = some e)
    (h : Leads loop e f) : Leads loop d f := by
  obtain ⟨sides, hrun⟩ := h
  refine ⟨side :: sides, ?_⟩
  rw [run_cons, hstep, Option.bind_some, hrun]

/-- The client does everything that it can do in front of what follows. -/
theorem leads_client (p : Proc ι ε γ δ) (k : δ → Proc ι ε γ α) (s : γ) (server : Proc ι ε σ β)
    (t : σ) (up down : List ι) :
    Leads loop ⟨p >>= k, s, server, t, up, down⟩
      ⟨(p.exec s down).rest >>= k, (p.exec s down).state, server, t,
        up ++ (p.exec s down).sent, (p.exec s down).unread⟩ := by
  induction p generalizing s up down with
  | done a =>
      rw [Proc.exec_done, List.append_nil]
      exact Leads.refl _
  | dead e =>
      rw [Proc.exec_dead, List.append_nil]
      exact Leads.refl _
  | send i next ih =>
      refine Leads.head .client rfl ?_
      have hnext := ih s (up ++ [i]) down
      rwa [List.append_assoc] at hnext
  | recv next ih =>
      cases down with
      | nil =>
          rw [Proc.exec, List.append_nil]
          exact Leads.refl _
      | cons i down =>
          refine Leads.head .client rfl ?_
          have hnext := ih (some i) s (up ++ []) down
          rwa [List.append_assoc, List.nil_append] at hnext
  | act change next ih =>
      refine Leads.head .client rfl ?_
      have hnext := ih s (change s) (up ++ []) down
      rwa [List.append_assoc, List.nil_append] at hnext

/-- The server does everything that it can do before it starts anew. -/
theorem leads_server (client : Proc ι ε γ α) (s : γ) (server : Proc ι ε σ β) (t : σ)
    (up down : List ι) :
    Leads loop ⟨client, s, server, t, up, down⟩
      ⟨client, s, (server.exec t up).rest, (server.exec t up).state,
        (server.exec t up).unread, down ++ (server.exec t up).sent⟩ := by
  induction server generalizing t up down with
  | done a =>
      rw [Proc.exec_done, List.append_nil]
      exact Leads.refl _
  | dead e =>
      rw [Proc.exec_dead, List.append_nil]
      exact Leads.refl _
  | send i next ih =>
      refine Leads.head .server rfl ?_
      have hnext := ih t up (down ++ [i])
      rwa [List.append_assoc] at hnext
  | recv next ih =>
      cases up with
      | nil =>
          rw [Proc.exec, List.append_nil]
          exact Leads.refl _
      | cons i up =>
          refine Leads.head .server rfl ?_
          have hnext := ih (some i) t up (down ++ [])
          rwa [List.append_assoc, List.nil_append] at hnext
  | act change next ih =>
      refine Leads.head .server rfl ?_
      have hnext := ih t (change t) up (down ++ [])
      rwa [List.append_assoc, List.nil_append] at hnext

/-- A server that waits for a call works on it. -/
theorem leads_serve {server : Proc ι ε σ β} {next : Option ι → Proc ι ε σ β}
    (hserving : serving loop server = .recv next) (client : Proc ι ε γ α) (s : γ) (t : σ) (i : ι)
    (up down : List ι) :
    Leads loop ⟨client, s, server, t, i :: up, down⟩
      ⟨client, s, ((next (some i)).exec t up).rest, ((next (some i)).exec t up).state,
        ((next (some i)).exec t up).unread, down ++ ((next (some i)).exec t up).sent⟩ := by
  have hstep : step loop ⟨client, s, server, t, i :: up, down⟩ .server =
      some ⟨client, s, next (some i), t, up, down ++ []⟩ := by
    rw [step_server, hserving]
    rfl
  refine Leads.head .server hstep ?_
  rw [List.append_nil]
  exact leads_server client s (next (some i)) t up down

variable {call waiting : Proc ι ε γ δ} {s s' : γ} {i : ι} {asked reply : List ι}
  {server server' : Proc ι ε σ β} {next : Option ι → Proc ι ε σ β} {t t' : σ}

/-- A call is written, and the server works on it. -/
theorem leads_served (hask : call.exec s [] = ⟨waiting, s', [], i :: asked⟩)
    (hserving : serving loop server = .recv next)
    (hserve : (next (some i)).exec t asked = ⟨server', t', [], reply⟩) (k : δ → Proc ι ε γ α) :
    Leads loop ⟨call >>= k, s, server, t, [], []⟩
      ⟨waiting >>= k, s', server', t', [], reply⟩ := by
  have hasked : Leads loop ⟨call >>= k, s, server, t, [], []⟩ _ :=
    leads_client call k s server t [] []
  rw [hask] at hasked
  have hserved := leads_serve hserving (waiting >>= k) s' t i asked []
  rw [hserve] at hserved
  exact hasked.trans hserved

/-- A call and the reply to it, from what each side does. -/
theorem leads_call (hask : call.exec s [] = ⟨waiting, s', [], i :: asked⟩)
    (hserving : serving loop server = .recv next)
    (hserve : (next (some i)).exec t asked = ⟨server', t', [], reply⟩) {a : δ} {s'' : γ}
    (hread : waiting.exec s' reply = ⟨.done a, s'', [], []⟩) (k : δ → Proc ι ε γ α) :
    Leads loop ⟨call >>= k, s, server, t, [], []⟩ ⟨k a, s'', server', t', [], []⟩ := by
  have hreply : Leads loop ⟨waiting >>= k, s', server', t', [], reply⟩ _ :=
    leads_client waiting k s' server' t' [] reply
  rw [hread] at hreply
  exact (leads_served hask hserving hserve k).trans hreply

/-- The end of a client whose server waits. -/
theorem quiet_of_done (hserving : serving loop server = .recv next) (a : α) (side : Side) :
    step loop ⟨(.done a : Proc ι ε γ α), s, server, t, [], []⟩ side = none := by
  cases side with
  | client => rfl
  | server =>
      rw [step_server, hserving]
      rfl

/-- The end of a client whose server has ended with it. -/
theorem quiet_of_both_done {b : β} (hserving : serving loop server = .done b) (a : α)
    (side : Side) : step loop ⟨(.done a : Proc ι ε γ α), s, server, t, [], []⟩ side = none := by
  cases side with
  | client => rfl
  | server =>
      rw [step_server, hserving]
      rfl

/-- A client that waits for a server which has died reads the end of the channel. -/
theorem leads_ended {next : Option ι → Proc ι ε γ α} (e : ε) :
    Leads loop ⟨.recv next, s, (.dead e : Proc ι ε σ β), t, [], []⟩
      ⟨next none, s, .dead e, t, [], []⟩ :=
  Leads.head .client rfl (Leads.refl _)

/-- The end of a client that has died behind its server. -/
theorem quiet_of_both_dead (e' e : ε) (side : Side) :
    step loop ⟨(.dead e' : Proc ι ε γ α), s, (.dead e : Proc ι ε σ β), t, [], []⟩ side = none := by
  cases side <;> rfl

/-- Where a run leads to a pair without a next step, every run settles there: two steps of the two
sides commute. -/
theorem Leads.settles {d e : Duo ι ε γ σ α β} (h : Leads loop d e)
    (hquiet : ∀ side, step loop e side = none) : Settles (step loop) d e := by
  obtain ⟨sides, hrun⟩ := h
  exact settles_of_run commuting hquiet hrun

/-! ### Sides that have died -/

/-- A side has died, and there is something that it has not read. -/
def Lost (d : Duo ι ε γ σ α β) : Prop :=
  d.server.isDead = true ∧ d.up ≠ [] ∨ d.client.isDead = true ∧ d.down ≠ []

/-- What a dead side has not read is never read. -/
theorem Lost.step {d e : Duo ι ε γ σ α β} {side : Side} (h : d.Lost)
    (hstep : d.step loop side = some e) : e.Lost := by
  cases side with
  | client =>
      rw [step_client, Option.map_eq_some_iff] at hstep
      obtain ⟨r, hr, rfl⟩ := hstep
      rcases h with ⟨hdead, hne⟩ | ⟨hdead, -⟩
      · exact Or.inl ⟨hdead, fun hnil => hne (List.append_eq_nil_iff.mp hnil).1⟩
      · rw [isDead_of_step hr] at hdead
        cases hdead
  | server =>
      rw [step_server, Option.map_eq_some_iff] at hstep
      obtain ⟨r, hr, rfl⟩ := hstep
      rcases h with ⟨hdead, -⟩ | ⟨hdead, hne⟩
      · rw [isDead_serving (isDead_of_step hr)] at hdead
        cases hdead
      · exact Or.inr ⟨hdead, fun hnil => hne (List.append_eq_nil_iff.mp hnil).1⟩

/-- Who writes to a side that has died loses what is written. -/
theorem Broken.lost {d : Duo ι ε γ σ α β} (h : d.Broken loop) :
    ∃ side e, d.step loop side = some e ∧ e.Lost := by
  rcases h with ⟨hdead, hsend⟩ | ⟨hdead, hsend⟩
  · cases hclient : d.client with
    | send i next =>
        refine ⟨.client, { d with client := next, up := d.up ++ [i] }, ?_, Or.inl ⟨hdead, by simp⟩⟩
        rw [step_client, hclient]
        rfl
    | _ =>
        rw [hclient] at hsend
        cases hsend
  · cases hserver : serving loop d.server with
    | send i next =>
        refine ⟨.server, { d with server := next, down := d.down ++ [i] }, ?_,
          Or.inr ⟨hdead, by simp⟩⟩
        rw [step_server, hserver]
        rfl
    | _ =>
        rw [hserver] at hsend
        cases hsend

/-- Where all runs end with empty channels, nobody writes to a side that has died. -/
theorem unbroken_of_settles {d final : Duo ι ε γ σ α β} (h : Settles (step loop) d final)
    (hup : final.up = []) (hdown : final.down = []) : d.Unbroken loop := by
  intro sides e hrun hbroken
  obtain ⟨side, f, hstep, hlost⟩ := hbroken.lost
  obtain ⟨-, n, hends⟩ := h
  have hrun' : run (step loop) d (sides ++ [side]) = some f := by
    rw [run_append, hrun, Option.bind_some, run_cons, hstep, Option.bind_some, run_nil]
  obtain ⟨rest, hrest, -⟩ := hends _ f hrun'
  have hfinal : final.Lost :=
    run_invariant_of_step (fun _ _ _ hd hstep => Lost.step hd hstep) hlost hrest
  rcases hfinal with ⟨-, hne⟩ | ⟨-, hne⟩
  · exact hne hup
  · exact hne hdown

end Duo

/-! ## A server and whatever is written to it -/

/-- A server with what it has to read. -/
structure Exposed (ι ε σ β : Type) where
  server : Proc ι ε σ β
  state : σ
  up : List ι
  /-- Nothing more arrives. -/
  closed : Bool

/-- What happens to a server that anybody may write to. -/
inductive Exposure (ι : Type) where
  | arrives (i : ι)
  | closes
  | works
deriving DecidableEq, Repr

/-- An item arrives, the channel is closed, or the server takes a step. -/
def Exposed.step (loop : β → Option (Proc ι ε σ β)) (x : Exposed ι ε σ β) :
    Exposure ι → Option (Exposed ι ε σ β)
  | .arrives i => if x.closed then none else some { x with up := x.up ++ [i] }
  | .closes => some { x with closed := true }
  | .works => ((serving loop x.server).step x.closed x.state x.up).map fun r =>
    { x with server := r.rest, state := r.state, up := r.unread }

namespace Proc

/-- Every change of the state brings one with `P`, and the end is one with `Q`. -/
def Meets (P : σ → Prop) : Proc ι ε σ α → σ → (α → σ → Prop) → Prop
  | done a, s, Q => Q a s
  | dead _, _, _ => True
  | send _ next, s, Q => next.Meets P s Q
  | recv next, s, Q => ∀ i, (next i).Meets P s Q
  | act change next, s, Q => P (change s) ∧ (next s).Meets P (change s) Q

variable {P : σ → Prop} {Q : α → σ → Prop}

/-- A weaker postcondition. -/
theorem Meets.imp {p : Proc ι ε σ α} {s : σ} {Q' : α → σ → Prop} (h : p.Meets P s Q)
    (hQ : ∀ a s, Q a s → Q' a s) : p.Meets P s Q' := by
  induction p generalizing s with
  | done a => exact hQ a s h
  | dead e => trivial
  | send i next ih => exact ih h
  | recv next ih => exact fun i => ih i (h i)
  | act change next ih => exact ⟨h.1, ih s h.2⟩

/-- The rule of sequence. -/
theorem Meets.bind {p : Proc ι ε σ α} {k : α → Proc ι ε σ β} {s : σ} {R : β → σ → Prop}
    (h : p.Meets P s Q) (hk : ∀ a s, Q a s → (k a).Meets P s R) : (p >>= k).Meets P s R := by
  change (p.bind k).Meets P s R
  induction p generalizing s with
  | done a => exact hk a s h
  | dead e => trivial
  | send i next ih => exact ih h
  | recv next ih => exact fun i => ih i (h i)
  | act change next ih => exact ⟨h.1, ih s h.2⟩

/-- Sending changes no state. -/
theorem meets_sendAll (is : List ι) {s : σ} {Q : Unit → σ → Prop} (h : Q () s) :
    (sendAll is : Proc ι ε σ Unit).Meets P s Q := by
  induction is with
  | nil => exact h
  | cons i is ih => exact ih

/-- What is received may be anything, a broken connection included. -/
theorem meets_recvN (n : Nat) {s : σ} {Q : Option (List ι) → σ → Prop} (h : ∀ is, Q is s) :
    (recvN n : Proc ι ε σ (Option (List ι))).Meets P s Q := by
  induction n generalizing Q with
  | zero => exact h (some [])
  | succ n ih =>
      intro i
      cases i with
      | none => exact h none
      | some i => exact Meets.bind (ih fun is => h (is.map (i :: ·))) fun is _ his => his

/-- A weaker condition on the states in between. -/
theorem Meets.mono {p : Proc ι ε σ α} {s : σ} {P' : σ → Prop} (h : p.Meets P s Q)
    (hP : ∀ s, P s → P' s) : p.Meets P' s Q := by
  induction p generalizing s with
  | done a => exact h
  | dead e => trivial
  | send i next ih => exact ih h
  | recv next ih => exact fun i => ih i (h i)
  | act change next ih => exact ⟨hP _ h.1, ih s h.2⟩

/-- Wherever a process stops, its state is one with `P`. -/
theorem Meets.state_of_exec {p : Proc ι ε σ α} {s : σ} (h : p.Meets P s Q) (hs : P s)
    (inbox : List ι) : P (p.exec s inbox).state := by
  induction p generalizing s inbox with
  | done a => exact hs
  | dead e => exact hs
  | send i next ih => exact ih h hs inbox
  | recv next ih =>
      cases inbox with
      | nil => exact hs
      | cons i inbox => exact ih (some i) (h (some i)) hs inbox
  | act change next ih => exact ih s h.2 h.1 inbox

/-- What a process ends with. -/
theorem Meets.of_exec {p : Proc ι ε σ α} {s s' : σ} {inbox unread sent : List ι} {a : α}
    (h : p.Meets P s Q) (hexec : p.exec s inbox = ⟨done a, s', unread, sent⟩) : Q a s' := by
  induction p generalizing s inbox sent with
  | done a =>
      cases hexec
      exact h
  | dead e => cases hexec
  | send i next ih =>
      rw [exec] at hexec
      cases hnext : next.exec s inbox with
      | mk rest state unread' sent' =>
          rw [hnext] at hexec
          cases hexec
          exact ih h hnext
  | recv next ih =>
      cases inbox with
      | nil => cases hexec
      | cons i inbox => exact ih (some i) (h (some i)) hexec
  | act change next ih => exact ih s h.2 hexec

/-- A step brings a state with `P`, and the rest goes on to meet its end. -/
theorem Meets.step {p : Proc ι ε σ α} {s : σ} (h : p.Meets P s Q) (hs : P s) {closed : Bool}
    {inbox : List ι} {r : Executed ι ε σ α} (hstep : p.step closed s inbox = some r) :
    P r.state ∧ r.rest.Meets P r.state Q := by
  cases p with
  | done a => cases hstep
  | dead e => cases hstep
  | send i next =>
      cases hstep
      exact ⟨hs, h⟩
  | recv next =>
      cases inbox with
      | nil =>
          cases closed with
          | false => cases hstep
          | true =>
              cases hstep
              exact ⟨hs, h none⟩
      | cons i inbox =>
          cases hstep
          exact ⟨hs, h (some i)⟩
  | act change next =>
      cases hstep
      exact h

end Proc

/-- What holds of a server at the end of a round holds again of the next round. -/
theorem meets_serving {loop : β → Option (Proc ι ε σ β)} {P : σ → Prop} {Q : β → σ → Prop}
    (hloop : ∀ b s p, Q b s → loop b = some p → p.Meets P s Q) {p : Proc ι ε σ β} {s : σ}
    (h : p.Meets P s Q) : (serving loop p).Meets P s Q := by
  cases p with
  | done b =>
      rw [serving]
      cases hnext : loop b with
      | none => exact h
      | some p => exact hloop b s p h hnext
  | _ => exact h

/-- What every round of the server keeps is kept over every run, whatever arrives and whenever it
stops. -/
theorem Exposed.meets_of_run {loop : β → Option (Proc ι ε σ β)} {P : σ → Prop}
    {Q : β → σ → Prop} (hloop : ∀ b s p, Q b s → loop b = some p → p.Meets P s Q)
    {x y : Exposed ι ε σ β} (hstate : P x.state) (hserver : x.server.Meets P x.state Q)
    {events : List (Exposure ι)} (hrun : run (Exposed.step loop) x events = some y) :
    P y.state := by
  have hboth := run_invariant_of_step (P := fun x => P x.state ∧ x.server.Meets P x.state Q)
    (fun x event y hx hstep => ?_) ⟨hstate, hserver⟩ hrun
  · exact hboth.1
  · cases event with
    | arrives i =>
        rw [Exposed.step] at hstep
        split at hstep
        · cases hstep
        · cases hstep
          exact hx
    | closes =>
        cases hstep
        exact hx
    | works =>
        rw [Exposed.step, Option.map_eq_some_iff] at hstep
        obtain ⟨r, hr, rfl⟩ := hstep
        exact (meets_serving hloop hx.2).step hx.1 hr

/-! ## Work without the channels -/

/-- The end of a process. -/
def Proc.ended : Except ε α → Proc ι ε σ α
  | .ok a => .done a
  | .error e => .dead e

/-- A process that has ended is followed by the next one or by nothing. -/
theorem Proc.exec_bind_of_ended {p : Proc ι ε σ α} {s s' : σ} {inbox unread : List ι}
    {out : Except ε α} (h : p.exec s inbox = ⟨ended out, s', unread, []⟩)
    (k : α → Proc ι ε σ β) : (p >>= k).exec s inbox = (ended out >>= k).exec s' unread := by
  cases out with
  | ok a => exact exec_bind_of_done h k
  | error e => exact exec_bind_of_dead h k

/-- Two processes that read and write nothing and end alike, where their states agree. -/
def Proc.Alike {τ : Type} (R : σ → τ → Prop) (p : Proc ι ε σ α) (q : Proc ι ε τ α) : Prop :=
  ∀ s t, R s t → ∃ (out : Except ε α) (s' : σ) (t' : τ), R s' t' ∧
    (∀ inbox, p.exec s inbox = ⟨ended out, s', inbox, []⟩) ∧
    ∀ inbox, q.exec t inbox = ⟨ended out, t', inbox, []⟩

namespace Proc

variable {τ : Type} {R : σ → τ → Prop}

/-- Two processes that end with the same value do the same. -/
theorem alike_done (a : α) : Alike R (done a : Proc ι ε σ α) (done a) :=
  fun s t h => ⟨.ok a, s, t, h, fun _ => rfl, fun _ => rfl⟩

/-- Two processes that die of the same cause do the same. -/
theorem alike_dead (e : ε) : Alike R (dead e : Proc ι ε σ α) (dead e) :=
  fun s t h => ⟨.error e, s, t, h, fun _ => rfl, fun _ => rfl⟩

/-- Two actions that keep the relation of the states, and go on alike. -/
theorem alike_act {change : σ → σ} {change' : τ → τ} {next : σ → Proc ι ε σ α}
    {next' : τ → Proc ι ε τ α}
    (h : ∀ s t, R s t → R (change s) (change' t) ∧ Alike R (next s) (next' t)) :
    Alike R (act change next) (act change' next') := by
  intro s t hst
  obtain ⟨hchange, hnext⟩ := h s t hst
  exact hnext _ _ hchange

/-- Alike processes followed by alike ones. -/
theorem Alike.bind {p : Proc ι ε σ α} {q : Proc ι ε τ α} {k : α → Proc ι ε σ β}
    {l : α → Proc ι ε τ β} (h : Alike R p q) (hk : ∀ a, Alike R (k a) (l a)) :
    Alike R (p >>= k) (q >>= l) := by
  intro s t hst
  obtain ⟨out, s', t', hst', hp, hq⟩ := h s t hst
  cases out with
  | ok a =>
      obtain ⟨out, s'', t'', hst'', hk', hl'⟩ := hk a s' t' hst'
      refine ⟨out, s'', t'', hst'', fun inbox => ?_, fun inbox => ?_⟩
      · exact (exec_bind_of_ended (hp inbox) k).trans (hk' inbox)
      · exact (exec_bind_of_ended (hq inbox) l).trans (hl' inbox)
  | error e =>
      refine ⟨.error e, s', t', hst', fun inbox => ?_, fun inbox => ?_⟩
      · exact exec_bind_of_ended (hp inbox) k
      · exact exec_bind_of_ended (hq inbox) l

end Proc

end Library
end ModpackInstaller
