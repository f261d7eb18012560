import ModpackInstaller.Client.UpdateLoop
import ModpackInstaller.Library.Run

/-!
# The working directory of the session during an update

{lit}`InstallPanel.updatePack` changes into the directory of the pack, downloads
by relative names, and goes back with {lit}`CWD ..`.  A new session starts in the
home directory.  {lit}`downloadFile` reconnects when its data channel cannot be
opened, and does not change the directory again.

Paths are taken as they are written, without symbolic links, and every command
reads its own reply.

Main results:

- Theorem {lit}`placed_step`: a step that meets the condition keeps the session
  in the directory that the phase expects.
- Theorem {lit}`inPackDir_of_steady`: in a run of such steps every file is asked
  for in the directory of the pack, and the loop is left in the home directory.
- Theorem {lit}`inPackDir_fails`: a reconnect inside the loop breaks both.
-/

namespace ModpackInstaller
namespace Update
namespace WorkingDirectory

open Library Client

/-! ## The commands -/

/-- `FtpClient.cwd` -/
def cwd : ControlReply → Except Thrown Int
  | .ioError _ => .ok (-4)
  | .line response =>
    match getResponseCode response with
    | .error e => .error e
    | .ok code =>
      if code = 421 then .ok (-1)
      else if code = 250 then .ok 0
      else .ok (-2)

/-- Where `handle_cwd` goes from the directory `dir` when `chdir` succeeds.  With
`tilde_user_enable` off, a tilde stands for the home directory only in front of a
slash or alone. -/
def chdirTarget (home dir : Path) (arg : Text) : Path :=
  match arg with
  | ['~'] => home
  | '~' :: '/' :: rest => Fs.resolve home rest
  | '/' :: rest => Fs.resolve [] rest
  | _ => Fs.resolve dir arg

/-- One round of the loop, as far as the session is concerned. -/
inductive Round where
  | goesOn
  /-- It returns false or throws. -/
  | stops
  | downloads (filename : Text)
deriving DecidableEq, Repr

/-- What a round comes to; `deletes` and `makes` are the results of the deletion
and of making a directory. -/
def round (deletes makes : Bool) : Text → Round
  | [] => .goesOn
  | [_] => .stops
  | operation :: filetype :: filename =>
    let install : Round :=
      if filetype = 'f' then .downloads filename
      else if filetype = 'd' then (if makes then .goesOn else .stops)
      else .stops
    if operation = '+' then install
    else if operation = '-' then .goesOn
    else if operation = '*' then (if deletes then install else .stops)
    else .goesOn

/-! ## States -/

/-- How far `updatePack` has come. -/
inductive Phase where
  /-- In `fetchUpdateInstructions`. -/
  | fetching
  | entering (instructions : List Text)
  /-- `cwd` has timed out. -/
  | retrying
  | looping (rest : List Text)
  /-- `downloadFile` opens the data channel. -/
  | opening (filename : Text) (rest : List Text)
  /-- The data channel could not be opened in time. -/
  | reconnecting (filename : Text) (rest : List Text)
  | sending (filename : Text) (rest : List Text)
  | waiting (rest : List Text)
  /-- In front of the `finally` block. -/
  | leaving
  | left
  /-- It has returned without having entered the loop. -/
  | returned
deriving DecidableEq, Repr

/-- A `RETR` for the path of an instruction, and the working directory in which
the session got it. -/
structure Asked where
  filename : Text
  dir : Option Path
deriving DecidableEq, Repr

/-- The update and the session of the server; `session` is its working
directory, or `none` when the connection is lost. -/
structure UpdateState where
  phase : Phase
  session : Option Path
  asked : List Asked
deriving DecidableEq, Repr

/-- The start of an update in the home directory. -/
def UpdateState.start (home : Path) : UpdateState where
  phase := .fetching
  session := some home
  asked := []

/-- The steps of an update and of its session. -/
inductive Event where
  /-- The server times out or the connection breaks. -/
  | lose
  /-- `reconnect` while the instructions are fetched. -/
  | fetchReconnects (ok : Bool)
  | fetched (instructions : Option (List Text))
  | enter (reply : ControlReply)
  /-- `reconnect` behind a time-out of `cwd`; its result is not looked at. -/
  | retry (ok : Bool)
  | round (deletes makes : Bool)
  /-- `openDataChannel` returns, or throws. -/
  | opened (result : Option Int)
  | reconnects (ok : Bool)
  /-- `RETR` is sent and returns, or throws. -/
  | retrieve (size : Option Int)
  /-- The download is over. -/
  | delivered (success : Bool)
  | leave (reply : ControlReply)
deriving DecidableEq, Repr

section Steps

variable (home : Path) (name : Text) (s : UpdateState)

/-- A lost session answers nothing but the last 421 of its server. -/
def Answers (session : Option Path) : ControlReply → Prop
  | .ioError _ => session = none
  | .line response => getResponseCode response = .ok 421 ↔ session = none

instance (session : Option Path) : (reply : ControlReply) → Decidable (Answers session reply)
  | .ioError _ => inferInstanceAs (Decidable (_ = _))
  | .line _ => inferInstanceAs (Decidable (_ ↔ _))

/-- The session behind a `reconnect`. -/
def reconnected (ok : Bool) : Option Path :=
  if ok then some home else none

/-- Behind the reply to `CWD` with the name of the pack. -/
def afterEnter (instructions : List Text) (reply : ControlReply) : UpdateState :=
  match cwd reply with
  | .error _ => { s with phase := .returned }
  | .ok status =>
    if status = -1 then { s with phase := .retrying }
    else if status = 0 then
      { s with
        phase := .looping instructions
        session := s.session.map fun dir => chdirTarget home dir name }
    else { s with phase := .returned }

/-- The next round of the loop. -/
def afterRound (deletes makes : Bool) : List Text → UpdateState
  | [] => { s with phase := .leaving }
  | instruction :: rest =>
    match WorkingDirectory.round deletes makes instruction with
    | .goesOn => { s with phase := .looping rest }
    | .stops => { s with phase := .leaving }
    | .downloads filename => { s with phase := .opening filename rest }

/-- Behind the reply to `CWD ..`. -/
def afterLeave (reply : ControlReply) : UpdateState :=
  { s with
    phase := .left
    session :=
      if cwd reply = .ok 0 then s.session.map fun dir => chdirTarget home dir ['.', '.']
      else s.session }

/-- One step; `none` when it is not the turn of the event. -/
def step : Event → Option UpdateState
  | .lose => some { s with session := none }
  | .fetchReconnects ok =>
    match s.phase with
    | .fetching =>
      some { s with
        session := reconnected home ok
        phase := if ok then .fetching else .returned }
    | _ => none
  | .fetched instructions =>
    match s.phase with
    | .fetching =>
      some { s with
        phase := match instructions with
          | some instructions => .entering instructions
          | none => .returned }
    | _ => none
  | .enter reply =>
    match s.phase with
    | .entering instructions =>
      if Answers s.session reply then some (afterEnter home name s instructions reply) else none
    | _ => none
  | .retry ok =>
    match s.phase with
    | .retrying => some { s with session := reconnected home ok, phase := .fetching }
    | _ => none
  | .round deletes makes =>
    match s.phase with
    | .looping rest => some (afterRound s deletes makes rest)
    | _ => none
  | .opened result =>
    match s.phase with
    | .opening filename rest =>
      some { s with
        phase :=
          if result = some 0 then .sending filename rest
          else if result = some (-1) then .reconnecting filename rest
          else .leaving }
    | _ => none
  | .reconnects ok =>
    match s.phase with
    | .reconnecting filename rest =>
      some { s with
        session := reconnected home ok
        phase := if ok then .opening filename rest else .leaving }
    | _ => none
  | .retrieve size =>
    match s.phase with
    | .sending filename rest =>
      some { s with
        asked := ⟨filename, s.session⟩ :: s.asked
        phase := if size.isSome then .waiting rest else .leaving }
    | _ => none
  | .delivered success =>
    match s.phase with
    | .waiting rest => some { s with phase := if success then .looping rest else .leaving }
    | _ => none
  | .leave reply =>
    match s.phase with
    | .leaving => if Answers s.session reply then some (afterLeave home s reply) else none
    | _ => none

end Steps

/-! ## Where the session is -/

/-- The directory of the pack on the server. -/
def packDir (home : Path) (name : Text) : Path :=
  Fs.resolve home name

/-- Every file of an instruction was asked for in the directory of the pack, and
behind the loop the session is in the home directory. -/
def InPackDir (home : Path) (name : Text) (s : UpdateState) : Prop :=
  (∀ a ∈ s.asked, ∀ dir ∈ a.dir, dir = packDir home name) ∧
    (s.phase = .left → ∀ dir ∈ s.session, dir = home)

/-- `CWD` with the name of the pack leads below the home directory, no reconnect
succeeds inside the loop, and `CWD ..` is accepted and leads home; or the
directories are the same anyway. -/
def Steady (home : Path) (name : Text) (s : UpdateState) : Event → Prop
  | .enter reply => cwd reply = .ok 0 → chdirTarget home home name = packDir home name
  | .reconnects ok => ok = true → packDir home name = home
  | .leave reply =>
    s.session ≠ none →
      if cwd reply = .ok 0 then (packDir home name).dropLast = home else packDir home name = home
  | _ => True

instance (home : Path) (name : Text) (s : UpdateState) : (e : Event) →
    Decidable (Steady home name s e)
  | .enter _ => inferInstanceAs (Decidable (_ → _))
  | .reconnects _ => inferInstanceAs (Decidable (_ → _))
  | .leave reply => by
    unfold Steady
    exact inferInstanceAs (Decidable (_ → ite _ _ _))
  | .lose => inferInstanceAs (Decidable True)
  | .fetchReconnects _ => inferInstanceAs (Decidable True)
  | .fetched _ => inferInstanceAs (Decidable True)
  | .retry _ => inferInstanceAs (Decidable True)
  | .round _ _ => inferInstanceAs (Decidable True)
  | .opened _ => inferInstanceAs (Decidable True)
  | .retrieve _ => inferInstanceAs (Decidable True)
  | .delivered _ => inferInstanceAs (Decidable True)

/-- The directory that a phase expects the session in. -/
def expected (home : Path) (name : Text) : Phase → Option Path
  | .fetching => some home
  | .entering _ => some home
  | .retrying => none
  | .looping _ => some (packDir home name)
  | .opening _ _ => some (packDir home name)
  | .reconnecting _ _ => some (packDir home name)
  | .sending _ _ => some (packDir home name)
  | .waiting _ => some (packDir home name)
  | .leaving => some (packDir home name)
  | .left => some home
  | .returned => none

/-- The session is where the phase expects it. -/
structure Placed (home : Path) (name : Text) (s : UpdateState) : Prop where
  session : ∀ dir ∈ expected home name s.phase, ∀ dir' ∈ s.session, dir' = dir
  asked : ∀ a ∈ s.asked, ∀ dir ∈ a.dir, dir = packDir home name

theorem UpdateState.start_placed (home : Path) (name : Text) :
    Placed home name (UpdateState.start home) where
  session := by
    intro dir hdir dir' hdir'
    have hhome : home = dir := Option.mem_some_iff.mp hdir
    have hsession : home = dir' := Option.mem_some_iff.mp hdir'
    exact hsession ▸ hhome
  asked := by
    intro a ha
    simp [UpdateState.start] at ha

/-- A lost session is everywhere. -/
theorem Placed.of_lost {home : Path} {name : Text} {s s' : UpdateState}
    (h : Placed home name s) (hsession : s'.session = none) (hasked : s'.asked = s.asked) :
    Placed home name s' where
  session := by simp [hsession]
  asked := hasked ▸ h.asked

/-- A step that does not touch the session and goes on to a phase that expects
nothing else. -/
theorem Placed.goTo {home : Path} {name : Text} {s s' : UpdateState} (h : Placed home name s)
    (hsession : s'.session = s.session) (hasked : s'.asked = s.asked)
    (hexpected : ∀ dir ∈ expected home name s'.phase, dir ∈ expected home name s.phase) :
    Placed home name s' where
  session := by
    intro dir hdir dir' hdir'
    exact h.session dir (hexpected dir hdir) dir' (hsession ▸ hdir')
  asked := hasked ▸ h.asked

/-- A step to a phase that expects the directory the session is in now. -/
theorem Placed.moveTo {home : Path} {name : Text} {s s' : UpdateState} (h : Placed home name s)
    (hasked : s'.asked = s.asked) (dir : Path)
    (hsession : ∀ dir' ∈ s'.session, dir' = dir)
    (hexpected : ∀ dir' ∈ expected home name s'.phase, dir' = dir) : Placed home name s' where
  session := by
    intro dir₁ hdir₁ dir₂ hdir₂
    rw [hexpected dir₁ hdir₁, hsession dir₂ hdir₂]
  asked := hasked ▸ h.asked

/-- A fresh session is in the home directory. -/
theorem mem_reconnected {home dir : Path} {ok : Bool} (h : dir ∈ reconnected home ok) :
    ok = true ∧ dir = home := by
  cases ok with
  | false => simp [reconnected] at h
  | true => exact ⟨rfl, (Option.mem_some_iff.mp h).symm⟩

section StepLemmas

variable {home : Path} {name : Text} {s s' : UpdateState}

/-- A fresh session is right for a phase that expects the home directory. -/
theorem Placed.reconnect {ok : Bool} {dir : Path} (h : Placed home name s)
    (hsession : s'.session = reconnected home ok) (hasked : s'.asked = s.asked)
    (hexpected : ∀ dir' ∈ expected home name s'.phase, dir' = dir) (hdir : ok = true → home = dir) :
    Placed home name s' := by
  refine h.moveTo hasked dir (fun dir' hdir' => ?_) hexpected
  rw [hsession] at hdir'
  obtain ⟨hok, rfl⟩ := mem_reconnected hdir'
  exact hdir hok

/-- A file may be asked for where the session is in the directory of the pack. -/
theorem Placed.ask {filename : Text} (h : Placed home name s)
    (hhere : expected home name s.phase = some (packDir home name))
    (hsession : s'.session = s.session) (hasked : s'.asked = ⟨filename, s.session⟩ :: s.asked)
    (hexpected : expected home name s'.phase = some (packDir home name)) :
    Placed home name s' := by
  have hpack : ∀ dir ∈ s.session, dir = packDir home name := h.session _ hhere
  constructor
  · intro dir hdir dir' hdir'
    rw [hexpected, Option.mem_some_iff] at hdir
    rw [← hdir]
    exact hpack dir' (hsession ▸ hdir')
  · rw [hasked]
    exact List.forall_mem_cons.mpr ⟨hpack, h.asked⟩

/-- Behind the entry the session is in the directory of the pack. -/
theorem Placed.afterEnter {instructions : List Text} {reply : ControlReply}
    (h : Placed home name s) (hphase : s.phase = .entering instructions)
    (hsteady : Steady home name s (.enter reply)) :
    Placed home name (afterEnter home name s instructions reply) := by
  have hhome : ∀ dir ∈ s.session, dir = home := h.session home (by rw [hphase]; rfl)
  unfold WorkingDirectory.afterEnter
  cases hcwd : cwd reply with
  | error e => exact h.goTo rfl rfl (by simp [expected])
  | ok status =>
      dsimp only
      split
      · exact h.goTo rfl rfl (by simp [expected])
      · split
        · rename_i hstatus
          refine h.moveTo rfl (packDir home name) ?_ (by simp [expected])
          intro dir' hdir'
          obtain ⟨dir, hdir, rfl⟩ := Option.map_eq_some_iff.mp hdir'
          rw [hhome dir hdir]
          exact hsteady (by rw [hcwd, hstatus])
        · exact h.goTo rfl rfl (by simp [expected])

/-- A round of the loop does not touch the session. -/
theorem Placed.afterRound {rest : List Text} (h : Placed home name s)
    (hphase : s.phase = .looping rest) (deletes makes : Bool) :
    Placed home name (afterRound s deletes makes rest) := by
  have hexpected : expected home name s.phase = some (packDir home name) := by rw [hphase]; rfl
  cases rest with
  | nil =>
      refine h.goTo rfl rfl ?_
      rw [hexpected]
      simp [WorkingDirectory.afterRound, expected]
  | cons instruction rest =>
      refine h.goTo ?_ ?_ ?_
      · unfold WorkingDirectory.afterRound
        dsimp only
        split <;> rfl
      · unfold WorkingDirectory.afterRound
        dsimp only
        split <;> rfl
      · rw [hexpected]
        unfold WorkingDirectory.afterRound
        dsimp only
        split <;> simp [expected]

/-- Behind the loop the session is in the home directory. -/
theorem Placed.afterLeave {reply : ControlReply} (h : Placed home name s)
    (hphase : s.phase = .leaving) (hsteady : Steady home name s (.leave reply)) :
    Placed home name (afterLeave home s reply) := by
  have hpack : ∀ dir ∈ s.session, dir = packDir home name :=
    h.session _ (by rw [hphase]; rfl)
  refine h.moveTo rfl home ?_ (by simp [WorkingDirectory.afterLeave, expected])
  intro dir' hdir'
  cases hs : s.session with
  | none => simp [WorkingDirectory.afterLeave, hs] at hdir'
  | some dir =>
      have hdir : dir = packDir home name := hpack dir hs
      have hmeets := hsteady (by simp [hs])
      by_cases hcwd : cwd reply = .ok 0
      · rw [if_pos hcwd] at hmeets
        have hup : dir' = chdirTarget home dir ['.', '.'] := by
          simpa [WorkingDirectory.afterLeave, hs, hcwd, eq_comm] using hdir'
        have htarget : chdirTarget home dir ['.', '.'] = dir.dropLast := by
          simp [chdirTarget, Fs.resolve, pieces]
        rw [hup, htarget, hdir, hmeets]
      · rw [if_neg hcwd] at hmeets
        have hstays : dir' = dir := by
          simpa [WorkingDirectory.afterLeave, hs, hcwd, eq_comm] using hdir'
        rw [hstays, hdir, hmeets]

end StepLemmas

/-- A step that meets the condition keeps the session where it is expected. -/
theorem placed_step {home : Path} {name : Text} (s : UpdateState) (e : Event) (s' : UpdateState)
    (h : Placed home name s) (hsteady : Steady home name s e)
    (hstep : step home name s e = some s') : Placed home name s' := by
  cases e with
  | lose =>
      rw [← Option.some.inj hstep]
      exact h.of_lost rfl rfl
  | fetchReconnects ok =>
      simp only [step] at hstep
      split at hstep
      · rw [← Option.some.inj hstep]
        exact h.reconnect rfl rfl (by cases ok <;> simp [expected]) fun _ => rfl
      · cases hstep
  | fetched instructions =>
      simp only [step] at hstep
      split at hstep
      · rename_i hphase
        rw [← Option.some.inj hstep]
        refine h.goTo rfl rfl ?_
        cases instructions <;> simp [expected, hphase]
      · cases hstep
  | enter reply =>
      simp only [step] at hstep
      split at hstep
      · rename_i hphase
        split at hstep
        · rw [← Option.some.inj hstep]
          exact h.afterEnter hphase hsteady
        · cases hstep
      · cases hstep
  | retry ok =>
      simp only [step] at hstep
      split at hstep
      · rw [← Option.some.inj hstep]
        exact h.reconnect rfl rfl (by simp [expected]) fun _ => rfl
      · cases hstep
  | round deletes makes =>
      simp only [step] at hstep
      split at hstep
      · rename_i hphase
        rw [← Option.some.inj hstep]
        exact h.afterRound hphase deletes makes
      · cases hstep
  | opened result =>
      simp only [step] at hstep
      split at hstep
      · rename_i hphase
        rw [← Option.some.inj hstep]
        refine h.goTo rfl rfl ?_
        dsimp only
        split
        · simp [expected, hphase]
        · split <;> simp [expected, hphase]
      · cases hstep
  | reconnects ok =>
      simp only [step] at hstep
      split at hstep
      · rw [← Option.some.inj hstep]
        exact h.reconnect rfl rfl (by cases ok <;> simp [expected]) fun hok => (hsteady hok).symm
      · cases hstep
  | retrieve size =>
      simp only [step] at hstep
      split at hstep
      · rename_i filename rest hphase
        rw [← Option.some.inj hstep]
        exact h.ask (by rw [hphase]; rfl) rfl rfl (by cases size <;> rfl)
      · cases hstep
  | delivered success =>
      simp only [step] at hstep
      split at hstep
      · rename_i hphase
        rw [← Option.some.inj hstep]
        refine h.goTo rfl rfl ?_
        cases success <;> simp [expected, hphase]
      · cases hstep
  | leave reply =>
      simp only [step] at hstep
      split at hstep
      · rename_i hphase
        split at hstep
        · rw [← Option.some.inj hstep]
          exact h.afterLeave hphase hsteady
        · cases hstep
      · cases hstep

/-- Who is where the phase expects it has asked in the directory of the pack. -/
theorem Placed.inPackDir {home : Path} {name : Text} {s : UpdateState} (h : Placed home name s) :
    InPackDir home name s := by
  refine ⟨h.asked, fun hleft dir hdir => ?_⟩
  exact h.session home (by rw [hleft]; rfl) dir hdir

/-- In a run of steps that meet the condition every file of an instruction is
asked for in the directory of the pack, and the loop is left in the home
directory. -/
theorem inPackDir_of_steady {home : Path} {name : Text} {es : List Event} {s : UpdateState}
    (hmeets : RunMeets (step home name) (Steady home name) (UpdateState.start home) es)
    (hrun : run (step home name) (UpdateState.start home) es = some s) :
    InPackDir home name s :=
  (run_invariant placed_step (UpdateState.start_placed home name) hmeets hrun).inPackDir

/-- The update of one file without a loss of the connection. -/
def undisturbed : List Event :=
  [.fetched (some ["+fa".toList]), .enter (.line "250 Directory successfully changed.".toList),
    .round false false, .opened (some 0), .retrieve (some 3), .delivered true,
    .round false false, .leave (.line "250 Directory successfully changed.".toList)]

theorem undisturbed_steady :
    RunMeets (step ["home".toList] "m".toList) (Steady ["home".toList] "m".toList)
      (UpdateState.start ["home".toList]) undisturbed := by
  decide

theorem inPackDir_undisturbed :
    ∃ s, run (step ["home".toList] "m".toList) (UpdateState.start ["home".toList]) undisturbed =
        some s ∧ s.phase = .left ∧ InPackDir ["home".toList] "m".toList s :=
  ⟨_, rfl, rfl, inPackDir_of_steady undisturbed_steady rfl⟩

/-- The connection times out in front of the file. -/
def timedOut : List Event :=
  [.fetched (some ["+fa".toList]), .enter (.line "250 Directory successfully changed.".toList),
    .round false false, .lose, .opened (some (-1)), .reconnects true, .opened (some 0),
    .retrieve (some 3), .delivered true, .round false false,
    .leave (.line "250 Directory successfully changed.".toList)]

/-- After the reconnect the file is asked for in the home directory, and the
session ends in the directory above it. -/
theorem inPackDir_fails :
    ∃ s, run (step ["srv".toList, "home".toList] "m".toList)
        (UpdateState.start ["srv".toList, "home".toList]) timedOut = some s ∧
      ¬ InPackDir ["srv".toList, "home".toList] "m".toList s ∧
      s.asked = [⟨"a".toList, some ["srv".toList, "home".toList]⟩] ∧
      s.phase = .left ∧ s.session = some ["srv".toList] := by
  refine ⟨_, rfl, ?_, rfl, rfl, rfl⟩
  rintro ⟨-, hleft⟩
  have hhome := hleft rfl _ rfl
  revert hhome
  decide

end WorkingDirectory
end Update
end ModpackInstaller
