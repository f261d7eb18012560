import ModpackInstaller.Client.UpdateLoop
import ModpackInstaller.Library.Run
import ModpackInstaller.Server.Plan
import ModpackInstaller.Server.Reply

/-!
# The version an update records

{lit}`InstallPanel.updatePack` as a state machine: it fetches the
instructions, changes into the directory of the pack, executes the
instructions, runs the post-download step, asks {lit}`SITE VERS`, and writes
the answer down.  New versions are published by a file system that answers
differently as time passes.  The state remembers, for the proof only, the
latest version the planner saw when it made the instructions in hand.

Main results:

- Theorem {lit}`recorded_version`: an update that returns true recorded the
  version its instructions were planned for, in the list of packs and in the
  file {lit}`ver` if that could be written, when the version file still states
  it at the moment of the question and the answer reaches the installer.
- Theorem {lit}`recorded_version_fails`: a publication between the two moments,
  or a refusal of the question, makes it record something else.
-/

namespace ModpackInstaller
namespace Update
namespace Recording

open Library Server Client

/-! ## The state machine -/

/-- `Pack`, with `none` for a `null` version. -/
structure Pack where
  name : Text
  directory : Path
  version : Option Text
deriving DecidableEq, Repr

/-- The file `ver` in the directory of the pack. -/
def Pack.ver (pack : Pack) : Path :=
  Fs.resolve pack.directory "ver".toList

/-- A string as Java appends it to another one. -/
def appended (s : Option Text) : Text :=
  s.getD "null".toList

/-- How far `updatePack` has come. -/
inductive Phase where
  | fetching
  | entering (instructions : List Text)
  | executing (instructions : List Text)
  | finishing
  | asking
  | recording (latestVersion : Option Text)
  | returned (result : Bool)
  | threw (exception : Thrown)
deriving DecidableEq, Repr

/-- The installer, the server's clock, and what the planner saw. -/
structure UpdateState where
  sys : Sys
  phase : Phase
  fs : Fs
  packList : List Pack
  /-- The text handed to the writer of the file `ver`. -/
  wrote : Option Text
  /-- The writer has come to its end without an exception. -/
  saved : Bool
  /-- The latest version at the moment the instructions were planned. -/
  planned : Option Text
deriving DecidableEq, Repr

/-- What `fetchUpdateInstructions` comes to. -/
inductive Fetch where
  /-- It returns `null` without an answer of the handler. -/
  | gaveUp
  | networkError
  /-- The handler runs, and so many characters of its instructions arrive. -/
  | requested (checks : Option Text) (instr : Text) (received : Nat)

/-- What `chat("SITE VERS ...")` comes to. -/
inductive Answer where
  /-- The reply of the handler. -/
  | served
  /-- Any other line on the control connection. -/
  | line (response : Text)
  | ioError

/-- How the file `ver` is written. -/
inductive Write where
  /-- To its end, where it can be opened at all. -/
  | complete
  /-- An `IOException`, and what it leaves. -/
  | broken (after : Fs)

/-- The steps of an update and of its surroundings. -/
inductive Event where
  /-- Time passes at the server. -/
  | pass (lookups : Nat)
  | fetch (outcome : Fetch)
  /-- The result of `cwd`. -/
  | cwd (status : Int)
  | execute (transfer : Nat → Text → Transfer)
  /-- `doPostDownload`, which may do anything to the files. -/
  | finish (outcome : Except Thrown Bool) (after : Fs)
  | ask (answer : Answer)
  | record (write : Write)

section Steps

variable (k : Kernel) (pack : Pack) (s : UpdateState)

/-- The argument of `SITE UINS`. -/
def Pack.uinsArg (pack : Pack) : Text :=
  pack.name ++ ' ' :: appended pack.version

/-- `fetchUpdateInstructions` -/
def fetchUpdateInstructions : Fetch → UpdateState
  | .gaveUp => { s with phase := .returned false }
  | .networkError => { s with phase := .threw .network }
  | .requested checks instr received =>
    match handleSiteUins k s.sys checks instr pack.uinsArg with
    | .error _ => { s with phase := .returned false }
    | .ok (.refuses _, sys) => { s with sys := sys, phase := .returned false }
    | .ok (.sends instructions, sys) =>
      { s with
        sys := sys
        phase := .entering (javaSplit (instructions.take received))
        planned := latestVersion k s.sys (strSplitChar pack.uinsArg ' ').1 }

/-- The `switch` over the result of `cwd`. -/
def enter (instructions : List Text) (status : Int) : UpdateState :=
  if status = -1 then { s with phase := .fetching }
  else if status = 0 then { s with phase := .executing instructions }
  else { s with phase := .returned false }

/-- The loop over the instructions. -/
def execute (instructions : List Text) (transfer : Nat → Text → Transfer) : UpdateState :=
  match runInstructions pack.directory transfer 0 instructions s.fs with
  | (none, fs) => { s with phase := .finishing, fs := fs }
  | (some (.returnsFalse _), fs) => { s with phase := .returned false, fs := fs }
  | (some (.throws e), fs) => { s with phase := .threw e, fs := fs }

/-- `doPostDownload` -/
def finish (outcome : Except Thrown Bool) (after : Fs) : UpdateState :=
  match outcome with
  | .ok true => { s with phase := .asking, fs := after }
  | .ok false => { s with phase := .returned false, fs := after }
  | .error e => { s with phase := .threw e, fs := after }

/-- The question has got this line for an answer. -/
def heard (response : Text) : UpdateState :=
  match getLatestVersion response with
  | .ok latestVersion => { s with phase := .recording latestVersion }
  | .error e => { s with phase := .threw e }

/-- `getLatestVersion` -/
def ask : Answer → UpdateState
  | .served =>
    match handleSiteVers k s.sys pack.name with
    | .error _ => { s with phase := .returned false }
    | .ok (reply, sys) =>
      match readLine reply with
      | some (response, _) => heard { s with sys := sys } response
      | none => { s with sys := sys, phase := .returned false }
  | .line response => heard s response
  | .ioError => { s with phase := .returned false }

/-- The answer is written down.  An `IOException` is only logged. -/
def record (latestVersion : Option Text) (write : Write) : UpdateState :=
  let text := appended latestVersion ++ ['\n']
  { s with
    phase := .returned true
    wrote := some text
    saved := match write with
      | .complete => (s.fs.write pack.ver text).isSome
      | .broken _ => false
    fs := match write with
      | .complete => (s.fs.write pack.ver text).getD s.fs
      | .broken after => after
    packList := s.packList.map fun p =>
      if p.name = pack.name then { p with version := latestVersion } else p }

/-- One step; `none` when it is not the turn of the event. -/
def step : Event → Option UpdateState
  | .pass lookups => some { s with sys := { s.sys with clock := s.sys.clock + lookups } }
  | .fetch outcome =>
    match s.phase with
    | .fetching => some (fetchUpdateInstructions k pack s outcome)
    | _ => none
  | .cwd status =>
    match s.phase with
    | .entering instructions => some (enter s instructions status)
    | _ => none
  | .execute transfer =>
    match s.phase with
    | .executing instructions => some (execute pack s instructions transfer)
    | _ => none
  | .finish outcome after =>
    match s.phase with
    | .finishing => some (finish s outcome after)
    | _ => none
  | .ask answer =>
    match s.phase with
    | .asking => some (ask k pack s answer)
    | _ => none
  | .record write =>
    match s.phase with
    | .recording latestVersion => some (record pack s latestVersion write)
    | _ => none

end Steps

/-! ## What is recorded -/

/-- The recorded version is the one the instructions were planned for, in the
list of packs, in the text for the file `ver`, and in that file when it could be
written. -/
def Recorded (pack : Pack) (s : UpdateState) : Prop :=
  ∃ v, s.planned = some v ∧ s.wrote = some (v ++ ['\n']) ∧
    (s.saved = true → s.fs.get pack.ver = some (.file (v ++ ['\n']))) ∧
    ∀ p ∈ s.packList, p.name = pack.name → p.version = some v

/-- A version that the reply writer and the line reader pass on as it is. -/
def Deliverable (version : Text) : Prop :=
  nul ∉ version ∧ '\r' ∉ version ∧ '\xff' ∉ version

/-- When the version is asked for, the version file still states what the
planner saw and the reply carries it, or some other line states it. -/
def StillPlanned (k : Kernel) (pack : Pack) (s : UpdateState) : Event → Prop
  | .ask .served =>
    pack.name ≠ [] ∧ latestVersion k s.sys pack.name = s.planned ∧
      ∀ v ∈ s.planned, Deliverable v
  | .ask (.line response) =>
    response.take 3 = ['2', '1', '6'] ∧ 4 ≤ response.length ∧ s.planned = some (response.drop 4)
  | _ => True

instance (k : Kernel) (pack : Pack) (s : UpdateState) :
    (e : Event) → Decidable (StillPlanned k pack s e)
  | .ask .served =>
    have : DecidablePred Deliverable := fun _ => inferInstanceAs (Decidable (_ ∧ _ ∧ _))
    inferInstanceAs (Decidable (_ ∧ _ ∧ ∀ v ∈ s.planned, Deliverable v))
  | .ask (.line _) => inferInstanceAs (Decidable (_ ∧ _ ∧ _))
  | .ask .ioError => inferInstanceAs (Decidable True)
  | .pass _ => inferInstanceAs (Decidable True)
  | .fetch _ => inferInstanceAs (Decidable True)
  | .cwd _ => inferInstanceAs (Decidable True)
  | .execute _ => inferInstanceAs (Decidable True)
  | .finish _ _ => inferInstanceAs (Decidable True)
  | .record _ => inferInstanceAs (Decidable True)

/-- What is known in each phase when every question is answered so. -/
def Consistent (pack : Pack) (s : UpdateState) : Prop :=
  match s.phase with
  | .entering _ | .executing _ | .finishing | .asking =>
    '/' ∉ pack.name ∧ ∃ v, s.planned = some v
  | .recording latestVersion => ∃ v, s.planned = some v ∧ latestVersion = some v
  | .returned true => Recorded pack s
  | _ => True

/-! ## The steps -/

section Steps

variable {k : Kernel} {pack : Pack} {s : UpdateState}

/-- A line that states a version is taken for it. -/
theorem getLatestVersion_stated {response : Text} (hcode : response.take 3 = ['2', '1', '6'])
    (hlength : 4 ≤ response.length) :
    getLatestVersion response = .ok (some (response.drop 4)) := by
  have hparse : parseInt ['2', '1', '6'] = some 216 := by decide
  have hresponse : getResponseCode response = .ok 216 := by
    rw [getResponseCode, if_neg (by omega), hcode, hparse]
    rfl
  simp only [getLatestVersion, hresponse, if_true, if_neg (Nat.not_lt.mpr hlength)]

/-- The reply with a deliverable version is read as one line. -/
theorem readLine_vsfCmdioWrite {v : Text} (hnewline : '\n' ∉ v) (hv : Deliverable v) :
    readLine (vsfCmdioWrite 216 v) = some ('2' :: '1' :: '6' :: ' ' :: v, []) := by
  obtain ⟨hnul, hcr, hescape⟩ := hv
  have hwire : vsfCmdioWrite 216 v = ('2' :: '1' :: '6' :: ' ' :: v) ++ ['\r', '\n'] := by
    rw [vsfCmdioWrite, (cstr_eq_self_iff v).mpr hnul, ftpWriteStrCommon, replyLine,
      mangle_of_plain hnewline hescape]
    rfl
  rw [hwire]
  refine readLine_crlf (fun c hc => ?_) []
  have hplain : ∀ c ∈ v, isLineBreak c = false := by
    intro c hc
    have hne : c ≠ '\n' ∧ c ≠ '\r' := ⟨fun h => hnewline (h ▸ hc), fun h => hcr (h ▸ hc)⟩
    simp [isLineBreak, hne]
  simp only [List.mem_cons] at hc
  rcases hc with rfl | rfl | rfl | rfl | hc
  · decide
  · decide
  · decide
  · decide
  · exact hplain c hc

theorem consistent_fetch (outcome : Fetch) :
    Consistent pack (fetchUpdateInstructions k pack s outcome) := by
  cases outcome with
  | gaveUp => trivial
  | networkError => trivial
  | requested checks instr received =>
      rw [fetchUpdateInstructions]
      split
      · trivial
      · trivial
      · rename_i hsends
        obtain ⟨hslash, p, -, hlatest⟩ := latestVersion_of_sends hsends
        have hname : '/' ∉ pack.name := fun h => hslash (by simp [Pack.uinsArg, h])
        exact ⟨hname, p.latest, hlatest⟩

theorem consistent_ask {answer : Answer} (hphase : s.phase = .asking)
    (hs : Consistent pack s) (hanswer : StillPlanned k pack s (.ask answer)) :
    Consistent pack (ask k pack s answer) := by
  rw [Consistent, hphase] at hs
  obtain ⟨hslash, v, hplanned⟩ := hs
  cases answer with
  | served =>
      obtain ⟨hname, hlatest, hdeliver⟩ := hanswer
      rw [hplanned] at hlatest
      obtain ⟨sys', hreply⟩ := handleSiteVers_of_latestVersion hname hslash hlatest
      have hread := readLine_vsfCmdioWrite (newline_not_mem_latestVersion hlatest)
        (hdeliver v (by rw [hplanned]; rfl))
      have hstated : getLatestVersion ('2' :: '1' :: '6' :: ' ' :: v) = .ok (some v) :=
        getLatestVersion_stated rfl (by simp [List.length_cons])
      simp only [ask, hreply, hread, heard, hstated]
      exact ⟨v, hplanned, rfl⟩
  | line response =>
      obtain ⟨hcode, hlength, hstated⟩ := hanswer
      simp only [ask, heard, getLatestVersion_stated hcode hlength]
      exact ⟨_, hstated, rfl⟩
  | ioError => trivial

/-- What is written down is what was planned. -/
theorem recorded_record {latestVersion : Option Text} (write : Write)
    (h : ∃ v, s.planned = some v ∧ latestVersion = some v) :
    Recorded pack (record pack s latestVersion write) := by
  obtain ⟨v, hplanned, rfl⟩ := h
  refine ⟨v, hplanned, rfl, fun hsaved => ?_, fun p hp hname => ?_⟩
  · cases write with
    | complete =>
        obtain ⟨fs', hwrite⟩ := Option.isSome_iff_exists.mp hsaved
        simp only [record, appended, Option.getD_some] at hwrite ⊢
        rw [hwrite, Option.getD_some, Fs.get_write hwrite, if_pos rfl]
    | broken after => cases hsaved
  · obtain ⟨q, -, rfl⟩ := List.mem_map.mp hp
    by_cases hq : q.name = pack.name
    · simp [hq]
    · simp only [if_neg hq] at hname
      exact absurd hname hq

/-- A step whose question is answered so keeps what is known. -/
theorem consistent_step {e : Event} {s' : UpdateState} (hs : Consistent pack s)
    (he : StillPlanned k pack s e) (hstep : step k pack s e = some s') : Consistent pack s' := by
  cases e with
  | pass lookups =>
      rw [step, Option.some.injEq] at hstep
      rw [← hstep]
      exact hs
  | fetch outcome =>
      simp only [step] at hstep
      split at hstep
      · rw [← Option.some.inj hstep]
        exact consistent_fetch outcome
      · simp at hstep
  | cwd status =>
      simp only [step] at hstep
      split at hstep
      · rename_i instructions hphase
        rw [Consistent, hphase] at hs
        rw [← Option.some.inj hstep, enter]
        split
        · trivial
        · split
          · exact hs
          · trivial
      · simp at hstep
  | execute transfer =>
      simp only [step] at hstep
      split at hstep
      · rename_i instructions hphase
        rw [Consistent, hphase] at hs
        rw [← Option.some.inj hstep, execute]
        split
        · exact hs
        · trivial
        · trivial
      · simp at hstep
  | finish outcome after =>
      simp only [step] at hstep
      split at hstep
      · rename_i hphase
        rw [Consistent, hphase] at hs
        rw [← Option.some.inj hstep]
        match outcome with
        | .ok true => exact hs
        | .ok false => trivial
        | .error e => trivial
      · simp at hstep
  | ask answer =>
      simp only [step] at hstep
      split at hstep
      · rename_i hphase
        rw [← Option.some.inj hstep]
        exact consistent_ask hphase hs he
      · simp at hstep
  | record write =>
      simp only [step] at hstep
      split at hstep
      · rename_i latestVersion hphase
        rw [Consistent, hphase] at hs
        rw [← Option.some.inj hstep]
        exact recorded_record write hs
      · simp at hstep

end Steps

/-! ## Runs -/

/-- An update that returns true recorded the version its instructions were
planned for, when every question for the version is still answered with it. -/
theorem recorded_version {k : Kernel} {pack : Pack} {s s' : UpdateState} {es : List Event}
    (hstart : s.phase = .fetching)
    (hmeets : RunMeets (step k pack) (StillPlanned k pack) s es)
    (hrun : run (step k pack) s es = some s') (hret : s'.phase = .returned true) :
    Recorded pack s' := by
  have hs : Consistent pack s := by
    rw [Consistent, hstart]
    trivial
  have hs' : Consistent pack s' := run_invariant
    (fun _ _ _ hP hmeet hstep => consistent_step hP hmeet hstep) hs hmeets hrun
  rwa [Consistent, hret] at hs'

/-- The pack {lit}`m` at version 1. -/
def outdatedPack : Pack := ⟨['m'], [['i']], some ['1']⟩

/-- An update of that pack about to start. -/
def updateStart : UpdateState :=
  ⟨⟨0, []⟩, .fetching, ⟨[([['i']], .dir)]⟩, [outdatedPack], none, false, none⟩

/-- A file system in which the version file of the pack is replaced at moment
10, or gone from then on. -/
def publishedLater (later : Option Text) : Kernel where
  openRead t path :=
    if 10 ≤ t ∧ path = versionPath ['m'] then later.map .ofText
    else (outdated ".\n".toList ".\n".toList "@1\n".toList fun _ => none).openRead t path
  stat _ _ := none

/-- The update up to the question for the version. -/
def untilAsking : List Event :=
  [.fetch (.requested none [] 100), .cwd 0, .execute fun _ _ => .networkError,
    .finish (.ok true) updateStart.fs]

/-- Nothing is published in between, and version 2 is recorded. -/
theorem recorded_version_quiet :
    Recorded outdatedPack
      ⟨⟨5, []⟩, .returned true, ⟨[([['i'], "ver".toList], .file "2\n".toList), ([['i']], .dir)]⟩,
        [{ outdatedPack with version := some ['2'] }], some "2\n".toList, true,
        some ['2']⟩ := by
  have hmeets : RunMeets (step (publishedLater (some "3\n".toList)) outdatedPack)
      (StillPlanned (publishedLater (some "3\n".toList)) outdatedPack) updateStart
      (untilAsking ++ [.ask .served, .record .complete]) := by decide
  exact recorded_version rfl hmeets (by decide) rfl

/-- Version 3 is published between the planning and the question, and is
recorded although only version 2 was planned for.  When the version file is
just missing at that moment, the text {lit}`null` is recorded. -/
theorem recorded_version_fails :
    (∃ s', run (step (publishedLater (some "3\n".toList)) outdatedPack) updateStart
        (untilAsking ++ [.pass 10, .ask .served, .record .complete]) = some s' ∧
      s'.phase = .returned true ∧ s'.planned = some ['2'] ∧ s'.wrote = some "3\n".toList ∧
      s'.packList = [{ outdatedPack with version := some ['3'] }]) ∧
    ∃ s', run (step (publishedLater none) outdatedPack) updateStart
        (untilAsking ++ [.pass 10, .ask .served, .record .complete]) = some s' ∧
      s'.phase = .returned true ∧ s'.planned = some ['2'] ∧ s'.wrote = some "null\n".toList ∧
      s'.packList = [{ outdatedPack with version := none }] := by
  refine ⟨⟨_, rfl, ?_⟩, _, rfl, ?_⟩
  · decide
  · decide

end Recording
end Update
end ModpackInstaller
