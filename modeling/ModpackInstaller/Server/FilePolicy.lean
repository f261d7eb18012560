import ModpackInstaller.Server.FileCommands

/-!
# What a session may do to files

Which call is permitted behind which journal: what the configuration, the command in force and
the answers so far let a session do.  No handler of {lit}`postlogin.c` does anything else,
whatever the client sends and whatever the kernel answers.  {lit}`deny_file` is not asked where
{lit}`MDTM` and {lit}`STOU` look whether a name is there, nor in {lit}`mcupdate.c`.

Main results:

- Theorem {lit}`deeds_permitted`: over every session, every call was permitted by what was done
  before it.
-/

namespace ModpackInstaller
namespace Server
namespace FileCommands

open Library Library.Proc Control Logging Server.Filter

/-! ## What a journal says -/

abbrev Journal := List (Deed Call.Result)

/-- The command of a line that was read. -/
def commandOf : (c : Call) → c.Result → Option Text
  | .getLine, line => Option.map (fun line => (vsfCmdioGetCmdAndArg (stripLine line)).1) line
  | _, _ => none

/-- The command that is worked on. -/
def inForce : Journal → Text
  | [] => []
  | d :: before => (commandOf d.call d.result).getD (inForce before)

/-- A descriptor that is in use, with the name behind it and what is known of the file. -/
inductive Held where
  /-- Whether the upload has come in whole. -/
  | created (path : Text) (exclusive : Bool) (fd : Nat) (complete : Bool)
  | reading (path : Text) (fd : Nat) (st : Option Statbuf)
  | listing (path : Text) (dir : Nat) (st : Option Statbuf)
deriving DecidableEq, Repr

/-- What a call opens. -/
def opens : (c : Call) → c.Result → Option Held
  | .create path exclusive, fd => Option.map (fun fd => .created path exclusive fd false) fd
  | .openReadOnly path, fd => Option.map (fun fd => .reading path fd none) fd
  | .opendir path, dir => Option.map (fun dir => .listing path dir none) dir
  | _, _ => none

/-- The calls behind which a name still stands for the same file. -/
def Call.steady : Call → Bool
  | getLine | chdir _ | opendir _ | openReadOnly _ | create .. | close _ | closedir _ | mkdir ..
  | rmdir _ | unlink _ | rename .. | chmod .. | setmodtime .. | updateInstructions ..
  | elsewhere .. => false
  | _ => true

/-- What a call tells about the file that is held. -/
def Held.told : Held → (c : Call) → c.Result → Held
  | created path exclusive fd _, .transferFile .., ret =>
    .created path exclusive fd (TransferRet.retval ret = 0)
  | created path exclusive fd complete, .disposeTransferFd, disposed =>
    .created path exclusive fd (and complete disposed)
  | reading path fd st, .fstat fd', st' => .reading path fd (if fd' = fd then st' else st)
  | listing path dir st, .dirStat dir', st' => .listing path dir (if dir' = dir then st' else st)
  | h, _, _ => h

/-- The file that is held. -/
def held : Journal → Option Held
  | [] => none
  | d :: before =>
    if d.call.steady then (held before).map fun h => h.told d.call d.result
    else opens d.call d.result

/-! ## The policy -/

variable (cfg : Config)

/-- The command that is worked on is one of these, and the configuration lets it through. -/
def Serving (before : Journal) (names : List String) : Prop :=
  letsThrough cfg (inForce before) = true ∧ named names (inForce before) = true

/-- A directory that a list command with an allowed filter opens. -/
def Listable (path : Text) : Prop :=
  path = ['.'] ∨ path = ['/'] ∨ allowed cfg path = true ∨
    ∃ pattern, allowed cfg (path ++ '/' :: pattern) = true

/-- An upload that has not come in whole, under an allowed name. -/
def Uploads (before : Journal) (path : Text) (exclusive : Bool) (fd : Nat) : Prop :=
  held before = some (.created path exclusive fd false) ∧ allowed cfg path = true

/-- The file may be read, as far as the world must be able to. -/
def Readable (st : Statbuf) : Prop :=
  cfg.isAnonymous = true → cfg.anonWorldReadableOnly = true → st.isReadableOther = true

/-- What is said of an update: by a local user, with `SITE` and without a slash. -/
def SaysOfUpdate (before : Journal) (text : Text) : Prop :=
  cfg.isAnonymous = false ∧ Serving cfg before ["SITE"] ∧ text ≠ [] ∧ '/' ∉ text

/-- Which call is permitted behind which journal. -/
def Permits (before : Journal) : Call → Prop
  | .fileread filename _ => cfg.dirmessageEnable = true ∧ filename = cfg.messageFile
  | .chdir path => Serving cfg before ["CWD", "XCWD", "CDUP", "XCUP"] ∧ allowed cfg path = true
  | .stat path => allowed cfg path = true ∨ Serving cfg before ["MDTM", "STOU"]
  | .opendir path =>
    cfg.dirlistEnable = true ∧ Serving cfg before ["LIST", "NLST", "STAT"] ∧ Listable cfg path
  | .transferDir _ dir baseDir _ _ _ =>
    Listable cfg baseDir ∧
      ∃ st, held before = some (.listing baseDir dir st) ∧ ∀ st', st = some st' → Readable cfg st'
  | .openReadOnly path =>
    cfg.downloadEnable = true ∧ (cfg.isHttp = true ∨ Serving cfg before ["RETR"]) ∧
      allowed cfg path = true
  | .transferFile _ fd false _ =>
    ∃ path st, held before = some (.reading path fd (some st)) ∧ allowed cfg path = true ∧
      st.isRegfile = true ∧ Readable cfg st
  | .create path true =>
    mayUpload cfg = true ∧ Serving cfg before ["STOR", "STOU"] ∧ allowed cfg path = true
  | .create path false =>
    mayWrite cfg = true ∧
      (Serving cfg before ["APPE"] ∨ mayUpload cfg = true ∧ Serving cfg before ["STOR"]) ∧
      allowed cfg path = true
  | .fchmod fd mode =>
    cfg.isAnonymous = true ∧ cfg.chownUploads = true ∧ mode = cfg.chownUploadMode % 512 ∧
      ∃ path exclusive, Uploads cfg before path exclusive fd
  | .chownUpload fd =>
    cfg.isAnonymous = true ∧ cfg.chownUploads = true ∧
      ∃ path exclusive, Uploads cfg before path exclusive fd
  | .ftruncate fd => ∃ path, Uploads cfg before path false fd
  | .transferFile _ fd true _ => ∃ path exclusive, Uploads cfg before path exclusive fd
  | .mkdir path mode =>
    mayMkdir cfg = true ∧ Serving cfg before ["MKD", "XMKD"] ∧ allowed cfg path = true ∧
      mode = 0o777
  | .rmdir path =>
    mayWrite cfg = true ∧ Serving cfg before ["RMD", "XRMD"] ∧ allowed cfg path = true
  | .unlink path =>
    mayWrite cfg = true ∧ Serving cfg before ["DELE"] ∧ allowed cfg path = true ∨
      cfg.deleteFailedUploads = true ∧ ∃ exclusive fd, Uploads cfg before path exclusive fd
  | .rename source target =>
    mayWrite cfg = true ∧ Serving cfg before ["RNTO"] ∧ allowed cfg source = true ∧
      allowed cfg target = true ∧ ∃ st : Statbuf, ⟨.stat source, some st⟩ ∈ before
  | .chmod path mode =>
    cfg.isAnonymous = false ∧ cfg.writeEnable = true ∧ cfg.chmodEnable = true ∧
      Serving cfg before ["SITE"] ∧ allowed cfg path = true ∧ mode < 512
  | .setmodtime path _ =>
    mayWrite cfg = true ∧ cfg.mdtmWrite = true ∧ Serving cfg before ["MDTM"] ∧
      allowed cfg path = true ∧
      ∃ (st : Statbuf) (earlier : Journal),
        before = ⟨.stat path, some st⟩ :: earlier ∧ st.isRegfile = true
  | .latestVersion modpack => SaysOfUpdate cfg before modpack
  | .updateInstructions modpack version => SaysOfUpdate cfg before version ∧ '/' ∉ modpack
  | .writeData text =>
    ∃ (modpack version : Text) (retval : Int),
      ⟨.updateInstructions modpack version, (retval, text)⟩ ∈ before
  | _ => True

/-! ## The file that is held -/

/-- A call that opens nothing leaves the file in hand, with what it has learnt. -/
theorem held_of_steady {c : Call} (h : c.steady = true) (r : c.Result) (journal : Journal) :
    held (⟨c, r⟩ :: journal) = (held journal).map fun hd => hd.told c r := by
  rw [held, if_pos h]

/-- A call that opens puts what it opened in hand. -/
theorem held_of_unsteady {c : Call} (h : c.steady = false) (r : c.Result) (journal : Journal) :
    held (⟨c, r⟩ :: journal) = opens c r := by
  rw [held, if_neg (by simp [h])]

/-- The name of a file that is held is allowed. -/
def Held.Allowed : Held → Prop
  | created path .. | reading path .. => allowed cfg path = true
  | listing path .. => Listable cfg path

variable {cfg}

/-- What is learnt of an open file does not make it forbidden. -/
theorem Held.Allowed.told {h : Held} (hallowed : h.Allowed cfg) (c : Call) (r : c.Result) :
    (h.told c r).Allowed cfg := by
  unfold Held.told
  split <;> exact hallowed

/-- What is opened by a call that is permitted. -/
theorem allowed_of_opens {before : Journal} {c : Call} {r : c.Result} {h : Held}
    (hpermits : Permits cfg before c) (hopens : opens c r = some h) : h.Allowed cfg := by
  cases c with
  | create path exclusive =>
      obtain ⟨fd, -, rfl⟩ := Option.map_eq_some_iff.mp hopens
      cases exclusive <;> exact hpermits.2.2
  | openReadOnly path =>
      obtain ⟨fd, -, rfl⟩ := Option.map_eq_some_iff.mp hopens
      exact hpermits.2.2
  | opendir path =>
      obtain ⟨dir, -, rfl⟩ := Option.map_eq_some_iff.mp hopens
      exact hpermits.2.2
  | _ => cases hopens

/-- Behind permitted calls the file in hand is an allowed one. -/
theorem allowed_of_held {journal : Journal} {h : Held}
    (hpermitted : Permitted (Permits cfg) journal) (hheld : held journal = some h) :
    h.Allowed cfg := by
  induction journal generalizing h with
  | nil => cases hheld
  | cons d before ih =>
      by_cases hsteady : d.call.steady = true
      · rw [held_of_steady hsteady, Option.map_eq_some_iff] at hheld
        obtain ⟨h', hbefore, rfl⟩ := hheld
        exact (ih hpermitted.2 hbefore).told d.call d.result
      · rw [held_of_unsteady (by simpa using hsteady)] at hheld
        exact allowed_of_opens hpermitted.1 hheld

variable (cfg)

/-! ## What most calls leave alone -/

/-- The calls that touch no file and tell nothing about one. -/
def Call.quiet : Call → Bool
  | write _ | log .. | getcwd | getpwnam _ | parseTime _ | lockFile .. | deactivateNoblock _
  | lseekTo .. | lseekEnd _ | dataTransferChecks | getRemoteTransferFd _ | aborReceived
  | clearAbor | cleanup | unassigned => true
  | _ => false

/-- A quiet call does not change what is in hand. -/
theorem held_cons_quiet (d : Deed Call.Result) (journal : Journal) (h : d.call.quiet = true) :
    held (d :: journal) = held journal := by
  obtain ⟨c, r⟩ := d
  have htold (hd : Held) : hd.told c r = hd := by
    cases c <;> first | (cases hd <;> rfl) | cases h
  have hsteady : c.steady = true := by
    cases c <;> first | rfl | cases h
  simp [held, hsteady, htold]

/-- Only reading a line puts another command in force. -/
theorem inForce_cons {c : Call} (h : c ≠ .getLine) (r : c.Result) (journal : Journal) :
    inForce (⟨c, r⟩ :: journal) = inForce journal := by
  cases c with
  | getLine => exact absurd rfl h
  | _ => rfl

/-- A quiet call leaves the command in force. -/
theorem inForce_cons_quiet (d : Deed Call.Result) (journal : Journal)
    (h : d.call.quiet = true) : inForce (d :: journal) = inForce journal := by
  refine inForce_cons (c := d.call) ?_ d.result journal
  intro hline
  rw [hline] at h
  cases h

/-- A quiet call is permitted at any moment. -/
theorem permits_quiet {before : Journal} {c : Call} (h : c.quiet = true) :
    Permits cfg before c := by
  cases c <;> trivial

variable {cfg}

/-- Over quiet calls the same command is served. -/
theorem Serving.goesOn {before after : Journal} {names : List String}
    (h : Serving cfg before names) (hon : GoesOn Call.quiet before after) :
    Serving cfg after names := by
  rw [Serving, hon.eq inForce_cons_quiet]
  exact h

/-- Every call but that for the next line goes on with the command. -/
theorem Serving.cons {before : Journal} {names : List String} (h : Serving cfg before names)
    {c : Call} (hc : c ≠ .getLine) (r : c.Result) : Serving cfg (⟨c, r⟩ :: before) names := by
  rw [Serving, inForce_cons hc]
  exact h

/-- A command out of a list is one out of a longer list. -/
theorem Serving.mono {before : Journal} {names names' : List String}
    (h : Serving cfg before names) (hsub : names ⊆ names') : Serving cfg before names' := by
  refine ⟨h.1, ?_⟩
  have hnamed := h.2
  simp only [named, List.contains_iff_mem] at hnamed ⊢
  exact List.map_subset _ hsub hnamed

variable {K : Type} {answer : (c : Call) → K → c.Result × K} {start : K} {w : State K}

/-- A name that was seen, and that the configuration lets through. -/
def Known (cfg : Config) (journal : Journal) (name : Text) : Prop :=
  nul ∉ name ∧ allowed cfg name = true ∧ ∃ st : Statbuf, ⟨.stat name, some st⟩ ∈ journal

/-- What holds of a session between its calls. -/
structure Ready (answer : (c : Call) → K → c.Result × K) (cfg : Config) (start : K)
    (w : State K) : Prop where
  sound : Sound answer (Permits cfg) start w
  home : nul ∉ w.own.homeStr
  rnfr : w.own.rnfrFilenameStr = [] ∨ Known cfg w.journal w.own.rnfrFilenameStr

/-- A session that is ready, behind quiet calls. -/
structure Calm (answer : (c : Call) → K → c.Result × K) (cfg : Config) (start : K)
    (w w' : State K) : Prop where
  ready : Ready answer cfg start w'
  goesOn : GoesOn Call.quiet w.journal w'.journal

/-- What is known of a name stays known. -/
theorem Known.cons {journal : Journal} {name : Text} (h : Known cfg journal name)
    (d : Deed Call.Result) : Known cfg (d :: journal) name := by
  obtain ⟨hclean, hallowed, st, hst⟩ := h
  exact ⟨hclean, hallowed, st, List.mem_cons_of_mem d hst⟩

/-- A permitted call leaves a state that is ready for the next one. -/
theorem Ready.call (hw : Ready answer cfg start w) {c : Call} (h : Permits cfg w.journal c) :
    Ready answer cfg start (w.behind c (answer c w.kernel).1 (answer c w.kernel).2) := by
  refine ⟨hw.sound.call h, hw.home, ?_⟩
  rcases hw.rnfr with hnone | hknown
  · exact .inl hnone
  · exact .inr (hknown.cons _)

/-- Nothing has been done yet. -/
theorem Ready.calm (hw : Ready answer cfg start w) : Calm answer cfg start w w :=
  ⟨hw, .refl _⟩

/-- Quiet steps behind quiet steps. -/
theorem Calm.trans {w' w'' : State K} (h : Calm answer cfg start w w')
    (h' : Calm answer cfg start w' w'') : Calm answer cfg start w w'' :=
  ⟨h'.ready, h.goesOn.trans h'.goesOn⟩

/-- Quiet steps do not change what is in hand. -/
theorem Calm.held_eq {w' : State K} (h : Calm answer cfg start w w') :
    held w'.journal = held w.journal :=
  h.goesOn.eq held_cons_quiet

/-! ## Rules -/

variable {α : Type} {Q : α → State K → Prop}

/-- A call that the policy permits. -/
theorem meets_callOf (hw : Ready answer cfg start w) {c : Call} {next : c.Result → Action K α}
    (hpermits : Permits cfg w.journal c)
    (h : ∀ r k, Ready answer cfg start (w.behind c r k) →
      (next r).Meets (Ready answer cfg start) (w.behind c r k) Q) :
    (invoke answer c >>= next).Meets (Ready answer cfg start) w Q := by
  have hcall := hw.call hpermits
  exact (meets_invoke hcall (h _ _ hcall)).bind fun _ _ hnext => hnext

/-- A quiet call. -/
theorem meets_quiet (hw : Ready answer cfg start w) {c : Call} (hc : c.quiet = true) :
    (invoke answer c : Action K c.Result).Meets (Ready answer cfg start) w
      fun _ => Calm answer cfg start w := by
  have hcall := hw.call (permits_quiet cfg hc)
  exact meets_invoke hcall ⟨hcall, (GoesOn.refl _).cons hc⟩

/-- A look at the session does nothing. -/
theorem meets_look (hw : Ready answer cfg start w) {next : Session → Action K α}
    (h : (next w.own).Meets (Ready answer cfg start) w Q) :
    (inMind >>= next).Meets (Ready answer cfg start) w Q :=
  (meets_inMind hw h).bind fun _ _ hnext => hnext

/-- A change of the fields that no name is kept in. -/
theorem meets_keep (hw : Ready answer cfg start w) {change : Session → Session}
    (h : ∀ s, (change s).homeStr = s.homeStr ∧
      (change s).rnfrFilenameStr = s.rnfrFilenameStr) :
    (remember change : Action K Unit).Meets (Ready answer cfg start) w
      fun _ => Calm answer cfg start w := by
  have hready : Ready answer cfg start { w with own := change w.own } := by
    refine ⟨hw.sound.remember _, ?_, ?_⟩
    · exact (h w.own).1.symm ▸ hw.home
    · exact (h w.own).2.symm ▸ hw.rnfr
  exact meets_remember hready ⟨hready, .refl _⟩

/-- Nothing to do keeps to the policy. -/
theorem meets_done (hw : Ready answer cfg start w) :
    (pure () : Action K Unit).Meets (Ready answer cfg start) w
      fun _ => Calm answer cfg start w :=
  hw.calm

/-- What is done for a reason may use that reason. -/
theorem meets_onlyIf {Q : Unit → State K → Prop} {reason : Bool} {act : Action K Unit}
    (h : reason = true → act.Meets (Ready answer cfg start) w Q) (hskip : Q () w) :
    (onlyIf reason act).Meets (Ready answer cfg start) w Q := by
  unfold onlyIf
  split
  next hreason => exact h hreason
  · exact hskip

/-- One calm action behind the other. -/
theorem meets_calm_bind {β : Type} {act : Action K α} {next : α → Action K β}
    (h : act.Meets (Ready answer cfg start) w fun _ => Calm answer cfg start w)
    (hnext : ∀ a w', Calm answer cfg start w w' →
      (next a).Meets (Ready answer cfg start) w' fun _ => Calm answer cfg start w') :
    (act >>= next).Meets (Ready answer cfg start) w fun _ => Calm answer cfg start w :=
  h.bind fun a w' hcalm => (hnext a w' hcalm).imp fun _ _ hcalm' => hcalm.trans hcalm'

/-- Who was quiet leaves a ready state. -/
theorem meets_ready {act : Action K α}
    (h : act.Meets (Ready answer cfg start) w fun _ => Calm answer cfg start w) :
    act.Meets (Ready answer cfg start) w fun _ => Ready answer cfg start :=
  h.imp fun _ _ hcalm => hcalm.ready

/-! ## Quiet actions -/

/-- A reply is quiet. -/
theorem meets_say (hw : Ready answer cfg start w) (status : Nat) (text : String) :
    (say answer status text).Meets (Ready answer cfg start) w fun _ => Calm answer cfg start w :=
  meets_quiet hw rfl

/-- A reply with a text of the session is quiet. -/
theorem meets_sayStr (hw : Ready answer cfg start w) (status : Nat) (text : Text) :
    (sayStr answer status text).Meets (Ready answer cfg start) w
      fun _ => Calm answer cfg start w :=
  meets_quiet hw rfl

/-- What comes from the kernel is a C string. -/
theorem meets_strGetcwd (hw : Ready answer cfg start w) :
    (strGetcwd answer).Meets (Ready answer cfg start) w
      fun cwd w' => Calm answer cfg start w w' ∧ nul ∉ cwd :=
  (meets_quiet hw rfl).bind fun cwd _ hcalm => ⟨hcalm, not_mem_cstr cwd⟩

/-- The start of a log entry is quiet. -/
theorem meets_vsfLogStartEntry (hw : Ready answer cfg start w) (what : EntryType) :
    (vsfLogStartEntry what).Meets (Ready answer cfg start) w
      fun _ => Calm answer cfg start w := by
  refine meets_look hw ?_
  split
  · trivial
  · exact meets_keep hw (by simp)

/-- The end of a log entry is quiet. -/
theorem meets_vsfLogDoLog (hw : Ready answer cfg start w) (succeeded : Bool) :
    (vsfLogDoLog answer succeeded).Meets (Ready answer cfg start) w
      fun _ => Calm answer cfg start w := by
  refine meets_look hw ?_
  exact meets_calm_bind (meets_quiet hw rfl) fun _ _ hcalm =>
    meets_keep hcalm.ready (by simp)

/-- Looking up the directory for a log entry is quiet. -/
theorem meets_prependPath (hw : Ready answer cfg start w) (filename : Text) :
    (prependPath answer filename).Meets (Ready answer cfg start) w
      fun _ => Calm answer cfg start w := by
  unfold prependPath
  split
  · exact hw.calm
  · exact (meets_strGetcwd hw).bind fun _ _ h => h.1

/-- The log entry of a file is quiet. -/
theorem meets_startFileEntry (hw : Ready answer cfg start w) (what : EntryType)
    (filename : Text) : (startFileEntry answer what filename).Meets (Ready answer cfg start) w
      fun _ => Calm answer cfg start w :=
  meets_calm_bind (meets_vsfLogStartEntry hw what) fun _ _ h =>
    meets_calm_bind (meets_prependPath h.ready filename) fun _ _ h' =>
      meets_keep h'.ready (by simp)

/-- The check for `ABOR` is quiet. -/
theorem meets_checkAbor (hw : Ready answer cfg start w) :
    (checkAbor answer).Meets (Ready answer cfg start) w fun _ => Calm answer cfg start w := by
  refine meets_calm_bind (meets_quiet hw rfl) fun received w' h => ?_
  split
  · exact meets_calm_bind (meets_quiet h.ready rfl) fun _ _ h' => meets_say h'.ready _ _
  · exact meets_done h.ready

/-- The checks in front of a transfer are quiet. -/
theorem meets_dataTransferChecksOk (hw : Ready answer cfg start w) :
    (dataTransferChecksOk answer).Meets (Ready answer cfg start) w
      fun _ => Calm answer cfg start w := by
  refine meets_calm_bind (meets_quiet hw rfl) fun refusal w' h => ?_
  split
  · exact (meets_quiet h.ready rfl).bind fun _ _ h' => h'
  · exact h.ready.calm

/-- Taking the restart position is quiet. -/
theorem meets_takeRestartPos (hw : Ready answer cfg start w) :
    (takeRestartPos : Action K Nat).Meets (Ready answer cfg start) w
      fun _ => Calm answer cfg start w := by
  refine meets_look hw ?_
  exact meets_calm_bind (meets_keep hw (by simp)) fun _ _ h => h.ready.calm

/-- Who goes on has got a result, and nothing has been done. -/
theorem meets_orDie (message : String) (r : Option α) :
    (orDie message r : Action K α).Meets (Ready answer cfg start) w
      fun a w' => r = some a ∧ w' = w := by
  cases r with
  | none => trivial
  | some a => exact ⟨rfl, rfl⟩

/-- A seek is quiet. -/
theorem meets_lseekTo (hw : Ready answer cfg start w) (fd offset : Nat) :
    (lseekTo answer fd offset).Meets (Ready answer cfg start) w
      fun _ => Calm answer cfg start w := by
  refine meets_calm_bind (meets_quiet hw rfl) fun done w' h => ?_
  refine (meets_orDie "lseek" done).imp fun _ w'' heq => ?_
  exact heq.2 ▸ h.ready.calm

/-! ## Names -/

/-- Texts without a NUL make one without a NUL. -/
theorem clean_append {s t : Text} (hs : nul ∉ s) (ht : nul ∉ t) : nul ∉ s ++ t := by
  rw [List.mem_append]
  exact not_or.mpr ⟨hs, ht⟩

/-- Another character may be put in front. -/
theorem clean_cons {c : Char} {s : Text} (hc : nul ≠ c) (hs : nul ∉ s) : nul ∉ c :: s :=
  List.not_mem_cons_of_ne_of_not_mem hc hs

/-- A line has no NUL when `control_getline` is done with it. -/
theorem clean_stripLine (line : Text) : nul ∉ stripLine line := by
  intro hmem
  have hreplaced := (List.rdropWhile_prefix _ _).subset hmem
  obtain ⟨c, -, hc⟩ := List.mem_map.mp hreplaced
  split at hc
  · cases hc
  · contradiction

/-- An argument has no NUL, for a line ends at one. -/
theorem clean_arg (line : Text) : nul ∉ (vsfCmdioGetCmdAndArg (stripLine line)).2 := by
  rw [vsfCmdioGetCmdAndArg]
  split
  · exact List.not_mem_nil
  · exact (not_mem_strSplitChar (clean_stripLine line)).2

/-- A name remains a C string. -/
theorem meets_resolveTilde (hw : Ready answer cfg start w) {p : Text} (hclean : nul ∉ p) :
    (resolveTilde answer cfg p).Meets (Ready answer cfg start) w
      fun name w' => Calm answer cfg start w w' ∧ nul ∉ name := by
  unfold resolveTilde
  split
  next rest =>
    have hrest : nul ∉ rest := fun h => hclean (List.mem_cons_of_mem _ h)
    split
    · refine meets_look hw ?_
      exact ⟨hw.calm, clean_append hw.home hrest⟩
    split
    · refine (meets_quiet hw rfl).bind fun home w' h => ?_
      split
      · exact ⟨h, hclean⟩
      next homedir =>
        refine ⟨h, clean_append (not_mem_cstr homedir) ?_⟩
        split
        · exact List.not_mem_nil
        · exact clean_cons (by decide) (not_mem_strSplitChar hrest).2
    · exact ⟨hw.calm, hclean⟩
  · exact ⟨hw.calm, hclean⟩

/-- Something is done with an allowed name only, and the kernel sees the name as it was
checked. -/
theorem meets_ifAllowed (hw : Ready answer cfg start w) {filename : Text}
    (hclean : nul ∉ filename) {act : Action K Unit}
    (h : cstr filename = filename → allowed cfg filename = true →
      act.Meets (Ready answer cfg start) w fun _ => Ready answer cfg start) :
    (ifAllowed answer cfg filename act).Meets (Ready answer cfg start) w
      fun _ => Ready answer cfg start := by
  unfold ifAllowed
  split
  next hallowed => exact h ((cstr_eq_self_iff filename).mpr hclean) hallowed
  · exact meets_ready (meets_say hw _ _)

/-! ## Directories -/

section Directories

variable {arg : Text}

/-- `PWD` touches no file. -/
theorem meets_handlePwd (hw : Ready answer cfg start w) :
    (handlePwd answer).Meets (Ready answer cfg start) w fun _ => Ready answer cfg start :=
  (meets_strGetcwd hw).bind fun _ _ h => meets_ready (meets_sayStr h.1.ready _ _)

/-- A banner is written with quiet calls. -/
theorem meets_bannerWrite (hw : Ready answer cfg start w) (ftpcode : Nat) (lines : List Text) :
    (bannerWrite answer ftpcode lines).Meets (Ready answer cfg start) w
      fun _ => Calm answer cfg start w := by
  induction lines generalizing w with
  | nil => exact hw.calm
  | cons line lines ih =>
      exact meets_calm_bind (meets_quiet hw rfl) fun _ _ h => ih h.ready

/-- The file `.message` is one that the configuration names. -/
theorem meets_bannerDirChanged (hw : Ready answer cfg start w) (ftpcode : Nat) :
    (bannerDirChanged answer cfg ftpcode).Meets (Ready answer cfg start) w
      fun _ => Ready answer cfg start := by
  unfold bannerDirChanged
  split
  · exact hw
  next henabled =>
    refine (meets_strGetcwd hw).bind fun cwd w₁ h₁ => ?_
    refine meets_look h₁.1.ready ?_
    split
    · exact h₁.1.ready
    · refine (meets_keep h₁.1.ready (by simp)).bind fun _ w₂ h₂ => ?_
      refine meets_callOf h₂.ready ⟨by simpa using henabled, rfl⟩ fun message k h₃ => ?_
      exact meets_ready (meets_bannerWrite h₃ _ _)

/-- `CWD` changes into an allowed directory. -/
theorem meets_handleCwd (hw : Ready answer cfg start w) (hclean : nul ∉ arg)
    (hserving : Serving cfg w.journal ["CWD", "XCWD", "CDUP", "XCUP"]) :
    (handleCwd answer cfg arg).Meets (Ready answer cfg start) w
      fun _ => Ready answer cfg start := by
  refine (meets_resolveTilde hw hclean).bind fun arg w₁ h₁ => ?_
  refine meets_ifAllowed h₁.1.ready h₁.2 fun hcstr hallowed => ?_
  rw [hcstr]
  refine meets_callOf h₁.1.ready ⟨hserving.goesOn h₁.1.goesOn, hallowed⟩ fun changed k h₂ => ?_
  split
  · exact (meets_bannerDirChanged h₂ 250).bind fun _ _ h₃ => meets_ready (meets_say h₃ _ _)
  · exact meets_ready (meets_say h₂ _ _)

/-- What most handlers begin with. -/
theorem meets_entryThen (hw : Ready answer cfg start w) (hclean : nul ∉ arg) (what : EntryType)
    {act : Text → Action K Unit}
    (h : ∀ name w', Calm answer cfg start w w' → cstr name = name → allowed cfg name = true →
      (act name).Meets (Ready answer cfg start) w' fun _ => Ready answer cfg start) :
    (do
      let arg ← resolveTilde answer cfg arg
      startFileEntry answer what arg
      ifAllowed answer cfg arg (act arg)).Meets (Ready answer cfg start) w
      fun _ => Ready answer cfg start := by
  refine (meets_resolveTilde hw hclean).bind fun name w₁ h₁ => ?_
  refine (meets_startFileEntry h₁.1.ready what name).bind fun _ w₂ h₂ => ?_
  exact meets_ifAllowed h₂.ready h₁.2 fun hcstr hallowed =>
    h name w₂ (h₁.1.trans h₂) hcstr hallowed

/-- The end of a handler that has done something. -/
theorem meets_logged (hw : Ready answer cfg start w) {succeeded : Bool} (status : Nat)
    (text : String) :
    (do
      vsfLogDoLog answer succeeded
      say answer status text).Meets (Ready answer cfg start) w
      fun _ => Ready answer cfg start :=
  (meets_vsfLogDoLog hw succeeded).bind fun _ _ h => meets_ready (meets_say h.ready status text)

/-- `MKD` makes an allowed directory where that may be done. -/
theorem meets_handleMkd (hw : Ready answer cfg start w) (hclean : nul ∉ arg)
    (hmay : mayMkdir cfg = true) (hserving : Serving cfg w.journal ["MKD", "XMKD"]) :
    (handleMkd answer cfg arg).Meets (Ready answer cfg start) w
      fun _ => Ready answer cfg start := by
  refine meets_entryThen hw hclean .mkdir fun name w₁ h₁ hcstr hallowed => ?_
  rw [hcstr]
  refine meets_callOf h₁.ready ⟨hmay, hserving.goesOn h₁.goesOn, hallowed, rfl⟩
    fun made k h₂ => ?_
  split
  · exact meets_ready (meets_say h₂ _ _)
  · refine (meets_vsfLogDoLog h₂ true).bind fun _ w₃ h₃ => ?_
    exact (meets_prependPath h₃.ready name).bind fun _ _ h₄ =>
      meets_ready (meets_sayStr h₄.ready _ _)

/-- `RMD` removes an allowed directory where that may be done. -/
theorem meets_handleRmd (hw : Ready answer cfg start w) (hclean : nul ∉ arg)
    (hmay : mayWrite cfg = true) (hserving : Serving cfg w.journal ["RMD", "XRMD"]) :
    (handleRmd answer cfg arg).Meets (Ready answer cfg start) w
      fun _ => Ready answer cfg start := by
  refine meets_entryThen hw hclean .rmdir fun name w₁ h₁ hcstr hallowed => ?_
  rw [hcstr]
  refine meets_callOf h₁.ready ⟨hmay, hserving.goesOn h₁.goesOn, hallowed⟩ fun removed k h₂ => ?_
  split
  · exact meets_ready (meets_say h₂ _ _)
  · exact meets_logged h₂ _ _

/-- `DELE` deletes an allowed file where that may be done. -/
theorem meets_handleDele (hw : Ready answer cfg start w) (hclean : nul ∉ arg)
    (hmay : mayWrite cfg = true) (hserving : Serving cfg w.journal ["DELE"]) :
    (handleDele answer cfg arg).Meets (Ready answer cfg start) w
      fun _ => Ready answer cfg start := by
  refine meets_entryThen hw hclean .delete fun name w₁ h₁ hcstr hallowed => ?_
  rw [hcstr]
  refine meets_callOf h₁.ready (.inl ⟨hmay, hserving.goesOn h₁.goesOn, hallowed⟩)
    fun removed k h₂ => ?_
  split
  · exact meets_ready (meets_say h₂ _ _)
  · exact meets_logged h₂ _ _

/-- The name of `RNFR` is forgotten. -/
theorem Ready.forget (hw : Ready answer cfg start w) :
    Ready answer cfg start { w with own := { w.own with rnfrFilenameStr := [] } } :=
  ⟨hw.sound.remember _, hw.home, .inl rfl⟩

/-- `RNFR` remembers an allowed name. -/
theorem meets_handleRnfr (hw : Ready answer cfg start w) (hclean : nul ∉ arg) :
    (handleRnfr answer cfg arg).Meets (Ready answer cfg start) w
      fun _ => Ready answer cfg start := by
  refine ⟨hw.forget, ?_⟩
  refine (meets_resolveTilde hw.forget hclean).bind fun name w₁ h₁ => ?_
  obtain ⟨h₁, hname⟩ := h₁
  have hcstr := (cstr_eq_self_iff name).mpr hname
  split
  · exact (meets_startFileEntry h₁.ready _ _).bind fun _ _ h₂ =>
      meets_ready (meets_say h₂.ready _ _)
  next hallowed =>
    rw [Bool.not_eq_true, Bool.not_eq_false'] at hallowed
    rw [hcstr]
    refine meets_callOf h₁.ready (.inl hallowed) fun st k h₂ => ?_
    split
    next hsome =>
      obtain ⟨st, rfl⟩ := Option.isSome_iff_exists.mp hsome
      have hknown : Ready answer cfg start
          { w₁.behind (.stat name) (some st) k with
            own := { w₁.own with rnfrFilenameStr := name } } :=
        ⟨h₂.sound.remember _, h₂.home, .inr ⟨hname, hallowed, st, List.mem_cons_self⟩⟩
      exact ⟨hknown, meets_ready (meets_say hknown _ _)⟩
    · exact (meets_startFileEntry h₂ _ _).bind fun _ _ h₃ =>
        meets_ready (meets_say h₃.ready _ _)

/-- `RNTO` renames an allowed name to an allowed one where that may be done. -/
theorem meets_handleRnto (hw : Ready answer cfg start w) (hclean : nul ∉ arg)
    (hmay : mayWrite cfg = true) (hserving : Serving cfg w.journal ["RNTO"]) :
    (handleRnto answer cfg arg).Meets (Ready answer cfg start) w
      fun _ => Ready answer cfg start := by
  refine meets_look hw ?_
  split
  · exact meets_ready (meets_say hw _ _)
  next hsome =>
    obtain ⟨hrnfr, hold, st, hst⟩ := hw.rnfr.resolve_left hsome
    refine (meets_resolveTilde hw hclean).bind fun name w₁ h₁ => ?_
    obtain ⟨h₁, hname⟩ := h₁
    refine (meets_startFileEntry h₁.ready _ _).bind fun _ w₂ h₂ => ?_
    refine (meets_prependPath h₂.ready name).bind fun full w₃ h₃ => ?_
    refine (meets_keep h₃.ready (by simp)).bind fun _ w₄ h₄ => ?_
    have hcalm := ((h₁.trans h₂).trans h₃).trans h₄
    refine meets_ifAllowed h₄.ready hname fun hcstr hallowed => ?_
    rw [hcstr, (cstr_eq_self_iff _).mpr hrnfr]
    have hpermits : Permits cfg w₄.journal (.rename w.own.rnfrFilenameStr name) :=
      ⟨hmay, hserving.goesOn hcalm.goesOn, hold, hallowed, st, hcalm.goesOn.mem hst⟩
    refine meets_callOf h₄.ready hpermits fun renamed k h₅ => ?_
    refine ⟨h₅.forget, ?_⟩
    split
    · exact meets_logged h₅.forget _ _
    · exact meets_ready (meets_say h₅.forget _ _)

end Directories

/-! ## Files -/

section Files

variable {arg : Text}

/-- `TYPE` touches no file. -/
theorem meets_handleType (hw : Ready answer cfg start w) (arg : Text) :
    (handleType answer arg).Meets (Ready answer cfg start) w
      fun _ => Ready answer cfg start := by
  unfold handleType
  dsimp only
  split
  · exact (meets_keep hw (by simp)).bind fun _ _ h => meets_ready (meets_say h.ready _ _)
  split
  · exact (meets_keep hw (by simp)).bind fun _ _ h => meets_ready (meets_say h.ready _ _)
  · exact meets_ready (meets_say hw _ _)

/-- `REST` touches no file. -/
theorem meets_handleRest (hw : Ready answer cfg start w) (arg : Text) :
    (handleRest answer arg).Meets (Ready answer cfg start) w
      fun _ => Ready answer cfg start :=
  (meets_keep hw (by simp)).bind fun _ _ h => meets_ready (meets_sayStr h.ready _ _)

/-- `SIZE` looks at an allowed file. -/
theorem meets_handleSize (hw : Ready answer cfg start w) (hclean : nul ∉ arg) :
    (handleSize answer cfg arg).Meets (Ready answer cfg start) w
      fun _ => Ready answer cfg start := by
  refine (meets_resolveTilde hw hclean).bind fun name w₁ h₁ => ?_
  refine meets_ifAllowed h₁.1.ready h₁.2 fun hcstr hallowed => ?_
  rw [hcstr]
  refine meets_callOf h₁.1.ready (.inl hallowed) fun st k h₂ => ?_
  split
  · exact meets_ready (meets_say h₂ _ _)
  · exact meets_ready (meets_sayStr h₂ _ _)

/-- The reading half of `MDTM` only replies. -/
theorem meets_mdtmRead (hw : Ready answer cfg start w) (st : Option Statbuf) :
    (mdtmRead answer st).Meets (Ready answer cfg start) w fun _ => Ready answer cfg start := by
  unfold mdtmRead
  split
  · exact meets_ready (meets_say hw _ _)
  · exact meets_ready (meets_sayStr hw _ _)

/-- The time is set for a regular file only, which was looked at just before. -/
theorem meets_mdtmWrite (hw : Ready answer cfg start w) (hcstr : cstr arg = arg)
    (hallowed : allowed cfg arg = true) (hmay : mayWrite cfg = true)
    (hmdtm : cfg.mdtmWrite = true) (hserving : Serving cfg w.journal ["MDTM"]) (modtime : Int) :
    (mdtmWrite answer arg modtime).Meets (Ready answer cfg start) w
      fun _ => Ready answer cfg start := by
  unfold mdtmWrite
  rw [hcstr]
  refine meets_callOf hw (.inl hallowed) fun (st : Option Statbuf) k h₁ => ?_
  split
  · exact meets_ready (meets_say h₁ _ _)
  next st' hst' =>
    obtain ⟨rfl, hregfile⟩ := Option.filter_eq_some_iff.mp hst'
    have hpermits : Permits cfg (w.behind (.stat arg) (some st') k).journal
        (.setmodtime arg modtime) :=
      ⟨hmay, hmdtm, hserving.cons (by simp) _, hallowed, st', w.journal, rfl, hregfile⟩
    refine meets_callOf h₁ hpermits fun done k h₂ => ?_
    split
    · exact meets_ready (meets_say h₂ _ _)
    · exact meets_ready (meets_say h₂ _ _)

/-- The time in an argument of `MDTM` is read quietly. -/
theorem meets_mdtmTime (hw : Ready answer cfg start w) (doWrite : Bool) (arg : Text) :
    (mdtmTime answer doWrite arg).Meets (Ready answer cfg start) w
      fun _ => Calm answer cfg start w := by
  cases doWrite with
  | false => exact hw.calm
  | true => exact meets_quiet hw rfl

/-- `MDTM` looks at any file, and changes the time of an allowed one only. -/
theorem meets_handleMdtm (hw : Ready answer cfg start w) (hclean : nul ∉ arg)
    (hserving : Serving cfg w.journal ["MDTM"]) :
    (handleMdtm answer cfg arg).Meets (Ready answer cfg start) w
      fun _ => Ready answer cfg start := by
  refine meets_callOf hw (.inr (hserving.mono (by simp))) fun st k h₁ => ?_
  refine (meets_mdtmTime h₁ _ arg).bind fun modtime w₂ h₂ => ?_
  refine (meets_resolveTilde h₂.ready ?_).bind fun name w₃ h₃ => ?_
  · split
    · exact (not_mem_strSplitChar hclean).2
    · exact hclean
  refine meets_ifAllowed h₃.1.ready h₃.2 fun hcstr hallowed => ?_
  split
  next hwrite =>
    simp only [Bool.and_eq_true] at hwrite
    have hserving₃ := ((hserving.cons (by simp) st).goesOn h₂.goesOn).goesOn h₃.1.goesOn
    exact meets_mdtmWrite h₃.1.ready hcstr hallowed hwrite.2 hwrite.1.1.1 hserving₃ modtime
  · exact meets_mdtmRead h₃.1.ready st

/-- `SITE CHMOD` changes the mode of an allowed file where that may be done. -/
theorem meets_handleSiteChmod (hw : Ready answer cfg start w) (hclean : nul ∉ arg)
    (hlocal : cfg.isAnonymous = false) (hwrite : cfg.writeEnable = true)
    (hchmod : cfg.chmodEnable = true) (hserving : Serving cfg w.journal ["SITE"]) :
    (handleSiteChmod answer cfg arg).Meets (Ready answer cfg start) w
      fun _ => Ready answer cfg start := by
  unfold handleSiteChmod
  dsimp only
  split
  · exact meets_ready (meets_say hw _ _)
  split
  · exact meets_ready (meets_say hw _ _)
  refine (meets_resolveTilde hw (not_mem_strSplitChar hclean).2).bind fun name w₁ h₁ => ?_
  obtain ⟨h₁, hname⟩ := h₁
  refine (meets_startFileEntry h₁.ready _ _).bind fun _ w₂ h₂ => ?_
  refine (meets_keep h₂.ready (by simp)).bind fun _ w₃ h₃ => ?_
  have hcalm := (h₁.trans h₂).trans h₃
  refine meets_ifAllowed h₃.ready hname fun hcstr hallowed => ?_
  rw [hcstr]
  have hpermits : Permits cfg w₃.journal
      (.chmod name (octalToUint (strSplitChar arg ' ').1 % 512)) :=
    ⟨hlocal, hwrite, hchmod, hserving.goesOn hcalm.goesOn, hallowed, Nat.mod_lt _ (by omega)⟩
  refine meets_callOf h₃.ready hpermits fun done k h₄ => ?_
  split
  · exact meets_ready (meets_say h₄ _ _)
  · exact meets_logged h₄ _ _

/-- A handler that touches no file. -/
theorem meets_elsewhere (hw : Ready answer cfg start w) (cmd arg : Text) :
    (elsewhere answer cmd arg).Meets (Ready answer cfg start) w
      fun _ => Ready answer cfg start := by
  have hcall := hw.call (c := .elsewhere cmd arg) trivial
  exact meets_invoke hcall hcall

end Files

/-! ## Transfers -/

section Transfers

variable {arg path : Text} {exclusive : Bool} {fd : Nat}

/-- A session that is ready and holds a file. -/
structure Holding (answer : (c : Call) → K → c.Result × K) (cfg : Config) (start : K) (h : Held)
    (w : State K) : Prop where
  ready : Ready answer cfg start w
  held_eq : held w.journal = some h

/-- The file in hand is an allowed one. -/
theorem Holding.allowed {h : Held} (hw : Holding answer cfg start h w) : h.Allowed cfg :=
  allowed_of_held hw.ready.sound.permitted hw.held_eq

/-- Quiet steps keep the file in hand. -/
theorem Holding.calm {h : Held} {w' : State K} (hw : Holding answer cfg start h w)
    (hcalm : Calm answer cfg start w w') : Holding answer cfg start h w' :=
  ⟨hcalm.ready, hcalm.held_eq.trans hw.held_eq⟩

/-- What is done for a reason keeps the file in hand, be it done or not. -/
theorem Holding.onlyIf {h : Held} (hw : Holding answer cfg start h w) {reason : Bool}
    {act : Action K Unit} (hact : reason = true → act.Meets (Ready answer cfg start) w
      fun _ => Holding answer cfg start h) :
    (FileCommands.onlyIf reason act).Meets (Ready answer cfg start) w
      fun _ => Holding answer cfg start h :=
  meets_onlyIf hact hw

/-- A steady call tells about the file that is held. -/
theorem Holding.told {h : Held} {c : Call} {r : c.Result} {k : K}
    (hw : Holding answer cfg start h w) (hready : Ready answer cfg start (w.behind c r k))
    (hsteady : c.steady = true) : Holding answer cfg start (h.told c r) (w.behind c r k) := by
  refine ⟨hready, ?_⟩
  simp [held, hsteady, hw.held_eq]

/-- Behind `fstat` it is known what is in hand. -/
theorem meets_fstat {h : Held} (hw : Holding answer cfg start h w) (fd : Nat) :
    (fstat answer fd).Meets (Ready answer cfg start) w
      fun st => Holding answer cfg start (h.told (.fstat fd) (some st)) := by
  refine meets_callOf hw.ready trivial fun st k h₁ => ?_
  refine (meets_orDie "fstat" st).imp fun st' w' heq => ?_
  obtain ⟨rfl, rfl⟩ := heq
  exact hw.told h₁ rfl

/-- A transfer, and what it tells about an upload. -/
theorem meets_transferFile (hw : Ready answer cfg start w) {remoteFd : Nat}
    {isRecv isAscii : Bool}
    (hpermits : Permits cfg w.journal (.transferFile remoteFd fd isRecv isAscii)) :
    (transferFile answer remoteFd fd isRecv isAscii).Meets (Ready answer cfg start) w
      fun retval w' => Ready answer cfg start w' ∧ ∀ path exclusive,
        held w.journal = some (.created path exclusive fd false) →
          held w'.journal = some (.created path exclusive fd (retval = 0)) := by
  refine meets_callOf hw hpermits fun ret k h₁ => ?_
  refine meets_callOf h₁ trivial fun disposed k' h₂ => ?_
  refine (meets_keep h₂ (by simp)).bind fun _ w₃ h₃ => ⟨h₃.ready, fun path exclusive hheld => ?_⟩
  have hhold : Holding answer cfg start (.created path exclusive fd false) w := ⟨hw, hheld⟩
  rw [h₃.held_eq, ((hhold.told h₁ rfl).told h₂ rfl).held_eq]
  cases disposed with
  | false => by_cases hret : TransferRet.retval ret = 0 <;> simp [Held.told, hret]
  | true => simp [Held.told]

/-- The reply behind a download is quiet. -/
theorem meets_retrReply (hw : Ready answer cfg start w) (retval : Int) :
    (retrReply answer retval).Meets (Ready answer cfg start) w
      fun _ => Calm answer cfg start w := by
  unfold retrReply
  split
  · exact meets_say hw _ _
  split
  · exact meets_say hw _ _
  · exact meets_say hw _ _

variable {st : Statbuf}

/-- A file that was looked at may be sent. -/
theorem Holding.sends (hw : Holding answer cfg start (.reading path fd (some st)) w)
    (hregfile : st.isRegfile = true) (hreadable : Readable cfg st) (remoteFd : Nat)
    (isAscii : Bool) : Permits cfg w.journal (.transferFile remoteFd fd false isAscii) :=
  ⟨path, st, hw.held_eq, hw.allowed, hregfile, hreadable⟩

/-- The transfer of `RETR` sends the file in hand. -/
theorem meets_retrTransfer (hw : Holding answer cfg start (.reading path fd (some st)) w)
    (hregfile : st.isRegfile = true) (hreadable : Readable cfg st) (arg : Text) :
    (retrTransfer answer cfg arg fd st).Meets (Ready answer cfg start) w
      fun _ => Ready answer cfg start := by
  refine meets_look hw.ready ?_
  refine (meets_quiet hw.ready rfl).bind fun remote w₁ h₁ => ?_
  split
  · exact meets_ready (meets_quiet h₁.ready rfl)
  next remoteFd =>
    have hsends := (hw.calm h₁).sends hregfile hreadable remoteFd
    refine (meets_transferFile h₁.ready (hsends _)).bind fun retval w₂ h₂ => ?_
    refine (meets_onlyIf (fun _ => meets_vsfLogDoLog h₂.1 true) h₂.1.calm).bind
      fun _ w₃ h₃ => ?_
    refine (meets_retrReply h₃.ready retval).bind fun _ w₄ h₄ => ?_
    refine (meets_checkAbor h₄.ready).bind fun _ w₅ h₅ => ?_
    exact meets_ready (meets_quiet h₅.ready rfl)

/-- An answer to a request sends the file in hand. -/
theorem meets_httpTransfer (hw : Holding answer cfg start (.reading path fd (some st)) w)
    (hregfile : st.isRegfile = true) (hreadable : Readable cfg st) :
    (httpTransfer answer cfg fd).Meets (Ready answer cfg start) w
      fun _ => Ready answer cfg start := by
  refine meets_look hw.ready ?_
  refine meets_callOf hw.ready (hw.sends hregfile hreadable 0 _) fun ret k h₁ => ?_
  refine (meets_keep h₁ (by simp)).bind fun _ w₂ h₂ => ?_
  exact meets_ready (meets_onlyIf (fun _ => meets_vsfLogDoLog h₂.ready true) h₂.ready.calm)

/-- Only a regular file is sent, and to the anonymous user only one that the world may read. -/
theorem meets_retrOpened (hw : Holding answer cfg start (.reading path fd none) w)
    (isHttp : Bool) (arg : Text) (offset : Nat) :
    (retrOpened answer cfg isHttp arg offset fd).Meets (Ready answer cfg start) w
      fun _ => Ready answer cfg start := by
  refine (meets_onlyIf (fun _ => meets_quiet hw.ready rfl) hw.ready.calm).bind fun _ w₁ h₁ => ?_
  refine (meets_fstat (hw.calm h₁) fd).bind fun st w₂ h₂ => ?_
  simp only [Held.told, if_true] at h₂
  split
  · refine (meets_say h₂.ready _ _).bind fun _ w₃ h₃ => ?_
    exact meets_ready (meets_onlyIf (fun _ => meets_keep h₃.ready (by simp)) h₃.ready.calm)
  next hregfile =>
    rw [Bool.not_eq_true, Bool.not_eq_false'] at hregfile
    refine (meets_quiet h₂.ready rfl).bind fun _ w₃ h₃ => ?_
    split
    · exact meets_ready (meets_say h₃.ready _ _)
    next hnotrefused =>
      have hreadable : Readable cfg st := by
        intro hanonymous hworld
        simpa [hanonymous, hworld] using hnotrefused
      refine (meets_onlyIf (fun _ => meets_lseekTo h₃.ready fd offset) h₃.ready.calm).bind
        fun _ w₄ h₄ => ?_
      have hhold := (h₂.calm h₃).calm h₄
      split
      · exact meets_httpTransfer hhold hregfile hreadable
      · exact meets_retrTransfer hhold hregfile hreadable arg

/-- A file may always be closed. -/
theorem meets_close (hw : Ready answer cfg start w) (fd : Nat) :
    (invoke answer (.close fd) : Action K Unit).Meets (Ready answer cfg start) w
      fun _ => Ready answer cfg start := by
  have hcall := hw.call (c := .close fd) trivial
  exact meets_invoke hcall hcall

/-- Behind its checks a download opens and sends an allowed file. -/
theorem meets_retrChecked (hw : Ready answer cfg start w) (hclean : nul ∉ arg)
    (hdownload : cfg.downloadEnable = true)
    (hserving : cfg.isHttp = true ∨ Serving cfg w.journal ["RETR"]) (isHttp : Bool)
    (offset : Nat) : (retrChecked answer cfg isHttp offset arg).Meets (Ready answer cfg start) w
      fun _ => Ready answer cfg start := by
  refine meets_look hw ?_
  split
  · exact meets_ready (meets_say hw _ _)
  refine meets_entryThen hw hclean .download fun name w₁ h₁ hcstr hallowed => ?_
  rw [hcstr]
  have hpermits : Permits cfg w₁.journal (.openReadOnly name) :=
    ⟨hdownload, hserving.imp_right (·.goesOn h₁.goesOn), hallowed⟩
  refine meets_callOf h₁.ready hpermits fun opened k h₂ => ?_
  split
  · exact meets_ready (meets_say h₂ _ _)
  next fd =>
    have hhold : Holding answer cfg start (.reading name fd none)
        (w₁.behind (.openReadOnly name) (some fd) k) := ⟨h₂, rfl⟩
    exact (meets_retrOpened hhold isHttp name offset).bind fun _ w₃ h₃ => meets_close h₃ fd

/-- The checks are quiet, be they made or not. -/
theorem meets_checksUnless (hw : Ready answer cfg start w) (isControl : Bool) :
    (checksUnless answer isControl).Meets (Ready answer cfg start) w
      fun _ => Calm answer cfg start w := by
  unfold checksUnless
  split
  · exact hw.calm
  · exact meets_dataTransferChecksOk hw

/-- A download keeps to the policy. -/
theorem meets_handleRetr (hw : Ready answer cfg start w) (hclean : nul ∉ arg)
    (hdownload : cfg.downloadEnable = true)
    (hserving : cfg.isHttp = true ∨ Serving cfg w.journal ["RETR"]) (isHttp : Bool) :
    (handleRetr answer cfg isHttp arg).Meets (Ready answer cfg start) w
      fun _ => Ready answer cfg start := by
  refine (meets_takeRestartPos hw).bind fun offset w₁ h₁ => ?_
  refine (meets_checksUnless h₁.ready isHttp).bind fun ok w₂ h₂ => ?_
  split
  · exact h₂.ready
  · exact meets_retrChecked h₂.ready hclean hdownload
      (hserving.imp_right (·.goesOn (h₁.trans h₂).goesOn)) isHttp offset

end Transfers

/-! ## Uploads -/

section Uploads

variable {arg path base : Text} {exclusive complete : Bool} {fd : Nat}

/-- Looking for a name leaves the command in force. -/
theorem meets_uniqueSuffix (hw : Ready answer cfg start w) (hclean : nul ∉ base)
    (hserving : Serving cfg w.journal ["MDTM", "STOU"]) (tries suffix : Nat) :
    (uniqueSuffix answer base tries suffix).Meets (Ready answer cfg start) w
      fun name w' => Ready answer cfg start w' ∧ inForce w'.journal = inForce w.journal ∧
        nul ∉ name := by
  induction tries generalizing w suffix with
  | zero => trivial
  | succ tries ih =>
      have hname : nul ∉ base ++ '.' :: Nat.toDigits 10 suffix := by
        refine clean_append hclean (clean_cons (by decide) fun hmem => ?_)
        exact absurd (Nat.isDigit_of_mem_toDigits (by decide) (by decide) hmem) (by decide)
      refine meets_callOf hw (.inr hserving) fun st k h₁ => ?_
      split
      · exact ⟨h₁, inForce_cons (by simp) _ _, hname⟩
      · refine (ih h₁ (hserving.cons (by simp) _) _).imp fun name w' h₂ => ?_
        exact ⟨h₂.1, h₂.2.1.trans (inForce_cons (by simp) _ _), h₂.2.2⟩

/-- The name of an upload is the argument, or one that was looked for under `STOU`. -/
theorem meets_uploadName (hw : Ready answer cfg start w) (hclean : nul ∉ arg) (tries : Nat)
    {isUnique : Bool} (hserving : isUnique = true → Serving cfg w.journal ["MDTM", "STOU"]) :
    (uploadName answer tries isUnique arg).Meets (Ready answer cfg start) w
      fun name w' => Ready answer cfg start w' ∧ inForce w'.journal = inForce w.journal ∧
        nul ∉ name := by
  cases isUnique with
  | false => exact ⟨hw, rfl, hclean⟩
  | true =>
      refine meets_callOf hw (.inr (hserving rfl)) fun st k h₁ => ?_
      split
      · exact ⟨h₁, inForce_cons (by simp) _ _, hclean⟩
      · refine (meets_uniqueSuffix h₁ hclean ((hserving rfl).cons (by simp) _) tries 1).imp
          fun name w' h₂ => ?_
        exact ⟨h₂.1, h₂.2.1.trans (inForce_cons (by simp) _ _), h₂.2.2⟩

/-- A steady call that tells nothing. -/
theorem meets_steady {c : Call} {h : Held} (hw : Holding answer cfg start h w)
    (hpermits : Permits cfg w.journal c) (hsteady : c.steady = true)
    (htold : ∀ r, h.told c r = h) :
    (invoke answer c : Action K c.Result).Meets (Ready answer cfg start) w
      fun _ => Holding answer cfg start h := by
  have hready := hw.ready.call hpermits
  have hhold := hw.told hready hsteady
  rw [htold] at hhold
  exact meets_invoke hready hhold

/-- Only a fresh file of an anonymous client is given to somebody else. -/
theorem meets_chownUpload (hw : Holding answer cfg start (.created path exclusive fd false) w)
    (hanonymous : cfg.isAnonymous = true) (hchown : cfg.chownUploads = true) :
    (chownUpload answer cfg fd).Meets (Ready answer cfg start) w
      fun _ => Holding answer cfg start (.created path exclusive fd false) := by
  have hpermits : Permits cfg w.journal (.fchmod fd (cfg.chownUploadMode % 512)) :=
    ⟨hanonymous, hchown, rfl, path, exclusive, hw.held_eq, hw.allowed⟩
  refine (meets_steady hw hpermits rfl fun _ => rfl).bind fun done w₁ h₁ => ?_
  refine (meets_orDie "fchmod" done).bind fun _ w₂ heq => ?_
  obtain ⟨-, rfl⟩ := heq
  have hpermits : Permits cfg w₂.journal (.chownUpload fd) :=
    ⟨hanonymous, hchown, path, exclusive, h₁.held_eq, h₁.allowed⟩
  exact meets_steady h₁ hpermits rfl fun _ => rfl

/-- A file that was opened for a new upload may be cut. -/
theorem meets_truncate (hw : Holding answer cfg start (.created path false fd false) w) :
    (truncate answer fd).Meets (Ready answer cfg start) w
      fun _ => Holding answer cfg start (.created path false fd false) := by
  have hpermits : Permits cfg w.journal (.ftruncate fd) := ⟨path, hw.held_eq, hw.allowed⟩
  refine (meets_steady hw hpermits rfl fun _ => rfl).bind fun done w₁ h₁ => ?_
  refine (meets_orDie "ftruncate" done).bind fun _ w₂ heq => ?_
  obtain ⟨-, rfl⟩ := heq
  exact (meets_lseekTo h₁.ready fd 0).imp fun _ _ h₂ => h₁.calm h₂

/-- A seek to the end is quiet. -/
theorem meets_lseekEnd (hw : Ready answer cfg start w) (fd : Nat) :
    (lseekEnd answer fd).Meets (Ready answer cfg start) w
      fun _ => Calm answer cfg start w := by
  refine (meets_quiet hw rfl).bind fun done w₁ h₁ => ?_
  refine (meets_orDie "lseek" done).imp fun _ w₂ heq => ?_
  exact heq.2 ▸ h₁

/-- What is done to an upload before it comes in leaves it an upload. -/
theorem meets_prepareUpload (hw : Holding answer cfg start (.created path exclusive fd false) w)
    (isAppend : Bool) (offset : Nat) :
    (prepareUpload answer cfg isAppend exclusive offset fd).Meets (Ready answer cfg start) w
      fun _ => Holding answer cfg start (.created path exclusive fd false) := by
  refine (meets_fstat hw fd).bind fun st w₁ h₁ => ?_
  change Holding answer cfg start (.created path exclusive fd false) w₁ at h₁
  refine (meets_onlyIf (fun _ => meets_quiet h₁.ready rfl) h₁.ready.calm).bind fun _ w₂ h₂ => ?_
  replace h₂ := h₁.calm h₂
  refine (h₂.onlyIf fun hchown => ?_).bind fun _ w₃ h₃ => ?_
  · rw [Bool.and_eq_true] at hchown
    exact meets_chownUpload h₂ hchown.1 hchown.2
  refine (meets_onlyIf (fun _ => meets_quiet h₃.ready rfl) h₃.ready.calm).bind fun _ w₄ h₄ => ?_
  replace h₄ := h₃.calm h₄
  refine (h₄.onlyIf fun htruncate => ?_).bind fun _ w₅ h₅ => ?_
  · cases exclusive with
    | true => cases htruncate
    | false => exact meets_truncate h₄
  split
  · exact (meets_lseekTo h₅.ready fd offset).imp fun _ _ h₆ => h₅.calm h₆
  · exact h₅.onlyIf fun _ => (meets_lseekEnd h₅.ready fd).imp fun _ _ h₆ => h₅.calm h₆

/-- The reply behind an upload is quiet. -/
theorem meets_uploadReply (hw : Ready answer cfg start w) (retval : Int) (abor : Bool) :
    (uploadReply answer retval abor).Meets (Ready answer cfg start) w
      fun _ => Calm answer cfg start w := by
  unfold uploadReply
  split
  · exact meets_say hw _ _
  split
  · exact meets_say hw _ _
  · exact meets_say hw _ _

/-- The transfer says whether the upload has come in whole. -/
theorem meets_uploadOver (hw : Holding answer cfg start (.created path exclusive fd false) w)
    (remote : Option Nat) : (uploadOver answer cfg remote fd).Meets (Ready answer cfg start) w
      fun success => Holding answer cfg start (.created path exclusive fd success) := by
  cases remote with
  | none => exact hw
  | some remoteFd =>
      refine meets_look hw.ready ?_
      have hpermits (isAscii : Bool) :
          Permits cfg w.journal (.transferFile remoteFd fd true isAscii) :=
        ⟨path, exclusive, hw.held_eq, hw.allowed⟩
      refine (meets_transferFile hw.ready (hpermits _)).bind fun retval w₁ h₁ => ?_
      have hhold : Holding answer cfg start (.created path exclusive fd (retval = 0)) w₁ :=
        ⟨h₁.1, h₁.2 path exclusive hw.held_eq⟩
      refine (meets_onlyIf (fun _ => meets_vsfLogDoLog h₁.1 true) h₁.1.calm).bind
        fun _ w₂ h₂ => ?_
      refine (meets_quiet h₂.ready rfl).bind fun abor w₃ h₃ => ?_
      refine (meets_uploadReply h₃.ready retval abor).bind fun _ w₄ h₄ => ?_
      refine (meets_checkAbor h₄.ready).bind fun _ w₅ h₅ => ?_
      exact hhold.calm (((h₂.trans h₃).trans h₄).trans h₅)

/-- A file that was created for an upload is deleted again only when the upload has failed. -/
theorem meets_uploadOpened (hw : Holding answer cfg start (.created path exclusive fd false) w)
    (hcstr : cstr path = path) (isAppend isUnique : Bool) (offset : Nat) :
    (uploadOpened answer cfg isAppend isUnique exclusive offset path fd).Meets
      (Ready answer cfg start) w fun _ => Ready answer cfg start := by
  refine (meets_prepareUpload hw isAppend offset).bind fun _ w₁ h₁ => ?_
  refine (meets_quiet h₁.ready rfl).bind fun remote w₂ h₂ => ?_
  refine (meets_uploadOver (h₁.calm h₂) remote).bind fun success w₃ h₃ => ?_
  refine (meets_quiet h₃.ready rfl).bind fun _ w₄ h₄ => ?_
  replace h₄ := h₃.calm h₄
  refine (meets_onlyIf (fun hdelete => ?_) h₄.ready).bind fun _ w₅ h₅ => meets_close h₅ fd
  rw [Bool.and_eq_true] at hdelete
  rw [hcstr]
  cases success with
  | true => cases hdelete.2
  | false =>
      have hpermits : Permits cfg w₄.journal (.unlink path) :=
        .inr ⟨hdelete.1, exclusive, fd, h₄.held_eq, h₄.allowed⟩
      exact meets_callOf h₄.ready hpermits fun _ _ h₆ => h₆

/-- The commands that upload, with the flags that `handle_upload_common` gets from them. -/
inductive Uploading (cfg : Config) (before : Journal) : Bool → Bool → Prop where
  | stor (hmay : mayUpload cfg = true) (h : Serving cfg before ["STOR"]) :
    Uploading cfg before false false
  | appe (hmay : mayWrite cfg = true) (h : Serving cfg before ["APPE"]) :
    Uploading cfg before true false
  | stou (hmay : mayUpload cfg = true) (h : Serving cfg before ["STOU"]) :
    Uploading cfg before false true

/-- An upload stays one while the same command is in force. -/
theorem Uploading.later {before after : Journal} {isAppend isUnique : Bool}
    (h : Uploading cfg before isAppend isUnique) (heq : inForce after = inForce before) :
    Uploading cfg after isAppend isUnique := by
  cases h with
  | stor hmay h => exact .stor hmay (by rwa [Serving, heq])
  | appe hmay h => exact .appe hmay (by rwa [Serving, heq])
  | stou hmay h => exact .stou hmay (by rwa [Serving, heq])

/-- Who may not change what is there creates new files only. -/
theorem Uploading.permits {before : Journal} {isAppend isUnique : Bool}
    (h : Uploading cfg before isAppend isUnique) (hallowed : allowed cfg path = true) :
    Permits cfg before
      (.create path (isUnique || cfg.isAnonymous && !cfg.anonOtherWriteEnable)) := by
  cases h with
  | stou hmay h => exact ⟨hmay, h.mono (by simp), hallowed⟩
  | stor hmay h =>
      by_cases hnew : cfg.isAnonymous = true ∧ cfg.anonOtherWriteEnable = false
      · rw [hnew.1, hnew.2]
        exact ⟨hmay, h.mono (by simp), hallowed⟩
      · have hold : (cfg.isAnonymous && !cfg.anonOtherWriteEnable) = false := by
          simpa using hnew
        rw [Bool.false_or, hold]
        refine ⟨?_, .inr ⟨hmay, h⟩, hallowed⟩
        grind [mayUpload, mayWrite]
  | appe hmay h =>
      have hold : (cfg.isAnonymous && !cfg.anonOtherWriteEnable) = false := by
        grind [mayWrite]
      rw [Bool.false_or, hold]
      exact ⟨hmay, .inl h, hallowed⟩

/-- Behind its checks an upload creates and writes an allowed file. -/
theorem meets_uploadChecked (hw : Ready answer cfg start w) (hclean : nul ∉ arg) (tries : Nat)
    {isAppend isUnique : Bool} (huploading : Uploading cfg w.journal isAppend isUnique)
    (offset : Nat) :
    (uploadChecked answer cfg tries isAppend isUnique offset arg).Meets
      (Ready answer cfg start) w fun _ => Ready answer cfg start := by
  refine (meets_resolveTilde hw hclean).bind fun arg w₁ h₁ => ?_
  obtain ⟨h₁, hname⟩ := h₁
  replace huploading := huploading.later (h₁.goesOn.eq inForce_cons_quiet)
  have hprobe : isUnique = true → Serving cfg w₁.journal ["MDTM", "STOU"] := by
    rintro rfl
    cases huploading with
    | stou hmay h => exact h.mono (by simp)
  refine (meets_uploadName h₁.ready hname tries hprobe).bind fun filename w₂ h₂ => ?_
  obtain ⟨h₂, hforce, hfilename⟩ := h₂
  refine (meets_startFileEntry h₂ _ _).bind fun _ w₃ h₃ => ?_
  replace huploading :=
    huploading.later ((h₃.goesOn.eq inForce_cons_quiet).trans hforce)
  refine meets_ifAllowed h₃.ready hfilename fun hcstr hallowed => ?_
  rw [hcstr]
  refine meets_callOf h₃.ready (huploading.permits hallowed) fun created k h₄ => ?_
  split
  · exact meets_ready (meets_say h₄ _ _)
  · exact meets_uploadOpened ⟨h₄, rfl⟩ hcstr isAppend isUnique offset

/-- An upload keeps to the policy. -/
theorem meets_handleUploadCommon (hw : Ready answer cfg start w) (hclean : nul ∉ arg)
    (tries : Nat) {isAppend isUnique : Bool}
    (huploading : Uploading cfg w.journal isAppend isUnique) :
    (handleUploadCommon answer cfg tries isAppend isUnique arg).Meets (Ready answer cfg start) w
      fun _ => Ready answer cfg start := by
  refine (meets_takeRestartPos hw).bind fun offset w₁ h₁ => ?_
  refine (meets_dataTransferChecksOk h₁.ready).bind fun ok w₂ h₂ => ?_
  split
  · exact h₂.ready
  · exact meets_uploadChecked h₂.ready hclean tries
      (huploading.later ((h₁.trans h₂).goesOn.eq inForce_cons_quiet)) offset

end Uploads

/-! ## Lists -/

section Lists

variable {arg option : Text} {o : Opened}

/-- A directory that was opened is the one that is held. -/
def Opened.HeldIn (o : Opened) (w : State K) : Prop :=
  ∀ dir, o.dir = some dir → held w.journal = some (.listing o.name dir none)

/-- Quiet steps keep an open directory. -/
theorem Opened.HeldIn.calm {w' : State K} (h : o.HeldIn w) (hcalm : Calm answer cfg start w w') :
    o.HeldIn w' :=
  fun dir hdir => hcalm.held_eq.trans (h dir hdir)

/-- The directory in front of a pattern has no NUL. -/
theorem clean_splitPath {filter : Text} (h : nul ∉ filter) : nul ∉ (splitPath filter).1 := by
  unfold splitPath
  dsimp only
  split
  · decide
  · intro hmem
    have hrest := List.mem_of_mem_tail (List.mem_reverse.mp hmem)
    exact h (List.mem_reverse.mp ((List.dropWhile_suffix _).subset hrest))

/-- What is cut off a filter with a path is a directory on that path. -/
theorem listable_splitPath {filter : Text} (hpath : '/' ∈ filter)
    (hallowed : allowed cfg filter = true) : Listable cfg (splitPath filter).1 := by
  unfold splitPath
  dsimp only
  split
  · exact .inr (.inl rfl)
  · refine .inr (.inr (.inr ⟨(filter.reverse.takeWhile (· ≠ '/')).reverse, ?_⟩))
    obtain ⟨rest, hrest⟩ : ∃ rest, filter.reverse.dropWhile (· ≠ '/') = '/' :: rest := by
      cases hdrop : filter.reverse.dropWhile (· ≠ '/') with
      | nil =>
          have hall := List.dropWhile_eq_nil_iff.mp hdrop '/' (List.mem_reverse.mpr hpath)
          simp at hall
      | cons c rest =>
          have hhead := List.head?_dropWhile_not (fun c => decide (c ≠ '/')) filter.reverse
          rw [hdrop] at hhead
          have hc : c = '/' := by simpa using hhead
          exact ⟨rest, by rw [hc]⟩
    have hwhole : rest.reverse ++ '/' :: (filter.reverse.takeWhile (· ≠ '/')).reverse = filter := by
      have hsplit := congrArg List.reverse
        (List.takeWhile_append_dropWhile (p := (· ≠ '/')) (l := filter.reverse))
      rw [hrest] at hsplit
      simpa using hsplit
    rw [hrest, List.tail_cons, hwhole]
    exact hallowed

/-- For a pattern its directory is opened. -/
theorem meets_openFiltered (hw : Ready answer cfg start w) {filter : Text}
    (hclean : nul ∉ filter) (hallowed : allowed cfg filter = true)
    (hdirlist : cfg.dirlistEnable = true)
    (hserving : Serving cfg w.journal ["LIST", "NLST", "STAT"]) :
    (openFiltered answer filter).Meets (Ready answer cfg start) w
      fun o w' => Ready answer cfg start w' ∧ o.HeldIn w' := by
  have hpermits : Permits cfg w.journal (.opendir filter) :=
    ⟨hdirlist, hserving, .inr (.inr (.inl hallowed))⟩
  unfold openFiltered
  rw [(cstr_eq_self_iff filter).mpr hclean]
  refine meets_callOf hw hpermits fun dir k h₁ => ?_
  split
  next dir =>
    refine ⟨h₁, fun dir' hdir => ?_⟩
    cases hdir
    rfl
  · have hname : Listable cfg (if '/' ∈ filter then (splitPath filter).1 else ['.']) ∧
        nul ∉ (if '/' ∈ filter then (splitPath filter).1 else ['.']) := by
      split
      next hpath => exact ⟨listable_splitPath hpath hallowed, clean_splitPath hclean⟩
      · exact ⟨.inl rfl, by decide⟩
    dsimp only
    rw [(cstr_eq_self_iff _).mpr hname.2]
    refine meets_callOf h₁ ⟨hdirlist, hserving.cons (by simp) _, hname.1⟩ fun dir' k' h₂ => ?_
    refine ⟨h₂, fun dir hdir => ?_⟩
    cases hdir
    rfl

/-- The anonymous user gets only what the world may read. -/
theorem meets_dirAllowRead {path : Text} {dir : Nat}
    (hw : Holding answer cfg start (.listing path dir none) w) :
    (dirAllowRead answer cfg dir).Meets (Ready answer cfg start) w
      fun allow w' => Ready answer cfg start w' ∧ (allow = true →
        Listable cfg path ∧ ∃ st, held w'.journal = some (.listing path dir st) ∧
          ∀ st', st = some st' → Readable cfg st') := by
  unfold dirAllowRead
  split
  next hworld =>
    refine meets_callOf hw.ready trivial fun st k h₁ => ?_
    have hhold := hw.told h₁ rfl
    refine (meets_orDie "fstat" st).bind fun st' w₂ heq => ?_
    obtain ⟨rfl, rfl⟩ := heq
    refine ⟨h₁, fun hallow => ⟨hw.allowed, some st', ?_, ?_⟩⟩
    · rw [hhold.held_eq]
      simp [Held.told]
    · intro st'' hst _ _
      cases hst
      exact hallow
  · exact ⟨hw.ready, fun _ => ⟨hw.allowed, none, hw.held_eq, fun _ h => nomatch h⟩⟩

/-- A directory that is open may be sent. -/
theorem meets_sendDir (hw : Ready answer cfg start w) (hheld : o.HeldIn w)
    (statCmd fullDetails : Bool) (option : Text) :
    (sendDir answer cfg statCmd fullDetails option o).Meets (Ready answer cfg start) w
      fun _ => Ready answer cfg start := by
  unfold sendDir
  split
  · exact hw
  next dir hdir =>
    refine (meets_dirAllowRead ⟨hw, hheld dir hdir⟩).bind fun allow w₁ h₁ => ?_
    split
    next hallow => exact meets_callOf h₁.1 (h₁.2 hallow) fun _ _ h₂ => h₂
    · exact h₁.1

/-- A directory may always be closed. -/
theorem meets_closeOpened (hw : Ready answer cfg start w) (o : Opened) :
    (closeOpened answer o).Meets (Ready answer cfg start) w fun _ => Ready answer cfg start := by
  unfold closeOpened
  split
  · exact hw
  next dir _ =>
    have hcall := hw.call (c := .closedir dir) trivial
    exact meets_invoke hcall hcall

/-- The reply behind a listing is quiet. -/
theorem meets_dirReply (hw : Ready answer cfg start w) (statCmd listed : Bool) (retval : Int) :
    (dirReply answer statCmd listed retval).Meets (Ready answer cfg start) w
      fun _ => Calm answer cfg start w := by
  unfold dirReply
  split
  · exact meets_say hw _ _
  split
  · exact meets_say hw _ _
  split
  · exact meets_say hw _ _
  · exact meets_say hw _ _

/-- Behind the opening a listing sends the open directory. -/
theorem meets_dirOpened (hw : Ready answer cfg start w) (hheld : o.HeldIn w)
    (fullDetails statCmd : Bool) (option : Text) :
    (dirOpened answer cfg fullDetails statCmd option o).Meets (Ready answer cfg start) w
      fun _ => Ready answer cfg start := by
  cases statCmd with
  | true =>
      refine (meets_quiet hw rfl).bind fun _ w₁ h₁ => ?_
      refine (meets_sendDir h₁.ready (hheld.calm h₁) _ _ _).bind fun listed w₂ h₂ => ?_
      refine (meets_dirReply h₂ _ _ _).bind fun _ w₃ h₃ => ?_
      refine (meets_checkAbor h₃.ready).bind fun _ w₄ h₄ => ?_
      exact meets_closeOpened h₄.ready o
  | false =>
      refine (meets_quiet hw rfl).bind fun remote w₁ h₁ => ?_
      refine Meets.bind (Q := fun _ => Ready answer cfg start)
        (meets_onlyIf (fun _ => ?_) h₁.ready) fun _ w₂ h₂ => ?_
      · refine (meets_sendDir h₁.ready (hheld.calm h₁) _ _ _).bind fun listed w₂ h₂ => ?_
        refine meets_callOf h₂ trivial fun disposed k h₃ => ?_
        refine (meets_dirReply h₃ _ _ _).bind fun _ w₄ h₄ => ?_
        exact meets_ready (meets_checkAbor h₄.ready)
      · refine (meets_closeOpened h₂ o).bind fun _ w₃ h₃ => ?_
        exact meets_ready (meets_quiet h₃ rfl)

/-- The name behind the options has no NUL. -/
theorem clean_splitOption (hclean : nul ∉ arg) : nul ∉ (splitOption arg).2 := by
  unfold splitOption
  split
  · exact (not_mem_strSplitChar fun h => hclean (List.mem_cons_of_mem _ h)).2
  · exact hclean

/-- A listing keeps to the policy. -/
theorem meets_handleDirCommon (hw : Ready answer cfg start w) (hclean : nul ∉ arg)
    (hdirlist : cfg.dirlistEnable = true)
    (hserving : Serving cfg w.journal ["LIST", "NLST", "STAT"]) (fullDetails statCmd : Bool) :
    (handleDirCommon answer cfg fullDetails statCmd arg).Meets (Ready answer cfg start) w
      fun _ => Ready answer cfg start := by
  refine (meets_checksUnless hw statCmd).bind fun ok w₁ h₁ => ?_
  replace hserving := hserving.goesOn h₁.goesOn
  split
  · exact h₁.ready
  dsimp only
  split
  · refine meets_callOf h₁.ready ⟨hdirlist, hserving, .inl rfl⟩ fun dir k h₂ => ?_
    refine meets_dirOpened h₂ (fun dir' hdir => ?_) _ _ _
    cases hdir
    rfl
  · refine (meets_resolveTilde h₁.ready (clean_splitOption hclean)).bind fun filter w₂ h₂ => ?_
    refine meets_ifAllowed h₂.1.ready h₂.2 fun _ hallowed => ?_
    refine (meets_openFiltered h₂.1.ready h₂.2 hallowed hdirlist
      (hserving.goesOn h₂.1.goesOn)).bind fun o w₃ h₃ => ?_
    exact meets_dirOpened h₃.1 h₃.2 _ _ _

end Lists

/-! ## Update instructions -/

section Instructions

variable {arg : Text}

/-- A version is asked for without a slash in the name of the modpack. -/
theorem meets_handleSiteVers (hw : Ready answer cfg start w) (hlocal : cfg.isAnonymous = false)
    (hserving : Serving cfg w.journal ["SITE"]) :
    (handleSiteVers answer arg).Meets (Ready answer cfg start) w
      fun _ => Ready answer cfg start := by
  unfold handleSiteVers
  split
  · exact meets_ready (meets_say hw _ _)
  next hne =>
    split
    · exact meets_ready (meets_say hw _ _)
    next hslash =>
      refine meets_callOf hw ⟨hlocal, hserving, hne, hslash⟩ fun version k h₁ => ?_
      split
      · exact meets_ready (meets_say h₁ _ _)
      · exact meets_ready (meets_quiet h₁ rfl)

/-- What is written is what was made of the lists. -/
theorem meets_transRet (hw : Ready answer cfg start w) {instructions : Text}
    (hmade : ∃ (modpack version : Text) (retval : Int),
      ⟨.updateInstructions modpack version, (retval, instructions)⟩ ∈ w.journal) :
    (transRet answer instructions).Meets (Ready answer cfg start) w
      fun _ => Ready answer cfg start := by
  cases instructions with
  | nil => exact meets_ready (meets_quiet hw rfl)
  | cons c instructions =>
      have hcall := hw.call (c := .writeData (c :: instructions)) hmade
      exact meets_invoke hcall hcall

/-- Update instructions that were made may be sent. -/
theorem meets_sendInstructions (hw : Ready answer cfg start w) {instructions : Text}
    (hmade : ∃ (modpack version : Text) (retval : Int),
      ⟨.updateInstructions modpack version, (retval, instructions)⟩ ∈ w.journal) :
    (sendInstructions answer instructions).Meets (Ready answer cfg start) w
      fun _ => Ready answer cfg start := by
  obtain ⟨modpack, version, retval, hmem⟩ := hmade
  refine meets_callOf hw trivial fun remote k h₁ => ?_
  refine (meets_transRet h₁ ⟨modpack, version, retval, List.mem_cons_of_mem _ hmem⟩).bind
    fun ret w₂ h₂ => ?_
  refine meets_callOf h₂ trivial fun disposed k' h₃ => ?_
  split
  · exact meets_logged h₃ _ _
  · exact meets_logged h₃ _ _

/-- Instructions are asked for without a slash in either name. -/
theorem meets_handleSiteUins (hw : Ready answer cfg start w) (hlocal : cfg.isAnonymous = false)
    (hserving : Serving cfg w.journal ["SITE"]) :
    (handleSiteUins answer arg).Meets (Ready answer cfg start) w
      fun _ => Ready answer cfg start := by
  unfold handleSiteUins
  dsimp only
  split
  · exact meets_ready (meets_say hw _ _)
  split
  · exact meets_ready (meets_say hw _ _)
  next hslash =>
    split
    · exact meets_ready (meets_say hw _ _)
    next hversion =>
      refine (meets_dataTransferChecksOk hw).bind fun ok w₁ h₁ => ?_
      split
      · exact h₁.ready
      refine (meets_vsfLogStartEntry h₁.ready _).bind fun _ w₂ h₂ => ?_
      refine (meets_keep h₂.ready (by simp)).bind fun _ w₃ h₃ => ?_
      have hslashes : '/' ∉ (strSplitChar arg ' ').1 ∧ '/' ∉ (strSplitChar arg ' ').2 :=
        not_mem_strSplitChar hslash
      have hserving₃ := hserving.goesOn ((h₁.trans h₂).trans h₃).goesOn
      refine meets_callOf h₃.ready ⟨⟨hlocal, hserving₃, hversion, hslashes.2⟩, hslashes.1⟩
        fun made k h₄ => ?_
      split
      · exact meets_logged h₄ _ _
      · exact meets_sendInstructions h₄ ⟨_, _, made.1, List.mem_cons_self⟩

/-- The handler of `SITE` keeps to the policy, the instructions that it sends included. -/
theorem meets_handleSite (hw : Ready answer cfg start w) (cmd : Text) (hclean : nul ∉ arg)
    (hlocal : cfg.isAnonymous = false) (hserving : Serving cfg w.journal ["SITE"]) :
    (handleSite answer cfg cmd arg).Meets (Ready answer cfg start) w
      fun _ => Ready answer cfg start := by
  unfold handleSite
  dsimp only
  split
  next hchmod =>
    simp only [Bool.and_eq_true] at hchmod
    exact meets_handleSiteChmod hw (not_mem_strSplitChar hclean).2 hlocal hchmod.1.1
      hchmod.1.2 hserving
  split
  · exact meets_elsewhere hw cmd arg
  split
  · exact meets_handleSiteVers hw hlocal hserving
  split
  · exact meets_handleSiteUins hw hlocal hserving
  split
  · split
    · exact meets_ready (meets_say hw _ _)
    · exact meets_ready (meets_say hw _ _)
  · exact meets_ready (meets_say hw _ _)

end Instructions

/-! ## The loop -/

section Loop

variable {cmd arg : Text}

/-- Of a list of branches the first with a reason keeps to the policy when each of them does. -/
theorem meets_firstOf {otherwise : Action K Unit} {l : List (Bool × Action K Unit)}
    (ho : otherwise.Meets (Ready answer cfg start) w fun _ => Ready answer cfg start)
    (h : ∀ p ∈ l, p.1 = true →
      p.2.Meets (Ready answer cfg start) w fun _ => Ready answer cfg start) :
    (firstOf otherwise l).Meets (Ready answer cfg start) w fun _ => Ready answer cfg start := by
  induction l with
  | nil => exact ho
  | cons p l ih =>
      rw [firstOf]
      split
      next hp => exact h p (by simp) hp
      · exact ih fun q hq => h q (List.mem_cons_of_mem p hq)

/-- `USER` behind a login only replies. -/
theorem meets_handleLoggedInUser (hw : Ready answer cfg start w) (arg : Text) :
    (handleLoggedInUser answer cfg arg).Meets (Ready answer cfg start) w
      fun _ => Ready answer cfg start := by
  unfold handleLoggedInUser
  split
  · exact meets_ready (meets_say hw _ _)
  split
  · exact meets_ready (meets_say hw _ _)
  · exact meets_ready (meets_say hw _ _)

/-- `PASV` and `EPSV` open a port and touch no file. -/
theorem meets_handlePasv (hw : Ready answer cfg start w) (cmd arg : Text) (isEpsv : Bool) :
    (handlePasv answer cmd arg isEpsv).Meets (Ready answer cfg start) w
      fun _ => Ready answer cfg start := by
  unfold handlePasv
  split
  · exact (meets_keep hw (by simp)).bind fun _ _ h => meets_ready (meets_say h.ready _ _)
  · exact meets_elsewhere hw cmd arg

/-- One of two replies. -/
theorem meets_sayEither (hw : Ready answer cfg start w) (p : Prop) [Decidable p]
    (status status' : Nat) (text text' : String) :
    (if p then say answer status text else say answer status' text').Meets
      (Ready answer cfg start) w fun _ => Ready answer cfg start := by
  split
  · exact meets_ready (meets_say hw _ _)
  · exact meets_ready (meets_say hw _ _)

/-- Whatever the command is, its handler keeps to the policy. -/
theorem meets_commands (hw : Ready answer cfg start w) (hclean : nul ∉ arg)
    (hforce : inForce w.journal = cmd) (tries : Nat) (s : Session) :
    (firstOf (say answer 500 "Unknown command.")
      (commands answer cfg tries s cmd arg)).Meets (Ready answer cfg start) w
      fun _ => Ready answer cfg start := by
  unfold commands
  rw [firstOf]
  split
  · exact meets_ready (meets_say hw _ _)
  next hok =>
    rw [Bool.not_eq_true, Bool.not_eq_false'] at hok
    have serves {names : List String} (h : named names cmd = true) :
        Serving cfg w.journal names := by
      rw [Serving, hforce]
      exact ⟨hok, h⟩
    have replies (status : Nat) (text : String) :
        (say answer status text).Meets (Ready answer cfg start) w
          fun _ => Ready answer cfg start :=
      meets_ready (meets_say hw status text)
    refine meets_firstOf (replies _ _) ?_
    simp only [List.forall_mem_cons, Bool.and_eq_true, List.not_mem_nil, false_imp_iff,
      implies_true, and_true]
    refine ⟨fun _ => (meets_say hw _ _).bind fun _ _ _ => trivial,
      fun _ => meets_handlePwd hw,
      fun h => meets_handleCwd hw hclean ((serves h).mono (by simp)),
      fun h => meets_handleCwd hw (by decide) ((serves h).mono (by simp)),
      fun _ => meets_handlePasv hw _ _ _,
      fun _ => meets_handlePasv hw _ _ _,
      fun h => meets_handleRetr hw hclean h.1 (.inr (serves h.2)) _,
      fun _ => replies _ _,
      fun _ => replies _ _,
      fun _ => meets_elsewhere hw _ _,
      fun h => meets_handleDirCommon hw hclean h.1 ((serves h.2).mono (by simp)) _ _,
      fun _ => meets_handleType hw _,
      fun _ => meets_elsewhere hw _ _,
      fun h => meets_handleUploadCommon hw hclean tries (.stor h.1 (serves h.2)),
      fun h => meets_handleMkd hw hclean h.1 (serves h.2),
      fun h => meets_handleRmd hw hclean h.1 (serves h.2),
      fun h => meets_handleDele hw hclean h.1 (serves h.2),
      fun _ => meets_handleRest hw _,
      fun _ => meets_handleRnfr hw hclean,
      fun h => meets_handleRnto hw hclean h.1 (serves h.2),
      fun h => meets_handleDirCommon hw hclean h.1 ((serves h.2).mono (by simp)) _ _,
      fun _ => meets_handleSize hw hclean,
      fun h => meets_handleSite hw _ hclean (by simpa using h.1) (serves h.2),
      fun _ => replies _ _,
      fun h => meets_handleUploadCommon hw hclean tries (.appe h.1 (serves h.2)),
      fun h => meets_handleMdtm hw hclean (serves h),
      fun _ => meets_elsewhere hw _ _,
      fun _ => meets_sayEither hw _ _ _ _ _,
      fun _ => meets_sayEither hw _ _ _ _ _,
      fun h => meets_handleUploadCommon hw hclean tries (.stou h.1 (serves h.2)),
      fun _ => replies _ _,
      fun _ => replies _ _,
      fun _ => replies _ _,
      fun _ => replies _ _,
      fun _ => meets_elsewhere hw _ _,
      fun _ => meets_elsewhere hw _ _,
      fun _ => meets_elsewhere hw _ _,
      fun h => meets_handleDirCommon hw hclean h.1 ((serves h.2).mono (by simp)) _ _,
      fun _ => meets_elsewhere hw _ _,
      fun _ => meets_elsewhere hw _ _,
      fun _ => meets_handleLoggedInUser hw _,
      fun _ => replies _ _,
      fun _ => replies _ _,
      fun _ => hw⟩

/-- The line that was read says which command is in force. -/
theorem meets_getCmdAndArg (hw : Ready answer cfg start w) :
    (getCmdAndArg answer).Meets (Ready answer cfg start) w
      fun cmd w' => Ready answer cfg start w' ∧ inForce w'.journal = cmd.1 ∧ nul ∉ cmd.2 := by
  refine meets_callOf hw trivial fun line k h => ?_
  split
  · trivial
  next line => exact ⟨h, rfl, clean_arg line⟩

/-- A round of the command loop keeps to the policy. -/
theorem meets_postLoginRound (hw : Ready answer cfg start w) (tries : Nat) :
    (postLoginRound answer cfg tries).Meets (Ready answer cfg start) w
      fun _ => Ready answer cfg start := by
  refine (meets_getCmdAndArg hw).bind fun cmd w₁ h₁ => ?_
  refine meets_look h₁.1 ?_
  refine (meets_commands h₁.1 h₁.2.2 h₁.2.1 tries _).bind fun _ w₂ h₂ => ?_
  refine meets_look h₂ ?_
  exact meets_ready (meets_onlyIf (fun _ => meets_vsfLogDoLog h₂ false) h₂.calm)

/-- So does the loop, round after round. -/
theorem meets_postLoginLoop (hw : Ready answer cfg start w) (tries rounds : Nat) :
    (postLoginLoop answer cfg tries rounds).Meets (Ready answer cfg start) w
      fun _ => Ready answer cfg start := by
  induction rounds generalizing w with
  | zero => exact hw
  | succ rounds ih => exact (meets_postLoginRound hw tries).bind fun _ _ h => ih h

/-- The header lines of a request are read and passed over. -/
theorem meets_eatHeaders (hw : Ready answer cfg start w) (rounds : Nat) :
    (eatHeaders answer rounds).Meets (Ready answer cfg start) w
      fun _ => Ready answer cfg start := by
  induction rounds generalizing w with
  | zero => exact hw
  | succ rounds ih =>
      refine (meets_getCmdAndArg hw).bind fun cmd w₁ h₁ => ?_
      dsimp only
      split
      · exact h₁.1
      · exact ih h₁.1

/-- Raw lines are written quietly. -/
theorem meets_writeRaw (hw : Ready answer cfg start w) (texts : List String) :
    (writeRaw answer texts).Meets (Ready answer cfg start) w
      fun _ => Calm answer cfg start w := by
  induction texts generalizing w with
  | nil => exact hw.calm
  | cons text texts ih => exact meets_calm_bind (meets_quiet hw rfl) fun _ _ h => ih h.ready

/-- A request keeps to the policy. -/
theorem meets_handleHttp (hw : Ready answer cfg start w) (hhttp : cfg.isHttp = true)
    (rounds : Nat) : (handleHttp answer cfg rounds).Meets (Ready answer cfg start) w
      fun _ => Ready answer cfg start := by
  unfold handleHttp
  split
  · trivial
  next hdownload =>
    rw [Bool.not_eq_true, Bool.not_eq_false'] at hdownload
    refine (meets_eatHeaders hw rounds).bind fun done w₁ h₁ => ?_
    split
    · exact h₁
    refine (meets_writeRaw h₁ _).bind fun _ w₂ h₂ => ?_
    refine (meets_keep h₂.ready (by simp)).bind fun _ w₃ h₃ => ?_
    have harg : nul ∉ (strSplitChar cfg.httpGetArg ' ').1 :=
      (not_mem_strSplitChar cfg.httpGetArg_clean).1
    refine (meets_handleRetr h₃.ready harg hdownload (.inl hhttp) true).bind fun _ w₄ h₄ => ?_
    refine meets_look h₄ ?_
    exact (meets_onlyIf (fun _ => meets_vsfLogDoLog h₄ false) h₄.calm).bind fun _ _ _ => trivial

/-- A session keeps to the policy from its first command on. -/
theorem meets_processPostLogin (hw : Ready answer cfg start w) (tries rounds : Nat) :
    (processPostLogin answer cfg tries rounds).Meets (Ready answer cfg start) w
      fun _ => Ready answer cfg start := by
  refine (meets_strGetcwd hw).bind fun home w₁ h₁ => ?_
  have hhome : Ready answer cfg start { w₁ with own := { w₁.own with homeStr := home } } :=
    ⟨h₁.1.ready.sound.remember _, h₁.2, h₁.1.ready.rnfr⟩
  refine ⟨hhome, ?_⟩
  split
  next hhttp => exact meets_handleHttp hhome hhttp rounds
  · refine (meets_bannerDirChanged hhome 230).bind fun _ w₂ h₂ => ?_
    refine (meets_say h₂ _ _).bind fun _ w₃ h₃ => ?_
    exact meets_postLoginLoop h₃.ready tries rounds

end Loop

/-! ## Every session -/

/-- At the start nothing has been called. -/
theorem ready_start (answer : (c : Call) → K → c.Result × K) (cfg : Config) (k : K) :
    Ready answer cfg k (State.start k) :=
  ⟨⟨trivial, .nil k⟩, List.not_mem_nil, .inl rfl⟩

/-- What is left of a session, wherever it has come to. -/
theorem ready_of_exec (answer : (c : Call) → K → c.Result × K) (cfg : Config) (k : K)
    (tries rounds : Nat) :
    Ready answer cfg k
      ((processPostLogin answer cfg tries rounds).exec (State.start k) []).state :=
  (meets_processPostLogin (ready_start answer cfg k) tries rounds).state_of_exec
    (ready_start answer cfg k) []

end FileCommands
end Server
end ModpackInstaller
