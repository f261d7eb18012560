import ModpackInstaller.Library.Run
import ModpackInstaller.Server.Reply

/-!
# Log entries of a session

How {lit}`logging.c` and the handlers of {lit}`postlogin.c` start, write and clear
log entries.  A handler is the list of what it does, as far as the log and the
control connection see it; what its operations come to is an input.  The arguments
are those behind {lit}`resolve_tilde`.  The process may end anywhere in a command:
when a reply cannot be written, when a data connection times out, in {lit}`bug`.

Main results:

- Theorem {lit}`handler_wellOrdered`: no handler starts an entry while one is
  pending or writes one when none is.
- Theorem {lit}`log_discipline`: over every run no {lit}`bug` of the log is reached,
  and behind every command that returns all its entries are closed.
-/

namespace ModpackInstaller
namespace Server
namespace Logging

open Library

/-! ## The log -/

/-- `enum EVSFLogEntryType` -/
inductive EntryType where
  | null
  | download
  | upload
  | mkdir
  | login
  | ftpInput
  | ftpOutput
  | connection
  | delete
  | rename
  | rmdir
  | chmod
  | debug
  | update
deriving DecidableEq, Repr

/-- What became of an entry. -/
inductive Close where
  | written (logStr : Text) (transferSize : Nat) (succeeded : Bool)
  | cleared
deriving DecidableEq, Repr

/-- The marks that an entry leaves; only the statements look at them. -/
inductive Mark where
  | started (what : EntryType)
  | closed (what : EntryType) (close : Close)
deriving DecidableEq, Repr

/-- The fields of the session that belong to the log, and the name of the last
{lit}`RNFR`. -/
structure Session where
  /-- `log_type`, with `none` for 0. -/
  logType : Option EntryType
  logStr : Text
  transferSize : Nat
  rnfrFilename : Text
  journal : List Mark
  /-- The process has ended. -/
  ended : Bool
deriving DecidableEq, Repr

/-- A session behind the login. -/
def Session.start : Session :=
  ⟨none, [], 0, [], [], false⟩

/-- What a handler does. -/
inductive Action where
  /-- `vsf_log_start_entry` -/
  | startEntry (what : EntryType)
  | setLogStr (logStr : Text)
  | setTransferSize (size : Nat)
  | setRnfrFilename (filename : Text)
  /-- `vsf_log_do_log` -/
  | doLog (succeeded : Bool)
  /-- `vsf_log_clear_entry` -/
  | clearEntry
  /-- `vsf_cmdio_write` -/
  | write (reply : Text)
  /-- `get_remote_transfer_fd`, with the replies it makes. -/
  | connect (mark : Text)
  /-- `vsf_ftpdataio_transfer_file` or `ftp_write_str`, and
  `vsf_ftpdataio_dispose_transfer_fd` -/
  | transfer
  /-- `vsf_cmdio_write_exit`, `die` or `bug` -/
  | exits
deriving DecidableEq, Repr

/-- One action; `none` for the two `bug`s of the log.  An entry of type 0 ends in
the second one when there is a log for it. -/
def act (s : Session) : Action → Option Session
  | .startEntry what =>
    if s.logType.isSome then none
    else some { s with
      logType := some what, logStr := [], transferSize := 0
      journal := s.journal ++ [.started what] }
  | .setLogStr logStr => some { s with logStr }
  | .setTransferSize transferSize => some { s with transferSize }
  | .setRnfrFilename rnfrFilename => some { s with rnfrFilename }
  | .doLog succeeded =>
    s.logType.map fun what => { s with
      logType := none
      journal := s.journal ++ [.closed what (.written s.logStr s.transferSize succeeded)] }
  | .clearEntry =>
    some { s with
      logType := none
      journal := s.journal ++ s.logType.toList.map (.closed · .cleared) }
  | .write _ | .connect _ | .transfer => some s
  | .exits => some { s with ended := true }

/-- Nothing happens behind the end of the process. -/
def perform (s : Session) (a : Action) : Option Session :=
  if s.ended then some s else act s a

/-! ## The handlers -/

/-- `prepend_path_to_filename` -/
def prependPathToFilename (cwd filename : Text) : Text :=
  if filename.head? = some '/' then filename
  else (if cwd.getLast? = some '/' then cwd else cwd ++ ['/']) ++ filename

/-- A single reply. -/
def reply (status : Nat) (text : String) : Action :=
  .write (vsfCmdioWrite status text.toList)

/-- Start an entry with its text. -/
def startEntryFor (what : EntryType) (logStr : Text) : List Action :=
  [.startEntry what, .setLogStr logStr]

/-- The end of a handler that logs one operation: whether the name is allowed,
whether the operation was done, and what follows when it was. -/
def loggedOperation (what : EntryType) (logStr : Text) (allowed done : Bool) (failed : String)
    (success : List Action) : List Action :=
  startEntryFor what logStr ++
    if !allowed then [reply 550 "Permission denied."]
    else if !done then [reply 550 failed]
    else .doLog true :: success

/-- `handle_mkd` -/
def handleMkd (cwd arg : Text) (allowed made : Bool) : List Action :=
  loggedOperation .mkdir (prependPathToFilename cwd arg) allowed made
    "Create directory operation failed."
    [.write (vsfCmdioWriteStr 257 (['"'] ++
      strReplaceText (prependPathToFilename cwd arg) ['"'] ['"', '"'] ++ "\" created".toList))]

/-- `handle_rmd` -/
def handleRmd (cwd arg : Text) (allowed removed : Bool) : List Action :=
  loggedOperation .rmdir (prependPathToFilename cwd arg) allowed removed
    "Remove directory operation failed." [reply 250 "Remove directory operation successful."]

/-- `handle_dele` -/
def handleDele (cwd arg : Text) (allowed removed : Bool) : List Action :=
  loggedOperation .delete (prependPathToFilename cwd arg) allowed removed
    "Delete operation failed." [reply 250 "Delete operation successful."]

/-- `handle_rnfr`; only a refusal is logged. -/
def handleRnfr (cwd arg : Text) (allowed exist : Bool) : List Action :=
  .setRnfrFilename [] ::
    if !allowed then
      startEntryFor .rename (prependPathToFilename cwd arg) ++ [reply 550 "Permission denied."]
    else if exist then [.setRnfrFilename arg, reply 350 "Ready for RNTO."]
    else
      startEntryFor .rename (prependPathToFilename cwd arg) ++ [reply 550 "RNFR command failed."]

/-- `handle_rnto` behind the `RNFR` of this name. -/
def handleRnto (cwd rnfrFilename arg : Text) (allowed renamed : Bool) : List Action :=
  if rnfrFilename.isEmpty then [reply 503 "RNFR required first."]
  else
    startEntryFor .rename (prependPathToFilename cwd rnfrFilename ++ [' '] ++
        prependPathToFilename cwd arg) ++
      if !allowed then [reply 550 "Permission denied."]
      else
        .setRnfrFilename [] ::
          if renamed then [.doLog true, reply 250 "Rename successful."]
          else [reply 550 "Rename failed."]

/-- `handle_site_chmod` -/
def handleSiteChmod (cwd arg : Text) (allowed changed : Bool) : List Action :=
  let (perms, filename) := strSplitChar arg ' '
  if arg.isEmpty then [reply 500 "SITE CHMOD needs 2 arguments."]
  else if filename.isEmpty then [reply 500 "SITE CHMOD needs 2 arguments."]
  else
    loggedOperation .chmod (prependPathToFilename cwd filename ++ [' '] ++ perms) allowed changed
      "SITE CHMOD command failed." [reply 200 "SITE CHMOD command ok."]

/-- `check_abor` -/
def checkAbor (aborReceived : Bool) : List Action :=
  if aborReceived then [reply 226 "ABOR successful."] else []

/-- What a transfer comes to. -/
structure TransferOutcome where
  /-- The reply with which `data_transfer_checks_ok` refuses. -/
  checks : Option Text
  /-- `vsf_access_check_file` -/
  allowed : Bool
  /-- `get_remote_transfer_fd` gives a descriptor. -/
  remote : Bool
  /-- `trans_ret.retval` behind the disposal of the descriptor. -/
  retval : Int
  transferred : Nat
  aborReceived : Bool
deriving DecidableEq, Repr

/-- What else a download comes to. -/
structure RetrOutcome extends TransferOutcome where
  /-- An ASCII session behind a `REST`. -/
  asciiResume : Bool
  /-- What `str_open` opens. -/
  opened : Option FileType
  /-- The checks for anonymous users allow it. -/
  readable : Bool
  asciiDownload : Bool
  size : Nat
deriving DecidableEq, Repr

/-- The final reply of a download. -/
def retrReply (retval : Int) : Action :=
  if retval = -1 then reply 451 "Failure reading local file."
  else if retval = -2 then reply 426 "Failure writing network stream."
  else reply 226 "Transfer complete."

/-- The reply with which a download begins. -/
def retrMark (arg : Text) (o : RetrOutcome) : Text :=
  "Opening ".toList ++ (if o.asciiDownload then "ASCII" else "BINARY").toList ++
    " mode data connection for ".toList ++ arg ++ " (".toList ++ Nat.toDigits 10 o.size ++
    " bytes).".toList

/-- `handle_retr` from the opened file on. -/
def retrOver (arg : Text) (isHttp : Bool) (o : RetrOutcome) : List Action :=
  (if isHttp then [] else [.connect (retrMark arg o)]) ++
    if !isHttp && !o.remote then []
    else
      [.transfer, .setTransferSize o.transferred] ++
        (if o.retval = 0 then [.doLog true] else []) ++
        if isHttp then [] else retrReply o.retval :: checkAbor o.aborReceived

/-- `handle_retr` -/
def handleRetr (cwd arg : Text) (isHttp : Bool) (o : RetrOutcome) : List Action :=
  match if isHttp then none else o.checks with
  | some refusal => [.write refusal]
  | none =>
    if o.asciiResume then [reply 550 "No support for resume of ASCII transfer."]
    else
      startEntryFor .download (prependPathToFilename cwd arg) ++
        if !o.allowed then [reply 550 "Permission denied."]
        else
          match o.opened with
          | none => [reply 550 "Failed to open file."]
          -- Downloads of directories are too common to be logged.
          | some .directory => [reply 550 "Failed to open file.", .clearEntry]
          | some .special => [reply 550 "Failed to open file."]
          | some .regular =>
            if !o.readable then [reply 550 "Failed to open file."] else retrOver arg isHttp o

/-- The final reply of an upload. -/
def uploadReply (retval : Int) (aborReceived : Bool) : Action :=
  if retval = -1 then reply 451 "Failure writing to local file."
  else if retval = -2 ∨ aborReceived = true then reply 426 "Failure reading network stream."
  else reply 226 "Transfer complete."

/-- `handle_upload_common`; `unique` is the file name of a `STOU`. -/
def handleUploadCommon (cwd arg : Text) (unique : Option Text) (created : Bool)
    (o : TransferOutcome) : List Action :=
  match o.checks with
  | some refusal => [.write refusal]
  | none =>
    startEntryFor .upload (prependPathToFilename cwd arg) ++
      if !o.allowed then [reply 550 "Permission denied."]
      else if !created then [reply 553 "Could not create file."]
      else
        .connect ((unique.map ("FILE: ".toList ++ ·)).getD "Ok to send data.".toList) ::
          if !o.remote then []
          else
            [.transfer, .setTransferSize o.transferred] ++
              (if o.retval = 0 then [.doLog true] else []) ++
              uploadReply o.retval o.aborReceived :: checkAbor o.aborReceived

/-- What an update request comes to. -/
structure UinsLogged where
  /-- The reply with which `data_transfer_checks_ok` refuses. -/
  checks : Option Text
  /-- What `mcu_create_update_instructions` returns. -/
  retval : Int
  /-- `get_remote_transfer_fd` gives a descriptor. -/
  remote : Bool
  /-- `vsf_ftpdataio_dispose_transfer_fd` returns 1 and `trans_ret` is not
  negative. -/
  sent : Bool
deriving DecidableEq, Repr

/-- `handle_site_uins` from the start of its entry on. -/
def uinsLogged (modpack version : Text) (o : UinsLogged) : List Action :=
  startEntryFor .update
      ("Modpack: ".toList ++ modpack ++ ", Version: ".toList ++ version) ++
    if o.retval = 1 then [.doLog false, reply 550 "Modpack not found."]
    else if o.retval = 2 then [.doLog false, reply 550 "Version not found."]
    else if o.retval = -1 then [.doLog false, reply 550 "Listfile error."]
    else
      .connect "Here comes the update instructions.".toList ::
        -- Without a descriptor its disposal ends in `bug`.
        if !o.remote then [.exits]
        else
          .transfer ::
            if !o.sent then [.doLog false, reply 426 "Failure writing network stream."]
            else [.doLog true, reply 226 "Instructions send OK."]

/-- `handle_site_uins` -/
def handleSiteUinsLogged (arg : Text) (o : UinsLogged) : List Action :=
  let (modpack, version) := strSplitChar arg ' '
  if arg.isEmpty then [reply 500 "SITE UINS needs 2 arguments."]
  else if '/' ∈ arg then [reply 500 "Illegal character."]
  else if version.isEmpty then [reply 500 "SITE UINS needs 2 arguments."]
  else
    match o.checks with
    | some refusal => [.write refusal]
    | none => uinsLogged modpack version o

/-! ## The command loop -/

/-- The handlers of the loop with what their operations come to.  The handlers
that log nothing are one case, and a command that is not allowed is one of
them. -/
inductive Handler where
  | quit
  | retr (isHttp : Bool) (arg : Text) (o : RetrOutcome)
  | stor (arg : Text) (created : Bool) (o : TransferOutcome)
  | appe (arg : Text) (created : Bool) (o : TransferOutcome)
  | stou (arg unique : Text) (created : Bool) (o : TransferOutcome)
  | mkd (arg : Text) (allowed made : Bool)
  | rmd (arg : Text) (allowed removed : Bool)
  | dele (arg : Text) (allowed removed : Bool)
  | rnfr (arg : Text) (allowed exist : Bool)
  | rnto (arg : Text) (allowed renamed : Bool)
  | siteChmod (arg : Text) (allowed changed : Bool)
  | siteUins (arg : Text) (o : UinsLogged)
  | other (replies : List Text)
deriving DecidableEq, Repr

/-- What a handler does in a session. -/
def Handler.actions (cwd : Text) (s : Session) : Handler → List Action
  | .quit => [reply 221 "Goodbye.", .exits]
  | .retr isHttp arg o => handleRetr cwd arg isHttp o
  | .stor arg created o => handleUploadCommon cwd arg none created o
  | .appe arg created o => handleUploadCommon cwd arg none created o
  | .stou arg unique created o => handleUploadCommon cwd arg (some unique) created o
  | .mkd arg allowed made => handleMkd cwd arg allowed made
  | .rmd arg allowed removed => handleRmd cwd arg allowed removed
  | .dele arg allowed removed => handleDele cwd arg allowed removed
  | .rnfr arg allowed exist => handleRnfr cwd arg allowed exist
  | .rnto arg allowed renamed => handleRnto cwd s.rnfrFilename arg allowed renamed
  | .siteChmod arg allowed changed => handleSiteChmod cwd arg allowed changed
  | .siteUins arg o => handleSiteUinsLogged arg o
  | .other replies => replies.map .write

/-- A command with the working directory it finds.  With `some n` the process ends
behind that many of its actions. -/
structure Command where
  cwd : Text
  handler : Handler
  ends : Option Nat
deriving DecidableEq, Repr

def Command.actions (s : Session) (c : Command) : List Action :=
  match c.ends with
  | none => c.handler.actions c.cwd s
  | some n => (c.handler.actions c.cwd s).take n ++ [.exits]

/-- The end of the command loop: an entry that is pending is a failure. -/
def endOfLoop (s : Session) : Option Session :=
  if s.logType.isSome then perform s (.doLog false) else some s

/-- One command. -/
def serve (s : Session) (c : Command) : Option Session :=
  (run perform s (c.actions s)).bind endOfLoop

/-! ## The order of the log calls -/

/-- No entry is started while one is pending, and none is written when none is. -/
def WellOrdered : Bool → List Action → Prop
  | _, [] => True
  | pending, .startEntry _ :: actions => pending = false ∧ WellOrdered true actions
  | pending, .doLog _ :: actions => pending = true ∧ WellOrdered false actions
  | _, .clearEntry :: actions => WellOrdered false actions
  | _, .exits :: _ => True
  | pending, _ :: actions => WellOrdered pending actions

section WellOrdered

variable {pending : Bool} {actions : List Action}

/-- No action at all is in order. The lemmas that follow read `WellOrdered` one action at a time. -/
@[simp] theorem wellOrdered_nil : WellOrdered pending [] := trivial

/-- An entry starts where none is pending. -/
@[simp] theorem wellOrdered_startEntryFor (what : EntryType) (logStr : Text) :
    WellOrdered false (startEntryFor what logStr ++ actions) ↔ WellOrdered true actions :=
  ⟨And.right, fun h => ⟨rfl, h⟩⟩

@[simp] theorem wellOrdered_setTransferSize (size : Nat) :
    WellOrdered pending (.setTransferSize size :: actions) ↔ WellOrdered pending actions := Iff.rfl

@[simp] theorem wellOrdered_setRnfrFilename (filename : Text) :
    WellOrdered pending (.setRnfrFilename filename :: actions) ↔ WellOrdered pending actions :=
  Iff.rfl

/-- An entry is written where one is pending, and none is pending behind it. -/
@[simp] theorem wellOrdered_doLog (succeeded : Bool) :
    WellOrdered true (.doLog succeeded :: actions) ↔ WellOrdered false actions :=
  ⟨And.right, fun h => ⟨rfl, h⟩⟩

/-- Clearing takes back a pending entry, and is harmless where none is. -/
@[simp] theorem wellOrdered_clearEntry :
    WellOrdered pending (.clearEntry :: actions) ↔ WellOrdered false actions := Iff.rfl

@[simp] theorem wellOrdered_write (text : Text) :
    WellOrdered pending (.write text :: actions) ↔ WellOrdered pending actions := Iff.rfl

@[simp] theorem wellOrdered_reply (status : Nat) (text : String) :
    WellOrdered pending (reply status text :: actions) ↔ WellOrdered pending actions := Iff.rfl

@[simp] theorem wellOrdered_connect (mark : Text) :
    WellOrdered pending (.connect mark :: actions) ↔ WellOrdered pending actions := Iff.rfl

@[simp] theorem wellOrdered_transfer :
    WellOrdered pending (.transfer :: actions) ↔ WellOrdered pending actions := Iff.rfl

/-- Behind the end of the process every list of actions is in order. -/
@[simp] theorem wellOrdered_exits : WellOrdered pending (.exits :: actions) := trivial

/-- A list that ends early, with the end of the process, is in order as well. -/
theorem WellOrdered.ends (h : WellOrdered pending actions) (n : Nat) :
    WellOrdered pending (actions.take n ++ [.exits]) := by
  induction actions generalizing pending n with
  | nil => simp
  | cons a actions ih =>
      cases n with
      | zero => exact trivial
      | succ n =>
          cases a with
          | startEntry | doLog => exact ⟨h.1, ih h.2 n⟩
          | exits => exact trivial
          | _ => exact ih h n

end WellOrdered

/-- A session that has ended does nothing any more. -/
theorem run_perform_of_ended {s : Session} (h : s.ended = true) (actions : List Action) :
    run perform s actions = some s := by
  induction actions with
  | nil => rfl
  | cons a actions ih => rw [run_cons, perform, if_pos h, Option.bind_some, ih]

/-- What is in order reaches no `bug` of the log. -/
theorem run_perform_of_wellOrdered {s : Session} {actions : List Action}
    (h : WellOrdered s.logType.isSome actions) : ∃ s', run perform s actions = some s' := by
  induction actions generalizing s with
  | nil => exact ⟨s, rfl⟩
  | cons a actions ih =>
      by_cases hended : s.ended = true
      · exact ⟨s, run_perform_of_ended hended _⟩
      · rw [run_cons, perform, if_neg hended]
        cases a with
        | startEntry what =>
            rw [act, if_neg (by simp [h.1])]
            exact ih h.2
        | doLog succeeded =>
            obtain ⟨what, hwhat⟩ := Option.isSome_iff_exists.mp h.1
            rw [act, hwhat]
            exact ih h.2
        | exits => exact ⟨_, run_perform_of_ended rfl _⟩
        | _ => exact ih h

/-! ## The handlers are in order -/

/-- The shape that most commands share: the entry starts, the operation is tried, the entry is
written with its outcome. -/
theorem wellOrdered_loggedOperation (what : EntryType) (logStr : Text) (allowed done : Bool)
    (failed : String) {success : List Action} (h : WellOrdered false success) :
    WellOrdered false (loggedOperation what logStr allowed done failed success) := by
  rw [loggedOperation, wellOrdered_startEntryFor]
  split_ifs <;> simp [h]

/-- The look for an ABOR leaves the entry alone. -/
theorem wellOrdered_checkAbor (pending aborReceived : Bool) :
    WellOrdered pending (checkAbor aborReceived) := by
  cases aborReceived <;> simp [checkAbor]

/-- RNFR keeps the order: it only starts an entry where the file is missing or forbidden. -/
theorem wellOrdered_handleRnfr (cwd arg : Text) (allowed exist : Bool) :
    WellOrdered false (handleRnfr cwd arg allowed exist) := by
  rw [handleRnfr, wellOrdered_setRnfrFilename]
  split_ifs <;> simp

/-- RNTO keeps the order in each of its ways out. -/
theorem wellOrdered_handleRnto (cwd rnfrFilename arg : Text) (allowed renamed : Bool) :
    WellOrdered false (handleRnto cwd rnfrFilename arg allowed renamed) := by
  rw [handleRnto]
  split_ifs <;> simp

/-- SITE CHMOD keeps the order, a malformed command included. -/
theorem wellOrdered_handleSiteChmod (cwd arg : Text) (allowed changed : Bool) :
    WellOrdered false (handleSiteChmod cwd arg allowed changed) := by
  simp only [handleSiteChmod]
  split_ifs
  · simp
  · simp
  · exact wellOrdered_loggedOperation _ _ allowed changed _ (by simp)

/-- A transfer logs its success only. -/
theorem wellOrdered_finished (retval : Int) {rest : List Action}
    (h : ∀ pending, WellOrdered pending rest) :
    WellOrdered true ((if retval = 0 then [.doLog true] else []) ++ rest) := by
  split_ifs <;> simp [h]

/-- The reply behind a download does not touch the entry. -/
theorem wellOrdered_retrReply (retval : Int) (pending : Bool) (actions : List Action) :
    WellOrdered pending (retrReply retval :: actions) ↔ WellOrdered pending actions := by
  unfold retrReply
  split_ifs <;> simp

/-- Nor does the reply behind an upload. -/
theorem wellOrdered_uploadReply (retval : Int) (aborReceived pending : Bool)
    (actions : List Action) :
    WellOrdered pending (uploadReply retval aborReceived :: actions) ↔
      WellOrdered pending actions := by
  unfold uploadReply
  split_ifs <;> simp

/-- The part of RETR behind the transfer writes the pending entry at most once. -/
theorem wellOrdered_retrOver (arg : Text) (isHttp : Bool) (o : RetrOutcome) :
    WellOrdered true (retrOver arg isHttp o) := by
  cases isHttp with
  | false =>
      have hend (pending : Bool) :
          WellOrdered pending (retrReply o.retval :: checkAbor o.aborReceived) := by
        rw [wellOrdered_retrReply]
        exact wellOrdered_checkAbor pending o.aborReceived
      cases hremote : o.remote with
      | false => simp [retrOver, hremote]
      | true => simpa [retrOver, hremote] using wellOrdered_finished o.retval hend
  | true => simpa [retrOver] using wellOrdered_finished o.retval fun _ => wellOrdered_nil

/-- RETR keeps the order for every outcome of the transfer. -/
theorem wellOrdered_handleRetr (cwd arg : Text) (isHttp : Bool) (o : RetrOutcome) :
    WellOrdered false (handleRetr cwd arg isHttp o) := by
  unfold handleRetr
  split
  · simp
  · by_cases hresume : o.asciiResume = true
    · simp [hresume]
    · rw [if_neg hresume, wellOrdered_startEntryFor]
      by_cases hallowed : o.allowed = true
      · rw [if_neg (by simp [hallowed])]
        split
        · simp
        · simp
        · simp
        · split
          · simp
          · exact wellOrdered_retrOver arg isHttp o
      · simp [hallowed]

/-- STOR, APPE and STOU keep the order for every outcome of the transfer. -/
theorem wellOrdered_handleUploadCommon (cwd arg : Text) (unique : Option Text) (created : Bool)
    (o : TransferOutcome) : WellOrdered false (handleUploadCommon cwd arg unique created o) := by
  unfold handleUploadCommon
  cases o.checks with
  | some refusal => simp
  | none =>
      have hend (pending : Bool) : WellOrdered pending
          (uploadReply o.retval o.aborReceived :: checkAbor o.aborReceived) := by
        rw [wellOrdered_uploadReply]
        exact wellOrdered_checkAbor pending o.aborReceived
      simp only [wellOrdered_startEntryFor]
      by_cases hallowed : o.allowed = true
      · cases created with
        | false => simp [hallowed]
        | true =>
            cases hremote : o.remote with
            | false => simp [hallowed]
            | true => simpa [hallowed] using wellOrdered_finished o.retval hend
      · simp [hallowed]

/-- SITE UINS keeps the order for every outcome. -/
theorem wellOrdered_handleSiteUins (arg : Text) (o : UinsLogged) :
    WellOrdered false (handleSiteUinsLogged arg o) := by
  simp only [handleSiteUinsLogged]
  split_ifs
  · simp
  · simp
  · simp
  · cases o.checks with
    | some refusal => simp
    | none =>
        simp only [uinsLogged, wellOrdered_startEntryFor]
        split_ifs <;> simp

/-- No handler starts an entry while one is pending, and none writes one when none
is, whatever its operations come to. -/
theorem handler_wellOrdered (cwd : Text) (s : Session) (h : Handler) :
    WellOrdered false (h.actions cwd s) := by
  cases h with
  | quit => simp [Handler.actions]
  | retr isHttp arg o => exact wellOrdered_handleRetr cwd arg isHttp o
  | stor arg created o => exact wellOrdered_handleUploadCommon cwd arg none created o
  | appe arg created o => exact wellOrdered_handleUploadCommon cwd arg none created o
  | stou arg unique created o =>
      exact wellOrdered_handleUploadCommon cwd arg (some unique) created o
  | mkd arg allowed made => exact wellOrdered_loggedOperation _ _ allowed made _ (by simp)
  | rmd arg allowed removed => exact wellOrdered_loggedOperation _ _ allowed removed _ (by simp)
  | dele arg allowed removed => exact wellOrdered_loggedOperation _ _ allowed removed _ (by simp)
  | rnfr arg allowed exist => exact wellOrdered_handleRnfr cwd arg allowed exist
  | rnto arg allowed renamed =>
      exact wellOrdered_handleRnto cwd s.rnfrFilename arg allowed renamed
  | siteChmod arg allowed changed => exact wellOrdered_handleSiteChmod cwd arg allowed changed
  | siteUins arg o => exact wellOrdered_handleSiteUins arg o
  | other replies =>
      rw [Handler.actions]
      induction replies with
      | nil => simp
      | cons text replies ih => simpa using ih

/-- Every command keeps the order, and needs no entry that is pending from before. -/
theorem command_wellOrdered (s : Session) (c : Command) : WellOrdered false (c.actions s) := by
  unfold Command.actions
  split
  · exact handler_wellOrdered c.cwd s c.handler
  · exact (handler_wellOrdered c.cwd s c.handler).ends _

/-! ## The entries -/

/-- An entry with what became of it. -/
structure Entry where
  what : EntryType
  close : Close
deriving DecidableEq, Repr

def Entry.marks (e : Entry) : List Mark :=
  [.started e.what, .closed e.what e.close]

/-- Every entry was started and then closed once, but for one that is pending. -/
def Kept (journal : List Mark) (pending : Option EntryType) : Prop :=
  ∃ entries : List Entry, journal = entries.flatMap Entry.marks ++ pending.toList.map .started

/-- Closing a pending entry. -/
theorem Kept.close {journal : List Mark} {what : EntryType} (h : Kept journal (some what))
    (close : Close) : Kept (journal ++ [.closed what close]) none := by
  obtain ⟨entries, rfl⟩ := h
  exact ⟨entries ++ [⟨what, close⟩], by simp [Entry.marks]⟩

/-- Every action keeps the entries. -/
theorem perform_kept {s s' : Session} {a : Action} (h : Kept s.journal s.logType)
    (hperform : perform s a = some s') : Kept s'.journal s'.logType := by
  unfold perform at hperform
  split at hperform
  · exact Option.some.inj hperform ▸ h
  · cases a with
    | startEntry what =>
        rw [act] at hperform
        split at hperform
        · cases hperform
        · rename_i hidle
          obtain ⟨entries, hentries⟩ := h
          rw [Option.not_isSome_iff_eq_none.mp hidle] at hentries
          obtain rfl := Option.some.inj hperform
          exact ⟨entries, by simp [hentries]⟩
    | doLog succeeded =>
        obtain ⟨what, hwhat, rfl⟩ := Option.map_eq_some_iff.mp hperform
        exact (hwhat ▸ h).close _
    | clearEntry =>
        obtain rfl := Option.some.inj hperform
        cases hpending : s.logType with
        | none => simpa [hpending] using h
        | some what => exact (hpending ▸ h).close _
    | _ => exact Option.some.inj hperform ▸ h

/-- The end of the loop leaves no entry pending while the process lives. -/
theorem endOfLoop_of_kept {s : Session} (h : Kept s.journal s.logType) :
    ∃ s', endOfLoop s = some s' ∧ Kept s'.journal s'.logType ∧
      (s'.ended = false → s'.logType = none) := by
  unfold endOfLoop
  split
  · rename_i hpending
    cases hended : s.ended with
    | true =>
        have hnothing : perform s (.doLog false) = some s := if_pos hended
        exact ⟨s, hnothing, h, fun halive => absurd (hended.symm.trans halive) (by simp)⟩
    | false =>
        obtain ⟨what, hwhat⟩ := Option.isSome_iff_exists.mp hpending
        have hwritten : perform s (.doLog false) = some { s with
            logType := none
            journal := s.journal ++
              [.closed what (.written s.logStr s.transferSize false)] } := by
          simp [perform, act, hended, hwhat]
        exact ⟨_, hwritten, perform_kept h hwritten, fun _ => rfl⟩
  · rename_i hidle
    exact ⟨s, rfl, h, fun _ => Option.not_isSome_iff_eq_none.mp hidle⟩

/-- What holds of a session between two commands. -/
def Settled (s : Session) : Prop :=
  Kept s.journal s.logType ∧ (s.ended = false → s.logType = none)

/-- A command that finds the log settled reaches no `bug` of the log and leaves it
settled. -/
theorem serve_settled {s : Session} (h : Settled s) (c : Command) :
    ∃ s', serve s c = some s' ∧ Settled s' := by
  have hactions : ∃ s₁, run perform s (c.actions s) = some s₁ := by
    cases hended : s.ended with
    | true => exact ⟨s, run_perform_of_ended hended _⟩
    | false =>
        refine run_perform_of_wellOrdered ?_
        rw [h.2 hended]
        exact command_wellOrdered s c
  obtain ⟨s₁, hs₁⟩ := hactions
  have hkept : Kept s₁.journal s₁.logType := run_invariant_of_step
    (P := fun s => Kept s.journal s.logType) (fun _ _ _ => perform_kept) h.1 hs₁
  obtain ⟨s', hs', hkept', hidle⟩ := endOfLoop_of_kept hkept
  exact ⟨s', by rw [serve, hs₁, Option.bind_some, hs'], hkept', hidle⟩

/-- Over any sequence of commands neither `bug` of the log is reached.  As long as
the process lives, `log_type` is 0 behind every command and every entry that was
started has been written or cleared once; when the process ends in a command, its
entry may be left over. -/
theorem log_discipline (cs : List Command) :
    ∃ s, run serve .start cs = some s ∧ Kept s.journal s.logType ∧
      (s.ended = false → s.logType = none ∧ Kept s.journal none) := by
  have hruns (s : Session) (hs : Settled s) (cs : List Command) :
      ∃ s', run serve s cs = some s' ∧ Settled s' := by
    induction cs generalizing s with
    | nil => exact ⟨s, rfl, hs⟩
    | cons c cs ih =>
        obtain ⟨s₁, hs₁, hsettled⟩ := serve_settled hs c
        rw [run_cons, hs₁]
        exact ih s₁ hsettled
  obtain ⟨s, hs, hkept, hidle⟩ := hruns .start ⟨⟨[], rfl⟩, fun _ => rfl⟩ cs
  refine ⟨s, hs, hkept, fun halive => ⟨hidle halive, ?_⟩⟩
  exact hidle halive ▸ hkept

/-- A download over a connection that comes up. -/
def RetrOutcome.plain : RetrOutcome where
  checks := none
  allowed := true
  remote := true
  retval := 0
  transferred := 0
  aborReceived := false
  asciiResume := false
  opened := some .regular
  readable := true
  asciiDownload := false
  size := 1

/-- The process ends in the transfer when the data connection times out. -/
def timedOut : Command :=
  ⟨['/'], .retr false ['f'] .plain, some 4⟩

/-- A download whose data connection times out leaves its entry unwritten. -/
theorem log_discipline_fails :
    (timedOut.handler.actions timedOut.cwd .start)[3]? = some .transfer ∧
      ∃ s, run serve .start [timedOut] = some s ∧ ¬ Kept s.journal none := by
  refine ⟨by decide, _, rfl, ?_⟩
  rintro ⟨entries, hentries⟩
  have hjournal : [Mark.started .download] = entries.flatMap Entry.marks := by
    simpa [Session.start] using hentries
  cases entries with
  | nil => cases hjournal
  | cons e entries => simp [Entry.marks] at hjournal

end Logging
end Server
end ModpackInstaller
