import ModpackInstaller.Control.Commands
import ModpackInstaller.Library.Journal
import ModpackInstaller.Server.Filter
import ModpackInstaller.Server.LogEntry

/-!
# File commands

The handlers of {lit}`postlogin.c` that touch files, as a process that makes calls to the
kernel.  Whatever the kernel answers, the client's next line included, is put down in a
journal.  What is done for data connections, the two functions of {lit}`mcupdate.c`, and the
handlers that touch no file, are single calls here.

Main definitions:

- Definition {lit}`Call`: what a session asks of the kernel and of the client.
- Definition {lit}`commands`: the commands, in the order in which they are looked for.
- Definition {lit}`processPostLogin`: a session behind its login.
-/

namespace ModpackInstaller
namespace Server
namespace FileCommands

open Library Control Logging Server.Filter

/-! ## Calls -/

/-- `struct vsf_sysutil_statbuf`, as far as the handlers look into it. -/
structure Statbuf where
  isRegfile : Bool
  isDir : Bool
  isReadableOther : Bool
  size : Nat
  /-- `vsf_sysutil_statbuf_get_numeric_date` -/
  numericDate : Text
deriving DecidableEq, Repr

/-- `struct vsf_transfer_ret` -/
structure TransferRet where
  retval : Int
  transferred : Nat
deriving DecidableEq, Repr

/-- What a session does that can be seen from outside. -/
inductive Call where
  /-- The next line from the client, as it is read. -/
  | getLine
  | write (reply : Text)
  /-- `vsf_log_common` -/
  | log (what : EntryType) (logStr : Text) (transferSize : Nat) (succeeded : Bool)
  | getcwd
  | getpwnam (user : Text)
  | parseTime (text : Text)
  /-- `str_fileread` -/
  | fileread (filename : Text) (maxsize : Nat)
  | chdir (path : Text)
  | opendir (path : Text)
  | dirStat (dir : Nat)
  | closedir (dir : Nat)
  | stat (path : Text)
  | openReadOnly (path : Text)
  /-- `str_create` or `str_create_exclusive` -/
  | create (path : Text) (exclusive : Bool)
  | fstat (fd : Nat)
  | lockFile (fd : Nat) (forWriting : Bool)
  | deactivateNoblock (fd : Nat)
  | fchmod (fd mode : Nat)
  /-- `vsf_one_process_chown_upload` or `vsf_two_process_chown_upload` -/
  | chownUpload (fd : Nat)
  | ftruncate (fd : Nat)
  | lseekTo (fd offset : Nat)
  | lseekEnd (fd : Nat)
  | close (fd : Nat)
  | mkdir (path : Text) (mode : Nat)
  | rmdir (path : Text)
  | unlink (path : Text)
  | rename (source target : Text)
  | chmod (path : Text) (mode : Nat)
  | setmodtime (path : Text) (modtime : Int)
  | dataTransferChecks
  | getRemoteTransferFd (statusMsg : Text)
  | transferFile (remoteFd fileFd : Nat) (isRecv isAscii : Bool)
  /-- `vsf_ftpdataio_transfer_dir` -/
  | transferDir (isControl : Bool) (dir : Nat) (baseDir option filter : Text) (isVerbose : Bool)
  | disposeTransferFd
  | aborReceived
  | clearAbor
  /-- `port_cleanup` and `pasv_cleanup` -/
  | cleanup
  /-- `mcu_get_latest_version`, which reads a file below `/DATA`. -/
  | latestVersion (modpack : Text)
  /-- `mcu_create_update_instructions`, which reads files below `/DATA`, and opens and looks at the
  files that they list. -/
  | updateInstructions (modpack version : Text)
  /-- `ftp_write_str` on the data connection -/
  | writeData (text : Text)
  /-- What a variable holds that nothing was assigned to. -/
  | unassigned
  /-- A handler that touches no file. -/
  | elsewhere (cmd arg : Text)
deriving DecidableEq, Repr

/-- What comes back; where the source dies of an error, that is `none`. -/
def Call.Result : Call → Type
  | getLine | getpwnam _ | dataTransferChecks | latestVersion _ => Option Text
  | getcwd | fileread .. => Text
  | parseTime _ | writeData _ | unassigned => Int
  | updateInstructions .. => Int × Text
  | chdir _ | mkdir .. | rmdir _ | unlink _ | rename .. | chmod .. | setmodtime ..
  | disposeTransferFd | aborReceived => Bool
  | opendir _ | openReadOnly _ | create .. | getRemoteTransferFd _ => Option Nat
  | dirStat _ | stat _ | fstat _ => Option Statbuf
  | fchmod .. | ftruncate _ | lseekTo .. | lseekEnd _ => Option Unit
  | transferFile .. => TransferRet
  | transferDir .. => Int
  | write _ | log .. | closedir _ | lockFile .. | deactivateNoblock _ | chownUpload _ | close _
  | clearAbor | cleanup | elsewhere .. => Unit

/-! ## The session -/

structure Config where
  isAnonymous : Bool
  isHttp : Bool
  httpGetArg : Text
  /-- It was taken from a line of the client. -/
  httpGetArg_clean : nul ∉ httpGetArg
  userStr : Text
  writeEnable : Bool
  downloadEnable : Bool
  dirlistEnable : Bool
  anonUploadEnable : Bool
  anonMkdirWriteEnable : Bool
  anonOtherWriteEnable : Bool
  anonWorldReadableOnly : Bool
  chmodEnable : Bool
  mdtmWrite : Bool
  chownUploads : Bool
  chownUploadMode : Nat
  deleteFailedUploads : Bool
  lockUploadFiles : Bool
  asciiUploadEnable : Bool
  asciiDownloadEnable : Bool
  dirmessageEnable : Bool
  messageFile : Text
  tildeUserEnable : Bool
  pasvEnable : Bool
  portEnable : Bool
  sslEnable : Bool
  denyFile : Option Text
  cmdsAllowed : Option Text
  cmdsDenied : Option Text

/-- The fields of `struct vsf_session` that the handlers change. -/
structure Session where
  homeStr : Text
  restartPos : Nat
  isAscii : Bool
  rnfrFilenameStr : Text
  epsvAll : Bool
  /-- `p_visited_dir_list` -/
  visited : List Text
  /-- `log_type`, with `none` for 0. -/
  logType : Option EntryType
  logStr : Text
  transferSize : Nat
deriving DecidableEq, Repr

/-- A session when the login is done. -/
def Session.start : Session :=
  ⟨[], 0, false, [], false, [], none, [], 0⟩

/-- Why the process ends. -/
inductive Fault where
  | exit
  | die (message : String)
  | bug (message : String)
  /-- More names are taken than were tried. -/
  | outOfNames
deriving DecidableEq, Repr

abbrev State (K : Type) := Worker Call.Result Session K

/-- A session when the login is done, with nothing in its journal. -/
def State.start {K : Type} (k : K) : State K :=
  ⟨Session.start, k, []⟩

abbrev Action (K α : Type) := Proc Empty Fault (State K) α

section Handlers

variable {K : Type} (answer : (c : Call) → K → c.Result × K) (cfg : Config)

/-! ## Replies and log entries -/

/-- `vsf_cmdio_write` -/
def say (status : Nat) (text : String) : Action K Unit :=
  invoke answer (.write (vsfCmdioWrite status text.toList))

/-- `vsf_cmdio_write_str` -/
def sayStr (status : Nat) (text : Text) : Action K Unit :=
  invoke answer (.write (vsfCmdioWriteStr status text))

/-- An action, if there is a reason for it. -/
def onlyIf (reason : Bool) (act : Action K Unit) : Action K Unit :=
  if reason then act else pure ()

/-- A handler that touches no file. -/
def elsewhere (cmd arg : Text) : Action K Unit :=
  invoke answer (.elsewhere cmd arg)

/-- A call whose failure ends the process. -/
def orDie (message : String) : Option α → Action K α
  | some a => pure a
  | none => .dead (.die message)

/-- `str_getcwd` -/
def strGetcwd : Action K Text := do
  let cwd : Text ← invoke answer .getcwd
  pure (cstr cwd)

/-- `vsf_log_start_entry` -/
def vsfLogStartEntry (what : EntryType) : Action K Unit := do
  let s ← inMind
  if s.logType.isSome then .dead (.bug "non null log_type in vsf_log_start_entry")
  else remember fun s => { s with logType := some what, logStr := [], transferSize := 0 }

/-- `vsf_log_clear_entry` -/
def vsfLogClearEntry : Action K Unit :=
  remember fun s => { s with logType := none }

/-- `vsf_log_do_log` -/
def vsfLogDoLog (succeeded : Bool) : Action K Unit := do
  let s ← inMind
  invoke answer (.log (s.logType.getD .null) s.logStr s.transferSize succeeded)
  vsfLogClearEntry

/-- `prepend_path_to_filename` -/
def prependPath (filename : Text) : Action K Text := do
  if filename.head? = some '/' then pure filename
  else
    let cwd ← strGetcwd answer
    pure (prependPathToFilename cwd filename)

/-- Start an entry about a file. -/
def startFileEntry (what : EntryType) (filename : Text) : Action K Unit := do
  vsfLogStartEntry what
  let full ← prependPath answer filename
  remember fun s => { s with logStr := full }

/-- `resolve_tilde` -/
def resolveTilde (p : Text) : Action K Text := do
  match p with
  | '~' :: rest =>
    if rest = [] ∨ rest.head? = some '/' then
      let s ← inMind
      pure (s.homeStr ++ rest)
    else if cfg.tildeUserEnable then
      let rhs := (strSplitChar rest '/').2
      let home : Option Text ← invoke answer (.getpwnam (cstr (strSplitChar rest '/').1))
      match home with
      | none => pure p
      | some homedir => pure (cstr homedir ++ if rhs = [] then [] else '/' :: rhs)
    else pure p
  | _ => pure p

/-- The configuration lets the client upload files. -/
def mayUpload : Bool :=
  cfg.writeEnable && (cfg.anonUploadEnable || !cfg.isAnonymous)

/-- The configuration lets the client make directories. -/
def mayMkdir : Bool :=
  cfg.writeEnable && (cfg.anonMkdirWriteEnable || !cfg.isAnonymous)

/-- The configuration lets the client change what is there. -/
def mayWrite : Bool :=
  cfg.writeEnable && (cfg.anonOtherWriteEnable || !cfg.isAnonymous)

/-- Whether `tunable_deny_file` lets a name through. -/
def allowed (filename : Text) : Bool :=
  vsfAccessCheckFile cfg.denyFile filename

/-- A handler that does something with an allowed name only. -/
def ifAllowed (filename : Text) (act : Action K Unit) : Action K Unit :=
  if allowed cfg filename then act else say answer 550 "Permission denied."

/-! ## Directories -/

/-- `handle_pwd` -/
def handlePwd : Action K Unit := do
  let cwd ← strGetcwd answer
  sayStr answer 257 ('"' :: strReplaceText cwd ['"'] ['"', '"'] ++ ['"'])

/-- `vsf_banner_write`, line by line. -/
def bannerWrite (ftpcode : Nat) : List Text → Action K Unit
  | [] => pure ()
  | line :: lines => do
    invoke answer (.write (vsfCmdioWriteStrHyphen ftpcode line))
    bannerWrite ftpcode lines

/-- `vsf_banner_dir_changed` -/
def bannerDirChanged (ftpcode : Nat) : Action K Unit := do
  if !cfg.dirmessageEnable then pure ()
  else
    let cwd ← strGetcwd answer
    let s ← inMind
    if cwd ∈ s.visited then pure ()
    else
      -- VSFTP_MAX_VISIT_REMEMBER
      remember fun s =>
        { s with visited := if s.visited.length < 100 then s.visited ++ [cwd] else s.visited }
      let message : Text ← invoke answer (.fileread cfg.messageFile 4000)
      bannerWrite answer ftpcode (strLines message)

/-- `handle_cwd` -/
def handleCwd (arg : Text) : Action K Unit := do
  let arg ← resolveTilde answer cfg arg
  ifAllowed answer cfg arg do
    let changed : Bool ← invoke answer (.chdir (cstr arg))
    if changed then
      bannerDirChanged answer cfg 250
      say answer 250 "Directory successfully changed."
    else say answer 550 "Failed to change directory."

/-- `handle_mkd` -/
def handleMkd (arg : Text) : Action K Unit := do
  let arg ← resolveTilde answer cfg arg
  startFileEntry answer .mkdir arg
  ifAllowed answer cfg arg do
    let made : Bool ← invoke answer (.mkdir (cstr arg) 0o777)
    if !made then say answer 550 "Create directory operation failed."
    else
      vsfLogDoLog answer true
      let full ← prependPath answer arg
      sayStr answer 257
        ('"' :: strReplaceText full ['"'] ['"', '"'] ++ "\" created".toList)

/-- `handle_rmd` -/
def handleRmd (arg : Text) : Action K Unit := do
  let arg ← resolveTilde answer cfg arg
  startFileEntry answer .rmdir arg
  ifAllowed answer cfg arg do
    let removed : Bool ← invoke answer (.rmdir (cstr arg))
    if !removed then say answer 550 "Remove directory operation failed."
    else
      vsfLogDoLog answer true
      say answer 250 "Remove directory operation successful."

/-- `handle_dele` -/
def handleDele (arg : Text) : Action K Unit := do
  let arg ← resolveTilde answer cfg arg
  startFileEntry answer .delete arg
  ifAllowed answer cfg arg do
    let removed : Bool ← invoke answer (.unlink (cstr arg))
    if !removed then say answer 550 "Delete operation failed."
    else
      vsfLogDoLog answer true
      say answer 250 "Delete operation successful."

/-- `handle_rnfr` -/
def handleRnfr (arg : Text) : Action K Unit := do
  remember fun s => { s with rnfrFilenameStr := [] }
  let arg ← resolveTilde answer cfg arg
  if !allowed cfg arg then
    startFileEntry answer .rename arg
    say answer 550 "Permission denied."
  else
    let st : Option Statbuf ← invoke answer (.stat (cstr arg))
    if st.isSome then
      remember fun s => { s with rnfrFilenameStr := arg }
      say answer 350 "Ready for RNTO."
    else
      startFileEntry answer .rename arg
      say answer 550 "RNFR command failed."

/-- `handle_rnto` -/
def handleRnto (arg : Text) : Action K Unit := do
  let s ← inMind
  if s.rnfrFilenameStr = [] then say answer 503 "RNFR required first."
  else
    let arg ← resolveTilde answer cfg arg
    startFileEntry answer .rename s.rnfrFilenameStr
    let full ← prependPath answer arg
    remember fun s => { s with logStr := s.logStr ++ ' ' :: full }
    ifAllowed answer cfg arg do
      let renamed : Bool ← invoke answer (.rename (cstr s.rnfrFilenameStr) (cstr arg))
      remember fun s => { s with rnfrFilenameStr := [] }
      if renamed then
        vsfLogDoLog answer true
        say answer 250 "Rename successful."
      else say answer 550 "Rename failed."

/-! ## Files -/

/-- `handle_type` -/
def handleType (arg : Text) : Action K Unit := do
  let arg := strUpper arg
  if arg = "I".toList ∨ arg = "L8".toList ∨ arg = "L 8".toList then
    remember fun s => { s with isAscii := false }
    say answer 200 "Switching to Binary mode."
  else if arg = "A".toList ∨ arg = "A N".toList then
    remember fun s => { s with isAscii := true }
    say answer 200 "Switching to ASCII mode."
  else say answer 500 "Unrecognised TYPE command."

/-- `str_a_to_filesize_t` -/
def aToFilesize (text : Text) : Nat :=
  if 15 < (cstr text).length then 0
  else if (cstr text).all Char.isDigit then
    (cstr text).foldl (fun n c => n * 10 + (c.toNat - '0'.toNat)) 0
  else 0

/-- `handle_rest` -/
def handleRest (arg : Text) : Action K Unit := do
  let val := aToFilesize arg
  remember fun s => { s with restartPos := val }
  sayStr answer 350
    ("Restart position accepted (".toList ++ Nat.toDigits 10 val ++ ").".toList)

/-- `handle_size` -/
def handleSize (arg : Text) : Action K Unit := do
  let arg ← resolveTilde answer cfg arg
  ifAllowed answer cfg arg do
    let st : Option Statbuf ← invoke answer (.stat (cstr arg))
    match st.filter (·.isRegfile) with
    | none => say answer 550 "Could not get file size."
    | some st => sayStr answer 213 (Nat.toDigits 10 st.size)

/-- The answer of `handle_mdtm` when the time is asked for. -/
def mdtmRead (st : Option Statbuf) : Action K Unit :=
  match st.filter (·.isRegfile) with
  | none => say answer 550 "Could not get file modification time."
  | some st => sayStr answer 213 st.numericDate

/-- `handle_mdtm` when the time is set. -/
def mdtmWrite (arg : Text) (modtime : Int) : Action K Unit := do
  let st : Option Statbuf ← invoke answer (.stat (cstr arg))
  match st.filter (·.isRegfile) with
  | none => say answer 550 "Could not set file modification time."
  | some _ =>
    let done : Bool ← invoke answer (.setmodtime (cstr arg) modtime)
    if !done then say answer 550 "Could not set file modification time."
    else say answer 213 "File modification time set."

/-- Whether an argument of `MDTM` has a time in front of the name. -/
def mdtmHasTime (arg : Text) : Bool :=
  match arg.idxOf? ' ' with
  | none => false
  | some i =>
    (arg.head?.any Char.isDigit) &&
      (i = 8 || i = 14 || 15 < i && arg[14]? = some '.')

/-- The time in front of the name, where it is set. -/
def mdtmTime (doWrite : Bool) (arg : Text) : Action K Int :=
  if doWrite then invoke answer (.parseTime (cstr (strSplitChar arg ' ').1)) else pure 0

/-- `handle_mdtm` -/
def handleMdtm (arg : Text) : Action K Unit := do
  let st : Option Statbuf ← invoke answer (.stat (cstr arg))
  let doWrite := cfg.mdtmWrite && st.isNone && mdtmHasTime arg
  let modtime ← mdtmTime answer doWrite arg
  let arg ← resolveTilde answer cfg (if doWrite then (strSplitChar arg ' ').2 else arg)
  ifAllowed answer cfg arg do
    if doWrite && mayWrite cfg then
      mdtmWrite answer arg modtime
    else mdtmRead answer st

/-- `vsf_sysutil_octal_to_uint` -/
def octalToUint (text : Text) : Nat :=
  (text.takeWhile fun c => '0' ≤ c && c ≤ '7').foldl
    (fun n c => (n * 8 + (c.toNat - '0'.toNat)) % 4294967296) 0

/-- `handle_site_chmod` -/
def handleSiteChmod (arg : Text) : Action K Unit := do
  let mode := (strSplitChar arg ' ').1
  let file := (strSplitChar arg ' ').2
  if arg = [] then say answer 500 "SITE CHMOD needs 2 arguments."
  else if file = [] then say answer 500 "SITE CHMOD needs 2 arguments."
  else
    let file ← resolveTilde answer cfg file
    startFileEntry answer .chmod file
    remember fun s => { s with logStr := s.logStr ++ ' ' :: mode }
    ifAllowed answer cfg file do
      -- only access permissions can be set
      let done : Bool ← invoke answer (.chmod (cstr file) (octalToUint mode % 512))
      if !done then say answer 550 "SITE CHMOD command failed."
      else
        vsfLogDoLog answer true
        say answer 200 "SITE CHMOD command ok."

/-! ## Transfers -/

/-- `data_transfer_checks_ok` -/
def dataTransferChecksOk : Action K Bool := do
  let refusal : Option Text ← invoke answer .dataTransferChecks
  match refusal with
  | some reply =>
    invoke answer (.write reply)
    pure false
  | none => pure true

/-- `data_transfer_checks_ok`, unless no data connection is needed. -/
def checksUnless (isControl : Bool) : Action K Bool :=
  if isControl then pure true else dataTransferChecksOk answer

/-- Take the position from `REST`, once. -/
def takeRestartPos : Action K Nat := do
  let s ← inMind
  remember fun s => { s with restartPos := 0 }
  pure s.restartPos

/-- `vsf_sysutil_fstat` -/
def fstat (fd : Nat) : Action K Statbuf := do
  let st : Option Statbuf ← invoke answer (.fstat fd)
  orDie "fstat" st

/-- `vsf_sysutil_lseek_to` -/
def lseekTo (fd offset : Nat) : Action K Unit := do
  let done : Option Unit ← invoke answer (.lseekTo fd offset)
  orDie "lseek" done

/-- `check_abor` -/
def checkAbor : Action K Unit := do
  let received : Bool ← invoke answer .aborReceived
  if received then
    invoke answer .clearAbor
    say answer 226 "ABOR successful."
  else pure ()

/-- `vsf_ftpdataio_transfer_file` and `vsf_ftpdataio_dispose_transfer_fd`. -/
def transferFile (remoteFd fd : Nat) (isRecv isAscii : Bool) : Action K Int := do
  let ret : TransferRet ← invoke answer (.transferFile remoteFd fd isRecv isAscii)
  let disposed : Bool ← invoke answer .disposeTransferFd
  remember fun s => { s with transferSize := ret.transferred }
  pure (if !disposed && ret.retval = 0 then -2 else ret.retval)

/-- The mark of `handle_retr`. -/
def retrMark (isAscii : Bool) (arg : Text) (st : Statbuf) : Text :=
  "Opening ".toList ++ (if isAscii then "ASCII".toList else "BINARY".toList) ++
    " mode data connection for ".toList ++ arg ++ " (".toList ++ Nat.toDigits 10 st.size ++
    " bytes).".toList

/-- The reply of `handle_retr` to a transfer. -/
def retrReply (retval : Int) : Action K Unit :=
  if retval = -1 then say answer 451 "Failure reading local file."
  else if retval = -2 then say answer 426 "Failure writing network stream."
  else say answer 226 "Transfer complete."

/-- The transfer in `handle_retr` over a data connection. -/
def retrTransfer (arg : Text) (fd : Nat) (st : Statbuf) : Action K Unit := do
  let s ← inMind
  let isAscii := cfg.asciiDownloadEnable && s.isAscii
  let remote : Option Nat ← invoke answer (.getRemoteTransferFd (retrMark isAscii arg st))
  match remote with
  | none => invoke answer .cleanup
  | some remoteFd =>
    let retval ← transferFile answer remoteFd fd false isAscii
    onlyIf (retval = 0) (vsfLogDoLog answer true)
    retrReply answer retval
    checkAbor answer
    invoke answer .cleanup

/-- The transfer in `handle_retr` over the control connection. -/
def httpTransfer (fd : Nat) : Action K Unit := do
  let s ← inMind
  let ret : TransferRet ←
    -- VSFTP_COMMAND_FD
    invoke answer (.transferFile 0 fd false (cfg.asciiDownloadEnable && s.isAscii))
  remember fun s => { s with transferSize := ret.transferred }
  onlyIf (ret.retval = 0) (vsfLogDoLog answer true)

/-- `handle_retr` between opening the file and closing it. -/
def retrOpened (isHttp : Bool) (arg : Text) (offset fd : Nat) : Action K Unit := do
  onlyIf cfg.lockUploadFiles (invoke answer (.lockFile fd false))
  let st ← fstat answer fd
  if !st.isRegfile then
    say answer 550 "Failed to open file."
    onlyIf st.isDir vsfLogClearEntry
  else
    invoke answer (.deactivateNoblock fd)
    if cfg.isAnonymous && cfg.anonWorldReadableOnly && !st.isReadableOther then
      say answer 550 "Failed to open file."
    else
      onlyIf (offset ≠ 0) (lseekTo answer fd offset)
      if isHttp then httpTransfer answer cfg fd else retrTransfer answer cfg arg fd st

/-- `handle_retr` behind `data_transfer_checks_ok`. -/
def retrChecked (isHttp : Bool) (offset : Nat) (arg : Text) : Action K Unit := do
  let s ← inMind
  if s.isAscii && offset ≠ 0 then say answer 550 "No support for resume of ASCII transfer."
  else
    let arg ← resolveTilde answer cfg arg
    startFileEntry answer .download arg
    ifAllowed answer cfg arg do
      let opened : Option Nat ← invoke answer (.openReadOnly (cstr arg))
      match opened with
      | none => say answer 550 "Failed to open file."
      | some fd =>
        retrOpened answer cfg isHttp arg offset fd
        invoke answer (.close fd)

/-- `handle_retr` -/
def handleRetr (isHttp : Bool) (arg : Text) : Action K Unit := do
  let offset ← takeRestartPos
  let ok ← checksUnless answer isHttp
  if !ok then pure () else retrChecked answer cfg isHttp offset arg

/-- The loop of `get_unique_filename`, for so many more suffixes. -/
def uniqueSuffix (base : Text) : Nat → Nat → Action K Text
  | 0, _ => .dead .outOfNames
  | tries + 1, suffix => do
    let name := base ++ '.' :: Nat.toDigits 10 suffix
    let st : Option Statbuf ← invoke answer (.stat (cstr name))
    if st.isNone then pure name else uniqueSuffix base tries ((suffix + 1) % 4294967296)

/-- `get_unique_filename` -/
def getUniqueFilename (tries : Nat) (base : Text) : Action K Text := do
  let st : Option Statbuf ← invoke answer (.stat (cstr base))
  if st.isNone then pure base else uniqueSuffix answer base tries 1

/-- The name that is created. -/
def uploadName (tries : Nat) (isUnique : Bool) (arg : Text) : Action K Text :=
  if isUnique then getUniqueFilename answer tries arg else pure arg

/-- The reply of `handle_upload_common` to a transfer. -/
def uploadReply (retval : Int) (abor : Bool) : Action K Unit :=
  if retval = -1 then say answer 451 "Failure writing to local file."
  else if retval = -2 ∨ abor then say answer 426 "Failure reading network stream."
  else say answer 226 "Transfer complete."

/-- The transfer in `handle_upload_common`; whether it was a success. -/
def uploadTransfer (remoteFd fd : Nat) : Action K Bool := do
  let s ← inMind
  let retval ← transferFile answer remoteFd fd true (cfg.asciiUploadEnable && s.isAscii)
  onlyIf (retval = 0) (vsfLogDoLog answer true)
  let abor : Bool ← invoke answer .aborReceived
  uploadReply answer retval abor
  checkAbor answer
  pure (retval = 0)

/-- Give an upload of the anonymous user away. -/
def chownUpload (fd : Nat) : Action K Unit := do
  let done : Option Unit ← invoke answer (.fchmod fd (cfg.chownUploadMode % 512))
  orDie "fchmod" done
  invoke answer (.chownUpload fd)

/-- `vsf_sysutil_ftruncate` and the seek behind it. -/
def truncate (fd : Nat) : Action K Unit := do
  let done : Option Unit ← invoke answer (.ftruncate fd)
  orDie "ftruncate" done
  lseekTo answer fd 0

/-- `vsf_sysutil_lseek_end` -/
def lseekEnd (fd : Nat) : Action K Unit := do
  let done : Option Unit ← invoke answer (.lseekEnd fd)
  orDie "lseek" done

/-- What is done to a file that was created before anything is written to it. -/
def prepareUpload (isAppend exclusive : Bool) (offset fd : Nat) : Action K Unit := do
  let st ← fstat answer fd
  onlyIf st.isRegfile (invoke answer (.deactivateNoblock fd))
  onlyIf (cfg.isAnonymous && cfg.chownUploads) (chownUpload answer cfg fd)
  onlyIf cfg.lockUploadFiles (invoke answer (.lockFile fd true))
  onlyIf (!exclusive && !isAppend && offset = 0) (truncate answer fd)
  if !isAppend && offset ≠ 0 then lseekTo answer fd offset
  else onlyIf isAppend (lseekEnd answer fd)

/-- The transfer, if there is a connection for it. -/
def uploadOver (remote : Option Nat) (fd : Nat) : Action K Bool :=
  match remote with
  | none => pure false
  | some remoteFd => uploadTransfer answer cfg remoteFd fd

/-- `handle_upload_common` behind the creation of the file. -/
def uploadOpened (isAppend isUnique exclusive : Bool) (offset : Nat) (filename : Text) (fd : Nat) :
    Action K Unit := do
  prepareUpload answer cfg isAppend exclusive offset fd
  let remote : Option Nat ← invoke answer (.getRemoteTransferFd
    (if isUnique then "FILE: ".toList ++ filename else "Ok to send data.".toList))
  let success ← uploadOver answer cfg remote fd
  invoke answer .cleanup
  onlyIf (cfg.deleteFailedUploads && !success) do
    let _ : Bool ← invoke answer (.unlink (cstr filename))
    pure ()
  invoke answer (.close fd)

/-- `handle_upload_common` behind `data_transfer_checks_ok`. -/
def uploadChecked (tries : Nat) (isAppend isUnique : Bool) (offset : Nat) (arg : Text) :
    Action K Unit := do
  let arg ← resolveTilde answer cfg arg
  let filename ← uploadName answer tries isUnique arg
  startFileEntry answer .upload arg
  ifAllowed answer cfg filename do
    let exclusive := isUnique || cfg.isAnonymous && !cfg.anonOtherWriteEnable
    let created : Option Nat ← invoke answer (.create (cstr filename) exclusive)
    match created with
    | none => say answer 553 "Could not create file."
    | some fd => uploadOpened answer cfg isAppend isUnique exclusive offset filename fd

/-- `handle_upload_common` -/
def handleUploadCommon (tries : Nat) (isAppend isUnique : Bool) (arg : Text) : Action K Unit := do
  let offset ← takeRestartPos
  let ok ← dataTransferChecksOk answer
  if !ok then pure () else uploadChecked answer cfg tries isAppend isUnique offset arg

/-! ## Lists -/

/-- A directory that `handle_dir_common` has opened, or not. -/
structure Opened where
  dir : Option Nat
  name : Text
  filter : Text

/-- The option and the filter in the argument of a list command. -/
def splitOption (arg : Text) : Text × Text :=
  match arg with
  | '-' :: rest => strSplitChar rest ' '
  | _ => ([], arg)

/-- Where a filter with a path is cut: the directory and what is left. -/
def splitPath (filter : Text) : Text × Text :=
  let base := (filter.reverse.dropWhile (· ≠ '/')).tail.reverse
  (if base = [] then ['/'] else base, (filter.reverse.takeWhile (· ≠ '/')).reverse)

/-- The directory that is listed for a filter that is allowed. -/
def openFiltered (filter : Text) : Action K Opened := do
  let dir : Option Nat ← invoke answer (.opendir (cstr filter))
  match dir with
  | some dir => pure ⟨some dir, filter, []⟩
  | none =>
    let name := if '/' ∈ filter then (splitPath filter).1 else ['.']
    let dir : Option Nat ← invoke answer (.opendir (cstr name))
    pure ⟨dir, name, if '/' ∈ filter then (splitPath filter).2 else filter⟩

/-- The reply of `handle_dir_common` to a list. -/
def dirReply (statCmd : Bool) (listed : Bool) (retval : Int) : Action K Unit :=
  if statCmd then say answer 213 "End of status"
  else if !listed then say answer 226 "Transfer done (but failed to open directory)."
  else if retval = 0 then say answer 226 "Directory send OK."
  else say answer 426 "Failure writing network stream."

/-- Whether the directory may be listed. -/
def dirAllowRead (dir : Nat) : Action K Bool := do
  if cfg.isAnonymous && cfg.anonWorldReadableOnly then
    let st : Option Statbuf ← invoke answer (.dirStat dir)
    let st ← orDie "fstat" st
    pure st.isReadableOther
  else pure true

/-- Send the list, if the directory is open and may be read. -/
def sendDir (statCmd fullDetails : Bool) (option : Text) (o : Opened) :
    Action K (Bool × Int) := do
  match o.dir with
  | none => pure (false, 0)
  | some dir =>
    let allow ← dirAllowRead answer cfg dir
    if allow then
      let retval : Int ←
        invoke answer (.transferDir statCmd dir o.name option o.filter fullDetails)
      pure (true, retval)
    else pure (false, 0)

/-- `vsf_sysutil_closedir`, if there is something to close. -/
def closeOpened (o : Opened) : Action K Unit :=
  match o.dir with
  | none => pure ()
  | some dir => invoke answer (.closedir dir)

/-- `handle_dir_common` when the directory was opened. -/
def dirOpened (fullDetails statCmd : Bool) (option : Text) (o : Opened) : Action K Unit := do
  if statCmd then
    invoke answer (.write (ftpWriteStrCommon 213 '-' "Status follows:".toList))
    let (listed, retval) ← sendDir answer cfg true fullDetails (option ++ ['a']) o
    dirReply answer true listed retval
    checkAbor answer
    closeOpened answer o
  else
    let remote : Option Nat ←
      invoke answer (.getRemoteTransferFd "Here comes the directory listing.".toList)
    onlyIf remote.isSome do
      let (listed, retval) ← sendDir answer cfg false fullDetails option o
      let disposed : Bool ← invoke answer .disposeTransferFd
      dirReply answer false listed (if !disposed && retval = 0 then -1 else retval)
      checkAbor answer
    closeOpened answer o
    invoke answer .cleanup

/-- `handle_dir_common` -/
def handleDirCommon (fullDetails statCmd : Bool) (arg : Text) : Action K Unit := do
  let ok ← checksUnless answer statCmd
  if !ok then pure ()
  else
    let option := (splitOption arg).1
    let filter := (splitOption arg).2
    if filter = [] then
      let dir : Option Nat ← invoke answer (.opendir ['.'])
      dirOpened answer cfg fullDetails statCmd option ⟨dir, ['.'], []⟩
    else
      let filter ← resolveTilde answer cfg filter
      ifAllowed answer cfg filter do
        let o ← openFiltered answer filter
        dirOpened answer cfg fullDetails statCmd option o

/-! ## Update instructions -/

/-- `handle_site_vers` -/
def handleSiteVers (arg : Text) : Action K Unit := do
  if arg = [] then say answer 500 "Which modpack?"
  else if '/' ∈ arg then say answer 500 "Illegal character."
  else
    let version : Option Text ← invoke answer (.latestVersion arg)
    match version with
    | none => say answer 550 "Modpack not found."
    | some version => invoke answer (.write (vsfCmdioWrite 216 version))

/-- The reply of `handle_site_uins` to an error of `mcu_create_update_instructions`. -/
def uinsError (retval : Int) : Option String :=
  if retval = 1 then some "Modpack not found."
  else if retval = 2 then some "Version not found."
  else if retval = -1 then some "Listfile error."
  else none

/-- `trans_ret` in `handle_site_uins`: nothing is assigned to it where there is nothing to write. -/
def transRet (instructions : Text) : Action K Int :=
  match instructions with
  | [] => invoke answer .unassigned
  | _ :: _ => invoke answer (.writeData instructions)

/-- The transfer in `handle_site_uins`. -/
def sendInstructions (instructions : Text) : Action K Unit := do
  let _ : Option Nat ←
    invoke answer (.getRemoteTransferFd "Here comes the update instructions.".toList)
  let ret ← transRet answer instructions
  let disposed : Bool ← invoke answer .disposeTransferFd
  if !disposed || ret < 0 then
    vsfLogDoLog answer false
    say answer 426 "Failure writing network stream."
  else
    vsfLogDoLog answer true
    say answer 226 "Instructions send OK."

/-- `handle_site_uins` behind `data_transfer_checks_ok`. -/
def uinsChecked (modpack version : Text) : Action K Unit := do
  vsfLogStartEntry .update
  remember fun s =>
    { s with logStr := "Modpack: ".toList ++ modpack ++ ", Version: ".toList ++ version }
  let made : Int × Text ← invoke answer (.updateInstructions modpack version)
  match uinsError made.1 with
  | some text =>
    vsfLogDoLog answer false
    say answer 550 text
  | none => sendInstructions answer made.2

/-- `handle_site_uins` -/
def handleSiteUins (arg : Text) : Action K Unit := do
  let modpack := (strSplitChar arg ' ').1
  let version := (strSplitChar arg ' ').2
  if arg = [] then say answer 500 "SITE UINS needs 2 arguments."
  else if '/' ∈ arg then say answer 500 "Illegal character."
  else if version = [] then say answer 500 "SITE UINS needs 2 arguments."
  else
    let ok ← dataTransferChecksOk answer
    if !ok then pure () else uinsChecked answer modpack version

/-- `handle_site` -/
def handleSite (cmd arg : Text) : Action K Unit := do
  let sub := strUpper (strSplitChar arg ' ').1
  if cfg.writeEnable && cfg.chmodEnable && sub = "CHMOD".toList then
    handleSiteChmod answer cfg (strSplitChar arg ' ').2
  else if sub = "UMASK".toList then elsewhere answer cmd arg
  else if sub = "VERS".toList then handleSiteVers answer (strSplitChar arg ' ').2
  else if sub = "UINS".toList then handleSiteUins answer (strSplitChar arg ' ').2
  else if sub = "HELP".toList then
    if cfg.writeEnable && cfg.chmodEnable then say answer 214 "CHMOD UMASK VERS UINS HELP"
    else say answer 214 "UMASK VERS UINS HELP"
  else say answer 500 "Unknown SITE command."

/-! ## The loop -/

/-- Whether `cmds_allowed` and `cmds_denied` let a command through. -/
def letsThrough (cmd : Text) : Bool :=
  cmdOk cfg.cmdsAllowed cfg.cmdsDenied cmd

/-- `handle_logged_in_user` -/
def handleLoggedInUser (arg : Text) : Action K Unit :=
  if cfg.isAnonymous then say answer 530 "Can't change from guest user."
  else if cfg.userStr = arg then say answer 331 "Any password will do."
  else say answer 530 "Can't change to another user."

/-- `handle_pasv` -/
def handlePasv (cmd arg : Text) (isEpsv : Bool) : Action K Unit := do
  if isEpsv && strUpper arg = "ALL".toList then
    remember fun s => { s with epsvAll := true }
    say answer 200 "EPSV ALL ok."
  else elsewhere answer cmd arg

/-- Whether a command is one of these. -/
def named (names : List String) (cmd : Text) : Bool :=
  (names.map String.toList).contains cmd

/-- The first action whose condition holds. -/
def firstOf (otherwise : Action K Unit) : List (Bool × Action K Unit) → Action K Unit
  | [] => otherwise
  | (holds, act) :: rest => if holds then act else firstOf otherwise rest

/-- The commands that a configuration can switch off. -/
def switchable : List String :=
  ["PASV", "PORT", "STOR", "MKD", "XMKD", "RMD", "XRMD", "DELE", "RNFR", "RNTO", "SITE", "APPE",
    "EPSV", "EPRT", "RETR", "LIST", "NLST", "STOU", "ALLO", "REIN", "ACCT", "SMNT", "FEAT",
    "OPTS", "STAT", "PBSZ", "PROT"]

/-- The commands of `process_post_login`, in the order in which they are looked for. -/
def commands (tries : Nat) (s : Session) (cmd arg : Text) : List (Bool × Action K Unit) :=
  [(!letsThrough cfg cmd, say answer 550 "Permission denied."),
    (named ["QUIT"] cmd, do
      say answer 221 "Goodbye."
      .dead .exit),
    (named ["PWD", "XPWD"] cmd, handlePwd answer),
    (named ["CWD", "XCWD"] cmd, handleCwd answer cfg arg),
    (named ["CDUP", "XCUP"] cmd, handleCwd answer cfg "..".toList),
    (cfg.pasvEnable && !s.epsvAll && named ["PASV", "P@SW"] cmd, handlePasv answer cmd arg false),
    (cfg.pasvEnable && named ["EPSV"] cmd, handlePasv answer cmd arg true),
    (cfg.downloadEnable && named ["RETR"] cmd, handleRetr answer cfg false arg),
    (named ["NOOP"] cmd, say answer 200 "NOOP ok."),
    (named ["SYST"] cmd, say answer 215 "UNIX Type: L8"),
    (named ["HELP"] cmd, elsewhere answer cmd arg),
    (cfg.dirlistEnable && named ["LIST"] cmd, handleDirCommon answer cfg true false arg),
    (named ["TYPE"] cmd, handleType answer arg),
    (cfg.portEnable && !s.epsvAll && named ["PORT"] cmd, elsewhere answer cmd arg),
    (mayUpload cfg && named ["STOR"] cmd, handleUploadCommon answer cfg tries false false arg),
    (mayMkdir cfg && named ["MKD", "XMKD"] cmd, handleMkd answer cfg arg),
    (mayWrite cfg && named ["RMD", "XRMD"] cmd, handleRmd answer cfg arg),
    (mayWrite cfg && named ["DELE"] cmd, handleDele answer cfg arg),
    (named ["REST"] cmd, handleRest answer arg),
    (mayWrite cfg && named ["RNFR"] cmd, handleRnfr answer cfg arg),
    (mayWrite cfg && named ["RNTO"] cmd, handleRnto answer cfg arg),
    (cfg.dirlistEnable && named ["NLST"] cmd, handleDirCommon answer cfg false false arg),
    (named ["SIZE"] cmd, handleSize answer cfg arg),
    (!cfg.isAnonymous && named ["SITE"] cmd, handleSite answer cfg cmd arg),
    -- an ABOR that comes with the characters of telnet in front
    (named ["ABOR", "\xff\xf4\xff\xf2ABOR"] cmd, say answer 225 "No transfer to ABOR."),
    (mayWrite cfg && named ["APPE"] cmd, handleUploadCommon answer cfg tries true false arg),
    (named ["MDTM"] cmd, handleMdtm answer cfg arg),
    (cfg.portEnable && named ["EPRT"] cmd, elsewhere answer cmd arg),
    (named ["STRU"] cmd,
      if strUpper arg = "F".toList then say answer 200 "Structure set to F."
      else say answer 504 "Bad STRU command."),
    (named ["MODE"] cmd,
      if strUpper arg = "S".toList then say answer 200 "Mode set to S."
      else say answer 504 "Bad MODE command."),
    (mayUpload cfg && named ["STOU"] cmd, handleUploadCommon answer cfg tries false true arg),
    (named ["ALLO"] cmd, say answer 202 "ALLO command ignored."),
    (named ["REIN"] cmd, say answer 502 "REIN not implemented."),
    (named ["ACCT"] cmd, say answer 502 "ACCT not implemented."),
    (named ["SMNT"] cmd, say answer 502 "SMNT not implemented."),
    (named ["FEAT"] cmd, elsewhere answer cmd arg),
    (named ["OPTS"] cmd, elsewhere answer cmd arg),
    (named ["STAT"] cmd && arg.isEmpty, elsewhere answer cmd arg),
    (cfg.dirlistEnable && named ["STAT"] cmd, handleDirCommon answer cfg true true arg),
    (cfg.sslEnable && named ["PBSZ"] cmd, elsewhere answer cmd arg),
    (cfg.sslEnable && named ["PROT"] cmd, elsewhere answer cmd arg),
    (named ["USER"] cmd, handleLoggedInUser answer cfg arg),
    (named ["PASS"] cmd, say answer 230 "Already logged in."),
    (named switchable cmd, say answer 550 "Permission denied."),
    -- an empty line comes from a NAT device
    (cmd.isEmpty && arg.isEmpty, pure ())]

/-- `vsf_cmdio_get_cmd_and_arg` -/
def getCmdAndArg : Action K (Text × Text) := do
  let line : Option Text ← invoke answer .getLine
  match line with
  | none => .dead .exit
  | some line => pure (vsfCmdioGetCmdAndArg (stripLine line))

/-- One round of the loop in `process_post_login`. -/
def postLoginRound (tries : Nat) : Action K Unit := do
  let (cmd, arg) ← getCmdAndArg answer
  let s ← inMind
  firstOf (say answer 500 "Unknown command.") (commands answer cfg tries s cmd arg)
  let s ← inMind
  onlyIf s.logType.isSome (vsfLogDoLog answer false)

/-- So many rounds of the loop. -/
def postLoginLoop (tries : Nat) : Nat → Action K Unit
  | 0 => pure ()
  | rounds + 1 => do
    postLoginRound answer cfg tries
    postLoginLoop tries rounds

/-- The header lines in `handle_http`; `none` when there are more of them. -/
def eatHeaders : Nat → Action K Bool
  | 0 => pure false
  | rounds + 1 => do
    let (cmd, arg) ← getCmdAndArg answer
    if cmd = [] ∧ arg = [] then pure true else eatHeaders rounds

/-- Write texts as they are. -/
def writeRaw : List String → Action K Unit
  | [] => pure ()
  | text :: texts => do
    invoke answer (.write text.toList)
    writeRaw texts

/-- `handle_http` -/
def handleHttp (rounds : Nat) : Action K Unit := do
  if !cfg.downloadEnable then .dead (.bug "HTTP needs download - fix your config")
  else
    let done ← eatHeaders answer rounds
    if !done then pure ()
    else
      let arg := (strSplitChar cfg.httpGetArg ' ').1
      let suffix := strUpper (strSplitChar arg '.').2
      writeRaw answer ["HTTP/1.1 200 OK\r\n", "Server: vsftpd\r\n", "Connection: close\r\n",
        "X-Frame-Options: SAMEORIGIN\r\n", "X-Content-Type-Options: nosniff\r\n",
        if suffix = "HTML".toList ∨ suffix = "HTM".toList then "Content-Type: text/html\r\n"
        else "Content-Type: dunno\r\n", "\r\n"]
      remember fun s => { s with isAscii := false, restartPos := 0 }
      handleRetr answer cfg true arg
      let s ← inMind
      onlyIf s.logType.isSome (vsfLogDoLog answer false)
      .dead .exit

/-- `process_post_login`, for so many lines from the client and so many names to try. -/
def processPostLogin (tries rounds : Nat) : Action K Unit := do
  let home ← strGetcwd answer
  remember fun s => { s with homeStr := home }
  if cfg.isHttp then handleHttp answer cfg rounds
  else
    bannerDirChanged answer cfg 230
    say answer 230 "Login successful."
    postLoginLoop answer cfg tries rounds

end Handlers

end FileCommands
end Server
end ModpackInstaller
