import ModpackInstaller.Library.Lines
import ModpackInstaller.Server.LogEntry
import ModpackInstaller.Server.PreLogin

/-!
# Lines of the logs

What {lit}`logging.c` writes for an entry: a line of {lit}`xferlog` for a transfer, a line of
{lit}`vsftpd.log`, or a text for {lit}`syslog`.  The entries come from any number of sessions.

Main results:

- Theorem {lit}`lines_of_run`: the lines of both files are those of the entries, one each, whatever
  the client has put into names and passwords.
- Theorem {lit}`count_newline_le`: also when the disk is full, no entry makes more than one line.
- Theorem {lit}`xferlog_fields_iff`: a line of {lit}`xferlog` can be taken apart again exactly when
  the name of the user, or the identity of the anonymous one, has no space.
- Theorem {lit}`xferlog_fields_of_loggedIn`: the login sees to that.
-/

namespace ModpackInstaller
namespace Server
namespace LogLine

open Library Logging PreLogin

/-! ## The texts -/

/-- The fields of the session that a log line is made of. -/
structure Session where
  remoteIpStr : Text
  userStr : Text
  anonPassStr : Text
  isAnonymous : Bool
  isGuest : Bool
  isAscii : Bool
  logType : EntryType
  transferSize : Nat
  logStartSec : Int
  logStr : Text
  /-- `xferlog_fd` is not -1. -/
  xferlogOpen : Bool
  /-- `vsftpd_log_fd` is not -1. -/
  vsftpdLogOpen : Bool
deriving DecidableEq, Repr

/-- The tunables of the log. -/
structure Config where
  syslogEnable : Bool
  noLogLock : Bool
deriving DecidableEq, Repr

/-- What becomes of a line that is to be written to a file. -/
structure Attempt where
  /-- The lock of the file is granted. -/
  locks : Bool
  /-- Behind how many bytes the write fails, if it does. -/
  takes : Option Nat
deriving DecidableEq, Repr

/-- A file that takes what it is given. -/
def Attempt.whole : Attempt :=
  ⟨true, none⟩

/-- What the system says while an entry is written. -/
structure Moment where
  /-- `vsf_sysutil_get_current_date` -/
  date : Text
  sec : Int
  pid : Nat
  /-- The text of `kbyte_rate`. -/
  rate : Text
  xferlog : Attempt
  vsftpdLog : Attempt
deriving DecidableEq, Repr

/-- `str_replace_unprintable` -/
def strReplaceUnprintable (s : Text) (newChar : Char) : Text :=
  s.map fun c => if sysutilIsprint c then c else newChar

/-- `vsf_log_type_is_transfer` -/
def isTransfer (what : EntryType) : Bool :=
  what = .download || what = .upload

/-- The access mode in a line of {lit}`xferlog`. -/
def accessMode (s : Session) : Char :=
  if s.isAnonymous && !s.isGuest then 'a' else if s.isGuest then 'g' else 'r'

/-- Who made the transfer. -/
def identity (s : Session) : Text :=
  if s.isAnonymous && !s.isGuest then s.anonPassStr else s.userStr

/-- `delta_sec` in `vsf_log_do_log_wuftpd_format` -/
def deltaSec (s : Session) (m : Moment) : Nat :=
  if m.sec - s.logStartSec ≤ 0 then 1 else (m.sec - s.logStartSec).toNat

/-- `vsf_log_do_log_wuftpd_format` -/
def wuftpdFormat (s : Session) (m : Moment) (succeeded : Bool) : Text :=
  m.date ++ [' '] ++ Nat.toDigits 10 (deltaSec s m) ++ [' '] ++ s.remoteIpStr ++ [' '] ++
    Nat.toDigits 10 s.transferSize ++ [' '] ++ strReplaceChar s.logStr ' ' '_' ++ [' '] ++
    (if s.isAscii then "a " else "b ").toList ++ "_ ".toList ++
    (if s.logType = .upload then "i " else "o ").toList ++
    [accessMode s, ' '] ++ identity s ++ [' '] ++ "ftp 0 * ".toList ++
    [if succeeded then 'c' else 'i']

/-- The word for an entry; `none` is the `bug`. -/
def action : EntryType → Option String
  | .download => "DOWNLOAD"
  | .upload => "UPLOAD"
  | .mkdir => "MKDIR"
  | .login => "LOGIN"
  | .ftpInput => "FTP command"
  | .ftpOutput => "FTP response"
  | .connection => "CONNECT"
  | .delete => "DELETE"
  | .rename => "RENAME"
  | .rmdir => "RMDIR"
  | .chmod => "CHMOD"
  | .debug => "DEBUG"
  | .update => "UPDATE"
  | .null => none

/-- `vsf_log_do_log_vsftpd_format` -/
def vsftpdFormat (c : Config) (s : Session) (m : Moment) (succeeded : Bool) (what : EntryType)
    (logStr : Text) : Option Text :=
  (action what).map fun word =>
    (if c.syslogEnable then []
      else m.date ++ " [pid ".toList ++ Nat.toDigits 10 m.pid ++ "] ".toList) ++
    (if s.userStr.isEmpty then [] else '[' :: s.userStr ++ "] ".toList) ++
    (if what ≠ .ftpInput ∧ what ≠ .ftpOutput ∧ what ≠ .connection ∧ what ≠ .debug then
      (if succeeded then "OK " else "FAIL ").toList else []) ++
    word.toList ++ ": Client \"".toList ++ s.remoteIpStr ++ ['"'] ++
    (if what = .login ∧ ¬ s.anonPassStr.isEmpty then
      ", anon password \"".toList ++ s.anonPassStr ++ ['"'] else []) ++
    (if logStr.isEmpty then [] else ", \"".toList ++ logStr ++ ['"']) ++
    (if what ≠ .ftpInput ∧ what ≠ .ftpOutput ∧ what ≠ .debug then
      (if s.transferSize = 0 then []
        else ", ".toList ++ Nat.toDigits 10 s.transferSize ++ " bytes".toList) ++
      (if isTransfer what then ", ".toList ++ m.rate ++ "Kbyte/sec".toList else []) else [])

/-! ## The logs -/

/-- What has been written. -/
structure Logs where
  xferlog : Text
  vsftpdLog : Text
  /-- The texts for {lit}`syslog`, and whether they are severe. -/
  syslog : List (Text × Bool)
deriving DecidableEq, Repr

/-- The logs in front of the first entry. -/
def Logs.start : Logs :=
  ⟨[], [], []⟩

/-- `vsf_log_do_log_to_file` -/
def logToFile (c : Config) (a : Attempt) (file text : Text) : Text :=
  if c.noLogLock || a.locks then
    let line := strReplaceUnprintable text '?' ++ ['\n']
    file ++ a.takes.elim line fun n => line.take n
  else file

/-- A call of `vsf_log_common`. -/
structure Entry where
  session : Session
  moment : Moment
  succeeded : Bool
  what : EntryType
  str : Text
deriving DecidableEq, Repr

/-- The text of an entry. -/
def Entry.text (c : Config) (e : Entry) : Option Text :=
  vsftpdFormat c e.session e.moment e.succeeded e.what e.str

/-- The first file. -/
def logTransfer (c : Config) (e : Entry) (l : Logs) : Logs :=
  if e.session.xferlogOpen && isTransfer e.what then
    { l with xferlog :=
        logToFile c e.moment.xferlog l.xferlog (wuftpdFormat e.session e.moment e.succeeded) }
  else l

/-- The second file; `none` is the `bug`. -/
def logAction (c : Config) (e : Entry) (l : Logs) : Option Logs :=
  if e.session.vsftpdLogOpen then
    (e.text c).map fun text =>
      { l with vsftpdLog := logToFile c e.moment.vsftpdLog l.vsftpdLog text }
  else some l

/-- {lit}`syslog`; `none` is the `bug`. -/
def logSystem (c : Config) (e : Entry) (l : Logs) : Option Logs :=
  if c.syslogEnable then
    (e.text c).map fun text =>
      { l with syslog := l.syslog ++ [(cstr text, e.what = .login && !e.succeeded)] }
  else some l

/-- `vsf_log_common` -/
def vsfLogCommon (c : Config) (l : Logs) (e : Entry) : Option Logs :=
  (logAction c e (logTransfer c e l)).bind (logSystem c e)

/-- Entries one after the other. -/
def runLogs (c : Config) (es : List Entry) : Option Logs :=
  es.foldlM (vsfLogCommon c) Logs.start

/-! ## One line for an entry -/

/-- What is left of a text in a file. -/
def sanitized (s : Text) : Text :=
  strReplaceUnprintable s '?'

/-- Only printable characters are left in a sanitized text. -/
theorem isprint_of_mem_sanitized {s : Text} {ch : Char} (h : ch ∈ sanitized s) :
    sysutilIsprint ch = true := by
  obtain ⟨ch', -, rfl⟩ := List.mem_map.mp h
  split
  next hprint => exact hprint
  · decide

/-- Nothing in a text ends its line. -/
theorem newline_not_mem_sanitized (s : Text) : '\n' ∉ sanitized s := by
  intro h
  have hprint := isprint_of_mem_sanitized h
  revert hprint
  decide

/-- The line of {lit}`xferlog` for an entry. -/
def xferLine (c : Config) (e : Entry) : Option Text :=
  if e.session.xferlogOpen && isTransfer e.what &&
      (c.noLogLock || e.moment.xferlog.locks) then
    some (sanitized (wuftpdFormat e.session e.moment e.succeeded))
  else none

/-- The line of {lit}`vsftpd.log` for an entry. -/
def vsftpdLine (c : Config) (e : Entry) : Option Text :=
  if e.session.vsftpdLogOpen && (c.noLogLock || e.moment.vsftpdLog.locks) then
    (e.text c).map sanitized
  else none

/-- What an entry adds to a file, given its line. -/
def added (a : Attempt) (line : Option Text) : Text :=
  line.elim [] fun line => a.takes.elim (line ++ ['\n']) fun n => (line ++ ['\n']).take n

variable {c : Config} {e : Entry} {l l' : Logs}

/-- A transfer adds its line to the xferlog, if the write comes through, and nothing to the other
file. -/
theorem xferlog_logTransfer (c : Config) (e : Entry) (l : Logs) :
    (logTransfer c e l).xferlog = l.xferlog ++ added e.moment.xferlog (xferLine c e) ∧
      (logTransfer c e l).vsftpdLog = l.vsftpdLog := by
  unfold logTransfer xferLine logToFile
  cases hgoes : e.session.xferlogOpen && isTransfer e.what
  · simp [added]
  · cases hlock : c.noLogLock || e.moment.xferlog.locks <;> simp [added, sanitized]

/-- An action adds its line to the log of vsftpd, and nothing to the xferlog. -/
theorem vsftpdLog_logAction (h : logAction c e l = some l') :
    l'.vsftpdLog = l.vsftpdLog ++ added e.moment.vsftpdLog (vsftpdLine c e) ∧
      l'.xferlog = l.xferlog := by
  unfold logAction at h
  unfold vsftpdLine
  split at h
  next hopen =>
    obtain ⟨text, htext, rfl⟩ := Option.map_eq_some_iff.mp h
    cases hlock : c.noLogLock || e.moment.vsftpdLog.locks <;>
      simp [added, logToFile, sanitized, hopen, hlock, htext]
  next hopen =>
    cases h
    simp [added, hopen]

/-- The system's log is neither of the two files. -/
theorem files_logSystem (h : logSystem c e l = some l') :
    l'.vsftpdLog = l.vsftpdLog ∧ l'.xferlog = l.xferlog := by
  unfold logSystem at h
  split at h
  · obtain ⟨text, -, rfl⟩ := Option.map_eq_some_iff.mp h
    exact ⟨rfl, rfl⟩
  · cases h
    exact ⟨rfl, rfl⟩

/-- An entry adds its lines to the files. -/
theorem files_of_vsfLogCommon (h : vsfLogCommon c l e = some l') :
    l'.xferlog = l.xferlog ++ added e.moment.xferlog (xferLine c e) ∧
      l'.vsftpdLog = l.vsftpdLog ++ added e.moment.vsftpdLog (vsftpdLine c e) := by
  obtain ⟨l₂, haction, hsystem⟩ := Option.bind_eq_some_iff.mp h
  obtain ⟨hxfer, hvsftpd⟩ := xferlog_logTransfer c e l
  obtain ⟨hvsftpd', hxfer'⟩ := vsftpdLog_logAction haction
  obtain ⟨hvsftpd'', hxfer''⟩ := files_logSystem hsystem
  rw [hxfer'', hxfer', hxfer, hvsftpd'', hvsftpd', hvsftpd]
  exact ⟨rfl, rfl⟩

/-- A run adds to each file the lines that came through, entry by entry and in their order. -/
theorem files_of_foldlM {es : List Entry} (h : es.foldlM (vsfLogCommon c) l = some l') :
    l'.xferlog = l.xferlog ++ es.flatMap (fun e => added e.moment.xferlog (xferLine c e)) ∧
      l'.vsftpdLog =
        l.vsftpdLog ++ es.flatMap fun e => added e.moment.vsftpdLog (vsftpdLine c e) := by
  induction es generalizing l with
  | nil =>
      cases h
      simp
  | cons e es ih =>
      rw [List.foldlM_cons] at h
      obtain ⟨l₁, hfirst, hrest⟩ := Option.bind_eq_some_iff.mp h
      obtain ⟨hxfer, hvsftpd⟩ := files_of_vsfLogCommon hfirst
      obtain ⟨hxfers, hvsftpds⟩ := ih hrest
      rw [hxfers, hvsftpds, hxfer, hvsftpd, List.flatMap_cons, List.flatMap_cons,
        List.append_assoc, List.append_assoc]
      exact ⟨rfl, rfl⟩

/-- Only an entry of type 0 is a `bug`. -/
theorem exists_of_foldlM {es : List Entry} (h : ∀ e ∈ es, e.what ≠ .null) (l : Logs) :
    ∃ l', es.foldlM (vsfLogCommon c) l = some l' := by
  induction es generalizing l with
  | nil => exact ⟨l, rfl⟩
  | cons e es ih =>
      have htext : ∃ text, e.text c = some text := by
        have hwhat := h e List.mem_cons_self
        unfold Entry.text vsftpdFormat
        cases haction : e.what with
        | null => exact absurd haction hwhat
        | _ => exact ⟨_, rfl⟩
      obtain ⟨text, htext⟩ := htext
      obtain ⟨l₁, haction⟩ : ∃ l₁, logAction c e (logTransfer c e l) = some l₁ := by
        rw [logAction, htext]
        split <;> exact ⟨_, rfl⟩
      obtain ⟨l₂, hsystem⟩ : ∃ l₂, logSystem c e l₁ = some l₂ := by
        rw [logSystem, htext]
        split <;> exact ⟨_, rfl⟩
      have hstep : vsfLogCommon c l e = some l₂ := by
        rw [vsfLogCommon, haction, Option.bind_some, hsystem]
      rw [List.foldlM_cons, hstep]
      exact ih (fun e' hmem => h e' (List.mem_cons_of_mem e hmem)) l₂

/-- Lines that are written whole. -/
theorem pieces_flatMap_added {attempt : Entry → Attempt} {line : Entry → Option Text}
    {es : List Entry} (hline : ∀ e t, line e = some t → '\n' ∉ t)
    (hwhole : ∀ e ∈ es, (attempt e).takes = none) :
    pieces '\n' (es.flatMap fun e => added (attempt e) (line e)) = es.filterMap line := by
  have hunpieces :
      (es.flatMap fun e => added (attempt e) (line e)) = unpieces '\n' (es.filterMap line) := by
    induction es with
    | nil => rfl
    | cons e es ih =>
        rw [List.flatMap_cons, ih fun e' hmem => hwhole e' (List.mem_cons_of_mem e hmem)]
        cases hshown : line e with
        | none => simp [added, hshown]
        | some t => simp [added, hshown, hwhole e List.mem_cons_self]
  rw [hunpieces]
  refine pieces_unpieces fun t ht => ?_
  obtain ⟨e, -, hshown⟩ := List.mem_filterMap.mp ht
  exact hline e t hshown

/-- A line of the xferlog is one line, whatever the client sent. -/
theorem newline_not_mem_xferLine (e : Entry) (t : Text) (h : xferLine c e = some t) :
    '\n' ∉ t := by
  unfold xferLine at h
  split at h
  · cases h
    exact newline_not_mem_sanitized _
  · cases h

/-- A line of vsftpd's log is one line, whatever the client sent. -/
theorem newline_not_mem_vsftpdLine (e : Entry) (t : Text) (h : vsftpdLine c e = some t) :
    '\n' ∉ t := by
  unfold vsftpdLine at h
  split at h
  · obtain ⟨text, -, rfl⟩ := Option.map_eq_some_iff.mp h
    exact newline_not_mem_sanitized text
  · cases h

/-- The moment of an upload. -/
def uploadMoment : Moment :=
  ⟨"Thu Jan  1 00:00:12 1970".toList, 12, 7, "0.00".toList, .whole, .whole⟩

/-- An anonymous client with this password that has uploaded a file. -/
def uploaded (pass name : String) : Entry where
  session :=
    { remoteIpStr := "10.0.0.1".toList, userStr := "ftp".toList, anonPassStr := pass.toList,
      isAnonymous := true, isGuest := false, isAscii := false, logType := .upload,
      transferSize := 4, logStartSec := 10, logStr := name.toList, xferlogOpen := true,
      vsftpdLogOpen := true }
  moment := uploadMoment
  succeeded := true
  what := .upload
  str := name.toList

/-- Two entries, one with a name that has a line in it. -/
def twoEntries : List Entry :=
  [uploaded "me" "a\nb", uploaded "me" "c d"]

/-- The run of two entries does not stop in between. -/
theorem exists_twoEntries : ∃ l, runLogs ⟨false, false⟩ twoEntries = some l :=
  exists_of_foldlM (by decide) Logs.start

/-- As long as the writes succeed, the lines of the files are those of the entries. -/
theorem lines_of_run {es : List Entry} {l : Logs} (h : runLogs c es = some l)
    (hwhole : ∀ e ∈ es, e.moment.xferlog.takes = none ∧ e.moment.vsftpdLog.takes = none) :
    pieces '\n' l.xferlog = es.filterMap (xferLine c) ∧
      pieces '\n' l.vsftpdLog = es.filterMap (vsftpdLine c) := by
  obtain ⟨hxfer, hvsftpd⟩ := files_of_foldlM h
  rw [hxfer, hvsftpd]
  exact ⟨pieces_flatMap_added newline_not_mem_xferLine fun e he => (hwhole e he).1,
    pieces_flatMap_added newline_not_mem_vsftpdLine fun e he => (hwhole e he).2⟩

/-- Two entries, of which each file gets one line. -/
theorem lines_of_run_two : ∃ l, runLogs ⟨false, false⟩ twoEntries = some l ∧
    (pieces '\n' l.xferlog).length = 2 ∧ (pieces '\n' l.vsftpdLog).length = 2 := by
  obtain ⟨l, hl⟩ := exists_twoEntries
  obtain ⟨hxfer, hvsftpd⟩ := lines_of_run hl (by decide)
  exact ⟨l, hl, by rw [hxfer]; rfl, by rw [hvsftpd]; rfl⟩

/-- However much of a line is written, it ends one line at most. -/
theorem count_added_le (a : Attempt) {line : Option Text} (h : ∀ t, line = some t → '\n' ∉ t) :
    (added a line).count '\n' ≤ 1 := by
  cases line with
  | none => simp [added]
  | some t =>
      have hwhole : (t ++ ['\n']).count '\n' = 1 := by
        rw [List.count_append, List.count_eq_zero_of_not_mem (h t rfl)]
        rfl
      cases htakes : a.takes with
      | none => simp [added, htakes, hwhole]
      | some n =>
          simp only [added, htakes, Option.elim_some]
          exact hwhole ▸ (List.take_sublist n _).count_le '\n'

/-- Entries whose lines have no newline of their own add at most one newline each. -/
theorem count_flatMap_added_le {attempt : Entry → Attempt} {line : Entry → Option Text}
    {es : List Entry} (hline : ∀ e t, line e = some t → '\n' ∉ t) :
    (es.flatMap fun e => added (attempt e) (line e)).count '\n' ≤ es.length := by
  induction es with
  | nil => simp
  | cons e es ih =>
      rw [List.flatMap_cons, List.count_append, List.length_cons]
      have hfirst := count_added_le (attempt e) (hline e)
      omega

/-- Whatever the writes do, no entry ends more than one line of a file. -/
theorem count_newline_le {es : List Entry} {l : Logs} (h : runLogs c es = some l) :
    l.xferlog.count '\n' ≤ es.length ∧ l.vsftpdLog.count '\n' ≤ es.length := by
  obtain ⟨hxfer, hvsftpd⟩ := files_of_foldlM h
  rw [hxfer, hvsftpd]
  exact ⟨count_flatMap_added_le newline_not_mem_xferLine,
    count_flatMap_added_le newline_not_mem_vsftpdLine⟩

/-- The same two entries, counted by their newlines. -/
theorem count_newline_le_two : ∃ l, runLogs ⟨false, false⟩ twoEntries = some l ∧
    l.vsftpdLog.count '\n' ≤ 2 := by
  obtain ⟨l, hl⟩ := exists_twoEntries
  exact ⟨l, hl, (count_newline_le hl).2⟩

/-! ## The fields of a line -/

/-- The fields of a line of {lit}`xferlog` behind the date. -/
def xferFields (s : Session) (m : Moment) (succeeded : Bool) : List Text :=
  [Nat.toDigits 10 (deltaSec s m), s.remoteIpStr, Nat.toDigits 10 s.transferSize,
    strReplaceChar s.logStr ' ' '_', [if s.isAscii then 'a' else 'b'], ['_'],
    [if s.logType = .upload then 'i' else 'o'], [accessMode s], identity s, "ftp".toList,
    ['0'], ['*'], [if succeeded then 'c' else 'i']]

variable {s : Session} {m : Moment}

/-- The line of a transfer is its date and its fields, with single spaces between them. -/
theorem wuftpdFormat_eq (s : Session) (m : Moment) (succeeded : Bool) :
    wuftpdFormat s m succeeded =
      m.date ++ ' ' :: [' '].intercalate (xferFields s m succeeded) := by
  unfold wuftpdFormat xferFields
  cases s.isAscii <;> by_cases hupload : s.logType = .upload <;>
    simp [List.intercalate, hupload]

/-- Sanitizing goes character by character. -/
theorem sanitized_append (s t : Text) : sanitized (s ++ t) = sanitized s ++ sanitized t :=
  List.map_append

/-- A character that cannot be printed becomes a question mark. -/
theorem sanitized_cons (ch : Char) (s : Text) :
    sanitized (ch :: s) = (if sysutilIsprint ch then ch else '?') :: sanitized s := rfl

/-- Sanitizing keeps the length. -/
theorem length_sanitized (s : Text) : (sanitized s).length = s.length :=
  List.length_map _

/-- Sanitizing neither adds nor takes away a space. -/
theorem space_mem_sanitized {s : Text} : ' ' ∈ sanitized s ↔ ' ' ∈ s := by
  constructor
  · intro h
    obtain ⟨ch, hch, hspace⟩ := List.mem_map.mp h
    split at hspace
    · exact hspace ▸ hch
    · cases hspace
  · exact fun h => List.mem_map.mpr ⟨' ', h, by decide⟩

/-- So it leaves the separators of a line where they are. -/
theorem sanitized_intercalate (fs : List Text) :
    sanitized ([' '].intercalate fs) = [' '].intercalate (fs.map sanitized) := by
  induction fs with
  | nil => rfl
  | cons f fs ih =>
      cases fs with
      | nil => simp
      | cons g fs =>
          have hspace : sanitized [' '] = [' '] := by decide
          rw [List.intercalate_cons_cons, sanitized_append, sanitized_append, hspace, ih,
            List.map_cons, List.map_cons, List.map_cons, List.intercalate_cons_cons]

/-- A number is written without spaces. -/
theorem space_not_mem_toDigits (n : Nat) : ' ' ∉ Nat.toDigits 10 n := by
  intro h
  exact absurd (Nat.isDigit_of_mem_toDigits (by decide) (by decide) h) (by decide)

/-- The name of a file is written with underscores for its spaces. -/
theorem space_not_mem_strReplaceChar (s : Text) : ' ' ∉ strReplaceChar s ' ' '_' := by
  intro h
  obtain ⟨ch, -, hch⟩ := List.mem_map.mp h
  split at hch
  · cases hch
  · contradiction

/-- No field has a space in it, where neither the address nor the identity has one. -/
theorem space_not_mem_xferFields (hip : ' ' ∉ s.remoteIpStr) (hidentity : ' ' ∉ identity s)
    (succeeded : Bool) : ∀ field ∈ xferFields s m succeeded, ' ' ∉ field := by
  simp only [xferFields, List.forall_mem_cons]
  refine ⟨space_not_mem_toDigits _, hip, space_not_mem_toDigits _,
    space_not_mem_strReplaceChar _, ?_, by decide, ?_, ?_, hidentity, by decide, by decide,
    by decide, ?_, by simp⟩
  · split <;> decide
  · split <;> decide
  · rw [accessMode]
    split_ifs <;> decide
  · split <;> decide

/-- The rest of a line behind its date. -/
theorem drop_sanitized_wuftpdFormat (s : Session) {m : Moment} (succeeded : Bool)
    (hdate : m.date.length = 24) :
    (sanitized (wuftpdFormat s m succeeded)).drop 25 =
      [' '].intercalate ((xferFields s m succeeded).map sanitized) := by
  have hlength : (sanitized m.date ++ [if sysutilIsprint ' ' then ' ' else '?']).length = 25 := by
    rw [List.length_append, length_sanitized, hdate]
    rfl
  rw [wuftpdFormat_eq, sanitized_append, sanitized_cons, sanitized_intercalate, List.append_cons,
    List.drop_left' hlength]

/-- Where the identity has no space, the fields are there. -/
theorem splitOn_of_identity (hdate : m.date.length = 24) (hip : ' ' ∉ s.remoteIpStr)
    (hidentity : ' ' ∉ identity s) (succeeded : Bool) :
    ((sanitized (wuftpdFormat s m succeeded)).drop 25).splitOn ' ' =
      (xferFields s m succeeded).map sanitized := by
  rw [drop_sanitized_wuftpdFormat s succeeded hdate]
  refine List.splitOn_intercalate ' ' ?_ (by simp [xferFields])
  intro field hfield
  obtain ⟨field', hfield', rfl⟩ := List.mem_map.mp hfield
  exact mt space_mem_sanitized.mp
    (space_not_mem_xferFields hip hidentity succeeded field' hfield')

/-- A line can be taken apart at its spaces exactly when there is no space in the identity. -/
theorem xferlog_fields_iff (s : Session) (m : Moment) (succeeded : Bool)
    (hdate : m.date.length = 24) (hip : ' ' ∉ s.remoteIpStr) :
    ((sanitized (wuftpdFormat s m succeeded)).drop 25).splitOn ' ' =
        (xferFields s m succeeded).map sanitized ↔ ' ' ∉ identity s := by
  constructor
  · intro hfields
    have hmem : sanitized (identity s) ∈ (xferFields s m succeeded).map sanitized :=
      List.mem_map_of_mem (by simp [xferFields])
    rw [← hfields] at hmem
    exact mt space_mem_sanitized.mpr (not_mem_of_mem_splitOn hmem)
  · exact fun hidentity => splitOn_of_identity hdate hip hidentity succeeded

/-- A local user, under a name that the authentication has answered with, who has uploaded a
file. -/
def uploadedBy (user : String) : Session where
  remoteIpStr := "10.0.0.1".toList
  userStr := user.toList
  anonPassStr := []
  isAnonymous := false
  isGuest := false
  isAscii := false
  logType := .upload
  transferSize := 4
  logStartSec := 10
  logStr := "c d".toList
  xferlogOpen := true
  vsftpdLogOpen := true

/-- A name of a file with a space can be read back as it is noted, and a name of a user with one
hides the rest of the line. -/
theorem xferlog_fields_iff_two :
    ((sanitized (wuftpdFormat (uploadedBy "alice") uploadMoment true)).drop 25).splitOn ' ' =
      (xferFields (uploadedBy "alice") uploadMoment true).map sanitized ∧
    ((sanitized (wuftpdFormat (uploadedBy "alice smith") uploadMoment true)).drop 25).splitOn ' ' ≠
      (xferFields (uploadedBy "alice smith") uploadMoment true).map sanitized :=
  ⟨(xferlog_fields_iff _ _ _ (by decide) (by decide)).mpr (by decide),
    mt (xferlog_fields_iff _ _ _ (by decide) (by decide)).mp (by decide)⟩

/-! ## Who has logged in -/

section LoggedIn

variable {K : Type} {cfg : PreLogin.Config} {checkAuth : Text → Text → K → Verdict × K}

/-- Who was let in has no space in what stands for him in a line. -/
def Spaceless (t : Parent K) : Prop :=
  ∀ g, t.grant = some g → if g.anon then ' ' ∉ t.anonPassStr else ' ' ∉ g.user

/-- Nothing is granted yet, so no name with a space is. -/
theorem spaceless_of_not_granted {t : Parent K} (h : t.grant = none) : Spaceless t := by
  intro g hg
  rw [h] at hg
  cases hg

/-- A decent name has no space. -/
theorem space_not_mem_of_decentName {user : Text} (h : decentName user = true) : ' ' ∉ user := by
  cases user with
  | nil => exact List.not_mem_nil
  | cons first rest =>
      simp only [decentName, Bool.and_eq_true, Bool.not_eq_true'] at h
      intro hmem
      have hany := List.any_eq_false.mp h.1.2 ' ' hmem
      exact hany (by decide)

/-- What a login without a grant leaves behind. -/
def Named (result : LoginResult) (t : Parent K) : Prop :=
  t.grant = none ∧ (result = .anon → ' ' ∉ t.anonPassStr) ∧ (result = .real → ' ' ∉ t.userStr)

/-- The spaces of an anonymous password are replaced. -/
theorem spaceless_handleAnonymousLogin {t : Parent K} (hgrant : t.grant = none) (pass : Text) :
    (handleAnonymousLogin cfg pass).Meets Spaceless t Named := by
  have hstart : Spaceless t := spaceless_of_not_granted hgrant
  refine meets_inParent hstart ?_
  split
  · exact ⟨hgrant, by simp, by simp⟩
  · split
    · exact ⟨hgrant, by simp, by simp⟩
    · refine ⟨spaceless_of_not_granted hgrant, hgrant, fun _ => ?_, by simp⟩
      intro hmem
      obtain ⟨ch, hch, hspace⟩ := List.mem_map.mp hmem
      split at hspace
      · cases hspace
      · exact space_not_mem_strReplaceChar _ (hspace ▸ hch)

/-- The authentication brings no space that was not in the name that it was asked for. -/
def AnswersSpaceless (checkAuth : Text → Text → K → Verdict × K) : Prop :=
  ∀ user pass k, ' ' ∉ user → ' ' ∉ (checkAuth user pass k).1.user

/-- A login that is granted names a client without a space: `handleAnonymousLogin` replaces it, and
a local name comes out of a check that answers without one. -/
theorem spaceless_handleLogin (hauth : AnswersSpaceless checkAuth) {t : Parent K}
    (hgrant : t.grant = none) (pass : Text) :
    (handleLogin cfg checkAuth pass).Meets Spaceless t Named := by
  have hstart : Spaceless t := spaceless_of_not_granted hgrant
  refine meets_inParent hstart ?_
  dsimp only
  split
  · exact ⟨hgrant, by simp, by simp⟩
  · rename_i hdecent
    rw [not_or, Bool.not_eq_true', Bool.not_eq_false] at hdecent
    split
    · exact spaceless_handleAnonymousLogin hgrant pass
    · split
      · trivial
      · have hasked : (t.ask checkAuth t.userStr pass).grant = none := hgrant
        have hname := hauth t.userStr pass t.auth (space_not_mem_of_decentName hdecent.1)
        refine ⟨spaceless_of_not_granted hasked, ?_⟩
        change Proc.Meets _ (if _ then _ else _) _ _
        split
        · exact ⟨hasked, by simp, fun _ => hname⟩
        · exact ⟨hasked, by simp, by simp⟩

/-- A login lets nobody in with a space. -/
theorem spaceless_loginItself (hauth : AnswersSpaceless checkAuth) (s : PreLogin.Session)
    (pass : Text) {t : Parent K} (hgrant : t.grant = none) :
    (loginItself cfg checkAuth s pass).Meets Spaceless t
      (fun ok t' => Spaceless t' ∧ Told ok t') := by
  have htaken : (t.takeOver cfg s.userStr s.controlUseSsl s.dataUseSsl).grant = none := hgrant
  refine ⟨spaceless_of_not_granted htaken, ?_⟩
  refine (spaceless_handleLogin hauth htaken pass).bind fun result t' hnamed => ?_
  obtain ⟨hnone, hanon, hreal⟩ := hnamed
  have hbefore : Spaceless t' := spaceless_of_not_granted hnone
  cases result with
  | fail => exact ⟨hbefore, hnone⟩
  | anon =>
      have hset : Spaceless { t' with
          userStr := cfg.ftpUsername, grant := some ⟨cfg.ftpUsername, true, true⟩ } := by
        intro g hg
        cases hg
        exact hanon rfl
      exact ⟨hset, hset, rfl⟩
  | real =>
      refine meets_inParent hbefore ?_
      dsimp only
      split
      · trivial
      · rename_i doChroot _
        have hset : Spaceless { t' with grant := some ⟨t'.userStr, doChroot, false⟩ } := by
          intro g hg
          cases hg
          exact hreal rfl
        exact ⟨hset, hset, rfl⟩

/-- The lines of whoever has logged in can be taken apart at their spaces. -/
theorem xferlog_fields_of_loggedIn (hauth : AnswersSpaceless checkAuth) {lines : List Line}
    {userlist : Text} {secure : Bool} {bannedEmail emailPasswords : Text} {auth : K}
    {child : PreLogin.Session}
    {final : Duo PrivSock.Item PrivSock.Fault Unit (Parent K) (PreLogin.Session × Ended) Bool}
    (h : Settles (Duo.step (vsfTwoProcessStart cfg checkAuth))
      (begun cfg lines (.start userlist secure) (.start bannedEmail emailPasswords auth)) final)
    (hlogin : final.client = .done (child, .loggedIn)) :
    ∃ g, final.serverState.grant = some g ∧ ∀ (s : Session) (m : Moment) (succeeded : Bool),
      (s.isAnonymous && !s.isGuest) = g.anon → s.userStr = g.user →
      s.anonPassStr = final.serverState.anonPassStr → m.date.length = 24 → ' ' ∉ s.remoteIpStr →
      ((sanitized (wuftpdFormat s m succeeded)).drop 25).splitOn ' ' =
        (xferFields s m succeeded).map sanitized := by
  obtain ⟨out, hexec, hout⟩ := state_of_settles sendable_nil h
  rw [hout _ hlogin] at hexec
  obtain ⟨-, -, g, -, hg, -⟩ := (meets_loggedIn lines (fun _ hne => absurd rfl hne) rfl).of_exec
    hexec rfl
  have hspaceless : Spaceless final.serverState := by
    have hlogin (s : PreLogin.Session) (pass : Text) (t : Parent K) (hgrant : t.grant = none)
        (_ : Spaceless t) : (loginItself cfg checkAuth s pass).Meets Spaceless t
          (fun ok t' => Spaceless t' ∧ Told ok t') :=
      spaceless_loginItself hauth s pass hgrant
    have hmeets := meets_parse hlogin lines (s := .start userlist secure)
      (t := .start bannedEmail emailPasswords auth) (spaceless_of_not_granted rfl) rfl
    have hstate := hmeets.state_of_exec (spaceless_of_not_granted rfl) []
    rwa [hexec] at hstate
  refine ⟨g, hg, fun s m succeeded hanon huser hpass hdate hip => ?_⟩
  refine splitOn_of_identity hdate hip ?_ succeeded
  have hidentity := hspaceless g hg
  rw [identity, hanon]
  cases hg' : g.anon with
  | true =>
      rw [hg', if_pos rfl] at hidentity
      rwa [if_pos rfl, hpass]
  | false =>
      rw [hg', if_neg (by decide)] at hidentity
      rwa [if_neg (by decide), huser]

/-- The check that knows one name and password answers without spaces. -/
theorem answersSpaceless_onePassword : AnswersSpaceless onePassword := by
  intro user pass asked huser
  rw [onePassword]
  split
  · exact (by decide : ' ' ∉ "alice".toList)
  · exact huser

/-- An upload of alice, when she has logged in. -/
theorem xferlog_fields_of_loggedIn_alice :
    ((sanitized (wuftpdFormat (uploadedBy "alice") uploadMoment true)).drop 25).splitOn ' ' =
      (xferFields (uploadedBy "alice") uploadMoment true).map sanitized := by
  obtain ⟨s, t, h, hgrant, hpass⟩ := settles_aliceLines
  obtain ⟨g, hg, hfields⟩ := xferlog_fields_of_loggedIn answersSpaceless_onePassword h rfl
  obtain rfl := Option.some.inj (hgrant.symm.trans hg)
  exact hfields (uploadedBy "alice") uploadMoment true rfl rfl hpass.symm (by decide) (by decide)

end LoggedIn

end LogLine
end Server
end ModpackInstaller
