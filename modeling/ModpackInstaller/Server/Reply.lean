import ModpackInstaller.Server.McUpdate

/-!
# Replies of the server

The reply writers of {lit}`ftpcmdio.c` and {lit}`banner.c`, and the handlers of
{lit}`postlogin.c` whose replies the installer depends on: {lit}`SITE VERS`,
{lit}`SITE UINS` and {lit}`CWD`.  A writer that takes a plain {lit}`char`
pointer cuts its text at NUL; one that takes a string buffer does not.

Main results:

- Theorem {lit}`mem_mangle`: the mangling of a reply text brings in nothing but
  NUL.
- Theorem {lit}`newline_not_mem_mangle`: a mangled text has no line feed.
- Theorem {lit}`mangle_of_plain`: a text without line feed and telnet escape is
  left as it is.
-/

namespace ModpackInstaller
namespace Server

open Library

/-! ## Writing a reply -/

/-- `str_replace_char` -/
def strReplaceChar (s : Text) (frm into : Char) : Text :=
  s.map fun c => if c = frm then into else c

/-- What a reply text becomes on the wire: the telnet escape character is
doubled and a line feed becomes NUL. -/
def mangle (text : Text) : Text :=
  strReplaceChar (strReplaceText text ['\xff'] ['\xff', '\xff']) '\n' nul

/-- `ftp_write_str_common` without the line end. -/
def replyLine (status : Nat) (sep : Char) (text : Text) : Text :=
  Nat.toDigits 10 status ++ sep :: mangle text

/-- `ftp_write_str_common` -/
def ftpWriteStrCommon (status : Nat) (sep : Char) (text : Text) : Text :=
  replyLine status sep text ++ ['\r', '\n']

/-- `vsf_cmdio_write` -/
def vsfCmdioWrite (status : Nat) (text : Text) : Text :=
  ftpWriteStrCommon status ' ' (cstr text)

/-- `vsf_cmdio_write_str` -/
def vsfCmdioWriteStr (status : Nat) (text : Text) : Text :=
  ftpWriteStrCommon status ' ' text

/-- `vsf_cmdio_write_str_hyphen` -/
def vsfCmdioWriteStrHyphen (status : Nat) (text : Text) : Text :=
  ftpWriteStrCommon status '-' text

/-- `vsf_banner_write` -/
def vsfBannerWrite (msg : Text) (ftpcode : Nat) : Text :=
  (strLines msg).flatMap (vsfCmdioWriteStrHyphen ftpcode)

/-- A reply: the message text that {lit}`vsf_banner_write` goes through before
the final line, which is empty when there is none, and the text of the final
line as {lit}`ftp_write_str_common` gets it. -/
structure Reply where
  code : Nat
  message : Text
  text : Text
deriving DecidableEq, Repr

/-- The bytes of a reply. -/
def Reply.wire (r : Reply) : Text :=
  vsfBannerWrite r.message r.code ++ vsfCmdioWriteStr r.code r.text

/-- The final line of a reply. -/
def Reply.finalLine (r : Reply) : Text :=
  replyLine r.code ' ' r.text

/-- The reply that a single `vsf_cmdio_write` makes. -/
def Reply.plain (code : Nat) (text : Text) : Reply :=
  ⟨code, [], cstr text⟩

/-! ## What mangling does -/

/-- Mangling turns line feeds into NUL and brings in nothing else. -/
theorem mem_mangle {text : Text} {c : Char} :
    c ∈ mangle text ↔ (c ∈ text ∧ c ≠ '\n') ∨ (c = nul ∧ '\n' ∈ text) := by
  have hdouble : ∀ d, d ∈ strReplaceText text ['\xff'] ['\xff', '\xff'] ↔ d ∈ text := by
    intro d
    rw [strReplaceText_eq_replaceAll (by simp), replaceAll_singleton, List.mem_flatMap]
    constructor
    · rintro ⟨e, he, hd⟩
      split at hd
      · rename_i heq
        have hd' : d = e := by simpa [heq] using hd
        exact hd' ▸ he
      · rw [List.mem_singleton] at hd
        exact hd ▸ he
    · intro hd
      refine ⟨d, hd, ?_⟩
      split <;> simp_all
  rw [mangle, strReplaceChar, List.mem_map]
  constructor
  · rintro ⟨d, hd, hc⟩
    rw [hdouble] at hd
    split at hc
    · rename_i hnewline
      exact Or.inr ⟨hc.symm, hnewline ▸ hd⟩
    · rename_i hne
      exact Or.inl ⟨hc ▸ hd, hc ▸ hne⟩
  · rintro (⟨hc, hne⟩ | ⟨rfl, hnewline⟩)
    · exact ⟨c, (hdouble c).mpr hc, if_neg hne⟩
    · exact ⟨'\n', (hdouble _).mpr hnewline, if_pos rfl⟩

/-- A mangled text has no line feed. -/
theorem newline_not_mem_mangle (text : Text) : '\n' ∉ mangle text := by
  rw [mem_mangle]
  rintro (⟨-, hne⟩ | ⟨h, -⟩)
  · exact hne rfl
  · exact absurd h (by decide)

/-- Mangling keeps the carriage returns. -/
theorem cr_mem_mangle (text : Text) : '\r' ∈ mangle text ↔ '\r' ∈ text := by
  have hnul : '\r' ≠ nul := by decide
  simp [mem_mangle, hnul]

/-- A text without line feed and telnet escape is left as it is. -/
theorem mangle_of_plain {text : Text} (hnewline : '\n' ∉ text) (hescape : '\xff' ∉ text) :
    mangle text = text := by
  have hinfix : ¬ ['\xff'] <:+: text := by rwa [List.singleton_infix_iff]
  rw [mangle, strReplaceText_eq_replaceAll (by simp), replaceAll_of_not_infix hinfix,
    strReplaceChar]
  calc text.map (fun c => if c = '\n' then nul else c)
    _ = text.map id := List.map_congr_left fun c hc =>
        if_neg fun (h : c = '\n') => hnewline (h ▸ hc)
    _ = text := List.map_id text

/-! ## The handlers -/

/-- `str_split_char`: the text before the first separator and the text behind
it. -/
def strSplitChar (src : Text) (sep : Char) : Text × Text :=
  (src.takeWhile (· ≠ sep), (src.dropWhile (· ≠ sep)).drop 1)

/-- Neither half of an argument has a character that the argument lacks. -/
theorem not_mem_strSplitChar {arg : Text} {c sep : Char} (h : c ∉ arg) :
    c ∉ (strSplitChar arg sep).1 ∧ c ∉ (strSplitChar arg sep).2 := by
  constructor
  · exact fun hmem => h ((List.takeWhile_prefix _).subset hmem)
  · exact fun hmem => h ((List.dropWhile_suffix _).subset (List.mem_of_mem_drop hmem))

/-- `handle_site_vers` -/
def handleSiteVers (k : Kernel) (sys : Sys) (arg : Text) : Except Abort (Text × Sys) :=
  if arg.isEmpty then .ok (vsfCmdioWrite 500 "Which modpack?".toList, sys)
  else if '/' ∈ arg then .ok (vsfCmdioWrite 500 "Illegal character.".toList, sys)
  else
    match mcuGetLatestVersion k sys arg with
    | .error e => .error e
    | .ok ((false, _), sys) => .ok (vsfCmdioWrite 550 "Modpack not found.".toList, sys)
    | .ok ((true, version), sys) => .ok (vsfCmdioWrite 216 version, sys)

/-- What `handle_site_uins` comes to before it opens the data connection. -/
inductive UinsOutcome where
  | refuses (reply : Text)
  | sends (instructions : Text)
deriving DecidableEq, Repr

/-- `handle_site_uins` up to the transfer.  `checks` is the reply with which
`data_transfer_checks_ok` refuses, and `instr` is what an earlier request left
in the static instruction buffer. -/
def handleSiteUins (k : Kernel) (sys : Sys) (checks : Option Text) (instr arg : Text) :
    Except Abort (UinsOutcome × Sys) :=
  let refuse (status : Nat) (text : String) (sys : Sys) :=
    Except.ok (UinsOutcome.refuses (vsfCmdioWrite status text.toList), sys)
  let (modpack, version) := strSplitChar arg ' '
  if arg.isEmpty then refuse 500 "SITE UINS needs 2 arguments." sys
  else if '/' ∈ arg then refuse 500 "Illegal character." sys
  else if version.isEmpty then refuse 500 "SITE UINS needs 2 arguments." sys
  else
    match checks with
    | some reply => .ok (.refuses reply, sys)
    | none =>
      match mcuCreateUpdateInstructions k sys instr modpack version with
      | .error e => .error e
      | .ok ((retval, instructions), sys) =>
        if retval = 1 then refuse 550 "Modpack not found." sys
        else if retval = 2 then refuse 550 "Version not found." sys
        else if retval = -1 then refuse 550 "Listfile error." sys
        else .ok (.sends instructions, sys)

/-- The latest version that the version file states at this moment. -/
def latestVersion (k : Kernel) (sys : Sys) (modpack : Text) : Option Text :=
  match mcuGetLatestVersion k sys modpack with
  | .ok ((true, version), _) => some version
  | _ => none

/-- A stated version has no line feed. -/
theorem newline_not_mem_latestVersion {k : Kernel} {sys : Sys} {modpack version : Text}
    (h : latestVersion k sys modpack = some version) : '\n' ∉ version := by
  rw [latestVersion, mcuGetLatestVersion] at h
  cases hread : strFileread k sys (versionPath modpack) 40 with
  | error e => simp [hread] at h
  | ok r =>
      have hversion : strReplaceText r.1.text ['\n'] [] = version := by
        by_cases hpos : 0 ≤ r.1.retval <;> simp_all
      rw [← hversion, strReplaceText_eq_replaceAll (by simp), replaceAll_singleton]
      simp

/-- Instructions that are sent were planned for the latest version of that
moment, and the argument had no slash in it. -/
theorem latestVersion_of_sends {k : Kernel} {sys sys' : Sys} {checks : Option Text}
    {instr arg instructions : Text}
    (h : handleSiteUins k sys checks instr arg = .ok (.sends instructions, sys')) :
    '/' ∉ arg ∧ ∃ p : PlanReads,
      p.ReadFrom k sys (strSplitChar arg ' ').1 (strSplitChar arg ' ').2 ∧
      latestVersion k sys (strSplitChar arg ' ').1 = some p.latest := by
  unfold handleSiteUins at h
  by_cases hempty : arg.isEmpty
  · simp [hempty] at h
  by_cases hslash : '/' ∈ arg
  · simp [hempty, hslash] at h
  by_cases hversion : (strSplitChar arg ' ').2.isEmpty
  · simp [hempty, hslash, hversion] at h
  cases checks with
  | some reply => simp [hempty, hslash, hversion] at h
  | none =>
      refine ⟨hslash, ?_⟩
      cases hplan : mcuCreateUpdateInstructions k sys instr (strSplitChar arg ' ').1
          (strSplitChar arg ' ').2 with
      | error e => simp [hempty, hslash, hversion, hplan] at h
      | ok r =>
          obtain ⟨⟨retval, out⟩, sys₁⟩ := r
          rcases mcuCreateUpdateInstructions_retval hplan with rfl | rfl | rfl | rfl
          · obtain ⟨p, hp, -⟩ := mcuCreateUpdateInstructions_ok hplan
            obtain ⟨_, _, _, _, hlatest, -⟩ := hp.latest
            exact ⟨p, hp, by rw [latestVersion, hlatest]⟩
          · simp [hempty, hslash, hversion, hplan] at h
          · simp [hempty, hslash, hversion, hplan] at h
          · simp [hempty, hslash, hversion, hplan] at h

/-- An answered `SITE VERS` states the latest version of that moment, cut at
NUL. -/
theorem handleSiteVers_of_latestVersion {k : Kernel} {sys : Sys} {arg version : Text}
    (hne : arg ≠ []) (hslash : '/' ∉ arg) (h : latestVersion k sys arg = some version) :
    ∃ sys', handleSiteVers k sys arg = .ok (vsfCmdioWrite 216 version, sys') := by
  have hempty : ¬ arg.isEmpty = true := by simpa using hne
  unfold latestVersion at h
  split at h
  · rename_i version' sys' hlatest
    refine ⟨sys', ?_⟩
    rw [handleSiteVers, if_neg hempty, if_neg hslash, hlatest, Option.some.inj h]
  · simp at h

/-! ## Directory messages -/

/-- The tunables and the memory of a session that directory messages use. -/
structure Session where
  dirmessageEnable : Bool
  messageFile : Text
  /-- `p_visited_dir_list` -/
  visited : List Text
deriving DecidableEq, Repr

/-- `vsf_banner_dir_changed` in the directory `cwd`: the message text that goes
through `vsf_banner_write`. -/
def vsfBannerDirChanged (k : Kernel) (sys : Sys) (sess : Session) (cwd : Text) :
    Except Abort (Text × Session × Sys) :=
  if !sess.dirmessageEnable then .ok ([], sess, sys)
  else if cwd ∈ sess.visited then .ok ([], sess, sys)
  else
    -- Beyond 100 directories the session no longer remembers a visit.
    let visited := if sess.visited.length < 100 then sess.visited ++ [cwd] else sess.visited
    match strFileread k sys (cwd ++ '/' :: sess.messageFile) 4000 with
    | .error e => .error e
    | .ok (read, sys) => .ok (read.text, { sess with visited := visited }, sys)

/-- `handle_cwd`: `permitted` is the answer of `vsf_access_check_file`, and
`chdir` the new directory when `str_chdir` succeeds. -/
def handleCwd (k : Kernel) (sys : Sys) (sess : Session) (permitted : Bool)
    (chdir : Option Text) : Except Abort (Reply × Session × Sys) :=
  if !permitted then .ok (.plain 550 "Permission denied.".toList, sess, sys)
  else
    match chdir with
    | none => .ok (.plain 550 "Failed to change directory.".toList, sess, sys)
    | some cwd =>
      match vsfBannerDirChanged k sys sess cwd with
      | .error e => .error e
      | .ok (message, sess, sys) =>
        .ok (⟨250, message, cstr "Directory successfully changed.".toList⟩, sess, sys)

end Server
end ModpackInstaller
