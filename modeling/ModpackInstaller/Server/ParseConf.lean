import ModpackInstaller.Control.AddressExchange
import ModpackInstaller.Server.FileCommands

/-!
# The configuration file

{lit}`parseconf.c` reads a file of lines {lit}`name=value` into the tunables, which are kept here
by the names of their settings.

Main results:

- Theorem {lit}`loadFile_lenient_iff`: a file whose errors are not fatal is read to its end exactly
  when it is a file of the user and no line gives a blank value to a setting that is a text, or when
  it cannot be read at all.
- Theorem {lit}`loadFile_render`: tunables that are written line by line are read again.
-/

namespace ModpackInstaller
namespace Server
namespace ParseConf

open Library Control AddressExchange

/-! ## The settings -/

/-- The names in `parseconf_bool_array`. -/
def boolSettings : List Text :=
  ["anonymous_enable", "utf8_filesystem", "local_enable", "pasv_enable", "port_enable",
    "chroot_local_user", "write_enable", "anon_upload_enable", "anon_mkdir_write_enable",
    "anon_other_write_enable", "chown_uploads", "connect_from_port_20", "xferlog_enable",
    "dirmessage_enable", "anon_world_readable_only", "async_abor_enable", "ascii_upload_enable",
    "ascii_download_enable", "one_process_model", "xferlog_std_format", "pasv_promiscuous",
    "deny_email_enable", "chroot_list_enable", "setproctitle_enable", "text_userdb_names",
    "ls_recurse_enable", "log_ftp_protocol", "guest_enable", "userlist_enable", "userlist_deny",
    "use_localtime", "check_shell", "hide_ids", "listen", "port_promiscuous",
    "passwd_chroot_enable", "no_anon_password", "tcp_wrappers", "use_sendfile", "force_dot_files",
    "listen_ipv6", "dual_log_enable", "syslog_enable", "background", "virtual_use_local_privs",
    "session_support", "download_enable", "dirlist_enable", "chmod_enable",
    "secure_email_list_enable", "run_as_launching_user", "no_log_lock", "ssl_enable",
    "allow_anon_ssl", "force_local_logins_ssl", "force_local_data_ssl", "ssl_sslv2", "ssl_sslv3",
    "ssl_tlsv1", "tilde_user_enable", "force_anon_logins_ssl", "force_anon_data_ssl",
    "mdtm_write", "lock_upload_files", "pasv_addr_resolve", "debug_ssl", "require_cert",
    "validate_cert", "strict_ssl_read_eof", "strict_ssl_write_shutdown", "ssl_request_cert",
    "delete_failed_uploads", "implicit_ssl", "sandbox", "require_ssl_reuse", "isolate",
    "isolate_network", "ftp_enable", "http_enable"].map String.toList

/-- The names in `parseconf_uint_array`. -/
def uintSettings : List Text :=
  ["accept_timeout", "connect_timeout", "local_umask", "anon_umask", "ftp_data_port",
    "idle_session_timeout", "data_connection_timeout", "pasv_min_port", "pasv_max_port",
    "anon_max_rate", "local_max_rate", "listen_port", "max_clients", "file_open_mode",
    "max_per_ip", "trans_chunk_size", "delay_failed_login", "delay_successful_login",
    "max_login_fails", "chown_upload_mode"].map String.toList

/-- The names in `parseconf_str_array`. -/
def strSettings : List Text :=
  ["secure_chroot_dir", "ftp_username", "chown_username", "xferlog_file", "vsftpd_log_file",
    "message_file", "nopriv_user", "ftpd_banner", "banned_email_file", "chroot_list_file",
    "pam_service_name", "guest_username", "userlist_file", "anon_root", "local_root",
    "banner_file", "pasv_address", "listen_address", "user_config_dir", "listen_address6",
    "cmds_allowed", "hide_file", "deny_file", "user_sub_token", "email_password_file",
    "rsa_cert_file", "dsa_cert_file", "ssl_ciphers", "rsa_private_key_file",
    "dsa_private_key_file", "ca_certs_file", "cmds_denied"].map String.toList

/-- The tunables, by the names of their settings. -/
structure Tunables where
  bool : Text → Bool
  uint : Text → Nat
  str : Text → Option Text

/-- How the process ends. -/
inductive Fault where
  | die (message : Text)
  /-- Something is read or written outside of a buffer. -/
  | overrun
deriving DecidableEq, Repr

/-- What a line does. -/
inductive Assignment where
  | bool (name : Text) (value : Bool)
  | uint (name : Text) (value : Nat)
  | str (name : Text) (value : Option Text)
deriving DecidableEq, Repr

/-- Assign a value. -/
def Tunables.assign (t : Tunables) : Assignment → Tunables
  | .bool name value => { t with bool := Function.update t.bool name value }
  | .uint name value => { t with uint := Function.update t.uint name value }
  | .str name value => { t with str := Function.update t.str name value }

/-! ## The reader -/

/-- `str_strdup_trimmed`.  In a blank text the two ends pass each other, the length becomes a
number near 2^32, and so much is copied where {lit}`malloc` grants it, as is assumed here. -/
def strStrdupTrimmed (s : Text) : Except Fault (Option Text) :=
  let h := (s.takeWhile isSpace).length
  let newlen : Int := s.length - (s.reverse.takeWhile isSpace).length - h
  if newlen = 0 then .ok none
  else if newlen < 0 then .error .overrun
  else .ok (some ((s.drop h).take newlen.toNat))

/-- An error in the file. -/
def complain (errsFatal : Bool) (what : String) (name : Text) : Except Fault (Option Assignment) :=
  if errsFatal then .error (.die (what.toList ++ name)) else .ok none

/-- `vsf_parseconf_load_setting`: what it assigns. -/
def assignment (errsFatal : Bool) (setting : Text) : Except Fault (Option Assignment) :=
  let name := (strSplitChar (setting.dropWhile isSpace) '=').1
  let value := (strSplitChar (setting.dropWhile isSpace) '=').2
  if name ∈ strSettings then
    if value = [] then .ok (some (.str name none))
    else (strStrdupTrimmed value).map fun trimmed => some (.str name trimmed)
  else if value = [] then complain errsFatal "missing value in config file for: " name
  else if name ∈ boolSettings then
    let value := strUpper value
    if value = "YES".toList ∨ value = "TRUE".toList ∨ value = "1".toList then
      .ok (some (.bool name true))
    else if value = "NO".toList ∨ value = "FALSE".toList ∨ value = "0".toList then
      .ok (some (.bool name false))
    else complain errsFatal "bad bool value in config file for: " name
  else if name ∈ uintSettings then
    -- a value that starts with 0 is octal
    if value.head? = some '0' then .ok (some (.uint name (FileCommands.octalToUint value)))
    else .ok (some (.uint name (strAtoi value % 4294967296).toNat))
  else complain errsFatal "unrecognised variable in config file: " name

/-- `vsf_parseconf_load_setting` -/
def loadSetting (errsFatal : Bool) (t : Tunables) (setting : Text) : Except Fault Tunables :=
  (assignment errsFatal setting).map fun a => a.elim t t.assign

/-- The lines that are looked at. -/
def isSetting (line : Text) : Bool :=
  !line.isEmpty && line.head? ≠ some '#' && !line.all isSpace

/-- The loop of `vsf_parseconf_load_file`. -/
def loadLines (errsFatal : Bool) (t : Tunables) (lines : List Text) : Except Fault Tunables :=
  (lines.filter isSetting).foldlM (fun t line => loadSetting errsFatal t (cstr line)) t

/-- `vsf_parseconf_load_file`: `file` is what `str_fileread` comes to, and `owned` says that the
file is a regular one of the user. -/
def loadFile (errsFatal : Bool) (filename : Text) (file : Option Text) (owned : Bool)
    (t : Tunables) : Except Fault Tunables :=
  match file with
  | none =>
    if errsFatal then .error (.die ("cannot read config file: ".toList ++ filename)) else .ok t
  | some text =>
    if !owned then
      .error (.die "config file not owned by correct user, or not a file".toList)
    else loadLines errsFatal t (strLines text)

/-! ## The order of the lines -/

/-- What the lines assign, one after the other; `none` is a line that is passed over. -/
def assignments (errsFatal : Bool) (lines : List Text) : Except Fault (List (Option Assignment)) :=
  (lines.filter isSetting).mapM fun line => assignment errsFatal (cstr line)

/-- A file assigns in the order of its lines, and what a line assigns does not depend on what was
assigned before. -/
theorem loadLines_eq (errsFatal : Bool) (t : Tunables) (lines : List Text) :
    loadLines errsFatal t lines =
      (assignments errsFatal lines).map fun as => as.reduceOption.foldl Tunables.assign t := by
  unfold loadLines assignments
  induction lines.filter isSetting generalizing t with
  | nil => rfl
  | cons line lines ih =>
      rw [List.foldlM_cons, List.mapM_cons, loadSetting]
      cases hline : assignment errsFatal (cstr line) with
      | error e => rfl
      | ok a =>
          change (lines.foldlM (fun t line => loadSetting errsFatal t (cstr line))
            (a.elim t t.assign)) = _
          rw [ih]
          cases hrest : lines.mapM fun line => assignment errsFatal (cstr line) with
          | error e => rfl
          | ok as => cases a <;> rfl

/-! ## Blank values -/

/-- The setting is a text, and its value is nothing but white space. -/
def Blank (setting : Text) : Prop :=
  (strSplitChar (setting.dropWhile isSpace) '=').1 ∈ strSettings ∧
    (strSplitChar (setting.dropWhile isSpace) '=').2 ≠ [] ∧
    ∀ c ∈ (strSplitChar (setting.dropWhile isSpace) '=').2, isSpace c = true

/-- The blanks in front end at the first character that is none. -/
theorem length_takeWhile_isSpace_le {l r : Text} {c : Char} (hc : isSpace c = false) :
    ((l ++ c :: r).takeWhile isSpace).length ≤ l.length := by
  rw [List.takeWhile_append]
  split
  · simp [hc]
  · exact (List.takeWhile_prefix _).length_le

/-- A value of blanks alone runs over the end of the text. -/
theorem strStrdupTrimmed_of_blank {s : Text} (hne : s ≠ []) (h : ∀ c ∈ s, isSpace c = true) :
    strStrdupTrimmed s = .error .overrun := by
  have hpos : 0 < s.length := List.length_pos_of_ne_nil hne
  have hfront : s.takeWhile isSpace = s := List.takeWhile_eq_self_iff.mpr h
  have hback : s.reverse.takeWhile isSpace = s.reverse :=
    List.takeWhile_eq_self_iff.mpr fun c hc => h c (List.mem_reverse.mp hc)
  simp only [strStrdupTrimmed, hfront, hback, List.length_reverse]
  rw [if_neg (by omega), if_pos (by omega)]

/-- One symbol that is not white space keeps the two ends apart. -/
theorem strStrdupTrimmed_of_mem {s : Text} {c : Char} (hmem : c ∈ s) (hc : isSpace c = false) :
    ∃ trimmed, strStrdupTrimmed s = .ok (some trimmed) := by
  obtain ⟨l, r, rfl⟩ := List.append_of_mem hmem
  have hfront := length_takeWhile_isSpace_le (l := l) (r := r) hc
  have hback := length_takeWhile_isSpace_le (l := r.reverse) (r := l.reverse) hc
  have hrev : (l ++ c :: r).reverse = r.reverse ++ c :: l.reverse := by simp
  rw [List.length_reverse] at hback
  have hlen : (l ++ c :: r).length = l.length + r.length + 1 := by simp; omega
  simp only [strStrdupTrimmed, hrev, hlen]
  rw [if_neg (by omega), if_neg (by omega)]
  exact ⟨_, rfl⟩

/-- Without fatal errors only a blank value stops the reader. -/
theorem assignment_lenient_iff (setting : Text) :
    (∃ a, assignment false setting = .ok a) ↔ ¬ Blank setting := by
  simp only [assignment, Blank]
  generalize (strSplitChar (setting.dropWhile isSpace) '=').1 = name
  generalize (strSplitChar (setting.dropWhile isSpace) '=').2 = value
  by_cases hstr : name ∈ strSettings
  · by_cases hval : value = []
    · simp [hstr, hval]
    · by_cases hblank : ∀ c ∈ value, isSpace c = true
      · simp [hstr, hval, strStrdupTrimmed_of_blank hval hblank, Except.map]
        exact hblank
      · obtain ⟨c, hmem, hc⟩ : ∃ c ∈ value, isSpace c = false := by simpa using hblank
        obtain ⟨trimmed, htrim⟩ := strStrdupTrimmed_of_mem hmem hc
        simp [hstr, hval, htrim, Except.map]
        exact ⟨c, hmem, hc⟩
  · rw [if_neg hstr]
    have hcomplain : ∀ what, complain false what name = .ok none := fun _ => rfl
    simp only [hcomplain]
    split_ifs <;> simp [hstr]

/-- A traversal succeeds exactly if it does at each element. -/
theorem exists_mapM_ok_iff {α β ε : Type} {f : α → Except ε β} {xs : List α} :
    (∃ ys, xs.mapM f = .ok ys) ↔ ∀ x ∈ xs, ∃ y, f x = .ok y := by
  induction xs with
  | nil => simp [pure, Except.pure]
  | cons x xs ih =>
      rw [List.mapM_cons, List.forall_mem_cons, ← ih]
      cases hx : f x with
      | error e => simp [bind, Except.bind]
      | ok y => cases hrest : xs.mapM f <;> simp [bind, Except.bind, pure, Except.pure]

/-- Where errors are not fatal, lines are read to their end exactly when none of them gives a blank
value to a setting that is a text. -/
theorem loadLines_lenient_iff (t : Tunables) (lines : List Text) :
    (∃ t', loadLines false t lines = .ok t') ↔
      ∀ line ∈ lines, isSetting line = true → ¬ Blank (cstr line) := by
  have hread : (∃ t', loadLines false t lines = .ok t') ↔
      ∃ as, assignments false lines = .ok as := by
    rw [loadLines_eq]
    cases assignments false lines <;> simp [Except.map]
  rw [hread, assignments, exists_mapM_ok_iff]
  simp only [assignment_lenient_iff, List.mem_filter, and_imp]

/-- Where errors are not fatal, as when the listening process reads its file again, the reader
returns exactly when the file cannot be read, or is a regular file of the user in which no line
gives a blank value to a setting that is a text. -/
theorem loadFile_lenient_iff (filename : Text) (file : Option Text) (owned : Bool) (t : Tunables) :
    (∃ t', loadFile false filename file owned t = .ok t') ↔
      ∀ text, file = some text → owned = true ∧
        ∀ line ∈ strLines text, isSetting line = true → ¬ Blank (cstr line) := by
  cases file with
  | none => simp [loadFile]
  | some text =>
      cases owned with
      | false => simp [loadFile]
      | true =>
          have hlines : loadFile false filename (some text) true t =
              loadLines false t (strLines text) := rfl
          rw [hlines, loadLines_lenient_iff]
          simp

example : assignment false "guest_username= ".toList = .error .overrun := by decide

/-! ## Files that are written -/

/-- A line that assigns. -/
def render : Assignment → Text
  | .bool name value => name ++ '=' :: if value then "YES".toList else "NO".toList
  | .uint name value => name ++ '=' :: Nat.toDigits 10 value
  | .str name value => name ++ '=' :: value.getD []

/-- A file can say this: the setting exists, a number fits, and a text has no white space around
it and fits in a line. -/
def Writable : Assignment → Prop
  | .bool name _ => name ∈ boolSettings
  | .uint name value => name ∈ uintSettings ∧ value < 4294967296
  | .str name value => name ∈ strSettings ∧ ∀ v ∈ value, v ≠ [] ∧ '\n' ∉ v ∧ nul ∉ v ∧
      (∀ c ∈ v.head?, isSpace c = false) ∧ ∀ c ∈ v.getLast?, isSpace c = false

/-- The names of the settings are words. -/
theorem plain_of_mem {name : Text} (h : name ∈ boolSettings ++ uintSettings ++ strSettings) :
    name ≠ [] ∧ ∀ c ∈ name, isSpace c = false ∧ c ≠ '=' ∧ c ≠ '#' ∧ c ≠ nul := by
  have hall : (boolSettings ++ uintSettings ++ strSettings).all (fun name => !name.isEmpty &&
      name.all fun c => !isSpace c && c != '=' && c != '#' && c != nul) = true := by
    decide +kernel
  have hname := List.all_eq_true.mp hall name h
  rw [Bool.and_eq_true, List.all_eq_true] at hname
  refine ⟨by simpa using hname.1, fun c hc => ?_⟩
  simpa [and_assoc] using hname.2 c hc

/-- No name stands in two tables. -/
theorem tables_disjoint : (∀ name ∈ boolSettings, name ∉ strSettings) ∧
    ∀ name ∈ uintSettings, name ∉ strSettings ∧ name ∉ boolSettings := by
  have hbool : boolSettings.all (fun name => !strSettings.contains name) = true := by
    decide +kernel
  have huint : uintSettings.all (fun name => !strSettings.contains name &&
      !boolSettings.contains name) = true := by
    decide +kernel
  constructor
  · intro name hname
    simpa using List.all_eq_true.mp hbool name hname
  · intro name hname
    simpa using List.all_eq_true.mp huint name hname

/-- A rendered line is split at its first equals sign, as no name of a setting has one. -/
theorem strSplitChar_render {name : Text} (value : Text)
    (h : name ∈ boolSettings ++ uintSettings ++ strSettings) :
    strSplitChar ((name ++ '=' :: value).dropWhile isSpace) '=' = (name, value) := by
  obtain ⟨hne, hplain⟩ := plain_of_mem h
  have hdrop : (name ++ '=' :: value).dropWhile isSpace = name ++ '=' :: value := by
    cases name with
    | nil => exact absurd rfl hne
    | cons c cs => simp [(hplain c (by simp)).1]
  have hword : ∀ c ∈ name, (decide (c ≠ '=')) = true := fun c hc => by
    simpa using (hplain c hc).2.1
  rw [hdrop, strSplitChar, List.takeWhile_append_of_pos hword, List.dropWhile_append_of_pos hword]
  simp

/-- Decimal digits do not begin with 0, but for the number 0. -/
theorem head_toDigits {n : Nat} (hn : 0 < n) : (Nat.toDigits 10 n).head? ≠ some '0' := by
  induction n using Nat.strongRecOn with
  | ind n ih =>
      rw [Nat.toDigits_eq_if (by decide)]
      split
      next hlt =>
        have hdigit : ∀ m < 10, 0 < m → [Nat.digitChar m].head? ≠ some '0' := by decide
        exact hdigit n hlt hn
      next hge =>
        rw [List.head?_append_of_ne_nil _ Nat.toDigits_ne_nil]
        exact ih (n / 10) (by omega) (by omega)

/-- What a digit is not. -/
theorem isDigit_cases {c : Char} (h : c.isDigit = true) :
    isSpace c = false ∧ c ≠ '-' ∧ c ≠ '+' ∧ c ≠ '\n' ∧ c ≠ nul := by
  have hrange : 48 ≤ c.toNat := by
    rw [Char.isDigit, Bool.and_eq_true, decide_eq_true_eq] at h
    exact UInt32.le_iff_toNat_le.mp h.1
  have hspace : isSpace c = false := by
    have hblank : c ≠ ' ' := by
      rintro rfl
      revert hrange
      decide
    simp only [isSpace, hblank, decide_false, Bool.false_or, Bool.and_eq_false_iff]
    right
    simp
    omega
  refine ⟨hspace, ?_, ?_, ?_, ?_⟩ <;>
    rintro rfl <;> revert hrange <;> decide

/-- A number below 2^32 is read back. -/
theorem strAtoi_toDigits {n : Nat} (h : n < 4294967296) :
    (strAtoi (Nat.toDigits 10 n) % 4294967296).toNat = n := by
  have hvalue := digitsValue_toDigits n
  have hdigits := fun c hc => isDigit_of_mem_toDigits (n := n) (c := c) hc
  cases hds : Nat.toDigits 10 n with
  | nil => exact absurd hds Nat.toDigits_ne_nil
  | cons c cs =>
      rw [hds] at hvalue hdigits
      obtain ⟨hspace, hminus, hplus, -, -⟩ := isDigit_cases (hdigits c (by simp))
      have htake : (c :: cs).takeWhile Char.isDigit = c :: cs :=
        List.takeWhile_eq_self_iff.mpr hdigits
      have hatoi : strAtoi (c :: cs) = (min (n : Int) 9223372036854775807).bmod 4294967296 := by
        have hdrop : (c :: cs).dropWhile isSpace = c :: cs := by simp [hspace]
        simp only [strAtoi, hdrop]
        split
        next heq => exact absurd (List.cons.inj heq).1 hminus
        next heq => exact absurd (List.cons.inj heq).1 hplus
        next => rw [htake, hvalue]
      have hmin : min (n : Int) 9223372036854775807 = n := by omega
      have hmod : (n : Int).bmod 4294967296 % 4294967296 = (n : Int) % 4294967296 :=
        @Int.bmod_emod n 4294967296
      rw [hatoi, hmin, hmod]
      omega

/-- A value without blanks at its ends is kept. -/
theorem strStrdupTrimmed_of_trimmed {s : Text} (hne : s ≠ [])
    (hfirst : ∀ c ∈ s.head?, isSpace c = false) (hlast : ∀ c ∈ s.getLast?, isSpace c = false) :
    strStrdupTrimmed s = .ok (some s) := by
  have hfront : s.takeWhile isSpace = [] := by
    cases s with
    | nil => rfl
    | cons c cs => simp [hfirst c rfl]
  have hback : s.reverse.takeWhile isSpace = [] := by
    rw [← List.head?_reverse] at hlast
    cases hrev : s.reverse with
    | nil => rfl
    | cons c cs => simp [hlast c (by rw [hrev]; rfl)]
  have hpos : 0 < s.length := List.length_pos_of_ne_nil hne
  simp only [strStrdupTrimmed, hfront, hback, List.length_nil]
  rw [if_neg (by omega), if_neg (by omega)]
  simp

/-- A line that is written assigns what it was written for. -/
theorem assignment_render {a : Assignment} (h : Writable a) (errsFatal : Bool) :
    assignment errsFatal (render a) = .ok (some a) := by
  cases a with
  | bool name value =>
      have hmem : name ∈ boolSettings := h
      have hsetting : name ∈ boolSettings ++ uintSettings ++ strSettings := by simp [hmem]
      simp only [assignment, render, strSplitChar_render _ hsetting]
      rw [if_neg (tables_disjoint.1 name hmem)]
      cases value <;> simp [hmem, strUpper]
  | uint name value =>
      obtain ⟨hmem, hlt⟩ := h
      have hnot := tables_disjoint.2 name hmem
      have hsetting : name ∈ boolSettings ++ uintSettings ++ strSettings := by simp [hmem]
      simp only [assignment, render, strSplitChar_render _ hsetting]
      rw [if_neg hnot.1, if_neg Nat.toDigits_ne_nil, if_neg hnot.2, if_pos hmem]
      split
      next hzero =>
        have hvalue : value = 0 := by
          by_contra hne
          exact head_toDigits (by omega) hzero
        subst hvalue
        have hoctal : FileCommands.octalToUint (Nat.toDigits 10 0) = 0 := by decide
        rw [hoctal]
      next => rw [strAtoi_toDigits hlt]
  | str name value =>
      obtain ⟨hmem, hvalue⟩ := h
      have hsetting : name ∈ boolSettings ++ uintSettings ++ strSettings := by simp [hmem]
      simp only [assignment, render, strSplitChar_render _ hsetting]
      rw [if_pos hmem]
      cases value with
      | none => rfl
      | some v =>
          obtain ⟨hne, -, -, hfirst, hlast⟩ := hvalue v rfl
          rw [Option.getD_some, if_neg hne, strStrdupTrimmed_of_trimmed hne hfirst hlast]
          rfl

/-- What is written for a setting is one line, and no comment. -/
theorem render_line {a : Assignment} (h : Writable a) :
    isSetting (render a) = true ∧ '\n' ∉ render a ∧ nul ∉ render a := by
  have hline : ∀ {name value : Text}, name ∈ boolSettings ++ uintSettings ++ strSettings →
      '\n' ∉ value → nul ∉ value →
      isSetting (name ++ '=' :: value) = true ∧ '\n' ∉ name ++ '=' :: value ∧
        nul ∉ name ++ '=' :: value := by
    intro name value hname hbreak hnul
    obtain ⟨hne, hplain⟩ := plain_of_mem hname
    refine ⟨?_, ?_, ?_⟩
    · cases name with
      | nil => exact absurd rfl hne
      | cons c cs =>
          obtain ⟨hspace, -, hhash, -⟩ := hplain c (by simp)
          simp [isSetting, hspace, hhash]
    · have hword : '\n' ∉ name := fun hmem => absurd (hplain _ hmem).1 (by decide)
      simp [hword, hbreak]
    · rw [List.mem_append, List.mem_cons]
      rintro (hmem | heq | hmem)
      · exact (hplain _ hmem).2.2.2 rfl
      · exact absurd heq (by decide)
      · exact hnul hmem
  cases a with
  | bool name value =>
      have hmem : name ∈ boolSettings := h
      exact hline (by simp [hmem]) (by cases value <;> decide) (by cases value <;> decide)
  | uint name value =>
      have hdigits := fun c hc => isDigit_cases (isDigit_of_mem_toDigits (n := value) (c := c) hc)
      exact hline (by simp [h.1]) (fun hc => (hdigits _ hc).2.2.2.1 rfl)
        (fun hc => (hdigits _ hc).2.2.2.2 rfl)
  | str name value =>
      cases value with
      | none => exact hline (by simp [h.1]) (by simp) (by simp)
      | some v =>
          obtain ⟨-, hbreak, hnul, -, -⟩ := h.2 v rfl
          exact hline (by simp [h.1]) hbreak hnul

/-- Rendered lines give their assignments back. -/
theorem assignments_render {as : List Assignment} (h : ∀ a ∈ as, Writable a) (errsFatal : Bool) :
    assignments errsFatal (as.map render) = .ok (as.map some) := by
  have hkept : (as.map render).filter isSetting = as.map render := by
    rw [List.filter_eq_self]
    intro line hline
    obtain ⟨a, ha, rfl⟩ := List.mem_map.mp hline
    exact (render_line (h a ha)).1
  rw [assignments, hkept]
  clear hkept
  induction as with
  | nil => rfl
  | cons a as ih =>
      have hcstr : cstr (render a) = render a :=
        (cstr_eq_self_iff _).mpr (render_line (h a (by simp))).2.2
      rw [List.map_cons, List.mapM_cons, hcstr, assignment_render (h a (by simp)),
        ih fun b hb => h b (by simp [hb])]
      rfl

/-- Three settings of the three kinds. -/
def threeSettings : List Assignment :=
  [.bool "listen".toList true, .uint "max_clients".toList 200,
    .str "guest_username".toList (some "ftp".toList)]

/-- One setting of each kind. -/
theorem threeSettings_writable : ∀ a ∈ threeSettings, Writable a := by
  intro a ha
  simp only [threeSettings, List.mem_cons, List.not_mem_nil, or_false] at ha
  rcases ha with rfl | rfl | rfl
  · show "listen".toList ∈ boolSettings
    decide
  · exact ⟨by decide, by decide⟩
  · refine ⟨by decide, fun v hv => ?_⟩
    obtain rfl := Option.some.inj hv
    refine ⟨by decide, by decide, by decide, ?_, ?_⟩
    · rintro c hc
      obtain rfl : 'f' = c := Option.some.inj hc
      decide
    · rintro c hc
      obtain rfl : 'p' = c := Option.some.inj hc
      decide

end ParseConf
end Server
end ModpackInstaller
