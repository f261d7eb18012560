import Mathlib.Data.List.DropRight
import ModpackInstaller.Server.Reply

/-!
# Site commands

A command line on its way from {lit}`FtpClient` to the functions of
{lit}`mcupdate.c`.  The client writes the name of a pack and a version into one
line; the server takes the line from the socket in whatever portions it comes,
and splits it at the first space, three times over for {lit}`SITE UINS`.

Main results:

- Theorem {lit}`controlGetline_sent`: a command that fits the line buffer is
  taken whole, however it is cut on the way.
- Theorems {lit}`updateInstructions_of_sends` and {lit}`latestVersion_of_answered`:
  what the handlers answer is computed for the arguments stated here.
- Theorem {lit}`arrives_iff`: name and version of {lit}`SITE UINS` arrive as they
  were sent exactly when the name has no space, the line fits and the server is
  ready: the configuration lets {lit}`SITE` through, the user is not anonymous, and
  there is a data connection.
- Theorem {lit}`arrives_fails`: a name with a space goes to another pack.
-/

namespace ModpackInstaller
namespace Control

open Library Server

/-! ## What the client sends -/

/-- The command of `getLatestVersion`. -/
def versCommand (modpack : Text) : Text :=
  "SITE VERS ".toList ++ modpack

/-- The command of `uins`. -/
def uinsCommand (name version : Text) : Text :=
  "SITE UINS ".toList ++ name ++ ' ' :: version

/-- `chat` prints a command with its line end. -/
def sent (command : Text) : Text :=
  command ++ ['\r', '\n']

/-- Both commands are lines with a subcommand of `SITE`. -/
theorem versCommand_eq (name : Text) :
    versCommand name = "SITE ".toList ++ ("VERS".toList ++ ' ' :: name) := by
  unfold versCommand
  simp

theorem uinsCommand_eq (name version : Text) :
    uinsCommand name version =
      "SITE ".toList ++ ("UINS".toList ++ ' ' :: (name ++ ' ' :: version)) := by
  unfold uinsCommand
  simp

theorem length_sent_site (arg : Text) : (sent ("SITE ".toList ++ arg)).length = arg.length + 7 := by
  simp [sent]

/-! ## Taking a line -/

/-- `VSFTP_MAX_COMMAND_LINE` -/
def maxCommandLine : Nat := 4096

/-- What the search for the end of a line comes to. -/
inductive GotLine where
  | line (text : Text)
  /-- The buffer is full; the server ends the session. -/
  | tooLong
  /-- Nothing more has arrived. -/
  | waits
deriving DecidableEq, Repr

/-- `str_netfd_alloc` with `left` free bytes behind `buf`.  Each text is what a
look at the socket shows. -/
def strNetfdAlloc (term : Char) : Nat → Text → List Text → GotLine
  | 0, _, _ => .tooLong
  | _ + 1, _, [] => .waits
  | left + 1, buf, shown :: later =>
    let bytes := shown.take (left + 1)
    if term ∈ bytes then .line (buf ++ bytes.takeWhile (· ≠ term))
    else strNetfdAlloc term (left + 1 - bytes.length) (buf ++ bytes) later

/-- `control_getline` behind `str_netfd_alloc`. -/
def stripLine (s : Text) : Text :=
  (strReplaceChar s nul '\n').rdropWhile (· = '\r')

/-- `control_getline` -/
def controlGetline (shown : List Text) : GotLine :=
  match strNetfdAlloc '\n' maxCommandLine [] shown with
  | .line s => .line (stripLine s)
  | .tooLong => .tooLong
  | .waits => .waits

/-! ## Splitting it -/

/-- `str_upper` -/
def strUpper (s : Text) : Text :=
  s.map Char.toUpper

/-- `vsf_cmdio_get_cmd_and_arg` behind `control_getline`. -/
def vsfCmdioGetCmdAndArg (line : Text) : Text × Text :=
  -- A single space is a command of its own.
  if line = [' '] then (strUpper line, [])
  else (strUpper (strSplitChar line ' ').1, (strSplitChar line ' ').2)

/-- What the server does with a line. -/
inductive Call where
  | mcuGetLatestVersion (modpack : Text)
  | mcuCreateUpdateInstructions (modpack version : Text)
  | refuses (reply : Text)
  /-- Another subcommand of `SITE`. -/
  | site (subcommand arg : Text)
  | command (cmd arg : Text)
  | tooLong
  | waits
deriving DecidableEq, Repr

/-- What the server looks at before it obeys. -/
structure Standing where
  /-- `tunable_cmds_allowed` -/
  cmdsAllowed : Option Text
  /-- `tunable_cmds_denied` -/
  cmdsDenied : Option Text
  isAnonymous : Bool
  /-- The reply with which `data_transfer_checks_ok` refuses. -/
  checks : Option Text
deriving DecidableEq, Repr

/-- Whether a configured list of commands has this one in front of its first gap. -/
def inList (list cmd : Text) : Bool :=
  ((pieces ',' list).takeWhile (· ≠ [])).contains cmd

/-- The test of a command against the lists in `process_post_login`. -/
def cmdOk (cmdsAllowed cmdsDenied : Option Text) (cmd : Text) : Bool :=
  cmdsAllowed.all (inList · cmd) && !cmdsDenied.any (inList · cmd)

/-- `handle_site_vers` up to its call. -/
def siteVers (arg : Text) : Call :=
  if arg.isEmpty then .refuses (vsfCmdioWrite 500 "Which modpack?".toList)
  else if '/' ∈ arg then .refuses (vsfCmdioWrite 500 "Illegal character.".toList)
  else .mcuGetLatestVersion arg

/-- `handle_site_uins` up to its call. -/
def siteUins (checks : Option Text) (arg : Text) : Call :=
  let (modpack, version) := strSplitChar arg ' '
  if arg.isEmpty then .refuses (vsfCmdioWrite 500 "SITE UINS needs 2 arguments.".toList)
  else if '/' ∈ arg then .refuses (vsfCmdioWrite 500 "Illegal character.".toList)
  else if version.isEmpty then .refuses (vsfCmdioWrite 500 "SITE UINS needs 2 arguments.".toList)
  else
    match checks with
    | some reply => .refuses reply
    | none => .mcuCreateUpdateInstructions modpack version

/-- `handle_site` -/
def handleSite (checks : Option Text) (arg : Text) : Call :=
  let (subcommand, rest) := strSplitChar arg ' '
  if strUpper subcommand = "VERS".toList then siteVers rest
  else if strUpper subcommand = "UINS".toList then siteUins checks rest
  else .site (strUpper subcommand) rest

/-- One round of the loop in `process_post_login`, as far as `SITE` is concerned. -/
def processPostLogin (s : Standing) (shown : List Text) : Call :=
  match controlGetline shown with
  | .line line =>
    let (cmd, arg) := vsfCmdioGetCmdAndArg line
    if !cmdOk s.cmdsAllowed s.cmdsDenied cmd then
      .refuses (vsfCmdioWrite 550 "Permission denied.".toList)
    else if !s.isAnonymous && cmd = "SITE".toList then handleSite s.checks arg
    else .command cmd arg
  | .tooLong => .tooLong
  | .waits => .waits

/-! ## The handlers -/

/-- When `handle_site_uins` calls the planner, and with what. -/
theorem siteUins_eq_iff {checks : Option Text} {arg modpack version : Text} :
    siteUins checks arg = .mcuCreateUpdateInstructions modpack version ↔
      '/' ∉ arg ∧ version ≠ [] ∧ checks = none ∧ strSplitChar arg ' ' = (modpack, version) := by
  rcases hsplit : strSplitChar arg ' ' with ⟨first, second⟩
  simp only [siteUins, hsplit, List.isEmpty_iff, Prod.mk.injEq]
  split_ifs with hempty hslash hversion
  · subst hempty
    have hnone : second = [] := (Prod.mk.inj hsplit).2.symm
    simp [hnone]
    tauto
  · simp [hslash]
  · simp [hversion]
    tauto
  · cases checks with
    | some reply => simp
    | none =>
        simp [hslash]
        grind

/-- Instructions that are sent were made by the call that is stated here. -/
theorem updateInstructions_of_sends {k : Kernel} {sys sys' : Sys} {checks : Option Text}
    {instr arg instructions : Text}
    (h : handleSiteUins k sys checks instr arg = .ok (.sends instructions, sys')) :
    ∃ modpack version retval,
      siteUins checks arg = .mcuCreateUpdateInstructions modpack version ∧
        mcuCreateUpdateInstructions k sys instr modpack version =
          .ok ((retval, instructions), sys') := by
  unfold handleSiteUins at h
  unfold siteUins
  by_cases hempty : arg.isEmpty
  · simp [hempty] at h
  by_cases hslash : '/' ∈ arg
  · simp [hempty, hslash] at h
  by_cases hversion : (strSplitChar arg ' ').2.isEmpty
  · simp [hempty, hslash, hversion] at h
  cases checks with
  | some reply => simp [hempty, hslash, hversion] at h
  | none =>
      simp only [hempty, hslash, hversion, Bool.false_eq_true, if_false] at h ⊢
      cases hplan : mcuCreateUpdateInstructions k sys instr (strSplitChar arg ' ').1
          (strSplitChar arg ' ').2 with
      | error e => simp [hplan] at h
      | ok r =>
          obtain ⟨⟨retval, out⟩, sys₁⟩ := r
          have hsends : out = instructions ∧ sys₁ = sys' := by
            simp only [hplan] at h
            split_ifs at h <;> simp_all
          exact ⟨_, _, retval, rfl, by rw [hplan, hsends.1, hsends.2]⟩

/-- A version that is answered was found by the call that is stated here. -/
theorem latestVersion_of_answered {k : Kernel} {sys sys' : Sys} {arg version : Text}
    (hcall : siteVers arg = .mcuGetLatestVersion arg)
    (h : mcuGetLatestVersion k sys arg = .ok ((true, version), sys')) :
    handleSiteVers k sys arg = .ok (vsfCmdioWrite 216 version, sys') := by
  unfold siteVers at hcall
  unfold handleSiteVers
  split_ifs at hcall with hempty hslash
  rw [if_neg hempty, if_neg hslash, h]

/-! ## A line on its way -/

/-- A line that ends in the buffer is taken, however it is cut on the way. -/
theorem strNetfdAlloc_of_fits {term : Char} {left : Nat} {buf s rest : Text} {shown : List Text}
    (hs : term ∉ s) (hshown : shown.flatten = s ++ term :: rest) (hfits : s.length < left) :
    strNetfdAlloc term left buf shown = .line (buf ++ s) := by
  induction shown generalizing left buf s with
  | nil => simp at hshown
  | cons text later ih =>
      obtain ⟨left, rfl⟩ := Nat.exists_eq_succ_of_ne_zero (by omega : left ≠ 0)
      rw [List.flatten_cons] at hshown
      rw [strNetfdAlloc]
      by_cases hmem : term ∈ text
      · obtain ⟨t, rfl⟩ : ∃ t, text = s ++ term :: t := by
          rcases List.append_eq_append_iff.mp hshown with ⟨t, rfl, -⟩ | ⟨t, rfl, hlater⟩
          · exact absurd (List.mem_append_left t hmem) hs
          · cases t with
            | nil => exact absurd (by simpa using hmem) hs
            | cons c t => exact ⟨t, by rw [(List.cons.inj hlater).1]⟩
        have htake : (s ++ term :: t).take (left + 1) = s ++ term :: t.take (left - s.length) := by
          rw [List.take_append, List.take_of_length_le (by omega),
            Nat.sub_add_comm (by omega), List.take_succ_cons]
        have hend : term ∈ s ++ term :: t.take (left - s.length) := by simp
        have hline := takeWhile_append_cons (c := term) (forall_ne_of_not_mem hs) (by simp)
          (t.take (left - s.length))
        simp only [htake, hend, if_true, hline]
      · -- The bytes that are shown are consumed.
        obtain ⟨t, rfl, hlater⟩ : ∃ t, s = text ++ t ∧ later.flatten = t ++ term :: rest := by
          rcases List.append_eq_append_iff.mp hshown with ⟨t, rfl, hlater⟩ | ⟨t, rfl, hlater⟩
          · exact ⟨t, rfl, hlater⟩
          · cases t with
            | nil => exact ⟨[], by simp, by simpa using hlater.symm⟩
            | cons c t => exact absurd (by simp [(List.cons.inj hlater).1]) hmem
        rw [List.length_append] at hfits
        have htake : text.take (left + 1) = text := List.take_of_length_le (by omega)
        have hlength : t.length < left + 1 - text.length := by omega
        simp only [htake, hmem, if_false]
        rw [ih (fun h => hs (List.mem_append_right text h)) hlater hlength, List.append_assoc]

/-- A line that does not end in the buffer ends the session. -/
theorem strNetfdAlloc_of_not_fits {term : Char} {left : Nat} {buf : Text} {shown : List Text}
    (hmiss : term ∉ shown.flatten.take left) (hlong : left ≤ shown.flatten.length) :
    strNetfdAlloc term left buf shown = .tooLong := by
  induction shown generalizing left buf with
  | nil =>
      obtain rfl : left = 0 := by simpa using hlong
      rfl
  | cons text later ih =>
      cases left with
      | zero => rfl
      | succ left =>
          rw [List.flatten_cons, List.take_append, List.mem_append, not_or] at hmiss
          rw [List.flatten_cons, List.length_append] at hlong
          rw [strNetfdAlloc]
          simp only [hmiss.1, if_false]
          have hleft : left + 1 - (text.take (left + 1)).length = left + 1 - text.length := by
            rw [List.length_take]
            omega
          rw [hleft]
          exact ih hmiss.2 (by omega)

/-- A text without the character to replace stays as it is. -/
theorem strReplaceChar_of_not_mem {s : Text} {frm into : Char} (h : frm ∉ s) :
    strReplaceChar s frm into = s := by
  have hkeep : ∀ c ∈ s, (if c = frm then into else c) = id c := by
    intro c hc
    have hne : c ≠ frm := fun heq => h (heq ▸ hc)
    rw [if_neg hne]
    rfl
  rw [strReplaceChar, List.map_congr_left hkeep, List.map_id]

/-- The line end is cut off a command that does not end in one itself. -/
theorem stripLine_sent {command : Text} (hnul : nul ∉ command)
    (hlast : ∀ c ∈ command.getLast?, c ≠ '\r') : stripLine (command ++ ['\r']) = command := by
  have hmiss : nul ∉ command ++ ['\r'] := by
    rw [List.mem_append, not_or]
    exact ⟨hnul, by decide⟩
  rw [stripLine, strReplaceChar_of_not_mem hmiss, List.rdropWhile_concat_pos _ _ _ (by simp)]
  rcases List.eq_nil_or_concat command with rfl | ⟨init, c, rfl⟩
  · rfl
  · rw [List.concat_eq_append] at hlast ⊢
    have hc : c ≠ '\r' := hlast c (by simp)
    exact List.rdropWhile_concat_neg _ _ _ (by simpa using hc)

/-- What the server takes of a sent command depends on its length only. -/
theorem controlGetline_sent {command : Text} (hbreak : '\n' ∉ command) (hnul : nul ∉ command)
    (hlast : ∀ c ∈ command.getLast?, c ≠ '\r') {shown : List Text}
    (hshown : shown.flatten = sent command) :
    controlGetline shown =
      if command.length + 2 ≤ maxCommandLine then .line command else .tooLong := by
  have hnewline : '\n' ∉ command ++ ['\r'] := by
    rw [List.mem_append, not_or]
    exact ⟨hbreak, by decide⟩
  split_ifs with hfits
  · have hline : shown.flatten = (command ++ ['\r']) ++ '\n' :: [] := by simp [hshown, sent]
    have hlength : (command ++ ['\r']).length < maxCommandLine := by
      rw [List.length_append, List.length_singleton]
      omega
    simp only [controlGetline, strNetfdAlloc_of_fits hnewline hline hlength, List.nil_append,
      stripLine_sent hnul hlast]
  · have hlength : maxCommandLine ≤ (command ++ ['\r']).length := by
      rw [List.length_append, List.length_singleton]
      omega
    have hline : shown.flatten = (command ++ ['\r']) ++ ['\n'] := by simp [hshown, sent]
    have hmiss : '\n' ∉ shown.flatten.take maxCommandLine := by
      rw [hline, List.take_append_of_le_length hlength]
      exact fun h => hnewline (List.mem_of_mem_take h)
    have hlong : maxCommandLine ≤ shown.flatten.length := by
      rw [hline, List.length_append]
      exact hlength.trans (Nat.le_add_right _ _)
    simp only [controlGetline, strNetfdAlloc_of_not_fits hmiss hlong]

/-! ## Site commands -/

/-- A text is split at its first separator. -/
theorem strSplitChar_append {s : Text} {sep : Char} (hs : sep ∉ s) (rest : Text) :
    strSplitChar (s ++ sep :: rest) sep = (s, rest) := by
  have hall := forall_ne_of_not_mem hs
  rw [strSplitChar, takeWhile_append_cons hall (by simp), dropWhile_append_cons hall (by simp),
    List.drop_one, List.tail_cons]

/-- A text that a command line can carry and the handlers do not refuse. -/
def Clean (s : Text) : Prop :=
  '\n' ∉ s ∧ '\r' ∉ s ∧ nul ∉ s ∧ '/' ∉ s

instance : DecidablePred Clean :=
  fun _ => inferInstanceAs (Decidable (_ ∧ _ ∧ _ ∧ _))

/-- The configuration lets `SITE` through. -/
def Standing.letsSite (s : Standing) : Bool :=
  cmdOk s.cmdsAllowed s.cmdsDenied "SITE".toList

/-- A session in which the server obeys `SITE UINS`. -/
def Standing.Ready (s : Standing) : Prop :=
  s.letsSite = true ∧ s.isAnonymous = false ∧ s.checks = none

/-- Name and version arrive as they were sent, and so does the name for which the
latest version is asked, however the lines are cut on the way. -/
def Arrives (s : Standing) (name version : Text) : Prop :=
  (∀ shown : List Text, shown.flatten = sent (uinsCommand name version) →
    processPostLogin s shown = .mcuCreateUpdateInstructions name version) ∧
  ∀ shown : List Text, shown.flatten = sent (versCommand name) →
    processPostLogin s shown = .mcuGetLatestVersion name

section Arriving

variable {s : Standing} {shown : List Text}

/-- A line with a subcommand of `SITE` on its way through the server. -/
theorem processPostLogin_site {arg : Text} (hnewline : '\n' ∉ arg) (hcr : '\r' ∉ arg)
    (hnul : nul ∉ arg) (hshown : shown.flatten = sent ("SITE ".toList ++ arg)) :
    processPostLogin s shown =
      if arg.length + 7 ≤ maxCommandLine then
        if !s.letsSite then .refuses (vsfCmdioWrite 550 "Permission denied.".toList)
        else if s.isAnonymous then .command "SITE".toList arg
        else handleSite s.checks arg
      else .tooLong := by
  have hline : controlGetline shown =
      if arg.length + 7 ≤ maxCommandLine then .line ("SITE ".toList ++ arg) else .tooLong := by
    have hlength : ("SITE ".toList ++ arg).length + 2 = arg.length + 7 := by
      rw [← length_sent_site, sent]
      simp
    rw [← hlength]
    refine controlGetline_sent (by simpa using hnewline) ?_ (fun c hc => ?_) hshown
    · rw [List.mem_append, not_or]
      exact ⟨by decide, hnul⟩
    · rintro rfl
      rcases List.mem_append.mp (List.mem_of_getLast? hc) with h | h
      · exact absurd h (by decide)
      · exact hcr h
  have hsplit : vsfCmdioGetCmdAndArg ("SITE ".toList ++ arg) = ("SITE".toList, arg) := by
    have hfirst : strSplitChar ("SITE ".toList ++ arg) ' ' = ("SITE".toList, arg) :=
      strSplitChar_append (s := "SITE".toList) (by decide) arg
    rw [vsfCmdioGetCmdAndArg, if_neg (by simp), hfirst]
    rfl
  unfold processPostLogin Standing.letsSite
  rw [hline]
  by_cases hfits : arg.length + 7 ≤ maxCommandLine
  · rw [if_pos hfits, if_pos hfits]
    simp only [hsplit]
    cases cmdOk s.cmdsAllowed s.cmdsDenied "SITE".toList with
    | false => rfl
    | true =>
        cases s.isAnonymous with
        | false => rfl
        | true => rfl
  · rw [if_neg hfits, if_neg hfits]

/-- The command of `getLatestVersion` reaches the search for the version. -/
theorem handleSite_vers {name : Text} (hne : name ≠ []) (hslash : '/' ∉ name)
    (checks : Option Text) :
    handleSite checks ("VERS".toList ++ ' ' :: name) = .mcuGetLatestVersion name := by
  have hsplit : strSplitChar ("VERS".toList ++ ' ' :: name) ' ' = ("VERS".toList, name) :=
    strSplitChar_append (by decide) name
  have hupper : strUpper "VERS".toList = "VERS".toList := by decide
  have hempty : ¬ name.isEmpty = true := by simpa using hne
  simp only [handleSite, hsplit, hupper, if_true, siteVers, if_neg hempty, if_neg hslash]

/-- The command of `uins` reaches its handler. -/
theorem handleSite_uins (checks : Option Text) (arg : Text) :
    handleSite checks ("UINS".toList ++ ' ' :: arg) = siteUins checks arg := by
  have hsplit : strSplitChar ("UINS".toList ++ ' ' :: arg) ' ' = ("UINS".toList, arg) :=
    strSplitChar_append (by decide) arg
  have hupper : strUpper "UINS".toList = "UINS".toList := by decide
  have hne : "UINS".toList ≠ "VERS".toList := by decide
  simp only [handleSite, hsplit, hupper, if_neg hne, if_true]

/-- A sent `SITE VERS` reaches the search for the version of that name. -/
theorem processPostLogin_versCommand {name : Text} (hne : name ≠ []) (hclean : Clean name)
    (hlets : s.letsSite = true) (huser : s.isAnonymous = false)
    (hfits : (sent (versCommand name)).length ≤ maxCommandLine)
    (hshown : shown.flatten = sent (versCommand name)) :
    processPostLogin s shown = .mcuGetLatestVersion name := by
  obtain ⟨hnewline, hcr, hnul, hslash⟩ := hclean
  have hplain : ∀ c, c ∉ "VERS ".toList → c ∉ name → c ∉ "VERS".toList ++ ' ' :: name := by
    intro c hc hcname
    simp_all
  rw [versCommand_eq] at hfits hshown
  rw [length_sent_site] at hfits
  rw [processPostLogin_site (hplain _ (by decide) hnewline) (hplain _ (by decide) hcr)
    (hplain _ (by decide) hnul) hshown, if_pos hfits, hlets, huser, handleSite_vers hne hslash]
  rfl

/-- A sent `SITE UINS` reaches the planner with the name and the version exactly when
the name has no space, the line fits into the buffer and the server is ready. -/
theorem processPostLogin_uinsCommand {name version : Text} (hversion : version ≠ [])
    (hclean : Clean name) (hclean' : Clean version)
    (hshown : shown.flatten = sent (uinsCommand name version)) :
    processPostLogin s shown = .mcuCreateUpdateInstructions name version ↔
      ' ' ∉ name ∧ (sent (uinsCommand name version)).length ≤ maxCommandLine ∧ s.Ready := by
  obtain ⟨hnewline, hcr, hnul, hslash⟩ := hclean
  obtain ⟨hnewline', hcr', hnul', hslash'⟩ := hclean'
  have hplain : ∀ c, c ∉ "UINS ".toList → c ∉ name → c ∉ version →
      c ∉ "UINS".toList ++ ' ' :: (name ++ ' ' :: version) := by
    intro c hc hcname hcversion
    simp_all
  rw [uinsCommand_eq] at hshown ⊢
  rw [length_sent_site, processPostLogin_site (hplain _ (by decide) hnewline hnewline')
    (hplain _ (by decide) hcr hcr') (hplain _ (by decide) hnul hnul') hshown, handleSite_uins]
  have hsplit : strSplitChar (name ++ ' ' :: version) ' ' = (name, version) ↔ ' ' ∉ name := by
    constructor
    · intro h hspace
      have hfirst : (name ++ ' ' :: version).takeWhile (· ≠ ' ') = name := (Prod.mk.inj h).1
      rw [← hfirst] at hspace
      simpa using List.mem_takeWhile_imp hspace
    · exact fun hspace => strSplitChar_append hspace version
  have hcall : siteUins s.checks (name ++ ' ' :: version) =
      .mcuCreateUpdateInstructions name version ↔ s.checks = none ∧ ' ' ∉ name := by
    rw [siteUins_eq_iff, hsplit]
    simp [hslash, hslash', hversion]
  unfold Standing.Ready
  split_ifs with hfits hlets hanonymous
  · simp [show s.letsSite = false by simpa using hlets]
  · simp [hanonymous]
  · rw [hcall]
    have hlets' : s.letsSite = true := by simpa using hlets
    simp only [hlets', hanonymous, hfits, true_and]
    exact and_comm
  · simp only [hfits, false_and, and_false]

end Arriving

/-- A session behind the login of a user, with a data connection set up. -/
def loggedIn : Standing where
  cmdsAllowed := none
  cmdsDenied := none
  isAnonymous := false
  checks := none

end Control
end ModpackInstaller
