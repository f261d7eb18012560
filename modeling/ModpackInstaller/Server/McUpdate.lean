import ModpackInstaller.Server.Kernel

/-!
# The update planner

The functions of {lit}`mcupdate.c`.  For a modpack and the version a client
has, {lit}`mcuCreateUpdateInstructions` compares the list file of that version
with the list file of the latest one, and then works the manual change log
into the instruction text, one line after the other.

The loops over {lit}`str_getline` run over {lit}`strLines`.  The two diff loops
are of the {lit}`do ... while` form and also see the empty line of the failing
last call; they skip it like every empty line.

Main results:

- Theorem {lit}`mcuCreateUpdateInstructions_ok`: what a successful run read and
  how the returned text comes from it.
- Theorem {lit}`mcuCreateUpdateInstructions_of_reads`: files that can be read
  make the planner succeed.
-/

namespace ModpackInstaller
namespace Server

/-! ## Reading the published files -/

/-- The path of the version file. -/
def versionPath (modpack : Text) : Text :=
  cstr ("/DATA/VERSION/".toList ++ modpack)

/-- `mcu_get_latest_version`: success and the contents of the version file
without newlines. -/
def mcuGetLatestVersion (k : Kernel) (sys : Sys) (modpack : Text) :
    Except Abort ((Bool × Text) × Sys) :=
  match strFileread k sys (versionPath modpack) 40 with
  | .error e => .error e
  | .ok (read, sys) =>
    .ok ((decide (0 ≤ read.retval), strReplaceText read.text ['\n'] []), sys)

/-- The path of a list file. -/
def listfilePath (modpack version : Text) : Text :=
  cstr ("/DATA/LISTFILE/".toList ++ modpack ++ ['/'] ++ version)

/-- The path of the manual change log. -/
def changePath (modpack : Text) : Text :=
  cstr ("/DATA/CHANGE/".toList ++ modpack)

/-- The read limit for list files and change logs. -/
def listLimit : Nat := 100000

/-! ## The list diff -/

/-- The first diff loop: lines of the old list that the latest list lacks are
appended as they are. -/
def diffRemoved (list2 : Text) : List Text → Text → Text
  | [], instr => instr
  | file :: rest, instr =>
    if file = ['.'] ∨ file.isEmpty ∨ strContainsLine list2 file then
      diffRemoved list2 rest instr
    else
      diffRemoved list2 rest (instr ++ (file ++ ['\n']))

/-- The server's copy of a listed file. -/
def serverPath (modpack file : Text) : Text :=
  ['/'] ++ modpack ++ "/mods/".toList ++ file

/-- The instruction for an added line, from what `stat` says of the server's
copy. -/
def addedLine (modpack file : Text) : Option FileType → Text
  | none => "# unstatable file: ".toList ++ serverPath modpack file
  | some .regular => strReplaceText file "./".toList "+fmods/".toList
  | some .directory => strReplaceText file "./".toList "+dmods/".toList
  | some .special => strReplaceText file "./".toList "+umods/".toList

/-- The second diff loop: lines of the latest list that the old list lacks
become installations.  The descriptor that `str_open` may return is not used
and not closed. -/
def diffAdded (k : Kernel) (modpack list1 : Text) : List Text → Sys → Text → Text × Sys
  | [], sys, instr => (instr, sys)
  | file :: rest, sys, instr =>
    if file = ['.'] ∨ file.isEmpty ∨ strContainsLine list1 file then
      diffAdded k modpack list1 rest sys instr
    else
      let file2 := cstr (serverPath modpack file)
      let sys := (strOpen k sys file2).2
      let (type, sys) := strStat k sys file2
      diffAdded k modpack list1 rest sys (instr ++ (addedLine modpack file type ++ ['\n']))

/-- Both diff loops, with the rewriting of the removed lines between them. -/
def listDiff (k : Kernel) (sys : Sys) (modpack list1 list2 : Text) : Text × Sys :=
  let instr := diffRemoved list2 (strLines list1) []
  let instr := strReplaceText instr "./".toList "-umods/".toList
  diffAdded k modpack list1 (strLines list2) sys instr

/-! ## The manual change log -/

/-- The lines behind the first line `@version`, if there is one. -/
def findVersionLine (versionLine : Text) : List Text → Option (List Text)
  | [] => none
  | file :: rest => if file = versionLine then some rest else findVersionLine versionLine rest

/-- Work one line of the change log into the instruction text. -/
def applyChange (instr file : Text) : Text :=
  match file with
  | [] => instr
  | c :: file2 =>
    let filep := '+' :: file2
    let filem := '-' :: file2
    let filea := '*' :: file2
    match c with
    | '+' =>
      if strContainsLine instr filem then
        strReplaceText instr (cstr filem) (cstr filea)
      else if !strContainsLine instr filep && !strContainsLine instr filea then
        instr ++ (filep ++ ['\n'])
      else instr
    | '-' =>
      if strContainsLine instr filep || strContainsLine instr filea then
        let filep := filep ++ ['\n']
        let filea := filea ++ ['\n']
        let instr := strReplaceText instr (cstr filep) []
        strReplaceText instr (cstr filea) []
      else if !strContainsLine instr filem then
        instr ++ (filem ++ ['\n'])
      else instr
    | '*' =>
      if strContainsLine instr filem then
        strReplaceText instr (cstr filem) (cstr filea)
      else if strContainsLine instr filep then
        strReplaceText instr (cstr filep) (cstr filea)
      else if !strContainsLine instr filea then
        instr ++ (filea ++ ['\n'])
      else instr
    | _ => instr

/-- Work a list of change lines into the instruction text. -/
def applyChanges (instr : Text) (log : List Text) : Text :=
  log.foldl applyChange instr

/-! ## The planner -/

/-- `mcu_create_update_instructions`: the return code and the instruction
buffer, which starts with whatever an earlier call left in it. -/
def mcuCreateUpdateInstructions (k : Kernel) (sys : Sys) (instr modpack version : Text) :
    Except Abort ((Int × Text) × Sys) := do
  let ((found, versionLatest), sys) ← mcuGetLatestVersion k sys modpack
  if !found then return ((1, instr), sys)
  let (list1, sys) ← strFileread k sys (listfilePath modpack version) listLimit
  if list1.retval < 0 then return ((2, instr), sys)
  let (list2, sys) ← strFileread k sys (listfilePath modpack versionLatest) listLimit
  if list2.retval < 0 then return ((-1, instr), sys)
  let (instr, sys) := listDiff k sys modpack list1.text list2.text
  let (changes, sys) ← strFileread k sys (changePath modpack) listLimit
  if changes.retval < 0 then return ((-1, instr), sys)
  match findVersionLine ('@' :: version) (strLines changes.text) with
  | none => return ((-1, instr), sys)
  | some log => return ((0, applyChanges instr log), sys)

/-! ## What a successful run read -/

/-- A computation that returns has both of its halves return. -/
theorem bind_ok {α β : Type} {x : Except Abort α} {f : α → Except Abort β} {b : β}
    (h : (x >>= f) = .ok b) : ∃ a, x = .ok a ∧ f a = .ok b := by
  cases x with
  | error e => exact absurd h (by simp [bind, Except.bind])
  | ok a => exact ⟨a, rfl, h⟩

/-- The texts a planner run reads, and the moments at which it starts on the
diff and on the change log. -/
structure PlanReads where
  latest : Text
  list1 : Text
  list2 : Text
  changes : Text
  diffSys : Sys
  /-- The change lines behind `@version`. -/
  log : List Text

/-- The planner found every file and the version line, and read these texts. -/
structure PlanReads.ReadFrom (p : PlanReads) (k : Kernel) (sys : Sys) (modpack version : Text) :
    Prop where
  latest : ∃ sys₁ sys₂ r₁ r₂,
    mcuGetLatestVersion k sys modpack = .ok ((true, p.latest), sys₁) ∧
    strFileread k sys₁ (listfilePath modpack version) listLimit = .ok (r₁, sys₂) ∧
    0 ≤ r₁.retval ∧ r₁.text = p.list1 ∧
    strFileread k sys₂ (listfilePath modpack p.latest) listLimit = .ok (r₂, p.diffSys) ∧
    0 ≤ r₂.retval ∧ r₂.text = p.list2
  changes : ∃ r sys₃,
    strFileread k (listDiff k p.diffSys modpack p.list1 p.list2).2 (changePath modpack)
      listLimit = .ok (r, sys₃) ∧
    0 ≤ r.retval ∧ r.text = p.changes
  log : findVersionLine ('@' :: version) (strLines p.changes) = some p.log

/-- The instruction text a planner run makes of what it read. -/
def PlanReads.instructions (p : PlanReads) (k : Kernel) (modpack : Text) : Text :=
  applyChanges (listDiff k p.diffSys modpack p.list1 p.list2).1 p.log

/-- A run with return code 0 read every file and returned the folded diff. -/
theorem mcuCreateUpdateInstructions_ok {k : Kernel} {sys sys' : Sys}
    {instr modpack version out : Text}
    (h : mcuCreateUpdateInstructions k sys instr modpack version = .ok ((0, out), sys')) :
    ∃ p : PlanReads, p.ReadFrom k sys modpack version ∧ out = p.instructions k modpack := by
  unfold mcuCreateUpdateInstructions at h
  obtain ⟨⟨⟨found, latest⟩, sys₁⟩, hlatest, h⟩ := bind_ok h
  cases found with
  | false => simp [pure, Except.pure] at h
  | true =>
      simp only [Bool.not_true, Bool.false_eq_true, if_false] at h
      obtain ⟨⟨r₁, sys₂⟩, hlist1, h⟩ := bind_ok h
      by_cases hneg₁ : r₁.retval < 0
      · simp [hneg₁, pure, Except.pure] at h
      obtain ⟨⟨r₂, sys₃⟩, hlist2, h⟩ := bind_ok (by simpa [hneg₁] using h)
      by_cases hneg₂ : r₂.retval < 0
      · simp [hneg₂, pure, Except.pure] at h
      obtain ⟨⟨r₃, sys₄⟩, hchanges, h⟩ := bind_ok (by simpa [hneg₂] using h)
      by_cases hneg₃ : r₃.retval < 0
      · simp [hneg₃, pure, Except.pure] at h
      cases hlog : findVersionLine ('@' :: version) (strLines r₃.text) with
      | none => simp [hneg₃, hlog, pure, Except.pure] at h
      | some log =>
          simp only [hneg₃, hlog, pure, Except.pure, if_false, Except.ok.injEq, Prod.mk.injEq,
            true_and] at h
          refine ⟨⟨latest, r₁.text, r₂.text, r₃.text, sys₃, log⟩, ⟨?_, ?_, hlog⟩, h.1.symm⟩
          · exact ⟨sys₁, sys₂, r₁, r₂, hlatest, hlist1, by omega, rfl, hlist2, by omega, rfl⟩
          · exact ⟨r₃, sys₄, hchanges, by omega, rfl⟩

/-- The return codes of the planner. -/
theorem mcuCreateUpdateInstructions_retval {k : Kernel} {sys sys' : Sys}
    {instr modpack version out : Text} {retval : Int}
    (h : mcuCreateUpdateInstructions k sys instr modpack version = .ok ((retval, out), sys')) :
    retval = 0 ∨ retval = 1 ∨ retval = 2 ∨ retval = -1 := by
  unfold mcuCreateUpdateInstructions at h
  obtain ⟨⟨⟨found, latest⟩, sys₁⟩, -, h⟩ := bind_ok h
  cases found with
  | false =>
      simp only [Bool.not_false, if_true, pure, Except.pure, Except.ok.injEq, Prod.mk.injEq] at h
      omega
  | true =>
      simp only [Bool.not_true, Bool.false_eq_true, if_false] at h
      obtain ⟨⟨r₁, sys₂⟩, -, h⟩ := bind_ok h
      by_cases hneg₁ : r₁.retval < 0
      · simp only [hneg₁, if_true, pure, Except.pure, Except.ok.injEq, Prod.mk.injEq] at h
        omega
      obtain ⟨⟨r₂, sys₃⟩, -, h⟩ := bind_ok (by simpa [hneg₁] using h)
      by_cases hneg₂ : r₂.retval < 0
      · simp only [hneg₂, if_true, pure, Except.pure, Except.ok.injEq, Prod.mk.injEq] at h
        omega
      obtain ⟨⟨r₃, sys₄⟩, -, h⟩ := bind_ok (by simpa [hneg₂] using h)
      by_cases hneg₃ : r₃.retval < 0
      · simp only [hneg₃, if_true, pure, Except.pure, Except.ok.injEq, Prod.mk.injEq] at h
        omega
      cases hlog : findVersionLine ('@' :: version) (strLines r₃.text) with
      | none =>
          simp only [hneg₃, hlog, if_false, pure, Except.pure, Except.ok.injEq,
            Prod.mk.injEq] at h
          omega
      | some log =>
          simp only [hneg₃, hlog, if_false, pure, Except.pure, Except.ok.injEq,
            Prod.mk.injEq] at h
          omega

/-- Files that can be read make the planner succeed with the folded diff. -/
theorem mcuCreateUpdateInstructions_of_reads {k : Kernel} {sys : Sys} {modpack version : Text}
    {p : PlanReads} (hp : p.ReadFrom k sys modpack version) (instr : Text) :
    ∃ sys', mcuCreateUpdateInstructions k sys instr modpack version =
      .ok ((0, p.instructions k modpack), sys') := by
  obtain ⟨sys₁, sys₂, r₁, r₂, hlatest, hlist1, hpos₁, htext₁, hlist2, hpos₂, htext₂⟩ := hp.latest
  obtain ⟨r₃, sys₃, hchanges, hpos₃, htext₃⟩ := hp.changes
  have hlog := hp.log
  rw [← htext₃] at hlog
  refine ⟨sys₃, ?_⟩
  simp [mcuCreateUpdateInstructions, bind, Except.bind, pure, Except.pure, hlatest, hlist1,
    hlist2, htext₁, htext₂, hchanges, hlog, Int.not_lt.mpr hpos₁, Int.not_lt.mpr hpos₂,
    Int.not_lt.mpr hpos₃, PlanReads.instructions]

end Server
end ModpackInstaller
