import ModpackInstaller.Library.Paths
import ModpackInstaller.Server.Reply

/-!
# The files behind the update commands

Which files {lit}`SITE VERS` and {lit}`SITE UINS` read, and where they are once
the dots in a path are resolved.  The names in a path come from the argument and
from the version file; the only check is for a slash.

Main results:

- Theorems {lit}`handleSiteVers_congr` and {lit}`handleSiteUins_congr`: the two
  commands see of the published files only what {lit}`reads` lists.
- Theorem {lit}`confined_iff`: every file that a command reads lies where it
  belongs, and a 216 reply is the text of a version file, exactly when the names
  are names of entries and the version file is a regular file.
- Theorem {lit}`confined_fails`: a modpack with the name of two dots reads the
  directory above the version files.
-/

namespace ModpackInstaller
namespace Server
namespace Confinement

open Library

/-! ## The files that are read -/

/-- The three kinds of published files. -/
inductive Kind where
  | version
  | listfile
  | change
deriving DecidableEq, Repr

/-- The directory of the files of a kind. -/
def Kind.home (modpack : Text) : Kind → List Text
  | .version => ["DATA".toList, "VERSION".toList]
  | .listfile => ["DATA".toList, "LISTFILE".toList, modpack]
  | .change => ["DATA".toList, "CHANGE".toList]

/-- What `mcu_create_update_instructions` gives to `str_fileread`, in order. -/
def planReads (k : Kernel) (sys : Sys) (modpack version : Text) : List (Kind × Text) :=
  (.version, versionPath modpack) ::
    match mcuGetLatestVersion k sys modpack with
    | .ok ((true, latest), sys) =>
      (.listfile, listfilePath modpack version) ::
        match strFileread k sys (listfilePath modpack version) listLimit with
        | .ok (list1, sys) =>
          if list1.retval < 0 then []
          else
            (.listfile, listfilePath modpack latest) ::
              match strFileread k sys (listfilePath modpack latest) listLimit with
              | .ok (list2, _) =>
                if list2.retval < 0 then [] else [(.change, changePath modpack)]
              | .error _ => []
        | .error _ => []
    | _ => []

/-- The two update commands. -/
inductive Request where
  | vers
  | uins
deriving DecidableEq, Repr

/-- The modpack that a command is about. -/
def Request.modpack (arg : Text) : Request → Text
  | .vers => arg
  | .uins => (strSplitChar arg ' ').1

/-- A command accepts its argument. -/
def Accepts (arg : Text) : Request → Prop
  | .vers => arg ≠ [] ∧ '/' ∉ arg
  | .uins => arg ≠ [] ∧ '/' ∉ arg ∧ (strSplitChar arg ' ').2 ≠ []

instance (arg : Text) : DecidablePred (Accepts arg)
  | .vers => inferInstanceAs (Decidable (_ ∧ _))
  | .uins => inferInstanceAs (Decidable (_ ∧ _ ∧ _))

/-- What a command gives to `str_fileread`; `checks` is the refusal of
`data_transfer_checks_ok`. -/
def reads (k : Kernel) (sys : Sys) (checks : Option Text) (arg : Text) :
    Request → List (Kind × Text)
  | .vers => if Accepts arg .vers then [(.version, versionPath arg)] else []
  | .uins =>
    if Accepts arg .uins ∧ checks = none then
      planReads k sys (strSplitChar arg ' ').1 (strSplitChar arg ' ').2
    else []

/-! ## Nothing else is seen -/

/-- A read depends on the kernel only through what the open gives. -/
theorem strFileread_congr {k k' : Kernel} {sys : Sys} {path : Text} {maxsize : Nat}
    (h : k'.openRead sys.clock path = k.openRead sys.clock path) :
    strFileread k' sys path maxsize = strFileread k sys path maxsize := by
  simp [strFileread, strOpen, h]

/-- Two states of the file system have the same copies of the files of a
modpack. -/
structure SameCopies (k k' : Kernel) (modpack : Text) : Prop where
  openRead : ∀ t file, k'.openRead t (cstr (serverPath modpack file)) =
    k.openRead t (cstr (serverPath modpack file))
  stat : ∀ t file, k'.stat t (cstr (serverPath modpack file)) =
    k.stat t (cstr (serverPath modpack file))

/-- The files of an update are the same where the kernel has the same copies. -/
theorem diffAdded_congr {k k' : Kernel} {modpack : Text} (h : SameCopies k k' modpack)
    (list1 : Text) (files : List Text) (sys : Sys) (instr : Text) :
    diffAdded k' modpack list1 files sys instr = diffAdded k modpack list1 files sys instr := by
  induction files generalizing sys instr with
  | nil => rfl
  | cons file files ih =>
      unfold diffAdded
      split
      · exact ih sys instr
      · have hopen : ∀ sys, strOpen k' sys (cstr (serverPath modpack file)) =
            strOpen k sys (cstr (serverPath modpack file)) := by
          intro sys
          simp [strOpen, h.openRead]
        have hstat : ∀ sys, strStat k' sys (cstr (serverPath modpack file)) =
            strStat k sys (cstr (serverPath modpack file)) := by
          intro sys
          simp [strStat, h.stat]
        simp only [hopen, hstat]
        exact ih _ _

/-- So is the whole difference of two lists. -/
theorem listDiff_congr {k k' : Kernel} {modpack : Text} (h : SameCopies k k' modpack) (sys : Sys)
    (list1 list2 : Text) :
    listDiff k' sys modpack list1 list2 = listDiff k sys modpack list1 list2 :=
  diffAdded_congr h list1 _ sys _

/-- The latest version depends on the version file alone. -/
theorem mcuGetLatestVersion_congr {k k' : Kernel} {sys : Sys} {modpack : Text}
    (h : k'.openRead sys.clock (versionPath modpack) = k.openRead sys.clock (versionPath modpack)) :
    mcuGetLatestVersion k' sys modpack = mcuGetLatestVersion k sys modpack := by
  rw [mcuGetLatestVersion, mcuGetLatestVersion, strFileread_congr h]

section PlanReads

variable {k : Kernel} {sys sys₁ sys₂ sys₃ : Sys} {modpack version latest : Text}
  {list1 list2 : FileRead}

/-- Every plan starts with the version file. -/
theorem version_mem_planReads :
    (Kind.version, versionPath modpack) ∈ planReads k sys modpack version :=
  List.mem_cons_self ..

/-- With a latest version at hand, the plan reads the list of the client's version. -/
theorem list1_mem_planReads
    (hlatest : mcuGetLatestVersion k sys modpack = .ok ((true, latest), sys₁)) :
    (Kind.listfile, listfilePath modpack version) ∈ planReads k sys modpack version := by
  rw [planReads, hlatest]
  exact List.mem_cons_of_mem _ (List.mem_cons_self ..)

/-- With that list read, the plan reads the list of the latest version. -/
theorem list2_mem_planReads
    (hlatest : mcuGetLatestVersion k sys modpack = .ok ((true, latest), sys₁))
    (hlist1 : strFileread k sys₁ (listfilePath modpack version) listLimit = .ok (list1, sys₂))
    (hpos₁ : ¬ list1.retval < 0) :
    (Kind.listfile, listfilePath modpack latest) ∈ planReads k sys modpack version := by
  rw [planReads, hlatest]
  simp only [hlist1, if_neg hpos₁]
  exact List.mem_cons_of_mem _ (List.mem_cons_of_mem _ (List.mem_cons_self ..))

/-- With both lists read, the plan reads the file of changes. -/
theorem change_mem_planReads
    (hlatest : mcuGetLatestVersion k sys modpack = .ok ((true, latest), sys₁))
    (hlist1 : strFileread k sys₁ (listfilePath modpack version) listLimit = .ok (list1, sys₂))
    (hpos₁ : ¬ list1.retval < 0)
    (hlist2 : strFileread k sys₂ (listfilePath modpack latest) listLimit = .ok (list2, sys₃))
    (hpos₂ : ¬ list2.retval < 0) :
    (Kind.change, changePath modpack) ∈ planReads k sys modpack version := by
  rw [planReads, hlatest]
  simp only [hlist1, if_neg hpos₁, hlist2, if_neg hpos₂]
  exact List.mem_cons_of_mem _ (List.mem_cons_of_mem _ (List.mem_cons_of_mem _
    (List.mem_cons_self ..)))

/-- Two continuations may differ where the first computation does not lead. -/
theorem bind_congr_ok {α β : Type} {x : Except Abort α} {f g : α → Except Abort β}
    (h : ∀ a, x = .ok a → f a = g a) : (x >>= f) = (x >>= g) := by
  cases x with
  | error e => rfl
  | ok a => exact h a rfl

/-- The planner sees the published files that {lit}`planReads` lists and the
copies of the mods. -/
theorem mcuCreateUpdateInstructions_congr {k' : Kernel} (hcopies : SameCopies k k' modpack)
    (hreads : ∀ t, ∀ read ∈ planReads k sys modpack version,
      k'.openRead t read.2 = k.openRead t read.2) (instr : Text) :
    mcuCreateUpdateInstructions k' sys instr modpack version =
      mcuCreateUpdateInstructions k sys instr modpack version := by
  unfold mcuCreateUpdateInstructions
  rw [mcuGetLatestVersion_congr (hreads _ _ version_mem_planReads)]
  refine bind_congr_ok fun ⟨⟨found, latest⟩, sys₁⟩ hlatest => ?_
  cases found with
  | false => rfl
  | true =>
      simp only [Bool.not_true, Bool.false_eq_true, if_false]
      rw [strFileread_congr (hreads _ _ (list1_mem_planReads hlatest))]
      refine bind_congr_ok fun ⟨list1, sys₂⟩ hlist1 => ?_
      by_cases hneg₁ : list1.retval < 0
      · simp only [hneg₁, if_true]
      simp only [hneg₁, if_false]
      rw [strFileread_congr (hreads _ _ (list2_mem_planReads hlatest hlist1 hneg₁))]
      refine bind_congr_ok fun ⟨list2, sys₃⟩ hlist2 => ?_
      by_cases hneg₂ : list2.retval < 0
      · simp only [hneg₂, if_true]
      have hchange := change_mem_planReads hlatest hlist1 hneg₁ hlist2 hneg₂
      simp only [hneg₂, if_false, listDiff_congr hcopies]
      rw [strFileread_congr (hreads _ _ hchange)]

end PlanReads

/-- `SITE VERS` sees nothing else. -/
theorem handleSiteVers_congr {k k' : Kernel} {sys : Sys} {checks : Option Text} {arg : Text}
    (h : ∀ t, ∀ read ∈ reads k sys checks arg .vers, k'.openRead t read.2 = k.openRead t read.2) :
    handleSiteVers k' sys arg = handleSiteVers k sys arg := by
  unfold handleSiteVers
  split_ifs with hempty hslash
  · rfl
  · rfl
  · have haccepts : Accepts arg .vers := ⟨by simpa using hempty, hslash⟩
    rw [mcuGetLatestVersion_congr (h _ (.version, versionPath arg) ?_)]
    rw [reads, if_pos haccepts]
    exact List.mem_cons_self ..

/-- `SITE UINS` sees nothing else up to its transfer, but for the copies of the
mods. -/
theorem handleSiteUins_congr {k k' : Kernel} {sys : Sys} {checks : Option Text} {arg : Text}
    (hcopies : SameCopies k k' (Request.modpack arg .uins))
    (h : ∀ t, ∀ read ∈ reads k sys checks arg .uins, k'.openRead t read.2 = k.openRead t read.2)
    (instr : Text) :
    handleSiteUins k' sys checks instr arg = handleSiteUins k sys checks instr arg := by
  unfold handleSiteUins
  dsimp only
  split_ifs with hempty hslash hversion
  · rfl
  · rfl
  · rfl
  · cases checks with
    | some reply => rfl
    | none =>
        have haccepts : Accepts arg .uins :=
          ⟨by simpa using hempty, hslash, by simpa using hversion⟩
        simp only [reads, haccepts, and_self, if_true] at h
        have hplan : mcuCreateUpdateInstructions k' sys instr (strSplitChar arg ' ').1
            (strSplitChar arg ' ').2 = mcuCreateUpdateInstructions k sys instr
              (strSplitChar arg ' ').1 (strSplitChar arg ' ').2 :=
          mcuCreateUpdateInstructions_congr hcopies h instr
        rw [hplan]

/-! ## Where the paths lead -/

/-- A read lies directly in the directory of its kind. -/
def Direct (modpack : Text) (read : Kind × Text) : Prop :=
  ∃ entry, placeOf [] read.2 = read.1.home modpack ++ [entry]

/-- A C string ends at its first NUL, so one without it is kept whole. -/
theorem cstr_append {s : Text} (h : nul ∉ s) (t : Text) : cstr (s ++ t) = s ++ cstr t :=
  List.takeWhile_append_of_pos (forall_ne_of_not_mem h)

/-- What stands behind a NUL is not part of the C string. -/
theorem cstr_append_of_mem {s : Text} (h : nul ∈ s) (t : Text) : cstr (s ++ t) = cstr s :=
  takeWhile_append_stop h (by simp) t

/-- Cutting at a NUL adds no slash. -/
theorem slash_not_mem_cstr {s : Text} (h : '/' ∉ s) : '/' ∉ cstr s :=
  fun hmem => h ((List.takeWhile_prefix _).subset hmem)

section Places

variable {modpack : Text} (hslash : '/' ∉ modpack)

include hslash

/-- Where the path of the version file leads, as a walk from its home. -/
theorem placeOf_versionPath :
    placeOf [] (versionPath modpack) =
      walk (Kind.version.home modpack) [Hop.ofName (cstr modpack)] := by
  have hpath : versionPath modpack =
      [] ++ '/' :: ("DATA".toList ++ '/' :: ("VERSION".toList ++ '/' :: cstr modpack)) :=
    cstr_append (by decide) modpack
  rw [hpath, placeOf_append_sep (by decide), placeOf_append_sep (by decide),
    placeOf_append_sep (by decide), placeOf_name (slash_not_mem_cstr hslash)]
  rfl

/-- Where the path of the file of changes leads. -/
theorem placeOf_changePath :
    placeOf [] (changePath modpack) =
      walk (Kind.change.home modpack) [Hop.ofName (cstr modpack)] := by
  have hpath : changePath modpack =
      [] ++ '/' :: ("DATA".toList ++ '/' :: ("CHANGE".toList ++ '/' :: cstr modpack)) :=
    cstr_append (by decide) modpack
  rw [hpath, placeOf_append_sep (by decide), placeOf_append_sep (by decide),
    placeOf_append_sep (by decide), placeOf_name (slash_not_mem_cstr hslash)]
  rfl

/-- Where the path of a list file leads. A NUL in the version cuts the suffix off too. -/
theorem placeOf_listfilePath {version : Text} (hversion : '/' ∉ version) (hnul : nul ∉ modpack) :
    placeOf [] (listfilePath modpack version) =
      walk ["DATA".toList, "LISTFILE".toList]
        [Hop.ofName modpack, Hop.ofName (cstr version)] := by
  have hpath : listfilePath modpack version =
      [] ++ '/' :: ("DATA".toList ++ '/' :: ("LISTFILE".toList ++ '/' ::
        (modpack ++ '/' :: cstr version))) := by
    have hprefix : nul ∉ "/DATA/LISTFILE/".toList ++ modpack ++ ['/'] := by
      rw [List.mem_append, List.mem_append]
      rintro ((h | h) | h)
      · exact absurd h (by decide)
      · exact hnul h
      · exact absurd h (by decide)
    rw [listfilePath, cstr_append hprefix]
    simp
  rw [hpath, placeOf_append_sep (by decide), placeOf_append_sep (by decide),
    placeOf_append_sep (by decide), placeOf_append_sep hslash,
    placeOf_name (slash_not_mem_cstr hversion)]
  rfl

/-- A NUL in the modpack cuts the version off. -/
theorem placeOf_listfilePath_of_nul (version : Text) (hnul : nul ∈ modpack) :
    placeOf [] (listfilePath modpack version) =
      walk ["DATA".toList, "LISTFILE".toList] [Hop.ofName (cstr modpack)] := by
  have hpath : listfilePath modpack version =
      [] ++ '/' :: ("DATA".toList ++ '/' :: ("LISTFILE".toList ++ '/' :: cstr modpack)) := by
    rw [listfilePath, List.append_assoc, List.append_assoc, cstr_append (by decide),
      cstr_append_of_mem hnul]
    rfl
  rw [hpath, placeOf_append_sep (by decide), placeOf_append_sep (by decide),
    placeOf_append_sep (by decide), placeOf_name (slash_not_mem_cstr hslash)]
  rfl

/-- The version file is directly in its home exactly if the modpack is a name. -/
theorem direct_versionPath :
    Direct modpack (.version, versionPath modpack) ↔ IsName (cstr modpack) := by
  rw [Direct, placeOf_versionPath hslash, walk_single]

/-- The same of the file of changes. -/
theorem direct_changePath :
    Direct modpack (.change, changePath modpack) ↔ IsName (cstr modpack) := by
  rw [Direct, placeOf_changePath hslash, walk_single]

/-- The path of a list file leads into the directory of its modpack exactly when
no NUL cuts it short and both names are names of entries. -/
theorem direct_listfilePath {version : Text} (hversion : '/' ∉ version)
    (hname : IsName (cstr modpack)) :
    Direct modpack (.listfile, listfilePath modpack version) ↔
      nul ∉ modpack ∧ IsName (cstr version) := by
  by_cases hnul : nul ∈ modpack
  · refine iff_of_false ?_ fun h => h.1 hnul
    rintro ⟨entry, hentry⟩
    rw [placeOf_listfilePath_of_nul hslash version hnul, ofName_of_isName hname] at hentry
    exact absurd (congrArg List.length hentry) (by simp [hop, Kind.home])
  · have hself : cstr modpack = modpack := (cstr_eq_self_iff modpack).mpr hnul
    rw [hself] at hname
    rw [Direct, placeOf_listfilePath hslash hversion hnul, ofName_of_isName hname, walk_cons]
    simp only [hnul, not_false_eq_true, true_and]
    exact walk_single

end Places

/-! ## What is found there -/

/-- `str_fileread` succeeds with the path at this moment. -/
def Readable (k : Kernel) (t : Nat) (path : Text) (maxsize : Nat) : Prop :=
  ∃ file read, k.openRead t path = some file ∧ readOpened file maxsize = .ok read ∧
    0 ≤ read.retval

/-- The version file of a modpack is a regular file when it can be opened. -/
def VersionRegular (k : Kernel) (t : Nat) (modpack : Text) : Prop :=
  ∀ file, k.openRead t (versionPath modpack) = some file → file.type = .regular

/-- A read that does not fail was of a readable file. -/
theorem strFileread_readable {k : Kernel} {sys sys' : Sys} {path : Text} {maxsize : Nat}
    {read : FileRead} (h : strFileread k sys path maxsize = .ok (read, sys'))
    (hpos : ¬ read.retval < 0) : Readable k sys.clock path maxsize := by
  rcases (strFileread_cases h).2 with ⟨-, rfl⟩ | ⟨file, hopen, hread⟩
  · exact absurd hpos (by simp)
  · exact ⟨file, read, hopen, hread, by omega⟩

/-- A readable file is read without a failure. -/
theorem strFileread_of_readable {k : Kernel} {sys : Sys} {path : Text} {maxsize : Nat}
    (h : Readable k sys.clock path maxsize) :
    ∃ read sys', strFileread k sys path maxsize = .ok (read, sys') ∧ ¬ read.retval < 0 := by
  obtain ⟨file, read, hopen, hread, hpos⟩ := h
  refine ⟨read, sysClose (strOpen k sys path).2 (freshFd sys.fds), ?_, by omega⟩
  simp [strFileread, strOpen, hopen, hread]

/-- A modpack that is found has a version file that can be read. -/
theorem mcuGetLatestVersion_found {k : Kernel} {sys sys' : Sys} {modpack latest : Text}
    (h : mcuGetLatestVersion k sys modpack = .ok ((true, latest), sys')) :
    sys'.clock = sys.clock + 1 ∧
      ∃ file read, k.openRead sys.clock (versionPath modpack) = some file ∧
        readOpened file 40 = .ok read ∧ 0 ≤ read.retval ∧
        latest = strReplaceText read.text ['\n'] [] := by
  unfold mcuGetLatestVersion at h
  split at h
  · cases h
  · rename_i read sys₁ hread
    simp only [Except.ok.injEq, Prod.mk.injEq, decide_eq_true_eq] at h
    obtain ⟨⟨hpos, rfl⟩, rfl⟩ := h
    obtain ⟨hsys, ⟨-, rfl⟩ | ⟨file, hopen, hopened⟩⟩ := strFileread_cases hread
    · exact absurd hpos (by simp)
    · exact ⟨by rw [hsys], file, read, hopen, hopened, hpos, rfl⟩

/-- A readable version file gives a latest version. -/
theorem mcuGetLatestVersion_of_readable {k : Kernel} {sys : Sys} {modpack : Text}
    (h : Readable k sys.clock (versionPath modpack) 40) :
    ∃ latest sys', mcuGetLatestVersion k sys modpack = .ok ((true, latest), sys') := by
  obtain ⟨read, sys', hread, hpos⟩ := strFileread_of_readable h
  refine ⟨strReplaceText read.text ['\n'] [], sys', ?_⟩
  rw [mcuGetLatestVersion, hread]
  simp [Int.not_lt.mp hpos]

/-- Anything that is not a regular file reads as an empty text. -/
theorem readOpened_of_not_regular {file : OpenFile} {maxsize : Nat} (h : file.type ≠ .regular) :
    readOpened file maxsize = .ok ⟨0, []⟩ := by
  rw [readOpened, if_neg h]

/-- A plain version name. -/
def PlainName (version : Text) : Prop :=
  IsName version ∧ '/' ∉ version ∧ nul ∉ version

instance : DecidablePred PlainName := fun _ => inferInstanceAs (Decidable (_ ∧ _))

/-- The version files hold plain names. -/
def PlainVersions (k : Kernel) : Prop :=
  ∀ t modpack file read, Direct modpack (.version, versionPath modpack) →
    k.openRead t (versionPath modpack) = some file → file.type = .regular →
    readOpened file 40 = .ok read → 0 ≤ read.retval →
    PlainName (strReplaceText read.text ['\n'] [])

/-! ## Confinement -/

/-- A 216 reply is the text of a version file. -/
def SendsVersion (k : Kernel) (sys : Sys) (arg : Text) : Prop :=
  ∀ reply sys', handleSiteVers k sys arg = .ok (reply, sys') →
    (∃ version, reply = vsfCmdioWrite 216 version) →
    Direct arg (.version, versionPath arg) ∧
      ∃ file read, k.openRead sys.clock (versionPath arg) = some file ∧ file.type = .regular ∧
        readOpened file 40 = .ok read ∧
        reply = vsfCmdioWrite 216 (strReplaceText read.text ['\n'] [])

/-- Every file that the command reads lies where it belongs, and a 216 reply is
the text of a version file. -/
def Confined (k : Kernel) (sys : Sys) (checks : Option Text) (arg : Text) (r : Request) : Prop :=
  (∀ read ∈ reads k sys checks arg r, Direct (r.modpack arg) read) ∧
    (r = .vers → SendsVersion k sys arg)

/-- The names of a request are names of entries, and the version file is not a
directory or a device.  The version that the client states counts once the
version file could be read, and the latest version once the list file of the
stated one could be read. -/
def PlainRequest (k : Kernel) (sys : Sys) (checks : Option Text) (arg : Text) : Request → Prop
  | .vers => Accepts arg .vers → IsName (cstr arg) ∧ VersionRegular k sys.clock arg
  | .uins =>
    let (modpack, version) := strSplitChar arg ' '
    Accepts arg .uins → checks = none →
      IsName (cstr modpack) ∧
        (Readable k sys.clock (versionPath modpack) 40 →
          nul ∉ modpack ∧ IsName (cstr version) ∧
            (Readable k (sys.clock + 1) (listfilePath modpack version) listLimit →
              VersionRegular k sys.clock modpack))

/-- A reply with another code is not a 216 reply. -/
theorem vsfCmdioWrite_ne {status : Nat} (h : (Nat.toDigits 10 status).head? = some '5')
    (text version : Text) : vsfCmdioWrite status text ≠ vsfCmdioWrite 216 version := by
  intro heq
  have hhead := congrArg List.head? heq
  have h216 : (Nat.toDigits 10 216).head? = some '2' := by decide
  simp only [vsfCmdioWrite, ftpWriteStrCommon, replyLine, List.append_assoc, List.head?_append, h,
    h216, Option.some_or, Option.some.injEq] at hhead
  exact absurd hhead (by decide)

/-- The reply of `SITE VERS` to an argument that it accepts. -/
theorem sendsVersion_iff {k : Kernel} {sys : Sys} {arg : Text} (haccepts : Accepts arg .vers)
    (hdirect : Direct arg (.version, versionPath arg)) :
    SendsVersion k sys arg ↔ VersionRegular k sys.clock arg := by
  have hempty : ¬ arg.isEmpty = true := by simpa using haccepts.1
  constructor
  · intro hsends file hopen
    by_contra hregular
    have hread : Readable k sys.clock (versionPath arg) 40 :=
      ⟨file, ⟨0, []⟩, hopen, readOpened_of_not_regular hregular, by simp⟩
    obtain ⟨latest, sys', hlatest⟩ := mcuGetLatestVersion_of_readable hread
    have hreply : handleSiteVers k sys arg = .ok (vsfCmdioWrite 216 latest, sys') := by
      rw [handleSiteVers, if_neg hempty, if_neg haccepts.2, hlatest]
    obtain ⟨-, file', -, hopen', hregular', -⟩ := hsends _ _ hreply ⟨latest, rfl⟩
    rw [hopen, Option.some.injEq] at hopen'
    exact hregular (hopen' ▸ hregular')
  · rintro hregular reply sys' hreply ⟨version, hversion⟩
    refine ⟨hdirect, ?_⟩
    rw [handleSiteVers, if_neg hempty, if_neg haccepts.2] at hreply
    split at hreply
    · cases hreply
    · simp only [Except.ok.injEq, Prod.mk.injEq] at hreply
      exact absurd (hreply.1.trans hversion) (vsfCmdioWrite_ne (by decide) _ _)
    · rename_i latest sys₁ hlatest
      obtain ⟨-, file, read, hopen, hread, -, rfl⟩ := mcuGetLatestVersion_found hlatest
      simp only [Except.ok.injEq, Prod.mk.injEq] at hreply
      exact ⟨file, read, hopen, hregular file hopen, hread, hreply.1.symm⟩

/-- The latest version that was found is that of the version file. -/
theorem latest_cases {k : Kernel} {sys sys' : Sys} {modpack latest : Text}
    (hplain : PlainVersions k) (hdirect : Direct modpack (.version, versionPath modpack))
    (h : mcuGetLatestVersion k sys modpack = .ok ((true, latest), sys')) :
    (VersionRegular k sys.clock modpack → PlainName latest) ∧
      (¬ VersionRegular k sys.clock modpack → latest = []) := by
  obtain ⟨-, file, read, hopen, hread, hpos, rfl⟩ := mcuGetLatestVersion_found h
  constructor
  · intro hregular
    exact hplain _ _ _ _ hdirect hopen (hregular file hopen) hread hpos
  · intro hnot
    have hirregular : file.type ≠ .regular := by
      intro htype
      refine hnot fun file' hopen' => ?_
      rw [hopen, Option.some.injEq] at hopen'
      exact hopen' ▸ htype
    rw [readOpened_of_not_regular hirregular, Except.ok.injEq] at hread
    rw [← hread]
    rfl

/-- The reads of the planner are direct exactly when the names are names of
entries. -/
theorem planReads_direct_iff {k : Kernel} {sys : Sys} {modpack version : Text}
    (hplain : PlainVersions k) (hmodpack : '/' ∉ modpack) (hversion : '/' ∉ version) :
    (∀ read ∈ planReads k sys modpack version, Direct modpack read) ↔
      IsName (cstr modpack) ∧
        (Readable k sys.clock (versionPath modpack) 40 →
          nul ∉ modpack ∧ IsName (cstr version) ∧
            (Readable k (sys.clock + 1) (listfilePath modpack version) listLimit →
              VersionRegular k sys.clock modpack)) := by
  constructor
  · intro h
    have hdirect := h _ version_mem_planReads
    have hname := (direct_versionPath hmodpack).mp hdirect
    refine ⟨hname, fun hreadable => ?_⟩
    obtain ⟨latest, sys₁, hlatest⟩ := mcuGetLatestVersion_of_readable hreadable
    obtain ⟨hnul, hentry⟩ :=
      (direct_listfilePath hmodpack hversion hname).mp (h _ (list1_mem_planReads hlatest))
    refine ⟨hnul, hentry, fun hreadable₁ => ?_⟩
    rw [← (mcuGetLatestVersion_found hlatest).1] at hreadable₁
    obtain ⟨list1, sys₂, hlist1, hpos₁⟩ := strFileread_of_readable hreadable₁
    by_contra hnot
    obtain rfl := (latest_cases hplain hdirect hlatest).2 hnot
    have hlist2 := (direct_listfilePath hmodpack (by simp) hname).mp
      (h _ (list2_mem_planReads hlatest hlist1 hpos₁))
    exact hlist2.2.1 rfl
  · rintro ⟨hname, hrest⟩ read hmem
    have hdirect := (direct_versionPath hmodpack).mpr hname
    unfold planReads at hmem
    rcases List.mem_cons.mp hmem with rfl | hmem
    · exact hdirect
    split at hmem
    · rename_i latest sys₁ hlatest
      obtain ⟨hclock, file, read₀, hopen, hread₀, hpos₀, -⟩ := mcuGetLatestVersion_found hlatest
      obtain ⟨hnul, hentry, hregular⟩ := hrest ⟨file, read₀, hopen, hread₀, hpos₀⟩
      rcases List.mem_cons.mp hmem with rfl | hmem
      · exact (direct_listfilePath hmodpack hversion hname).mpr ⟨hnul, hentry⟩
      split at hmem
      · rename_i list1 sys₂ hlist1
        split at hmem
        · cases hmem
        · rename_i hpos₁
          have hreadable := strFileread_readable hlist1 hpos₁
          rw [hclock] at hreadable
          obtain ⟨hlatestName, hslash, hfree⟩ :=
            (latest_cases hplain hdirect hlatest).1 (hregular hreadable)
          have hself : cstr latest = latest := (cstr_eq_self_iff latest).mpr hfree
          rcases List.mem_cons.mp hmem with rfl | hmem
          · exact (direct_listfilePath hmodpack hslash hname).mpr ⟨hnul, hself.symm ▸ hlatestName⟩
          split at hmem
          · split at hmem
            · cases hmem
            · rw [List.mem_singleton.mp hmem]
              exact (direct_changePath hmodpack).mpr hname
          · cases hmem
      · cases hmem
    · cases hmem

/-- SITE VERS stays confined exactly for plain requests. -/
theorem confined_vers {k : Kernel} {sys : Sys} {checks : Option Text} {arg : Text} :
    Confined k sys checks arg .vers ↔ PlainRequest k sys checks arg .vers := by
  unfold Confined PlainRequest
  by_cases haccepts : Accepts arg .vers
  · have hreads : (∀ read ∈ reads k sys checks arg .vers, Direct arg read) ↔
        Direct arg (.version, versionPath arg) := by
      rw [reads, if_pos haccepts]
      simp only [List.mem_singleton, forall_eq]
    simp only [Request.modpack, hreads, haccepts, true_implies]
    rw [← direct_versionPath haccepts.2]
    exact and_congr_right fun hdirect => sendsVersion_iff haccepts hdirect
  · refine iff_of_true ⟨?_, fun _ => ?_⟩ fun h => absurd h haccepts
    · rw [reads, if_neg haccepts]
      simp
    · rintro reply sys' hreply ⟨version, rfl⟩
      unfold handleSiteVers at hreply
      split_ifs at hreply with hempty hslash
      · simp only [Except.ok.injEq, Prod.mk.injEq] at hreply
        exact absurd hreply.1 (vsfCmdioWrite_ne (by decide) _ _)
      · simp only [Except.ok.injEq, Prod.mk.injEq] at hreply
        exact absurd hreply.1 (vsfCmdioWrite_ne (by decide) _ _)
      · exact absurd ⟨by simpa using hempty, hslash⟩ haccepts

/-- SITE UINS stays confined exactly for plain requests, as long as the version files hold plain
versions. -/
theorem confined_uins {k : Kernel} {sys : Sys} {checks : Option Text} {arg : Text}
    (hplain : PlainVersions k) :
    Confined k sys checks arg .uins ↔ PlainRequest k sys checks arg .uins := by
  unfold Confined PlainRequest
  simp only [reduceCtorEq, false_implies, and_true]
  by_cases haccepts : Accepts arg .uins ∧ checks = none
  · have hhalves : '/' ∉ (strSplitChar arg ' ').1 ∧ '/' ∉ (strSplitChar arg ' ').2 :=
      not_mem_strSplitChar haccepts.1.2.1
    obtain ⟨hmodpack, hversion⟩ := hhalves
    simp only [reads, haccepts, and_self, if_true, true_implies]
    exact planReads_direct_iff hplain hmodpack hversion
  · refine iff_of_true ?_ fun h hchecks => absurd ⟨h, hchecks⟩ haccepts
    rw [reads, if_neg haccepts]
    simp

/-- A command is confined exactly when its names are names of entries and the
version file is a regular file. -/
theorem confined_iff {k : Kernel} (hplain : PlainVersions k) (sys : Sys) (checks : Option Text)
    (arg : Text) (r : Request) :
    Confined k sys checks arg r ↔ PlainRequest k sys checks arg r := by
  cases r with
  | vers => exact confined_vers
  | uins => exact confined_uins hplain

/-- A server with one modpack. -/
def oneModpack : Kernel where
  openRead _ path :=
    if path = "/DATA/VERSION/m".toList then some (.ofText "v\n".toList)
    else if path = "/DATA/VERSION/..".toList then some ⟨.directory, 4096, none⟩
    else none
  stat _ _ := none

/-- The one version that this kernel hands out is plain. -/
theorem oneModpack_plain : PlainVersions oneModpack := by
  intro t modpack file read _ hopen hregular hread _
  unfold oneModpack at hopen
  dsimp only at hopen
  split_ifs at hopen
  · rw [← Option.some.inj hopen] at hread
    have hv : read = ⟨2, "v\n".toList⟩ := (Except.ok.inj hread).symm
    rw [hv]
    decide
  · rw [← Option.some.inj hopen] at hregular
    cases hregular

/-- A kernel with the one modpack `m`. -/
theorem confined_oneModpack :
    PlainVersions oneModpack ∧
      (Confined oneModpack ⟨0, []⟩ none "m".toList .vers ↔
        PlainRequest oneModpack ⟨0, []⟩ none "m".toList .vers) :=
  ⟨oneModpack_plain, confined_iff oneModpack_plain ⟨0, []⟩ none "m".toList .vers⟩

/-- Two dots are accepted as a modpack, and the directory above the version files
is reported as its version. -/
theorem confined_fails :
    PlainVersions oneModpack ∧ Accepts "..".toList .vers ∧
      handleSiteVers oneModpack ⟨0, []⟩ "..".toList = .ok (vsfCmdioWrite 216 [], ⟨1, []⟩) ∧
      placeOf [] (versionPath "..".toList) = ["DATA".toList] ∧
      ¬ Confined oneModpack ⟨0, []⟩ none "..".toList .vers := by
  refine ⟨oneModpack_plain, by decide, rfl, by decide, ?_⟩
  rintro ⟨hdirect, -⟩
  have hversion : Direct "..".toList (.version, versionPath "..".toList) :=
    hdirect _ (List.mem_cons_self ..)
  rw [direct_versionPath (by decide)] at hversion
  exact absurd hversion (by decide)

end Confinement
end Server
end ModpackInstaller
