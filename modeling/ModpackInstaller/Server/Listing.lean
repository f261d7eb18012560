import Mathlib.Data.List.Sort
import ModpackInstaller.Server.Filter

/-!
# Directory listings

{lit}`ls.c` makes the lines of a listing, {lit}`strlist.c` sorts them, and {lit}`ftpdataio.c`
writes them in pieces of a buffer and goes down into directories.

Main results:

- Theorem {lit}`vsfLsPopulateDirList_eq_of_perm`: without times the listing depends neither on the
  order of the directory nor on the sorting.
- Theorem {lit}`transferDirInternal_eq_of_sameShown`: what is hidden, and what is below it, leaves
  no trace in a listing.
- Theorem {lit}`transferDirInternal_writes`: whatever writes fail, what arrives is a beginning of
  the whole listing, and the whole exactly when success is reported.
-/

namespace ModpackInstaller
namespace Server
namespace Listing

open Library Server.Filter Control.AddressExchange

/-! ## Lines -/

/-- What `lstat` says, with the texts that are made of it. -/
structure Statbuf where
  isDir : Bool
  isSymlink : Bool
  /-- `vsf_sysutil_statbuf_get_sortkey_mtime` -/
  sortkeyMtime : Text
  /-- `vsf_sysutil_statbuf_get_perms` -/
  perms : Text
  links : Nat
  uid : Nat
  gid : Nat
  size : Nat
  /-- `vsf_sysutil_statbuf_get_date` -/
  date : Text
deriving DecidableEq, Repr

/-- A name as directories have them. -/
def ProperName (name : Text) : Prop :=
  name ≠ [] ∧ '/' ∉ name

instance : DecidablePred ProperName :=
  fun _ => inferInstanceAs (Decidable (_ ∧ _))

/-- Directories, files and symbolic links by their paths. -/
structure Disk where
  opendir : Text → Option (List Text)
  lstat : Text → Option Statbuf
  readlink : Text → Option Text
  proper : ∀ path names, opendir path = some names → ∀ name ∈ names, ProperName name

/-- The tunables, and the names of users and groups. -/
structure Config where
  forceDotFiles : Bool
  hideFile : Option Text
  lsRecurseEnable : Bool
  hideIds : Bool
  textUserdbNames : Bool
  userName : Nat → Option Text
  groupName : Nat → Option Text

/-- The argument of the command, taken apart. -/
structure Request where
  option : Text
  filter : Text
  isVerbose : Bool

/-- `str_lpad` -/
def strLpad (s : Text) (minWidth : Nat) : Text :=
  List.replicate (minWidth - s.length) ' ' ++ s

/-- `str_rpad` -/
def strRpad (s : Text) (minWidth : Nat) : Text :=
  s ++ List.replicate (minWidth - s.length) ' '

variable (disk : Disk) (cfg : Config) (req : Request)

/-- The user or the group in a line. -/
def ownerText (name : Nat → Option Text) (id : Nat) : Text :=
  if cfg.hideIds then "ftp".toList
  else
    match if cfg.textUserdbNames then name id else none with
    | none => decimal id
    | some name => name

/-- `build_dir_line` -/
def buildDirLine (filename : Text) (st : Statbuf) : Text :=
  st.perms ++ [' '] ++ strLpad (decimal st.links) 4 ++ [' '] ++
    strRpad (ownerText cfg cfg.userName st.uid) 8 ++ [' '] ++
    strRpad (ownerText cfg cfg.groupName st.gid) 8 ++ [' '] ++
    strLpad (decimal st.size) 8 ++ [' '] ++ st.date ++ [' '] ++ filename ++ "\r\n".toList

/-- `struct mystr_list_node` -/
structure Node where
  str : Text
  sortKeyStr : Text
deriving DecidableEq, Repr

namespace Request

/-- `a_option`, which a filter with a dot in front implies. -/
def aOption : Bool :=
  'a' ∈ req.option || req.filter.head? = some '.'

def tOption : Bool := 't' ∈ req.option

/-- `r_option`, the other way round for times. -/
def rOption : Bool :=
  if req.tOption then !('r' ∈ req.option : Bool) else 'r' ∈ req.option

def fOption : Bool := 'F' ∈ req.option

/-- `is_verbose` -/
def verbose : Bool :=
  req.isVerbose || 'l' ∈ req.option

end Request

/-- `p_subdir_list` is there. -/
def recursing : Bool :=
  'R' ∈ req.option && cfg.lsRecurseEnable

/-- `normalised_base_dir_str` -/
def normalisedBaseDir (baseDir : Text) : Text :=
  let base := if baseDir = ".".toList then [] else baseDir
  if base ≠ [] ∧ base.getLast? ≠ some '/' then base ++ ['/'] else base

/-- A name is shown, as far as the name alone decides. -/
def shown (name : Text) : Bool :=
  !(name.head? = some '.' && !req.aOption &&
      (!cfg.forceDotFiles || name = ".".toList || name = "..".toList)) &&
    vsfAccessCheckFileVisible cfg.hideFile name &&
    (req.filter = [] || vsfFilenamePassesFilter name req.filter)

/-- The line of an entry; `st` is there when it is looked at. -/
def dirLine (path name : Text) (st : Option Statbuf) : Text :=
  match st, req.verbose with
  | some st, true =>
    let target :=
      match if st.isSymlink then disk.readlink path else none with
      | some target => if target = [] then [] else " -> ".toList ++ target
      | none => []
    let slash := if req.fOption && st.isDir then ['/'] else []
    buildDirLine cfg (name ++ target ++ slash) st
  | st, _ =>
    let mark :=
      match st with
      | some st =>
        if req.fOption then if st.isDir then ['/'] else if st.isSymlink then ['@'] else [] else []
      | none => []
    path ++ mark ++ "\r\n".toList

/-- An iteration of the loop of `vsf_ls_populate_dir_list`: the nodes that are added to the two
lists. -/
def listEntry (base name : Text) : Option (Node × Option Node) :=
  if !shown cfg req name then none
  else
    let path := base ++ name
    let doStat := req.verbose || req.tOption || req.fOption || recursing cfg req
    match if doStat then (disk.lstat path).map some else some none with
    | none => none
    | some st =>
      let mtime := (st.map (·.sortkeyMtime)).getD []
      let line := dirLine disk cfg req path name st
      some (⟨line, if req.tOption then mtime else name⟩,
        if recursing cfg req && (st.map (·.isDir)).getD false then
          some ⟨name, if req.tOption then mtime else []⟩
        else none)

/-- `str_strcmp` is not positive: the shorter text is in front of its extensions. -/
def strcmpLe : Text → Text → Bool
  | [], _ => true
  | _ :: _, [] => false
  | c :: cs, d :: ds => c.toNat < d.toNat || (c.toNat = d.toNat && strcmpLe cs ds)

/-- What a node is sorted by. -/
def Node.key (n : Node) : Text :=
  if n.sortKeyStr ≠ [] then n.sortKeyStr else n.str

/-- `sort_compare_func` and `sort_compare_func_reverse` -/
def sortLe (reverse : Bool) (n₁ n₂ : Node) : Bool :=
  if reverse then strcmpLe n₂.key n₁.key else strcmpLe n₁.key n₂.key

/-- `qsort`: nothing is said of the order of equal elements. -/
structure Qsort where
  sort : (Node → Node → Bool) → List Node → List Node
  perm : ∀ le nodes, (sort le nodes).Perm nodes
  pairwise : ∀ le, (∀ a b c, le a b → le b c → le a c) → (∀ a b, le a b || le b a) →
    ∀ nodes, (sort le nodes).Pairwise (le · ·)

/-- A `qsort` that is a merge sort. -/
def Qsort.merge : Qsort where
  sort le nodes := nodes.mergeSort le
  perm le nodes := List.mergeSort_perm nodes le
  pairwise _ trans total nodes := List.pairwise_mergeSort trans total nodes

variable (q : Qsort)

/-- `str_list_sort` -/
def strListSort (reverse : Bool) (nodes : List Node) : List Node :=
  q.sort (sortLe reverse) nodes

/-- What the loop of `vsf_ls_populate_dir_list` goes through: an empty name ends it. -/
def entries (names : List Text) (baseDir : Text) : List (Node × Option Node) :=
  (names.takeWhile (· ≠ [])).filterMap (listEntry disk cfg req (normalisedBaseDir baseDir))

/-- `vsf_ls_populate_dir_list`: the lines and the directories below. -/
def vsfLsPopulateDirList (names : List Text) (baseDir : Text) : List Node × List Node :=
  (strListSort q req.rOption ((entries disk cfg req names baseDir).map (·.1)),
    strListSort q req.rOption ((entries disk cfg req names baseDir).filterMap (·.2)))

/-! ## Writing -/

/-- What has been written, and in how many writes. -/
structure Out where
  sent : Text
  writes : Nat
deriving DecidableEq, Repr

/-- How a listing ends early. -/
inductive Stop where
  | bug (text : String)
  | tooDeep
deriving DecidableEq, Repr

/-- Which writes fail, and behind how many bytes at most: `vsf_sysutil_write_loop` does not ask
again behind the last byte, so that a failing write leaves at least this one out. -/
abbrev Net := Nat → Option Nat

variable (net : Net)

/-- `ftp_write_str` on a socket, `str_netfd_write`; whether it fails. -/
def ftpWriteStr (out : Out) (s : Text) : Except Stop (Bool × Out) :=
  if s = [] then .error (.bug "zero str_len in str_netfd_write")
  else
    match net out.writes with
    | none => .ok (false, ⟨out.sent ++ s, out.writes + 1⟩)
    | some n => .ok (true, ⟨out.sent ++ s.dropLast.take n, out.writes + 1⟩)

/-- What comes next is left out behind a failure. -/
def unlessFailed (result : Except Stop (Bool × Out)) (next : Out → Except Stop (Bool × Out)) :
    Except Stop (Bool × Out) :=
  match result with
  | .ok (false, out) => next out
  | stopped => stopped

/-- `VSFTP_DIR_BUFSIZE` -/
def dirBufsize : Nat := 16384

/-- The loop of `write_dir_list`. -/
def writeDirList (buf : Text) : List Text → Out → Except Stop (Bool × Out)
  | [], out => .ok (false, out)
  | line :: more, out =>
    if more = [] ∨ dirBufsize < (buf ++ line).length + (more.headD []).length then
      unlessFailed (ftpWriteStr net out (buf ++ line)) (writeDirList [] more)
    else writeDirList (buf ++ line) more out

/-- The loop over the directories below. -/
def overSubdirs (transfer : Text → List Text → Out → Except Stop (Bool × Out)) (baseDir : Text) :
    List Node → Out → Except Stop (Bool × Out)
  | [], out => .ok (false, out)
  | subdir :: more, out =>
    if subdir.str = ".".toList ∨ subdir.str = "..".toList then
      overSubdirs transfer baseDir more out
    else
      match disk.opendir (baseDir ++ ['/'] ++ subdir.str) with
      | none => overSubdirs transfer baseDir more out
      | some names =>
        unlessFailed (ftpWriteStr net out "\r\n".toList) fun out =>
          unlessFailed (transfer (baseDir ++ ['/'] ++ subdir.str) names out)
            (overSubdirs transfer baseDir more)

/-- `transfer_dir_internal`, going down so many directories at most. -/
def transferDirInternal : Nat → Text → List Text → Out → Except Stop (Bool × Out)
  | 0, _, _, _ => .error .tooDeep
  | depth + 1, baseDir, names, out =>
    let lists := vsfLsPopulateDirList disk cfg req q names baseDir
    let lines := lists.1.map (·.str)
    if recursing cfg req then
      unlessFailed (ftpWriteStr net out (baseDir ++ ":\r\n".toList)) fun out =>
        unlessFailed (writeDirList net [] lines out)
          (overSubdirs disk net (transferDirInternal depth) baseDir lists.2)
    else writeDirList net [] lines out

/-! ## What is listed, and in what order -/

/-- Any two names compare one way or the other. -/
theorem strcmpLe_total (a b : Text) : (strcmpLe a b || strcmpLe b a) = true := by
  induction a generalizing b with
  | nil => rfl
  | cons c cs ih =>
    cases b with
    | nil => rfl
    | cons d ds =>
      have htail := ih ds
      simp only [strcmpLe, Bool.or_eq_true, Bool.and_eq_true, decide_eq_true_eq] at htail ⊢
      rcases Nat.lt_trichotomy c.toNat d.toNat with h | h | h
      · exact Or.inl (Or.inl h)
      · rcases htail with htail | htail
        · exact Or.inl (Or.inr ⟨h, htail⟩)
        · exact Or.inr (Or.inr ⟨h.symm, htail⟩)
      · exact Or.inr (Or.inl h)

/-- The order of the names is transitive. -/
theorem strcmpLe_trans {a b c : Text} (hab : strcmpLe a b = true) (hbc : strcmpLe b c = true) :
    strcmpLe a c = true := by
  induction a generalizing b c with
  | nil => rfl
  | cons x xs ih =>
    cases b with
    | nil => simp [strcmpLe] at hab
    | cons y ys =>
      cases c with
      | nil => simp [strcmpLe] at hbc
      | cons z zs =>
        have := @ih ys zs
        simp only [strcmpLe, Bool.or_eq_true, Bool.and_eq_true, decide_eq_true_eq] at hab hbc ⊢
        rcases hab with h₁ | ⟨h₁, h₂⟩ <;> rcases hbc with h₃ | ⟨h₃, h₄⟩
        · omega
        · omega
        · omega
        · exact Or.inr ⟨by omega, this h₂ h₄⟩

/-- Names that compare both ways are the same name: characters are compared by their codes. -/
theorem strcmpLe_antisymm {a b : Text} (hab : strcmpLe a b = true) (hba : strcmpLe b a = true) :
    a = b := by
  induction a generalizing b with
  | nil =>
    cases b with
    | nil => rfl
    | cons d ds => simp [strcmpLe] at hba
  | cons c cs ih =>
    cases b with
    | nil => simp [strcmpLe] at hab
    | cons d ds =>
      simp only [strcmpLe, Bool.or_eq_true, Bool.and_eq_true, decide_eq_true_eq] at hab hba
      rcases hab with h₁ | ⟨h₁, h₂⟩
      · omega
      · rcases hba with h₃ | ⟨_, h₄⟩
        · omega
        · rw [ih h₂ h₄, Char.toNat_inj.mp h₁]

/-- The order of a listing is transitive, reversed or not. -/
theorem sortLe_trans (reverse : Bool) {n₁ n₂ n₃ : Node} (h₁₂ : sortLe reverse n₁ n₂ = true)
    (h₂₃ : sortLe reverse n₂ n₃ = true) : sortLe reverse n₁ n₃ = true := by
  cases reverse with
  | false => exact strcmpLe_trans h₁₂ h₂₃
  | true => exact strcmpLe_trans h₂₃ h₁₂

/-- The order of a listing is total, reversed or not. -/
theorem sortLe_total (reverse : Bool) (n₁ n₂ : Node) :
    (sortLe reverse n₁ n₂ || sortLe reverse n₂ n₁) = true := by
  cases reverse with
  | false => exact strcmpLe_total _ _
  | true => exact strcmpLe_total _ _

/-- Nodes that are sorted neither way have one key. -/
theorem key_eq_of_sortLe {reverse : Bool} {n₁ n₂ : Node} (h₁₂ : sortLe reverse n₁ n₂ = true)
    (h₂₁ : sortLe reverse n₂ n₁ = true) : n₁.key = n₂.key := by
  cases reverse with
  | false => exact strcmpLe_antisymm h₁₂ h₂₁
  | true => exact strcmpLe_antisymm h₂₁ h₁₂

/-- Sorting keeps the nodes, whatever qsort does with equal ones. -/
theorem strListSort_perm (reverse : Bool) (nodes : List Node) :
    (strListSort q reverse nodes).Perm nodes :=
  q.perm _ nodes

/-- Sorting puts the nodes in order. -/
theorem strListSort_pairwise (reverse : Bool) (nodes : List Node) :
    (strListSort q reverse nodes).Pairwise (sortLe reverse · ·) :=
  q.pairwise (sortLe reverse) (fun _ _ _ h₁ h₂ => sortLe_trans reverse h₁ h₂)
    (sortLe_total reverse) nodes

/-- Where the keys tell the nodes apart, every sort gives one order. -/
theorem strListSort_eq_of_perm (q' : Qsort) (reverse : Bool) {nodes nodes' : List Node}
    (hperm : nodes.Perm nodes')
    (hkey : ∀ n₁ ∈ nodes, ∀ n₂ ∈ nodes, n₁.key = n₂.key → n₁ = n₂) :
    strListSort q reverse nodes = strListSort q' reverse nodes' := by
  have hsorted : (strListSort q reverse nodes).Perm (strListSort q' reverse nodes') :=
    ((strListSort_perm q reverse nodes).trans hperm).trans
      (strListSort_perm q' reverse nodes').symm
  apply hsorted.eq_of_pairwise _ (strListSort_pairwise q reverse nodes)
    (strListSort_pairwise q' reverse nodes')
  intro n₁ n₂ h₁ h₂ h₁₂ h₂₁
  have hmem₁ : n₁ ∈ nodes := (strListSort_perm q reverse nodes).mem_iff.mp h₁
  have hmem₂ : n₂ ∈ nodes :=
    hperm.mem_iff.mpr ((strListSort_perm q' reverse nodes').mem_iff.mp h₂)
  exact hkey n₁ hmem₁ n₂ hmem₂ (key_eq_of_sortLe h₁₂ h₂₁)

variable {disk cfg req}

/-- With proper names the loop over a directory is a filter of its names. -/
theorem entries_of_proper {names : List Text} (hproper : ∀ name ∈ names, ProperName name)
    (baseDir : Text) :
    entries disk cfg req names baseDir =
      names.filterMap (listEntry disk cfg req (normalisedBaseDir baseDir)) := by
  have hall : names.takeWhile (· ≠ []) = names := by
    apply List.takeWhile_eq_self_iff.mpr
    intro name hname
    simpa using (hproper name hname).1
  rw [entries, hall]

/-- What an entry adds to the two lists. -/
theorem listEntry_eq_some {base name : Text} {entry : Node × Option Node}
    (h : listEntry disk cfg req base name = some entry) :
    shown cfg req name = true ∧
      (∃ st, entry.1.str = dirLine disk cfg req (base ++ name) name st) ∧
      (req.tOption = false → entry.1.sortKeyStr = name) ∧
      ∀ sub ∈ entry.2, sub.str = name ∧ (req.tOption = false → sub.sortKeyStr = []) := by
  rw [listEntry] at h
  by_cases hshown : shown cfg req name = true
  · simp only [hshown, Bool.not_true, Bool.false_eq_true, ↓reduceIte] at h
    split at h
    · cases h
    · rename_i st _
      cases h
      refine ⟨hshown, ⟨st, rfl⟩, ?_, ?_⟩
      · intro ht
        simp [ht]
      · intro sub hsub
        simp only [Option.mem_def] at hsub
        split at hsub
        · cases hsub
          simp_all
        · cases hsub
  · simp [hshown] at h

/-- Every entry of a listing comes from a name of the directory. -/
theorem mem_entries {names : List Text} (hproper : ∀ name ∈ names, ProperName name)
    {baseDir : Text} {entry : Node × Option Node}
    (h : entry ∈ entries disk cfg req names baseDir) :
    ∃ name ∈ names, listEntry disk cfg req (normalisedBaseDir baseDir) name = some entry := by
  rw [entries_of_proper hproper] at h
  exact List.mem_filterMap.mp h

/-- Without `-t` a line is sorted by its name. -/
theorem key_of_listEntry {base name : Text} {entry : Node × Option Node} (hname : name ≠ [])
    (ht : req.tOption = false) (h : listEntry disk cfg req base name = some entry) :
    entry.1.key = name ∧ ∀ sub ∈ entry.2, sub.key = name := by
  obtain ⟨_, _, hkey, hsub⟩ := listEntry_eq_some h
  constructor
  · simp [Node.key, hkey ht, hname]
  · intro sub hmem
    obtain ⟨hstr, hnone⟩ := hsub sub hmem
    simp [Node.key, hnone ht, hstr]

/-- Without `-t` neither the order of the directory nor the choice of the sort matters. -/
theorem vsfLsPopulateDirList_eq_of_perm (q q' : Qsort) {names names' : List Text}
    (hperm : names.Perm names') (hproper : ∀ name ∈ names, ProperName name)
    (ht : req.tOption = false) (baseDir : Text) :
    vsfLsPopulateDirList disk cfg req q names baseDir =
      vsfLsPopulateDirList disk cfg req q' names' baseDir := by
  have hproper' : ∀ name ∈ names', ProperName name :=
    fun name hname => hproper name (hperm.mem_iff.mpr hname)
  have hentries : (entries disk cfg req names baseDir).Perm
      (entries disk cfg req names' baseDir) := by
    rw [entries_of_proper hproper, entries_of_proper hproper']
    exact hperm.filterMap _
  apply Prod.ext
  · apply strListSort_eq_of_perm q q' _ (hentries.map _)
    intro n₁ h₁ n₂ h₂ hkey
    obtain ⟨e₁, he₁, rfl⟩ := List.mem_map.mp h₁
    obtain ⟨e₂, he₂, rfl⟩ := List.mem_map.mp h₂
    obtain ⟨name₁, hname₁, hentry₁⟩ := mem_entries hproper he₁
    obtain ⟨name₂, hname₂, hentry₂⟩ := mem_entries hproper he₂
    rw [(key_of_listEntry (hproper name₁ hname₁).1 ht hentry₁).1,
      (key_of_listEntry (hproper name₂ hname₂).1 ht hentry₂).1] at hkey
    rw [hkey, hentry₂] at hentry₁
    cases hentry₁
    rfl
  · apply strListSort_eq_of_perm q q' _ (hentries.filterMap _)
    intro n₁ h₁ n₂ h₂ hkey
    obtain ⟨e₁, he₁, hsub₁⟩ := List.mem_filterMap.mp h₁
    obtain ⟨e₂, he₂, hsub₂⟩ := List.mem_filterMap.mp h₂
    obtain ⟨name₁, hname₁, hentry₁⟩ := mem_entries hproper he₁
    obtain ⟨name₂, hname₂, hentry₂⟩ := mem_entries hproper he₂
    rw [(key_of_listEntry (hproper name₁ hname₁).1 ht hentry₁).2 n₁ hsub₁,
      (key_of_listEntry (hproper name₂ hname₂).1 ht hentry₂).2 n₂ hsub₂] at hkey
    rw [hkey, hentry₂] at hentry₁
    cases hentry₁
    rw [hsub₁] at hsub₂
    exact Option.some.inj hsub₂

/-- A directory `pub` with a file and with what is hidden there, and a directory `.x` with files
that are called after it. -/
def pubDisk (hidden : List Text) (hproper : ∀ name ∈ hidden, ProperName name) : Disk where
  opendir path :=
    if path = "./pub".toList then some ("readme".toList :: hidden)
    else if path = "./.x".toList then some (hidden.map ('f' :: ·))
    else none
  lstat path :=
    some ⟨path = "pub".toList || path = ".x".toList, false, [], "drwxr-xr-x".toList, 2, 0, 0, 11,
      []⟩
  readlink _ := none
  proper := by
    intro path names h name hname
    split at h
    · cases h
      rcases List.mem_cons.mp hname with rfl | hname
      · decide
      · exact hproper name hname
    · split at h
      · cases h
        obtain ⟨rest, hrest, rfl⟩ := List.mem_map.mp hname
        exact ⟨by simp, by simp [(hproper rest hrest).2]⟩
      · cases h

/-- A server that goes down into directories. -/
def pubConfig : Config := ⟨false, none, true, true, false, fun _ => none, fun _ => none⟩

/-- The two orders of two names. -/
theorem vsfLsPopulateDirList_eq_of_perm_two :
    vsfLsPopulateDirList (pubDisk [] (by simp)) pubConfig ⟨['R'], [], false⟩ Qsort.merge
        ["pub".toList, "news".toList] ".".toList =
      vsfLsPopulateDirList (pubDisk [] (by simp)) pubConfig ⟨['R'], [], false⟩ Qsort.merge
        ["news".toList, "pub".toList] ".".toList :=
  vsfLsPopulateDirList_eq_of_perm Qsort.merge Qsort.merge (List.Perm.swap _ _ _) (by decide) rfl
    ".".toList

/-! ## What is hidden -/

variable (cfg req) in
/-- A name that a listing shows. -/
structure Seen (name : Text) : Prop where
  proper : ProperName name
  shown : shown cfg req name = true

variable (cfg req) in
/-- The directories that a listing of `baseDir` comes to, through names that it shows. -/
inductive Reached (baseDir : Text) : Text → Prop where
  | start : Reached baseDir baseDir
  | down {dir name : Text} (h : Reached baseDir dir) (hname : Seen cfg req name)
    (hdots : ¬ (name = ".".toList ∨ name = "..".toList)) : Reached baseDir (dir ++ ['/'] ++ name)

variable (cfg req) in
/-- Two disks that agree on the shown names in the directories that are reached through shown names;
elsewhere, as below a hidden directory, they may differ as they like. -/
structure SameShown (baseDir : Text) (disk disk' : Disk) : Prop where
  opendir : ∀ dir name, Reached cfg req baseDir dir → Seen cfg req name →
    ¬ (name = ".".toList ∨ name = "..".toList) →
    (disk.opendir (dir ++ ['/'] ++ name)).map (·.filter (shown cfg req)) =
      (disk'.opendir (dir ++ ['/'] ++ name)).map (·.filter (shown cfg req))
  lstat : ∀ dir name, Reached cfg req baseDir dir → Seen cfg req name →
    disk.lstat (normalisedBaseDir dir ++ name) = disk'.lstat (normalisedBaseDir dir ++ name)
  readlink : ∀ dir name, Reached cfg req baseDir dir → Seen cfg req name →
    disk.readlink (normalisedBaseDir dir ++ name) = disk'.readlink (normalisedBaseDir dir ++ name)

variable {disk' : Disk} {baseDir : Text}

/-- The nodes of a name are the same on both disks. -/
theorem listEntry_eq_of_sameShown (h : SameShown cfg req baseDir disk disk') {dir name : Text}
    (hdir : Reached cfg req baseDir dir) (hproper : ProperName name) :
    listEntry disk cfg req (normalisedBaseDir dir) name =
      listEntry disk' cfg req (normalisedBaseDir dir) name := by
  by_cases hshown : shown cfg req name = true
  · have hname : Seen cfg req name := ⟨hproper, hshown⟩
    simp only [listEntry, dirLine, h.lstat _ _ hdir hname, h.readlink _ _ hdir hname]
  · simp [listEntry, hshown]

/-- Names that are not shown are left out first. -/
theorem filterMap_listEntry_filter (base : Text) (names : List Text) :
    names.filterMap (listEntry disk cfg req base) =
      (names.filter (shown cfg req)).filterMap (listEntry disk cfg req base) := by
  rw [List.filterMap_filter]
  apply List.filterMap_congr
  intro name _
  by_cases hshown : shown cfg req name = true
  · simp [hshown]
  · simp [listEntry, hshown]

/-- A directory with the same shown names is listed alike. -/
theorem entries_eq_of_sameShown (h : SameShown cfg req baseDir disk disk') {dir : Text}
    (hdir : Reached cfg req baseDir dir) {names names' : List Text}
    (hproper : ∀ name ∈ names, ProperName name) (hproper' : ∀ name ∈ names', ProperName name)
    (hnames : names.filter (shown cfg req) = names'.filter (shown cfg req)) :
    entries disk cfg req names dir = entries disk' cfg req names' dir := by
  rw [entries_of_proper hproper, entries_of_proper hproper',
    filterMap_listEntry_filter _ names, filterMap_listEntry_filter _ names', ← hnames]
  apply List.filterMap_congr
  intro name hname
  exact listEntry_eq_of_sameShown h hdir (hproper name (List.mem_filter.mp hname).1)

/-- The directories below have shown names. -/
theorem seen_of_mem_subdirs {names : List Text} (hproper : ∀ name ∈ names, ProperName name)
    {dir : Text} {subdir : Node}
    (h : subdir ∈ (vsfLsPopulateDirList disk cfg req q names dir).2) :
    Seen cfg req subdir.str := by
  have hmem := (strListSort_perm q _ _).mem_iff.mp h
  obtain ⟨entry, hentry, hsub⟩ := List.mem_filterMap.mp hmem
  obtain ⟨name, hname, hlisted⟩ := mem_entries hproper hentry
  obtain ⟨hshown, _, _, hstr⟩ := listEntry_eq_some hlisted
  rw [(hstr subdir hsub).1]
  exact ⟨hproper name hname, hshown⟩

variable {net}

/-- The directories below are gone through alike. -/
theorem overSubdirs_eq_of_sameShown (h : SameShown cfg req baseDir disk disk') {dir : Text}
    (hdir : Reached cfg req baseDir dir)
    {transfer transfer' : Text → List Text → Out → Except Stop (Bool × Out)}
    (htransfer : ∀ path names names', Reached cfg req baseDir path →
      (∀ name ∈ names, ProperName name) → (∀ name ∈ names', ProperName name) →
      names.filter (shown cfg req) = names'.filter (shown cfg req) →
      transfer path names = transfer' path names')
    {subdirs : List Node} (hsubdirs : ∀ subdir ∈ subdirs, Seen cfg req subdir.str) :
    overSubdirs disk net transfer dir subdirs = overSubdirs disk' net transfer' dir subdirs := by
  induction subdirs with
  | nil => rfl
  | cons subdir more ih =>
    have hmore := ih fun other hother => hsubdirs other (List.mem_cons_of_mem _ hother)
    have hseen := hsubdirs subdir List.mem_cons_self
    funext out
    rw [overSubdirs, overSubdirs, hmore]
    split
    · rfl
    · rename_i hdots
      have hopen := h.opendir dir subdir.str hdir hseen hdots
      cases hd : disk.opendir (dir ++ ['/'] ++ subdir.str) with
      | none =>
        cases hd' : disk'.opendir (dir ++ ['/'] ++ subdir.str) with
        | none => rfl
        | some names' =>
          rw [hd, hd'] at hopen
          cases hopen
      | some names =>
        cases hd' : disk'.opendir (dir ++ ['/'] ++ subdir.str) with
        | none =>
          rw [hd, hd'] at hopen
          cases hopen
        | some names' =>
          rw [hd, hd'] at hopen
          replace hopen := Option.some.inj hopen
          simp only [htransfer _ names names' (.down hdir hseen hdots) (disk.proper _ _ hd)
            (disk'.proper _ _ hd') hopen]

/-- A directory that is reached is listed alike, with what is below. -/
theorem transferDirInternal_eq_of_reached (q : Qsort) (net : Net)
    (h : SameShown cfg req baseDir disk disk') (depth : Nat) {dir : Text}
    (hdir : Reached cfg req baseDir dir) {names names' : List Text}
    (hproper : ∀ name ∈ names, ProperName name) (hproper' : ∀ name ∈ names', ProperName name)
    (hnames : names.filter (shown cfg req) = names'.filter (shown cfg req)) :
    transferDirInternal disk cfg req q net depth dir names =
      transferDirInternal disk' cfg req q net depth dir names' := by
  induction depth generalizing dir names names' with
  | zero => rfl
  | succ depth ih =>
    have hlists : vsfLsPopulateDirList disk cfg req q names dir =
        vsfLsPopulateDirList disk' cfg req q names' dir := by
      rw [vsfLsPopulateDirList, vsfLsPopulateDirList,
        entries_eq_of_sameShown h hdir hproper hproper' hnames]
    have hsubdirs : ∀ subdir ∈ (vsfLsPopulateDirList disk cfg req q names dir).2,
        Seen cfg req subdir.str :=
      fun subdir hmem => seen_of_mem_subdirs q hproper hmem
    have htransfer : ∀ path names names', Reached cfg req baseDir path →
        (∀ name ∈ names, ProperName name) → (∀ name ∈ names', ProperName name) →
        names.filter (shown cfg req) = names'.filter (shown cfg req) →
        transferDirInternal disk cfg req q net depth path names =
          transferDirInternal disk' cfg req q net depth path names' :=
      fun path _ _ hpath hp hp' hn => ih hpath hp hp' hn
    funext out
    simp only [transferDirInternal]
    rw [← hlists, overSubdirs_eq_of_sameShown h hdir htransfer hsubdirs]

/-- What is hidden, and what is below it, leaves no trace in a listing. -/
theorem transferDirInternal_eq_of_sameShown (q : Qsort) (net : Net)
    (h : SameShown cfg req baseDir disk disk') (depth : Nat) {names names' : List Text}
    (hproper : ∀ name ∈ names, ProperName name) (hproper' : ∀ name ∈ names', ProperName name)
    (hnames : names.filter (shown cfg req) = names'.filter (shown cfg req)) :
    transferDirInternal disk cfg req q net depth baseDir names =
      transferDirInternal disk' cfg req q net depth baseDir names' :=
  transferDirInternal_eq_of_reached q net h depth .start hproper hproper' hnames

/-- A path has one last name. -/
theorem name_eq_of_path_eq {dir dir' name name' : Text} (hname : ProperName name)
    (hname' : ProperName name') (h : dir ++ ['/'] ++ name = dir' ++ ['/'] ++ name') :
    name = name' := by
  have hlast : ∀ dir name : Text, ProperName name →
      (dir ++ ['/'] ++ name).rtakeWhile (· ≠ '/') = name := by
    intro dir name hname
    have hall : ∀ c ∈ name.reverse, (decide (c ≠ '/')) = true := by
      intro c hc
      apply decide_eq_true
      rintro rfl
      exact hname.2 (List.mem_reverse.mp hc)
    rw [List.rtakeWhile, List.reverse_append, List.takeWhile_append_of_pos hall]
    simp
  rw [← hlast dir name hname, h, hlast dir' name' hname']

/-- Without `-a`, nobody sees a name that starts with a dot. -/
theorem sameShown_pubDisk (hidden : List Text) (hproper : ∀ name ∈ hidden, ProperName name)
    (hdots : ∀ name ∈ hidden, shown pubConfig ⟨['R'], [], true⟩ name = false) :
    SameShown pubConfig ⟨['R'], [], true⟩ ".".toList (pubDisk hidden hproper)
      (pubDisk [] (by simp)) where
  opendir dir name _ hname _ := by
    have hnone : hidden.filter (shown pubConfig ⟨['R'], [], true⟩) = [] := by
      apply List.filter_eq_nil_iff.mpr
      intro name hname
      simp [hdots name hname]
    simp only [pubDisk]
    split
    · rw [Option.map_some, Option.map_some, List.filter_cons, List.filter_cons, hnone]
      rfl
    · split
      · rename_i hpath
        -- the names below `.x` are shown, but `.x` is not
        have hsame : name = ".x".toList := by
          have hjoined : dir ++ ['/'] ++ name = ".".toList ++ ['/'] ++ ".x".toList := hpath
          exact name_eq_of_path_eq hname.proper (by decide) hjoined
        subst hsame
        exact absurd hname.shown (by decide)
      · rfl
  lstat _ _ _ _ := rfl
  readlink _ _ _ _ := rfl

/-- A disk with a hidden `.old` lists like one without it. -/
theorem transferDirInternal_eq_of_sameShown_pub :
    transferDirInternal (pubDisk [".old".toList] (by decide)) pubConfig ⟨['R'], [], true⟩
        Qsort.merge (fun _ => none) 5 ".".toList ["pub".toList, ".x".toList] =
      transferDirInternal (pubDisk [] (by simp)) pubConfig ⟨['R'], [], true⟩
        Qsort.merge (fun _ => none) 5 ".".toList ["pub".toList] :=
  transferDirInternal_eq_of_sameShown Qsort.merge _
    (sameShown_pubDisk [".old".toList] (by decide) (by decide)) 5 (by decide) (by decide)
    (by decide)

/-! ## What arrives -/

/-- {lit}`writes` sends the text, or a part in front when a write fails, and says which. -/
def Sends (net : Net) (writes : Out → Except Stop (Bool × Out)) (text : Text) : Prop :=
  ∀ out, ∃ failed out', writes out = .ok (failed, out') ∧
    (∃ piece, piece <+: text ∧ out'.sent = out.sent ++ piece ∧ (failed = false ↔ piece = text)) ∧
    ((∀ i, net i = none) → failed = false)

/-- Nothing to write is written. -/
theorem sends_ok : Sends net (fun out => .ok (false, out)) [] := by
  intro out
  exact ⟨false, out, rfl, ⟨[], List.prefix_rfl, by simp, by simp⟩, fun _ => rfl⟩

/-- One write sends its text, a beginning of it, or nothing. -/
theorem sends_ftpWriteStr {s : Text} (hs : s ≠ []) :
    Sends net (fun out => ftpWriteStr net out s) s := by
  intro out
  cases hn : net out.writes with
  | none =>
    refine ⟨false, ⟨out.sent ++ s, out.writes + 1⟩, by simp [ftpWriteStr, hs, hn], ?_, fun _ => rfl⟩
    exact ⟨s, List.prefix_rfl, rfl, by simp⟩
  | some n =>
    refine ⟨true, ⟨out.sent ++ s.dropLast.take n, out.writes + 1⟩, by simp [ftpWriteStr, hs, hn],
      ?_, ?_⟩
    · have hpos := List.length_pos_iff.mpr hs
      refine ⟨s.dropLast.take n, (List.take_prefix n _).trans (List.dropLast_prefix s), rfl, ?_⟩
      constructor
      · simp
      · intro hall
        have hlength := congrArg List.length hall
        rw [List.length_take, List.length_dropLast] at hlength
        omega
    · intro hnone
      rw [hnone] at hn
      cases hn

/-- One behind the other. -/
theorem Sends.unlessFailed {first next : Out → Except Stop (Bool × Out)} {text text' : Text}
    (hfirst : Sends net first text) (hnext : Sends net next text') :
    Sends net (fun out => Listing.unlessFailed (first out) next) (text ++ text') := by
  intro out
  obtain ⟨failed, out₁, h₁, ⟨piece, hpiece, hsent, hwhole⟩, hnone⟩ := hfirst out
  cases failed with
  | true =>
    refine ⟨true, out₁, by simp only [h₁]; rfl, ?_, hnone⟩
    refine ⟨piece, hpiece.trans (List.prefix_append _ _), hsent, ?_⟩
    constructor
    · simp
    · rintro rfl
      exact hwhole.mpr (List.prefix_append _ _ |>.eq_of_length_le hpiece.length_le).symm
  | false =>
    obtain ⟨failed', out₂, h₂, ⟨piece', hpiece', hsent', hwhole'⟩, hnone'⟩ := hnext out₁
    refine ⟨failed', out₂, by simp only [h₁]; exact h₂, ?_, hnone'⟩
    refine ⟨piece ++ piece', ?_, by rw [hsent', hsent, List.append_assoc], ?_⟩
    · rw [hwhole.mp rfl]
      exact (List.prefix_append_right_inj text).mpr hpiece'
    · rw [hwhole.mp rfl, List.append_cancel_left_eq]
      exact hwhole'

/-- Coalescing changes how much goes into a write, and nothing of what is written. -/
theorem sends_writeDirList {lines : List Text} (hlines : ∀ line ∈ lines, line ≠ []) {buf : Text}
    (hbuf : lines = [] → buf = []) :
    Sends net (writeDirList net buf lines) (buf ++ lines.flatten) := by
  induction lines generalizing buf with
  | nil =>
    rw [hbuf rfl]
    exact sends_ok
  | cons line more ih =>
    have hmore : ∀ other ∈ more, other ≠ [] :=
      fun other hother => hlines other (List.mem_cons_of_mem _ hother)
    have hne : buf ++ line ≠ [] := by
      simp [hlines line List.mem_cons_self]
    have htext : buf ++ (line :: more).flatten = (buf ++ line) ++ more.flatten := by simp
    rw [htext]
    by_cases hwrite : more = [] ∨ dirBufsize < (buf ++ line).length + (more.headD []).length
    · have hrest : Sends net (writeDirList net [] more) more.flatten := by
        simpa using ih hmore (fun _ => rfl)
      intro out
      rw [writeDirList, if_pos hwrite]
      exact (sends_ftpWriteStr hne).unlessFailed hrest out
    · intro out
      rw [writeDirList, if_neg hwrite]
      exact ih hmore (fun hnil => absurd (Or.inl hnil) hwrite) out

/-! ## The whole listing -/

variable (disk cfg req) in
/-- The listing of a directory and of what is below, down to a depth. -/
def listing : Nat → Text → List Text → Text
  | 0, _, _ => []
  | depth + 1, baseDir, names =>
    let lists := vsfLsPopulateDirList disk cfg req q names baseDir
    let lines := (lists.1.map (·.str)).flatten
    let below (subdir : Node) : Text :=
      if subdir.str = ".".toList ∨ subdir.str = "..".toList then []
      else
        match disk.opendir (baseDir ++ ['/'] ++ subdir.str) with
        | none => []
        | some names => "\r\n".toList ++ listing depth (baseDir ++ ['/'] ++ subdir.str) names
    if recursing cfg req then baseDir ++ ":\r\n".toList ++ lines ++ lists.2.flatMap below else lines

/-- A line of a long listing is not empty. -/
theorem buildDirLine_ne_nil (filename : Text) (st : Statbuf) :
    buildDirLine cfg filename st ≠ [] := by
  simp [buildDirLine]

/-- Neither is a line of any listing, as it ends in a newline. -/
theorem dirLine_ne_nil (path name : Text) (st : Option Statbuf) :
    dirLine disk cfg req path name st ≠ [] := by
  unfold dirLine
  split
  · exact buildDirLine_ne_nil _ _
  · simp

/-- So no line of a directory is empty. -/
theorem line_ne_nil {names : List Text} (hproper : ∀ name ∈ names, ProperName name) {baseDir : Text}
    {line : Text} (h : line ∈ (vsfLsPopulateDirList disk cfg req q names baseDir).1.map (·.str)) :
    line ≠ [] := by
  obtain ⟨node, hnode, rfl⟩ := List.mem_map.mp h
  have hmem := (strListSort_perm q _ _).mem_iff.mp hnode
  obtain ⟨entry, hentry, rfl⟩ := List.mem_map.mp hmem
  obtain ⟨name, _, hlisted⟩ := mem_entries hproper hentry
  obtain ⟨_, ⟨st, hstr⟩, _⟩ := listEntry_eq_some hlisted
  rw [hstr]
  exact dirLine_ne_nil _ _ _

/-- The loop over the subdirectories sends their texts one after the other, if each of them sends
its own. -/
theorem sends_overSubdirs {transfer : Text → List Text → Out → Except Stop (Bool × Out)}
    (text : Text → List Text → Text) {baseDir : Text}
    (htransfer : ∀ path names, baseDir.length < path.length → disk.opendir path = some names →
      Sends net (transfer path names) (text path names))
    (subdirs : List Node) :
    Sends net (overSubdirs disk net transfer baseDir subdirs) (subdirs.flatMap fun subdir =>
      if subdir.str = ".".toList ∨ subdir.str = "..".toList then []
      else
        match disk.opendir (baseDir ++ ['/'] ++ subdir.str) with
        | none => []
        | some names => "\r\n".toList ++ text (baseDir ++ ['/'] ++ subdir.str) names) := by
  induction subdirs with
  | nil => exact sends_ok
  | cons subdir more ih =>
    rw [List.flatMap_cons]
    intro out
    rw [overSubdirs]
    by_cases hdots : subdir.str = ".".toList ∨ subdir.str = "..".toList
    · rw [if_pos hdots, if_pos hdots]
      exact ih out
    · rw [if_neg hdots, if_neg hdots]
      cases hopen : disk.opendir (baseDir ++ ['/'] ++ subdir.str) with
      | none => exact ih out
      | some names =>
        have hdeeper : baseDir.length < (baseDir ++ ['/'] ++ subdir.str).length := by
          simp only [List.length_append, List.length_cons, List.length_nil]
          omega
        have hsub := (htransfer _ names hdeeper hopen).unlessFailed ih
        have hline : Sends net (fun out => ftpWriteStr net out "\r\n".toList) "\r\n".toList :=
          sends_ftpWriteStr (by simp)
        simpa only [List.append_assoc] using hline.unlessFailed hsub out

/-- Whatever writes fail, what arrives is a beginning of the whole listing; it is the whole exactly
when success is reported, and success is reported when no write fails. Paths that are too long
cannot be opened, so that the way down ends. -/
theorem transferDirInternal_writes (q : Qsort) (net : Net) (limit : Nat)
    (hlimit : ∀ path, limit < path.length → disk.opendir path = none) {depth : Nat}
    {baseDir : Text} (hdepth : limit < depth + baseDir.length) (hpos : 0 < depth)
    {names : List Text} (hproper : ∀ name ∈ names, ProperName name) :
    Sends net (transferDirInternal disk cfg req q net depth baseDir names)
      (listing disk cfg req q depth baseDir names) := by
  induction depth generalizing baseDir names with
  | zero => omega
  | succ depth ih =>
    have hlines : Sends net
        (writeDirList net []
          ((vsfLsPopulateDirList disk cfg req q names baseDir).1.map (·.str)))
        ([] ++ ((vsfLsPopulateDirList disk cfg req q names baseDir).1.map (·.str)).flatten) :=
      sends_writeDirList (fun line hline => line_ne_nil q hproper hline) (fun _ => rfl)
    -- a directory below has a longer path, and its path is not too long
    have htransfer : ∀ path names', baseDir.length < path.length →
        disk.opendir path = some names' →
        Sends net (transferDirInternal disk cfg req q net depth path names')
          (listing disk cfg req q depth path names') := by
      intro path names' hlonger hopen
      have hshort : path.length ≤ limit := by
        by_contra hlong
        rw [hlimit path (by omega)] at hopen
        cases hopen
      exact ih (by omega) (by omega) (disk.proper _ _ hopen)
    have hbelow := sends_overSubdirs (listing disk cfg req q depth) htransfer
      (vsfLsPopulateDirList disk cfg req q names baseDir).2
    have hheader : Sends net (fun out => ftpWriteStr net out (baseDir ++ ":\r\n".toList))
        (baseDir ++ ":\r\n".toList) :=
      sends_ftpWriteStr (by simp)
    rw [List.nil_append] at hlines
    intro out
    simp only [transferDirInternal, listing]
    by_cases hrec : recursing cfg req = true
    · rw [if_pos hrec, if_pos hrec]
      simpa only [List.append_assoc] using
        hheader.unlessFailed (hlines.unlessFailed hbelow) out
    · rw [if_neg hrec, if_neg hrec]
      exact hlines out

/-- This disk has no directory below `pub`. -/
theorem pubDisk_opendir {hidden : List Text} (hproper : ∀ name ∈ hidden, ProperName name)
    (path : Text) (h : 5 < path.length) : (pubDisk hidden hproper).opendir path = none := by
  have hlong : ∀ path' : Text, path'.length ≤ 5 → path ≠ path' := by
    rintro path' hshort rfl
    omega
  simp only [pubDisk]
  rw [if_neg (hlong _ (by decide)), if_neg (hlong _ (by decide))]

/-- A listing whose third write is cut after three characters. -/
theorem transferDirInternal_writes_pub :
    Sends (fun i => if i = 2 then some 3 else none)
      (transferDirInternal (pubDisk [] (by simp)) pubConfig ⟨['R'], [], false⟩ Qsort.merge
        (fun i => if i = 2 then some 3 else none) 5 ".".toList ["pub".toList])
      (listing (pubDisk [] (by simp)) pubConfig ⟨['R'], [], false⟩ Qsort.merge 5 ".".toList
        ["pub".toList]) :=
  transferDirInternal_writes Qsort.merge _ 5 (pubDisk_opendir (by simp)) (by decide) (by decide)
    (by decide)

end Listing
end Server
end ModpackInstaller
