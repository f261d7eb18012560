import Mathlib.Data.List.Dedup
import ModpackInstaller.Update.Settling

/-!
# Deleting directories

A forced installation deletes what an earlier one has left: {lit}`deleteDirectory` and
{lit}`cleanUp` of {lit}`InstallPanel.java`, on a disk with symbolic links, on which some files
cannot be deleted.  Paths have no link in front of their last name, {lit}`getCanonicalFile` resolves
a link and nothing else (as on UNIX), and {lit}`listFiles` lists every directory.

Main results:

- Theorem {lit}`deleteDirectory_frame`: whatever happens, nothing changes outside of the
  directory.
- Theorem {lit}`deleteDirectory_spec`: a directory is deleted up to what cannot be deleted and
  the directories above it, wherever links lead, and an {lit}`IOException` says that something
  is left.
- Theorem {lit}`cleanUp_spec`: the cleanup returns exactly when none of the names that it takes for
  directories is that of a plain file, which ends it with an {lit}`IllegalArgumentException`, and
  what it leaves of the directories.
- Theorem {lit}`cleanUp_frame`: it touches nothing else.
-/

namespace ModpackInstaller
namespace Update
namespace Deletion

open Client

/-! ## The disk -/

/-- What there is beside the tree of files. -/
structure Host where
  /-- A file at this path is a symbolic link. -/
  isLink : Path → Bool
  /-- What a link leads to: a directory, something else, or nothing. -/
  leadsTo : Fs → Path → Option Bool
  /-- `delete` does nothing here. -/
  refuses : Path → Bool

/-- How a call ends that does not return. -/
inductive Thrown where
  | io
  | illegalArgument
  | stackOverflow
deriving DecidableEq, Repr

abbrev Result := Except Thrown Unit × Fs

variable (h : Host)

/-- `isSymlink` -/
def isSymlink (fs : Fs) (p : Path) : Bool :=
  h.isLink p && fs.isFile p

/-- `File.exists`, which follows a link. -/
def fileExists (fs : Fs) (p : Path) : Bool :=
  if isSymlink h fs p then (h.leadsTo fs p).isSome else fs.fileExists p

/-- `File.isDirectory`, which follows a link. -/
def isDirectory (fs : Fs) (p : Path) : Bool :=
  if isSymlink h fs p then h.leadsTo fs p = some true else fs.isDirectory p

/-- `File.delete`, which does not follow a link. -/
def delete (fs : Fs) (p : Path) : Bool × Fs :=
  if h.refuses p then (false, fs) else fs.delete p

/-- `File.listFiles` -/
def listFiles (fs : Fs) (p : Path) : List Path :=
  (fs.nodes.map Prod.fst).dedup.filter fun q => decide (q ≠ [] ∧ q.dropLast = p)

/-! ## The routines -/

/-- A deletion that has to succeed. -/
def deleteOrThrow (fs : Fs) (p : Path) : Result :=
  ((if (delete h fs p).1 then .ok () else .error .io), (delete h fs p).2)

/-- `forceDelete`; `filePresent` chooses between two texts only. -/
def forceDelete (deleteDirectory : Fs → Path → Result) (fs : Fs) (file : Path) : Result :=
  if isDirectory h fs file then deleteDirectory fs file else deleteOrThrow h fs file

/-- The loop of `cleanDirectory`; `failed` says that an exception was caught. -/
def forceDeleteEach (deleteDirectory : Fs → Path → Result) : Fs → Bool → List Path → Result
  | fs, failed, [] => ((if failed then .error .io else .ok ()), fs)
  | fs, failed, file :: files =>
    match forceDelete h deleteDirectory fs file with
    | (.ok (), fs') => forceDeleteEach deleteDirectory fs' failed files
    | (.error .io, fs') => forceDeleteEach deleteDirectory fs' true files
    | (.error e, fs') => (.error e, fs')

/-- `cleanDirectory` -/
def cleanDirectory (deleteDirectory : Fs → Path → Result) (fs : Fs) (directory : Path) : Result :=
  if !fileExists h fs directory then (.error .illegalArgument, fs)
  else if !isDirectory h fs directory then (.error .illegalArgument, fs)
  else forceDeleteEach h deleteDirectory fs false (listFiles fs directory)

/-- `deleteDirectory`, with room for so many calls inside each other. -/
def deleteDirectory : Nat → Fs → Path → Result
  | 0, fs, _ => (.error .stackOverflow, fs)
  | room + 1, fs, directory =>
    if !fileExists h fs directory then (.ok (), fs)
    else if isSymlink h fs directory then deleteOrThrow h fs directory
    else
      match cleanDirectory h (deleteDirectory room) fs directory with
      | (.ok (), fs') => deleteOrThrow h fs' directory
      | (.error e, fs') => (.error e, fs')

/-- The names that `cleanUp` takes for directories. -/
def directories : List Text :=
  ["mods", "config", "scripts", "resourcepacks", "shaderpacks", "versions"].map String.toList

/-- The files that `cleanUp` deletes behind them. -/
def files : List Text :=
  ["ver", "modpack", "manifest.json"].map String.toList

/-- The deletions of `cleanUp` that catch an `IOException`. -/
def deleteEach (room : Nat) (dir : Path) : Fs → List Text → Result
  | fs, [] => (.ok (), fs)
  | fs, name :: names =>
    match deleteDirectory h room fs (dir ++ [name]) with
    | (.ok (), fs') | (.error .io, fs') => deleteEach room dir fs' names
    | (.error e, fs') => (.error e, fs')

/-- `cleanUp` -/
def cleanUp (room : Nat) (fs : Fs) (dir : Path) : Result :=
  match deleteEach h room dir fs directories with
  | (.ok (), fs') => (.ok (), files.foldl (fun fs name => (delete h fs (dir ++ [name])).2) fs')
  | (.error e, fs') => (.error e, fs')

/-! ## Outside of a directory -/

variable {h}

/-- Deleting a file leaves every other path as it was. -/
theorem get_delete_of_ne {fs : Fs} {p q : Path} (hne : q ≠ p) :
    (delete h fs p).2.get q = fs.get q := by
  unfold delete
  split
  · rfl
  · rw [Fs.get_delete, if_neg fun hq => hne hq.1]

/-- What `listFiles` gives are the paths one name below the directory that are there. -/
theorem mem_listFiles {fs : Fs} {p q : Path} :
    q ∈ listFiles fs p ↔ fs.get q ≠ none ∧ ∃ name, q = p ++ [name] := by
  rw [listFiles, List.mem_filter, List.mem_dedup, List.mem_map, decide_eq_true_eq]
  refine and_congr ?_ ?_
  · rw [Ne, Fs.get_eq_none]
    push Not
    rfl
  · constructor
    · rintro ⟨hne, rfl⟩
      exact ⟨q.getLast hne, (List.dropLast_append_getLast hne).symm⟩
    · rintro ⟨name, rfl⟩
      exact ⟨by simp, List.dropLast_concat⟩

/-- A routine changes nothing outside of the directory that it is called with. -/
def Frames (routine : Fs → Path → Result) : Prop :=
  ∀ fs p q, ¬ p <+: q → (routine fs p).2.get q = fs.get q

/-- `deleteOrThrow` touches nothing outside of the path it is given. -/
theorem deleteOrThrow_frame : Frames (deleteOrThrow h) := by
  intro fs p q hq
  exact get_delete_of_ne fun hqp => hq (hqp ▸ List.prefix_rfl)

/-- `forceDelete` touches nothing outside of its path, if the deletion it calls for a directory does
not. -/
theorem forceDelete_frame {del : Fs → Path → Result} (hdel : Frames del) :
    Frames (forceDelete h del) := by
  intro fs p q hq
  unfold forceDelete
  split
  · exact hdel fs p q hq
  · exact deleteOrThrow_frame fs p q hq

/-- The loop over the files of a directory touches only what lies below one of them. -/
theorem forceDeleteEach_frame {del : Fs → Path → Result} (hdel : Frames del) (fs : Fs)
    (failed : Bool) (files : List Path) {q : Path} (hq : ∀ file ∈ files, ¬ file <+: q) :
    (forceDeleteEach h del fs failed files).2.get q = fs.get q := by
  induction files generalizing fs failed with
  | nil => rfl
  | cons file files ih =>
      have hfirst := forceDelete_frame (h := h) hdel fs file q (hq file List.mem_cons_self)
      have hrest (fs' : Fs) (failed : Bool) :
          (forceDeleteEach h del fs' failed files).2.get q = fs'.get q :=
        ih fs' failed fun file' hmem => hq file' (List.mem_cons_of_mem file hmem)
      rw [← hfirst, forceDeleteEach]
      split
      next fs' hforce => rw [hforce, hrest]
      next fs' hforce => rw [hforce, hrest]
      next e fs' _ hforce => rw [hforce]

/-- Emptying a directory touches nothing outside of it. -/
theorem cleanDirectory_frame {del : Fs → Path → Result} (hdel : Frames del) :
    Frames (cleanDirectory h del) := by
  intro fs p q hq
  unfold cleanDirectory
  split
  · rfl
  split
  · rfl
  · refine forceDeleteEach_frame hdel fs false _ fun file hfile hbelow => hq ?_
    obtain ⟨-, name, rfl⟩ := mem_listFiles.mp hfile
    exact (List.prefix_append p [name]).trans hbelow

/-- Nothing changes outside of a directory that is deleted, whatever links lead to and however the
deletion ends. -/
theorem deleteDirectory_frame (room : Nat) : Frames (deleteDirectory h room) := by
  induction room with
  | zero => exact fun _ _ _ _ => rfl
  | succ room ih =>
      intro fs p q hq
      rw [deleteDirectory]
      split
      · rfl
      split
      · exact deleteOrThrow_frame fs p q hq
      · have hclean := cleanDirectory_frame (h := h) ih fs p q hq
        rw [← hclean]
        split
        next fs' hout => rw [deleteOrThrow_frame fs' p q hq, hout]
        next e fs' hout => rw [hout]

/-! ## What is deleted -/

variable (h)

/-- Something at the path or below it cannot be deleted. -/
def Stays (fs : Fs) (p : Path) : Prop :=
  ∃ q, p <+: q ∧ fs.get q ≠ none ∧ h.refuses q = true

/-- At the paths and below them, only that is left which has to stay. -/
structure Deleted (fs : Fs) (paths : List Path) (fs' : Fs) : Prop where
  gone : ∀ p ∈ paths, ∀ q, p <+: q → ¬ Stays h fs q → fs'.get q = none
  kept : ∀ q, ((∃ p ∈ paths, p <+: q) → Stays h fs q) → fs'.get q = fs.get q

/-- An `IOException` says that something at the paths has to stay. -/
def Reports (fs : Fs) (paths : List Path) (out : Except Thrown Unit) : Prop :=
  (out = .ok () ∧ ∀ p ∈ paths, ¬ Stays h fs p) ∨ (out = .error .io ∧ ∃ p ∈ paths, Stays h fs p)

/-- So many directories are inside each other at most. -/
def Fits (fs : Fs) (room : Nat) (p : Path) : Prop :=
  ∀ q, fs.get q ≠ none → p <+: q → q.length < p.length + room

/-- The bound on the depth, said of the nodes of the disk. -/
theorem fits_iff {fs : Fs} {room : Nat} {p : Path} :
    Fits fs room p ↔ ∀ e ∈ fs.nodes, p <+: e.1 → e.1.length < p.length + room := by
  constructor
  · exact fun hfits e he => hfits e.1 fun hnone => Fs.get_eq_none.mp hnone e he rfl
  · intro hnodes q hget
    rw [Ne, Fs.get_eq_none] at hget
    push Not at hget
    obtain ⟨e, he, rfl⟩ := hget
    exact hnodes e he

instance (fs : Fs) (room : Nat) (p : Path) : Decidable (Fits fs room p) :=
  decidable_of_iff _ fits_iff.symm

variable {h} {fs fs' fs'' : Fs} {paths paths' : List Path} {p q : Path}

/-- Whatever stays on the disk keeps the directories above it there. -/
theorem Stays.above (hq : Stays h fs q) (hpre : p <+: q) : Stays h fs p := by
  obtain ⟨r, hr, hget, hrefuses⟩ := hq
  exact ⟨r, hpre.trans hr, hget, hrefuses⟩

/-- A deletion brings nothing new. -/
theorem Deleted.get_eq_or (hdel : Deleted h fs paths fs') (q : Path) :
    fs'.get q = none ∨ fs'.get q = fs.get q := by
  by_cases hkept : (∃ p ∈ paths, p <+: q) → Stays h fs q
  · exact .inr (hdel.kept q hkept)
  · push Not at hkept
    obtain ⟨⟨p, hp, hpre⟩, hstays⟩ := hkept
    exact .inl (hdel.gone p hp q hpre hstays)

/-- What is still there after a deletion is what was there before it. -/
theorem Deleted.get_of_ne (hdel : Deleted h fs paths fs') (hq : fs'.get q ≠ none) :
    fs'.get q = fs.get q :=
  (hdel.get_eq_or q).resolve_left hq

/-- What has to stay is still there behind a deletion, and has to stay. -/
theorem Deleted.stays_iff (hdel : Deleted h fs paths fs') : Stays h fs' q ↔ Stays h fs q := by
  constructor
  · rintro ⟨r, hr, hget, hrefuses⟩
    exact ⟨r, hr, hdel.get_of_ne hget ▸ hget, hrefuses⟩
  · rintro ⟨r, hr, hget, hrefuses⟩
    have hstays : Stays h fs r := ⟨r, List.prefix_rfl, hget, hrefuses⟩
    exact ⟨r, hr, (hdel.kept r fun _ => hstays).symm ▸ hget, hrefuses⟩

/-- A deletion adds no depth. -/
theorem Deleted.fits (hdel : Deleted h fs paths fs') {room : Nat} (hfits : Fits fs room p) :
    Fits fs' room p :=
  fun q hget => hfits q (hdel.get_of_ne hget ▸ hget)

/-- A tree is left. -/
theorem Deleted.isTree (hdel : Deleted h fs paths fs') (htree : IsTree fs) : IsTree fs' := by
  refine ⟨?_, fun {q r} hget hr hroot hne => ?_⟩
  · exact (hdel.get_eq_or []).elim id fun hsame => hsame.trans htree.root
  · have hsame := hdel.get_of_ne hget
    rw [hdel.kept r, htree.above (hsame ▸ hget) hr hroot hne]
    rintro ⟨p, hp, hpre⟩
    by_contra hstays
    exact hget (hdel.gone p hp q (hpre.trans hr) fun hq => hstays (hq.above hr))

/-- One deletion behind another one. -/
theorem Deleted.trans (hdel : Deleted h fs paths fs') (hdel' : Deleted h fs' paths' fs'') :
    Deleted h fs (paths ++ paths') fs'' := by
  constructor
  · intro p hp q hpre hstays
    rcases List.mem_append.mp hp with hp | hp
    · rcases hdel'.get_eq_or q with hnone | hsame
      · exact hnone
      · exact hsame.trans (hdel.gone p hp q hpre hstays)
    · exact hdel'.gone p hp q hpre (mt hdel.stays_iff.mp hstays)
  · intro q hq
    rw [hdel'.kept q, hdel.kept q]
    · exact fun ⟨p, hp, hpre⟩ => hq ⟨p, List.mem_append_left _ hp, hpre⟩
    · exact fun ⟨p, hp, hpre⟩ =>
        hdel.stays_iff.mpr (hq ⟨p, List.mem_append_right _ hp, hpre⟩)

/-- A routine deletes what it is called with, and says what it could not delete. -/
def Deletes (h : Host) (fs : Fs) (p : Path) (out : Result) : Prop :=
  Deleted h fs [p] out.2 ∧ Reports h fs [p] out.1

/-! ## One file -/

/-- With nothing below it a path has to stay only when it is refused itself. -/
theorem stays_iff_of_no_children (hget : fs.get p ≠ none) (hempty : fs.hasChildren p = false) :
    Stays h fs p ↔ h.refuses p = true := by
  constructor
  · rintro ⟨q, hpre, hq, hrefuses⟩
    by_cases hqp : q = p
    · exact hqp ▸ hrefuses
    · have hchild := Fs.hasChildren_iff.mpr ⟨q, hpre, hqp, hq⟩
      rw [hempty] at hchild
      cases hchild
  · exact fun hrefuses => ⟨p, List.prefix_rfl, hget, hrefuses⟩

/-- `delete` succeeds on a path that is there and has nothing below it. -/
theorem fst_delete (hget : fs.get p ≠ none) (hempty : fs.hasChildren p = false) :
    (fs.delete p).1 = true := by
  unfold Fs.delete
  split
  · contradiction
  · rfl
  · simp [hempty]

/-- A file, a link or an empty directory is deleted. -/
theorem deletes_deleteOrThrow (hget : fs.get p ≠ none) (hempty : fs.hasChildren p = false) :
    Deletes h fs p (deleteOrThrow h fs p) := by
  have hstays := stays_iff_of_no_children (h := h) hget hempty
  cases hrefuses : h.refuses p with
  | true =>
      have hstay : Stays h fs p := hstays.mpr hrefuses
      have hout : deleteOrThrow h fs p = (.error .io, fs) := by
        simp [deleteOrThrow, delete, hrefuses]
      rw [hout]
      refine ⟨⟨?_, fun _ _ => rfl⟩, .inr ⟨rfl, p, List.mem_singleton_self p, hstay⟩⟩
      intro p' hp' q hpre hq
      obtain rfl := List.mem_singleton.mp hp'
      by_contra hthere
      by_cases hqp : q = p'
      · exact hq (hqp ▸ hstay)
      · have hchild := Fs.hasChildren_iff.mpr ⟨q, hpre, hqp, hthere⟩
        rw [hempty] at hchild
        cases hchild
  | false =>
      have hnot : ¬ Stays h fs p := fun hstay => by simp [hstays.mp hstay] at hrefuses
      have hout : deleteOrThrow h fs p = (.ok (), (fs.delete p).2) := by
        simp [deleteOrThrow, delete, hrefuses, fst_delete hget hempty]
      rw [hout]
      refine ⟨⟨?_, ?_⟩, .inl ⟨rfl, fun p' hp' => List.mem_singleton.mp hp' ▸ hnot⟩⟩
      · intro p' hp' q hpre hq
        obtain rfl := List.mem_singleton.mp hp'
        by_cases hqp : q = p'
        · rw [Fs.get_delete, if_pos ⟨hqp, fun _ => hempty⟩]
        · rw [Fs.get_delete, if_neg fun hboth => hqp hboth.1]
          by_contra hthere
          have hchild := Fs.hasChildren_iff.mpr ⟨q, hpre, hqp, hthere⟩
          rw [hempty] at hchild
          cases hchild
      · intro q hq
        have hqp : q ≠ p := by
          rintro rfl
          exact hnot (hq ⟨q, List.mem_singleton_self q, List.prefix_rfl⟩)
        rw [Fs.get_delete, if_neg fun hboth => hqp hboth.1]

/-- In a tree only a directory has something below it. -/
theorem hasChildren_of_not_dir (htree : IsTree fs) (hroot : p ≠ [])
    (hdir : fs.get p ≠ some .dir) : fs.hasChildren p = false := by
  rw [← Bool.not_eq_true, Fs.hasChildren_iff]
  rintro ⟨q, hpre, hne, hq⟩
  exact hdir (htree.above hq hpre hroot (Ne.symm hne))

/-! ## Directories -/

/-- The deletion of directories with room for so many calls does what it should. -/
def Works (h : Host) (room : Nat) : Prop :=
  ∀ fs p, IsTree fs → Fits fs room p → fs.get p ≠ none → fileExists h fs p = true →
    (isSymlink h fs p = true ∨ fs.get p = some .dir) →
      Deletes h fs p (deleteDirectory h room fs p)

/-- The root of a tree is not a node of its own. -/
theorem IsTree.ne_nil (htree : IsTree fs) (hget : fs.get p ≠ none) : p ≠ [] :=
  fun hnil => hget (hnil ▸ htree.root)

/-- `forceDelete` does what it should to one path, as long as the deletion of directories does so
with the room that is left. -/
theorem deletes_forceDelete {room : Nat} (hworks : Works h room) (htree : IsTree fs)
    (hfits : Fits fs room p) (hget : fs.get p ≠ none) :
    Deletes h fs p (forceDelete h (deleteDirectory h room) fs p) := by
  have hroot := IsTree.ne_nil htree hget
  unfold forceDelete
  cases hlink : isSymlink h fs p with
  | true =>
      cases hdir : isDirectory h fs p with
      | true =>
          have hexists : fileExists h fs p = true := by
            rw [isDirectory, if_pos hlink, decide_eq_true_eq] at hdir
            rw [fileExists, if_pos hlink, hdir]
            rfl
          exact hworks fs p htree hfits hget hexists (.inl hlink)
      | false =>
          refine deletes_deleteOrThrow hget (hasChildren_of_not_dir htree hroot fun hnode => ?_)
          rw [isSymlink, Fs.isFile, hnode, Bool.and_false] at hlink
          cases hlink
  | false =>
      have hlink' : ¬ isSymlink h fs p = true := by simp [hlink]
      have hdir : isDirectory h fs p = true ↔ fs.get p = some .dir := by
        rw [isDirectory, if_neg hlink', Fs.isDirectory, decide_eq_true_eq]
        exact or_iff_right hroot
      by_cases hnode : fs.get p = some .dir
      · rw [if_pos (hdir.mpr hnode)]
        have hexists : fileExists h fs p = true := by
          simp [fileExists, hlink, Fs.fileExists, hnode]
        exact hworks fs p htree hfits hget hexists (.inr hnode)
      · rw [if_neg (mt hdir.mp hnode)]
        exact deletes_deleteOrThrow hget (hasChildren_of_not_dir htree hroot hnode)

/-- The loop deletes the files in turn, and goes on behind one that it cannot delete. -/
theorem deletes_forceDeleteEach {room : Nat} (hworks : Works h room) {files : List Path}
    (htree : IsTree fs) (hfiles : ∀ p ∈ files, Fits fs room p ∧ fs.get p ≠ none)
    (hapart : files.Pairwise fun p q => ¬ p <+: q) (failed : Bool) :
    Deleted h fs files (forceDeleteEach h (deleteDirectory h room) fs failed files).2 ∧
      (((forceDeleteEach h (deleteDirectory h room) fs failed files).1 = .ok () ∧
          failed = false ∧ ∀ p ∈ files, ¬ Stays h fs p) ∨
        ((forceDeleteEach h (deleteDirectory h room) fs failed files).1 = .error .io ∧
          (failed = true ∨ ∃ p ∈ files, Stays h fs p))) := by
  induction files generalizing fs failed with
  | nil =>
      refine ⟨⟨fun p hp => by simp at hp, fun _ _ => rfl⟩, ?_⟩
      cases failed with
      | false => exact .inl ⟨rfl, rfl, fun p hp => by simp at hp⟩
      | true => exact .inr ⟨rfl, .inl rfl⟩
  | cons file files ih =>
      obtain ⟨hfits, hget⟩ := hfiles file List.mem_cons_self
      have hforce := deletes_forceDelete hworks htree hfits hget
      obtain ⟨hbehind, hapart⟩ := List.pairwise_cons.mp hapart
      -- the files that follow are where they were
      have hgoes (failed : Bool) := ih (hforce.1.isTree htree)
        (fun p hp => by
          obtain ⟨hfits', hget'⟩ := hfiles p (List.mem_cons_of_mem file hp)
          refine ⟨hforce.1.fits hfits', ?_⟩
          rw [hforce.1.kept p]
          · exact hget'
          · rintro ⟨file', hfile', hpre⟩
            exact absurd (List.mem_singleton.mp hfile' ▸ hpre) (hbehind p hp)) hapart failed
      rw [forceDeleteEach]
      generalize forceDelete h (deleteDirectory h room) fs file = out at hforce hgoes ⊢
      obtain ⟨r, fs'⟩ := out
      have hstays : ∀ p, Stays h fs' p ↔ Stays h fs p := fun _ => hforce.1.stays_iff
      rcases hforce.2 with ⟨hr, hnone⟩ | ⟨hr, p, hp, hstay⟩
      · cases hr
        obtain ⟨hdel, hout⟩ := hgoes failed
        simp only [hstays] at hout
        refine ⟨hforce.1.trans hdel, hout.imp ?_ ?_⟩
        · rintro ⟨hok, hfailed, hrest⟩
          refine ⟨hok, hfailed, List.forall_mem_cons.mpr ⟨?_, hrest⟩⟩
          exact hnone file (List.mem_singleton_self file)
        · exact And.imp_right (Or.imp_right fun ⟨p, hp, hstay⟩ =>
            ⟨p, List.mem_cons_of_mem file hp, hstay⟩)
      · cases hr
        obtain ⟨hdel, hout⟩ := hgoes true
        obtain rfl := List.mem_singleton.mp hp
        refine ⟨hforce.1.trans hdel, .inr ⟨?_, .inr ⟨p, List.mem_cons_self, hstay⟩⟩⟩
        rcases hout with ⟨-, hfalse, -⟩ | ⟨hio, -⟩
        · cases hfalse
        · exact hio

/-- What is below a directory is below one of its files. -/
theorem exists_file_above (htree : IsTree fs) (hget : fs.get q ≠ none) (hpre : p <+: q)
    (hne : q ≠ p) : ∃ file ∈ listFiles fs p, file <+: q := by
  obtain ⟨rest, rfl⟩ := hpre
  cases rest with
  | nil => simp at hne
  | cons name rest =>
      have hsplit : p ++ name :: rest = p ++ [name] ++ rest := by simp
      have hpre : p ++ [name] <+: p ++ name :: rest := hsplit ▸ List.prefix_append _ _
      refine ⟨p ++ [name], mem_listFiles.mpr ⟨?_, name, rfl⟩, hpre⟩
      by_cases hlast : p ++ [name] = p ++ name :: rest
      · rwa [hlast]
      · simp [htree.above hget hpre (by simp) hlast]

/-- No file of a directory is below another one. -/
theorem pairwise_listFiles (fs : Fs) (p : Path) :
    (listFiles fs p).Pairwise fun q r => ¬ q <+: r := by
  have hnodup : (listFiles fs p).Nodup := (List.nodup_dedup _).filter _
  refine hnodup.imp_of_mem fun {q r} hq hr hne hpre => hne ?_
  obtain ⟨-, name, rfl⟩ := mem_listFiles.mp hq
  obtain ⟨-, name', rfl⟩ := mem_listFiles.mp hr
  exact hpre.eq_of_length (by simp)

/-- A file of a directory lies below it, and not the other way around. -/
theorem not_prefix_of_mem_listFiles {file : Path} (hfile : file ∈ listFiles fs p) :
    p <+: file ∧ ¬ file <+: p := by
  obtain ⟨-, name, rfl⟩ := mem_listFiles.mp hfile
  refine ⟨List.prefix_append _ _, fun hpre => ?_⟩
  have hlength := hpre.length_le
  rw [List.length_append, List.length_singleton] at hlength
  omega

/-- The files of a directory and then the directory. -/
theorem deletes_of_cleaned (htree : IsTree fs) (hget : fs.get p ≠ none)
    (hdel : Deleted h fs (listFiles fs p) fs') (hnone : ∀ q ∈ listFiles fs p, ¬ Stays h fs q) :
    Deletes h fs p (deleteOrThrow h fs' p) := by
  have hsame : fs'.get p = fs.get p := by
    refine hdel.kept p ?_
    rintro ⟨file, hfile, hpre⟩
    exact absurd hpre (not_prefix_of_mem_listFiles hfile).2
  have hempty : fs'.hasChildren p = false := by
    rw [← Bool.not_eq_true, Fs.hasChildren_iff]
    rintro ⟨q, hpre, hne, hq⟩
    obtain ⟨file, hfile, habove⟩ :=
      exists_file_above htree (hdel.get_of_ne hq ▸ hq) hpre hne
    exact hq (hdel.gone file hfile q habove fun hstay => hnone file hfile (hstay.above habove))
  obtain ⟨hlast, hreports⟩ := deletes_deleteOrThrow (h := h) (hsame ▸ hget) hempty
  have hboth := hdel.trans hlast
  refine ⟨⟨fun p' hp' => hboth.gone p' (List.mem_append_right _ hp'), fun q hq => ?_⟩, ?_⟩
  · refine hboth.kept q ?_
    rintro ⟨file, hfile, hpre⟩
    rcases List.mem_append.mp hfile with hfile | hfile
    · exact hq ⟨p, List.mem_singleton_self p, (not_prefix_of_mem_listFiles hfile).1.trans hpre⟩
    · exact hq ⟨file, hfile, hpre⟩
  · simpa only [Reports, hdel.stays_iff] using hreports

/-- Where some of its files stay, the directory stays. -/
theorem deletes_of_uncleaned (htree : IsTree fs) (hdel : Deleted h fs (listFiles fs p) fs')
    (hstay : Stays h fs p) : Deletes h fs p (.error .io, fs') := by
  refine ⟨⟨?_, fun q hq => ?_⟩, .inr ⟨rfl, p, List.mem_singleton_self p, hstay⟩⟩
  · intro p' hp' q hpre hq
    obtain rfl := List.mem_singleton.mp hp'
    by_contra hthere
    have hne : q ≠ p' := fun hqp => hq (hqp ▸ hstay)
    obtain ⟨file, hfile, habove⟩ :=
      exists_file_above htree (hdel.get_of_ne hthere ▸ hthere) hpre hne
    exact hthere (hdel.gone file hfile q habove hq)
  · refine hdel.kept q ?_
    rintro ⟨file, hfile, hpre⟩
    exact hq ⟨p, List.mem_singleton_self p, (not_prefix_of_mem_listFiles hfile).1.trans hpre⟩

/-- With any room, the deletion of directories does what it should: by induction on the room, which
is the depth of the recursion. -/
theorem works (room : Nat) : Works h room := by
  induction room with
  | zero =>
      intro fs p _ hfits hget _ _
      exact absurd (hfits p hget List.prefix_rfl) (Nat.lt_irrefl _)
  | succ room ih =>
      intro fs p htree hfits hget hexists hnode
      have hroot := IsTree.ne_nil htree hget
      rw [deleteDirectory, if_neg (by simp [hexists])]
      split
      next hlink =>
        refine deletes_deleteOrThrow hget (hasChildren_of_not_dir htree hroot fun hdir => ?_)
        simp [isSymlink, Fs.isFile, hdir] at hlink
      next hlink =>
        have hdir : isDirectory h fs p = true := by
          simp [isDirectory, hlink, Fs.isDirectory, hnode.resolve_left hlink]
        have hfiles : ∀ q ∈ listFiles fs p, Fits fs room q ∧ fs.get q ≠ none := by
          intro q hq
          obtain ⟨hthere, name, rfl⟩ := mem_listFiles.mp hq
          refine ⟨fun r hr hpre => ?_, hthere⟩
          have hlength := hfits r hr ((List.prefix_append p [name]).trans hpre)
          rw [List.length_append, List.length_singleton]
          omega
        have hloop := deletes_forceDeleteEach ih htree hfiles (pairwise_listFiles fs p) false
        rw [cleanDirectory, if_neg (by simp [hexists]), if_neg (by simp [hdir])]
        generalize forceDeleteEach h (deleteDirectory h room) fs false (listFiles fs p) = out
          at hloop ⊢
        obtain ⟨r, fs'⟩ := out
        obtain ⟨hdel, ⟨hr, -, hnone⟩ | ⟨hr, hfailed⟩⟩ := hloop
        · cases hr
          exact deletes_of_cleaned htree hget hdel hnone
        · cases hr
          obtain ⟨file, hfile, hstay⟩ := hfailed.resolve_left (by simp)
          exact deletes_of_uncleaned htree hdel
            (hstay.above (not_prefix_of_mem_listFiles hfile).1)

/-- A link or a directory is there. -/
theorem get_ne_none_of_node (hnode : isSymlink h fs p = true ∨ fs.get p = some .dir) :
    fs.get p ≠ none := by
  intro hnone
  rcases hnode with hlink | hdir
  · simp [isSymlink, Fs.isFile, hnone] at hlink
  · rw [hnone] at hdir
    cases hdir

/-- An existing directory or link is deleted up to what has to stay, wherever links lead; an
{lit}`IOException` says that something is left. -/
theorem deleteDirectory_spec {room : Nat} (htree : IsTree fs) (hfits : Fits fs room p)
    (hexists : fileExists h fs p = true)
    (hnode : isSymlink h fs p = true ∨ fs.get p = some .dir) :
    Deletes h fs p (deleteDirectory h room fs p) := by
  exact works room fs p htree hfits (get_ne_none_of_node hnode) hexists hnode

/-- The directory of an installation. -/
def installDir : Path :=
  ["home".toList, "pack".toList]

/-- A directory with a link to another one, with a file that cannot be deleted, and with a
directory. -/
def modsDisk : Fs where
  nodes :=
    [(["home".toList], .dir), (installDir, .dir),
      (installDir ++ ["mods".toList], .dir),
      (installDir ++ ["mods".toList, "link".toList], .file "../saves".toList),
      (installDir ++ ["mods".toList, "open.jar".toList], .file []),
      (installDir ++ ["mods".toList, "1.7.10".toList], .dir),
      (installDir ++ ["mods".toList, "1.7.10".toList, "a.jar".toList], .file []),
      (installDir ++ ["saves".toList], .dir),
      (installDir ++ ["saves".toList, "world".toList], .file [])]

/-- A system on which a jar is in use. -/
def modsHost : Host where
  isLink p := p = installDir ++ ["mods".toList, "link".toList]
  leadsTo fs _ := fs.isDirectory (installDir ++ ["saves".toList])
  refuses p := p = installDir ++ ["mods".toList, "open.jar".toList]

/-- The mods directory of a pack, with two files in it. -/
theorem deleteDirectory_spec_mods :
    Deletes modsHost modsDisk (installDir ++ ["mods".toList])
      (deleteDirectory modsHost 3 modsDisk (installDir ++ ["mods".toList])) :=
  deleteDirectory_spec (by decide) (by decide) (by decide) (.inr (by decide))

/-! ## The cleanup -/

variable (h) in
/-- A file that is no link. -/
def Plain (fs : Fs) (p : Path) : Prop :=
  fs.isFile p = true ∧ h.isLink p = false

instance (h : Host) (fs : Fs) (p : Path) : Decidable (Plain h fs p) :=
  inferInstanceAs (Decidable (_ ∧ _))

variable (h) in
/-- Below a path only that is left which has to stay. -/
def Left (fs : Fs) (p : Path) (fs' : Fs) : Prop :=
  ∀ q, p <+: q →
    (Stays h fs q → fs'.get q = fs.get q) ∧ (¬ Stays h fs q → fs'.get q = none)

/-- A deletion of one path, read at the path and at everything else. -/
theorem Deleted.left (hdel : Deleted h fs [p] fs') : Left h fs p fs' :=
  fun q hpre => ⟨fun hstay => hdel.kept q fun _ => hstay,
    hdel.gone p (List.mem_singleton_self p) q hpre⟩

/-- Whether a plain file is in the way is read off the path alone. -/
theorem plain_congr (hsame : fs'.get p = fs.get p) : Plain h fs' p ↔ Plain h fs p := by
  rw [Plain, Plain, Fs.isFile, Fs.isFile, hsame]

/-- What `deleteDirectory` meets: a plain file, nothing, or something to delete. -/
theorem deleteDirectory_cases {room : Nat} (htree : IsTree fs) (hroom : 0 < room)
    (hfits : Fits fs room p) (hroot : p ≠ []) :
    (Plain h fs p ∧ (deleteDirectory h room fs p).1 = .error .illegalArgument) ∨
      (¬ Plain h fs p ∧ fs.get p ≠ some .dir ∧ deleteDirectory h room fs p = (.ok (), fs)) ∨
      (¬ Plain h fs p ∧ Deletes h fs p (deleteDirectory h room fs p)) := by
  obtain ⟨room, rfl⟩ := Nat.exists_eq_succ_of_ne_zero hroom.ne'
  cases hexists : fileExists h fs p with
  | false =>
      refine .inr (.inl ⟨?_, ?_, ?_⟩)
      · rintro ⟨hfile, hlink⟩
        have hget : (fs.get p).isSome = true := by
          unfold Fs.isFile at hfile
          split at hfile
          next hnode => rw [hnode]; rfl
          · cases hfile
        simp [fileExists, isSymlink, hlink, Fs.fileExists, hget] at hexists
      · intro hdir
        simp [fileExists, isSymlink, Fs.isFile, Fs.fileExists, hdir] at hexists
      · rw [deleteDirectory, if_pos (by simp [hexists])]
  | true =>
      by_cases hnode : isSymlink h fs p = true ∨ fs.get p = some .dir
      · have hget := get_ne_none_of_node hnode
        refine .inr (.inr ⟨?_, works _ fs p htree hfits hget hexists hnode⟩)
        rintro ⟨hfile, hlink⟩
        rcases hnode with hsymlink | hdir
        · simp [isSymlink, hlink] at hsymlink
        · simp [Fs.isFile, hdir] at hfile
      · obtain ⟨hsymlink, hdir⟩ := not_or.mp hnode
        refine .inl ⟨?_, ?_⟩
        · have hfile : fs.isFile p = true := by
            rw [fileExists, if_neg hsymlink, Fs.fileExists, Bool.or_eq_true, decide_eq_true_eq]
              at hexists
            have hsome := hexists.resolve_left hroot
            cases hget : fs.get p with
            | none => simp [hget] at hsome
            | some node =>
                cases node with
                | file content => simp [Fs.isFile, hget]
                | dir => exact absurd hget hdir
          refine ⟨hfile, ?_⟩
          simpa [isSymlink, hfile] using hsymlink
        · have hnot : isDirectory h fs p = false := by
            simp [isDirectory, hsymlink, Fs.isDirectory, hroot, hdir]
          rw [deleteDirectory, if_neg (by simp [hexists]), if_neg hsymlink, cleanDirectory,
            if_neg (by simp [hexists]), if_pos (by simp [hnot])]

/-- Two directories side by side have nothing below both. -/
theorem not_prefix_of_ne {dir : Path} {name name' : Text} (hne : name ≠ name')
    (hpre : dir ++ [name'] <+: q) : ¬ dir ++ [name] <+: q := by
  intro hpre'
  obtain hbelow | hbelow := List.prefix_or_prefix_of_prefix hpre hpre'
  all_goals
    have hsame := hbelow.eq_of_length (by simp)
    simp only [List.append_cancel_left_eq, List.cons.injEq, and_true] at hsame
  · exact hne hsame.symm
  · exact hne hsame

/-- The loop over the names leaves alone what lies below none of them. -/
theorem deleteEach_frame (room : Nat) (dir : Path) (fs : Fs) (names : List Text)
    (hq : ∀ name ∈ names, ¬ dir ++ [name] <+: q) :
    (deleteEach h room dir fs names).2.get q = fs.get q := by
  induction names generalizing fs with
  | nil => rfl
  | cons name names ih =>
      have hfirst := deleteDirectory_frame (h := h) room fs (dir ++ [name]) q
        (hq name List.mem_cons_self)
      have hrest (fs' : Fs) : (deleteEach h room dir fs' names).2.get q = fs'.get q :=
        ih fs' fun name' hmem => hq name' (List.mem_cons_of_mem name hmem)
      rw [← hfirst, deleteEach]
      split
      next fs' hout => rw [hout, hrest]
      next fs' hout => rw [hout, hrest]
      next e fs' _ hout => rw [hout]

/-- An `IOException` does not end the cleanup. -/
theorem deleteEach_cons {room : Nat} {dir : Path} {name : Text} {r : Except Thrown Unit}
    (hout : deleteDirectory h room fs (dir ++ [name]) = (r, fs'))
    (hr : r = .ok () ∨ r = .error .io) (names : List Text) :
    deleteEach h room dir fs (name :: names) = deleteEach h room dir fs' names := by
  rw [deleteEach, hout]
  rcases hr with rfl | rfl <;> rfl

/-- One name after the other: a plain file ends it, and directories are deleted. -/
theorem deleteEach_spec {room : Nat} (hroom : 0 < room) {dir : Path} {names : List Text}
    (hnodup : names.Nodup) (htree : IsTree fs)
    (hfits : ∀ name ∈ names, Fits fs room (dir ++ [name])) :
    ((deleteEach h room dir fs names).1 =
        if ∀ name ∈ names, ¬ Plain h fs (dir ++ [name]) then .ok () else .error .illegalArgument) ∧
      ((∀ name ∈ names, ¬ Plain h fs (dir ++ [name])) →
        ∀ name ∈ names, fs.get (dir ++ [name]) = some .dir →
          Left h fs (dir ++ [name]) (deleteEach h room dir fs names).2) := by
  induction names generalizing fs with
  | nil => simp [deleteEach]
  | cons name names ih =>
      obtain ⟨hname, hnodup⟩ := List.nodup_cons.mp hnodup
      have hcases := deleteDirectory_cases (h := h) htree hroom
        (hfits name List.mem_cons_self) (by simp)
      have hframe := deleteDirectory_frame (h := h) room fs (dir ++ [name])
      have hapart : ∀ name' ∈ names, ∀ q, dir ++ [name'] <+: q → ¬ dir ++ [name] <+: q := by
        intro name' hmem q hpre
        exact not_prefix_of_ne (fun heq => hname (heq ▸ hmem)) hpre
      rcases hout : deleteDirectory h room fs (dir ++ [name]) with ⟨r, fs'⟩
      simp only [hout] at hcases hframe
      rcases hcases with ⟨hplain, hr⟩ | hgoes
      · cases hr
        have hnot : ¬ ∀ name' ∈ name :: names, ¬ Plain h fs (dir ++ [name']) :=
          fun hall => hall name List.mem_cons_self hplain
        rw [deleteEach, hout]
        exact ⟨(if_neg hnot).symm, fun hall => absurd hall hnot⟩
      · obtain ⟨hplain, ⟨paths, hdel⟩, hr, hleft⟩ : ¬ Plain h fs (dir ++ [name]) ∧
            (∃ paths, Deleted h fs paths fs') ∧ (r = .ok () ∨ r = .error .io) ∧
            (fs.get (dir ++ [name]) = some .dir → Left h fs (dir ++ [name]) fs') := by
          rcases hgoes with ⟨hplain, hnode, hsame⟩ | ⟨hplain, hdel, hreports⟩
          · cases hsame
            exact ⟨hplain, ⟨[], by simp, fun _ _ => rfl⟩, .inl rfl, fun hdir => absurd hdir hnode⟩
          · exact ⟨hplain, ⟨_, hdel⟩, hreports.imp And.left And.left, fun _ => hdel.left⟩
        -- the names that follow are not touched yet
        have hsame : ∀ name' ∈ names, fs'.get (dir ++ [name']) = fs.get (dir ++ [name']) :=
          fun name' hmem => hframe _ (hapart name' hmem _ List.prefix_rfl)
        have hplains : (∀ name' ∈ names, ¬ Plain h fs' (dir ++ [name'])) ↔
            ∀ name' ∈ name :: names, ¬ Plain h fs (dir ++ [name']) := by
          rw [List.forall_mem_cons, and_iff_right hplain]
          exact forall₂_congr fun name' hmem => not_congr (plain_congr (hsame name' hmem))
        obtain ⟨hout', hrest⟩ := ih hnodup (hdel.isTree htree) fun name' hmem =>
          hdel.fits (hfits name' (List.mem_cons_of_mem name hmem))
        rw [deleteEach_cons hout hr]
        refine ⟨hout'.trans (if_congr hplains rfl rfl), fun hall name' hmem hdir q hpre => ?_⟩
        rcases List.mem_cons.mp hmem with rfl | hmem
        · rw [deleteEach_frame room dir fs' names fun name'' hmem' hpre' =>
            hapart name'' hmem' q hpre' hpre]
          exact hleft hdir q hpre
        · have hbehind := hrest (hplains.mpr hall) name' hmem ((hsame name' hmem).trans hdir) q hpre
          rwa [hdel.stays_iff, hframe q (hapart name' hmem q hpre)] at hbehind

/-- The files behind the directories. -/
theorem get_foldl_delete (names : List Text) (dir : Path) (fs : Fs)
    (hq : ∀ name ∈ names, q ≠ dir ++ [name]) :
    (names.foldl (fun fs name => (delete h fs (dir ++ [name])).2) fs).get q = fs.get q := by
  induction names generalizing fs with
  | nil => rfl
  | cons name names ih =>
      rw [List.foldl_cons, ih _ fun name' hmem => hq name' (List.mem_cons_of_mem name hmem)]
      exact get_delete_of_ne (hq name List.mem_cons_self)

/-- Whatever links lead to and however it ends, the cleanup touches only what bears one of its
names. -/
theorem cleanUp_frame (h : Host) (room : Nat) (fs : Fs) (dir : Path)
    (hq : ∀ name ∈ directories ++ files, ¬ dir ++ [name] <+: q) :
    (cleanUp h room fs dir).2.get q = fs.get q := by
  have hdirs := deleteEach_frame (h := h) room dir fs directories
    fun name hmem => hq name (List.mem_append_left _ hmem)
  rw [← hdirs, cleanUp]
  split
  next fs' hout =>
    rw [hout]
    refine get_foldl_delete files dir fs' fun name hmem heq => ?_
    exact hq name (List.mem_append_right _ hmem) (heq ▸ List.prefix_rfl)
  next e fs' hout => rw [hout]

/-- The world that the link leads to is still there. -/
theorem cleanUp_frame_world :
    (cleanUp modsHost 3 modsDisk installDir).2.get
      (installDir ++ ["saves".toList, "world".toList]) = some (.file []) :=
  (cleanUp_frame modsHost 3 modsDisk installDir (by decide)).trans (by decide)

/-- No name is both among the files and among the directories that `cleanUp` deletes. -/
theorem not_mem_directories : ∀ file ∈ files, file ∉ directories := by decide

/-- The cleanup ends as its loop does. -/
theorem fst_cleanUp (room : Nat) (fs : Fs) (dir : Path) :
    (cleanUp h room fs dir).1 = (deleteEach h room dir fs directories).1 := by
  rw [cleanUp]
  split
  next fs' hout => rw [hout]
  next e fs' hout => rw [hout]

/-- The files behind the directories are not below them. -/
theorem Left.cleanUp {room : Nat} {dir : Path} {name : Text} (hmem : name ∈ directories)
    (hleft : Left h fs (dir ++ [name]) (deleteEach h room dir fs directories).2) :
    Left h fs (dir ++ [name]) (cleanUp h room fs dir).2 := by
  rw [Deletion.cleanUp]
  split
  next fs' hout =>
    rw [hout] at hleft
    intro q hpre
    rw [get_foldl_delete files dir fs' fun file hfile heq => ?_]
    · exact hleft q hpre
    · have hne : file ≠ name := fun hsame => not_mem_directories file hfile (hsame ▸ hmem)
      exact not_prefix_of_ne hne hpre (heq ▸ List.prefix_rfl)
  next e fs' hout => rwa [hout] at hleft

/-- The cleanup returns exactly when none of the names that it takes for directories is that of a
plain file, and then its directories are gone but for what has to stay.  A plain file ends it with
an {lit}`IllegalArgumentException`. -/
theorem cleanUp_spec (h : Host) (room : Nat) (fs : Fs) (dir : Path) (hroom : 0 < room)
    (htree : IsTree fs) (hfits : ∀ name ∈ directories, Fits fs room (dir ++ [name])) :
    ((cleanUp h room fs dir).1 =
        if ∀ name ∈ directories, ¬ Plain h fs (dir ++ [name]) then .ok ()
        else .error .illegalArgument) ∧
      ((∀ name ∈ directories, ¬ Plain h fs (dir ++ [name])) →
        ∀ name ∈ directories, fs.get (dir ++ [name]) = some .dir →
          Left h fs (dir ++ [name]) (cleanUp h room fs dir).2) := by
  obtain ⟨hout, hleft⟩ := deleteEach_spec (h := h) hroom (by decide) htree hfits
  refine ⟨(fst_cleanUp room fs dir).trans hout, fun hall name hmem hdir => ?_⟩
  exact (hleft hall name hmem hdir).cleanUp hmem

/-- On the disk with the mods directory `cleanUp` ends normally and the directory is back. -/
theorem cleanUp_spec_mods :
    (cleanUp modsHost 3 modsDisk installDir).1 = .ok () ∧
      (cleanUp modsHost 3 modsDisk installDir).2.get (installDir ++ ["mods".toList]) =
        some .dir := by
  have hspec := cleanUp_spec modsHost 3 modsDisk installDir (by decide) (by decide) (by decide)
  refine ⟨hspec.1.trans (if_pos (by decide)), ?_⟩
  have hleft := hspec.2 (by decide) "mods".toList (by decide) (by decide)
  refine (hleft (installDir ++ ["mods".toList]) List.prefix_rfl).1 ?_
  exact ⟨installDir ++ ["mods".toList, "open.jar".toList], by decide, by decide, by decide⟩

end Deletion
end Update
end ModpackInstaller
