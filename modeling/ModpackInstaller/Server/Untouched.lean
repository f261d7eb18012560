import ModpackInstaller.Server.FilePolicy

/-!
# What a session leaves untouched

A file system, as far as the calls of a session promise anything about it: which places a name
or a descriptor stands for, and what a call leaves as it is.  What the policy permits to a
session says what becomes of the files.

Main results:

- Theorem {lit}`untouched_of_anonymous`: an anonymous client that may upload and make
  directories, and nothing else, leaves everything as it is that was there before.
- Theorem {lit}`untouched_of_readOnly`: without {lit}`write_enable` no session changes anything.
-/

namespace ModpackInstaller
namespace Server
namespace FileCommands

open Library Library.Proc

/-! ## File systems -/

/-- The calls that change a file. -/
def Call.changes : Call → Bool
  | create .. | fchmod .. | chownUpload _ | ftruncate _ | transferFile _ _ true _ | mkdir ..
  | rmdir _ | unlink _ | rename .. | chmod .. | setmodtime .. => true
  | _ => false

/-- The descriptor that a call changes a file through. -/
def Call.through : Call → Option Nat
  | fchmod fd _ | chownUpload fd | ftruncate fd | transferFile _ fd true _ => some fd
  | _ => none

/-- What the calls of a session promise about the files, where nobody else is at work.  What is
at a place is the file with its permissions, not the list in a directory; the log files of the
server are left out. -/
structure FileSystem {K : Type} (answer : (c : Call) → K → c.Result × K) where
  Place : Type
  Content : Type
  /-- What is at a place. -/
  content : K → Place → Option Content
  /-- The places that a name stands for. -/
  namedBy : K → Text → Place → Prop
  /-- The places of an open file. -/
  openAt : K → Nat → Place → Prop
  content_idle : ∀ c k place, c.changes = false →
    content (answer c k).2 place = content k place
  namedBy_steady : ∀ c k path place, c.steady = true →
    namedBy (answer c k).2 path place → namedBy k path place
  openAt_steady : ∀ c k fd place, c.steady = true →
    openAt (answer c k).2 fd place → openAt k fd place
  /-- `O_EXCL`: what is created was not there. -/
  create_content : ∀ path k place, content k place ≠ none →
    content (answer (.create path true) k).2 place = content k place
  create_namedBy : ∀ path k place fd, (answer (.create path true) k).1 = some fd →
    namedBy (answer (.create path true) k).2 path place → content k place = none
  create_openAt : ∀ path k place fd, (answer (.create path true) k).1 = some fd →
    openAt (answer (.create path true) k).2 fd place → content k place = none
  mkdir_content : ∀ path mode k place, content k place ≠ none →
    content (answer (.mkdir path mode) k).2 place = content k place
  through_content : ∀ c k fd place, c.through = some fd → ¬ openAt k fd place →
    content (answer c k).2 place = content k place
  unlink_content : ∀ path k place, ¬ namedBy k path place →
    content (answer (.unlink path) k).2 place = content k place

/-! ## A disk -/

/-- What a kernel without files answers; uploads come in whole. -/
def Call.idle : (c : Call) → c.Result
  | getLine | getpwnam _ | dataTransferChecks | latestVersion _ => none
  | getcwd => ['/']
  | fileread .. => []
  | parseTime _ | writeData _ | unassigned => (0 : Int)
  | updateInstructions .. => ((1 : Int), ([] : Text))
  | chdir _ | mkdir .. | rmdir _ | unlink _ | rename .. | chmod .. | setmodtime ..
  | aborReceived => false
  | disposeTransferFd => true
  | opendir _ | openReadOnly _ | create .. => none
  | getRemoteTransferFd _ => some 4
  | dirStat _ | stat _ => none
  | fstat _ => some ⟨true, false, true, 0, []⟩
  | fchmod .. | ftruncate _ | lseekTo .. | lseekEnd _ => some ()
  | transferFile .. => ⟨0, 0⟩
  | transferDir .. => (0 : Int)
  | write _ | log .. | closedir _ | lockFile .. | deactivateNoblock _ | chownUpload _ | close _
  | clearAbor | cleanup | elsewhere .. => ()

/-- Files by their names, the one that is open, and the lines that are still to come. -/
structure Disk where
  files : Text → Option Text
  opened : Option Text
  lines : List Text

namespace Disk

/-- Put something at a name, or nothing. -/
def put (d : Disk) (name : Text) (content : Option Text) : Disk :=
  { d with files := fun n => if n = name then content else d.files n }

/-- A kernel with one directory. -/
def serve : (c : Call) → Disk → c.Result × Disk
  | .getLine, d => (d.lines.head?, { d with lines := d.lines.tail })
  | .create path _, d =>
    if (d.files path).isSome then (none, d)
    else (some 3, { d.put path (some []) with opened := some path })
  | .transferFile _ _ true _, d =>
    (⟨0, 4⟩, d.opened.elim d fun name => d.put name (some "data".toList))
  | .unlink path, d => ((d.files path).isSome, d.put path none)
  | c, d => (c.idle, d)

end Disk

/-- The files on a disk. -/
def Disk.fileSystem : FileSystem Disk.serve where
  Place := Text
  Content := Text
  content d place := d.files place
  namedBy _ path place := path = place
  openAt d _ place := d.opened = some place
  content_idle c d place h := by
    cases c with
    | transferFile remoteFd fd isRecv isAscii =>
        cases isRecv with
        | false => rfl
        | true => cases h
    | _ => first | rfl | cases h
  namedBy_steady c d path place _ h := h
  openAt_steady c d fd place hsteady h := by
    cases c with
    | transferFile remoteFd fd isRecv isAscii =>
        cases isRecv with
        | false => exact h
        | true =>
            cases hopened : d.opened with
            | none => simp [Disk.serve, hopened] at h
            | some name => simpa [Disk.serve, hopened, Disk.put] using h
    | _ => first | exact h | cases hsteady
  create_content path d place hplace := by
    by_cases hthere : (d.files path).isSome
    · simp [Disk.serve, hthere]
    · have hne : place ≠ path := by
        rintro rfl
        exact hthere (Option.isSome_iff_ne_none.mpr hplace)
      simp [Disk.serve, hthere, Disk.put, hne]
  create_namedBy path d place fd hcreated hnamed := by
    subst hnamed
    by_contra hplace
    simp [Disk.serve, Option.isSome_iff_ne_none.mpr hplace] at hcreated
  create_openAt path d place fd hcreated hopen := by
    by_cases hthere : (d.files path).isSome
    · simp [Disk.serve, hthere] at hcreated
    · have hsame : path = place := by simpa [Disk.serve, hthere] using hopen
      rw [← hsame]
      simpa using hthere
  mkdir_content path mode d place _ := rfl
  through_content c d fd place hthrough hopen := by
    cases c with
    | transferFile remoteFd fd' isRecv isAscii =>
        cases isRecv with
        | false => cases hthrough
        | true =>
            cases hopened : d.opened with
            | none => simp [Disk.serve, hopened]
            | some name =>
                have hne : place ≠ name := by
                  rintro rfl
                  exact hopen hopened
                simp [Disk.serve, hopened, Disk.put, hne]
    | _ => first | rfl | cases hthrough
  unlink_content path d place hnamed := by
    have hne : place ≠ path := fun h => hnamed h.symm
    simp [Disk.serve, Disk.put, hne]

/-- An anonymous client that may upload. -/
def Config.anonymous : Config where
  isAnonymous := true
  isHttp := false
  httpGetArg := []
  httpGetArg_clean := List.not_mem_nil
  userStr := "ftp".toList
  writeEnable := true
  downloadEnable := true
  dirlistEnable := true
  anonUploadEnable := true
  anonMkdirWriteEnable := true
  anonOtherWriteEnable := false
  anonWorldReadableOnly := true
  chmodEnable := true
  mdtmWrite := true
  chownUploads := true
  chownUploadMode := 384
  deleteFailedUploads := true
  lockUploadFiles := true
  asciiUploadEnable := false
  asciiDownloadEnable := false
  dirmessageEnable := false
  messageFile := ".message".toList
  tildeUserEnable := false
  pasvEnable := true
  portEnable := true
  sslEnable := false
  denyFile := none
  cmdsAllowed := none
  cmdsDenied := none

/-- A disk with one file, and a client that tries to write to it and to delete it. -/
def Disk.visited : Disk where
  files := fun name => if name = "old".toList then some "mine".toList else none
  opened := none
  lines := ["STOR new".toList, "STOR old".toList, "DELE old".toList]

variable {K : Type} {answer : (c : Call) → K → c.Result × K} {cfg : Config}

/-! ## The anonymous client -/

/-- What was there is as it was, and an upload is no part of it. -/
structure Untouched (fs : FileSystem answer) (start : K) (journal : Journal) (k : K) : Prop where
  kept : ∀ place, fs.content start place ≠ none → fs.content k place = fs.content start place
  apart : ∀ path exclusive fd complete,
    held journal = some (.created path exclusive fd complete) →
      ∀ place, fs.namedBy k path place ∨ fs.openAt k fd place → fs.content start place = none

theorem mayWrite_of_anonymous (hanonymous : cfg.isAnonymous = true)
    (hother : cfg.anonOtherWriteEnable = false) : mayWrite cfg = false := by
  simp [mayWrite, hanonymous, hother]

/-- Whatever is told about an upload, it is the same upload. -/
theorem created_of_told {h : Held} {c : Call} {r : c.Result} {path : Text} {exclusive : Bool}
    {fd : Nat} {complete : Bool} (htold : h.told c r = .created path exclusive fd complete) :
    ∃ complete', h = .created path exclusive fd complete' := by
  unfold Held.told at htold
  split at htold
  · cases htold
    exact ⟨_, rfl⟩
  · cases htold
    exact ⟨_, rfl⟩
  · cases htold
  · cases htold
  · exact ⟨complete, htold⟩

/-- Only the creation of a file opens an upload. -/
theorem eq_create_of_opens {c : Call} {r : c.Result} {path : Text} {exclusive : Bool} {fd : Nat}
    {complete : Bool} (hopens : opens c r = some (.created path exclusive fd complete)) :
    c = .create path exclusive := by
  cases c with
  | create path' exclusive' =>
      obtain ⟨fd', -, hcreated⟩ := Option.map_eq_some_iff.mp hopens
      cases hcreated
      rfl
  | openReadOnly path' =>
      obtain ⟨fd', -, hreading⟩ := Option.map_eq_some_iff.mp hopens
      cases hreading
  | opendir path' =>
      obtain ⟨dir, -, hlisting⟩ := Option.map_eq_some_iff.mp hopens
      cases hlisting
  | _ => cases hopens

variable {fs : FileSystem answer} {start k : K} {before : Journal}

/-- The upload behind a call that leaves the names as they are. -/
theorem Untouched.apart_steady (h : Untouched fs start before k) {c : Call}
    (hsteady : c.steady = true) {path : Text} {exclusive : Bool} {fd : Nat} {complete : Bool}
    (hheld : held (⟨c, (answer c k).1⟩ :: before) = some (.created path exclusive fd complete))
    {place : fs.Place}
    (hplace : fs.namedBy (answer c k).2 path place ∨ fs.openAt (answer c k).2 fd place) :
    fs.content start place = none := by
  rw [held_of_steady hsteady, Option.map_eq_some_iff] at hheld
  obtain ⟨hd, hbefore, htold⟩ := hheld
  obtain ⟨complete', rfl⟩ := created_of_told htold
  refine h.apart path exclusive fd complete' hbefore place (hplace.imp ?_ ?_)
  · exact fs.namedBy_steady c k path place hsteady
  · exact fs.openAt_steady c k fd place hsteady

/-- Where nothing was before the call, nothing was at the start. -/
theorem Untouched.none_of_none (h : Untouched fs start before k) {place : fs.Place}
    (hnone : fs.content k place = none) : fs.content start place = none := by
  by_contra hsome
  exact hsome ((h.kept place hsome).symm.trans hnone)

/-- A call through a descriptor is permitted on an upload only. -/
theorem created_of_through {c : Call} {fd : Nat} (hpermits : Permits cfg before c)
    (hthrough : c.through = some fd) :
    ∃ path exclusive, Uploads cfg before path exclusive fd := by
  cases c with
  | fchmod fd' mode =>
      cases hthrough
      exact hpermits.2.2.2
  | chownUpload fd' =>
      cases hthrough
      exact hpermits.2.2
  | ftruncate fd' =>
      cases hthrough
      obtain ⟨path, hupload⟩ := hpermits
      exact ⟨path, false, hupload⟩
  | transferFile remoteFd fd' isRecv isAscii =>
      cases isRecv with
      | false => cases hthrough
      | true =>
          cases hthrough
          exact hpermits
  | _ => cases hthrough

/-- A call changes a file by its name, or through a descriptor. -/
theorem through_or_named {c : Call} (hchanges : c.changes = true) :
    (∃ fd, c.through = some fd) ∨ (∃ path exclusive, c = .create path exclusive) ∨
      (∃ path mode, c = .mkdir path mode) ∨ (∃ path, c = .rmdir path) ∨
      (∃ path, c = .unlink path) ∨ (∃ source target, c = .rename source target) ∨
      (∃ path mode, c = .chmod path mode) ∨ ∃ path modtime, c = .setmodtime path modtime := by
  cases c with
  | transferFile remoteFd fd isRecv isAscii =>
      cases isRecv with
      | false => cases hchanges
      | true => exact .inl ⟨fd, rfl⟩
  | _ => first | (cases hchanges; done) | simp [Call.through]

/-- What was there is kept by a permitted call. -/
theorem Untouched.kept_step (h : Untouched fs start before k) (hanonymous : cfg.isAnonymous = true)
    (hother : cfg.anonOtherWriteEnable = false) {c : Call} (hpermits : Permits cfg before c)
    {place : fs.Place} (hplace : fs.content start place ≠ none) :
    fs.content (answer c k).2 place = fs.content start place := by
  have hnot : ¬ mayWrite cfg = true := by simp [mayWrite_of_anonymous hanonymous hother]
  have hsome : fs.content k place ≠ none := by rwa [h.kept place hplace]
  rw [← h.kept place hplace]
  by_cases hchanges : c.changes = true
  · rcases through_or_named hchanges with ⟨fd, hthrough⟩ | ⟨path, exclusive, rfl⟩ |
      ⟨path, mode, rfl⟩ | ⟨path, rfl⟩ | ⟨path, rfl⟩ | ⟨source, target, rfl⟩ | ⟨path, mode, rfl⟩ |
      ⟨path, modtime, rfl⟩
    · obtain ⟨path, exclusive, hheld, -⟩ := created_of_through hpermits hthrough
      refine fs.through_content c k fd place hthrough fun hopen => hplace ?_
      exact h.apart path exclusive fd false hheld place (.inr hopen)
    · cases exclusive with
      | false => exact absurd hpermits.1 hnot
      | true => exact fs.create_content path k place hsome
    · exact fs.mkdir_content path mode k place hsome
    · exact absurd hpermits.1 hnot
    · rcases hpermits with hdele | ⟨-, exclusive, fd, hheld, -⟩
      · exact absurd hdele.1 hnot
      · refine fs.unlink_content path k place fun hnamed => hplace ?_
        exact h.apart path exclusive fd false hheld place (.inl hnamed)
    · exact absurd hpermits.1 hnot
    · exact absurd hpermits.1 (by simp [hanonymous])
    · exact absurd hpermits.1 hnot
  · exact fs.content_idle c k place (by simpa using hchanges)

/-- An upload is new when it is created, and remains apart. -/
theorem Untouched.apart_step (h : Untouched fs start before k)
    (hanonymous : cfg.isAnonymous = true) (hother : cfg.anonOtherWriteEnable = false) {c : Call}
    (hpermits : Permits cfg before c) {path : Text} {exclusive : Bool} {fd : Nat}
    {complete : Bool}
    (hheld : held (⟨c, (answer c k).1⟩ :: before) = some (.created path exclusive fd complete))
    {place : fs.Place}
    (hplace : fs.namedBy (answer c k).2 path place ∨ fs.openAt (answer c k).2 fd place) :
    fs.content start place = none := by
  by_cases hsteady : c.steady = true
  · exact h.apart_steady hsteady hheld hplace
  · rw [held_of_unsteady (by simpa using hsteady)] at hheld
    obtain rfl := eq_create_of_opens hheld
    obtain ⟨fd', hfd, hcreated⟩ := Option.map_eq_some_iff.mp hheld
    cases hcreated
    cases exclusive with
    | false =>
        have hnot := mayWrite_of_anonymous hanonymous hother
        exact absurd hpermits.1 (by simp [hnot])
    | true =>
        apply h.none_of_none
        rcases hplace with hnamed | hopen
        · exact fs.create_namedBy path k place fd hfd hnamed
        · exact fs.create_openAt path k place fd hfd hopen

/-- Whatever an anonymous client sends, all that was there when the session began is there
unchanged, unless {lit}`anon_other_write_enable` lets it do more than upload files and make
directories. -/
theorem untouched_of_anonymous (fs : FileSystem answer) (hanonymous : cfg.isAnonymous = true)
    (hother : cfg.anonOtherWriteEnable = false) (k : K) (tries rounds : Nat) (place : fs.Place)
    (hplace : fs.content k place ≠ none) :
    fs.content ((processPostLogin answer cfg tries rounds).exec (State.start k) []).state.kernel
      place = fs.content k place := by
  have hready := ready_of_exec answer cfg k tries rounds
  have huntouched : Untouched fs k _ _ :=
    hready.sound.follows.invariant (I := Untouched fs k) hready.sound.permitted ?_ ?_
  · exact huntouched.kept place hplace
  · exact ⟨fun _ _ => rfl, fun _ _ _ _ h => nomatch h⟩
  · intro before k' c h hpermits
    exact ⟨fun _ hplace => h.kept_step hanonymous hother hpermits hplace,
      fun _ _ _ _ hheld _ hplace => h.apart_step hanonymous hother hpermits hheld hplace⟩

theorem untouched_of_anonymous_old :
    Disk.fileSystem.content ((processPostLogin Disk.serve .anonymous 1 3).exec
      (State.start Disk.visited) []).state.kernel "old".toList =
      Disk.fileSystem.content Disk.visited "old".toList :=
  untouched_of_anonymous Disk.fileSystem rfl rfl Disk.visited 1 3 "old".toList
    (by simp [Disk.fileSystem, Disk.visited])

example : (((processPostLogin Disk.serve .anonymous 1 3).exec
    (State.start Disk.visited) []).state.kernel.files "new".toList) = some "data".toList := by
  decide

/-! ## Nothing may be written -/

/-- Without `write_enable` no call that changes a file is permitted, where no upload is held. -/
theorem not_changes_of_readOnly (hwrite : cfg.writeEnable = false)
    (hheld : ∀ path exclusive fd complete,
      held before ≠ some (.created path exclusive fd complete))
    {c : Call} (hpermits : Permits cfg before c) : c.changes = false := by
  have hupload : ¬ mayUpload cfg = true := by simp [mayUpload, hwrite]
  have hmkdir : ¬ mayMkdir cfg = true := by simp [mayMkdir, hwrite]
  have hnot : ¬ mayWrite cfg = true := by simp [mayWrite, hwrite]
  rw [← Bool.not_eq_true]
  intro hchanges
  rcases through_or_named hchanges with ⟨fd, hthrough⟩ | ⟨path, exclusive, rfl⟩ |
    ⟨path, mode, rfl⟩ | ⟨path, rfl⟩ | ⟨path, rfl⟩ | ⟨source, target, rfl⟩ | ⟨path, mode, rfl⟩ |
    ⟨path, modtime, rfl⟩
  · obtain ⟨path, exclusive, hcreated, -⟩ := created_of_through hpermits hthrough
    exact hheld path exclusive fd false hcreated
  · cases exclusive with
    | false => exact hnot hpermits.1
    | true => exact hupload hpermits.1
  · exact hmkdir hpermits.1
  · exact hnot hpermits.1
  · rcases hpermits with hdele | ⟨-, exclusive, fd, hcreated, -⟩
    · exact hnot hdele.1
    · exact hheld path exclusive fd false hcreated
  · exact hnot hpermits.1
  · exact absurd hpermits.2.1 (by simp [hwrite])
  · exact hnot hpermits.1

/-- A call that changes nothing opens no upload. -/
theorem not_created_step (hheld : ∀ path exclusive fd complete,
      held before ≠ some (.created path exclusive fd complete))
    {c : Call} (hchanges : c.changes = false) (r : c.Result) (path : Text) (exclusive : Bool)
    (fd : Nat) (complete : Bool) :
    held (⟨c, r⟩ :: before) ≠ some (.created path exclusive fd complete) := by
  intro hcreated
  by_cases hsteady : c.steady = true
  · rw [held_of_steady hsteady, Option.map_eq_some_iff] at hcreated
    obtain ⟨h, hbefore, htold⟩ := hcreated
    obtain ⟨complete', rfl⟩ := created_of_told htold
    exact hheld path exclusive fd complete' hbefore
  · rw [held_of_unsteady (by simpa using hsteady)] at hcreated
    obtain rfl := eq_create_of_opens hcreated
    cases hchanges

/-- Whatever the client sends, without {lit}`write_enable` there is everywhere what was there
when the session began. -/
theorem untouched_of_readOnly (fs : FileSystem answer) (hwrite : cfg.writeEnable = false) (k : K)
    (tries rounds : Nat) (place : fs.Place) :
    fs.content ((processPostLogin answer cfg tries rounds).exec (State.start k) []).state.kernel
      place = fs.content k place := by
  have hready := ready_of_exec answer cfg k tries rounds
  have hsame : (∀ path exclusive fd complete,
      held _ ≠ some (.created path exclusive fd complete)) ∧
      fs.content _ place = fs.content k place :=
    hready.sound.follows.invariant (I := fun journal k' =>
      (∀ path exclusive fd complete,
        held journal ≠ some (.created path exclusive fd complete)) ∧
        fs.content k' place = fs.content k place) hready.sound.permitted ?_ ?_
  · exact hsame.2
  · exact ⟨by simp [held], rfl⟩
  · intro before k' c h hpermits
    have hchanges := not_changes_of_readOnly hwrite h.1 hpermits
    exact ⟨not_created_step h.1 hchanges _, (fs.content_idle c k' place hchanges).trans h.2⟩

theorem untouched_of_readOnly_new :
    Disk.fileSystem.content ((processPostLogin Disk.serve
      { Config.anonymous with writeEnable := false } 1 3).exec
        (State.start Disk.visited) []).state.kernel "new".toList =
      Disk.fileSystem.content Disk.visited "new".toList :=
  untouched_of_readOnly Disk.fileSystem rfl Disk.visited 1 3 "new".toList

end FileCommands
end Server
end ModpackInstaller
