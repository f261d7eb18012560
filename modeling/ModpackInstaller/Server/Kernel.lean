import ModpackInstaller.Server.Str

/-!
# System calls of the server process

What the server learns from the file system through {lit}`sysutil.c`,
{lit}`sysstr.c` and {lit}`filestr.c`.  The file system is an oracle that
answers by path and by moment: the clock of the process counts its path
look-ups, so anything another program does in between is an oracle that
answers differently later.  The descriptors the process holds are a list.

Main results:

- Theorem {lit}`strFileread_fds`: {lit}`strFileread` keeps the set of open
  descriptors.
- Theorem {lit}`strFileread_regular`: from a regular file it reads the first
  {lit}`maxsize` bytes and no more.
-/

namespace ModpackInstaller
namespace Server

/-- The file types that the server tells apart. -/
inductive FileType where
  | regular
  | directory
  /-- Sockets, pipes, devices. -/
  | special
deriving DecidableEq, Repr

/-- A file behind a descriptor: what `fstat` and `read` will say. -/
structure OpenFile where
  type : FileType
  size : Nat
  /-- The bytes from the start on, or `none` when `read` reports an error. -/
  data : Option Text
deriving DecidableEq, Repr

/-- A regular file with the given contents. -/
def OpenFile.ofText (s : Text) : OpenFile where
  type := .regular
  size := s.length
  data := some s

/-- The answers of the file system at each moment. -/
structure Kernel where
  /-- `open` for reading; `none` is a negative return value. -/
  openRead : Nat → Text → Option OpenFile
  /-- `stat`; `none` is a nonzero return value. -/
  stat : Nat → Text → Option FileType

/-- The state of the server process that the system calls touch. -/
structure Sys where
  /-- Path look-ups made so far. -/
  clock : Nat
  /-- Open descriptors. -/
  fds : List Nat
deriving DecidableEq, Repr

/-- The ways a server process gives up. -/
inductive Abort where
  | die (message : String)
deriving DecidableEq, Repr

/-- The lowest descriptor that is not in use. -/
def freshFd (fds : List Nat) : Nat :=
  ((List.range (fds.length + 1)).find? (· ∉ fds)).getD fds.length

/-- `vsf_sysutil_open_file` and `str_open`, for reading. -/
def strOpen (k : Kernel) (sys : Sys) (path : Text) : Option (Nat × OpenFile) × Sys :=
  match k.openRead sys.clock path with
  | none => (none, { sys with clock := sys.clock + 1 })
  | some file =>
    let fd := freshFd sys.fds
    (some (fd, file), { clock := sys.clock + 1, fds := fd :: sys.fds })

/-- `vsf_sysutil_close` -/
def sysClose (sys : Sys) (fd : Nat) : Sys :=
  { sys with fds := sys.fds.erase fd }

/-- `str_stat` -/
def strStat (k : Kernel) (sys : Sys) (path : Text) : Option FileType × Sys :=
  (k.stat sys.clock path, { sys with clock := sys.clock + 1 })

/-- The return value of `str_fileread` and the buffer it filled. -/
structure FileRead where
  retval : Int
  text : Text
deriving DecidableEq, Repr

/-- The part of `str_fileread` behind a successful `open`. -/
def readOpened (file : OpenFile) (maxsize : Nat) : Except Abort FileRead :=
  if file.type = .regular then
    let size := if maxsize < file.size then maxsize else file.size
    match file.data with
    | none => .ok ⟨-1, []⟩
    | some bytes =>
      if (bytes.take size).length ≠ size then .error (.die "read size mismatch")
      else .ok ⟨size, bytes.take size⟩
  else
    -- Anything that is not a regular file reads as an empty text, with success.
    .ok ⟨0, []⟩

/-- `str_fileread` -/
def strFileread (k : Kernel) (sys : Sys) (filename : Text) (maxsize : Nat) :
    Except Abort (FileRead × Sys) :=
  match strOpen k sys filename with
  | (none, sys) => .ok (⟨-1, []⟩, sys)
  | (some (fd, file), sys) =>
    match readOpened file maxsize with
    | .error e => .error e
    | .ok r => .ok (r, sysClose sys fd)

/-! ## What a file read does -/

@[simp] theorem strStat_fst (k : Kernel) (sys : Sys) (path : Text) :
    (strStat k sys path).1 = k.stat sys.clock path := rfl

@[simp] theorem strStat_snd (k : Kernel) (sys : Sys) (path : Text) :
    (strStat k sys path).2 = { sys with clock := sys.clock + 1 } := rfl

@[simp] theorem strOpen_clock (k : Kernel) (sys : Sys) (path : Text) :
    (strOpen k sys path).2.clock = sys.clock + 1 := by
  unfold strOpen
  cases k.openRead sys.clock path <;> rfl

/-- What a completed file read did: one look-up, no descriptor kept, and the
result of the read when the file could be opened. -/
theorem strFileread_cases {k : Kernel} {sys sys' : Sys} {filename : Text} {maxsize : Nat}
    {r : FileRead} (h : strFileread k sys filename maxsize = .ok (r, sys')) :
    sys' = { sys with clock := sys.clock + 1 } ∧
      ((k.openRead sys.clock filename = none ∧ r = ⟨-1, []⟩) ∨
        ∃ file, k.openRead sys.clock filename = some file ∧
          readOpened file maxsize = .ok r) := by
  unfold strFileread strOpen at h
  cases hopen : k.openRead sys.clock filename with
  | none =>
      simp only [hopen, Except.ok.injEq, Prod.mk.injEq] at h
      exact ⟨h.2.symm, Or.inl ⟨rfl, h.1.symm⟩⟩
  | some file =>
      cases hread : readOpened file maxsize with
      | error e => simp [hopen, hread] at h
      | ok r' =>
          simp only [hopen, hread, Except.ok.injEq, Prod.mk.injEq] at h
          rw [← h.1, ← h.2]
          exact ⟨by simp [sysClose], Or.inr ⟨file, rfl, hread⟩⟩

theorem strFileread_fds {k : Kernel} {sys sys' : Sys} {filename : Text} {maxsize : Nat}
    {r : FileRead} (h : strFileread k sys filename maxsize = .ok (r, sys')) :
    sys'.fds = sys.fds := by
  rw [(strFileread_cases h).1]

/-- From a regular file the first `maxsize` bytes are read, and no more. -/
theorem strFileread_regular {k : Kernel} {sys : Sys} {filename s : Text}
    (hopen : k.openRead sys.clock filename = some (.ofText s)) (maxsize : Nat) :
    strFileread k sys filename maxsize =
      .ok (⟨(s.take maxsize).length, s.take maxsize⟩, { sys with clock := sys.clock + 1 }) := by
  have hread : readOpened (.ofText s) maxsize =
      .ok ⟨(s.take maxsize).length, s.take maxsize⟩ := by
    by_cases hlong : maxsize < s.length
    · have hlen : (s.take maxsize).length = maxsize := by
        rw [List.length_take]
        omega
      simp [readOpened, OpenFile.ofText, hlong, hlen]
    · have htake : s.take maxsize = s := List.take_of_length_le (by omega)
      simp [readOpened, OpenFile.ofText, hlong, htake]
  simp [strFileread, strOpen, hopen, hread, sysClose]

end Server
end ModpackInstaller
