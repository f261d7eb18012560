import ModpackInstaller.Server.Ascii

/-!
# Files over the data connection

How {lit}`ftpdataio.c` moves the bytes of a file to the network and back: the loop over
{lit}`read` and {lit}`write`, {lit}`sendfile` with the loop that stands in for it, and the
loop that receives.  The kernel answers call by call: it may fail, and it may move fewer
bytes than it was asked for.

Main results:

- Theorem {lit}`vsfFtpdataioTransferFile_send`: what is on the wire after a download, by
  either path.
- Theorem {lit}`vsfFtpdataioTransferFile_recv`: what is in the file after an upload.
- Theorem {lit}`transfer_back`: which files survive a download and an upload.
-/

namespace ModpackInstaller
namespace Server
namespace FileTransfer

open Library Ascii

/-! ## System calls -/

/-- What the kernel says to one call. -/
inductive Answer where
  | error
  /-- `EINVAL` or `EOPNOTSUPP` -/
  | invalid
  /-- `ENOSYS` -/
  | noSys
  /-- The call moves so many bytes, or as many as there are to move. -/
  | moves (n : Nat)
deriving DecidableEq, Repr

/-- The answers in the order of the calls. -/
abbrev Kernel := Nat → Answer

/-- The two ends of a transfer, and the variables of `do_sendfile` that outlive a call. -/
structure Io where
  clock : Nat
  /-- What the descriptor that is read from has to give, and how far it has been read. -/
  source : Text
  pos : Nat
  /-- What has gone into the descriptor that is written to. -/
  sink : Text
  sendfileChecked : Bool
  runtimeSendfileWorks : Bool
deriving DecidableEq, Repr

/-- A return value; the negative ones are `error`. -/
inductive Retval where
  | error
  | count (n : Nat)
deriving DecidableEq, Repr

/-- `vsf_sysutil_read`: no byte is read only at the end. -/
def vsfSysutilRead (k : Kernel) (size : Nat) (io : Io) : Option Text × Io :=
  match k io.clock with
  | .moves n =>
    let data := (io.source.drop io.pos).take (min size (max 1 n))
    (some data, { io with clock := io.clock + 1, pos := io.pos + data.length })
  | _ => (none, { io with clock := io.clock + 1 })

/-- `vsf_sysutil_write` -/
def vsfSysutilWrite (k : Kernel) (buf : Text) (io : Io) : Retval × Io :=
  match k io.clock with
  | .moves n =>
    (.count (min n buf.length), { io with clock := io.clock + 1, sink := io.sink ++ buf.take n })
  | _ => (.error, { io with clock := io.clock + 1 })

/-- The loop of `vsf_sysutil_write_loop` with at most so many calls. -/
def writeLoop (k : Kernel) : Nat → Text → Nat → Io → Option (Retval × Io)
  | 0, _, _, _ => none
  | fuel + 1, buf, numWritten, io =>
    match vsfSysutilWrite k buf io with
    | (.error, io) => some (.error, io)
    | (.count n, io) =>
      if n = 0 then some (.count numWritten, io)
      else if buf.length - n = 0 then some (.count (numWritten + n), io)
      else writeLoop k fuel (buf.drop n) (numWritten + n) io

/-- `vsf_sysutil_write_loop` -/
def vsfSysutilWriteLoop (k : Kernel) (buf : Text) (io : Io) : Option (Retval × Io) :=
  writeLoop k (buf.length + 1) buf 0 io

/-! ## Sending -/

/-- What the transfer functions look at beside the descriptors. -/
structure Config where
  isAscii : Bool
  dataUseSsl : Bool
  bwRateMax : Nat
  /-- `tunable_trans_chunk_size` -/
  transChunkSize : Nat
  /-- `tunable_use_sendfile` -/
  useSendfile : Bool
deriving DecidableEq, Repr

/-- `struct vsf_transfer_ret` -/
structure TransferRet where
  retval : Int
  transferred : Nat
deriving DecidableEq, Repr

/-- `VSFTP_DATA_BUFSIZE` -/
def dataBufsize : Nat := 65536

/-- `get_chunk_size` -/
def getChunkSize (transChunkSize : Nat) : Nat :=
  if transChunkSize < dataBufsize ∧ 0 < transChunkSize then
    if transChunkSize < 4096 then 4096 else transChunkSize
  else dataBufsize

/-- `ftp_write_data`; `ssl_write` hands the buffer over in one call. -/
def ftpWriteData (k : Kernel) (c : Config) (buf : Text) (io : Io) : Option (Retval × Io) :=
  if c.dataUseSsl then some (vsfSysutilWrite k buf io) else vsfSysutilWriteLoop k buf io

/-- What is written for a chunk of the file, and `prev_cr` behind it. -/
def outChunk (c : Config) (prevCr : Bool) (data : Text) : Text × Bool :=
  if c.isAscii then
    let ret := vsfAsciiBinToAscii data prevCr
    (ret.pOut.take ret.written, ret.lastWasCr)
  else (data, prevCr)

/-- The loop of `do_file_send_rwloop` with at most so many rounds. -/
def sendRounds (k : Kernel) (c : Config) :
    Nat → Bool → TransferRet → Io → Option (TransferRet × Io)
  | 0, _, _, _ => none
  | fuel + 1, prevCr, ret, io =>
    match vsfSysutilRead k (getChunkSize c.transChunkSize) io with
    | (none, io) => some ({ ret with retval := -1 }, io)
    | (some data, io) =>
      if data.length = 0 then some (ret, io)
      else
        let (buf, prevCr) := outChunk c prevCr data
        match ftpWriteData k c buf io with
        | none => none
        | some (.error, io) => some ({ ret with retval := -2 }, io)
        | some (.count n, io) =>
          let ret := { ret with transferred := ret.transferred + n }
          if n ≠ buf.length then some ({ ret with retval := -2 }, io)
          else sendRounds k c fuel prevCr ret io

/-- `do_file_send_rwloop` -/
def doFileSendRwloop (k : Kernel) (c : Config) (io : Io) : Option (TransferRet × Io) :=
  sendRounds k c (io.source.length + 1) false ⟨0, 0⟩ io

/-- The loop at the end of `do_sendfile` with at most so many rounds; `none` is also its
{lit}`bug`. -/
def copyRounds (k : Kernel) : Nat → Nat → Nat → Io → Option (Retval × Io)
  | 0, _, _, _ => none
  | fuel + 1, numSend, totalWritten, io =>
    match vsfSysutilRead k (min dataBufsize numSend) io with
    | (none, io) => some (.error, io)
    | (some data, io) =>
      if data.length = 0 then some (.error, io)
      else
        match vsfSysutilWriteLoop k data io with
        | none => none
        | some (.error, io) => some (.error, io)
        | some (.count n, io) =>
          -- A short count is returned without what the rounds before have written.
          if n ≠ data.length then some (.count n, io)
          else if numSend < n then none
          else if numSend - n = 0 then some (.count (totalWritten + n), io)
          else copyRounds k fuel (numSend - n) (totalWritten + n) io

/-- `s_runtime_sendfile_works` behind a call; the first one decides. -/
def worksAfter (io : Io) (answer : Answer) : Bool :=
  if io.sendfileChecked then io.runtimeSendfileWorks
  else io.runtimeSendfileWorks || answer ≠ .noSys

/-- `do_sendfile` -/
def doSendfile (k : Kernel) (c : Config) (numSend : Nat) (io : Io) : Option (Retval × Io) :=
  let copy := copyRounds k (numSend + 1) numSend 0
  if c.useSendfile ∧ (¬ io.sendfileChecked ∨ io.runtimeSendfileWorks) then
    let answer := k io.clock
    let works := worksAfter io answer
    let io := { io with
      clock := io.clock + 1, sendfileChecked := true, runtimeSendfileWorks := works }
    match answer with
    | .moves n =>
      let data := (io.source.drop io.pos).take (min numSend n)
      some (.count data.length, { io with pos := io.pos + data.length, sink := io.sink ++ data })
    | answer =>
      if works ∧ answer ≠ .invalid then some (.error, io)
      else copy io
  else copy io

/-- The loop of `vsf_sysutil_sendfile` with at most so many rounds; it comes back with the
offset. -/
def sendfileRounds (k : Kernel) (c : Config) (maxChunk : Nat) :
    Nat → Nat → Nat → Io → Option (Retval × Nat × Io)
  | 0, _, _, _ => none
  | fuel + 1, offset, numSend, io =>
    if numSend = 0 then some (.count 0, offset, io)
    else
      match doSendfile k c (min numSend maxChunk) { io with pos := offset } with
      | none => none
      | some (.error, io) => some (.error, offset, io)
      | some (.count n, io) =>
        if n = 0 then some (.count 0, offset, io)
        else sendfileRounds k c maxChunk fuel (offset + n) (numSend - n) io

/-- `vsf_sysutil_sendfile`; a `max_chunk` of 0 is `INT_MAX`. -/
def vsfSysutilSendfile (k : Kernel) (c : Config) (offset numSend maxChunk : Nat) (io : Io) :
    Option (Retval × Nat × Io) :=
  sendfileRounds k c (if maxChunk = 0 then 2147483647 else maxChunk) (numSend + 1) offset numSend io

/-- `calc_num_send` -/
def calcNumSend (source : Text) (initOffset : Nat) : Nat :=
  if source.length < initOffset then 0 else source.length - initOffset

/-- `do_file_send_sendfile` -/
def doFileSendSendfile (k : Kernel) (c : Config) (offset bytesToSend : Nat) (io : Io) :
    Option (TransferRet × Io) :=
  let chunkSize := if c.bwRateMax ≠ 0 then getChunkSize c.transChunkSize else 0
  match vsfSysutilSendfile k c offset bytesToSend chunkSize io with
  | none => none
  | some (.error, newOffset, io) => some (⟨-2, newOffset - offset⟩, io)
  | some (.count _, newOffset, io) =>
    if newOffset - offset ≠ bytesToSend then some (⟨-2, newOffset - offset⟩, io)
    else some (⟨0, newOffset - offset⟩, io)

/-! ## Receiving -/

/-- What is stored for a chunk from the network, with the buffer and `prev_cr` behind it. -/
def inChunk (c : Config) (buf : Text) (prevCr : Bool) (data : Text) : Text × Text × Bool :=
  let buf := buf.take 1 ++ data ++ buf.drop (1 + data.length)
  if c.isAscii then
    let ret := vsfAsciiAsciiToBin buf data.length prevCr
    (ret.text, ret.buf, ret.lastWasCr)
  else ((buf.drop 1).take data.length, buf, prevCr)

/-- The loop of `do_file_recv` with at most so many rounds; `buf` is the buffer. -/
def recvRounds (k : Kernel) (c : Config) :
    Nat → Text → Bool → TransferRet → Io → Option (TransferRet × Io)
  | 0, _, _, _, _ => none
  | fuel + 1, buf, prevCr, ret, io =>
    match vsfSysutilRead k (getChunkSize c.transChunkSize) io with
    | (none, io) => some ({ ret with retval := -2 }, io)
    | (some data, io) =>
      if data.length = 0 ∧ ¬ prevCr then some (ret, io)
      else
        let ret := { ret with transferred := ret.transferred + data.length }
        let (toWrite, buf, prevCr) := inChunk c buf prevCr data
        match vsfSysutilWriteLoop k toWrite io with
        | none => none
        | some (.error, io) => some ({ ret with retval := -1 }, io)
        | some (.count n, io) =>
          if n ≠ toWrite.length then some ({ ret with retval := -1 }, io)
          else recvRounds k c fuel buf prevCr ret io

/-- `do_file_recv` -/
def doFileRecv (k : Kernel) (c : Config) (buf : Text) (io : Io) : Option (TransferRet × Io) :=
  recvRounds k c (io.source.length + 2) buf false ⟨0, 0⟩ io

/-- `vsf_ftpdataio_transfer_file` -/
def vsfFtpdataioTransferFile (k : Kernel) (c : Config) (isRecv : Bool) (recvbuf : Text) (io : Io) :
    Option (TransferRet × Io) :=
  if isRecv then doFileRecv k c recvbuf io
  else if c.isAscii ∨ c.dataUseSsl then doFileSendRwloop k c io
  else doFileSendSendfile k c io.pos (calcNumSend io.source io.pos) io

/-! ## Reading and writing -/

/-- No call moves nothing when there is something to move. -/
def NoZero (k : Kernel) : Prop :=
  ∀ t, k t ≠ .moves 0

/-- No call fails either. -/
def Willing (k : Kernel) : Prop :=
  ∀ t, ∃ n, k t = .moves (n + 1)

/-- A kernel that takes everything never takes nothing. -/
theorem Willing.noZero {k : Kernel} (h : Willing k) : NoZero k := by
  intro t
  obtain ⟨n, hn⟩ := h t
  simp [hn]

/-- A read fails or hands out the next bytes; none only at the end. -/
theorem vsfSysutilRead_cases (k : Kernel) {size : Nat} (hsize : 0 < size) (io : Io) :
    (vsfSysutilRead k size io = (none, { io with clock := io.clock + 1 }) ∧ ¬ Willing k) ∨
      ∃ data rest, io.source.drop io.pos = data ++ rest ∧ (data = [] → rest = []) ∧
        data.length ≤ size ∧
        vsfSysutilRead k size io =
          (some data, { io with clock := io.clock + 1, pos := io.pos + data.length }) := by
  cases hanswer : k io.clock with
  | moves n =>
      refine Or.inr ⟨(io.source.drop io.pos).take (min size (max 1 n)),
        (io.source.drop io.pos).drop (min size (max 1 n)), ?_, ?_, ?_, ?_⟩
      · exact (List.take_append_drop _ _).symm
      · intro hnil
        have hsome : min size (max 1 n) ≠ 0 := by omega
        rw [List.take_eq_nil_iff] at hnil
        rw [hnil.resolve_left hsome, List.drop_nil]
      · exact (List.length_take_le _ _).trans (by omega)
      · rw [vsfSysutilRead, hanswer]
  | _ =>
      left
      refine ⟨by rw [vsfSysutilRead, hanswer], fun hwilling => ?_⟩
      obtain ⟨n, hn⟩ := hwilling io.clock
      rw [hanswer] at hn
      cases hn

/-- One write: an error, or a beginning of the buffer goes out. -/
theorem vsfSysutilWrite_cases (k : Kernel) (buf : Text) (io : Io) :
    (vsfSysutilWrite k buf io = (.error, { io with clock := io.clock + 1 }) ∧ ¬ Willing k) ∨
      ∃ n ≤ buf.length, (NoZero k → buf ≠ [] → 0 < n) ∧
        vsfSysutilWrite k buf io =
          (.count n, { io with clock := io.clock + 1, sink := io.sink ++ buf.take n }) := by
  cases hanswer : k io.clock with
  | moves n =>
      refine Or.inr ⟨min n buf.length, by omega, fun hzero hne => ?_, ?_⟩
      · have hn : n ≠ 0 := fun h => hzero io.clock (by rw [hanswer, h])
        have hpos := List.length_pos_iff.mpr hne
        omega
      · rw [vsfSysutilWrite, hanswer, List.take_eq_take_min]
        simp
  | _ =>
      left
      refine ⟨by rw [vsfSysutilWrite, hanswer], fun hwilling => ?_⟩
      obtain ⟨n, hn⟩ := hwilling io.clock
      rw [hanswer] at hn
      cases hn

/-- The calls write a beginning of the buffer, as long as they say; all of it when no call
fails or moves nothing. -/
theorem writeLoop_spec (k : Kernel) {fuel : Nat} {buf : Text} (hfuel : buf.length < fuel)
    (numWritten : Nat) (io : Io) :
    ∃ r t out, out <+: buf ∧
      writeLoop k fuel buf numWritten io =
        some (r, { io with clock := t, sink := io.sink ++ out }) ∧
      (∀ n, r = .count n → n = numWritten + out.length ∧ (NoZero k → out = buf)) ∧
      (Willing k → r ≠ .error) := by
  induction fuel generalizing buf numWritten io with
  | zero => omega
  | succ fuel ih =>
      rcases vsfSysutilWrite_cases k buf io with ⟨hwrite, hnot⟩ | ⟨n, hn, hsome, hwrite⟩
      · exact ⟨.error, io.clock + 1, [], List.nil_prefix, by simp [writeLoop, hwrite], by simp,
          fun h => absurd h hnot⟩
      · rw [writeLoop, hwrite]
        dsimp only
        by_cases hzero : n = 0
        · subst hzero
          refine ⟨.count numWritten, io.clock + 1, [], List.nil_prefix, by simp, ?_, by simp⟩
          intro m hm
          injection hm with hm
          refine ⟨by simp [hm], fun hno => ?_⟩
          by_contra hne
          exact absurd (hsome hno (Ne.symm hne)) (lt_irrefl 0)
        · by_cases hall : buf.length - n = 0
          · have hlength : n = buf.length := by omega
            refine ⟨.count (numWritten + n), io.clock + 1, buf, List.prefix_rfl, ?_, ?_, by simp⟩
            · rw [if_neg hzero, if_pos hall, hlength, List.take_length]
            · intro m hm
              injection hm with hm
              exact ⟨by omega, fun _ => rfl⟩
          · obtain ⟨r, t, out, ⟨tail, htail⟩, hloop, hcount, herror⟩ :=
              ih (by rw [List.length_drop]; omega : (buf.drop n).length < fuel) (numWritten + n)
                { io with clock := io.clock + 1, sink := io.sink ++ buf.take n }
            refine ⟨r, t, buf.take n ++ out, ⟨tail, ?_⟩, ?_, ?_, herror⟩
            · rw [List.append_assoc, htail, List.take_append_drop]
            · rw [if_neg hzero, if_neg hall, hloop, List.append_assoc]
            · intro m hm
              obtain ⟨hm, hwhole⟩ := hcount m hm
              refine ⟨?_, fun hno => ?_⟩
              · rw [hm, List.length_append, List.length_take, Nat.min_eq_left hn]
                omega
              · rw [hwhole hno, List.take_append_drop]

/-- The write loop sends a beginning of its buffer, and reports success only with the whole of it.
-/
theorem vsfSysutilWriteLoop_spec (k : Kernel) (buf : Text) (io : Io) :
    ∃ r t out, out <+: buf ∧
      vsfSysutilWriteLoop k buf io = some (r, { io with clock := t, sink := io.sink ++ out }) ∧
      (∀ n, r = .count n → n = out.length ∧ (NoZero k → out = buf)) ∧
      (Willing k → r ≠ .error) := by
  have hloop := writeLoop_spec k (Nat.lt_succ_self buf.length) 0 io
  rw [vsfSysutilWriteLoop]
  simpa only [Nat.zero_add] using hloop

/-- Either the whole buffer goes out or the caller sees that it did not. -/
theorem vsfSysutilWriteLoop_cases (k : Kernel) (buf : Text) (io : Io) :
    (∃ t, vsfSysutilWriteLoop k buf io =
      some (.count buf.length, { io with clock := t, sink := io.sink ++ buf })) ∨
    ∃ r t out, out <+: buf ∧ r ≠ .count buf.length ∧ ¬ Willing k ∧
      vsfSysutilWriteLoop k buf io = some (r, { io with clock := t, sink := io.sink ++ out }) := by
  obtain ⟨r, t, out, hprefix, hloop, hcount, herror⟩ := vsfSysutilWriteLoop_spec k buf io
  by_cases hall : r = .count buf.length
  · left
    subst hall
    obtain rfl := hprefix.eq_of_length (hcount _ rfl).1.symm
    exact ⟨t, hloop⟩
  · refine Or.inr ⟨r, t, out, hprefix, hall, fun hwilling => ?_, hloop⟩
    cases r with
    | error => exact herror hwilling rfl
    | count n =>
        obtain ⟨hn, hwhole⟩ := hcount n rfl
        rw [hn, hwhole hwilling.noZero] at hall
        exact hall rfl

/-- The same of a write that may go through the TLS slave. -/
theorem ftpWriteData_spec (k : Kernel) (c : Config) (buf : Text) (io : Io) :
    ∃ r t out, out <+: buf ∧
      ftpWriteData k c buf io = some (r, { io with clock := t, sink := io.sink ++ out }) ∧
      (∀ n, r = .count n → n = out.length) ∧
      (Willing k → c.dataUseSsl = false → r = .count buf.length) := by
  cases hssl : c.dataUseSsl with
  | true =>
      rw [ftpWriteData, if_pos hssl]
      rcases vsfSysutilWrite_cases k buf io with ⟨hwrite, -⟩ | ⟨n, hn, -, hwrite⟩
      · exact ⟨.error, io.clock + 1, [], List.nil_prefix, by simp [hwrite], by simp, by simp⟩
      · refine ⟨.count n, io.clock + 1, buf.take n, List.take_prefix _ _, by rw [hwrite], ?_,
          by simp⟩
        intro m hm
        injection hm with hm
        rw [← hm, List.length_take, Nat.min_eq_left hn]
  | false =>
      obtain ⟨r, t, out, hprefix, hloop, hcount, herror⟩ := vsfSysutilWriteLoop_spec k buf io
      refine ⟨r, t, out, hprefix, ?_, fun n hn => (hcount n hn).1, fun hwilling _ => ?_⟩
      · rw [ftpWriteData, if_neg (by simp [hssl]), hloop]
      · cases r with
        | error => exact absurd rfl (herror hwilling)
        | count n =>
            obtain ⟨hn, hwhole⟩ := hcount n rfl
            rw [hn, hwhole hwilling.noZero]

/-! ## Sending with read and write -/

/-- What is made of the file on its way out. -/
def outgoing (isAscii : Bool) : Transducer Bool Char Char :=
  if isAscii then toAscii else Transducer.copy false

/-- What the wire gets of a file. -/
def outText (isAscii : Bool) (s : Text) : Text :=
  if isAscii then toCrlf (toLf s) else s

/-- What is sent of a file, converted in one piece. -/
theorem outgoing_complete (isAscii : Bool) (s : Text) :
    (outgoing isAscii).complete false s = outText isAscii s := by
  cases isAscii with
  | true => exact toAscii_output s
  | false => exact Transducer.complete_copy false false s

/-- The conversion of an outgoing file holds nothing back. -/
theorem outgoing_finish (isAscii prevCr : Bool) : (outgoing isAscii).finish prevCr = [] := by
  cases isAscii <;> rfl

/-- A chunk is converted as the transducer does it. -/
theorem outChunk_eq (c : Config) (prevCr : Bool) (data : Text) :
    outChunk c prevCr data =
      (((outgoing c.isAscii).feed prevCr data).2, ((outgoing c.isAscii).feed prevCr data).1) := by
  cases hascii : c.isAscii with
  | true =>
      obtain ⟨hout, hwritten, hcr⟩ := vsfAsciiBinToAscii_eq data prevCr
      rw [outChunk, if_pos hascii]
      dsimp only
      rw [hcr, hout, hwritten, List.take_length]
      rfl
  | false =>
      rw [outChunk, if_neg (by simp [hascii])]
      simp [outgoing]

/-- A chunk is never empty. -/
theorem getChunkSize_pos (n : Nat) : 0 < getChunkSize n := by
  unfold getChunkSize dataBufsize
  split_ifs <;> omega

/-- A round that has something to write. -/
theorem sendRounds_data {k : Kernel} {c : Config} {io io₁ : Io} {data : Text}
    (hread : vsfSysutilRead k (getChunkSize c.transChunkSize) io = (some data, io₁))
    (hdata : data ≠ []) (fuel : Nat) (prevCr : Bool) (ret : TransferRet) :
    sendRounds k c (fuel + 1) prevCr ret io =
      match ftpWriteData k c (outChunk c prevCr data).1 io₁ with
      | none => none
      | some (.error, io) => some ({ ret with retval := -2 }, io)
      | some (.count n, io) =>
        let ret := { ret with transferred := ret.transferred + n }
        if n ≠ (outChunk c prevCr data).1.length then some ({ ret with retval := -2 }, io)
        else sendRounds k c fuel (outChunk c prevCr data).2 ret io := by
  have hlength : data.length ≠ 0 := fun h => hdata (List.length_eq_zero_iff.mp h)
  rw [sendRounds, hread]
  dsimp only
  rw [if_neg hlength]

/-- What rounds over the rest of a file should come to: what they put on the wire is what
the conversion makes of it up to where they stop, and that is counted. -/
def SendsOn (k : Kernel) (c : Config) (prevCr : Bool) (ret : TransferRet) (io : Io)
    (outcome : Option (TransferRet × Io)) : Prop :=
  ∃ r io' out, outcome = some (r, io') ∧ io'.sink = io.sink ++ out ∧
    (outgoing c.isAscii).Pumped prevCr (io.source.drop io.pos) out (decide (r.retval = 0)) ∧
    r.transferred ≤ ret.transferred + out.length ∧
    (r.retval = 0 → r.transferred = ret.transferred + out.length) ∧
    (Willing k → c.dataUseSsl = false → r.retval = 0)

/-- A read that fails stops the rounds. -/
theorem sendsOn_of_unread {k : Kernel} {c : Config} {prevCr : Bool} {ret : TransferRet} {io : Io}
    (hnot : ¬ Willing k) (t : Nat) :
    SendsOn k c prevCr ret io (some ({ ret with retval := -1 }, { io with clock := t })) :=
  ⟨_, _, [], rfl, by simp, Transducer.Pumped.stop _ _, by simp, by simp,
    fun h => absurd h hnot⟩

/-- At the end of the file the rounds are done. -/
theorem sendsOn_of_end {k : Kernel} {c : Config} (prevCr : Bool) {ret : TransferRet} {io : Io}
    (hret : ret.retval = 0) (hend : io.source.drop io.pos = []) (t : Nat) :
    SendsOn k c prevCr ret io (some (ret, { io with clock := t })) := by
  have hfinish := Transducer.Pumped.finish (t := outgoing c.isAscii) prevCr
  rw [outgoing_finish] at hfinish
  refine ⟨ret, _, [], rfl, by simp, ?_, by simp, by simp, fun _ _ => hret⟩
  rw [hend, hret]
  exact hfinish

section Round

variable {k : Kernel} {c : Config} {prevCr : Bool} {ret : TransferRet} {io io' : Io}
  {data rest out : Text}

/-- A write that does not take all of a chunk stops the rounds. -/
theorem sendsOn_of_cut {n : Nat} (hrest : io.source.drop io.pos = data ++ rest)
    (hcut : out <+: ((outgoing c.isAscii).feed prevCr data).2)
    (hn : n ≤ ret.transferred + out.length) (hnot : Willing k → c.dataUseSsl = true)
    (hsink : io'.sink = io.sink ++ out) :
    SendsOn k c prevCr ret io (some (⟨-2, n⟩, io')) := by
  refine ⟨_, _, out, rfl, hsink, ?_, hn, by simp, fun hwilling hssl => ?_⟩
  · rw [hrest]
    exact Transducer.Pumped.cut rest hcut
  · rw [hnot hwilling] at hssl
    cases hssl

/-- Behind a chunk that is sent the rounds go on with the rest. -/
theorem sendsOn_of_chunk {outcome : Option (TransferRet × Io)}
    (h : SendsOn k c ((outgoing c.isAscii).feed prevCr data).1 { ret with
      transferred := ret.transferred + ((outgoing c.isAscii).feed prevCr data).2.length } io'
      outcome)
    (hrest : io.source.drop io.pos = data ++ rest) (hrest' : io'.source.drop io'.pos = rest)
    (hsink : io'.sink = io.sink ++ ((outgoing c.isAscii).feed prevCr data).2) :
    SendsOn k c prevCr ret io outcome := by
  obtain ⟨r, io'', out, hrounds, hsink', hpumped, hle, heq, hwilling⟩ := h
  dsimp only at hle heq
  rw [hrest'] at hpumped
  rw [SendsOn, hrest]
  refine ⟨r, io'', _, hrounds, ?_, Transducer.Pumped.next hpumped, ?_, fun hdone => ?_, hwilling⟩
  · rw [hsink', hsink, List.append_assoc]
  · rw [List.length_append]
    omega
  · have htransferred := heq hdone
    rw [List.length_append]
    omega

end Round

/-- What the rounds put on the wire is what the conversion makes of the file, up to where
they stop. -/
theorem sendRounds_spec (k : Kernel) (c : Config) {fuel : Nat} (prevCr : Bool)
    {ret : TransferRet} (hret : ret.retval = 0) {io : Io}
    (hfuel : (io.source.drop io.pos).length < fuel) :
    SendsOn k c prevCr ret io (sendRounds k c fuel prevCr ret io) := by
  induction fuel generalizing prevCr ret io with
  | zero => omega
  | succ fuel ih =>
      rcases vsfSysutilRead_cases k (getChunkSize_pos c.transChunkSize) io with
        ⟨hread, hnot⟩ | ⟨data, rest, hrest, hend, -, hread⟩
      · rw [sendRounds, hread]
        exact sendsOn_of_unread hnot _
      by_cases hdata : data = []
      · subst hdata
        obtain rfl := hend rfl
        rw [sendRounds, hread]
        exact sendsOn_of_end prevCr hret hrest _
      have hbehind : io.source.drop (io.pos + data.length) = rest := by
        rw [← List.drop_drop, hrest, List.drop_left]
      have hfuel' : (io.source.drop (io.pos + data.length)).length < fuel := by
        have hpos := List.length_pos_iff.mpr hdata
        rw [hrest, List.length_append] at hfuel
        rw [hbehind]
        omega
      rw [sendRounds_data hread hdata, outChunk_eq]
      obtain ⟨r, t, out, hprefix, hwrite, hcount, hwhole⟩ :=
        ftpWriteData_spec k c ((outgoing c.isAscii).feed prevCr data).2
          { io with clock := io.clock + 1, pos := io.pos + data.length }
      rw [hwrite]
      cases r with
      | error =>
          refine sendsOn_of_cut hrest hprefix (Nat.le_add_right _ _) ?_ rfl
          intro hwilling
          by_contra hssl
          cases hwhole hwilling (by simpa using hssl)
      | count n =>
          obtain rfl := hcount n rfl
          dsimp only
          split
          next hcut =>
            refine sendsOn_of_cut hrest hprefix (Nat.le_refl _) ?_ rfl
            intro hwilling
            by_contra hssl
            have hall := hwhole hwilling (by simpa using hssl)
            exact hcut (Retval.count.inj hall)
          next hall =>
            obtain rfl := hprefix.eq_of_length (not_not.mp hall)
            exact sendsOn_of_chunk (@ih _ { ret with transferred := ret.transferred +
                ((outgoing c.isAscii).feed prevCr data).2.length } hret { io with
              clock := t, pos := io.pos + data.length,
              sink := io.sink ++ ((outgoing c.isAscii).feed prevCr data).2 } hfuel')
              hrest hbehind rfl

/-- The read and write loop sends a beginning of the rest of the file, and the whole where it
reports success. -/
theorem doFileSendRwloop_spec (k : Kernel) (c : Config) (io : Io) :
    ∃ r io' out, doFileSendRwloop k c io = some (r, io') ∧ io'.sink = io.sink ++ out ∧
      out <+: outText c.isAscii (io.source.drop io.pos) ∧ r.transferred ≤ out.length ∧
      (r.retval = 0 →
        out = outText c.isAscii (io.source.drop io.pos) ∧ r.transferred = out.length) ∧
      (Willing k → c.dataUseSsl = false → r.retval = 0) := by
  have hfuel : (io.source.drop io.pos).length < io.source.length + 1 := by
    rw [List.length_drop]
    omega
  obtain ⟨r, io', out, hrounds, hsink, hpumped, hle, heq, hwilling⟩ :=
    @sendRounds_spec k c _ false ⟨0, 0⟩ rfl io hfuel
  rw [← outgoing_complete]
  refine ⟨r, io', out, hrounds, hsink, hpumped.prefix_complete, by simpa using hle,
    fun hdone => ⟨?_, by simpa using heq hdone⟩, hwilling⟩
  rw [decide_eq_true hdone] at hpumped
  exact hpumped.eq_complete

/-! ## Sending with sendfile -/

/-- The rounds of the loop that stands in for `sendfile`. -/
theorem copyRounds_spec {k : Kernel} (hzero : NoZero k) {fuel numSend : Nat}
    (hfuel : numSend < fuel) (hpos : 0 < numSend) (total : Nat) {io : Io}
    (hlen : numSend ≤ (io.source.drop io.pos).length) :
    ∃ r t p out, out <+: (io.source.drop io.pos).take numSend ∧
      copyRounds k fuel numSend total io =
        some (r, { io with clock := t, pos := p, sink := io.sink ++ out }) ∧
      (∀ n, r = .count n → n = total + numSend ∧ out.length = numSend) ∧
      (Willing k → r ≠ .error) := by
  induction fuel generalizing numSend total io with
  | zero => omega
  | succ fuel ih =>
      have hsize : 0 < min dataBufsize numSend := by
        unfold dataBufsize
        omega
      rcases vsfSysutilRead_cases k hsize io with
        ⟨hread, hnot⟩ | ⟨data, rest, hrest, hend, hle, hread⟩
      · refine ⟨.error, io.clock + 1, io.pos, [], List.nil_prefix, ?_, by simp,
          fun h => absurd h hnot⟩
        rw [copyRounds, hread]
        simp
      · have hdata : data.length ≠ 0 := by
          intro hnil
          have hempty := List.length_eq_zero_iff.mp hnil
          rw [hrest, hempty, hend hempty] at hlen
          simp at hlen
          omega
        set io₁ : Io := { io with clock := io.clock + 1, pos := io.pos + data.length } with hio₁
        have hshort : data.length ≤ numSend := hle.trans (Nat.min_le_right _ _)
        have htake : (io.source.drop io.pos).take numSend =
            data ++ rest.take (numSend - data.length) := by
          rw [hrest, List.take_append, List.take_of_length_le hshort]
        obtain ⟨r, t, out, hprefix, hwrite, hcount, herror⟩ := vsfSysutilWriteLoop_spec k data io₁
        rw [copyRounds, hread, htake]
        dsimp only
        rw [if_neg hdata, hwrite]
        cases r with
        | error =>
            exact ⟨.error, t, _, out, hprefix.trans (List.prefix_append _ _), rfl, by simp, herror⟩
        | count n =>
            obtain ⟨hn, hwhole⟩ := hcount n rfl
            obtain rfl := hwhole hzero
            subst hn
            dsimp only
            rw [if_neg (not_not_intro rfl), if_neg (by omega)]
            by_cases hlast : numSend - out.length = 0
            · rw [if_pos hlast]
              refine ⟨_, t, _, out, List.prefix_append _ _, rfl, ?_, by simp⟩
              intro n hn
              injection hn with hn
              omega
            · have hbehind : io₁.source.drop io₁.pos = rest := by
                rw [hio₁, ← List.drop_drop, hrest, List.drop_left]
              have hlen' : numSend - out.length ≤ (io₁.source.drop io₁.pos).length := by
                rw [hrest, List.length_append] at hlen
                rw [hbehind]
                omega
              obtain ⟨r, t, p, behind, hprefix, hrounds, hcount, herror⟩ :=
                @ih (numSend - out.length) (by omega) (by omega) (total + out.length)
                  { io₁ with clock := t, sink := io₁.sink ++ out } hlen'
              dsimp only at hprefix
              rw [hbehind] at hprefix
              refine ⟨r, t, p, out ++ behind, ?_, ?_, ?_, herror⟩
              · exact (List.prefix_append_right_inj out).mpr hprefix
              · rw [if_neg hlast, hrounds, List.append_assoc]
              · intro n hn
                obtain ⟨hn, hlength⟩ := hcount n hn
                rw [List.length_append]
                omega

/-- One call moves a piece of the file, and says how long it is. -/
theorem doSendfile_spec {k : Kernel} (hzero : NoZero k) (c : Config) {numSend : Nat}
    (hpos : 0 < numSend) {io : Io} (hlen : numSend ≤ (io.source.drop io.pos).length) :
    ∃ r io' out, out <+: (io.source.drop io.pos).take numSend ∧
      doSendfile k c numSend io = some (r, io') ∧ io'.source = io.source ∧
      io'.sink = io.sink ++ out ∧ (∀ n, r = .count n → n = out.length ∧ 0 < n) ∧
      (Willing k → r ≠ .error) := by
  have hcopy : ∀ io₁ : Io, io₁.source = io.source → io₁.pos = io.pos → io₁.sink = io.sink →
      ∃ r io' out, out <+: (io.source.drop io.pos).take numSend ∧
        copyRounds k (numSend + 1) numSend 0 io₁ = some (r, io') ∧ io'.source = io.source ∧
        io'.sink = io.sink ++ out ∧ (∀ n, r = .count n → n = out.length ∧ 0 < n) ∧
        (Willing k → r ≠ .error) := by
    intro io₁ hsource hp hsink
    rw [← hsource, ← hp] at hlen
    obtain ⟨r, t, p, out, hprefix, hrounds, hcount, herror⟩ :=
      copyRounds_spec hzero (Nat.lt_succ_self numSend) hpos 0 hlen
    rw [hsource, hp] at hprefix
    refine ⟨r, _, out, hprefix, hrounds, hsource, by rw [← hsink], fun n hn => ?_, herror⟩
    have hboth := hcount n hn
    omega
  by_cases huse : c.useSendfile ∧ (¬ io.sendfileChecked ∨ io.runtimeSendfileWorks)
  · rw [doSendfile, if_pos huse]
    dsimp only
    cases hanswer : k io.clock with
    | moves n =>
        have hn : n ≠ 0 := fun h => hzero io.clock (by rw [hanswer, h])
        refine ⟨_, _, (io.source.drop io.pos).take (min numSend n), ?_, rfl, rfl, rfl, ?_, by simp⟩
        · exact List.take_prefix_take_left (Nat.min_le_left _ _)
        · intro m hm
          injection hm with hm
          rw [← hm, List.length_take]
          omega
    | _ =>
        dsimp only
        split
        · refine ⟨.error, _, [], List.nil_prefix, rfl, rfl, by simp, by simp, fun hwilling => ?_⟩
          obtain ⟨n, hn⟩ := hwilling io.clock
          rw [hanswer] at hn
          cases hn
        · exact hcopy _ rfl rfl rfl
  · rw [doSendfile, if_neg huse]
    exact hcopy io rfl rfl rfl

/-- The calls one after the other: the offset never runs ahead of the wire, and when no
call fails everything is out. -/
theorem sendfileRounds_spec {k : Kernel} (hzero : NoZero k) (c : Config) {maxChunk : Nat}
    (hchunk : 0 < maxChunk) {fuel offset numSend : Nat} (hfuel : numSend < fuel) {io : Io}
    (hlen : numSend ≤ (io.source.drop offset).length) :
    ∃ r newOffset io' out, sendfileRounds k c maxChunk fuel offset numSend io =
        some (r, newOffset, io') ∧
      io'.sink = io.sink ++ out ∧ out <+: (io.source.drop offset).take numSend ∧
      newOffset - offset ≤ out.length ∧ offset ≤ newOffset ∧
      (r ≠ .error → newOffset - offset = numSend ∧ out.length = numSend) ∧
      (Willing k → r ≠ .error) := by
  induction fuel generalizing offset numSend io with
  | zero => omega
  | succ fuel ih =>
      by_cases hdone : numSend = 0
      · subst hdone
        exact ⟨.count 0, offset, io, [], by simp [sendfileRounds], by simp, List.nil_prefix,
          by simp, le_refl _, by simp, by simp⟩
      · have hpos : 0 < min numSend maxChunk := by omega
        have hlen₁ : min numSend maxChunk ≤
            (({ io with pos := offset } : Io).source.drop offset).length :=
          (Nat.min_le_left _ _).trans hlen
        obtain ⟨r, io₁, first, hprefix, hcall, hsource, hsink, hcount, herror⟩ :=
          @doSendfile_spec k hzero c _ hpos { io with pos := offset } hlen₁
        dsimp only at hprefix hsource hsink
        have hfirst : first <+: (io.source.drop offset).take numSend :=
          hprefix.trans (List.take_prefix_take_left (Nat.min_le_left _ _))
        rw [sendfileRounds, if_neg hdone, hcall]
        cases r with
        | error =>
            exact ⟨.error, offset, io₁, first, rfl, hsink, hfirst, by simp, le_refl _, by simp,
              herror⟩
        | count n =>
            obtain ⟨hn, hsome⟩ := hcount n rfl
            subst hn
            have hle : first.length ≤ numSend := by
              have hle := hprefix.length_le
              rw [List.length_take] at hle
              omega
            have hcut : (io.source.drop offset).take numSend = first ++
                (io.source.drop (offset + first.length)).take (numSend - first.length) := by
              have htake := List.prefix_iff_eq_take.mp hfirst
              rw [List.take_take, Nat.min_eq_left hle] at htake
              rw [← List.drop_drop]
              nth_rewrite 1 [show numSend = first.length + (numSend - first.length) by omega]
              rw [List.take_add, ← htake]
            have hlen' : numSend - first.length ≤
                (io₁.source.drop (offset + first.length)).length := by
              rw [hsource, ← List.drop_drop, List.length_drop (i := first.length)]
              omega
            obtain ⟨r, newOffset, io', behind, hrounds, hsink', hprefix', hbound, hge, hwhole,
              herror'⟩ := @ih (offset + first.length) _ (by omega) _ hlen'
            dsimp only
            rw [if_neg (by omega)]
            refine ⟨r, newOffset, io', first ++ behind, hrounds, ?_, ?_, ?_, by omega, ?_, herror'⟩
            · rw [hsink', hsink, List.append_assoc]
            · rw [hcut]
              rw [hsource] at hprefix'
              exact (List.prefix_append_right_inj first).mpr hprefix'
            · rw [List.length_append]
              omega
            · intro hr
              have hboth := hwhole hr
              rw [List.length_append]
              omega

/-- `sendfile` is asked for the rest of the file. -/
theorem calcNumSend_eq (source : Text) (pos : Nat) :
    calcNumSend source pos = (source.drop pos).length := by
  rw [calcNumSend, List.length_drop]
  split <;> omega

/-- `sendfile` sends a beginning of the rest of the file, and the whole where it reports success. -/
theorem doFileSendSendfile_spec {k : Kernel} (hzero : NoZero k) (c : Config) (io : Io) :
    ∃ r io' out,
      doFileSendSendfile k c io.pos (calcNumSend io.source io.pos) io = some (r, io') ∧
      io'.sink = io.sink ++ out ∧ out <+: io.source.drop io.pos ∧ r.transferred ≤ out.length ∧
      (r.retval = 0 → out = io.source.drop io.pos ∧ r.transferred = out.length) ∧
      (Willing k → r.retval = 0) := by
  have hchunk : 0 < (if (if c.bwRateMax ≠ 0 then getChunkSize c.transChunkSize else 0) = 0
      then 2147483647 else if c.bwRateMax ≠ 0 then getChunkSize c.transChunkSize else 0) := by
    split_ifs <;> omega
  obtain ⟨r, newOffset, io', out, hrounds, hsink, hprefix, hbound, -, hwhole, herror⟩ :=
    sendfileRounds_spec hzero c hchunk (Nat.lt_succ_self _) (calcNumSend_eq io.source io.pos).le
  rw [calcNumSend_eq, List.take_length] at hprefix
  rw [doFileSendSendfile, vsfSysutilSendfile, hrounds]
  cases r with
  | error =>
      exact ⟨_, io', out, rfl, hsink, hprefix, hbound, by simp, fun h => absurd rfl (herror h)⟩
  | count n =>
      obtain ⟨hsent, hlength⟩ := hwhole (by simp)
      dsimp only
      rw [if_neg (not_not_intro hsent)]
      refine ⟨_, io', out, rfl, hsink, hprefix, hbound, fun _ => ⟨?_, ?_⟩, fun _ => rfl⟩
      · exact hprefix.eq_of_length (by rw [hlength, calcNumSend_eq])
      · exact hsent.trans hlength.symm

/-! ## Receiving -/

/-- What is made of the data on their way in. -/
def incoming (isAscii : Bool) : Transducer Bool Char Char :=
  if isAscii then toBin else Transducer.copy false

/-- What the file gets of the data. -/
def inText (isAscii : Bool) (s : Text) : Text :=
  if isAscii then toLf s else s

/-- What is stored of a file, converted in one piece. -/
theorem incoming_complete (isAscii : Bool) (s : Text) :
    (incoming isAscii).complete false s = inText isAscii s := by
  cases isAscii with
  | true => exact toBin_output s
  | false => exact Transducer.complete_copy false false s

@[simp] theorem inText_nil (isAscii : Bool) : inText isAscii [] = [] := by
  cases isAscii <;> rfl

/-- A chunk fits into the buffer. -/
theorem getChunkSize_le (n : Nat) : getChunkSize n ≤ dataBufsize := by
  unfold getChunkSize dataBufsize
  split_ifs <;> omega

/-- A chunk that fits into the buffer. -/
theorem inChunk_eq {c : Config} {buf data : Text} (hbuf : data.length < buf.length) (prevCr : Bool)
    (hcr : c.isAscii = false → prevCr = false) :
    ∃ buf', buf'.length = buf.length ∧ inChunk c buf prevCr data =
      if data = [] then ((incoming c.isAscii).finish prevCr, buf', false)
      else (((incoming c.isAscii).feed prevCr data).2, buf',
        ((incoming c.isAscii).feed prevCr data).1) := by
  obtain ⟨front, rest, rfl⟩ := List.exists_cons_of_length_pos (Nat.zero_lt_of_lt hbuf)
  have hfill : (front :: rest).take 1 ++ data ++ (front :: rest).drop (1 + data.length) =
      front :: (data ++ rest.drop data.length) := by
    rw [Nat.add_comm 1, List.drop_succ_cons]
    rfl
  have hlength : (front :: (data ++ rest.drop data.length)).length = (front :: rest).length := by
    rw [List.length_cons] at hbuf
    rw [List.length_cons, List.length_append, List.length_drop, List.length_cons]
    omega
  cases hascii : c.isAscii with
  | true =>
      obtain ⟨htext, -, hlast, hlen, -⟩ :=
        vsfAsciiAsciiToBin_eq front data (rest.drop data.length) prevCr
      refine ⟨_, hlen.trans hlength, ?_⟩
      rw [inChunk, if_pos hascii, hfill]
      dsimp only
      rw [htext, hlast]
      split <;> rfl
  | false =>
      obtain rfl := hcr hascii
      refine ⟨_, hlength, ?_⟩
      rw [inChunk, if_neg (by simp [hascii]), hfill]
      by_cases hdata : data = []
      · simp [hdata, incoming, Transducer.copy]
      · simp [hdata, incoming]

/-- A round that has something to write. -/
theorem recvRounds_data {k : Kernel} {c : Config} {io io₁ : Io} {data : Text}
    (hread : vsfSysutilRead k (getChunkSize c.transChunkSize) io = (some data, io₁))
    {prevCr : Bool} (hmore : data = [] → prevCr = true) (fuel : Nat) (buf : Text)
    (ret : TransferRet) :
    recvRounds k c (fuel + 1) buf prevCr ret io =
      let ret := { ret with transferred := ret.transferred + data.length }
      let chunk := inChunk c buf prevCr data
      match vsfSysutilWriteLoop k chunk.1 io₁ with
      | none => none
      | some (.error, io) => some ({ ret with retval := -1 }, io)
      | some (.count n, io) =>
        if n ≠ chunk.1.length then some ({ ret with retval := -1 }, io)
        else recvRounds k c fuel chunk.2.1 chunk.2.2 ret io := by
  have hgoes : ¬ (data.length = 0 ∧ ¬ prevCr = true) := by
    rintro ⟨hnil, hcr⟩
    exact hcr (hmore (List.length_eq_zero_iff.mp hnil))
  rw [recvRounds, hread]
  dsimp only
  rw [if_neg hgoes]

/-- A round whose data are not all written is the last one. -/
theorem recvRounds_cut {k : Kernel} {c : Config} {io io₁ io₂ : Io} {data : Text}
    (hread : vsfSysutilRead k (getChunkSize c.transChunkSize) io = (some data, io₁))
    {prevCr : Bool} (hmore : data = [] → prevCr = true) (fuel : Nat) (buf : Text)
    (ret : TransferRet) {r : Retval}
    (hwrite : vsfSysutilWriteLoop k (inChunk c buf prevCr data).1 io₁ = some (r, io₂))
    (hr : r ≠ .count (inChunk c buf prevCr data).1.length) :
    recvRounds k c (fuel + 1) buf prevCr ret io =
      some (⟨-1, ret.transferred + data.length⟩, io₂) := by
  rw [recvRounds_data hread hmore]
  dsimp only
  rw [hwrite]
  cases r with
  | error => rfl
  | count n => exact if_pos fun hn => hr (by rw [hn])

/-- A round whose data are written. -/
theorem recvRounds_next {k : Kernel} {c : Config} {io io₁ io₂ : Io} {data : Text}
    (hread : vsfSysutilRead k (getChunkSize c.transChunkSize) io = (some data, io₁))
    {prevCr : Bool} (hmore : data = [] → prevCr = true) (fuel : Nat) (buf : Text)
    (ret : TransferRet)
    (hwrite : vsfSysutilWriteLoop k (inChunk c buf prevCr data).1 io₁ =
      some (.count (inChunk c buf prevCr data).1.length, io₂)) :
    recvRounds k c (fuel + 1) buf prevCr ret io =
      recvRounds k c fuel (inChunk c buf prevCr data).2.1 (inChunk c buf prevCr data).2.2
        { ret with transferred := ret.transferred + data.length } io₂ := by
  rw [recvRounds_data hread hmore]
  dsimp only
  rw [hwrite]
  exact if_neg (not_not_intro rfl)

/-- What rounds over the rest of the data should come to: what they store is what the
conversion makes of the data up to where they stop, and the data are counted. -/
def StoresOn (k : Kernel) (c : Config) (prevCr : Bool) (ret : TransferRet) (io : Io)
    (outcome : Option (TransferRet × Io)) : Prop :=
  ∃ r io' out, outcome = some (r, io') ∧ io'.sink = io.sink ++ out ∧
    (incoming c.isAscii).Pumped prevCr (io.source.drop io.pos) out (decide (r.retval = 0)) ∧
    r.transferred ≤ ret.transferred + (io.source.drop io.pos).length ∧
    (r.retval = 0 → r.transferred = ret.transferred + (io.source.drop io.pos).length) ∧
    (Willing k → r.retval = 0)

/-- A read that fails stops the rounds. -/
theorem storesOn_of_unread {k : Kernel} {c : Config} {prevCr : Bool} {ret : TransferRet} {io : Io}
    (hnot : ¬ Willing k) (t : Nat) :
    StoresOn k c prevCr ret io (some ({ ret with retval := -2 }, { io with clock := t })) :=
  ⟨_, _, [], rfl, by simp, Transducer.Pumped.stop _ _, by simp, by simp,
    fun h => absurd h hnot⟩

/-- At the end of the data with nothing held back, the rounds are done. -/
theorem storesOn_of_end {k : Kernel} {c : Config} {ret : TransferRet} {io : Io}
    (hret : ret.retval = 0) (hend : io.source.drop io.pos = []) (t : Nat) :
    StoresOn k c false ret io (some (ret, { io with clock := t })) := by
  have hfinish := Transducer.Pumped.finish (t := incoming c.isAscii) false
  have hempty : (incoming c.isAscii).finish false = [] := by cases c.isAscii <;> rfl
  rw [hempty] at hfinish
  refine ⟨ret, _, [], rfl, by simp, ?_, by simp, fun _ => ?_, fun _ => hret⟩
  · rw [hend, hret]
    exact hfinish
  · rw [hend]
    rfl

section Round

variable {k : Kernel} {c : Config} {ret : TransferRet} {io io' : Io} {data rest out : Text}

/-- A write that fails stops the rounds behind a beginning of the chunk. -/
theorem storesOn_of_cut {prevCr : Bool} (hrest : io.source.drop io.pos = data ++ rest)
    (hend : data = [] → rest = []) (hnot : ¬ Willing k)
    (hcut : out <+: if data = [] then (incoming c.isAscii).finish prevCr
      else ((incoming c.isAscii).feed prevCr data).2) (hsink : io'.sink = io.sink ++ out) :
    StoresOn k c prevCr ret io (some (⟨-1, ret.transferred + data.length⟩, io')) := by
  refine ⟨_, _, out, rfl, hsink, ?_, by simp [hrest], by simp, fun h => absurd h hnot⟩
  rw [hrest]
  by_cases hdata : data = []
  · obtain rfl := hend hdata
    rw [if_pos hdata] at hcut
    subst hdata
    exact Transducer.Pumped.cutFinish hcut
  · rw [if_neg hdata] at hcut
    exact Transducer.Pumped.cut rest hcut

/-- At the end of the data the carriage return that was held back is stored, and nothing
comes behind it. -/
theorem storesOn_of_flushed {outcome : Option (TransferRet × Io)}
    (h : StoresOn k c false ret io' outcome) (hend : io.source.drop io.pos = [])
    (hend' : io'.source.drop io'.pos = [])
    (hsink : io'.sink = io.sink ++ (incoming c.isAscii).finish true) :
    StoresOn k c true ret io outcome := by
  obtain ⟨r, io'', out, hrounds, hsink', hpumped, hle, heq, hwilling⟩ := h
  rw [hend'] at hpumped hle heq
  have hnothing : out = [] := by
    have hprefix := hpumped.prefix_complete
    rw [incoming_complete, inText_nil, List.prefix_nil] at hprefix
    exact hprefix
  rw [StoresOn, hend]
  refine ⟨r, io'', (incoming c.isAscii).finish true, hrounds, ?_, ?_, hle, heq, hwilling⟩
  · rw [hsink', hnothing, List.append_nil, hsink]
  · cases hdone : decide (r.retval = 0) with
    | true => exact Transducer.Pumped.finish true
    | false => exact Transducer.Pumped.cutFinish List.prefix_rfl

/-- Behind a chunk that is stored the rounds go on with the rest. -/
theorem storesOn_of_chunk {prevCr : Bool} {outcome : Option (TransferRet × Io)}
    (h : StoresOn k c ((incoming c.isAscii).feed prevCr data).1
      { ret with transferred := ret.transferred + data.length } io' outcome)
    (hrest : io.source.drop io.pos = data ++ rest) (hrest' : io'.source.drop io'.pos = rest)
    (hsink : io'.sink = io.sink ++ ((incoming c.isAscii).feed prevCr data).2) :
    StoresOn k c prevCr ret io outcome := by
  obtain ⟨r, io'', out, hrounds, hsink', hpumped, hle, heq, hwilling⟩ := h
  dsimp only at hle heq
  rw [hrest'] at hpumped hle heq
  rw [StoresOn, hrest, List.length_append]
  refine ⟨r, io'', _, hrounds, ?_, Transducer.Pumped.next hpumped, by omega, fun hdone => ?_,
    hwilling⟩
  · rw [hsink', hsink, List.append_assoc]
  · have htransferred := heq hdone
    omega

end Round

/-- What the rounds store is what the conversion makes of the data, up to where they
stop.  One round goes beyond the end when a carriage return is held back. -/
theorem recvRounds_spec (k : Kernel) (c : Config) {fuel : Nat} {buf : Text}
    (hbuf : buf.length = dataBufsize + 1) {prevCr : Bool}
    (hcr : c.isAscii = false → prevCr = false) {ret : TransferRet} (hret : ret.retval = 0) {io : Io}
    (hfuel : (io.source.drop io.pos).length +
      (if io.source.drop io.pos = [] ∧ prevCr = false then 0 else 1) < fuel) :
    StoresOn k c prevCr ret io (recvRounds k c fuel buf prevCr ret io) := by
  induction fuel generalizing buf prevCr ret io with
  | zero => omega
  | succ fuel ih =>
      rcases vsfSysutilRead_cases k (getChunkSize_pos c.transChunkSize) io with
        ⟨hread, hnot⟩ | ⟨data, rest, hrest, hend, hle, hread⟩
      · rw [recvRounds, hread]
        exact storesOn_of_unread hnot _
      by_cases hdone : data = [] ∧ prevCr = false
      · obtain ⟨rfl, rfl⟩ := hdone
        obtain rfl := hend rfl
        rw [recvRounds, hread]
        exact storesOn_of_end hret hrest _
      have hmore : data = [] → prevCr = true := fun h => by simpa [h] using hdone
      have hfits : data.length < buf.length := by
        have hchunk := getChunkSize_le c.transChunkSize
        omega
      obtain ⟨buf', hlength, hchunk⟩ := inChunk_eq hfits prevCr hcr
      have hbehind : io.source.drop (io.pos + data.length) = rest := by
        rw [← List.drop_drop, hrest, List.drop_left]
      rcases vsfSysutilWriteLoop_cases k (inChunk c buf prevCr data).1
          { io with clock := io.clock + 1, pos := io.pos + data.length } with
        ⟨t, hwrite⟩ | ⟨r, t, out, hprefix, hr, hnot, hwrite⟩
      · rw [recvRounds_next hread hmore fuel buf ret hwrite, hchunk]
        by_cases hdata : data = []
        · obtain rfl := hend hdata
          obtain rfl := hmore hdata
          subst hdata
          have hfuel' : (io.source.drop io.pos).length +
              (if io.source.drop io.pos = [] ∧ false = false then 0 else 1) < fuel := by
            rw [if_pos ⟨hrest, rfl⟩]
            rw [hrest, if_neg (by simp)] at hfuel
            rw [hrest]
            omega
          rw [if_pos rfl]
          exact storesOn_of_flushed (@ih buf' (hlength.trans hbuf) false (fun _ => rfl) ret hret
            { io with clock := t, sink := io.sink ++ (incoming c.isAscii).finish true } hfuel')
            hrest hrest rfl
        · have hfuel' : (io.source.drop (io.pos + data.length)).length +
              (if io.source.drop (io.pos + data.length) = [] ∧
                ((incoming c.isAscii).feed prevCr data).1 = false then 0 else 1) < fuel := by
            have hpos := List.length_pos_iff.mpr hdata
            rw [hrest, if_neg (by simp [hdata]), List.length_append] at hfuel
            rw [hbehind]
            split <;> omega
          have hcr' : c.isAscii = false → ((incoming c.isAscii).feed prevCr data).1 = false := by
            intro hbinary
            rw [hbinary, incoming, if_neg (by simp), Transducer.feed_copy]
            exact hcr hbinary
          rw [if_neg hdata]
          exact storesOn_of_chunk (@ih buf' (hlength.trans hbuf) _ hcr'
            { ret with transferred := ret.transferred + data.length } hret { io with
              clock := t, pos := io.pos + data.length,
              sink := io.sink ++ ((incoming c.isAscii).feed prevCr data).2 } hfuel')
            hrest hbehind rfl
      · rw [recvRounds_cut hread hmore fuel buf ret hwrite hr]
        rw [hchunk, apply_ite Prod.fst] at hprefix
        exact storesOn_of_cut hrest hend hnot hprefix rfl

/-- The receiving loop stores a beginning of what arrives, and the whole where it reports success.
-/
theorem doFileRecv_spec (k : Kernel) (c : Config) {buf : Text}
    (hbuf : buf.length = dataBufsize + 1) (io : Io) :
    ∃ r io' out, doFileRecv k c buf io = some (r, io') ∧ io'.sink = io.sink ++ out ∧
      out <+: inText c.isAscii (io.source.drop io.pos) ∧
      r.transferred ≤ (io.source.drop io.pos).length ∧
      (r.retval = 0 → out = inText c.isAscii (io.source.drop io.pos) ∧
        r.transferred = (io.source.drop io.pos).length) ∧
      (Willing k → r.retval = 0) := by
  have hfuel : (io.source.drop io.pos).length +
      (if io.source.drop io.pos = [] ∧ false = false then 0 else 1) < io.source.length + 2 := by
    rw [List.length_drop]
    split <;> omega
  obtain ⟨r, io', out, hrounds, hsink, hpumped, hle, heq, hwilling⟩ :=
    @recvRounds_spec k c _ buf hbuf false (fun _ => rfl) ⟨0, 0⟩ rfl io hfuel
  rw [← incoming_complete]
  refine ⟨r, io', out, hrounds, hsink, hpumped.prefix_complete, by simpa using hle,
    fun hdone => ⟨?_, by simpa using heq hdone⟩, hwilling⟩
  rw [decide_eq_true hdone] at hpumped
  exact hpumped.eq_complete

/-! ## Transfers -/

/-- A transfer that begins: nothing has been read, written or tried. -/
def Io.start (source : Text) : Io where
  clock := 0
  source := source
  pos := 0
  sink := []
  sendfileChecked := false
  runtimeSendfileWorks := false

/-- A download puts a beginning of the converted rest of the file on the wire, and counts no
more than that.  When it reports success it is the whole, and it reports success when no call
fails, by either path. -/
theorem vsfFtpdataioTransferFile_send (k : Kernel) (c : Config) (recvbuf : Text) (io : Io)
    (hzero : c.isAscii = false → c.dataUseSsl = false → NoZero k) :
    ∃ r io' out, vsfFtpdataioTransferFile k c false recvbuf io = some (r, io') ∧
      io'.sink = io.sink ++ out ∧
      out <+: outText c.isAscii (io.source.drop io.pos) ∧ r.transferred ≤ out.length ∧
      (r.retval = 0 →
        out = outText c.isAscii (io.source.drop io.pos) ∧ r.transferred = out.length) ∧
      (Willing k → c.dataUseSsl = false → r.retval = 0) := by
  rw [vsfFtpdataioTransferFile, if_neg (by simp)]
  by_cases hloop : c.isAscii = true ∨ c.dataUseSsl = true
  · rw [if_pos hloop]
    exact doFileSendRwloop_spec k c io
  · obtain ⟨hascii, hssl⟩ := not_or.mp hloop
    rw [Bool.not_eq_true] at hascii hssl
    obtain ⟨r, io', out, hsend, hsink, hprefix, hle, hwhole, hwilling⟩ :=
      doFileSendSendfile_spec (hzero hascii hssl) c io
    rw [if_neg hloop, hascii]
    exact ⟨r, io', out, hsend, hsink, hprefix, hle, hwhole, fun h _ => hwilling h⟩

/-- A kernel that moves five bytes at a time, and `sendfile` switched off. -/
theorem vsfFtpdataioTransferFile_send_slow :
    ∃ r io' out, vsfFtpdataioTransferFile (fun _ => .moves 5) ⟨false, false, 0, 0, false⟩ false []
        (Io.start "a file\n".toList) = some (r, io') ∧
      io'.sink = [] ++ out ∧ out <+: "a file\n".toList ∧ r.transferred ≤ out.length ∧
      (r.retval = 0 → out = "a file\n".toList ∧ r.transferred = out.length) ∧
      (Willing (fun _ => .moves 5) → false = false → r.retval = 0) :=
  vsfFtpdataioTransferFile_send (fun _ => .moves 5) ⟨false, false, 0, 0, false⟩ []
    (Io.start "a file\n".toList) fun _ _ _ => by simp

/-- An upload stores a beginning of the converted data.  When it reports success it has stored
the whole and counted what came over the wire, and it reports success when no call fails. -/
theorem vsfFtpdataioTransferFile_recv (k : Kernel) (c : Config) {recvbuf : Text}
    (hbuf : recvbuf.length = dataBufsize + 1) (io : Io) :
    ∃ r io' out, vsfFtpdataioTransferFile k c true recvbuf io = some (r, io') ∧
      io'.sink = io.sink ++ out ∧
      out <+: inText c.isAscii (io.source.drop io.pos) ∧
      r.transferred ≤ (io.source.drop io.pos).length ∧
      (r.retval = 0 → out = inText c.isAscii (io.source.drop io.pos) ∧
        r.transferred = (io.source.drop io.pos).length) ∧
      (Willing k → r.retval = 0) := by
  rw [vsfFtpdataioTransferFile, if_pos rfl]
  exact doFileRecv_spec k c hbuf io

/-- Line ends that are cut apart, one byte at a time. -/
theorem vsfFtpdataioTransferFile_recv_bytes :
    ∃ r io' out, vsfFtpdataioTransferFile (fun _ => .moves 1) ⟨true, false, 0, 0, false⟩ true
        (List.replicate (dataBufsize + 1) nul) (Io.start "a\r\nb\r".toList) = some (r, io') ∧
      io'.sink = [] ++ out ∧ out <+: toLf "a\r\nb\r".toList ∧ r.transferred ≤ 5 ∧
      (r.retval = 0 → out = toLf "a\r\nb\r".toList ∧ r.transferred = 5) ∧
      (Willing (fun _ => .moves 1) → r.retval = 0) :=
  vsfFtpdataioTransferFile_recv (fun _ => .moves 1) ⟨true, false, 0, 0, false⟩
    List.length_replicate (Io.start "a\r\nb\r".toList)

/-- What a download that reports success has put on the wire. -/
theorem sent_of_success {k : Kernel} {c : Config} {recvbuf : Text} {io io' : Io} {r : TransferRet}
    (hzero : c.isAscii = false → c.dataUseSsl = false → NoZero k)
    (hsend : vsfFtpdataioTransferFile k c false recvbuf io = some (r, io')) (hr : r.retval = 0) :
    io'.sink = io.sink ++ outText c.isAscii (io.source.drop io.pos) := by
  rw [vsfFtpdataioTransferFile, if_neg (by simp)] at hsend
  by_cases hloop : c.isAscii = true ∨ c.dataUseSsl = true
  · obtain ⟨r₁, io₁, out, hrun, hsink, -, -, hwhole, -⟩ := doFileSendRwloop_spec k c io
    rw [if_pos hloop, hrun] at hsend
    cases hsend
    rw [hsink, (hwhole hr).1]
  · obtain ⟨hascii, hssl⟩ := not_or.mp hloop
    rw [Bool.not_eq_true] at hascii hssl
    obtain ⟨r₁, io₁, out, hrun, hsink, -, -, hwhole, -⟩ :=
      doFileSendSendfile_spec (hzero hascii hssl) c io
    rw [if_neg hloop, hrun] at hsend
    cases hsend
    rw [hsink, (hwhole hr).1, hascii]
    rfl

/-- When a file goes out and comes back in the same mode, and both transfers report success,
the copy is the file exactly when the mode is binary or no line feed of the file has a carriage
return in front of it. -/
theorem transfer_back {k k' : Kernel} {c c' : Config} (hmode : c'.isAscii = c.isAscii)
    (hzero : c.isAscii = false → c.dataUseSsl = false → NoZero k) {recvbuf : Text}
    (hbuf : recvbuf.length = dataBufsize + 1) {file : Text} {sent stored : Io}
    {down up : TransferRet}
    (hdown : vsfFtpdataioTransferFile k c false recvbuf (Io.start file) = some (down, sent))
    (hup : vsfFtpdataioTransferFile k' c' true recvbuf (Io.start sent.sink) = some (up, stored))
    (hdown₀ : down.retval = 0) (hup₀ : up.retval = 0) :
    stored.sink = file ↔ (c.isAscii = true → ¬ ['\r', '\n'] <:+: file) := by
  have hsent : sent.sink = outText c.isAscii file := sent_of_success hzero hdown hdown₀
  have hstored : stored.sink = inText c'.isAscii sent.sink := by
    obtain ⟨r, io', out, hrun, hsink, -, -, hwhole, -⟩ :=
      doFileRecv_spec k' c' hbuf (Io.start sent.sink)
    rw [vsfFtpdataioTransferFile, if_pos rfl, hrun] at hup
    cases hup
    rw [hsink, (hwhole hup₀).1]
    rfl
  rw [hstored, hsent, hmode]
  cases c.isAscii with
  | true =>
      have hkept : toLf file = file ↔ ¬ ['\r', '\n'] <:+: file :=
        replaceAll_eq_self_iff (by simp)
      rw [inText, outText, if_pos rfl, if_pos rfl, toLf_toCrlf, hkept]
      simp
  | false => simp [inText, outText]

/-- A text file in ASCII mode, by kernels that move four and three bytes at a time. -/
theorem transfer_back_text :
    ("a\nb\n".toList : Text) = "a\nb\n".toList ↔
      ((⟨true, false, 0, 0, true⟩ : Config).isAscii = true →
        ¬ ['\r', '\n'] <:+: "a\nb\n".toList) :=
  @transfer_back (fun _ => .moves 4) (fun _ => .moves 3) ⟨true, false, 0, 0, true⟩
    ⟨true, false, 0, 0, true⟩ rfl (by simp) (List.replicate (dataBufsize + 1) nul)
    List.length_replicate "a\nb\n".toList
    ⟨4, "a\nb\n".toList, 4, "a\r\nb\r\n".toList, false, false⟩
    ⟨5, "a\r\nb\r\n".toList, 6, "a\nb\n".toList, false, false⟩ ⟨0, 6⟩ ⟨0, 6⟩
    (by decide) (by decide) rfl rfl

end FileTransfer
end Server
end ModpackInstaller
