import Mathlib.Algebra.Group.Action.Defs
import Mathlib.Algebra.Order.BigOperators.Group.List
import Mathlib.Algebra.Order.Ring.Nat
import Mathlib.Data.List.TakeWhile
import RemoteManage.Foundation.FixedBuffer
import RemoteManage.Foundation.WordBytes
import RemoteManage.ManageTool.ProtocolInfo

/-!
# The upload of a file

`FileUpdateProcess` sends a file as one command with its name, its size and the number of its blocks, and one
command for each block that `file.read` returns. The block's number and size are 16 bits wide, and so
is the variable that holds the result of `file.read`: the `-1` of an error becomes a block of 65535 bytes.

Here the file has been opened. A result of `file.read` brings no more bytes than are asked for, and
`ArrayBuffer` keeps what an earlier upload has left in it.
-/

namespace RemoteManage.ManageTool

open RemoteManage.Foundation

/-- `FILE_BLOCK_SIZE`. -/
def fileBlockSize : ℕ := 1000

/-- The size of `ArrayBuffer`. -/
abbrev arrayBufferSize : ℕ := 2000

/-- What a call of `file.read` for `FILE_BLOCK_SIZE` bytes comes to. -/
inductive FileRead where
  | data (bytes : List UInt8) (length_le : bytes.length ≤ fileBlockSize)
  | error

namespace FileRead

/-- The number that `file.read` returns. -/
def result : FileRead → ℤ
  | data bytes _ => bytes.length
  | error => -1

/-- The read has brought something. -/
def positive (r : FileRead) : Bool := 0 < r.result

end FileRead

/-- What `InterfaceProcess` is given: the buffer and the size of the command in it. -/
structure UpdateCommand where
  pBuffer : FixedBuffer UInt8 arrayBufferSize
  nSize : ℕ

/-- The bytes of the command. -/
def UpdateCommand.bytes (command : UpdateCommand) : List UInt8 := command.pBuffer.contents command.nSize

/-- `CreateFileUpdateCmd` for the name and the total size, an `int`. -/
def createFileUpdateCmd (pDst : FixedBuffer UInt8 arrayBufferSize) (pName : List UInt8) (FileTotalSize : ℤ) :
    UpdateCommand :=
  let nFileBlock := FileTotalSize.tdiv fileBlockSize + if FileTotalSize.tmod fileBlockSize = 0 then 0 else 1
  let header : List UInt8 :=
    [0x03, .ofInt (FileTotalSize >>> (24 : ℕ)), .ofInt (FileTotalSize >>> (16 : ℕ)),
      .ofInt (FileTotalSize >>> (8 : ℕ)), .ofInt (FileTotalSize >>> (0 : ℕ)),
      .ofInt (nFileBlock >>> (8 : ℕ)), .ofInt (nFileBlock >>> (0 : ℕ))]
  let pDst := pDst.writeAll 0 header
  let nSize := header.length
  let pDst := pDst.writeAll nSize pName
  let nSize := nSize + pName.length
  ⟨pDst.write nSize 0, nSize + 1⟩

/-- `CreateFileUpdateCmd` for a block that is in the buffer. -/
def createFileBlockCmd (pDst : FixedBuffer UInt8 arrayBufferSize) (nFileSize nFileBlock : UInt16) :
    UpdateCommand :=
  let header : List UInt8 :=
    [0x04, highByte nFileSize, lowByte nFileSize, highByte nFileBlock, lowByte nFileBlock]
  ⟨pDst.writeAll 0 header, header.length + nFileSize.toNat⟩

/-- `FileUpdateProcess` between two calls of `file.read`, with the commands handed over so far. -/
structure FileUpdate where
  arrayBuffer : FixedBuffer UInt8 arrayBufferSize
  nFileBlock : ℕ
  commands : List UpdateCommand
  ended : Bool

namespace FileUpdate

/-- The part of `FileUpdateProcess` before its loop; `size` is what `file.size` returns. -/
def start (arrayBuffer : FixedBuffer UInt8 arrayBufferSize) (pathFileName : List UInt8) (size : ℤ) :
    FileUpdate :=
  let command := createFileUpdateCmd arrayBuffer pathFileName (Int.bmod size (2 ^ 32))
  ⟨command.pBuffer, 0, [command], false⟩

/-- `ArrayBuffer` after a call of `file.read`. -/
def readBuffer (u : FileUpdate) : FileRead → FixedBuffer UInt8 arrayBufferSize
  | .data bytes _ => u.arrayBuffer.writeAll 5 bytes
  | .error => u.arrayBuffer

/-- One turn of the loop, with what its call of `file.read` comes to. Nothing is read behind the loop. -/
def turn (u : FileUpdate) (r : FileRead) : FileUpdate :=
  if u.ended then u
  else
    let arrayBuffer := u.readBuffer r
    let nReadSize := UInt16.ofInt r.result
    if nReadSize > 0 then
      let nFileBlock := u.nFileBlock + 1
      let command := createFileBlockCmd arrayBuffer nReadSize (.ofNat nFileBlock)
      ⟨command.pBuffer, nFileBlock, u.commands ++ [command], false⟩
    else { u with arrayBuffer, ended := true }

end FileUpdate

/-- `FileUpdateProcess` on a file, for some results of `file.read`. -/
def fileUpdateProcess (arrayBuffer : FixedBuffer UInt8 arrayBufferSize) (pathFileName : List UInt8) (size : ℤ)
    (reads : List FileRead) : FileUpdate :=
  reads.foldl FileUpdate.turn (.start arrayBuffer pathFileName size)

/-- The variable that holds the result of a read counts the bytes read. -/
theorem toNat_result_data {bytes : List UInt8} (hle : bytes.length ≤ fileBlockSize) :
    (UInt16.ofInt (FileRead.data bytes hle).result).toNat = bytes.length := by
  have hlt : bytes.length < 2 ^ 16 := Nat.lt_of_le_of_lt hle (by decide)
  rw [FileRead.result, UInt16.ofInt, UInt16.toNat_ofNat']
  omega

/-- It holds its largest value after an error. -/
theorem toNat_result_error : (UInt16.ofInt FileRead.error.result).toNat = 65535 := by decide

/-- The size of the command for a block. -/
theorem createFileBlockCmd_nSize (pDst : FixedBuffer UInt8 arrayBufferSize) (nFileSize nFileBlock : UInt16) :
    (createFileBlockCmd pDst nFileSize nFileBlock).nSize = 5 + nFileSize.toNat := rfl

/-- The size of the command for the name. -/
theorem createFileUpdateCmd_nSize (pDst : FixedBuffer UInt8 arrayBufferSize) (pName : List UInt8)
    (FileTotalSize : ℤ) : (createFileUpdateCmd pDst pName FileTotalSize).nSize = 8 + pName.length := by
  simp only [createFileUpdateCmd, List.length_cons, List.length_nil]
  omega

section Turn

variable {u : FileUpdate} {r : FileRead}

/-- The command that a turn hands over. -/
def FileUpdate.blockCmd (u : FileUpdate) (r : FileRead) : UpdateCommand :=
  createFileBlockCmd (u.readBuffer r) (.ofInt r.result) (.ofNat (u.nFileBlock + 1))

/-- The loop goes on with a command while the variable is not zero. -/
theorem turn_of_pos (hended : u.ended = false) (hpos : 0 < (UInt16.ofInt r.result).toNat) :
    u.turn r = ⟨(u.blockCmd r).pBuffer, u.nFileBlock + 1, u.commands ++ [u.blockCmd r], false⟩ := by
  have hsize : UInt16.ofInt r.result > 0 := UInt16.lt_iff_toNat_lt.mpr hpos
  simp only [FileUpdate.turn, FileUpdate.blockCmd, hended, hsize, Bool.false_eq_true, if_false, if_true]

/-- The loop ends with the first read that brings nothing. -/
theorem turn_of_zero (hended : u.ended = false) (hzero : (UInt16.ofInt r.result).toNat = 0) :
    u.turn r = { u with arrayBuffer := u.readBuffer r, ended := true } := by
  have hsize : ¬ UInt16.ofInt r.result > 0 := fun hpos =>
    absurd (UInt16.lt_iff_toNat_lt.mp hpos) (by rw [hzero]; decide)
  simp only [FileUpdate.turn, hended, hsize, Bool.false_eq_true, if_false]

/-- Nothing is read behind the loop. -/
theorem foldl_turn_of_ended (hended : u.ended = true) (reads : List FileRead) :
    reads.foldl FileUpdate.turn u = u := by
  induction reads with
  | nil => rfl
  | cons r rest ih => rwa [List.foldl_cons, FileUpdate.turn, if_pos hended]

/-- The commands handed over stay. -/
theorem commands_kept (u : FileUpdate) (reads : List FileRead) :
    u.commands <+: (reads.foldl FileUpdate.turn u).commands := by
  induction reads generalizing u with
  | nil => exact List.prefix_rfl
  | cons r rest ih =>
    refine List.IsPrefix.trans ?_ (ih (u.turn r))
    unfold FileUpdate.turn
    split
    · exact List.prefix_rfl
    · dsimp only
      split
      · exact List.prefix_append _ _
      · exact List.prefix_rfl

/-- Reads that bring something are handed over one by one, each in a command of its size. -/
theorem foldl_turn_of_positive (hended : u.ended = false) {reads : List FileRead}
    (hpos : ∀ r ∈ reads, r.positive = true) :
    ∃ blocks, (reads.foldl FileUpdate.turn u).commands = u.commands ++ blocks ∧
      (reads.foldl FileUpdate.turn u).ended = false ∧ blocks.length = reads.length ∧
      ∀ command ∈ blocks, command.nSize ≤ 5 + fileBlockSize := by
  induction reads generalizing u with
  | nil => exact ⟨[], (List.append_nil _).symm, hended, rfl, fun _ h => nomatch h⟩
  | cons r rest ih =>
    rw [List.forall_mem_cons] at hpos
    cases r with
    | error => exact absurd hpos.1 (by decide)
    | data bytes hle =>
      have hsize := toNat_result_data hle
      have hlength : 0 < bytes.length := by
        have hbytes := hpos.1
        rw [FileRead.positive, decide_eq_true_iff, FileRead.result] at hbytes
        omega
      have hturn := turn_of_pos hended (r := .data bytes hle) (by rw [hsize]; exact hlength)
      obtain ⟨blocks, hcommands, hrunning, hcount, hblocks⟩ := ih (u := u.turn (.data bytes hle))
        (by rw [hturn]) hpos.2
      refine ⟨u.blockCmd (.data bytes hle) :: blocks, ?_, hrunning, congrArg (· + 1) hcount,
        List.forall_mem_cons.mpr ⟨?_, hblocks⟩⟩
      · rw [List.foldl_cons, hcommands, hturn, List.append_assoc, List.singleton_append]
      · rw [FileUpdate.blockCmd, createFileBlockCmd_nSize, hsize]
        exact Nat.add_le_add_left hle 5

end Turn

/-- The loop ends with the first read whose result is not positive, each block has at most `FILE_BLOCK_SIZE`
bytes, and each command fits `ArrayBuffer` and, with the eight bytes of its frame, the transmit buffer. -/
structure EndsCleanly (u : FileUpdate) (reads : List FileRead) : Prop where
  blocks : u.commands.length = 1 + (reads.takeWhile FileRead.positive).length
  ended : u.ended = true ↔ ∃ r ∈ reads, r.result ≤ 0
  payload : ∀ command ∈ u.commands.tail, command.nSize ≤ 5 + fileBlockSize
  arrayBuffer : ∀ command ∈ u.commands, command.nSize ≤ arrayBufferSize
  txBuffer : ∀ command ∈ u.commands, command.nSize + 8 ≤ buffCacheSize

/-- The first result that is not positive, if there is one, is the end of the file. -/
def StopsAtEnd (reads : List FileRead) : Prop := (reads.dropWhile FileRead.positive).head? ≠ some .error

/-- The upload up to the first result that is not positive. -/
theorem fileUpdateProcess_positive (arrayBuffer : FixedBuffer UInt8 arrayBufferSize)
    (pathFileName : List UInt8) (size : ℤ) (reads : List FileRead) :
    ∃ header blocks, header.nSize = 8 + pathFileName.length ∧
      (fileUpdateProcess arrayBuffer pathFileName size (reads.takeWhile FileRead.positive)).commands =
        header :: blocks ∧
      (fileUpdateProcess arrayBuffer pathFileName size (reads.takeWhile FileRead.positive)).ended = false ∧
      blocks.length = (reads.takeWhile FileRead.positive).length ∧
      ∀ command ∈ blocks, command.nSize ≤ 5 + fileBlockSize := by
  have hpositive : ∀ r ∈ reads.takeWhile FileRead.positive, r.positive := fun r hr =>
    List.mem_takeWhile_imp hr
  obtain ⟨blocks, hcommands, hended, hcount, hblocks⟩ := foldl_turn_of_positive
    (u := .start arrayBuffer pathFileName size) rfl hpositive
  exact ⟨_, blocks, createFileUpdateCmd_nSize .., hcommands, hended, hcount, hblocks⟩

/-- An upload is the part up to the first result that is not positive, and the rest. -/
theorem fileUpdateProcess_split (arrayBuffer : FixedBuffer UInt8 arrayBufferSize) (pathFileName : List UInt8)
    (size : ℤ) (reads : List FileRead) :
    fileUpdateProcess arrayBuffer pathFileName size reads =
      (reads.dropWhile FileRead.positive).foldl FileUpdate.turn
        (fileUpdateProcess arrayBuffer pathFileName size (reads.takeWhile FileRead.positive)) := by
  rw [fileUpdateProcess, fileUpdateProcess, ← List.foldl_append, List.takeWhile_append_dropWhile]

/-- The result of a read that is not positive. -/
theorem not_positive_iff (r : FileRead) : ¬ r.positive = true ↔ r.result ≤ 0 := by
  rw [FileRead.positive, decide_eq_true_iff, Int.not_lt]

/-- When the loop has ended where it should, the name decides whether the upload is clean. -/
theorem endsCleanly_of_commands {u : FileUpdate} {reads : List FileRead} {header : UpdateCommand}
    {blocks : List UpdateCommand} {n : ℕ} (hcommands : u.commands = header :: blocks)
    (hheader : header.nSize = 8 + n) (hcount : blocks.length = (reads.takeWhile FileRead.positive).length)
    (hblocks : ∀ command ∈ blocks, command.nSize ≤ 5 + fileBlockSize)
    (hended : u.ended = true ↔ ∃ r ∈ reads, r.result ≤ 0) :
    EndsCleanly u reads ↔ n + 16 ≤ buffCacheSize := by
  have hsizes : 5 + fileBlockSize = 1005 ∧ arrayBufferSize = 2000 ∧ buffCacheSize = 1200 := ⟨rfl, rfl, rfl⟩
  constructor
  · intro h
    have htx := h.txBuffer header (by rw [hcommands]; exact List.mem_cons_self)
    omega
  · intro hn
    constructor
    case blocks => rw [hcommands, List.length_cons, hcount, Nat.add_comm]
    case ended => exact hended
    case payload =>
      rw [hcommands]
      exact hblocks
    case arrayBuffer =>
      rw [hcommands]
      refine List.forall_mem_cons.mpr ⟨by omega, fun command hcommand => ?_⟩
      have := hblocks command hcommand
      omega
    case txBuffer =>
      rw [hcommands]
      refine List.forall_mem_cons.mpr ⟨by omega, fun command hcommand => ?_⟩
      have := hblocks command hcommand
      omega

/-- An upload that goes on after an error is not clean. -/
theorem not_endsCleanly_of_error {u v : FileUpdate} (hended : u.ended = false) {reads rest : List FileRead}
    (hv : v = (FileRead.error :: rest).foldl FileUpdate.turn u) : ¬ EndsCleanly v reads := by
  intro h
  have hturn := turn_of_pos (r := .error) hended (by rw [toNat_result_error]; decide)
  have hmem : u.blockCmd .error ∈ v.commands := by
    rw [hv, List.foldl_cons]
    apply (commands_kept _ rest).subset
    rw [hturn]
    exact List.mem_append_right _ List.mem_cons_self
  have hsize := h.arrayBuffer _ hmem
  rw [FileUpdate.blockCmd, createFileBlockCmd_nSize, toNat_result_error] at hsize
  exact absurd hsize (by decide)

/-- An upload ends cleanly exactly when its first result that is not positive is no error and its name leaves
room for the rest of its command. -/
theorem endsCleanly_iff (arrayBuffer : FixedBuffer UInt8 arrayBufferSize) (pathFileName : List UInt8)
    (size : ℤ) (reads : List FileRead) :
    EndsCleanly (fileUpdateProcess arrayBuffer pathFileName size reads) reads ↔
      StopsAtEnd reads ∧ pathFileName.length + 16 ≤ buffCacheSize := by
  obtain ⟨header, blocks, hheader, hcommands, hrunning, hcount, hblocks⟩ :=
    fileUpdateProcess_positive arrayBuffer pathFileName size reads
  have hsplit := fileUpdateProcess_split arrayBuffer pathFileName size reads
  have hreads := List.takeWhile_append_dropWhile (p := FileRead.positive) (l := reads)
  rw [StopsAtEnd]
  cases hrest : reads.dropWhile FileRead.positive with
  | nil =>
    -- every result is positive, and the loop goes on
    rw [hrest] at hsplit hreads
    rw [List.foldl_nil] at hsplit
    rw [and_iff_right (by simp), hsplit]
    refine endsCleanly_of_commands hcommands hheader hcount hblocks (iff_of_false (by simp [hrunning]) ?_)
    rintro ⟨r, hr, hresult⟩
    rw [← hreads, List.append_nil] at hr
    exact (not_positive_iff r).mpr hresult (List.mem_takeWhile_imp hr)
  | cons r rest =>
    have hstop : r.result ≤ 0 := by
      have hhead := List.head?_dropWhile_not FileRead.positive reads
      rw [hrest] at hhead
      exact (not_positive_iff r).mp (Bool.eq_false_iff.mp hhead)
    rw [hrest] at hsplit
    cases r with
    | error => exact iff_of_false (not_endsCleanly_of_error hrunning hsplit) (by simp)
    | data bytes hle =>
      obtain rfl : bytes = [] := by
        rw [FileRead.result] at hstop
        exact List.eq_nil_of_length_eq_zero (by omega)
      have hturn := turn_of_zero (r := .data [] hle) hrunning (toNat_result_data hle)
      rw [List.foldl_cons, hturn, foldl_turn_of_ended rfl] at hsplit
      rw [and_iff_right (by simp), hsplit]
      refine endsCleanly_of_commands hcommands hheader hcount hblocks
        (iff_of_true rfl ⟨.data [] hle, ?_, hstop⟩)
      rw [← hreads, hrest]
      exact List.mem_append_right _ List.mem_cons_self

/-- An error at the beginning of a file. -/
theorem not_endsCleanly_error :
    ¬ EndsCleanly (fileUpdateProcess (.filled _ 0) [0x61] 0 [.error]) [.error] :=
  not_endsCleanly_of_error (u := .start (.filled _ 0) [0x61] 0) rfl rfl

/-- The bytes behind the head of a block's command. -/
def blockPayload (block : List UInt8) : List UInt8 := block.drop 5

/-- The 16-bit size field of a block's command. -/
def sizeField (block : List UInt8) : ℕ := (joinBytes (block.getD 1 0) (block.getD 2 0)).toNat

/-- The number of a block's command. -/
def numberField (block : List UInt8) : ℕ := (joinBytes (block.getD 3 0) (block.getD 4 0)).toNat

/-- The 32-bit total size in the command for the name. -/
def totalField (header : List UInt8) : ℕ :=
  65536 * (joinBytes (header.getD 1 0) (header.getD 2 0)).toNat +
    (joinBytes (header.getD 3 0) (header.getD 4 0)).toNat

/-- The 16-bit number of blocks in the command for the name. -/
def countField (header : List UInt8) : ℕ := (joinBytes (header.getD 5 0) (header.getD 6 0)).toNat

/-- A command for the name and the commands of the blocks convey a file. -/
structure ConveysBy (header : List UInt8) (blocks : List (List UInt8)) (content : List UInt8) : Prop where
  header_head : header.head? = some 0x03
  block_head : ∀ block ∈ blocks, block.head? = some 0x04
  payload_pos : ∀ block ∈ blocks, 1 ≤ (blockPayload block).length
  payload_le : ∀ block ∈ blocks, (blockPayload block).length ≤ fileBlockSize
  size : ∀ block ∈ blocks, sizeField block = (blockPayload block).length
  content : (blocks.map blockPayload).flatten = content
  numbers : blocks.map numberField = List.range' 1 blocks.length
  count : countField header = blocks.length
  total : totalField header = (blocks.map fun block => (blockPayload block).length).sum

/-- The commands convey a file. -/
def Conveys (commands : List (List UInt8)) (content : List UInt8) : Prop :=
  ∃ header blocks, commands = header :: blocks ∧ ConveysBy header blocks content

/-- The number of blocks of a file. -/
def blockCount (content : List UInt8) : ℕ := (content.length + (fileBlockSize - 1)) / fileBlockSize

/-- The bytes of a file that a call of `file.read` brings behind some earlier ones. -/
def fileBlock (content : List UInt8) (k : ℕ) : List UInt8 :=
  (content.drop (fileBlockSize * k)).take fileBlockSize

/-- A block has no more bytes than are asked for. -/
theorem fileBlock_length_le (content : List UInt8) (k : ℕ) : (fileBlock content k).length ≤ fileBlockSize :=
  List.length_take_le _ _

/-- What a call of `file.read` on a file that can be read comes to. -/
def fileRead (content : List UInt8) (k : ℕ) : FileRead :=
  .data (fileBlock content k) (fileBlock_length_le content k)

/-- The results of `file.read` on such a file: all its blocks, and then the end. -/
def fileReads (content : List UInt8) : List FileRead :=
  (List.range (blockCount content + 1)).map (fileRead content)

/-- The command of a block. -/
def blockBytes (content : List UInt8) (k : ℕ) : List UInt8 :=
  let size := UInt16.ofNat (fileBlock content k).length
  let number := UInt16.ofNat (k + 1)
  [0x04, highByte size, lowByte size, highByte number, lowByte number] ++ fileBlock content k

/-- What convey a file are less than `2^16` blocks. -/
theorem length_le_of_conveys {commands : List (List UInt8)} {content : List UInt8}
    (h : Conveys commands content) : content.length ≤ 65535 * fileBlockSize := by
  obtain ⟨header, blocks, -, h⟩ := h
  have hcount : blocks.length ≤ 65535 := by
    rw [← h.count]
    exact Nat.le_of_lt_succ (UInt16.toNat_lt _)
  have hsum : (blocks.map fun block => (blockPayload block).length).sum ≤ blocks.length * fileBlockSize := by
    have hall := List.sum_le_card_nsmul (blocks.map fun block => (blockPayload block).length) fileBlockSize
      (List.forall_mem_map.mpr h.payload_le)
    rwa [List.length_map, smul_eq_mul] at hall
  rw [← h.content, List.length_flatten, List.map_map]
  exact hsum.trans (Nat.mul_le_mul_right _ hcount)

/-- A block is put behind its head in the buffer. -/
theorem createFileBlockCmd_bytes (pDst : FixedBuffer UInt8 arrayBufferSize) {bytes : List UInt8}
    (hle : bytes.length ≤ fileBlockSize) (nFileBlock : UInt16) :
    (createFileBlockCmd (pDst.writeAll 5 bytes) (.ofNat bytes.length) nFileBlock).bytes =
      [0x04, highByte (.ofNat bytes.length), lowByte (.ofNat bytes.length), highByte nFileBlock,
        lowByte nFileBlock] ++ bytes := by
  have hfits : 5 + bytes.length ≤ arrayBufferSize := Nat.le_trans (Nat.add_le_add_left hle 5) (by decide)
  have hsize : (UInt16.ofNat bytes.length).toNat = bytes.length := by
    rw [UInt16.toNat_ofNat']
    exact Nat.mod_eq_of_lt (Nat.lt_of_le_of_lt hle (by decide))
  have hslice := pDst.slice_writeAll 5 bytes hfits
  simp only [UpdateCommand.bytes, createFileBlockCmd, FixedBuffer.contents, hsize]
  rw [FixedBuffer.writeAll_zero_toList _ _ (by change 5 ≤ 2000; decide), List.take_length_add_append]
  exact congrArg _ hslice

/-- A natural number as a byte. -/
theorem ofInt_natCast (n : ℕ) : UInt8.ofInt n = .ofNat n := by
  apply UInt8.toNat.inj
  rw [UInt8.ofInt, UInt8.toNat_ofNat', UInt8.toNat_ofNat']
  omega

/-- A byte of a natural number. -/
theorem ofInt_natCast_shiftRight (n k : ℕ) : UInt8.ofInt ((n : ℤ) >>> k) = .ofNat (n / 2 ^ k) := by
  rw [Int.shiftRight_eq_div_pow, ← ofInt_natCast]
  rfl

/-- The command for the name. -/
theorem createFileUpdateCmd_bytes (pDst : FixedBuffer UInt8 arrayBufferSize) {pName : List UInt8}
    (hname : pName.length + 8 ≤ arrayBufferSize) (total : ℕ) :
    (createFileUpdateCmd pDst pName total).bytes =
      [0x03, .ofNat (total / 2 ^ 24), .ofNat (total / 2 ^ 16), .ofNat (total / 2 ^ 8), .ofNat (total / 2 ^ 0),
        .ofNat ((total + 999) / 1000 / 2 ^ 8), .ofNat ((total + 999) / 1000 / 2 ^ 0)] ++ pName ++ [0] := by
  have hblocks : (total : ℤ).tdiv fileBlockSize + (if (total : ℤ).tmod fileBlockSize = 0 then 0 else 1) =
      ((total + 999) / 1000 : ℕ) := by
    rw [Int.tdiv_eq_ediv_of_nonneg (Int.natCast_nonneg _), Int.tmod_eq_emod_of_nonneg (Int.natCast_nonneg _)]
    change (total : ℤ) / 1000 + (if (total : ℤ) % 1000 = 0 then 0 else 1) = _
    split <;> omega
  simp only [createFileUpdateCmd, hblocks, ofInt_natCast_shiftRight, UpdateCommand.bytes]
  generalize hhead : [_, _, _, _, _, _, _] = header
  have hlength : header.length = 7 := by rw [← hhead]; rfl
  rw [FixedBuffer.write_contents_succ _ _ (by omega), FixedBuffer.writeAll_contents _ _ _ (by omega),
    FixedBuffer.writeAll_zero_contents _ _ (by omega)]

/-- There are bytes left in front of the end of the file. -/
theorem fileBlock_ne_nil {content : List UInt8} {k : ℕ} (hk : k < blockCount content) :
    fileBlock content k ≠ [] := by
  have hleft : fileBlockSize * k < content.length := by
    rw [blockCount] at hk
    change k < (content.length + 999) / 1000 at hk
    change 1000 * k < _
    omega
  intro hnil
  have hlength := congrArg List.length hnil
  rw [fileBlock, List.length_take, List.length_drop, List.length_nil] at hlength
  change min 1000 _ = 0 at hlength
  omega

/-- There are none behind the last block. -/
theorem fileBlock_blockCount (content : List UInt8) : fileBlock content (blockCount content) = [] := by
  rw [fileBlock, List.drop_of_length_le, List.take_nil]
  change content.length ≤ 1000 * ((content.length + 999) / 1000)
  omega

/-- The blocks so far are the file up to their end. -/
theorem flatten_fileBlock (content : List UInt8) (k : ℕ) :
    ((List.range k).map (fileBlock content)).flatten = content.take (fileBlockSize * k) := by
  induction k with
  | zero => rfl
  | succ k ih =>
    rw [List.range_succ, List.map_append, List.flatten_append, ih, Nat.mul_succ, List.take_add]
    simp [fileBlock]

/-- The blocks are the file. -/
theorem flatten_fileBlock_blockCount (content : List UInt8) :
    ((List.range (blockCount content)).map (fileBlock content)).flatten = content := by
  rw [flatten_fileBlock, List.take_of_length_le]
  change content.length ≤ 1000 * ((content.length + 999) / 1000)
  omega

/-- The upload between two blocks. -/
structure Sent (arrayBuffer : FixedBuffer UInt8 arrayBufferSize) (pathFileName content : List UInt8) (k : ℕ)
    (u : FileUpdate) : Prop where
  running : u.ended = false
  nFileBlock : u.nFileBlock = k
  commands : u.commands.map UpdateCommand.bytes =
    (createFileUpdateCmd arrayBuffer pathFileName (Int.bmod content.length (2 ^ 32))).bytes ::
      (List.range k).map (blockBytes content)

variable {arrayBuffer : FixedBuffer UInt8 arrayBufferSize} {pathFileName content : List UInt8}

/-- One more block is handed over. -/
theorem Sent.turn {k : ℕ} {u : FileUpdate} (h : Sent arrayBuffer pathFileName content k u)
    (hk : k < blockCount content) :
    Sent arrayBuffer pathFileName content (k + 1) (u.turn (fileRead content k)) := by
  have hle := fileBlock_length_le content k
  have hsize : (UInt16.ofInt (fileRead content k).result).toNat = (fileBlock content k).length :=
    toNat_result_data hle
  have hturn := turn_of_pos (r := fileRead content k) h.running
    (by rw [hsize]; exact List.length_pos_of_ne_nil (fileBlock_ne_nil hk))
  have hresult : UInt16.ofInt (fileRead content k).result = .ofNat (fileBlock content k).length := by
    apply UInt16.toNat.inj
    rw [hsize, UInt16.toNat_ofNat']
    exact (Nat.mod_eq_of_lt (Nat.lt_of_le_of_lt hle (by decide))).symm
  have hbytes : (u.blockCmd (fileRead content k)).bytes = blockBytes content k := by
    rw [FileUpdate.blockCmd, hresult, h.nFileBlock]
    exact createFileBlockCmd_bytes _ hle _
  rw [hturn]
  refine ⟨rfl, congrArg (· + 1) h.nFileBlock, ?_⟩
  rw [List.map_append, h.commands, List.map_singleton, hbytes, List.range_succ, List.map_append,
    List.map_singleton, List.cons_append]

/-- The blocks so far have been handed over. -/
theorem sent_of_le {k : ℕ} (hk : k ≤ blockCount content) :
    Sent arrayBuffer pathFileName content k (fileUpdateProcess arrayBuffer pathFileName content.length
      ((List.range k).map (fileRead content))) := by
  induction k with
  | zero => exact ⟨rfl, rfl, rfl⟩
  | succ k ih =>
    have hturn := (ih (Nat.le_of_succ_le hk)).turn hk
    rw [List.range_succ, List.map_append, fileUpdateProcess, List.foldl_append]
    exact hturn

/-- The commands of a whole upload. -/
theorem fileUpdateProcess_bytes :
    (fileUpdateProcess arrayBuffer pathFileName content.length (fileReads content)).commands.map
        UpdateCommand.bytes =
      (createFileUpdateCmd arrayBuffer pathFileName (Int.bmod content.length (2 ^ 32))).bytes ::
        (List.range (blockCount content)).map (blockBytes content) := by
  have hsent : Sent arrayBuffer pathFileName content _ _ := sent_of_le (Nat.le_refl (blockCount content))
  have hzero : (UInt16.ofInt (fileRead content (blockCount content)).result).toNat = 0 := by
    rw [fileRead, toNat_result_data, fileBlock_blockCount]
    rfl
  have hend := turn_of_zero hsent.running hzero
  rw [fileReads, List.range_succ, List.map_append, fileUpdateProcess, List.foldl_append]
  refine (congrArg (fun u => u.commands.map UpdateCommand.bytes) hend).trans hsent.commands

/-- The payload of a block's command is the block. -/
theorem blockPayload_blockBytes (content : List UInt8) (k : ℕ) :
    blockPayload (blockBytes content k) = fileBlock content k := rfl

/-- The number of a block is one more than the number of those before it. -/
theorem numberField_blockBytes (content : List UInt8) {k : ℕ} (hk : k < 65535) :
    numberField (blockBytes content k) = k + 1 := by
  change (joinBytes (highByte (.ofNat (k + 1))) (lowByte (.ofNat (k + 1)))).toNat = k + 1
  rw [joinBytes_highByte_lowByte, UInt16.toNat_ofNat']
  exact Nat.mod_eq_of_lt (by omega)

/-- The size field of a block counts its bytes. -/
theorem sizeField_blockBytes (content : List UInt8) (k : ℕ) :
    sizeField (blockBytes content k) = (fileBlock content k).length := by
  have hle := fileBlock_length_le content k
  change (joinBytes (highByte (.ofNat (fileBlock content k).length))
    (lowByte (.ofNat (fileBlock content k).length))).toNat = _
  rw [joinBytes_highByte_lowByte, UInt16.toNat_ofNat']
  exact Nat.mod_eq_of_lt (Nat.lt_of_le_of_lt hle (by decide))

/-- A number of 16 bits is read from its bytes. -/
theorem joinBytes_ofNat {n : ℕ} (h : n < 2 ^ 16) :
    (joinBytes (.ofNat (n / 2 ^ 8)) (.ofNat (n / 2 ^ 0))).toNat = n := by
  rw [joinBytes_toNat, UInt8.toNat_ofNat', UInt8.toNat_ofNat']
  omega

/-- A number of 32 bits is read from its bytes. -/
theorem joinBytes_ofNat_word {n : ℕ} (h : n < 2 ^ 32) :
    65536 * (joinBytes (.ofNat (n / 2 ^ 24)) (.ofNat (n / 2 ^ 16))).toNat +
      (joinBytes (.ofNat (n / 2 ^ 8)) (.ofNat (n / 2 ^ 0))).toNat = n := by
  rw [joinBytes_toNat, joinBytes_toNat]
  simp only [UInt8.toNat_ofNat']
  omega

/-- A file whose blocks can be numbered is conveyed. -/
theorem conveys_of_length_le (hname : pathFileName.length + 8 ≤ arrayBufferSize)
    (hlength : content.length ≤ 65535 * fileBlockSize) :
    Conveys ((fileUpdateProcess arrayBuffer pathFileName content.length (fileReads content)).commands.map
      UpdateCommand.bytes) content := by
  change content.length ≤ 65535 * 1000 at hlength
  have hcount : blockCount content ≤ 65535 := by
    change (content.length + 999) / 1000 ≤ 65535
    omega
  have hint : Int.bmod content.length (2 ^ 32) = content.length :=
    Int.bmod_eq_of_le (by omega) (by omega)
  refine ⟨_, _, fileUpdateProcess_bytes, ?_⟩
  rw [hint, createFileUpdateCmd_bytes _ hname]
  constructor
  case header_head => rfl
  case block_head => exact List.forall_mem_map.mpr fun k _ => rfl
  case payload_pos =>
    refine List.forall_mem_map.mpr fun k hk => ?_
    rw [blockPayload_blockBytes]
    exact List.length_pos_of_ne_nil (fileBlock_ne_nil (List.mem_range.mp hk))
  case payload_le =>
    refine List.forall_mem_map.mpr fun k _ => ?_
    rw [blockPayload_blockBytes]
    exact fileBlock_length_le content k
  case size => exact List.forall_mem_map.mpr fun k _ => sizeField_blockBytes content k
  case content =>
    rw [List.map_map]
    exact flatten_fileBlock_blockCount content
  case numbers =>
    rw [List.map_map, List.length_map, List.length_range, List.range'_eq_map_range]
    refine List.map_congr_left fun k hk => ?_
    have hlt := Nat.lt_of_lt_of_le (List.mem_range.mp hk) hcount
    rw [Function.comp_apply, numberField_blockBytes content hlt, Nat.add_comm]
  case count =>
    rw [List.length_map, List.length_range]
    exact joinBytes_ofNat (Nat.lt_succ_of_le hcount)
  case total =>
    have hsum := congrArg List.length (flatten_fileBlock_blockCount content)
    rw [List.length_flatten, List.map_map] at hsum
    rw [List.map_map]
    exact (joinBytes_ofNat_word (by omega)).trans hsum.symm

/-- A file is conveyed exactly when it has no more blocks than can be numbered. -/
theorem conveys_iff (arrayBuffer : FixedBuffer UInt8 arrayBufferSize) (pathFileName content : List UInt8)
    (hname : pathFileName.length + 8 ≤ arrayBufferSize) :
    Conveys ((fileUpdateProcess arrayBuffer pathFileName content.length (fileReads content)).commands.map
        UpdateCommand.bytes) content ↔
      content.length ≤ 65535 * fileBlockSize :=
  ⟨length_le_of_conveys, conveys_of_length_le hname⟩

/-- A file of one byte. -/
theorem conveys_iff_one_byte :
    Conveys ((fileUpdateProcess (.filled _ 0) [0x61] 1 (fileReads [0x2a])).commands.map UpdateCommand.bytes)
        [0x2a] ↔ [(0x2a : UInt8)].length ≤ 65535 * fileBlockSize :=
  conveys_iff (.filled _ 0) [0x61] [0x2a] (by decide)

/-- A file of `2^16` blocks. -/
theorem not_conveys_large :
    ¬ Conveys ((fileUpdateProcess (.filled _ 0) [0x61] (List.replicate 65536000 (0 : UInt8)).length
      (fileReads (List.replicate 65536000 0))).commands.map UpdateCommand.bytes)
      (List.replicate 65536000 0) := by
  intro h
  have hlength := length_le_of_conveys h
  rw [List.length_replicate] at hlength
  exact absurd hlength (by decide)

end RemoteManage.ManageTool
