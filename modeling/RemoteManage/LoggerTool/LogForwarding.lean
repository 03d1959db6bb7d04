import RemoteManage.Foundation.ChunkedStream
import RemoteManage.Foundation.FixedBuffer
import RemoteManage.Foundation.ScanInt

/-!
# The way of a log record to the client

`print_log` writes a record of at most 1023 bytes to the logger FIFO. `logger_rx_run` reads the FIFO 512 bytes
at a time at most, puts a zero in the place of the last byte of every read and passes it on to the client, or
to the standard output while there is none, and to the log file. That byte is the line feed of a
record when the read ends where a record ends, which the code relies on. What `vsnprintf` makes of
the arguments of `print_log` is taken as a text.
-/

namespace RemoteManage.LoggerTool

open RemoteManage.Foundation RemoteManage.Foundation.CString RemoteManage.Foundation.ChunkedStream

/-- `LOGGER_MAX_BUFFER_SIZE`. -/
def loggerMaxBufferSize : ℕ := 1024

/-- `RX_MAX_BUFFER_SIZE`. -/
abbrev rxMaxBufferSize : ℕ := 512

/-- A number with zeros before it, up to a width. -/
def padded (width value : ℕ) : List UInt8 := List.replicate (width - (digits value).length) 48 ++ digits value

/-- `convert_timer`. -/
def convertTimer (timer : UInt32) : List UInt8 :=
  let sec := timer % 60
  let timer := timer / 60
  let min := timer % 60
  let timer := timer / 60
  let hours := timer % 24
  let day := timer / 24
  padded 4 day.toUInt16.toNat ++ bytes " " ++ padded 2 hours.toUInt16.toNat ++ bytes ":" ++
    padded 2 min.toUInt16.toNat ++ bytes ":" ++ padded 2 sec.toUInt16.toNat

/-- The header of a record. -/
def logHeader (toolsName : List UInt8) (level : Int32) (time : UInt32) : List UInt8 :=
  bytes "[" ++ convertTimer time ++ bytes "][" ++ toolsName ++ bytes "][" ++ decimal level.toInt ++ bytes "]:"

/-- `print_log`: the record that is written, if one is. -/
def printLog (logLevel : Int32) (toolsName : List UInt8) (level : Int32) (time : UInt32) (info : List UInt8) :
    Option (List UInt8) :=
  if level < logLevel then none
  else
    let header := logHeader toolsName level time
    if header.length ≤ 0 ∨ loggerMaxBufferSize ≤ header.length then none
    else
      let bufferlen := loggerMaxBufferSize - header.length
      if info.length ≤ 0 ∨ bufferlen ≤ info.length then none
      else if bufferlen - info.length < 3 then none
      else some (header ++ info ++ [13, 10])

/-- The text of a record. -/
structure IsRecord (text : List UInt8) : Prop where
  ends : ∃ body, text = body ++ [13, 10]
  noZero : 0 ∉ text
  size : text.length ≤ loggerMaxBufferSize - 1

/-- A record in the logger FIFO. -/
abbrev LogRecord := {text : List UInt8 // IsRecord text}

/-- What the FIFO holds of the records. -/
def stream (records : List LogRecord) : List UInt8 := (records.map Subtype.val).flatten

/-- Where the bytes of a read are shown. -/
inductive LogSink where
  | client
  | stdout
  deriving DecidableEq, Repr

/-- What has been passed on to the client or the standard output, and to the log file. -/
structure LogOutput where
  shown : List (LogSink × List UInt8)
  file : List UInt8

/-- `log_server::send_buffer` with `logger_file_process`. -/
def LogOutput.sendBuffer (out : LogOutput) (valid : Bool) (pbuffer : List UInt8) : LogOutput where
  shown := out.shown ++ [(if valid then .client else .stdout, pbuffer)]
  file := out.file ++ pbuffer

/-- `rx_buffer` with what has been passed on. -/
structure LoggerRx where
  rxBuffer : FixedBuffer UInt8 rxMaxBufferSize
  out : LogOutput

/-- A read of the FIFO while there is a client or none. -/
structure LogRead where
  valid : Bool
  bytes : List UInt8

/-- A read delivers some bytes and no more than it asks for. -/
def LogRead.Deliverable (read : LogRead) : Prop := read.bytes ≠ [] ∧ read.bytes.length ≤ rxMaxBufferSize

/-- One turn of the loop of `logger_rx_run`. -/
def LoggerRx.turn (s : LoggerRx) (read : LogRead) : LoggerRx :=
  let len := read.bytes.length
  let rxBuffer := s.rxBuffer.writeAll 0 read.bytes
  if len > 0 then
    let rxBuffer := rxBuffer.write (len - 1) 0
    ⟨rxBuffer, s.out.sendBuffer read.valid (rxBuffer.contents len)⟩
  else ⟨rxBuffer, s.out⟩

/-- `logger_rx_run` from its start. -/
def loggerRxRun (reads : List LogRead) : LoggerRx :=
  reads.foldl LoggerRx.turn ⟨FixedBuffer.filled rxMaxBufferSize 0, ⟨[], []⟩⟩

/-- All that has been shown, in order. -/
def LogOutput.shownBytes (out : LogOutput) : List UInt8 := (out.shown.map Prod.snd).flatten

/-- A digit is not a zero byte. -/
theorem zero_notMem_digits (value : ℕ) : 0 ∉ digits value := fun h => nomatch isDigit_of_mem_digits h

/-- The decimal text of a number has no zero byte. -/
theorem zero_notMem_decimal (value : ℤ) : 0 ∉ decimal value := by
  cases value with
  | ofNat n =>
    rw [show decimal (.ofNat n) = digits n from decimal_natCast n]
    exact zero_notMem_digits n
  | negSucc n =>
    rw [decimal_negSucc]
    exact List.not_mem_cons_of_ne_of_not_mem (by decide) (zero_notMem_digits (n + 1))

/-- Nor has a number that is filled up to a width. -/
theorem zero_notMem_padded (width value : ℕ) : 0 ∉ padded width value := by
  rw [padded, List.mem_append, not_or]
  exact ⟨fun h => absurd (List.eq_of_mem_replicate h) (by decide), zero_notMem_digits value⟩

/-- A text without zeros stays so when others are added. -/
theorem zero_notMem_append {left right : List UInt8} (hleft : 0 ∉ left) (hright : 0 ∉ right) :
    0 ∉ left ++ right := by
  rw [List.mem_append, not_or]
  exact ⟨hleft, hright⟩

/-- The header has no zero byte. -/
theorem zero_notMem_logHeader {toolsName : List UInt8} (h : 0 ∉ toolsName) (level : Int32) (time : UInt32) :
    0 ∉ logHeader toolsName level time := by
  have htimer : 0 ∉ convertTimer time := by
    refine zero_notMem_append (zero_notMem_append (zero_notMem_append (zero_notMem_append
      (zero_notMem_append (zero_notMem_append ?_ ?_) ?_) ?_) ?_) ?_) ?_
    all_goals first
      | exact zero_notMem_padded _ _
      | decide
  refine zero_notMem_append (zero_notMem_append (zero_notMem_append (zero_notMem_append
    (zero_notMem_append (zero_notMem_append ?_ htimer) ?_) h) ?_) (zero_notMem_decimal _)) ?_
  all_goals decide

/-- What `print_log` writes is a record, if the texts that it is given have no zero byte. -/
theorem printLog_isRecord {logLevel level : Int32} {toolsName info text : List UInt8} {time : UInt32}
    (hname : 0 ∉ toolsName) (hinfo : 0 ∉ info)
    (h : printLog logLevel toolsName level time info = some text) : IsRecord text := by
  rw [printLog] at h
  obtain ⟨-, h⟩ := Option.ite_none_left_eq_some.mp h
  obtain ⟨hheader, h⟩ := Option.ite_none_left_eq_some.mp h
  obtain ⟨hbody, h⟩ := Option.ite_none_left_eq_some.mp h
  obtain ⟨hroom, h⟩ := Option.ite_none_left_eq_some.mp h
  obtain rfl := Option.some.inj h
  constructor
  case ends => exact ⟨_, rfl⟩
  case noZero =>
    exact zero_notMem_append (zero_notMem_append (zero_notMem_logHeader hname level time) hinfo) (by decide)
  case size =>
    rw [List.length_append, List.length_append, List.length_cons, List.length_singleton]
    rw [loggerMaxBufferSize] at *
    omega

/-- An info that there is room for is written behind the header. -/
theorem printLog_eq_some {logLevel level : Int32} {toolsName info : List UInt8} {time : UInt32}
    (hlevel : ¬ level < logLevel) (hinfo : info ≠ [])
    (hroom : (logHeader toolsName level time).length + info.length + 3 ≤ loggerMaxBufferSize) :
    printLog logLevel toolsName level time info =
      some (logHeader toolsName level time ++ info ++ [13, 10]) := by
  have hheader : 0 < (logHeader toolsName level time).length := Nat.succ_pos _
  have hbody : 0 < info.length := List.length_pos_of_ne_nil hinfo
  rw [printLog, if_neg hlevel]
  dsimp only
  rw [if_neg (by omega), if_neg (by omega), if_neg (by omega)]

/-- A record ends with a line feed. -/
theorem LogRecord.getLast?_eq (record : LogRecord) : record.val.getLast? = some 10 := by
  obtain ⟨body, hbody⟩ := record.property.ends
  rw [hbody, List.getLast?_append_of_ne_nil _ (List.cons_ne_nil _ _)]
  rfl

/-- There is no zero in the FIFO. -/
theorem zero_notMem_stream (records : List LogRecord) : 0 ∉ stream records := by
  rw [stream, List.mem_flatten]
  rintro ⟨text, htext, hzero⟩
  obtain ⟨record, -, rfl⟩ := List.mem_map.mp htext
  exact record.property.noZero hzero

/-- A read is passed on with a zero in the place of its last byte. -/
theorem LoggerRx.turn_out (s : LoggerRx) {read : LogRead} (h : read.Deliverable) :
    (s.turn read).out = s.out.sendBuffer read.valid (replaceLast 0 read.bytes) := by
  obtain ⟨hne, hsize⟩ := h
  have hpos := List.length_pos_of_ne_nil hne
  have hcontents : ((s.rxBuffer.writeAll 0 read.bytes).write (read.bytes.length - 1) 0).contents
      read.bytes.length = replaceLast 0 read.bytes := by
    rw [FixedBuffer.write_contents_of_lt _ _ (by omega), FixedBuffer.writeAll_zero_contents _ _ hsize,
      set_length_sub_one 0 hne]
  simp only [turn]
  rw [if_pos hpos, hcontents]

/-- What has been passed on of the reads, with a zero in the place of the last byte of each. -/
def passedOn (reads : List LogRead) : List UInt8 := ((reads.map LogRead.bytes).map (replaceLast 0)).flatten

/-- All reads are passed on, to the client and to the file. -/
theorem loggerRxRun_out {reads : List LogRead} (h : ∀ read ∈ reads, read.Deliverable) :
    (loggerRxRun reads).out.shownBytes = passedOn reads ∧ (loggerRxRun reads).out.file = passedOn reads := by
  induction reads using List.reverseRecOn with
  | nil => exact ⟨rfl, rfl⟩
  | append_singleton before read ih =>
    obtain ⟨hbefore, hread⟩ := List.forall_mem_append.mp h
    obtain ⟨hshown, hfile⟩ := ih hbefore
    have hpassed : passedOn (before ++ [read]) = passedOn before ++ replaceLast 0 read.bytes := by
      simp [passedOn]
    have hturn := (loggerRxRun before).turn_out (hread read (List.mem_singleton_self read))
    rw [LogOutput.shownBytes] at hshown ⊢
    rw [loggerRxRun, List.foldl_concat, ← loggerRxRun, hturn, hpassed, LogOutput.sendBuffer]
    refine ⟨?_, congrArg (· ++ replaceLast 0 read.bytes) hfile⟩
    rw [List.map_append, List.flatten_append, hshown]
    simp

/-- The bytes passed on are those written, in order, except that a line feed that ends a record may have
been replaced. -/
def Unaltered (records : List LogRecord) (passed : List UInt8) : Prop :=
  AgreeExcept (fun i => (stream records)[i]? = some 10 ∧ i + 1 ∈ ends (records.map Subtype.val)) passed
    ((stream records).take passed.length)

/-- Reads that cut what the records leave in the FIFO. -/
structure Cuts (records : List LogRecord) (reads : List LogRead) : Prop where
  deliverable : ∀ read ∈ reads, read.Deliverable
  inOrder : (reads.map LogRead.bytes).flatten <+: stream records

/-- Reads of records have no zero in them. -/
theorem Cuts.chunks {records : List LogRecord} {reads : List LogRead} (h : Cuts records reads) :
    ∀ chunk ∈ reads.map LogRead.bytes, chunk ≠ [] ∧ 0 ∉ chunk := by
  intro chunk hmem
  obtain ⟨read, hread, rfl⟩ := List.mem_map.mp hmem
  refine ⟨(h.deliverable read hread).1, fun hzero => zero_notMem_stream records (h.inOrder.subset ?_)⟩
  exact List.mem_flatten_of_mem hmem hzero

/-- What is passed on is as long as what has been read. -/
theorem Cuts.length_passedOn {records : List LogRecord} {reads : List LogRead} (h : Cuts records reads) :
    (passedOn reads).length = (reads.map LogRead.bytes).flatten.length := by
  rw [passedOn, List.length_flatten, List.length_flatten, List.map_map]
  exact congrArg List.sum (List.map_congr_left fun chunk hmem => length_replaceLast 0 (h.chunks chunk hmem).1)

/-- What is passed on is unaltered exactly when each read ends where a record ends. -/
theorem Cuts.unaltered_iff {records : List LogRecord} {reads : List LogRead} (h : Cuts records reads) :
    Unaltered records (passedOn reads) ↔
      ∀ e ∈ ends (reads.map LogRead.bytes), e ∈ ends (records.map Subtype.val) := by
  have hlast : ∀ text ∈ records.map Subtype.val, text.getLast? = some 10 := by
    intro text htext
    obtain ⟨record, -, rfl⟩ := List.mem_map.mp htext
    exact LogRecord.getLast?_eq record
  rw [Unaltered, h.length_passedOn, ← List.prefix_iff_eq_take.mp h.inOrder, passedOn,
    agreeExcept_relay_iff h.chunks]
  refine forall₂_congr fun e he => ?_
  rw [Nat.sub_add_cancel (ends_pos (fun chunk hmem => (h.chunks chunk hmem).1) e he)]
  exact and_iff_right_of_imp fun hend => getElem?_of_mem_ends hlast hend

/-- However the stream of the records is cut into reads, what is passed on to the client and to the log file
is unaltered exactly when each read ends where a record ends. -/
theorem loggerRxRun_unaltered_iff {records : List LogRecord} {reads : List LogRead} (h : Cuts records reads) :
    Unaltered records (loggerRxRun reads).out.shownBytes ∧ Unaltered records (loggerRxRun reads).out.file ↔
      ∀ e ∈ ends (reads.map LogRead.bytes), e ∈ ends (records.map Subtype.val) := by
  obtain ⟨hshown, hfile⟩ := loggerRxRun_out h.deliverable
  rw [hshown, hfile, and_self, h.unaltered_iff]

/-- The header of what `main_process` logs on level 1 when it starts. -/
def mainHeader : List UInt8 := logHeader (bytes "main_process") 1 0

/-- It has 33 bytes. -/
theorem mainHeader_length : mainHeader.length = 33 := by decide +kernel

/-- `print_log` writes an info that there is room for behind this header. -/
theorem printLog_main {info : List UInt8} (hinfo : info ≠ []) (hroom : info.length ≤ 988) :
    printLog 0 (bytes "main_process") 1 0 info = some (mainHeader ++ info ++ [13, 10]) := by
  refine printLog_eq_some (by decide) hinfo ?_
  rw [← mainHeader, mainHeader_length, loggerMaxBufferSize]
  omega

/-- The record that it writes. -/
def mainRecord (info : List UInt8) (hzero : 0 ∉ info) (hinfo : info ≠ []) (hroom : info.length ≤ 988) :
    LogRecord :=
  ⟨mainHeader ++ info ++ [13, 10], printLog_isRecord (by decide +kernel) hzero (printLog_main hinfo hroom)⟩

/-- A record with an info of one letter. -/
def letterRecord : LogRecord := mainRecord [97] (by decide) (List.cons_ne_nil _ _) (by decide)

/-- Two records that are read together. -/
theorem loggerRxRun_unaltered_iff_two :
    let reads : List LogRead := [⟨true, letterRecord.val ++ letterRecord.val⟩]
    Unaltered [letterRecord, letterRecord] (loggerRxRun reads).out.shownBytes ∧
      Unaltered [letterRecord, letterRecord] (loggerRxRun reads).out.file ↔
      ∀ e ∈ ends (reads.map LogRead.bytes), e ∈ ends [letterRecord.val, letterRecord.val] := by
  intro reads
  refine loggerRxRun_unaltered_iff ⟨fun read hread => ?_, ?_⟩
  · rw [List.mem_singleton.mp hread]
    exact ⟨List.append_ne_nil_of_right_ne_nil _ (by decide +kernel), by decide +kernel⟩
  · have hall : (reads.map LogRead.bytes).flatten = stream [letterRecord, letterRecord] := by
      simp [reads, stream]
    rw [hall]

/-- A record of 600 bytes. -/
def longRecord : LogRecord :=
  mainRecord (List.replicate 565 120) (fun h => absurd (List.eq_of_mem_replicate h) (by decide))
    (List.cons_ne_nil _ _) (by rw [List.length_replicate]; decide)

/-- The reads that take it from the FIFO. -/
def longReads : List LogRead :=
  [⟨true, mainHeader ++ List.replicate 479 120⟩, ⟨true, List.replicate 86 120 ++ [13, 10]⟩]

/-- The first of them has the size of the receive buffer. -/
theorem length_mainHeader_append : (mainHeader ++ List.replicate 479 120).length = rxMaxBufferSize := by
  rw [List.length_append, mainHeader_length, List.length_replicate]

/-- They cut the record. -/
theorem longReads_cuts : Cuts [longRecord] longReads := by
  constructor
  case deliverable =>
    intro read hread
    rcases List.mem_cons.mp hread with rfl | hread
    · exact ⟨List.append_ne_nil_of_right_ne_nil _ (List.cons_ne_nil _ _), length_mainHeader_append.le⟩
    · rw [List.mem_singleton.mp hread]
      refine ⟨List.append_ne_nil_of_right_ne_nil _ (List.cons_ne_nil _ _), ?_⟩
      rw [List.length_append, List.length_replicate]
      decide
  case inOrder =>
    change mainHeader ++ List.replicate 479 (120 : UInt8) ++ (List.replicate 86 120 ++ [13, 10] ++ []) <+:
      mainHeader ++ List.replicate 565 120 ++ [13, 10] ++ []
    rw [List.append_nil, List.append_nil, List.append_assoc, ← List.append_assoc (List.replicate 479 _),
      List.replicate_append_replicate, List.append_assoc]

/-- A record that does not fit into one read loses a byte inside it. -/
theorem not_forall_unaltered : ¬ ∀ records reads, Cuts records reads →
    Unaltered records (loggerRxRun reads).out.shownBytes ∧
      Unaltered records (loggerRxRun reads).out.file := by
  intro h
  obtain ⟨hshown, -⟩ := h [longRecord] longReads longReads_cuts
  rw [(loggerRxRun_out longReads_cuts.deliverable).1, longReads_cuts.unaltered_iff] at hshown
  have hread : 512 ∈ ends (longReads.map LogRead.bytes) :=
    List.mem_cons.mpr (.inl length_mainHeader_append.symm)
  have hend := hshown 512 hread
  have hends : ends ([longRecord].map Subtype.val) = [600] := by
    change [(mainHeader ++ List.replicate 565 (120 : UInt8) ++ [13, 10]).length] = [600]
    rw [List.length_append, List.length_append, mainHeader_length, List.length_replicate]
    rfl
  rw [hends] at hend
  exact absurd (List.mem_singleton.mp hend) (by decide)

end RemoteManage.LoggerTool
