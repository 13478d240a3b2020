import DxFeed.RecordTranscoder.Transcoders
import DxFeed.ServerMessageProcessor.DataMessage
import DxFeed.ServerMessageProcessor.RecordReading

/-!
# From the buffer of a record to its events

* `timeIntField`: `dx_get_time_int_field`;
* `newSnapshotKey`: `dx_new_snapshot_key`;
* `LocalRecord`, `transcodeBuffer`: the parameters of a record and of its events, and the call of
  the transcoder;
* `ReadsKnown`, `transcodeKnown`: nothing is said of a transcoder that reads bytes of an address or
  of the stack;
* `recordHandlers`: what `dx_process_data_message` does with a record behind its symbol.
-/

namespace DxFeed.ServerMessageProcessor

open Call BufferedIO RecordBuffers RecordTranscoder

variable {D : Type}

/-! ### Time fields -/

/-- The getters of the members with a time field write to a word of zeros. -/
def timeBits (info : RecordInfoId) (time : FieldTime) (buffer : RecordBuffer D) : UInt64 :=
  (members info).foldl (fun bits m => if m.time = time then (buffer m.name).bits else bits) 0

/-- `dx_get_time_int_field`. -/
def timeIntField (info : RecordInfoId) (buffer : RecordBuffer D) : UInt64 :=
  timeBits info .firstTimeInt buffer <<< 32 |||
    (timeBits info .secondTimeInt buffer &&& 0xFFFFFFFF)

/-! ### Snapshot keys -/

/-- `dx_record_info_id_t` as a number. -/
def recordInfoNumber : RecordInfoId → UInt64
  | .trade => 0
  | .quote => 1
  | .summary => 2
  | .profile => 3
  | .marketMaker => 4
  | .order => 5
  | .timeAndSale => 6
  | .candle => 7
  | .tradeEth => 8
  | .spreadOrder => 9
  | .greeks => 10
  | .theoPrice => 11
  | .underlying => 12
  | .series => 13
  | .configuration => 14

/-- `SNAPSHOT_KEY_SOURCE_MASK`. -/
def snapshotKeySourceMask : UInt64 := 0xFFFFFF

/-- `dx_new_snapshot_key`. -/
def newSnapshotKey (platform : Platform D) (info : RecordInfoId) (symbol : WString)
    (orderSource : Option WString) : UInt64 :=
  let orderSourceHash := (orderSource.map platform.symbolNameHasher).getD 0
  recordInfoNumber info <<< 56 ||| platform.symbolNameHasher symbol <<< 24 |||
    (orderSourceHash &&& snapshotKeySourceMask)

/-! ### Records -/

/-- What a local record is: its type, and the suffix of its name if it has one. -/
structure LocalRecord where
  infoId : RecordInfoId
  suffix : Option WString
  deriving DecidableEq

/-- The parameters of the events of a record. -/
def eventParamsOf (platform : Platform D) (record : LocalRecord) (symbol : Option WString)
    (flags : UInt32) (buffer : RecordBuffer D) : EventParams where
  flags := flags.toNat
  timeIntField := (timeIntField record.infoId buffer).toNat
  snapshotKey := (newSnapshotKey platform record.infoId (symbol.getD []) record.suffix).toNat

/-- `dx_transcode_record_data` on the buffer of a record. -/
def transcodeBuffer (platform : Platform D) (record : LocalRecord) (symbol : Option WString)
    (flags : UInt32) (buffer : RecordBuffer D) : Transcoding D :=
  transcodeRecordData platform ⟨record.infoId, record.suffix, symbol, flags⟩
    (eventParamsOf platform record symbol flags buffer) buffer

/-- The bytes that a transcoder takes from the buffer are known.  The removal of a record whose index
is a time and a sequence takes these alone. -/
def ReadsKnown (info : RecordInfoId) (flags : UInt32) (buffer : RecordBuffer D) : Prop :=
  ∀ m ∈ members info,
    (isFlagSet flags.toNat EventFlag.removeEvent ∧ IsTimeIndexed info → m.time ≠ .common) →
      (buffer m.name).isKnown

instance (info : RecordInfoId) (flags : UInt32) (buffer : RecordBuffer D) :
    Decidable (ReadsKnown info flags buffer) :=
  inferInstanceAs (Decidable (∀ m ∈ members info, _ → _))

/-- The call of the transcoder, where it is known what it reads. -/
def transcodeKnown (platform : Platform D) (record : LocalRecord) (symbol : Option WString)
    (flags : UInt32) (buffer : RecordBuffer D) : Transcoding D :=
  if ReadsKnown record.infoId flags buffer then transcodeBuffer platform record symbol flags buffer
  else ⟨.error .overread, []⟩

/-! ### Data messages -/

/-- A record that was read, and whether the program is still running. -/
structure ReadRecord where
  record : LocalRecord
  digest : RecordDigest
  bytes : List Int8
  size : ℕ
  intact : Bool

/-- All that is a record's own: the bytes in front of which its server id was read, as far as they
are in the buffer, the number of bytes that were read, its type, its digest and its symbol. -/
structure OwnRecord where
  bytes : List Int8
  size : ℕ
  record : LocalRecord
  digest : RecordDigest
  symbol : SymbolParams

/-- What a record came to: the events that its transcoder passed on, or how it failed, with the
pointers through which it read, and the number of what had been freed by then. -/
structure Passed (D : Type) where
  own : OwnRecord
  outcome : Except TranscoderError (List (RecordEvent D))
  dereferenced : List ℕ
  freed : ℕ

/-- The parts of the connection that a record in a data message is processed with, and what the
records have come to. -/
structure DataReader (D : Type) where
  recordIdMap : ServerLocalRecordIdMap
  localRecords : List LocalRecord
  digests : List RecordDigest
  buffers : RecordsContext D
  passed : List (Passed D)

/-- A record fails, and `dx_free_buffers` is called. -/
def DataReader.free (reader : DataReader D) : DataReader D :=
  { reader with buffers := reader.buffers.freeBuffers }

abbrev ReaderCall (D : Type) := Call (Option ErrorCode) (InputContext × DataReader D)

/-- An error behind `dx_free_buffers`. -/
def freeAndThrow {α : Type} (e : Option ErrorCode) : ReaderCall D α := do
  modify fun s => (s.1, s.2.free)
  throw e

/-- The server id of a record. -/
def readServerRecordId : ReaderCall D Int32 :=
  ExceptT.mk fun (input, reader) =>
    match exec readCompactInt input with
    | (.ok serverRecordId, input') => (.ok serverRecordId, (input', reader))
    | (.error e, input') => (.error (some e), (input', reader.free))

/-- The bytes between two positions in a buffer. -/
def bytesBetween (start stop : InputContext) : List Int8 :=
  (start.buffer.drop start.currentInBufferPosition).take
    (stop.currentInBufferPosition - start.currentInBufferPosition)

/-- The fields of a record; `start` is where its server id was.  A call through a null pointer ends
the program, and is noted. -/
def readOwnFields (platform : Platform D) (flags : UInt32) (start : InputContext)
    (record : LocalRecord) (digest : RecordDigest) : ReaderCall D ReadRecord :=
  ExceptT.mk fun (input, reader) =>
    let (result, stop, buffers) :=
      exec (readRecords platform record.infoId digest flags) (input, reader.buffers)
    let read (intact : Bool) : ReadRecord :=
      ⟨record, digest, bytesBetween start stop,
        stop.currentInBufferPosition - start.currentInBufferPosition, intact⟩
    let reader' := { reader with buffers := buffers }
    match result with
    | .ok () => (.ok (read true), (stop, reader'))
    | .error none => (.ok (read false), (stop, reader'))
    | .error (some e) => (.error (some e), (stop, reader'.free))

/-- `dx_process_data_message` from the server id of a record to the end of `dx_read_records`. -/
def readRecord (platform : Platform D) (flags : UInt32) : ReaderCall D ReadRecord := do
  let (start, _) ← get
  let serverRecordId ← readServerRecordId
  let (_, reader) ← get
  match reader.recordIdMap.getRecordId serverRecordId with
  | none => throw none
  | some recordId =>
      if recordId < 0 then freeAndThrow (some .recordNotSupported)
      else
        match atRecordId reader.digests recordId with
        | none => freeAndThrow (some .invalidFuncParamInternal)
        | some digest =>
            if !digest.inSyncWithServer then freeAndThrow (some .recordDescriptionNotReceived)
            else
              match atRecordId reader.localRecords recordId with
              | none => throw none
              | some record => readOwnFields platform flags start record digest

/-- The rest of the round: the transcoder is called, and `dx_free_buffers`.  The program is not followed
behind an access that has no result. -/
def passRecord (platform : Platform D) (symbol : SymbolParams) (r : ReadRecord) :
    Call (Option ErrorCode) (DataReader D) Unit := do
  let reader ← get
  let note (outcome : Except TranscoderError (List (RecordEvent D))) (dereferenced : List ℕ) :
      Passed D :=
    ⟨⟨r.bytes, r.size, r.record, r.digest, symbol⟩, outcome, dereferenced, reader.buffers.freed⟩
  if !r.intact then
    set { reader with passed := reader.passed ++ [note (.error .overread) []] }
    throw none
  let buffer := reader.buffers.buffers r.record.infoId
  let t := transcodeKnown platform r.record symbol.symbolName symbol.flags buffer
  set { reader with
    passed := reader.passed ++ [note t.events t.dereferenced]
    buffers := (reader.buffers.setBuffer r.record.infoId
      (bufferBehind buffer r.record.infoId)).freeBuffers }
  match t.events with
  | .ok _ => pure ()
  | .error (.failed code) => throw (some code)
  | .error _ => throw none

/-- What a data message does with its records. -/
def recordHandlers (platform : Platform D) : RecordHandlers (DataReader D) ReadRecord where
  readRecord := readRecord platform
  transcodeRecordData := passRecord platform

end DxFeed.ServerMessageProcessor
