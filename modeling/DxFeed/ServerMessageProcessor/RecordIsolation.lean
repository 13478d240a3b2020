import DxFeed.ServerMessageProcessor.RemovalIndex
import DxFeed.ServerMessageProcessor.SymbolAttribution
import DxFeed.ServerMessageProcessor.VoidFields

/-!
# Isolation of records

The buffer of a type of records is used again and again, and the events of a record should show
nothing of the records before it.

* `isolatedOutcome`: what a record comes to by itself, from buffers of zeros;
* `Isolated`: a record came to what it comes to by itself, and nothing that was freed was read;
* `IsSafe`: the condition on what is a record's own;
* `recordIsolation`: in every run of data messages the safe records are isolated.
-/

namespace DxFeed.ServerMessageProcessor

open Call BufferedIO RecordBuffers RecordTranscoder

variable {D : Type}

/-! ### Isolation -/

/-- A record is read from its own bytes. -/
def isolatedRead (platform : Platform D) (own : OwnRecord) : RecordCall D Unit := do
  let _ ← inputCall readCompactInt
  readRecords platform own.record.infoId own.digest own.symbol.flags

/-- The beginning of a record's own bytes, with buffers of zeros. -/
def OwnRecord.start (own : OwnRecord) : InputContext × RecordsContext D :=
  (inputAt [] own.bytes own.bytes.length, .init)

/-- What a record comes to by itself. -/
def isolatedOutcome (platform : Platform D) (own : OwnRecord) :
    Except TranscoderError (List (RecordEvent D)) :=
  match exec (isolatedRead platform own) own.start with
  | (.ok (), (_, context)) =>
      (transcodeKnown platform own.record own.symbol.symbolName own.symbol.flags
        (context.buffers own.record.infoId)).events
  | (.error _, _) => .error .overread

/-- The events of a record depend on nothing but what is its own, and its transcoder reads nothing
that was freed. -/
structure Isolated (platform : Platform D) (p : Passed D) : Prop where
  outcome : p.outcome = isolatedOutcome platform p.own
  intact : p.outcome ≠ .error .overread
  live : ∀ n ∈ p.dereferenced, p.freed ≤ n

/-! ### Safe records -/

/-- Every value that is read for a field can be taken by its setter. -/
def Fits (platform : Platform D) (info : RecordInfoId) (entry : FieldDigest) : Prop :=
  ∀ input value out, exec (readEntry platform info entry) input = (.ok value, out) →
    Storable platform info entry value

/-- A digest that sets every member of a structure, to values of which the bytes are known. -/
structure FillsRecord (platform : Platform D) (info : RecordInfoId) (digest : RecordDigest) :
    Prop where
  covers : ∀ m ∈ members info, ∃ entry ∈ digest.elements, entry.setter = some (setterName info m)
  fits : ∀ entry ∈ digest.elements, Fits platform info entry

/-- The default values of a table fit. -/
theorem fits_defaultEntry (platform : Platform D) {info : RecordInfoId} {field : FieldInfo}
    (hfield : field ∈ recordFields info) : Fits platform info (defaultEntry field) := by
  intro input value out hexec
  have hvoid : (defaultEntry field).IsVoid := by
    show (0 : Int32) &&& fidMaskSerialization = fidVoid
    decide
  rw [readEntry, if_pos hvoid] at hexec
  obtain rfl := Except.ok.inj (Prod.mk.inj hexec).1
  exact storable_defaultEntry platform hfield

/-- The condition on what is a record's own: its bytes are all in the buffer, and it is a removal
that has nothing but a time and a sequence, or another record whose digest fills the structure; the
object of a configuration has its string. -/
structure IsSafe (platform : Platform D) (own : OwnRecord) : Prop where
  inside : own.bytes.length = own.size
  fields :
    if isFlagSet own.symbol.flags.toNat EventFlag.removeEvent then IsTimeIndexed own.record.infoId
    else FillsRecord platform own.record.infoId own.digest
  object : own.record.infoId = .configuration → ∀ input context,
    exec (isolatedRead platform own) own.start = (.ok (), (input, context)) →
      ContainsString ((context.buffers .configuration).elements "object")

/-! ### What a reader keeps -/

/-- Nothing but members is ever set, and what is freed was allocated. -/
structure Tidy (context : RecordsContext D) : Prop where
  freed : context.freed ≤ context.allocated
  outside : ∀ info name, (∀ m ∈ members info, m.name ≠ name) → context.buffers info name = .zero

theorem tidy_init : Tidy (RecordsContext.init : RecordsContext D) :=
  ⟨le_rfl, fun _ _ _ => rfl⟩

theorem Tidy.stored {platform : Platform D} {info : RecordInfoId}
    {values : List (FieldDigest × Value D)} {context context' : RecordsContext D}
    (h : Tidy context) (hstored : Stored platform info values context context') :
    Tidy context' where
  freed := by
    rw [hstored.freed]
    exact h.freed.trans hstored.allocated
  outside info' name hname := by
    by_cases hinfo : info' = info
    · subst hinfo
      rw [hstored.outside name hname, h.outside info' name hname]
    · rw [hstored.others info' hinfo, h.outside info' name hname]

theorem preserves_inputCall {α : Type} (P : RecordsContext D → Prop) (x : ReadCall α) :
    Preserves (fun s : InputContext × RecordsContext D => P s.2) (inputCall x) :=
  preserves_zoom fun _ _ h => h

theorem preserves_bufferCall {P : RecordsContext D → Prop}
    {f : RecordsContext D → Option (RecordsContext D)}
    (hf : ∀ context context', P context → f context = some context' → P context') :
    Preserves (fun s : InputContext × RecordsContext D => P s.2) (bufferCall f) := by
  refine preserves_get_bind fun s hs => ?_
  obtain ⟨input, context⟩ := s
  dsimp only
  split
  · rename_i context' hcontext'
    exact hf context context' hs hcontext'
  · exact hs

theorem preserves_readFields (platform : Platform D) (info : RecordInfoId)
    (fields : List FieldDigest) :
    Preserves (fun s : InputContext × RecordsContext D => Tidy s.2)
      (readFields platform info fields) := by
  induction fields with
  | nil => exact preserves_pure _
  | cons entry rest ih =>
      refine ((preserves_inputCall _ _).bind fun value => preserves_bufferCall ?_).bind fun _ => ih
      exact fun context context' h hstore => h.stored (storeValue_eq_some hstore)

theorem preserves_readRecords (platform : Platform D) (info : RecordInfoId)
    (digest : RecordDigest) (flags : UInt32) :
    Preserves (fun s : InputContext × RecordsContext D => Tidy s.2)
      (readRecords platform info digest flags) := by
  unfold readRecords
  split_ifs
  · refine (preserves_inputCall _ _).bind fun value => preserves_bufferCall ?_
    intro context context' h hstore
    rw [storeQdtime_eq] at hstore
    exact h.stored (stored_storeValues hstore)
  · exact preserves_readFields platform info digest.elements

/-- A position in the same buffer, not before `start`. -/
structure Ahead (start input : InputContext) : Prop where
  inBuffer : input.inBuffer = start.inBuffer
  inBufferLimit : input.inBufferLimit = start.inBufferLimit
  position : start.currentInBufferPosition ≤ input.currentInBufferPosition

theorem ahead_refl (start : InputContext) : Ahead start start := ⟨rfl, rfl, le_rfl⟩

theorem Ahead.trans {start mid input : InputContext} (h : Ahead start mid) (h' : Ahead mid input) :
    Ahead start input :=
  ⟨h'.inBuffer.trans h.inBuffer, h'.inBufferLimit.trans h.inBufferLimit,
    h.position.trans h'.position⟩

theorem ahead_of_local {α : Type} {x : ReadCall α} (hx : Local x) (start : InputContext) :
    Ahead start (exec x start).2 := by
  obtain ⟨hbuffer, hlimit, hle⟩ := hx.forward start
  exact ⟨hbuffer, hlimit, hle⟩

theorem ahead_inputCall {α : Type} (start : InputContext) {x : ReadCall α} (hx : Local x) :
    Preserves (fun s : InputContext × RecordsContext D => Ahead start s.1) (inputCall x) :=
  fun s hs => hs.trans (ahead_of_local hx s.1)

theorem ahead_bufferCall (start : InputContext) (f : RecordsContext D → Option (RecordsContext D)) :
    Preserves (fun s : InputContext × RecordsContext D => Ahead start s.1) (bufferCall f) := by
  refine preserves_get_bind fun s hs => ?_
  dsimp only
  split <;> exact hs

theorem ahead_readFields (start : InputContext) (platform : Platform D) (info : RecordInfoId)
    (fields : List FieldDigest) :
    Preserves (fun s : InputContext × RecordsContext D => Ahead start s.1)
      (readFields platform info fields) := by
  induction fields with
  | nil => exact preserves_pure _
  | cons entry rest ih =>
      exact ((ahead_inputCall start (local_readEntry platform info _)).bind fun value =>
        ahead_bufferCall start _).bind fun _ => ih

theorem ahead_readRecords (start : InputContext) (platform : Platform D) (info : RecordInfoId)
    (digest : RecordDigest) (flags : UInt32) :
    Preserves (fun s : InputContext × RecordsContext D => Ahead start s.1)
      (readRecords platform info digest flags) := by
  unfold readRecords
  split_ifs
  · exact (ahead_inputCall start local_readCompactLong).bind fun value => ahead_bufferCall start _
  · exact ahead_readFields start platform info digest.elements

/-! ### A record that was read -/

/-- What is known of a record that was read. -/
structure WasRead (platform : Platform D) (flags : UInt32) (input : InputContext)
    (reader : DataReader D) (r : ReadRecord) (stop : InputContext)
    (buffers : RecordsContext D) : Prop where
  serverId : ∃ serverRecordId mid, exec readCompactInt input = (.ok serverRecordId, mid) ∧
    (exec (readRecords platform r.record.infoId r.digest flags) (mid, reader.buffers) =
        (if r.intact then .ok () else .error none, (stop, buffers)))
  bytes : r.bytes = bytesBetween input stop
  size : r.size = stop.currentInBufferPosition - input.currentInBufferPosition

theorem exec_readOwnFields {platform : Platform D} {flags : UInt32}
    {start input : InputContext} {record : LocalRecord} {digest : RecordDigest}
    {reader : DataReader D} {r : ReadRecord} {out : InputContext × DataReader D}
    (h : exec (readOwnFields platform flags start record digest) (input, reader) = (.ok r, out)) :
    ∃ buffers, out.2 = { reader with buffers := buffers } ∧
      exec (readRecords platform r.record.infoId r.digest flags) (input, reader.buffers) =
        (if r.intact then .ok () else .error none, (out.1, buffers)) ∧
      r.bytes = bytesBetween start out.1 ∧
      r.size = out.1.currentInBufferPosition - start.currentInBufferPosition := by
  rcases hexec : exec (readRecords platform record.infoId digest flags) (input, reader.buffers) with
    ⟨e | ⟨⟩, stop, buffers⟩
  · cases e with
    | none =>
        simp only [readOwnFields, exec_mk, hexec, Prod.mk.injEq, Except.ok.injEq] at h
        obtain ⟨rfl, rfl⟩ := h
        exact ⟨buffers, rfl, hexec, rfl, rfl⟩
    | some e =>
        simp only [readOwnFields, exec_mk, hexec, Prod.mk.injEq, reduceCtorEq, false_and] at h
  · simp only [readOwnFields, exec_mk, hexec, Prod.mk.injEq, Except.ok.injEq] at h
    obtain ⟨rfl, rfl⟩ := h
    exact ⟨buffers, rfl, hexec, rfl, rfl⟩

theorem exec_readServerRecordId_ok {input : InputContext} {reader : DataReader D}
    {serverRecordId : Int32} {out : InputContext × DataReader D}
    (h : exec (readServerRecordId : ReaderCall D Int32) (input, reader) =
      (.ok serverRecordId, out)) :
    exec readCompactInt input = (.ok serverRecordId, out.1) ∧ out.2 = reader := by
  rcases hexec : exec readCompactInt input with ⟨e | n, input'⟩
  · simp only [readServerRecordId, exec_mk, hexec, Prod.mk.injEq, reduceCtorEq, false_and] at h
  · simp only [readServerRecordId, exec_mk, hexec, Prod.mk.injEq, Except.ok.injEq] at h
    obtain ⟨rfl, rfl⟩ := h
    exact ⟨rfl, rfl⟩

/-- A record that is read leaves the reader as it is, except for the buffers. -/
theorem exec_readRecord_ok {platform : Platform D} {flags : UInt32} {input : InputContext}
    {reader : DataReader D} {r : ReadRecord} {out : InputContext × DataReader D}
    (h : exec (readRecord platform flags) (input, reader) = (.ok r, out)) :
    ∃ buffers, out.2 = { reader with buffers := buffers } ∧
      WasRead platform flags input reader r out.1 buffers := by
  rw [readRecord, exec_bind_ok (exec_get _)] at h
  obtain ⟨serverRecordId, ⟨mid, reader'⟩, hserver, hrest⟩ := exec_bind_eq_ok h
  obtain ⟨hcompact, rfl⟩ := exec_readServerRecordId_ok hserver
  rw [exec_bind_ok (exec_get _)] at hrest
  dsimp only at hrest
  split at hrest
  · exact nomatch (Prod.mk.inj hrest).1
  split_ifs at hrest with hneg
  · exact nomatch (Prod.mk.inj hrest).1
  · split at hrest
    · exact nomatch (Prod.mk.inj hrest).1
    · rename_i digest hdigest
      split_ifs at hrest with hsync
      · exact nomatch (Prod.mk.inj hrest).1
      · split at hrest
        · exact nomatch (Prod.mk.inj hrest).1
        · obtain ⟨buffers, hout, hread, hbytes, hsize⟩ := exec_readOwnFields hrest
          exact ⟨buffers, hout, ⟨serverRecordId, mid, hcompact, hread⟩, hbytes, hsize⟩

/-- A position in front of bytes that are all in the buffer. -/
theorem exists_inputAt {start stop : InputContext}
    (hlt : start.currentInBufferPosition < stop.currentInBufferPosition)
    (hinside : (bytesBetween start stop).length =
      stop.currentInBufferPosition - start.currentInBufferPosition) :
    ∃ pre rest, start = inputAt pre rest start.inBufferLimit ∧ pre ++ rest = start.buffer ∧
      stop.currentInBufferPosition ≤ (pre ++ rest).length := by
  obtain ⟨inBuffer, limit, position⟩ := start
  rw [bytesBetween, List.length_take, List.length_drop] at hinside
  cases inBuffer with
  | none =>
      simp only [InputContext.buffer, Option.getD_none, List.length_nil] at hinside hlt
      omega
  | some buffer =>
      simp only [InputContext.buffer, Option.getD_some] at hinside hlt ⊢
      refine ⟨buffer.take position, buffer.drop position, ?_, List.take_append_drop _ _, ?_⟩
      · have htake : (buffer.take position).length = position := by
          rw [List.length_take]
          omega
        rw [inputAt, List.take_append_drop, htake]
      · rw [List.take_append_drop]
        omega

theorem bytesBetween_inputAt (pre bs post : List Int8) (limit limit' : ℕ) :
    bytesBetween (inputAt pre (bs ++ post) limit) (inputAt (pre ++ bs) post limit') = bs := by
  simp [bytesBetween, inputAt, InputContext.buffer]

/-- The bytes of a safe record are in the buffer. -/
theorem WasRead.located {platform : Platform D} {flags : UInt32} {input stop : InputContext}
    {reader : DataReader D} {r : ReadRecord} {buffers : RecordsContext D}
    (h : WasRead platform flags input reader r stop buffers)
    (hinside : r.bytes.length = r.size) :
    ∃ pre rest, input = inputAt pre rest input.inBufferLimit ∧ pre ++ rest = input.buffer ∧
      stop.currentInBufferPosition ≤ (pre ++ rest).length := by
  obtain ⟨serverRecordId, mid, hserver, hread⟩ := h.serverId
  have hlt := lt_readCompactInt hserver
  have hahead := ahead_readRecords mid platform r.record.infoId r.digest flags
    (mid, reader.buffers) (ahead_refl mid)
  rw [hread] at hahead
  refine exists_inputAt (hlt.trans_le hahead.position) ?_
  rw [← h.bytes, ← h.size, hinside]

/-- Fields whose values fit are read without a crash, if they are in the buffer. -/
theorem readFields_intact {platform : Platform D} {info : RecordInfoId}
    {fields : List FieldDigest} (hfits : ∀ entry ∈ fields, Fits platform info entry)
    {pre rest : List Int8} {limit : ℕ} {context : RecordsContext D}
    {out : InputContext × RecordsContext D} (hlen : (pre ++ rest).length ≤ INT_MAX)
    (hexec : exec (readFields platform info fields) (inputAt pre rest limit, context) =
      (.error none, out)) : ¬ out.1.currentInBufferPosition ≤ (pre ++ rest).length := by
  intro hinside
  induction fields generalizing pre rest context with
  | nil => cases (Prod.mk.inj hexec).1
  | cons entry fields ih =>
      rcases hwire : exec (readEntry platform info entry) (inputAt pre rest limit)
        with ⟨e | value, mid⟩
      · have hfield : exec (readFields platform info (entry :: fields))
            (inputAt pre rest limit, context) = (.error (some e), (mid, context)) := by
          rw [readFields, readField, inputCall]
          refine exec_bind_error (exec_bind_error ?_)
          rw [exec_zoom, exec_adapt_error some hwire]
        rw [hfield] at hexec
        cases (Prod.mk.inj hexec).1
      · -- the value was read from bytes of the buffer, and so it can be stored
        have hrun : exec (readFields platform info (entry :: fields))
            (inputAt pre rest limit, context) =
            exec (do bufferCall (storeValue platform info entry value)
                     readFields platform info fields) (mid, context) := by
          rw [readFields, readField, bind_assoc, exec_bind_ok (exec_inputCall_ok hwire context)]
        rw [hrun] at hexec
        have hahead : Ahead mid out.1 := by
          have h := ((ahead_bufferCall mid (storeValue platform info entry value)).bind fun _ =>
            ahead_readFields mid platform info fields) (mid, context) (ahead_refl mid)
          rwa [hexec] at h
        obtain ⟨bs, post, rfl, rfl, -⟩ := (local_readEntry platform info _).reads pre rest limit
          value mid hlen hwire (hahead.position.trans hinside)
        obtain ⟨context', hstore⟩ := Option.isSome_iff_exists.mp
          ((hfits entry List.mem_cons_self _ value _ hwire).storeValue_isSome context)
        rw [exec_bind_ok (exec_bufferCall hstore)] at hexec
        refine ih (fun entry' h => hfits entry' (List.mem_cons_of_mem _ h)) (by simpa using hlen)
          hexec (by simpa using hinside)

/-- The removal of a record is read without a crash. -/
theorem readQdtimeOnRemoveEvent_intact {platform : Platform D} {info : RecordInfoId}
    {s : InputContext × RecordsContext D} :
    (exec (readQdtimeOnRemoveEvent platform info) s).1 ≠ .error none := by
  obtain ⟨input, context⟩ := s
  rcases hread : exec readCompactLong input with ⟨e | n, input'⟩
  · have hexec : exec (readQdtimeOnRemoveEvent platform info) (input, context) =
        (.error (some e), (input', context)) := by
      rw [readQdtimeOnRemoveEvent, inputCall]
      refine exec_bind_error ?_
      rw [exec_zoom, exec_adapt_error some hread]
    rw [hexec]
    simp
  · obtain ⟨context', hexec, -⟩ := exec_readQdtimeOnRemoveEvent platform info context hread
    rw [hexec]
    simp

/-! ### Buffers of two runs -/

/-- Buffers that hold the same members are equal, up to the numbers of pointers. -/
theorem erase_eq_of_members {info : RecordInfoId} {context context' : RecordsContext D}
    (h : Tidy context) (h' : Tidy context')
    (hmembers : ∀ m ∈ members info,
      (context.buffers info m.name).erase = (context'.buffers info m.name).erase) :
    (context.buffers info).erase = (context'.buffers info).erase := by
  funext name
  by_cases hname : ∃ m ∈ members info, m.name = name
  · obtain ⟨m, hm, rfl⟩ := hname
    exact hmembers m hm
  · have houtside : ∀ m ∈ members info, m.name ≠ name := fun m hm hname' => hname ⟨m, hm, hname'⟩
    rw [RecordBuffer.erase, RecordBuffer.erase, h.outside info name houtside,
      h'.outside info name houtside]

theorem agreeOnTime_of_erase {info : RecordInfoId} {buffer buffer' : RecordBuffer D}
    (h : buffer.erase = buffer'.erase) : AgreeOnTime info buffer buffer' :=
  fun m _ _ => congrFun h m.name

theorem eventParamsOf_congr (platform : Platform D) (record : LocalRecord)
    (symbol : Option WString) (flags : UInt32) {buffer buffer' : RecordBuffer D}
    (h : AgreeOnTime record.infoId buffer buffer') :
    eventParamsOf platform record symbol flags buffer =
      eventParamsOf platform record symbol flags buffer' := by
  simp only [eventParamsOf, timeIntField]
  rw [timeBits_congr h (by decide), timeBits_congr h (by decide)]

/-- The events of a record do not depend on the numbers of pointers. -/
theorem transcodeBuffer_congr (platform : Platform D) (record : LocalRecord)
    (symbol : Option WString) (flags : UInt32) {buffer buffer' : RecordBuffer D}
    (h : buffer.erase = buffer'.erase) :
    (transcodeBuffer platform record symbol flags buffer).events =
      (transcodeBuffer platform record symbol flags buffer').events := by
  rw [transcodeBuffer, transcodeBuffer, transcodeRecordData, transcodeRecordData,
    eventParamsOf_congr platform record symbol flags (agreeOnTime_of_erase h)]
  rw [← transcoder_erase, h, transcoder_erase]

theorem readsKnown_erase (info : RecordInfoId) (flags : UInt32) (buffer : RecordBuffer D) :
    ReadsKnown info flags buffer.erase ↔ ReadsKnown info flags buffer := by
  simp only [ReadsKnown, RecordBuffer.erase, Value.isKnown_erase]

theorem transcodeKnown_congr (platform : Platform D) (record : LocalRecord)
    (symbol : Option WString) (flags : UInt32) {buffer buffer' : RecordBuffer D}
    (h : buffer.erase = buffer'.erase) :
    (transcodeKnown platform record symbol flags buffer).events =
      (transcodeKnown platform record symbol flags buffer').events := by
  have hknown : ReadsKnown record.infoId flags buffer ↔ ReadsKnown record.infoId flags buffer' := by
    rw [← readsKnown_erase, h, readsKnown_erase]
  unfold transcodeKnown
  rw [if_congr hknown rfl rfl]
  split_ifs
  · exact transcodeBuffer_congr platform record symbol flags h
  · rfl

theorem fst_wireFields {platform : Platform D} {fields : List FieldDigest}
    {info : RecordInfoId} {input out : InputContext} {values : List (FieldDigest × Value D)}
    (h : exec (wireFields platform info fields) input = (.ok values, out)) :
    values.map Prod.fst = fields := by
  induction fields generalizing input out values with
  | nil =>
      obtain rfl := Except.ok.inj (Prod.mk.inj h).1
      rfl
  | cons entry fields ih =>
      obtain ⟨value, mid, -, hrest⟩ := exec_bind_eq_ok h
      obtain ⟨values', mid', hvalues, hpure⟩ := exec_bind_eq_ok hrest
      obtain rfl := Except.ok.inj (Prod.mk.inj hpure).1
      rw [List.map_cons, ih hvalues]

/-- Every value was read for its entry. -/
theorem exec_readEntry_of_mem {platform : Platform D} {info : RecordInfoId}
    {fields : List FieldDigest} {input out : InputContext} {values : List (FieldDigest × Value D)}
    (h : exec (wireFields platform info fields) input = (.ok values, out)) :
    ∀ p ∈ values, p.1 ∈ fields ∧
      ∃ input' out', exec (readEntry platform info p.1) input' = (.ok p.2, out') := by
  induction fields generalizing input out values with
  | nil =>
      obtain rfl := Except.ok.inj (Prod.mk.inj h).1
      exact fun p hp => absurd hp List.not_mem_nil
  | cons entry fields ih =>
      obtain ⟨value, mid, hvalue, hrest⟩ := exec_bind_eq_ok h
      obtain ⟨values', mid', hvalues, hpure⟩ := exec_bind_eq_ok hrest
      obtain rfl := Except.ok.inj (Prod.mk.inj hpure).1
      intro p hp
      rcases List.mem_cons.mp hp with rfl | hp
      · exact ⟨List.mem_cons_self, input, mid, hvalue⟩
      · obtain ⟨hfield, hread⟩ := ih hvalues p hp
        exact ⟨List.mem_cons_of_mem _ hfield, hread⟩

/-- A member that is set has a last value. -/
theorem exists_lastValue (platform : Platform D) {info : RecordInfoId} {m : Member}
    {values : List (FieldDigest × Value D)}
    (hset : ∃ entry ∈ values.map Prod.fst, entry.setter = some (setterName info m)) :
    ∃ loaded, lastValue platform info m values = some loaded := by
  induction values with
  | nil =>
      obtain ⟨entry, hentry, -⟩ := hset
      exact absurd hentry List.not_mem_nil
  | cons head rest ih =>
      rw [lastValue]
      rcases hlast : lastValue platform info m rest with _ | loaded
      · rw [Option.none_or]
        obtain ⟨entry, hentry, hsetter⟩ := hset
        rw [List.map_cons, List.mem_cons] at hentry
        rcases hentry with rfl | hentry
        · rw [if_pos hsetter]
          exact ⟨_, rfl⟩
        · obtain ⟨loaded, hloaded⟩ := ih ⟨entry, hentry, hsetter⟩
          rw [hlast] at hloaded
          cases hloaded
      · exact ⟨loaded, rfl⟩

/-- A transcoder reads only through pointers in members of the buffer. -/
theorem dereferenced_subset (platform : Platform D) (params : RecordParams)
    (eventParams : EventParams) (buffer : RecordBuffer D) (info : RecordInfoId) {n : ℕ}
    (h : n ∈ (transcoder platform params eventParams buffer info).dereferenced) :
    ∃ m ∈ members info, n ∈ buffer.serials m.name := by
  cases info with
  | profile =>
      rcases List.mem_append.mp h with h | h
      · exact ⟨Member.string "description", by decide, h⟩
      · exact ⟨Member.string "status_reason", by decide, h⟩
  | spreadOrder =>
      simp only [transcoder, spreadOrderTranscoder, orderTranscoderImpl] at h
      cases hsuffix : params.suffix with
      | none => simp [hsuffix] at h
      | some suffix =>
          rw [hsuffix] at h
          dsimp only at h
          split_ifs at h
          · exact absurd h List.not_mem_nil
          · exact ⟨Member.string "spread_symbol", by decide, h⟩
  | timeAndSale =>
      simp only [transcoder, timeAndSaleTranscoder] at h
      split_ifs at h
      · exact absurd h List.not_mem_nil
      · rcases List.mem_append.mp h with h | h
        · exact ⟨Member.string "buyer", by decide, h⟩
        · exact ⟨Member.string "seller", by decide, h⟩
  | configuration => exact ⟨⟨"object", .byteArray, .common⟩, by decide, h⟩
  | order =>
      simp only [transcoder, orderTranscoder, orderTranscoderImpl] at h
      cases hsuffix : params.suffix <;> simp [hsuffix] at h
  | _ => exact absurd h List.not_mem_nil

/-- Only the transcoder of configurations can read behind the end of an array. -/
theorem transcoder_noOverread (platform : Platform D) (params : RecordParams)
    (eventParams : EventParams) (buffer : RecordBuffer D) (info : RecordInfoId)
    (hobject : info = .configuration → ContainsString (buffer.elements "object")) :
    (transcoder platform params eventParams buffer info).events ≠ .error .overread := by
  cases info with
  | configuration =>
      have hstring := (hobject rfl).noOverread platform
      simp only [transcoder, configurationTranscoder]
      rcases hevents : configurationDeserializeString platform (buffer.elements "object") with e | s
      · rw [hevents] at hstring
        simpa [Except.map] using hstring
      · simp [Except.map]
  | order =>
      simp only [transcoder, orderTranscoder, orderTranscoderImpl]
      cases params.suffix <;> simp
  | spreadOrder =>
      simp only [transcoder, spreadOrderTranscoder, orderTranscoderImpl]
      cases params.suffix <;> simp
  | _ =>
      intro h
      cases h

/-! ### One record in two runs -/

section Record

variable {platform : Platform D} (own : OwnRecord) {pre rest : List Int8} {limit : ℕ}
  {serverRecordId : Int32} {mid stop : InputContext} {context context' : RecordsContext D}

/-- The fields of an ordinary record are read from its own bytes alike. -/
theorem exec_isolatedRead_fields
    (hflags : isFlagSet own.symbol.flags.toNat EventFlag.removeEvent = false)
    (hlen : (pre ++ rest).length ≤ INT_MAX)
    (hserver : exec readCompactInt (inputAt pre rest limit) = (.ok serverRecordId, mid))
    (hread : exec (readFields platform own.record.infoId own.digest.elements) (mid, context) =
      (.ok (), (stop, context'))) (hinside : stop.currentInBufferPosition ≤ (pre ++ rest).length)
    (hbytes : own.bytes = bytesBetween (inputAt pre rest limit) stop) :
    ∃ values out, exec (isolatedRead platform own) own.start = (.ok (), out) ∧
      values.map Prod.fst = own.digest.elements ∧
      (∀ p ∈ values, p.1 ∈ own.digest.elements ∧
        ∃ input out, exec (readEntry platform own.record.infoId p.1) input = (.ok p.2, out)) ∧
      storeValues platform own.record.infoId values context = some context' ∧
      storeValues platform own.record.infoId values .init = some out.2 := by
  obtain ⟨values, hwire, hstore⟩ := exec_readFields_iff.mp hread
  have hlocal : Local
      (do let _ ← readCompactInt; wireFields platform own.record.infoId own.digest.elements) :=
    local_readCompactInt.bind fun _ => local_wireFields platform _ _
  obtain ⟨bs, post, rfl, rfl, hreads⟩ := hlocal.reads pre rest limit values stop hlen
    (by rw [exec_bind_ok hserver, hwire]) hinside
  rw [bytesBetween_inputAt] at hbytes
  have hbound : bs.length ≤ INT_MAX := by
    rw [List.length_append, List.length_append] at hlen
    omega
  have hown := hreads [] [] own.bytes.length (by simpa using hbound)
  rw [List.append_nil, List.nil_append, ← hbytes] at hown
  obtain ⟨serverRecordId', mid', hserver', hwire'⟩ := exec_bind_eq_ok hown
  obtain ⟨context₀, hstore₀⟩ := Option.isSome_iff_exists.mp
    ((storeValues_isSome platform own.record.infoId values .init context).trans
      (Option.isSome_iff_exists.mpr ⟨_, hstore⟩))
  refine ⟨values, (inputAt own.bytes [] own.bytes.length, context₀), ?_, fst_wireFields hwire,
    exec_readEntry_of_mem hwire, hstore, hstore₀⟩
  rw [isolatedRead, OwnRecord.start, exec_bind_ok (exec_inputCall_ok hserver' _), readRecords,
    hflags, if_neg Bool.false_ne_true]
  exact exec_readFields_iff.mpr ⟨values, hwire', hstore₀⟩

/-- The QD time of a removal is read from its own bytes alike. -/
theorem exec_isolatedRead_removal
    (hflags : isFlagSet own.symbol.flags.toNat EventFlag.removeEvent = true)
    (hlen : (pre ++ rest).length ≤ INT_MAX)
    (hserver : exec readCompactInt (inputAt pre rest limit) = (.ok serverRecordId, mid))
    (hread : exec (readQdtimeOnRemoveEvent platform own.record.infoId) (mid, context) =
      (.ok (), (stop, context'))) (hinside : stop.currentInBufferPosition ≤ (pre ++ rest).length)
    (hbytes : own.bytes = bytesBetween (inputAt pre rest limit) stop) :
    ∃ high low out, exec (isolatedRead platform own) own.start = (.ok (), out) ∧
      Stored platform own.record.infoId
        (qdtimeValues own.record.infoId high low (members own.record.infoId)) context context' ∧
      Stored platform own.record.infoId
        (qdtimeValues own.record.infoId high low (members own.record.infoId)) .init out.2 := by
  obtain ⟨n, ⟨stop', context''⟩, hcompact, hstore⟩ := exec_bind_eq_ok hread
  obtain ⟨hcompact', rfl⟩ := exec_inputCall_eq_ok hcompact
  obtain ⟨removed, hremoval, hstored⟩ :=
    exec_readQdtimeOnRemoveEvent platform own.record.infoId context'' hcompact'
  rw [hread] at hremoval
  obtain ⟨rfl, rfl⟩ := Prod.mk.inj (Prod.mk.inj hremoval).2
  have hlocal : Local (do let _ ← readCompactInt; readCompactLong) :=
    local_readCompactInt.bind fun _ => local_readCompactLong
  obtain ⟨bs, post, rfl, hstop, hreads⟩ := hlocal.reads pre rest limit n stop hlen
    (by rw [exec_bind_ok hserver, hcompact']) hinside
  rw [hstop, bytesBetween_inputAt] at hbytes
  have hbound : bs.length ≤ INT_MAX := by
    rw [List.length_append, List.length_append] at hlen
    omega
  have hown := hreads [] [] own.bytes.length (by simpa using hbound)
  rw [List.append_nil, List.nil_append, ← hbytes] at hown
  obtain ⟨serverRecordId', mid', hserver', hcompact₀⟩ := exec_bind_eq_ok hown
  obtain ⟨context₀, hremoval₀, hstored₀⟩ :=
    exec_readQdtimeOnRemoveEvent platform own.record.infoId .init hcompact₀
  refine ⟨qdtimeHigh n, qdtimeLow n, (inputAt own.bytes [] own.bytes.length, context₀), ?_, hstored,
    hstored₀⟩
  rw [isolatedRead, OwnRecord.start, exec_bind_ok (exec_inputCall_ok hserver' _), readRecords,
    hflags, if_pos rfl]
  exact hremoval₀

end Record

/-- The records whose index is a time and a sequence have these as time fields. -/
theorem mem_members_of_isTimeIndexed {info : RecordInfoId} (h : IsTimeIndexed info) :
    (Member.int "time").first ∈ members info ∧ (Member.int "sequence").second ∈ members info := by
  rcases h with rfl | rfl | rfl <;> decide

/-- The own data of a record that was read behind a symbol. -/
def ReadRecord.own (r : ReadRecord) (symbol : SymbolParams) : OwnRecord :=
  ⟨r.bytes, r.size, r.record, r.digest, symbol⟩

/-- What the transcoder makes of a buffer. -/
def ReadRecord.transcoding (platform : Platform D) (r : ReadRecord) (symbol : SymbolParams)
    (buffers : RecordsContext D) : Transcoding D :=
  transcodeKnown platform r.record symbol.symbolName symbol.flags
    (buffers.buffers r.record.infoId)

theorem isolatedOutcome_eq {platform : Platform D} {own : OwnRecord}
    {out : InputContext × RecordsContext D}
    (h : exec (isolatedRead platform own) own.start = (.ok (), out)) :
    isolatedOutcome platform own =
      (transcodeKnown platform own.record own.symbol.symbolName own.symbol.flags
        (out.2.buffers own.record.infoId)).events := by
  rw [isolatedOutcome, h]

/-- The removal of a record whose index is a time and a sequence takes nothing else. -/
theorem readsKnown_removal {platform : Platform D} {info : RecordInfoId} {flags : UInt32}
    {high low : Int32} {context context' : RecordsContext D} (hinfo : IsTimeIndexed info)
    (hflags : isFlagSet flags.toNat EventFlag.removeEvent = true)
    (hstored : Stored platform info (qdtimeValues info high low (members info)) context context') :
    ReadsKnown info flags (context'.buffers info) := by
  intro m hm htime
  have htime := htime ⟨hflags, hinfo⟩
  obtain ⟨half, hhalf⟩ := exists_timeHalf high low htime
  rw [← Value.isKnown_erase, erase_removal hm hstored hhalf, Value.isKnown_erase]
  rcases type_of_time hm htime with htype | htype <;> rw [htype] <;> rfl

/-- A record that sets every member to what its setter can take has nothing unknown. -/
theorem readsKnown_fields {platform : Platform D} {info : RecordInfoId} (flags : UInt32)
    {values : List (FieldDigest × Value D)} {context context' : RecordsContext D}
    (hstorable : ∀ p ∈ values, Storable platform info p.1 p.2)
    (hlast : ∀ m ∈ members info, ∃ loaded, lastValue platform info m values = some loaded)
    (hstored : Stored platform info values context context') :
    ReadsKnown info flags (context'.buffers info) := by
  intro m hm _
  obtain ⟨loaded, hloaded⟩ := hlast m hm
  rw [← Value.isKnown_erase, (hstored.value m hm loaded hloaded).1, Value.isKnown_erase]
  exact isKnown_lastValue hm hstorable hloaded

section WasRead

variable {platform : Platform D} {symbol : SymbolParams} {input stop : InputContext}
  {reader : DataReader D} {r : ReadRecord} {buffers : RecordsContext D}
  (hw : WasRead platform symbol.flags input reader r stop buffers) (htidy : Tidy reader.buffers)
  (hbound : input.buffer.length ≤ INT_MAX) (hsafe : IsSafe platform (r.own symbol))

include hw hbound hsafe

/-- A safe record is read without a crash. -/
theorem WasRead.intact : r.intact = true := by
  obtain ⟨pre, rest, hinput, hbuffer, hinside⟩ := hw.located hsafe.inside
  obtain ⟨serverRecordId, mid, hserver, hread⟩ := hw.serverId
  have hfields := hsafe.fields
  by_contra hintact
  rw [if_neg hintact, readRecords] at hread
  split_ifs at hread with hflags
  · exact readQdtimeOnRemoveEvent_intact (congrArg Prod.fst hread)
  · rw [ReadRecord.own, if_neg hflags] at hfields
    have hahead := ahead_readFields mid platform r.record.infoId r.digest.elements
      (mid, reader.buffers) (ahead_refl mid)
    rw [hread] at hahead
    rw [hinput] at hserver
    rw [← hbuffer] at hbound
    obtain ⟨bs, post, rfl, rfl, -⟩ := local_readCompactInt.reads pre rest _ _ mid hbound hserver
      (hahead.position.trans hinside)
    exact readFields_intact hfields.fits (by simpa using hbound) hread (by simpa using hinside)

/-- A safe removal. -/
theorem WasRead.isolated_removal
    (hflags : isFlagSet symbol.flags.toNat EventFlag.removeEvent = true) :
    Isolated platform ⟨r.own symbol, (r.transcoding platform symbol buffers).events,
      (r.transcoding platform symbol buffers).dereferenced, buffers.freed⟩ := by
  have hintact := hw.intact hbound hsafe
  obtain ⟨pre, rest, hinput, hbuffer, hinside⟩ := hw.located hsafe.inside
  obtain ⟨serverRecordId, mid, hserver, hread⟩ := hw.serverId
  have hbytes := hw.bytes
  have htimed := hsafe.fields
  rw [ReadRecord.own, if_pos hflags] at htimed
  rw [hintact, if_pos rfl, readRecords, if_pos hflags] at hread
  rw [hinput] at hserver hbytes
  rw [← hbuffer] at hbound
  obtain ⟨high, low, out, hisolated, hstored, hstored₀⟩ :=
    exec_isolatedRead_removal (r.own symbol) hflags hbound hserver hread hinside hbytes
  have hagree : AgreeOnTime r.record.infoId (buffers.buffers r.record.infoId)
      (out.2.buffers r.record.infoId) := by
    intro m hm htime
    obtain ⟨half, hhalf⟩ := exists_timeHalf high low htime
    exact (erase_removal hm hstored hhalf).trans (erase_removal hm hstored₀ hhalf).symm
  have hknown := readsKnown_removal htimed hflags hstored
  have hknown₀ := readsKnown_removal htimed hflags hstored₀
  have hsame : r.transcoding platform symbol buffers = transcodeKnown platform r.record
      symbol.symbolName symbol.flags (out.2.buffers r.record.infoId) := by
    rw [ReadRecord.transcoding, transcodeKnown, if_pos hknown, transcodeKnown, if_pos hknown₀,
      transcodeBuffer, transcodeBuffer, transcodeRecordData, transcodeRecordData,
      eventParamsOf_congr _ _ _ _ hagree]
    obtain ⟨htime, hsequence⟩ := mem_members_of_isTimeIndexed htimed
    exact transcoder_removal _ _ _ htimed hflags
      (int_congr (hagree _ htime (by decide))) (int_congr (hagree _ hsequence (by decide)))
  refine ⟨?_, ?_, fun n hn => ?_⟩
  · rw [isolatedOutcome_eq hisolated, hsame]
    rfl
  · rw [ReadRecord.transcoding, transcodeKnown, if_pos hknown]
    refine transcoder_noOverread _ _ _ _ _ fun hinfo => ?_
    rcases htimed with h | h | h <;> exact absurd (h.symm.trans hinfo) (by decide)
  · rw [ReadRecord.transcoding, transcodeKnown, if_pos hknown, transcodeBuffer, transcodeRecordData,
      dereferenced_removal _ _ _ _ htimed hflags] at hn
    exact absurd hn List.not_mem_nil

include htidy

/-- A safe record that is not a removal. -/
theorem WasRead.isolated_fields
    (hflags : isFlagSet symbol.flags.toNat EventFlag.removeEvent = false) :
    Isolated platform ⟨r.own symbol, (r.transcoding platform symbol buffers).events,
      (r.transcoding platform symbol buffers).dereferenced, buffers.freed⟩ := by
  have hintact := hw.intact hbound hsafe
  obtain ⟨pre, rest, hinput, hbuffer, hinside⟩ := hw.located hsafe.inside
  obtain ⟨serverRecordId, mid, hserver, hread⟩ := hw.serverId
  have hbytes := hw.bytes
  have hfields := hsafe.fields
  rw [ReadRecord.own, if_neg (by rw [hflags]; exact Bool.false_ne_true)] at hfields
  rw [hintact, if_pos rfl, readRecords, hflags, if_neg Bool.false_ne_true] at hread
  rw [hinput] at hserver hbytes
  rw [← hbuffer] at hbound
  obtain ⟨values, out, hisolated, hfst, hvalues, hstore, hstore₀⟩ :=
    exec_isolatedRead_fields (r.own symbol) hflags hbound hserver hread hinside hbytes
  have hstored := stored_storeValues hstore
  have hstored₀ := stored_storeValues hstore₀
  have hlast : ∀ m ∈ members r.record.infoId,
      ∃ loaded, lastValue platform r.record.infoId m values = some loaded := by
    intro m hm
    refine exists_lastValue platform ?_
    rw [hfst]
    exact hfields.covers m hm
  have hstorable : ∀ p ∈ values, Storable platform r.record.infoId p.1 p.2 := by
    intro p hp
    obtain ⟨hentry, input', out', hentryRead⟩ := hvalues p hp
    exact hfields.fits p.1 hentry input' p.2 out' hentryRead
  have hknown := readsKnown_fields symbol.flags hstorable hlast hstored
  have hknown₀ := readsKnown_fields symbol.flags hstorable hlast hstored₀
  have herase : (buffers.buffers r.record.infoId).erase =
      (out.2.buffers r.record.infoId).erase := by
    refine erase_eq_of_members (htidy.stored hstored) (tidy_init.stored hstored₀) fun m hm => ?_
    obtain ⟨loaded, hloaded⟩ := hlast m hm
    exact (hstored.value m hm loaded hloaded).1.trans (hstored₀.value m hm loaded hloaded).1.symm
  have houtcome : (r.transcoding platform symbol buffers).events =
      isolatedOutcome platform (r.own symbol) := by
    rw [isolatedOutcome_eq hisolated]
    exact transcodeKnown_congr platform _ _ _ herase
  refine ⟨houtcome, ?_, fun n hn => ?_⟩
  · rw [houtcome, isolatedOutcome_eq hisolated]
    show (transcodeKnown platform r.record symbol.symbolName symbol.flags
      (out.2.buffers r.record.infoId)).events ≠ _
    rw [transcodeKnown, if_pos hknown₀]
    refine transcoder_noOverread _ _ _ _ _ fun hinfo => ?_
    have hobject := hsafe.object hinfo out.1 out.2 hisolated
    rwa [← hinfo] at hobject
  · -- what is read through was allocated for this record
    rw [ReadRecord.transcoding, transcodeKnown, if_pos hknown] at hn
    obtain ⟨m, hm, hserial⟩ := dereferenced_subset _ _ _ _ _ hn
    obtain ⟨loaded, hloaded⟩ := hlast m hm
    have hfresh := (hstored.value m hm loaded hloaded).2 n hserial
    rw [hstored.freed]
    exact htidy.freed.trans hfresh

end WasRead

/-! ### Messages -/

/-- What holds between records: in a buffer whose length is an `int`, the buffers are tidy, and the
safe records are isolated. -/
structure DataContext.Isolates (platform : Platform D) (context : DataContext (DataReader D)) :
    Prop where
  bounded : context.bicc.buffer.length ≤ INT_MAX
  tidy : Tidy context.records.buffers
  isolated : ∀ p ∈ context.records.passed, IsSafe platform p.own → Isolated platform p

theorem local_readCharacters (k : ℕ) : Local (SymbolCodec.readCharacters k) := by
  induction k with
  | zero => exact local_pure _
  | succ k ih =>
      refine local_readUtfChar.bind fun codePoint => ?_
      split_ifs
      · exact local_throw _
      · exact ih.map _

/-- A call of the codec stays in its buffer. -/
def StaysInBuffer {α : Type} (x : SymbolCodec.CodecCall α) : Prop :=
  Keeps (fun context => context.bicc.inBuffer) x

theorem staysInBuffer_input {α : Type} {x : ReadCall α} (hx : Local x) :
    StaysInBuffer (SymbolCodec.input x) :=
  fun context => (hx.forward context.bicc).1

theorem staysInBuffer_output (f : SymbolCodec.CodecOutputs → SymbolCodec.CodecOutputs) :
    StaysInBuffer (SymbolCodec.output f) :=
  fun _ => rfl

theorem StaysInBuffer.ite {α : Type} {p : Prop} [Decidable p] {x y : SymbolCodec.CodecCall α}
    (hx : StaysInBuffer x) (hy : StaysInBuffer y) : StaysInBuffer (if p then x else y) := by
  split_ifs
  · exact hx
  · exact hy

theorem staysInBuffer_throw {α : Type} (e : ErrorCode) :
    StaysInBuffer (throw e : SymbolCodec.CodecCall α) :=
  keeps_throw e

/-- An assignment at the end of a call. -/
theorem staysInBuffer_return {α : Type} (f : SymbolCodec.CodecOutputs → SymbolCodec.CodecOutputs)
    (a : α) : StaysInBuffer (do SymbolCodec.output f; return a) :=
  (staysInBuffer_output f).bind fun _ => keeps_pure a

theorem staysInBuffer_readPenta (penta : ℕ) : StaysInBuffer (SymbolCodec.readPenta penta) := by
  unfold SymbolCodec.readPenta
  dsimp only
  split_ifs
  · exact (staysInBuffer_output _).bind fun _ => keeps_pure _
  · exact keeps_pure _

theorem staysInBuffer_readCesu8 (bufferLength : ℕ) :
    StaysInBuffer (SymbolCodec.readCesu8 bufferLength) := by
  refine (staysInBuffer_input local_readCompactLong).bind fun length => ?_
  refine (staysInBuffer_throw _).ite ((staysInBuffer_return _ _).ite ?_)
  refine (staysInBuffer_input (local_readCharacters _)).bind fun symbol => ?_
  exact (staysInBuffer_return _ _).ite (staysInBuffer_return _ _)

theorem staysInBuffer_readSymbolFrom (bufferLength rounds eventFlagsBytes : ℕ) :
    StaysInBuffer (SymbolCodec.readSymbolFrom bufferLength rounds eventFlagsBytes) := by
  induction rounds generalizing eventFlagsBytes with
  | zero => exact keeps_throw _
  | succ rounds ih =>
      have hbyte := staysInBuffer_input local_readUnsignedByte
      have hshort := staysInBuffer_input local_readUnsignedShort
      refine hbyte.bind fun i => StaysInBuffer.ite ?_ (StaysInBuffer.ite ?_
        ((staysInBuffer_throw _).ite (StaysInBuffer.ite ?_ (StaysInBuffer.ite ?_
        (StaysInBuffer.ite ((staysInBuffer_throw _).ite ?_) (StaysInBuffer.ite
        ((staysInBuffer_throw _).ite ?_) ((staysInBuffer_throw _).ite (StaysInBuffer.ite ?_
        ((staysInBuffer_readCesu8 _).ite ((staysInBuffer_readPenta _).ite
        (staysInBuffer_return _ _)))))))))))
      · exact hbyte.bind fun _ => staysInBuffer_readPenta _
      · exact hbyte.bind fun _ => hshort.bind fun _ => staysInBuffer_readPenta _
      · exact hshort.bind fun _ => staysInBuffer_readPenta _
      · exact (staysInBuffer_input local_readInt).bind fun _ => staysInBuffer_readPenta _
      · exact (staysInBuffer_output _).bind fun _ => ih 1
      · -- event flags are read between two looks at the position
        refine keeps_get_bind fun context => ?_
        refine Keeps.bind (staysInBuffer_input local_readCompactInt) (fun flags => ?_) context
        exact (staysInBuffer_output _).bind fun _ => keeps_get_bind fun context => ih _ context
      · exact (staysInBuffer_input local_readUtfString).bind fun _ => staysInBuffer_return _ _

theorem staysInBuffer_codecReadSymbol (bufferLength : ℕ) :
    StaysInBuffer (SymbolCodec.codecReadSymbol bufferLength) :=
  (staysInBuffer_output _).bind fun _ => staysInBuffer_readSymbolFrom bufferLength 2 0

/-- The part of the context that symbols leave alone. -/
def DataContext.frame (context : DataContext (DataReader D)) :
    Option (List Int8) × DataReader D :=
  (context.bicc.inBuffer, context.records)

theorem DataContext.Isolates.of_frame {platform : Platform D}
    {context context' : DataContext (DataReader D)} (h : context.Isolates platform)
    (hframe : context'.frame = context.frame) : context'.Isolates platform := by
  obtain ⟨hbuffer, hrecords⟩ := Prod.mk.inj hframe
  constructor
  · rw [InputContext.buffer, hbuffer]
    exact h.bounded
  · rw [hrecords]
    exact h.tidy
  · rw [hrecords]
    exact h.isolated

theorem frame_takeResult (context : DataContext (DataReader D)) :
    context.takeResult.frame = context.frame := by
  unfold DataContext.takeResult
  split <;> rfl

theorem keeps_readSymbol : Keeps DataContext.frame (readSymbol : DataCall (DataReader D) Unit) := by
  refine Keeps.bind (fun context => ?_) fun r => ?_
  · exact Prod.ext (staysInBuffer_codecReadSymbol symbolBufferLen ⟨context.bicc, context.codec⟩) rfl
  · unfold storeSymbol
    split_ifs
    · exact keeps_modify fun _ => rfl
    · exact keeps_modify fun _ => rfl
    · refine (keeps_modify frame_takeResult).bind fun _ => keeps_get_bind fun context => ?_
      split_ifs <;> rfl

theorem Tidy.freeBuffers {context : RecordsContext D} (h : Tidy context) :
    Tidy context.freeBuffers :=
  ⟨le_rfl, h.outside⟩

/-- A transcoder changes nothing but members. -/
theorem Tidy.bufferBehind {context : RecordsContext D} (h : Tidy context) (info : RecordInfoId) :
    Tidy (context.setBuffer info (bufferBehind (context.buffers info) info)) where
  freed := h.freed
  outside info' name hname := by
    by_cases hinfo : info' = info
    · subst hinfo
      simp only [RecordsContext.setBuffer, Function.update_self]
      rw [← h.outside info' name hname]
      cases info' with
      | theoPrice =>
          have htime : name ≠ "time" := fun heq =>
            hname ⟨"time", .intToLong, .common⟩ (by decide) heq.symm
          exact Function.update_of_ne htime _ _
      | _ => rfl
    · simp only [RecordsContext.setBuffer, Function.update_of_ne hinfo]
      exact h.outside info' name hname

/-- What reading a record keeps, whether it succeeds or not. -/
structure ReaderKeeps (inBuffer : Option (List Int8)) (passed : List (Passed D))
    (s : InputContext × DataReader D) : Prop where
  inBuffer : s.1.inBuffer = inBuffer
  tidy : Tidy s.2.buffers
  passed : s.2.passed = passed

theorem preserves_freeAndThrow {α : Type} (inBuffer : Option (List Int8))
    (passed : List (Passed D)) (e : Option ErrorCode) :
    Preserves (ReaderKeeps inBuffer passed) (freeAndThrow e : ReaderCall D α) :=
  fun _ h => ⟨h.inBuffer, h.tidy.freeBuffers, h.passed⟩

theorem preserves_readServerRecordId (inBuffer : Option (List Int8)) (passed : List (Passed D)) :
    Preserves (ReaderKeeps inBuffer passed) (readServerRecordId : ReaderCall D Int32) := by
  rintro ⟨input, reader⟩ h
  have hbuffer := (local_readCompactInt.forward input).1
  rcases hexec : exec readCompactInt input with ⟨e | n, input'⟩
  · rw [hexec] at hbuffer
    simp only [readServerRecordId, exec_mk, hexec]
    exact ⟨hbuffer.trans h.inBuffer, h.tidy.freeBuffers, h.passed⟩
  · rw [hexec] at hbuffer
    simp only [readServerRecordId, exec_mk, hexec]
    exact ⟨hbuffer.trans h.inBuffer, h.tidy, h.passed⟩

theorem preserves_readOwnFields (platform : Platform D) (flags : UInt32) (start : InputContext)
    (record : LocalRecord) (digest : RecordDigest) (inBuffer : Option (List Int8))
    (passed : List (Passed D)) :
    Preserves (ReaderKeeps inBuffer passed)
      (readOwnFields platform flags start record digest) := by
  rintro ⟨input, reader⟩ h
  have htidy := preserves_readRecords platform record.infoId digest flags
    (input, reader.buffers) h.tidy
  have hahead := ahead_readRecords input platform record.infoId digest flags
    (input, reader.buffers) (ahead_refl input)
  rcases hexec : exec (readRecords platform record.infoId digest flags) (input, reader.buffers) with
    ⟨e | ⟨⟩, stop, buffers⟩ <;> rw [hexec] at htidy hahead
  · cases e with
    | none =>
        simp only [readOwnFields, exec_mk, hexec]
        exact ⟨hahead.inBuffer.trans h.inBuffer, htidy, h.passed⟩
    | some e =>
        simp only [readOwnFields, exec_mk, hexec]
        exact ⟨hahead.inBuffer.trans h.inBuffer, htidy.freeBuffers, h.passed⟩
  · simp only [readOwnFields, exec_mk, hexec]
    exact ⟨hahead.inBuffer.trans h.inBuffer, htidy, h.passed⟩

theorem preserves_readRecord (platform : Platform D) (flags : UInt32)
    (inBuffer : Option (List Int8)) (passed : List (Passed D)) :
    Preserves (ReaderKeeps inBuffer passed) (readRecord platform flags) := by
  refine preserves_get_bind fun start hstart => ?_
  refine (preserves_readServerRecordId inBuffer passed).bind (fun serverRecordId => ?_) start hstart
  refine preserves_get_bind fun s hs => ?_
  dsimp only
  split
  · exact hs
  split_ifs
  · exact preserves_freeAndThrow inBuffer passed _ s hs
  · split
    · exact preserves_freeAndThrow inBuffer passed _ s hs
    · split_ifs
      · exact preserves_freeAndThrow inBuffer passed _ s hs
      · split
        · exact hs
        · exact preserves_readOwnFields platform flags _ _ _ inBuffer passed s hs

/-- The note on a record, and the buffers behind its transcoder. -/
theorem exec_passRecord (platform : Platform D) (symbol : SymbolParams) (r : ReadRecord)
    (reader : DataReader D) :
    (exec (passRecord platform symbol r) reader).2 =
      if r.intact then
        { reader with
          passed := reader.passed ++
            [⟨r.own symbol, (r.transcoding platform symbol reader.buffers).events,
              (r.transcoding platform symbol reader.buffers).dereferenced, reader.buffers.freed⟩]
          buffers := (reader.buffers.setBuffer r.record.infoId
            (bufferBehind (reader.buffers.buffers r.record.infoId) r.record.infoId)).freeBuffers }
      else
        { reader with
          passed := reader.passed ++
            [⟨r.own symbol, .error .overread, [], reader.buffers.freed⟩] } := by
  rw [passRecord, exec_bind_ok (exec_get _)]
  cases hintact : r.intact with
  | false => rfl
  | true =>
      dsimp only
      rw [Bool.not_true, if_neg Bool.false_ne_true, exec_bind_ok (exec_set _ _), if_pos rfl]
      split <;> rfl

/-- The note on a safe record is that of an isolated one. -/
theorem isolated_passRecord {platform : Platform D} {symbol : SymbolParams}
    {input stop : InputContext} {reader : DataReader D} {r : ReadRecord}
    {buffers : RecordsContext D}
    (hw : WasRead platform symbol.flags input reader r stop buffers) (htidy : Tidy reader.buffers)
    (hbound : input.buffer.length ≤ INT_MAX)
    (hpassed : ∀ p ∈ reader.passed, IsSafe platform p.own → Isolated platform p) :
    ∀ p ∈ (exec (passRecord platform symbol r) { reader with buffers := buffers }).2.passed,
      IsSafe platform p.own → Isolated platform p := by
  intro p hp hsafe
  rw [exec_passRecord] at hp
  split_ifs at hp with hintact
  · rcases List.mem_append.mp hp with hp | hp
    · exact hpassed p hp hsafe
    · obtain rfl := List.mem_singleton.mp hp
      cases hflags : isFlagSet symbol.flags.toNat EventFlag.removeEvent with
      | true => exact hw.isolated_removal hbound hsafe hflags
      | false => exact hw.isolated_fields htidy hbound hsafe hflags
  · rcases List.mem_append.mp hp with hp | hp
    · exact hpassed p hp hsafe
    · obtain rfl := List.mem_singleton.mp hp
      exact absurd (hw.intact hbound hsafe) hintact

theorem tidy_passRecord (platform : Platform D) (symbol : SymbolParams) (r : ReadRecord)
    {reader : DataReader D} (h : Tidy reader.buffers) :
    Tidy (exec (passRecord platform symbol r) reader).2.buffers := by
  rw [exec_passRecord]
  split_ifs
  · exact (h.bufferBehind r.record.infoId).freeBuffers
  · exact h

/-- A record that is processed keeps the records isolated. -/
theorem preserves_passRecordOn (platform : Platform D) :
    Preserves (DataContext.Isolates platform) (passRecordOn (recordHandlers platform)) := by
  intro context h
  have hkeeps := preserves_readRecord platform context.codec.flags context.bicc.inBuffer
    context.records.passed (context.bicc, context.records) ⟨rfl, h.tidy, rfl⟩
  rw [passRecordOn, exec_bind_ok (exec_get _)]
  rcases hread : exec (readRecord platform context.codec.flags) (context.bicc, context.records) with
    ⟨e | r, input', reader'⟩ <;> rw [hread] at hkeeps
  · have hcall : exec (recordCall ((recordHandlers platform).readRecord context.codec.flags))
        context = (.error e, { context with bicc := input', records := reader' }) := by
      rw [recordCall, exec_zoom]
      simp only [recordHandlers, hread]
    rw [exec_bind_error hcall]
    refine ⟨?_, hkeeps.tidy, ?_⟩
    · exact (congrArg (fun b => (Option.getD b []).length) hkeeps.inBuffer).trans_le h.bounded
    · have hpassed : reader'.passed = context.records.passed := hkeeps.passed
      rw [hpassed]
      exact h.isolated
  · have hcall : exec (recordCall ((recordHandlers platform).readRecord context.codec.flags))
        context = (.ok r, { context with bicc := input', records := reader' }) := by
      rw [recordCall, exec_zoom]
      simp only [recordHandlers, hread]
    rw [exec_bind_ok hcall, exec_bind_ok (exec_get _), exec_bind_ok (exec_set _ _), exec_zoom]
    obtain ⟨buffers, rfl, hwas⟩ := exec_readRecord_ok hread
    refine ⟨?_, tidy_passRecord platform _ r hkeeps.tidy, ?_⟩
    · exact (congrArg (fun b => (Option.getD b []).length) hkeeps.inBuffer).trans_le h.bounded
    · exact isolated_passRecord hwas h.tidy h.bounded h.isolated

theorem preserves_processRecord_isolates (platform : Platform D) :
    Preserves (DataContext.Isolates platform) (processRecord (recordHandlers platform)) := by
  refine Preserves.bind (fun context h => h.of_frame (keeps_readSymbol context)) fun _ => ?_
  refine (preserves_decodeLastSymbol fun context symbol h => h.of_frame rfl).bind fun _ => ?_
  exact preserves_passRecordOn platform

/-- A data message keeps the records isolated. -/
theorem preserves_processDataMessage_isolates (platform : Platform D) :
    Preserves (DataContext.Isolates platform) (processDataMessage (recordHandlers platform)) := by
  refine (preserves_modify fun context h => h.of_frame rfl).bind fun _ => ?_
  refine preserves_get_bind fun context h => ?_
  exact preserves_processRecords (preserves_processRecord_isolates platform) _ context h

/-! ### Runs -/

/-- What happens to a connection: a data message is processed, at a position and with a limit in a
buffer, or the tables of records and digests become others. -/
inductive DataStep where
  | message (inBuffer : List Int8) (bounded : inBuffer.length ≤ INT_MAX) (position limit : ℕ)
  | tables (recordIdMap : ServerLocalRecordIdMap) (localRecords : List LocalRecord)
      (digests : List RecordDigest)

/-- A step of a connection. -/
def DataContext.step (platform : Platform D) (context : DataContext (DataReader D)) :
    DataStep → DataContext (DataReader D)
  | .message inBuffer _ position limit =>
      (exec (processDataMessage (recordHandlers platform))
        { context with bicc := ⟨some inBuffer, limit, position⟩ }).2
  | .tables recordIdMap localRecords digests =>
      { context with
        records := { context.records with
          recordIdMap := recordIdMap, localRecords := localRecords, digests := digests } }

/-- A new connection. -/
def DataContext.connected : DataContext (DataReader D) where
  bicc := ⟨none, 0, 0⟩
  codec := ⟨[], none, 0, 0⟩
  lastCipher := 0
  lastSymbol := none
  records := ⟨.empty, [], [], .init, []⟩
  passedOn := []

/-- The context after the steps of a run. -/
def DataContext.run (platform : Platform D) (steps : List DataStep) : DataContext (DataReader D) :=
  steps.foldl (DataContext.step platform) .connected

theorem isolates_step (platform : Platform D) (context : DataContext (DataReader D))
    (h : context.Isolates platform) (step : DataStep) :
    (context.step platform step).Isolates platform := by
  cases step with
  | message inBuffer bounded position limit =>
      exact preserves_processDataMessage_isolates platform _ ⟨bounded, h.tidy, h.isolated⟩
  | tables => exact ⟨h.bounded, h.tidy, h.isolated⟩

theorem isolates_run (platform : Platform D) (steps : List DataStep) :
    (DataContext.run platform steps).Isolates platform := by
  have hconnected : (DataContext.connected : DataContext (DataReader D)).Isolates platform :=
    ⟨Nat.zero_le _, tidy_init, fun p hp => absurd hp List.not_mem_nil⟩
  exact List.foldlRecOn steps _ hconnected fun context h step _ =>
    isolates_step platform context h step

/-- In a run of data messages every safe record is isolated from the records before it. -/
theorem recordIsolation (platform : Platform D) (steps : List DataStep) :
    ∀ p ∈ (DataContext.run platform steps).records.passed,
      IsSafe platform p.own → Isolated platform p :=
  (isolates_run platform steps).isolated

/-! ### Runs of three and of four messages -/

/-- An entry for a member that is a decimal. -/
def decimalEntry (info : RecordInfoId) (m : Member) : FieldDigest :=
  ⟨fidCompactInt ||| fidFlagDecimal, fidCompactInt ||| fidFlagDecimal,
    some (setterName info m), none⟩

theorem fits_decimalEntry (platform : Platform D) {info : RecordInfoId} {m : Member}
    (hm : m ∈ members info) (htype : m.type = .double) :
    Fits platform info (decimalEntry info m) := by
  intro input value out hexec
  have hserialization : (fidCompactInt ||| fidFlagDecimal) &&& fidMaskSerialization =
      fidCompactInt := by decide
  have hrepresentation : (fidCompactInt ||| fidFlagDecimal) &&& fidMaskRepresentation =
      fidFlagDecimal := by decide
  have hvoid : ¬ (decimalEntry info m).IsVoid := by
    rw [FieldDigest.IsVoid, decimalEntry, hserialization]
    decide
  rw [readEntry_of_not_isVoid hvoid] at hexec
  simp only [decimalEntry, readWire, hserialization, hrepresentation] at hexec
  rw [if_neg (by decide), if_neg (by decide), if_neg (by decide), if_neg (by decide),
    if_pos trivial, readCompactNumber, if_neg (by decide), if_neg (by decide),
    if_pos rfl] at hexec
  obtain ⟨n, mid, -, hpure⟩ := exec_bind_eq_ok hexec
  obtain rfl := Except.ok.inj (Prod.mk.inj hpure).1
  exact storable_of_load (t := fidCompactInt ||| fidFlagDecimal) hm rfl rfl (by decide)
    (by rw [htype]; rfl)

/-- A digest of an underlying: the server describes the first two fields, and the others have their
default values. -/
def underlyingDigest : RecordDigest where
  elements := ((members .underlying).take 2).map (decimalEntry .underlying) ++
    (dxFieldsUnderlying.drop 2).map defaultEntry
  inSyncWithServer := true

theorem fillsRecord_underlying (platform : Platform D) :
    FillsRecord platform .underlying underlyingDigest where
  covers := by decide +kernel
  fits entry hentry := by
    rcases List.mem_append.mp hentry with hentry | hentry
    · obtain ⟨m, hm, rfl⟩ := List.mem_map.mp hentry
      have hdouble : ∀ m ∈ members .underlying, m.type = .double := by decide
      have hmember := List.mem_of_mem_take hm
      exact fits_decimalEntry platform hmember (hdouble m hmember)
    · obtain ⟨field, hfield, rfl⟩ := List.mem_map.mp hentry
      exact fits_defaultEntry platform (List.mem_of_mem_drop hfield)

/-- The server ids 0 and 1 for the first two records. -/
def twoRecords : ServerLocalRecordIdMap :=
  (ServerLocalRecordIdMap.empty.assignServerRecordId 0 0).assignServerRecordId 1 1

/-- An underlying, a time and sale and its removal. -/
def underlyingSteps : List DataStep :=
  [.tables twoRecords [⟨.underlying, none⟩, ⟨.timeAndSale, none⟩]
      [underlyingDigest, timeAndSaleDigest],
    .message [0x24, 0x4D, 0, 1, 2] (by decide) 0 5,
    .message [0x24, 0x4D, 1, 1, 2] (by decide) 0 5,
    .message [-7, 2, 0x24, 0x4D, 1, 7] (by decide) 0 6]

theorem passed_underlyingSteps :
    (DataContext.run unitPlatform underlyingSteps).records.passed.map (fun p =>
        (decide (p.own.bytes.length = p.own.size), p.own.record.infoId, p.own.digest,
          p.own.symbol.flags)) =
      [(true, .underlying, underlyingDigest, 0), (true, .timeAndSale, timeAndSaleDigest, 0),
        (true, .timeAndSale, timeAndSaleDigest, 2)] := by
  decide +kernel

/-- The underlying and the removal of the time and sale are isolated. -/
theorem recordIsolation_underlyingSteps :
    ∃ p q r, (DataContext.run unitPlatform underlyingSteps).records.passed = [p, q, r] ∧
      p.own.record.infoId = .underlying ∧ Isolated unitPlatform p ∧
      r.own.record.infoId = .timeAndSale ∧ Isolated unitPlatform r := by
  have hisolated := recordIsolation unitPlatform underlyingSteps
  have hpassed := passed_underlyingSteps
  obtain ⟨p, rest, heq, hp, hpassed⟩ := List.map_eq_cons_iff.mp hpassed
  obtain ⟨q, rest, rfl, hq, hpassed⟩ := List.map_eq_cons_iff.mp hpassed
  obtain ⟨r, rest, rfl, hr, hpassed⟩ := List.map_eq_cons_iff.mp hpassed
  obtain rfl := List.map_eq_nil_iff.mp hpassed
  simp only [Prod.mk.injEq, decide_eq_true_eq] at hp hr
  obtain ⟨hpsize, hpinfo, hpdigest, hpflags⟩ := hp
  obtain ⟨hrsize, hrinfo, -, hrflags⟩ := hr
  rw [heq] at hisolated
  refine ⟨p, q, r, heq, hpinfo, hisolated p (by simp) ⟨hpsize, ?_, ?_⟩, hrinfo,
    hisolated r (by simp) ⟨hrsize, ?_, ?_⟩⟩
  · rw [hpflags, if_neg (by decide), hpinfo, hpdigest]
    exact fillsRecord_underlying unitPlatform
  · rw [hpinfo]
    exact nofun
  · rw [hrflags, if_pos (by decide), hrinfo]
    exact Or.inl rfl
  · rw [hrinfo]
    exact nofun

/-- A digest of an order with its index and its time. -/
def orderTimeDigest : RecordDigest where
  elements :=
    [⟨fidCompactInt, fidCompactInt, some (setterName .order (Member.int "index").second), none⟩,
      ⟨fidCompactInt ||| fidFlagTimeSeconds, fidCompactInt ||| fidFlagTimeSeconds,
        some (setterName .order (Member.int "time")), none⟩]
  inSyncWithServer := true

/-- A digest of a profile with its description. -/
def profileDigest : RecordDigest where
  elements :=
    [⟨fidUtfCharArray, fidUtfCharArray, some (setterName .profile (Member.string "description")),
      none⟩]
  inSyncWithServer := true

/-- An order and its removal, and a profile and its removal. -/
def staleSteps : List DataStep :=
  [.tables twoRecords [⟨.order, some [78, 84, 86]⟩, ⟨.profile, none⟩]
      [orderTimeDigest, profileDigest],
    .message [0x24, 0x4D, 0, 1, 5] (by decide) 0 5,
    .message [-7, 2, 0x24, 0x4D, 0, 1] (by decide) 0 6,
    .message [0x24, 0x4D, 1, 1, 65] (by decide) 0 5,
    .message [-7, 2, 0x24, 0x4D, 1, 1] (by decide) 0 6]

/-- The times of the events of a record. -/
def eventTimes (outcome : Except TranscoderError (List (RecordEvent Unit))) :
    List (Option (EventValue Unit)) :=
  match outcome with
  | .ok events => events.map fun event => event.data.lookup "time"
  | .error _ => []

/-- The removal of the order has the time of the order, and with the removal of the profile its
description is read, which has been freed. -/
theorem not_recordIsolation_staleSteps :
    ∃ p q r s, (DataContext.run unitPlatform staleSteps).records.passed = [p, q, r, s] ∧
      eventTimes q.outcome = [some (.long 5000)] ∧
      eventTimes (isolatedOutcome unitPlatform q.own) = [some (.long 0)] ∧
      ¬ Isolated unitPlatform q ∧
      s.dereferenced = [0] ∧ s.freed = 1 ∧ ¬ Isolated unitPlatform s := by
  have hpassed : (DataContext.run unitPlatform staleSteps).records.passed.map (fun p =>
      (eventTimes p.outcome, eventTimes (isolatedOutcome unitPlatform p.own), p.dereferenced,
        p.freed)) =
      [([some (.long 5000)], [some (.long 5000)], [], 0),
        ([some (.long 5000)], [some (.long 0)], [], 0), ([none], [none], [0], 0),
        ([none], [none], [0], 1)] := by decide +kernel
  obtain ⟨p, rest, heq, hp, hpassed⟩ := List.map_eq_cons_iff.mp hpassed
  obtain ⟨q, rest, rfl, hq, hpassed⟩ := List.map_eq_cons_iff.mp hpassed
  obtain ⟨r, rest, rfl, hr, hpassed⟩ := List.map_eq_cons_iff.mp hpassed
  obtain ⟨s, rest, rfl, hs, hpassed⟩ := List.map_eq_cons_iff.mp hpassed
  obtain rfl := List.map_eq_nil_iff.mp hpassed
  simp only [Prod.mk.injEq] at hq hs
  obtain ⟨htimes, hisolated, -, -⟩ := hq
  obtain ⟨-, -, hdereferenced, hfreed⟩ := hs
  refine ⟨p, q, r, s, heq, htimes, hisolated, fun h => ?_, hdereferenced, hfreed, fun h => ?_⟩
  · rw [h.outcome, hisolated] at htimes
    exact absurd htimes (by decide)
  · have hlive := h.live 0 (by rw [hdereferenced]; exact List.mem_singleton_self 0)
    rw [hfreed] at hlive
    exact absurd hlive (by decide)

end DxFeed.ServerMessageProcessor
