import DxFeed.BufferedIO.Compact
import DxFeed.ServerMessageProcessor.RecordEvents

/-!
# Which record does a removal remove?

The fields of a removal come from one number, the QD time of the record.

* `qdtime`: the number of the time fields;
* `Addresses`: the time field, the snapshot key and the event indices of two buffers are equal;
* `removalAddresses_iff`: the removal of a record has those of the record, unless its QD time is a
  negative number of two bytes.
-/

namespace DxFeed.ServerMessageProcessor

open Call BufferedIO FixedWidth PrefixCode RecordBuffers RecordTranscoder Snapshot

variable {D : Type}

/-! ### QD times -/

/-- The QD time of two time fields. -/
def qdtime (high low : Int32) : Int64 :=
  Int64.ofInt (high.toInt * 2 ^ 32 + low.toUInt32.toNat)

theorem toInt_qdtime (high low : Int32) :
    (qdtime high low).toInt = high.toInt * 2 ^ 32 + low.toUInt32.toNat := by
  have hmin := high.le_toInt
  have hmax := high.toInt_lt
  have hlow := low.toUInt32.toNat_lt
  have hsize : Int64.size = 2 ^ 64 := rfl
  rw [qdtime, Int64.toInt_ofInt, hsize, Int.bmod_eq_of_le] <;> omega

theorem toNat_toUInt64 (n : Int64) : (n.toUInt64.toNat : ℤ) = n.toInt % 2 ^ 64 := by
  show (n.toBitVec.toNat : ℤ) = n.toBitVec.toInt % 2 ^ 64
  have h := n.toBitVec.isLt
  rw [BitVec.toInt_eq_toNat_cond]
  split_ifs <;> omega

theorem toNat_toUInt32 (n : Int32) : (n.toUInt32.toNat : ℤ) = n.toInt % 2 ^ 32 := by
  show (n.toBitVec.toNat : ℤ) = n.toBitVec.toInt % 2 ^ 32
  have h := n.toBitVec.isLt
  rw [BitVec.toInt_eq_toNat_cond]
  split_ifs <;> omega

/-- The low half of a word. -/
theorem toNat_toInt32 (n : UInt64) : n.toInt64.toInt32.toUInt32.toNat = n.toNat % 2 ^ 32 := by
  show (n.toBitVec.signExtend 32).toNat = n.toBitVec.toNat % 2 ^ 32
  rw [BitVec.signExtend_eq_setWidth_of_le _ (by omega), BitVec.toNat_setWidth]

theorem toNat_qdtimeHigh (n : Int64) :
    ((qdtimeHigh n).toUInt32.toNat : ℤ) = n.toInt / 2 ^ 32 % 2 ^ 32 := by
  have hword := toNat_toUInt64 n
  have hshift : (n.toUInt64 >>> 32).toNat = n.toUInt64.toNat / 2 ^ 32 := by
    rw [UInt64.toNat_shiftRight]
    exact Nat.shiftRight_eq_div_pow _ 32
  rw [qdtimeHigh, toNat_toInt32, hshift]
  omega

theorem toNat_qdtimeLow (n : Int64) : ((qdtimeLow n).toUInt32.toNat : ℤ) = n.toInt % 2 ^ 32 := by
  have hword := toNat_toUInt64 n
  have hmask : (n.toUInt64 &&& 0xFFFFFFFF).toNat = n.toUInt64.toNat % 2 ^ 32 := by
    rw [UInt64.toNat_and]
    exact Nat.and_two_pow_sub_one_eq_mod _ 32
  rw [qdtimeLow, toNat_toInt32, hmask]
  omega

theorem toUInt32_toNat_inj {m n : Int32} (h : m.toUInt32.toNat = n.toUInt32.toNat) : m = n := by
  have hword : m.toUInt32 = n.toUInt32 := UInt32.toNat_inj.mp h
  rw [← Int32.toInt32_toUInt32 m, hword, Int32.toInt32_toUInt32]

theorem qdtimeHigh_qdtime (high low : Int32) : qdtimeHigh (qdtime high low) = high := by
  have hhigh := toNat_qdtimeHigh (qdtime high low)
  have hlow := low.toUInt32.toNat_lt
  have hword := toNat_toUInt32 high
  rw [toInt_qdtime] at hhigh
  exact toUInt32_toNat_inj (by omega)

theorem qdtimeLow_qdtime (high low : Int32) : qdtimeLow (qdtime high low) = low := by
  have hmod := toNat_qdtimeLow (qdtime high low)
  have hlow := low.toUInt32.toNat_lt
  rw [toInt_qdtime] at hmod
  exact toUInt32_toNat_inj (by omega)

/-! ### Keys of records -/

/-- The records with QD time fields. -/
def IsQdTimed (info : RecordInfoId) : Prop := ∃ m ∈ members info, m.time = .secondTimeInt

instance (info : RecordInfoId) : Decidable (IsQdTimed info) :=
  inferInstanceAs (Decidable (∃ m ∈ members info, m.time = .secondTimeInt))

/-- The indices of the events that a transcoder makes. -/
def eventIndices (t : Transcoding D) : List (Option (EventValue D)) :=
  match t.events with
  | .ok events => events.map fun event => event.data.lookup "index"
  | .error _ => []

/-- A removal with the buffer `buffer'` addresses the record with the buffer `buffer`. -/
structure Addresses (platform : Platform D) (record : LocalRecord) (symbol : Option WString)
    (flags flags' : UInt32) (buffer buffer' : RecordBuffer D) : Prop where
  timeIntField : (eventParamsOf platform record symbol flags buffer).timeIntField =
    (eventParamsOf platform record symbol flags' buffer').timeIntField
  snapshotKey : (eventParamsOf platform record symbol flags buffer).snapshotKey =
    (eventParamsOf platform record symbol flags' buffer').snapshotKey
  indices : eventIndices (transcodeBuffer platform record symbol flags buffer) =
    eventIndices (transcodeBuffer platform record symbol flags' buffer')

/-- The time fields of two buffers agree. -/
def AgreeOnTime (info : RecordInfoId) (buffer buffer' : RecordBuffer D) : Prop :=
  ∀ m ∈ members info, m.time ≠ .common → (buffer m.name).erase = (buffer' m.name).erase

theorem bits_erase (value : Value D) : value.erase.bits = value.bits := by
  cases value <;> rfl

theorem timeBits_congr {info : RecordInfoId} {buffer buffer' : RecordBuffer D} {time : FieldTime}
    (h : AgreeOnTime info buffer buffer') (htime : time ≠ .common) :
    timeBits info time buffer = timeBits info time buffer' := by
  unfold timeBits
  refine List.foldl_ext _ _ _ fun bits m hm => ?_
  split_ifs with hm'
  · have herase := h m hm (by rw [hm']; exact htime)
    rw [← bits_erase (buffer m.name), herase, bits_erase]
  · rfl

theorem int_congr {buffer buffer' : RecordBuffer D} {name : String}
    (h : (buffer name).erase = (buffer' name).erase) : buffer.int name = buffer'.int name := by
  rw [← RecordBuffer.int_erase, RecordBuffer.int, RecordBuffer.erase, h]
  exact RecordBuffer.int_erase buffer' name

theorem char_congr {buffer buffer' : RecordBuffer D} {name : String}
    (h : (buffer name).erase = (buffer' name).erase) : buffer.char name = buffer'.char name := by
  rw [← RecordBuffer.char_erase, RecordBuffer.char, RecordBuffer.erase, h]
  exact RecordBuffer.char_erase buffer' name

theorem lookup_eventHeader (params : EventParams) (buffer : RecordBuffer D) (index : Int64)
    (rest : EventFields D) :
    (withRemoval params (eventHeader params buffer index) rest).lookup "index" =
      some (.long index) := by
  unfold withRemoval
  split_ifs <;> rfl

theorem lookup_marketMakerOrder (params : RecordParams) (event : Event D (OrderFields D)) :
    (marketMakerOrder params event).data.lookup "index" =
      some (.long (Int64.ofInt event.data.index)) := rfl

/-- The index of an order of a market maker comes from its exchange and its id. -/
theorem orderFormMmIndex_congr (platform : Platform D) (source : ℕ)
    {buffer buffer' : RecordBuffer D} (hexchange : buffer.char "mm_exchange" =
      buffer'.char "mm_exchange") (hid : buffer.int "mm_id" = buffer'.int "mm_id") :
    orderFormMmIndex source (MarketMaker.ofBuffer platform buffer) =
      orderFormMmIndex source (MarketMaker.ofBuffer platform buffer') := by
  simp only [orderFormMmIndex, MarketMaker.ofBuffer, hexchange, hid]

theorem timeIndex_congr {buffer buffer' : RecordBuffer D}
    (htime : buffer.int "time" = buffer'.int "time")
    (hsequence : buffer.int "sequence" = buffer'.int "sequence") :
    timeIndex buffer = timeIndex buffer' := by
  rw [timeIndex, timeIndex, htime, hsequence]

/-- The events of a record with QD time fields have indices that the time fields determine. -/
theorem eventIndices_congr (platform : Platform D) (record : LocalRecord)
    (hinfo : IsQdTimed record.infoId) (symbol : Option WString) (flags flags' : UInt32)
    {buffer buffer' : RecordBuffer D} (h : AgreeOnTime record.infoId buffer buffer') :
    eventIndices (transcodeBuffer platform record symbol flags buffer) =
      eventIndices (transcodeBuffer platform record symbol flags' buffer') := by
  obtain ⟨info, suffix⟩ := record
  dsimp only at hinfo h
  unfold transcodeBuffer transcodeRecordData
  dsimp only
  cases info with
  | marketMaker =>
      have hexchange : buffer.char "mm_exchange" = buffer'.char "mm_exchange" :=
        char_congr (h (Member.char "mm_exchange").first (by decide) (by decide))
      have hid : buffer.int "mm_id" = buffer'.int "mm_id" :=
        int_congr (h (Member.int "mm_id").second (by decide) (by decide))
      simp only [eventIndices, transcoder, marketMakerRecordTranscoder, marketMakerTranscoder,
        List.map_cons, List.map_nil, lookup_marketMakerOrder, transcodeMarketMakerToOrderBid,
        transcodeMarketMakerToOrderAsk, transcodeMarketMakerToOrder_index,
        orderFormMmIndex_congr platform _ hexchange hid]
  | order =>
      have hindex : buffer.int "index" = buffer'.int "index" :=
        int_congr (h (Member.int "index").second (by decide) (by decide))
      cases suffix with
      | none => simp [eventIndices, transcoder, orderTranscoder, orderTranscoderImpl]
      | some suffix =>
          simp [eventIndices, transcoder, orderTranscoder, orderTranscoderImpl, recordEvent, List.lookup,
            lookup_eventHeader, hindex]
  | spreadOrder =>
      have hindex : buffer.int "index" = buffer'.int "index" :=
        int_congr (h (Member.int "index").second (by decide) (by decide))
      cases suffix with
      | none => simp [eventIndices, transcoder, spreadOrderTranscoder, orderTranscoderImpl]
      | some suffix =>
          simp [eventIndices, transcoder, spreadOrderTranscoder, orderTranscoderImpl, recordEvent,
            List.lookup, lookup_eventHeader, hindex]
  | timeAndSale =>
      have hindex := timeIndex_congr
        (int_congr (h (Member.int "time").first (by decide) (by decide)))
        (int_congr (h (Member.int "sequence").second (by decide) (by decide)))
      simp [eventIndices, transcoder, timeAndSaleTranscoder, recordEvent, lookup_eventHeader, hindex]
  | candle =>
      have hindex := timeIndex_congr
        (int_congr (h (Member.int "time").first (by decide) (by decide)))
        (int_congr (h (Member.int "sequence").second (by decide) (by decide)))
      simp [eventIndices, transcoder, candleTranscoder, recordEvent, lookup_eventHeader, hindex]
  | greeks =>
      have hindex := timeIndex_congr
        (int_congr (h (Member.int "time").first (by decide) (by decide)))
        (int_congr (h (Member.int "sequence").second (by decide) (by decide)))
      simp [eventIndices, transcoder, greeksTranscoder, recordEvent, lookup_eventHeader, hindex]
  | series =>
      have hindex : buffer.int "index" = buffer'.int "index" :=
        int_congr (h (Member.int "index").second (by decide) (by decide))
      simp [eventIndices, transcoder, seriesTranscoder, recordEvent, lookup_eventHeader, hindex]
  | _ => exact absurd hinfo (by decide)

/-- A removal whose time fields are those of a record addresses the record. -/
theorem addresses_of_agree (platform : Platform D) (record : LocalRecord)
    (hinfo : IsQdTimed record.infoId) (symbol : Option WString) (flags flags' : UInt32)
    {buffer buffer' : RecordBuffer D} (h : AgreeOnTime record.infoId buffer buffer') :
    Addresses platform record symbol flags flags' buffer buffer' where
  timeIntField := by
    simp only [eventParamsOf, timeIntField]
    rw [timeBits_congr h (by decide), timeBits_congr h (by decide)]
  snapshotKey := rfl
  indices := eventIndices_congr platform record hinfo symbol flags flags' h

/-- The second time field is an `int`, and the word of the getters has its bits. -/
theorem exists_secondTime (D : Type) {info : RecordInfoId} (hinfo : IsQdTimed info) :
    ∃ m ∈ members info, m.time = .secondTimeInt ∧ m.type = .int ∧
      ∀ buffer : RecordBuffer D, timeBits info .secondTimeInt buffer = (buffer m.name).bits := by
  cases info with
  | marketMaker => exact ⟨(Member.int "mm_id").second, by decide, rfl, rfl, fun _ => rfl⟩
  | order | spreadOrder | series =>
      exact ⟨(Member.int "index").second, by decide, rfl, rfl, fun _ => rfl⟩
  | timeAndSale | candle | greeks =>
      exact ⟨(Member.int "sequence").second, by decide, rfl, rfl, fun _ => rfl⟩
  | _ => exact absurd hinfo (by decide)

theorem toNat_bits_int (n : Int32) : (Value.int n : Value D).bits.toNat = n.toUInt32.toNat :=
  UInt32.toNat_toUInt64 _

/-- The low half of the time field is the second time field. -/
theorem timeIntField_mod (info : RecordInfoId) (buffer : RecordBuffer D) :
    (timeIntField info buffer).toNat % 2 ^ 32 =
      (timeBits info .secondTimeInt buffer).toNat % 2 ^ 32 := by
  have hmask : (timeBits info .secondTimeInt buffer &&& 0xFFFFFFFF).toNat =
      (timeBits info .secondTimeInt buffer).toNat % 2 ^ 32 := by
    rw [UInt64.toNat_and]
    exact Nat.and_two_pow_sub_one_eq_mod _ 32
  have hshift : (timeBits info .firstTimeInt buffer <<< 32).toNat % 2 ^ 32 = 0 := by
    rw [UInt64.toNat_shiftLeft, Nat.shiftLeft_eq]
    show (timeBits info .firstTimeInt buffer).toNat * 2 ^ 32 % 2 ^ 64 % 2 ^ 32 = 0
    omega
  rw [timeIntField, UInt64.toNat_or, Nat.or_mod_two_pow, hshift, hmask, Nat.zero_or, Nat.mod_mod]

/-! ### Removals -/

/-- In front of the input a digest describes a record with the time fields `high` and `low`: these
are the last values on the wire for the members of time. -/
def CarriesTime (platform : Platform D) (info : RecordInfoId) (digest : RecordDigest)
    (input : InputContext) (high low : Int32) : Prop :=
  ∃ values out, exec (wireFields platform info digest.elements) input = (.ok values, out) ∧
    ∀ m ∈ members info, m.time ≠ .common → lastValue platform info m values =
      (timeHalf high low m.time).map fun half => m.type.read platform (.int half)

/-- The record with the buffer `buffer` is removed with the bytes in the input: they are read, from
whatever an earlier record has left, and the removal addresses the record. -/
def RemovalAddresses (platform : Platform D) (record : LocalRecord) (symbol : Option WString)
    (flags flags' : UInt32) (digest : RecordDigest) (buffer : RecordBuffer D)
    (input : InputContext) (context : RecordsContext D) : Prop :=
  ∃ out, exec (readRecords platform record.infoId digest flags') (input, context) = (.ok (), out) ∧
    Addresses platform record symbol flags flags' buffer (out.2.buffers record.infoId)

/-- The members of time have the values of a QD time after its removal was read. -/
theorem erase_removal {platform : Platform D} {info : RecordInfoId} {m : Member}
    {high low : Int32} {context context' : RecordsContext D} (hm : m ∈ members info)
    (hstored : Stored platform info (qdtimeValues info high low (members info)) context context')
    {half : Int32} (hhalf : timeHalf high low m.time = some half) :
    (context'.buffers info m.name).erase = (m.type.read platform (.int half)).erase := by
  have hlast : lastValue platform info m _ = _ := lastValue_qdtimeValues hm high low fun _ h => h
  rw [if_pos hm, hhalf, Option.map_some] at hlast
  exact (hstored.value m hm _ hlast).1

/-- The members of time have the values of the record after it was read. -/
theorem erase_ordinary {platform : Platform D} {info : RecordInfoId} {digest : RecordDigest}
    {input : InputContext} {context : RecordsContext D} {out : InputContext × RecordsContext D}
    {high low : Int32} (hcarries : CarriesTime platform info digest input high low)
    (hread : exec (readFields platform info digest.elements) (input, context) = (.ok (), out))
    {m : Member} (hm : m ∈ members info) {half : Int32}
    (hhalf : timeHalf high low m.time = some half) :
    (out.2.buffers info m.name).erase = (m.type.read platform (.int half)).erase := by
  obtain ⟨values, out', hwire, hlast⟩ := hcarries
  obtain ⟨values', hwire', hstore⟩ := exec_readFields_iff.mp hread
  obtain ⟨hvalues, -⟩ := Prod.mk.inj (hwire.symm.trans hwire')
  obtain rfl := Except.ok.inj hvalues
  have hsome := hlast m hm (timeHalf_ne_none hhalf)
  rw [hhalf, Option.map_some] at hsome
  exact ((stored_storeValues hstore).value m hm _ hsome).1

theorem exists_timeHalf (high low : Int32) {time : FieldTime} (h : time ≠ .common) :
    ∃ half, timeHalf high low time = some half := by
  cases time with
  | common => exact absurd rfl h
  | firstTimeInt => exact ⟨high, rfl⟩
  | secondTimeInt => exact ⟨low, rfl⟩

/-- What is read for the bytes of a QD time. -/
theorem exec_readCompactLong_qdtime (limit : ℕ) {high low : Int32} {bs : List Int8}
    (hbs : bs.map octet = encode (qdtime high low).toInt) {pre post : List Int8}
    (hlen : (pre ++ (bs ++ post)).length ≤ INT_MAX) :
    ∃ n : Int64, exec readCompactLong (inputAt pre (bs ++ post) limit) =
        (.ok n, inputAt (pre ++ bs) post limit) ∧
      n.toInt = if -0x2000 ≤ (qdtime high low).toInt ∧ (qdtime high low).toInt < -0x40 then
        (qdtime high low).toInt + 0x4000 else (qdtime high low).toInt := by
  obtain ⟨n, hreads, hn⟩ := reads_written hbs
  refine ⟨n, hreads pre post limit hlen, ?_⟩
  have htwo : sizeClass (qdtime high low).toInt = 1 ↔
      (-0x2000 ≤ (qdtime high low).toInt ∧ (qdtime high low).toInt < 0x2000) ∧
        ¬ (-0x40 ≤ (qdtime high low).toInt ∧ (qdtime high low).toInt < 0x40) :=
    sizeClass_eq_one_iff
  rw [hn]
  split_ifs with hclass hneg hneg
  · omega
  · have hrange := htwo.mp hclass
    omega
  · exact absurd (htwo.mpr (by omega)) hclass
  · rfl

/-- A QD time is misread if its high half is -1 and its low half is in a certain range. -/
theorem misread_iff (high low : Int32) :
    (-0x2000 ≤ (qdtime high low).toInt ∧ (qdtime high low).toInt < -0x40) ↔
      high = -1 ∧ -0x2000 ≤ low.toInt ∧ low.toInt < -0x40 := by
  have hword := toNat_toUInt32 low
  have hlow := low.toUInt32.toNat_lt
  have hmin := low.le_toInt
  have hmax := low.toInt_lt
  have hone : high = -1 ↔ high.toInt = -1 := by
    rw [← Int32.toInt_inj]
    rfl
  rw [toInt_qdtime, hone]
  omega

section Removal

variable (platform : Platform D) (record : LocalRecord) (hinfo : IsQdTimed record.infoId)
  {symbol : Option WString} {flags flags' : UInt32}
  (hflags : isFlagSet flags.toNat EventFlag.removeEvent = false)
  (hflags' : isFlagSet flags'.toNat EventFlag.removeEvent = true) {digest : RecordDigest}
  {input : InputContext} {context : RecordsContext D} {out : InputContext × RecordsContext D}
  (hread : exec (readRecords platform record.infoId digest flags) (input, context) = (.ok (), out))
  {high low : Int32} (hcarries : CarriesTime platform record.infoId digest input high low)
  {bs : List Int8} (hbs : bs.map octet = encode (qdtime high low).toInt) {pre post : List Int8}
  {limit : ℕ} (hlen : (pre ++ (bs ++ post)).length ≤ INT_MAX) {context' : RecordsContext D}

include hflags hread in
theorem exec_readFields_of_flags :
    exec (readFields platform record.infoId digest.elements) (input, context) = (.ok (), out) := by
  rwa [readRecords, hflags, if_neg Bool.false_ne_true] at hread

include hinfo hflags hflags' hread hcarries hbs hlen

/-- A QD time that is misread has another low half. -/
theorem not_removalAddresses
    (hmis : -0x2000 ≤ (qdtime high low).toInt ∧ (qdtime high low).toInt < -0x40) :
    ¬ RemovalAddresses platform record symbol flags flags' digest (out.2.buffers record.infoId)
        (inputAt pre (bs ++ post) limit) context' := by
  rintro ⟨out', hread', haddresses⟩
  obtain ⟨n, hexec, hn⟩ := exec_readCompactLong_qdtime limit hbs hlen
  obtain ⟨removed, hremoval, hstored⟩ :=
    exec_readQdtimeOnRemoveEvent platform record.infoId context' hexec
  have hfields := exec_readFields_of_flags platform record hflags hread
  rw [readRecords, hflags', if_pos rfl, hremoval] at hread'
  obtain rfl := (Prod.mk.inj hread').2
  obtain ⟨m, hm, htime, htype, hbits⟩ := exists_secondTime D hinfo
  have hord : (out.2.buffers record.infoId m.name).erase = (Value.int low).erase :=
    (erase_ordinary hcarries hfields hm (by rw [htime]; rfl)).trans (by rw [htype]; rfl)
  have hrem : (removed.buffers record.infoId m.name).erase = (Value.int (qdtimeLow n)).erase :=
    (erase_removal hm hstored (by rw [htime]; rfl)).trans (by rw [htype]; rfl)
  have hlows := congrArg (· % 2 ^ 32) haddresses.timeIntField
  simp only [eventParamsOf, timeIntField_mod, hbits] at hlows
  rw [← bits_erase, hord, ← bits_erase (removed.buffers _ _), hrem, bits_erase, bits_erase,
    toNat_bits_int, toNat_bits_int] at hlows
  have hqdtime := toInt_qdtime high low
  have hlow := toNat_qdtimeLow n
  rw [hn, if_pos hmis] at hlow
  omega

/-- A QD time that is read as it was written gives the time fields of the record. -/
theorem removalAddresses_of_read
    (hmis : ¬ (-0x2000 ≤ (qdtime high low).toInt ∧ (qdtime high low).toInt < -0x40)) :
    RemovalAddresses platform record symbol flags flags' digest (out.2.buffers record.infoId)
      (inputAt pre (bs ++ post) limit) context' := by
  obtain ⟨n, hexec, hn⟩ := exec_readCompactLong_qdtime limit hbs hlen
  obtain ⟨removed, hremoval, hstored⟩ :=
    exec_readQdtimeOnRemoveEvent platform record.infoId context' hexec
  have hfields := exec_readFields_of_flags platform record hflags hread
  rw [if_neg hmis] at hn
  obtain rfl : n = qdtime high low := Int64.toInt_inj.mp hn
  rw [qdtimeHigh_qdtime, qdtimeLow_qdtime] at hstored
  refine ⟨_, by rw [readRecords, hflags', if_pos rfl, hremoval],
    addresses_of_agree platform record hinfo symbol flags flags' fun m hm htime => ?_⟩
  obtain ⟨half, hhalf⟩ := exists_timeHalf high low htime
  rw [erase_ordinary hcarries hfields hm hhalf, erase_removal hm hstored hhalf]

end Removal

/-- The removal of a record addresses the record, whatever was in its buffer before, if and only if
its QD time is not read as another number. -/
theorem removalAddresses_iff (platform : Platform D) (record : LocalRecord)
    (hinfo : IsQdTimed record.infoId) (symbol : Option WString) {flags flags' : UInt32}
    (hflags : isFlagSet flags.toNat EventFlag.removeEvent = false)
    (hflags' : isFlagSet flags'.toNat EventFlag.removeEvent = true) (digest : RecordDigest)
    {input : InputContext} {context : RecordsContext D} {out : InputContext × RecordsContext D}
    (hread : exec (readRecords platform record.infoId digest flags) (input, context) =
      (.ok (), out)) {high low : Int32}
    (hcarries : CarriesTime platform record.infoId digest input high low) {bs : List Int8}
    (hbs : bs.map octet = encode (qdtime high low).toInt) {pre post : List Int8} {limit : ℕ}
    (hlen : (pre ++ (bs ++ post)).length ≤ INT_MAX) (context' : RecordsContext D) :
    RemovalAddresses platform record symbol flags flags' digest (out.2.buffers record.infoId)
        (inputAt pre (bs ++ post) limit) context' ↔
      ¬ (high = -1 ∧ -0x2000 ≤ low.toInt ∧ low.toInt < -0x40) := by
  rw [← misread_iff]
  constructor
  · intro haddresses hmis
    exact not_removalAddresses platform record hinfo hflags hflags' hread hcarries hbs hlen hmis haddresses
  · exact removalAddresses_of_read platform record hinfo hflags hflags' hread hcarries hbs hlen

/-! ### A time and sale -/

/-- A digest of a time and sale with the time and the sequence. -/
def timeAndSaleDigest : RecordDigest where
  elements :=
    [⟨fidCompactInt ||| fidFlagTimeSeconds, fidCompactInt ||| fidFlagTimeSeconds,
        some (setterName .timeAndSale (Member.int "time").first), none⟩,
      ⟨fidCompactInt ||| fidFlagSequence, fidCompactInt ||| fidFlagSequence,
        some (setterName .timeAndSale (Member.int "sequence").second), none⟩]
  inSyncWithServer := true

/-- A time and sale of two compact numbers is read, and it carries them. -/
theorem carriesTime_timeAndSale {bs : List Int8} {high low : Int32} {input : InputContext}
    (hwire : exec (wireFields unitPlatform .timeAndSale timeAndSaleDigest.elements) (inputAt [] bs 0) =
      (.ok (timeAndSaleDigest.elements.zip [.int high, .int low]), input)) :
    CarriesTime unitPlatform .timeAndSale timeAndSaleDigest (inputAt [] bs 0) high low ∧
      ∃ context, exec (readRecords unitPlatform .timeAndSale timeAndSaleDigest 0)
        (inputAt [] bs 0, .init) = (.ok (), (input, context)) := by
  have htwo : ∀ m ∈ members .timeAndSale, m.time ≠ .common →
      m = (Member.int "time").first ∨ m = (Member.int "sequence").second := by decide
  have hne : setterName .timeAndSale (Member.int "sequence").second ≠
      setterName .timeAndSale (Member.int "time").first := by decide
  constructor
  · refine ⟨_, input, hwire, fun m hm htime => ?_⟩
    rcases htwo m hm htime with rfl | rfl
    · simp only [timeAndSaleDigest, List.zip_cons_cons, List.zip_nil_right, lastValue,
        Option.some_inj, hne, if_false, if_true]
      rfl
    · simp only [timeAndSaleDigest, List.zip_cons_cons, List.zip_nil_right, lastValue, if_true]
      rfl
  · have hstorable : ∀ p ∈ timeAndSaleDigest.elements.zip [Value.int high, Value.int low],
        Storable unitPlatform .timeAndSale p.1 p.2 := by
      intro p hp
      simp only [timeAndSaleDigest, List.zip_cons_cons, List.zip_nil_right, List.mem_cons,
        List.not_mem_nil, or_false] at hp
      rcases hp with rfl | rfl
      · exact storable_of_load (m := (Member.int "time").first)
          (t := fidCompactInt ||| fidFlagTimeSeconds) (by decide) rfl rfl (by decide) rfl
      · exact storable_of_load (m := (Member.int "sequence").second)
          (t := fidCompactInt ||| fidFlagSequence) (by decide) rfl rfl (by decide) rfl
    obtain ⟨context, hstore⟩ := exists_storeValues hstorable .init
    exact ⟨context, exec_readFields_iff.mpr ⟨_, hwire, hstore⟩⟩

/-- The removal of a time and sale with the time 1 and the sequence 2. -/
theorem removalAddresses_timeAndSale :
    ∃ out, exec (readRecords unitPlatform .timeAndSale timeAndSaleDigest 0)
        (inputAt [] [1, 2] 0, .init) = (.ok (), out) ∧
      (RemovalAddresses unitPlatform ⟨.timeAndSale, none⟩ (some []) 0 2 timeAndSaleDigest
          (out.2.buffers .timeAndSale) (inputAt [7] ([-15, 0, 0, 0, 2] ++ [9]) 0) out.2 ↔
        ¬ ((1 : Int32) = -1 ∧ -0x2000 ≤ (2 : Int32).toInt ∧ (2 : Int32).toInt < -0x40)) := by
  have hwire : exec (wireFields unitPlatform .timeAndSale timeAndSaleDigest.elements) (inputAt [] [1, 2] 0) =
      (.ok (timeAndSaleDigest.elements.zip [.int 1, .int 2]), inputAt [1, 2] [] 0) := by decide
  obtain ⟨hcarries, context, hread⟩ := carriesTime_timeAndSale hwire
  exact ⟨_, hread, removalAddresses_iff unitPlatform ⟨.timeAndSale, none⟩ (by decide) (some [])
    (by decide) (by decide) timeAndSaleDigest hread hcarries (by decide) (by decide) context⟩

/-- The removal of a time and sale with the time -1 and the sequence -65 addresses another one. -/
theorem not_removalAddresses_timeAndSale :
    ∃ out, exec (readRecords unitPlatform .timeAndSale timeAndSaleDigest 0)
        (inputAt [] [127, -65, -65] 0, .init) = (.ok (), out) ∧
      CarriesTime unitPlatform .timeAndSale timeAndSaleDigest (inputAt [] [127, -65, -65] 0)
        (-1) (-65) ∧
      [-65, -65].map octet = encode (qdtime (-1) (-65)).toInt ∧
      ¬ RemovalAddresses unitPlatform ⟨.timeAndSale, none⟩ (some []) 0 2 timeAndSaleDigest
        (out.2.buffers .timeAndSale) (inputAt [] ([-65, -65] ++ []) 0) .init := by
  have hwire : exec (wireFields unitPlatform .timeAndSale timeAndSaleDigest.elements)
        (inputAt [] [127, -65, -65] 0) =
      (.ok (timeAndSaleDigest.elements.zip [.int (-1), .int (-65)]),
        inputAt [127, -65, -65] [] 0) := by decide
  obtain ⟨hcarries, context, hread⟩ := carriesTime_timeAndSale hwire
  have hencode : [-65, -65].map octet = encode (qdtime (-1) (-65)).toInt := by decide
  have htimed : IsQdTimed .timeAndSale := by decide
  have hmis : -0x2000 ≤ (qdtime (-1) (-65)).toInt ∧ (qdtime (-1) (-65)).toInt < -0x40 := by decide
  have hflags : isFlagSet (0 : UInt32).toNat EventFlag.removeEvent = false := by decide
  have hflags' : isFlagSet (2 : UInt32).toNat EventFlag.removeEvent = true := by decide
  have hlen : ([] ++ ([-65, -65] ++ ([] : List Int8))).length ≤ INT_MAX := by decide
  exact ⟨_, hread, hcarries, hencode,
    not_removalAddresses unitPlatform ⟨.timeAndSale, none⟩ htimed hflags hflags' hread hcarries
      hencode hlen hmis⟩

end DxFeed.ServerMessageProcessor
