import DxFeed.DataStructures.RecordInfo
import DxFeed.ServerMessageProcessor.RecordEvents

/-!
# The sources of order records

The source of an order is the suffix in the name of its record.  It goes from the name to the item
of the record, from there to the parameters of a data record, where a null pointer stands for an
empty suffix, and from there to the source of an event, by a copy that reads the suffix.

* `OrderName`: the names that records of orders and of spread orders are registered with;
* `recordOfItem`, `copySource`: the suffix as a parameter, and its copy;
* `isTranscoded_iff`: a data record is transcoded if and only if its name has a source.
-/

namespace DxFeed.RecordTranscoder

open Call RecordBuffers DataStructures ServerMessageProcessor Snapshot

variable {D : Type}

/-! ### Names -/

/-- A source as `dxf_set_order_source` and `dxf_add_order_source` accept it. -/
structure OrderSource where
  text : WString
  pos : 0 < text.length
  short : text.length < suffixSize
  noZero : 0 ∉ text

/-- The two kinds of records of orders. -/
inductive OrderKind
  | order
  | spreadOrder

def OrderKind.infoId : OrderKind → RecordInfoId
  | .order => .order
  | .spreadOrder => .spreadOrder

/-- The name of a record of orders, plain or with a source. -/
structure OrderName where
  kind : OrderKind
  source : Option OrderSource

def OrderName.text (name : OrderName) : WString :=
  defaultName name.kind.infoId ++
    match name.source with
    | none => []
    | some source => sourceSign :: source.text

/-! ### From the name to the item -/

theorem stringToRecordInfo_kind (kind : OrderKind) (rest : WString) :
    stringToRecordInfo (defaultName kind.infoId ++ rest) = some kind.infoId := by
  cases kind with
  | order => rfl
  | spreadOrder => rfl

/-- The suffix in the item of a name: the source, filled up with zeros. -/
def OrderName.suffix (name : OrderName) : WString :=
  match name.source with
  | none => []
  | some source => source.text

theorem suffix_noZero (name : OrderName) : 0 ∉ name.suffix := by
  cases hsource : name.source with
  | none => simp [OrderName.suffix, hsource]
  | some source => simpa [OrderName.suffix, hsource] using source.noZero

theorem length_suffix_lt (name : OrderName) : name.suffix.length < suffixSize := by
  cases hsource : name.source with
  | none => simp [OrderName.suffix, hsource, suffixSize]
  | some source => simpa [OrderName.suffix, hsource] using source.short

/-- The item of a name is made, and its suffix is the source. -/
theorem initRecordInfo_orderName (name : OrderName) :
    ∃ item, initRecordInfo name.text = .ok item ∧ item.infoId = name.kind.infoId ∧
      item.suffix = name.suffix ++ List.replicate (suffixSize - name.suffix.length) 0 := by
  obtain ⟨kind, source⟩ := name
  have hkind : kind.infoId = .order ∨ kind.infoId = .spreadOrder := by
    cases kind with
    | order => exact Or.inl rfl
    | spreadOrder => exact Or.inr rfl
  unfold initRecordInfo
  rw [OrderName.text, stringToRecordInfo_kind]
  simp only [List.drop_left]
  cases source with
  | none => exact ⟨_, rfl, rfl, rfl⟩
  | some source =>
      -- The copy has one character more than the source, and that is a zero like those behind it.
      have hcopy : copyStringLen (List.replicate suffixSize 0) source.text
          (source.text.length + 1) =
            some (source.text ++ List.replicate (suffixSize - source.text.length) 0) :=
        copyStringLen_zeros (Nat.le_succ _) source.short
      simp only [RecordInfoItem.cutSuffix, if_pos hkind, if_true, RecordInfoItem.copySuffix, hcopy]
      exact ⟨_, rfl, rfl, rfl⟩

/-! ### From the item to the event -/

/-- The type and the suffix in the parameters of a data record, as `dx_process_data_message` takes
them from an item.  Without a terminator the suffix would be read behind its end. -/
def recordOfItem (item : RecordInfoItem) : Option LocalRecord :=
  (arrayString item.suffix).map fun suffix =>
    ⟨item.infoId, if 0 < suffix.length then some suffix else none⟩

/-- The copy of a suffix to the source of an event, which is all zeros at first: the length of a null
pointer cannot be taken. -/
def copySource (suffix : Option WString) : Option (List UInt16) := do
  let suffix ← suffix
  copyStringLen (List.replicate suffixSize 0) suffix suffix.length

/-- The record of a name has a suffix if the name has a source. -/
theorem recordOfItem_orderName (name : OrderName) :
    ∃ item, initRecordInfo name.text = .ok item ∧
      recordOfItem item = some ⟨name.kind.infoId, name.source.map OrderSource.text⟩ := by
  obtain ⟨item, hitem, hid, hsuffix⟩ := initRecordInfo_orderName name
  refine ⟨item, hitem, ?_⟩
  rw [recordOfItem, hsuffix, arrayString_zeros (suffix_noZero name) (length_suffix_lt name), hid,
    Option.map_some]
  cases hsource : name.source with
  | none => simp [OrderName.suffix, hsource]
  | some source => simp [OrderName.suffix, hsource, source.pos]

/-- The copy of a source stays in the field, with zeros behind it. -/
theorem copySource_some (source : OrderSource) :
    ∃ cells, copySource (some source.text) = some cells ∧ arrayString cells = some source.text :=
  ⟨_, copyStringLen_zeros le_rfl source.short.le, arrayString_zeros source.noZero source.short⟩

variable (platform : Platform D) (symbol : Option WString) (flags : UInt32)
  (buffer : RecordBuffer D)

/-- A data record of a name is transcoded: the transcoder gets a suffix of at most four characters,
copies it to the source of an event, and passes the event on. -/
def IsTranscoded (name : WString) : Prop :=
  ∃ item record suffix cells event,
    initRecordInfo name = .ok item ∧ recordOfItem item = some record ∧
      record.suffix = some suffix ∧ suffix.length ≤ 4 ∧ copySource (some suffix) = some cells ∧
      (transcodeBuffer platform record symbol flags buffer).events = .ok [event] ∧
      event.data.head? = some ("source", .string (arrayString cells))

/-- With a suffix both transcoders pass on an event with this source. -/
theorem transcodeBuffer_suffix (kind : OrderKind) (suffix : WString) :
    ∃ event,
      (transcodeBuffer platform ⟨kind.infoId, some suffix⟩ symbol flags buffer).events =
          .ok [event] ∧
        event.data.head? = some ("source", .string (some suffix)) := by
  cases kind with
  | order => exact ⟨_, rfl, rfl⟩
  | spreadOrder => exact ⟨_, rfl, rfl⟩

/-- A data record is transcoded if and only if the name of its record has a source. -/
theorem isTranscoded_iff (name : OrderName) :
    IsTranscoded platform symbol flags buffer name.text ↔ name.source.isSome := by
  obtain ⟨item, hitem, hrecord⟩ := recordOfItem_orderName name
  constructor
  · rintro ⟨item', record, suffix, -, -, hitem', hrecord', hsuffix, -⟩
    cases hitem.symm.trans hitem'
    cases hrecord.symm.trans hrecord'
    cases hsource : name.source with
    | none => simp [hsource] at hsuffix
    | some source => rfl
  · intro hsome
    obtain ⟨source, hsource⟩ := Option.isSome_iff_exists.mp hsome
    rw [hsource, Option.map_some] at hrecord
    obtain ⟨cells, hcopy, hcells⟩ := copySource_some source
    obtain ⟨event, hevent, hhead⟩ :=
      transcodeBuffer_suffix platform symbol flags buffer name.kind source.text
    exact ⟨item, _, _, cells, event, hitem, hrecord, rfl, Nat.le_of_lt_succ source.short, hcopy,
      hevent, hhead.trans (by rw [hcells])⟩

/-- No data record of the plain name of orders is transcoded. -/
theorem not_isTranscoded_plain :
    ¬ ∀ name : OrderName, IsTranscoded unitPlatform none 0 RecordBuffer.zero name.text := by
  intro h
  obtain ⟨item, record, suffix, -, -, hitem, hrecord, hsuffix, -⟩ := h ⟨.order, none⟩
  obtain ⟨item', hitem', hrecord'⟩ := recordOfItem_orderName ⟨.order, none⟩
  cases hitem.symm.trans hitem'
  cases hrecord.symm.trans hrecord'
  simp at hsuffix

end DxFeed.RecordTranscoder
