import DxFeed.ServerMessageProcessor.RecordDigests
import DxFeed.ServerMessageProcessor.RecordReading

/-!
# What setters are called with

The branch of `dx_read_records` that reads a field depends on the type that the server describes,
and only in part on the local type.  The setter of the field reads a variable of a fixed C type.

* `CType`: the C types of the variables, and those that setters read;
* `handedType`: the type of the variable that a setter is called with;
* `Agrees`: both types have a long representation or neither, and both are strings or neither;
* `handsSetterType_iff`: a setter gets a variable of its type if and only if the types agree.
-/

namespace DxFeed.ServerMessageProcessor

open Call BufferedIO RecordBuffers

/-! ### C types -/

/-- The C types of the variables that fields are read into. -/
inductive CType where
  | byte
  | char
  | short
  | int
  | long
  | double
  | string
  | byteArray
  deriving DecidableEq

variable {D : Type}

/-- The type of the variable that holds a value. -/
def valueType : Value D → Option CType
  | .zero | .unspecified => none
  | .byte _ => some .byte
  | .char _ => some .char
  | .short _ => some .short
  | .int _ => some .int
  | .long _ => some .long
  | .double _ => some .double
  | .string _ => some .string
  | .byteArray _ => some .byteArray

/-- `field_type` of the setter of a member. -/
def setterType : MemberType → CType
  | .char => .char
  | .int => .int
  | .long => .long
  | .double => .double
  | .string => .string
  | .byteArray => .byteArray
  | .intToLong => .int

/-- A number of 64 bits. -/
def IsLong (representation : Int32) : Prop :=
  representation = fidFlagLong ∨ representation = fidFlagTimeMillis

instance (representation : Int32) : Decidable (IsLong representation) :=
  inferInstanceAs (Decidable (_ ∨ _))

/-- The variable for a compact number. -/
def compactType (representation localRepresentation : Int32) : CType :=
  if IsLong representation then .long
  else if IsDecimal localRepresentation then .double
  else .int

/-- The variable for a number of a fixed width. -/
def fixedType (representation : Int32) (plain : CType) : CType :=
  if IsDecimal representation then .double else plain

/-- The variable that a field is read into; there is none for a default value and for a
serialization that is not supported. -/
def handedType (type localType : Int32) : Option CType :=
  let serialization := type &&& fidMaskSerialization
  let representation := type &&& fidMaskRepresentation
  if serialization = fidVoid then none
  else if serialization = fidByte then some (fixedType representation .byte)
  else if serialization = fidUtfChar then some .char
  else if serialization = fidShort then some (fixedType representation .short)
  else if serialization = fidInt then some (fixedType representation .int)
  else if serialization = fidCompactInt then
    some (compactType representation (localType &&& fidMaskRepresentation))
  else if serialization = fidByteArray then
    some (if representation = fidFlagString then .string else .byteArray)
  else if serialization = fidUtfCharArray then some .string
  else none

/-! ### The type of what is read -/

/-- The results of a read are of a type. -/
def Yields {α : Type} (x : ReadCall α) (P : α → Prop) : Prop :=
  ∀ input a out, exec x input = (.ok a, out) → P a

theorem Yields.map {α β : Type} {P : β → Prop} (x : ReadCall α) {f : α → β} (h : ∀ a, P (f a)) :
    Yields (do return f (← x)) P := by
  intro input b out hexec
  obtain ⟨a, mid, -, hpure⟩ := exec_bind_eq_ok hexec
  obtain rfl := Except.ok.inj (Prod.mk.inj hpure).1
  exact h a

theorem yields_throw {α : Type} (e : ErrorCode) (P : α → Prop) : Yields (throw e : ReadCall α) P :=
  fun _ _ _ hexec => nomatch (Prod.mk.inj hexec).1

theorem valueType_fixedNumber (platform : Platform D) (representation value : Int32)
    {plain : Value D} {type : CType} (hplain : valueType plain = some type) :
    valueType (fixedNumber platform representation value plain) =
      some (fixedType representation type) := by
  unfold fixedNumber fixedType
  by_cases hdecimal : representation = fidFlagDecimal
  · have h : IsDecimal representation := Or.inl hdecimal
    rw [if_pos hdecimal, if_pos h]
    rfl
  · by_cases hwide : representation = fidFlagWideDecimal
    · have h : IsDecimal representation := Or.inr hwide
      rw [if_neg hdecimal, if_pos hwide, if_pos h]
      rfl
    · have h : ¬ IsDecimal representation := not_or.mpr ⟨hdecimal, hwide⟩
      rw [if_neg hdecimal, if_neg hwide, if_neg h, hplain]

theorem valueType_localNumber (platform : Platform D) (localRepresentation : Int32) (value : D) :
    valueType (localNumber platform localRepresentation value) =
      some (if IsDecimal localRepresentation then .double else .int) := by
  unfold localNumber
  split_ifs <;> rfl

/-- A compact number is in a variable of its type. -/
theorem yields_readCompactNumber (platform : Platform D)
    (representation localRepresentation : Int32) :
    Yields (readCompactNumber platform representation localRepresentation) fun value =>
      valueType value = some (compactType representation localRepresentation) := by
  have hlocal : ¬ IsLong representation → compactType representation localRepresentation =
      if IsDecimal localRepresentation then .double else .int := fun h => if_neg h
  unfold readCompactNumber
  split_ifs with hlong hwide hdecimal hplain
  · have htype : compactType representation localRepresentation = .long := if_pos hlong
    rw [htype]
    exact Yields.map _ fun _ => rfl
  · exact Yields.map _ fun value => by rw [valueType_localNumber, hlocal hlong]
  · exact Yields.map _ fun value => by rw [valueType_localNumber, hlocal hlong]
  · rw [hlocal hlong, if_pos hplain]
    exact Yields.map _ fun _ => rfl
  · rw [hlocal hlong, if_neg hplain]
    exact Yields.map _ fun _ => rfl

/-- A field is read into the variable of `handedType`. -/
theorem yields_readWire (platform : Platform D) {type localType : Int32}
    (hvoid : type &&& fidMaskSerialization ≠ fidVoid) :
    Yields (readWire platform type localType) fun value =>
      valueType value = handedType type localType := by
  unfold readWire handedType
  dsimp only
  rw [if_neg hvoid]
  by_cases hbyte : type &&& fidMaskSerialization = fidByte
  · rw [if_pos hbyte, if_pos hbyte]
    exact Yields.map _ fun value => valueType_fixedNumber platform _ _ rfl
  rw [if_neg hbyte, if_neg hbyte]
  by_cases hchar : type &&& fidMaskSerialization = fidUtfChar
  · rw [if_pos hchar, if_pos hchar]
    exact Yields.map _ fun _ => rfl
  rw [if_neg hchar, if_neg hchar]
  by_cases hshort : type &&& fidMaskSerialization = fidShort
  · rw [if_pos hshort, if_pos hshort]
    exact Yields.map _ fun value => valueType_fixedNumber platform _ _ rfl
  rw [if_neg hshort, if_neg hshort]
  by_cases hint : type &&& fidMaskSerialization = fidInt
  · rw [if_pos hint, if_pos hint]
    exact Yields.map _ fun value => valueType_fixedNumber platform _ _ rfl
  rw [if_neg hint, if_neg hint]
  by_cases hcompact : type &&& fidMaskSerialization = fidCompactInt
  · rw [if_pos hcompact, if_pos hcompact]
    exact yields_readCompactNumber platform _ _
  rw [if_neg hcompact, if_neg hcompact]
  by_cases hbytes : type &&& fidMaskSerialization = fidByteArray
  · rw [if_pos hbytes, if_pos hbytes]
    by_cases hstring : type &&& fidMaskRepresentation = fidFlagString
    · rw [if_pos hstring, if_pos hstring]
      exact Yields.map _ fun _ => rfl
    · rw [if_neg hstring, if_neg hstring]
      exact Yields.map _ fun _ => rfl
  rw [if_neg hbytes, if_neg hbytes]
  by_cases hchars : type &&& fidMaskSerialization = fidUtfCharArray
  · rw [if_pos hchars, if_pos hchars]
    exact Yields.map _ fun _ => rfl
  rw [if_neg hchars, if_neg hchars]
  exact yields_throw _ _

/-- An input of zeros: every field can be read from it. -/
def zeroInput : InputContext := inputAt [] [0, 0, 0, 0] 0

theorem returns_map {α β : Type} {x : ReadCall α} {f : α → β} {input : InputContext}
    (h : Returns x input) : Returns (do return f (← x)) input :=
  (returns_bind ..).mpr (by
    obtain ⟨a, ha⟩ := h
    exact ⟨a, (exec x input).2, Prod.ext ha rfl, f a, rfl⟩)

/-- A field that has a variable can be read. -/
theorem returns_readWire (platform : Platform D) {type localType : Int32} {t : CType}
    (h : handedType type localType = some t) :
    Returns (readWire platform type localType) zeroInput := by
  have hint : Returns readCompactInt zeroInput := ⟨0, by decide +kernel⟩
  have hlong : Returns readCompactLong zeroInput := ⟨0, by decide +kernel⟩
  unfold handedType at h
  unfold readWire
  dsimp only at h ⊢
  by_cases hvoid : type &&& fidMaskSerialization = fidVoid
  · rw [if_pos hvoid] at h
    cases h
  rw [if_neg hvoid] at h
  by_cases hbyte : type &&& fidMaskSerialization = fidByte
  · rw [if_pos hbyte]
    exact returns_map ⟨0, by decide +kernel⟩
  rw [if_neg hbyte] at h ⊢
  by_cases hchar : type &&& fidMaskSerialization = fidUtfChar
  · rw [if_pos hchar]
    exact returns_map ⟨0, by decide +kernel⟩
  rw [if_neg hchar] at h ⊢
  by_cases hshort : type &&& fidMaskSerialization = fidShort
  · rw [if_pos hshort]
    exact returns_map ⟨0, by decide +kernel⟩
  rw [if_neg hshort] at h ⊢
  by_cases hnumber : type &&& fidMaskSerialization = fidInt
  · rw [if_pos hnumber]
    exact returns_map ⟨0, by decide +kernel⟩
  rw [if_neg hnumber] at h ⊢
  by_cases hcompact : type &&& fidMaskSerialization = fidCompactInt
  · rw [if_pos hcompact]
    unfold readCompactNumber
    split_ifs
    · exact returns_map hlong
    · exact returns_map hlong
    · exact returns_map hint
    · exact returns_map hint
    · exact returns_map hint
  rw [if_neg hcompact] at h ⊢
  by_cases hbytes : type &&& fidMaskSerialization = fidByteArray
  · rw [if_pos hbytes]
    split_ifs
    · exact returns_map ⟨some [], by decide +kernel⟩
    · exact returns_map ⟨none, by decide +kernel⟩
  rw [if_neg hbytes] at h ⊢
  by_cases hchars : type &&& fidMaskSerialization = fidUtfCharArray
  · rw [if_pos hchars]
    exact returns_map ⟨some [], by decide +kernel⟩
  rw [if_neg hchars] at h
  cases h

/-! ### The tables -/

/-- Both types have a long representation or neither, and both are strings or neither. -/
def Agrees (type localType : Int32) : Prop :=
  (localType &&& fidMaskSerialization = fidCompactInt →
    (IsLong (type &&& fidMaskRepresentation) ↔ IsLong (localType &&& fidMaskRepresentation))) ∧
  (localType &&& fidMaskSerialization = fidByteArray →
    (type &&& fidMaskRepresentation = fidFlagString ↔
      localType &&& fidMaskRepresentation = fidFlagString))

/-- The serializations of the local fields. -/
def IsLocalSerialization (serialization : Int32) : Prop :=
  serialization = fidUtfChar ∨ serialization = fidCompactInt ∨ serialization = fidByteArray ∨
    serialization = fidUtfCharArray

instance (serialization : Int32) : Decidable (IsLocalSerialization serialization) :=
  inferInstanceAs (Decidable (_ ∨ _))

/-- The setter of every local field reads the variable for the type of the field itself. -/
theorem handedType_local (info : RecordInfoId) :
    ∀ p ∈ (recordFields info).zip (members info),
      IsLocalSerialization (p.1.type &&& fidMaskSerialization) ∧
        handedType p.1.type p.1.type = some (setterType p.2.type) := by
  cases info <;> decide +kernel

theorem compactType_eq_iff (representation localRepresentation : Int32) :
    compactType representation localRepresentation =
        compactType localRepresentation localRepresentation ↔
      (IsLong representation ↔ IsLong localRepresentation) := by
  have hother : (if IsDecimal localRepresentation then CType.double else .int) ≠ .long := by
    split_ifs <;> decide
  unfold compactType
  by_cases hlong : IsLong representation <;> by_cases hlocal : IsLong localRepresentation
  · simp only [hlong, hlocal]
  · simp only [hlong, hlocal, if_true, if_false, iff_false, not_true_eq_false]
    exact hother.symm
  · simp only [hlong, hlocal, if_true, if_false, iff_true]
    exact iff_of_false hother not_false
  · simp only [hlong, hlocal]

section Serializations

variable {type localType : Int32}

theorem handedType_utfChar (h : type &&& fidMaskSerialization = fidUtfChar) :
    handedType type localType = some .char := by
  rw [handedType, h]
  rfl

theorem handedType_compactInt (h : type &&& fidMaskSerialization = fidCompactInt) :
    handedType type localType = some (compactType (type &&& fidMaskRepresentation)
      (localType &&& fidMaskRepresentation)) := by
  rw [handedType, h]
  rfl

theorem handedType_byteArray (h : type &&& fidMaskSerialization = fidByteArray) :
    handedType type localType = some
      (if type &&& fidMaskRepresentation = fidFlagString then .string else .byteArray) := by
  rw [handedType, h]
  rfl

theorem handedType_utfCharArray (h : type &&& fidMaskSerialization = fidUtfCharArray) :
    handedType type localType = some .string := by
  rw [handedType, h]
  rfl

/-- The variable is the one for the local type if and only if the types agree. -/
theorem handedType_eq_iff
    (hserialization : type &&& fidMaskSerialization = localType &&& fidMaskSerialization)
    (hlocal : IsLocalSerialization (localType &&& fidMaskSerialization)) :
    handedType type localType = handedType localType localType ↔ Agrees type localType := by
  rw [Agrees]
  rcases hlocal with h | h | h | h <;> rw [h] at hserialization ⊢
  · rw [handedType_utfChar hserialization, handedType_utfChar h]
    exact iff_of_true rfl ⟨fun hne => absurd hne (by decide), fun hne => absurd hne (by decide)⟩
  · rw [handedType_compactInt hserialization, handedType_compactInt h, Option.some_inj,
      compactType_eq_iff]
    exact ⟨fun hlong => ⟨fun _ => hlong, fun hne => absurd hne (by decide)⟩, fun hagrees =>
      hagrees.1 rfl⟩
  · rw [handedType_byteArray hserialization, handedType_byteArray h, Option.some_inj]
    have hstring : ((if type &&& fidMaskRepresentation = fidFlagString then CType.string
          else .byteArray) =
        if localType &&& fidMaskRepresentation = fidFlagString then .string else .byteArray) ↔
        (type &&& fidMaskRepresentation = fidFlagString ↔
          localType &&& fidMaskRepresentation = fidFlagString) := by
      by_cases hs : type &&& fidMaskRepresentation = fidFlagString <;>
        by_cases hl : localType &&& fidMaskRepresentation = fidFlagString <;>
        simp only [hs, hl, if_true, if_false] <;> decide
    rw [hstring]
    exact ⟨fun hs => ⟨fun hne => absurd hne (by decide), fun _ => hs⟩, fun hagrees => hagrees.2 rfl⟩
  · rw [handedType_utfCharArray hserialization, handedType_utfCharArray h]
    exact iff_of_true rfl ⟨fun hne => absurd hne (by decide), fun hne => absurd hne (by decide)⟩

end Serializations

/-! ### Described fields -/

/-- Whatever is read for an entry, its setter is called with a variable of the type that it reads. -/
def HandsSetterType (platform : Platform D) (info : RecordInfoId) (entry : FieldDigest) : Prop :=
  ∀ input value out, exec (readWire platform entry.type entry.localType) input = (.ok value, out) →
    ∀ setter, entry.setter = some setter → ∀ m, findMember info setter = some m →
      valueType value = some (setterType m.type)

/-- The member of a field of the table. -/
theorem exists_member {info : RecordInfoId} {index : ℕ} {localField : FieldInfo}
    (h : (recordFields info)[index]? = some localField) :
    ∃ m ∈ members info, setterName info m = localField.setter ∧
      (localField, m) ∈ (recordFields info).zip (members info) := by
  have hsetters := congrArg (fun l : List FunctionName => l[index]?) (recordFields_setter info)
  simp only [List.getElem?_map, h, Option.map_some] at hsetters
  obtain ⟨m, hm, hsetter⟩ := Option.map_eq_some_iff.mp hsetters.symm
  refine ⟨m, List.mem_of_getElem? hm, hsetter, ?_⟩
  exact List.mem_of_getElem? (List.getElem?_zip_eq_some.mpr ⟨h, hm⟩)

/-- The setter of a local field that a description lists is called with a variable of the type that it
reads if and only if the types of the description and of the local field agree. -/
theorem handsSetterType_iff (platform : Platform D) (info : RecordInfoId) {record : RecordItem}
    (hfields : record.fields = recordFields info) (field : FieldDescription) {index : ℕ}
    (hlisted : listedIndex record field = some index) {localField : FieldInfo}
    (hlocal : record.fields[index]? = some localField) :
    HandsSetterType platform info (fieldEntry record field) ↔
      Agrees field.fieldType localField.type := by
  have hentry : fieldEntry record field =
      ⟨field.fieldType, localField.type, some localField.setter, none⟩ := by
    rw [fieldEntry, hlisted, Option.bind_some, hlocal]
  have hserialization : field.fieldType &&& fidMaskSerialization =
      localField.type &&& fidMaskSerialization := by
    obtain ⟨hlt, hmatch, -⟩ := List.findIdx?_eq_some_iff_getElem.mp hlisted
    obtain ⟨_, hget⟩ := List.getElem?_eq_some_iff.mp hlocal
    rw [hget] at hmatch
    exact (of_decide_eq_true hmatch).2.symm
  rw [hfields] at hlocal
  obtain ⟨m, hm, hsetter, hzip⟩ := exists_member hlocal
  obtain ⟨hlocalSerialization, hown⟩ := handedType_local info _ hzip
  have hfind : findMember info localField.setter = some m := hsetter ▸ findMember_setterName hm
  have hvoid : field.fieldType &&& fidMaskSerialization ≠ fidVoid := by
    rw [hserialization]
    rcases hlocalSerialization with h | h | h | h <;> rw [h] <;> decide
  rw [← handedType_eq_iff hserialization hlocalSerialization, hown, hentry]
  constructor
  · intro h
    have hsome : ∃ t, handedType field.fieldType localField.type = some t := by
      rcases hlocalSerialization with hl | hl | hl | hl <;> rw [← hserialization] at hl
      · exact ⟨_, handedType_utfChar hl⟩
      · exact ⟨_, handedType_compactInt hl⟩
      · exact ⟨_, handedType_byteArray hl⟩
      · exact ⟨_, handedType_utfCharArray hl⟩
    obtain ⟨t, ht⟩ := hsome
    obtain ⟨value, hvalue⟩ := returns_readWire platform ht
    have hexec : exec (readWire platform field.fieldType localField.type) zeroInput =
        (.ok value, (exec (readWire platform field.fieldType localField.type) zeroInput).2) :=
      Prod.ext hvalue rfl
    rw [← yields_readWire platform hvoid _ _ _ hexec]
    exact h _ _ _ hexec _ rfl m hfind
  · intro h input value out hexec setter hset m' hm'
    obtain rfl := Option.some.inj hset
    obtain rfl := Option.some.inj (hfind.symm.trans hm')
    rw [yields_readWire platform hvoid _ _ _ hexec, h]

/-- The record of orders, and the description of an order id of a type. -/
def orderRecord : RecordItem := ⟨wideString "Order", dxFieldsOrder⟩

def orderIdField (type : Int32) : FieldDescription := ⟨some (wideString "OrderId"), type⟩

/-- An order id may be a time in milliseconds as well. -/
theorem handsSetterType_timeMillis :
    HandsSetterType unitPlatform .order
        (fieldEntry orderRecord (orderIdField (fidCompactInt ||| fidFlagTimeMillis))) ↔
      Agrees (fidCompactInt ||| fidFlagTimeMillis) (fidCompactInt ||| fidFlagLong) := by
  have hlisted : listedIndex orderRecord (orderIdField (fidCompactInt ||| fidFlagTimeMillis)) =
      some 5 := by decide
  have hlocal : orderRecord.fields[5]? = some (dxFieldsOrder.get ⟨5, by decide⟩) := rfl
  exact handsSetterType_iff unitPlatform .order rfl _ hlisted hlocal

/-- An order id that is described as a plain number is read into an `int`, and its setter reads a
`long`. -/
theorem not_handsSetterType_plain :
    ¬ HandsSetterType unitPlatform .order (fieldEntry orderRecord (orderIdField fidCompactInt)) := by
  intro h
  have hentry : fieldEntry orderRecord (orderIdField fidCompactInt) =
      ⟨fidCompactInt, fidCompactInt ||| fidFlagLong, some "dx_order_t_order_id_setter", none⟩ := by
    decide
  rw [hentry] at h
  have hread : (exec (readWire unitPlatform fidCompactInt (fidCompactInt ||| fidFlagLong))
      zeroInput).1 = .ok (.int 0) := by decide +kernel
  have htype := h zeroInput (.int 0) _ (Prod.ext hread rfl) "dx_order_t_order_id_setter" rfl
    (Member.long "order_id") (by decide)
  exact absurd htype (by decide)

end DxFeed.ServerMessageProcessor
