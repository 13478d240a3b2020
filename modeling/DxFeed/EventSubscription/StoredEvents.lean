import DxFeed.RecordTranscoder.Transcoders

/-!
# Events in memory

The strings of an event are pointers to buffers, which `dx_free_buffers` frees all at once.

* `StringBuffers`: the strings that `dx_store_string_buffer` keeps;
* `storeFields`, `readFields`: an event is written to its structure, and read back;
* `Refers`: a field of a structure stands for a field of an event;
* `readFields_eq_some_iff`: an event can be read back unless a text of it has been freed.
-/

namespace DxFeed.EventSubscription

open RecordTranscoder

variable {D : Type}

/-! ### String buffers -/

/-- The strings that went to `dx_store_string_buffer`, numbered in this order; the first `freed` of
them have been freed. -/
structure StringBuffers where
  strings : List WString
  freed : ℕ
  freed_le : freed ≤ strings.length

namespace StringBuffers

def empty : StringBuffers := ⟨[], 0, le_rfl⟩

/-- `dx_store_string_buffer`. -/
def store (buffers : StringBuffers) (buf : WString) : StringBuffers where
  strings := buffers.strings ++ [buf]
  freed := buffers.freed
  freed_le := by simpa using Nat.le_succ_of_le buffers.freed_le

/-- `dx_free_buffers`. -/
def free (buffers : StringBuffers) : StringBuffers where
  strings := buffers.strings
  freed := buffers.strings.length
  freed_le := le_rfl

/-- A string is read through a pointer; `none` is memory that has been freed. -/
def read (buffers : StringBuffers) (pointer : ℕ) : Option WString :=
  if pointer < buffers.freed then none else buffers.strings[pointer]?

/-- The strings that have been stored stay, and none is freed. -/
structure Extends (buffers buffers' : StringBuffers) : Prop where
  strings : buffers.strings <+: buffers'.strings
  freed : buffers'.freed = buffers.freed

theorem Extends.refl (buffers : StringBuffers) : buffers.Extends buffers :=
  ⟨List.prefix_rfl, rfl⟩

theorem Extends.trans {b₁ b₂ b₃ : StringBuffers} (h : b₁.Extends b₂) (h' : b₂.Extends b₃) :
    b₁.Extends b₃ :=
  ⟨h.strings.trans h'.strings, h'.freed.trans h.freed⟩

theorem extends_store (buffers : StringBuffers) (buf : WString) :
    buffers.Extends (buffers.store buf) :=
  ⟨List.prefix_append _ _, rfl⟩

end StringBuffers

/-! ### Events with pointers -/

/-- A field of an event in memory. -/
inductive StoredValue (D : Type) where
  | value (value : EventValue D)
  | pointer (pointer : ℕ)
  deriving DecidableEq

/-- The fields of an event in memory; all are zero if nothing was assigned. -/
abbrev StoredFields (D : Type) := List (String × StoredValue D)

/-- The text behind a pointer of an event.  The source of an order is an array in the structure. -/
def fieldText : String × EventValue D → Option WString
  | (name, .string (some text)) => if name = "source" then none else some text
  | _ => none

/-- A field is assigned; a text goes to the string buffers. -/
def storeField (buffers : StringBuffers) (field : String × EventValue D) :
    StringBuffers × (String × StoredValue D) :=
  match fieldText field with
  | some text => (buffers.store text, (field.1, .pointer buffers.strings.length))
  | none => (buffers, (field.1, .value field.2))

/-- The fields of an event are assigned. -/
def storeFields (buffers : StringBuffers) : EventFields D → StringBuffers × StoredFields D
  | [] => (buffers, [])
  | field :: fields =>
      let (buffers, stored) := storeField buffers field
      let (buffers, rest) := storeFields buffers fields
      (buffers, stored :: rest)

/-- The field as its reader gets it. -/
def readField (buffers : StringBuffers) (stored : String × StoredValue D) :
    Option (String × EventValue D) :=
  match stored.2 with
  | .value value => some (stored.1, value)
  | .pointer pointer => (buffers.read pointer).map fun text => (stored.1, .string (some text))

/-- The event as its reader gets it; `none` if a string of it has been freed. -/
def readFields (buffers : StringBuffers) (stored : StoredFields D) : Option (EventFields D) :=
  stored.mapM (readField buffers)

/-- The field of a structure stands for a field of an event, whose text may have been freed. -/
def Refers (buffers : StringBuffers) (freed : Bool) (stored : String × StoredValue D)
    (field : String × EventValue D) : Prop :=
  match fieldText field with
  | none => stored = (field.1, .value field.2)
  | some text => ∃ pointer, stored = (field.1, .pointer pointer) ∧
      buffers.strings[pointer]? = some text ∧ (pointer < buffers.freed ↔ freed = true)

section Refers

variable {buffers buffers' : StringBuffers} {freed : Bool} {stored : String × StoredValue D}
  {field : String × EventValue D} {storedFields : StoredFields D} {fields : EventFields D}

/-- A text of an event is the string of its field. -/
theorem eq_of_fieldText {text : WString} (h : fieldText field = some text) :
    field = (field.1, .string (some text)) := by
  obtain ⟨name, value⟩ := field
  cases value with
  | string s =>
      cases s with
      | none => simp [fieldText] at h
      | some t =>
          simp only [fieldText, Option.ite_none_left_eq_some, Option.some.injEq] at h
          rw [h.2]
  | _ => simp [fieldText] at h

theorem Refers.extends (h : Refers buffers freed stored field) (hext : buffers.Extends buffers') :
    Refers buffers' freed stored field := by
  unfold Refers at h ⊢
  cases htext : fieldText field with
  | none => simpa only [htext] using h
  | some text =>
      rw [htext] at h
      obtain ⟨pointer, hstored, hstring, hfreed⟩ := h
      refine ⟨pointer, hstored, ?_, hext.freed ▸ hfreed⟩
      obtain ⟨hlt, -⟩ := List.getElem?_eq_some_iff.mp hstring
      obtain ⟨added, hadded⟩ := hext.strings
      rw [← hadded, List.getElem?_append_left hlt, hstring]

/-- The buffers are freed, with the text of the field. -/
theorem Refers.free (h : Refers buffers freed stored field) :
    Refers buffers.free true stored field := by
  unfold Refers at h ⊢
  cases htext : fieldText field with
  | none => simpa only [htext] using h
  | some text =>
      rw [htext] at h
      obtain ⟨pointer, hstored, hstring, -⟩ := h
      obtain ⟨hlt, -⟩ := List.getElem?_eq_some_iff.mp hstring
      exact ⟨pointer, hstored, hstring, iff_of_true hlt rfl⟩

/-- A field can be read back unless it is a text that has been freed. -/
theorem Refers.readField (h : Refers buffers freed stored field) :
    readField buffers stored =
      if freed = true ∧ fieldText field ≠ none then none else some field := by
  unfold Refers at h
  cases htext : fieldText field with
  | none =>
      rw [htext] at h
      subst h
      simp [EventSubscription.readField]
  | some text =>
      rw [htext] at h
      obtain ⟨pointer, rfl, hstring, hfreed⟩ := h
      have hfield := eq_of_fieldText htext
      unfold EventSubscription.readField StringBuffers.read
      by_cases hf : freed = true
      · simp [hfreed, hf]
      · simp [hfreed, hf, hstring, ← hfield]

/-- An event can be read back unless a text of it has been freed. -/
theorem readFields_eq_some_iff (h : List.Forall₂ (Refers buffers freed) storedFields fields) :
    readFields buffers storedFields = some fields ↔
      (freed = true → ∀ field ∈ fields, fieldText field = none) := by
  unfold readFields
  induction h with
  | nil => simp
  | @cons stored field storedFields fields hfield hrest ih =>
      rw [List.mapM_cons, hfield.readField]
      by_cases hf : freed = true ∧ fieldText field ≠ none
      · simp [hf]
      · have hfield : freed = true → fieldText field = none := by simpa using hf
        have hcons : (freed = true → ∀ f ∈ field :: fields, fieldText f = none) ↔
            (freed = true → ∀ f ∈ fields, fieldText f = none) := by
          simp only [List.forall_mem_cons]
          exact ⟨fun h hfreed => (h hfreed).2, fun h hfreed => ⟨hfield hfreed, h hfreed⟩⟩
        rw [if_neg hf, hcons, ← ih]
        cases storedFields.mapM (EventSubscription.readField buffers) <;> simp

theorem storeField_spec (buffers : StringBuffers) (field : String × EventValue D) :
    buffers.Extends (storeField buffers field).1 ∧
      Refers (storeField buffers field).1 false (storeField buffers field).2 field := by
  unfold storeField Refers
  cases htext : fieldText field with
  | none => exact ⟨.refl buffers, rfl⟩
  | some text =>
      refine ⟨buffers.extends_store text, buffers.strings.length, rfl, ?_, ?_⟩
      · simp [StringBuffers.store]
      · simpa [StringBuffers.store] using buffers.freed_le

/-- Pointers to new strings go to the structure. -/
theorem storeFields_spec (buffers : StringBuffers) (fields : EventFields D) :
    buffers.Extends (storeFields buffers fields).1 ∧
      List.Forall₂ (Refers (storeFields buffers fields).1 false) (storeFields buffers fields).2
        fields := by
  induction fields generalizing buffers with
  | nil => exact ⟨.refl buffers, .nil⟩
  | cons field fields ih =>
      obtain ⟨hext, hfield⟩ := storeField_spec buffers field
      obtain ⟨hext', hfields⟩ := ih (storeField buffers field).1
      exact ⟨hext.trans hext', .cons (hfield.extends hext') hfields⟩

end Refers

end DxFeed.EventSubscription
