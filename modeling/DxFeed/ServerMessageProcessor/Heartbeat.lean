import DxFeed.BufferedIO.CompactInt
import DxFeed.BufferedIO.UtfString
import DxFeed.ServerMessageProcessor.Framing

/-!
# The payload of a heartbeat

* `HeartbeatPayload.composeTo`: the writer of the payload;
* `HeartbeatPayload.parseInto`: the reader, which changes a payload that is there;
* `HeartbeatPayload.Matches`: the same fields are present and have the same values;
* `heartbeatRoundTrip`: what is written is read back.
-/

namespace DxFeed.ServerMessageProcessor

open Call FixedWidth PrefixCode BufferedIO

namespace HeartbeatPayload

/-- `ContentType`. -/
def timeMillisBit : UInt32 := 0x1

def timeMarkBit : UInt32 := 0x2

def deltaMarkBit : UInt32 := 0x4

def lagMarkBit : UInt32 := 0x8

/-- Whether a bit of the content mask is set. -/
def has (payload : HeartbeatPayload) (bit : UInt32) : Bool :=
  decide (payload.contentMask &&& bit ≠ 0)

/-- `hasTimeMillis`. -/
def hasTimeMillis (payload : HeartbeatPayload) : Bool := payload.has timeMillisBit

/-- `hasTimeMark`. -/
def hasTimeMark (payload : HeartbeatPayload) : Bool := payload.has timeMarkBit

/-- `hasDeltaMark`. -/
def hasDeltaMark (payload : HeartbeatPayload) : Bool := payload.has deltaMarkBit

/-- `hasLagMark`. -/
def hasLagMark (payload : HeartbeatPayload) : Bool := payload.has lagMarkBit

/-- A part of the payload, which is written if it is present. -/
def writePart (present : Bool) (part : WriteCall Unit) : WriteCall Unit :=
  if present then part else return

/-- `HeartbeatPayload::composeTo`. -/
def composeTo (payload : HeartbeatPayload) : WriteCall Unit := do
  writeCompactInt payload.contentMask.toInt32
  writePart payload.hasTimeMillis (writeCompactLong payload.timeMillis.toInt64)
  writePart payload.hasTimeMark (writeCompactInt payload.timeMark)
  writePart payload.hasDeltaMark (writeCompactInt payload.deltaMark)
  writePart payload.hasLagMark (writeCompactInt payload.lagMark)

/-- The parts that `HeartbeatPayload::parseFrom` reads behind the content mask. -/
def parseParts (payload : HeartbeatPayload) (contentMask : UInt32) : ReadCall HeartbeatPayload := do
  let timeMillis ← readPart contentMask timeMillisBit
    (do return (← readCompactLong).toUInt64) payload.timeMillis
  let timeMark ← readPart contentMask timeMarkBit readCompactInt payload.timeMark
  let deltaMark ← readPart contentMask deltaMarkBit readCompactInt payload.deltaMark
  let lagMark ← readPart contentMask lagMarkBit readCompactInt payload.lagMark
  return ⟨contentMask, timeMillis, timeMark, deltaMark, lagMark⟩

/-- `HeartbeatPayload::parseFrom` of a payload that may have values: what is absent stays. -/
def parseInto (payload : HeartbeatPayload) : ReadCall HeartbeatPayload := do
  payload.parseParts (← readCompactInt).toUInt32

/-- `HeartbeatPayload()`. -/
def empty : HeartbeatPayload := ⟨0, 0, 0, 0, 0⟩

/-- The parser of an incoming heartbeat starts with a new payload. -/
theorem parseFrom_eq : parseFrom = parseInto empty := rfl

/-- The same fields are present, and have the same values. -/
structure Matches (p q : HeartbeatPayload) : Prop where
  contentMask : p.contentMask = q.contentMask
  timeMillis : q.hasTimeMillis → p.timeMillis = q.timeMillis
  timeMark : q.hasTimeMark → p.timeMark = q.timeMark
  deltaMark : q.hasDeltaMark → p.deltaMark = q.deltaMark
  lagMark : q.hasLagMark → p.lagMark = q.lagMark

/-! ### The parts -/

/-- The bytes of a value: what its writer writes, and its reader takes back. -/
structure Carries {α : Type} (write : WriteCall Unit) (read : ReadCall α) (value : α) (n : ℕ)
    (bs : List Int8) : Prop where
  puts : Puts write bs
  reads : Reads read bs value
  length_le : bs.length ≤ n

theorem length_of_octets {v : ℤ} {bs : List Int8} (h : bs.map octet = encode v) :
    bs.length ≤ 9 := by
  rw [← bs.length_map octet, h, length_encode]
  exact Nat.succ_le_succ (sizeClass_le v)

theorem carries_int (value : Int32) :
    ∃ bs, Carries (writeCompactInt value) readCompactInt value 9 bs := by
  obtain ⟨bs, hputs, hoctets⟩ := puts_writeCompactInt value
  exact ⟨bs, hputs, reads_writtenInt hoctets, length_of_octets hoctets⟩

/-- `dx_write_compact_long` writes the octets of the number. -/
theorem puts_writeCompactLong (value : Int64) :
    ∃ bs, Puts (writeCompactLong value) bs ∧ bs.map octet = encode value.toInt := by
  unfold writeCompactLong
  dsimp only
  split_ifs with hsmall
  · obtain ⟨bs, hputs, hoctets⟩ := puts_writeCompactInt value.toInt32
    refine ⟨bs, hputs, ?_⟩
    rw [hoctets, ← Int32.toInt_toInt64, ← hsmall]
  · obtain ⟨bs, hwrites, hoctets⟩ := writes_writeCompactHigh (value >>> 32).toInt32
      (word_lt value.toInt32) (toInt_eq_high_low value) (wide_of_ne hsmall)
    have hall := hwrites.bind (writes_writeIntUnchecked value.toInt32)
    have henc : (bs ++ intBytes value.toInt32).map octet = encode value.toInt := by
      rw [List.map_append, octets_intBytes, hoctets]
    have hwide := wide_of_ne hsmall
    have hclass : 4 ≤ sizeClass value.toInt := by
      by_contra hlow
      have hfits := (fits_sizeClass (fits_toInt value)).mono (by omega : _ ≤ 3) (by norm_num)
      norm_num [Fits, width] at hfits
      omega
    have hlength : (bs ++ intBytes value.toInt32).length = sizeClass value.toInt + 1 := by
      rw [← List.length_map octet, henc, length_encode]
    have hle := sizeClass_le value.toInt
    have hputs := hall.reserved (by omega : _ ≤ 9) (by omega) le_rfl
    exact ⟨_, hputs.checked, henc⟩

theorem carries_long {value : Int64} (hvalue : 0 ≤ value.toInt) :
    ∃ bs, Carries (writeCompactLong value) readCompactLong value 9 bs := by
  obtain ⟨bs, hputs, hoctets⟩ := puts_writeCompactLong value
  obtain ⟨v, hreads, hv⟩ := reads_written hoctets
  obtain rfl : v = value := by
    rw [← Int64.toInt_inj, hv]
    split_ifs with hclass
    · have hbound : value.toInt < 2 ^ 13 := (sizeClass_eq_one_iff.mp hclass).1.2
      omega
    · rfl
  exact ⟨bs, hputs, hreads, length_of_octets hoctets⟩

/-- A part that is written and read if it is present. -/
theorem Carries.part {α : Type} {write : WriteCall Unit} {read : ReadCall α} {value : α} {n : ℕ}
    {bs : List Int8} (h : Carries write read value n bs) (payload : HeartbeatPayload)
    (bit : UInt32) (absent : α) :
    Carries (writePart (payload.has bit) write) (readPart payload.contentMask bit read absent)
      (if payload.has bit then value else absent) n (if payload.has bit then bs else []) := by
  unfold writePart readPart has
  by_cases hbit : payload.contentMask &&& bit ≠ 0
  · simp only [decide_eq_true hbit, if_pos hbit, if_true]
    exact h
  · simp only [decide_eq_false hbit, if_neg hbit, Bool.false_eq_true, if_false]
    exact ⟨puts_pure, reads_pure absent, Nat.zero_le _⟩

theorem Carries.map {α β : Type} {write : WriteCall Unit} {read : ReadCall α} {value : α} {n : ℕ}
    {bs : List Int8} (h : Carries write read value n bs) (f : α → β) :
    Carries write (do return f (← read)) (f value) n bs :=
  ⟨h.puts, h.reads.map, h.length_le⟩

/-- A part behind another one, which the reader may depend on. -/
theorem Carries.bind {α β : Type} {write write' : WriteCall Unit} {read : ReadCall α}
    {value : α} {value' : β} {n n' : ℕ} {bs bs' : List Int8} (h : Carries write read value n bs)
    (read' : α → ReadCall β) (h' : Carries write' (read' value) value' n' bs') :
    Carries (do write; write') (do read' (← read)) value' (n + n') (bs ++ bs') :=
  ⟨h.puts.bind h'.puts, h.reads.bind h'.reads, by
    rw [List.length_append]
    exact Nat.add_le_add h.length_le h'.length_le⟩

/-- The payload that is read: what is absent stays. -/
def readBack (p q : HeartbeatPayload) : HeartbeatPayload where
  contentMask := p.contentMask
  timeMillis := if p.hasTimeMillis then p.timeMillis else q.timeMillis
  timeMark := if p.hasTimeMark then p.timeMark else q.timeMark
  deltaMark := if p.hasDeltaMark then p.deltaMark else q.deltaMark
  lagMark := if p.hasLagMark then p.lagMark else q.lagMark

theorem readBack_matches (p q : HeartbeatPayload) : (readBack p q).Matches p where
  contentMask := rfl
  timeMillis := fun h => if_pos h
  timeMark := fun h => if_pos h
  deltaMark := fun h => if_pos h
  lagMark := fun h => if_pos h

/-- The parts are written and read in the same order. -/
theorem exists_carries (p q : HeartbeatPayload) (hmillis : p.timeMillis.toNat < 2 ^ 63) :
    ∃ bs, Carries p.composeTo q.parseInto (readBack p q) 45 bs := by
  have hlong : 0 ≤ p.timeMillis.toInt64.toInt := by
    have hnat : p.timeMillis.toInt64.toBitVec.toNat = p.timeMillis.toNat := rfl
    rw [← Int64.toInt_toBitVec, BitVec.toInt_eq_toNat_of_lt (by rw [hnat]; omega)]
    exact Int.natCast_nonneg _
  obtain ⟨maskBytes, hmask⟩ := carries_int p.contentMask.toInt32
  obtain ⟨millisBytes, hmillisBytes⟩ := carries_long hlong
  obtain ⟨markBytes, hmark⟩ := carries_int p.timeMark
  obtain ⟨deltaBytes, hdelta⟩ := carries_int p.deltaMark
  obtain ⟨lagBytes, hlag⟩ := carries_int p.lagMark
  -- the parts from the last one on, each with the values in front of it
  have hlagPart : Carries (writePart p.hasLagMark (writeCompactInt p.lagMark))
      (do
        let lagMark ← readPart p.contentMask lagMarkBit readCompactInt q.lagMark
        return ⟨p.contentMask, (readBack p q).timeMillis, (readBack p q).timeMark,
          (readBack p q).deltaMark, lagMark⟩) (readBack p q) 9 _ :=
    (hlag.part p lagMarkBit q.lagMark).map _
  have hdeltaPart : Carries
      (do
        writePart p.hasDeltaMark (writeCompactInt p.deltaMark)
        writePart p.hasLagMark (writeCompactInt p.lagMark))
      (do
        let deltaMark ← readPart p.contentMask deltaMarkBit readCompactInt q.deltaMark
        let lagMark ← readPart p.contentMask lagMarkBit readCompactInt q.lagMark
        return ⟨p.contentMask, (readBack p q).timeMillis, (readBack p q).timeMark, deltaMark,
          lagMark⟩) (readBack p q) (9 + 9) _ :=
    (hdelta.part p deltaMarkBit q.deltaMark).bind _ hlagPart
  have hmarkPart : Carries
      (do
        writePart p.hasTimeMark (writeCompactInt p.timeMark)
        writePart p.hasDeltaMark (writeCompactInt p.deltaMark)
        writePart p.hasLagMark (writeCompactInt p.lagMark))
      (do
        let timeMark ← readPart p.contentMask timeMarkBit readCompactInt q.timeMark
        let deltaMark ← readPart p.contentMask deltaMarkBit readCompactInt q.deltaMark
        let lagMark ← readPart p.contentMask lagMarkBit readCompactInt q.lagMark
        return ⟨p.contentMask, (readBack p q).timeMillis, timeMark, deltaMark, lagMark⟩)
      (readBack p q) (9 + (9 + 9)) _ :=
    (hmark.part p timeMarkBit q.timeMark).bind _ hdeltaPart
  have hmillisPart : Carries
      (do
        writePart p.hasTimeMillis (writeCompactLong p.timeMillis.toInt64)
        writePart p.hasTimeMark (writeCompactInt p.timeMark)
        writePart p.hasDeltaMark (writeCompactInt p.deltaMark)
        writePart p.hasLagMark (writeCompactInt p.lagMark))
      (q.parseParts p.contentMask) (readBack p q) (9 + (9 + (9 + 9))) _ :=
    ((hmillisBytes.map (·.toUInt64)).part p timeMillisBit q.timeMillis).bind _ hmarkPart
  exact ⟨_, hmask.bind (fun contentMask => q.parseParts contentMask.toUInt32) hmillisPart⟩

/-! ### The round trip -/

/-- The payload is written; from any input buffer that holds the written bytes between `pre` and
`post`, with the position on them, `q` takes the payload back, and consumes these bytes. -/
def RoundTrip (p q : HeartbeatPayload) (out : OutputContext) (pre post : List Int8)
    (limit : ℕ) : Prop :=
  ∃ out' r, exec p.composeTo out = (.ok (), out') ∧
    exec q.parseInto (inputAt pre (out'.writtenFrom out.currentOutBufferPosition ++ post) limit) =
      (.ok r, inputAt (pre ++ out'.writtenFrom out.currentOutBufferPosition) post limit) ∧
    r.Matches p

/-- Every payload that is written is read back. -/
theorem heartbeatRoundTrip (p q : HeartbeatPayload) (hmillis : p.timeMillis.toNat < 2 ^ 63)
    (out : OutputContext) (pre post : List Int8) (limit : ℕ) (hrange : out.InRange 45)
    (hwrite : Returns p.composeTo out) (hlen : pre.length + 45 + post.length ≤ INT_MAX) :
    RoundTrip p q out pre post limit := by
  obtain ⟨bs, hcarries⟩ := exists_carries p q hmillis
  obtain ⟨out', hexec, hbytes⟩ := hcarries.puts.written hcarries.length_le hrange hwrite
  have hlength := hcarries.length_le
  refine ⟨out', readBack p q, hexec, ?_, readBack_matches p q⟩
  rw [hbytes]
  exact hcarries.reads pre post limit (by rw [List.length_append, List.length_append]; omega)

/-- A payload can be written where the buffer can grow. -/
theorem returns_composeTo (p : HeartbeatPayload) (hmillis : p.timeMillis.toNat < 2 ^ 63)
    (out : OutputContext) (hrange : out.InRange 45)
    (hgrow : 2 * (out.currentOutBufferPosition + 45) + 4 ≤ INT_MAX) :
    Returns p.composeTo out := by
  obtain ⟨before, room, rfl⟩ := hrange.eq_outputAt
  rw [currentOutBufferPosition_outputAt] at hgrow
  obtain ⟨bs, hcarries⟩ := exists_carries p p hmillis
  have hlength := hcarries.length_le
  refine hcarries.puts.returns before room (by omega) ?_
  simpa using hrange.length_le

/-- Time, delta and lag without a mark, read into a payload that has values. -/
theorem heartbeatRoundTrip_no_mark :
    RoundTrip ⟨0xD, 1700000000000, 0, -65, 70000⟩ ⟨0xF, 1, 2, 3, 4⟩
      (outputAt [1, 2] (List.replicate 14 0)) [7] [9] 5 := by
  have hrange : (outputAt [1, 2] (List.replicate 14 0)).InRange 45 :=
    ⟨rfl, by decide, by decide, by decide⟩
  exact heartbeatRoundTrip ⟨0xD, 1700000000000, 0, -65, 70000⟩ ⟨0xF, 1, 2, 3, 4⟩ (by decide)
    (outputAt [1, 2] (List.replicate 14 0)) [7] [9] 5 hrange
    (returns_composeTo _ (by decide) _ hrange (by decide)) (by decide)

end HeartbeatPayload

end DxFeed.ServerMessageProcessor
