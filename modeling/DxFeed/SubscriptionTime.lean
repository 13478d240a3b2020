import DxFeed.RecordTranscoder.Transcoders
import DxFeed.ServerMessageProcessor.RecordReading
import DxFeed.TimeFunctions

/-!
# Subscription times

The time from which on a history is subscribed to is sent in the layout of the two time fields of its
record: seconds in the high half, and the rest in the low half.

* `secondsOf`, `millisOf`: the parts that the time functions make of a time;
* `createSubscriptionTime`: `dx_create_subscription_time` of `DataStructures.c`;
* `createSubscriptionTime_timed`: what they put in the two halves for a timed record;
* `timeSeqToMs`: the time that a transcoder reads from the two halves;
* `timeSeqToMs_createSubscriptionTime_iff`: it is the time that was sent if and only if that is a
  number of whole seconds.
-/

namespace DxFeed.SubscriptionTime

open RecordBuffers RecordTranscoder ServerMessageProcessor TimeFunctions

/-! ### Encoding -/

theorem isSome_getSecondsFromTime (time : Int64) : (getSecondsFromTime time).isSome := by
  obtain ⟨seconds, hseconds, -⟩ := getSecondsFromTime_eq time
  rw [hseconds]
  rfl

theorem isSome_getMillisFromTime (time : Int64) : (getMillisFromTime time).isSome := by
  obtain ⟨r, hr, -⟩ := getMillisFromTime_eq time
  rw [hr]
  rfl

/-- `dx_get_seconds_from_time`, where no sum overflows. -/
def secondsOf (time : Int64) : Int32 :=
  (getSecondsFromTime time).get (isSome_getSecondsFromTime time)

/-- `dx_get_millis_from_time`. -/
def millisOf (time : Int64) : Int32 :=
  (getMillisFromTime time).get (isSome_getMillisFromTime time)

/-- The variables of the loop of `dx_create_subscription_time`. -/
structure SubscriptionState where
  subscriptionTime : Int64
  hasFirstTime : Bool
  hasSecondTime : Bool
  isTimedRecord : Bool

/-- A field of a record takes its part of the time. -/
def subscriptionStep (seconds millis : Int32) (field : FieldInfo) (time : FieldTime)
    (s : SubscriptionState) : SubscriptionState :=
  match time with
  | .firstTimeInt =>
      { s with
        subscriptionTime := s.subscriptionTime ||| seconds.toInt64 <<< 32
        hasFirstTime := true
        isTimedRecord := decide (field.type &&& fidFlagTimeSeconds &&& ~~~fidFlagDecimal ≠ 0) }
  | .secondTimeInt =>
      { s with subscriptionTime := s.subscriptionTime ||| millis.toInt64, hasSecondTime := true }
  | .common => s

/-- The loop over the fields of a record. -/
def subscriptionLoop (seconds millis : Int32) :
    List (FieldInfo × Member) → SubscriptionState → SubscriptionState
  | [], s => s
  | (field, m) :: rest, s =>
      let s := subscriptionStep seconds millis field m.time s
      if s.hasFirstTime && s.hasSecondTime then s else subscriptionLoop seconds millis rest s

/-- The fields of a record with the column of subscription times. -/
def timedFields (info : RecordInfoId) : List (FieldInfo × Member) :=
  (recordFields info).zip (members info)

/-- `dx_create_subscription_time`, with what `dx_get_record_by_id` finds. -/
def createSubscriptionTime (recordInfo : Option RecordInfoId) (time : Int64) :
    Except ErrorCode Int64 :=
  let seconds := secondsOf time
  let millis := millisOf time
  if time = 0 then .ok 0
  else
    match recordInfo with
    | none => .error .invalidFuncParamInternal
    | some info =>
        let s := subscriptionLoop seconds millis (timedFields info) ⟨0, false, false, false⟩
        .ok (if s.isTimedRecord then s.subscriptionTime else time)

/-! ### Decoding -/

/-- `DX_TIME_SEQ_TO_MS`. -/
def timeSeqToMs (time sequence : Int32) : Int64 := timeFieldMs time + sequenceToMs sequence

/-- A record with both time fields, the first of them a time in seconds. -/
def IsTimedRecord (info : RecordInfoId) : Prop :=
  (∃ p ∈ timedFields info, p.2.time = .firstTimeInt ∧
    p.1.type &&& fidFlagTimeSeconds &&& ~~~fidFlagDecimal ≠ 0) ∧
  ∃ p ∈ timedFields info, p.2.time = .secondTimeInt

instance (info : RecordInfoId) : Decidable (IsTimedRecord info) :=
  inferInstanceAs (Decidable (_ ∧ _))

/-- The time fields of a timed record are its first two fields. -/
theorem timedFields_eq {info : RecordInfoId} (h : IsTimedRecord info) :
    ∃ first second rest, timedFields info = first :: second :: rest ∧
      first.2.time = .firstTimeInt ∧
      first.1.type &&& fidFlagTimeSeconds &&& ~~~fidFlagDecimal ≠ 0 ∧
      second.2.time = .secondTimeInt := by
  revert h
  cases info with
  | timeAndSale => exact fun _ => ⟨_, _, _, rfl, rfl, by decide, rfl⟩
  | candle => exact fun _ => ⟨_, _, _, rfl, rfl, by decide, rfl⟩
  | greeks => exact fun _ => ⟨_, _, _, rfl, rfl, by decide, rfl⟩
  | _ => exact fun h => absurd h (by decide)

/-- For a timed record the seconds are in the high half and the milliseconds in the low one. -/
theorem createSubscriptionTime_timed {info : RecordInfoId} (h : IsTimedRecord info) {time : Int64}
    (hne : time ≠ 0) :
    createSubscriptionTime (some info) time =
      .ok ((secondsOf time).toInt64 <<< 32 ||| (millisOf time).toInt64) := by
  obtain ⟨first, second, rest, hfields, hfirst, hseconds, hsecond⟩ := timedFields_eq h
  have hdecide : decide (first.1.type &&& fidFlagTimeSeconds &&& ~~~fidFlagDecimal ≠ 0) = true :=
    decide_eq_true hseconds
  rw [createSubscriptionTime, if_neg hne]
  dsimp only
  rw [hfields]
  simp only [subscriptionLoop, subscriptionStep, hfirst, hsecond, hdecide, Bool.true_and,
    Bool.and_self, if_true, Bool.false_eq_true, if_false, Int64.zero_or]

/-! ### The two halves -/

/-- The sign bits of the low half are not set. -/
theorem getLsbD_signExtend_nonneg {value : Int32} (h : 0 ≤ value.toInt) (j : ℕ) :
    (value.toBitVec.signExtend 64).getLsbD j = value.toBitVec.getLsbD j := by
  have hmsb : value.toBitVec.msb = false := by
    rw [BitVec.msb_eq_toInt]
    exact decide_eq_false (not_lt.mpr h)
  rw [BitVec.getLsbD_signExtend, hmsb]
  by_cases hj : j < 32
  · simp [hj, show j < 64 by omega]
  · rw [BitVec.getLsbD_of_ge value.toBitVec j (by omega)]
    simp [hj]

theorem qdtimeHigh_compose (seconds : Int32) {millis : Int32} (h : 0 ≤ millis.toInt) :
    qdtimeHigh (seconds.toInt64 <<< 32 ||| millis.toInt64) = seconds := by
  rw [← Int32.toBitVec_inj]
  show ((((seconds.toBitVec.signExtend 64) <<< 32 ||| millis.toBitVec.signExtend 64) >>> 32).signExtend
    32) = seconds.toBitVec
  refine BitVec.eq_of_getLsbD_eq fun j hj => ?_
  rw [BitVec.signExtend_eq_setWidth_of_le _ (by norm_num), BitVec.getLsbD_setWidth,
    BitVec.getLsbD_ushiftRight, BitVec.getLsbD_or, getLsbD_signExtend_nonneg h,
    BitVec.getLsbD_shiftLeft, BitVec.getLsbD_signExtend]
  simp [hj, show 32 + j < 64 by omega, show j < 64 by omega]

theorem qdtimeLow_compose (seconds : Int32) {millis : Int32} (h : 0 ≤ millis.toInt) :
    qdtimeLow (seconds.toInt64 <<< 32 ||| millis.toInt64) = millis := by
  rw [← Int32.toBitVec_inj]
  show ((((seconds.toBitVec.signExtend 64) <<< 32 ||| millis.toBitVec.signExtend 64) &&&
    0xFFFFFFFF#64).signExtend 32) = millis.toBitVec
  refine BitVec.eq_of_getLsbD_eq fun j hj => ?_
  have hmask : (0xFFFFFFFF#64).getLsbD j = true := by
    have hbits : Nat.testBit (2 ^ 32 - 1) j = decide (j < 32) := Nat.testBit_two_pow_sub_one 32 j
    rw [BitVec.getLsbD_ofNat, show (0xFFFFFFFF : ℕ) = 2 ^ 32 - 1 from rfl, hbits]
    simp [hj, show j < 64 by omega]
  rw [BitVec.signExtend_eq_setWidth_of_le _ (by norm_num), BitVec.getLsbD_setWidth,
    BitVec.getLsbD_and, hmask, BitVec.getLsbD_or, getLsbD_signExtend_nonneg h,
    BitVec.getLsbD_shiftLeft]
  simp [hj]

/-- The sequence of the low half carries no milliseconds. -/
theorem sequenceToMs_eq_zero {millis : Int32} (h : 0 ≤ millis.toInt) (hlt : millis.toInt < 1000) :
    sequenceToMs millis = 0 := by
  have hshift : millis >>> 22 = 0 := by
    rw [← Int32.toInt_inj]
    show (millis.toBitVec.sshiftRight 22).toInt = 0
    have hnum : millis.toBitVec.toInt = millis.toInt := rfl
    rw [BitVec.toInt_sshiftRight, Int.shiftRight_eq_div_pow, hnum]
    omega
  rw [sequenceToMs, hshift]
  rfl

/-! ### Seconds and milliseconds -/

/-- The seconds of a time are rounded down, and clamped to the numbers of 32 bits. -/
theorem toInt_secondsOf (time : Int64) :
    (secondsOf time).toInt = max (-2 ^ 31) (min (time.toInt / 1000) (2 ^ 31 - 1)) := by
  obtain ⟨seconds, hseconds, hvalue⟩ := getSecondsFromTime_eq time
  rw [secondsOf, Option.get_of_eq_some _ hseconds, hvalue]

/-- The milliseconds of a time are from 0 to 999. -/
theorem toInt_millisOf (time : Int64) : (millisOf time).toInt = time.toInt % 1000 := by
  obtain ⟨r, hr, hvalue⟩ := getMillisFromTime_eq time
  rw [millisOf, Option.get_of_eq_some _ hr, hvalue]

/-! ### The layout -/

/-- The two halves of the encoded time are decoded to it if and only if it has no milliseconds. -/
theorem timeSeqToMs_createSubscriptionTime_iff {info : RecordInfoId} (h : IsTimedRecord info)
    (time : Int64) (hmin : -0x80000000 ≤ time.toInt / 1000)
    (hmax : time.toInt / 1000 ≤ 0x7FFFFFFF) :
    (∃ value, createSubscriptionTime (some info) time = .ok value ∧
        timeSeqToMs (qdtimeHigh value) (qdtimeLow value) = time) ↔ time.toInt % 1000 = 0 := by
  by_cases hzero : time = 0
  · subst hzero
    exact iff_of_true ⟨0, rfl, rfl⟩ rfl
  · have hseconds : (secondsOf time).toInt = time.toInt / 1000 := by
      rw [toInt_secondsOf]
      omega
    have hmillis := toInt_millisOf time
    have hnonneg : 0 ≤ (millisOf time).toInt := by omega
    have hdecoded : (timeFieldMs (secondsOf time)).toInt = time.toInt / 1000 * 1000 := by
      rw [timeFieldMs, Int64.toInt_mul, Int32.toInt_toInt64, hseconds]
      exact Int.bmod_eq_of_le (by simp; omega) (by simp; omega)
    rw [createSubscriptionTime_timed h hzero]
    constructor
    · rintro ⟨value, hvalue, htime⟩
      obtain rfl := Except.ok.inj hvalue
      rw [qdtimeHigh_compose _ hnonneg, qdtimeLow_compose _ hnonneg, timeSeqToMs,
        sequenceToMs_eq_zero hnonneg (by omega), Int64.add_zero] at htime
      rw [htime] at hdecoded
      omega
    · intro hwhole
      refine ⟨_, rfl, ?_⟩
      rw [qdtimeHigh_compose _ hnonneg, qdtimeLow_compose _ hnonneg, timeSeqToMs,
        sequenceToMs_eq_zero hnonneg (by omega), Int64.add_zero, ← Int64.toInt_inj, hdecoded]
      omega

/-- Two seconds. -/
theorem timeSeqToMs_createSubscriptionTime_twoSeconds :
    (∃ value, createSubscriptionTime (some .timeAndSale) 2000 = .ok value ∧
        timeSeqToMs (qdtimeHigh value) (qdtimeLow value) = 2000) ↔ (2000 : Int64).toInt % 1000 = 0 :=
  timeSeqToMs_createSubscriptionTime_iff (by decide) 2000 (by decide) (by decide)

/-- The milliseconds of a time of one and a half seconds are lost: they are below the bits that a
sequence has for them. -/
theorem not_timeSeqToMs_halfSecond :
    ¬ ∃ value, createSubscriptionTime (some .timeAndSale) 1500 = .ok value ∧
      timeSeqToMs (qdtimeHigh value) (qdtimeLow value) = 1500 := by
  rintro ⟨value, hvalue, htime⟩
  rw [createSubscriptionTime_timed (by decide) (by decide)] at hvalue
  obtain rfl := Except.ok.inj hvalue
  exact absurd htime (by decide)

end DxFeed.SubscriptionTime
