import DxFeed.Library.SignedArith
import DxFeed.ServerMessageProcessor.Heartbeat

/-!
# The time marks of heartbeats

What `dx::Connection` computes from the marks of incoming heartbeats.  A mark is a number of
microseconds modulo `2 ^ 30`; the sums are taken on numbers of 32 bits with a sign.

* `currentTimeMark`, `signedDeltaMark`: the functions of `TimeMarkUtil`;
* `MarkContext.processIncomingHeartbeatPayload`, `MarkContext.computeTimeMark`: those of
  `Connection`;
* `MarkContext.SumsFit`: the marks for which no sum overflows;
* `keepsMarks_iff`: what holds of the marks after any sequence of heartbeats.
-/

namespace DxFeed.ServerMessageProcessor

open FixedWidth SignedArith

/-! ### Marks -/

/-- `TIME_MARK_MASK`. -/
def timeMarkMask : UInt32 := 0x3fffffff

/-- `TimeMarkUtil::currentTimeMark`; the clock counts microseconds. -/
def currentTimeMark (clock : Int64) : Int32 :=
  (clock.toUInt64.toUInt32 &&& timeMarkMask).toInt32

/-- `TimeMarkUtil::signedDeltaMark`. -/
def signedDeltaMark (mark : Int32) : Int32 :=
  (mark.toUInt32 <<< 2).toInt32 >>> 2

/-- `DELTA_MARK_UNKNOWN`. -/
def deltaMarkUnknown : Int32 := Int32.maxValue

/-- The fields of `Connection` that hold marks. -/
structure MarkContext where
  lastDeltaMark : Int32
  connectionRttMark : Int32
  incomingLagMark : Int32
  deriving DecidableEq

namespace MarkContext

/-- The marks of a new connection. -/
def init : MarkContext := ⟨deltaMarkUnknown, 0, 0⟩

/-- `Connection::computeTimeMark`. -/
def computeTimeMark (c : MarkContext) (currentTimeMark : Int32) : Option Int32 := do
  let difference ← signedInt (currentTimeMark.toInt - c.incomingLagMark.toInt)
  let mark := (difference.toUInt32 &&& timeMarkMask).toInt32
  return if mark = 0 then 1 else mark

/-- The time mark of an incoming heartbeat, and its delta mark. -/
def updateDelta (c : MarkContext) (currentTimeMark : Int32) (payload : HeartbeatPayload) :
    Option MarkContext :=
  if payload.hasTimeMark then do
    let lastDeltaMark :=
      signedDeltaMark (← signedInt (currentTimeMark.toInt - payload.timeMark.toInt))
    let c := { c with lastDeltaMark := lastDeltaMark }
    if payload.hasDeltaMark then
      return { c with connectionRttMark :=
        signedDeltaMark (← signedInt (lastDeltaMark.toInt + payload.deltaMark.toInt)) }
    else return c
  else some c

/-- `Connection::processIncomingHeartbeatPayload`: the marks, and the time mark for the parser. -/
def processIncomingHeartbeatPayload (c : MarkContext) (clock : Int64) (payload : HeartbeatPayload) :
    Option (MarkContext × Int32) := do
  let current := currentTimeMark clock
  let c ← c.updateDelta current payload
  let c := { c with
    incomingLagMark := ← signedInt (payload.lagMark.toInt + c.connectionRttMark.toInt) }
  return (c, ← c.computeTimeMark current)

end MarkContext

theorem word_and_timeMarkMask (x : UInt32) : word (x &&& timeMarkMask).toInt32 = x.toNat % 2 ^ 30 := by
  rw [word_toInt32, UInt32.toNat_and]
  exact Nat.and_two_pow_sub_one_eq_mod x.toNat 30

theorem toInt_and_timeMarkMask (x : Int32) :
    (x.toUInt32 &&& timeMarkMask).toInt32.toInt = x.toInt % 2 ^ 30 := by
  have hmask := word_and_timeMarkMask x.toUInt32
  have hlt : word (x.toUInt32 &&& timeMarkMask).toInt32 < 2 ^ 31 := by omega
  have hword := word_eq x
  have hx : x.toUInt32.toNat = word x := rfl
  rw [toInt_eq_word hlt, hmask, hx]
  omega

/-- The time is taken modulo `2 ^ 30`. -/
theorem currentTimeMark_range (clock : Int64) :
    0 ≤ (currentTimeMark clock).toInt ∧ (currentTimeMark clock).toInt < 2 ^ 30 := by
  have hmask := word_and_timeMarkMask clock.toUInt64.toUInt32
  have hlt : word (currentTimeMark clock) < 2 ^ 31 := by
    rw [currentTimeMark]
    omega
  rw [toInt_eq_word hlt, currentTimeMark]
  omega

/-- The difference of two marks is the one of least size. -/
theorem toInt_signedDeltaMark (mark : Int32) :
    (signedDeltaMark mark).toInt = mark.toInt.bmod (2 ^ 30) := by
  have hshift : signedDeltaMark mark = (mark <<< 2) >>> 2 := rfl
  have hword := word_eq mark
  rw [hshift, toInt_signExtend mark 2 (k := 2) rfl (by decide)]
  rw [Int.bmod_def, Int.bmod_def]
  norm_num
  omega

/-! ### What the marks are to be -/

/-- A mark that is a difference modulo `2 ^ 30`, the one of least size. -/
structure IsDelta (mark : Int32) (difference : ℤ) : Prop where
  congruent : mark.toInt ≡ difference [ZMOD 2 ^ 30]
  lower : -2 ^ 29 ≤ mark.toInt
  upper : mark.toInt < 2 ^ 29

theorem isDelta_signedDeltaMark (mark : Int32) : IsDelta (signedDeltaMark mark) mark.toInt := by
  have hmark := toInt_signedDeltaMark mark
  have hlower := Int.le_bmod (x := mark.toInt) (m := 2 ^ 30) (by norm_num)
  have hupper := Int.bmod_lt (x := mark.toInt) (m := 2 ^ 30) (by norm_num)
  refine ⟨?_, ?_, ?_⟩
  · rw [hmark]
    exact Int.bmod_emod
  · rw [hmark]
    norm_num at hlower ⊢
    omega
  · rw [hmark]
    norm_num at hupper ⊢
    omega

/-- Such a mark is not the one for an unknown difference. -/
theorem IsDelta.ne_unknown {mark : Int32} {difference : ℤ} (h : IsDelta mark difference) :
    mark ≠ deltaMarkUnknown := by
  rintro rfl
  have hupper := h.upper
  exact absurd hupper (by decide)

namespace MarkContext

variable {c c' : MarkContext} {clock : Int64} {payload : HeartbeatPayload} {timeMark : Int32}

/-- The difference to the time mark of a heartbeat. -/
def delta (current : Int32) (payload : HeartbeatPayload) : ℤ :=
  (current.toInt - payload.timeMark.toInt).bmod (2 ^ 30)

/-- The round-trip time behind a heartbeat. -/
def rtt (c : MarkContext) (current : Int32) (payload : HeartbeatPayload) : ℤ :=
  if payload.hasTimeMark ∧ payload.hasDeltaMark then
    (delta current payload + payload.deltaMark.toInt).bmod (2 ^ 30)
  else c.connectionRttMark.toInt

/-- What a heartbeat is to do to the marks: those that are computed are differences, the others
stay, and the time mark is a positive number of 30 bits. -/
structure Marked (c : MarkContext) (current : Int32) (payload : HeartbeatPayload) (c' : MarkContext)
    (timeMark : Int32) : Prop where
  delta : payload.hasTimeMark →
    IsDelta c'.lastDeltaMark (current.toInt - payload.timeMark.toInt)
  noDelta : ¬ payload.hasTimeMark → c'.lastDeltaMark = c.lastDeltaMark
  rtt : payload.hasTimeMark → payload.hasDeltaMark →
    IsDelta c'.connectionRttMark
      (current.toInt - payload.timeMark.toInt + payload.deltaMark.toInt)
  noRtt : ¬ (payload.hasTimeMark ∧ payload.hasDeltaMark) →
    c'.connectionRttMark = c.connectionRttMark
  known : payload.hasTimeMark → c'.lastDeltaMark ≠ deltaMarkUnknown
  timeMark_pos : 1 ≤ timeMark.toInt
  timeMark_lt : timeMark.toInt < 2 ^ 30

/-- The marks of a heartbeat for which no sum overflows: the time mark is more than the current one
less `2 ^ 31`, the sum of the difference and the delta mark fits in 32 bits, and the sum of the lag
and the round-trip time lies between the current mark less `2 ^ 31` and `2 ^ 31`. -/
structure SumsFit (c : MarkContext) (current : Int32) (payload : HeartbeatPayload) : Prop where
  timeMark : payload.hasTimeMark → current.toInt - 2 ^ 31 < payload.timeMark.toInt
  deltaMark : payload.hasTimeMark → payload.hasDeltaMark →
    FitsInt (delta current payload + payload.deltaMark.toInt)
  lagMark : current.toInt - 2 ^ 31 < payload.lagMark.toInt + rtt c current payload
  lagMark_lt : payload.lagMark.toInt + rtt c current payload < 2 ^ 31

variable {current : Int32}

/-! ### One heartbeat -/

theorem computeTimeMark_range (h : c.computeTimeMark current = some timeMark) :
    1 ≤ timeMark.toInt ∧ timeMark.toInt < 2 ^ 30 := by
  obtain ⟨difference, -, hmark⟩ := Option.bind_eq_some_iff.mp h
  have hmask := toInt_and_timeMarkMask difference
  dsimp only at hmark
  split_ifs at hmark with hzero
  · obtain rfl := Option.some.inj hmark
    exact ⟨by decide, by decide⟩
  · obtain rfl := Option.some.inj hmark
    have hne : (difference.toUInt32 &&& timeMarkMask).toInt32.toInt ≠ 0 :=
      fun heq => hzero (Int32.toInt_inj.mp heq)
    omega

/-- There is a time mark if the difference does not overflow. -/
theorem isSome_computeTimeMark :
    (c.computeTimeMark current).isSome ↔ FitsInt (current.toInt - c.incomingLagMark.toInt) := by
  unfold computeTimeMark
  cases hdifference : signedInt (current.toInt - c.incomingLagMark.toInt) with
  | none => exact iff_of_false Bool.false_ne_true (signedInt_eq_none.mp hdifference)
  | some difference =>
      refine iff_of_true rfl ?_
      rw [← signedInt_eq_some.mp hdifference]
      exact fitsInt_toInt difference

theorem isDelta_of_signedInt {x : ℤ} {mark : Int32} (h : signedInt x = some mark) :
    IsDelta (signedDeltaMark mark) x ∧ (signedDeltaMark mark).toInt = x.bmod (2 ^ 30) := by
  have hx := signedInt_eq_some.mp h
  rw [← hx]
  exact ⟨isDelta_signedDeltaMark mark, toInt_signedDeltaMark mark⟩

/-- The differences are computed if neither of the two sums overflows. -/
theorem exists_updateDelta
    (hdelta : payload.hasTimeMark → FitsInt (current.toInt - payload.timeMark.toInt))
    (hrtt : payload.hasTimeMark → payload.hasDeltaMark →
      FitsInt (delta current payload + payload.deltaMark.toInt)) :
    ∃ c', c.updateDelta current payload = some c' := by
  unfold updateDelta
  by_cases hmark : payload.hasTimeMark = true
  · obtain ⟨difference, hdifference, -⟩ := exists_signedInt (hdelta hmark)
    have heq := (isDelta_of_signedInt hdifference).2
    rw [if_pos hmark, hdifference, Option.bind_eq_bind, Option.bind_some]
    by_cases hdeltaMark : payload.hasDeltaMark = true
    · obtain ⟨sum, hsum, -⟩ := exists_signedInt (hrtt hmark hdeltaMark)
      rw [delta, ← heq] at hsum
      exact ⟨_, by rw [if_pos hdeltaMark, hsum]; rfl⟩
    · exact ⟨_, if_neg hdeltaMark⟩
  · exact ⟨_, if_neg hmark⟩

/-- What the differences are. -/
structure Updated (c : MarkContext) (current : Int32) (payload : HeartbeatPayload)
    (c' : MarkContext) : Prop where
  fits : payload.hasTimeMark → FitsInt (current.toInt - payload.timeMark.toInt)
  rtt_fits : payload.hasTimeMark → payload.hasDeltaMark →
    FitsInt (delta current payload + payload.deltaMark.toInt)
  delta : payload.hasTimeMark →
    IsDelta c'.lastDeltaMark (current.toInt - payload.timeMark.toInt)
  noDelta : ¬ payload.hasTimeMark → c'.lastDeltaMark = c.lastDeltaMark
  rtt : payload.hasTimeMark → payload.hasDeltaMark →
    IsDelta c'.connectionRttMark
      (current.toInt - payload.timeMark.toInt + payload.deltaMark.toInt)
  noRtt : ¬ (payload.hasTimeMark ∧ payload.hasDeltaMark) →
    c'.connectionRttMark = c.connectionRttMark
  rtt_eq : c'.connectionRttMark.toInt = c.rtt current payload

theorem updated_of_updateDelta (h : c.updateDelta current payload = some c') :
    c.Updated current payload c' := by
  unfold updateDelta at h
  -- the delta mark is only looked at behind a time mark
  by_cases hmark : payload.hasTimeMark = true
  · rw [if_pos hmark] at h
    obtain ⟨difference, hdifference, h⟩ := Option.bind_eq_some_iff.mp h
    obtain ⟨hdelta, heq⟩ := isDelta_of_signedInt hdifference
    have hfits : FitsInt (current.toInt - payload.timeMark.toInt) := by
      rw [← signedInt_eq_some.mp hdifference]
      exact fitsInt_toInt difference
    dsimp only at h
    by_cases hdeltaMark : payload.hasDeltaMark = true
    · rw [if_pos hdeltaMark] at h
      obtain ⟨sum, hsum, h⟩ := Option.bind_eq_some_iff.mp h
      obtain rfl := Option.some.inj h
      obtain ⟨hrtt, hrtt_eq⟩ := isDelta_of_signedInt hsum
      have hsum_fits := fitsInt_toInt sum
      rw [signedInt_eq_some.mp hsum, heq] at hsum_fits
      refine ⟨fun _ => hfits, fun _ _ => hsum_fits, fun _ => hdelta, absurd hmark,
        fun _ _ => ⟨?_, hrtt.lower, hrtt.upper⟩, fun hnot => absurd ⟨hmark, hdeltaMark⟩ hnot, ?_⟩
      · exact hrtt.congruent.trans (hdelta.congruent.add_right _)
      · rw [rtt, if_pos ⟨hmark, hdeltaMark⟩, delta, ← heq]
        exact hrtt_eq
    · rw [if_neg hdeltaMark] at h
      obtain rfl := Option.some.inj h
      refine ⟨fun _ => hfits, fun _ hboth => absurd hboth hdeltaMark, fun _ => hdelta, absurd hmark,
        fun _ hboth => absurd hboth hdeltaMark, fun _ => rfl, ?_⟩
      rw [rtt, if_neg (fun hboth => hdeltaMark hboth.2)]
  · rw [if_neg hmark] at h
    obtain rfl := Option.some.inj h
    refine ⟨(absurd · hmark), (absurd · hmark), (absurd · hmark), fun _ => rfl, (absurd · hmark),
      fun _ => rfl, ?_⟩
    rw [rtt, if_neg (fun hboth => hmark hboth.1)]

/-- A heartbeat whose sums fit is processed. -/
theorem exists_process (h : c.SumsFit (currentTimeMark clock) payload) :
    ∃ c' timeMark, c.processIncomingHeartbeatPayload clock payload = some (c', timeMark) := by
  obtain ⟨hlower, hupper⟩ := currentTimeMark_range clock
  have hlow := h.lagMark
  have hhigh := h.lagMark_lt
  have hdelta : payload.hasTimeMark →
      FitsInt ((currentTimeMark clock).toInt - payload.timeMark.toInt) := by
    intro hmark
    have htime := h.timeMark hmark
    have hmax := payload.timeMark.toInt_lt
    constructor <;> omega
  obtain ⟨c₁, hupdate⟩ := exists_updateDelta (c := c) hdelta h.deltaMark
  have hrtt := (updated_of_updateDelta hupdate).rtt_eq
  -- the lag is used twice: in the sum with the round-trip time, and that sum in the next time mark
  obtain ⟨lag, hlag, hlag'⟩ := exists_signedInt
    (x := payload.lagMark.toInt + c₁.connectionRttMark.toInt) (by
      rw [hrtt]
      constructor <;> omega)
  have hdifference : FitsInt ((currentTimeMark clock).toInt - lag.toInt) := by
    rw [hlag', hrtt]
    constructor <;> omega
  obtain ⟨timeMark, htimeMark⟩ := Option.isSome_iff_exists.mp
    ((isSome_computeTimeMark (c := { c₁ with incomingLagMark := lag })).mpr hdifference)
  refine ⟨{ c₁ with incomingLagMark := lag }, timeMark, ?_⟩
  rw [processIncomingHeartbeatPayload, hupdate, Option.bind_eq_bind, Option.bind_some, hlag]
  dsimp only [Option.bind_eq_bind, Option.bind_some]
  rw [htimeMark]
  rfl

/-- The sums of a heartbeat that is processed fit, and the marks are what they are to be. -/
theorem process_spec (h : c.processIncomingHeartbeatPayload clock payload = some (c', timeMark)) :
    c.SumsFit (currentTimeMark clock) payload ∧
      c.Marked (currentTimeMark clock) payload c' timeMark := by
  obtain ⟨c₁, hupdate, h⟩ := Option.bind_eq_some_iff.mp h
  obtain ⟨lag, hlag, h⟩ := Option.bind_eq_some_iff.mp h
  obtain ⟨mark, hmark, h⟩ := Option.bind_eq_some_iff.mp h
  obtain ⟨rfl, rfl⟩ := Prod.mk.inj (Option.some.inj h)
  have hupdated := updated_of_updateDelta hupdate
  have hlag' := signedInt_eq_some.mp hlag
  have hlag_fits := fitsInt_toInt lag
  have hmark_fits := isSome_computeTimeMark.mp (Option.isSome_iff_exists.mpr ⟨_, hmark⟩)
  obtain ⟨hpos, hlt⟩ := computeTimeMark_range hmark
  dsimp only at hmark_fits
  rw [hupdated.rtt_eq] at hlag'
  refine ⟨⟨fun htime => ?_, hupdated.rtt_fits, ?_, ?_⟩, ?_⟩
  · have hfits := hupdated.fits htime
    have hhigh := hfits.2
    omega
  · have hhigh := hmark_fits.2
    omega
  · have hhigh := hlag_fits.2
    omega
  · exact ⟨hupdated.delta, hupdated.noDelta, hupdated.rtt, hupdated.noRtt,
      fun htime => (hupdated.delta htime).ne_unknown, hpos, hlt⟩

/-! ### Sequences of heartbeats -/

/-- The difference is unknown, or it is one of least size, and so is the round-trip time. -/
structure InRange (c : MarkContext) : Prop where
  delta : c.lastDeltaMark = deltaMarkUnknown ∨
    -2 ^ 29 ≤ c.lastDeltaMark.toInt ∧ c.lastDeltaMark.toInt < 2 ^ 29
  rtt_lower : -2 ^ 29 ≤ c.connectionRttMark.toInt
  rtt_upper : c.connectionRttMark.toInt < 2 ^ 29

/-- Heartbeats, with the clock at which each of them comes in. -/
abbrev Heartbeats := List (Int64 × HeartbeatPayload)

/-- No sum of the heartbeats overflows, each of them does to the marks what it is to do, and the
marks are in range in front of each of them and at the end. -/
def KeepsMarks (c : MarkContext) : Heartbeats → Prop
  | [] => c.InRange
  | (clock, payload) :: heartbeats =>
      c.InRange ∧ ∃ c' timeMark,
        c.processIncomingHeartbeatPayload clock payload = some (c', timeMark) ∧
          c.Marked (currentTimeMark clock) payload c' timeMark ∧ c'.KeepsMarks heartbeats

/-- The sums of all heartbeats fit. -/
def AllFit (c : MarkContext) : Heartbeats → Prop
  | [] => True
  | (clock, payload) :: heartbeats =>
      c.SumsFit (currentTimeMark clock) payload ∧
        ∀ c' timeMark, c.processIncomingHeartbeatPayload clock payload = some (c', timeMark) →
          c'.AllFit heartbeats

theorem inRange_init : init.InRange :=
  ⟨Or.inl rfl, by decide, by decide⟩

/-- A heartbeat keeps the marks in range. -/
theorem InRange.marked (h : c.InRange) (hmarked : c.Marked current payload c' timeMark) :
    c'.InRange := by
  by_cases hmark : payload.hasTimeMark = true
  · have hdelta := hmarked.delta hmark
    by_cases hdeltaMark : payload.hasDeltaMark = true
    · have hrtt := hmarked.rtt hmark hdeltaMark
      exact ⟨Or.inr ⟨hdelta.lower, hdelta.upper⟩, hrtt.lower, hrtt.upper⟩
    · have hrtt := hmarked.noRtt fun hboth => hdeltaMark hboth.2
      exact ⟨Or.inr ⟨hdelta.lower, hdelta.upper⟩, hrtt ▸ h.rtt_lower, hrtt ▸ h.rtt_upper⟩
  · have hdelta := hmarked.noDelta hmark
    have hrtt := hmarked.noRtt fun hboth => hmark hboth.1
    exact ⟨hdelta ▸ h.delta, hrtt ▸ h.rtt_lower, hrtt ▸ h.rtt_upper⟩

theorem InRange.keeps_iff (h : c.InRange) (heartbeats : Heartbeats) :
    c.KeepsMarks heartbeats ↔ c.AllFit heartbeats := by
  -- the range of the marks is all that a heartbeat needs to know of those before it
  induction heartbeats generalizing c with
  | nil => exact iff_of_true h trivial
  | cons heartbeat heartbeats ih =>
      obtain ⟨clock, payload⟩ := heartbeat
      constructor
      · rintro ⟨-, c', timeMark, hprocess, hmarked, hkeeps⟩
        refine ⟨(process_spec hprocess).1, fun next mark hnext => ?_⟩
        obtain ⟨rfl, rfl⟩ := Prod.mk.inj (Option.some.inj (hprocess.symm.trans hnext))
        exact (ih (h.marked hmarked)).mp hkeeps
      · rintro ⟨hfit, hrest⟩
        obtain ⟨c', timeMark, hprocess⟩ := exists_process hfit
        have hmarked := (process_spec hprocess).2
        exact ⟨h, c', timeMark, hprocess, hmarked,
          (ih (h.marked hmarked)).mpr (hrest c' timeMark hprocess)⟩

/-- In every sequence of heartbeats on a new connection the marks are what they are to be if and only
if the sums of each heartbeat fit. -/
theorem keepsMarks_iff (heartbeats : Heartbeats) :
    init.KeepsMarks heartbeats ↔ init.AllFit heartbeats :=
  inRange_init.keeps_iff heartbeats

/-- A heartbeat with the smallest time mark. -/
def smallestMark : HeartbeatPayload := ⟨HeartbeatPayload.timeMarkBit, 0, Int32.minValue, 0, 0⟩

/-- The difference of the current mark and the smallest one overflows. -/
theorem not_keepsMarks_smallest : ¬ init.KeepsMarks [(0, smallestMark)] := by
  rintro ⟨-, c', timeMark, hprocess, -, -⟩
  have hlt := (process_spec hprocess).1.timeMark rfl
  exact absurd hlt (by decide)

end MarkContext

end DxFeed.ServerMessageProcessor
