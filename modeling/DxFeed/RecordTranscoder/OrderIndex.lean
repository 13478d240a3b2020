import DxFeed.RecordTranscoder.Transcoders

/-!
# The indices of orders

Orders of quotes, of market makers and of sources share one space of 64-bit indices.

* `OrderIdentity`: an order by its kind and what its index is built from;
* `OrderIdentity.eventIndex`: the index that the transcoders build;
* `suffixToLong_injective`: the characters of a source can be read off its number;
* `eventIndex_injective`: distinct orders have distinct indices.
-/

namespace DxFeed.RecordTranscoder

open RecordBuffers Snapshot SymbolCodec

/-- An order of a quote (composite if the exchange is 0), of a market maker, or of a source. -/
inductive OrderIdentity
  | quoteBid (exchange : UInt16)
  | quoteAsk (exchange : UInt16)
  | marketMakerBid (exchange : UInt16) (id : BitVec 32)
  | marketMakerAsk (exchange : UInt16) (id : BitVec 32)
  | source (suffix : WString) (index : Int32)
  deriving DecidableEq

/-- A source as users name it: one to four characters, each of them printable; those of ASCII are
from 0x20 on, and nothing needs more than eight bits. -/
structure PrintableSource (suffix : WString) : Prop where
  ne_nil : suffix ≠ []
  length_le : suffix.length ≤ 4
  printable : ∀ c ∈ suffix, 0x20 ≤ c.toNat ∧ c.toNat ≤ 0xFF

namespace OrderIdentity

/-- A market maker of whom nothing but the exchange and the id are known. -/
def marketMaker (exchange : UInt16) (id : BitVec 32) : MarketMaker Unit :=
  ⟨exchange, id, 0, (), (), (), 0, (), (), ()⟩

/-- The index of an order. -/
def eventIndex : OrderIdentity → Int64
  | quoteBid exchange => orderFromQuoteIndex quoteBidSide exchange
  | quoteAsk exchange => orderFromQuoteIndex quoteAskSide exchange
  | marketMakerBid exchange id =>
      Int64.ofInt (orderFormMmIndex orderSourceAggregateBid (marketMaker exchange id) : ℤ)
  | marketMakerAsk exchange id =>
      Int64.ofInt (orderFormMmIndex orderSourceAggregateAsk (marketMaker exchange id) : ℤ)
  | source suffix index => orderIndex suffix index

/-- A source has a printable name. -/
def Valid : OrderIdentity → Prop
  | source suffix _ => PrintableSource suffix
  | _ => True

/-! ### The number of a source -/

/-- The number with these digits to the base 256. -/
def sourceNumber (suffix : WString) : ℕ :=
  suffix.foldl (fun ret c => ret * 256 + c.toNat) 0

theorem sourceNumber_concat (suffix : WString) (c : UInt16) :
    sourceNumber (suffix ++ [c]) = sourceNumber suffix * 256 + c.toNat := by
  rw [sourceNumber, List.foldl_append]
  rfl

/-- Digits that are not zero can be read off their number, however many they are. -/
theorem sourceNumber_injective {s t : WString} (hs : ∀ c ∈ s, 0 < c.toNat ∧ c.toNat < 256)
    (ht : ∀ c ∈ t, 0 < c.toNat ∧ c.toNat < 256) (h : sourceNumber s = sourceNumber t) : s = t := by
  induction s using List.reverseRecOn generalizing t with
  | nil =>
      rcases List.eq_nil_or_concat t with rfl | ⟨t, d, rfl⟩
      · rfl
      · rw [List.concat_eq_append] at ht h
        have hd := ht d (by simp)
        rw [sourceNumber_concat] at h
        simp only [sourceNumber, List.foldl_nil] at h
        omega
  | append_singleton s c ih =>
      have hc := hs c (by simp)
      rcases List.eq_nil_or_concat t with rfl | ⟨t, d, rfl⟩
      · rw [sourceNumber_concat] at h
        simp only [sourceNumber, List.foldl_nil] at h
        omega
      · rw [List.concat_eq_append] at ht h ⊢
        have hd := ht d (by simp)
        rw [sourceNumber_concat, sourceNumber_concat] at h
        have hlast : c = d := UInt16.toNat_inj.mp (by omega)
        have hrest : s = t := ih (fun c hc => hs c (List.mem_append_left _ hc))
          (fun d hd => ht d (List.mem_append_left _ hd)) (by omega)
        rw [hlast, hrest]

theorem sourceNumber_lt {s : WString} (hs : ∀ c ∈ s, c.toNat < 256) :
    sourceNumber s < 256 ^ s.length := by
  induction s using List.reverseRecOn with
  | nil => simp [sourceNumber]
  | append_singleton s c ih =>
      have hc := hs c (by simp)
      have hrest := ih fun c hc => hs c (List.mem_append_left _ hc)
      rw [sourceNumber_concat, List.length_append, List.length_singleton, pow_succ]
      omega

/-- The first digit is the highest one. -/
theorem le_sourceNumber (c : UInt16) (s : WString) :
    c.toNat * 256 ^ s.length ≤ sourceNumber (c :: s) := by
  induction s using List.reverseRecOn with
  | nil => simp [sourceNumber]
  | append_singleton s d ih =>
      rw [← List.cons_append, sourceNumber_concat, List.length_append, List.length_singleton,
        pow_succ, ← Nat.mul_assoc]
      exact (Nat.mul_le_mul_right _ ih).trans (Nat.le_add_right _ _)

/-- `suffix_to_long` of a printable source takes all of its characters. -/
theorem suffixToLong_eq {suffix : WString} (h : PrintableSource suffix) :
    suffixToLong suffix = sourceNumber suffix := by
  have hstep : ∀ (l : WString) (ret : ℕ), (∀ c ∈ l, c.toNat ≤ 0xFF) →
      l.foldl (fun ret c => ret <<< 8 ||| (c.toNat &&& 0xFF)) ret =
        l.foldl (fun ret c => ret * 256 + c.toNat) ret := by
    intro l
    induction l with
    | nil => exact fun _ _ => rfl
    | cons c l ih =>
        intro ret hl
        have hc := hl c List.mem_cons_self
        have hand : c.toNat &&& 0xFF = c.toNat := by
          rw [show 0xFF = 2 ^ 8 - 1 from rfl, Nat.and_two_pow_sub_one_eq_mod]
          omega
        rw [List.foldl_cons, List.foldl_cons, hand,
          ← Nat.shiftLeft_add_eq_or_of_lt (show c.toNat < 2 ^ 8 by omega), Nat.shiftLeft_eq]
        exact ih _ fun c hc => hl c (List.mem_cons_of_mem _ hc)
  have hall : suffix.length - 4 = 0 := Nat.sub_eq_zero_of_le h.length_le
  rw [suffixToLong, hall, List.drop_zero, hstep _ _ fun c hc => (h.printable c hc).2]
  rfl

/-- The number of a source has no special source in its upper half. -/
theorem sourceNumber_range {suffix : WString} (h : PrintableSource suffix) :
    sourceNumber suffix < 2 ^ 32 ∧
      (sourceNumber suffix < 2 ^ 16 ∨ 7 * 2 ^ 16 ≤ sourceNumber suffix) := by
  have hlt := sourceNumber_lt fun c hc => Nat.lt_succ_of_le (h.printable c hc).2
  have hlength := h.length_le
  have hbound : 256 ^ suffix.length ≤ 256 ^ 4 := Nat.pow_le_pow_right (by norm_num) hlength
  refine ⟨by omega, ?_⟩
  rcases Nat.lt_or_ge suffix.length 3 with hshort | hlong
  · have hpow : 256 ^ suffix.length ≤ 256 ^ 2 := Nat.pow_le_pow_right (by norm_num) (by omega)
    exact Or.inl (by omega)
  · obtain ⟨c, s, rfl⟩ := List.exists_cons_of_ne_nil h.ne_nil
    have hc := (h.printable c List.mem_cons_self).1
    have hle := le_sourceNumber c s
    have hpow : 256 ^ 2 ≤ 256 ^ s.length :=
      Nat.pow_le_pow_right (by norm_num) (by rw [List.length_cons] at hlong; omega)
    have hprod : 0x20 * 256 ^ 2 ≤ c.toNat * 256 ^ s.length := Nat.mul_le_mul hc hpow
    exact Or.inr (by omega)

/-! ### The two halves of an index -/

/-- The special source of the index, and 0 for the source of a user. -/
def tag : OrderIdentity → ℕ
  | quoteBid exchange => if exchange = 0 then 1 else 3
  | quoteAsk exchange => if exchange = 0 then 2 else 4
  | marketMakerBid _ _ => 5
  | marketMakerAsk _ _ => 6
  | source _ _ => 0

/-- The exchange beside a special source. -/
def exchange : OrderIdentity → UInt16
  | quoteBid exchange => exchange
  | quoteAsk exchange => exchange
  | marketMakerBid exchange _ => exchange
  | marketMakerAsk exchange _ => exchange
  | source _ _ => 0

/-- The upper half of the index. -/
def upper : OrderIdentity → ℕ
  | source suffix _ => sourceNumber suffix
  | identity => identity.tag * 2 ^ 16 + identity.exchange.toNat

/-- The lower half of the index. -/
def lower : OrderIdentity → ℕ
  | quoteBid _ => 0
  | quoteAsk _ => 0
  | marketMakerBid _ id => id.toNat
  | marketMakerAsk _ id => id.toNat
  | source _ index => index.toBitVec.toNat

theorem tag_le (identity : OrderIdentity) : identity.tag ≤ 6 := by
  cases identity with
  | quoteBid exchange => simp only [tag]; split_ifs <;> omega
  | quoteAsk exchange => simp only [tag]; split_ifs <;> omega
  | marketMakerBid exchange id => exact Nat.le_succ 5
  | marketMakerAsk exchange id => exact le_rfl
  | source suffix index => exact Nat.zero_le 6

/-- The upper half of a special source, or of the source of a user. -/
theorem upper_cases (identity : OrderIdentity) :
    (0 < identity.tag ∧ identity.upper = identity.tag * 2 ^ 16 + identity.exchange.toNat) ∨
      ∃ suffix index, identity = source suffix index := by
  cases identity with
  | quoteBid exchange => exact Or.inl ⟨by simp only [tag]; split_ifs <;> omega, rfl⟩
  | quoteAsk exchange => exact Or.inl ⟨by simp only [tag]; split_ifs <;> omega, rfl⟩
  | marketMakerBid exchange id => exact Or.inl ⟨Nat.succ_pos 4, rfl⟩
  | marketMakerAsk exchange id => exact Or.inl ⟨Nat.succ_pos 5, rfl⟩
  | source suffix index => exact Or.inr ⟨suffix, index, rfl⟩

theorem upper_lt {identity : OrderIdentity} (h : identity.Valid) : identity.upper < 2 ^ 32 := by
  rcases identity.upper_cases with ⟨-, hupper⟩ | ⟨suffix, index, rfl⟩
  · have htag := identity.tag_le
    have hexchange := identity.exchange.toNat_lt
    omega
  · exact (sourceNumber_range h).1

theorem lower_lt (identity : OrderIdentity) : identity.lower < 2 ^ 32 := by
  cases identity with
  | quoteBid exchange => norm_num [lower]
  | quoteAsk exchange => norm_num [lower]
  | marketMakerBid exchange id => exact id.isLt
  | marketMakerAsk exchange id => exact id.isLt
  | source suffix index => exact index.toBitVec.isLt

/-- A special source above an exchange and 32 bits. -/
theorem special_eq (tag : ℕ) (exchange : UInt16) {low : ℕ} (hlow : low < 2 ^ 32) :
    tag <<< orderIndexSsrcShift ||| charToBits exchange <<< orderIndexExcShift ||| low =
      (tag * 2 ^ 16 + exchange.toNat) * 2 ^ 32 + low := by
  have hexchange := exchange.toNat_lt
  have hupper : tag <<< orderIndexSsrcShift ||| charToBits exchange <<< orderIndexExcShift =
      (tag * 2 ^ 16 + exchange.toNat) <<< 32 := by
    rw [charToBits_eq, orderIndexSsrcShift, orderIndexExcShift,
      ← Nat.shiftLeft_add_eq_or_of_lt (by rw [Nat.shiftLeft_eq]; omega), Nat.shiftLeft_eq,
      Nat.shiftLeft_eq, Nat.shiftLeft_eq]
    omega
  rw [hupper, ← Nat.shiftLeft_add_eq_or_of_lt hlow, Nat.shiftLeft_eq]

theorem eventIndex_eq {identity : OrderIdentity} (h : identity.Valid) :
    identity.eventIndex = Int64.ofNat (identity.upper * 2 ^ 32 + identity.lower) := by
  cases identity with
  | quoteBid e =>
      rw [upper, lower, exchange, ← special_eq _ _ (by norm_num), Nat.or_zero]
      · rfl
      · exact nofun
  | quoteAsk e =>
      rw [upper, lower, exchange, ← special_eq _ _ (by norm_num), Nat.or_zero]
      · rfl
      · exact nofun
  | marketMakerBid e id =>
      rw [upper, lower, exchange, ← special_eq _ _ id.isLt]
      · exact Int64.ofInt_eq_ofNat
      · exact nofun
  | marketMakerAsk e id =>
      rw [upper, lower, exchange, ← special_eq _ _ id.isLt]
      · exact Int64.ofInt_eq_ofNat
      · exact nofun
  | source suffix index =>
      rw [eventIndex, orderIndex, suffixToLong_eq h, upper, lower, intToBits,
        ← Nat.shiftLeft_add_eq_or_of_lt index.toBitVec.isLt, Nat.shiftLeft_eq]

/-- Orders with special sources are told apart by the source, the exchange and the id. -/
theorem eq_of_special {i j : OrderIdentity} (hi : 0 < i.tag) (htag : i.tag = j.tag)
    (hexchange : i.exchange = j.exchange) (hlower : i.lower = j.lower) : i = j := by
  cases i with
  | quoteBid e =>
      cases j with
      | quoteBid e' => exact congrArg quoteBid hexchange
      | _ => grind [tag]
  | quoteAsk e =>
      cases j with
      | quoteAsk e' => exact congrArg quoteAsk hexchange
      | _ => grind [tag]
  | marketMakerBid e id =>
      cases j with
      | marketMakerBid e' id' =>
          exact congrArg₂ marketMakerBid hexchange (BitVec.eq_of_toNat_eq hlower)
      | _ => grind [tag]
  | marketMakerAsk e id =>
      cases j with
      | marketMakerAsk e' id' =>
          exact congrArg₂ marketMakerAsk hexchange (BitVec.eq_of_toNat_eq hlower)
      | _ => grind [tag]
  | source suffix index => exact absurd hi (lt_irrefl 0)

/-- The halves of an index tell the orders apart. -/
theorem eq_of_halves {i j : OrderIdentity} (hi : i.Valid) (hj : j.Valid)
    (hupper : i.upper = j.upper) (hlower : i.lower = j.lower) : i = j := by
  have hitag := i.tag_le
  have hjtag := j.tag_le
  have hiexchange := i.exchange.toNat_lt
  have hjexchange := j.exchange.toNat_lt
  rcases i.upper_cases with ⟨hpos, hi'⟩ | ⟨s, m, rfl⟩
  · rcases j.upper_cases with ⟨-, hj'⟩ | ⟨t, n, rfl⟩
    · exact eq_of_special hpos (by omega) (UInt16.toNat_inj.mp (by omega)) hlower
    · have hrange := (sourceNumber_range hj).2
      rw [upper] at hupper
      omega
  · rcases j.upper_cases with ⟨hpos, hj'⟩ | ⟨t, n, rfl⟩
    · have hrange := (sourceNumber_range hi).2
      rw [upper] at hupper
      omega
    · have hdigits : ∀ {u : WString}, PrintableSource u → ∀ c ∈ u, 0 < c.toNat ∧ c.toNat < 256 := by
        intro u hu c hc
        have hprintable := hu.printable c hc
        omega
      have hsource : s = t := sourceNumber_injective (hdigits hi) (hdigits hj) hupper
      have hindex : m = n := Int32.toBitVec_inj.mp (BitVec.eq_of_toNat_eq hlower)
      rw [hsource, hindex]

/-- Distinct orders have distinct indices. -/
theorem eventIndex_injective {i j : OrderIdentity} (hi : i.Valid) (hj : j.Valid) (hne : i ≠ j) :
    i.eventIndex ≠ j.eventIndex := by
  intro h
  have hi₁ := upper_lt hi
  have hi₂ := lower_lt i
  have hj₁ := upper_lt hj
  have hj₂ := lower_lt j
  have hbits : ∀ n : ℕ, n < 2 ^ 64 → (Int64.ofNat n).toBitVec.toNat = n := by
    intro n hn
    rw [Int64.toBitVec_ofNat', BitVec.toNat_ofNat, Nat.mod_eq_of_lt hn]
  rw [eventIndex_eq hi, eventIndex_eq hj] at h
  have hnat := congrArg (fun x : Int64 => x.toBitVec.toNat) h
  rw [hbits _ (by omega), hbits _ (by omega)] at hnat
  exact hne (eq_of_halves hi hj (by omega) (by omega))

/-- The source "A" and the exchange 'A' of a quote. -/
theorem eventIndex_injective_A :
    (source [65] 0).eventIndex ≠ (quoteBid 65).eventIndex := by
  have hvalid : (source [65] 0).Valid := ⟨by simp, by simp, by simp⟩
  exact eventIndex_injective hvalid trivial nofun

end OrderIdentity

end DxFeed.RecordTranscoder
