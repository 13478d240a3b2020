import DxFeed.Candle

/-!
# What is written for a candle symbol

* `Appends`: a call that appends a text which depends on `put_comma`;
* `exec_candleSymbolToString`: the text that the call writes;
* `MissesComma`: the price level is the first attribute of several;
* `hasText_iff`: the attributes whose text is what it should be.
-/

namespace DxFeed.Candle

open Call
open ServerMessageProcessor (wideString)

variable {D : Type} (platform : CandlePlatform D) (attributes : CandleAttributes D)

/-! ### What the calls append -/

/-- The call appends a text that depends on `put_comma`, and changes `put_comma`; if the text does
not fit, it is an error. -/
def Appends (x : SymbolCall Unit) (src : Bool → WString) (flag : Bool → Bool) : Prop :=
  ∀ b : SymbolBuffer, b.text.length < bufferSize →
    (b.text.length + (src b.putComma).length < bufferSize →
      exec x b = (.ok (), ⟨b.text ++ src b.putComma, flag b.putComma⟩)) ∧
    (bufferSize ≤ b.text.length + (src b.putComma).length → (exec x b).1 = .error .overrun)

theorem Appends.bind {x y : SymbolCall Unit} {src src' : Bool → WString} {flag flag' : Bool → Bool}
    (hx : Appends x src flag) (hy : Appends y src' flag') :
    Appends (x >>= fun _ => y) (fun c => src c ++ src' (flag c)) (fun c => flag' (flag c)) := by
  intro b hb
  rw [List.length_append]
  rcases Nat.lt_or_ge (b.text.length + (src b.putComma).length) bufferSize with hfits | hlong
  · rw [exec_bind_ok ((hx b hb).1 hfits)]
    have hnext := hy ⟨b.text ++ src b.putComma, flag b.putComma⟩
      (by rw [List.length_append]; exact hfits)
    rw [List.length_append, Nat.add_assoc, List.append_assoc] at hnext
    exact hnext
  · refine ⟨fun hfits => absurd hlong (by omega), fun _ => ?_⟩
    have herror := (hx b hb).2 hlong
    rcases hexec : exec x b with ⟨result, b'⟩
    rw [hexec] at herror
    obtain rfl := herror
    rw [exec_bind_error hexec]

theorem appends_concatenateStrings (src : WString) :
    Appends (concatenateStrings src) (fun _ => src) id := by
  intro b hb
  unfold concatenateStrings
  rw [exec_bind_ok (exec_get _)]
  dsimp only
  split_ifs with hlong
  · exact ⟨fun hfits => absurd hlong (by omega), fun _ => rfl⟩
  · exact ⟨fun _ => rfl, fun hlong' => absurd hlong' hlong⟩

theorem appends_setPutComma : Appends setPutComma (fun _ => []) (fun _ => true) := by
  intro b hb
  refine ⟨fun _ => ?_, fun hlong => absurd hb (by simpa using hlong)⟩
  rw [List.append_nil]
  rfl

/-- A call that is made on a condition. -/
theorem Appends.ite {x : SymbolCall Unit} {src : Bool → WString} {flag : Bool → Bool}
    (h : Appends x src flag) (present : Bool) :
    Appends (if present then x else pure ()) (fun c => if present then src c else [])
      (fun c => if present then flag c else c) := by
  cases present with
  | true => exact h
  | false =>
      intro b hb
      refine ⟨fun _ => ?_, fun hlong => absurd hb (by simpa using hlong)⟩
      show exec (pure ()) b = (.ok (), ⟨b.text ++ [], b.putComma⟩)
      rw [List.append_nil]
      rfl

theorem Appends.congr {x : SymbolCall Unit} {src src' : Bool → WString} {flag flag' : Bool → Bool}
    (h : Appends x src flag) (hsrc : ∀ c, src c = src' c) (hflag : ∀ c, flag c = flag' c) :
    Appends x src' flag' := by
  rw [← funext hsrc, ← funext hflag]
  exact h

theorem appends_writeComma :
    Appends writeComma (fun c => if c then wideString "," else []) id := by
  intro b hb
  unfold writeComma
  rw [exec_bind_ok (exec_get _)]
  cases hcomma : b.putComma with
  | true =>
      have happends := appends_concatenateStrings (wideString ",") b hb
      rw [hcomma] at happends
      exact happends
  | false =>
      refine ⟨fun _ => ?_, fun hlong => absurd hb (by simpa using hlong)⟩
      show exec (pure ()) b = (.ok (), ⟨b.text ++ [], false⟩)
      rw [List.append_nil, ← hcomma]
      rfl

/-- One item of the group, with the comma in front of it. -/
theorem separated_itemIf (putComma present : Bool) (item : CandleAttribute) :
    separated putComma (itemIf present item) =
      if present then (if putComma then wideString "," else []) ++ item.text else [] := by
  cases present with
  | false => rfl
  | true => simp [itemIf, separated]

theorem appends_writeAttribute (present : Bool) {key value : WString} {item : CandleAttribute}
    (htext : key ++ value = item.text) :
    Appends (writeAttribute present key value) (fun c => separated c (itemIf present item))
      (fun c => c || !(itemIf present item).isEmpty) := by
  have hwrite := appends_writeComma.bind
    ((appends_concatenateStrings key).bind ((appends_concatenateStrings value).bind
      appends_setPutComma))
  refine (hwrite.ite present).congr (fun c => ?_) (fun c => ?_)
  · rw [separated_itemIf, ← htext, List.append_nil]
  · rw [isEmpty_itemIf]
    cases present <;> cases c <;> rfl

theorem appends_writeAlignment :
    Appends (writeAlignment attributes) (fun c => separated c attributes.alignmentItems)
      (fun c => c || !attributes.alignmentItems.isEmpty) :=
  appends_writeAttribute _ rfl

theorem appends_writePrice :
    Appends (writePrice attributes) (fun c => separated c attributes.priceItems)
      (fun c => c || !attributes.priceItems.isEmpty) :=
  appends_writeAttribute _ rfl

theorem appends_writeSession :
    Appends (writeSession attributes) (fun c => separated c attributes.sessionItems)
      (fun c => c || !attributes.sessionItems.isEmpty) :=
  appends_writeAttribute _ rfl

/-- No comma is written in front of the period. -/
theorem appends_writePeriod :
    Appends (writePeriod platform attributes)
      (fun _ => separated false (attributes.periodItems platform))
      (fun c => c || !(attributes.periodItems platform).isEmpty) := by
  have hvalue : Appends (writePeriodValue platform attributes) _ _ :=
    (appends_concatenateStrings (platform.formatG attributes.periodValue)).ite
      (!platform.eq attributes.periodValue platform.one)
  have hwrite := (appends_concatenateStrings (wideString "=")).bind
    (hvalue.bind ((appends_concatenateStrings attributes.periodType.string).bind
      appends_setPutComma))
  unfold CandleAttributes.periodItems
  refine (hwrite.ite (attributes.hasPeriod platform)).congr (fun c => ?_) (fun c => ?_)
  · rw [separated_itemIf]
    unfold CandleAttributes.period
    cases platform.eq attributes.periodValue platform.one <;>
      simp [CandleAttribute.text, CandleAttribute.key, CandleAttribute.value, wideString]
  · rw [isEmpty_itemIf]
    cases attributes.hasPeriod platform <;> cases c <;> rfl

/-- Behind the price level `put_comma` is what it was. -/
theorem appends_writePriceLevel :
    Appends (writePriceLevel platform attributes)
      (fun c => separated c (attributes.priceLevelItems platform)) (fun c => c) := by
  have hwrite := appends_writeComma.bind
    ((appends_concatenateStrings (wideString "pl=")).bind
      (appends_concatenateStrings (platform.formatG attributes.priceLevel)))
  unfold CandleAttributes.priceLevelItems
  refine (hwrite.ite (!platform.isnan attributes.priceLevel)).congr (fun c => ?_) (fun c => ?_)
  · rw [separated_itemIf]
    rfl
  · cases platform.isnan attributes.priceLevel <;> rfl

/-- `put_comma` in front of the price. -/
def CandleAttributes.commaBehind : Bool :=
  !(attributes.periodItems platform).isEmpty || !attributes.alignmentItems.isEmpty

/-- What is written between the braces. -/
def CandleAttributes.writtenBody : WString :=
  separated false (attributes.periodItems platform ++ attributes.alignmentItems ++
      attributes.priceLevelItems platform) ++
    separated (attributes.commaBehind platform)
      (attributes.priceItems ++ attributes.sessionItems)

theorem appends_writeGroup :
    ∃ src flag, Appends (writeGroup platform attributes) src flag ∧
      src false = 0x7B :: attributes.writtenBody platform ++ [0x7D] := by
  refine ⟨_, _, (appends_concatenateStrings (wideString "\x7b")).bind
    ((appends_writePeriod platform attributes).bind
      ((appends_writeAlignment attributes).bind
        ((appends_writePriceLevel platform attributes).bind
          ((appends_writePrice attributes).bind
            ((appends_writeSession attributes).bind
              (appends_concatenateStrings (wideString "\x7d"))))))), ?_⟩
  have hopen : wideString "\x7b" = [0x7B] := rfl
  have hclose : wideString "\x7d" = [0x7D] := rfl
  unfold CandleAttributes.writtenBody CandleAttributes.commaBehind
  simp only [separated_append, List.append_assoc, hopen, hclose, List.cons_append, List.nil_append,
    Bool.false_or, id_eq]

/-- The price level is the first attribute of several. -/
structure CandleAttributes.MissesComma : Prop where
  period : attributes.hasPeriod platform = false
  alignment : attributes.alignment = .default
  priceLevel : platform.isnan attributes.priceLevel = false
  behind : attributes.price ≠ .default ∨ attributes.session ≠ .default

theorem itemIf_eq_nil {present : Bool} {item : CandleAttribute} :
    itemIf present item = [] ↔ present = false := by
  cases present <;> simp [itemIf]

theorem allDefault_iff :
    attributes.allDefault platform = true ↔ attributes.nonDefault platform = [] := by
  unfold CandleAttributes.allDefault CandleAttributes.nonDefault CandleAttributes.periodItems
    CandleAttributes.alignmentItems CandleAttributes.priceLevelItems CandleAttributes.priceItems
    CandleAttributes.sessionItems CandleAttributes.hasPeriod
  simp only [List.append_eq_nil_iff, itemIf_eq_nil, Bool.and_eq_true, Bool.or_eq_false_iff,
    Bool.not_eq_false', decide_eq_true_eq, decide_eq_false_iff_not, not_not]
  tauto

theorem not_isEmpty_append (xs ys : List CandleAttribute) :
    (!(xs ++ ys).isEmpty) = (!xs.isEmpty || !ys.isEmpty) := by
  cases xs <;> rfl

theorem missesComma_iff :
    attributes.MissesComma platform ↔
      attributes.commaBehind platform = false ∧ attributes.priceLevelItems platform ≠ [] ∧
        attributes.priceItems ++ attributes.sessionItems ≠ [] := by
  unfold CandleAttributes.commaBehind CandleAttributes.periodItems
    CandleAttributes.alignmentItems CandleAttributes.priceLevelItems CandleAttributes.priceItems
    CandleAttributes.sessionItems
  simp only [ne_eq, List.append_eq_nil_iff, isEmpty_itemIf, itemIf_eq_nil, Bool.or_eq_false_iff,
    Bool.not_eq_false', decide_eq_false_iff_not, not_not]
  constructor
  · rintro ⟨hperiod, halignment, hlevel, hbehind⟩
    refine ⟨⟨hperiod, halignment⟩, by rw [hlevel]; decide, ?_⟩
    tauto
  · rintro ⟨⟨hperiod, halignment⟩, hlevel, hbehind⟩
    refine ⟨hperiod, halignment, Bool.eq_false_iff.mpr hlevel, ?_⟩
    tauto

theorem nonDefault_eq :
    attributes.nonDefault platform =
      attributes.periodItems platform ++ attributes.alignmentItems ++
        attributes.priceLevelItems platform ++ (attributes.priceItems ++ attributes.sessionItems) :=
  List.append_assoc _ _ _

/-- If no comma is missing, the items are separated by commas. -/
theorem writtenBody_eq (h : ¬ attributes.MissesComma platform) :
    attributes.writtenBody platform = separated false (attributes.nonDefault platform) := by
  rw [missesComma_iff] at h
  rw [nonDefault_eq, separated_append, not_isEmpty_append, not_isEmpty_append, Bool.false_or]
  unfold CandleAttributes.writtenBody
  congr 1
  -- the price level leaves `put_comma` as it was, which matters only if something is behind it
  show separated _ _ = separated (attributes.commaBehind platform || _) _
  cases hcomma : attributes.commaBehind platform with
  | true => rfl
  | false =>
      by_cases hlevel : attributes.priceLevelItems platform = []
      · rw [hlevel]
        rfl
      · have hbehind : attributes.priceItems ++ attributes.sessionItems = [] := by
          by_contra hbehind
          exact h ⟨hcomma, hlevel, hbehind⟩
        rw [hbehind]
        rfl

/-- If a comma is missing, the price level and the item behind it are one text. -/
theorem splitOn_writtenBody (h : attributes.MissesComma platform) :
    ((attributes.writtenBody platform).splitOn 0x2C).length + 1 =
      (attributes.nonDefault platform).length := by
  have hmem := wellFormed_nonDefault platform attributes
  have hbefore : attributes.periodItems platform ++ attributes.alignmentItems ++
      attributes.priceLevelItems platform =
        [.priceLevel (platform.formatG attributes.priceLevel)] := by
    unfold CandleAttributes.periodItems CandleAttributes.alignmentItems
      CandleAttributes.priceLevelItems
    rw [h.period, h.alignment, h.priceLevel]
    rfl
  obtain ⟨hcomma, -, hbehind⟩ := (missesComma_iff platform attributes).mp h
  rw [nonDefault_eq, hbefore] at hmem ⊢
  unfold CandleAttributes.writtenBody
  rw [hbefore, hcomma]
  cases hitems : attributes.priceItems ++ attributes.sessionItems with
  | nil => exact absurd hitems hbehind
  | cons item items =>
      rw [hitems] at hmem
      have hlevel : (0x2C : UInt16) ∉ _ := comma_notMem_text
        (hmem (.priceLevel (platform.formatG attributes.priceLevel)) (by simp))
      have hitem : (0x2C : UInt16) ∉ _ := comma_notMem_text (hmem item (by simp))
      have hitems : ∀ other ∈ items, other.WellFormed :=
        fun other hother => hmem other (by simp [hother])
      have hsplit := splitOn_append_separated (List.not_mem_append hlevel hitem) hitems
      have hbody : separated false [.priceLevel (platform.formatG attributes.priceLevel)] ++
          separated false (item :: items) =
          CandleAttribute.text (.priceLevel (platform.formatG attributes.priceLevel)) ++ item.text ++
            separated true items := by
        simp [separated]
      rw [hbody, hsplit]
      simp

/-! ### The call -/

/-- What is written behind the exchange code. -/
def CandleAttributes.writtenGroup : WString :=
  if attributes.allDefault platform then []
  else 0x7B :: attributes.writtenBody platform ++ [0x7D]

theorem appends_writeExchangeCode :
    Appends (writeExchangeCode platform attributes) (fun _ => attributes.exchangeText platform)
      (fun c => c) := by
  have hwrite := (appends_concatenateStrings
    ([0x26, attributes.exchangeCode].takeWhile (· ≠ 0))).ite
      (platform.iswalpha attributes.exchangeCode)
  refine hwrite.congr (fun c => ?_) (fun c => ?_)
  · unfold CandleAttributes.exchangeText
    cases halpha : platform.iswalpha attributes.exchangeCode with
    | false => rfl
    | true =>
        have hcode : attributes.exchangeCode ≠ 0 := by
          intro hzero
          rw [hzero, platform.iswalpha_zero] at halpha
          cases halpha
        simp [hcode]
  · cases platform.iswalpha attributes.exchangeCode <;> rfl

/-- The call behind the exchange code. -/
theorem exec_rest {text : WString} (htext : text.length < bufferSize) :
    (exec (if attributes.allDefault platform then createString true
      else do
        writeGroup platform attributes
        createString true) ⟨text, false⟩).1 =
      if (text ++ attributes.writtenGroup platform).length < bufferSize then
        .ok (text ++ attributes.writtenGroup platform)
      else .error .overrun := by
  unfold CandleAttributes.writtenGroup
  cases attributes.allDefault platform with
  | true =>
      rw [if_pos rfl, if_pos rfl, List.append_nil, if_pos htext]
      rfl
  | false =>
      obtain ⟨src, flag, happends, hsrc⟩ := appends_writeGroup platform attributes
      have hgroup := happends ⟨text, false⟩ htext
      rw [hsrc, ← List.length_append] at hgroup
      dsimp only at hgroup
      rw [if_neg Bool.false_ne_true, if_neg Bool.false_ne_true]
      split_ifs with hfits
      · rw [exec_bind_ok (hgroup.1 hfits)]
        rfl
      -- the text that does not fit is not the result: the buffer is overrun while it is written
      · have herror := hgroup.2 (by omega)
        rcases hexec : exec (writeGroup platform attributes) ⟨text, false⟩ with ⟨result, b⟩
        rw [hexec] at herror
        obtain rfl := herror
        rw [exec_bind_error hexec]

/-- The call gives what is written, if it fits. -/
theorem exec_candleSymbolToString :
    (exec (candleSymbolToString platform true (some attributes)) ⟨[], false⟩).1 =
      if (attributes.baseSymbol ++ attributes.exchangeText platform ++
          attributes.writtenGroup platform).length < bufferSize then
        .ok (attributes.baseSymbol ++ attributes.exchangeText platform ++
          attributes.writtenGroup platform)
      else .error .overrun := by
  unfold candleSymbolToString
  rcases Nat.lt_or_ge attributes.baseSymbol.length bufferSize with hbase | hbase
  swap
  · have hcopy : exec (copyString attributes.baseSymbol) ⟨[], false⟩ =
        (.error .overrun, ⟨[], false⟩) := by
      unfold copyString
      rw [if_pos hbase]
      rfl
    rw [exec_bind_error hcopy, if_neg (by simp; omega)]
  have hcopy : exec (copyString attributes.baseSymbol) ⟨[], false⟩ =
      (.ok (), ⟨attributes.baseSymbol, false⟩) := by
    unfold copyString
    rw [if_neg (by omega)]
    rfl
  rw [exec_bind_ok hcopy]
  have hexchange := appends_writeExchangeCode platform attributes ⟨attributes.baseSymbol, false⟩ hbase
  dsimp only at hexchange
  rw [← List.length_append] at hexchange
  rcases Nat.lt_or_ge (attributes.baseSymbol ++ attributes.exchangeText platform).length bufferSize
    with hfits | hlong
  · rw [exec_bind_ok (hexchange.1 hfits)]
    exact exec_rest platform attributes hfits
  · have herror := hexchange.2 hlong
    rcases hexec : exec (writeExchangeCode platform attributes) ⟨attributes.baseSymbol, false⟩
      with ⟨result, b⟩
    rw [hexec] at herror
    obtain rfl := herror
    rw [exec_bind_error hexec, if_neg (by rw [List.length_append]; omega)]

/-- The text that a symbol has. -/
def CandleAttributes.symbolText : WString :=
  attributes.baseSymbol ++ attributes.exchangeText platform ++
    if attributes.nonDefault platform = [] then []
    else 0x7B :: separated false (attributes.nonDefault platform) ++ [0x7D]

theorem isSymbolText_symbolText :
    IsSymbolText platform attributes (attributes.symbolText platform) := by
  refine ⟨_, rfl, ?_⟩
  split_ifs with hnil
  · rfl
  · have hsplit := splitOn_separated (wellFormed_nonDefault platform attributes) hnil
    refine ⟨_, rfl, hsplit, ?_⟩
    rw [hsplit, List.map_map]
    exact List.map_congr_left fun item hitem =>
      readAttribute_text (wellFormed_nonDefault platform attributes item hitem)

/-- Without a comma that is missing the text of the symbol is written. -/
theorem written_eq (h : ¬ attributes.MissesComma platform) :
    attributes.baseSymbol ++ attributes.exchangeText platform ++
      attributes.writtenGroup platform = attributes.symbolText platform := by
  unfold CandleAttributes.symbolText CandleAttributes.writtenGroup
  rw [writtenBody_eq platform attributes h]
  by_cases hnil : attributes.nonDefault platform = []
  · rw [if_pos hnil, if_pos ((allDefault_iff platform attributes).mpr hnil)]
  · rw [if_neg hnil, if_neg (mt (allDefault_iff platform attributes).mp hnil)]

theorem not_isSymbolText_of_missesComma (h : attributes.MissesComma platform) :
    ¬ IsSymbolText platform attributes
      (attributes.baseSymbol ++ attributes.exchangeText platform ++
        attributes.writtenGroup platform) := by
  have hsplit := splitOn_writtenBody platform attributes h
  have hne : attributes.nonDefault platform ≠ [] := by
    intro hnil
    rw [hnil] at hsplit
    cases hsplit
  -- the text that is written has only one group, and that has an item too few
  rintro ⟨group, hgroup, hbody⟩
  rw [if_neg hne] at hbody
  obtain ⟨body, rfl, hitems, -⟩ := hbody
  have hwritten := List.append_cancel_left hgroup
  unfold CandleAttributes.writtenGroup at hwritten
  rw [if_neg (mt (allDefault_iff platform attributes).mp hne)] at hwritten
  have hbody : attributes.writtenBody platform = body :=
    List.append_cancel_right (List.cons.inj hwritten).2
  rw [hbody, hitems, List.length_map] at hsplit
  omega

/-- The attributes have their text exactly if it fits into the buffer and no comma is missing. -/
theorem hasText_iff (platform : CandlePlatform D) (attributes : CandleAttributes D) :
    HasText platform attributes ↔
      ¬ attributes.MissesComma platform ∧ (attributes.symbolText platform).length ≤ 999 := by
  unfold HasText
  rw [exec_candleSymbolToString]
  constructor
  · rintro ⟨s, hs, htext⟩
    split_ifs at hs with hfits
    obtain rfl := Except.ok.inj hs
    have hcomma : ¬ attributes.MissesComma platform := fun hmisses =>
      not_isSymbolText_of_missesComma platform attributes hmisses htext
    rw [written_eq platform attributes hcomma] at hfits
    exact ⟨hcomma, Nat.le_of_lt_succ hfits⟩
  · rintro ⟨hcomma, hlength⟩
    have hfits : (attributes.symbolText platform).length < bufferSize := Nat.lt_succ_of_le hlength
    rw [written_eq platform attributes hcomma, if_pos hfits]
    exact ⟨_, rfl, isSymbolText_symbolText platform attributes⟩

/-- Doubles as integers: the price level one, and the default of the period. -/
def plainPlatform : CandlePlatform ℤ where
  one := 1
  eq x y := decide (x = y)
  isnan x := decide (x = 0)
  iswalpha c := decide (0x41 ≤ c ∧ c ≤ 0x5A)
  iswalpha_zero := rfl
  formatG x := if x < 0 then wideString "-1" else wideString "1"
  comma_notMem x := by split_ifs <;> decide
  formatG_last x := by
    split_ifs
    · exact ⟨wideString "-", 0x31, rfl, by decide⟩
    · exact ⟨[], 0x31, rfl, by decide⟩

/-- The text is `AAPL{pl=1price=bid}`. -/
def bidAtLevel : CandleAttributes ℤ where
  baseSymbol := wideString "AAPL"
  exchangeCode := 0
  periodValue := 1
  periodType := .tick
  price := .bid
  session := .any
  alignment := .midnight
  priceLevel := 1

theorem not_hasText_bidAtLevel : ¬ HasText plainPlatform bidAtLevel := by
  have hmisses : bidAtLevel.MissesComma plainPlatform := ⟨rfl, rfl, rfl, Or.inl (by decide)⟩
  rintro ⟨s, hs, htext⟩
  rw [exec_candleSymbolToString] at hs
  split_ifs at hs
  obtain rfl := Except.ok.inj hs
  exact not_isSymbolText_of_missesComma plainPlatform bidAtLevel hmisses htext

end DxFeed.Candle
