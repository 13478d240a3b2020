import DxFeed.BufferedIO.Utf

/-!
# Strings from the output stream to the input stream

* `Puts x bs`: the call writes the bytes `bs` if it succeeds;
* `puts_writeUtfChars`, `reads_readUtfLoop`: the characters of a string are written and read one
  after another;
* `PairsFit`: where the reader accepts the surrogate pairs of a string;
* `UtfStringRoundTrip`: writing a string and reading it back from any input buffer.
-/

namespace DxFeed.BufferedIO

open Call FixedWidth PrefixCode

/-! ### Writing a string -/

/-- The call writes the bytes `bs` if it succeeds, where the positions stay in range; and it
succeeds where the buffer can grow. -/
structure Puts (x : WriteCall Unit) (bs : List Int8) : Prop where
  writes : ∀ pre room out', pre.length + bs.length + 4 ≤ INT_MAX →
    pre.length + room.length ≤ INT_MAX → exec x (outputAt pre room) = (.ok (), out') →
    ∃ room', out' = outputAt (pre ++ bs) room' ∧ (pre ++ bs).length + room'.length ≤ INT_MAX
  returns : ∀ pre room, 2 * (pre.length + bs.length) + 4 ≤ INT_MAX →
    pre.length + room.length ≤ INT_MAX → Returns x (outputAt pre room)

theorem puts_pure : Puts (pure ()) [] where
  writes := by
    intro pre room out' _ htotal hexec
    obtain rfl := (Prod.mk.inj hexec).2
    exact ⟨room, by rw [List.append_nil], by rwa [List.append_nil]⟩
  returns := fun _ _ _ _ => returns_pure _ _

/-- A sequence writes what its calls write. -/
theorem Puts.bind {x y : WriteCall Unit} {bs cs : List Int8} (hx : Puts x bs) (hy : Puts y cs) :
    Puts (do x; y) (bs ++ cs) where
  writes := by
    intro pre room out' hlen htotal hexec
    rw [List.length_append] at hlen
    obtain ⟨⟨⟩, mid, hexec, hexec'⟩ := exec_bind_eq_ok hexec
    obtain ⟨room', rfl, htotal'⟩ := hx.writes pre room mid (by omega) htotal hexec
    obtain ⟨room'', rfl, htotal''⟩ :=
      hy.writes (pre ++ bs) room' out' (by rw [List.length_append]; omega) htotal' hexec'
    rw [List.append_assoc] at htotal'' ⊢
    exact ⟨room'', rfl, htotal''⟩
  returns := by
    intro pre room hlen htotal
    rw [List.length_append] at hlen
    obtain ⟨⟨⟩, hok⟩ := hx.returns pre room (by omega) htotal
    have hexec : exec x (outputAt pre room) = (.ok (), (exec x (outputAt pre room)).2) :=
      Prod.ext hok rfl
    obtain ⟨room', hmid, htotal'⟩ := hx.writes pre room _ (by omega) htotal hexec
    rw [hmid] at hexec
    refine (returns_bind x _ _).mpr ⟨(), _, hexec, ?_⟩
    exact hy.returns (pre ++ bs) room' (by rw [List.length_append]; omega) htotal'

/-- If room is found for `n` bytes, there is room for them. -/
theorem exec_reserve_ok {pre room : List Int8} {n : ℕ} {out' : OutputContext}
    (hsum : pre.length + n ≤ INT_MAX) (htotal : pre.length + room.length ≤ INT_MAX)
    (hexec : exec (reserve n) (outputAt pre room) = (.ok (), out')) :
    ∃ room', out' = outputAt pre room' ∧ n ≤ room'.length ∧
      pre.length + room'.length ≤ INT_MAX := by
  have hcap := isCapacityEnough_eq pre.length n htotal hsum
  unfold reserve at hexec
  rw [exec_bind_ok (exec_get _)] at hexec
  simp only [outBufferLength_outputAt, currentOutBufferPosition_outputAt, hcap] at hexec
  by_cases hroom : n ≤ room.length
  · have hle : pre.length + n ≤ pre.length + room.length := by omega
    simp only [hle, decide_true, Bool.not_true, Bool.false_eq_true, if_false] at hexec
    obtain rfl := (Prod.mk.inj hexec).2
    exact ⟨room, rfl, hroom, htotal⟩
  · have hle : ¬ pre.length + n ≤ pre.length + room.length := by omega
    simp only [hle, decide_false, Bool.not_false, if_true] at hexec
    by_cases hover : INT_MAX - pre.length < pre.length + room.length
    · unfold ensureCapacity at hexec
      rw [exec_bind_ok (exec_get _)] at hexec
      simp only [outBufferLength_outputAt, currentOutBufferPosition_outputAt] at hexec
      rw [if_pos hover] at hexec
      exact nomatch (Prod.mk.inj hexec).1
    · obtain ⟨room', hgrow, henough, htotal'⟩ :=
        exec_ensureCapacity (Nat.lt_of_not_le hroom) (by omega) hsum
      rw [hgrow] at hexec
      obtain rfl := (Prod.mk.inj hexec).2
      exact ⟨room', rfl, henough, htotal'⟩

/-- Where the buffer can grow, room is found. -/
theorem returns_reserve {pre room : List Int8} {n : ℕ} (hn : n ≤ 9)
    (hgrow : 2 * pre.length + n ≤ INT_MAX + 1) (htotal : pre.length + room.length ≤ INT_MAX) :
    Returns (reserve n) (outputAt pre room) := by
  have hsum : pre.length + n ≤ INT_MAX := by
    unfold INT_MAX at *
    omega
  have hcap := isCapacityEnough_eq pre.length n htotal hsum
  unfold reserve
  rw [returns_get_bind]
  simp only [outBufferLength_outputAt, currentOutBufferPosition_outputAt, hcap]
  by_cases hroom : n ≤ room.length
  · have hle : pre.length + n ≤ pre.length + room.length := by omega
    simp only [hle, decide_true, Bool.not_true, Bool.false_eq_true, if_false]
    exact returns_pure _ _
  · have hle : ¬ pre.length + n ≤ pre.length + room.length := by omega
    simp only [hle, decide_false, Bool.not_false, if_true]
    obtain ⟨room', hexec, -⟩ :=
      exec_ensureCapacity (Nat.lt_of_not_le hroom) (by omega) hsum
    exact ⟨(), by rw [hexec]⟩

/-- A call that writes in place, behind a reservation. -/
theorem Writes.reserved {x : WriteCall Unit} {bs : List Int8} {n : ℕ} (hx : Writes x bs)
    (hbs : bs.length ≤ n) (hn : n ≤ bs.length + 4) (hnine : n ≤ 9) :
    Puts (do reserve n; x) bs where
  writes := by
    intro pre room out' hlen htotal hexec
    obtain ⟨⟨⟩, mid, hexec, hexec'⟩ := exec_bind_eq_ok hexec
    obtain ⟨room', rfl, henough, htotal'⟩ := exec_reserve_ok (by omega) htotal hexec
    rw [hx pre room' (by omega)] at hexec'
    obtain rfl := (Prod.mk.inj hexec').2
    refine ⟨room'.drop bs.length, rfl, ?_⟩
    rw [List.length_append, List.length_drop]
    omega
  returns := by
    intro pre room hlen htotal
    obtain ⟨⟨⟩, hok⟩ := returns_reserve hnine (by omega) htotal
    have hexec : exec (reserve n) (outputAt pre room) =
        (.ok (), (exec (reserve n) (outputAt pre room)).2) := Prod.ext hok rfl
    obtain ⟨room', hmid, henough, -⟩ := exec_reserve_ok (by omega) htotal hexec
    rw [hmid] at hexec
    refine (returns_bind (reserve n) _ _).mpr ⟨(), _, hexec, (), ?_⟩
    rw [hx pre room' (by omega)]

/-- The bytes of one character, and then those of the others. -/
theorem Writes.reserved_bind {x y : WriteCall Unit} {bs cs : List Int8} (hx : Writes x bs)
    (hbs : bs.length ≤ 4) (hy : Puts y cs) : Puts (do reserve 4; x; y) (bs ++ cs) := by
  have h := (hx.reserved hbs (by omega) (by norm_num)).bind hy
  rwa [bind_assoc] at h

/-- What the second loop of `dx_write_utf_string` writes for a single code unit. -/
theorem writes_unit {c : UInt16} (y : WriteCall Unit) {cs : List Int8} (hy : Puts y cs) :
    Puts (do
      reserve 4
      if c ≤ 0x7F then
        putByte (castByte c.toNat)
        y
      else if c ≤ 0x7FF then
        writeUtf2Unchecked c.toNat
        y
      else
        writeUtf3Unchecked c.toNat
        y) (utfBytes c.toNat ++ cs) := by
  have hc : c.toNat < 2 ^ 16 := c.toNat_lt
  have hone : c ≤ 0x7F ↔ c.toNat ≤ 0x7F := UInt16.le_iff_toNat_le
  have htwo : c ≤ 0x7FF ↔ c.toNat ≤ 0x7FF := UInt16.le_iff_toNat_le
  have hlen : (utfBytes c.toNat).length ≤ 4 := by
    rw [length_utfBytes_unit]
    split_ifs <;> norm_num
  by_cases h₁ : c ≤ 0x7F
  · simp only [h₁, if_true]
    exact (writes_utfBytes_one (hone.mp h₁)).reserved_bind hlen hy
  · simp only [h₁, if_false]
    by_cases h₂ : c ≤ 0x7FF
    · simp only [h₂, if_true]
      exact (writes_utfBytes_two (Nat.lt_of_not_le (hone.not.mp h₁)) (htwo.mp h₂)).reserved_bind
        hlen hy
    · simp only [h₂, if_false]
      exact (writes_utfBytes_three (Nat.lt_of_not_le (htwo.not.mp h₂)) (by omega)).reserved_bind
        hlen hy

/-- The second loop of `dx_write_utf_string` writes the bytes of the characters. -/
theorem puts_writeUtfChars (value : WString) :
    Puts (writeUtfChars value) ((utfChars value).flatMap UtfChar.bytes) := by
  induction value using utfChars.induct with
  | case1 => exact puts_pure
  | case2 c =>
      have h := writes_unit (c := c) (pure ()) puts_pure
      simp only [bind_pure_unit] at h
      exact h
  | case3 c d value h ih =>
      obtain ⟨hone, htwo⟩ := not_le_of_isHighSurrogate h.1
      obtain ⟨hlow, hhigh⟩ := surrogatesToCodePoint_bounds h.1 h.2
      have hpair : (isHighSurrogate c && isLowSurrogate d) = true := Bool.and_eq_true_iff.mpr h
      rw [utfChars, dif_pos h, List.flatMap_cons, writeUtfChars]
      simp only [hone, htwo, hpair, if_false, if_true]
      exact (writes_utfBytes_four hlow hhigh).reserved_bind (length_utfBytes_pair h.1 h.2).le ih
  | case4 c d value h ih =>
      have hpair : ¬ (isHighSurrogate c && isLowSurrogate d) = true := by
        rwa [Bool.and_eq_true_iff]
      rw [utfChars, dif_neg h, List.flatMap_cons, writeUtfChars]
      simp only [hpair, Bool.false_eq_true, if_false]
      exact writes_unit _ ih

/-! ### Reading a string -/

/-- The lead byte of two bytes. -/
theorem lead_two {x : ℕ} (hx : x < 2 ^ 5) :
    ¬ 0 ≤ castByte (0xC0 + x) ∧ octet (castByte (0xC0 + x)) &&& 0xE0 = 0xC0 := by
  rw [nonneg_iff_octet, octet_castByte (by omega), Utf8.and_0xE0 (by omega)]
  omega

/-- The lead byte of three bytes. -/
theorem lead_three {x : ℕ} (hx : x < 2 ^ 4) :
    ¬ 0 ≤ castByte (0xE0 + x) ∧ octet (castByte (0xE0 + x)) &&& 0xE0 ≠ 0xC0 ∧
      octet (castByte (0xE0 + x)) &&& 0xF0 = 0xE0 := by
  rw [nonneg_iff_octet, octet_castByte (by omega), Utf8.and_0xE0 (by omega),
    Utf8.and_0xF0 (by omega)]
  omega

/-- The lead byte of four bytes. -/
theorem lead_four {x : ℕ} (hx : x < 2 ^ 3) :
    ¬ 0 ≤ castByte (0xF0 + x) ∧ octet (castByte (0xF0 + x)) &&& 0xE0 ≠ 0xC0 ∧
      octet (castByte (0xF0 + x)) &&& 0xF0 ≠ 0xE0 ∧
      octet (castByte (0xF0 + x)) &&& 0xF8 = 0xF0 := by
  rw [nonneg_iff_octet, octet_castByte (by omega), Utf8.and_0xE0 (by omega),
    Utf8.and_0xF0 (by omega), Utf8.and_0xF8 (by omega)]
  omega

theorem sub_lengthStep (bytes n : ℕ) : ((bytes + n : ℕ) : ℤ) - lengthStep false bytes = n := by
  simp only [lengthStep, Bool.false_eq_true, if_false]
  omega

section Loop

variable {pre post : List Int8} {limit n : ℕ} {buffer : WString}

/-- The loop reads a single code unit and goes on. -/
theorem exec_readUtfLoop_unit (c : UInt16)
    (hlen : (pre ++ (utfBytes c.toNat ++ post)).length ≤ INT_MAX) :
    exec (readUtfLoop false ((utfBytes c.toNat).length + n : ℕ) buffer)
        (inputAt pre (utfBytes c.toNat ++ post) limit) =
      exec (readUtfLoop false n (buffer ++ [c])) (inputAt (pre ++ utfBytes c.toNat) post limit) := by
  have hc : c.toNat < 2 ^ 16 := c.toNat_lt
  rcases Nat.lt_or_ge 0x7FF c.toNat with hlow | hhigh
  · -- Three bytes, also for a single surrogate.
    have hbytes : utfBytes c.toNat = [castByte (0xE0 + c.toNat / 2 ^ 12)] ++
        [castByte (0x80 + c.toNat / 2 ^ 6 % 2 ^ 6), castByte (0x80 + c.toNat % 2 ^ 6)] := by
      rw [utfBytes, Utf8.octets_three hlow (by omega)]
      rfl
    obtain ⟨hneg, htwo, hthree⟩ := lead_three (x := c.toNat / 2 ^ 12) (by omega)
    rw [hbytes] at hlen ⊢
    rw [List.append_assoc] at hlen ⊢
    have hfirst := reads_readByte (castByte (0xE0 + c.toNat / 2 ^ 12)) pre _ limit hlen
    have hrest := reads_readUtf3 (Nat.le_of_lt_succ hc)
      (pre ++ [castByte (0xE0 + c.toNat / 2 ^ 12)]) post limit (by rwa [List.append_assoc])
    rw [readUtfLoop, if_pos (by simp; omega), exec_bind_ok hfirst, if_neg hneg, if_neg htwo,
      if_pos hthree, exec_bind_ok hrest, List.append_assoc, UInt16.ofNat_toNat]
    exact congrArg (fun l => exec (readUtfLoop false l _) _) (sub_lengthStep 3 n)
  rcases Nat.lt_or_ge 0x7F c.toNat with hlow' | hone
  · -- Two bytes.
    have hbytes : utfBytes c.toNat = [castByte (0xC0 + c.toNat / 2 ^ 6)] ++
        [castByte (0x80 + c.toNat % 2 ^ 6)] := by
      rw [utfBytes, Utf8.octets_two hlow' hhigh]
      rfl
    obtain ⟨hneg, htwo⟩ := lead_two (x := c.toNat / 2 ^ 6) (by omega)
    rw [hbytes] at hlen ⊢
    rw [List.append_assoc] at hlen ⊢
    have hfirst := reads_readByte (castByte (0xC0 + c.toNat / 2 ^ 6)) pre _ limit hlen
    have hrest := reads_readUtf2 hhigh
      (pre ++ [castByte (0xC0 + c.toNat / 2 ^ 6)]) post limit (by rwa [List.append_assoc])
    rw [readUtfLoop, if_pos (by simp; omega), exec_bind_ok hfirst, if_neg hneg, if_pos htwo,
      exec_bind_ok hrest, List.append_assoc, UInt16.ofNat_toNat]
    exact congrArg (fun l => exec (readUtfLoop false l _) _) (sub_lengthStep 2 n)
  · -- One byte.
    have hbytes : utfBytes c.toNat = [castByte c.toNat] := by
      rw [utfBytes, Utf8.octets_one hone]
      rfl
    have hoctet : octet (castByte c.toNat) = c.toNat := octet_castByte (by omega)
    have hnonneg : 0 ≤ castByte c.toNat := by
      rw [nonneg_iff_octet, hoctet]
      omega
    rw [hbytes] at hlen ⊢
    have hfirst := reads_readByte (castByte c.toNat) pre post limit hlen
    rw [readUtfLoop, if_pos (by simp; omega), exec_bind_ok hfirst, if_pos hnonneg, hoctet,
      UInt16.ofNat_toNat]
    exact congrArg (fun l => exec (readUtfLoop false l _) _) (sub_lengthStep 1 n)

/-- The loop reads the code point of a surrogate pair, and goes on if it finds room for the
pair in what it takes for the length of the buffer: the bytes that are left. -/
theorem exec_readUtfLoop_pair {high low : UInt16} (hhigh : isHighSurrogate high)
    (hlow : isLowSurrogate low)
    (hlen : (pre ++ (utfBytes (surrogatesToCodePoint high low) ++ post)).length ≤ INT_MAX) :
    exec (readUtfLoop false ((utfBytes (surrogatesToCodePoint high low)).length + n : ℕ) buffer)
        (inputAt pre (utfBytes (surrogatesToCodePoint high low) ++ post) limit) =
      if buffer.length + 2 ≤ n then
        exec (readUtfLoop false n (buffer ++ [high, low]))
          (inputAt (pre ++ utfBytes (surrogatesToCodePoint high low)) post limit)
      else
        (.error .indexOutOfBounds,
          inputAt (pre ++ utfBytes (surrogatesToCodePoint high low)) post limit) := by
  obtain ⟨hsupplementary, hmax⟩ := surrogatesToCodePoint_bounds hhigh hlow
  have hunits := codePointToSurrogates_eq hhigh hlow
  have hbytes' := length_utfBytes_pair hhigh hlow
  generalize surrogatesToCodePoint high low = codePoint at *
  have hbytes : utfBytes codePoint = [castByte (0xF0 + codePoint / 2 ^ 18)] ++
      [castByte (0x80 + codePoint / 2 ^ 12 % 2 ^ 6), castByte (0x80 + codePoint / 2 ^ 6 % 2 ^ 6),
        castByte (0x80 + codePoint % 2 ^ 6)] := by
    rw [utfBytes, Utf8.octets_four hsupplementary]
    rfl
  obtain ⟨hneg, htwo, hthree, hfour⟩ := lead_four (x := codePoint / 2 ^ 18) (by omega)
  rw [hbytes'] at *
  rw [hbytes] at hlen ⊢
  rw [List.append_assoc] at hlen ⊢
  have hfirst := reads_readByte (castByte (0xF0 + codePoint / 2 ^ 18)) pre _ limit hlen
  have hrest := reads_readUtf4 hmax (pre ++ [castByte (0xF0 + codePoint / 2 ^ 18)]) post limit
    (by rwa [List.append_assoc])
  rw [readUtfLoop, if_pos (by omega), exec_bind_ok hfirst, if_neg hneg, if_neg htwo,
    if_neg hthree, if_pos hfour, exec_bind_ok hrest, List.append_assoc, sub_lengthStep 4 n,
    codePointToUtf16Chars, if_neg (Nat.not_lt_of_le hmax),
    if_neg (Nat.not_lt_of_le (Nat.succ_le_of_lt hsupplementary))]
  by_cases hfits : buffer.length + 2 ≤ n
  · rw [if_neg (by omega), if_pos hfits, hunits]
    rfl
  · rw [if_pos (by omega), if_neg hfits]
    rfl

end Loop

/-! ### Where the pairs fit -/

/-- In every surrogate pair, with so many units in front, the reader finds room for the pair. -/
def CharsFit : ℕ → List UtfChar → Prop
  | _, [] => True
  | count, .unit _ :: chars => CharsFit (count + 1) chars
  | count, .pair _ _ _ _ :: chars => count + 2 ≤ charsLength chars ∧ CharsFit (count + 2) chars

/-- Behind every surrogate pair there are two bytes more than units in front of it. -/
def PairsFit (value : WString) : Prop :=
  ∀ front high low back, value = front ++ high :: low :: back → isHighSurrogate high →
    isLowSurrogate low → front.length + 2 ≤ utfLength back

/-- A low surrogate is no high one. -/
theorem not_isHighSurrogate_of_low {c : UInt16} (h : isLowSurrogate c) : ¬ isHighSurrogate c := by
  intro hhigh
  have hlow := (le_of_isLowSurrogate h).1
  have hbound := (le_of_isHighSurrogate hhigh).2
  omega

theorem charsFit_iff (value : WString) (count : ℕ) :
    CharsFit count (utfChars value) ↔
      ∀ front high low back, value = front ++ high :: low :: back → isHighSurrogate high →
        isLowSurrogate low → count + front.length + 2 ≤ utfLength back := by
  induction value using utfChars.induct generalizing count with
  | case1 =>
      refine iff_of_true trivial fun front high low back heq => ?_
      simp at heq
  | case2 c =>
      refine iff_of_true trivial fun front high low back heq => ?_
      have hlength := congrArg List.length heq
      simp at hlength
      omega
  | case3 c d value h ih =>
      rw [utfChars, dif_pos h, CharsFit, ih, ← utfLength_eq]
      constructor
      · rintro ⟨hfit, hrest⟩ front high low back heq hhigh hlow
        rcases front with _ | ⟨c', front⟩
        · obtain ⟨rfl, htail⟩ := List.cons.inj heq
          obtain ⟨rfl, rfl⟩ := List.cons.inj htail
          exact hfit
        · obtain ⟨rfl, htail⟩ := List.cons.inj heq
          rcases front with _ | ⟨d', front⟩
          · -- The low surrogate does not start a pair.
            obtain ⟨rfl, -⟩ := List.cons.inj htail
            exact absurd hhigh (not_isHighSurrogate_of_low h.2)
          · obtain ⟨rfl, hvalue⟩ := List.cons.inj htail
            have hlast := hrest front high low back hvalue hhigh hlow
            simp only [List.length_cons]
            omega
      · intro hall
        refine ⟨hall [] c d value rfl h.1 h.2, fun front high low back heq hhigh hlow => ?_⟩
        have hlast := hall (c :: d :: front) high low back (by rw [heq]; rfl) hhigh hlow
        simp only [List.length_cons] at hlast
        omega
  | case4 c d value h ih =>
      rw [utfChars, dif_neg h, CharsFit, ih]
      constructor
      · intro hrest front high low back heq hhigh hlow
        rcases front with _ | ⟨c', front⟩
        · obtain ⟨rfl, htail⟩ := List.cons.inj heq
          obtain ⟨rfl, -⟩ := List.cons.inj htail
          exact absurd ⟨hhigh, hlow⟩ h
        · obtain ⟨rfl, htail⟩ := List.cons.inj heq
          have hlast := hrest front high low back htail hhigh hlow
          simp only [List.length_cons]
          omega
      · intro hall front high low back heq hhigh hlow
        have hlast := hall (c :: front) high low back (by rw [heq]; rfl) hhigh hlow
        simp only [List.length_cons] at hlast
        omega

theorem pairsFit_iff (value : WString) : PairsFit value ↔ CharsFit 0 (utfChars value) := by
  rw [charsFit_iff]
  simp only [zero_add, PairsFit]

/-- Where all pairs fit, the loop reads the characters back. -/
theorem reads_readUtfLoop {chars : List UtfChar} {buffer : WString}
    (hfit : CharsFit buffer.length chars) :
    Reads (readUtfLoop false (charsLength chars) buffer) (chars.flatMap UtfChar.bytes)
      (buffer ++ chars.flatMap UtfChar.units) := by
  induction chars generalizing buffer with
  | nil =>
      intro pre post limit _
      rw [readUtfLoop, if_neg (by simp), if_neg (by simp)]
      simp
  | cons char chars ih =>
      intro pre post limit hlen
      rw [List.flatMap_cons, List.append_assoc] at hlen ⊢
      rw [List.flatMap_cons, charsLength_cons]
      have hlen' : ((pre ++ char.bytes) ++ (chars.flatMap UtfChar.bytes ++ post)).length ≤
          INT_MAX := by
        rwa [List.append_assoc]
      cases char with
      | unit c =>
          have hfit' : CharsFit (buffer ++ [c]).length chars := by
            rw [List.length_append]
            exact hfit
          have hrest := ih hfit' _ post limit hlen'
          rw [List.append_assoc, List.append_assoc] at hrest
          exact (exec_readUtfLoop_unit c hlen).trans hrest
      | pair high low hhigh hlow =>
          have hfit' : CharsFit (buffer ++ [high, low]).length chars := by
            rw [List.length_append]
            exact hfit.2
          have hrest := ih hfit' _ post limit hlen'
          rw [List.append_assoc, List.append_assoc] at hrest
          refine (exec_readUtfLoop_pair hhigh hlow hlen).trans ?_
          rw [if_pos hfit.1]
          exact hrest

/-- Where some pair does not fit, the loop fails. -/
theorem exec_readUtfLoop_error {chars : List UtfChar} {buffer : WString}
    (hfit : ¬ CharsFit buffer.length chars) {pre post : List Int8} {limit : ℕ}
    (hlen : (pre ++ (chars.flatMap UtfChar.bytes ++ post)).length ≤ INT_MAX) :
    ∃ context, exec (readUtfLoop false (charsLength chars) buffer)
      (inputAt pre (chars.flatMap UtfChar.bytes ++ post) limit) =
        (.error .indexOutOfBounds, context) := by
  induction chars generalizing buffer pre with
  | nil => exact absurd trivial hfit
  | cons char chars ih =>
      rw [List.flatMap_cons, List.append_assoc] at hlen ⊢
      rw [charsLength_cons]
      have hlen' : ((pre ++ char.bytes) ++ (chars.flatMap UtfChar.bytes ++ post)).length ≤
          INT_MAX := by
        rwa [List.append_assoc]
      cases char with
      | unit c =>
          have hfit' : ¬ CharsFit (buffer ++ [c]).length chars := by
            rw [List.length_append]
            exact hfit
          obtain ⟨context, hrest⟩ := ih hfit' hlen'
          exact ⟨context, (exec_readUtfLoop_unit c hlen).trans hrest⟩
      | pair high low hhigh hlow =>
          by_cases hpair : buffer.length + 2 ≤ charsLength chars
          · have hrest : ¬ CharsFit (buffer ++ [high, low]).length chars := by
              intro hrest
              exact hfit ⟨hpair, by simpa using hrest⟩
            obtain ⟨context, hrest⟩ := ih hrest hlen'
            refine ⟨context, (exec_readUtfLoop_pair hhigh hlow hlen).trans ?_⟩
            rw [if_pos hpair]
            exact hrest
          · exact ⟨_, (exec_readUtfLoop_pair hhigh hlow hlen).trans (if_neg hpair)⟩

/-! ### The round trip -/

/-- With a buffer the check for a write is a reservation. -/
theorem exec_checkWritePossibility_outputAt (pre room : List Int8) (n : ℕ) :
    exec (checkWritePossibility n) (outputAt pre room) = exec (reserve n) (outputAt pre room) := by
  unfold checkWritePossibility reserve
  rw [exec_bind_ok (exec_get _), exec_bind_ok (exec_get _), if_neg (by simp [outputAt])]

/-- The two calls differ only in how they ask for the room. -/
theorem Puts.checked {x : WriteCall Unit} {bs : List Int8} {n : ℕ}
    (h : Puts (do reserve n; x) bs) : Puts (do checkWritePossibility n; x) bs := by
  have hexec : ∀ pre room, exec (do checkWritePossibility n; x) (outputAt pre room) =
      exec (do reserve n; x) (outputAt pre room) := by
    intro pre room
    rw [exec_bind, exec_checkWritePossibility_outputAt, ← exec_bind]
  constructor
  · intro pre room out' hrange htotal hok
    exact h.writes pre room out' hrange htotal (by rw [← hexec, hok])
  · intro pre room hgrow htotal
    obtain ⟨a, ha⟩ := h.returns pre room hgrow htotal
    exact ⟨a, by rw [hexec, ha]⟩

/-- `dx_write_compact_int` writes the octets of the number. -/
theorem puts_writeCompactInt (value : Int32) :
    ∃ bs, Puts (writeCompactInt value) bs ∧ bs.map octet = encode value.toInt := by
  obtain ⟨bs, hwrites, hoctets⟩ := writes_writeCompactIntUnchecked value
  have hlen : bs.length = sizeClass value.toInt + 1 := by
    rw [← bs.length_map octet, hoctets, length_encode]
  have hfits : Fits 4 value.toInt := ⟨by have := value.le_toInt; norm_num [width]; omega,
    by have := value.toInt_lt; norm_num [width]; omega⟩
  have hclass := sizeClass_le_of_fits (by norm_num) hfits
  have hputs : Puts (do reserve 5; writeCompactIntUnchecked value) bs :=
    hwrites.reserved (by omega) (by omega) (by norm_num)
  exact ⟨bs, hputs.checked, hoctets⟩

/-! ### Numbers of a fixed size -/

theorem puts_writeByte (value : Int8) : Puts (writeByte value) [value] :=
  ((writes_putByte value).reserved le_rfl (by simp) (by norm_num)).checked

theorem puts_writeShort (value : Int16) :
    Puts (writeShort value) [(value >>> 8).toInt8, value.toInt8] :=
  (((writes_putByte _).bind (writes_putByte _)).reserved le_rfl (by simp) (by norm_num)).checked

theorem puts_writeInt (value : Int32) : Puts (writeInt value) (intBytes value) :=
  ((writes_writeIntUnchecked value).reserved (show _ ≤ 4 from le_rfl) (by simp [intBytes])
    (by norm_num)).checked

/-! ### Strings -/

/-- The number of bytes of a string, as the `int` and the `size_t` that the writer makes of it. -/
theorem toNat_utflen {n : ℕ} (h : n ≤ INT_MAX) :
    (Int32.ofNat n).toInt = n ∧ (Int32.ofNat n).toInt64.toUInt64.toNat = n := by
  unfold INT_MAX at h
  have hint : (Int32.ofNat n).toInt = n := Int32.toInt_ofNat_of_lt (by omega)
  have hlong : (Int32.ofNat n).toInt64.toBitVec.toInt = n := by
    rw [← hint]
    exact Int32.toInt_toInt64 _
  refine ⟨hint, ?_⟩
  show (Int32.ofNat n).toInt64.toBitVec.toNat = n
  rw [BitVec.toInt_eq_toNat_cond] at hlong
  split_ifs at hlong <;> omega

/-- The reader takes back the number of bytes, and the `-1` for a null pointer. -/
theorem reads_compact {v : ℤ} {bs : List Int8} (hv : v = -1 ∨ (0 ≤ v ∧ v ≤ INT_MAX))
    (h : bs.map octet = encode v) :
    ∃ value : Int64, Reads readCompactLong bs value ∧ value.toInt = v := by
  unfold INT_MAX at hv
  have hlong : (Int64.ofInt v).toInt = v := Int64.toInt_ofInt_of_le (by omega) (by omega)
  have hbs : bs.map octet = encode (Int64.ofInt v).toInt := by rw [hlong, h]
  obtain ⟨value, hreads, hvalue⟩ := reads_written hbs
  rw [hlong] at hvalue
  refine ⟨value, hreads, hvalue.trans ?_⟩
  split_ifs with hclass
  · obtain ⟨hfits, hnot⟩ := sizeClass_eq_one_iff.mp hclass
    have hbound : v < 2 ^ 13 := hfits.2
    have hneg : v ≠ -1 := by
      rintro rfl
      exact hnot ⟨by norm_num [width], by norm_num [width]⟩
    omega
  · rfl

/-- What `dx_write_utf_string` writes. -/
theorem puts_writeUtfString {value : WString} (h : utfLength value ≤ INT_MAX) :
    ∃ bs, Puts (writeUtfString (some value))
        (bs ++ (utfChars value).flatMap UtfChar.bytes) ∧
      bs.map octet = encode (utfLength value) := by
  obtain ⟨hint, hsize⟩ := toNat_utflen h
  obtain ⟨bs, hputs, hoctets⟩ := puts_writeCompactInt (Int32.ofNat (utfLength value))
  rw [hint] at hoctets
  refine ⟨bs, ?_, hoctets⟩
  have hlen : ¬ utfLength value < value.length := Nat.not_lt_of_le (length_le_utfLength value)
  unfold writeUtfString
  simp only [hsize, hlen, if_false]
  exact hputs.bind (puts_writeUtfChars value)

/-- The sequence of no bytes is read by the loop as well. -/
theorem readUtfSequence_eq (n : ℕ) : readUtfSequence n false = readUtfLoop false n [] := by
  unfold readUtfSequence
  cases n with
  | zero =>
      rw [if_pos Nat.cast_zero, readUtfLoop, if_neg (by simp), if_neg (by simp)]
  | succ n => rw [if_neg (by exact_mod_cast Nat.succ_ne_zero n)]

/-- `dx_read_utf_string` in front of a number of bytes reads so many bytes. -/
theorem readUtfString_of_size {n : ℕ} (hn : n ≤ INT_MAX) {bs : List Int8}
    (h : bs.map octet = encode n) {pre rest : List Int8} {limit : ℕ}
    (hlen : (pre ++ (bs ++ rest)).length ≤ INT_MAX) :
    exec readUtfString (inputAt pre (bs ++ rest) limit) =
      exec (do return some (← readUtfLoop false n [])) (inputAt (pre ++ bs) rest limit) := by
  obtain ⟨size, hreads, hsize⟩ := reads_compact (Or.inr ⟨Int.natCast_nonneg n, by exact_mod_cast hn⟩) h
  have hlow : ¬ size < -1 := by
    rw [Int64.lt_iff_toInt_lt, hsize]
    show ¬ (n : ℤ) < -1
    omega
  have hhigh : ¬ size.toInt > INT_MAX := by
    rw [hsize]
    exact_mod_cast Nat.not_lt_of_le hn
  have hnull : size ≠ -1 := by
    rintro rfl
    have hminus : (-1 : Int64).toInt = -1 := rfl
    omega
  rw [readUtfString, exec_bind_ok (hreads pre rest limit hlen), if_neg (by tauto), if_neg hnull,
    hsize, readUtfSequence_eq]

/-- The output stream has a buffer, the position is inside it, and the positions of `n` more
bytes are in range. -/
structure OutputContext.InRange (context : OutputContext) (n : ℕ) : Prop where
  isSome : context.outBuffer.isSome
  position_le : context.currentOutBufferPosition ≤ context.outBufferLength
  length_le : context.outBufferLength ≤ INT_MAX
  range : context.currentOutBufferPosition + n + 4 ≤ INT_MAX

/-- The bytes that may be needed for a string: its length and its characters. -/
def utfSize : Option WString → ℕ
  | none => 5
  | some value => 5 + utfLength value

theorem length_compact {v : ℤ} {bs : List Int8} (h : bs.map octet = encode v)
    (hlow : -2 ^ 31 ≤ v) (hhigh : v < 2 ^ 31) : bs.length ≤ 5 := by
  have hfits : Fits 4 v := ⟨by norm_num [width]; omega, by norm_num [width]; omega⟩
  have hclass := sizeClass_le_of_fits (by norm_num) hfits
  rw [← bs.length_map octet, h, length_encode]
  omega

/-- The bytes written for a null pointer are read as a null pointer. -/
theorem reads_null {bs : List Int8} (h : bs.map octet = encode (-1)) :
    Reads readUtfString bs none := by
  obtain ⟨size, hreads, hsize⟩ := reads_compact (Or.inl rfl) h
  obtain rfl : size = -1 := Int64.toInt_inj.mp hsize
  intro pre post limit hlen
  rw [readUtfString, exec_bind_ok (hreads pre post limit hlen), if_neg (by decide), if_pos rfl]
  rfl

/-- The bytes of a string are read back exactly if all pairs fit. -/
theorem readUtfString_iff {value : WString} (h : utfLength value ≤ INT_MAX) {bs : List Int8}
    (hbs : bs.map octet = encode (utfLength value)) {pre post : List Int8} {limit : ℕ}
    (hlen : (pre ++ (bs ++ ((utfChars value).flatMap UtfChar.bytes ++ post))).length ≤ INT_MAX) :
    exec readUtfString
        (inputAt pre (bs ++ ((utfChars value).flatMap UtfChar.bytes ++ post)) limit) =
      (.ok (some value), inputAt (pre ++ bs ++ (utfChars value).flatMap UtfChar.bytes) post limit) ↔
    PairsFit value := by
  have hlen' : (pre ++ bs ++ ((utfChars value).flatMap UtfChar.bytes ++ post)).length ≤
      INT_MAX := by
    rwa [List.append_assoc]
  rw [readUtfString_of_size h hbs hlen, pairsFit_iff, utfLength_eq]
  constructor
  · intro hread
    by_contra hfit
    have hfit' : ¬ CharsFit ([] : WString).length (utfChars value) := hfit
    obtain ⟨context, herror⟩ := exec_readUtfLoop_error hfit' hlen'
    rw [exec_bind_error herror] at hread
    exact nomatch (Prod.mk.inj hread).1
  · intro hfit
    have hfit' : CharsFit ([] : WString).length (utfChars value) := hfit
    have hread := reads_readUtfLoop hfit' _ post limit hlen'
    rw [exec_bind_ok hread, List.nil_append, units_utfChars]
    rfl

/-- What is written for a string, and when it is read back. -/
theorem exists_written {value : Option WString} (h : utfSize value ≤ INT_MAX) :
    ∃ bs, Puts (writeUtfString value) bs ∧ bs.length ≤ utfSize value ∧
      ∀ pre post limit, (pre ++ (bs ++ post)).length ≤ INT_MAX →
        (exec readUtfString (inputAt pre (bs ++ post) limit) =
          (.ok value, inputAt (pre ++ bs) post limit) ↔ ∀ s ∈ value, PairsFit s) := by
  cases value with
  | none =>
      obtain ⟨bs, hputs, hoctets⟩ := puts_writeCompactInt (-1)
      have hminus : (-1 : Int32).toInt = -1 := rfl
      rw [hminus] at hoctets
      refine ⟨bs, hputs, length_compact hoctets (by norm_num) (by norm_num), ?_⟩
      intro pre post limit hlen
      exact iff_of_true (reads_null hoctets pre post limit hlen) (by simp)
  | some value =>
      have hsize : utfLength value ≤ INT_MAX := (Nat.le_add_left _ 5).trans h
      have hmax : (INT_MAX : ℤ) < 2 ^ 31 := by norm_num [INT_MAX]
      obtain ⟨bs, hputs, hoctets⟩ := puts_writeUtfString hsize
      have hcompact := length_compact hoctets (by omega) (by omega)
      refine ⟨_, hputs, ?_, ?_⟩
      · rw [List.length_append, utfSize, utfLength_eq, charsLength]
        omega
      · intro pre post limit hlen
        rw [List.append_assoc] at hlen ⊢
        rw [← List.append_assoc pre, readUtfString_iff hsize hoctets hlen]
        simp

/-- The string is written; from any input buffer that holds the written bytes between `pre` and
`post`, with the position on them, it is read back, and these bytes are consumed. -/
def UtfStringRoundTrip (value : Option WString) (out : OutputContext) (pre post : List Int8)
    (limit : ℕ) : Prop :=
  ∃ out', exec (writeUtfString value) out = (.ok (), out') ∧
    exec readUtfString (inputAt pre (out'.writtenFrom out.currentOutBufferPosition ++ post) limit) =
      (.ok value, inputAt (pre ++ out'.writtenFrom out.currentOutBufferPosition) post limit)

/-- A stream with its position inside of the buffer. -/
theorem OutputContext.InRange.eq_outputAt {context : OutputContext} {n : ℕ}
    (h : context.InRange n) : ∃ pre room, context = outputAt pre room := by
  have hroom : context.HasRoom 0 := ⟨h.isSome, h.position_le, h.length_le, Or.inl h.position_le⟩
  exact hroom.eq_outputAt

/-- What a call that succeeds has written. -/
theorem Puts.written {x : WriteCall Unit} {bs : List Int8} {n : ℕ} {out : OutputContext}
    (hputs : Puts x bs) (hlength : bs.length ≤ n) (hrange : out.InRange n)
    (hwrite : Returns x out) :
    ∃ out', exec x out = (.ok (), out') ∧ out'.writtenFrom out.currentOutBufferPosition = bs := by
  obtain ⟨before, room, rfl⟩ := hrange.eq_outputAt
  obtain ⟨⟨⟩, hok⟩ := hwrite
  have hexec : exec x (outputAt before room) = (.ok (), (exec x (outputAt before room)).2) :=
    Prod.ext hok rfl
  have hposition : before.length + n + 4 ≤ INT_MAX := hrange.range
  obtain ⟨room', hout, -⟩ :=
    hputs.writes before room _ (by omega) (by simpa using hrange.length_le) hexec
  refine ⟨_, hexec, ?_⟩
  rw [hout, currentOutBufferPosition_outputAt, writtenFrom_outputAt]

/-- A string can be written where the buffer can grow. -/
theorem returns_writeUtfString {value : Option WString} {out : OutputContext}
    (h : out.InRange (utfSize value))
    (hgrow : 2 * (out.currentOutBufferPosition + utfSize value) + 4 ≤ INT_MAX) :
    Returns (writeUtfString value) out := by
  obtain ⟨before, room, rfl⟩ := h.eq_outputAt
  rw [currentOutBufferPosition_outputAt] at hgrow
  have hsize : utfSize value ≤ INT_MAX := by omega
  obtain ⟨bs, hputs, hlength, -⟩ := exists_written hsize
  refine hputs.returns before room (by omega) ?_
  simpa using h.length_le

/-- A string that has been written comes back if and only if behind every surrogate pair there are
two bytes more than units in front of it; a null pointer comes back. -/
theorem utfStringRoundTrip_iff (value : Option WString) (out : OutputContext)
    (pre post : List Int8) (limit : ℕ) (hrange : out.InRange (utfSize value))
    (hwrite : Returns (writeUtfString value) out)
    (hlen : pre.length + utfSize value + post.length ≤ INT_MAX) :
    UtfStringRoundTrip value out pre post limit ↔ ∀ s ∈ value, PairsFit s := by
  have hsize : utfSize value ≤ INT_MAX := by omega
  obtain ⟨bs, hputs, hlength, hread⟩ := exists_written hsize
  obtain ⟨out', hexec, hbytes⟩ := hputs.written hlength hrange hwrite
  unfold UtfStringRoundTrip
  rw [← hread pre post limit (by rw [List.length_append, List.length_append]; omega)]
  simp only [hexec, Prod.mk.injEq, true_and]
  constructor
  · rintro ⟨_, rfl, hback⟩
    rwa [hbytes] at hback
  · intro hback
    exact ⟨_, rfl, by rwa [hbytes]⟩

/-- A letter, a surrogate pair and three letters behind it. -/
theorem utfStringRoundTrip_letters :
    UtfStringRoundTrip (some [0x41, 0xD83D, 0xDE00, 0x42, 0x43, 0x44])
        (outputAt [1, 2] (List.replicate 20 0)) [7] [9] 5 ↔
      ∀ s ∈ some ([0x41, 0xD83D, 0xDE00, 0x42, 0x43, 0x44] : WString), PairsFit s := by
  have hrange : (outputAt [1, 2] (List.replicate 20 0)).InRange
      (utfSize (some [0x41, 0xD83D, 0xDE00, 0x42, 0x43, 0x44])) :=
    ⟨rfl, by decide, by decide, by decide⟩
  exact utfStringRoundTrip_iff (some [0x41, 0xD83D, 0xDE00, 0x42, 0x43, 0x44])
    (outputAt [1, 2] (List.replicate 20 0)) [7] [9] 5 hrange
    (returns_writeUtfString hrange (by decide)) (by decide)

/-- A string that is one surrogate pair is written, and not read back. -/
theorem utfString_surrogate_pair :
    Returns (writeUtfString (some [0xD83D, 0xDE00])) (outputAt [] (List.replicate 16 0)) ∧
      ¬ UtfStringRoundTrip (some [0xD83D, 0xDE00]) (outputAt [] (List.replicate 16 0)) [] [] 0 := by
  have hexec : exec (writeUtfString (some [0xD83D, 0xDE00])) (outputAt [] (List.replicate 16 0)) =
      (.ok (), outputAt [4, -16, -97, -104, -128] (List.replicate 11 0)) := by decide
  refine ⟨⟨(), by rw [hexec]⟩, ?_⟩
  rintro ⟨out', hwrite, hread⟩
  rw [hexec] at hwrite
  obtain rfl := (Prod.mk.inj hwrite).2
  have hsize : utfLength [0xD83D, 0xDE00] ≤ INT_MAX := by decide
  have hoctets : ([4] : List Int8).map octet = encode (utfLength [0xD83D, 0xDE00]) := by decide
  have hlen : (([] : List Int8) ++ ([4] ++ ((utfChars [0xD83D, 0xDE00]).flatMap UtfChar.bytes ++
      []))).length ≤ INT_MAX := by
    decide
  have hfit := (readUtfString_iff hsize hoctets hlen).mp hread
  have hroom := hfit [] 0xD83D 0xDE00 [] rfl rfl rfl
  exact absurd hroom (by decide)

end DxFeed.BufferedIO
