import DxFeed.AddressParser

/-!
# Addresses that are written down and parsed

* `PlainAddress`, `render`: an address without codecs, and how it is written;
* `parseProperties_render`, `parseHostPort_render`, `parseAddress_render`: the parts of an entry;
* `addressRoundTrip`: a list of addresses that is written down is parsed to the same list.
-/

namespace DxFeed.AddressParser

open CString

/-! ### How addresses are written -/

def isspace (c : UInt8) : Bool :=
  c == 32 || 9 ≤ c && c ≤ 13

/-- The characters that split a collection. -/
def isSpecial (c : UInt8) : Bool :=
  isspace c || (chars ['(', ')', '[', ']', '+', ',', ':', '=', '/']).contains c

/-- A text without special characters. -/
def IsText (text : List UInt8) : Prop :=
  text ≠ [] ∧ ∀ c ∈ text, c ≠ nullSymbol ∧ isSpecial c = false

/-- A decimal number from 0 to 65535. -/
def IsPort (text : List UInt8) : Prop :=
  text ≠ [] ∧ text.all isdigit = true ∧ decimal text ≤ 65535

/-- An address without codecs. -/
structure PlainAddress where
  host : { text // IsText text }
  port : Option { text // IsPort text }
  username : Option { text // IsText text }
  password : Option { text // IsText text }

/-- A key and its value. -/
abbrev Property := List UInt8 × List UInt8

def PlainAddress.properties (address : PlainAddress) : List Property :=
  (address.username.map fun username => (usernameKey, username.val)).toList ++
    (address.password.map fun password => (passwordKey, password.val)).toList

def propertyText (prop : Property) : List UInt8 :=
  prop.1 ++ propertyValueSplitter :: prop.2

/-- The properties behind the first one, and the bracket. -/
def restText (props : List Property) : List UInt8 :=
  props.flatMap (fun prop => propertiesSplitter :: propertyText prop) ++ [propertiesEndSymbol]

def propertiesText : List Property → List UInt8
  | [] => []
  | prop :: props => propertiesBeginSymbol :: (propertyText prop ++ restText props)

def portText : Option { text // IsPort text } → List UInt8
  | none => []
  | some port => hostPortSplitter :: port.val

def PlainAddress.hostPortText (address : PlainAddress) : List UInt8 :=
  address.host.val ++ portText address.port

def PlainAddress.entryText (address : PlainAddress) : List UInt8 :=
  address.hostPortText ++ propertiesText address.properties

/-- An address as `(host:port[username=u,password=w])`. -/
def render (address : PlainAddress) : List UInt8 :=
  entryBeginSymbol :: (address.entryText ++ [entryEndSymbol])

/-- The address that the parser is to return. -/
def PlainAddress.toAddress (address : PlainAddress) : Address :=
  { Address.zero with
    host := some address.host.val
    port := address.port.map Subtype.val
    username := address.username.map Subtype.val
    password := address.password.map Subtype.val }

/-! ### Searching in what is written -/

variable {s pre a b : List UInt8} {c : UInt8} {first last q : ℕ}

theorem findFirst_append (hs : s = pre ++ (a ++ c :: b)) (hfirst : first = pre.length)
    (hc : c ∉ a) (hlast : first + a.length ≤ last) :
    findFirst s first last c = some (first + a.length) := by
  subst hs
  rw [findFirst, strchr_append hfirst hc]
  exact if_neg (by omega)

theorem findFirst_ge (hs : s = pre ++ (a ++ b)) (hfirst : first = pre.length) (hc : c ∉ a)
    (hq : findFirst s first last c = some q) : first + a.length ≤ q ∧ q ≤ last := by
  subst hs
  rw [findFirst] at hq
  split at hq
  · exact nomatch hq
  · rename_i pos hpos
    split_ifs at hq with hlast
    obtain rfl := Option.some.inj hq
    exact ⟨strchr_ge hfirst hc hpos, by omega⟩

theorem findFirst_eq_none (hs : s = pre ++ (a ++ b)) (hfirst : first = pre.length) (hc : c ∉ a)
    (hlast : last < first + a.length) : findFirst s first last c = none := by
  cases hq : findFirst s first last c with
  | none => rfl
  | some q =>
      have hge := findFirst_ge hs hfirst hc hq
      omega

/-- Of two characters the first one is found. -/
theorem findFirstOfValues_append {ch₁ ch₂ : UInt8} (hs : s = pre ++ (a ++ c :: b))
    (hfirst : first = pre.length) (h₁ : ch₁ ∉ a) (h₂ : ch₂ ∉ a) (hc : c = ch₁ ∨ c = ch₂)
    (hlast : first + a.length ≤ last) :
    findFirstOfValues s first last ch₁ ch₂ = some (first + a.length) := by
  have hge₁ : ∀ q, findFirst s first last ch₁ = some q → first + a.length ≤ q ∧ q ≤ last :=
    fun _ => findFirst_ge hs hfirst h₁
  have hge₂ : ∀ q, findFirst s first last ch₂ = some q → first + a.length ≤ q ∧ q ≤ last :=
    fun _ => findFirst_ge hs hfirst h₂
  unfold findFirstOfValues
  rcases hc with rfl | rfl
  · rw [findFirst_append hs hfirst h₁ hlast]
    cases hq : findFirst s first last ch₂ with
    | none => rfl
    | some q => exact congrArg some (min_eq_left (hge₂ q hq).1)
  · rw [findFirst_append hs hfirst h₂ hlast]
    cases hq : findFirst s first last ch₁ with
    | none => rfl
    | some q => exact congrArg some (min_eq_right (hge₁ q hq).1)

/-- What starts with a character that is no blank is not empty. -/
theorem isEmptyEntry_append (hs : s = pre ++ (c :: b)) (hfirst : first = pre.length)
    (hlast : first < last) (hc : c ≠ whitespace) : isEmptyEntry s first last = false := by
  subst hs
  obtain ⟨n, hn⟩ : ∃ n, last - first = n + 1 := ⟨last - first - 1, by omega⟩
  rw [isEmptyEntry, if_neg (by omega), hn, isBlank, charAt_append hfirst]
  simp [hc]

theorem hasNext_append (hs : s = pre ++ (c :: b)) (hfirst : first = pre.length)
    (hc : c ≠ nullSymbol) : hasNext s (some first) = true := by
  subst hs
  rw [hasNext, charAt_append hfirst]
  exact bne_iff_ne.mpr hc

theorem hasNext_length : hasNext s (some s.length) = false := by
  rw [hasNext, charAt_length]
  rfl

/-! ### Properties -/

/-- A text does not contain special characters. -/
theorem IsText.notMem {text : List UInt8} (h : IsText text) (hc : isSpecial c = true) :
    c ∉ text := by
  intro hmem
  exact Bool.false_ne_true ((h.2 c hmem).2.symm.trans hc)

theorem IsText.exists_cons {text : List UInt8} (h : IsText text) :
    ∃ c rest, text = c :: rest ∧ c ≠ whitespace ∧ c ≠ nullSymbol := by
  obtain ⟨c, rest, rfl⟩ := List.exists_cons_of_ne_nil h.1
  have hc := h.2 c List.mem_cons_self
  refine ⟨c, rest, rfl, ?_, hc.1⟩
  rintro rfl
  exact absurd hc.2 (by decide)

/-- A property whose key the parser does not take to be empty. -/
structure IsProperty (prop : Property) : Prop where
  key : IsText prop.1
  long : 2 ≤ prop.1.length
  value : IsText prop.2

theorem IsProperty.notMem {prop : Property} (h : IsProperty prop) (hc : isSpecial c = true)
    (hne : c ≠ propertyValueSplitter) : c ∉ propertyText prop := by
  rw [propertyText, List.mem_append, List.mem_cons]
  rintro (hmem | rfl | hmem)
  · exact h.key.notMem hc hmem
  · exact hne rfl
  · exact h.value.notMem hc hmem

theorem length_propertyText (prop : Property) :
    (propertyText prop).length = prop.1.length + 1 + prop.2.length := by
  rw [propertyText, List.length_append, List.length_cons]
  omega

/-- `dx_parse_property` reads a property as it is written. -/
theorem parseProperty_render {prop : Property} (h : IsProperty prop)
    (hs : s = pre ++ (propertyText prop ++ b)) (hfirst : first = pre.length) :
    parseProperty s ⟨first, (propertyText prop).length⟩ = .ok prop := by
  have hlength := length_propertyText prop
  have hlong := h.long
  have hkeyIs := h.key
  have hvalueIs := h.value
  obtain ⟨key, value⟩ := prop
  simp only [propertyText, List.append_assoc, List.cons_append] at *
  have hsplitter : findFirst s first (first + (key.length + 1 + value.length))
      propertyValueSplitter = some (first + key.length) :=
    findFirst_append hs hfirst (hkeyIs.notMem (by decide)) (by omega)
  obtain ⟨k, restKey, hkey, hk, -⟩ := hkeyIs.exists_cons
  obtain ⟨v, restValue, hvalue, hv, -⟩ := hvalueIs.exists_cons
  have hkeyEmpty : isEmptyEntry s first (first + key.length - 1) = false := by
    refine isEmptyEntry_append (b := restKey ++ propertyValueSplitter :: (value ++ b)) ?_ hfirst
      (by omega) hk
    rw [hs, hkey, List.cons_append]
  have hvalueEmpty : isEmptyEntry s (first + key.length + 1)
      (first + (key.length + 1 + value.length)) = false := by
    have hsplit : s = (pre ++ (key ++ [propertyValueSplitter])) ++ v :: (restValue ++ b) := by
      rw [hs, hvalue]
      simp
    refine isEmptyEntry_append hsplit ?_ ?_ hv
    · simp [hfirst, Nat.add_assoc]
    · rw [hvalue, List.length_cons]
      omega
  have hkeyText : (s.drop first).take key.length = key := by
    rw [hs, hfirst, List.drop_left, List.take_left]
  have hvalueText : (s.drop (first + key.length + 1)).take value.length = value := by
    have hsplit : s = (pre ++ (key ++ [propertyValueSplitter])) ++ (value ++ b) := by
      rw [hs]
      simp
    rw [hsplit, List.drop_left' (by simp [hfirst, Nat.add_assoc]), List.take_left]
  have hkeySize : first + key.length - first = key.length := by omega
  have hvalueSize : key.length + 1 + value.length - key.length - 1 = value.length := by omega
  have hkeyPos : key.length ≠ 0 := by omega
  have hvaluePos : value.length ≠ 0 := fun hzero => hvalueIs.1 (List.length_eq_zero_iff.mp hzero)
  rw [parseProperty, hlength]
  simp only [hsplitter, hkeyEmpty, hvalueEmpty, Bool.or_self, Bool.false_eq_true, if_false,
    hkeySize, hvalueSize, ansiCreateStringSrcLen, if_neg hkeyPos, if_neg hvaluePos, hkeyText,
    hvalueText]

theorem restText_cons (prop : Property) (props : List Property) :
    restText (prop :: props) = propertiesSplitter :: (propertyText prop ++ restText props) := by
  simp [restText]

theorem length_lt_restText (props : List Property) : props.length < (restText props).length := by
  induction props with
  | nil => exact Nat.one_pos
  | cons prop props ih =>
      rw [restText_cons, List.length_cons, List.length_cons, List.length_append]
      omega

/-- Behind a property there is a comma and another one, or the bracket. -/
theorem exists_restText (props : List Property) :
    ∃ c rest, restText props = c :: rest ∧
      (c = propertiesEndSymbol ∧ props = [] ∧ rest = [] ∨
        c = propertiesSplitter ∧ props ≠ []) := by
  cases props with
  | nil => exact ⟨_, [], rfl, Or.inl ⟨rfl, rfl, rfl⟩⟩
  | cons prop props =>
      exact ⟨_, _, restText_cons prop props, Or.inr ⟨rfl, List.cons_ne_nil _ _⟩⟩

/-- `dx_get_next_property` finds the property behind a bracket or a comma. -/
theorem getNextProperty_render {prop : Property} {props : List Property} {sep : UInt8}
    (h : IsProperty prop) (hsep : sep = propertiesBeginSymbol ∨ sep = propertiesSplitter)
    (hs : s = pre ++ sep :: (propertyText prop ++ (restText props ++ b)))
    (hfirst : first = pre.length) (fuel : ℕ) :
    getNextProperty s (fuel + 1)
        (some first, 1 + (propertyText prop).length + (restText props).length) =
      .ok (some ⟨first + 1, (propertyText prop).length⟩,
        if props = [] then (some (first + 1 + (propertyText prop).length + 1), 0)
        else (some (first + 1 + (propertyText prop).length), (restText props).length)) := by
  obtain ⟨c, rest, hrest, hc⟩ := exists_restText props
  obtain ⟨k, restKey, hkey, hk, -⟩ := h.key.exists_cons
  have hlength := length_propertyText prop
  have hlong := h.long
  have hsepNull : sep ≠ nullSymbol := by rcases hsep with rfl | rfl <;> decide
  have hnext : hasNext s (some first) = true := hasNext_append hs hfirst hsepNull
  have hchar : charAt s first = sep := by rw [hs, charAt_append hfirst]
  have hsplit : s = (pre ++ [sep]) ++ (propertyText prop ++ c :: (rest ++ b)) := by
    rw [hs, hrest]
    simp
  have hpre : first + 1 = (pre ++ [sep]).length := by simp [hfirst]
  have hfound : findFirstOfValues s (first + 1)
      (first + (1 + (propertyText prop).length + (restText props).length) - 1)
      propertiesEndSymbol propertiesSplitter = some (first + 1 + (propertyText prop).length) := by
    refine findFirstOfValues_append hsplit hpre (h.notMem (by decide) (by decide))
      (h.notMem (by decide) (by decide)) (hc.imp And.left And.left) ?_
    rw [hrest, List.length_cons]
    omega
  have hempty : isEmptyEntry s (first + 1) (first + 1 + (propertyText prop).length) = false := by
    have hsplit' : s = (pre ++ [sep]) ++
        (k :: (restKey ++ propertyValueSplitter :: prop.2 ++ c :: (rest ++ b))) := by
      rw [hsplit, propertyText, hkey]
      simp
    exact isEmptyEntry_append hsplit' hpre (by omega) hk
  have hend : charAt s (first + 1 + (propertyText prop).length) = c := by
    have hsplit' : s = (pre ++ [sep] ++ propertyText prop) ++ c :: (rest ++ b) := by
      rw [hsplit]
      simp
    rw [hsplit', charAt_append]
    simp only [List.length_append, List.length_singleton, hfirst]
  rw [getNextProperty, hnext, hchar, if_pos hsep]
  simp only [hfound, hempty, hend, Bool.true_and, Bool.false_eq_true, if_false]
  rw [if_pos (decide_eq_true (by omega))]
  rcases hc with ⟨rfl, rfl, rfl⟩ | ⟨rfl, hne⟩
  · simp [hrest]
    omega
  · rw [if_neg hne, if_neg (by decide)]
    simp
    omega

/-- A pass of the loop over properties stores one of them. -/
theorem parseProperties_step {α : Type} (assign : α → Property → Except Failure α)
    {prop : Property} {props : List Property} {sep : UInt8} (h : IsProperty prop)
    (hsep : sep = propertiesBeginSymbol ∨ sep = propertiesSplitter)
    (hs : s = pre ++ sep :: (propertyText prop ++ (restText props ++ b)))
    (hfirst : first = pre.length) (fuel : ℕ) (result : α) :
    parseProperties s assign (fuel + 1)
        (some first, 1 + (propertyText prop).length + (restText props).length) result =
      (do let result ← assign result prop
          if props = [] then return result
          else
            parseProperties s assign fuel
              (some (first + 1 + (propertyText prop).length), (restText props).length) result) := by
  have hstr : parseProperty s ⟨first + 1, (propertyText prop).length⟩ = .ok prop := by
    have hsplit : s = (pre ++ [sep]) ++ (propertyText prop ++ (restText props ++ b)) := by
      rw [hs]
      simp
    refine parseProperty_render h hsplit ?_
    simp [hfirst]
  rw [parseProperties, getNextProperty_render h hsep hs hfirst]
  by_cases hprops : props = []
  · simp [hprops, hstr, bind, Except.bind]
  · obtain ⟨c, rest, hrest, hc⟩ := exists_restText props
    have hsplit : s = (pre ++ [sep] ++ propertyText prop) ++ c :: (rest ++ b) := by
      rw [hs, hrest]
      simp
    have hnext : hasNext s (some (first + 1 + (propertyText prop).length)) = true := by
      refine hasNext_append hsplit ?_ ?_
      · simp only [List.length_append, List.length_singleton, hfirst]
      · rcases hc with ⟨rfl, -⟩ | ⟨rfl, -⟩ <;> decide
    have hsize : (restText props).length > 0 := by
      rw [hrest]
      exact Nat.succ_pos _
    simp [hprops, hstr, hnext, hsize, bind, Except.bind]

/-- The loop over properties stores them one after the other. -/
theorem parseProperties_render {α : Type} (assign : α → Property → Except Failure α)
    {prop : Property} {props : List Property} {sep : UInt8} {fuel : ℕ} (result : α)
    (h : ∀ prop' ∈ prop :: props, IsProperty prop')
    (hsep : sep = propertiesBeginSymbol ∨ sep = propertiesSplitter)
    (hs : s = pre ++ sep :: (propertyText prop ++ (restText props ++ b)))
    (hfirst : first = pre.length) (hfuel : props.length < fuel) :
    parseProperties s assign fuel
        (some first, 1 + (propertyText prop).length + (restText props).length) result =
      (prop :: props).foldlM assign result := by
  induction props generalizing prop pre sep first fuel result with
  | nil =>
      obtain ⟨fuel, rfl⟩ : ∃ n, fuel = n + 1 := ⟨fuel - 1, by omega⟩
      rw [parseProperties_step assign (h prop List.mem_cons_self) hsep hs hfirst, List.foldlM_cons]
      simp
  | cons next props ih =>
      rw [List.length_cons] at hfuel
      obtain ⟨fuel, rfl⟩ : ∃ n, fuel = n + 1 := ⟨fuel - 1, by omega⟩
      have hsplit : s = (pre ++ [sep] ++ propertyText prop) ++
          propertiesSplitter :: (propertyText next ++ (restText props ++ b)) := by
        rw [hs, restText_cons]
        simp
      have hlength : (restText (next :: props)).length =
          1 + (propertyText next).length + (restText props).length := by
        rw [restText_cons, List.length_cons, List.length_append]
        omega
      rw [parseProperties_step assign (h prop List.mem_cons_self) hsep hs hfirst, List.foldlM_cons]
      congr 1
      funext result
      rw [if_neg (List.cons_ne_nil _ _), hlength]
      refine ih result (fun prop' hmem => h prop' (List.mem_cons_of_mem _ hmem)) (Or.inr rfl)
        hsplit ?_ (by omega)
      simp only [List.length_append, List.length_singleton, hfirst]

/-! ### Host and port -/

theorem eq_of_tolower (h : tolower c = 47) : c = 47 := by
  unfold tolower at h
  split_ifs at h with hupper
  · rw [UInt8.le_iff_toNat_le, UInt8.le_iff_toNat_le] at hupper
    have hnat := congrArg UInt8.toNat h
    rw [UInt8.toNat_add] at hnat
    have hsmall : (65 : UInt8).toNat = 65 ∧ (90 : UInt8).toNat = 90 ∧ (32 : UInt8).toNat = 32 ∧
        (47 : UInt8).toNat = 47 := ⟨rfl, rfl, rfl, rfl⟩
    omega
  · exact h

/-- A text without slashes has no scheme. -/
theorem schemes_find?_eq_none {text : List UInt8} (h : Char.toUInt8 '/' ∉ text) :
    schemes.find? (startsWithNoCase text) = none := by
  rw [List.find?_eq_none]
  intro scheme hscheme hstarts
  have hslash : Char.toUInt8 '/' ∈ scheme.map tolower := by
    simp only [schemes, List.mem_cons, List.not_mem_nil, or_false] at hscheme
    rcases hscheme with rfl | rfl | rfl <;> decide
  rw [startsWithNoCase, beq_iff_eq] at hstarts
  rw [← hstarts, List.mem_map] at hslash
  obtain ⟨c, hc, hlower⟩ := hslash
  obtain rfl : c = Char.toUInt8 '/' := eq_of_tolower hlower
  exact h (List.mem_of_mem_take hc)

theorem IsPort.notMem {text : List UInt8} (h : IsPort text) (hc : isdigit c = false) :
    c ∉ text := by
  intro hmem
  exact Bool.false_ne_true (hc.symm.trans (List.all_eq_true.mp h.2.1 c hmem))

/-- A port that is written down passes its checks. -/
theorem IsPort.check {text : List UInt8} (h : IsPort text) :
    (!isNumeric text || sscanf text < portMin || sscanf text > portMax) = false := by
  have hport := h.2.2
  have hlong : min (decimal text) (2 ^ 63 - 1) = decimal text := min_eq_left (by omega)
  have hvalue : (sscanf text).toInt = decimal text := by
    rw [sscanf, hlong]
    exact Int32.toInt_ofNat_of_lt (by omega)
  have hmin : ¬ sscanf text < portMin := by
    rw [Int32.lt_iff_toInt_lt, hvalue]
    exact not_lt.mpr (Int.natCast_nonneg _)
  have hmax : ¬ sscanf text > portMax := by
    rw [gt_iff_lt, Int32.lt_iff_toInt_lt, hvalue]
    exact not_lt.mpr (Int.ofNat_le.mpr h.2.2)
  simp [isNumeric, h.1, h.2.1, hmin, hmax]

theorem PlainAddress.notMem_hostPortText (address : PlainAddress) (hc : isSpecial c = true)
    (hne : c ≠ hostPortSplitter) (hdigit : isdigit c = false) : c ∉ address.hostPortText := by
  rw [hostPortText, List.mem_append]
  rintro (hmem | hmem)
  · exact address.host.2.notMem hc hmem
  · cases hport : address.port with
    | none => simp [hport, portText] at hmem
    | some port =>
        rw [hport, portText, List.mem_cons] at hmem
        exact hmem.elim hne (port.2.notMem hdigit)

/-- The last colon is the one before the port; the last character is not looked at. -/
theorem findLast_hostPortText (address : PlainAddress) :
    findLast address.hostPortText 0 (address.hostPortText.length - 1) hostPortSplitter =
      .ok (address.port.map fun _ => address.host.val.length) := by
  have hcolon := address.host.2.notMem (c := hostPortSplitter) (by decide)
  rw [findLast, if_neg (Nat.not_lt_zero _), ansiCreateStringSrcLen, Nat.sub_zero, List.drop_zero]
  cases hport : address.port with
  | none =>
      have htext : address.hostPortText = address.host.val := by
        rw [PlainAddress.hostPortText, hport, portText, List.append_nil]
      rw [htext]
      split_ifs
      · rfl
      · simp [strrchr_eq_none fun hmem => hcolon (List.mem_of_mem_take hmem)]
  | some port =>
      have htext : address.hostPortText = address.host.val ++ hostPortSplitter :: port.val := by
        rw [PlainAddress.hostPortText, hport, portText]
      have hpos := List.length_pos_iff.mpr port.2.1
      have hdots : hostPortSplitter ∉ port.val.dropLast := fun hmem =>
        port.2.notMem (by decide) (List.mem_of_mem_dropLast hmem)
      have htake : address.hostPortText.take (address.hostPortText.length - 1) =
          address.host.val ++ hostPortSplitter :: port.val.dropLast := by
        rw [← List.dropLast_eq_take, htext, List.dropLast_append_of_ne_nil (List.cons_ne_nil _ _),
          List.dropLast_cons_of_ne_nil port.2.1]
      rw [htake, if_neg]
      · simp [strrchr_append hdots]
      · rw [htext, List.length_append, List.length_cons]
        omega

/-- `dx_parse_host_port` reads a host and its port as they are written. -/
theorem parseHostPort_render (address : PlainAddress) (addr : Address)
    (htext : (s.drop first).take address.hostPortText.length = address.hostPortText) :
    parseHostPort s ⟨first, address.hostPortText.length⟩ addr =
      .ok { addr with
        host := some address.host.val
        port := address.port.map Subtype.val } := by
  have hslash := address.notMem_hostPortText (c := Char.toUInt8 '/') (by decide) (by decide)
    (by decide)
  have hne : address.hostPortText.length ≠ 0 := by
    rw [PlainAddress.hostPortText, List.length_append]
    have hhost := List.length_pos_iff.mpr address.host.2.1
    omega
  have hcopy : ansiCreateStringSrcLen s first address.hostPortText.length =
      some address.hostPortText := by
    rw [ansiCreateStringSrcLen, if_neg hne, htext]
  rw [parseHostPort]
  simp only [hcopy, schemes_find?_eq_none hslash,
    findLast_hostPortText address]
  cases hport : address.port with
  | none => simp [PlainAddress.hostPortText, hport, portText, bind, Except.bind, pure, Except.pure]
  | some port =>
      have hdrop : address.hostPortText.drop (address.host.val.length + 1) = port.val := by
        rw [PlainAddress.hostPortText, hport, portText]
        simp
      have htake : address.hostPortText.take address.host.val.length = address.host.val := by
        rw [PlainAddress.hostPortText, List.take_left]
      simp [hdrop, htake, port.2.check, bind, Except.bind, pure, Except.pure]

/-! ### An entry -/

theorem isProperty_of_mem {address : PlainAddress} {prop : Property}
    (h : prop ∈ address.properties) : IsProperty prop := by
  have husername : IsText usernameKey := ⟨by decide, by decide +kernel⟩
  have hpassword : IsText passwordKey := ⟨by decide, by decide +kernel⟩
  have hlong : 2 ≤ usernameKey.length ∧ 2 ≤ passwordKey.length := by decide
  rw [PlainAddress.properties, List.mem_append, Option.mem_toList, Option.mem_toList] at h
  rcases h with h | h
  · obtain ⟨username, -, rfl⟩ := Option.map_eq_some_iff.mp h
    exact ⟨husername, hlong.1, username.2⟩
  · obtain ⟨password, -, rfl⟩ := Option.map_eq_some_iff.mp h
    exact ⟨hpassword, hlong.2, password.2⟩

/-- The properties of an address store what they were written for. -/
theorem foldlM_assignAddress (address : PlainAddress) :
    address.properties.foldlM assignAddress
        { Address.zero with
          host := some address.host.val
          port := address.port.map Subtype.val } = .ok address.toAddress := by
  obtain ⟨host, port, username, password⟩ := address
  have hne : passwordKey ≠ usernameKey := by decide
  cases username <;> cases password <;>
    simp [PlainAddress.properties, PlainAddress.toAddress, assignAddress, Address.zero, bind,
      Except.bind, pure, Except.pure, hne]

theorem findLast_eq_none (hc : c ∉ s) (hlast : first ≤ last) :
    findLast s first last c = .ok none := by
  rw [findLast, if_neg (by omega), ansiCreateStringSrcLen]
  split_ifs
  · rfl
  · have hsub : c ∉ (s.drop first).take (last - first) := fun hmem =>
      hc (List.mem_of_mem_drop (List.mem_of_mem_take hmem))
    simp [strrchr_eq_none hsub]

/-- Without codecs the loop over codecs does nothing. -/
theorem parseCodecs_plain (status : CodecStatus) (hplus : codecSplitter ∉ s)
    (hnext : hasNext s (some first) = true) (nextEnd : ℕ) (addr : Address) :
    parseCodecs status s nextEnd (s.length + 1) first addr = .ok addr := by
  have hfind : findFirst s first nextEnd codecSplitter = none := by
    rw [findFirst, strchr_eq_none hplus]
  rw [parseCodecs, getNextCodec, if_pos hnext, hfind]
  simp [hasNext_length, bind, Except.bind, pure, Except.pure]

variable {address : PlainAddress}

/-- `dx_get_host_port_string` stops before the properties. -/
theorem getHostPortString_render (hplus : codecSplitter ∉ s)
    (hs : s = pre ++ (address.entryText ++ entryEndSymbol :: b)) (hfirst : first = pre.length) :
    getHostPortString s first address.entryText.length =
      .ok ⟨first, address.hostPortText.length⟩ := by
  have hbracket := address.notMem_hostPortText (c := propertiesBeginSymbol) (by decide) (by decide)
    (by decide)
  rw [getHostPortString, findLast_eq_none hplus (by omega)]
  cases hprops : address.properties with
  | nil =>
      have htext : address.entryText = address.hostPortText := by
        rw [PlainAddress.entryText, hprops, propertiesText, List.append_nil]
      rw [htext] at hs ⊢
      have hfind : findFirst s first (first + address.hostPortText.length) propertiesBeginSymbol =
          none := by
        refine findFirst_eq_none (a := address.hostPortText ++ [entryEndSymbol]) (b := b) ?_ hfirst
          ?_ ?_
        · rw [hs]
          simp
        · rw [List.mem_append, List.mem_singleton]
          exact not_or.mpr ⟨hbracket, by decide⟩
        · rw [List.length_append, List.length_singleton]
          omega
      simp [hfind, bind, Except.bind, pure, Except.pure]
  | cons prop props =>
      have htext : address.entryText = address.hostPortText ++
          propertiesBeginSymbol :: (propertyText prop ++ restText props) := by
        rw [PlainAddress.entryText, hprops, propertiesText]
      have hfind : findFirst s first (first + address.entryText.length) propertiesBeginSymbol =
          some (first + address.hostPortText.length) := by
        refine findFirst_append
          (b := propertyText prop ++ restText props ++ entryEndSymbol :: b) ?_ hfirst hbracket ?_
        · rw [hs, htext]
          simp
        · rw [htext, List.length_append]
          omega
      simp [hfind, bind, Except.bind, pure, Except.pure]

/-- The loop over properties of an entry. -/
theorem parseProperties_entry (hplus : codecSplitter ∉ s)
    (hs : s = pre ++ (address.entryText ++ entryEndSymbol :: b)) (hfirst : first = pre.length)
    (addr : Address) :
    (do let props ← getProperties s first address.entryText.length
        parseProperties s assignAddress (s.length + 1) props addr) =
      address.properties.foldlM assignAddress addr := by
  rw [getProperties, getHostPortString_render hplus hs hfirst]
  cases hprops : address.properties with
  | nil =>
      have htext : address.entryText = address.hostPortText := by
        rw [PlainAddress.entryText, hprops, propertiesText, List.append_nil]
      rw [htext]
      have hlast : first + address.hostPortText.length - 1 ≤ first + address.hostPortText.length :=
        Nat.sub_le _ _
      simp [hlast, parseProperties, getNextProperty, hasNext, bind, Except.bind, pure, Except.pure]
  | cons prop props =>
      have hsplit : s = (pre ++ address.hostPortText) ++
          propertiesBeginSymbol :: (propertyText prop ++ (restText props ++ entryEndSymbol :: b)) := by
        rw [hs, PlainAddress.entryText, hprops, propertiesText]
        simp
      obtain ⟨inner, hinner⟩ : ∃ inner, restText props = inner ++ [propertiesEndSymbol] :=
        ⟨_, rfl⟩
      have hlength : address.entryText.length = address.hostPortText.length +
          (1 + (propertyText prop).length + (inner.length + 1)) := by
        rw [PlainAddress.entryText, hprops, propertiesText, hinner]
        simp only [List.length_append, List.length_cons, List.length_nil]
        omega
      have hpre : first + address.hostPortText.length = (pre ++ address.hostPortText).length := by
        rw [List.length_append, hfirst]
      have hnext : hasNext s (some (first + address.hostPortText.length)) = true :=
        hasNext_append hsplit hpre (by decide)
      have hbegin : charAt s (first + address.hostPortText.length) = propertiesBeginSymbol := by
        rw [hsplit, charAt_append hpre]
      have hend : charAt s (first + address.entryText.length - 1) = propertiesEndSymbol := by
        have hsplit' : s = (pre ++ address.hostPortText ++ propertiesBeginSymbol ::
            (propertyText prop ++ inner)) ++ propertiesEndSymbol :: (entryEndSymbol :: b) := by
          rw [hsplit, hinner]
          simp
        rw [hsplit', charAt_append]
        simp only [List.length_append, List.length_cons]
        omega
      have hempty : isEmptyEntry s (first + address.hostPortText.length)
          (first + address.entryText.length - 1) = false :=
        isEmptyEntry_append hsplit hpre (by omega) (by decide)
      have hsize : first + address.entryText.length - 1 - (first + address.hostPortText.length) + 1 =
          1 + (propertyText prop).length + (restText props).length := by
        rw [hinner, List.length_append, List.length_singleton]
        omega
      have hlast : ¬ first + address.hostPortText.length ≥ first + address.entryText.length - 1 := by
        omega
      have hprop : ∀ prop' ∈ prop :: props, IsProperty prop' := by
        intro prop' hmem
        exact isProperty_of_mem (hprops ▸ hmem)
      have hfuel : props.length < s.length + 1 := by
        have hrest := length_lt_restText props
        rw [hsplit]
        simp only [List.length_append, List.length_cons]
        omega
      have hloop := parseProperties_render assignAddress addr hprop (Or.inl rfl) hsplit hpre hfuel
      rw [← hsize] at hloop
      simpa [hnext, hbegin, hend, hempty, hlast, bind, Except.bind, pure, Except.pure] using hloop

theorem exists_entryText (address : PlainAddress) :
    ∃ c rest, address.entryText = c :: rest ∧ c ≠ whitespace ∧ c ≠ nullSymbol := by
  obtain ⟨c, rest, hhost, hc⟩ := address.host.2.exists_cons
  exact ⟨c, rest ++ portText address.port ++ propertiesText address.properties, by
    simp [PlainAddress.entryText, PlainAddress.hostPortText, hhost], hc⟩

/-- `dx_parse_address` reads an entry as it is written. -/
theorem parseAddress_render (status : CodecStatus) (hplus : codecSplitter ∉ s)
    (hs : s = pre ++ (address.entryText ++ entryEndSymbol :: b)) (hfirst : first = pre.length) :
    parseAddress status s (some ⟨first, address.entryText.length⟩) = .ok address.toAddress := by
  obtain ⟨c, rest, htext, -, hc⟩ := exists_entryText address
  have hnext : hasNext s (some first) = true := by
    refine hasNext_append (b := rest ++ entryEndSymbol :: b) ?_ hfirst hc
    rw [hs, htext, List.cons_append]
  have hcodecs := parseCodecs_plain status hplus hnext (first + address.entryText.length) .zero
  have hhost : (s.drop first).take address.hostPortText.length = address.hostPortText := by
    rw [hs, hfirst, List.drop_left, PlainAddress.entryText, List.append_assoc, List.take_left]
  have hhostPort := parseHostPort_render address .zero hhost
  have hprops := parseProperties_entry hplus hs hfirst
    { Address.zero with
      host := some address.host.val
      port := address.port.map Subtype.val }
  rw [foldlM_assignAddress] at hprops
  have hsize : address.entryText.length ≠ 0 := by
    rw [htext]
    exact Nat.succ_ne_zero _
  rw [parseAddress, if_neg hsize]
  simpa [hcodecs, getHostPortString_render hplus hs hfirst, hhostPort, bind, Except.bind, pure,
    Except.pure] using hprops

/-! ### A collection -/

/-- The characters between entries and codecs are not in an entry. -/
theorem notMem_entryText (address : PlainAddress)
    (hc : c = codecSplitter ∨ c = entryBeginSymbol ∨ c = entryEndSymbol) :
    c ∉ address.entryText := by
  obtain ⟨hspecial, hdigit, hport, hvalue, hbegin, hend, hcomma⟩ : isSpecial c = true ∧
      isdigit c = false ∧ c ≠ hostPortSplitter ∧ c ≠ propertyValueSplitter ∧
      c ≠ propertiesBeginSymbol ∧ c ≠ propertiesEndSymbol ∧ c ≠ propertiesSplitter := by
    rcases hc with rfl | rfl | rfl <;> decide
  have hprop : ∀ prop ∈ address.properties, c ∉ propertyText prop := fun prop hmem =>
    (isProperty_of_mem hmem).notMem hspecial hvalue
  have hrest : ∀ props : List Property, (∀ prop ∈ props, c ∉ propertyText prop) →
      c ∉ restText props := by
    intro props h hmem
    rw [restText, List.mem_append, List.mem_flatMap, List.mem_singleton] at hmem
    rcases hmem with ⟨prop, hin, hmem⟩ | rfl
    · exact (List.mem_cons.mp hmem).elim hcomma (h prop hin)
    · exact hend rfl
  rw [PlainAddress.entryText, List.mem_append]
  rintro (hmem | hmem)
  · exact address.notMem_hostPortText hspecial hport hdigit hmem
  · cases hprops : address.properties with
    | nil => simp [hprops, propertiesText] at hmem
    | cons prop props =>
        rw [hprops, propertiesText, List.mem_cons, List.mem_append] at hmem
        rw [hprops] at hprop
        rcases hmem with rfl | hmem | hmem
        · exact hbegin rfl
        · exact hprop prop List.mem_cons_self hmem
        · exact hrest props (fun prop' hin => hprop prop' (List.mem_cons_of_mem _ hin)) hmem

theorem length_render (address : PlainAddress) :
    (render address).length = address.entryText.length + 2 := by
  rw [render, List.length_cons, List.length_append, List.length_singleton]

/-- `dx_get_next_entry` finds the entry that is written next. -/
theorem getNextEntry_render (hs : s = pre ++ (render address ++ b)) (hfirst : first = pre.length)
    (fuel : ℕ) :
    getNextEntry s (fuel + 1) first =
      .ok (some ⟨first + 1, address.entryText.length⟩, first + (render address).length) := by
  obtain ⟨c, rest, htext, hc, -⟩ := exists_entryText address
  have hsplit : s = pre ++ entryBeginSymbol :: (address.entryText ++ entryEndSymbol :: b) := by
    rw [hs, render]
    simp
  have hnext : hasNext s (some first) = true := hasNext_append hsplit hfirst (by decide)
  have hbegin : strchr s first entryBeginSymbol = some first := by
    rw [hsplit]
    exact strchr_append (a := []) hfirst List.not_mem_nil
  have hend : strchr s first entryEndSymbol = some (first + 1 + address.entryText.length) := by
    have hcons : s = pre ++ ((entryBeginSymbol :: address.entryText) ++ entryEndSymbol :: b) :=
      hsplit
    rw [hcons, strchr_append hfirst, List.length_cons, Nat.add_assoc, Nat.add_comm 1]
    rw [List.mem_cons]
    exact not_or.mpr ⟨by decide, notMem_entryText address (Or.inr (Or.inr rfl))⟩
  have hempty : isEmptyEntry s (first + 1) (first + 1 + address.entryText.length) = false := by
    have hfirstChar : s = (pre ++ [entryBeginSymbol]) ++ c :: (rest ++ entryEndSymbol :: b) := by
      rw [hsplit, htext]
      simp
    refine isEmptyEntry_append hfirstChar ?_ ?_ hc
    · rw [List.length_append, List.length_singleton, hfirst]
    · rw [htext, List.length_cons]
      omega
  rw [getNextEntry, if_pos hnext, hbegin, hend, length_render]
  simp [hempty]
  omega

/-- A pass of the loop over entries reads one of them. -/
theorem parseEntries_step (status : CodecStatus) (hplus : codecSplitter ∉ s)
    (hs : s = pre ++ (render address ++ b)) (hfirst : first = pre.length) (fuel : ℕ)
    (addresses : List Address) :
    parseEntries status s (fuel + 1) first addresses =
      if hasNext s (some (first + (render address).length)) then
        parseEntries status s fuel (first + (render address).length)
          (addresses ++ [address.toAddress])
      else .ok (addresses ++ [address.toAddress]) := by
  have hparse : parseAddress status s (some ⟨first + 1, address.entryText.length⟩) =
      .ok address.toAddress := by
    have hsplit : s = (pre ++ [entryBeginSymbol]) ++
        (address.entryText ++ entryEndSymbol :: b) := by
      rw [hs, render]
      simp
    refine parseAddress_render status hplus hsplit ?_
    rw [List.length_append, List.length_singleton, hfirst]
  rw [parseEntries, getNextEntry_render hs hfirst]
  simp [hparse, bind, Except.bind, pure, Except.pure]

/-- The loop over entries reads the addresses one after the other. -/
theorem parseEntries_render (status : CodecStatus) {rest : List PlainAddress}
    (hplus : codecSplitter ∉ s) (hs : s = pre ++ (address :: rest).flatMap render)
    (hfirst : first = pre.length) {fuel : ℕ} (hfuel : rest.length < fuel)
    (addresses : List Address) :
    parseEntries status s fuel first addresses =
      .ok (addresses ++ (address :: rest).map PlainAddress.toAddress) := by
  rw [List.flatMap_cons] at hs
  obtain ⟨fuel, rfl⟩ : ∃ n, fuel = n + 1 := ⟨fuel - 1, by omega⟩
  induction rest generalizing pre address first fuel addresses with
  | nil =>
      have hend : first + (render address).length = s.length := by
        rw [hs, List.flatMap_nil, List.append_nil, List.length_append, hfirst]
      rw [parseEntries_step status hplus hs hfirst, hend, hasNext_length,
        if_neg Bool.false_ne_true]
      rfl
  | cons next rest ih =>
      rw [List.length_cons] at hfuel
      obtain ⟨fuel, rfl⟩ : ∃ n, fuel = n + 1 := ⟨fuel - 1, by omega⟩
      have hsplit : s = (pre ++ render address) ++ (render next ++ rest.flatMap render) := by
        rw [hs, List.flatMap_cons, List.append_assoc]
      have hpre : first + (render address).length = (pre ++ render address).length := by
        rw [List.length_append, hfirst]
      have hnext : hasNext s (some (first + (render address).length)) = true :=
        hasNext_append hsplit hpre (by decide)
      rw [parseEntries_step status hplus hs hfirst, if_pos hnext,
        ih hsplit hpre (addresses ++ [address.toAddress]) fuel (by omega), List.map_cons,
        List.append_assoc]
      rfl

theorem length_le_flatMap_render (addresses : List PlainAddress) :
    addresses.length ≤ (addresses.flatMap render).length := by
  induction addresses with
  | nil => exact Nat.zero_le _
  | cons address addresses ih =>
      rw [List.flatMap_cons, List.length_append, length_render, List.length_cons]
      omega

/-- A collection of addresses that is written down is parsed to the same addresses. -/
theorem addressRoundTrip (status : CodecStatus) (address : PlainAddress)
    (rest : List PlainAddress) :
    getAddressesFromCollection status ((address :: rest).flatMap render) =
      .ok ((address :: rest).map PlainAddress.toAddress) := by
  have hplus : codecSplitter ∉ (address :: rest).flatMap render := by
    rw [List.mem_flatMap]
    rintro ⟨address', -, hmem⟩
    rw [render, List.mem_cons, List.mem_append, List.mem_singleton] at hmem
    rcases hmem with h | hmem | h
    · exact absurd h (by decide)
    · exact notMem_entryText address' (Or.inl rfl) hmem
    · exact absurd h (by decide)
  have hfuel : rest.length < ((address :: rest).flatMap render).length + 1 := by
    have hlength := length_le_flatMap_render (address :: rest)
    rw [List.length_cons] at hlength
    omega
  have hne : (address :: rest).flatMap render ≠ [] := by
    rw [List.flatMap_cons, render]
    exact List.cons_ne_nil _ _
  rw [getAddressesFromCollection, if_neg hne]
  exact parseEntries_render status hplus (List.nil_append _).symm rfl hfuel []

end DxFeed.AddressParser
