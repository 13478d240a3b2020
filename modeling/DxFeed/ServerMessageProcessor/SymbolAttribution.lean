import DxFeed.ServerMessageProcessor.DataMessage

/-!
# Which symbol does a record have?

A record has the symbol of the last encoding in the message that is not void.

* `DataRecord`, `IsDataMessage`: the records that a message starts with;
* `lastSymbolOf`: the symbol of the last encoding that is not void;
* `exec_readSymbol`: the step from one symbol to the next;
* `symbolAttribution`: the symbols with which the records of a message are passed on.
-/

namespace DxFeed.ServerMessageProcessor

open Call BufferedIO SymbolCodec

/-! ### Messages -/

/-- The symbol of an encoding. -/
def encodedSymbol : SymbolEncoding → Option WString
  | .penta value => some (pentaToString value)
  | .string symbol => some symbol
  | .void => none

/-- A record in a message, with the most recent event flags behind its symbol. -/
structure DataRecord where
  encoding : SymbolEncoding
  flags : UInt32
  mruEventFlags : UInt32
  flagBytes : List Int8
  symbolBytes : List Int8
  recordBytes : List Int8

def DataRecord.bytes (d : DataRecord) : List Int8 :=
  d.flagBytes ++ d.symbolBytes ++ d.recordBytes

def messageBytes (records : List DataRecord) : List Int8 :=
  records.flatMap DataRecord.bytes

theorem messageBytes_cons (d : DataRecord) (records : List DataRecord) :
    messageBytes (d :: records) = d.bytes ++ messageBytes records :=
  List.flatMap_cons ..

variable {ρ R : Type}

/-- From the states `I` the record is read from the bytes `bs`, and a transcoder stays in them. -/
def ReadsRecord (h : RecordHandlers ρ R) (I : ρ → Prop) (flags : UInt32) (bs : List Int8) : Prop :=
  ∀ pre post limit s, I s → (pre ++ (bs ++ post)).length ≤ INT_MAX →
    ∃ record s', exec (h.readRecord flags) (inputAt pre (bs ++ post) limit, s) =
        (.ok record, (inputAt (pre ++ bs) post limit, s')) ∧
      ∀ params, I (exec (h.transcodeRecordData params record) s').2

/-- The records that a message starts with, where the most recent event flags are `mru`. -/
inductive IsDataMessage (h : RecordHandlers ρ R) (I : ρ → Prop) :
    UInt32 → List DataRecord → Prop
  | nil (mru : UInt32) : IsDataMessage h I mru []
  | cons {mru : UInt32} {d : DataRecord} {records : List DataRecord}
      (hflags : FlagBytes mru d.flagBytes d.flags d.mruEventFlags)
      (hsymbol : SymbolBytes d.encoding d.symbolBytes)
      (hunits : ∀ symbol, d.encoding = .string symbol → ∀ c ∈ symbol, c ≠ 0)
      (hrecord : ReadsRecord h I d.flags d.recordBytes)
      (hrest : IsDataMessage h I d.mruEventFlags records) : IsDataMessage h I mru (d :: records)

/-- The symbol of the last encoding that is not void, behind a record with the symbol `symbol`. -/
def lastSymbolOf (symbol : Option WString) (records : List DataRecord) : Option WString :=
  records.foldl (fun symbol d => (encodedSymbol d.encoding).or symbol) symbol

/-- The records that are passed on have these symbols. -/
def SymbolsMatch (symbol : Option WString) (records : List DataRecord)
    (passed : List SymbolParams) : Prop :=
  ∀ k < records.length, ∀ params, passed[k]? = some params →
    params.symbolName = lastSymbolOf symbol (records.take (k + 1))

/-- The symbols read, in their order; the last one counts. -/
theorem lastSymbolOf_eq (records : List DataRecord) :
    lastSymbolOf none records =
      (records.filterMap fun d => encodedSymbol d.encoding).getLast? := by
  induction records using List.reverseRecOn with
  | nil => rfl
  | append_singleton records d ih =>
      have hstep : lastSymbolOf none (records ++ [d]) =
          (encodedSymbol d.encoding).or (lastSymbolOf none records) := by
        simp [lastSymbolOf]
      rw [hstep, ih, List.filterMap_append]
      cases hd : encodedSymbol d.encoding with
      | none => simp [hd]
      | some symbol => simp [hd]

/-! ### Symbols -/

theorem createStringSrcLen_eq {symbol : WString} (h : ∀ c ∈ symbol, c ≠ 0) :
    createStringSrcLen symbol symbol.length = symbol := by
  rw [createStringSrcLen, List.take_length, List.takeWhile_eq_self_iff]
  simpa using h

/-- The symbol of the record before, and no string that is left over. -/
structure DataContext.HasSymbol (context : DataContext ρ) (symbol : Option WString) : Prop where
  lastSymbol : context.lastSymbol = symbol
  lastCipher : symbol = none → context.lastCipher = 0
  result : context.codec.result = none

/-- The symbol of a cipher. -/
theorem exec_storeSymbol_tag {context : DataContext ρ} {r : Int32} {symbol : WString}
    (htag : r &&& codecValidCipher ≠ 0) (hdecode : decodeSymbolName r = some (some symbol)) :
    exec (do storeSymbol r; decodeLastSymbol) context =
      (.ok (), { context with lastCipher := r, lastSymbol := some symbol }) := by
  have hstore : exec (storeSymbol r) context =
      (.ok (), { context with lastCipher := r, lastSymbol := none }) := by
    rw [storeSymbol, if_pos htag]
    rfl
  rw [exec_bind_ok hstore, decodeLastSymbol, exec_bind_ok (exec_get _), if_pos rfl, hdecode]
  rfl

/-- A string that fits into the buffer. -/
theorem exec_storeSymbol_buffer {context : DataContext ρ} {r : Int32} {symbol : WString}
    (htag : r &&& codecValidCipher = 0) (hpos : r > 0)
    (hsymbol : createStringSrcLen context.codec.buffer r.toInt.toNat = symbol) :
    exec (do storeSymbol r; decodeLastSymbol) context =
      (.ok (), { context with lastCipher := 0, lastSymbol := some symbol }) := by
  have hstore : exec (storeSymbol r) context =
      (.ok (), { context with lastCipher := 0, lastSymbol := some symbol }) := by
    rw [storeSymbol, if_neg (not_not.mpr htag), if_pos hpos, ← hsymbol]
    rfl
  rw [exec_bind_ok hstore, decodeLastSymbol, exec_bind_ok (exec_get _), if_neg (nomatch ·)]
  rfl

/-- The branch without a cipher. -/
theorem exec_storeSymbol_zero (context : DataContext ρ) :
    exec (storeSymbol 0) context =
      if context.takeResult.lastCipher = 0 ∧ context.takeResult.lastSymbol = none then
        (.error (some .invalidSymbol), context.takeResult)
      else (.ok (), context.takeResult) := by
  rw [storeSymbol, if_neg (by decide), if_neg (by decide), exec_bind_ok (exec_modify _ _),
    exec_bind_ok (exec_get _)]
  split_ifs <;> rfl

/-- A string that the codec has allocated. -/
theorem exec_storeSymbol_result {context : DataContext ρ} {symbol : WString}
    (hresult : context.codec.result = some symbol) :
    exec (do storeSymbol 0; decodeLastSymbol) context =
      (.ok (), { context with
        lastSymbol := some symbol
        codec := { context.codec with result := none }
        lastCipher := encodeSymbolName (some symbol) }) := by
  have htake : context.takeResult = { context with
      lastSymbol := some symbol
      codec := { context.codec with result := none }
      lastCipher := encodeSymbolName (some symbol) } := by
    rw [DataContext.takeResult, hresult]
  have hstore := exec_storeSymbol_zero context
  rw [htake, if_neg (by simp)] at hstore
  rw [exec_bind_ok hstore, decodeLastSymbol, exec_bind_ok (exec_get _), if_neg (nomatch ·)]
  rfl

/-- A record without a symbol is an error. -/
def requireSymbol : Option WString → Except (Option ErrorCode) Unit
  | none => .error (some .invalidSymbol)
  | some _ => .ok ()

/-- No string, and the symbol before it. -/
theorem exec_storeSymbol_void {context : DataContext ρ} {symbol : Option WString}
    (hcontext : context.HasSymbol symbol) :
    exec (do storeSymbol 0; decodeLastSymbol) context =
      (requireSymbol symbol, context) := by
  have htake : context.takeResult = context := by
    rw [DataContext.takeResult, hcontext.result]
  have hstore := exec_storeSymbol_zero context
  rw [htake, hcontext.lastSymbol] at hstore
  cases symbol with
  | none =>
      rw [if_pos ⟨hcontext.lastCipher rfl, rfl⟩] at hstore
      rw [exec_bind_error hstore]
      rfl
  | some symbol =>
      rw [if_neg (by simp)] at hstore
      rw [exec_bind_ok hstore, decodeLastSymbol, exec_bind_ok (exec_get _), hcontext.lastSymbol,
        if_neg (nomatch ·)]
      rfl

/-- `dx_read_symbol` on what the codec has made of an encoding. -/
theorem exec_storeSymbol {context : DataContext ρ} {symbol : Option WString}
    (hcontext : context.HasSymbol symbol) (encoding : SymbolEncoding)
    (hunits : ∀ symbol, encoding = .string symbol → ∀ c ∈ symbol, c ≠ 0) :
    ∃ codec cipher, codec.flags = context.codec.flags ∧
      codec.mruEventFlags = context.codec.mruEventFlags ∧ codec.result = none ∧
      (cipher = 0 ∨ (encodedSymbol encoding).or symbol ≠ none) ∧
      exec (do storeSymbol (encoding.outcome symbolBufferLen context.codec).1; decodeLastSymbol)
          { context with codec := (encoding.outcome symbolBufferLen context.codec).2 } =
        (requireSymbol ((encodedSymbol encoding).or symbol),
          { context with
            codec := codec
            lastCipher := cipher
            lastSymbol := (encodedSymbol encoding).or symbol }) := by
  cases encoding with
  | penta value =>
      simp only [SymbolEncoding.outcome, CodecOutputs.withPenta, encodedSymbol, Option.some_or]
      by_cases hcipher : pentaCipher value = 0
      · -- a penta without a cipher comes as a string
        rw [if_pos hcipher, hcipher]
        refine ⟨{ context.codec with result := none }, encodeSymbolName (some (pentaToString value)), rfl, rfl,
          rfl, Or.inr (by simp), ?_⟩
        exact exec_storeSymbol_result rfl
      · have hdecode := decodeCipher_pentaCipher hcipher
        have hname : decodeSymbolName (pentaCipher value) = some (some (pentaToString value)) := by
          rw [decodeSymbolName, if_neg hcipher, hdecode]
        rw [if_neg hcipher]
        refine ⟨context.codec, pentaCipher value, rfl, rfl, hcontext.result,
          Or.inr (by simp), ?_⟩
        exact exec_storeSymbol_tag (tag_of_decodeCipher hdecode) hname
  | string string =>
      have hcreate := createStringSrcLen_eq (hunits string rfl)
      simp only [SymbolEncoding.outcome, encodedSymbol, Option.some_or]
      by_cases hnil : string = []
      · subst hnil
        rw [if_pos rfl]
        refine ⟨{ context.codec with result := none }, encodeSymbolName (some []), rfl, rfl,
          rfl, Or.inr (by simp), ?_⟩
        exact exec_storeSymbol_result rfl
      rw [if_neg hnil]
      -- a short string is in the buffer of the codec, and a long one in a block of its own
      by_cases hshort : string.length ≤ symbolBufferLen
      · have hlt : string.length < 2 ^ 30 := hshort.trans_lt (by norm_num [symbolBufferLen])
        have hvalue : (Int32.ofNat string.length).toInt = string.length :=
          Int32.toInt_ofNat_of_lt (by omega)
        have hpos : Int32.ofNat string.length > 0 := by
          have hlength := List.length_pos_iff.mpr hnil
          show (0 : Int32) < _
          rw [Int32.lt_iff_toInt_lt, hvalue, show (0 : Int32).toInt = 0 from rfl]
          exact_mod_cast hlength
        rw [if_pos hshort]
        refine ⟨{ context.codec with buffer := string }, 0, rfl, rfl, hcontext.result,
          Or.inl rfl, ?_⟩
        refine exec_storeSymbol_buffer (ofNat_and_codecValidCipher hlt) hpos ?_
        rw [hvalue, Int.toNat_natCast, hcreate]
      · rw [if_neg hshort, hcreate]
        refine ⟨{ context.codec with result := none }, encodeSymbolName (some string), rfl, rfl,
          rfl, Or.inr (by simp), ?_⟩
        exact exec_storeSymbol_result rfl
  | void =>
      -- the last symbol stays, if there is one
      have hvoid : ({ context with codec := { context.codec with result := none } } :
          DataContext ρ).HasSymbol symbol :=
        ⟨hcontext.lastSymbol, hcontext.lastCipher, rfl⟩
      simp only [SymbolEncoding.outcome, encodedSymbol, Option.none_or]
      refine ⟨{ context.codec with result := none }, context.lastCipher, rfl, rfl, rfl, ?_, ?_⟩
      · by_cases hnone : symbol = none
        · exact Or.inl (hcontext.lastCipher hnone)
        · exact Or.inr hnone
      · rw [exec_storeSymbol_void hvoid, ← hcontext.lastSymbol]

/-- `dx_read_symbol` and the decoding behind it, in front of an encoding. -/
theorem exec_readSymbol {context : DataContext ρ} {symbol : Option WString}
    (hcontext : context.HasSymbol symbol) {encoding : SymbolEncoding} {bs cs : List Int8}
    {flags mru : UInt32} (hflags : FlagBytes context.codec.mruEventFlags bs flags mru)
    (hsymbol : SymbolBytes encoding cs)
    (hunits : ∀ symbol, encoding = .string symbol → ∀ c ∈ symbol, c ≠ 0)
    {pre post : List Int8} {limit : ℕ} (hbicc : context.bicc = inputAt pre (bs ++ cs ++ post) limit)
    (hlen : (pre ++ (bs ++ cs ++ post)).length ≤ INT_MAX) :
    ∃ codec cipher, codec.flags = flags ∧ codec.mruEventFlags = mru ∧ codec.result = none ∧
      (cipher = 0 ∨ (encodedSymbol encoding).or symbol ≠ none) ∧
      exec (do readSymbol; decodeLastSymbol) context =
        (requireSymbol ((encodedSymbol encoding).or symbol),
          { context with
            bicc := inputAt (pre ++ (bs ++ cs)) post limit
            codec := codec
            lastCipher := cipher
            lastSymbol := (encodedSymbol encoding).or symbol }) := by
  have hdecodes := decodes_codecReadSymbol hflags hsymbol
    (show symbolBufferLen < 2 ^ 30 by norm_num [symbolBufferLen])
  set outputs := { context.codec with flags := flags, mruEventFlags := mru }
  set outcome := encoding.outcome symbolBufferLen outputs
  have hcodec : exec (codecCall (codecReadSymbol symbolBufferLen)) context =
      (.ok outcome.1, { context with
        bicc := inputAt (pre ++ (bs ++ cs)) post limit
        codec := outcome.2 }) := by
    have hexec := hdecodes pre post limit hlen
    rw [codecCall, exec_zoom, exec_adapt, hbicc, hexec]
    rfl
  have hread : DataContext.HasSymbol { context with
      bicc := inputAt (pre ++ (bs ++ cs)) post limit, codec := outputs } symbol :=
    ⟨hcontext.lastSymbol, hcontext.lastCipher, hcontext.result⟩
  obtain ⟨codec, cipher, hflags', hmru, hresult, hcipher, hexec⟩ :=
    exec_storeSymbol hread encoding hunits
  refine ⟨codec, cipher, hflags', hmru, hresult, hcipher, ?_⟩
  rw [readSymbol, bind_assoc, exec_bind_ok hcodec]
  exact hexec

/-! ### What every message keeps -/

section Preserves

variable {h : RecordHandlers ρ R} {P : DataContext ρ → Prop}

theorem preserves_decodeLastSymbol
    (hsymbol : ∀ context symbol, P context → P { context with lastSymbol := symbol }) :
    Preserves P decodeLastSymbol := by
  refine preserves_get_bind fun context hcontext => ?_
  split_ifs
  · split
    · exact hcontext
    · exact hsymbol context _ hcontext
  · exact hcontext

theorem preserves_processRecord (hread : Preserves P readSymbol)
    (hsymbol : ∀ context symbol, P context → P { context with lastSymbol := symbol })
    (hrecords : ∀ context bicc records, P context →
      P { context with bicc := bicc, records := records })
    (hpassedOn : ∀ context params, P context →
      P { context with passedOn := context.passedOn ++ [params] }) :
    Preserves P (processRecord h) := by
  refine hread.bind fun _ => (preserves_decodeLastSymbol hsymbol).bind fun _ => ?_
  refine preserves_get_bind fun start hstart => ?_
  refine (preserves_zoom fun context reader => hrecords context _ _).bind (fun record => ?_) start
    hstart
  refine preserves_get_bind fun context hcontext => ?_
  rw [exec_bind_ok (exec_set _ _)]
  exact preserves_zoom (fun context records => hrecords context context.bicc records) _
    (hpassedOn context _ hcontext)

theorem preserves_processRecords (hrecord : Preserves P (processRecord h)) (rounds : ℕ) :
    Preserves P (processRecords h rounds) := by
  induction rounds with
  | zero => exact preserves_pure _
  | succ rounds ih =>
      refine preserves_get_bind fun context hcontext => ?_
      split_ifs
      · exact hrecord.bind (fun _ => ih) context hcontext
      · exact hcontext

end Preserves

theorem passedOn_takeResult (context : DataContext ρ) :
    context.takeResult.passedOn = context.passedOn := by
  unfold DataContext.takeResult
  split <;> rfl

theorem keeps_storeSymbol (r : Int32) :
    Keeps DataContext.passedOn (storeSymbol r : DataCall ρ Unit) := by
  unfold storeSymbol
  split_ifs
  · exact keeps_modify fun _ => rfl
  · exact keeps_modify fun _ => rfl
  · refine (keeps_modify passedOn_takeResult).bind fun _ => keeps_get_bind fun context => ?_
    split_ifs <;> rfl

/-- The records that have been passed on stay passed on. -/
theorem passedOn_processRecords (h : RecordHandlers ρ R) (rounds : ℕ) (context : DataContext ρ) :
    context.passedOn <+: (exec (processRecords h rounds) context).2.passedOn := by
  have hread : Keeps DataContext.passedOn (readSymbol : DataCall ρ Unit) :=
    Keeps.bind (fun _ => rfl) keeps_storeSymbol
  have hrecord : Preserves (fun c : DataContext ρ => context.passedOn <+: c.passedOn)
      (processRecord h) := by
    refine preserves_processRecord (fun c hc => ?_) (fun _ _ hc => hc) (fun _ _ _ hc => hc)
      fun c params hc => hc.trans (List.prefix_append _ _)
    rw [hread c]
    exact hc
  exact preserves_processRecords hrecord rounds context (List.prefix_refl _)

theorem result_takeResult (context : DataContext ρ) : context.takeResult.codec.result = none := by
  unfold DataContext.takeResult
  split
  · assumption
  · rfl

theorem preserves_storeSymbol (r : Int32) :
    Preserves (fun context : DataContext ρ => context.codec.result = none) (storeSymbol r) := by
  unfold storeSymbol
  split_ifs
  · exact preserves_modify fun _ hc => hc
  · exact preserves_modify fun _ hc => hc
  · refine (preserves_modify fun context _ => result_takeResult context).bind fun _ =>
      preserves_get_bind fun context hcontext => ?_
    split_ifs
    · exact hcontext
    · exact hcontext

/-- A string that the codec has allocated is taken at once. -/
theorem result_readSymbol : Preserves (fun context : DataContext ρ => context.codec.result = none)
    readSymbol := by
  intro context hcontext
  have hcodec := returnsString_codecReadSymbol symbolBufferLen ⟨context.bicc, context.codec⟩
  have hcall : exec (codecCall (codecReadSymbol symbolBufferLen)) context =
      ((exec (codecReadSymbol symbolBufferLen) ⟨context.bicc, context.codec⟩).1.mapError some,
        { context with
          bicc := (exec (codecReadSymbol symbolBufferLen) ⟨context.bicc, context.codec⟩).2.bicc
          codec :=
            (exec (codecReadSymbol symbolBufferLen) ⟨context.bicc, context.codec⟩).2.outputs }) :=
    rfl
  rw [readSymbol, exec_bind, hcall]
  rcases hcodec with hsame | hzero
  · rcases (exec (codecReadSymbol symbolBufferLen) ⟨context.bicc, context.codec⟩).1 with e | r
    · exact hsame.trans hcontext
    · exact preserves_storeSymbol r _ (hsame.trans hcontext)
  · rw [hzero]
    show (exec (storeSymbol 0) _).2.codec.result = none
    rw [exec_storeSymbol_zero]
    split_ifs
    · exact result_takeResult _
    · exact result_takeResult _

/-- No string is left over from a message. -/
theorem processDataMessage_keeps_result (h : RecordHandlers ρ R) :
    Preserves (fun context : DataContext ρ => context.codec.result = none)
      (processDataMessage h) := by
  have hrecord : Preserves (fun context : DataContext ρ => context.codec.result = none)
      (processRecord h) :=
    preserves_processRecord result_readSymbol (fun _ _ hc => hc) (fun _ _ _ hc => hc)
      fun _ _ hc => hc
  refine (preserves_modify fun context hcontext => ?_).bind fun _ =>
    preserves_get_bind fun context hcontext => ?_
  · exact hcontext
  · exact preserves_processRecords hrecord _ context hcontext

/-! ### The records of a message -/

/-- The reader is in front of the bytes `bs`, behind a record with the symbol `symbol`. -/
structure DataContext.InFront (context : DataContext ρ) (I : ρ → Prop) (symbol : Option WString)
    (mru : UInt32) (pre bs : List Int8) (limit : ℕ) : Prop where
  hasSymbol : context.HasSymbol symbol
  records : I context.records
  bicc : context.bicc = inputAt pre bs limit
  mruEventFlags : context.codec.mruEventFlags = mru

section Records

variable {h : RecordHandlers ρ R} {I : ρ → Prop} {context : DataContext ρ}
  {symbol : Option WString} {mru : UInt32} {pre post : List Int8} {limit : ℕ} {d : DataRecord}

/-- A record behind its symbol is passed on. -/
theorem exec_passRecordOn {name : WString} {bs : List Int8} {flags : UInt32}
    (hcontext : context.InFront I (some name) mru pre (bs ++ post) limit)
    (hflags : context.codec.flags = flags) (hrecord : ReadsRecord h I flags bs)
    (hlen : (pre ++ (bs ++ post)).length ≤ INT_MAX) :
    ∃ params record s context', params.symbolName = some name ∧
      exec (passRecordOn h) context = ((exec (h.transcodeRecordData params record) s).1, context') ∧
      context'.InFront I (some name) mru (pre ++ bs) post limit ∧
      context'.passedOn = context.passedOn ++ [params] := by
  obtain ⟨record, s, hread, hstays⟩ := hrecord pre post limit context.records hcontext.records hlen
  have hcall : exec (recordCall (h.readRecord context.codec.flags)) context =
      (.ok record, { context with bicc := inputAt (pre ++ bs) post limit, records := s }) := by
    rw [recordCall, exec_zoom, hcontext.bicc, hflags, hread]
  set params : SymbolParams := ⟨context.lastSymbol, context.lastCipher, context.codec.flags⟩
  refine ⟨params, record, s, { context with
      bicc := inputAt (pre ++ bs) post limit
      records := (exec (h.transcodeRecordData params record) s).2
      passedOn := context.passedOn ++ [params] }, hcontext.hasSymbol.lastSymbol, ?_,
    ⟨⟨hcontext.hasSymbol.lastSymbol, (nomatch ·), hcontext.hasSymbol.result⟩, hstays params, rfl,
      hcontext.mruEventFlags⟩, rfl⟩
  rw [passRecordOn, exec_bind_ok (exec_get _), exec_bind_ok hcall, exec_bind_ok (exec_get _),
    exec_bind_ok (exec_set _ _), exec_zoom]

/-- A record has the symbol of its encoding, or of the record before it. -/
theorem exec_processRecord {name : WString}
    (hcontext : context.InFront I symbol mru pre (d.bytes ++ post) limit)
    (hflags : FlagBytes mru d.flagBytes d.flags d.mruEventFlags)
    (hsymbol : SymbolBytes d.encoding d.symbolBytes)
    (hunits : ∀ symbol, d.encoding = .string symbol → ∀ c ∈ symbol, c ≠ 0)
    (hrecord : ReadsRecord h I d.flags d.recordBytes)
    (hname : (encodedSymbol d.encoding).or symbol = some name)
    (hlen : (pre ++ (d.bytes ++ post)).length ≤ INT_MAX) :
    ∃ params record s context', params.symbolName = some name ∧
      exec (processRecord h) context =
        ((exec (h.transcodeRecordData params record) s).1, context') ∧
      context'.InFront I (some name) d.mruEventFlags (pre ++ d.bytes) post limit ∧
      context'.passedOn = context.passedOn ++ [params] := by
  have hsplit : d.bytes ++ post = d.flagBytes ++ d.symbolBytes ++ (d.recordBytes ++ post) := by
    rw [DataRecord.bytes, List.append_assoc]
  have hfront : pre ++ d.bytes = pre ++ (d.flagBytes ++ d.symbolBytes) ++ d.recordBytes := by
    rw [DataRecord.bytes, List.append_assoc pre]
  rw [hsplit] at hlen
  have hbicc := hcontext.bicc
  rw [hsplit] at hbicc
  rw [← hcontext.mruEventFlags] at hflags
  obtain ⟨codec, cipher, hcodec, hmru, hresult, -, hread⟩ :=
    exec_readSymbol hcontext.hasSymbol hflags hsymbol hunits hbicc hlen
  rw [hname] at hread
  have hbehind : DataContext.InFront { context with
      bicc := inputAt (pre ++ (d.flagBytes ++ d.symbolBytes)) (d.recordBytes ++ post) limit
      codec := codec
      lastCipher := cipher
      lastSymbol := some name } I (some name) d.mruEventFlags
      (pre ++ (d.flagBytes ++ d.symbolBytes)) (d.recordBytes ++ post) limit :=
    ⟨⟨rfl, (nomatch ·), hresult⟩, hcontext.records, rfl, hmru⟩
  obtain ⟨params, record, s, context', hparams, hpass, hfront', hpassedOn⟩ :=
    exec_passRecordOn hbehind hcodec hrecord (by simpa using hlen)
  rw [← hfront] at hfront'
  refine ⟨params, record, s, context', hparams, ?_, hfront', hpassedOn⟩
  rw [processRecord, ← bind_assoc, exec_bind_ok hread, hpass]

/-- A record without a symbol is an error. -/
theorem exec_processRecord_void
    (hcontext : context.InFront I symbol mru pre (d.bytes ++ post) limit)
    (hflags : FlagBytes mru d.flagBytes d.flags d.mruEventFlags)
    (hsymbol : SymbolBytes d.encoding d.symbolBytes)
    (hname : (encodedSymbol d.encoding).or symbol = none)
    (hlen : (pre ++ (d.bytes ++ post)).length ≤ INT_MAX) :
    ∃ context', exec (processRecord h) context = (.error (some .invalidSymbol), context') ∧
      context'.passedOn = context.passedOn := by
  have hunits : ∀ symbol, d.encoding = .string symbol → ∀ c ∈ symbol, c ≠ 0 := by
    intro string hstring
    rw [hstring] at hname
    exact nomatch hname
  have hsplit : d.bytes ++ post = d.flagBytes ++ d.symbolBytes ++ (d.recordBytes ++ post) := by
    rw [DataRecord.bytes, List.append_assoc]
  have hbicc := hcontext.bicc
  rw [hsplit] at hbicc hlen
  rw [← hcontext.mruEventFlags] at hflags
  obtain ⟨codec, cipher, -, -, -, -, hread⟩ :=
    exec_readSymbol hcontext.hasSymbol hflags hsymbol hunits hbicc hlen
  rw [hname] at hread
  refine ⟨{ context with
    bicc := inputAt (pre ++ (d.flagBytes ++ d.symbolBytes)) (d.recordBytes ++ post) limit
    codec := codec
    lastCipher := cipher
    lastSymbol := none }, ?_, rfl⟩
  rw [processRecord, ← bind_assoc]
  exact exec_bind_error hread

/-- A round of the loop in front of the limit. -/
theorem exec_processRecords_succ {bs : List Int8}
    (hcontext : context.InFront I symbol mru pre bs limit) (hlimit : pre.length < limit)
    (rounds : ℕ) :
    exec (processRecords h (rounds + 1)) context =
      exec (do processRecord h; processRecords h rounds) context := by
  rw [processRecords, exec_bind_ok (exec_get _), if_pos (by rw [hcontext.bicc]; exact hlimit)]

theorem symbolsMatch_nil (symbol : Option WString) (records : List DataRecord) :
    SymbolsMatch symbol records [] := by
  intro k _ params hk
  exact nomatch hk

theorem symbolsMatch_cons {records : List DataRecord} {params : SymbolParams}
    {passed : List SymbolParams} {name : WString}
    (hname : (encodedSymbol d.encoding).or symbol = some name)
    (hparams : params.symbolName = some name) (h : SymbolsMatch (some name) records passed) :
    SymbolsMatch symbol (d :: records) (params :: passed) := by
  rintro (_ | k) hk params' hparams'
  · obtain rfl := Option.some.inj hparams'
    rw [hparams, ← hname]
    rfl
  · rw [h k (Nat.lt_of_succ_lt_succ hk) params' hparams', ← hname]
    rfl

/-- Every record takes a byte or more. -/
theorem IsDataMessage.length_le {records : List DataRecord} (h' : IsDataMessage h I mru records) :
    records.length ≤ (messageBytes records).length := by
  induction h' with
  | nil => exact Nat.zero_le _
  | cons _ hsymbol _ _ _ ih =>
      have hpos := hsymbol.length_pos
      simp only [messageBytes, List.flatMap_cons, List.length_append, List.length_cons,
        DataRecord.bytes] at ih ⊢
      omega

/-- A message whose first record has no symbol is an error. -/
theorem exec_processRecords_void {records : List DataRecord}
    (hcontext : context.InFront I none mru pre (messageBytes (d :: records) ++ post) limit)
    (hlimit : pre.length + (messageBytes (d :: records)).length ≤ limit)
    (hflags : FlagBytes mru d.flagBytes d.flags d.mruEventFlags)
    (hsymbol : SymbolBytes d.encoding d.symbolBytes) (hvoid : d.encoding = .void)
    (hlen : (pre ++ (messageBytes (d :: records) ++ post)).length ≤ INT_MAX) (rounds : ℕ) :
    ∃ context', exec (processRecords h (rounds + 1)) context =
        (.error (some .invalidSymbol), context') ∧ context'.passedOn = context.passedOn := by
  have hpos := hsymbol.length_pos
  rw [messageBytes_cons, List.append_assoc] at hcontext hlen
  rw [messageBytes_cons, List.length_append] at hlimit
  have hlt : pre.length < limit := by
    simp only [DataRecord.bytes, List.length_append] at hlimit
    omega
  obtain ⟨context', hexec, hpassedOn⟩ := exec_processRecord_void (h := h) hcontext hflags hsymbol
    (by rw [hvoid]; rfl) hlen
  exact ⟨context', by rw [exec_processRecords_succ hcontext hlt, exec_bind_error hexec], hpassedOn⟩

/-- The symbols with which the records at the start of a message are passed on. -/
theorem passedOn_symbols {records : List DataRecord} (hmessage : IsDataMessage h I mru records)
    (hcontext : context.InFront I symbol mru pre (messageBytes records ++ post) limit)
    (hlimit : pre.length + (messageBytes records).length ≤ limit)
    (hlen : (pre ++ (messageBytes records ++ post)).length ≤ INT_MAX) (rounds : ℕ) :
    ∃ passed, (exec (processRecords h rounds) context).2.passedOn = context.passedOn ++ passed ∧
      SymbolsMatch symbol records passed ∧
      ((∀ params record s, Returns (h.transcodeRecordData params record) s) →
        (∀ d ∈ records.head?, (encodedSymbol d.encoding).or symbol ≠ none) →
        records.length ≤ rounds → records.length ≤ passed.length) := by
  induction hmessage generalizing context symbol pre rounds with
  | nil mru =>
      obtain ⟨passed, hpassed⟩ := passedOn_processRecords h rounds context
      exact ⟨passed, hpassed.symm, fun k hk => absurd hk (Nat.not_lt_zero k),
        fun _ _ _ => Nat.zero_le _⟩
  | @cons mru d records hflags hsymbol hunits hrecord hrest ih =>
      rcases rounds with _ | rounds
      · exact ⟨[], (List.append_nil _).symm, symbolsMatch_nil _ _,
          fun _ _ hrounds => absurd hrounds (Nat.not_succ_le_zero _)⟩
      have hpos := hsymbol.length_pos
      rw [messageBytes_cons, List.append_assoc] at hcontext hlen
      rw [messageBytes_cons, List.length_append] at hlimit
      have hlt : pre.length < limit := by
        simp only [DataRecord.bytes, List.length_append] at hlimit
        omega
      rw [exec_processRecords_succ hcontext hlt]
      cases hname : (encodedSymbol d.encoding).or symbol with
      | none =>
          -- The message ends with an error.
          obtain ⟨context', hexec, hpassedOn⟩ :=
            exec_processRecord_void hcontext hflags hsymbol hname hlen
          rw [exec_bind_error hexec, hpassedOn]
          exact ⟨[], (List.append_nil _).symm, symbolsMatch_nil _ _,
            fun _ hfirst => absurd hname (hfirst d rfl)⟩
      | some name =>
          obtain ⟨params, record, s, context', hparams, hexec, hcontext', hpassedOn⟩ :=
            exec_processRecord hcontext hflags hsymbol hunits hrecord hname hlen
          rcases hres : (exec (h.transcodeRecordData params record) s).1 with e | ⟨⟩
          · -- The transcoder ends the message.
            rw [hres] at hexec
            rw [exec_bind_error hexec, hpassedOn]
            refine ⟨[params], rfl, symbolsMatch_cons hname hparams (symbolsMatch_nil _ _), ?_⟩
            intro hreturns
            obtain ⟨a, ha⟩ := hreturns params record s
            rw [hres] at ha
            exact nomatch ha
          · rw [hres] at hexec
            rw [exec_bind_ok hexec]
            obtain ⟨passed, hrun, hmatch, hall⟩ := ih hcontext'
              (by rw [List.length_append]; omega) (by rwa [List.append_assoc]) rounds
            rw [hpassedOn] at hrun
            refine ⟨params :: passed, by simp [hrun], symbolsMatch_cons hname hparams hmatch, ?_⟩
            intro hreturns _ hrounds
            refine Nat.succ_le_succ (hall hreturns ?_ (Nat.le_of_succ_le_succ hrounds))
            intro d' _
            simp

end Records

/-! ### Messages, one after the other -/

/-- The contexts of a connection.  Between data messages only the input and the states of the
records change. -/
inductive DataContext.Reachable (h : RecordHandlers ρ R) : DataContext ρ → Prop
  | start (bicc : InputContext) (records : ρ) :
      Reachable h ⟨bicc, ⟨[], none, 0, 0⟩, 0, none, records, []⟩
  | between {context : DataContext ρ} (bicc : InputContext) (records : ρ)
      (hreach : Reachable h context) :
      Reachable h { context with bicc := bicc, records := records }
  | message {context : DataContext ρ} (hreach : Reachable h context) :
      Reachable h (exec (processDataMessage h) context).2

theorem DataContext.Reachable.result {h : RecordHandlers ρ R} {context : DataContext ρ}
    (hreach : context.Reachable h) : context.codec.result = none := by
  induction hreach with
  | start => rfl
  | between _ _ _ ih => exact ih
  | message _ ih => exact processDataMessage_keeps_result h _ ih

/-- Record `k` of a data message is passed on with the symbol of the last encoding at or before
it that is not void, and a void encoding in front of all others is an error. -/
theorem symbolAttribution (h : RecordHandlers ρ R) (I : ρ → Prop) (context : DataContext ρ)
    (records : List DataRecord) (pre post : List Int8) (limit : ℕ)
    (hreach : context.Reachable h) (hI : I context.records)
    (hmessage : IsDataMessage h I (UInt32.ofNat EventFlag.txPending) records)
    (hbicc : context.bicc = inputAt pre (messageBytes records ++ post) limit)
    (hlimit : pre.length + (messageBytes records).length ≤ limit)
    (hlen : (pre ++ (messageBytes records ++ post)).length ≤ INT_MAX) :
    ∃ passed,
      (exec (processDataMessage h) context).2.passedOn = context.passedOn ++ passed ∧
      (∀ k < records.length, ∀ params, passed[k]? = some params →
        params.symbolName =
          ((records.take (k + 1)).filterMap fun d => encodedSymbol d.encoding).getLast?) ∧
      (∀ d ∈ records.head?, d.encoding = .void → passed = [] ∧
        (exec (processDataMessage h) context).1 = .error (some .invalidSymbol)) ∧
      ((∀ params record s, Returns (h.transcodeRecordData params record) s) →
        (∀ d ∈ records.head?, d.encoding ≠ .void) → records.length ≤ passed.length) := by
  have hfresh : context.startMessage.InFront I none (UInt32.ofNat EventFlag.txPending) pre
      (messageBytes records ++ post) limit :=
    ⟨⟨rfl, fun _ => rfl, hreach.result⟩, hI, hbicc, rfl⟩
  have hexec : exec (processDataMessage h) context =
      exec (processRecords h (context.bicc.inBufferLimit - context.bicc.currentInBufferPosition))
        context.startMessage := rfl
  rw [hexec]
  have hrounds : records.length ≤
      context.bicc.inBufferLimit - context.bicc.currentInBufferPosition := by
    have hcount := hmessage.length_le
    rw [hbicc]
    simp only [inputAt]
    omega
  obtain ⟨passed, hpassed, hmatch, hall⟩ := passedOn_symbols hmessage hfresh hlimit hlen _
  refine ⟨passed, hpassed, ?_, ?_, ?_⟩
  · intro k hk params hparams
    rw [hmatch k hk params hparams, lastSymbolOf_eq]
  · intro d hd hvoid
    cases hmessage with
    | nil => cases hd
    | @cons _ d' records hflags hsymbol hunits hrecord hrest =>
        obtain rfl := Option.some.inj hd
        obtain ⟨rounds, hsucc⟩ := Nat.exists_eq_add_of_le' (Nat.one_le_of_lt hrounds)
        rw [hsucc] at hpassed ⊢
        obtain ⟨context', hrun, hpassedOn⟩ := exec_processRecords_void hfresh hlimit hflags hsymbol
          hvoid hlen rounds
        rw [hrun] at hpassed ⊢
        rw [hpassedOn] at hpassed
        exact ⟨List.append_right_eq_self.mp hpassed.symm, rfl⟩
  · intro hreturns hfirst
    refine hall hreturns (fun d hd => ?_) hrounds
    have hne := hfirst d hd
    cases hencoding : d.encoding with
    | penta value => exact Option.some_ne_none _
    | string symbol => exact Option.some_ne_none _
    | void => exact absurd hencoding hne

/-! ### A message -/

/-- Records of one byte. -/
def oneByteRecords : RecordHandlers Unit Int8 where
  readRecord _ := zoom Prod.fst (fun reader bicc => (bicc, reader.2)) (ExceptT.adapt some readByte)
  transcodeRecordData _ _ := pure ()

theorem readsRecord_oneByteRecords (flags : UInt32) (b : Int8) :
    ReadsRecord oneByteRecords (fun _ => True) flags [b] := by
  intro pre post limit s _ hlen
  refine ⟨b, s, ?_, fun _ => trivial⟩
  have hread := exec_adapt_ok some (reads_readByte b pre post limit hlen)
  simp only [oneByteRecords, exec_zoom, hread]

/-- `IBM`, and void with the most recent event flags. -/
def ibmRecords : List DataRecord :=
  [⟨.penta 0x244D, 0, 1, [], [0x24, 0x4D], [7]⟩, ⟨.void, 1, 1, [-8], [-1], [7]⟩]

theorem isDataMessage_ibmRecords :
    IsDataMessage oneByteRecords (fun _ => True) 1 ibmRecords := by
  have hpenta : SymbolBytes (.penta 0x244D) [0x24, 0x4D] :=
    SymbolBytes.penta (PentaBytes.bits15 0x24 0x4D (by decide))
  refine IsDataMessage.cons FlagBytes.none hpenta nofun (readsRecord_oneByteRecords 0 7) ?_
  exact IsDataMessage.cons FlagBytes.recent SymbolBytes.void nofun
    (readsRecord_oneByteRecords 1 7) (IsDataMessage.nil 1)

/-- The second record of the message has the symbol of the first one. -/
theorem symbolAttribution_ibmRecords :
    (exec (processDataMessage oneByteRecords)
      ⟨inputAt [] (messageBytes ibmRecords ++ []) 6, ⟨[], none, 0, 0⟩, 0, none, (),
        []⟩).2.passedOn[1]?.map SymbolParams.symbolName = some (some (pentaToString 0x244D)) := by
  obtain ⟨passed, hpassed, hsymbols, -, hall⟩ := symbolAttribution oneByteRecords (fun _ => True)
    ⟨inputAt [] (messageBytes ibmRecords ++ []) 6, ⟨[], none, 0, 0⟩, 0, none, (), []⟩ ibmRecords []
    [] 6 (DataContext.Reachable.start _ _) trivial isDataMessage_ibmRecords rfl (by decide)
    (by decide)
  have hlength : 2 ≤ passed.length := by
    refine hall (fun _ _ _ => ⟨(), rfl⟩) fun d hd => ?_
    obtain rfl := Option.some.inj hd
    exact nofun
  have hsecond : passed[1]? = some passed[1] := List.getElem?_eq_getElem hlength
  rw [hpassed, List.nil_append, hsecond, Option.map_some]
  exact congrArg some (hsymbols 1 (by decide) _ hsecond)

end DxFeed.ServerMessageProcessor
