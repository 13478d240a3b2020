import DxFeed.ClientMessageProcessor.Sending
import DxFeed.DataStructures.RecordRegistry
import DxFeed.EventSubscription.SubscriptionTasks
import DxFeed.ServerMessageProcessor.DataMessage
import DxFeed.ServerMessageProcessor.Heartbeat
import DxFeed.SubscriptionTime
import DxFeed.SymbolCodec.Encodings

/-!
# Subscription messages on the wire

A task of the queue thread sends one buffer for each of its symbols, with a message for each record.

* `subscribeSymbolToRecord`, `subscribeSymbolsToEvents`: the messages of a task, and how they go to the
  socket;
* `Request`, `readRequest`: what such a message says to a reader that uses the functions of
  `BufferedInput.c` and `SymbolCodec.c`;
* `transports_symbol`: every symbol is read as itself, with a cipher or without;
* `subscriptionReadBack`: the bytes of a task are read as the messages of the task.
-/

namespace DxFeed.ClientMessageProcessor

open Call BufferedIO FixedWidth PrefixCode ServerMessageProcessor SymbolCodec DataStructures
open EventSubscription SubscriptionTime

/-! ### Sending -/

/-- `MESSAGE_HISTORY_ADD_SUBSCRIPTION`. -/
def messageHistoryAddSubscription : MessageType := 21

/-- `dx_to_subscription_message_type`. -/
def toSubscriptionMessageType (subscribe : Bool) : SubscriptionType → MessageType
  | .ticker => if subscribe then 11 else 12
  | .stream => if subscribe then 16 else 17
  | .history => if subscribe then messageHistoryAddSubscription else 22

/-- `dx_compose_body`. -/
def composeBody (recordId : RecordId) (cipher : Int32) (symbol : Option WString) :
    WriteCall Unit :=
  if cipher = 0 ∧ symbol = none then throw .invalidFuncParamInternal
  else do
    codecWriteSymbol cipher symbol
    writeCompactInt recordId

/-- `dx_create_subscription_time` for the record with an id. -/
def subscriptionTimeOf (dscc : Registry) (recordId : RecordId) (time : Int64) :
    Except ErrorCode Int64 :=
  createSubscriptionTime ((atRecordId dscc.recordsList.elements recordId).map (·.infoId)) time

/-- The time of a message. -/
def writeSubscriptionTime (dscc : Registry) (messageType : MessageType) (recordId : RecordId)
    (time : Int64) : WriteCall Unit :=
  if messageType = messageHistoryAddSubscription then
    match subscriptionTimeOf dscc recordId time with
    | .error e => throw e
    | .ok subscriptionTime => writeCompactLong subscriptionTime
  else pure ()

/-- `dx_subscribe_symbol_to_record`, in a buffer of 100 bytes. -/
def subscribeSymbolToRecord (dscc : Registry) (messageType : MessageType) (symbol : WString)
    (cipher : Int32) (recordId : RecordId) (time : Int64) : Option (List Int8) :=
  if !isSubscriptionMessage messageType then none
  else
    composedBytes (List.replicate 100 0) messageType do
      composeBody recordId cipher (some symbol)
      writeSubscriptionTime dscc messageType recordId time

/-- `dx_event_subscription_param_t`. -/
structure RecordParam where
  recordId : RecordId
  subscriptionType : SubscriptionType

/-- The buffer of a symbol: its messages for the records of the events, one behind the other. -/
def symbolBuffer (dscc : Registry) (subscribe : Bool) (symbol : WString) (time : Int64) :
    List RecordParam → Option (List Int8)
  | [] => some []
  | param :: params => do
      let paramBuffer ← subscribeSymbolToRecord dscc
        (toSubscriptionMessageType subscribe param.subscriptionType) symbol
        (encodeSymbolName (some symbol)) param.recordId time
      return paramBuffer ++ (← symbolBuffer dscc subscribe symbol time params)

/-- The loop of `dx_subscribe_symbols_to_events` in the queue thread: the bytes that the socket takes,
where `sockets` says how it takes the buffer of a symbol, and the result. -/
def subscribeSymbolsToEvents (dscc : Registry) (subscribe : Bool) (params : List RecordParam)
    (time : Int64) (sockets : WString → List Socket) : List WString → List Int8 × Bool
  | [] => ([], true)
  | symbol :: symbols =>
      if symbol = [] then subscribeSymbolsToEvents dscc subscribe params time sockets symbols
      else
        match symbolBuffer dscc subscribe symbol time params with
        | none => ([], false)
        | some [] => subscribeSymbolsToEvents dscc subscribe params time sockets symbols
        | some buffer =>
            match sendData (sockets symbol) buffer with
            | (sent, false) => (sent, false)
            | (sent, true) =>
                let (rest, success) :=
                  subscribeSymbolsToEvents dscc subscribe params time sockets symbols
                (sent ++ rest, success)

/-! ### Reading -/

/-- What a message asks for; the time goes only with the additions to histories. -/
structure Request where
  messageType : MessageType
  symbol : Option WString
  recordId : RecordId
  time : Option Int64
  deriving DecidableEq

/-- The symbol behind `dx_codec_read_symbol`, as in `dx_read_symbol`. -/
def symbolOf (cipher : Int32) (outputs : CodecOutputs) : Option WString :=
  if cipher &&& codecValidCipher ≠ 0 then (decodeSymbolName cipher).join
  else if cipher > 0 then some (createStringSrcLen outputs.buffer cipher.toInt.toNat)
  else outputs.result

/-- The reader of a symbol. -/
def readSymbolName : CodecCall (Option WString) := do
  let cipher ← codecReadSymbol symbolBufferLen
  return symbolOf cipher (← get).outputs

/-- The time of a message of this type. -/
def readTime (messageType : MessageType) : CodecCall (Option Int64) :=
  if messageType = messageHistoryAddSubscription then do return some (← input readCompactLong)
  else return none

/-- What is behind the type of a message. -/
def readRequestBody (messageType : MessageType) : CodecCall Request := do
  let symbol ← readSymbolName
  let recordId ← input readCompactInt
  let time ← readTime messageType
  return ⟨messageType, symbol, recordId, time⟩

/-- The reader of a message, which starts as a round of `dx_process_server_data`. -/
def readRequest : CodecCall Request := do
  let messageType ← input readHeader
  readRequestBody messageType

/-- The reader of so many messages. -/
def readRequests : ℕ → CodecCall (List Request)
  | 0 => return []
  | n + 1 => do
      let request ← readRequest
      return request :: (← readRequests n)

/-! ### Symbols -/

theorem puts_writeUtfChar (c : UInt16) : Puts (writeUtfChar c.toNat) (utfBytes c.toNat) := by
  have hc : c.toNat < 2 ^ 16 := c.toNat_lt
  have hlen : (utfBytes c.toNat).length ≤ 4 := by
    rw [length_utfBytes_unit]
    split_ifs <;> norm_num
  unfold writeUtfChar
  by_cases hone : c.toNat ≤ 0x7F
  · simp only [hone, if_true]
    exact ((writes_utfBytes_one hone).reserved hlen (by omega) (by norm_num)).checked
  · by_cases htwo : c.toNat ≤ 0x7FF
    · simp only [hone, htwo, if_false, if_true]
      exact ((writes_utfBytes_two (by omega) htwo).reserved hlen (by omega) (by norm_num)).checked
    · have hthree : c.toNat ≤ 0xFFFF := by omega
      simp only [hone, htwo, hthree, if_false, if_true]
      exact ((writes_utfBytes_three (by omega) hthree).reserved hlen (by omega)
        (by norm_num)).checked

theorem puts_writeCharacters (symbol : WString) :
    Puts (writeCharacters symbol) (symbol.flatMap fun c => utfBytes c.toNat) := by
  induction symbol with
  | nil => exact puts_pure
  | cons c symbol ih => exact (puts_writeUtfChar c).bind ih

theorem length_characters (symbol : WString) :
    (symbol.flatMap fun c => utfBytes c.toNat).length ≤ 3 * symbol.length := by
  induction symbol with
  | nil => simp
  | cons c symbol ih =>
      have hunit : (utfBytes c.toNat).length ≤ 3 := by
        rw [length_utfBytes_unit]
        split_ifs <;> norm_num
      rw [List.flatMap_cons, List.length_append, List.length_cons]
      omega

/-- A string of the caller: it ends at its first zero, and its length is in range. -/
structure IsSymbol (symbol : WString) : Prop where
  ne_nil : symbol ≠ []
  ne_zero : ∀ c ∈ symbol, c ≠ 0
  short : symbol.length < 2 ^ 28

variable {symbol : WString} {outputs : CodecOutputs}

theorem IsSymbol.createStringSrcLen (h : IsSymbol symbol) :
    SymbolCodec.createStringSrcLen symbol symbol.length = symbol := by
  simpa [SymbolCodec.createStringSrcLen] using h.ne_zero

/-- A symbol with a cipher is read as its cipher. -/
theorem symbolOf_cipher (hcipher : encodeSymbolName (some symbol) ≠ 0) {penta : ℕ}
    (hpenta : decodeCipher (encodeSymbolName (some symbol)) = some penta) (outputs : CodecOutputs) :
    symbolOf ((SymbolEncoding.penta penta).outcome symbolBufferLen outputs).1
      ((SymbolEncoding.penta penta).outcome symbolBufferLen outputs).2 = some symbol := by
  have hcode : pentaCipher penta = encodeSymbolName (some symbol) := encodePenta_decodeCipher hpenta
  simp [SymbolEncoding.outcome, symbolOf, hcode, tag_of_decodeCipher hpenta,
    decode_encodeSymbolName hcipher]

/-- Another symbol is read as its characters, in the buffer or in a string of its own. -/
theorem symbolOf_string (h : IsSymbol symbol) (outputs : CodecOutputs) :
    symbolOf ((SymbolEncoding.string symbol).outcome symbolBufferLen outputs).1
      ((SymbolEncoding.string symbol).outcome symbolBufferLen outputs).2 = some symbol := by
  have hshort := h.short
  have hpos := List.length_pos_of_ne_nil h.ne_nil
  have hcreate := h.createStringSrcLen
  simp only [SymbolEncoding.outcome, if_neg h.ne_nil]
  by_cases hbuffer : symbol.length ≤ symbolBufferLen
  · have hvalue : (Int32.ofNat symbol.length).toInt = symbol.length :=
      Int32.toInt_ofNat_of_lt (by omega)
    have hgt : Int32.ofNat symbol.length > 0 := by
      have hzero : (0 : Int32).toInt = 0 := rfl
      rw [gt_iff_lt, Int32.lt_iff_toInt_lt, hvalue, hzero]
      exact_mod_cast hpos
    have htag := ofNat_and_codecValidCipher (n := symbol.length) (by omega)
    simp [symbolOf, hbuffer, htag, hgt, hvalue, hcreate]
  · simp [symbolOf, hbuffer, hcreate]

/-- What `dx_codec_write_symbol` writes for a symbol and its cipher is an encoding of the symbol. -/
theorem exists_symbolBytes (h : IsSymbol symbol) :
    ∃ encoding bs, Puts (codecWriteSymbol (encodeSymbolName (some symbol)) (some symbol)) bs ∧
      SymbolBytes encoding bs ∧ bs.length ≤ 6 + 3 * symbol.length ∧
      ∀ outputs, symbolOf (encoding.outcome symbolBufferLen outputs).1
        (encoding.outcome symbolBufferLen outputs).2 = some symbol := by
  have hshort := h.short
  by_cases hcipher : encodeSymbolName (some symbol) = 0
  · have hvalue : (Int32.ofNat symbol.length).toInt = symbol.length :=
      Int32.toInt_ofNat_of_lt (by omega)
    have hfits : symbol.length ≤ INT_MAX := by
      unfold INT_MAX
      omega
    obtain ⟨bs, hputs, hoctets⟩ := puts_writeCompactInt (Int32.ofNat symbol.length)
    rw [hvalue] at hoctets
    obtain ⟨length, hreads, hlength⟩ := reads_compact (Or.inr ⟨by omega, by omega⟩) hoctets
    have hcompact := length_compact hoctets (by omega) (by omega)
    refine ⟨.string symbol, _, ?_, SymbolBytes.string hreads hlength hfits
      (characterBytes_utfBytes symbol), ?_, symbolOf_string h⟩
    · simp only [codecWriteSymbol, hcipher, ne_eq, not_true_eq_false, if_false]
      exact (puts_writeByte _).bind (hputs.bind (puts_writeCharacters symbol))
    · have hcharacters := length_characters symbol
      simp only [List.length_cons, List.length_append]
      omega
  · have hdecode := decode_encodeSymbolName hcipher
    obtain ⟨penta, hpenta⟩ : ∃ penta,
        decodeCipher (encodeSymbolName (some symbol)) = some penta := by
      unfold decodeSymbolName at hdecode
      rw [if_neg hcipher] at hdecode
      cases hpenta : decodeCipher (encodeSymbolName (some symbol)) with
      | none => simp [hpenta] at hdecode
      | some penta => exact ⟨penta, rfl⟩
    obtain ⟨bs, hputs, hform, hlength⟩ := exists_pentaBytes hpenta (some symbol)
    exact ⟨.penta penta, bs, hputs, SymbolBytes.penta hform, by omega,
      symbolOf_cipher hcipher hpenta⟩

/-- The stream of a codec, with its outputs. -/
def codecAt (outputs : CodecOutputs) (bicc : InputContext) : CodecContext := ⟨bicc, outputs⟩

theorem readsOn_input {α : Type} (x : ReadCall α) (outputs : CodecOutputs) :
    ReadsOn (SymbolCodec.input x) (codecAt outputs) x := by
  refine ⟨id, fun bicc => ?_⟩
  cases hexec : exec x bicc with
  | mk result bicc' => cases result <;> simp [SymbolCodec.input, codecAt, hexec, Except.mapError]

/-- A symbol is read as itself. -/
theorem transports_symbol (h : IsSymbol symbol) (outputs : CodecOutputs) :
    ∃ outputs', Transports (codecWriteSymbol (encodeSymbolName (some symbol)) (some symbol))
      readSymbolName (codecAt outputs) (some symbol) (codecAt outputs') (6 + 3 * symbol.length) := by
  obtain ⟨encoding, bs, hputs, hbytes, hlength, hsymbol⟩ := exists_symbolBytes h
  let after := encoding.outcome symbolBufferLen
    { outputs with flags := 0, mruEventFlags := outputs.mruEventFlags }
  have hobtains : Obtains (codecReadSymbol symbolBufferLen) (codecAt outputs) bs after.1
      (codecAt after.2) :=
    decodes_codecReadSymbol FlagBytes.none hbytes (by norm_num [symbolBufferLen])
  refine ⟨after.2, bs, hputs, ?_, hlength⟩
  rw [← List.append_nil bs]
  refine hobtains.bind (obtains_get_bind fun bicc => ?_)
  have hname : symbolOf after.1 (codecAt after.2 bicc).outputs = some symbol := hsymbol _
  rw [hname]
  exact obtains_pure _

/-! ### Times -/

theorem msb_of_nonneg {value : Int64} (h : 0 ≤ value.toInt) : value.toBitVec.msb = false := by
  rw [BitVec.msb_eq_toInt]
  exact decide_eq_false (not_lt.mpr h)

theorem nonneg_of_msb {value : Int64} (h : value.toBitVec.msb = false) : 0 ≤ value.toInt := by
  rw [BitVec.msb_eq_toInt] at h
  exact not_lt.mp (of_decide_eq_false h)

/-- Neither part of a time sets the sign. -/
theorem subscriptionStep_nonneg {seconds millis : Int32} (hseconds : 0 ≤ seconds.toInt)
    (hmillis : 0 ≤ millis.toInt) (field : FieldInfo) (time : RecordBuffers.FieldTime)
    {s : SubscriptionState} (h : 0 ≤ s.subscriptionTime.toInt) :
    0 ≤ (subscriptionStep seconds millis field time s).subscriptionTime.toInt := by
  have hs := msb_of_nonneg h
  cases time with
  | common => exact h
  | secondTimeInt =>
      have hpart : 0 ≤ millis.toInt64.toInt := by rwa [Int32.toInt_toInt64]
      refine nonneg_of_msb ?_
      show (s.subscriptionTime.toBitVec ||| millis.toInt64.toBitVec).msb = false
      rw [BitVec.msb_or, hs, msb_of_nonneg hpart]
      rfl
  | firstTimeInt =>
      have hlast : seconds.toBitVec.getLsbD 31 = false := by
        have hmsb : seconds.toBitVec.msb = false := by
          rw [BitVec.msb_eq_toInt]
          exact decide_eq_false (not_lt.mpr hseconds)
        rwa [BitVec.msb_eq_getLsbD_last] at hmsb
      -- the sign of the seconds becomes the sign of the time
      have hshift : (seconds.toInt64.toBitVec <<< 32).msb = false := by
        rw [BitVec.msb_shiftLeft, BitVec.getMsbD_eq_getLsbD]
        show (decide (32 < 64) && (seconds.toBitVec.signExtend 64).getLsbD 31) = false
        rw [getLsbD_signExtend_nonneg hseconds, hlast]
        rfl
      refine nonneg_of_msb ?_
      show (s.subscriptionTime.toBitVec ||| seconds.toInt64.toBitVec <<< 32).msb = false
      rw [BitVec.msb_or, hs, hshift]
      rfl

theorem subscriptionLoop_nonneg {seconds millis : Int32} (hseconds : 0 ≤ seconds.toInt)
    (hmillis : 0 ≤ millis.toInt) (fields : List (FieldInfo × RecordBuffers.Member))
    {s : SubscriptionState} (h : 0 ≤ s.subscriptionTime.toInt) :
    0 ≤ (subscriptionLoop seconds millis fields s).subscriptionTime.toInt := by
  induction fields generalizing s with
  | nil => exact h
  | cons p fields ih =>
      obtain ⟨field, m⟩ := p
      have hstep := subscriptionStep_nonneg hseconds hmillis field m.time h
      simp only [subscriptionLoop]
      split_ifs
      · exact hstep
      · exact ih hstep

/-- A time that is not negative is sent as one. -/
theorem subscriptionTimeOf_nonneg {dscc : Registry} {recordId : RecordId} {time value : Int64}
    (htime : 0 ≤ time.toInt) (h : subscriptionTimeOf dscc recordId time = .ok value) :
    0 ≤ value.toInt := by
  have hseconds : 0 ≤ (secondsOf time).toInt := by
    rw [toInt_secondsOf]
    omega
  have hmillis : 0 ≤ (millisOf time).toInt := by
    rw [toInt_millisOf]
    omega
  unfold subscriptionTimeOf createSubscriptionTime at h
  dsimp only at h
  split_ifs at h
  · obtain rfl := Except.ok.inj h
    exact le_rfl
  · split at h
    · exact absurd h nofun
    · obtain rfl := Except.ok.inj h
      split_ifs
      · exact subscriptionLoop_nonneg hseconds hmillis _ le_rfl
      · exact htime

/-- The time of a message; `none` is a message without one. -/
def requestTime (dscc : Registry) (messageType : MessageType) (recordId : RecordId) (time : Int64) :
    Option Int64 :=
  if messageType = messageHistoryAddSubscription then
    (subscriptionTimeOf dscc recordId time).toOption
  else none

/-- A time that is not negative is read as what was written. -/
theorem transports_time {dscc : Registry} {messageType : MessageType} {recordId : RecordId}
    {time : Int64} (htime : 0 ≤ time.toInt)
    (hexec : ∃ out out', exec (writeSubscriptionTime dscc messageType recordId time) out =
      (.ok (), out')) (outputs : CodecOutputs) :
    Transports (writeSubscriptionTime dscc messageType recordId time) (readTime messageType)
      (codecAt outputs) (requestTime dscc messageType recordId time) (codecAt outputs) 9 := by
  obtain ⟨out, out', hexec⟩ := hexec
  unfold writeSubscriptionTime readTime requestTime at *
  by_cases htype : messageType = messageHistoryAddSubscription
  · simp only [if_pos htype] at hexec ⊢
    cases hvalue : subscriptionTimeOf dscc recordId time with
    | error e =>
        rw [hvalue] at hexec
        exact absurd (Prod.mk.inj hexec).1 nofun
    | ok value =>
        obtain ⟨bs, hputs, hreads, hlength⟩ :=
          HeartbeatPayload.carries_long (subscriptionTimeOf_nonneg htime hvalue)
        have hvalueRead : Transports (writeCompactLong value) (input readCompactLong)
            (codecAt outputs) value (codecAt outputs) 9 :=
          ⟨bs, hputs, (readsOn_input _ outputs).obtains hreads, hlength⟩
        exact hvalueRead.andThen (obtains_pure _)
  · simp only [if_neg htype]
    exact (transports_pure none).mono (by norm_num)

/-! ### Messages -/

/-- The bytes of a message are read as the request, whatever the codec has read before. -/
def IsRequest (request : Request) (bytes : List Int8) : Prop :=
  ∀ outputs, ∃ outputs', Receives readRequest (codecAt outputs) bytes request (codecAt outputs')

theorem exec_of_composedBytes {room bytes : List Int8} {messageType : MessageType}
    {body : WriteCall Unit} (h : composedBytes room messageType body = some bytes) :
    ∃ out out', exec body out = (.ok (), out') := by
  unfold composedBytes at h
  rcases hexec : exec (composeMessage messageType body) (outputAt [] room) with ⟨_ | ⟨⟨⟩⟩, out⟩
  · simp [hexec] at h
  · obtain ⟨⟨⟩, headed, -, hrest⟩ := exec_bind_eq_ok hexec
    obtain ⟨⟨⟩, written, hbody, -⟩ := exec_bind_eq_ok hrest
    exact ⟨headed, written, hbody⟩

theorem isMessageTypeValid_of_isSubscriptionMessage {messageType : MessageType}
    (h : isSubscriptionMessage messageType = true) : isMessageTypeValid messageType = true := by
  unfold isSubscriptionMessage isMessageTypeValid at *
  simp only [List.contains_eq_mem, List.mem_cons, List.not_mem_nil, decide_eq_true_eq] at *
  tauto

/-- A message about a symbol and a record is read as what it asks for. -/
theorem isRequest_of_subscribeSymbolToRecord {dscc : Registry} {messageType : MessageType}
    {recordId : RecordId} {time : Int64} {bytes : List Int8} (hsymbol : IsSymbol symbol)
    (htime : 0 ≤ time.toInt)
    (h : subscribeSymbolToRecord dscc messageType symbol (encodeSymbolName (some symbol)) recordId
      time = some bytes) :
    IsRequest ⟨messageType, some symbol, recordId, requestTime dscc messageType recordId time⟩
      bytes := by
  intro outputs
  have hshort := hsymbol.short
  unfold subscribeSymbolToRecord at h
  split_ifs at h with htype
  have hvalid : isMessageTypeValid messageType = true :=
    isMessageTypeValid_of_isSubscriptionMessage (by simpa using htype)
  have hbody : composeBody recordId (encodeSymbolName (some symbol)) (some symbol) = (do
      codecWriteSymbol (encodeSymbolName (some symbol)) (some symbol)
      writeCompactInt recordId) := by
    rw [composeBody, if_neg (fun hnone => absurd hnone.2 nofun)]
  rw [hbody, bind_assoc] at h
  -- the time is reached
  obtain ⟨out, out', hexec⟩ := exec_of_composedBytes h
  obtain ⟨⟨⟩, named, -, hexec⟩ := exec_bind_eq_ok hexec
  obtain ⟨⟨⟩, numbered, -, hexec⟩ := exec_bind_eq_ok hexec
  -- the parts of the body
  obtain ⟨outputs', hname⟩ := transports_symbol hsymbol outputs
  have hnumber := transports_int (readsOn_input readCompactInt outputs') recordId
  have hlast := transports_time htime ⟨_, _, hexec⟩ outputs'
  have hrest : Transports
      (do writeCompactInt recordId; writeSubscriptionTime dscc messageType recordId time)
      (do
        let recordId ← input readCompactInt
        let time ← readTime messageType
        return (⟨messageType, some symbol, recordId, time⟩ : Request))
      (codecAt outputs') ⟨messageType, some symbol, recordId, _⟩ (codecAt outputs') (5 + 9) :=
    hnumber.bind (hlast.andThen (obtains_pure _))
  obtain ⟨bs, hputs, hobtains, hlength⟩ : Transports _ (readRequestBody messageType) _ _ _ _ :=
    hname.bind hrest
  have hparses := parsesBack_of_composedBytes hvalid (by simp [INT_MAX]) hputs (by omega) h
  exact ⟨outputs', hparses.receives (readsOn_input _ outputs) hobtains.all⟩

/-- Messages one behind the other. -/
theorem receives_readRequests {requests : List Request} {words : List (List Int8)}
    (h : List.Forall₂ IsRequest requests words) (outputs : CodecOutputs) :
    ∃ outputs', Receives (readRequests requests.length) (codecAt outputs) words.flatten requests
      (codecAt outputs') := by
  induction h generalizing outputs with
  | nil => exact ⟨outputs, (obtains_pure _).receives⟩
  | @cons request bytes requests words hfirst _ ih =>
      obtain ⟨outputs', hrequest⟩ := hfirst outputs
      obtain ⟨outputs'', hrest⟩ := ih outputs'
      refine ⟨outputs'', ?_⟩
      have hpure : Receives (pure (request :: requests) : CodecCall (List Request))
          (codecAt outputs'') [] (request :: requests) (codecAt outputs'') :=
        (obtains_pure _).receives
      have hlater : Receives (do return request :: (← readRequests requests.length))
          (codecAt outputs') (words.flatten ++ []) (request :: requests) (codecAt outputs'') :=
        hrest.bind hpure
      rw [List.append_nil] at hlater
      exact hrequest.bind hlater

/-! ### Tasks -/

section Tasks

variable {dscc : Registry} {subscribe success : Bool} {params : List RecordParam} {time : Int64}

/-- What the message about a symbol and a record asks for. -/
def requestOf (dscc : Registry) (subscribe : Bool) (symbol : WString) (time : Int64)
    (param : RecordParam) : Request :=
  let messageType := toSubscriptionMessageType subscribe param.subscriptionType
  ⟨messageType, some symbol, param.recordId, requestTime dscc messageType param.recordId time⟩

/-- The buffer of a symbol is made of its messages. -/
theorem exists_words_symbolBuffer (hsymbol : IsSymbol symbol) (htime : 0 ≤ time.toInt)
    {buffer : List Int8} (h : symbolBuffer dscc subscribe symbol time params = some buffer) :
    ∃ words, List.Forall₂ IsRequest (params.map (requestOf dscc subscribe symbol time)) words ∧
      words.flatten = buffer := by
  induction params generalizing buffer with
  | nil => exact ⟨[], .nil, Option.some.inj h⟩
  | cons param params ih =>
      simp only [symbolBuffer, Option.bind_eq_bind, Option.bind_eq_some_iff, Option.pure_def,
        Option.some.injEq] at h
      obtain ⟨paramBuffer, hparam, rest, hrest, rfl⟩ := h
      obtain ⟨words, hwords, rfl⟩ := ih hrest
      exact ⟨paramBuffer :: words,
        .cons (isRequest_of_subscribeSymbolToRecord hsymbol htime hparam) hwords, rfl⟩

/-- The bytes `sent` with the result `success` are a prefix of messages for a prefix of the symbols,
and the messages for all of them if the result is a success. -/
def SendsPrefix (dscc : Registry) (subscribe : Bool) (params : List RecordParam) (time : Int64)
    (symbols : List WString) (sent : List Int8) (success : Bool) : Prop :=
  ∃ front words,
    front <+: symbols ∧
    List.Forall₂ IsRequest
      (front.flatMap fun symbol => params.map (requestOf dscc subscribe symbol time)) words ∧
    sent <+: words.flatten ∧
    (success = true → front = symbols ∧ sent = words.flatten)

theorem sendsPrefix_nil (symbols : List WString) (hdone : success = true → symbols = []) :
    SendsPrefix dscc subscribe params time symbols [] success :=
  ⟨[], [], List.nil_prefix, .nil, List.prefix_rfl, fun h => ⟨(hdone h).symm, rfl⟩⟩

/-- A symbol whose buffer does not go through. -/
theorem sendsPrefix_single {words : List (List Int8)} {sent : List Int8} {symbols : List WString}
    (hwords : List.Forall₂ IsRequest (params.map (requestOf dscc subscribe symbol time)) words)
    (hsent : sent <+: words.flatten) :
    SendsPrefix dscc subscribe params time (symbol :: symbols) sent false :=
  ⟨[symbol], words, by simp, by simpa using hwords, hsent, fun h => absurd h nofun⟩

/-- A symbol whose buffer goes through. -/
theorem SendsPrefix.cons {words : List (List Int8)} {sent : List Int8} {symbols : List WString}
    (h : SendsPrefix dscc subscribe params time symbols sent success)
    (hwords : List.Forall₂ IsRequest (params.map (requestOf dscc subscribe symbol time)) words) :
    SendsPrefix dscc subscribe params time (symbol :: symbols) (words.flatten ++ sent) success := by
  obtain ⟨front, later, hfront, hlater, hpart, hall⟩ := h
  refine ⟨symbol :: front, words ++ later, List.prefix_cons_inj symbol |>.mpr hfront, ?_, ?_, ?_⟩
  · rw [List.flatMap_cons]
    exact List.rel_append hwords hlater
  · rw [List.flatten_append]
    exact (List.prefix_append_right_inj _).mpr hpart
  · intro hsuccess
    obtain ⟨rfl, rfl⟩ := hall hsuccess
    exact ⟨rfl, List.flatten_append.symm⟩

/-- The socket takes a prefix of the messages of some of the symbols, and all of them if the task
succeeds. -/
theorem sendsPrefix_subscribeSymbolsToEvents (htime : 0 ≤ time.toInt)
    (sockets : WString → List Socket) {symbols : List WString}
    (hsymbols : ∀ symbol ∈ symbols.filter (· ≠ []), IsSymbol symbol) :
    SendsPrefix dscc subscribe params time (symbols.filter (· ≠ []))
      (subscribeSymbolsToEvents dscc subscribe params time sockets symbols).1
      (subscribeSymbolsToEvents dscc subscribe params time sockets symbols).2 := by
  induction symbols with
  | nil => exact sendsPrefix_nil [] fun _ => rfl
  | cons symbol symbols ih =>
      rw [subscribeSymbolsToEvents]
      by_cases hempty : symbol = []
      · rw [List.filter_cons_of_neg (by simpa using hempty)] at hsymbols ⊢
        rw [if_pos hempty]
        exact ih hsymbols
      · rw [List.filter_cons_of_pos (by simpa using hempty)] at hsymbols ⊢
        have hsymbol := hsymbols symbol List.mem_cons_self
        have ih := ih fun symbol' h => hsymbols symbol' (List.mem_cons_of_mem _ h)
        rw [if_neg hempty]
        cases hbuffer : symbolBuffer dscc subscribe symbol time params with
        | none => exact sendsPrefix_nil _ nofun
        | some buffer =>
            obtain ⟨words, hwords, hflat⟩ := exists_words_symbolBuffer hsymbol htime hbuffer
            obtain ⟨hpart, hwhole⟩ := sendData_spec (sockets symbol) buffer
            cases buffer with
            | nil =>
                have hcons := ih.cons hwords
                rw [hflat, List.nil_append] at hcons
                exact hcons
            | cons b bs =>
                dsimp only
                cases hsend : sendData (sockets symbol) (b :: bs) with
                | mk sent success =>
                    rw [hsend] at hpart hwhole
                    rw [← hflat] at hpart hwhole
                    cases success with
                    | false => exact sendsPrefix_single hwords hpart
                    | true =>
                        obtain rfl : sent = words.flatten := hwhole rfl
                        exact ih.cons hwords

end Tasks

/-- The message of a task, with the ids of the records. -/
def requestOfMessage (dscc : Registry) (ids : WString → RecordId) (m : Message) : Request :=
  let messageType := toSubscriptionMessageType (m.kind ≠ .remove) m.subscriptionType
  ⟨messageType, some m.symbol, ids m.recordName,
    m.time.bind fun time =>
      (subscriptionTimeOf dscc (ids m.recordName) (Int64.ofInt time)).toOption⟩

/-- What `dx_subscribe_symbols_to_events_task` hands to the socket. -/
def sendTask (dscc : Registry) (ids : WString → RecordId) (sockets : WString → List Socket)
    (task : TaskData) : List Int8 × Bool :=
  subscribeSymbolsToEvents dscc (task.kind ≠ .remove)
    ((subscriptionParams task.orderSource task.eventTypes task.subscrFlags).map fun param =>
      ⟨ids param.recordName, param.subscriptionType⟩)
    (Int64.ofInt task.time) sockets task.symbols

theorem requestOfMessage_subscribeSymbolToRecord (dscc : Registry) (ids : WString → RecordId)
    (kind : MessageKind) (symbol : WString) (time : ℤ) (param : EventSubscriptionParam) :
    requestOfMessage dscc ids (EventSubscription.subscribeSymbolToRecord kind symbol time param) =
      requestOf dscc (kind ≠ .remove) symbol (Int64.ofInt time)
        ⟨ids param.recordName, param.subscriptionType⟩ := by
  obtain ⟨recordName, subscriptionType⟩ := param
  cases kind with
  | remove => cases subscriptionType <;> rfl
  | add => cases subscriptionType <;> rfl
  | refresh => cases subscriptionType <;> rfl

/-- The messages of a task, symbol by symbol. -/
theorem map_requestOfMessage_messages (dscc : Registry) (ids : WString → RecordId)
    (task : TaskData) :
    task.messages.map (requestOfMessage dscc ids) =
      (task.symbols.filter (· ≠ [])).flatMap fun symbol =>
        ((subscriptionParams task.orderSource task.eventTypes task.subscrFlags).map fun param =>
          ⟨ids param.recordName, param.subscriptionType⟩).map
            (requestOf dscc (task.kind ≠ .remove) symbol (Int64.ofInt task.time)) := by
  rw [TaskData.messages, EventSubscription.subscribeSymbolsToEvents, List.map_flatMap]
  congr 1
  funext symbol
  rw [List.map_map, List.map_map]
  congr 1
  funext param
  exact requestOfMessage_subscribeSymbolToRecord dscc ids task.kind symbol task.time param

/-- The bytes that the socket takes from a task are a prefix of bytes that are read as the first
messages of the task, and the bytes of all its messages if the task succeeds. -/
theorem subscriptionReadBack (dscc : Registry) (ids : WString → RecordId)
    (sockets : WString → List Socket) (task : TaskData)
    (hsymbols : ∀ symbol ∈ task.symbols, symbol ≠ [] → IsSymbol symbol)
    (htime : 0 ≤ task.time ∧ task.time < 2 ^ 63) :
    ∃ requests bytes,
      requests <+: task.messages.map (requestOfMessage dscc ids) ∧
      (sendTask dscc ids sockets task).1 <+: bytes ∧
      (∀ outputs, ∃ outputs', Receives (readRequests requests.length) (codecAt outputs) bytes
        requests (codecAt outputs')) ∧
      ((sendTask dscc ids sockets task).2 = true →
        requests = task.messages.map (requestOfMessage dscc ids) ∧
        (sendTask dscc ids sockets task).1 = bytes) := by
  have hnonneg : 0 ≤ (Int64.ofInt task.time).toInt := by
    rw [Int64.toInt_ofInt_of_le (by omega) htime.2]
    exact htime.1
  have hfilter : ∀ symbol ∈ task.symbols.filter (· ≠ []), IsSymbol symbol := by
    intro symbol hsymbol
    obtain ⟨hmem, hne⟩ := List.mem_filter.mp hsymbol
    exact hsymbols symbol hmem (by simpa using hne)
  rw [map_requestOfMessage_messages]
  have hsends := @sendsPrefix_subscribeSymbolsToEvents dscc
  obtain ⟨front, words, ⟨back, hsplit⟩, hwords, hpart, hall⟩ := hsends hnonneg sockets hfilter
  refine ⟨_, words.flatten, ?_, hpart, receives_readRequests hwords, ?_⟩
  · rw [← hsplit, List.flatMap_append]
    exact List.prefix_append _ _
  · intro hsuccess
    obtain ⟨rfl, hsent⟩ := hall hsuccess
    exact ⟨rfl, hsent⟩

/-- The records of configurations and of greeks, the second one with times. -/
def greeksRegistry : Registry :=
  let record (name : String) (fields : List FieldInfo) (infoId : RecordInfoId) : RecordInfoItem :=
    { name := wideString name, fields, infoId, suffix := List.replicate suffixSize 0,
      exchangeCode := 0 }
  ⟨⟨[record "Configuration" dxFieldsConfiguration .configuration,
    record "Greeks" dxFieldsGreeks .greeks], 2, 2⟩, 0, ⟨[0, 0], 2, 2⟩, ⟨[.init, .init], 2, 2⟩⟩

/-- The ids of these records. -/
def greeksIds (recordName : WString) : RecordId := if recordName = wideString "Greeks" then 1 else 0

/-- The socket takes the bytes of a symbol in two rounds. -/
def twoRounds (_ : WString) : List Socket := [fun _ => some 7, fun buffer => some buffer.length]

/-- A symbol that is too long for a cipher and one with a cipher, with configurations and a history
of greeks. -/
def greeksTask : TaskData where
  kind := .add
  orderSource := []
  symbols := [List.replicate 20 0x41, [0x49, 0x42, 0x4D]]
  eventTypes := EventId.greeks.bitMask ||| EventId.configuration.bitMask
  subscrFlags := SubscrFlag.timeSeries
  time := 1600000001500

theorem sendTask_greeks : (sendTask greeksRegistry greeksIds twoRounds greeksTask).2 = true := by
  decide +kernel

theorem isSymbol_of_greeksTask {symbol : WString} (h : symbol ∈ greeksTask.symbols) :
    IsSymbol symbol := by
  simp only [greeksTask, List.mem_cons, List.not_mem_nil, or_false] at h
  rcases h with rfl | rfl
  · refine ⟨List.cons_ne_nil _ _, ?_, by rw [List.length_replicate]; norm_num⟩
    intro c hc
    rw [List.eq_of_mem_replicate hc]
    decide
  · exact ⟨List.cons_ne_nil _ _, by simp, by norm_num⟩

theorem subscriptionReadBack_greeks :
    (sendTask greeksRegistry greeksIds twoRounds greeksTask).2 = true ∧
      ∀ outputs, ∃ outputs', Receives (readRequests 4) (codecAt outputs)
        (sendTask greeksRegistry greeksIds twoRounds greeksTask).1
        (greeksTask.messages.map (requestOfMessage greeksRegistry greeksIds))
        (codecAt outputs') := by
  obtain ⟨requests, bytes, -, -, hreads, hall⟩ := subscriptionReadBack greeksRegistry greeksIds
    twoRounds greeksTask (fun symbol h _ => isSymbol_of_greeksTask h) (by decide)
  obtain ⟨rfl, rfl⟩ := hall sendTask_greeks
  exact ⟨sendTask_greeks, hreads⟩

end DxFeed.ClientMessageProcessor
