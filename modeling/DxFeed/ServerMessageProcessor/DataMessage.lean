import DxFeed.SymbolCodec.Encodings

/-!
# Data messages

`dx_process_data_message`: a data message is a sequence of records, each behind an encoding of its
symbol.  What is done with a record behind the symbol is a parameter.

* `readSymbol`: `dx_read_symbol`;
* `processDataMessage`: the loop of `dx_process_data_message`.
-/

namespace DxFeed.ServerMessageProcessor

open Call BufferedIO SymbolCodec

/-! ### Contexts -/

/-- `dx_record_params_t`, without what the record itself says. -/
structure SymbolParams where
  symbolName : Option WString
  symbolCipher : Int32
  flags : UInt32
  deriving DecidableEq, Repr

/-- What a data message does with a record behind its symbol, on the states `ρ`: it is read, with
event flags, and the buffers of the reader are then passed on. -/
structure RecordHandlers (ρ R : Type) where
  readRecord : UInt32 → Call (Option ErrorCode) (InputContext × ρ) R
  transcodeRecordData : SymbolParams → R → Call (Option ErrorCode) ρ Unit

/-- The parts of the context of the message processor that a data message works on, with the
parameters of the records that it has passed on.  The codec has `symbol_buffer`, `symbol_result`,
`last_flags` and `mru_event_flags`. -/
structure DataContext (ρ : Type) where
  bicc : InputContext
  codec : CodecOutputs
  lastCipher : Int32
  lastSymbol : Option WString
  records : ρ
  passedOn : List SymbolParams

/-- A call that fails with `none` fails without setting an error code. -/
abbrev DataCall (ρ : Type) := Call (Option ErrorCode) (DataContext ρ)

variable {ρ R : Type}

/-- A call of the symbol codec. -/
def codecCall {α : Type} (x : CodecCall α) : DataCall ρ α :=
  zoom (fun context => (⟨context.bicc, context.codec⟩ : CodecContext))
    (fun context codec => { context with bicc := codec.bicc, codec := codec.outputs })
    (ExceptT.adapt some x)

/-- A call of the record reader. -/
def recordCall {α : Type} (x : Call (Option ErrorCode) (InputContext × ρ) α) : DataCall ρ α :=
  zoom (fun context => (context.bicc, context.records))
    (fun context reader => { context with bicc := reader.1, records := reader.2 }) x

/-! ### Symbols -/

/-- `SYMBOL_BUFFER_LEN`. -/
def symbolBufferLen : ℕ := 2048

/-- A string that the codec has allocated becomes the last symbol. -/
def DataContext.takeResult (context : DataContext ρ) : DataContext ρ :=
  match context.codec.result with
  | none => context
  | some symbol =>
      { context with
        lastSymbol := some symbol
        codec := { context.codec with result := none }
        lastCipher := encodeSymbolName (some symbol) }

/-- The branches of `dx_read_symbol` on the cipher that was read. -/
def storeSymbol (r : Int32) : DataCall ρ Unit := do
  if r &&& codecValidCipher ≠ 0 then
    modify fun context => { context with lastCipher := r, lastSymbol := none }
  else if r > 0 then
    modify fun context =>
      { context with
        lastCipher := 0
        lastSymbol := some (createStringSrcLen context.codec.buffer r.toInt.toNat) }
  else
    modify DataContext.takeResult
    let context ← get
    if context.lastCipher = 0 ∧ context.lastSymbol = none then throw (some .invalidSymbol)

/-- `dx_read_symbol`. -/
def readSymbol : DataCall ρ Unit := do
  let r ← codecCall (codecReadSymbol symbolBufferLen)
  storeSymbol r

/-- The symbol of a cipher is decoded when a record needs it. -/
def decodeLastSymbol : DataCall ρ Unit := do
  let context ← get
  if context.lastSymbol = none then
    match decodeSymbolName context.lastCipher with
    | none => throw (some .invalidFuncParamInternal)
    | some symbol => modify fun context => { context with lastSymbol := symbol }

/-! ### Messages -/

variable (h : RecordHandlers ρ R)

/-- A round of the loop of `dx_process_data_message`, behind the symbol. -/
def passRecordOn : DataCall ρ Unit := do
  let record ← recordCall (h.readRecord (← get).codec.flags)
  let context ← get
  let params : SymbolParams := ⟨context.lastSymbol, context.lastCipher, context.codec.flags⟩
  set { context with passedOn := context.passedOn ++ [params] }
  zoom (fun context => context.records) (fun context records => { context with records := records })
    (h.transcodeRecordData params record)

/-- A round of the loop of `dx_process_data_message`. -/
def processRecord : DataCall ρ Unit := do
  readSymbol
  decodeLastSymbol
  passRecordOn h

/-- The loop of `dx_process_data_message`, for at most the given number of rounds. -/
def processRecords : ℕ → DataCall ρ Unit
  | 0 => pure ()
  | rounds + 1 => do
      let context ← get
      if context.bicc.currentInBufferPosition < context.bicc.inBufferLimit then
        processRecord h
        processRecords rounds

/-- A message starts without a symbol. -/
def DataContext.startMessage (context : DataContext ρ) : DataContext ρ :=
  { context with
    lastCipher := 0
    lastSymbol := none
    codec := { context.codec with
      flags := 0, mruEventFlags := UInt32.ofNat EventFlag.txPending } }

/-- `dx_process_data_message`.  Every record takes a byte or more, so the rounds are enough. -/
def processDataMessage : DataCall ρ Unit := do
  modify DataContext.startMessage
  let context ← get
  processRecords h (context.bicc.inBufferLimit - context.bicc.currentInBufferPosition)

end DxFeed.ServerMessageProcessor
