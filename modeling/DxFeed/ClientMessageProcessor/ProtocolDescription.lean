import DxFeed.ClientMessageProcessor.Sending
import DxFeed.PropertyMap.Operations
import DxFeed.ServerMessageProcessor.LatestDescription

/-!
# Describe-protocol messages on the wire

A description of the protocol is the properties of a connection and two lists of message types.

* `writeProtocolDescription`: the body of the message, for any lists;
* `transports_properties`, `transports_messageData`: its parts;
* `protocolReadBack`: `dx_process_describe_protocol` reads the properties, the lists, and the message
  types that are supported then.
-/

namespace DxFeed.ClientMessageProcessor

open Call BufferedIO FixedWidth PrefixCode ServerMessageProcessor Properties SortedList

/-! ### Writing -/

/-- `dx_write_describe_protocol_magic`: `'D'`, `'X'`, `'P'`, `'3'`. -/
def writeDescribeProtocolMagic : WriteCall Unit := do
  writeByte 0x44
  writeByte 0x58
  writeByte 0x50
  writeByte 0x33

def writeProperty (item : PropertyItem) : WriteCall Unit := do
  writeUtfString item.key
  writeUtfString item.value

/-- `dx_write_describe_protocol_properties`. -/
def writeDescribeProtocolProperties (properties : PropertyMap) : WriteCall Unit := do
  writeCompactInt (Int32.ofNat properties.size)
  writeAll writeProperty properties.elements

/-- A message type has no properties of its own. -/
def writeMessageType (msg : MessageType) : WriteCall Unit := do
  writeCompactInt msg
  writeUtfString (some (messageTypeName msg))
  writeCompactInt 0

/-- `dx_write_describe_protocol_message_data`. -/
def writeDescribeProtocolMessageData (msgRoster : List MessageType) : WriteCall Unit := do
  writeCompactInt (Int32.ofNat msgRoster.length)
  writeAll writeMessageType msgRoster

/-- The body of a description: what is sent, and what is received. -/
def writeProtocolDescription (properties : PropertyMap) (sends recvs : List MessageType) :
    WriteCall Unit := do
  writeDescribeProtocolMagic
  writeDescribeProtocolProperties properties
  writeDescribeProtocolMessageData sends
  writeDescribeProtocolMessageData recvs

/-! ### Reading -/

/-- What a description is processed on, without the input. -/
def describeAt (info : ServerInfo) (recvProps : Content) (listed : Listing) (input : InputContext) :
    DescribeState :=
  ⟨info, recvProps, input, listed⟩

/-- A round of the loop of `readProperties`. -/
def readProperty : ServerMessageProcessor.DescribeCall Unit := do
  let key ← readInput readText
  let value ← readInput readText
  modify fun s => { s with recvProps := setContent s.recvProps key value }

theorem readProperties_succ (n : ℕ) :
    readProperties (n + 1) = (do
      readProperty
      readProperties n) := by
  simp only [readProperties, readProperty, bind_assoc]

/-- A round of the loop of `readMessageTypes`. -/
def readMessageTypeEntry (processor : TypeEntry → ServerMessageProcessor.DescribeCall Unit) :
    ServerMessageProcessor.DescribeCall Unit := do
  let messageId ← readInput readCompactInt
  let messageName ← readInput readText
  processor (messageId, messageName)
  readDescribeProtocolProperties

theorem readMessageTypes_succ (processor : TypeEntry → ServerMessageProcessor.DescribeCall Unit)
    (n : ℕ) :
    readMessageTypes processor (n + 1) = (do
      readMessageTypeEntry processor
      readMessageTypes processor n) := by
  simp only [readMessageTypes, readMessageTypeEntry, bind_assoc]

section Parts

variable {info : ServerInfo} {recvProps : Content} {listed : Listing}

theorem readsOn_readInput {α : Type} (x : ReadCall α) (info : ServerInfo) (recvProps : Content)
    (listed : Listing) : ReadsOn (readInput x) (describeAt info recvProps listed) x :=
  ⟨.input, fun _ => rfl⟩

/-- The number of elements in front of a list. -/
theorem transports_count {n : ℕ} (hn : n < 2 ^ 31) :
    Transports (writeCompactInt (Int32.ofNat n)) readCount (describeAt info recvProps listed) n
      (describeAt info recvProps listed) 5 := by
  have hvalue : (Int32.ofNat n).toInt = n := Int32.toInt_ofNat_of_lt hn
  have hnonneg : ¬ Int32.ofNat n < 0 := by
    have hzero : (0 : Int32).toInt = 0 := rfl
    rw [Int32.lt_iff_toInt_lt, hvalue, hzero]
    omega
  refine (transports_int (readsOn_readInput readCompactInt info recvProps listed)
    (Int32.ofNat n)).andThen ?_
  rw [if_neg hnonneg, hvalue, Int.toNat_natCast]
  exact obtains_pure n

theorem transports_magic :
    Transports writeDescribeProtocolMagic readMagic (describeAt info recvProps listed) ()
      (describeAt info recvProps listed) 4 := by
  have hputs : Puts writeDescribeProtocolMagic [0x44, 0x58, 0x50, 0x33] :=
    (puts_writeByte 0x44).bind ((puts_writeByte 0x58).bind
      ((puts_writeByte 0x50).bind (puts_writeByte 0x33)))
  have hread : Obtains (readInput readInt) (describeAt info recvProps listed)
      [0x44, 0x58, 0x50, 0x33] 0x44585033 (describeAt info recvProps listed) :=
    (readsOn_readInput readInt info recvProps listed).obtains (reads_readInt 0x44 0x58 0x50 0x33)
  exact ⟨_, hputs, hread.bind (obtains_pure ()), le_rfl⟩

/-! ### Properties -/

/-- The bytes that may be needed for a property. -/
def propertySize (item : PropertyItem) : ℕ := utfSize item.key + utfSize item.value

/-- The strings of some properties can be read back, and there is room for them. -/
structure ItemsFit (items : List PropertyItem) : Prop where
  key : ∀ item ∈ items, ∀ w ∈ item.key, IsText w
  value : ∀ item ∈ items, ∀ w ∈ item.value, IsText w
  size : (items.map propertySize).sum < 2 ^ 29

theorem transports_property {items : List PropertyItem} (hfits : ItemsFit items)
    {item : PropertyItem} (hitem : item ∈ items) :
    Transports (writeProperty item) readProperty (describeAt info recvProps listed) ()
      (describeAt info (setContent recvProps item.key item.value) listed) (propertySize item) := by
  have hsum : propertySize item ≤ (items.map propertySize).sum :=
    List.le_sum_of_mem (List.mem_map_of_mem hitem)
  have hsize : utfSize item.key + utfSize item.value ≤ INT_MAX :=
    hsum.trans (hfits.size.le.trans (by norm_num [INT_MAX]))
  have hstring := readsOn_readInput readText info recvProps listed
  have hset : Obtains
      (modify fun s => { s with recvProps := setContent s.recvProps item.key item.value } :
        ServerMessageProcessor.DescribeCall Unit)
      (describeAt info recvProps listed) [] ()
      (describeAt info (setContent recvProps item.key item.value) listed) :=
    obtains_modify fun _ => rfl
  exact (transports_text hstring (by omega) (hfits.key item hitem)).bind
    ((transports_text hstring (by omega) (hfits.value item hitem)).andThen hset)

theorem setContents_append (contents : Content) (front back : List PropertyItem) :
    setContents contents (front ++ back) = setContents (setContents contents front) back :=
  List.foldl_append

/-- The pairs go one after the other into the properties of the reader. -/
theorem transports_items {items : List PropertyItem} (hfits : ItemsFit items) :
    Transports (writeAll writeProperty items) (readProperties items.length)
      (describeAt info recvProps listed) ()
      (describeAt info (setContents recvProps items) listed) (items.map propertySize).sum := by
  refine transports_list rfl readProperties_succ
    (s := fun front => describeAt info (setContents recvProps front) listed) items [] ?_
  intro front item hitem
  show Transports _ _ _ _ (describeAt info (setContents recvProps (front ++ [item])) listed) _
  rw [setContents_append]
  exact transports_property hfits hitem

/-- The value of a key behind some pairs, whose keys are increasing. -/
theorem setContents_eq {items : List PropertyItem} (hstrings : HasStrings items)
    (hsorted : KeySorted itemKey items) (contents : Content) (key : WString) :
    setContents contents items key =
      match lookup itemKey items (stringKey key) with
      | some item => item.value
      | none => contents key := by
  induction items generalizing contents with
  | nil => rfl
  | cons item items ih =>
      obtain ⟨hfirst, hrest⟩ := keySorted_cons.mp hsorted
      obtain ⟨hkey, hvalue⟩ := hstrings item List.mem_cons_self
      obtain ⟨k, hk⟩ := Option.isSome_iff_exists.mp hkey
      obtain ⟨v, hv⟩ := Option.isSome_iff_exists.mp hvalue
      have hitemKey : itemKey item = stringKey k := by rw [itemKey, hk, Option.getD_some]
      have hstep : setContents contents (item :: items) =
          setContents (Function.update contents k (some v)) items := by
        rw [setContents, List.foldl_cons, hk, hv]
        rfl
      rw [hstep, ih (fun x hx => hstrings x (List.mem_cons_of_mem _ hx)) hrest, lookup_cons,
        hitemKey]
      by_cases hsame : key = k
      · subst hsame
        -- the key does not come again
        have hnone : lookup itemKey items (stringKey key) = none :=
          lookup_eq_none.mpr fun x hx => hitemKey ▸ (hfirst x hx).ne'
        rw [hnone, if_pos rfl, Function.update_self]
        exact hv.symm
      · rw [if_neg (stringKey_injective.ne hsame).symm, Function.update_of_ne hsame]

/-- The pairs of a map are its content. -/
theorem setContents_eq_content {properties : PropertyMap} (hvalid : Valid properties) :
    setContents (fun _ => none) properties.elements = content properties := by
  funext key
  rw [setContents_eq hvalid.strings hvalid.sorted, content]
  cases lookup itemKey properties.elements (stringKey key) with
  | none => rfl
  | some item => rfl

theorem length_le_sum_propertySize (items : List PropertyItem) :
    items.length ≤ (items.map propertySize).sum := by
  induction items with
  | nil => exact le_rfl
  | cons item items ih =>
      have hpos : 5 ≤ propertySize item := by
        unfold propertySize utfSize
        split <;> omega
      rw [List.map_cons, List.sum_cons, List.length_cons]
      omega

/-- The properties of a map are read into properties that are empty. -/
theorem transports_properties {properties : PropertyMap} (hvalid : Valid properties)
    (hfits : ItemsFit properties.elements) :
    Transports (writeDescribeProtocolProperties properties) readDescribeProtocolProperties
      (describeAt info (fun _ => none) listed) () (describeAt info (content properties) listed)
      (5 + (properties.elements.map propertySize).sum) := by
  have hlength := length_le_sum_propertySize properties.elements
  have hsize := hfits.size
  have hitems := @transports_items info (fun _ => none) listed _ hfits
  rw [setContents_eq_content hvalid, hvalid.length_elements] at hitems
  rw [hvalid.length_elements] at hlength
  exact (transports_count (by omega)).bind hitems

/-! ### Message types -/

/-- A short string of the first 128 characters, without the terminator. -/
def IsPlain (s : String) : Prop :=
  s.toList.length ≤ 32 ∧ ∀ c ∈ s.toList, 0 < c.toNat ∧ c.toNat < 128

theorem isPlain_ite {p : Prop} [Decidable p] {s t : String} (hs : IsPlain s) (ht : IsPlain t) :
    IsPlain (if p then s else t) := by
  by_cases h : p
  · rwa [if_pos h]
  · rwa [if_neg h]

theorem IsPlain.bounds_of_mem {s : String} (h : IsPlain s) {c : UInt16} (hc : c ∈ wideString s) :
    0 < c.toNat ∧ c.toNat < 128 := by
  obtain ⟨d, hd, rfl⟩ := List.mem_map.mp hc
  have hbounds := h.2 d hd
  rw [UInt16.toNat_ofNat_of_lt' (by rw [UInt16.size]; omega)]
  exact hbounds

/-- A plain string has no surrogates. -/
theorem IsPlain.isText {s : String} (h : IsPlain s) : IsText (wideString s) where
  pairsFit := by
    intro front high low back hvalue hhigh _
    have hmem : high ∈ wideString s := by
      rw [hvalue]
      simp
    have hlt := (h.bounds_of_mem hmem).2
    have hbound := (le_of_isHighSurrogate hhigh).1
    omega
  noZero hzero := (h.bounds_of_mem hzero).1.ne rfl

theorem utfLength_le_of_lt {value : WString} (h : ∀ c ∈ value, c.toNat < 128) :
    utfLength value ≤ value.length := by
  have hsmall : ∀ c ∈ value, c ≤ 0x7F := by
    intro c hc
    have hlt := h c hc
    rw [UInt16.le_iff_toNat_le]
    show c.toNat ≤ 127
    omega
  clear h
  induction value with
  | nil => exact le_rfl
  | cons c value ih =>
      have hc := hsmall c List.mem_cons_self
      have ih := ih fun d hd => hsmall d (List.mem_cons_of_mem c hd)
      cases value with
      | nil => simp [utfLength, hc]
      | cons d value =>
          rw [utfLength, if_pos hc, List.length_cons]
          omega

theorem exists_isPlain (msg : MessageType) : ∃ s, IsPlain s ∧ messageTypeName msg = wideString s := by
  refine ⟨_, ?_, rfl⟩
  iterate 12 refine isPlain_ite (by simp [IsPlain]) ?_
  simp [IsPlain]

theorem utfSize_messageTypeName (msg : MessageType) : utfSize (some (messageTypeName msg)) ≤ 37 := by
  obtain ⟨s, hplain, hname⟩ := exists_isPlain msg
  have hlength : (wideString s).length ≤ 32 := by
    rw [wideString, List.length_map]
    exact hplain.1
  have hutf := utfLength_le_of_lt fun c hc => (hplain.bounds_of_mem hc).2
  rw [utfSize, hname]
  omega

/-- The entry of a message type with its name. -/
def entryOf (msg : MessageType) : TypeEntry := (msg, some (messageTypeName msg))

theorem transports_messageType {processor : TypeEntry → ServerMessageProcessor.DescribeCall Unit}
    {msg : MessageType} {listed' : Listing} {info' : ServerInfo}
    (hprocessor : Obtains (processor (entryOf msg)) (describeAt info recvProps listed) [] ()
      (describeAt info' recvProps listed')) :
    Transports (writeMessageType msg) (readMessageTypeEntry processor)
      (describeAt info recvProps listed) () (describeAt info' recvProps listed') (5 + (37 + 5)) := by
  obtain ⟨s, hplain, hname⟩ := exists_isPlain msg
  have hsize := utfSize_messageTypeName msg
  have hfits : ∀ w ∈ some (messageTypeName msg), IsText w := by
    intro w hw
    obtain rfl := Option.mem_some.mp hw
    rw [hname]
    exact hplain.isText
  have hid := transports_int (readsOn_readInput readCompactInt info recvProps listed) msg
  have hmessageName := transports_text (readsOn_readInput readText info recvProps listed)
    (hsize.trans (by norm_num [INT_MAX])) hfits
  -- there are no properties
  have hcount : Transports (writeCompactInt 0) readDescribeProtocolProperties
      (describeAt info' recvProps listed') () (describeAt info' recvProps listed') 5 :=
    (@transports_count info' recvProps listed' 0 (by norm_num)).andThen (obtains_pure ())
  exact hid.bind ((hmessageName.mono hsize).bind (Transports.silent hprocessor hcount))

/-- A list of message types, whose entries are processed one after the other. -/
theorem transports_messageData {processor : TypeEntry → ServerMessageProcessor.DescribeCall Unit}
    {all : List MessageType → Listing} (hnil : all [] = .empty)
    (happend : ∀ front msg, all (front ++ [msg]) = (all front).append (all [msg]))
    (hprocessor : ∀ info recvProps listed msg, Obtains (processor (entryOf msg))
      (describeAt info recvProps listed) [] ()
      (describeAt (info.mark (all [msg])) recvProps (listed.append (all [msg]))))
    {msgRoster : List MessageType} (hroster : msgRoster.length < 2 ^ 20) :
    Transports (writeDescribeProtocolMessageData msgRoster)
      (readDescribeProtocolMessageList processor) (describeAt info recvProps listed) ()
      (describeAt (info.mark (all msgRoster)) recvProps (listed.append (all msgRoster)))
      (5 + (5 + (37 + 5)) * 2 ^ 20) := by
  have hlist : Transports (writeAll writeMessageType msgRoster)
      (readMessageTypes processor msgRoster.length)
      (describeAt (info.mark (all [])) recvProps (listed.append (all []))) ()
      (describeAt (info.mark (all ([] ++ msgRoster))) recvProps (listed.append (all ([] ++ msgRoster))))
      (msgRoster.map fun _ => 5 + (37 + 5)).sum := by
    refine transports_list rfl (readMessageTypes_succ processor)
      (s := fun front => describeAt (info.mark (all front)) recvProps (listed.append (all front)))
      msgRoster [] ?_
    intro front msg _
    show Transports _ _ _ _ (describeAt (info.mark (all (front ++ [msg]))) recvProps
      (listed.append (all (front ++ [msg])))) _
    rw [happend, mark_append, ← Listing.append_assoc]
    exact transports_messageType (hprocessor _ _ _ msg)
  rw [hnil, mark_empty, Listing.append_empty, List.nil_append] at hlist
  have hsum : (msgRoster.map fun _ => 5 + (37 + 5)).sum ≤ (5 + (37 + 5)) * 2 ^ 20 := by
    rw [List.map_const', List.sum_replicate, smul_eq_mul]
    omega
  exact (transports_count (by omega)).bind (hlist.mono hsum)

/-- The entries of a list, as message types that are sent or that are received. -/
def sendListing (msgRoster : List MessageType) : Listing := ⟨msgRoster.map entryOf, []⟩

def recvListing (msgRoster : List MessageType) : Listing := ⟨[], msgRoster.map entryOf⟩

theorem obtains_checkName (msgRoster : List MessageType) (msg : MessageType) (info : ServerInfo)
    (recvProps : Content) (listed : Listing) :
    Obtains (checkName msgRoster (entryOf msg)) (describeAt info recvProps listed) [] ()
      (describeAt info recvProps listed) := by
  have hname : ¬ ((entryOf msg).1 ∈ msgRoster ∧ (entryOf msg).2 = none) := fun h => nomatch h.2
  unfold checkName
  rw [if_neg hname]
  exact obtains_pure ()

theorem obtains_sendMessageType (info : ServerInfo) (recvProps : Content) (listed : Listing)
    (msg : MessageType) :
    Obtains (processServerSendMessageType (entryOf msg)) (describeAt info recvProps listed) [] ()
      (describeAt (info.mark (sendListing [msg])) recvProps (listed.append (sendListing [msg]))) := by
  have hlisted : listed.append (sendListing [msg]) = ⟨listed.send ++ [entryOf msg], listed.recv⟩ := by
    simp [Listing.append, sendListing]
  have hpush : Obtains
      (modify fun s => { s with listed.send := s.listed.send ++ [entryOf msg] } :
        ServerMessageProcessor.DescribeCall Unit)
      (describeAt info recvProps listed) [] ()
      (describeAt info recvProps ⟨listed.send ++ [entryOf msg], listed.recv⟩) :=
    obtains_modify fun _ => rfl
  rw [hlisted]
  exact hpush.silent
    ((obtains_checkName recvMessageRoster msg _ _ _).silent (obtains_modify fun _ => rfl))

theorem obtains_recvMessageType (info : ServerInfo) (recvProps : Content) (listed : Listing)
    (msg : MessageType) :
    Obtains (processServerRecvMessageType (entryOf msg)) (describeAt info recvProps listed) [] ()
      (describeAt (info.mark (recvListing [msg])) recvProps (listed.append (recvListing [msg]))) := by
  have hlisted : listed.append (recvListing [msg]) = ⟨listed.send, listed.recv ++ [entryOf msg]⟩ := by
    simp [Listing.append, recvListing]
  have hpush : Obtains
      (modify fun s => { s with listed.recv := s.listed.recv ++ [entryOf msg] } :
        ServerMessageProcessor.DescribeCall Unit)
      (describeAt info recvProps listed) [] ()
      (describeAt info recvProps ⟨listed.send, listed.recv ++ [entryOf msg]⟩) :=
    obtains_modify fun _ => rfl
  rw [hlisted]
  exact hpush.silent
    ((obtains_checkName sendMessageRoster msg _ _ _).silent (obtains_modify fun _ => rfl))

/-! ### The message -/

/-- What two lists of message types describe. -/
def listingOf (sends recvs : List MessageType) : Listing :=
  ⟨sends.map entryOf, recvs.map entryOf⟩

theorem append_sendListing_recvListing (sends recvs : List MessageType) :
    (sendListing sends).append (recvListing recvs) = listingOf sends recvs := by
  simp [Listing.append, sendListing, recvListing, listingOf]

/-- The body of a description, up to the end of its lists. -/
theorem transports_description {properties : PropertyMap} (hvalid : Valid properties)
    (hfits : ItemsFit properties.elements) {sends recvs : List MessageType}
    (hsends : sends.length < 2 ^ 20) (hrecvs : recvs.length < 2 ^ 20) :
    Transports (writeProtocolDescription properties sends recvs)
      (do
        readMagic
        readDescription)
      (describeAt info recvProps .empty) ()
      (describeAt (info.mark (listingOf sends recvs)) (content properties) (listingOf sends recvs))
      (2 ^ 30 - 5) := by
  have hclear : Obtains
      (modify fun s => { s with recvProps := fun _ => none } :
        ServerMessageProcessor.DescribeCall Unit)
      (describeAt info recvProps .empty) [] () (describeAt info (fun _ => none) .empty) :=
    obtains_modify fun _ => rfl
  have hproperties := @transports_properties info .empty _ hvalid hfits
  have hsendList := @transports_messageData info (content properties) .empty
    processServerSendMessageType sendListing rfl
    (fun front msg => by simp [Listing.append, sendListing]) obtains_sendMessageType sends hsends
  have hrecvList := @transports_messageData (info.mark (sendListing sends)) (content properties)
    (Listing.empty.append (sendListing sends)) processServerRecvMessageType recvListing rfl
    (fun front msg => by simp [Listing.append, recvListing]) obtains_recvMessageType recvs hrecvs
  have hempty : Listing.empty.append (sendListing sends) = sendListing sends := by
    simp [Listing.append, Listing.empty]
  rw [hempty] at hsendList hrecvList
  rw [← mark_append, append_sendListing_recvListing] at hrecvList
  have hread : Transports
      (do
        writeDescribeProtocolProperties properties
        writeDescribeProtocolMessageData sends
        writeDescribeProtocolMessageData recvs)
      readDescription (describeAt info recvProps .empty) () _ _ :=
    Transports.silent hclear (hproperties.bind (hsendList.bind hrecvList))
  have hsize := hfits.size
  exact (transports_magic.bind hread).mono (by omega)

/-- The description is accepted at the end of the message. -/
theorem obtainsAll_acceptDescription (hlogin : loginAnswer recvProps = none) :
    ObtainsAll acceptDescription (describeAt info recvProps listed) [] ()
      (describeAt { info with describeProtocolStatus := .received } recvProps listed) := by
  intro pre post _
  unfold acceptDescription
  rw [exec_bind_ok (exec_get _)]
  have hprops : (describeAt info recvProps listed
      (inputAt pre ([] ++ post) (pre.length + ([] : List Int8).length))).recvProps = recvProps := rfl
  rw [hprops, hlogin]
  simp [describeAt, inputAt]

/-- `dx_process_describe_protocol` behind the header of its message. -/
def receiveDescription : ServerMessageProcessor.DescribeCall Unit := do
  let messageType ← readInput readHeader
  if messageType = messageDescribeProtocol then processDescribeProtocol

end Parts

theorem lists_listingOf {sends recvs : List MessageType} {msg : MessageType} :
    (listingOf sends recvs).Lists msg ↔
      msg ∈ sendMessageRoster ∧ msg ∈ recvs ∨ msg ∈ recvMessageRoster ∧ msg ∈ sends := by
  have hmem : ∀ msgRoster : List MessageType,
      (msg, some (messageTypeName msg)) ∈ msgRoster.map entryOf ↔ msg ∈ msgRoster := by
    intro msgRoster
    rw [List.mem_map]
    constructor
    · rintro ⟨msg', hmem, hentry⟩
      rwa [← (Prod.mk.inj hentry).1]
    · exact fun hmem => ⟨msg, hmem, rfl⟩
  unfold Listing.Lists listingOf
  rw [hmem, hmem]

/-- A message type that is supported is reported so, and no other one is. -/
theorem report_iff {info : ServerInfo} (h : info.describeProtocolStatus = .received)
    (msg : MessageType) :
    isMessageSupportedByServer info msg = some .supported ↔ info.supports msg = true := by
  by_cases hvalid : isMessageTypeValid msg = true
  · exact report_of_received h hvalid
  · have hnone : isMessageSupportedByServer info msg = none := by
      unfold isMessageSupportedByServer
      simp [hvalid]
    rw [hnone]
    exact iff_of_false nofun fun hsupports => hvalid (isMessageTypeValid_of_supports hsupports)

/-- A description of a server without a question for a login is read as its properties and its lists,
whatever they are: a message type is reported as supported from then on if the server lists it on the
other side, or if it was supported before by a server that was not taken for a legacy one. -/
theorem protocolReadBack {properties : PropertyMap} (hvalid : Valid properties)
    (hfits : ItemsFit properties.elements) (hlogin : loginAnswer (content properties) = none)
    {sends recvs : List MessageType} (hsends : sends.length < 2 ^ 20)
    (hrecvs : recvs.length < 2 ^ 20) {room bytes : List Int8} (hroom : room.length ≤ INT_MAX)
    (h : composedBytes room messageDescribeProtocol
      (writeProtocolDescription properties sends recvs) = some bytes) (session : DescribeSession) :
    ∃ info, Receives receiveDescription (describeAt session.info session.recvProps .empty) bytes ()
        (describeAt info (content properties) (listingOf sends recvs)) ∧
      ∀ msg, isMessageSupportedByServer info msg = some .supported ↔
        session.info.forgiven.supports msg = true ∨
          msg ∈ sendMessageRoster ∧ msg ∈ recvs ∨ msg ∈ recvMessageRoster ∧ msg ∈ sends := by
  obtain ⟨bs, hputs, hobtains, hlength⟩ := @transports_description session.info.forgiven
    session.recvProps _ hvalid hfits sends recvs hsends hrecvs
  have hparses := parsesBack_of_composedBytes rfl hroom hputs (by omega) h
  have hforgiven : Obtains
      (modify fun s => { s with info := s.info.forgiven } :
        ServerMessageProcessor.DescribeCall Unit)
      (describeAt session.info session.recvProps .empty) [] ()
      (describeAt session.info.forgiven session.recvProps .empty) :=
    obtains_modify fun _ => rfl
  have hread : ObtainsAll processDescribeProtocol
      (describeAt session.info session.recvProps .empty) bs ()
      (describeAt { session.info.forgiven.mark (listingOf sends recvs) with
        describeProtocolStatus := .received } (content properties) (listingOf sends recvs)) := by
    have hlists := (hforgiven.silent (f := fun _ => do readMagic; readDescription) hobtains).bindAll
      (f := fun _ => acceptDescription) (obtainsAll_acceptDescription hlogin)
    rw [List.append_nil] at hlists
    unfold processDescribeProtocol
    simpa only [bind_assoc] using hlists
  refine ⟨_, hparses.receives (readsOn_readInput readHeader _ _ _) hread, fun msg => ?_⟩
  rw [report_iff rfl, supports_withStatus, supports_mark, lists_listingOf]

/-! ### A message -/

/-- A map with one property. -/
def oneProperty : PropertyMap := ⟨[⟨some [97], some [98]⟩], 1, 1⟩

theorem valid_oneProperty : Valid oneProperty where
  inBlock := le_rfl
  size_le := by decide
  strings := by
    intro item hitem
    obtain rfl := List.mem_singleton.mp hitem
    exact ⟨rfl, rfl⟩
  sorted := List.pairwise_singleton _ _

theorem isText_singleton {c : UInt16} (hc : c ≠ 0) : IsText [c] where
  pairsFit := by
    intro front high low back hvalue _ _
    have hlength := congrArg List.length hvalue
    simp at hlength
    omega
  noZero hzero := hc (List.mem_singleton.mp hzero).symm

theorem itemsFit_oneProperty : ItemsFit oneProperty.elements where
  key := by
    intro item hitem w hw
    obtain rfl := List.mem_singleton.mp hitem
    obtain rfl := Option.mem_some.mp hw
    exact isText_singleton (by decide)
  value := by
    intro item hitem w hw
    obtain rfl := List.mem_singleton.mp hitem
    obtain rfl := Option.mem_some.mp hw
    exact isText_singleton (by decide)
  size := by decide

theorem messageTypeName_tickerData :
    messageTypeName 10 = [84, 73, 67, 75, 69, 82, 95, 68, 65, 84, 65] := by
  simp [messageTypeName, wideString]

/-- The description of a server that sends data of tickers. -/
theorem composedBytes_tickerData :
    composedBytes (List.replicate 64 0) messageDescribeProtocol
        (writeProtocolDescription oneProperty [10] []) =
      some [26, 1, 68, 88, 80, 51, 1, 1, 97, 1, 98, 1, 10, 11, 84, 73, 67, 75, 69, 82, 95, 68, 65,
        84, 65, 0, 0] := by
  unfold writeProtocolDescription writeDescribeProtocolMessageData writeAll writeMessageType
  rw [messageTypeName_tickerData]
  decide +kernel

theorem protocolReadBack_tickerData :
    ∃ info, Receives receiveDescription
        (describeAt (DescribeSession.start ⟨[], by decide⟩).info (fun _ => none) .empty)
        [26, 1, 68, 88, 80, 51, 1, 1, 97, 1, 98, 1, 10, 11, 84, 73, 67, 75, 69, 82, 95, 68, 65, 84,
          65, 0, 0] ()
        (describeAt info (content oneProperty) (listingOf [10] [])) ∧
      ∀ msg, isMessageSupportedByServer info msg = some .supported ↔
        (DescribeSession.start ⟨[], by decide⟩).info.forgiven.supports msg = true ∨
          msg ∈ sendMessageRoster ∧ msg ∈ [] ∨ msg ∈ recvMessageRoster ∧ msg ∈ [10] :=
  protocolReadBack valid_oneProperty itemsFit_oneProperty
    (by simp [loginAnswer, content, oneProperty, lookup, itemKey, stringKey, wideString,
      Storage.elements])
    (by decide) (by decide) (by decide) composedBytes_tickerData
    (DescribeSession.start ⟨[], by decide⟩)

end DxFeed.ClientMessageProcessor
