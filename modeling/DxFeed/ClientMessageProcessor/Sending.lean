import DxFeed.BufferedIO.Transport
import DxFeed.ClientMessageProcessor.Composing

/-!
# Messages that are sent

The functions that send a message compose it in a new buffer, and hand the bytes up to the position to
`dx_send_data`, which passes them to the socket piece by piece.

* `composedBytes`: the bytes of a message;
* `parsesBack_of_composedBytes`, `ParsesBack.receives`: they parse back, between any other bytes;
* `sendData`: the loop of `dx_send_data`, for every way in which the socket takes the bytes;
* `sendData_spec`: what arrives is a prefix of the bytes, and all of them if the call succeeds.
-/

namespace DxFeed.ClientMessageProcessor

open Call BufferedIO FixedWidth PrefixCode ServerMessageProcessor

/-! ### Composing -/

/-- A message that is composed in the buffer `room`; `none` if this fails. -/
def composedBytes (room : List Int8) (messageType : MessageType) (body : WriteCall Unit) :
    Option (List Int8) :=
  match exec (composeMessage messageType body) (outputAt [] room) with
  | (.ok _, out) => some (out.writtenFrom 0)
  | (.error _, _) => none

variable {room bs bytes : List Int8} {messageType : MessageType} {body : WriteCall Unit}

/-- The bytes of a message: its length, its type and its body, which parse back. -/
theorem parsesBack_of_composedBytes (hvalid : isMessageTypeValid messageType = true)
    (hroom : room.length ≤ INT_MAX) (hputs : Puts body bs) (hlen : bs.length < 2 ^ 30 - 4)
    (h : composedBytes room messageType body = some bytes) : ParsesBack messageType bs bytes := by
  have hmax : INT_MAX = 2 ^ 31 - 1 := rfl
  obtain ⟨out, hcompose, rfl⟩ : ∃ out,
      exec (composeMessage messageType body) (outputAt [] room) = (.ok (), out) ∧
        out.writtenFrom 0 = bytes := by
    unfold composedBytes at h
    rcases hexec : exec (composeMessage messageType body) (outputAt [] room) with ⟨_ | ⟨⟨⟩⟩, out⟩
    · simp [hexec] at h
    · exact ⟨out, rfl, by simpa [hexec] using h⟩
  obtain ⟨typeBytes, hputsType, htype⟩ := puts_writeCompactInt messageType
  have hone := length_typeBytes hvalid htype
  obtain ⟨⟨⟩, headed, hheader, hrest⟩ := exec_bind_eq_ok hcompose
  obtain ⟨⟨⟩, written, hbody, hfinish⟩ := exec_bind_eq_ok hrest
  -- behind the header
  have hputsHeader : Puts (composeMessageHeader messageType) (0 :: typeBytes) :=
    (puts_writeByte 0).bind hputsType
  obtain ⟨headerRoom, rfl, hheaderRoom⟩ := hputsHeader.writes [] room headed
    (by rw [List.length_nil, List.length_cons, hone]; omega)
    (by rw [List.length_nil]; omega) hheader
  rw [List.nil_append] at hheaderRoom hbody
  -- behind the body
  obtain ⟨bodyRoom, rfl, hbodyRoom⟩ := hputs.writes (0 :: typeBytes) headerRoom written
    (by rw [List.length_cons, hone]; omega) hheaderRoom hbody
  have hcontent : (typeBytes ++ bs).length = 1 + bs.length := by
    rw [List.length_append, hone]
  have htotal : (typeBytes ++ bs).length + 1 + bodyRoom.length ≤ INT_MAX := hbodyRoom
  obtain ⟨lengthBytes, rest, rfl, hlength⟩ := finishComposingMessage_eq htotal hfinish (by omega)
  have hwritten := writtenFrom_outputAt [] (lengthBytes ++ (typeBytes ++ bs)) rest
  rw [List.nil_append, List.length_nil] at hwritten
  rw [hwritten]
  exact parsesBack hvalid hlength htype

/-! ### Receiving -/

/-- The start of a round of `dx_process_server_data`: the length of a message, and its type. -/
def readHeader : ReadCall MessageType := do
  readMessageLengthAndSetBufferLimit (← get).inBufferLength
  readMessageType

/-- A message that parses back is received by a reader of its body. -/
theorem ParsesBack.receives {ε σ α : Type} {s s' : InputContext → σ} {a : α}
    {head : Call ε σ MessageType} {f : MessageType → Call ε σ α}
    (hparses : ParsesBack messageType bs bytes) (hhead : ReadsOn head s readHeader)
    (hbody : ObtainsAll (f messageType) s bs a s') : Receives (head >>= f) s bytes a s' := by
  obtain ⟨lengthBytes, typeBytes, rfl, -, -, hread⟩ := hparses
  obtain ⟨e, hhead⟩ := hhead
  intro pre post limit hlen
  have hbodyRead := hbody (pre ++ lengthBytes ++ typeBytes) post (by simpa using hlen)
  have hlimit : (pre ++ lengthBytes ++ typeBytes).length + bs.length =
      pre.length + (lengthBytes ++ (typeBytes ++ bs)).length := by
    simp only [List.length_append]
    omega
  rw [hlimit] at hbodyRead
  have hheader : exec readHeader
      (inputAt pre (lengthBytes ++ (typeBytes ++ bs) ++ post) limit) = _ :=
    (exec_bind_ok (exec_get _)).trans (hread pre post limit hlen)
  have hhead' := hhead (inputAt pre (lengthBytes ++ (typeBytes ++ bs) ++ post) limit)
  rw [hheader] at hhead'
  refine ⟨pre.length + (lengthBytes ++ (typeBytes ++ bs)).length, ?_⟩
  rw [exec_bind_ok hhead', hbodyRead]
  simp only [List.append_assoc]

/-! ### The socket -/

/-- How the socket takes bytes: the number of bytes that a call of `dx_send` takes of those it is
given; `none` is an error. -/
abbrev Socket := List Int8 → Option ℕ

/-- The loop of `dx_send_data`, with the bytes that the sockets took; each round has its own answer,
and a round that is behind the answers does not take place. -/
def sendData : List Socket → List Int8 → List Int8 × Bool
  | [], _ => ([], false)
  | send :: sends, buffer =>
      match send buffer with
      | none => ([], false)
      | some sentCount =>
          if sentCount < buffer.length then
            let (sent, success) := sendData sends (buffer.drop sentCount)
            (buffer.take sentCount ++ sent, success)
          else (buffer, true)

/-- What the socket takes is a prefix of the buffer, and the whole buffer if the call succeeds. -/
theorem sendData_spec (sends : List Socket) (buffer : List Int8) :
    (sendData sends buffer).1 <+: buffer ∧
      ((sendData sends buffer).2 = true → (sendData sends buffer).1 = buffer) := by
  induction sends generalizing buffer with
  | nil => simp [sendData]
  | cons send sends ih =>
      rw [sendData]
      cases hsend : send buffer with
      | none => simp
      | some sentCount =>
          by_cases hshort : sentCount < buffer.length
          · obtain ⟨hfront, hall⟩ := ih (buffer.drop sentCount)
            have hsplit := List.take_append_drop sentCount buffer
            simp only [if_pos hshort]
            constructor
            · have hwhole := (List.prefix_append_right_inj (buffer.take sentCount)).mpr hfront
              rwa [hsplit] at hwhole
            · intro hsuccess
              rw [hall hsuccess, hsplit]
          · simp [hshort]

end DxFeed.ClientMessageProcessor
