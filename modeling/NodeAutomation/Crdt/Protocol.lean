import NodeAutomation.Lib.Fallible

/-! Messages with a document id (`packages/@n8n/crdt/src/protocol.ts`) and the
transport that receives them (`packages/@n8n/crdt/src/transports/worker.ts`). -/

namespace NodeAutomation.CrdtProtocol

abbrev Bytes := List UInt8

inductive ProtocolError where
  | error (message : String)
  deriving DecidableEq

/-- `TextEncoder.encode`, of a string without lone surrogates. -/
def encodeText (text : String) : Bytes := text.toList.flatMap String.utf8EncodeChar

def byteOrderMark : Char := '\uFEFF'

def dropMark (chars : List Char) : List Char :=
  if chars.head? = some byteOrderMark then chars.tail else chars

/-- `TextDecoder.decode`: one mark in front is no part of the text. `replace` reads
bytes that are not well formed. -/
def decodeText (replace : Bytes → List Char) (bytes : Bytes) : String :=
  String.ofList (dropMark ((bytes.toByteArray.utf8Decode?.map Array.toList).getD (replace bytes)))

structure Message where
  messageType : UInt8
  docId : String
  payload : Bytes
  deriving DecidableEq

def encodeMessage (messageType : UInt8) (payload : Bytes) : Bytes := messageType :: payload

def decodeMessage : Bytes → Except ProtocolError (UInt8 × Bytes)
  | [] => .error (.error "Empty message")
  | messageType :: payload => .ok (messageType, payload)

def encodeWithDocId (messageType : UInt8) (docId : String) (payload : Bytes) : Bytes :=
  let docIdLen := (encodeText docId).length
  [messageType, UInt8.ofNat ((docIdLen >>> 8) &&& 0xff), UInt8.ofNat (docIdLen &&& 0xff)] ++
    encodeText docId ++ payload

def decodeWithDocId (replace : Bytes → List Char) : Bytes → Except ProtocolError Message
  | messageType :: high :: low :: rest =>
    let docIdLen := (high.toNat <<< 8) ||| low.toNat
    if rest.length < docIdLen then
      .error (.error "Message too short for declared docId length")
    else .ok ⟨messageType, decodeText replace (rest.take docIdLen), rest.drop docIdLen⟩
  | _ => .error (.error "Message too short to contain docId")

def stripDocId (replace : Bytes → List Char) (data : Bytes) : Except ProtocolError Bytes := do
  let message ← decodeWithDocId replace data
  return encodeMessage message.messageType message.payload

def addDocId (docId : String) (data : Bytes) : Except ProtocolError Bytes := do
  let (messageType, payload) ← decodeMessage data
  return encodeWithDocId messageType docId payload

def MESSAGE_CONNECTED : UInt8 := 4
def MESSAGE_DISCONNECTED : UInt8 := 5
def MESSAGE_INITIAL_SYNC : UInt8 := 6

structure ReceiveHandler where
  id : Nat
  throws : Bytes → Bool

/-- `connecting` says that `connectResolve` is set. -/
structure WorkerTransport where
  docId : String
  receiveHandlers : List ReceiveHandler := []
  connected : Bool := false
  connecting : Bool := false

def forward (data : Bytes) : List ReceiveHandler → List ReceiveHandler
  | [] => []
  | handler :: handlers => handler :: if handler.throws data then [] else forward data handlers

def handleBinaryMessage (replace : Bytes → List Char) (transport : WorkerTransport) (data : Bytes) :
    WorkerTransport × Bytes × List ReceiveHandler :=
  match decodeWithDocId replace data with
  | .error _ => (transport, [], [])
  | .ok message =>
    if message.docId ≠ transport.docId then (transport, [], [])
    else
      let connected := if message.messageType = MESSAGE_CONNECTED then true
        else if message.messageType = MESSAGE_DISCONNECTED then false else transport.connected
      let synced : Bool := message.messageType = MESSAGE_INITIAL_SYNC ∧ transport.connecting
      let serverFormat := encodeMessage message.messageType message.payload
      ({ transport with
          connected := connected || synced
          connecting := transport.connecting && !synced },
        serverFormat, forward serverFormat transport.receiveHandlers)

variable (replace : Bytes → List Char)

theorem decodeText_encodeText (text : String) :
    decodeText replace (encodeText text) = String.ofList (dropMark text.toList) := by
  have read : (encodeText text).toByteArray.utf8Decode? = some text.toList.toArray :=
    List.utf8Decode?_utf8Encode
  simp [decodeText, read]

theorem dropMark_eq_iff (text : String) :
    String.ofList (dropMark text.toList) = text ↔ text.toList.head? ≠ some byteOrderMark := by
  rw [← String.toList_inj, String.toList_ofList, dropMark]
  by_cases marked : text.toList.head? = some byteOrderMark
  · obtain ⟨rest, cons⟩ := List.head?_eq_some_iff.1 marked
    simp [cons]
  · simp [marked]

theorem read_length {n : Nat} (short : n < 65536) :
    ((UInt8.ofNat ((n >>> 8) &&& 0xff)).toNat <<< 8) ||| (UInt8.ofNat (n &&& 0xff)).toNat = n := by
  have mask (m : Nat) : m &&& 0xff = m % 256 := Nat.and_two_pow_sub_one_eq_mod m 8
  have low : n % 256 < 2 ^ 8 := Nat.mod_lt n (by decide)
  rw [mask, mask, UInt8.toNat_ofNat', UInt8.toNat_ofNat', Nat.mod_mod, Nat.mod_mod,
    ← Nat.shiftLeft_add_eq_or_of_lt low, Nat.shiftRight_eq_div_pow, Nat.shiftLeft_eq]
  omega

theorem decodeWithDocId_encodeWithDocId (messageType : UInt8) (docId : String) (payload : Bytes)
    (short : (encodeText docId).length < 65536) :
    decodeWithDocId replace (encodeWithDocId messageType docId payload) =
      .ok ⟨messageType, String.ofList (dropMark docId.toList), payload⟩ := by
  simp only [encodeWithDocId, List.cons_append, List.nil_append, decodeWithDocId, read_length short]
  rw [if_neg (by simp), List.take_left, List.drop_left, decodeText_encodeText]

theorem stripDocId_addDocId (messageType : UInt8) (docId : String) (payload : Bytes)
    (short : (encodeText docId).length < 65536) :
    (addDocId docId (encodeMessage messageType payload) >>= stripDocId replace) =
      .ok (encodeMessage messageType payload) := by
  have decoded := decodeWithDocId_encodeWithDocId replace messageType docId payload short
  simp only [addDocId, encodeMessage, decodeMessage, Fallible.ok_bind]
  change stripDocId replace (encodeWithDocId messageType docId payload) = _
  rw [stripDocId, decoded]
  rfl

/-- No handler but the last one throws. -/
def Undisturbed (data : Bytes) (handlers : List ReceiveHandler) : Prop :=
  ∀ handler ∈ handlers.dropLast, handler.throws data = false

theorem forward_eq_iff (data : Bytes) (handlers : List ReceiveHandler) :
    forward data handlers = handlers ↔ Undisturbed data handlers := by
  induction handlers with
  | nil => simp [forward, Undisturbed]
  | cons handler handlers ih =>
    cases handlers with
    | nil => simp [forward, Undisturbed]
    | cons second rest =>
      have split : Undisturbed data (handler :: second :: rest) ↔
          handler.throws data = false ∧ Undisturbed data (second :: rest) := by
        simp [Undisturbed]
      rw [split, ← ih, forward]
      cases handler.throws data with
      | true => simp
      | false => simp

/-- A framed message is read back, its frame comes off, and a transport hands it to
all its receivers if it was framed for the transport's document, else to none. -/
structure RoundTrips (messageType : UInt8) (docId : String) (payload : Bytes)
    (transport : WorkerTransport) : Prop where
  decoded : decodeWithDocId replace (encodeWithDocId messageType docId payload) =
    .ok ⟨messageType, docId, payload⟩
  stripped : (addDocId docId (encodeMessage messageType payload) >>= stripDocId replace) =
    .ok (encodeMessage messageType payload)
  forwarded : (handleBinaryMessage replace transport (encodeWithDocId messageType docId payload)).2 =
    if docId = transport.docId then
      (encodeMessage messageType payload, transport.receiveHandlers)
    else ([], [])

/-- Framing round-trips exactly where the document id does not begin with the mark
that the decoder drops, and no receiver of the message is in the way of a later one. -/
theorem message_roundTrips_iff (messageType : UInt8) (docId : String) (payload : Bytes)
    (transport : WorkerTransport) (short : (encodeText docId).length < 65536) :
    RoundTrips replace messageType docId payload transport ↔
      docId.toList.head? ≠ some byteOrderMark ∧
        (docId = transport.docId →
          Undisturbed (encodeMessage messageType payload) transport.receiveHandlers) := by
  have read := decodeWithDocId_encodeWithDocId replace messageType docId payload short
  have stripped := stripDocId_addDocId replace messageType docId payload short
  have handled (unmarked : docId.toList.head? ≠ some byteOrderMark) :
      (handleBinaryMessage replace transport (encodeWithDocId messageType docId payload)).2 =
        if docId = transport.docId then (encodeMessage messageType payload,
          forward (encodeMessage messageType payload) transport.receiveHandlers) else ([], []) := by
    rw [(dropMark_eq_iff docId).2 unmarked] at read
    rw [handleBinaryMessage, read]
    by_cases own : docId = transport.docId
    · simp [own]
    · simp [own]
  constructor
  · intro trips
    have decoded := trips.decoded
    rw [read] at decoded
    have unmarked := (dropMark_eq_iff docId).1 (by simpa using decoded)
    refine ⟨unmarked, fun own => (forward_eq_iff _ _).1 ?_⟩
    have forwarded := trips.forwarded
    rw [handled unmarked, if_pos own, if_pos own] at forwarded
    exact (Prod.mk.inj forwarded).2
  · intro h
    rw [(dropMark_eq_iff docId).2 h.1] at read
    refine ⟨read, stripped, ?_⟩
    rw [handled h.1]
    by_cases own : docId = transport.docId
    · rw [if_pos own, if_pos own, (forward_eq_iff _ _).2 (h.2 own)]
    · rw [if_neg own, if_neg own]

theorem plain_roundTrips : RoundTrips (fun _ => []) 0 "workflow-1" [1, 2] { docId := "workflow-1" } :=
  (message_roundTrips_iff (fun _ => []) 0 "workflow-1" [1, 2] { docId := "workflow-1" } (by decide)).2
    ⟨by decide, fun _ _ never => absurd never List.not_mem_nil⟩

/-- What is framed for a document that begins with the mark reaches the transport of
the document without it. -/
theorem marked_not_roundTrips :
    (encodeText "\uFEFFa").length < 65536 ∧
      ¬ RoundTrips (fun _ => []) 0 "\uFEFFa" [] { docId := "a", receiveHandlers := [⟨0, fun _ => false⟩] } := by
  refine ⟨by decide, fun trips => ?_⟩
  have decoded := trips.decoded
  rw [decodeWithDocId_encodeWithDocId _ _ _ _ (by decide)] at decoded
  exact absurd decoded (by decide)

end NodeAutomation.CrdtProtocol
