import MessageU.SegmentedStream
import MessageU.ResponseFormat

/- The client's operations that receive a list of unknown length: the header of
   the response first, then its payload record by record. size_t has 32 bits; a
   size that passes the limit stays far below that. What a message does to the
   contacts is not part of the loop, which only hands messages on. -/
namespace ClientReception
open ByteFields SegmentedStream RequestFormat ResponseFormat

def Client.maxPayloadSize : Nat := 65536
def Client.nameSize : Nat := 255
def Client.publicKeySize : Nat := 160

def GetPublicKeyOperation.responseSize : Nat :=
  minResponseSize + fieldClientIdSize + Client.publicKeySize

def messageTypeRequestSymKey : Nat := 1
def messageTypeSendSymKey : Nat := 2
def messageTypeSendTxt : Nat := 3
def messageTypeSendFile : Nat := 4

def supportedMessageTypes : List Nat :=
  [messageTypeRequestSymKey, messageTypeSendSymKey, messageTypeSendTxt, messageTypeSendFile]

structure Message where
  clientId : Bytes
  messageType : Nat
  contentSize : Nat
  messageContent : Bytes
  deriving DecidableEq, Repr

def minMessageSize : Nat := 21

def Message.isMsgTypeValid (msgType : Nat) : Bool := supportedMessageTypes.any (msgType == ·)

def Message.setContent (m : Message) (content : Bytes) : Except Thrown Message :=
  if m.messageType = messageTypeRequestSymKey then
    .error (.logicError "Message: can't send content for pub key msg")
  else .ok { m with messageContent := content, contentSize := content.length }

def Message.ofType (id : Bytes) (type : Nat) : Except Thrown Message :=
  if !isMsgTypeValid type then .error (.invalidArgument "Message(): invalid message type")
  else .ok ⟨id, type, 0, []⟩

def Message.ofContent (id : Bytes) (type : Nat) (content : Bytes) : Except Thrown Message :=
  if !isMsgTypeValid type then .error (.invalidArgument "Message(): invalid message type")
  else Message.setContent ⟨id, type, 0, []⟩ content

/-- How an operation ends. It is indeterminate once a field is used that the
    Response constructor left unset. -/
inductive Ending where
  | returned
  | errorResponse
  | payloadTooBig
  | threw (e : Thrown)
  | indeterminate
  deriving DecidableEq, Repr

def overwrite (buffer data : Bytes) : Bytes := data ++ buffer.drop data.length

def byteswapUlong (n : Nat) : Nat := fromBigEndian (littleEndian 4 n)

/-! Fetching messages. -/

def minMsgResponseSize : Nat := 25

structure FetchRun where
  handled : List Message
  ending : Ending
  rest : Socket
  deriving DecidableEq, Repr

def FetchRun.handleMsg (msg : Message) (run : FetchRun) : FetchRun :=
  { run with handled := msg :: run.handled }

def recvFailed (rest : Socket) : FetchRun :=
  ⟨[], .threw (.runtimeError "Failed to recv data"), rest⟩

/-- The loop of _fetch_massages. `result` is the count of the latest read; a
    message without content adds the count of its header once more. -/
def fetchMassages (msgsDataSize received : Nat) (buffer : Bytes) (sock : Socket) : FetchRun :=
  if received < msgsDataSize then
    match recv minMsgResponseSize sock with
    | (.reset, rest) => recvFailed rest
    | (.data data, rest) =>
      let result := data.length
      if _ : result = 0 then recvFailed rest
      else
        let buffer := overwrite buffer data
        let clientId := buffer.take fieldClientIdSize
        let msgType := (buffer.getD 20 0).toNat
        let contentSize := byteswapUlong (fromLittleEndian (slice buffer 21 25))
        if Client.maxPayloadSize < contentSize then
          ⟨[], .threw (.runtimeError "MSG content to big!"), rest⟩
        else if 0 < contentSize then
          match recv contentSize rest with
          | (.reset, rest) => recvFailed rest
          | (.data content, rest) =>
            if content.length = 0 then recvFailed rest
            else
              match Message.ofContent clientId msgType content with
              | .error e => ⟨[], .threw e, rest⟩
              | .ok msg => (fetchMassages msgsDataSize (received + result + content.length)
                  buffer rest).handleMsg msg
        else
          match Message.ofType clientId msgType with
          | .error e => ⟨[], .threw e, rest⟩
          | .ok msg => (fetchMassages msgsDataSize (received + result + result)
              buffer rest).handleMsg msg
  else ⟨[], .returned, sock⟩
termination_by msgsDataSize - received
decreasing_by
  all_goals omega

theorem fetch_ends (msgsDataSize received : Nat) (buffer : Bytes) (sock : Socket) :
    (fetchMassages msgsDataSize received buffer sock).ending = .returned ∨
      ∃ e, (fetchMassages msgsDataSize received buffer sock).ending = .threw e := by
  fun_induction fetchMassages msgsDataSize received buffer sock <;>
    simp_all [recvFailed, FetchRun.handleMsg]

/-! The common start of both operations. -/

inductive Headed where
  | ended (how : Ending) (rest : Socket)
  | sized (payloadSize : Nat) (rest : Socket)
  deriving DecidableEq, Repr

def receiveHeader (name : String) (requestCode : Nat) (clientId : Bytes) (sends : Bool)
    (beyond : Nat) (sock : Socket) : Option Bytes × Headed :=
  match ClientRequest.ofCode clientId requestCode with
  | .error e => (none, .ended (.threw e) sock)
  | .ok request =>
    let dataToSend := request.buildRequest.2
    if !sends then
      (none, .ended (.threw (.runtimeError (name ++ ": Failed to send data"))) sock)
    else
      match recv minResponseSize sock with
      | (.reset, rest) =>
        (some dataToSend, .ended (.threw (.runtimeError (name ++ ": Failed to recv data"))) rest)
      | (.data data, rest) =>
        if data.length = 0 then
          (some dataToSend, .ended (.threw (.runtimeError (name ++ ": Failed to recv data"))) rest)
        else
          let resp := ClientResponse.ofData beyond data
          match resp.responseCode with
          | none => (some dataToSend, .ended .indeterminate rest)
          | some code =>
            if code = codeError then (some dataToSend, .ended .errorResponse rest)
            else
              match resp.payloadSize with
              | none => (some dataToSend, .ended .indeterminate rest)
              | some size =>
                if Client.maxPayloadSize < size then (some dataToSend, .ended .payloadTooBig rest)
                else (some dataToSend, .sized size rest)

theorem unsent_header (name : String) (code : Nat) (clientId : Bytes) (beyond : Nat)
    (sock : Socket) : (receiveHeader name code clientId false beyond sock).1 = none := by
  unfold receiveHeader
  split <;> rfl

theorem header_request_sent (name : String) {code : Nat} {clientId : Bytes}
    {request : ClientRequest} (made : ClientRequest.ofCode clientId code = .ok request)
    (beyond : Nat) (sock : Socket) :
    (receiveHeader name code clientId true beyond sock).1 = some request.buildRequest.2 := by
  unfold receiveHeader
  rw [made]
  dsimp only
  rw [if_neg (by simp)]
  split
  · rfl
  · split
    · rfl
    · split
      · rfl
      · split
        · rfl
        · split
          · rfl
          · split <;> rfl

def FetchMsgOperation.doOperation (clientId : Bytes) (sends : Bool) (beyond : Nat)
    (buffer : Bytes) (sock : Socket) : FetchRun :=
  match (receiveHeader "FetchMsgOperation" codeFetchMessages clientId sends beyond sock).2 with
  | .ended how rest => ⟨[], how, rest⟩
  | .sized size rest => fetchMassages size 0 buffer rest

/-! Listing users. -/

structure Contact where
  name : Bytes
  id : Bytes
  pubKey : Bytes
  symmKey : Bytes
  deriving DecidableEq, Repr

def Client.isKnownContact (contacts : List Contact) (id : Bytes) : Bool :=
  contacts.any (·.id == id)

/-- The loop of ListUserOperation, seven bytes at a time. -/
def receiveContacts (payloadSize received : Nat) (respData : Bytes) (sock : Socket) :
    Except Thrown Bytes × Socket :=
  if received < payloadSize then
    match recv minResponseSize sock with
    | (.reset, rest) => (.error (.runtimeError "ListUser Operation: Failed to recv data"), rest)
    | (.data data, rest) =>
      if _ : data.length = 0 then
        (.error (.runtimeError "ListUser Operation: Failed to recv data"), rest)
      else receiveContacts payloadSize (received + data.length) (respData ++ data) rest
  else (.ok respData, sock)
termination_by payloadSize - received
decreasing_by omega

def pairSize : Nat := Client.nameSize + fieldClientIdSize

/-- The name ends at its first zero byte, npos being past every name; only an
    unknown id is added. -/
def addContact (contacts : List Contact) (pair : Bytes) : List Contact :=
  let contactId := pair.take fieldClientIdSize
  let tempName := pair.drop fieldClientIdSize
  let delimiter := (tempName.findIdx? (· == 0)).getD Client.nameSize
  if !Client.isKnownContact contacts contactId then
    contacts ++ [⟨tempName.take delimiter, contactId, [], []⟩]
  else contacts

def addContacts (contacts : List Contact) (payload : Bytes) : List Contact :=
  (List.range (payload.length / pairSize)).foldl
    (fun contacts i => addContact contacts (slice payload (pairSize * i) (pairSize * i + pairSize)))
    contacts

structure ListRun where
  contacts : List Contact
  ending : Ending
  rest : Socket
  deriving DecidableEq, Repr

def ListUserOperation.doOperation (contacts : List Contact) (clientId : Bytes) (sends : Bool)
    (beyond : Nat) (sock : Socket) : ListRun :=
  match (receiveHeader "ListUser Operation" codeListClients clientId sends beyond sock).2 with
  | .ended how rest => ⟨contacts, how, rest⟩
  | .sized size rest =>
    match receiveContacts size 0 [] rest with
    | (.error e, rest) => ⟨contacts, .threw e, rest⟩
    | (.ok respData, rest) => ⟨addContacts contacts respData, .returned, rest⟩

/-! A response whose header comes whole. -/

def headed (code size : Nat) (rest : Socket) : Headed :=
  if code = codeError then .ended .errorResponse rest
  else if Client.maxPayloadSize < size then .ended .payloadTooBig rest
  else .sized size rest

theorem header_taken (name : String) (requestCode : Nat) {clientId : Bytes}
    (some_id : clientId ≠ []) (beyond : Nat) {code size : Nat}
    (supported : code ∈ supportedResponses) (fits : size < 2 ^ 32) {sock rest : Socket}
    (read : recv 7 sock = (.data (responseHeader supportedVersion code size), rest)) :
    (receiveHeader name requestCode clientId true beyond sock).2 = headed code size rest := by
  have parsed := response_read beyond supported fits []
  rw [List.append_nil] at parsed
  have code_read : (ClientResponse.ofData beyond
      (responseHeader supportedVersion code size)).responseCode = some code := by
    rw [parsed]
    split <;> rfl
  have size_read : (ClientResponse.ofData beyond
      (responseHeader supportedVersion code size)).payloadSize = some size := by
    rw [parsed]
    split <;> rfl
  simp only [receiveHeader, ClientRequest.ofCode, List.isEmpty_iff, some_id, ↓reduceIte,
    Bool.not_true, Bool.false_eq_true, minResponseSize, read, response_header_length,
    OfNat.ofNat_ne_zero, code_read, size_read, headed]
  split
  · rfl
  · split <;> rfl

end ClientReception
