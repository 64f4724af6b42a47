import MessageU.ClientCredentials

/- The seven operations of the client, each from its constructor to the end of
   do_operation. What is typed at the terminal is an argument. The environment says
   what the operation meets: whether the request can be sent and me.info opened,
   what lies behind the table of response codes and in the receive buffer, and the
   bytes that arrive. -/
namespace ClientOperations
open ByteFields SegmentedStream RequestFormat ResponseFormat ClientReception ClientCredentials

structure Environment where
  sends : Bool
  opens : Bool
  beyond : Nat
  buffer : Bytes
  sock : Socket
  deriving DecidableEq, Repr

inductive OperationEnd where
  | alreadyRegistered
  | unknownContact
  | ended (how : Ending)
  deriving DecidableEq, Repr

/-- `request` is the last Request made, also when it is then not sent. -/
structure OperationRun where
  client : Client
  request : Option ClientRequest
  sent : Option Bytes
  handled : List Message
  how : OperationEnd
  deriving DecidableEq, Repr

inductive Operation where
  | register (name : Bytes)
  | listUsers
  | getPublicKey (destination : Bytes)
  | fetchMessages
  | sendText (destination text : Bytes)
  | getSymmKey (destination : Bytes)
  | sendSymKey (destination : Bytes)
  deriving DecidableEq, Repr

def stopped (c : Client) (how : OperationEnd) : OperationRun := ⟨c, none, none, [], how⟩

/-- One send and one recv; zero bytes are a closed connection. -/
def exchange (name : String) (request : ClientRequest) (responseSize : Nat) (env : Environment) :
    Option Bytes × Except Thrown Bytes :=
  let dataToSend := request.buildRequest.2
  if !env.sends then (none, .error (.runtimeError (name ++ ": Failed to send data")))
  else
    match recv responseSize env.sock with
    | (.reset, _) => (some dataToSend, .error (.runtimeError (name ++ ": Failed to recv data")))
    | (.data data, _) =>
      if data.length = 0 then
        (some dataToSend, .error (.runtimeError (name ++ ": Failed to recv data")))
      else (some dataToSend, .ok data)

/-- `CODE_ERROR == code`, and where the operation asks for it `|| !valid`. The constructor
    may have left the code unset, and it is compared first all the same: it reads as `found`,
    or, where nothing is known of it, the answer is open unless both its values give it. -/
def refuses (found : Option Nat) (checksValid : Bool) (resp : ClientResponse) : Option Bool :=
  match resp.responseCode.or found with
  | some code => some (decide (code = codeError) || (checksValid && !resp.isValid))
  | none => if checksValid && !resp.isValid then some true else none

def responseEndingFinding (found : Option Nat) (checksValid : Bool) (responseSize beyond : Nat) :
    Except Thrown Bytes → Ending
  | .error e => .threw e
  | .ok data =>
    match refuses found checksValid (ClientResponse.ofData beyond data) with
    | none => .indeterminate
    | some true => .errorResponse
    | some false =>
      if responseSize ≠ data.length then
        .threw (.runtimeError "Received invalid response from server!")
      else .returned

def responseEnding : Bool → Nat → Nat → Except Thrown Bytes → Ending :=
  responseEndingFinding none

/-! Registration. -/

def fillingByte : Byte := 0x11
def paddingByte : Nat := 0

def filled (size : Nat) (text : Bytes) : Bytes :=
  text ++ List.replicate (size - text.length) fillingByte

/-- insert puts PADDING_BYTE, that is no, copies of the padding size behind the name. -/
def RegisterOperation.createPayload (name publicKey : Bytes) : Bytes :=
  let paddingSize : Nat := if name.length ≠ Client.nameSize then 1 else 0
  name ++ List.replicate paddingByte (UInt8.ofNat paddingSize) ++ publicKey

def RegisterOperation.responseSize : Nat := minResponseSize + fieldClientIdSize

def RegisterOperation.doOperationFinding (found : Option Nat) (save : Client → Client) (c : Client)
    (typed : Bytes) (env : Environment) : OperationRun :=
  let publicKey := filled Client.publicKeySize Client.getPubKey
  if Client.isClientRegistered c.meInfo then stopped c .alreadyRegistered
  else
    let c := { c with name := typed }
    match ClientRequest.ofPayload c.id codeRegister
        (createPayload (filled Client.nameSize typed) publicKey) with
    | .error e => stopped c (.ended (.threw e))
    | .ok request =>
      let (sent, received) := exchange "Register Operation" request responseSize env
      match received with
      | .error e => ⟨c, some request, sent, [], .ended (.threw e)⟩
      | .ok data =>
        let resp := ClientResponse.ofData env.beyond data
        match refuses found true resp with
        | none => ⟨c, some request, sent, [], .ended .indeterminate⟩
        | some true => ⟨c, some request, sent, [], .ended .errorResponse⟩
        | some false =>
          ⟨save { c with id := resp.payload }, some request, sent, [], .ended .returned⟩

def RegisterOperation.doOperation (c : Client) (typed : Bytes) (env : Environment) :
    OperationRun :=
  doOperationFinding none (Client.saveClientCreds · env.opens) c typed env

/-! The operations that read a header first. -/

def ListUserOperation.perform (c : Client) (env : Environment) : OperationRun :=
  match ClientRequest.ofCode c.id codeListClients with
  | .error e => stopped c (.ended (.threw e))
  | .ok request =>
    let sent := (receiveHeader "ListUser Operation" codeListClients c.id env.sends env.beyond
      env.sock).1
    let run := ListUserOperation.doOperation c.contacts c.id env.sends env.beyond env.sock
    ⟨{ c with contacts := run.contacts }, some request, sent, [], .ended run.ending⟩

def FetchMsgOperation.handleMsg (contacts : List Contact) (msg : Message) : List Contact :=
  if msg.messageType = messageTypeSendSymKey then
    Client.updateContactSymmKeyById contacts msg.clientId msg.messageContent
  else contacts

def FetchMsgOperation.perform (c : Client) (env : Environment) : OperationRun :=
  match ClientRequest.ofCode c.id codeFetchMessages with
  | .error e => stopped c (.ended (.threw e))
  | .ok request =>
    let sent := (receiveHeader "FetchMsgOperation" codeFetchMessages c.id env.sends env.beyond
      env.sock).1
    let run := FetchMsgOperation.doOperation c.id env.sends env.beyond env.buffer env.sock
    ⟨{ c with contacts := run.handled.foldl FetchMsgOperation.handleMsg c.contacts },
      some request, sent, run.handled, .ended run.ending⟩

/-! The public key of a contact. -/

def GetPublicKeyOperation.updateContact (contacts : List Contact) (rawData : Bytes) :
    List Contact :=
  forCopies contacts
    (setPubKey (rawData.take fieldClientIdSize) (rawData.drop fieldClientIdSize))

/-- _update_contact is handed the bytes from the start of the response header. -/
def GetPublicKeyOperation.doOperationFinding (found : Option Nat) (c : Client)
    (destination : Bytes) (env : Environment) : OperationRun :=
  let wanted := Client.getContactIdByName c.contacts destination
  if wanted.length ≠ fieldClientIdSize then stopped c .unknownContact
  else
    match ClientRequest.ofPayload c.id codeFetchPublicKey wanted with
    | .error e => stopped c (.ended (.threw e))
    | .ok request =>
      let (sent, received) :=
        exchange "GetPublicKey Operation" request GetPublicKeyOperation.responseSize env
      let how :=
        responseEndingFinding found true GetPublicKeyOperation.responseSize env.beyond received
      match how, received with
      | .returned, .ok data =>
        let rawData := data.take (fieldClientIdSize + Client.publicKeySize)
        ⟨{ c with contacts := updateContact c.contacts rawData }, some request, sent, [],
          .ended how⟩
      | _, _ => ⟨c, some request, sent, [], .ended how⟩

def GetPublicKeyOperation.doOperation (c : Client) (destination : Bytes) (env : Environment) :
    OperationRun :=
  doOperationFinding none c destination env

/-! The operations that send a message. -/

def symmetricKeySize : Nat := 64

def sentResponseSize : Nat := minResponseSize + fieldClientIdSize + 4

def Message.buildMsg (m : Message) (rawMessage : Bytes) : Bytes :=
  rawMessage ++ (m.clientId ++ ([UInt8.ofNat m.messageType] ++
    ([UInt8.ofNat (m.contentSize >>> 24), UInt8.ofNat (m.contentSize >>> 16),
      UInt8.ofNat (m.contentSize >>> 8), UInt8.ofNat m.contentSize] ++ m.messageContent)))

def sendRequestFinding (found : Option Nat) (name : String) (checksValid : Bool) (c : Client)
    (request : ClientRequest) (env : Environment) : OperationRun :=
  let (sent, received) := exchange name request sentResponseSize env
  ⟨c, some request, sent, [],
    .ended (responseEndingFinding found checksValid sentResponseSize env.beyond received)⟩

def sendRequest : String → Bool → Client → ClientRequest → Environment → OperationRun :=
  sendRequestFinding none

/-- The request is made before the contact is found to be unknown. -/
def GetSymmKeyOperation.doOperation (c : Client) (destination : Bytes) (env : Environment) :
    OperationRun :=
  let wanted := Client.getContactIdByName c.contacts destination
  match Message.ofType wanted messageTypeRequestSymKey with
  | .error e => stopped c (.ended (.threw e))
  | .ok msg =>
    match ClientRequest.ofPayload c.id codeSendMsg (Message.buildMsg msg []) with
    | .error e => stopped c (.ended (.threw e))
    | .ok request =>
      if wanted.length ≠ fieldClientIdSize then
        { stopped c .unknownContact with request := some request }
      else sendRequest "GetSymmKey Operation" false c request env

def sendContentFinding (found : Option Nat) (name : String) (checksValid : Bool) (type : Nat)
    (c : Client) (destination content : Bytes) (env : Environment) : OperationRun :=
  let wanted := Client.getContactIdByName c.contacts destination
  if wanted.length ≠ fieldClientIdSize then stopped c .unknownContact
  else
    match Message.ofContent wanted type content with
    | .error e => stopped c (.ended (.threw e))
    | .ok msg =>
      match ClientRequest.ofPayload c.id codeSendMsg (Message.buildMsg msg []) with
      | .error e => stopped c (.ended (.threw e))
      | .ok request => sendRequestFinding found name checksValid c request env

def sendContent : String → Bool → Nat → Client → Bytes → Bytes → Environment → OperationRun :=
  sendContentFinding none

def SendSymKeyOperation.doOperation (c : Client) (destination : Bytes) (env : Environment) :
    OperationRun :=
  sendContent "SendSymKey Operation" false messageTypeSendSymKey c destination
    (List.replicate symmetricKeySize 0x44) env

def SendTxtOperation.doOperation (c : Client) (destination text : Bytes) (env : Environment) :
    OperationRun :=
  sendContent "SendTxt Operation" true messageTypeSendTxt c destination text env

def perform (c : Client) (op : Operation) (env : Environment) : OperationRun :=
  match op with
  | .register name => RegisterOperation.doOperation c name env
  | .listUsers => ListUserOperation.perform c env
  | .getPublicKey destination => GetPublicKeyOperation.doOperation c destination env
  | .fetchMessages => FetchMsgOperation.perform c env
  | .sendText destination text => SendTxtOperation.doOperation c destination text env
  | .getSymmKey destination => GetSymmKeyOperation.doOperation c destination env
  | .sendSymKey destination => SendSymKeyOperation.doOperation c destination env

/-- An operation that asks whether the response is valid, with what the code holds when the
    constructor has not set it. -/
def performFinding (found : Nat) (c : Client) (op : Operation) (env : Environment) :
    OperationRun :=
  match op with
  | .register name =>
    RegisterOperation.doOperationFinding (some found) (Client.saveClientCreds · env.opens) c name
      env
  | .getPublicKey destination =>
    GetPublicKeyOperation.doOperationFinding (some found) c destination env
  | .sendText destination text =>
    sendContentFinding (some found) "SendTxt Operation" true messageTypeSendTxt c destination text
      env
  | _ => perform c op env

/-! When a response is refused. -/

theorem refuses_set {resp : ClientResponse} {code : Nat} (set : resp.responseCode = some code)
    (found : Option Nat) (checksValid : Bool) :
    refuses found checksValid resp =
      some (decide (code = codeError) || (checksValid && !resp.isValid)) := by
  rw [refuses, set]
  rfl

theorem accepted_valid {found : Option Nat} {resp : ClientResponse}
    (accepted : refuses found true resp = some false) :
    resp.isValid = true ∧ resp.responseCode ≠ some codeError := by
  unfold refuses at accepted
  split at accepted
  · rename_i code known
    simp only [Bool.true_and, Option.some.injEq, Bool.or_eq_false_iff, decide_eq_false_iff_not,
      Bool.not_eq_false'] at accepted
    refine ⟨accepted.2, fun error => accepted.1 ?_⟩
    rw [error] at known
    exact (Option.some.inj known).symm
  · split at accepted <;> cases accepted

/-- A response with an unset code is not valid, so where that is asked for the answer does
    not depend on what the code reads as. -/
theorem refuses_checked (found : Option Nat) (beyond : Nat) (data : Bytes) :
    refuses found true (ClientResponse.ofData beyond data) =
      refuses none true (ClientResponse.ofData beyond data) := by
  cases set : (ClientResponse.ofData beyond data).responseCode with
  | some code => rw [refuses_set set, refuses_set set]
  | none =>
    have invalid : (ClientResponse.ofData beyond data).isValid = false :=
      Bool.eq_false_iff.mpr fun valid => valid_code_set valid set
    cases found <;> simp [refuses, set, invalid]

theorem refuses_determined {checksValid : Bool} {beyond : Nat} {data : Bytes}
    (set : checksValid = true ∨ (ClientResponse.ofData beyond data).responseCode ≠ none) :
    refuses none checksValid (ClientResponse.ofData beyond data) ≠ none := by
  cases read : (ClientResponse.ofData beyond data).responseCode with
  | some code =>
    rw [refuses_set read]
    exact Option.some_ne_none _
  | none =>
    have checked : checksValid = true := set.resolve_right fun some_code => some_code read
    have invalid : (ClientResponse.ofData beyond data).isValid = false :=
      Bool.eq_false_iff.mpr fun valid => valid_code_set valid read
    simp [refuses, read, invalid, checked]

/-! What an operation sends, and what it leaves alone. -/

theorem exchange_sent {name : String} {request : ClientRequest} {responseSize : Nat}
    {env : Environment} {raw : Bytes}
    (sent : (exchange name request responseSize env).1 = some raw) :
    raw = request.buildRequest.2 := by
  simp only [exchange] at sent
  split at sent
  · cases sent
  · split at sent
    · exact (Option.some.inj sent).symm
    · split at sent
      · exact (Option.some.inj sent).symm
      · exact (Option.some.inj sent).symm

theorem exchange_sends (name : String) (request : ClientRequest) (responseSize : Nat)
    {env : Environment} (sends : env.sends = true) :
    (exchange name request responseSize env).1 = some request.buildRequest.2 := by
  simp only [exchange, sends, Bool.not_true, Bool.false_eq_true, ↓reduceIte]
  split
  · rfl
  · split <;> rfl

theorem exchange_received {name : String} {request : ClientRequest} {responseSize : Nat}
    {env : Environment} {data : Bytes}
    (received : (exchange name request responseSize env).2 = .ok data) :
    ∃ rest, recv responseSize env.sock = (.data data, rest) := by
  simp only [exchange] at received
  split at received
  · cases received
  · split at received
    · cases received
    · rename_i bs rest read
      split at received
      · cases received
      · rw [read]
        exact ⟨rest, by rw [Except.ok.inj received]⟩

theorem exchange_answered (name : String) (request : ClientRequest) {responseSize : Nat}
    {env : Environment} (sends : env.sends = true) {data : Bytes} {rest : Socket}
    (read : recv responseSize env.sock = (.data data, rest)) (something : data ≠ []) :
    exchange name request responseSize env = (some request.buildRequest.2, .ok data) := by
  have some_data : ¬ data.length = 0 := by simpa using something
  simp [exchange, sends, read, some_data]

theorem whole_response_ending (checksValid : Bool) (beyond : Nat) {code : Nat}
    (supported : code ∈ supportedResponses) (no_error : code ≠ codeError) {payload : Bytes}
    (fits : payload.length < 2 ^ 32) :
    responseEnding checksValid (7 + payload.length) beyond
      (.ok (responseHeader supportedVersion code payload.length ++ payload)) = .returned := by
  have parsed := response_read beyond supported fits payload
  have long : (responseHeader supportedVersion code payload.length ++ payload).length =
      7 + payload.length := by
    rw [List.length_append, response_header_length]
  rw [if_neg (not_not.mpr rfl)] at parsed
  have accepted : refuses none checksValid
      ⟨payload, some payload.length, some supportedVersion, some code, true⟩ = some false := by
    simp [refuses_set, no_error]
  simp only [responseEnding, responseEndingFinding, parsed, accepted, long, ne_eq, not_true,
    ↓reduceIte]

theorem returned_length {checksValid : Bool} {responseSize beyond : Nat} {data : Bytes}
    (returned : responseEnding checksValid responseSize beyond (.ok data) = .returned) :
    data.length = responseSize := by
  simp only [responseEnding, responseEndingFinding] at returned
  split at returned
  · cases returned
  · cases returned
  · split at returned
    · cases returned
    · rename_i whole
      exact (not_not.mp whole).symm

theorem header_sent {name : String} {code : Nat} {clientId : Bytes} {sends : Bool} {beyond : Nat}
    {sock : Socket} {request : ClientRequest}
    (made : ClientRequest.ofCode clientId code = .ok request)
    {raw : Bytes} (sent : (receiveHeader name code clientId sends beyond sock).1 = some raw) :
    raw = request.buildRequest.2 := by
  cases sends with
  | false =>
    rw [unsent_header] at sent
    cases sent
  | true =>
    rw [header_request_sent name made] at sent
    exact (Option.some.inj sent).symm

structure Requests (c : Client) (run : OperationRun) : Prop where
  fresh : ∀ r, run.request = some r → r.clientId = c.id ∧ r.rawRequest = []
  sent : ∀ raw, run.sent = some raw → ∃ r, run.request = some r ∧ raw = r.buildRequest.2

theorem stopped_requests (c d : Client) (how : OperationEnd) : Requests c (stopped d how) := by
  constructor
  · intro r impossible
    cases impossible
  · intro raw impossible
    cases impossible

theorem made_requests {c : Client} {request : ClientRequest}
    (fresh : request.clientId = c.id ∧ request.rawRequest = []) {sent : Option Bytes}
    (built : ∀ raw, sent = some raw → raw = request.buildRequest.2) (after : Client)
    (handled : List Message) (how : OperationEnd) :
    Requests c ⟨after, some request, sent, handled, how⟩ := by
  constructor
  · intro r same
    rw [← Option.some.inj same]
    exact fresh
  · intro raw put
    exact ⟨request, rfl, built raw put⟩

theorem payload_request_fresh {clientId payload : Bytes} {code : Nat} {r : ClientRequest}
    (made : ClientRequest.ofPayload clientId code payload = .ok r) :
    r.clientId = clientId ∧ r.rawRequest = [] := by
  rw [(of_payload_made made).1]
  exact ⟨rfl, rfl⟩

theorem code_request_fresh {clientId : Bytes} {code : Nat} {r : ClientRequest}
    (made : ClientRequest.ofCode clientId code = .ok r) :
    r.clientId = clientId ∧ r.rawRequest = [] := by
  rw [(of_code_made made).1]
  exact ⟨rfl, rfl⟩

section Requests
variable (c : Client) (env : Environment)

theorem register_requests (typed : Bytes) :
    Requests c (RegisterOperation.doOperation c typed env) := by
  unfold RegisterOperation.doOperation RegisterOperation.doOperationFinding
  dsimp only
  split
  · exact stopped_requests c _ _
  · split
    · exact stopped_requests c _ _
    · rename_i request made
      have fresh := payload_request_fresh made
      split
      · exact made_requests fresh (fun _ => exchange_sent) _ _ _
      · split <;> exact made_requests fresh (fun _ => exchange_sent) _ _ _

theorem list_requests : Requests c (ListUserOperation.perform c env) := by
  unfold ListUserOperation.perform
  split
  · exact stopped_requests c _ _
  · rename_i request made
    exact made_requests (code_request_fresh made) (fun _ => header_sent made) _ _ _

theorem fetch_requests : Requests c (FetchMsgOperation.perform c env) := by
  unfold FetchMsgOperation.perform
  split
  · exact stopped_requests c _ _
  · rename_i request made
    exact made_requests (code_request_fresh made) (fun _ => header_sent made) _ _ _

theorem pubkey_requests (destination : Bytes) :
    Requests c (GetPublicKeyOperation.doOperation c destination env) := by
  unfold GetPublicKeyOperation.doOperation GetPublicKeyOperation.doOperationFinding
  dsimp only
  split
  · exact stopped_requests c _ _
  · split
    · exact stopped_requests c _ _
    · rename_i request made
      have fresh := payload_request_fresh made
      split
      · exact made_requests fresh (fun _ => exchange_sent) _ _ _
      · exact made_requests fresh (fun _ => exchange_sent) _ _ _

theorem send_requests {name : String} {checksValid : Bool} {request : ClientRequest}
    (fresh : request.clientId = c.id ∧ request.rawRequest = []) :
    Requests c (sendRequest name checksValid c request env) :=
  made_requests fresh (fun _ => exchange_sent) _ _ _

theorem symm_key_requests (destination : Bytes) :
    Requests c (GetSymmKeyOperation.doOperation c destination env) := by
  unfold GetSymmKeyOperation.doOperation
  dsimp only
  split
  · exact stopped_requests c _ _
  · split
    · exact stopped_requests c _ _
    · rename_i request made
      have fresh := payload_request_fresh made
      split
      · apply made_requests fresh
        intro raw impossible
        cases impossible
      · exact send_requests c env fresh

theorem content_requests (name : String) (checksValid : Bool) (type : Nat)
    (destination content : Bytes) :
    Requests c (sendContent name checksValid type c destination content env) := by
  unfold sendContent sendContentFinding
  dsimp only
  split
  · exact stopped_requests c _ _
  · split
    · exact stopped_requests c _ _
    · split
      · exact stopped_requests c _ _
      · rename_i request made
        exact send_requests c env (payload_request_fresh made)

theorem perform_requests (op : Operation) : Requests c (perform c op env) := by
  cases op with
  | register name => exact register_requests c env name
  | listUsers => exact list_requests c env
  | getPublicKey destination => exact pubkey_requests c env destination
  | fetchMessages => exact fetch_requests c env
  | sendText destination text =>
    exact content_requests c env "SendTxt Operation" true messageTypeSendTxt destination text
  | getSymmKey destination => exact symm_key_requests c env destination
  | sendSymKey destination =>
    exact content_requests c env "SendSymKey Operation" false messageTypeSendSymKey destination _

end Requests

/-- A whole response with an accepted code that is not the error code. -/
def CompleteResponse (env : Environment) (responseSize : Nat) (payload : Bytes) : Prop :=
  ∃ data rest code, recv responseSize env.sock = (.data data, rest) ∧
    Parsed env.beyond data code payload ∧ code ≠ codeError

theorem registration_cases (save : Client → Client) (c : Client) (typed : Bytes)
    (env : Environment) :
    (Client.isClientRegistered c.meInfo = true ∧
      RegisterOperation.doOperationFinding none save c typed env = stopped c .alreadyRegistered) ∨
    Client.isClientRegistered c.meInfo = false ∧
      (RegisterOperation.doOperationFinding none save c typed env).handled = [] ∧
      (((RegisterOperation.doOperationFinding none save c typed env).client =
            { c with name := typed } ∧
          ∃ how, (RegisterOperation.doOperationFinding none save c typed env).how = .ended how ∧
            how ≠ .returned ∧ how ≠ .indeterminate) ∨
        ∃ payload, CompleteResponse env 23 payload ∧
          (RegisterOperation.doOperationFinding none save c typed env).client =
            save { c with name := typed, id := payload } ∧
          (RegisterOperation.doOperationFinding none save c typed env).how =
            .ended .returned) := by
  by_cases registered : Client.isClientRegistered c.meInfo = true
  · left
    refine ⟨registered, ?_⟩
    simp only [RegisterOperation.doOperationFinding, registered, ↓reduceIte]
  · right
    refine ⟨by simpa using registered, ?_⟩
    unfold RegisterOperation.doOperationFinding
    dsimp only
    rw [if_neg registered]
    split
    · exact ⟨rfl, Or.inl ⟨rfl, _, rfl, by simp, by simp⟩⟩
    · split
      · exact ⟨rfl, Or.inl ⟨rfl, _, rfl, by simp, by simp⟩⟩
      · rename_i data received
        split
        · rename_i open_still
          exact absurd open_still (refuses_determined (Or.inl rfl))
        · exact ⟨rfl, Or.inl ⟨rfl, _, rfl, by simp, by simp⟩⟩
        · rename_i accepted
          obtain ⟨valid, no_error⟩ := accepted_valid accepted
          obtain ⟨code, payload, parsed⟩ := valid_parsed env.beyond valid
          obtain ⟨rest, read⟩ := exchange_received received
          have object := parsed.object
          rw [object] at no_error ⊢
          refine ⟨rfl, Or.inr ⟨payload, ⟨data, rest, code, read, parsed, ?_⟩, rfl, rfl⟩⟩
          exact fun error => no_error (congrArg some error)

theorem register_cases (c : Client) (typed : Bytes) (env : Environment) :
    (Client.isClientRegistered c.meInfo = true ∧
      RegisterOperation.doOperation c typed env = stopped c .alreadyRegistered) ∨
    Client.isClientRegistered c.meInfo = false ∧
      (RegisterOperation.doOperation c typed env).handled = [] ∧
      (((RegisterOperation.doOperation c typed env).client = { c with name := typed } ∧
          ∃ how, (RegisterOperation.doOperation c typed env).how = .ended how ∧
            how ≠ .returned ∧ how ≠ .indeterminate) ∨
        ∃ payload, CompleteResponse env 23 payload ∧
          (RegisterOperation.doOperation c typed env).client =
            Client.saveClientCreds { c with name := typed, id := payload } env.opens ∧
          (RegisterOperation.doOperation c typed env).how = .ended .returned) :=
  registration_cases (Client.saveClientCreds · env.opens) c typed env

theorem handled_messages_keep (contacts : List Contact) (handled : List Message) :
    handled.foldl FetchMsgOperation.handleMsg contacts = contacts := by
  induction handled with
  | nil => rfl
  | cons msg rest ih =>
    have kept : FetchMsgOperation.handleMsg contacts msg = contacts := by
      unfold FetchMsgOperation.handleMsg Client.updateContactSymmKeyById
      split
      · exact copies_dropped contacts _
      · rfl
    rw [List.foldl_cons, kept, ih]

section Frame
variable (c : Client) (env : Environment)

theorem list_keeps : (ListUserOperation.perform c env).client =
      { c with contacts := (ListUserOperation.perform c env).client.contacts } ∧
    (ListUserOperation.perform c env).handled = [] := by
  unfold ListUserOperation.perform
  split <;> exact ⟨rfl, rfl⟩

theorem fetch_keeps : (FetchMsgOperation.perform c env).client = c := by
  unfold FetchMsgOperation.perform
  split
  · rfl
  · dsimp only
    rw [handled_messages_keep]

theorem pubkey_keeps (destination : Bytes) :
    (GetPublicKeyOperation.doOperation c destination env).client = c ∧
      (GetPublicKeyOperation.doOperation c destination env).handled = [] := by
  unfold GetPublicKeyOperation.doOperation GetPublicKeyOperation.doOperationFinding
  dsimp only [GetPublicKeyOperation.updateContact]
  split
  · exact ⟨rfl, rfl⟩
  · split
    · exact ⟨rfl, rfl⟩
    · split
      · rw [copies_dropped]
        exact ⟨rfl, rfl⟩
      · exact ⟨rfl, rfl⟩

theorem symm_key_keeps (destination : Bytes) :
    (GetSymmKeyOperation.doOperation c destination env).client = c ∧
      (GetSymmKeyOperation.doOperation c destination env).handled = [] := by
  unfold GetSymmKeyOperation.doOperation
  dsimp only
  split
  · exact ⟨rfl, rfl⟩
  · split
    · exact ⟨rfl, rfl⟩
    · split <;> exact ⟨rfl, rfl⟩

theorem content_keeps (name : String) (checksValid : Bool) (type : Nat)
    (destination content : Bytes) :
    (sendContent name checksValid type c destination content env).client = c ∧
      (sendContent name checksValid type c destination content env).handled = [] := by
  unfold sendContent sendContentFinding
  dsimp only
  split
  · exact ⟨rfl, rfl⟩
  · split
    · exact ⟨rfl, rfl⟩
    · split <;> exact ⟨rfl, rfl⟩

/-- Only a registration changes more than the contacts, only a listing changes the
    contacts and only a fetch hands messages on. -/
theorem perform_keeps (op : Operation) :
    (∃ typed, op = .register typed) ∨
    (op = .listUsers ∧ (perform c op env).client =
        { c with contacts := (perform c op env).client.contacts } ∧
      (perform c op env).handled = []) ∨
    (op = .fetchMessages ∧ (perform c op env).client = c) ∨
    (op ≠ .listUsers ∧ op ≠ .fetchMessages ∧ (perform c op env).client = c ∧
      (perform c op env).handled = []) := by
  cases op with
  | register typed => exact Or.inl ⟨typed, rfl⟩
  | listUsers => exact Or.inr (Or.inl ⟨rfl, list_keeps c env⟩)
  | fetchMessages => exact Or.inr (Or.inr (Or.inl ⟨rfl, fetch_keeps c env⟩))
  | getPublicKey destination =>
    exact Or.inr (Or.inr (Or.inr ⟨by simp, by simp, pubkey_keeps c env destination⟩))
  | sendText destination text =>
    exact Or.inr (Or.inr (Or.inr ⟨by simp, by simp,
      content_keeps c env "SendTxt Operation" true messageTypeSendTxt destination text⟩))
  | getSymmKey destination =>
    exact Or.inr (Or.inr (Or.inr ⟨by simp, by simp, symm_key_keeps c env destination⟩))
  | sendSymKey destination =>
    exact Or.inr (Or.inr (Or.inr ⟨by simp, by simp,
      content_keeps c env "SendSymKey Operation" false messageTypeSendSymKey destination _⟩))

end Frame

end ClientOperations
