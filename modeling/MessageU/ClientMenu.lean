import MessageU.ReceiveBuffers
import MessageU.TextLimits

/- Client::start as a machine. A step is one turn of a loop: a line read from the input, a
   record received from the server, or what happens between two loops. The input is
   finite; the server answers for ever, each recv as it likes. -/
namespace ClientMenu
open ByteFields SegmentedStream RequestFormat ResponseFormat ClientReception ClientCredentials
open ClientOperations ReceiveBuffers TextLimits

def opExit : Nat := 0
def opRegister : Nat := 10
def opClientList : Nat := 20
def opPublicKeyRequest : Nat := 30
def opFetchMessages : Nat := 40
def opSendMessage : Nat := 50
def opGetSymKey : Nat := 51
def opSendSymKey : Nat := 52

/-! The loops of the terminal. -/

inductive Destined where
  | getPublicKey
  | sendText
  | getSymmKey
  | sendSymKey
  deriving DecidableEq, Repr

/-- get_operation_num, get_client_name, get_destination_name and get_txt_msg. -/
inductive Question where
  | operationNum
  | clientName
  | destinationName (op : Destined)
  | txtMsg (destination : Bytes)
  deriving DecidableEq, Repr

def Question.refuses : Question → Bytes → Bool
  | .operationNum, opNumber => 2 < opNumber.length || opNumber.length == 0
  | .clientName, inputName => Client.nameSize < inputName.length
  | .destinationName _, inputName => Client.nameSize < inputName.length
  | .txtMsg _, text => Client.maxPayloadSize - minMessageSize < text.length

def decimals (acc : Nat) : Bytes → Nat
  | [] => acc
  | c :: cs => if 0x30 ≤ c && c ≤ 0x39 then decimals (10 * acc + (c.toNat - 0x30)) cs else acc

/-- strtoul(_, NULL, 10) as a uint16_t. -/
def strtoulDecimal (text : Bytes) : Nat :=
  match text.dropWhile isSpace with
  | 0x2d :: rest => (2 ^ 32 - decimals 0 rest) % 2 ^ 16
  | 0x2b :: rest => decimals 0 rest % 2 ^ 16
  | rest => decimals 0 rest % 2 ^ 16

/-- A single character is followed by a '0'. -/
def Terminal.operationNumber (opNumber : Bytes) : Nat :=
  strtoulDecimal (if opNumber.length = 1 then opNumber ++ [0x30] else opNumber)

/-! The loops that receive, one turn each, from any kind of server. -/

section Turns
variable {Server : Type} (recvFrom : Nat → Server → Arrival × Server)

def ListUserOperation.turn (received : Nat) (respData : Bytes) (server : Server) :
    Except Thrown (Nat × Bytes) × Server :=
  match recvFrom minResponseSize server with
  | (.reset, rest) => (.error (.runtimeError "ListUser Operation: Failed to recv data"), rest)
  | (.data data, rest) =>
    if data.length = 0 then
      (.error (.runtimeError "ListUser Operation: Failed to recv data"), rest)
    else (.ok (received + data.length, respData ++ data), rest)

def FetchMsgOperation.turn (received : Nat) (buffer : Bytes) (server : Server) :
    Except Thrown (Message × Nat × Bytes) × Server :=
  match recvFrom minMsgResponseSize server with
  | (.reset, rest) => (.error (.runtimeError "Failed to recv data"), rest)
  | (.data data, rest) =>
    let result := data.length
    if result = 0 then (.error (.runtimeError "Failed to recv data"), rest)
    else
      let buffer := overwrite buffer data
      let clientId := buffer.take fieldClientIdSize
      let msgType := (buffer.getD 20 0).toNat
      let contentSize := byteswapUlong (fromLittleEndian (slice buffer 21 25))
      if Client.maxPayloadSize < contentSize then
        (.error (.runtimeError "MSG content to big!"), rest)
      else if 0 < contentSize then
        match recvFrom contentSize rest with
        | (.reset, rest) => (.error (.runtimeError "Failed to recv data"), rest)
        | (.data content, rest) =>
          if content.length = 0 then (.error (.runtimeError "Failed to recv data"), rest)
          else
            match Message.ofContent clientId msgType content with
            | .error e => (.error e, rest)
            | .ok msg => (.ok (msg, received + result + content.length, buffer), rest)
      else
        match Message.ofType clientId msgType with
        | .error e => (.error e, rest)
        | .ok msg => (.ok (msg, received + result + result, buffer), rest)

end Turns

section Loops
variable {received : Nat} {buffer : Bytes} {sock : Socket}

def receiveFrom (payloadSize : Nat) :
    Except Thrown (Nat × Bytes) × Socket → Except Thrown Bytes × Socket
  | (.error e, rest) => (.error e, rest)
  | (.ok (received, respData), rest) => receiveContacts payloadSize received respData rest

def fetchFrom (msgsDataSize : Nat) : Except Thrown (Message × Nat × Bytes) × Socket → FetchRun
  | (.error e, rest) => ⟨[], .threw e, rest⟩
  | (.ok (msg, received, buffer), rest) =>
    (fetchMassages msgsDataSize received buffer rest).handleMsg msg

theorem receive_turn {payloadSize : Nat} (more : received < payloadSize) :
    receiveContacts payloadSize received buffer sock =
      receiveFrom payloadSize (ListUserOperation.turn recv received buffer sock) := by
  rw [receiveContacts, if_pos more, ListUserOperation.turn]
  obtain ⟨arrival, rest⟩ := recv minResponseSize sock
  cases arrival with
  | reset => rfl
  | data data =>
    dsimp only
    by_cases nothing : data.length = 0
    · rw [dif_pos nothing, if_pos nothing]
      rfl
    · rw [dif_neg nothing, if_neg nothing]
      rfl

theorem fetch_turn {msgsDataSize : Nat} (more : received < msgsDataSize) :
    fetchMassages msgsDataSize received buffer sock =
      fetchFrom msgsDataSize (FetchMsgOperation.turn recv received buffer sock) := by
  rw [fetchMassages, if_pos more, FetchMsgOperation.turn]
  obtain ⟨arrival, rest⟩ := recv minMsgResponseSize sock
  cases arrival with
  | reset => rfl
  | data data =>
    dsimp only
    by_cases nothing : data.length = 0
    · rw [dif_pos nothing, if_pos nothing]
      rfl
    · rw [dif_neg nothing, if_neg nothing]
      generalize overwrite buffer data = buffer
      generalize byteswapUlong (fromLittleEndian (slice buffer 21 25)) = contentSize
      by_cases big : Client.maxPayloadSize < contentSize
      · rw [if_pos big, if_pos big]
        rfl
      · rw [if_neg big, if_neg big]
        by_cases full : 0 < contentSize
        · rw [if_pos full, if_pos full]
          obtain ⟨arrival, rest⟩ := recv contentSize rest
          cases arrival with
          | reset => rfl
          | data content =>
            dsimp only
            by_cases empty : content.length = 0
            · rw [if_pos empty, if_pos empty]
              rfl
            · rw [if_neg empty, if_neg empty]
              cases Message.ofContent (buffer.take fieldClientIdSize)
                  (buffer.getD 20 0).toNat content with
              | error e => rfl
              | ok msg => rfl
        · rw [if_neg full, if_neg full]
          cases Message.ofType (buffer.take fieldClientIdSize) (buffer.getD 20 0).toNat with
          | error e => rfl
          | ok msg => rfl

end Loops

/-! One pass through the menu. -/

/-- What the client meets on a connection. The k-th recv brings the k-th outcome, as far
    as it is asked for. -/
structure Visit where
  created : Bool
  connected : Bool
  sends : Bool
  opens : Bool
  beyond : Nat
  unset : Unset
  buffer : Bytes
  outcomes : Nat → Arrival

abbrev Outcomes := Nat → Arrival

def recvOutcome (asked : Nat) (outcomes : Outcomes) : Arrival × Outcomes :=
  ((recv asked [outcomes 0]).1, fun k => outcomes (k + 1))

inductive Point where
  | menu
  | asking (question : Question) (line : Bytes)
  | listing (payloadSize received : Nat) (respData : Bytes) (server : Outcomes)
  | fetching (msgsDataSize received : Nat) (buffer : Bytes) (server : Outcomes)
  | returned
  | threw (e : Thrown)

def Point.ended : Point → Bool
  | .returned => true
  | .threw _ => true
  | _ => false

def Point.receives : Point → Bool
  | .listing _ _ _ _ => true
  | .fetching _ _ _ _ => true
  | _ => false

def arrived : Arrival → Bytes
  | .data bs => bs
  | .reset => []

/-- An operation with one recv at most. A response code that was not set is what happens
    to be there. -/
def Visit.performed (v : Visit) (c : Client) (op : Operation) : Client × Point :=
  let run := perform c op ⟨v.sends, v.opens, v.beyond, v.buffer, [v.outcomes 0]⟩
  let point :=
    match run.how with
    | .ended (.threw e) => .threw e
    | .ended .indeterminate =>
      let data := arrived (recv sentResponseSize [v.outcomes 0]).1
      if v.unset.code = codeError then .menu
      else if sentResponseSize ≠ data.length then
        .threw (.runtimeError "Received invalid response from server!")
      else .menu
    | _ => .menu
  (run.client, point)

/-- An operation that reads a header first, up to its loop; here the size may be unset too. -/
def Visit.headed (v : Visit) (name : String) (requestCode : Nat) (clientId : Bytes)
    (loop : Nat → Outcomes → Point) : Point :=
  let server : Outcomes := fun k => v.outcomes (k + 1)
  match (receiveHeader name requestCode clientId v.sends v.beyond [v.outcomes 0]).2 with
  | .sized size _ => loop size server
  | .ended (.threw e) _ => .threw e
  | .ended .indeterminate _ =>
    let resp := ClientResponse.ofData v.beyond (arrived (recv minResponseSize [v.outcomes 0]).1)
    let size := resp.payloadSize.getD v.unset.size
    if resp.responseCode.getD v.unset.code = codeError then .menu
    else if Client.maxPayloadSize < size then .menu
    else loop size server
  | .ended _ _ => .menu

def Visit.createOperation (v : Visit) (c : Client) (opNum : Nat) : Point :=
  if opNum = opRegister then
    if Client.isClientRegistered c.meInfo then .menu else .asking .clientName []
  else if opNum = opClientList then
    v.headed "ListUser Operation" codeListClients c.id fun size server =>
      .listing size 0 [] server
  else if opNum = opPublicKeyRequest then .asking (.destinationName .getPublicKey) []
  else if opNum = opGetSymKey then .asking (.destinationName .getSymmKey) []
  else if opNum = opSendSymKey then .asking (.destinationName .sendSymKey) []
  else if opNum = opSendMessage then .asking (.destinationName .sendText) []
  else if opNum = opFetchMessages then
    v.headed "FetchMsgOperation" codeFetchMessages c.id fun size server =>
      .fetching size 0 v.buffer server
  else .menu

def Visit.answered (v : Visit) (c : Client) : Question → Bytes → Client × Point
  | .operationNum, opNumber =>
    let opNum := Terminal.operationNumber opNumber
    if opNum = opExit then (c, .returned) else (c, v.createOperation c opNum)
  | .clientName, name => v.performed c (.register name)
  | .destinationName .getPublicKey, name => v.performed c (.getPublicKey name)
  | .destinationName .getSymmKey, name => v.performed c (.getSymmKey name)
  | .destinationName .sendSymKey, name => v.performed c (.sendSymKey name)
  | .destinationName .sendText, name =>
    if (Client.getContactIdByName c.contacts name).length ≠ fieldClientIdSize then (c, .menu)
    else (c, .asking (.txtMsg name) [])
  | .txtMsg destination, text => v.performed c (.sendText destination text)

/-! The machine. -/

structure Session where
  client : Client
  stdin : Stdin
  visit : Visit
  later : Nat → Visit
  point : Point

def start (c : Client) (stdin : Stdin) (visits : Nat → Visit) : Session :=
  ⟨c, stdin, visits 0, visits, .menu⟩

def step (s : Session) : Session :=
  match s.point with
  | .menu =>
    let v := s.later 0
    let point :=
      if !v.created then .threw (.runtimeError "Failed to create socket")
      else if !v.connected then .threw (.runtimeError "Failed to connect to server")
      else .asking .operationNum []
    { s with visit := v, later := fun k => s.later (k + 1), point }
  | .asking question line =>
    let read := s.stdin.getline line
    if question.refuses read.1 then
      { s with stdin := read.2, point := .asking question read.1 }
    else
      let next := s.visit.answered s.client question read.1
      { s with client := next.1, stdin := read.2, point := next.2 }
  | .listing payloadSize received respData server =>
    if received < payloadSize then
      match ListUserOperation.turn recvOutcome received respData server with
      | (.error e, _) => { s with point := .threw e }
      | (.ok (received, respData), server) =>
        { s with point := .listing payloadSize received respData server }
    else
      { s with
        client := { s.client with contacts := addContacts s.client.contacts respData }
        point := .menu }
  | .fetching msgsDataSize received buffer server =>
    if received < msgsDataSize then
      match FetchMsgOperation.turn recvOutcome received buffer server with
      | (.error e, _) => { s with point := .threw e }
      | (.ok (msg, received, buffer), server) =>
        { s with
          client := { s.client with
            contacts := FetchMsgOperation.handleMsg s.client.contacts msg }
          point := .fetching msgsDataSize received buffer server }
    else { s with point := .menu }
  | .returned => s
  | .threw _ => s

end ClientMenu
