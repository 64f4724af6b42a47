import MessageU.ClientMenu
import MessageU.MailboxConservation
import MessageU.MessageFormat
import MessageU.RegisteredContacts

/- Clients, connections and the server together. Each user has one me.info and starts
   the client on it, again after every exit or exception. An operation is one
   connection: the bytes it sends, what the server makes of the part of them that
   arrives, and what the client makes of the part of the response that arrives.
   Connections are not removed, so that they are the history of the system. -/
namespace MessagingSystem
open ByteFields SegmentedStream GuardedRuns StatementPrograms RequestFormat ServerTables
open ResponseFormat RequestHandling ServerRuns ServerWorker HandlerOutcomes ClientReception
open ClientCredentials ClientOperations ClientMenu MessageFormat RegisteredContacts

/-- `client` is the client as it was when it sent `raw`. The exchange is there once a
    request has been handled, the reply once the worker has ended, and `handled` has
    what _handle_msg was called with. -/
structure Connection where
  owner : Nat
  client : Client
  op : Operation
  raw : Bytes
  exchange : Option Exchange
  reply : Option Bytes
  handled : List Message

inductive Process where
  | off (meInfo : Option Bytes)
  | idle (c : Client)
  | waiting (c : Client) (connection : Nat)

def Process.meInfo : Process → Option Bytes
  | .off meInfo => meInfo
  | .idle c => c.meInfo
  | .waiting c _ => c.meInfo

def Process.client : Process → Option Client
  | .off _ => none
  | .idle c => some c
  | .waiting c _ => some c

structure World where
  tables : Tables
  processes : Nat → Process
  connections : List Connection

def World.initial : World := ⟨emptyTables, fun _ => .off none, []⟩

inductive Move where
  | launch (u : Nat)
  | kill (u : Nat)
  | ask (u : Nat) (op : Operation) (env : Environment)
  | serve (k : Nat) (draws : Draws) (sock : Socket)
  | finish (u : Nat) (env : Environment)

def World.put (w : World) (u : Nat) (p : Process) : World :=
  { w with processes := Function.update w.processes u p }

def World.update (w : World) (k : Nat) (connection : Connection) : World :=
  { w with connections := w.connections.set k connection }

def Connection.refuse (k : Connection) (worker : WorkerRun) : Connection :=
  { k with reply := some worker.sent.flatten }

def Connection.answer (k : Connection) (worker : WorkerRun) (e : Exchange) : Connection :=
  { k with exchange := some e, reply := some (worker.answer e.result).sent.flatten }

def Connection.finish (k : Connection) (handled : List Message) : Connection :=
  { k with handled }

/-- An exception ends the process, and main returns. -/
def afterwards (run : OperationRun) : Process :=
  match run.how with
  | .ended (.threw _) => .off run.client.meInfo
  | _ => .idle run.client

def answers : Operation → List (Question × Bytes)
  | .register name => [(.clientName, name)]
  | .listUsers | .fetchMessages => []
  | .getPublicKey destination => [(.destinationName .getPublicKey, destination)]
  | .sendText destination text =>
    [(.destinationName .sendText, destination), (.txtMsg destination, text)]
  | .getSymmKey destination => [(.destinationName .getSymmKey, destination)]
  | .sendSymKey destination => [(.destinationName .sendSymKey, destination)]

def Typed (op : Operation) : Prop :=
  ∀ answer ∈ answers op, newline ∉ answer.2 ∧ answer.1.refuses answer.2 = false

instance (op : Operation) : Decidable (Typed op) :=
  inferInstanceAs (Decidable (∀ answer ∈ answers op, _))

/-- Any part of what was sent may arrive, in any pieces. An operation that does not
    come to its send leaves no connection behind, and one whose request was sent is
    finished by what arrives of the reply, also when there is none. It goes astray when
    it uses a field that was left unset: then a listing may leave any contacts, a fetch
    may have handed on any messages, and the process may have ended. -/
inductive World.Step (w : World) : Move → World → Prop where
  | launch {u : Nat} {meInfo : Option Bytes} {c : Client} (off : w.processes u = .off meInfo)
      (started : Client.init meInfo = .ok c) : w.Step (.launch u) (w.put u (.idle c))
  | kill (u : Nat) : w.Step (.kill u) (w.put u (.off (w.processes u).meInfo))
  | unsent {u : Nat} {c : Client} {op : Operation} {env : Environment}
      (idle : w.processes u = .idle c) (typed : Typed op)
      (silent : (perform c op env).sent = none) :
      w.Step (.ask u op env) (w.put u (afterwards (perform c op env)))
  | ask {u : Nat} {c : Client} {op : Operation} {env : Environment} {raw : Bytes}
      (idle : w.processes u = .idle c) (typed : Typed op)
      (sent : (perform c op env).sent = some raw) :
      w.Step (.ask u op env)
        { w.put u (.waiting c w.connections.length) with
          connections := w.connections ++ [⟨u, c, op, raw, none, none, []⟩] }
  | refuse {k : Nat} {there : Connection} {draws : Draws} {sock : Socket} {worker : WorkerRun}
      (here : w.connections[k]? = some there) (unserved : there.reply = none)
      (arrived : contents sock <+: there.raw) (refused : receiveRequest sock = (worker, none)) :
      w.Step (.serve k draws sock) (w.update k (there.refuse worker))
  | serve {k : Nat} {there : Connection} {draws : Draws} {sock : Socket} {worker : WorkerRun}
      {request : ServerRequest} (here : w.connections[k]? = some there)
      (unserved : there.reply = none) (arrived : contents sock <+: there.raw)
      (received : receiveRequest sock = (worker, some request)) :
      w.Step (.serve k draws sock)
        { w.update k
            (there.answer worker ⟨request, (run execute (handle draws request) w.tables).2⟩) with
          tables := (run execute (handle draws request) w.tables).1 }
  | finish {u k : Nat} {c : Client} {there : Connection} {env : Environment}
      (waits : w.processes u = .waiting c k) (here : w.connections[k]? = some there)
      (sends : env.sends = true) (arrived : contents env.sock <+: there.reply.getD [])
      (set : (perform c there.op env).how ≠ .ended .indeterminate) :
      w.Step (.finish u env)
        (World.put (w.update k (there.finish (perform c there.op env).handled)) u
          (afterwards (perform c there.op env)))
  | astray {u k : Nat} {c : Client} {there : Connection} {env : Environment}
      (waits : w.processes u = .waiting c k) (here : w.connections[k]? = some there)
      (sends : env.sends = true) (arrived : contents env.sock <+: there.reply.getD [])
      (unset : (perform c there.op env).how = .ended .indeterminate)
      {contacts : List Contact} {handled : List Message} {p : Process}
      (listing : there.op ≠ .listUsers → contacts = c.contacts)
      (fetching : there.op ≠ .fetchMessages → handled = [])
      (left : p = .idle { c with contacts } ∨ p = .off c.meInfo) :
      w.Step (.finish u env) (World.put (w.update k (there.finish handled)) u p)

def messaging : StepSystem World Move where
  start w := w = World.initial
  step := World.Step

theorem served_by_worker (draws : Draws) (sock : Socket) (t : Tables) :
    (∀ worker, receiveRequest sock = (worker, none) →
      run executeFaulty (workerHandleConnection draws sock) (t, []) = ((t, []), .ok worker)) ∧
    ∀ worker request, receiveRequest sock = (worker, some request) →
      run executeFaulty (workerHandleConnection draws sock) (t, []) =
        (((run execute (handle draws request) t).1, []),
          .ok (worker.answer (run execute (handle draws request) t).2)) := by
  have alone := run_worker draws sock t []
  constructor
  · intro worker refused
    rw [refused] at alone
    exact alone
  · intro worker request received
    rw [received] at alone
    simpa only [List.tail_nil, run_faultless] using alone

/-! What a connection carries. -/

def askedCode : Operation → Nat
  | .register _ => codeRegister
  | .listUsers => codeListClients
  | .getPublicKey _ => codeFetchPublicKey
  | .fetchMessages => codeFetchMessages
  | .sendText _ _ | .getSymmKey _ | .sendSymKey _ => codeSendMsg

def message (contacts : List Contact) : Operation → Option Message
  | .sendText destination text =>
    some ⟨Client.getContactIdByName contacts destination, messageTypeSendTxt, text.length, text⟩
  | .getSymmKey destination =>
    some ⟨Client.getContactIdByName contacts destination, messageTypeRequestSymKey, 0, []⟩
  | .sendSymKey destination =>
    some ⟨Client.getContactIdByName contacts destination, messageTypeSendSymKey, symmetricKeySize,
      List.replicate symmetricKeySize 0x44⟩
  | _ => none

def askedPayload (contacts : List Contact) : Operation → Bytes
  | .register name => registrationPayload name
  | .getPublicKey destination => Client.getContactIdByName contacts destination
  | .listUsers | .fetchMessages => []
  | op => ((message contacts op).map fun m =>
      messagePayload m.clientId m.messageType m.messageContent).getD []

theorem asked_code_supported (op : Operation) : askedCode op ∈ supportedCodes := by
  cases op <;> simp [askedCode, supportedCodes]

def asked (c : Client) (op : Operation) : ClientRequest :=
  ⟨c.id, askedCode op, supportedVersion, (askedPayload c.contacts op).length,
    askedPayload c.contacts op, []⟩

section Asked
variable {c : Client} {env : Environment} {r : ClientRequest}

theorem code_asked {code : Nat} (made : ClientRequest.ofCode c.id code = .ok r) :
    r = ⟨c.id, code, supportedVersion, 0, [], []⟩ := (of_code_made made).1

theorem content_asked {name : String} {checks : Bool} {type : Nat} {destination content : Bytes}
    (made : (sendContent name checks type c destination content env).request = some r) :
    let payload := messagePayload (Client.getContactIdByName c.contacts destination) type content
    r = ⟨c.id, codeSendMsg, supportedVersion, payload.length, payload, []⟩ := by
  intro payload
  unfold sendContent sendContentFinding at made
  dsimp only at made
  split at made
  · cases made
  · split at made
    · cases made
    · rename_i msg constructed
      have carried : msg.messageContent = content := by
        unfold Message.ofContent Message.setContent at constructed
        split at constructed
        · cases constructed
        · split at constructed
          · cases constructed
          · cases constructed
            rfl
      have bytes := built_payload (Or.inr ⟨content, constructed⟩)
      split at made
      · cases made
      · rename_i request built
        cases made
        rw [bytes, carried] at built
        exact (of_payload_made built).1

theorem symm_key_asked {destination : Bytes}
    (made : (GetSymmKeyOperation.doOperation c destination env).request = some r) :
    let payload := messagePayload (Client.getContactIdByName c.contacts destination)
      messageTypeRequestSymKey []
    r = ⟨c.id, codeSendMsg, supportedVersion, payload.length, payload, []⟩ := by
  intro payload
  unfold GetSymmKeyOperation.doOperation at made
  dsimp only at made
  split at made
  · cases made
  · rename_i msg constructed
    have bare : msg.messageContent = [] := by
      unfold Message.ofType at constructed
      split at constructed
      · cases constructed
      · cases constructed
        rfl
    have bytes := built_payload (Or.inl constructed)
    split at made
    · cases made
    · rename_i request built
      rw [bytes, bare] at built
      have object := (of_payload_made built).1
      split at made
      · cases made
        exact object
      · cases made
        exact object

theorem pubkey_asked {destination : Bytes}
    (made : (GetPublicKeyOperation.doOperation c destination env).request = some r) :
    let wanted := Client.getContactIdByName c.contacts destination
    r = ⟨c.id, codeFetchPublicKey, supportedVersion, wanted.length, wanted, []⟩ := by
  intro wanted
  unfold GetPublicKeyOperation.doOperation GetPublicKeyOperation.doOperationFinding at made
  dsimp only at made
  split at made
  · cases made
  · split at made
    · cases made
    · rename_i request built
      have object := (of_payload_made built).1
      split at made
      · cases made
        exact object
      · cases made
        exact object

/-- Whatever an operation requests is determined by the client and what was typed. -/
theorem request_asked {op : Operation} (made : (perform c op env).request = some r) :
    r = asked c op := by
  cases op with
  | register name => exact register_request made
  | listUsers =>
    simp only [perform, ListUserOperation.perform] at made
    split at made
    · cases made
    · rename_i request built
      cases made
      exact code_asked built
  | fetchMessages =>
    simp only [perform, FetchMsgOperation.perform] at made
    split at made
    · cases made
    · rename_i request built
      cases made
      exact code_asked built
  | getPublicKey destination => exact pubkey_asked made
  | sendText destination text => exact content_asked made
  | getSymmKey destination => exact symm_key_asked made
  | sendSymKey destination => exact content_asked made

end Asked

def requestFor (id : ClientId) (contacts : List Contact) (op : Operation) : ServerRequest :=
  requestOf id (askedCode op) (askedPayload contacts op)

theorem bytes_sent {c : Client} {id : ClientId} (own : c.id = id.bytes) {op : Operation}
    {env : Environment} {raw : Bytes} (sent : (perform c op env).sent = some raw) :
    raw = (requestFor id c.contacts op).rawData := by
  obtain ⟨request, made, built⟩ := (perform_requests c env op).sent raw sent
  rw [built, request_asked made, build_appends, asked, own]
  rfl

theorem slice_front (front later : Bytes) {start stop : Nat} (inside : stop ≤ front.length) :
    slice (front ++ later) start stop = slice front start stop := by
  rw [slice, slice, List.take_append_of_le_length inside]

theorem received_front {sock : Socket} {worker : WorkerRun} {request : ServerRequest}
    (received : receiveRequest sock = (worker, some request)) :
    request.rawData <+: contents sock ∧ accept request.rawData = some request := by
  rcases read : recv 23 sock with ⟨data | -, rest⟩
  · by_cases supported : SupportedHeader data
    · obtain ⟨long, whole⟩ := receive_request_accepted read supported
      rw [whole] at received
      have sound := (receive_payload_sound ((parseHeader data supported.1).payloadSize + 23) 23
        data rest).2
      cases loop : (receivePayload ((parseHeader data supported.1).payloadSize + 23) 23 data
        rest).2 with
      | none =>
        rw [loop] at received
        cases received
      | some bytes =>
        rw [loop] at received
        obtain ⟨later, joined, ahead⟩ := sound bytes loop
        by_cases fits : ((⟨parseHeader data supported.1, []⟩ :
            ServerRequest).decodePayload bytes).2 = true
        · rw [finish_accepted _ fits] at received
          cases received
          obtain ⟨enough, small, size⟩ := (decode_payload_accepts _ _).mp fits
          have front (start : Nat) {stop : Nat} (inside : stop ≤ 23) :
              slice bytes start stop = slice data start stop := by
            rw [joined]
            exact slice_front data later (by omega)
          have header : parseHeader bytes enough = parseHeader data supported.1 := by
            simp only [parseHeader, front _ (show 16 ≤ 23 by decide),
              front _ (show 17 ≤ 23 by decide), front _ (show 19 ≤ 23 by decide),
              front _ (show 23 ≤ 23 by decide)]
          constructor
          · show bytes <+: contents sock
            rw [joined, recv_contents read]
            exact (List.prefix_append_right_inj data).mpr ahead
          · refine (accept_some_iff bytes _).mpr ⟨enough, ⟨enough, ?_⟩, small, ?_, ?_⟩
            · rw [front _ (by decide), front _ (by decide), front _ (by decide)]
              exact supported.2
            · rw [front _ (by decide)]
              exact size.symm
            · rw [header]
        · rw [finish_refused _ fits] at received
          cases received
    · rw [receive_request_refused read supported] at received
      cases received
  · rw [receiveRequest, headerSize, read] at received
    cases received

/-- Only the request that was sent can be received, whatever part of it arrives. -/
theorem received_as_sent {id : ClientId} {code : Nat} {payload : Bytes}
    (supported : code ∈ supportedCodes) (small : 23 + payload.length ≤ 0x7fffffff)
    {sock : Socket} (arrived : contents sock <+: (requestOf id code payload).rawData)
    {worker : WorkerRun} {request : ServerRequest}
    (received : receiveRequest sock = (worker, some request)) :
    request = requestOf id code payload := by
  obtain ⟨front, accepted⟩ := received_front received
  obtain ⟨later, joined⟩ := front.trans arrived
  obtain ⟨enough, -, -, size, -⟩ := (accept_some_iff _ _).mp accepted
  have sent := accept_layout id payload supported small
  obtain ⟨-, -, -, sent_size, -⟩ := (accept_some_iff _ _).mp sent
  have same_field : slice (request.rawData ++ later) 19 23 = slice request.rawData 19 23 :=
    slice_front _ _ enough
  rw [joined] at same_field
  have same_length : request.rawData.length = (requestOf id code payload).rawData.length := by
    have long := congrArg List.length joined
    rw [List.length_append] at long
    have field : fromBigEndian (slice (requestOf id code payload).rawData 19 23) =
        (requestOf id code payload).rawData.length - 23 := sent_size
    rw [same_field, size] at field
    omega
  have nothing_later : later = [] := by
    have long := congrArg List.length joined
    rw [List.length_append] at long
    exact List.eq_nil_of_length_eq_zero (by omega)
  rw [nothing_later, List.append_nil] at joined
  rw [joined] at accepted
  exact Option.some.inj (accepted.symm.trans sent)

def destination : Operation → Option Bytes
  | .register _ | .listUsers | .fetchMessages => none
  | .getPublicKey name | .sendText name _ | .getSymmKey name | .sendSymKey name => some name

theorem content_sent_known {c : Client} {env : Environment} {name : String} {checks : Bool}
    {type : Nat} {typed content raw : Bytes}
    (sent : (sendContent name checks type c typed content env).sent = some raw) :
    (Client.getContactIdByName c.contacts typed).length = 16 := by
  unfold sendContent sendContentFinding at sent
  dsimp only at sent
  split at sent
  · cases sent
  · rename_i known
    exact not_not.mp known

theorem sent_known {c : Client} {op : Operation} {env : Environment} {raw : Bytes}
    (sent : (perform c op env).sent = some raw) {name : Bytes}
    (named : destination op = some name) :
    (Client.getContactIdByName c.contacts name).length = 16 := by
  cases op with
  | register _ => cases named
  | listUsers => cases named
  | fetchMessages => cases named
  | getPublicKey typed =>
    cases named
    simp only [perform, GetPublicKeyOperation.doOperation,
      GetPublicKeyOperation.doOperationFinding] at sent
    split at sent
    · cases sent
    · rename_i known
      exact not_not.mp known
  | sendText typed text =>
    cases named
    exact content_sent_known sent
  | getSymmKey typed =>
    cases named
    simp only [perform, GetSymmKeyOperation.doOperation] at sent
    split at sent
    · cases sent
    · split at sent
      · cases sent
      · split at sent
        · cases sent
        · rename_i known
          exact not_not.mp known
  | sendSymKey typed =>
    cases named
    exact content_sent_known sent

theorem typed_sizes {op : Operation} (typed : Typed op) :
    (∀ name, op = .register name → newline ∉ name ∧ name.length ≤ 255) ∧
      ∀ name text, op = .sendText name text → text.length ≤ 65515 := by
  constructor
  · rintro name rfl
    obtain ⟨one_line, taken⟩ := typed (.clientName, name) (by simp [answers])
    exact ⟨one_line, Nat.le_of_not_lt (of_decide_eq_false taken)⟩
  · rintro name text rfl
    obtain ⟨-, taken⟩ := typed (.txtMsg name, text) (by simp [answers])
    exact Nat.le_of_not_lt (of_decide_eq_false taken)

theorem message_content_bound {contacts : List Contact} {op : Operation} (typed : Typed op)
    {m : Message} (carries : message contacts op = some m) :
    m.messageContent.length ≤ 65515 ∧ m.messageType ∈ supportedMsgTypes ∧
      ∃ name, destination op = some name ∧
        m.clientId = Client.getContactIdByName contacts name := by
  cases op with
  | sendText name text =>
    cases carries
    have known : messageTypeSendTxt ∈ supportedMsgTypes := by decide
    exact ⟨(typed_sizes typed).2 name text rfl, known, name, rfl, rfl⟩
  | getSymmKey name =>
    cases carries
    have known : messageTypeRequestSymKey ∈ supportedMsgTypes := by decide
    exact ⟨Nat.zero_le _, known, name, rfl, rfl⟩
  | sendSymKey name =>
    cases carries
    have known : messageTypeSendSymKey ∈ supportedMsgTypes := by decide
    have short : (List.replicate symmetricKeySize (0x44 : Byte)).length ≤ 65515 := by decide
    exact ⟨short, known, name, rfl, rfl⟩
  | _ => cases carries

theorem asked_small {c : Client} {op : Operation} {env : Environment} {raw : Bytes}
    (typed : Typed op) (sent : (perform c op env).sent = some raw) :
    23 + (askedPayload c.contacts op).length ≤ 0x7fffffff := by
  have bounded (m : Message) (carries : message c.contacts op = some m) :
      (messagePayload m.clientId m.messageType m.messageContent).length ≤ 65536 := by
    obtain ⟨short, -, name, named, id⟩ := message_content_bound typed carries
    rw [message_length (by rw [id]; exact sent_known sent named)]
    omega
  cases op with
  | register name =>
    have size := registration_size ((typed_sizes typed).1 name rfl).2
    rw [show askedPayload c.contacts (.register name) = registrationPayload name from rfl, size]
    decide
  | listUsers => exact show 23 ≤ 0x7fffffff by decide
  | fetchMessages => exact show 23 ≤ 0x7fffffff by decide
  | getPublicKey name =>
    have size := sent_known sent (show destination (.getPublicKey name) = some name from rfl)
    rw [show askedPayload c.contacts (.getPublicKey name) =
      Client.getContactIdByName c.contacts name from rfl, size]
    decide
  | sendText name text => exact Nat.le_trans (Nat.add_le_add_left (bounded _ rfl) 23) (by decide)
  | getSymmKey name => exact Nat.le_trans (Nat.add_le_add_left (bounded _ rfl) 23) (by decide)
  | sendSymKey name => exact Nat.le_trans (Nat.add_le_add_left (bounded _ rfl) 23) (by decide)

/-! How operations leave the process. -/

theorem left_idle_or_off (run : OperationRun) :
    afterwards run = .idle run.client ∨
      (afterwards run = .off run.client.meInfo ∧ ∃ e, run.how = .ended (.threw e)) := by
  unfold afterwards
  split
  · rename_i e threw
    exact Or.inr ⟨rfl, e, threw⟩
  · exact Or.inl rfl

theorem exchange_unsent {name : String} {request : ClientRequest} {responseSize : Nat}
    {env : Environment} (silent : (exchange name request responseSize env).1 = none) :
    ∃ e, (exchange name request responseSize env).2 = .error e := by
  cases sends : env.sends with
  | false =>
    simp only [exchange, sends, Bool.not_false, ↓reduceIte]
    exact ⟨_, rfl⟩
  | true =>
    rw [exchange_sends name request responseSize sends] at silent
    cases silent

theorem header_unsent {name : String} {code : Nat} {clientId : Bytes} {sends : Bool}
    {beyond : Nat} {sock : Socket}
    (silent : (receiveHeader name code clientId sends beyond sock).1 = none) :
    ∃ e rest, (receiveHeader name code clientId sends beyond sock).2 = .ended (.threw e) rest := by
  cases made : ClientRequest.ofCode clientId code with
  | error e =>
    simp only [receiveHeader, made]
    exact ⟨_, _, rfl⟩
  | ok request =>
    cases sends with
    | true =>
      rw [header_request_sent name made] at silent
      cases silent
    | false =>
      simp only [receiveHeader, made, Bool.not_false, ↓reduceIte]
      exact ⟨_, _, rfl⟩

section Unsent
variable {c : Client} {env : Environment}

def Unchanged (c : Client) (run : OperationRun) : Prop :=
  afterwards run = .idle c ∨ afterwards run = .off c.meInfo

theorem kept_unchanged {run : OperationRun} (kept : run.client = c) : Unchanged c run := by
  rcases left_idle_or_off run with idle | ⟨off, -⟩
  · exact Or.inl (by rw [idle, kept])
  · exact Or.inr (by rw [off, kept])

theorem register_unsent {typed : Bytes}
    (silent : (RegisterOperation.doOperation c typed env).sent = none) :
    Unchanged c (RegisterOperation.doOperation c typed env) := by
  unfold RegisterOperation.doOperation RegisterOperation.doOperationFinding at silent ⊢
  dsimp only at silent ⊢
  split
  · exact kept_unchanged rfl
  · rename_i unregistered
    rw [if_neg unregistered] at silent
    split
    · exact Or.inr rfl
    · rename_i request made
      rw [made] at silent
      dsimp only at silent
      split at silent
      · exact Or.inr rfl
      · rename_i data received
        split at silent <;>
        · obtain ⟨e, raised⟩ := exchange_unsent silent
          rw [raised] at received
          cases received

theorem list_unsent (silent : (ListUserOperation.perform c env).sent = none) :
    Unchanged c (ListUserOperation.perform c env) := by
  unfold ListUserOperation.perform at silent ⊢
  split
  · exact Or.inr rfl
  · rename_i request made
    rw [made] at silent
    obtain ⟨e, rest, ended⟩ := header_unsent silent
    right
    simp only [ListUserOperation.doOperation, ended]
    rfl

theorem unsent_unchanged {op : Operation} (silent : (perform c op env).sent = none) :
    Unchanged c (perform c op env) := by
  rcases perform_keeps c env op with
    ⟨typed, rfl⟩ | ⟨rfl, -⟩ | ⟨-, same⟩ | ⟨-, -, same, -⟩
  · exact register_unsent silent
  · exact list_unsent silent
  · exact kept_unchanged same
  · exact kept_unchanged same

end Unsent

/-! Runs that can be computed. -/

def World.next (w : World) : Move → Option World
  | .launch u =>
    match w.processes u with
    | .off meInfo =>
      match Client.init meInfo with
      | .ok c => some (w.put u (.idle c))
      | .error _ => none
    | _ => none
  | .kill u => some (w.put u (.off (w.processes u).meInfo))
  | .ask u op env =>
    match w.processes u with
    | .idle c =>
      if Typed op then
        match (perform c op env).sent with
        | none => some (w.put u (afterwards (perform c op env)))
        | some raw => some { w.put u (.waiting c w.connections.length) with
            connections := w.connections ++ [⟨u, c, op, raw, none, none, []⟩] }
      else none
    | _ => none
  | .serve k draws sock =>
    match w.connections[k]? with
    | some there =>
      if there.reply = none ∧ contents sock <+: there.raw then
        match receiveRequest sock with
        | (worker, none) => some (w.update k (there.refuse worker))
        | (worker, some request) => some { w.update k (there.answer worker
              ⟨request, (run execute (handle draws request) w.tables).2⟩) with
            tables := (run execute (handle draws request) w.tables).1 }
      else none
    | none => none
  | .finish u env =>
    match w.processes u with
    | .waiting c k =>
      match w.connections[k]? with
      | some there =>
        let done := perform c there.op env
        if env.sends = true ∧ contents env.sock <+: there.reply.getD [] ∧
            done.how ≠ .ended .indeterminate then
          some (World.put (w.update k (there.finish done.handled)) u (afterwards done))
        else none
      | none => none
    | _ => none

theorem next_step {w after : World} {move : Move} (next : w.next move = some after) :
    w.Step move after := by
  cases move with
  | launch u =>
    simp only [World.next] at next
    split at next
    · rename_i meInfo off
      split at next
      · rename_i c started
        cases next
        exact .launch off started
      · cases next
    · cases next
  | kill u =>
    cases next
    exact .kill u
  | ask u op env =>
    simp only [World.next] at next
    split at next
    · rename_i c idle
      split at next
      · rename_i typed
        split at next
        · rename_i silent
          cases next
          exact .unsent idle typed silent
        · rename_i raw sent
          cases next
          exact .ask idle typed sent
      · cases next
    · cases next
  | serve k draws sock =>
    simp only [World.next] at next
    split at next
    · rename_i there here
      split at next
      · rename_i open_still
        split at next
        · rename_i worker refused
          cases next
          exact .refuse here open_still.1 open_still.2 refused
        · rename_i worker request received
          cases next
          exact .serve here open_still.1 open_still.2 received
      · cases next
    · cases next
  | finish u env =>
    simp only [World.next] at next
    split at next
    · rename_i c k waits
      split at next
      · rename_i there here
        split at next
        · rename_i done
          cases next
          exact .finish waits here done.1 done.2.1 done.2.2
        · cases next
      · cases next
    · cases next

inductive Deed where
  | launch (u : Nat)
  | ask (u : Nat) (op : Operation)
  | serve (k : Nat) (draws : Draws)
  | finish (u : Nat)

def undisturbed (sock : Socket) : Environment := ⟨true, true, 0, [], sock⟩

def World.replyTo (w : World) (u : Nat) : Bytes :=
  match w.processes u with
  | .waiting _ k => ((w.connections[k]?.bind Connection.reply).getD [])
  | _ => []

def Deed.move (w : World) : Deed → Move
  | .launch u => .launch u
  | .ask u op => .ask u op (undisturbed [])
  | .serve k draws => .serve k draws (whole ((w.connections[k]?.map Connection.raw).getD []))
  | .finish u => .finish u (undisturbed (whole (w.replyTo u)))

end MessagingSystem
