import MessageU.ClientFragments
import MessageU.CredentialsFile
import MessageU.MessagingSystem
import MessageU.ResponseMatching

/- What holds of every client, every me.info and every connection in every run of the
   system, whatever is cut off, killed or never answered. A reply is nothing at all or
   one response of the server, so a complete response is the one that was sent. -/
namespace SystemRuns
open ByteFields SegmentedStream GuardedRuns StatementPrograms RequestFormat ServerTables
open ResponseFormat RequestHandling ServerRuns ServerWorker HandlerOutcomes ClientReception
open ClientCredentials ClientOperations CredentialsFile ContactListing MessagingSystem

/-! The part of a reply that arrives. -/

theorem error_wire : wireBytes getErrResponse = errorBytes := rfl

section Front
variable {resp : ServerResponse} (sound : ResponseSound resp)

theorem front_of_wire {data : Bytes} (front : data <+: wireBytes resp) (enough : 7 ≤ data.length) :
    ∃ rest, data = responseHeader supportedVersion resp.code resp.payload.length ++ rest ∧
      rest <+: resp.payload := by
  have header := response_header_length supportedVersion resp.code resp.payload.length
  obtain ⟨rest, rfl⟩ := List.prefix_of_prefix_length_le (List.prefix_append _ resp.payload) front
    (by rw [header]; exact enough)
  exact ⟨rest, rfl, (List.prefix_append_right_inj _).mp front⟩

include sound

/-- A part that parses as a complete response is all of the reply. -/
theorem parsed_whole {beyond code : Nat} {data payload : Bytes}
    (parsed : Parsed beyond data code payload) (front : data <+: wireBytes resp) :
    payload = resp.payload ∧ code = resp.code := by
  have enough : 7 ≤ data.length := by
    rw [parsed.bytes, List.length_append, response_header_length]
    omega
  obtain ⟨rest, rfl, ahead⟩ := front_of_wire front enough
  have object := parsed.object
  rw [response_read beyond sound.code sound.size] at object
  split at object
  · exact absurd (congrArg ClientResponse.isValid object) Bool.false_ne_true
  · rename_i size
    simp only [ClientResponse.mk.injEq, Option.some.injEq] at object
    obtain ⟨same, -, -, code_same, -⟩ := object
    rw [← same, ← code_same]
    exact ⟨ahead.eq_of_length (not_not.mp size).symm, rfl⟩

theorem complete_whole {env : Environment} (arrived : contents env.sock <+: wireBytes resp)
    {size : Nat} {payload : Bytes} (complete : CompleteResponse env size payload) :
    payload = resp.payload ∧ resp.code ≠ codeError := by
  obtain ⟨data, rest, code, read, parsed, no_error⟩ := complete
  have front : data <+: wireBytes resp := by
    rw [recv_contents read] at arrived
    exact (List.prefix_append _ _).trans arrived
  obtain ⟨payload_same, code_same⟩ := parsed_whole sound parsed front
  exact ⟨payload_same, code_same ▸ no_error⟩

end Front

theorem nothing_incomplete {env : Environment} (nothing : contents env.sock = []) {size : Nat}
    {payload : Bytes} : ¬ CompleteResponse env size payload := by
  rintro ⟨data, rest, code, read, parsed, -⟩
  rw [recv_contents read, List.append_eq_nil_iff] at nothing
  have bytes := parsed.bytes
  rw [nothing.1] at bytes
  have long := congrArg List.length bytes
  rw [List.length_append, response_header_length, List.length_nil] at long
  omega

theorem contacts_read {payloadSize received : Nat} {given data : Bytes} {sock rest : Socket}
    (read : receiveContacts payloadSize received given sock = (.ok data, rest)) :
    ∃ more, data = given ++ more ∧ more <+: contents sock ∧
      payloadSize ≤ received + more.length := by
  fun_induction receiveContacts payloadSize received given sock with
  | case1 => cases read
  | case2 => cases read
  | case3 received given sock left bytes rest' arrived something ih =>
    obtain ⟨more, rfl, front, enough⟩ := ih read
    refine ⟨bytes ++ more, List.append_assoc _ _ _, ?_, ?_⟩
    · rw [recv_contents arrived]
      exact (List.prefix_append_right_inj bytes).mpr front
    · rw [List.length_append]
      omega
  | case4 received given sock enough =>
    cases read
    exact ⟨[], (List.append_nil _).symm, List.nil_prefix, by simpa using enough⟩

/-! What a connection, a client and a file are like. -/

def Replied (exchange : Option Exchange) (bytes : Bytes) : Prop :=
  bytes = [] ∨ ∃ resp, ResponseSound resp ∧ bytes = wireBytes resp ∧
    (resp.code = codeError ∨ ∃ request, exchange = some ⟨request, .ok resp⟩)

def Answers (clients : List ClientRow) : Operation → ServerResponse → Prop
  | .register _, resp => ∃ uuid, resp = registered uuid
  | .listUsers, resp => ∃ rows : List ClientRow,
      (∀ row ∈ rows, ClientRow.Sound row ∧ row ∈ clients) ∧ resp.payload = rows.flatMap listEntry
  | .fetchMessages, resp => resp.code = codeMsgFetch ∧
      ∃ rows : List MessageRow, (∀ m ∈ rows, MessageRow.Sound m) ∧
        resp.payload = rows.flatMap fetchRecord
  | _, _ => True

structure ConnectionSound (clients : List ClientRow) (k : Connection) : Prop where
  id : k.client.id.length = 16
  typed : Typed k.op
  sent : ∃ env, (perform k.client k.op env).sent = some k.raw
  request : ∀ e id, k.exchange = some e → k.client.id = ClientId.bytes id →
    e.request = requestFor id k.client.contacts k.op
  answer : ∀ request resp, k.exchange = some ⟨request, .ok resp⟩ → ResponseSound resp ∧
    (resp.code = codeError ∨ (askedCode k.op, resp.code) ∈ answerCodes ∧ Answers clients k.op resp)
  reply : Replied k.exchange (k.reply.getD [])
  pending : k.reply = none → k.exchange = none

def privateKey : Bytes := List.replicate 160 0x41

def placeholder : Bytes := List.replicate fieldClientIdSize 1

def savedText (name id : Bytes) : Bytes :=
  Client.credentials ⟨name, id, privateKey, [], none⟩

structure ClientSound (c : Client) : Prop where
  id : c.id.length = 16
  key : c.privateKey = privateKey
  file : c.meInfo = none ∨ (newline ∉ c.name ∧ c.meInfo = some (savedText c.name c.id))

def FileSound (meInfo : Option Bytes) : Prop :=
  meInfo = none ∨ ∃ name id, newline ∉ name ∧ id.length = 16 ∧ meInfo = some (savedText name id)

theorem client_file {c : Client} (sound : ClientSound c) : FileSound c.meInfo := by
  rcases sound.file with nothing | ⟨one_line, saved⟩
  · exact Or.inl nothing
  · exact Or.inr ⟨c.name, c.id, one_line, sound.id, saved⟩

theorem saved_is_registered {name id : Bytes} (size : id.length = 16) :
    Client.isClientRegistered (some (savedText name id)) = true :=
  saved_registered (c := ⟨name, id, privateKey, [], none⟩) size

theorem unregistered_no_file {c : Client} (sound : ClientSound c)
    (unregistered : Client.isClientRegistered c.meInfo = false) : c.meInfo = none := by
  rcases sound.file with nothing | ⟨-, saved⟩
  · exact nothing
  · rw [saved, saved_is_registered sound.id] at unregistered
    cases unregistered

theorem key_line : newline ∉ privateKey := by decide

theorem launched {meInfo : Option Bytes} (sound : FileSound meInfo) :
    ∃ c, Client.init meInfo = .ok c ∧ ClientSound c ∧ c.contacts = [] ∧ c.meInfo = meInfo ∧
      (meInfo = none → c.id = placeholder) ∧
      ∀ name id, meInfo = some (savedText name id) → newline ∉ name → id.length = 16 →
        c.name = name ∧ c.id = id := by
  rcases sound with rfl | ⟨name, id, one_line, size, rfl⟩
  · refine ⟨_, rfl, ⟨rfl, rfl, Or.inl rfl⟩, rfl, rfl, fun _ => rfl, ?_⟩
    intro name id impossible
    cases impossible
  · have reads (name id : Bytes) (one_line : newline ∉ name) (size : id.length = 16) :
        Client.init (some (savedText name id)) =
          .ok ⟨name, id, privateKey, [], some (savedText name id)⟩ := by
      unfold Client.init
      dsimp only
      rw [if_pos (saved_is_registered size)]
      exact saved_read (c := ⟨name, id, privateKey, [], none⟩) size one_line key_line rfl
    have started := reads name id one_line size
    refine ⟨_, started, ⟨size, rfl, Or.inr ⟨one_line, rfl⟩⟩, rfl, rfl, ?_, ?_⟩
    · intro impossible
      cases impossible
    · intro name' id' same one_line' size'
      have again := reads name' id' one_line' size'
      rw [← same, started] at again
      injection again with same_client
      exact ⟨congrArg Client.name same_client, congrArg Client.id same_client⟩

/-! One request at the server. -/

theorem answers_grow {clients later : List ClientRow} (grown : clients <+: later)
    {op : Operation} {resp : ServerResponse} (answers : Answers clients op resp) :
    Answers later op resp := by
  cases op with
  | listUsers =>
    obtain ⟨rows, stored, payload⟩ := answers
    exact ⟨rows, fun row listed => ⟨(stored row listed).1, grown.subset (stored row listed).2⟩,
      payload⟩
  | _ => exact answers

theorem connection_grow {clients later : List ClientRow} (grown : clients <+: later)
    {k : Connection} (sound : ConnectionSound clients k) : ConnectionSound later k where
  id := sound.id
  typed := sound.typed
  sent := sound.sent
  request := sound.request
  answer request resp answered := by
    obtain ⟨resp_sound, kind⟩ := sound.answer request resp answered
    exact ⟨resp_sound, kind.imp_right (And.imp_right (answers_grow grown))⟩
  reply := sound.reply
  pending := sound.pending

theorem clients_grow (draws : Draws) (request : ServerRequest) (t : Tables) :
    t.clients <+: (run execute (handle draws request) t).1.clients := by
  rcases StoreInvariant.clients_handled ⟨draws, request⟩ t with same | ⟨row, -, -, -, appended⟩
  · rw [show (run execute (handle draws request) t).1.clients = t.clients from same]
  · rw [show (run execute (handle draws request) t).1.clients = t.clients ++ [row] from appended]
    exact List.prefix_append _ _

theorem served_answers {t : Tables} (store : StoreSound t) (draws : Draws) (id : ClientId)
    (contacts : List Contact) (op : Operation) {resp : ServerResponse}
    (answered : (run execute (handle draws (requestFor id contacts op)) t).2 = .ok resp) :
    ResponseSound resp ∧ (resp.code = codeError ∨
      (askedCode op, resp.code) ∈ answerCodes ∧ Answers t.clients op resp) := by
  obtain ⟨resp_sound, error | paired⟩ :=
    run_yields execute (handle_answers draws (requestFor id contacts op)) answered
  · exact ⟨resp_sound, Or.inl error⟩
  refine ⟨resp_sound, ?_⟩
  suffices answers : resp.code = codeError ∨ Answers t.clients op resp from
    answers.imp_right fun answers => ⟨paired, answers⟩
  cases op with
  | register name =>
    rw [handle_register draws rfl] at answered
    rcases run_register draws.uuid (requestFor id contacts (.register name)).payload t with
      refused | raised | ⟨_, -, -, done⟩
    · rw [refused] at answered
      cases answered
      exact Or.inl rfl
    · rw [raised] at answered
      cases answered
    · rw [done] at answered
      cases answered
      exact Or.inr ⟨draws.uuid, rfl⟩
  | listUsers =>
    right
    obtain ⟨object, -⟩ := list_answer rfl answered
    refine ⟨listed t id.bytes, ?_, by rw [object]; rfl⟩
    intro row inside
    exact ⟨(listed_sound store id.bytes).1 row inside, List.mem_of_mem_filter inside⟩
  | fetchMessages =>
    right
    obtain ⟨object, -⟩ := FetchDelivery.fetch_answer store rfl answered
    exact ⟨by rw [object], t.mailbox id.bytes, mailbox_sound store id.bytes, by rw [object]; rfl⟩
  | _ => exact Or.inr trivial

theorem nothing_sent {sock : Socket} {worker : WorkerRun} {request : ServerRequest}
    (received : receiveRequest sock = (worker, some request)) : worker.sent = [] := by
  have reception := receive_request_sound sock
  rw [received] at reception
  rcases reception.sent with nothing | ⟨impossible, -⟩
  · exact nothing
  · cases impossible

theorem response_sent {sock : Socket} {worker : WorkerRun} {request : ServerRequest}
    (received : receiveRequest sock = (worker, some request)) {resp : ServerResponse}
    (sound : ResponseSound resp) : (worker.answer (.ok resp)).sent.flatten = wireBytes resp := by
  rw [answer_built worker sound, nothing_sent received]
  simp

theorem worker_replied {sock : Socket} {worker : WorkerRun} {request : ServerRequest}
    (received : receiveRequest sock = (worker, some request))
    {result : Except PyError ServerResponse}
    (sound : ∀ resp, result = .ok resp → ResponseSound resp) :
    Replied (some ⟨request, result⟩) (worker.answer result).sent.flatten := by
  cases result with
  | error e =>
    left
    simp [WorkerRun.answer, nothing_sent received]
  | ok resp =>
    have resp_sound := sound resp rfl
    exact Or.inr ⟨resp, resp_sound, response_sent received resp_sound, Or.inr ⟨request, rfl⟩⟩

theorem worker_refused {sock : Socket} {worker : WorkerRun}
    (refused : receiveRequest sock = (worker, none)) (exchange : Option Exchange) :
    Replied exchange worker.sent.flatten := by
  have reception := receive_request_sound sock
  rw [refused] at reception
  rcases reception.sent with nothing | ⟨-, error⟩
  · exact Or.inl (by rw [nothing]; rfl)
  · refine Or.inr ⟨getErrResponse, error_sound, ?_, Or.inl rfl⟩
    rw [error, error_wire]
    simp

/-! One operation at the client. -/

section Finished
variable {clients : List ClientRow} {k : Connection} (sound : ConnectionSound clients k)
variable {env : Environment} (sends : env.sends = true)
variable (arrived : contents env.sock <+: k.reply.getD [])
include sound arrived

theorem register_finished {typed : Bytes} (registers : k.op = .register typed) :
    Unchanged k.client (perform k.client k.op env) ∨
      Client.isClientRegistered k.client.meInfo = false ∧
        (afterwards (perform k.client k.op env) = .idle { k.client with name := typed } ∨
          ∃ request uuid, k.exchange = some ⟨request, .ok (registered uuid)⟩ ∧
            afterwards (perform k.client k.op env) = .idle
              (Client.saveClientCreds { k.client with name := typed, id := uuid.bytes }
                env.opens)) := by
  rw [registers]
  rcases register_cases k.client typed env with
    ⟨-, early⟩ | ⟨unregistered, -, ⟨named, how, ended, -⟩ | ⟨payload, complete, taken, returned⟩⟩
  · exact Or.inl (kept_unchanged (by rw [perform, early]; rfl))
  · rcases left_idle_or_off (perform k.client (.register typed) env) with idle | ⟨off, -⟩
    · exact Or.inr ⟨unregistered, Or.inl (by rw [idle, perform, named])⟩
    · exact Or.inl (Or.inr (by rw [off, perform, named]))
  · right
    refine ⟨unregistered, Or.inr ?_⟩
    have idle : afterwards (RegisterOperation.doOperation k.client typed env) =
        .idle (RegisterOperation.doOperation k.client typed env).client := by
      rw [afterwards, returned]
    rcases sound.reply with nothing | ⟨resp, resp_sound, bytes, error | ⟨request, answered⟩⟩
    · rw [nothing, List.prefix_nil] at arrived
      exact absurd complete (nothing_incomplete arrived)
    · rw [bytes] at arrived
      exact absurd error (complete_whole resp_sound arrived complete).2
    · rw [bytes] at arrived
      obtain ⟨same, no_error⟩ := complete_whole resp_sound arrived complete
      have answers := ((sound.answer request resp answered).2.resolve_left no_error).2
      rw [registers] at answers
      obtain ⟨uuid, rfl⟩ := answers
      refine ⟨request, uuid, answered, ?_⟩
      rw [perform, idle, taken, same]
      rfl

omit sends arrived in
theorem own_id : ∃ id : ClientId, k.client.id = id.bytes := ⟨⟨k.client.id, sound.id⟩, rfl⟩

theorem header_arrived (name : String) (code : Nat) :
    (∃ e rest, (receiveHeader name code k.client.id true env.beyond env.sock).2 =
        .ended (.threw e) rest) ∨
      (∃ data rest, recv 7 env.sock = (.data data, rest) ∧ data ≠ [] ∧ data.length < 7 ∧
        (receiveHeader name code k.client.id true env.beyond env.sock).2 =
          .ended .indeterminate rest) ∨
      ∃ resp rest, ResponseSound resp ∧ k.reply.getD [] = wireBytes resp ∧
        (resp.code = codeError ∨ ∃ request, k.exchange = some ⟨request, .ok resp⟩) ∧
        contents rest <+: resp.payload ∧
        (receiveHeader name code k.client.id true env.beyond env.sock).2 =
          headed resp.code resp.payload.length rest := by
  have some_id : k.client.id ≠ [] := List.ne_nil_of_length_pos (by rw [sound.id]; decide)
  by_cases unread : ∀ data rest, recv 7 env.sock = (.data data, rest) → data = []
  · exact Or.inl (ResponseMatching.header_unread unread)
  · simp only [not_forall] at unread
    obtain ⟨data, rest, read, something⟩ := unread
    by_cases short : data.length < 7
    · exact Or.inr (Or.inl ⟨data, rest, read, something, short,
        ClientFragments.short_header_unset name code some_id env.beyond read something short⟩)
    · right; right
      have front := recv_contents read
      rcases sound.reply with empty | ⟨resp, resp_sound, bytes, kind⟩
      · rw [empty, List.prefix_nil, front, List.append_eq_nil_iff] at arrived
        exact absurd arrived.1 something
      · rw [bytes, front] at arrived
        obtain ⟨more, whole, -⟩ := front_of_wire ((List.prefix_append _ _).trans arrived)
          (Nat.le_of_not_lt short)
        have header := response_header_length supportedVersion resp.code resp.payload.length
        have no_more : more = [] := by
          have long := congrArg List.length whole
          rw [List.length_append, header] at long
          have bounded := recv_bounded read
          exact List.eq_nil_of_length_eq_zero (by omega)
        rw [no_more, List.append_nil] at whole
        refine ⟨resp, rest, resp_sound, bytes, kind, ?_, ?_⟩
        · rw [whole] at arrived
          exact (List.prefix_append_right_inj _).mp arrived
        · rw [whole] at read
          exact header_taken name code some_id env.beyond resp_sound.code resp_sound.size read

include sends in
theorem list_finished (lists : k.op = .listUsers) :
    ((perform k.client k.op env).how ≠ .ended .returned ∧
      Unchanged k.client (perform k.client k.op env)) ∨
    ∃ rows : List ClientRow, (∀ row ∈ rows, ClientRow.Sound row ∧ row ∈ clients) ∧
      (∃ request resp, k.exchange = some ⟨request, .ok resp⟩ ∧
        resp.payload = rows.flatMap listEntry) ∧
      afterwards (perform k.client k.op env) = .idle { k.client with
        contacts := addContacts k.client.contacts (rows.flatMap listEntry) } := by
  have some_id : k.client.id ≠ [] := List.ne_nil_of_length_pos (by rw [sound.id]; decide)
  have made : ClientRequest.ofCode k.client.id codeListClients =
      .ok ⟨k.client.id, codeListClients, supportedVersion, 0, [], []⟩ := by
    simp [ClientRequest.ofCode, some_id]
  have run : perform k.client k.op env = ⟨{ k.client with
        contacts := (ListUserOperation.doOperation k.client.contacts k.client.id true env.beyond
          env.sock).contacts },
      some ⟨k.client.id, codeListClients, supportedVersion, 0, [], []⟩,
      (receiveHeader "ListUser Operation" codeListClients k.client.id true env.beyond env.sock).1,
      [], .ended (ListUserOperation.doOperation k.client.contacts k.client.id true env.beyond
        env.sock).ending⟩ := by
    rw [lists]
    simp only [perform, ListUserOperation.perform, made, sends]
  have stopped (how : Ending) (rest : Socket) (other : how ≠ .returned)
      (ended : ListUserOperation.doOperation k.client.contacts k.client.id true env.beyond
        env.sock = ⟨k.client.contacts, how, rest⟩) :
      (perform k.client k.op env).how ≠ .ended .returned ∧
        Unchanged k.client (perform k.client k.op env) := by
    rw [run, ended]
    exact ⟨fun same => other (by simpa using same), kept_unchanged rfl⟩
  rcases header_arrived sound arrived "ListUser Operation" codeListClients with
    ⟨e, rest, ended⟩ | ⟨-, rest, -, -, -, ended⟩ | ⟨resp, rest, -, -, kind, following, taken⟩
  · exact Or.inl (stopped (.threw e) rest (by simp)
      (by simp only [ListUserOperation.doOperation, ended]))
  · exact Or.inl (stopped .indeterminate rest (by simp)
      (by simp only [ListUserOperation.doOperation, ended]))
  · by_cases error : resp.code = codeError
    · exact Or.inl (stopped .errorResponse rest (by simp)
        (by simp only [ListUserOperation.doOperation, taken, headed, if_pos error]))
    by_cases big : Client.maxPayloadSize < resp.payload.length
    · exact Or.inl (stopped .payloadTooBig rest (by simp)
        (by simp only [ListUserOperation.doOperation, taken, headed, if_neg error, if_pos big]))
    have header : (receiveHeader "ListUser Operation" codeListClients k.client.id true env.beyond
        env.sock).2 = .sized resp.payload.length rest := by
      rw [taken, headed, if_neg error, if_neg big]
    cases received : receiveContacts resp.payload.length 0 [] rest with
    | mk outcome after =>
      cases outcome with
      | error e =>
        exact Or.inl (stopped (.threw e) after (by simp)
          (by simp only [ListUserOperation.doOperation, header, received]))
      | ok respData =>
        right
        obtain ⟨more, rfl, front, enough⟩ := contacts_read received
        have all_read := (front.trans following).eq_of_length_le (by omega)
        obtain ⟨request, answered⟩ := kind.resolve_left error
        have answers := ((sound.answer request resp answered).2.resolve_left error).2
        rw [lists] at answers
        obtain ⟨rows, stored, payload⟩ := answers
        refine ⟨rows, stored, ⟨request, resp, answered, payload⟩, ?_⟩
        rw [run, ← payload, ← all_read]
        simp only [afterwards, ListUserOperation.doOperation, header, received]

end Finished

/-! The system. -/

/-- The connection a client waits on is its own, and nothing was made of a response. -/
def WaitsOn (connections : List Connection) (u : Nat) (p : Process) : Prop :=
  ∀ c i, p = .waiting c i → ∃ k, connections[i]? = some k ∧ k.owner = u ∧ k.client = c ∧
    k.handled = []

structure Sound (w : World) : Prop where
  store : StoreSound w.tables
  connections : ∀ k ∈ w.connections, ConnectionSound w.tables.clients k
  waits : ∀ u, WaitsOn w.connections u (w.processes u)
  clients : ∀ u c, (w.processes u).client = some c → ClientSound c
  files : ∀ u, FileSound (w.processes u).meInfo

theorem idle_no_wait (connections : List Connection) (u : Nat) (c : Client) :
    WaitsOn connections u (.idle c) := by
  intro c' i impossible
  cases impossible

theorem off_no_wait (connections : List Connection) (u : Nat) (meInfo : Option Bytes) :
    WaitsOn connections u (.off meInfo) := by
  intro c i impossible
  cases impossible

structure ProcessSound (connections : List Connection) (u : Nat) (p : Process) : Prop where
  waits : WaitsOn connections u p
  client : ∀ c, p.client = some c → ClientSound c
  file : FileSound p.meInfo

theorem idle_sound (connections : List Connection) (u : Nat) {c : Client} (sound : ClientSound c) :
    ProcessSound connections u (.idle c) where
  waits := idle_no_wait connections u c
  client _ same := Option.some.inj same ▸ sound
  file := client_file sound

theorem off_sound (connections : List Connection) (u : Nat) {meInfo : Option Bytes}
    (sound : FileSound meInfo) : ProcessSound connections u (.off meInfo) where
  waits := off_no_wait connections u meInfo
  client c impossible := by cases impossible
  file := sound

theorem unchanged_sound (connections : List Connection) (u : Nat) {c : Client}
    (sound : ClientSound c) {run : OperationRun} (unchanged : Unchanged c run) :
    ProcessSound connections u (afterwards run) := by
  rcases unchanged with idle | off
  · rw [idle]
    exact idle_sound connections u sound
  · rw [off]
    exact off_sound connections u (client_file sound)

theorem process_put (w : World) (u v : Nat) (p : Process) :
    (w.put u p).processes v = if v = u then p else w.processes v := by
  rw [World.put]
  exact Function.update_apply w.processes u p v

theorem put_sound {w : World} (store : StoreSound w.tables)
    (connections : ∀ k ∈ w.connections, ConnectionSound w.tables.clients k) {u : Nat} {p : Process}
    (own : ProcessSound w.connections u p)
    (others : ∀ v, v ≠ u → ProcessSound w.connections v (w.processes v)) : Sound (w.put u p) := by
  have each (v : Nat) : ProcessSound w.connections v ((w.put u p).processes v) := by
    rw [process_put]
    by_cases here : v = u
    · rw [if_pos here, here]
      exact own
    · rw [if_neg here]
      exact others v here
  exact ⟨store, connections, fun v => (each v).waits, fun v => (each v).client,
    fun v => (each v).file⟩

theorem process_sound {w : World} (sound : Sound w) (u : Nat) :
    ProcessSound w.connections u (w.processes u) :=
  ⟨sound.waits u, sound.clients u, sound.files u⟩

theorem waits_kept {before after : List Connection} {v : Nat} {p : Process}
    (kept : ∀ (i : Nat) (k : Connection), before[i]? = some k → k.owner = v →
      ∃ k', after[i]? = some k' ∧ k'.owner = k.owner ∧ k'.client = k.client ∧
        k'.handled = k.handled)
    (waits : WaitsOn before v p) : WaitsOn after v p := by
  intro c i here
  obtain ⟨k, there, owner, client, handled⟩ := waits c i here
  obtain ⟨k', there', owner', client', handled'⟩ := kept i k there owner
  exact ⟨k', there', owner'.trans owner, client'.trans client, handled'.trans handled⟩

theorem set_kept {before : List Connection} {j : Nat} {old new : Connection}
    (here : before[j]? = some old) (owner : new.owner = old.owner)
    (client : new.client = old.client) (handled : new.handled = old.handled) (i : Nat)
    (k : Connection) (there : before[i]? = some k) :
    ∃ k', (before.set j new)[i]? = some k' ∧ k'.owner = k.owner ∧ k'.client = k.client ∧
      k'.handled = k.handled := by
  by_cases same : j = i
  · subst same
    rw [here] at there
    cases there
    obtain ⟨inside, -⟩ := List.getElem?_eq_some_iff.mp here
    exact ⟨new, List.getElem?_set_self inside, owner, client, handled⟩
  · exact ⟨k, by rw [List.getElem?_set_ne same]; exact there, rfl, rfl, rfl⟩

section Operations
variable {clients : List ClientRow} {k : Connection} (sound : ConnectionSound clients k)
variable (client : ClientSound k.client)

theorem saved_client_sound {c : Client} (before : ClientSound c)
    (unregistered : Client.isClientRegistered c.meInfo = false) {typed : Bytes}
    (one_line : newline ∉ typed) (uuid : ClientId) (opens : Bool) :
    ClientSound (Client.saveClientCreds { c with name := typed, id := uuid.bytes } opens) := by
  have no_file := unregistered_no_file before unregistered
  cases opens with
  | false => exact ⟨uuid.size, before.key, Or.inl no_file⟩
  | true =>
    rw [saved_file]
    refine ⟨uuid.size, before.key, Or.inr ⟨one_line, ?_⟩⟩
    simp only [Client.credentials, savedText, before.key]

include sound client in
theorem finished_sound (connections : List Connection) {env : Environment}
    (sends : env.sends = true) (arrived : contents env.sock <+: k.reply.getD []) :
    ProcessSound connections k.owner (afterwards (perform k.client k.op env)) := by
  rcases perform_keeps k.client env k.op with
    ⟨typed, registers⟩ | ⟨lists, -⟩ | ⟨-, same⟩ | ⟨-, -, same, -⟩
  · have one_line := ((typed_sizes sound.typed).1 typed registers).1
    rcases register_finished sound arrived registers with
      unchanged | ⟨unregistered, named | ⟨request, uuid, -, saved⟩⟩
    · exact unchanged_sound connections _ client unchanged
    · rw [named]
      have no_file := unregistered_no_file client unregistered
      exact idle_sound connections _ ⟨client.id, client.key, Or.inl no_file⟩
    · rw [saved]
      exact idle_sound connections _ (saved_client_sound client unregistered one_line uuid _)
  · rcases list_finished sound sends arrived lists with ⟨-, unchanged⟩ | ⟨rows, -, -, listed⟩
    · exact unchanged_sound connections _ client unchanged
    · rw [listed]
      exact idle_sound connections _ ⟨client.id, client.key, client.file⟩
  · exact unchanged_sound connections _ client (kept_unchanged same)
  · exact unchanged_sound connections _ client (kept_unchanged same)

end Operations

theorem opened_sound {w : World} (sound : Sound w) {u : Nat} {c : Client} {op : Operation}
    {env : Environment} {raw : Bytes} (idle : w.processes u = .idle c) (typed : Typed op)
    (sent : (perform c op env).sent = some raw) :
    ConnectionSound w.tables.clients ⟨u, c, op, raw, none, none, []⟩ where
  id := (sound.clients u c (by rw [idle]; rfl)).id
  typed := typed
  sent := ⟨env, sent⟩
  request e id impossible := by cases impossible
  answer request resp impossible := by cases impossible
  reply := Or.inl rfl
  pending _ := rfl

theorem ask_sound {w : World} (sound : Sound w) {u : Nat} {c : Client} {op : Operation}
    {env : Environment} {raw : Bytes} (idle : w.processes u = .idle c) (typed : Typed op)
    (sent : (perform c op env).sent = some raw) :
    Sound { w.put u (.waiting c w.connections.length) with
      connections := w.connections ++ [⟨u, c, op, raw, none, none, []⟩] } := by
  have own := sound.clients u c (by rw [idle]; rfl)
  have opened := opened_sound sound idle typed sent
  have appended (i : Nat) (k : Connection) (there : w.connections[i]? = some k) :
      (w.connections ++ [⟨u, c, op, raw, none, none, []⟩])[i]? = some k := by
    obtain ⟨inside, -⟩ := List.getElem?_eq_some_iff.mp there
    rw [List.getElem?_append_left inside]
    exact there
  apply put_sound (w := { w with
    connections := w.connections ++ [⟨u, c, op, raw, none, none, []⟩] })
    sound.store
  · intro k inside
    rcases List.mem_append.mp inside with old | new
    · exact sound.connections k old
    · rw [List.mem_singleton.mp new]
      exact opened
  · refine ⟨?_, fun _ same => Option.some.inj same ▸ own, client_file own⟩
    intro c' i waiting
    cases waiting
    exact ⟨_, List.getElem?_concat_length, rfl, rfl, rfl⟩
  · intro v _
    have before := process_sound sound v
    refine ⟨?_, before.client, before.file⟩
    exact waits_kept (fun i k there _ => ⟨k, appended i k there, rfl, rfl, rfl⟩) before.waits

theorem served_sound {w : World} (sound : Sound w) {j : Nat} {old new : Connection}
    (here : w.connections[j]? = some old) (owner : new.owner = old.owner)
    (client : new.client = old.client) (handled : new.handled = old.handled) {t : Tables}
    (store : StoreSound t) (grown : w.tables.clients <+: t.clients)
    (served : ConnectionSound t.clients new) : Sound { w.update j new with tables := t } where
  store := store
  connections k inside := by
    rcases List.mem_or_eq_of_mem_set inside with kept | rfl
    · exact connection_grow grown (sound.connections k kept)
    · exact served
  waits u := waits_kept (fun i k there _ => set_kept here owner client handled i k there)
    (sound.waits u)
  clients := sound.clients
  files := sound.files

section Served
variable {clients : List ClientRow} {k : Connection} (sound : ConnectionSound clients k)
include sound

theorem received_asked {id : ClientId} (own : k.client.id = id.bytes) {sock : Socket}
    (arrived : contents sock <+: k.raw) {worker : WorkerRun} {request : ServerRequest}
    (received : receiveRequest sock = (worker, some request)) :
    request = requestFor id k.client.contacts k.op := by
  obtain ⟨env, sent⟩ := sound.sent
  rw [bytes_sent own sent] at arrived
  exact received_as_sent (asked_code_supported k.op) (asked_small sound.typed sent) arrived received

theorem refused_sound {sock : Socket} {worker : WorkerRun}
    (refused : receiveRequest sock = (worker, none)) :
    ConnectionSound clients (k.refuse worker) where
  id := sound.id
  typed := sound.typed
  sent := sound.sent
  request := sound.request
  answer := sound.answer
  reply := worker_refused refused k.exchange
  pending impossible := by cases impossible

theorem handled_sound {sock : Socket} {worker : WorkerRun} {request : ServerRequest}
    (arrived : contents sock <+: k.raw) (received : receiveRequest sock = (worker, some request))
    {t : Tables} (store : StoreSound t) (draws : Draws) :
    ConnectionSound (run execute (handle draws request) t).1.clients
      (k.answer worker ⟨request, (run execute (handle draws request) t).2⟩) := by
  obtain ⟨id, own⟩ := own_id sound
  have asked := received_asked sound own arrived received
  have answers (resp : ServerResponse)
      (answered : (run execute (handle draws request) t).2 = .ok resp) :
      ResponseSound resp ∧ (resp.code = codeError ∨ (askedCode k.op, resp.code) ∈ answerCodes ∧
        Answers (run execute (handle draws request) t).1.clients k.op resp) := by
    rw [asked] at answered
    obtain ⟨resp_sound, kind⟩ := served_answers store draws id k.client.contacts k.op answered
    exact ⟨resp_sound,
      kind.imp_right (And.imp_right (answers_grow (clients_grow draws request t)))⟩
  refine ⟨sound.id, sound.typed, sound.sent, ?_, ?_, ?_, ?_⟩
  · rintro e id' ⟨⟩ own'
    exact received_asked sound own' arrived received
  · intro request' resp answered
    obtain ⟨-, result⟩ := Exchange.mk.inj (Option.some.inj answered)
    exact answers resp result
  · exact worker_replied received fun resp answered => (answers resp answered).1
  · intro impossible
    cases impossible

end Served

theorem finish_sound {w : World} (sound : Sound w) {j : Nat} {k : Connection}
    (here : w.connections[j]? = some k) (handled : List Message) {p : Process}
    (own : ∀ connections, ProcessSound connections k.owner p) :
    Sound (World.put (w.update j (k.finish handled)) k.owner p) := by
  have listed := sound.connections k (List.mem_of_getElem? here)
  apply put_sound
  · exact sound.store
  · intro x inside
    rcases List.mem_or_eq_of_mem_set inside with kept | rfl
    · exact sound.connections x kept
    · exact ⟨listed.id, listed.typed, listed.sent, listed.request, listed.answer, listed.reply,
        listed.pending⟩
  · exact own _
  · intro v other
    have before := process_sound sound v
    refine ⟨?_, before.client, before.file⟩
    apply waits_kept _ before.waits
    intro i x there ours
    have elsewhere : j ≠ i := by
      rintro rfl
      rw [here] at there
      cases there
      exact other ours.symm
    exact ⟨x, by rw [World.update, List.getElem?_set_ne elsewhere]; exact there, rfl, rfl, rfl⟩

theorem astray_sound (connections : List Connection) (u : Nat) {c : Client} (own : ClientSound c)
    {contacts : List Contact} {p : Process}
    (left : p = .idle { c with contacts } ∨ p = .off c.meInfo) :
    ProcessSound connections u p := by
  rcases left with rfl | rfl
  · exact idle_sound connections u ⟨own.id, own.key, own.file⟩
  · exact off_sound connections u (client_file own)

theorem waiting_connection {w : World} (sound : Sound w) {u j : Nat} {c : Client} {k : Connection}
    (waits : w.processes u = .waiting c j) (here : w.connections[j]? = some k) :
    k.owner = u ∧ k.client = c ∧ k.handled = [] ∧ ClientSound k.client ∧
      ConnectionSound w.tables.clients k := by
  obtain ⟨k', there, owner, client, nothing⟩ := sound.waits u c j waits
  rw [here] at there
  cases there
  have own := sound.clients u c (by rw [waits]; rfl)
  exact ⟨owner, client, nothing, client ▸ own, sound.connections k (List.mem_of_getElem? here)⟩

theorem initial_sound : Sound World.initial where
  store := empty_store_sound
  connections k impossible := by cases impossible
  waits u := off_no_wait _ u none
  clients u c impossible := by cases impossible
  files _ := Or.inl rfl

theorem system_sound : Invariant messaging Sound where
  start w first := by
    rw [show w = World.initial from first]
    exact initial_sound
  step w move after sound taken := by
    have others (u v : Nat) (_ : v ≠ u) := process_sound sound v
    cases taken with
    | launch off started =>
      rename_i u meInfo c
      have file := sound.files u
      rw [off] at file
      obtain ⟨c', again, launched_sound, -⟩ := launched file
      have same : c = c' := Except.ok.inj (started.symm.trans again)
      rw [same]
      exact put_sound sound.store sound.connections (idle_sound _ u launched_sound) (others u)
    | kill u =>
      exact put_sound sound.store sound.connections (off_sound _ u (sound.files u)) (others u)
    | unsent idle typed silent =>
      rename_i u c op env
      have own := sound.clients u c (by rw [idle]; rfl)
      exact put_sound sound.store sound.connections
        (unchanged_sound _ u own (unsent_unchanged silent)) (others u)
    | ask idle typed sent => exact ask_sound sound idle typed sent
    | refuse here unserved arrived refused =>
      have there := sound.connections _ (List.mem_of_getElem? here)
      apply served_sound sound here
      · rfl
      · rfl
      · rfl
      · exact sound.store
      · exact List.prefix_refl _
      · exact refused_sound there refused
    | serve here unserved arrived received =>
      rename_i j k draws sock worker request
      have there := sound.connections k (List.mem_of_getElem? here)
      apply served_sound sound here
      · rfl
      · rfl
      · rfl
      · exact run_keeps execute execute_sound (handle_issues draws request) sound.store
      · exact clients_grow draws request w.tables
      · exact handled_sound there arrived received sound.store draws
    | finish waits here sends arrived set =>
      obtain ⟨rfl, rfl, -, own, listed⟩ := waiting_connection sound waits here
      exact finish_sound sound here _ fun connections =>
        finished_sound listed own connections sends arrived
    | astray waits here sends arrived unset listing fetching left =>
      obtain ⟨rfl, rfl, -, own, -⟩ := waiting_connection sound waits here
      exact finish_sound sound here _ fun connections => astray_sound connections _ own left

end SystemRuns
