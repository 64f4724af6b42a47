import MessageU.RequestHandling

/- The server over whole runs: one request after another from empty tables. What
   the handlers may store is a property of the statements they issue, so it holds
   of the lone run and of every interleaving alike. -/
namespace ServerRuns
open ByteFields GuardedRuns StatementPrograms RequestFormat ServerTables ResponseFormat
open RequestHandling

structure ClientRow.Sound (c : ClientRow) : Prop where
  id : c.id.length = 16
  name : c.name.length ≤ 255
  publicKey : c.publicKey.length = 160

structure MessageRow.Sound (m : MessageRow) : Prop where
  source : m.fromClient.length = 16
  positive : 1 ≤ m.id
  id : m.id ≤ 0xffffffff
  type : m.type ∈ supportedMsgTypes
  content : m.content.length < 2 ^ 32

def SoundStatement : Statement → Prop
  | .insertClient row => ClientRow.Sound row
  | .insertMessage id toClient source type content =>
      ∀ serial, MessageRow.Sound ⟨id, toClient, source, type, content, serial⟩
  | _ => True

structure StoreSound (t : Tables) : Prop where
  keyed : t.Keyed
  clients : ∀ c ∈ t.clients, ClientRow.Sound c
  messages : ∀ m ∈ t.messages, MessageRow.Sound m

theorem empty_store_sound : StoreSound emptyTables :=
  ⟨empty_tables_keyed, by simp [emptyTables], by simp [emptyTables]⟩

theorem execute_sound (q : Statement) (t : Tables) (allowed : SoundStatement q)
    (sound : StoreSound t) : StoreSound (execute q t).1 := by
  have keyed := execute_keyed q sound.keyed
  cases q with
  | insertClient row =>
    refine ⟨keyed, ?_, ?_⟩
    · simp only [execute]
      split
      · exact sound.clients
      · intro c hc
        rcases List.mem_append.mp hc with old | new
        · exact sound.clients c old
        · exact List.mem_singleton.mp new ▸ allowed
    · simp only [execute]
      split <;> exact sound.messages
  | insertMessage id toClient source type content =>
    refine ⟨keyed, ?_, ?_⟩
    · simp only [execute]
      split <;> exact sound.clients
    · simp only [execute]
      split
      · exact sound.messages
      · intro m hm
        rcases List.mem_append.mp hm with old | new
        · exact sound.messages m old
        · exact List.mem_singleton.mp new ▸ allowed t.accepted
  | deleteMessage id =>
    exact ⟨keyed, sound.clients, fun m hm => sound.messages m (List.mem_of_mem_filter hm)⟩
  | _ => exact sound

/-! The statements of each handler, for any notion of what is allowed. -/

section Issued
variable {allowed : Statement → Prop}

theorem built_issues (result : Except PyError ServerResponse) : (built result).Issues allowed := by
  cases result <;> trivial

theorem register_issues (uuid : ClientId) (paramsRaw : Bytes)
    (check : ∀ name, allowed (.selectClientByName name))
    (insert : ∀ name, registrationName paramsRaw = some name →
      allowed (.insertClient ⟨uuid.bytes, name, paramsRaw.drop 255⟩)) :
    (registerUser uuid paramsRaw).Issues allowed := by
  cases asks : registrationName paramsRaw with
  | none =>
    rcases register_refused uuid asks with refused | raised
    · rw [refused]
      trivial
    · rw [raised]
      trivial
  | some name =>
    rw [register_program uuid asks]
    refine ⟨check name, ?_⟩
    rintro (e | rows)
    · trivial
    · dsimp only
      split
      · trivial
      · rw [registerTail]
        split
        · exact ⟨insert name asks, fun _ => trivial⟩
        · trivial

theorem send_issues (msgId : Nat) (paramsRaw source : Bytes)
    (check : ∀ id, allowed (.selectClientById id))
    (insert : MessageSound paramsRaw → allowed (.insertMessage msgId (paramsRaw.take 16) source
      (fromBigEndian (slice paramsRaw 16 17)) (paramsRaw.drop 21))) :
    (sendMsg msgId paramsRaw source).Issues allowed := by
  by_cases enough : 21 ≤ paramsRaw.length
  · rw [send_program msgId source enough]
    refine ⟨check _, ?_⟩
    rintro (e | rows)
    · trivial
    · dsimp only
      split
      · rw [sendTail]
        split
        · rename_i sound
          refine ⟨insert sound, ?_⟩
          rintro (e | inserted) <;> trivial
        · trivial
      · trivial
  · rw [send_refused msgId source (by omega)]
    trivial

theorem fetch_loop_issues (delete : ∀ id, allowed (.deleteMessage id)) (rows : List MessageRow)
    (payload : Bytes) : (fetchLoop rows payload).Issues allowed := by
  induction rows generalizing payload with
  | nil => exact built_issues _
  | cons m rest ih =>
    by_cases packs : Packs m
    · rw [fetch_loop_cons packs]
      exact ⟨delete m.id, fun _ => ih _⟩
    · rw [fetchLoop, if_neg packs]
      trivial

theorem fetch_issues (source : Bytes) (select : allowed (.selectMessages source))
    (delete : ∀ id, allowed (.deleteMessage id)) : (fetchMessages source).Issues allowed := by
  rw [fetch_program]
  refine ⟨select, ?_⟩
  rintro (e | rows) <;> exact fetch_loop_issues delete _ _

theorem list_issues (source : Bytes) (select : allowed (.selectClientsExcept source)) :
    (listClients source).Issues allowed := by
  apply issues_bind
  · refine ⟨select, ?_⟩
    rintro (e | rows) <;> trivial
  · intro clients
    exact built_issues _

theorem pubkey_issues (paramsRaw : Bytes) (select : allowed (.selectPublicKey paramsRaw)) :
    (getPubkey paramsRaw).Issues allowed := by
  rw [getPubkey]
  split
  · trivial
  · apply issues_bind
    · refine ⟨select, ?_⟩
      rintro (e | (_ | ⟨key, rest⟩)) <;> trivial
    · intro key
      exact built_issues _

end Issued

theorem handle_issues (draws : Draws) (request : ServerRequest) :
    (handle draws request).Issues SoundStatement := by
  rcases handled_code_cases request with
    unsupported | register | list | send | fetch | pubkey
  · rw [handle_unsupported draws unsupported]
    trivial
  · rw [handle_register draws register]
    refine register_issues _ _ (fun _ => trivial) fun name asks => ?_
    obtain ⟨size, name_size⟩ := registration_sizes asks
    exact ⟨draws.uuid.size, name_size, by simp [size]⟩
  · rw [handle_list draws list]
    exact list_issues _ trivial
  · rw [handle_send draws send]
    refine send_issues _ _ _ (fun _ => trivial) fun sound serial => ?_
    have declared := from_big_endian_bound (slice request.payload 17 21)
    rw [sound.2.1, slice_length request.payload (by have := sound.1; omega)] at declared
    exact ⟨request.clientId.size, draws.positive, draws.small, sound.2.2, by simpa using declared⟩
  · rw [handle_fetch draws fetch]
    exact fetch_issues _ trivial fun _ => trivial
  · rw [handle_pubkey draws pubkey]
    exact pubkey_issues _ trivial

/-! Requests handled one after another. -/

structure Exchange where
  request : ServerRequest
  result : Except PyError ServerResponse

structure Server where
  tables : Tables
  history : List Exchange

structure Call where
  draws : Draws
  request : ServerRequest

def Server.next (s : Server) (call : Call) : Option Server :=
  let (tables, result) := run execute (handle call.draws call.request) s.tables
  some ⟨tables, s.history ++ [⟨call.request, result⟩]⟩

def sequential : StepSystem Server Call := ofNext ⟨emptyTables, []⟩ Server.next

theorem next_server {s t : Server} {call : Call} (taken : sequential.step s call t) :
    t = ⟨(run execute (handle call.draws call.request) s.tables).1,
      s.history ++ [⟨call.request, (run execute (handle call.draws call.request) s.tables).2⟩]⟩ :=
  (Option.some.inj taken).symm

theorem store_sound : Invariant sequential (fun s => StoreSound s.tables) where
  start s first := by
    rw [show s = ⟨emptyTables, []⟩ from first]
    exact empty_store_sound
  step s call t sound taken := by
    rw [next_server taken]
    exact run_keeps execute execute_sound (handle_issues call.draws call.request) sound

theorem sound_packs {t : Tables} (sound : StoreSound t) : ∀ m ∈ t.messages, Packs m := by
  intro m hm
  have row := sound.messages m hm
  exact ⟨Nat.lt_of_le_of_lt row.id (by decide), row.content⟩

section Mailbox
variable {t : Tables} (sound : StoreSound t) (client : Bytes)
include sound

theorem mailbox_sound : ∀ m ∈ t.mailbox client, MessageRow.Sound m :=
  fun m hm => sound.messages m (List.mem_of_mem_filter hm)

theorem mailbox_packs : ∀ m ∈ t.mailbox client, Packs m :=
  fun m hm => sound_packs sound m (List.mem_of_mem_filter hm)

end Mailbox

/-! How long the two lists are that the server sends. -/

theorem fetch_payload_length {rows : List MessageRow} (sound : ∀ m ∈ rows, MessageRow.Sound m) :
    (rows.flatMap fetchRecord).length = (rows.map fun m => 25 + m.content.length).sum := by
  induction rows with
  | nil => rfl
  | cons m rest ih =>
    have source := (sound m List.mem_cons_self).source
    rw [List.flatMap_cons, List.length_append, fetch_record_length source,
      ih fun x hx => sound x (List.mem_cons_of_mem m hx), List.map_cons, List.sum_cons]

theorem list_entry_length {c : ClientRow} (sound : ClientRow.Sound c) :
    (listEntry c).length = 271 := by
  obtain ⟨id, name, -⟩ := sound
  simp only [listEntry, zeroPadded, List.length_append, List.length_replicate, id,
    ClientManager.clientIdSize, ClientManager.nameSize]
  omega

theorem list_payload_length {rows : List ClientRow} (sound : ∀ c ∈ rows, ClientRow.Sound c) :
    (rows.flatMap listEntry).length = 271 * rows.length := by
  induction rows with
  | nil => rfl
  | cons c rest ih =>
    rw [List.flatMap_cons, List.length_append, list_entry_length (sound c List.mem_cons_self),
      ih fun x hx => sound x (List.mem_cons_of_mem c hx), List.length_cons]
    omega

/-! Requests handled by workers at the same time: a worker is started for a call
and its statements interleave with those of the others. -/

abbrev Worker := Thread Statement Answer PyError Call ServerResponse
abbrev Workers := Pool Tables Statement Answer PyError Call ServerResponse

def workers : StepSystem Workers (Action Call) :=
  interleaving execute (fun call => handle call.draws call.request) emptyTables

def PoolSound (pool : Workers) : Prop :=
  (∀ i t, pool.threads i = some t → t.rest.Issues SoundStatement) ∧ StoreSound pool.store

theorem workers_store_sound : Invariant workers PoolSound :=
  interleaving_keeps execute (fun call : Call => handle call.draws call.request) execute_sound
    (fun call => handle_issues call.draws call.request) empty_store_sound

/-! The requests of an honest client, as the decoders hand them over. -/

def requestOf (clientId : ClientId) (code : Nat) (payload : Bytes) : ServerRequest :=
  ⟨⟨clientId, supportedVersion, code, payload.length⟩,
    layout clientId.bytes supportedVersion code payload.length payload⟩

@[simp] theorem request_payload (clientId : ClientId) (code : Nat) (payload : Bytes) :
    (requestOf clientId code payload).payload = payload :=
  layout_payload _ _ _ _ _ clientId.size

/-- The name is filled up to 255 bytes; the key is 160 times '9'. -/
def registrationPayload (name : Bytes) : Bytes :=
  name ++ List.replicate (255 - name.length) 0x11 ++ List.replicate 160 0x39

/-- Message::build_msg. -/
def messagePayload (dst : Bytes) (type : Nat) (content : Bytes) : Bytes :=
  dst ++ (bigEndian 1 type ++ (bigEndian 4 content.length ++ content))

section MessagePayload
variable {dst : Bytes} {type : Nat} {content : Bytes} (dst_size : dst.length = 16)
include dst_size

theorem message_length : (messagePayload dst type content).length = 21 + content.length := by
  simp only [messagePayload, List.length_append, big_endian_length, dst_size]
  omega

theorem message_destination : (messagePayload dst type content).take 16 = dst := by
  rw [messagePayload, List.take_left' dst_size]

theorem message_content : (messagePayload dst type content).drop 21 = content := by
  rw [messagePayload, ← List.append_assoc, ← List.append_assoc]
  exact List.drop_left' (by simp [dst_size])

variable (supported : type ∈ supportedMsgTypes)
include supported

theorem message_type : fromBigEndian (slice (messagePayload dst type content) 16 17) = type := by
  have bounds := (supported_iff type).mp supported
  rw [messagePayload, slice_middle dst _ _ dst_size (by simp [dst_size]),
    from_big_endian_of_lt (by omega)]

theorem message_sound (fits : content.length < 2 ^ 32) :
    MessageSound (messagePayload dst type content) := by
  have long : (messagePayload dst type content).length = 21 + content.length :=
    message_length dst_size
  have declared : slice (messagePayload dst type content) 17 21 =
      bigEndian 4 content.length := by
    rw [messagePayload, ← List.append_assoc]
    exact slice_middle _ _ _ (by simp [dst_size]) (by simp [dst_size])
  refine ⟨by omega, ?_, ?_⟩
  · rw [declared, from_big_endian_of_lt fits, long, Nat.add_sub_cancel_left]
  · rwa [message_type dst_size supported]

theorem message_stored (t : Tables) (msgId : Nat) (source : Bytes) :
    withMessage t msgId (messagePayload dst type content) source =
      { t with
        messages := t.messages ++ [⟨msgId, dst, source, type, content, t.accepted⟩]
        accepted := t.accepted + 1 } := by
  rw [withMessage, message_destination dst_size, message_content dst_size,
    message_type dst_size supported]

theorem run_send_message (fits : content.length < 2 ^ 32) {t : Tables}
    (registered : dst ∈ t.clients.map ClientRow.id) {msgId : Nat}
    (fresh : msgId ∉ t.messages.map MessageRow.id) (source : Bytes) :
    run execute (sendMsg msgId (messagePayload dst type content) source) t =
      ({ t with
          messages := t.messages ++ [⟨msgId, dst, source, type, content, t.accepted⟩]
          accepted := t.accepted + 1 },
        .ok (sentResponse dst msgId)) := by
  have accepted : MessageAccepted t msgId (messagePayload dst type content) := by
    refine ⟨message_sound dst_size supported fits, ?_, fresh⟩
    rwa [message_destination dst_size]
  rw [run_send_accepted source accepted, message_stored dst_size supported,
    message_destination dst_size]

end MessagePayload

/-! A client that registers as "A" and then sends itself one message after another. -/

def Decoded (_ : Server) (call : Call) : Prop := ∃ raw, accept raw = some call.request

theorem request_decoded (s : Server) (draws : Draws) (id : ClientId) {code : Nat} {payload : Bytes}
    (supported : code ∈ supportedCodes) (small : 23 + payload.length ≤ 0x7fffffff) :
    Decoded s ⟨draws, requestOf id code payload⟩ :=
  ⟨_, accept_layout id payload supported small⟩

theorem next_registers (s : Server) (draws : Draws) (client : ClientId) {payload name : Bytes}
    (asks : registrationName payload = some name)
    (key_ok : validUtf8 (payload.drop 255) = true)
    (new_name : name ∉ s.tables.clients.map ClientRow.name)
    (new_id : draws.uuid.bytes ∉ s.tables.clients.map ClientRow.id) :
    s.next ⟨draws, requestOf client codeRegister payload⟩ =
      some ⟨{ s.tables with
          clients := s.tables.clients ++ [⟨draws.uuid.bytes, name, payload.drop 255⟩] },
        s.history ++ [⟨requestOf client codeRegister payload, .ok (registered draws.uuid)⟩]⟩ := by
  unfold Server.next
  rw [handle_register _ rfl, request_payload, run_register_accepted asks key_ok new_name new_id]

theorem registration_reached {s : Server} (before : Reachable (sequential.restrict Decoded) s)
    (draws : Draws) (client : ClientId) {payload name : Bytes}
    (asks : registrationName payload = some name)
    (key_ok : validUtf8 (payload.drop 255) = true)
    (new_name : name ∉ s.tables.clients.map ClientRow.name)
    (new_id : draws.uuid.bytes ∉ s.tables.clients.map ClientRow.id) :
    ∃ history, Reachable (sequential.restrict Decoded)
      ⟨{ s.tables with
          clients := s.tables.clients ++ [⟨draws.uuid.bytes, name, payload.drop 255⟩] },
        history⟩ := by
  have size := (registration_sizes asks).1
  have decoded := request_decoded s draws client (show codeRegister ∈ supportedCodes by decide)
    (show 23 + payload.length ≤ 0x7fffffff by omega)
  have taken := next_registers s draws client asks key_ok new_name new_id
  exact ⟨_, .next before ⟨decoded, taken⟩⟩

def ownRow (owner : ClientId) : ClientRow :=
  ⟨owner.bytes, [0x41], (registrationPayload [0x41]).drop 255⟩

def ownRows (owner : ClientId) (sent : List (Nat × Bytes)) : List MessageRow :=
  sent.zipIdx.map fun x => ⟨x.2 + 1, owner.bytes, owner.bytes, x.1.1, x.1.2, x.2⟩

theorem own_rows_snoc (owner : ClientId) (sent : List (Nat × Bytes)) (type : Nat)
    (content : Bytes) : ownRows owner (sent ++ [(type, content)]) = ownRows owner sent ++
      [⟨sent.length + 1, owner.bytes, owner.bytes, type, content, sent.length⟩] := by
  simp [ownRows, List.zipIdx_append]

theorem own_id_free (owner : ClientId) (sent : List (Nat × Bytes)) :
    sent.length + 1 ∉ (ownRows owner sent).map MessageRow.id := by
  intro used
  simp only [ownRows, List.map_map, List.mem_map, Function.comp_apply] at used
  obtain ⟨⟨x, i⟩, listed, same⟩ := used
  have bound := List.snd_lt_of_mem_zipIdx listed
  simp only at same bound
  omega

theorem own_mailbox (owner : ClientId) (sent : List (Nat × Bytes)) (clients : List ClientRow)
    (accepted : Nat) :
    Tables.mailbox ⟨clients, ownRows owner sent, accepted⟩ owner.bytes = ownRows owner sent := by
  unfold Tables.mailbox
  rw [List.filter_eq_self]
  intro m listed
  simp only [ownRows, List.mem_map] at listed
  obtain ⟨x, -, rfl⟩ := listed
  exact decide_eq_true rfl

theorem own_messages_stored (owner : ClientId) (sent : List (Nat × Bytes))
    (fit : ∀ x ∈ sent, x.1 ∈ supportedMsgTypes ∧ x.2.length ≤ 0x7fffffff - 44)
    (few : sent.length ≤ 0xfffffffe) :
    ∃ history, Reachable (sequential.restrict Decoded)
      ⟨⟨[ownRow owner], ownRows owner sent, sent.length⟩, history⟩ := by
  induction sent using List.reverseRecOn with
  | nil =>
    have asks : registrationName (registrationPayload [0x41]) = some [0x41] := by decide +kernel
    have key_ok : validUtf8 ((registrationPayload [0x41]).drop 255) = true := by decide +kernel
    have start : Reachable (sequential.restrict Decoded) ⟨emptyTables, []⟩ := .start rfl
    exact registration_reached start ⟨owner, 1, by decide, by decide⟩ owner asks key_ok
      (by simp [emptyTables]) (by simp [emptyTables])
  | append_singleton sent message ih =>
    obtain ⟨type, content⟩ := message
    obtain ⟨supported, short⟩ : type ∈ supportedMsgTypes ∧ content.length ≤ 0x7fffffff - 44 :=
      fit (type, content) (by simp)
    simp only [List.length_append, List.length_singleton] at few
    obtain ⟨history, before⟩ := ih (fun x hx => fit x (List.mem_append_left _ hx)) (by omega)
    have long : (messagePayload owner.bytes type content).length = 21 + content.length :=
      message_length owner.size
    have decoded := request_decoded ⟨⟨[ownRow owner], ownRows owner sent, sent.length⟩, history⟩
      ⟨owner, sent.length + 1, by omega, by omega⟩ owner
      (show codeSendMsg ∈ supportedCodes by decide)
      (show 23 + (messagePayload owner.bytes type content).length ≤ 0x7fffffff by omega)
    have taken := Reachable.next before ⟨decoded, rfl⟩
    rw [handle_send _ rfl, request_payload, run_send_message owner.size supported (by omega)
      (by simp [ownRow]) (own_id_free owner sent)] at taken
    rw [own_rows_snoc, List.length_append, List.length_singleton]
    exact ⟨_, taken⟩

def otherRow (other : ClientId) : ClientRow :=
  ⟨other.bytes, [0x42], (registrationPayload [0x42]).drop 255⟩

theorem other_registered (owner : ClientId) {other : ClientId}
    (different : other.bytes ≠ owner.bytes) (sent : List (Nat × Bytes))
    (fit : ∀ x ∈ sent, x.1 ∈ supportedMsgTypes ∧ x.2.length ≤ 0x7fffffff - 44)
    (few : sent.length ≤ 0xfffffffe) :
    ∃ history, Reachable (sequential.restrict Decoded)
      ⟨⟨[ownRow owner, otherRow other], ownRows owner sent, sent.length⟩, history⟩ := by
  obtain ⟨history, before⟩ := own_messages_stored owner sent fit few
  have asks : registrationName (registrationPayload [0x42]) = some [0x42] := by decide +kernel
  have key_ok : validUtf8 ((registrationPayload [0x42]).drop 255) = true := by decide +kernel
  exact registration_reached before ⟨other, 1, by decide, by decide⟩ owner asks key_ok
    (by simp [ownRow]) (by simpa [ownRow] using different)

end ServerRuns
