import MessageU.ClientReception
import MessageU.ServerRuns

/- What is true of the tables in every state of a server that handles one request
   after another. A client row is the work of one registration and stays for good,
   a message row is the work of one accepted send, and the client's fixed response
   sizes rest on what the rows hold. -/
namespace StoreInvariant
open ByteFields GuardedRuns StatementPrograms RequestFormat ServerTables ResponseFormat
open RequestHandling ServerRuns ClientReception

structure Holds (t : Tables) : Prop where
  clientIds : ∀ c ∈ t.clients, c.id.length = 16
  distinctClientIds : (t.clients.map ClientRow.id).Nodup
  publicKeys : ∀ c ∈ t.clients, c.publicKey.length = 160
  nameSizes : ∀ c ∈ t.clients, c.name.length ≤ 255
  nameEnds : ∀ c ∈ t.clients, c.name.head? ≠ some 0x11 ∧ c.name.getLast? ≠ some 0x11
  distinctNames : (t.clients.map ClientRow.name).Nodup
  messageIds : ∀ m ∈ t.messages, 1 ≤ m.id ∧ m.id ≤ 0xffffffff
  distinctMessageIds : (t.messages.map MessageRow.id).Nodup
  destinations : ∀ m ∈ t.messages, m.toClient ∈ t.clients.map ClientRow.id
  sources : ∀ m ∈ t.messages, m.fromClient.length = 16
  types : ∀ m ∈ t.messages, 1 ≤ m.type ∧ m.type ≤ 4

def RegisteredBy (row : ClientRow) (call : Call) : Prop :=
  call.request.requestCode = codeRegister ∧ call.request.payload.length = 415 ∧
    row = ⟨call.draws.uuid.bytes, strip 0x11 (call.request.payload.take 255),
      call.request.payload.drop 255⟩

/-- The row an accepted send inserts; its content has the size the request declares. -/
def SentBy (m : MessageRow) (call : Call) : Prop :=
  call.request.requestCode = codeSendMsg ∧ MessageSound call.request.payload ∧
    m.id = call.draws.msgId ∧ m.toClient = call.request.payload.take 16 ∧
    m.fromClient = call.request.clientId.bytes ∧
    m.type = fromBigEndian (slice call.request.payload 16 17) ∧
    m.content = call.request.payload.drop 21 ∧
    m.content.length = fromBigEndian (slice call.request.payload 17 21)

/-! What one request does to the rows. -/

theorem inserted_client (row : ClientRow) (t : Tables) :
    (execute (.insertClient row) t).1.clients = t.clients ∨
      row.id ∉ t.clients.map ClientRow.id ∧
        (execute (.insertClient row) t).1.clients = t.clients ++ [row] := by
  simp only [execute]
  split
  · exact Or.inl rfl
  · rename_i fresh
    exact Or.inr ⟨fresh, rfl⟩

theorem clients_handled (call : Call) (t : Tables) :
    (run execute (handle call.draws call.request) t).1.clients = t.clients ∨
      ∃ row, RegisteredBy row call ∧ row.id ∉ t.clients.map ClientRow.id ∧
        row.name ∉ t.clients.map ClientRow.name ∧
        (run execute (handle call.draws call.request) t).1.clients = t.clients ++ [row] := by
  have keeps {p : Sql ServerResponse} (issues : p.Issues fun q => ∀ row, q ≠ .insertClient row) :
      (run execute p t).1.clients = t.clients := by
    have step : ∀ q s, (∀ row, q ≠ .insertClient row) → Tables.clients s = t.clients →
        (execute q s).1.clients = t.clients := by
      intro q s allowed before
      cases q with
      | insertClient row => exact absurd rfl (allowed row)
      | insertMessage id toClient source type content =>
        simp only [execute]
        split <;> exact before
      | _ => exact before
    exact run_keeps execute step issues rfl
  rcases handled_code_cases call.request with
    unsupported | register | list | send | fetch | pubkey
  · left
    rw [handle_unsupported call.draws unsupported]
    rfl
  · rw [handle_register call.draws register]
    rcases run_register call.draws.uuid call.request.payload t with
      refused | raised | ⟨name, asks, free, done⟩
    · left
      rw [refused]
    · left
      rw [raised]
    · obtain ⟨size, stripped⟩ := registration_row asks
      rw [done]
      rcases inserted_client ⟨call.draws.uuid.bytes, name, call.request.payload.drop 255⟩ t with
        same | ⟨fresh, appended⟩
      · exact Or.inl same
      · exact Or.inr ⟨_, ⟨register, size, by rw [stripped]⟩, fresh, free, appended⟩
  · left
    rw [handle_list call.draws list]
    exact keeps (list_issues _ (by simp))
  · left
    rw [handle_send call.draws send]
    exact keeps (send_issues _ _ _ (by simp) (by simp))
  · left
    rw [handle_fetch call.draws fetch]
    exact keeps (fetch_issues _ (by simp) (by simp))
  · left
    rw [handle_pubkey call.draws pubkey]
    exact keeps (pubkey_issues _ (by simp))

theorem messages_handled (call : Call) {t : Tables} (sound : StoreSound t) :
    (∃ m, SentBy m call ∧ m.toClient ∈ t.clients.map ClientRow.id ∧
      (run execute (handle call.draws call.request) t).1.messages = t.messages ++ [m]) ∨
    ((run execute (handle call.draws call.request) t).1.messages).Sublist t.messages := by
  rcases run_handle_cases call.draws call.request sound.keyed (sound_packs sound) with
    ⟨send, accepted, done⟩ | ⟨-, done⟩ | ⟨-, messages, -, -⟩
  · left
    obtain ⟨message, known, -⟩ := accepted
    rw [done]
    refine ⟨_, ⟨send, message, rfl, rfl, rfl, rfl, rfl, ?_⟩, known, rfl⟩
    rw [message.2.1, List.length_drop]
  · right
    rw [done]
    exact List.filter_sublist
  · right
    rw [messages]

/-! Over whole runs. -/

structure Registry (t : Tables) : Prop where
  ends : ∀ c ∈ t.clients, c.name.head? ≠ some 0x11 ∧ c.name.getLast? ≠ some 0x11
  distinct : (t.clients.map ClientRow.name).Nodup
  destinations : ∀ m ∈ t.messages, m.toClient ∈ t.clients.map ClientRow.id

theorem registry_step (call : Call) {t : Tables} (sound : StoreSound t) (registry : Registry t) :
    Registry (run execute (handle call.draws call.request) t).1 := by
  have messages := messages_handled call sound
  have clients := clients_handled call t
  generalize (run execute (handle call.draws call.request) t).1 = after at messages clients ⊢
  have known {id : Bytes} (before : id ∈ t.clients.map ClientRow.id) :
      id ∈ after.clients.map ClientRow.id := by
    rcases clients with same | ⟨row, -, -, -, appended⟩
    · rwa [same]
    · rw [appended, List.map_append]
      exact List.mem_append_left _ before
  have destinations : ∀ m ∈ after.messages, m.toClient ∈ after.clients.map ClientRow.id := by
    intro m stored
    apply known
    rcases messages with ⟨sent, -, addressed, appended⟩ | fewer
    · rw [appended] at stored
      rcases List.mem_append.mp stored with old | new
      · exact registry.destinations m old
      · rw [List.mem_singleton.mp new]
        exact addressed
    · exact registry.destinations m (fewer.subset stored)
  rcases clients with same | ⟨row, ⟨-, -, registered⟩, -, free, appended⟩
  · refine ⟨?_, ?_, destinations⟩
    · rw [same]
      exact registry.ends
    · rw [same]
      exact registry.distinct
  · refine ⟨?_, ?_, destinations⟩
    · intro c stored
      rw [appended] at stored
      rcases List.mem_append.mp stored with old | new
      · exact registry.ends c old
      · rw [List.mem_singleton.mp new, registered]
        exact ⟨strip_head _ _, strip_last _ _⟩
    · rw [appended, List.map_append]
      exact nodup_snoc registry.distinct free

theorem registry_kept :
    Invariant sequential (fun s => StoreSound s.tables ∧ Registry s.tables) := by
  apply store_sound.strengthen
  · intro s first
    rw [show s = ⟨emptyTables, []⟩ from first]
    exact ⟨by simp [emptyTables], by simp [emptyTables], by simp [emptyTables]⟩
  · intro s call t sound registry taken
    rw [next_server taken]
    exact registry_step call sound registry

theorem invariant_holds {s : Server} (reached : Reachable sequential s) : Holds s.tables := by
  obtain ⟨sound, registry⟩ := registry_kept.holds reached
  constructor
  · exact fun c stored => (sound.clients c stored).id
  · exact sound.keyed.clientIds
  · exact fun c stored => (sound.clients c stored).publicKey
  · exact fun c stored => (sound.clients c stored).name
  · exact registry.ends
  · exact registry.distinct
  · exact fun m stored => ⟨(sound.messages m stored).positive, (sound.messages m stored).id⟩
  · exact sound.keyed.messageIds
  · exact registry.destinations
  · exact fun m stored => (sound.messages m stored).source
  · exact fun m stored => (supported_iff m.type).mp (sound.messages m stored).type

theorem clients_stay {s t : Server} {calls : List Call}
    (run : runFrom Server.next s calls = some t) : s.tables.clients <+: t.tables.clients := by
  apply run_related (fun s t : Server => s.tables.clients <+: t.tables.clients)
    (fun s => List.prefix_rfl) (fun _ _ _ => List.IsPrefix.trans) ?_ run
  intro s call t taken
  rw [next_server taken]
  rcases clients_handled call s.tables with same | ⟨row, -, -, -, appended⟩
  · rw [same]
  · rw [appended]
    exact List.prefix_append _ _

theorem client_registered {s : Server} (reached : Reachable sequential s) {c : ClientRow}
    (stored : c ∈ s.tables.clients) :
    ∃ origin call, Reachable sequential origin ∧
      Entered Server.next (fun s => c ∈ s.tables.clients) origin call s ∧ RegisteredBy c call := by
  have absent : c ∉ emptyTables.clients := by simp [emptyTables]
  obtain ⟨origin, call, before, entered⟩ := present_entered
    (fun s : Server => c ∈ s.tables.clients) absent reached stored
  obtain ⟨after, -, taken, appeared, -⟩ := entered.appears
  refine ⟨origin, call, before, entered, ?_⟩
  rw [next_server taken] at appeared
  rcases clients_handled call origin.tables with same | ⟨row, registered, -, -, appended⟩
  · rw [same] at appeared
    exact absurd appeared entered.absent
  · rw [appended] at appeared
    rcases List.mem_append.mp appeared with old | new
    · exact absurd old entered.absent
    · exact List.mem_singleton.mp new ▸ registered

theorem message_sent {s : Server} (reached : Reachable sequential s) {m : MessageRow}
    (stored : m ∈ s.tables.messages) :
    ∃ origin call, Reachable sequential origin ∧
      Entered Server.next (fun s => m ∈ s.tables.messages) origin call s ∧ SentBy m call := by
  have absent : m ∉ emptyTables.messages := by simp [emptyTables]
  obtain ⟨origin, call, before, entered⟩ := present_entered
    (fun s : Server => m ∈ s.tables.messages) absent reached stored
  obtain ⟨after, -, taken, appeared, -⟩ := entered.appears
  refine ⟨origin, call, before, entered, ?_⟩
  rw [next_server taken] at appeared
  rcases messages_handled call (store_sound.holds before) with ⟨sent, by_call, -, appended⟩ | fewer
  · rw [appended] at appeared
    rcases List.mem_append.mp appeared with old | new
    · exact absurd old entered.absent
    · exact List.mem_singleton.mp new ▸ by_call
  · exact absurd (fewer.subset appeared) entered.absent

/-! The key of a registered client. -/

theorem row_of_id {t : Tables} (distinct : (t.clients.map ClientRow.id).Nodup) {c : ClientRow}
    (stored : c ∈ t.clients) :
    ((t.clients.filter (·.id = c.id)).map ClientRow.publicKey).headD [] = c.publicKey := by
  have listed : c ∈ t.clients.filter (·.id = c.id) :=
    List.mem_filter.mpr ⟨stored, decide_eq_true rfl⟩
  cases found : t.clients.filter (·.id = c.id) with
  | nil =>
    rw [found] at listed
    cases listed
  | cons row rest =>
    have first : row ∈ t.clients.filter (·.id = c.id) := found ▸ List.mem_cons_self
    obtain ⟨there, same_id⟩ := List.mem_filter.mp first
    have same := List.inj_on_of_nodup_map distinct there stored (of_decide_eq_true same_id)
    exact congrArg ClientRow.publicKey same

theorem key_answered {t : Tables} (holds : Holds t) {c : ClientRow} (stored : c ∈ t.clients)
    (draws : Draws) {request : ServerRequest} (asked : request.requestCode = codeFetchPublicKey)
    (wanted : request.payload = c.id) :
    ∃ resp, run execute (handle draws request) t = (t, .ok resp) ∧ resp.code = codePublicKey ∧
      resp.payload = c.id ++ c.publicKey ∧
      resp.rawData.length = GetPublicKeyOperation.responseSize := by
  have id_size := holds.clientIds c stored
  have key_size := holds.publicKeys c stored
  have size : (c.id ++ c.publicKey).length = 176 := by
    rw [List.length_append, id_size, key_size]
  rw [handle_pubkey draws asked, wanted, run_pubkey id_size,
    row_of_id holds.distinctClientIds stored, build_ok (by omega)]
  refine ⟨_, rfl, rfl, rfl, ?_⟩
  rw [List.length_append, response_header_length, size]
  rfl

/-- The invariant of every reachable state; rows that stay; the request behind each
    message; and the key a registered client is found under. -/
theorem store_invariant {s : Server} (reached : Reachable sequential s) :
    Holds s.tables ∧
    (∀ calls t, runFrom Server.next s calls = some t → s.tables.clients <+: t.tables.clients) ∧
    (∀ m ∈ s.tables.messages, ∃ origin call, Reachable sequential origin ∧
      Entered Server.next (fun s => m ∈ s.tables.messages) origin call s ∧ SentBy m call) ∧
    ∀ c ∈ s.tables.clients, ∃ origin call, Reachable sequential origin ∧
      Entered Server.next (fun s => c ∈ s.tables.clients) origin call s ∧ RegisteredBy c call ∧
      ∀ draws request, request.requestCode = codeFetchPublicKey → request.payload = c.id →
        ∃ resp, run execute (handle draws request) s.tables = (s.tables, .ok resp) ∧
          resp.code = codePublicKey ∧ resp.payload = c.id ++ call.request.payload.drop 255 ∧
          resp.rawData.length = GetPublicKeyOperation.responseSize := by
  have holds := invariant_holds reached
  refine ⟨holds, fun calls t => clients_stay, fun m => message_sent reached, ?_⟩
  intro c stored
  obtain ⟨origin, call, before, entered, registered⟩ := client_registered reached stored
  refine ⟨origin, call, before, entered, registered, ?_⟩
  intro draws request asked wanted
  have key : c.publicKey = call.request.payload.drop 255 := by rw [registered.2.2]
  rw [← key]
  exact key_answered holds stored draws asked wanted

theorem one_client_invariant :
    let owner : ClientId := ⟨List.replicate 16 1, rfl⟩
    let t : Tables := ⟨[ownRow owner], ownRows owner [(msgTypeSendTxtMsg, [0x68, 0x69])], 1⟩
    Holds t ∧ ∃ resp, run execute (handle ⟨owner, 1, by decide, by decide⟩
        (requestOf owner codeFetchPublicKey owner.bytes)) t = (t, .ok resp) ∧
      resp.rawData.length = GetPublicKeyOperation.responseSize := by
  intro owner t
  have fit : ∀ x ∈ [(msgTypeSendTxtMsg, ([0x68, 0x69] : Bytes))],
      x.1 ∈ supportedMsgTypes ∧ x.2.length ≤ 0x7fffffff - 44 := by decide
  obtain ⟨history, decoded⟩ := own_messages_stored owner _ fit (by decide)
  obtain ⟨holds, -, -, keys⟩ := store_invariant (restricted_reachable decoded)
  obtain ⟨origin, call, -, -, -, answered⟩ := keys (ownRow owner) (List.mem_singleton_self _)
  obtain ⟨resp, done, -, -, size⟩ := answered ⟨owner, 1, by decide, by decide⟩
    (requestOf owner codeFetchPublicKey owner.bytes) rfl (request_payload _ _ _)
  exact ⟨holds, resp, done, size⟩

end StoreInvariant
