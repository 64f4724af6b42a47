import MessageU.ClientOperations
import MessageU.HandlerOutcomes
import MessageU.FetchRoundTrip

/- The message inside a send request. The client's Message writes it with shifts, the
   server takes it apart with slices and refuses it in five places. What is left is one
   grammar, and it holds every message a client can construct. -/
namespace MessageFormat
open ByteFields GuardedRuns RecordLengths StatementPrograms RequestFormat ServerTables
open ResponseFormat RequestHandling ServerRuns HandlerOutcomes ClientReception ClientOperations
open FetchRoundTrip

/-! The client's side. -/

def Constructed (id : Bytes) (type : Nat) (m : Message) : Prop :=
  Message.ofType id type = .ok m ∨ ∃ content, Message.ofContent id type content = .ok m

theorem constructed_fields {id : Bytes} {type : Nat} {m : Message}
    (made : Constructed id type m) :
    type ∈ supportedMsgTypes ∧ m = ⟨id, type, m.messageContent.length, m.messageContent⟩ := by
  rcases made with bare | ⟨content, full⟩
  · unfold Message.ofType at bare
    split at bare
    · cases bare
    · rename_i valid
      cases bare
      exact ⟨(valid_type_iff type).mp (by simpa using valid), rfl⟩
  · unfold Message.ofContent Message.setContent at full
    split at full
    · cases full
    · rename_i valid
      split at full
      · cases full
      · cases full
        exact ⟨(valid_type_iff type).mp (by simpa using valid), rfl⟩

theorem constructible_iff (id : Bytes) (type : Nat) (content : Bytes) :
    (∃ m, Constructed id type m ∧ m.messageContent = content) ↔
      type ∈ supportedMsgTypes ∧ (type = messageTypeRequestSymKey → content = []) := by
  constructor
  · rintro ⟨m, bare | ⟨given, full⟩, rfl⟩
    · refine ⟨(constructed_fields (Or.inl bare)).1, ?_⟩
      intro _
      unfold Message.ofType at bare
      split at bare
      · cases bare
      · cases bare
        rfl
    · refine ⟨(constructed_fields (Or.inr ⟨given, full⟩)).1, ?_⟩
      intro request
      simp only [Message.ofContent, Message.setContent, request, ↓reduceIte] at full
      split at full <;> cases full
  · rintro ⟨supported, bare⟩
    have valid := (valid_type_iff type).mpr supported
    by_cases request : type = messageTypeRequestSymKey
    · refine ⟨⟨id, type, 0, []⟩, Or.inl ?_, (bare request).symm⟩
      simp [Message.ofType, valid]
    · refine ⟨⟨id, type, content.length, content⟩, Or.inr ⟨content, ?_⟩, rfl⟩
      simp [Message.ofContent, Message.setContent, valid, request]

theorem built_payload {id : Bytes} {type : Nat} {m : Message} (made : Constructed id type m) :
    Message.buildMsg m [] = messagePayload id type m.messageContent := by
  obtain ⟨-, fields⟩ := constructed_fields made
  have type_byte : [UInt8.ofNat type] = bigEndian 1 type := by simp [bigEndian]
  rw [fields]
  simp only [Message.buildMsg, shifted_word, type_byte, List.nil_append, messagePayload]

/-! The server's side. -/

/-- The checks of the size and the type leave exactly the bytes of some message. -/
theorem message_sound_iff (payload : Bytes) :
    MessageSound payload ↔
      ∃ id type content, id.length = 16 ∧ type ∈ supportedMsgTypes ∧ content.length < 2 ^ 32 ∧
        payload = messagePayload id type content := by
  constructor
  · rintro ⟨enough, declared, supported⟩
    have content_size : (payload.drop 21).length = fromBigEndian (slice payload 17 21) := by
      rw [declared, List.length_drop]
    have bound := from_big_endian_bound (slice payload 17 21)
    rw [slice_length payload enough] at bound
    have type_field : bigEndian 1 (fromBigEndian (slice payload 16 17)) = slice payload 16 17 :=
      field_of_slice payload (by omega) rfl
    have size_field : bigEndian 4 (fromBigEndian (slice payload 17 21)) = slice payload 17 21 :=
      field_of_slice payload enough rfl
    refine ⟨payload.take 16, fromBigEndian (slice payload 16 17), payload.drop 21, ?_, supported,
      ?_, ?_⟩
    · rw [List.length_take]
      omega
    · rw [content_size]
      exact bound
    · rw [messagePayload, content_size, type_field, size_field, slice_join payload (by decide),
        slice_join payload (by decide), List.take_append_drop]
  · rintro ⟨id, type, content, id_size, supported, fits, rfl⟩
    exact message_sound id_size supported fits

def ReachesAddMessage {α : Type} (p : Sql α) (t : Tables)
    (faults : List (Option DatabaseError)) : Prop :=
  ∃ id toClient fromClient type content,
    Statement.insertMessage id toClient fromClient type content ∈
      issued executeLimited p (t, faults)

/-- A registered id of 16 bytes, a type, a size and exactly that many further bytes. -/
def Addressed (t : Tables) (payload : Bytes) : Prop :=
  ∃ id type size content, id.length = 16 ∧ id ∈ t.clients.map ClientRow.id ∧
    (1 ≤ type ∧ type ≤ 4) ∧ size < 2 ^ 32 ∧ content.length = size ∧
    payload = id ++ (bigEndian 1 type ++ (bigEndian 4 size ++ content))

theorem addressed_iff (t : Tables) (payload : Bytes) :
    Addressed t payload ↔
      MessageSound payload ∧ payload.take 16 ∈ t.clients.map ClientRow.id := by
  rw [message_sound_iff]
  constructor
  · rintro ⟨id, type, size, content, id_size, registered, bounds, fits, rfl, rfl⟩
    refine ⟨⟨id, type, content, id_size, (supported_iff type).mpr bounds, fits, rfl⟩, ?_⟩
    rwa [List.take_left' id_size]
  · rintro ⟨⟨id, type, content, id_size, supported, fits, rfl⟩, registered⟩
    rw [message_destination id_size] at registered
    exact ⟨id, type, content.length, content, id_size, registered,
      (supported_iff type).mp supported, fits, rfl, rfl⟩

theorem limited_answers (q : Statement) (t : Tables) (faults : List (Option DatabaseError)) :
    executeLimited q (t, none :: faults) =
      if sqliteMaxLength < q.recordLength then ((t, faults), .error .otherError)
      else (((execute q t).1, faults), (execute q t).2) := rfl

theorem limited_select (id : Bytes) (t : Tables) (faults : List (Option DatabaseError)) :
    executeLimited (.selectClientById id) (t, none :: faults) =
      ((t, faults), .ok (t.clients.filter (·.id = id))) := rfl

theorem limited_insert (msgId : Nat) (dst source : Bytes) (type : Nat) (content : Bytes)
    (t : Tables) (fault : Option DatabaseError) (faults : List (Option DatabaseError)) :
    let insert := Statement.insertMessage msgId dst source type content
    let stored := msgId ∉ t.messages.map MessageRow.id ∧
      insert.recordLength ≤ sqliteMaxLength ∧ fault = none
    (stored → executeLimited insert (t, fault :: faults) =
        (({ t with
            messages := t.messages ++ [⟨msgId, dst, source, type, content, t.accepted⟩]
            accepted := t.accepted + 1 }, faults), .ok ())) ∧
      (¬ stored → ∃ e, executeLimited insert (t, fault :: faults) = ((t, faults), .error e)) := by
  intro insert stored
  constructor
  · rintro ⟨fresh, fits, rfl⟩
    rw [limited_answers, if_neg (Nat.not_lt.mpr fits)]
    simp only [insert, execute, if_neg fresh]
  · intro refused
    cases fault with
    | some e => exact ⟨e, rfl⟩
    | none =>
      by_cases fits : insert.recordLength ≤ sqliteMaxLength
      · have taken : msgId ∈ t.messages.map MessageRow.id :=
          by_contra fun fresh => refused ⟨fresh, fits, rfl⟩
        refine ⟨.integrityError, ?_⟩
        rw [limited_answers, if_neg (Nat.not_lt.mpr fits)]
        simp only [insert, execute, if_pos taken]
      · refine ⟨.otherError, ?_⟩
        rw [limited_answers, if_pos (Nat.not_le.mp fits)]

theorem send_reaches_iff (msgId : Nat) (payload source : Bytes) (t : Tables)
    (faults : List (Option DatabaseError)) :
    ReachesAddMessage (sendMsg msgId payload source) t (none :: faults) ↔
      MessageSound payload ∧ payload.take 16 ∈ t.clients.map ClientRow.id := by
  unfold ReachesAddMessage
  by_cases enough : 21 ≤ payload.length
  · rw [send_program msgId source enough, issued_statement, limited_select]
    dsimp only
    by_cases known : payload.take 16 ∈ t.clients.map ClientRow.id
    · simp only [(row_found_iff ClientRow.id _ _).mpr known, ↓reduceIte, sendTail]
      by_cases sound : MessageSound payload
      · refine iff_of_true ⟨msgId, payload.take 16, source, fromBigEndian (slice payload 16 17),
          payload.drop 21, ?_⟩ ⟨sound, known⟩
        simp only [sound, ↓reduceIte, issued_statement, List.mem_cons, true_or, or_true]
      · simp [sound]
    · simp only [(row_found_iff ClientRow.id _ _).not.mpr known, ↓reduceIte]
      simp [known]
  · rw [send_refused msgId source (by omega)]
    have no_message : ¬ MessageSound payload := fun sound => enough sound.1
    simp [no_message]

theorem sent_accepted {t after : Tables} {draws : Draws} {request : ServerRequest}
    (asked : request.requestCode = codeSendMsg) {resp : ServerResponse}
    (answered : run execute (handle draws request) t = (after, .ok resp))
    (success : resp.code = codeMsgSent) :
    MessageAccepted t draws.msgId request.payload ∧
      after = withMessage t draws.msgId request.payload request.clientId.bytes ∧
      resp = sentResponse (request.payload.take 16) draws.msgId := by
  rw [handle_send draws asked] at answered
  by_cases accepted : MessageAccepted t draws.msgId request.payload
  · rw [run_send_accepted _ accepted] at answered
    cases answered
    exact ⟨accepted, rfl, rfl⟩
  · rw [run_send_refused _ accepted] at answered
    cases answered
    cases success

section Sends
variable {id : Bytes} {type : Nat} (id_size : id.length = 16) (supported : type ∈ supportedMsgTypes)
  {content : Bytes} (fits : content.length < 2 ^ 32)
include id_size supported fits

theorem run_limited_send {t : Tables} (registered : id ∈ t.clients.map ClientRow.id)
    (msgId : Nat) (source : Bytes) (faults : List (Option DatabaseError)) :
    run executeLimited (sendMsg msgId (messagePayload id type content) source)
        (t, none :: faults) =
      let inserted := executeLimited (.insertMessage msgId id source type content) (t, faults)
      (inserted.1, match inserted.2 with
        | .ok _ => .ok (sentResponse id msgId)
        | .error _ => .ok getErrResponse) := by
  have sound := message_sound id_size supported fits
  rw [send_program msgId source sound.1, run_statement, limited_select,
    message_destination id_size]
  simp only [(row_found_iff ClientRow.id _ _).mpr registered, ↓reduceIte]
  rw [sendTail, if_pos sound, run_statement, message_destination id_size,
    message_content id_size, message_type id_size supported]
  split <;> rename_i answered <;> rw [answered] <;> rfl

end Sends

/-- What a client can construct is stored as it is, unless its id is taken or the store
    refuses its row, and nothing but the grammar gets as far as add_message. -/
theorem message_format_bijection (t : Tables) (draws : Draws) {request : ServerRequest}
    (asked : request.requestCode = codeSendMsg) (fault : Option DatabaseError)
    (faults : List (Option DatabaseError)) :
    (∀ id type m, id.length = 16 → id ∈ t.clients.map ClientRow.id → Constructed id type m →
      m.messageContent.length < 2 ^ 32 → request.payload = Message.buildMsg m [] →
        let row := Statement.insertMessage draws.msgId id request.clientId.bytes type
          m.messageContent
        let stored := draws.msgId ∉ t.messages.map MessageRow.id ∧
          row.recordLength ≤ sqliteMaxLength ∧ fault = none
        let after := run executeLimited (handle draws request) (t, none :: fault :: faults)
        (stored → after = (({ t with
              messages := t.messages ++ [⟨draws.msgId, id, request.clientId.bytes, type,
                m.messageContent, t.accepted⟩]
              accepted := t.accepted + 1 }, faults),
            .ok (sentResponse id draws.msgId))) ∧
          (¬ stored → after = ((t, faults), .ok getErrResponse))) ∧
    (ReachesAddMessage (handle draws request) t (none :: faults) ↔
      Addressed t request.payload) := by
  rw [handle_send draws asked]
  constructor
  · intro id type m id_size registered made fits built_bytes row stored after
    have supported := (constructed_fields made).1
    obtain ⟨taken, refused⟩ := limited_insert draws.msgId id request.clientId.bytes type
      m.messageContent t fault faults
    have sends := run_limited_send id_size supported fits registered draws.msgId
      request.clientId.bytes (fault :: faults)
    rw [← built_payload made, ← built_bytes] at sends
    constructor
    · intro holds
      rw [taken holds] at sends
      exact sends
    · intro fails
      obtain ⟨e, error⟩ := refused fails
      rw [error] at sends
      exact sends
  · rw [send_reaches_iff, addressed_iff]

theorem text_stored :
    let owner : ClientId := ⟨List.replicate 16 1, rfl⟩
    let t : Tables := ⟨[⟨owner.bytes, [0x41], []⟩], [], 0⟩
    let draws : Draws := ⟨owner, 7, by decide, by decide⟩
    let m : Message := ⟨owner.bytes, messageTypeSendTxt, 2, [0x68, 0x69]⟩
    let request := requestOf ⟨List.replicate 16 2, rfl⟩ codeSendMsg (Message.buildMsg m [])
    (run executeLimited (handle draws request) (t, [none, none])).1.1.messages =
        [⟨7, owner.bytes, List.replicate 16 2, msgTypeSendTxtMsg, [0x68, 0x69], 0⟩] ∧
      ReachesAddMessage (handle draws request) t [none] := by
  intro owner t draws m request
  obtain ⟨stored, reached⟩ := message_format_bijection t draws
    (show request.requestCode = codeSendMsg from rfl) none []
  have sent : request.payload = Message.buildMsg m [] := request_payload _ _ _
  have made : Constructed owner.bytes messageTypeSendTxt m :=
    Or.inr ⟨[0x68, 0x69], by decide⟩
  constructor
  · rw [(stored owner.bytes messageTypeSendTxt m rfl (by decide) made (by decide) sent).1
      ⟨by decide, by decide, rfl⟩]
    rfl
  · rw [reached, sent]
    exact ⟨owner.bytes, 3, 2, [0x68, 0x69], rfl, by decide, by decide, by decide, rfl, by decide⟩

theorem long_text_refused {owner sender : ClientId} {t : Tables}
    (registered : owner.bytes ∈ t.clients.map ClientRow.id) (draws : Draws) {content : Bytes}
    (long : sqliteMaxLength ≤ content.length) (fits : content.length < 2 ^ 32) :
    run executeLimited (handle draws (requestOf sender codeSendMsg
        (messagePayload owner.bytes messageTypeSendTxt content))) (t, [none, none]) =
      ((t, []), .ok getErrResponse) := by
  have last : Column.blob content.length ∈ [.integer draws.msgId, .blob owner.bytes.length,
      .blob sender.bytes.length, .integer messageTypeSendTxt, .blob content.length] := by simp
  have row_length := column_shorter last
  have refused := (limited_insert draws.msgId owner.bytes sender.bytes messageTypeSendTxt content
    t none []).2 fun stored =>
      absurd stored.2.1 (Nat.not_le.mpr (Nat.lt_of_le_of_lt long row_length))
  obtain ⟨e, error⟩ := refused
  rw [handle_send _ rfl, request_payload,
    run_limited_send owner.size (by decide) fits registered]
  dsimp only
  rw [show (requestOf sender codeSendMsg _).clientId = sender from rfl, error]

/-- A text of SQLite's limit is refused, though its id is fresh and nothing else fails. -/
theorem billion_bytes_refused :
    let owner : ClientId := ⟨List.replicate 16 1, rfl⟩
    let sender : ClientId := ⟨List.replicate 16 2, rfl⟩
    let t : Tables := ⟨[⟨owner.bytes, [0x41], []⟩], [], 0⟩
    let draws : Draws := ⟨owner, 7, by decide, by decide⟩
    let content : Bytes := List.replicate 1000000000 0x61
    let m : Message := ⟨owner.bytes, messageTypeSendTxt, content.length, content⟩
    let request := requestOf sender codeSendMsg (Message.buildMsg m [])
    Constructed owner.bytes messageTypeSendTxt m ∧ content.length < 2 ^ 32 ∧
      accept request.rawData = some request ∧ owner.bytes ∈ t.clients.map ClientRow.id ∧
      draws.msgId ∉ t.messages.map MessageRow.id ∧
      run executeLimited (handle draws request) (t, [none, none]) =
        ((t, []), .ok getErrResponse) := by
  intro owner sender t draws content m request
  have size : content.length = 1000000000 := List.length_replicate
  clear_value content
  have made : Constructed owner.bytes messageTypeSendTxt m := by
    refine Or.inr ⟨content, ?_⟩
    have valid : Message.isMsgTypeValid messageTypeSendTxt = true := by decide
    have no_request : ¬ messageTypeSendTxt = messageTypeRequestSymKey := by decide
    simp [Message.ofContent, Message.setContent, valid, no_request, m]
  have bytes : Message.buildMsg m [] = messagePayload owner.bytes messageTypeSendTxt content :=
    built_payload made
  have registered : owner.bytes ∈ t.clients.map ClientRow.id := by simp [t]
  have long : (messagePayload owner.bytes messageTypeSendTxt content).length = 21 + 1000000000 := by
    rw [message_length owner.size, size]
  refine ⟨made, by omega, ?_, registered, by simp [t], ?_⟩
  · exact accept_layout sender _ (show codeSendMsg ∈ supportedCodes by decide) (by rw [bytes]; omega)
  · simp only [request, bytes]
    exact long_text_refused registered draws (by rw [size]; decide) (by omega)

/-! A client registered as "A" that sends itself a text. -/

def ownText (owner : ClientId) (msgId : Nat) (text : Bytes) : MessageRow :=
  ⟨msgId, owner.bytes, owner.bytes, msgTypeSendTxtMsg, text, 0⟩

theorem own_text_waiting (owner : ClientId) (msgId : Nat) (text : Bytes) :
    Tables.mailbox ⟨[ownRow owner], [ownText owner msgId text], 1⟩ owner.bytes =
      [ownText owner msgId text] := by
  simp [Tables.mailbox, ownText]

section OwnText
variable (owner : ClientId) (draws : Draws) {text : Bytes} (short : text.length ≤ 65515)
include short

theorem own_text_stored :
    run execute (handle draws (requestOf owner codeSendMsg
        (messagePayload owner.bytes messageTypeSendTxt text))) ⟨[ownRow owner], [], 0⟩ =
      (⟨[ownRow owner], [ownText owner draws.msgId text], 1⟩,
        .ok (sentResponse owner.bytes draws.msgId)) := by
  rw [handle_send _ rfl, request_payload, run_send_message owner.size (by decide) (by omega)
    (by simp [ownRow]) (by simp)]
  rfl

theorem own_text_reached :
    ReachableTables ⟨[ownRow owner], [ownText owner draws.msgId text], 1⟩ := by
  obtain ⟨history, registered⟩ := own_messages_stored owner [] (by simp) (by simp)
  have sends : sequential.step ⟨⟨[ownRow owner], [], 0⟩, history⟩
      ⟨draws, requestOf owner codeSendMsg (messagePayload owner.bytes messageTypeSendTxt text)⟩
      _ := rfl
  rw [own_text_stored owner draws short] at sends
  exact .sequential (.next (restricted_reachable registered) sends)

end OwnText

theorem owner_one_size : (List.replicate 16 (1 : Byte)).length = fieldClientIdSize := rfl

def ownerOne : ClientId := ⟨List.replicate 16 1, owner_one_size⟩

theorem first_id_small : 1 ≤ 0xffffffff := by decide

def firstDraws : Draws := ⟨ownerOne, 1, Nat.one_pos, first_id_small⟩

end MessageFormat
