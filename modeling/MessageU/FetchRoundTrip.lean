import MessageU.ClientReception
import MessageU.RequestHandling

/- What the server's fetch writes, read by the client's loop with every read
   whole. The loop counts the header of a message without content twice, so it
   keeps its own idea of the position: the position plus 25 for each such message
   so far. It reads the last message just when that has not passed the end. -/
namespace FetchRoundTrip
open ByteFields SegmentedStream StatementPrograms RequestFormat ServerTables ResponseFormat
open RequestHandling ClientReception

structure Deliverable (m : MessageRow) : Prop where
  source : m.fromClient.length = 16
  id : m.id < 2 ^ 32
  type : m.type ∈ supportedMsgTypes
  bare_request : m.type = 1 → m.content = []

def toMessage (m : MessageRow) : Message := ⟨m.fromClient, m.type, m.content.length, m.content⟩

def recordHeader (m : MessageRow) : Bytes :=
  m.fromClient ++ (bigEndian 4 m.id ++ (bigEndian 1 (m.type &&& 0xff) ++
    bigEndian 4 m.content.length))

/-- What the loop adds to its counter for one message. -/
def counted (m : MessageRow) : Nat := 25 + if m.content = [] then 25 else m.content.length

def countedAll (rows : List MessageRow) : Nat := (rows.map counted).sum

/-- The counter is short of the end before each message and not after the last. -/
def Continues (size : Nat) : Nat → List MessageRow → Prop
  | received, [] => size ≤ received
  | received, m :: rest => received < size ∧ Continues size (received + counted m) rest

theorem record_split (m : MessageRow) : fetchRecord m = recordHeader m ++ m.content := by
  simp only [fetchRecord, recordHeader, List.append_assoc]

theorem continues_snoc (size received : Nat) (front : List MessageRow) (last : MessageRow) :
    Continues size received (front ++ [last]) ↔
      received + countedAll front < size ∧
        size ≤ received + countedAll front + counted last := by
  induction front generalizing received with
  | nil => simp [Continues, countedAll]
  | cons m front ih =>
    have step : countedAll (m :: front) = counted m + countedAll front := by simp [countedAll]
    rw [List.cons_append, Continues, ih, step]
    omega

/-! One message. -/

def Refused (m : MessageRow) : Prop := m.type = messageTypeRequestSymKey ∧ m.content ≠ []

instance (m : MessageRow) : Decidable (Refused m) := inferInstanceAs (Decidable (_ ∧ _))

section Record
variable {m : MessageRow}

theorem header_length (source : m.fromClient.length = 16) : (recordHeader m).length = 25 := by
  simp [recordHeader, source]

theorem header_source (source : m.fromClient.length = 16) (buffer : Bytes) :
    (recordHeader m ++ buffer).take 16 = m.fromClient := by
  rw [recordHeader, List.append_assoc, List.take_left' source]

theorem header_type (source : m.fromClient.length = 16) (type : m.type ∈ supportedMsgTypes)
    (buffer : Bytes) : ((recordHeader m ++ buffer).getD 20 0).toNat = m.type := by
  have small : ∀ x ∈ supportedMsgTypes, x &&& 0xff = x ∧ x < 256 := by decide
  obtain ⟨same, fits⟩ := small m.type type
  have byte : bigEndian 1 (m.type &&& 0xff) = [UInt8.ofNat m.type] := by simp [bigEndian, same]
  have front : (m.fromClient ++ bigEndian 4 m.id).length = 20 := by simp [source]
  rw [recordHeader, byte, ← List.append_assoc, List.append_assoc, List.getD_append_right _ _ _ _
    (by omega), front]
  simp only [Nat.sub_self, List.cons_append, List.getD_cons_zero, byte_value]
  exact Nat.mod_eq_of_lt fits

theorem header_size (source : m.fromClient.length = 16) (short : m.content.length < 2 ^ 32)
    (buffer : Bytes) :
    byteswapUlong (fromLittleEndian (slice (recordHeader m ++ buffer) 21 25)) =
      m.content.length := by
  have field : slice (recordHeader m ++ buffer) 21 25 = bigEndian 4 m.content.length := by
    rw [recordHeader, ← List.append_assoc, ← List.append_assoc, List.append_assoc]
    exact slice_middle _ _ _ (by simp [source]) (by simp [source])
  have width : (bigEndian 4 m.content.length).length = 4 := big_endian_length 4 _
  have swapped := swapped_read (bigEndian 4 m.content.length)
  rw [width] at swapped
  rw [field, byteswapUlong, swapped, from_big_endian_of_lt short]

theorem valid_type_iff (type : Nat) :
    Message.isMsgTypeValid type = true ↔ type ∈ supportedMsgTypes := by
  rw [supported_iff]
  simp only [Message.isMsgTypeValid, supportedMessageTypes, messageTypeRequestSymKey,
    messageTypeSendSymKey, messageTypeSendTxt, messageTypeSendFile, List.any_cons, List.any_nil,
    Bool.or_eq_true, beq_iff_eq, Bool.or_false]
  omega

theorem bare_message (type : m.type ∈ supportedMsgTypes) (bare : m.content = []) :
    Message.ofType m.fromClient m.type = .ok (toMessage m) := by
  simp [Message.ofType, (valid_type_iff m.type).mpr type, toMessage, bare]

theorem content_message (type : m.type ∈ supportedMsgTypes) (content : Bytes) :
    Message.ofContent m.fromClient m.type content =
      if m.type = messageTypeRequestSymKey then
        .error (.logicError "Message: can't send content for pub key msg")
      else .ok ⟨m.fromClient, m.type, content.length, content⟩ := by
  simp [Message.ofContent, Message.setContent, (valid_type_iff m.type).mpr type]

/-! One turn of the loop whose header read is whole. -/

section Turn
variable (source : m.fromClient.length = 16) (type : m.type ∈ supportedMsgTypes)
variable {size received : Nat} (more : received < size) {sock mid : Socket}
variable (header : recv 25 sock = (.data (recordHeader m), mid))
include source type more header

theorem bare_turn (bare : m.content = []) (buffer : Bytes) :
    ∃ buffer', fetchMassages size received buffer sock =
      (fetchMassages size (received + counted m) buffer' mid).handleMsg (toMessage m) := by
  have long := header_length source
  have no_size := header_size source (show m.content.length < 2 ^ 32 by simp [bare])
  rw [bare, List.length_nil] at no_size
  refine ⟨overwrite buffer (recordHeader m), ?_⟩
  rw [fetchMassages, if_pos more, minMsgResponseSize, header]
  simp only [long, overwrite, OfNat.ofNat_ne_zero, ↓reduceDIte, fieldClientIdSize,
    header_source source, header_type source type, no_size, Nat.not_lt_zero, ↓reduceIte,
    bare_message type bare, counted, bare, ← Nat.add_assoc]

theorem content_turn (full : m.content ≠ []) (short : m.content.length ≤ 65536)
    {content : Bytes} {rest : Socket}
    (read : recv m.content.length mid = (.data content, rest)) (something : content ≠ [])
    (buffer : Bytes) :
    ∃ buffer', fetchMassages size received buffer sock =
      if m.type = messageTypeRequestSymKey then
        ⟨[], .threw (.logicError "Message: can't send content for pub key msg"), rest⟩
      else (fetchMassages size (received + 25 + content.length) buffer' rest).handleMsg
        ⟨m.fromClient, m.type, content.length, content⟩ := by
  have long := header_length source
  have some_content : 0 < m.content.length := List.length_pos_iff.mpr full
  have some_read : content.length ≠ 0 := Nat.ne_of_gt (List.length_pos_iff.mpr something)
  refine ⟨overwrite buffer (recordHeader m), ?_⟩
  rw [fetchMassages, if_pos more, minMsgResponseSize, header]
  simp only [long, overwrite, OfNat.ofNat_ne_zero, ↓reduceDIte, fieldClientIdSize,
    header_source source, header_type source type,
    header_size source (Nat.lt_of_le_of_lt short (by decide)), Client.maxPayloadSize,
    Nat.not_lt.mpr short, ↓reduceIte, some_content, read, some_read, content_message type]
  by_cases request : m.type = messageTypeRequestSymKey
  · simp only [if_pos request]
  · simp only [if_neg request]

end Turn

theorem fetch_one (deliverable : Deliverable m) {size received : Nat} (more : received < size)
    (short : m.content.length ≤ 65536) (buffer rest : Bytes) :
    ∃ buffer', fetchMassages size received buffer (whole (fetchRecord m ++ rest)) =
      (fetchMassages size (received + counted m) buffer' (whole rest)).handleMsg
        (toMessage m) := by
  obtain ⟨source, -, type, bare_request⟩ := deliverable
  have header : recv 25 (whole (fetchRecord m ++ rest)) =
      (.data (recordHeader m), whole (m.content ++ rest)) := by
    have read := recv_whole (recordHeader m) (m.content ++ rest)
    rwa [header_length source, ← List.append_assoc, ← record_split] at read
  by_cases bare : m.content = []
  · have turn := bare_turn source type more header bare buffer
    rwa [bare, List.nil_append] at turn
  · have accepted : ¬ m.type = messageTypeRequestSymKey := fun request =>
      bare (bare_request request)
    obtain ⟨buffer', turn⟩ := content_turn source type more header bare short
      (recv_whole m.content rest) bare buffer
    rw [if_neg accepted] at turn
    refine ⟨buffer', ?_⟩
    rw [turn, counted, if_neg bare, Nat.add_assoc]
    rfl

end Record

/-! The whole payload. -/

theorem handle_msg_inj (msg : Message) (a b : FetchRun) :
    a.handleMsg msg = b.handleMsg msg ↔ a = b := by
  cases a; cases b
  simp [FetchRun.handleMsg]

/-- The loop hands on every message and uses up the payload just when its own
    counter lets it. -/
theorem fetch_all_iff {rows : List MessageRow} (deliverable : ∀ m ∈ rows, Deliverable m)
    (short : ∀ m ∈ rows, m.content.length ≤ 65536) (size received : Nat) (buffer : Bytes) :
    fetchMassages size received buffer (whole (rows.flatMap fetchRecord)) =
        ⟨rows.map toMessage, .returned, []⟩ ↔ Continues size received rows := by
  induction rows generalizing received buffer with
  | nil =>
    rw [fetchMassages, Continues]
    by_cases more : received < size
    · have read : recv minMsgResponseSize (whole []) = (.data [], []) := rfl
      simp only [more, ↓reduceIte, List.flatMap_nil, read, List.length_nil, ↓reduceDIte, recvFailed]
      simp [Nat.not_le.mpr more]
    · simp only [more, ↓reduceIte, List.flatMap_nil, List.map_nil]
      simp [Nat.not_lt.mp more, whole]
  | cons m rest ih =>
    rw [Continues]
    by_cases more : received < size
    · obtain ⟨buffer', turn⟩ := fetch_one (deliverable m List.mem_cons_self) more
        (short m List.mem_cons_self) buffer (rest.flatMap fetchRecord)
      have next := ih (fun x hx => deliverable x (List.mem_cons_of_mem m hx))
        (fun x hx => short x (List.mem_cons_of_mem m hx)) (received + counted m) buffer'
      rw [List.flatMap_cons, turn]
      have target : (⟨(m :: rest).map toMessage, .returned, []⟩ : FetchRun) =
          FetchRun.handleMsg (toMessage m) ⟨rest.map toMessage, .returned, []⟩ := rfl
      rw [target, handle_msg_inj, next]
      simp [more]
    · rw [fetchMassages, if_neg more]
      simp [more]

theorem counted_all {rows : List MessageRow} (sources : ∀ m ∈ rows, m.fromClient.length = 16) :
    countedAll rows = (rows.flatMap fetchRecord).length +
      25 * (rows.filter (·.content = [])).length := by
  induction rows with
  | nil => rfl
  | cons m rest ih =>
    have tail := ih fun x hx => sources x (List.mem_cons_of_mem m hx)
    have long := fetch_record_length (sources m List.mem_cons_self)
    have step : countedAll (m :: rest) = counted m + countedAll rest := by simp [countedAll]
    rw [step, tail, counted, List.flatMap_cons, List.length_append, long]
    by_cases bare : m.content = []
    · simp only [bare, ↓reduceIte, decide_true, List.filter_cons_of_pos, List.length_cons,
        List.length_nil]
      omega
    · simp only [bare, ↓reduceIte, decide_false, Bool.false_eq_true, not_false_eq_true,
        List.filter_cons_of_neg]
      omega

theorem content_within {rows : List MessageRow} {m : MessageRow} (listed : m ∈ rows)
    (source : m.fromClient.length = 16) :
    m.content.length ≤ (rows.flatMap fetchRecord).length := by
  have inside : (fetchRecord m).Sublist (rows.flatMap fetchRecord) := by
    rw [List.flatMap_def]
    exact List.sublist_flatten_of_mem (List.mem_map_of_mem listed)
  have shorter := inside.length_le
  rw [fetch_record_length source] at shorter
  omega

theorem continues_iff {rows : List MessageRow}
    (sources : ∀ m ∈ rows, m.fromClient.length = 16) :
    Continues (rows.flatMap fetchRecord).length 0 rows ↔
      ∀ front last, rows = front ++ [last] →
        25 * (front.filter (·.content = [])).length < 25 + last.content.length := by
  rcases List.eq_nil_or_concat rows with nothing | ⟨front, last, snoc⟩
  · subst nothing
    simp [Continues]
  · rw [List.concat_eq_append] at snoc
    subst snoc
    have front_counted := counted_all fun m hm => sources m (List.mem_append_left [last] hm)
    have long := fetch_record_length (sources last (by simp))
    have enough : 25 + last.content.length ≤ counted last := by
      unfold counted
      split
      · simp_all
      · exact Nat.le_refl _
    rw [continues_snoc, front_counted, List.flatMap_append, List.length_append,
      List.flatMap_singleton, long]
    constructor
    · rintro ⟨before, -⟩ front' last' same
      obtain ⟨rfl, last_same⟩ := List.append_inj' same rfl
      cases last_same
      omega
    · intro condition
      have := condition front last rfl
      omega

theorem fetched_payload {t : Tables} {client : Bytes}
    (deliverable : ∀ m ∈ t.mailbox client, Deliverable m)
    (small : ((t.mailbox client).flatMap fetchRecord).length ≤ 65536) :
    ∃ resp, (run execute (fetchMessages client) t).2 = .ok resp ∧
      resp.payload = (t.mailbox client).flatMap fetchRecord := by
  have packs : ∀ m ∈ t.mailbox client, Packs m := fun m hm =>
    ⟨(deliverable m hm).id, Nat.lt_of_le_of_lt
      ((content_within hm (deliverable m hm).source).trans small) (by decide)⟩
  rw [fetch_program, run_statement]
  simp only [execute]
  rw [show t.messages.filter (fun m => decide (m.toClient = client)) = t.mailbox client from rfl,
    run_fetch_loop packs, List.nil_append, build_ok (by omega)]
  exact ⟨_, rfl, rfl⟩

/-- Every message of the mailbox reaches _handle_msg, once and in order, and the
    loop ends with the payload, unless the messages without content before the
    last one have pushed the counter past the end. -/
theorem fetched_mailbox_read_iff {t : Tables} {client : Bytes}
    (deliverable : ∀ m ∈ t.mailbox client, Deliverable m)
    (small : ((t.mailbox client).flatMap fetchRecord).length ≤ 65536) (buffer : Bytes) :
    (∃ resp, (run execute (fetchMessages client) t).2 = .ok resp ∧
      fetchMassages resp.payload.length 0 buffer (whole resp.payload) =
        ⟨(t.mailbox client).map toMessage, .returned, []⟩) ↔
      ∀ front last, t.mailbox client = front ++ [last] →
        25 * (front.filter (·.content = [])).length < 25 + last.content.length := by
  have short : ∀ m ∈ t.mailbox client, m.content.length ≤ 65536 := fun m hm =>
    (content_within hm (deliverable m hm).source).trans small
  obtain ⟨resp, answered, payload⟩ := fetched_payload deliverable small
  rw [← continues_iff fun m hm => (deliverable m hm).source, answered]
  constructor
  · rintro ⟨_, ⟨rfl⟩, all⟩
    rw [payload] at all
    exact (fetch_all_iff deliverable short _ 0 buffer).mp all
  · intro continues
    refine ⟨resp, rfl, ?_⟩
    rw [payload]
    exact (fetch_all_iff deliverable short _ 0 buffer).mpr continues

def textRow (id : Nat) (content : Bytes) : MessageRow :=
  ⟨id, List.replicate 16 1, List.replicate 16 2, msgTypeSendTxtMsg, content, id⟩

theorem empty_then_text_read :
    let t : Tables := ⟨[], [textRow 1 [], textRow 2 [0x68, 0x69]], 2⟩
    ∃ resp, (run execute (fetchMessages (List.replicate 16 1)) t).2 = .ok resp ∧
      fetchMassages resp.payload.length 0 (List.replicate 25 0) (whole resp.payload) =
        ⟨[toMessage (textRow 1 []), toMessage (textRow 2 [0x68, 0x69])], .returned, []⟩ := by
  intro t
  have deliverable : ∀ m ∈ t.mailbox (List.replicate 16 1), Deliverable m := by
    intro m hm
    have rows : m = textRow 1 [] ∨ m = textRow 2 [0x68, 0x69] := by
      simpa [t, Tables.mailbox, textRow] using hm
    rcases rows with rfl | rfl
    · exact ⟨by decide, by decide, by decide, fun _ => rfl⟩
    · exact ⟨by decide, by decide, by decide, fun request => by cases request⟩
  refine (fetched_mailbox_read_iff deliverable (by decide) (List.replicate 25 0)).mpr ?_
  · intro front last snoc
    have both : [textRow 1 []] ++ [textRow 2 [0x68, 0x69]] = front ++ [last] := snoc
    obtain ⟨rfl, last_same⟩ := List.append_inj' both rfl
    cases last_same
    decide

def requestRow (id : Nat) : MessageRow :=
  ⟨id, List.replicate 16 1, List.replicate 16 2, msgTypeGetSymKey, [], id⟩

/-- Two requests for a symmetric key: 50 is counted for the first, so the second
    stays in the socket and never reaches _handle_msg. -/
theorem second_request_not_read :
    let t : Tables := ⟨[], [requestRow 1, requestRow 2], 3⟩
    let client : Bytes := List.replicate 16 1
    (∀ m ∈ t.mailbox client, Deliverable m) ∧
      ((t.mailbox client).flatMap fetchRecord).length ≤ 65536 ∧
      ¬ ∃ resp, (run execute (fetchMessages client) t).2 = .ok resp ∧
        fetchMassages resp.payload.length 0 (List.replicate 25 0) (whole resp.payload) =
          ⟨(t.mailbox client).map toMessage, .returned, []⟩ := by
  intro t client
  have listed : t.mailbox client = [requestRow 1, requestRow 2] := by decide
  have deliverable : ∀ m ∈ t.mailbox client, Deliverable m := by
    intro m hm
    have rows : m = requestRow 1 ∨ m = requestRow 2 := by simpa [listed] using hm
    rcases rows with rfl | rfl
    · exact ⟨by decide, by decide, by decide, fun _ => rfl⟩
    · exact ⟨by decide, by decide, by decide, fun _ => rfl⟩
  have small : ((t.mailbox client).flatMap fetchRecord).length ≤ 65536 := by decide
  refine ⟨deliverable, small, ?_⟩
  rintro ⟨resp, answered, all⟩
  obtain ⟨_, same, payload⟩ := fetched_payload deliverable small
  rw [answered] at same
  cases same
  have short : ∀ m ∈ t.mailbox client, m.content.length ≤ 65536 := fun m hm =>
    (content_within hm (deliverable m hm).source).trans small
  rw [payload, fetch_all_iff deliverable short, listed] at all
  exact absurd all.2.1 (by decide)

end FetchRoundTrip
