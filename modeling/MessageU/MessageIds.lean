import MessageU.FetchDelivery
import MessageU.MessageFormat

/- The id of a message on its two ways out of the server. The sender gets it with the
   least significant byte first, the recipient with the most significant byte first,
   and neither side compares them. -/
namespace MessageIds
open ByteFields StatementPrograms RequestFormat ServerTables ResponseFormat RequestHandling
open ServerRuns HandlerOutcomes ClientReception FetchDelivery MessageFormat

structure Sent where
  tables : Tables
  draws : Draws
  request : ServerRequest
  after : Tables
  response : ServerResponse
  asked : request.requestCode = codeSendMsg
  answered : run execute (handle draws request) tables = (after, .ok response)
  success : response.code = codeMsgSent

def Sent.row (s : Sent) : MessageRow :=
  ⟨s.draws.msgId, s.request.payload.take 16, s.request.clientId.bytes,
    fromBigEndian (slice s.request.payload 16 17), s.request.payload.drop 21, s.tables.accepted⟩

theorem row_stored (s : Sent) : s.after.messages = s.tables.messages ++ [s.row] := by
  obtain ⟨-, after, -⟩ := sent_accepted s.asked s.answered s.success
  rw [after]
  rfl

/-- What the sender receives behind the destination. -/
def Sent.idBytes (s : Sent) : Bytes := slice s.response.payload 16 20

structure Fetched (m : MessageRow) where
  tables : Tables
  reached : ReachableTables tables
  draws : Draws
  request : ServerRequest
  response : ServerResponse
  asked : request.requestCode = codeFetchMessages
  answered : (run execute (handle draws request) tables).2 = .ok response
  front : List MessageRow
  back : List MessageRow
  waiting : tables.mailbox request.clientId.bytes = front ++ m :: back

/-- What the recipient receives in the record of the message, behind its source. -/
def Fetched.idBytes {m : MessageRow} (f : Fetched m) : Bytes :=
  let start := (f.front.flatMap fetchRecord).length
  slice f.response.payload (start + 16) (start + 20)

theorem sent_little_endian (s : Sent) : s.idBytes = littleEndian 4 s.draws.msgId := by
  obtain ⟨⟨sound, -, -⟩, -, response⟩ := sent_accepted s.asked s.answered s.success
  have dst_size : (s.request.payload.take 16).length = 16 := by
    have enough := sound.1
    rw [List.length_take]
    omega
  have middle := slice_middle (s.request.payload.take 16) (littleEndian 4 s.draws.msgId) []
    dst_size (by rw [dst_size, little_endian_length])
  rw [List.append_nil] at middle
  rw [Sent.idBytes, response]
  exact middle

theorem fetched_big_endian {m : MessageRow} (f : Fetched m) : f.idBytes = bigEndian 4 m.id := by
  have sound := reachable_sound f.reached
  obtain ⟨response, -⟩ := fetch_answer sound f.asked f.answered
  have source : m.fromClient.length = 16 :=
    (mailbox_sound sound f.request.clientId.bytes m (by simp [f.waiting])).source
  have payload : f.response.payload = f.front.flatMap fetchRecord ++
      (fetchRecord m ++ f.back.flatMap fetchRecord) := by
    rw [response, f.waiting, List.flatMap_append, List.flatMap_cons]
  rw [Fetched.idBytes, payload, slice_shift, fetchRecord, List.append_assoc, List.append_assoc]
  exact slice_middle _ _ _ source (by rw [source, big_endian_length])

theorem orders_agree_iff {a b : Nat} (fits : b < 2 ^ 32) :
    littleEndian 4 a = bigEndian 4 b ↔ byteswapUlong a = b := by
  have back := big_endian_of_bytes (littleEndian 4 a)
  rw [little_endian_length] at back
  unfold byteswapUlong
  constructor
  · intro same
    rw [same, from_big_endian_of_lt fits]
  · rintro rfl
    exact back.symm

theorem agree_iff (s other : Sent) (g : Fetched other.row) :
    s.idBytes = g.idBytes ↔ byteswapUlong s.draws.msgId = other.draws.msgId := by
  have fits : other.draws.msgId < 2 ^ 32 := Nat.lt_of_le_of_lt other.draws.small (by decide)
  rw [sent_little_endian, fetched_big_endian]
  exact orders_agree_iff fits

/-- Sender and recipient get the same bytes if the id reads the same from both ends;
    two messages are told apart by them if no id is another one read backwards. -/
theorem message_ids_agree_iff (s : Sent) (f : Fetched s.row) (other : Sent)
    (g : Fetched other.row) :
    (s.idBytes = f.idBytes ↔ byteswapUlong s.draws.msgId = s.draws.msgId) ∧
    ((s.idBytes = g.idBytes ↔ s.draws.msgId = other.draws.msgId) ↔
      (byteswapUlong s.draws.msgId = other.draws.msgId ↔ s.draws.msgId = other.draws.msgId)) ∧
    (s.row ∈ g.tables.messages → (s.draws.msgId = other.draws.msgId ↔ s.row = other.row)) := by
  refine ⟨agree_iff s s f, by rw [agree_iff s other g], ?_⟩
  intro stored
  have waiting : other.row ∈ g.tables.mailbox g.request.clientId.bytes := by simp [g.waiting]
  have keyed := (reachable_sound g.reached).keyed.messageIds
  constructor
  · intro same
    exact List.inj_on_of_nodup_map keyed stored (List.mem_of_mem_filter waiting) same
  · intro same
    exact congrArg MessageRow.id same

def hiSent (draws : Draws) : Sent where
  tables := ⟨[ownRow ownerOne], [], 0⟩
  draws := draws
  request := requestOf ownerOne codeSendMsg
    (messagePayload ownerOne.bytes messageTypeSendTxt [0x68, 0x69])
  after := ⟨[ownRow ownerOne], [ownText ownerOne draws.msgId [0x68, 0x69]], 1⟩
  response := sentResponse ownerOne.bytes draws.msgId
  asked := rfl
  answered := own_text_stored ownerOne draws (by decide)
  success := rfl

theorem hi_fetched (draws : Draws) : Nonempty (Fetched (hiSent draws).row) := by
  have row : (hiSent draws).row = ownText ownerOne draws.msgId [0x68, 0x69] :=
    (List.cons.inj (row_stored (hiSent draws))).1.symm
  have reached := own_text_reached ownerOne draws (show ([0x68, 0x69] : Bytes).length ≤ 65515 by
    decide)
  have waiting := own_text_waiting ownerOne draws.msgId [0x68, 0x69]
  have short : ((Tables.mailbox (hiSent draws).after ownerOne.bytes).flatMap fetchRecord).length ≤
      65536 := by
    rw [show (hiSent draws).after.mailbox ownerOne.bytes = _ from waiting, List.flatMap_singleton,
      fetch_record_length (show (ownText ownerOne draws.msgId [0x68, 0x69]).fromClient.length = 16
        from ownerOne.size)]
    simp [ownText]
  obtain ⟨response, answered, -⟩ := fetch_answered (reachable_sound reached) draws
    (show (requestOf ownerOne codeFetchMessages []).requestCode = _ from rfl)
    (show 65536 < 2 ^ 32 by decide) short
  exact ⟨⟨_, reached, draws, _, response, rfl, answered, [], [], by rw [row]; exact waiting⟩⟩

theorem palindrome_agrees :
    let s := hiSent ⟨ownerOne, 0x01000001, by decide, by decide⟩
    ∃ f : Fetched s.row, s.idBytes = f.idBytes := by
  intro s
  obtain ⟨f⟩ := hi_fetched ⟨ownerOne, 0x01000001, by decide, by decide⟩
  exact ⟨f, (message_ids_agree_iff s f s f).1.mpr (by decide)⟩

/-- The message with id 1. -/
theorem first_id_differs :
    (hiSent firstDraws).idBytes = [1, 0, 0, 0] ∧
      ∃ f : Fetched (hiSent firstDraws).row, f.idBytes = [0, 0, 0, 1] := by
  obtain ⟨f⟩ := hi_fetched firstDraws
  refine ⟨sent_little_endian _, f, ?_⟩
  rw [fetched_big_endian]
  decide

end MessageIds
