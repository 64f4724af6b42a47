import MessageU.LetterBoxes
import MessageU.ServerRuns

/- The server as a store-and-forward mail service. A letter is read from the
   bytes on both sides: from the request and response of an accepted send, and
   from the records of a fetch response. Every request handled is then a post, a
   collection or no move at all. -/
namespace MailboxConservation
open ByteFields GuardedRuns StatementPrograms LetterBoxes RequestFormat ServerTables
open ResponseFormat RequestHandling ServerRuns

structure Letter where
  source : Bytes
  id : Nat
  type : Nat
  content : Bytes
  deriving DecidableEq, Repr

/-- The records of a fetch payload: source, id, type, size, content. -/
def parseRecords (payload : Bytes) : List Letter :=
  if payload.length < 25 then []
  else
    let size := fromBigEndian (slice payload 21 25)
    ⟨slice payload 0 16, fromBigEndian (slice payload 16 20), fromBigEndian (slice payload 20 21),
      slice payload 25 (25 + size)⟩ :: parseRecords (payload.drop (25 + size))
termination_by payload.length

def acceptedIn (client : Bytes) (e : Exchange) : List Letter :=
  match e.result with
  | .ok r =>
    if r.code = codeMsgSent ∧ e.request.payload.take 16 = client then
      [⟨e.request.clientId.bytes, fromLittleEndian (r.payload.drop 16),
        fromBigEndian (slice e.request.payload 16 17), e.request.payload.drop 21⟩]
    else []
  | .error _ => []

def fetchedIn (client : Bytes) (e : Exchange) : List Letter :=
  match e.result with
  | .ok r =>
    if r.code = codeMsgFetch ∧ e.request.clientId.bytes = client then parseRecords r.payload
    else []
  | .error _ => []

def letter (m : MessageRow) : Letter := ⟨m.fromClient, m.id, m.type, m.content⟩

def boxes (s : Server) : Boxes Bytes Letter where
  accepted client := s.history.flatMap (acceptedIn client)
  delivered client := s.history.flatMap (fetchedIn client)
  waiting client := (s.tables.mailbox client).map letter

/-- A fetch payload that struct.pack can give the size of. -/
def FetchFits (s : Server) (call : Call) : Prop :=
  call.request.requestCode = codeFetchMessages →
    ((s.tables.mailbox call.request.clientId.bytes).flatMap fetchRecord).length < 2 ^ 32

theorem parse_record {m : MessageRow} (sound : MessageRow.Sound m) (rest : Bytes) :
    parseRecords (fetchRecord m ++ rest) = letter m :: parseRecords rest := by
  have long := fetch_record_length sound.source
  have type := (supported_iff _).mp sound.type
  have type_kept : m.type &&& 0xff = m.type := by
    rw [show (0xff : Nat) = 2 ^ 8 - 1 from rfl, Nat.and_two_pow_sub_one_eq_mod]
    omega
  have id_fits : m.id < 256 ^ 4 := Nat.lt_of_le_of_lt sound.id (by decide)
  have content_fits : m.content.length < 256 ^ 4 := sound.content
  have shape : fetchRecord m ++ rest = m.fromClient ++ (bigEndian 4 m.id ++
      (bigEndian 1 m.type ++ (bigEndian 4 m.content.length ++ (m.content ++ rest)))) := by
    simp only [fetchRecord, type_kept, List.append_assoc]
  have source : slice (fetchRecord m ++ rest) 0 16 = m.fromClient := by
    rw [shape]
    exact slice_middle [] _ _ rfl (by simp [sound.source])
  have id : slice (fetchRecord m ++ rest) 16 20 = bigEndian 4 m.id := by
    rw [shape]
    exact slice_middle _ _ _ sound.source (by simp [sound.source])
  have type_byte : slice (fetchRecord m ++ rest) 20 21 = bigEndian 1 m.type := by
    rw [shape, ← List.append_assoc]
    exact slice_middle _ _ _ (by simp [sound.source]) (by simp [sound.source])
  have size : slice (fetchRecord m ++ rest) 21 25 = bigEndian 4 m.content.length := by
    rw [shape, ← List.append_assoc, ← List.append_assoc]
    exact slice_middle _ _ _ (by simp [sound.source]) (by simp [sound.source])
  have content : slice (fetchRecord m ++ rest) 25 (25 + m.content.length) = m.content := by
    rw [shape, ← List.append_assoc, ← List.append_assoc, ← List.append_assoc]
    exact slice_middle _ _ _ (by simp [sound.source]) (by simp [sound.source])
  rw [parseRecords, if_neg (by rw [List.length_append]; omega)]
  simp only [source, id, type_byte, size, content, from_big_endian_of_lt id_fits,
    from_big_endian_of_lt content_fits,
    from_big_endian_of_lt (show m.type < 256 ^ 1 by omega)]
  rw [List.drop_left' long]
  rfl

theorem parse_records {rows : List MessageRow} (sound : ∀ m ∈ rows, MessageRow.Sound m) :
    parseRecords (rows.flatMap fetchRecord) = rows.map letter := by
  induction rows with
  | nil =>
    rw [List.flatMap_nil, parseRecords]
    rfl
  | cons m rest ih =>
    rw [List.flatMap_cons, parse_record (sound m List.mem_cons_self),
      ih fun x hx => sound x (List.mem_cons_of_mem m hx), List.map_cons]

theorem boxes_snoc (s : Server) (tables : Tables) (e : Exchange) :
    boxes ⟨tables, s.history ++ [e]⟩ =
      ⟨fun client => (boxes s).accepted client + acceptedIn client e,
        fun client => (boxes s).delivered client + fetchedIn client e,
        fun client => (tables.mailbox client).map letter⟩ := by
  simp [boxes]

def sentLetter (call : Call) : Letter :=
  ⟨call.request.clientId.bytes, call.draws.msgId,
    fromBigEndian (slice call.request.payload 16 17), call.request.payload.drop 21⟩

theorem accepted_letter (call : Call) (client : Bytes)
    (sound : MessageSound call.request.payload) :
    acceptedIn client ⟨call.request,
      .ok (sentResponse (call.request.payload.take 16) call.draws.msgId)⟩ =
        if call.request.payload.take 16 = client then [sentLetter call] else [] := by
  have dst_size : (call.request.payload.take 16).length = 16 := by
    have := sound.1
    simp
    omega
  have id_fits : call.draws.msgId < 256 ^ 4 := Nat.lt_of_le_of_lt call.draws.small (by decide)
  have id_read : fromLittleEndian (((call.request.payload.take 16) ++
      littleEndian 4 call.draws.msgId).drop 16) = call.draws.msgId := by
    rw [List.drop_left' dst_size, from_little_endian_of_lt id_fits]
  simp only [acceptedIn, sentResponse, true_and, id_read, sentLetter]

theorem mailbox_with_message (t : Tables) (msgId : Nat) (paramsRaw source client : Bytes) :
    ((withMessage t msgId paramsRaw source).mailbox client).map letter =
      (t.mailbox client).map letter ++ if paramsRaw.take 16 = client then
        [⟨source, msgId, fromBigEndian (slice paramsRaw 16 17), paramsRaw.drop 21⟩] else [] := by
  by_cases here : paramsRaw.take 16 = client <;>
    simp [withMessage, Tables.mailbox, List.filter_append, here, letter]

theorem step_moves {s t : Server} {call : Call} (sound : StoreSound s.tables)
    (fits : FetchFits s call) (taken : sequential.step s call t) :
    boxes t = boxes s ∨ ∃ m, boxes t = (boxes s).move m := by
  rw [next_server taken, boxes_snoc]
  rcases run_handle_cases call.draws call.request sound.keyed (sound_packs sound) with
    ⟨-, accepted, done⟩ | ⟨fetch, done⟩ | ⟨-, messages, -, codes⟩
  · right
    refine ⟨.post (call.request.payload.take 16) (sentLetter call), ?_⟩
    rw [done]
    ext1
    · funext client
      simp only [Boxes.move, accepted_letter call client accepted.1]
      by_cases here : call.request.payload.take 16 = client
      · subst here
        simp
      · rw [if_neg here, Function.update_of_ne (Ne.symm here)]
        simp
    · funext client
      simp [Boxes.move, fetchedIn, sentResponse, codeMsgSent, codeMsgFetch]
    · funext client
      simp only [Boxes.move, mailbox_with_message]
      by_cases here : call.request.payload.take 16 = client
      · subst here
        rw [if_pos rfl, ← Multiset.coe_add, Function.update_self]
        rfl
      · rw [if_neg here, Function.update_of_ne (Ne.symm here)]
        simp [boxes]
  · right
    refine ⟨.collect call.request.clientId.bytes, ?_⟩
    have rows_sound := mailbox_sound sound call.request.clientId.bytes
    rw [done, build_ok (fits fetch)]
    ext1
    · funext client
      simp [Boxes.move, acceptedIn, codeMsgSent, codeMsgFetch]
    · funext client
      simp only [Boxes.move, fetchedIn, true_and, parse_records rows_sound]
      by_cases here : call.request.clientId.bytes = client
      · subst here
        simp [boxes]
      · rw [if_neg here, Function.update_of_ne (Ne.symm here)]
        simp
    · funext client
      simp only [Boxes.move, mailbox_emptied]
      by_cases here : client = call.request.clientId.bytes
      · subst here
        simp
      · rw [if_neg here, Function.update_of_ne here]
        simp [boxes]
  · left
    have silent : ∀ client, acceptedIn client ⟨call.request, (run execute
          (handle call.draws call.request) s.tables).2⟩ = [] ∧
        fetchedIn client ⟨call.request, (run execute
          (handle call.draws call.request) s.tables).2⟩ = [] := by
      intro client
      cases result : (run execute (handle call.draws call.request) s.tables).2 with
      | error e => exact ⟨rfl, rfl⟩
      | ok r =>
        obtain ⟨not_sent, not_fetch⟩ := codes r result
        exact ⟨if_neg fun both => not_sent both.1, if_neg fun both => not_fetch both.1⟩
    ext1
    · funext client
      simp [(silent client).1]
    · funext client
      simp [(silent client).2]
    · funext client
      simp [boxes, Tables.mailbox, messages]

theorem other_mailboxes {t : Tables} (sound : StoreSound t) (call : Call) (client : Bytes) :
    (call.request.requestCode = codeSendMsg → call.request.payload.take 16 ≠ client →
      (run execute (handle call.draws call.request) t).1.mailbox client = t.mailbox client) ∧
    (call.request.requestCode = codeFetchMessages → call.request.clientId.bytes ≠ client →
      (run execute (handle call.draws call.request) t).1.mailbox client = t.mailbox client) := by
  rcases run_handle_cases call.draws call.request sound.keyed (sound_packs sound) with
    ⟨send, -, done⟩ | ⟨fetch, done⟩ | ⟨-, messages, -, -⟩
  · rw [done]
    refine ⟨fun _ other => ?_, fun fetch => ?_⟩
    · simp [withMessage, Tables.mailbox, List.filter_append, other]
    · rw [send] at fetch
      exact absurd fetch (by decide)
  · rw [done]
    refine ⟨fun send => ?_, fun _ other => ?_⟩
    · rw [fetch] at send
      exact absurd send (by decide)
    · rw [mailbox_emptied, if_neg (Ne.symm other)]
  · have same := congrArg (List.filter fun m => decide (m.toClient = client)) messages
    exact ⟨fun _ _ => same, fun _ _ => same⟩

/-- The server refines the mail service, run for run. -/
theorem server_refines_postal {s : Server} (reached : Reachable (sequential.restrict FetchFits) s) :
    Reachable postal (boxes s) := by
  apply simulated (store_sound.restrict FetchFits) boxes _ _ reached
  · intro s first
    rw [show s = ⟨emptyTables, []⟩ from first]
    rfl
  · intro s call t before taken
    exact step_moves before taken.1 taken.2

/-- Every accepted message is in one fetch response to its destination or still
    stored, and other mailboxes are left alone. -/
theorem mailbox_conservation {s : Server} (reached : Reachable (sequential.restrict FetchFits) s)
    (client : Bytes) :
    (s.history.flatMap (acceptedIn client) : Multiset Letter) =
        s.history.flatMap (fetchedIn client) + (s.tables.mailbox client).map letter ∧
      (∀ l, (s.history.flatMap (fetchedIn client)).count l ≤
        (s.history.flatMap (acceptedIn client)).count l) ∧
      ∀ call t, sequential.step s call t →
        (call.request.requestCode = codeSendMsg → call.request.payload.take 16 ≠ client →
          t.tables.mailbox client = s.tables.mailbox client) ∧
        (call.request.requestCode = codeFetchMessages → call.request.clientId.bytes ≠ client →
          t.tables.mailbox client = s.tables.mailbox client) := by
  have balance := postal_conserved.holds (server_refines_postal reached) client
  have sound := store_sound.holds (restricted_reachable reached)
  refine ⟨balance, ?_, ?_⟩
  · intro l
    have counted := congrArg (Multiset.count l) balance
    simp only [boxes, Multiset.count_add, Multiset.coe_count] at counted
    omega
  · intro call t taken
    rw [next_server taken]
    exact other_mailboxes sound call client

theorem one_letter_conserved :
    let owner : ClientId := ⟨List.replicate 16 1, rfl⟩
    let draws : Draws := ⟨owner, 7, by decide, by decide⟩
    let calls : List Call :=
      [⟨draws, requestOf owner codeRegister (registrationPayload [0x41])⟩,
        ⟨draws, requestOf ⟨List.replicate 16 2, rfl⟩ codeSendMsg
          (messagePayload owner.bytes msgTypeSendTxtMsg [0x68, 0x69])⟩,
        ⟨draws, requestOf owner codeFetchMessages []⟩]
    ∃ s, runFrom Server.next ⟨emptyTables, []⟩ calls = some s ∧
      s.history.flatMap (acceptedIn owner.bytes) =
        [⟨List.replicate 16 2, 7, 3, [0x68, 0x69]⟩] ∧
      (s.history.flatMap (acceptedIn owner.bytes) : Multiset Letter) =
        s.history.flatMap (fetchedIn owner.bytes) + (s.tables.mailbox owner.bytes).map letter := by
  intro owner draws calls
  refine ⟨_, rfl, by decide +kernel, (mailbox_conservation ?_ owner.bytes).1⟩
  have start : Reachable (sequential.restrict FetchFits) ⟨emptyTables, []⟩ := .start rfl
  refine .next (.next (.next start ⟨?_, rfl⟩) ⟨?_, rfl⟩) ⟨?_, rfl⟩
  · exact fun fetch => absurd fetch (by decide)
  · exact fun fetch => absurd fetch (by decide)
  · intro fetch
    decide +kernel

end MailboxConservation
