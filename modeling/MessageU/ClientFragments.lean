import MessageU.ContactListing
import MessageU.FetchDelivery

/- A response that comes in pieces. The list of clients is read until it is all
   there, but the header of a response, the header of a message and its content
   are each taken from one read, whatever that returns. -/
namespace ClientFragments
open ByteFields SegmentedStream GuardedRuns StatementPrograms RequestFormat ServerTables
open ResponseFormat RequestHandling ServerRuns ClientReception HandlerOutcomes FetchRoundTrip
open FetchDelivery ContactListing

inductive Sends (t : Tables) (request : ServerRequest) : ServerResponse → Prop where
  | answer (draws : Draws) {resp : ServerResponse}
      (answered : (run execute (handle draws request) t).2 = .ok resp) : Sends t request resp
  | error : Sends t request getErrResponse

theorem sends_sound {t : Tables} {request : ServerRequest} {resp : ServerResponse}
    (sends : Sends t request resp) : ResponseSound resp := by
  cases sends with
  | answer draws answered => exact run_yields execute (handle_yields draws request) answered
  | error => exact error_sound

section Header
variable {resp : ServerResponse} {sock : Socket} (flowing : Flowing sock)
variable (joined : contents sock = wireBytes resp)
include flowing joined

theorem header_whole_or_short :
    (∃ rest, HeaderWhole resp sock rest) ∨
      ∃ bs rest, recv 7 sock = (.data bs, rest) ∧ bs ≠ [] ∧ bs.length < 7 := by
  obtain ⟨bs, rest, read, -, exhausted⟩ := recv_flowing (show 0 < 7 by decide) flowing
  have bounded := recv_bounded read
  have front := recv_contents read
  by_cases short : bs.length < 7
  · right
    refine ⟨bs, rest, read, ?_, short⟩
    intro nothing
    have none_sent := congrArg List.length (joined.symm.trans (exhausted nothing))
    rw [wireBytes, List.length_append, response_header_length, List.length_nil] at none_sent
    omega
  · left
    have long : bs.length = 7 := by omega
    have same : responseHeader supportedVersion resp.code resp.payload.length = bs := by
      rw [joined, wireBytes] at front
      exact List.append_inj_left front (by rw [response_header_length, long])
    exact ⟨rest, by rw [HeaderWhole, same, read]⟩

end Header

theorem short_header_unset (name : String) (code : Nat) {clientId : Bytes}
    (some_id : clientId ≠ []) (beyond : Nat) {sock rest : Socket} {bs : Bytes}
    (read : recv 7 sock = (.data bs, rest)) (something : bs ≠ []) (short : bs.length < 7) :
    (receiveHeader name code clientId true beyond sock).2 = .ended .indeterminate rest := by
  have unset : (ClientResponse.ofData beyond bs).responseCode = none := by
    rw [ClientResponse.ofData, if_pos (show bs.length < minResponseSize from short)]
  simp only [receiveHeader, ClientRequest.ofCode, List.isEmpty_iff, some_id, ↓reduceIte,
    Bool.not_true, Bool.false_eq_true, minResponseSize, read, List.length_eq_zero_iff, something,
    unset]

/-! Listing. -/

theorem list_same_iff (contacts : List Contact) {clientId : Bytes} (some_id : clientId ≠ [])
    (beyond : Nat) {resp : ServerResponse} (sound : ResponseSound resp) {sock : Socket}
    (flowing : Flowing sock) (joined : contents sock = wireBytes resp) :
    let cut := ListUserOperation.doOperation contacts clientId true beyond sock
    let uncut := ListUserOperation.doOperation contacts clientId true beyond
      (whole (wireBytes resp))
    cut.contacts = uncut.contacts ∧ cut.ending = uncut.ending ↔
      ∃ rest, HeaderWhole resp sock rest := by
  intro cut uncut
  have header := recv_whole (responseHeader supportedVersion resp.code resp.payload.length)
    resp.payload
  rw [response_header_length] at header
  obtain ⟨after, all⟩ := list_operation_done contacts some_id beyond sound.code sound.size header
    (whole_flowing _) (whole_contents _)
  rw [← wireBytes] at all
  rcases header_whole_or_short flowing joined with ⟨rest, read⟩ | ⟨bs, rest, read, something, short⟩
  · obtain ⟨flows, payload⟩ := header_whole_rest flowing joined read
    obtain ⟨after', done⟩ := list_operation_done contacts some_id beyond sound.code sound.size read
      flows payload
    have same : cut.contacts = uncut.contacts ∧ cut.ending = uncut.ending := by
      show (ListUserOperation.doOperation _ _ _ _ _).contacts =
          (ListUserOperation.doOperation _ _ _ _ _).contacts ∧
        (ListUserOperation.doOperation _ _ _ _ _).ending =
          (ListUserOperation.doOperation _ _ _ _ _).ending
      rw [done, all]
      split
      · exact ⟨rfl, rfl⟩
      · split <;> exact ⟨rfl, rfl⟩
    exact iff_of_true same ⟨rest, read⟩
  · have unset : cut.ending = .indeterminate := by
      show (ListUserOperation.doOperation _ _ _ _ _).ending = .indeterminate
      rw [ListUserOperation.doOperation,
        short_header_unset _ _ some_id beyond read something short]
    have set : uncut.ending ≠ .indeterminate := by
      show (ListUserOperation.doOperation _ _ _ _ _).ending ≠ .indeterminate
      rw [all]
      split
      · simp
      · split <;> simp
    constructor
    · intro same
      exact absurd (same.2.symm.trans unset) set
    · rintro ⟨rest', whole_header⟩
      rw [HeaderWhole, read] at whole_header
      cases whole_header
      rw [response_header_length] at short
      omega

/-! Fetching. -/

/-- Of the reads of the loop that are not whole, the first is of a message's header. -/
def HeaderCut (size : Nat) : Nat → List MessageRow → Socket → Prop
  | _, [], _ => False
  | received, m :: rest, sock => received < size ∧
    ((∃ bs mid, recv 25 sock = (.data bs, mid) ∧ bs.length < 25) ∨
      ∃ mid after, recv 25 sock = (.data (recordHeader m), mid) ∧ ¬ Refused m ∧
        ContentRead m mid after ∧ HeaderCut size (received + counted m) rest after)

theorem same_messages_whole {rows : List MessageRow} (sound : ∀ m ∈ rows, MessageRow.Sound m)
    (short : ∀ m ∈ rows, m.content.length ≤ 65536) {size received : Nat} {sock : Socket}
    (flowing : Flowing sock) (joined : contents sock = rows.flatMap fetchRecord)
    {buffer : Bytes} (same : (fetchMassages size received buffer sock).handled =
      (delivered size received rows).1) :
    ReadsWhole size received rows sock ∨ HeaderCut size received rows sock := by
  induction rows generalizing received sock buffer with
  | nil => exact Or.inl trivial
  | cons m rest ih =>
    by_cases more : received < size
    · obtain ⟨bs, mid, read, flows, -⟩ := recv_flowing (show 0 < 25 by decide) flowing
      have bounded := recv_bounded read
      by_cases short_header : bs.length < 25
      · exact Or.inr ⟨more, Or.inl ⟨bs, mid, read, short_header⟩⟩
      · have front := recv_contents read
        have long := header_length (sound m List.mem_cons_self).source
        rw [joined, List.flatMap_cons, record_split, List.append_assoc] at front
        obtain rfl := List.append_inj_left front (by omega)
        rcases turn_cases (sound m List.mem_cons_self) (short m List.mem_cons_self) more read flows
          (behind_header joined read) buffer with ⟨refused, -⟩ | ⟨accepted, content, after, buffer',
            piece, flows_on, behind, turn⟩
        · exact Or.inl fun _ => ⟨mid, read, fun accepted => absurd refused accepted⟩
        · rw [turn, delivered, if_neg (Nat.not_le.mpr more), if_neg accepted] at same
          -- the messages agree, so the content is whole and what differs comes later
          have first := List.head_eq_of_cons_eq same
          obtain rfl : content = m.content := congrArg Message.messageContent first
          rcases ih (fun x hx => sound x (List.mem_cons_of_mem m hx))
            (fun x hx => short x (List.mem_cons_of_mem m hx)) flows_on
            (List.append_cancel_left behind).symm (List.tail_eq_of_cons_eq same) with reads | cut
          · exact Or.inl fun _ => ⟨mid, read, fun _ => ⟨after, piece, reads⟩⟩
          · exact Or.inr ⟨more, Or.inr ⟨mid, after, read, accepted, piece, cut⟩⟩
    · exact Or.inl fun less => absurd less more

/-- A header that is cut can go unnoticed: its last byte is still there from the header
    before it, and the content that is read begins with that byte. -/
example :
    let twos (id : Nat) : MessageRow :=
      ⟨id, List.replicate 16 1, List.replicate 16 1, msgTypeSendTxtMsg, [2, 2], id⟩
    let sock := segments
      [recordHeader (twos 1), [2, 2], (recordHeader (twos 2)).take 24, [2, 2], [2]]
    contents sock = [twos 1, twos 2].flatMap fetchRecord ∧
      (fetchMassages 54 0 [] sock).handled = [toMessage (twos 1), toMessage (twos 2)] := by
  decide +kernel

/-- The header of the response comes whole, and of a message, before any other read
    that is not whole, the header does not. -/
def FetchHeaderCut (resp : ServerResponse) (rows : List MessageRow) (sock : Socket) : Prop :=
  ∃ rest, HeaderWhole resp sock rest ∧ resp.payload.length ≤ 65536 ∧
    HeaderCut resp.payload.length 0 rows rest

theorem same_fetch_reads {clientId : Bytes} (some_id : clientId ≠ []) (beyond : Nat)
    (buffer : Bytes) {resp : ServerResponse} (sound : ResponseSound resp) {rows : List MessageRow}
    (rows_sound : ∀ m ∈ rows, MessageRow.Sound m)
    (payload : resp.payload = rows.flatMap fetchRecord)
    (error_empty : resp.code = codeError → rows = []) {sock : Socket} (flowing : Flowing sock)
    (joined : contents sock = wireBytes resp) :
    let cut := FetchMsgOperation.doOperation clientId true beyond buffer sock
    let uncut := FetchMsgOperation.doOperation clientId true beyond buffer (whole (wireBytes resp))
    cut.ending ≠ .indeterminate → cut.handled = uncut.handled →
      FetchReads resp rows sock ∨ FetchHeaderCut resp rows sock := by
  intro cut uncut determinate same
  obtain ⟨expected, -⟩ := whole_reads_fetch some_id beyond buffer sound rows_sound payload
    (whole_flowing (wireBytes resp)) (whole_contents _) (uncut_reads rows_sound payload)
  rcases header_whole_or_short flowing joined with ⟨rest, read⟩ | ⟨bs, rest, read, something, short⟩
  · obtain ⟨flows, left⟩ := header_whole_rest flowing joined read
    by_cases error : resp.code = codeError
    · left
      rw [error_empty error]
      exact ⟨rest, read, fun _ => trivial⟩
    · by_cases big : Client.maxPayloadSize < resp.payload.length
      · left
        exact ⟨rest, read, fun small => absurd small (Nat.not_le.mpr big)⟩
      · have small : resp.payload.length ≤ 65536 := Nat.not_lt.mp big
        have done : cut = fetchMassages resp.payload.length 0 buffer rest := by
          have operation := fetch_operation_done some_id beyond buffer sound.code sound.size read
          rwa [if_neg error, if_neg big] at operation
        rw [fetchOutcome, if_neg error, if_neg big] at expected
        rw [done, show uncut.handled = _ from expected] at same
        have rows_left : contents rest = rows.flatMap fetchRecord := left.trans payload
        have rows_short := mailbox_short rows_sound (payload ▸ small)
        rcases same_messages_whole rows_sound rows_short flows rows_left same with
          reads | header_cut
        · exact Or.inl ⟨rest, read, fun _ => reads⟩
        · exact Or.inr ⟨rest, read, small, header_cut⟩
  · have unset : cut.ending = .indeterminate := by
      show (FetchMsgOperation.doOperation _ _ _ _ _).ending = .indeterminate
      rw [FetchMsgOperation.doOperation,
        short_header_unset _ _ some_id beyond read something short]
    exact absurd unset determinate

def rowsSent (t : Tables) (request : ServerRequest) (resp : ServerResponse) : List MessageRow :=
  if resp.code = codeError then [] else t.mailbox request.clientId.bytes

theorem rows_sent {t : Tables} (sound : StoreSound t) {request : ServerRequest}
    (asked : request.requestCode = codeFetchMessages) {resp : ServerResponse}
    (sends : Sends t request resp) :
    (∀ m ∈ rowsSent t request resp, MessageRow.Sound m) ∧
      resp.payload = (rowsSent t request resp).flatMap fetchRecord := by
  cases sends with
  | answer draws answered =>
    obtain ⟨object, -⟩ := fetch_answer sound asked answered
    have rows : rowsSent t request resp = t.mailbox request.clientId.bytes := by
      rw [rowsSent, object, if_neg (show codeMsgFetch ≠ codeError by decide)]
    rw [rows]
    exact ⟨mailbox_sound sound _, by rw [object]⟩
  | error =>
    have none_sent : rowsSent t request getErrResponse = [] := if_pos rfl
    rw [none_sent]
    exact ⟨by simp, rfl⟩

/-- A response of the server in pieces, against the same response at once. A list
    needs its header whole; a fetch does as it would when it needs no second read
    for a header or a content, and otherwise only where the header of a message is
    what it needs it for: the missing bytes are then those of an earlier header. -/
theorem fragments_read {t : Tables} (reached : ReachableTables t) {request : ServerRequest}
    {resp : ServerResponse} (sends : Sends t request resp) {sock : Socket}
    (flowing : Flowing sock) (joined : contents sock = wireBytes resp) (beyond : Nat) :
    (∀ contacts,
      let cut := ListUserOperation.doOperation contacts request.clientId.bytes true beyond sock
      let uncut := ListUserOperation.doOperation contacts request.clientId.bytes true beyond
        (whole (wireBytes resp))
      cut.contacts = uncut.contacts ∧ cut.ending = uncut.ending ↔
        ∃ rest, HeaderWhole resp sock rest) ∧
    (request.requestCode = codeFetchMessages → ∀ buffer,
      let cut := FetchMsgOperation.doOperation request.clientId.bytes true beyond buffer sock
      let uncut := FetchMsgOperation.doOperation request.clientId.bytes true beyond buffer
        (whole (wireBytes resp))
      (FetchReads resp (rowsSent t request resp) sock →
        cut.handled = uncut.handled ∧ cut.ending = uncut.ending) ∧
      (cut.ending ≠ .indeterminate → cut.handled = uncut.handled →
        FetchReads resp (rowsSent t request resp) sock ∨
          FetchHeaderCut resp (rowsSent t request resp) sock)) := by
  have sound := sends_sound sends
  have some_id := request.clientId.some_bytes
  constructor
  · intro contacts
    exact list_same_iff contacts some_id beyond sound flowing joined
  · intro asked buffer
    obtain ⟨rows_sound, payload⟩ := rows_sent (reachable_sound reached) asked sends
    constructor
    · intro reads
      obtain ⟨handled, ending⟩ := whole_reads_fetch some_id beyond buffer sound rows_sound payload
        flowing joined reads
      obtain ⟨handled', ending'⟩ := whole_reads_fetch some_id beyond buffer sound rows_sound
        payload (whole_flowing (wireBytes resp)) (whole_contents _) (uncut_reads rows_sound payload)
      exact ⟨handled.trans handled'.symm, ending.trans ending'.symm⟩
    · exact same_fetch_reads some_id beyond buffer sound rows_sound payload
        (fun error => if_pos error) flowing joined

/-! "hi", which a client has sent to itself. -/

def hiRow (owner : ClientId) : MessageRow :=
  ⟨1, owner.bytes, owner.bytes, msgTypeSendTxtMsg, [0x68, 0x69], 0⟩

theorem hi_payload (owner : ClientId) :
    [hiRow owner].flatMap fetchRecord = recordHeader (hiRow owner) ++ [0x68, 0x69] ∧
      (recordHeader (hiRow owner) ++ [0x68, 0x69]).length = 27 := by
  constructor
  · rw [List.flatMap_singleton, record_split]
    rfl
  · rw [List.length_append, header_length owner.size]
    rfl

theorem hi_accepted (owner : ClientId) : ¬ Refused (hiRow owner) := fun refused =>
  absurd refused.1 (by decide : ¬ msgTypeSendTxtMsg = messageTypeRequestSymKey)

theorem hi_delivered (owner : ClientId) : delivered 27 0 [hiRow owner] =
    ([⟨owner.bytes, messageTypeSendTxt, 2, [0x68, 0x69]⟩], .returned) := by
  rw [delivered, if_neg (by decide), if_neg (hi_accepted owner)]
  rfl

theorem hi_answer (owner : ClientId) (draws : Draws) :
    ∃ s, Reachable (sequential.restrict Decoded) s ∧
      s.tables.mailbox owner.bytes = [hiRow owner] ∧
      ∃ resp, (run execute (handle draws (requestOf owner codeFetchMessages [])) s.tables).2 =
          .ok resp ∧
        resp = ⟨supportedVersion, codeMsgFetch, recordHeader (hiRow owner) ++ [0x68, 0x69],
          responseHeader supportedVersion codeMsgFetch 27 ++
            (recordHeader (hiRow owner) ++ [0x68, 0x69])⟩ := by
  obtain ⟨history, decoded⟩ := own_messages_stored owner [(msgTypeSendTxtMsg, [0x68, 0x69])]
    (by decide) (by decide)
  let s : Server :=
    ⟨⟨[ownRow owner], ownRows owner [(msgTypeSendTxtMsg, [0x68, 0x69])], 1⟩, history⟩
  have sound : StoreSound s.tables := store_sound.holds (restricted_reachable decoded)
  have asked : (requestOf owner codeFetchMessages []).requestCode = codeFetchMessages := rfl
  have mailbox : s.tables.mailbox (requestOf owner codeFetchMessages []).clientId.bytes =
      [hiRow owner] := own_mailbox owner _ _ _
  obtain ⟨payload, long⟩ := hi_payload owner
  obtain ⟨resp, answered, -⟩ := fetch_answered sound draws asked (show 65536 < 2 ^ 32 by decide) (by
    rw [mailbox, payload, long]
    decide)
  obtain ⟨object, -⟩ := fetch_answer sound asked answered
  rw [mailbox, payload, long] at object
  exact ⟨s, decoded, mailbox, resp, answered, object⟩

theorem whole_pieces_read :
    let owner : ClientId := ⟨List.replicate 16 1, rfl⟩
    let draws : Draws := ⟨owner, 1, by decide, by decide⟩
    ∃ s resp, (run execute (handle draws (requestOf owner codeFetchMessages [])) s).2 = .ok resp ∧
      (FetchMsgOperation.doOperation owner.bytes true 0 []
          (segments [resp.rawData.take 7, (resp.rawData.drop 7).take 25, [0x68, 0x69]])).handled =
        (FetchMsgOperation.doOperation owner.bytes true 0 [] (whole resp.rawData)).handled := by
  intro owner draws
  obtain ⟨s, decoded, mailbox, resp, answered, rfl⟩ := hi_answer owner draws
  let request := requestOf owner codeFetchMessages []
  let header := responseHeader supportedVersion codeMsgFetch 27
  let record := recordHeader (hiRow owner)
  have pieces : ∀ c ∈ [header, record, [0x68, 0x69]], c ≠ [] := by decide
  have joined : contents (segments [header, record, [0x68, 0x69]]) =
      header ++ (record ++ [0x68, 0x69]) := rfl
  have reached : ReachableTables s.tables := .sequential (restricted_reachable decoded)
  obtain ⟨-, fetch⟩ := fragments_read reached (.answer draws answered) (segments_flowing pieces)
    joined 0
  have rows : rowsSent s.tables request ⟨supportedVersion, codeMsgFetch,
      record ++ [0x68, 0x69], header ++ (record ++ [0x68, 0x69])⟩ = [hiRow owner] := mailbox
  obtain ⟨same, -⟩ := fetch rfl []
  refine ⟨s.tables, _, answered, (same ?_).1⟩
  rw [rows]
  refine ⟨segments [record, [0x68, 0x69]], rfl, fun _ _ => ?_⟩
  refine ⟨segments [[0x68, 0x69]], rfl, fun _ => ?_⟩
  exact ⟨[], rfl, trivial⟩

theorem split_handled (owner : ClientId) (beyond : Nat) (buffer : Bytes) :
    (FetchMsgOperation.doOperation owner.bytes true beyond buffer
      (segments [responseHeader supportedVersion codeMsgFetch 27, recordHeader (hiRow owner),
        [0x68], [0x69]])).handled.head? =
      some ⟨owner.bytes, messageTypeSendTxt, 1, [0x68]⟩ := by
  have long : (recordHeader (hiRow owner)).length ≤ 25 := Nat.le_of_eq (header_length owner.size)
  have loop := fetch_operation_done owner.some_bytes beyond buffer
    (show codeMsgFetch ∈ supportedResponses by decide) (show 27 < 2 ^ 32 by decide)
    (recv_segment (show (responseHeader supportedVersion codeMsgFetch 27).length ≤ 7 by decide)
      (segments [recordHeader (hiRow owner), [0x68], [0x69]]))
  obtain ⟨buffer', turn⟩ := content_turn (show (hiRow owner).fromClient.length = 16 from owner.size)
    (show msgTypeSendTxtMsg ∈ supportedMsgTypes by decide) (show 0 < 27 by decide)
    (recv_segment long (segments [[0x68], [0x69]])) (List.cons_ne_nil _ _)
    (show 2 ≤ 65536 by decide)
    (recv_segment (show ([0x68] : Bytes).length ≤ 2 by decide) (segments [[0x69]]))
    (List.cons_ne_nil _ _) buffer
  have text : ¬ (hiRow owner).type = messageTypeRequestSymKey := fun request =>
    hi_accepted owner ⟨request, List.cons_ne_nil _ _⟩
  rw [if_neg (by decide), if_neg (by decide)] at loop
  rw [if_neg text] at turn
  have pieces : segments [recordHeader (hiRow owner), [0x68], [0x69]] =
      .data (recordHeader (hiRow owner)) :: segments [[0x68], [0x69]] := rfl
  rw [pieces, turn] at loop
  have all_pieces : segments [responseHeader supportedVersion codeMsgFetch 27,
      recordHeader (hiRow owner), [0x68], [0x69]] =
        .data (responseHeader supportedVersion codeMsgFetch 27) ::
          .data (recordHeader (hiRow owner)) :: segments [[0x68], [0x69]] := rfl
  rw [all_pieces, loop]
  rfl

/-- In pieces of 7, 25, 1 and 1 bytes "h" is handed on. -/
theorem split_text_cut :
    let owner : ClientId := ⟨List.replicate 16 1, rfl⟩
    let draws : Draws := ⟨owner, 1, by decide, by decide⟩
    ∃ s, Reachable (sequential.restrict Decoded) s ∧
      s.tables.mailbox owner.bytes = [hiRow owner] ∧
      ∃ resp, (run execute (handle draws (requestOf owner codeFetchMessages [])) s.tables).2 =
          .ok resp ∧
        ∃ header record, resp.rawData = header ++ (record ++ ([0x68] ++ [0x69])) ∧
          header.length = 7 ∧ record.length = 25 ∧
          ∀ beyond buffer,
            let cut := FetchMsgOperation.doOperation owner.bytes true beyond buffer
              (segments [header, record, [0x68], [0x69]])
            let uncut := FetchMsgOperation.doOperation owner.bytes true beyond buffer
              (whole resp.rawData)
            cut.handled.head? = some ⟨owner.bytes, messageTypeSendTxt, 1, [0x68]⟩ ∧
              uncut.handled = [⟨owner.bytes, messageTypeSendTxt, 2, [0x68, 0x69]⟩] ∧
              cut.handled ≠ uncut.handled := by
  intro owner draws
  obtain ⟨s, decoded, mailbox, resp, answered, object⟩ := hi_answer owner draws
  have bytes : resp.rawData = responseHeader supportedVersion codeMsgFetch 27 ++
      (recordHeader (hiRow owner) ++ ([0x68] ++ [0x69])) := by
    rw [object]
    rfl
  have small : resp.payload.length ≤ 65536 := by
    rw [object]
    decide
  refine ⟨s, decoded, mailbox, resp, answered, _, _, bytes, rfl, header_length owner.size, ?_⟩
  intro beyond buffer cut uncut
  have cut_off := split_handled owner beyond buffer
  have sound := store_sound.holds (restricted_reachable decoded)
  obtain ⟨complete, -⟩ := whole_fetch sound rfl answered small beyond buffer
  have rows : s.tables.mailbox (requestOf owner codeFetchMessages []).clientId.bytes =
      [hiRow owner] := mailbox
  obtain ⟨payload, long⟩ := hi_payload owner
  rw [rows, payload, long, hi_delivered] at complete
  refine ⟨cut_off, complete, ?_⟩
  intro same
  rw [show cut.handled = _ from same.trans complete] at cut_off
  exact absurd cut_off (by decide)

end ClientFragments
