import MessageU.FetchRoundTrip
import MessageU.HandlerOutcomes

/- What a fetch hands on from any mailbox the server may hold. The server stores a
   message of type 1 with content, which the client's Message refuses with an
   exception that ends the fetch: what lies behind it is lost, for the server has
   deleted the mailbox. -/
namespace FetchDelivery
open ByteFields SegmentedStream GuardedRuns StatementPrograms RequestFormat ServerTables
open ResponseFormat RequestHandling ServerRuns ClientReception HandlerOutcomes FetchRoundTrip

def refusal : Ending := .threw (.logicError "Message: can't send content for pub key msg")

def delivered (size : Nat) : Nat → List MessageRow → List Message × Ending
  | _, [] => ([], .returned)
  | received, m :: rest =>
    if size ≤ received then ([], .returned)
    else if Refused m then ([], refusal)
    else
      let later := delivered size (received + counted m) rest
      (toMessage m :: later.1, later.2)

def ContentPiece (m : MessageRow) (mid : Socket) (content : Bytes) (after : Socket) : Prop :=
  if m.content = [] then content = [] ∧ after = mid
  else recv m.content.length mid = (.data content, after)

def ContentRead (m : MessageRow) (mid after : Socket) : Prop := ContentPiece m mid m.content after

/-- Each header and each content that the loop reads comes whole. -/
def ReadsWhole (size : Nat) : Nat → List MessageRow → Socket → Prop
  | _, [], _ => True
  | received, m :: rest, sock => received < size →
    ∃ mid, recv 25 sock = (.data (recordHeader m), mid) ∧
      (¬ Refused m → ∃ after, ContentRead m mid after ∧
        ReadsWhole size (received + counted m) rest after)

theorem counted_cons (m : MessageRow) (rest : List MessageRow) :
    countedAll (m :: rest) = counted m + countedAll rest := by
  simp [countedAll]

/-! The loop does what is said to be delivered. -/

theorem flowing_rest {asked : Nat} (positive : 0 < asked) {sock rest : Socket} {bs : Bytes}
    (flowing : Flowing sock) (read : recv asked sock = (.data bs, rest)) : Flowing rest := by
  obtain ⟨_, _, same, later, -⟩ := recv_flowing positive flowing
  rw [read] at same
  cases same
  exact later

theorem behind_header {m : MessageRow} {rest : Bytes} {sock mid : Socket}
    (joined : contents sock = fetchRecord m ++ rest)
    (header : recv 25 sock = (.data (recordHeader m), mid)) : contents mid = m.content ++ rest := by
  have front := recv_contents header
  rw [joined, record_split, List.append_assoc] at front
  exact (List.append_cancel_left front).symm

theorem piece_unique {m : MessageRow} {mid after after' : Socket} {content content' : Bytes}
    (piece : ContentPiece m mid content after) (other : ContentPiece m mid content' after') :
    content = content' ∧ after = after' := by
  unfold ContentPiece at piece other
  split at piece
  · rename_i bare
    rw [if_pos bare] at other
    exact ⟨piece.1.trans other.1.symm, piece.2.trans other.2.symm⟩
  · rename_i full
    rw [if_neg full, piece] at other
    cases other
    exact ⟨rfl, rfl⟩

theorem turn_cases {m : MessageRow} (sound : MessageRow.Sound m) (short : m.content.length ≤ 65536)
    {size received : Nat} (more : received < size) {sock mid : Socket}
    (header : recv 25 sock = (.data (recordHeader m), mid)) (flows : Flowing mid) {tail : Bytes}
    (left : contents mid = m.content ++ tail) (buffer : Bytes) :
    (Refused m ∧ (fetchMassages size received buffer sock).handled = [] ∧
      (fetchMassages size received buffer sock).ending = refusal) ∨
    ¬ Refused m ∧ ∃ content after buffer', ContentPiece m mid content after ∧ Flowing after ∧
      m.content ++ tail = content ++ contents after ∧
      fetchMassages size received buffer sock =
        (fetchMassages size (received + (25 + if m.content = [] then 25 else content.length))
          buffer' after).handleMsg ⟨m.fromClient, m.type, content.length, content⟩ := by
  obtain ⟨source, -, -, type, -⟩ := sound
  by_cases bare : m.content = []
  · right
    have accepted : ¬ Refused m := fun refused => refused.2 bare
    obtain ⟨buffer', turn⟩ := bare_turn source type more header bare buffer
    refine ⟨accepted, [], mid, buffer', ?_, flows, ?_, ?_⟩
    · rw [ContentPiece, if_pos bare]
      exact ⟨rfl, rfl⟩
    · rw [left, bare]
      rfl
    · rw [turn, toMessage, counted, bare]
  · obtain ⟨content, after, read, flows_on, exhausted⟩ :=
      recv_flowing (List.length_pos_iff.mpr bare) flows
    have something : content ≠ [] := by
      intro nothing
      rw [exhausted nothing] at left
      exact bare (List.append_eq_nil_iff.mp left.symm).1
    obtain ⟨buffer', turn⟩ := content_turn source type more header bare short read something buffer
    by_cases request : m.type = messageTypeRequestSymKey
    · left
      rw [turn, if_pos request]
      exact ⟨⟨request, bare⟩, rfl, rfl⟩
    · right
      have accepted : ¬ Refused m := fun refused => request refused.1
      refine ⟨accepted, content, after, buffer', ?_, flows_on, ?_, ?_⟩
      · rw [ContentPiece, if_neg bare, read]
      · rw [← left]
        exact recv_contents read
      · rw [turn, if_neg request, if_neg bare, Nat.add_assoc]

/-- What is handed on does not depend on how the socket was filled. -/
theorem fetch_delivered {rows : List MessageRow} (sound : ∀ m ∈ rows, MessageRow.Sound m)
    (short : ∀ m ∈ rows, m.content.length ≤ 65536) {size received : Nat}
    (enough : size ≤ received + countedAll rows) {sock : Socket} (flowing : Flowing sock)
    (joined : contents sock = rows.flatMap fetchRecord)
    (reads : ReadsWhole size received rows sock) (buffer : Bytes) :
    (fetchMassages size received buffer sock).handled = (delivered size received rows).1 ∧
      (fetchMassages size received buffer sock).ending = (delivered size received rows).2 := by
  induction rows generalizing received sock buffer with
  | nil =>
    have done : ¬ received < size := Nat.not_lt.mpr enough
    rw [fetchMassages, if_neg done]
    exact ⟨rfl, rfl⟩
  | cons m rest ih =>
    by_cases more : received < size
    · obtain ⟨mid, header, goes_on⟩ := reads more
      have left := behind_header joined header
      have flows := flowing_rest (by decide) flowing header
      have enough_left : size ≤ received + counted m + countedAll rest := by
        rw [counted_cons] at enough
        omega
      rw [delivered, if_neg (Nat.not_le.mpr more)]
      rcases turn_cases (sound m List.mem_cons_self) (short m List.mem_cons_self) more header flows
        left buffer with ⟨refused, handled, ending⟩ | ⟨accepted, content, after, buffer', piece,
          flows_on, behind, turn⟩
      · rw [if_pos refused]
        exact ⟨handled, ending⟩
      · obtain ⟨_, read, reads_on⟩ := goes_on accepted
        obtain ⟨rfl, rfl⟩ := piece_unique piece read
        obtain ⟨handled, ending⟩ := ih (fun x hx => sound x (List.mem_cons_of_mem m hx))
          (fun x hx => short x (List.mem_cons_of_mem m hx)) enough_left flows_on
          (List.append_cancel_left behind).symm reads_on buffer'
        rw [turn, if_neg accepted]
        exact ⟨congrArg (toMessage m :: ·) handled, ending⟩
    · rw [fetchMassages, if_neg more, delivered, if_pos (Nat.not_lt.mp more)]
      exact ⟨rfl, rfl⟩

theorem whole_reads {rows : List MessageRow} (sources : ∀ m ∈ rows, m.fromClient.length = 16)
    (size received : Nat) : ReadsWhole size received rows (whole (rows.flatMap fetchRecord)) := by
  induction rows generalizing received with
  | nil => trivial
  | cons m rest ih =>
    intro _
    have header := recv_whole (recordHeader m) (m.content ++ rest.flatMap fetchRecord)
    rw [header_length (sources m List.mem_cons_self), ← List.append_assoc, ← record_split] at header
    refine ⟨_, header, fun _ => ⟨whole (rest.flatMap fetchRecord), ?_, ?_⟩⟩
    · unfold ContentRead ContentPiece
      split
      · rename_i bare
        rw [bare]
        exact ⟨rfl, rfl⟩
      · exact recv_whole m.content (rest.flatMap fetchRecord)
    · exact ih (fun x hx => sources x (List.mem_cons_of_mem m hx)) _

/-! What is delivered, in terms of the messages. -/

theorem delivered_returned_iff (size received : Nat) (rows : List MessageRow) :
    (delivered size received rows).2 = .returned ↔
      ∀ front m back, rows = front ++ m :: back → Refused m →
        size ≤ received + countedAll front := by
  induction rows generalizing received with
  | nil => simp [delivered]
  | cons m rest ih =>
    rw [delivered]
    by_cases ended : size ≤ received
    · rw [if_pos ended]
      constructor
      · intro _ front _ _ _ _
        omega
      · intro _
        rfl
    · rw [if_neg ended]
      by_cases refused : Refused m
      · rw [if_pos refused]
        constructor
        · intro impossible
          cases impossible
        · intro late
          exact absurd (late [] m rest rfl refused) ended
      · rw [if_neg refused]
        refine (ih (received + counted m)).trans ?_
        constructor
        · intro late front bad back split refused_bad
          cases front with
          | nil =>
            cases split
            exact absurd refused_bad refused
          | cons first front =>
            cases split
            have := late front bad back rfl refused_bad
            rw [counted_cons]
            omega
        · intro late front bad back split refused_bad
          have := late (m :: front) bad back (congrArg (m :: ·) split) refused_bad
          rw [counted_cons] at this
          omega

theorem delivered_all_iff {size received : Nat} {rows : List MessageRow}
    (enough : size ≤ received + countedAll rows) :
    delivered size received rows = (rows.map toMessage, .returned) ↔
      (∀ m ∈ rows, ¬ Refused m) ∧ Continues size received rows := by
  induction rows generalizing received with
  | nil =>
    have done : size ≤ received := enough
    simp [delivered, Continues, done]
  | cons m rest ih =>
    have enough_left : size ≤ received + counted m + countedAll rest := by
      rw [counted_cons] at enough
      omega
    rw [delivered, Continues]
    by_cases ended : size ≤ received
    · simp [ended, Nat.not_lt.mpr ended]
    · by_cases refused : Refused m
      · simp [ended, refused, refusal]
      · have step := ih enough_left
        rw [Prod.ext_iff] at step
        simp only [ended, refused, ↓reduceIte, List.map_cons, Prod.mk.injEq, List.cons.injEq,
          true_and, List.mem_cons, forall_eq_or_imp, not_false_eq_true, Nat.not_le.mp ended]
        exact step

/-! The operation on the server's answer. -/

theorem fetch_answer {t : Tables} (sound : StoreSound t) {draws : Draws} {request : ServerRequest}
    (asked : request.requestCode = codeFetchMessages) {resp : ServerResponse}
    (answered : (run execute (handle draws request) t).2 = .ok resp) :
    resp = ⟨supportedVersion, codeMsgFetch,
      (t.mailbox request.clientId.bytes).flatMap fetchRecord,
      responseHeader supportedVersion codeMsgFetch
        ((t.mailbox request.clientId.bytes).flatMap fetchRecord).length ++
          (t.mailbox request.clientId.bytes).flatMap fetchRecord⟩ ∧
      resp.payload.length < 2 ^ 32 := by
  rw [handle_fetch draws asked, run_fetch sound.keyed (mailbox_packs sound _)] at answered
  have fits := (build_ok_iff _).mp ⟨resp, answered⟩
  rw [build_ok fits] at answered
  cases answered
  exact ⟨rfl, fits⟩

theorem fetch_answered {t : Tables} (sound : StoreSound t) (draws : Draws)
    {request : ServerRequest} (asked : request.requestCode = codeFetchMessages) {size : Nat}
    (packable : size < 2 ^ 32)
    (small : ((t.mailbox request.clientId.bytes).flatMap fetchRecord).length ≤ size) :
    ∃ resp, (run execute (handle draws request) t).2 = .ok resp ∧ resp.payload.length ≤ size := by
  have fits : ((t.mailbox request.clientId.bytes).flatMap fetchRecord).length < 2 ^ 32 :=
    Nat.lt_of_le_of_lt small packable
  rw [handle_fetch draws asked, run_fetch sound.keyed (mailbox_packs sound _), build_ok fits]
  exact ⟨_, rfl, small⟩

theorem fetch_operation_done {clientId : Bytes} (some_id : clientId ≠ []) (beyond : Nat)
    (buffer : Bytes) {code : Nat} (supported : code ∈ supportedResponses) {size : Nat}
    (fits : size < 2 ^ 32) {sock rest : Socket}
    (read : recv 7 sock = (.data (responseHeader supportedVersion code size), rest)) :
    FetchMsgOperation.doOperation clientId true beyond buffer sock =
      if code = codeError then ⟨[], .errorResponse, rest⟩
      else if Client.maxPayloadSize < size then ⟨[], .payloadTooBig, rest⟩
      else fetchMassages size 0 buffer rest := by
  unfold FetchMsgOperation.doOperation
  rw [header_taken _ _ some_id beyond supported fits read, headed]
  by_cases error : code = codeError
  · simp only [if_pos error]
  · by_cases big : Client.maxPayloadSize < size
    · simp only [if_neg error, if_pos big]
    · simp only [if_neg error, if_neg big]

section Mailbox
variable {rows : List MessageRow} (sound : ∀ m ∈ rows, MessageRow.Sound m)
include sound

theorem mailbox_short (small : (rows.flatMap fetchRecord).length ≤ 65536) :
    ∀ m ∈ rows, m.content.length ≤ 65536 := fun m hm =>
  (content_within hm (sound m hm).source).trans small

theorem size_counted : (rows.flatMap fetchRecord).length ≤ 0 + countedAll rows := by
  rw [counted_all fun m hm => (sound m hm).source]
  omega

theorem passed_iff {front back : List MessageRow} {m : MessageRow}
    (split : rows = front ++ m :: back) :
    (rows.flatMap fetchRecord).length ≤ 0 + countedAll front ↔
      ((m :: back).map fun x => 25 + x.content.length).sum ≤
        25 * (front.filter (·.content = [])).length := by
  subst split
  have sources : ∀ x ∈ front, x.fromClient.length = 16 := fun x hx =>
    (sound x (List.mem_append_left _ hx)).source
  have back_sound : ∀ x ∈ m :: back, MessageRow.Sound x := fun x hx =>
    sound x (List.mem_append_right _ hx)
  rw [counted_all sources, List.flatMap_append, List.length_append,
    fetch_payload_length back_sound]
  omega

theorem unbroken_iff :
    (delivered (rows.flatMap fetchRecord).length 0 rows).2 = .returned ↔
      ∀ front m back, rows = front ++ m :: back → Refused m →
        ((m :: back).map fun x => 25 + x.content.length).sum ≤
          25 * (front.filter (·.content = [])).length := by
  rw [delivered_returned_iff]
  constructor
  · intro late front m back split refused
    exact (passed_iff sound split).mp (late front m back split refused)
  · intro late front m back split refused
    exact (passed_iff sound split).mpr (late front m back split refused)

theorem complete_iff :
    (delivered (rows.flatMap fetchRecord).length 0 rows).2 = .returned ∧
        (delivered (rows.flatMap fetchRecord).length 0 rows).1 = rows.map toMessage ↔
      (∀ m ∈ rows, ¬ Refused m) ∧
        ∀ front last, rows = front ++ [last] →
          25 * (front.filter (·.content = [])).length < 25 + last.content.length := by
  have all := delivered_all_iff (size_counted sound)
  rw [continues_iff fun m hm => (sound m hm).source, Prod.ext_iff] at all
  rw [← all]
  exact and_comm

end Mailbox

def HeaderWhole (resp : ServerResponse) (sock rest : Socket) : Prop :=
  recv 7 sock = (.data (responseHeader supportedVersion resp.code resp.payload.length), rest)

theorem header_whole_rest {resp : ServerResponse} {sock rest : Socket} (flowing : Flowing sock)
    (joined : contents sock = wireBytes resp) (read : HeaderWhole resp sock rest) :
    Flowing rest ∧ contents rest = resp.payload := by
  have front := recv_contents read
  rw [joined] at front
  exact ⟨flowing_rest (by decide) flowing read, (List.append_cancel_left front).symm⟩

def FetchReads (resp : ServerResponse) (rows : List MessageRow) (sock : Socket) : Prop :=
  ∃ rest, HeaderWhole resp sock rest ∧
    (resp.payload.length ≤ 65536 → ReadsWhole resp.payload.length 0 rows rest)

def fetchOutcome (resp : ServerResponse) (rows : List MessageRow) : List Message × Ending :=
  if resp.code = codeError then ([], .errorResponse)
  else if Client.maxPayloadSize < resp.payload.length then ([], .payloadTooBig)
  else delivered resp.payload.length 0 rows

section Fetch
variable {clientId : Bytes} (some_id : clientId ≠ []) (beyond : Nat) (buffer : Bytes)
variable {resp : ServerResponse} (sound : ResponseSound resp)
variable {rows : List MessageRow} (rows_sound : ∀ m ∈ rows, MessageRow.Sound m)
variable (payload : resp.payload = rows.flatMap fetchRecord)
variable {sock : Socket} (flowing : Flowing sock) (joined : contents sock = wireBytes resp)
include some_id sound rows_sound payload flowing joined

theorem whole_reads_fetch (reads : FetchReads resp rows sock) :
    let fetched := FetchMsgOperation.doOperation clientId true beyond buffer sock
    fetched.handled = (fetchOutcome resp rows).1 ∧
      fetched.ending = (fetchOutcome resp rows).2 := by
  obtain ⟨rest, read, reads⟩ := reads
  obtain ⟨flows, left⟩ := header_whole_rest flowing joined read
  have done := fetch_operation_done some_id beyond buffer sound.code sound.size read
  dsimp only
  rw [done, fetchOutcome]
  by_cases error : resp.code = codeError
  · rw [if_pos error, if_pos error]
    exact ⟨rfl, rfl⟩
  · rw [if_neg error, if_neg error]
    by_cases big : Client.maxPayloadSize < resp.payload.length
    · rw [if_pos big, if_pos big]
      exact ⟨rfl, rfl⟩
    · have small : resp.payload.length ≤ 65536 := Nat.not_lt.mp big
      rw [if_neg big, if_neg big]
      rw [payload] at left small reads ⊢
      exact fetch_delivered rows_sound (mailbox_short rows_sound small) (size_counted rows_sound)
        flows left (reads small) buffer

end Fetch

theorem uncut_reads {resp : ServerResponse} {rows : List MessageRow}
    (rows_sound : ∀ m ∈ rows, MessageRow.Sound m)
    (payload : resp.payload = rows.flatMap fetchRecord) :
    FetchReads resp rows (whole (wireBytes resp)) := by
  have header := recv_whole (responseHeader supportedVersion resp.code resp.payload.length)
    resp.payload
  rw [response_header_length] at header
  refine ⟨whole resp.payload, header, ?_⟩
  intro _
  rw [payload]
  exact whole_reads (fun m hm => (rows_sound m hm).source) _ 0

theorem whole_fetch {t : Tables} (sound : StoreSound t) {draws : Draws} {request : ServerRequest}
    (asked : request.requestCode = codeFetchMessages) {resp : ServerResponse}
    (answered : (run execute (handle draws request) t).2 = .ok resp)
    (small : resp.payload.length ≤ 65536) (beyond : Nat) (buffer : Bytes) :
    let rows := t.mailbox request.clientId.bytes
    let fetched := FetchMsgOperation.doOperation request.clientId.bytes true beyond buffer
      (whole resp.rawData)
    fetched.handled = (delivered (rows.flatMap fetchRecord).length 0 rows).1 ∧
      fetched.ending = (delivered (rows.flatMap fetchRecord).length 0 rows).2 := by
  intro rows fetched
  have rows_sound := mailbox_sound sound request.clientId.bytes
  obtain ⟨object, -⟩ := fetch_answer sound asked answered
  have payload : resp.payload = rows.flatMap fetchRecord := by rw [object]
  have bytes : resp.rawData = wireBytes resp := by
    rw [object]
    rfl
  have not_big : ¬ Client.maxPayloadSize < resp.payload.length := Nat.not_lt.mpr small
  have outcome : fetchOutcome resp rows = delivered (rows.flatMap fetchRecord).length 0 rows := by
    have no_error : ¬ resp.code = codeError := by
      rw [object]
      exact (by decide : codeMsgFetch ≠ codeError)
    rw [fetchOutcome, if_neg no_error, if_neg not_big, payload]
  have response_sound : ResponseSound resp :=
    run_yields execute (handle_yields draws request) answered
  have done := whole_reads_fetch request.clientId.some_bytes beyond buffer response_sound
    rows_sound payload (whole_flowing _) (whole_contents _) (uncut_reads rows_sound payload)
  rw [outcome, ← bytes] at done
  exact done

/-- When a fetch ends without an exception, and when it hands on the whole mailbox. -/
theorem fetch_unbroken_iff {t : Tables} (reached : ReachableTables t) (draws : Draws)
    {request : ServerRequest} (asked : request.requestCode = codeFetchMessages)
    {resp : ServerResponse} (answered : (run execute (handle draws request) t).2 = .ok resp)
    (small : resp.payload.length ≤ 65536) (beyond : Nat) (buffer : Bytes) :
    let mailbox := t.mailbox request.clientId.bytes
    let fetched := FetchMsgOperation.doOperation request.clientId.bytes true beyond buffer
      (whole resp.rawData)
    (fetched.ending = .returned ↔
      ∀ front m back, mailbox = front ++ m :: back → Refused m →
        ((m :: back).map fun x => 25 + x.content.length).sum ≤
          25 * (front.filter (·.content = [])).length) ∧
    (fetched.ending = .returned ∧ fetched.handled = mailbox.map toMessage ↔
      (∀ m ∈ mailbox, ¬ Refused m) ∧
        ∀ front last, mailbox = front ++ [last] →
          25 * (front.filter (·.content = [])).length < 25 + last.content.length) := by
  intro mailbox fetched
  have sound := mailbox_sound (reachable_sound reached) request.clientId.bytes
  obtain ⟨handled, ending⟩ :=
    whole_fetch (reachable_sound reached) asked answered small beyond buffer
  rw [handled, ending]
  exact ⟨unbroken_iff sound, complete_iff sound⟩

theorem one_text_unbroken :
    let owner : ClientId := ⟨List.replicate 16 1, rfl⟩
    let draws : Draws := ⟨owner, 1, by decide, by decide⟩
    let request := requestOf owner codeFetchMessages []
    let t : Tables := ⟨[ownRow owner], ownRows owner [(msgTypeSendTxtMsg, [0x68, 0x69])], 1⟩
    ∃ resp, (run execute (handle draws request) t).2 = .ok resp ∧
      (FetchMsgOperation.doOperation owner.bytes true 0 [] (whole resp.rawData)).ending =
        .returned ∧
      (FetchMsgOperation.doOperation owner.bytes true 0 [] (whole resp.rawData)).handled =
        [⟨owner.bytes, messageTypeSendTxt, 2, [0x68, 0x69]⟩] := by
  intro owner draws request t
  obtain ⟨history, decoded⟩ := own_messages_stored owner [(msgTypeSendTxtMsg, [0x68, 0x69])]
    (by decide) (by decide)
  have reached : ReachableTables t := .sequential (restricted_reachable decoded)
  have asked : request.requestCode = codeFetchMessages := rfl
  have rows : t.mailbox request.clientId.bytes =
      ownRows owner [(msgTypeSendTxtMsg, [0x68, 0x69])] := own_mailbox owner _ _ _
  obtain ⟨resp, answered, small⟩ := fetch_answered (reachable_sound reached) draws asked
    (show 65536 < 2 ^ 32 by decide) (by rw [rows]; decide)
  obtain ⟨-, complete⟩ := fetch_unbroken_iff reached draws asked answered small 0 []
  rw [rows] at complete
  have accepted : ∀ m ∈ ownRows owner [(msgTypeSendTxtMsg, [0x68, 0x69])], ¬ Refused m := by
    decide
  obtain ⟨returned, handled⟩ := complete.mpr ⟨accepted, by
    intro front last split
    obtain ⟨rfl, -⟩ := List.append_inj' (show [] ++ _ = front ++ [last] from split) rfl
    simp⟩
  exact ⟨resp, answered, returned, handled⟩

/-- A message of type 1 with one byte of content, accepted by the server, ends the
    fetch; "hi" behind it is not handled, and is gone. -/
theorem refused_content_breaks :
    let owner : ClientId := ⟨List.replicate 16 1, rfl⟩
    let draws : Draws := ⟨owner, 1, by decide, by decide⟩
    let request := requestOf owner codeFetchMessages []
    let sent : List (Nat × Bytes) := [(msgTypeGetSymKey, [7]), (msgTypeSendTxtMsg, [0x68, 0x69])]
    ∃ s, Reachable (sequential.restrict Decoded) s ∧ s.tables.messages = ownRows owner sent ∧
      ∃ t resp, run execute (handle draws request) s.tables = (t, .ok resp) ∧
        resp.payload.length ≤ 65536 ∧ t.mailbox owner.bytes = [] ∧
        ∀ beyond buffer,
          let fetched := FetchMsgOperation.doOperation owner.bytes true beyond buffer
            (whole resp.rawData)
          fetched.handled = [] ∧ fetched.ending = refusal := by
  intro owner draws request sent
  obtain ⟨history, decoded⟩ := own_messages_stored owner sent (by decide) (by decide)
  have sound := store_sound.holds (restricted_reachable decoded)
  let t : Tables := ⟨[ownRow owner], ownRows owner sent, 2⟩
  have asked : request.requestCode = codeFetchMessages := rfl
  have rows : t.mailbox request.clientId.bytes = ownRows owner sent := own_mailbox owner _ _ _
  have few : ((t.mailbox request.clientId.bytes).flatMap fetchRecord).length ≤ 65536 := by
    rw [rows]
    decide
  obtain ⟨resp, answered, small⟩ := fetch_answered sound draws asked (by decide) few
  refine ⟨_, decoded, rfl, _, resp, Prod.ext rfl answered, small, ?_, ?_⟩
  · rw [handle_fetch draws asked, run_fetch sound.keyed (mailbox_packs sound _)]
    simp only [Tables.mailbox, List.filter_filter, List.filter_eq_nil_iff]
    intro m _
    simp [request, requestOf, ServerRequest.clientId]
  · intro beyond buffer fetched
    obtain ⟨handled, ending⟩ := whole_fetch sound asked answered small beyond buffer
    have threw : delivered ((t.mailbox request.clientId.bytes).flatMap fetchRecord).length 0
        (t.mailbox request.clientId.bytes) = ([], refusal) := by
      rw [rows]
      decide
    exact ⟨handled.trans (congrArg Prod.fst threw), ending.trans (congrArg Prod.snd threw)⟩

end FetchDelivery
