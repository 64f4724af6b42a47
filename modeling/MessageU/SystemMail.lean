import MessageU.SystemIdentity

/- The mail of a run. What the server takes for a client was sent to it, what it gives was
   taken, and a fetch that comes at once hands on what was given, each message once. -/
namespace SystemMail
open ByteFields SegmentedStream GuardedRuns StatementPrograms RequestFormat ServerTables
open ResponseFormat RequestHandling ServerRuns ServerWorker HandlerOutcomes ClientReception
open ClientCredentials ClientOperations FetchRoundTrip FetchDelivery ClientFragments
open MailboxConservation MessagingSystem SystemRuns SystemIdentity

/-- A message, but for the number that the server gives it. -/
structure Note where
  source : Bytes
  type : Nat
  content : Bytes
  deriving DecidableEq, Repr

def noteOf (m : Message) : Note := ⟨m.clientId, m.messageType, m.messageContent⟩

def letterNote (l : Letter) : Note := ⟨l.source, l.type, l.content⟩

def sentTo (id : Bytes) (k : Connection) : List Note :=
  ((message k.client.contacts k.op).toList.filter fun m => decide (m.clientId = id)).map fun m =>
    ⟨k.client.id, m.messageType, m.messageContent⟩

def shownTo (id : Bytes) (k : Connection) : List Note :=
  if k.client.id = id then k.handled.map noteOf else []

def acceptedOn (id : Bytes) (k : Connection) : List Letter := k.exchange.elim [] (acceptedIn id)

def fetchedOn (id : Bytes) (k : Connection) : List Letter := k.exchange.elim [] (fetchedIn id)

/-- The response to a fetch comes at once, or nothing of it does. -/
def FetchesWhole (w : World) : Move → Prop
  | .finish u env => ∀ c j k, w.processes u = .waiting c j → w.connections[j]? = some k →
      k.op = .fetchMessages → contents env.sock = [] ∨ env.sock = whole (k.reply.getD [])
  | _ => True

/-! The letters of one request. -/

theorem letters_moved {t : Tables} (sound : StoreSound t) (draws : Draws)
    {request : ServerRequest} (fits : request.requestCode = codeFetchMessages →
      ((t.mailbox request.clientId.bytes).flatMap fetchRecord).length < 2 ^ 32) (client : Bytes) :
    let result := run execute (handle draws request) t
    (fetchedIn client ⟨request, result.2⟩ : Multiset Letter) +
        (result.1.mailbox client).map letter =
      (t.mailbox client).map letter + acceptedIn client ⟨request, result.2⟩ := by
  intro result
  rcases run_handle_cases draws request sound.keyed (sound_packs sound) with
    ⟨-, accepted, done⟩ | ⟨fetch, done⟩ | ⟨-, messages, -, codes⟩
  · have taken := accepted_letter ⟨draws, request⟩ client accepted.1
    have given : fetchedIn client
        ⟨request, .ok (sentResponse (request.payload.take 16) draws.msgId)⟩ = [] := by
      simp [fetchedIn, sentResponse, codeMsgSent, codeMsgFetch]
    show (fetchedIn client ⟨request, result.2⟩ : Multiset Letter) + _ = _
    rw [show result = _ from done, taken, given, mailbox_with_message]
    simp [sentLetter]
  · have rows_sound := mailbox_sound sound request.clientId.bytes
    rw [show result = _ from done, mailbox_emptied, build_ok (fits fetch)]
    by_cases here : request.clientId.bytes = client
    · subst here
      simp [fetchedIn, acceptedIn, parse_records rows_sound, codeMsgSent, codeMsgFetch]
    · have elsewhere : ¬ client = request.clientId.bytes := Ne.symm here
      simp [fetchedIn, acceptedIn, here, elsewhere, codeMsgSent, codeMsgFetch]
  · have silent : acceptedIn client ⟨request, result.2⟩ = [] ∧
        fetchedIn client ⟨request, result.2⟩ = [] := by
      cases outcome : result.2 with
      | error e => exact ⟨rfl, rfl⟩
      | ok resp =>
        obtain ⟨not_sent, not_fetch⟩ := codes resp outcome
        exact ⟨if_neg fun both => not_sent both.1, if_neg fun both => not_fetch both.1⟩
    rw [silent.1, silent.2]
    simp [Tables.mailbox, result, messages]

/-- No request makes letters; only a fetch that cannot be packed loses any. -/
theorem letters_served {t : Tables} (sound : StoreSound t) (draws : Draws)
    (request : ServerRequest) (client : Bytes) :
    let result := run execute (handle draws request) t
    (fetchedIn client ⟨request, result.2⟩ : Multiset Letter) +
        (result.1.mailbox client).map letter ≤
      (t.mailbox client).map letter + acceptedIn client ⟨request, result.2⟩ := by
  intro result
  by_cases lost : request.requestCode = codeFetchMessages ∧
      2 ^ 32 ≤ ((t.mailbox request.clientId.bytes).flatMap fetchRecord).length
  · have done : result =
        ({ t with messages := t.messages.filter (·.toClient ≠ request.clientId.bytes) },
          .error .structError) := by
      show run execute (handle draws request) t = _
      rw [handle_fetch draws lost.1, run_fetch sound.keyed (mailbox_packs sound _),
        build_too_long lost.2]
    rw [done, mailbox_emptied]
    simp only [fetchedIn, acceptedIn]
    split <;> simp
  · refine le_of_eq (letters_moved sound draws (fun fetch => ?_) client)
    exact Nat.lt_of_not_le fun long => lost ⟨fetch, long⟩

theorem message_carried (contacts : List Contact) {op : Operation}
    (sends : askedCode op = codeSendMsg) :
    ∃ m, message contacts op = some m ∧
      askedPayload contacts op = messagePayload m.clientId m.messageType m.messageContent := by
  cases op with
  | sendText name text => exact ⟨_, rfl, rfl⟩
  | getSymmKey name => exact ⟨_, rfl, rfl⟩
  | sendSymKey name => exact ⟨_, rfl, rfl⟩
  | _ => exact absurd sends (by simp [askedCode, codeRegister, codeListClients,
      codeFetchPublicKey, codeFetchMessages, codeSendMsg])

theorem sent_answers_send : ∀ pair ∈ answerCodes, pair.2 = codeMsgSent → pair.1 = codeSendMsg := by
  decide

section Carried
variable {clients : List ClientRow} {k : Connection} (sound : ConnectionSound clients k)
include sound

theorem message_known {m : Message} (carries : message k.client.contacts k.op = some m) :
    m.clientId.length = 16 ∧ m.messageType ∈ supportedMsgTypes ∧
      ∃ name, destination k.op = some name ∧
        m.clientId = Client.getContactIdByName k.client.contacts name := by
  obtain ⟨-, supported, name, named, id⟩ := message_content_bound sound.typed carries
  obtain ⟨env, sent⟩ := sound.sent
  exact ⟨by rw [id]; exact sent_known sent named, supported, name, named, id⟩

theorem request_carries (id : ClientId) (sends : askedCode k.op = codeSendMsg) :
    let payload := (requestFor id k.client.contacts k.op).payload
    ∃ m, message k.client.contacts k.op = some m ∧ MessageSound payload ∧
      payload.take 16 = m.clientId ∧ fromBigEndian (slice payload 16 17) = m.messageType ∧
      payload.drop 21 = m.messageContent := by
  obtain ⟨m, carries, asks⟩ := message_carried k.client.contacts sends
  obtain ⟨size, supported, -⟩ := message_known sound carries
  obtain ⟨short, -⟩ := message_content_bound sound.typed carries
  have bytes : (requestFor id k.client.contacts k.op).payload =
      messagePayload m.clientId m.messageType m.messageContent := by
    rw [← asks]
    exact request_payload _ _ _
  dsimp only
  rw [bytes]
  exact ⟨m, carries, message_sound size supported (Nat.lt_of_le_of_lt short (by decide)),
    message_destination size, message_type size supported, message_content size⟩

theorem accepted_sent (client : Bytes) :
    ((acceptedOn client k).map letterNote).Sublist (sentTo client k) := by
  obtain ⟨id, own⟩ := own_id sound
  cases answered : k.exchange with
  | none => simp [acceptedOn, answered]
  | some e =>
    obtain ⟨request, result⟩ := e
    cases result with
    | error e => simp [acceptedOn, answered, acceptedIn]
    | ok resp =>
      by_cases taken : resp.code = codeMsgSent ∧ request.payload.take 16 = client
      · have no_error : resp.code ≠ codeError := by
          rw [taken.1]
          decide
        have paired := ((sound.answer request resp answered).2.resolve_left no_error).1
        have asked : request = requestFor id k.client.contacts k.op :=
          sound.request _ id answered own
        obtain ⟨m, carries, -, addressed, type, content⟩ :=
          request_carries sound id (sent_answers_send _ paired taken.1)
        rw [← asked] at addressed type content
        have source : request.clientId.bytes = k.client.id := by
          rw [asked, own]
          rfl
        have here : sentTo client k = [⟨k.client.id, m.messageType, m.messageContent⟩] := by
          simp [sentTo, carries, ← addressed, taken.2]
        have letters : acceptedOn client k = [⟨request.clientId.bytes,
            fromLittleEndian (resp.payload.drop 16),
            fromBigEndian (slice request.payload 16 17), request.payload.drop 21⟩] := by
          rw [acceptedOn, answered]
          exact if_pos taken
        rw [here, letters, List.map_singleton, letterNote, source, type, content]
      · simp [acceptedOn, answered, acceptedIn, taken]

end Carried

/-! What is handed on. -/

/-- The loop hands on a front of what was sent. -/
theorem delivered_front (size received : Nat) (rows : List MessageRow) :
    (delivered size received rows).1 <+: rows.map toMessage := by
  induction rows generalizing received with
  | nil => exact List.prefix_refl _
  | cons m rest ih =>
    rw [delivered]
    split_ifs
    · exact List.nil_prefix
    · exact List.nil_prefix
    · exact (List.prefix_cons_inj _).mpr (ih _)

theorem nothing_read {asked : Nat} {sock : Socket} (nothing : contents sock = []) :
    ∀ data rest, recv asked sock = (.data data, rest) → data = [] := by
  intro data rest read
  have front := recv_contents read
  rw [nothing] at front
  exact (List.append_eq_nil_iff.mp front.symm).1

section Fetched
variable {clients : List ClientRow} {k : Connection} (sound : ConnectionSound clients k)
variable {env : Environment} (sends : env.sends = true) (fetches : k.op = .fetchMessages)
include sound

theorem fetched_rows {request : ServerRequest} {resp : ServerResponse}
    (answered : k.exchange = some ⟨request, .ok resp⟩) (code : resp.code = codeMsgFetch)
    {rows : List MessageRow} (rows_sound : ∀ m ∈ rows, MessageRow.Sound m)
    (payload : resp.payload = rows.flatMap fetchRecord) :
    fetchedOn k.client.id k = rows.map letter := by
  obtain ⟨id, own⟩ := own_id sound
  have asked : request = requestFor id k.client.contacts k.op := sound.request _ id answered own
  have source : request.clientId.bytes = k.client.id := by
    rw [asked, own]
    rfl
  rw [fetchedOn, answered, ← parse_records rows_sound, ← payload]
  exact if_pos ⟨code, source⟩

include sends fetches

theorem fetch_run {resp : ServerResponse} (resp_sound : ResponseSound resp)
    (at_once : env.sock = whole (wireBytes resp)) :
    let fetched : FetchRun :=
      if resp.code = codeError then ⟨[], .errorResponse, whole resp.payload⟩
      else if Client.maxPayloadSize < resp.payload.length then
        ⟨[], .payloadTooBig, whole resp.payload⟩
      else fetchMassages resp.payload.length 0 env.buffer (whole resp.payload)
    (perform k.client k.op env).handled = fetched.handled ∧
      (perform k.client k.op env).how = .ended fetched.ending := by
  have some_id : k.client.id ≠ [] := List.ne_nil_of_length_pos (by rw [sound.id]; decide)
  have made : ClientRequest.ofCode k.client.id codeFetchMessages =
      .ok ⟨k.client.id, codeFetchMessages, supportedVersion, 0, [], []⟩ := by
    simp [ClientRequest.ofCode, some_id]
  have header := recv_whole (responseHeader supportedVersion resp.code resp.payload.length)
    resp.payload
  rw [response_header_length] at header
  have done := fetch_operation_done some_id env.beyond env.buffer resp_sound.code resp_sound.size
    header
  rw [show responseHeader supportedVersion resp.code resp.payload.length ++ resp.payload =
    wireBytes resp from rfl, ← at_once] at done
  dsimp only
  rw [← done, fetches]
  simp only [perform, FetchMsgOperation.perform, made, sends, and_self]

omit sound sends fetches in
theorem rows_handed {rows : List MessageRow} (rows_sound : ∀ m ∈ rows, MessageRow.Sound m)
    (small : (rows.flatMap fetchRecord).length ≤ Client.maxPayloadSize) (buffer : Bytes) :
    (fetchMassages (rows.flatMap fetchRecord).length 0 buffer
        (whole (rows.flatMap fetchRecord))).handled =
      (delivered (rows.flatMap fetchRecord).length 0 rows).1 :=
  (fetch_delivered rows_sound (mailbox_short rows_sound small) (size_counted rows_sound)
    (whole_flowing _) (whole_contents _)
    (whole_reads (fun m listed => (rows_sound m listed).source) _ 0) buffer).1

theorem whole_fetch_front
    (at_once : contents env.sock = [] ∨ env.sock = whole (k.reply.getD [])) :
    (perform k.client k.op env).how ≠ .ended .indeterminate ∧
      (perform k.client k.op env).handled.map noteOf <+:
        (fetchedOn k.client.id k).map letterNote := by
  have unread (nothing : contents env.sock = []) :
      (perform k.client k.op env).how ≠ .ended .indeterminate ∧
        (perform k.client k.op env).handled.map noteOf <+:
          (fetchedOn k.client.id k).map letterNote := by
    obtain ⟨set, none_handled⟩ :=
      ResponseMatching.fetch_unread (c := k.client) (nothing_read nothing)
    rw [fetches]
    refine ⟨set, ?_⟩
    rw [show (perform k.client .fetchMessages env).handled = [] from none_handled]
    exact List.nil_prefix
  rcases at_once with nothing | at_once
  · exact unread nothing
  rcases sound.reply with empty | ⟨resp, resp_sound, bytes, kind⟩
  · rw [empty] at at_once
    exact unread (by rw [at_once]; rfl)
  · obtain ⟨handled, how⟩ := fetch_run sound sends fetches resp_sound (bytes ▸ at_once)
    rw [handled, how]
    by_cases error : resp.code = codeError
    · rw [if_pos error]
      exact ⟨by simp, List.nil_prefix⟩
    · rw [if_neg error]
      by_cases big : Client.maxPayloadSize < resp.payload.length
      · rw [if_pos big]
        exact ⟨by simp, List.nil_prefix⟩
      · rw [if_neg big]
        obtain ⟨request, answered⟩ := kind.resolve_left error
        have answers := ((sound.answer request resp answered).2.resolve_left error).2
        rw [fetches] at answers
        obtain ⟨code, rows, rows_sound, payload⟩ := answers
        rw [payload] at big ⊢
        constructor
        · rcases fetch_ends (rows.flatMap fetchRecord).length 0 env.buffer
              (whole (rows.flatMap fetchRecord)) with returned | ⟨e, threw⟩
          · rw [returned]
            simp
          · rw [threw]
            simp
        · rw [fetched_rows sound answered code rows_sound payload,
            rows_handed rows_sound (Nat.le_of_not_lt big), List.map_map]
          exact ((delivered_front _ 0 rows).map noteOf).trans (by rw [List.map_map]; rfl)

end Fetched

theorem others_silent {c : Client} {op : Operation} (other : op ≠ .fetchMessages)
    (env : Environment) : (perform c op env).handled = [] := by
  rcases perform_keeps c env op with
    ⟨typed, rfl⟩ | ⟨-, -, silent⟩ | ⟨fetches, -⟩ | ⟨-, -, -, silent⟩
  · rcases register_cases c typed env with ⟨-, stops⟩ | ⟨-, silent, -⟩
    · rw [show perform c (.register typed) env = _ from stops]
      rfl
    · exact silent
  · exact silent
  · exact absurd fetches other
  · exact silent

/-! The mail of a run. -/

structure Mailed (w : World) : Prop where
  mail : ∀ id, (w.connections.flatMap (fetchedOn id) : Multiset Letter) +
    (w.tables.mailbox id).map letter ≤ w.connections.flatMap (acceptedOn id)
  handed : ∀ k ∈ w.connections,
    k.handled.map noteOf <+: (fetchedOn k.client.id k).map letterNote

theorem put_mailed {w : World} (mailed : Mailed w) (u : Nat) (p : Process) : Mailed (w.put u p) :=
  ⟨mailed.mail, mailed.handed⟩

theorem unchanged_mailed {w : World} (mailed : Mailed w) {j : Nat} {old new : Connection}
    (here : w.connections[j]? = some old) (exchange : new.exchange = old.exchange)
    (handed : new.handled.map noteOf <+: (fetchedOn new.client.id new).map letterNote) :
    Mailed (w.update j new) where
  mail id := by
    have fetched : fetchedOn id new = fetchedOn id old := by rw [fetchedOn, fetchedOn, exchange]
    have accepted : acceptedOn id new = acceptedOn id old := by
      rw [acceptedOn, acceptedOn, exchange]
    show (((w.connections.set j new).flatMap (fetchedOn id) : List Letter) : Multiset Letter) + _ ≤
      ((w.connections.set j new).flatMap (acceptedOn id) : List Letter)
    rw [flat_unset here new fetched, flat_unset here new accepted]
    exact mailed.mail id
  handed k listed := by
    rcases List.mem_or_eq_of_mem_set listed with there | rfl
    · exact mailed.handed k there
    · exact handed

theorem finished_mailed {w : World} (mailed : Mailed w) {j : Nat} {k : Connection}
    (here : w.connections[j]? = some k) {handled : List Message}
    (handed : handled.map noteOf <+: (fetchedOn k.client.id k).map letterNote) (u : Nat)
    (p : Process) : Mailed (World.put (w.update j (k.finish handled)) u p) :=
  put_mailed (unchanged_mailed mailed here (show (k.finish handled).exchange = _ from rfl) handed)
    u p

theorem served_mailed {w : World} (store : StoreSound w.tables) (mailed : Mailed w) {j : Nat}
    {k : Connection} (here : w.connections[j]? = some k) (unasked : k.exchange = none)
    (draws : Draws) (request : ServerRequest) (worker : WorkerRun) :
    Mailed
      { w.update j (k.answer worker ⟨request, (run execute (handle draws request) w.tables).2⟩) with
        tables := (run execute (handle draws request) w.tables).1 } where
  mail id := by
    let e : Exchange := ⟨request, (run execute (handle draws request) w.tables).2⟩
    have fetched := flat_set (f := fetchedOn id) here (k.answer worker e)
      (by rw [fetchedOn, unasked]; rfl)
    have accepted := flat_set (f := acceptedOn id) here (k.answer worker e)
      (by rw [acceptedOn, unasked]; rfl)
    have served := letters_served store draws request id
    dsimp only [World.update]
    rw [Multiset.coe_eq_coe.mpr fetched, Multiset.coe_eq_coe.mpr accepted, ← Multiset.coe_add,
      ← Multiset.coe_add, add_assoc]
    calc (w.connections.flatMap (fetchedOn id) : Multiset Letter) +
          (fetchedOn id (k.answer worker e) +
            ((run execute (handle draws request) w.tables).1.mailbox id).map letter)
        ≤ w.connections.flatMap (fetchedOn id) +
          ((w.tables.mailbox id).map letter + acceptedOn id (k.answer worker e)) :=
          add_le_add_right served _
      _ ≤ w.connections.flatMap (acceptedOn id) + acceptedOn id (k.answer worker e) := by
          rw [← add_assoc]
          exact add_le_add_left (mailed.mail id) _
  handed k' listed := by
    rcases List.mem_or_eq_of_mem_set listed with there | rfl
    · exact mailed.handed k' there
    · have before := mailed.handed k (List.mem_of_getElem? here)
      rw [fetchedOn, unasked] at before
      rw [show (k.answer worker _).handled.map noteOf = _ from List.prefix_nil.mp before]
      exact List.nil_prefix

theorem mailed_step {w after : World} {move : Move} (sound : Sound w) (mailed : Mailed w)
    (uncut : FetchesWhole w move) (taken : w.Step move after) : Mailed after := by
  cases taken with
  | launch _ _ => exact put_mailed mailed _ _
  | kill _ => exact put_mailed mailed _ _
  | unsent _ _ _ => exact put_mailed mailed _ _
  | ask idle typed sent =>
    rename_i u c op env raw
    constructor
    · intro id
      have fetched : fetchedOn id ⟨u, c, op, raw, none, none, []⟩ = [] := rfl
      have accepted : acceptedOn id ⟨u, c, op, raw, none, none, []⟩ = [] := rfl
      show (((w.connections ++ [_]).flatMap (fetchedOn id) : List Letter) : Multiset Letter) + _ ≤
        ((w.connections ++ [_]).flatMap (acceptedOn id) : List Letter)
      simp only [List.flatMap_append, List.flatMap_singleton, fetched, accepted, List.append_nil]
      exact mailed.mail id
    · intro k listed
      rcases List.mem_append.mp listed with before | new
      · exact mailed.handed k before
      · rw [List.mem_singleton.mp new]
        exact List.nil_prefix
  | refuse here unserved arrived refused =>
    rename_i j k draws sock worker
    exact unchanged_mailed mailed here rfl (mailed.handed k (List.mem_of_getElem? here))
  | serve here unserved arrived received =>
    have there := sound.connections _ (List.mem_of_getElem? here)
    exact served_mailed sound.store mailed here (there.pending unserved) _ _ _
  | finish waits here sends arrived set =>
    rename_i u j c k env
    obtain ⟨rfl, rfl, -, -, listed⟩ := waiting_connection sound waits here
    refine finished_mailed mailed here ?_ _ _
    by_cases fetches : k.op = .fetchMessages
    · exact (whole_fetch_front listed sends fetches (uncut _ _ _ waits here fetches)).2
    · rw [others_silent fetches]
      exact List.nil_prefix
  | astray waits here sends arrived unset listing fetching left =>
    rename_i u j c k env contacts handled p
    obtain ⟨rfl, rfl, -, -, listed⟩ := waiting_connection sound waits here
    refine finished_mailed mailed here ?_ _ _
    by_cases fetches : k.op = .fetchMessages
    · exact absurd unset
        (whole_fetch_front listed sends fetches (uncut _ _ _ waits here fetches)).1
    · rw [fetching fetches]
      exact List.nil_prefix

theorem system_mailed :
    Invariant (messaging.restrict FetchesWhole) (fun w => Sound w ∧ Mailed w) := by
  apply Invariant.strengthen (system_sound.restrict FetchesWhole)
  · intro w first
    rw [show w = World.initial from first]
    refine ⟨fun id => le_of_eq rfl, ?_⟩
    intro k impossible
    cases impossible
  · intro w move after sound mailed taken
    exact mailed_step sound mailed taken.1 taken.2

theorem sublist_flat {α β : Type} {f g : α → List β} {l : List α}
    (each : ∀ x ∈ l, (f x).Sublist (g x)) : (l.flatMap f).Sublist (l.flatMap g) := by
  induction l with
  | nil => exact List.Sublist.refl _
  | cons x rest ih =>
    simp only [List.flatMap_cons]
    exact (each x List.mem_cons_self).append
      (ih fun y later => each y (List.mem_cons_of_mem x later))

theorem shown_fetched {id : Bytes} {k : Connection}
    (handed : k.handled.map noteOf <+: (fetchedOn k.client.id k).map letterNote) :
    (shownTo id k).Sublist ((fetchedOn id k).map letterNote) := by
  unfold shownTo
  split
  · rename_i own
    rw [← own]
    exact handed.sublist
  · exact List.nil_sublist _

theorem given_from_sent {w : World} (sound : Sound w) (mailed : Mailed w) (id : Bytes) :
    ((w.connections.flatMap (fetchedOn id)).map letterNote : Multiset Note) ≤
      w.connections.flatMap (sentTo id) := by
  have sent : ((w.connections.flatMap (acceptedOn id)).map letterNote).Sublist
      (w.connections.flatMap (sentTo id)) := by
    rw [List.map_flatMap]
    exact sublist_flat fun k listed => accepted_sent (sound.connections k listed) id
  have given : (w.connections.flatMap (fetchedOn id) : Multiset Letter) ≤
      w.connections.flatMap (acceptedOn id) :=
    le_trans (Multiset.le_add_right _ _) (mailed.mail id)
  calc ((w.connections.flatMap (fetchedOn id)).map letterNote : Multiset Note)
      ≤ ((w.connections.flatMap (acceptedOn id)).map letterNote : List Note) := by
        simpa only [Multiset.map_coe] using Multiset.map_le_map given
    _ ≤ w.connections.flatMap (sentTo id) := Multiset.coe_le.mpr sent.subperm

theorem shown_from_sent {w : World} (sound : Sound w) (mailed : Mailed w) (id : Bytes) :
    (w.connections.flatMap (shownTo id) : Multiset Note) ≤ w.connections.flatMap (sentTo id) := by
  have shown : (w.connections.flatMap (shownTo id)).Sublist
      ((w.connections.flatMap (fetchedOn id)).map letterNote) := by
    rw [List.map_flatMap]
    exact sublist_flat fun k listed => shown_fetched (mailed.handed k listed)
  exact le_trans (Multiset.coe_le.mpr shown.subperm) (given_from_sent sound mailed id)

end SystemMail
