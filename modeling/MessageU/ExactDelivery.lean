import MessageU.SystemDelivery

/- Nothing is lost, and nothing comes twice. While requests and responses come through, ids
   of messages are fresh and mailboxes are such that the client's loop reads them, each
   message that was sent is on its way to the server, or in the mailbox, or in a response
   that is still to be read, or was shown. -/
namespace ExactDelivery
open ByteFields SegmentedStream GuardedRuns StatementPrograms RequestFormat ServerTables
open ResponseFormat RequestHandling ServerRuns ServerWorker HandlerOutcomes ClientReception
open ClientCredentials ClientOperations FetchRoundTrip FetchDelivery ClientFragments
open MailboxConservation MessagingSystem SystemRuns SystemIdentity SystemMail SystemContacts
open SystemDelivery

/-- The client takes the payload, and its counter, which takes an empty message for 25
    bytes more than it has, does not end the loop before the last message. -/
def Readable (rows : List MessageRow) : Prop :=
  (rows.flatMap fetchRecord).length ≤ Client.maxPayloadSize ∧
    ∀ last ∈ rows.getLast?,
      25 * (rows.dropLast.filter (·.content = [])).length < 25 + last.content.length

instance (rows : List MessageRow) : Decidable (Readable rows) :=
  inferInstanceAs (Decidable (_ ∧ _))

/-- A mailbox that is fetched can be read, and the id of a new message is new. -/
def Servable (t : Tables) (draws : Draws) (request : ServerRequest) : Prop :=
  (request.requestCode = codeFetchMessages → Readable (t.mailbox request.clientId.bytes)) ∧
    (request.requestCode = codeSendMsg → draws.msgId ∉ t.messages.map MessageRow.id)

instance (t : Tables) (draws : Draws) (request : ServerRequest) :
    Decidable (Servable t draws request) :=
  inferInstanceAs (Decidable ((_ → _) ∧ (_ → _)))

/-- No client is killed while it waits, no request is cut, and no client stops waiting
    before the server has answered, nor reads less than the response to a fetch. -/
def Undisturbed (w : World) : Move → Prop
  | .kill u => ∀ c j, w.processes u ≠ .waiting c j
  | .serve _ draws sock => ∃ worker request,
      receiveRequest sock = (worker, some request) ∧ Servable w.tables draws request
  | .finish u env => ∀ c j k, w.processes u = .waiting c j → w.connections[j]? = some k →
      ∃ reply, k.reply = some reply ∧ (k.op = .fetchMessages → env.sock = whole reply)
  | _ => True

def Calm (w : World) (move : Move) : Prop := ListsHeaded w move ∧ Undisturbed w move

def onTheWay (id : Bytes) (k : Connection) : List Note :=
  if k.exchange.isNone then sentTo id k else []

def unread (id : Bytes) (k : Connection) : List Note :=
  if k.handled.isEmpty then (fetchedOn id k).map letterNote else []

/-! What can be read. -/

theorem last_counts {rows : List MessageRow} (readable : Readable rows) :
    ∀ front last, rows = front ++ [last] →
      25 * (front.filter (·.content = [])).length < 25 + last.content.length := by
  rintro front last rfl
  simpa using readable.2 last (by simp)

theorem readable_delivered {rows : List MessageRow} (sound : ∀ m ∈ rows, MessageRow.Sound m)
    (accepted : ∀ m ∈ rows, ¬ Refused m) (readable : Readable rows) :
    (delivered (rows.flatMap fetchRecord).length 0 rows).1 = rows.map toMessage :=
  ((complete_iff sound).mpr ⟨accepted, last_counts readable⟩).2

structure Fetched (k : Connection) (rows : List MessageRow) : Prop where
  sound : ∀ m ∈ rows, MessageRow.Sound m
  accepted : ∀ m ∈ rows, ¬ Refused m
  readable : Readable rows
  answered : ∃ request resp, k.exchange = some ⟨request, .ok resp⟩ ∧ ResponseSound resp ∧
    resp.code = codeMsgFetch ∧ resp.payload = rows.flatMap fetchRecord ∧
    k.reply = some (wireBytes resp)

theorem note_of_row (m : MessageRow) : noteOf (toMessage m) = letterNote (letter m) := rfl

theorem all_handed {clients : List ClientRow} {k : Connection} (sound : ConnectionSound clients k)
    {env : Environment} (sends : env.sends = true) (fetches : k.op = .fetchMessages)
    {rows : List MessageRow} (fetched : Fetched k rows)
    (at_once : ∀ reply, k.reply = some reply → env.sock = whole reply) :
    (perform k.client k.op env).handled.map noteOf =
      (fetchedOn k.client.id k).map letterNote := by
  obtain ⟨request, resp, answered, resp_sound, code, payload, reply⟩ := fetched.answered
  obtain ⟨handled, -⟩ := fetch_run sound sends fetches resp_sound (at_once _ reply)
  have no_error : resp.code ≠ codeError := by
    rw [code]
    decide
  have small : ¬ Client.maxPayloadSize < resp.payload.length := by
    rw [payload]
    exact Nat.not_lt.mpr fetched.readable.1
  rw [if_neg no_error, if_neg small, payload, rows_handed fetched.sound fetched.readable.1,
    readable_delivered fetched.sound fetched.accepted fetched.readable] at handled
  rw [handled, fetched_rows sound answered code fetched.sound payload, List.map_map, List.map_map]
  exact List.map_congr_left fun m _ => note_of_row m

/-! What is served. -/

theorem carried_accepted {contacts : List Contact} {op : Operation} {m : Message}
    (carries : message contacts op = some m) :
    askedCode op = codeSendMsg ∧
      ¬ (m.messageType = messageTypeRequestSymKey ∧ m.messageContent ≠ []) := by
  cases op with
  | sendText name text =>
    cases carries
    have other : messageTypeSendTxt ≠ messageTypeRequestSymKey := by decide
    exact ⟨rfl, fun both => other both.1⟩
  | getSymmKey name =>
    cases carries
    exact ⟨rfl, fun both => both.2 rfl⟩
  | sendSymKey name =>
    cases carries
    have other : messageTypeSendSymKey ≠ messageTypeRequestSymKey := by decide
    exact ⟨rfl, fun both => other both.1⟩
  | _ => cases carries

section Served
variable {t : Tables} {k : Connection} (sound : ConnectionSound t.clients k)
variable {sock : Socket} (arrived : contents sock <+: k.raw) {worker : WorkerRun}
variable {request : ServerRequest} (received : receiveRequest sock = (worker, some request))
variable {draws : Draws}
include sound arrived received

theorem message_received (sends : request.requestCode = codeSendMsg) :
    ∃ m, message k.client.contacts k.op = some m ∧ MessageSound request.payload ∧
      request.payload.take 16 = m.clientId ∧ request.clientId.bytes = k.client.id ∧
      fromBigEndian (slice request.payload 16 17) = m.messageType ∧
      request.payload.drop 21 = m.messageContent := by
  obtain ⟨id, own⟩ := own_id sound
  obtain rfl := received_asked sound own arrived received
  obtain ⟨m, carries, payload, addressed, type, content⟩ := request_carries sound id sends
  exact ⟨m, carries, payload, addressed, own.symm, type, content⟩

variable (store : StoreSound t)
include store

theorem still_accepted (accepted : ∀ m ∈ t.messages, ¬ Refused m) :
    ∀ m ∈ (run execute (handle draws request) t).1.messages, ¬ Refused m := by
  intro m stored
  rcases run_handle_cases draws request store.keyed (sound_packs store) with
    ⟨sends, -, done⟩ | ⟨-, done⟩ | ⟨-, messages, -⟩
  · rw [done] at stored
    rcases List.mem_append.mp stored with before | new
    · exact accepted m before
    · obtain ⟨sent, carries, -, -, -, type, content⟩ :=
        message_received sound arrived received sends
      rw [List.mem_singleton.mp new]
      rintro ⟨request_key, something⟩
      exact (carried_accepted carries).2 ⟨type ▸ request_key, content ▸ something⟩
  · rw [done] at stored
    exact accepted m (List.mem_of_mem_filter stored)
  · rw [messages] at stored
    exact accepted m stored

variable (servable : Servable t draws request)
include servable

theorem taken_as_sent (known : ContactsKnown t.clients k.client.contacts) (id : Bytes) :
    (acceptedOn id (k.answer worker
        ⟨request, (run execute (handle draws request) t).2⟩)).map letterNote = sentTo id k := by
  by_cases sends : request.requestCode = codeSendMsg
  · obtain ⟨m, carries, payload, addressed, source, type, content⟩ :=
      message_received sound arrived received sends
    obtain ⟨size, -, name, named, leads⟩ := message_known sound carries
    obtain ⟨contact, listed, -, same⟩ := id_by_name (leads ▸ size)
    obtain ⟨row, stored, rfl⟩ := known contact listed
    have registered : request.payload.take 16 ∈ t.clients.map ClientRow.id :=
      List.mem_map.mpr ⟨row, stored, by rw [addressed, leads, ← same]; rfl⟩
    have answered : (run execute (handle draws request) t).2 =
        .ok (sentResponse (request.payload.take 16) draws.msgId) := by
      rw [handle_send draws sends,
        run_send_accepted _ ⟨payload, registered, servable.2 sends⟩]
    rw [answered]
    have accepted : acceptedOn id (k.answer worker
        ⟨request, .ok (sentResponse (request.payload.take 16) draws.msgId)⟩) =
        acceptedIn id ⟨request, .ok (sentResponse (request.payload.take 16) draws.msgId)⟩ := rfl
    rw [accepted, accepted_letter ⟨draws, request⟩ id payload]
    by_cases here : m.clientId = id <;>
      simp [sentLetter, sentTo, carries, addressed, here, letterNote, source, type, content]
  · have new_sound := handled_sound sound arrived received store draws
    have nothing : sentTo id k = [] := by
      cases carries : message k.client.contacts k.op with
      | none => simp [sentTo, carries]
      | some m =>
        obtain ⟨own, is_own⟩ := own_id sound
        obtain rfl := received_asked sound is_own arrived received
        exact absurd (carried_accepted carries).1 sends
    rw [nothing]
    exact List.sublist_nil.mp (nothing ▸ accepted_sent new_sound id)

theorem fetch_served (accepted : ∀ m ∈ t.messages, ¬ Refused m) (fetches : k.op = .fetchMessages) :
    Fetched (k.answer worker ⟨request, (run execute (handle draws request) t).2⟩)
      (t.mailbox request.clientId.bytes) := by
  obtain ⟨id, own⟩ := own_id sound
  obtain rfl := received_asked sound own arrived received
  have asks : (requestFor id k.client.contacts k.op).requestCode = codeFetchMessages := by
    rw [fetches]
    rfl
  have readable := servable.1 asks
  obtain ⟨resp, answered, -⟩ := fetch_answered store draws asks (by decide) readable.1
  obtain ⟨object, fits⟩ := fetch_answer store asks answered
  have resp_sound : ResponseSound resp := by
    refine ⟨?_, ?_, fits⟩
    · rw [object]
    · rw [object]
      exact show codeMsgFetch ∈ supportedResponses by decide
  refine ⟨mailbox_sound store _, fun m listed => accepted m (List.mem_of_mem_filter listed),
    readable, requestFor id k.client.contacts k.op, resp, ?_, resp_sound, ?_, ?_, ?_⟩
  · rw [answered]
    rfl
  · rw [object]
  · rw [object]
  · rw [answered]
    exact congrArg some (response_sent received resp_sound)

end Served

theorem fetch_answers_fetch :
    ∀ pair ∈ answerCodes, pair.2 = codeMsgFetch → pair.1 = codeFetchMessages := by
  decide

theorem fetch_asked {op : Operation} (asks : askedCode op = codeFetchMessages) :
    op = .fetchMessages := by
  cases op with
  | fetchMessages => rfl
  | _ => exact absurd asks (by simp [askedCode, codeRegister, codeListClients,
      codeFetchPublicKey, codeFetchMessages, codeSendMsg])

section Given
variable {clients : List ClientRow} {k : Connection} (sound : ConnectionSound clients k)
include sound

theorem given_own {id : Bytes} (given : fetchedOn id k ≠ []) :
    k.client.id = id ∧ k.op = .fetchMessages := by
  obtain ⟨own, is_own⟩ := own_id sound
  cases answered : k.exchange with
  | none => exact absurd (by rw [fetchedOn, answered]; rfl) given
  | some e =>
    obtain ⟨request, result⟩ := e
    cases result with
    | error e => exact absurd (by rw [fetchedOn, answered]; rfl) given
    | ok resp =>
      have letters : fetchedOn id k = if resp.code = codeMsgFetch ∧ request.clientId.bytes = id
          then parseRecords resp.payload else [] := by
        rw [fetchedOn, answered]
        rfl
      rw [letters] at given
      obtain ⟨⟨code, source⟩, -⟩ := ite_ne_right_iff.mp given
      have asked : request = requestFor own k.client.contacts k.op :=
        sound.request _ own answered is_own
      have no_error : resp.code ≠ codeError := by
        rw [code]
        decide
      have paired := ((sound.answer request resp answered).2.resolve_left no_error).1
      refine ⟨?_, ?_⟩
      · rw [← source, asked, is_own]
        rfl
      · exact fetch_asked (fetch_answers_fetch _ paired code)

end Given

/-! The messages of a run. -/

structure Answered (k : Connection) : Prop where
  asked : k.exchange ≠ none
  taken : ∀ id, (acceptedOn id k).map letterNote = sentTo id k
  fetched : k.op = .fetchMessages → ∃ rows, Fetched k rows

structure Exact (w : World) : Prop where
  mail : ∀ id, (w.connections.flatMap (fetchedOn id) : Multiset Letter) +
    (w.tables.mailbox id).map letter = w.connections.flatMap (acceptedOn id)
  accepted : ∀ m ∈ w.tables.messages, ¬ Refused m
  answered : ∀ k ∈ w.connections, k.reply ≠ none → Answered k
  read : ∀ (j : Nat) (k : Connection), w.connections[j]? = some k →
    w.processes k.owner = .waiting k.client j ∨
      (k.reply ≠ none ∧ k.handled.map noteOf = (fetchedOn k.client.id k).map letterNote)

theorem put_exact {w : World} (exact : Exact w) {u : Nat} (at_menu : ∀ c j, w.processes u ≠
    .waiting c j) (p : Process) : Exact (w.put u p) where
  mail := exact.mail
  accepted := exact.accepted
  answered := exact.answered
  read j k here := by
    rw [process_put]
    rcases exact.read j k here with waits | done
    · left
      rw [if_neg ?_]
      · exact waits
      · rintro rfl
        exact at_menu _ _ waits
    · exact Or.inr done

theorem opened_exact {w : World} (exact : Exact w) {u : Nat} {c : Client}
    (idle : w.processes u = .idle c) (op : Operation) (raw : Bytes) :
    Exact { w.put u (.waiting c w.connections.length) with
      connections := w.connections ++ [⟨u, c, op, raw, none, none, []⟩] } where
  mail id := by
    have fetched : fetchedOn id ⟨u, c, op, raw, none, none, []⟩ = [] := rfl
    have accepted : acceptedOn id ⟨u, c, op, raw, none, none, []⟩ = [] := rfl
    show (((w.connections ++ [_]).flatMap (fetchedOn id) : List Letter) : Multiset Letter) + _ =
      ((w.connections ++ [_]).flatMap (acceptedOn id) : List Letter)
    simp only [List.flatMap_append, List.flatMap_singleton, fetched, accepted, List.append_nil]
    exact exact.mail id
  accepted := exact.accepted
  answered k listed replied := by
    rcases List.mem_append.mp listed with before | new
    · exact exact.answered k before replied
    · rw [List.mem_singleton.mp new] at replied
      exact absurd rfl replied
  read j k here := by
    show (w.put u _).processes k.owner = _ ∨ _
    rw [process_put]
    by_cases inside : j < w.connections.length
    · rw [List.getElem?_append_left inside] at here
      rcases exact.read j k here with waits | done
      · left
        rw [if_neg ?_]
        · exact waits
        · rintro rfl
          rw [idle] at waits
          cases waits
      · exact Or.inr done
    · rw [List.getElem?_append_right (Nat.le_of_not_lt inside)] at here
      obtain ⟨first, rfl⟩ := List.getElem?_eq_some_iff.mp here
      have last : j = w.connections.length := by
        simp only [List.length_singleton] at first
        omega
      subst last
      simp

theorem finished_exact {w : World} (exact : Exact w) {j : Nat} {k : Connection}
    (here : w.connections[j]? = some k) (waits : w.processes k.owner = .waiting k.client j)
    (replied : k.reply ≠ none) {handled : List Message}
    (handed : handled.map noteOf = (fetchedOn k.client.id k).map letterNote) (p : Process) :
    Exact (World.put (w.update j (k.finish handled)) k.owner p) where
  mail id := by
    show (((w.connections.set j (k.finish handled)).flatMap (fetchedOn id) : List Letter) :
        Multiset Letter) + _ =
      ((w.connections.set j (k.finish handled)).flatMap (acceptedOn id) : List Letter)
    rw [flat_unset here (k.finish handled) rfl, flat_unset here (k.finish handled) rfl]
    exact exact.mail id
  accepted := exact.accepted
  answered x listed answered := by
    rcases List.mem_or_eq_of_mem_set listed with there | rfl
    · exact exact.answered x there answered
    · obtain ⟨asked, taken, fetched⟩ := exact.answered k (List.mem_of_getElem? here) replied
      refine ⟨asked, taken, fun fetches => ?_⟩
      obtain ⟨rows, ready⟩ := fetched fetches
      exact ⟨rows, ready.sound, ready.accepted, ready.readable, ready.answered⟩
  read i x there := by
    rw [process_put]
    have there : (w.connections.set j (k.finish handled))[i]? = some x := there
    by_cases same : j = i
    · subst same
      obtain ⟨inside, -⟩ := List.getElem?_eq_some_iff.mp here
      obtain rfl : k.finish handled = x :=
        Option.some.inj ((List.getElem?_set_self inside).symm.trans there)
      exact Or.inr ⟨replied, handed⟩
    · rw [List.getElem?_set_ne same] at there
      rcases exact.read i x there with still | done
      · left
        rw [if_neg ?_]
        · exact still
        · intro owner
          rw [owner, waits] at still
          exact same (Process.waiting.inj still).2
      · exact Or.inr done

theorem served_exact {w : World} (sound : Sound w) (contacts : ContactsSound w) (exact : Exact w)
    {j : Nat} {k : Connection} (here : w.connections[j]? = some k) (unserved : k.reply = none)
    {sock : Socket} (arrived : contents sock <+: k.raw) {worker : WorkerRun}
    {request : ServerRequest} (received : receiveRequest sock = (worker, some request))
    {draws : Draws} (servable : Servable w.tables draws request) :
    Exact
      { w.update j (k.answer worker ⟨request, (run execute (handle draws request) w.tables).2⟩) with
        tables := (run execute (handle draws request) w.tables).1 } where
  mail id := by
    let e : Exchange := ⟨request, (run execute (handle draws request) w.tables).2⟩
    have unasked : k.exchange = none :=
      (sound.connections k (List.mem_of_getElem? here)).pending unserved
    have fetched := flat_set (f := fetchedOn id) here (k.answer worker e)
      (by rw [fetchedOn, unasked]; rfl)
    have accepted := flat_set (f := acceptedOn id) here (k.answer worker e)
      (by rw [acceptedOn, unasked]; rfl)
    have moved := letters_moved sound.store draws (fun fetch =>
      Nat.lt_of_le_of_lt (servable.1 fetch).1 (by decide)) id
    dsimp only [World.update]
    rw [Multiset.coe_eq_coe.mpr fetched, Multiset.coe_eq_coe.mpr accepted, ← Multiset.coe_add,
      ← Multiset.coe_add, add_assoc, ← exact.mail id, add_assoc]
    exact congrArg _ moved
  accepted := still_accepted (sound.connections k (List.mem_of_getElem? here)) arrived received
    sound.store exact.accepted
  answered x listed replied := by
    rcases List.mem_or_eq_of_mem_set listed with there | rfl
    · exact exact.answered x there replied
    · have there := List.mem_of_getElem? here
      have own := sound.connections k there
      refine ⟨fun impossible => (by cases impossible), fun id => taken_as_sent own arrived received
        sound.store servable (contacts.connections k there) id, fun fetches => ⟨_, fetch_served own
        arrived received sound.store servable exact.accepted fetches⟩⟩
  read i x there := by
    have there : (w.connections.set j (k.answer worker _))[i]? = some x := there
    by_cases same : j = i
    · subst same
      obtain ⟨inside, -⟩ := List.getElem?_eq_some_iff.mp here
      obtain rfl := Option.some.inj ((List.getElem?_set_self inside).symm.trans there)
      exact Or.inl ((exact.read j k here).resolve_right fun done => done.1 unserved)
    · rw [List.getElem?_set_ne same] at there
      exact exact.read i x there

theorem exact_step {w after : World} {move : Move} (sound : Sound w) (contacts : ContactsSound w)
    (exact : Exact w) (calm : Undisturbed w move) (taken : w.Step move after) : Exact after := by
  cases taken with
  | launch off started =>
    apply put_exact exact
    intro c j waits
    rw [off] at waits
    cases waits
  | kill u => exact put_exact exact calm _
  | unsent idle typed silent =>
    apply put_exact exact
    intro c j waits
    rw [idle] at waits
    cases waits
  | ask idle typed sent => exact opened_exact exact idle _ _
  | refuse here unserved arrived refused =>
    obtain ⟨worker, request, received, -⟩ := calm
    rw [refused] at received
    cases received
  | serve here unserved arrived received =>
    obtain ⟨worker, request, again, servable⟩ := calm
    rw [received] at again
    cases again
    exact served_exact sound contacts exact here unserved arrived received servable
  | finish waits here sends arrived set =>
    obtain ⟨reply, replied, at_once⟩ := calm _ _ _ waits here
    obtain ⟨rfl, rfl, -, -, listed⟩ := waiting_connection sound waits here
    rename_i j k env
    have some_reply : k.reply ≠ none := by
      rw [replied]
      simp
    refine finished_exact exact here waits some_reply ?_ _
    by_cases fetches : k.op = .fetchMessages
    · obtain ⟨rows, fetched⟩ :=
        (exact.answered k (List.mem_of_getElem? here) some_reply).fetched fetches
      refine all_handed listed sends fetches fetched ?_
      intro reply' same
      rw [replied] at same
      cases same
      exact at_once fetches
    · have nothing : fetchedOn k.client.id k = [] :=
        by_contra fun given => fetches (given_own listed given).2
      rw [others_silent fetches, nothing]
      rfl
  | astray waits here sends arrived unset listing fetching left =>
    obtain ⟨reply, replied, at_once⟩ := calm _ _ _ waits here
    obtain ⟨rfl, rfl, -, -, listed⟩ := waiting_connection sound waits here
    rename_i j k env contacts' handled p
    have some_reply : k.reply ≠ none := by
      rw [replied]
      simp
    refine finished_exact exact here waits some_reply ?_ _
    by_cases fetches : k.op = .fetchMessages
    · have whole_reply : env.sock = whole (k.reply.getD []) := by
        rw [replied]
        exact at_once fetches
      exact absurd unset (whole_fetch_front listed sends fetches (Or.inr whole_reply)).1
    · have nothing : fetchedOn k.client.id k = [] :=
        by_contra fun given => fetches (given_own listed given).2
      rw [fetching fetches, nothing]
      rfl

theorem system_exact : Invariant (messaging.restrict Calm)
    (fun w => (Sound w ∧ ContactsSound w) ∧ Exact w) := by
  apply Invariant.strengthen (system_contacts.restrict_finer fun _ _ calm => calm.1)
  · intro w first
    rw [show w = World.initial from first]
    refine ⟨fun _ => rfl, ?_, ?_, ?_⟩
    · intro m impossible
      cases impossible
    · intro k impossible
      cases impossible
    · intro j k impossible
      cases impossible
  · rintro w move after ⟨sound, contacts⟩ exact taken
    exact exact_step sound contacts exact taken.1.2 taken.2

/-! Where the messages are. -/

theorem flat_add {α β : Type} {f g h : α → List β} {l : List α}
    (each : ∀ x ∈ l, (f x : Multiset β) = g x + h x) :
    (l.flatMap f : Multiset β) = l.flatMap g + l.flatMap h := by
  induction l with
  | nil => rfl
  | cons x rest ih =>
    have first := each x List.mem_cons_self
    have others := ih fun y later => each y (List.mem_cons_of_mem x later)
    simp only [List.flatMap_cons, ← Multiset.coe_add] at first others ⊢
    rw [first, others]
    exact add_add_add_comm _ _ _ _

section Places
variable {w : World} (sound : Sound w) (exact : Exact w) {k : Connection}
variable (listed : k ∈ w.connections)
include sound exact listed

theorem sent_split (id : Bytes) :
    (sentTo id k : Multiset Note) = onTheWay id k + (acceptedOn id k).map letterNote := by
  cases asked : k.exchange with
  | none => simp [onTheWay, acceptedOn, asked]
  | some e =>
    have replied : k.reply ≠ none := by
      intro unserved
      rw [(sound.connections k listed).pending unserved] at asked
      cases asked
    rw [(exact.answered k listed replied).taken id]
    simp [onTheWay, asked]

theorem given_split (id : Bytes) :
    ((fetchedOn id k).map letterNote : Multiset Note) = unread id k + shownTo id k := by
  by_cases own : k.client.id = id
  · subst own
    obtain ⟨j, here⟩ := List.mem_iff_getElem?.mp listed
    rcases exact.read j k here with waits | ⟨-, handed⟩
    · obtain ⟨-, -, nothing, -⟩ := waiting_connection sound waits here
      simp [unread, shownTo, nothing]
    · cases some_handled : k.handled with
      | nil =>
        rw [some_handled] at handed
        simp [unread, shownTo, some_handled]
      | cons m rest =>
        rw [← handed]
        simp [unread, shownTo, some_handled]
  · have nothing : fetchedOn id k = [] :=
      by_contra fun given => own (given_own (sound.connections k listed) given).1
    simp [unread, shownTo, own, nothing]

theorem nothing_moves (done : k.reply ≠ none ∧
    k.handled.map noteOf = (fetchedOn k.client.id k).map letterNote) (id : Bytes) :
    onTheWay id k = [] ∧ unread id k = [] := by
  constructor
  · have asked := (exact.answered k listed done.1).asked
    simp [onTheWay, asked]
  · unfold unread
    split
    · rename_i none_handled
      by_contra given
      have own := (given_own (sound.connections k listed)
        fun nothing => given (by rw [nothing]; rfl)).1
      rw [List.isEmpty_iff.mp none_handled, own] at done
      exact given done.2.symm
    · rfl

end Places

theorem sent_places {w : World} (sound : Sound w) (exact : Exact w) (id : Bytes) :
    (w.connections.flatMap (sentTo id) : Multiset Note) =
      w.connections.flatMap (onTheWay id) +
        ((w.tables.mailbox id).map fun m => letterNote (letter m)) +
        w.connections.flatMap (unread id) + w.connections.flatMap (shownTo id) := by
  have sent := flat_add fun k listed => sent_split sound exact listed id
  have given := flat_add fun k listed => given_split sound exact listed id
  have mail := congrArg (Multiset.map letterNote) (exact.mail id)
  rw [Multiset.map_add, Multiset.map_coe, Multiset.map_coe, Multiset.map_coe, List.map_map,
    List.map_flatMap, List.map_flatMap, given] at mail
  rw [sent, ← mail, Function.comp_def]
  abel

theorem quiet_places {w : World} (sound : Sound w) (exact : Exact w)
    (quiet : ∀ u c j, w.processes u ≠ .waiting c j) (id : Bytes) :
    w.connections.flatMap (onTheWay id) = [] ∧ w.connections.flatMap (unread id) = [] := by
  have still {k : Connection} (listed : k ∈ w.connections) :
      onTheWay id k = [] ∧ unread id k = [] := by
    obtain ⟨j, here⟩ := List.mem_iff_getElem?.mp listed
    exact nothing_moves sound exact listed
      ((exact.read j k here).resolve_left (quiet k.owner k.client j)) id
  exact ⟨List.flatMap_eq_nil_iff.mpr fun k listed => (still listed).1,
    List.flatMap_eq_nil_iff.mpr fun k listed => (still listed).2⟩

/-! Runs that can be computed. -/

def clear (w : World) : Deed → Bool
  | .serve k draws =>
    (receiveRequest (whole ((w.connections[k]?.map Connection.raw).getD []))).2.any fun request =>
      decide (Servable w.tables draws request)
  | .finish u =>
    match w.processes u with
    | .waiting _ k => (w.connections[k]?.bind Connection.reply).isSome
    | _ => true
  | .launch _ | .ask _ _ => true

theorem clear_calm {w : World} {deed : Deed} (sound : Sound w) (allowed : clear w deed = true) :
    Calm w (deed.move w) := by
  refine ⟨(deed_whole (replies_known sound) deed).2, ?_⟩
  cases deed with
  | launch u => trivial
  | ask u op => trivial
  | serve k draws =>
    obtain ⟨request, received, servable⟩ := (Option.any_eq_true _ _).mp allowed
    exact ⟨_, request, Prod.ext rfl received, of_decide_eq_true servable⟩
  | finish u =>
    intro c j k waits here
    simp only [clear, waits, here, Option.bind_some] at allowed
    obtain ⟨reply, replied⟩ := Option.isSome_iff_exists.mp allowed
    refine ⟨reply, replied, fun _ => ?_⟩
    simp [undisturbed, World.replyTo, waits, here, replied]

/-! What follows. -/

/-- In every run, each message that was sent to an id is in one place, and is there once:
    on its way to the server, in the mailbox, in a response that is still to be read, or
    shown. When no client waits, what was not shown is in the mailbox. -/
theorem messages_in_one_place {w : World} (reached : Reachable (messaging.restrict Calm) w)
    (id : Bytes) :
    (w.connections.flatMap (sentTo id) : Multiset Note) =
      w.connections.flatMap (onTheWay id) +
        ((w.tables.mailbox id).map fun m => letterNote (letter m)) +
        w.connections.flatMap (unread id) + w.connections.flatMap (shownTo id) ∧
    ((∀ u c j, w.processes u ≠ .waiting c j) →
      (w.connections.flatMap (sentTo id) : Multiset Note) =
        ((w.tables.mailbox id).map fun m => letterNote (letter m)) +
          w.connections.flatMap (shownTo id)) := by
  obtain ⟨⟨sound, -⟩, exact⟩ := system_exact.holds reached
  have places := sent_places sound exact id
  refine ⟨places, fun quiet => ?_⟩
  obtain ⟨none_asking, none_unread⟩ := quiet_places sound exact quiet id
  rw [places, none_asking, none_unread]
  simp

theorem hi_in_one_place :
    let a : Draws := ⟨⟨List.replicate 16 2, rfl⟩, 1, by decide, by decide⟩
    let b : Draws := ⟨⟨List.replicate 16 3, rfl⟩, 2, by decide, by decide⟩
    let other : Draws := ⟨⟨List.replicate 16 4, rfl⟩, 3, by decide, by decide⟩
    let hi : Note := ⟨a.uuid.bytes, messageTypeSendTxt, [0x68, 0x69]⟩
    ∃ w, runFrom (World.tried clear) World.initial (conversation a b other).dropLast = some w ∧
      w.connections.flatMap (unread b.uuid.bytes) = [hi] ∧
      w.connections.flatMap (sentTo b.uuid.bytes) = [hi] := by
  intro a b other hi
  have places : (runFrom (World.tried clear) World.initial (conversation a b other).dropLast).map
      (fun w => (w.connections.flatMap (onTheWay b.uuid.bytes), w.tables.messages,
        w.connections.flatMap (unread b.uuid.bytes),
        w.connections.flatMap (shownTo b.uuid.bytes))) = some ([], [], [hi], []) := by
    decide +kernel
  obtain ⟨w, run, found⟩ := Option.map_eq_some_iff.mp places
  simp only [Prod.mk.injEq] at found
  obtain ⟨none_asking, none_stored, in_response, none_shown⟩ := found
  have reached : Reachable (messaging.restrict Calm) w :=
    tried_reachable (fun _ _ sound allowed => clear_calm sound allowed) run
  have one_place := (messages_in_one_place reached b.uuid.bytes).1
  rw [none_asking, Tables.mailbox, none_stored, in_response, none_shown] at one_place
  exact ⟨w, run, in_response, List.perm_singleton.mp (Multiset.coe_eq_coe.mp one_place)⟩

end ExactDelivery
