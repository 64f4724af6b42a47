import MessageU.MailRefinement

/- Messages are delivered in the order in which they were accepted: for every client
   what was accepted for it is, as a list, what its fetches were given so far and then
   what is left in its mailbox, letter for letter as read from the bytes. -/
namespace LettersInOrder
open ByteFields GuardedRuns StatementPrograms LinearizedThreads RequestFormat ServerTables
open ResponseFormat RequestHandling ServerRuns MailboxConservation ConcurrentFetches
open ConcurrentRequests MailService MailRefinement

def FetchAnswered (e : Exchange) : Prop :=
  e.request.requestCode = codeFetchMessages → ∃ r, e.result = .ok r

def exchanges (calls : List Call) (t : Tables) : List Exchange :=
  List.zipWith (fun call r => ⟨call.request, r⟩) calls (inSequence calls t).2

theorem exchanges_cons (call : Call) (later : List Call) (t : Tables) :
    exchanges (call :: later) t =
      ⟨call.request, (run execute (handle call.draws call.request) t).2⟩ ::
        exchanges later (run execute (handle call.draws call.request) t).1 := rfl

/-! One exchange, and the reply it encodes. -/

theorem answer_posted {s : Mail} {r : MailRequest} {dest : Bytes} {l : Letter}
    (reply : (s.answer Letter.id r).2 = .posted dest l) : r = .post dest l := by
  cases r with
  | join m =>
    simp only [Service.answer] at reply
    split_ifs at reply
  | post to_client posted =>
    simp only [Service.answer] at reply
    split_ifs at reply
    cases reply
    rfl
  | _ => cases reply

theorem answer_letters {s : Mail} {r : MailRequest} {owner : Bytes} {list : List Letter}
    (reply : (s.answer Letter.id r).2 = .letters owner list) :
    r = .take owner ∧ list = s.queue owner := by
  cases r with
  | join m =>
    simp only [Service.answer] at reply
    split_ifs at reply
  | post to_client posted =>
    simp only [Service.answer] at reply
    split_ifs at reply
  | take taker =>
    cases reply
    exact ⟨rfl, rfl⟩
  | _ => cases reply

theorem ask_join_cases (uuid : ClientId) (paramsRaw : Bytes) :
    askedJoin uuid paramsRaw = .nonsense ∨ ∃ m, askedJoin uuid paramsRaw = .join m := by
  rw [askedJoin]
  split
  · split
    · exact Or.inr ⟨_, rfl⟩
    · exact Or.inl rfl
  · exact Or.inl rfl

theorem asked_post {call : Call} {dest : Bytes} {l : Letter} (asks : asked call = .post dest l) :
    MessageSound call.request.payload ∧ dest = call.request.payload.take 16 ∧
      l = sentLetter call := by
  simp only [asked] at asks
  split_ifs at asks with register list send sound pubkey size fetch
  · rcases ask_join_cases call.draws.uuid call.request.payload with nonsense | ⟨m, join⟩
    · rw [nonsense] at asks
      cases asks
    · rw [join] at asks
      cases asks
  · cases asks
    exact ⟨sound, rfl, rfl⟩

theorem asked_take {call : Call} {owner : Bytes} (asks : asked call = .take owner) :
    call.request.requestCode = codeFetchMessages ∧ owner = call.request.clientId.bytes := by
  simp only [asked] at asks
  split_ifs at asks with register list send sound pubkey size fetch
  · rcases ask_join_cases call.draws.uuid call.request.payload with nonsense | ⟨m, join⟩
    · rw [nonsense] at asks
      cases asks
    · rw [join] at asks
      cases asks
  · cases asks
    exact ⟨fetch, rfl⟩

theorem silent_result {request : ServerRequest} {result : Except PyError ServerResponse}
    (silent : ∀ r, result = .ok r → r.code ≠ codeMsgSent ∧ r.code ≠ codeMsgFetch)
    (client : Bytes) :
    acceptedIn client ⟨request, result⟩ = [] ∧ fetchedIn client ⟨request, result⟩ = [] := by
  cases result with
  | error e => exact ⟨rfl, rfl⟩
  | ok r =>
    obtain ⟨not_sent, not_fetch⟩ := silent r rfl
    exact ⟨if_neg fun both => not_sent both.1, if_neg fun both => not_fetch both.1⟩

theorem quiet_code {code : Nat} (not_sent : code ≠ codeMsgSent) (not_fetch : code ≠ codeMsgFetch)
    {payload : Bytes} (r : ServerResponse)
    (answered : (ServerResponse.ofCode code).build payload = .ok r) :
    r.code ≠ codeMsgSent ∧ r.code ≠ codeMsgFetch := by
  rw [build_code answered]
  exact ⟨not_sent, not_fetch⟩

theorem exchange_letters (call : Call) {t : Tables} (sound : StoreSound t)
    {result : Except PyError ServerResponse}
    (encodes : Encodes ((mail t).answer Letter.id (asked call)).2 result)
    (answered : FetchAnswered ⟨call.request, result⟩) (client : Bytes) :
    acceptedIn client ⟨call.request, result⟩ =
        postedTo client ((mail t).answer Letter.id (asked call)).2 ∧
      fetchedIn client ⟨call.request, result⟩ =
        takenBy client ((mail t).answer Letter.id (asked call)).2 := by
  cases reply : ((mail t).answer Letter.id (asked call)).2 with
  | posted dest l =>
    obtain ⟨sound_message, rfl, rfl⟩ := asked_post (answer_posted reply)
    have short : (call.request.payload.take 16).length ≤ 16 := by simp
    have sent : result = .ok (sentResponse (call.request.payload.take 16) call.draws.msgId) := by
      rw [reply] at encodes
      rcases encodes with ⟨-, same⟩ | ⟨impossible, -⟩
      · rw [same]
        exact built_done (built_sent short call.draws.msgId)
      · cases impossible
    have other_code : codeMsgSent ≠ codeMsgFetch := by decide
    rw [sent, accepted_letter call client sound_message]
    exact ⟨rfl, by simp [fetchedIn, sentResponse, takenBy, other_code]⟩
  | letters owner list =>
    obtain ⟨asks, rfl⟩ := answer_letters reply
    obtain ⟨fetch, rfl⟩ := asked_take asks
    obtain ⟨r, rfl⟩ := answered fetch
    have rows_sound := mailbox_sound sound call.request.clientId.bytes
    rw [reply] at encodes
    have done : (ServerResponse.ofCode codeMsgFetch).build
        ((t.mailbox call.request.clientId.bytes).flatMap fetchRecord) = .ok r := by
      rcases encodes with ⟨-, same⟩ | ⟨impossible, -⟩
      · rw [same, encoded, mail, List.flatMap_map]
        rfl
      · cases impossible
    have other_code : codeMsgFetch ≠ codeMsgSent := by decide
    rw [build_ok ((build_ok_iff _).mp ⟨r, done⟩)] at done
    cases done
    simp only [acceptedIn, fetchedIn, postedTo, takenBy, other_code, false_and, true_and,
      ↓reduceIte, parse_records rows_sound]
    rfl
  | joined m | members list | card id found =>
    rw [reply] at encodes
    apply silent_result
    rintro r rfl
    rcases encodes with ⟨-, same⟩ | ⟨impossible, -⟩
    · exact quiet_code (by decide) (by decide) r same.symm
    · cases impossible
  | refused | ignored =>
    rw [reply] at encodes
    apply silent_result
    rintro r rfl
    rcases encodes with ⟨-, same⟩ | ⟨-, same | impossible⟩
    · cases same
      decide
    · cases same
      decide
    · cases impossible

/-! Whole runs. -/

theorem letters_told (calls : List Call) {t : Tables} (sound : StoreSound t)
    (answered : ∀ e ∈ exchanges calls t, FetchAnswered e) (client : Bytes) :
    (exchanges calls t).flatMap (acceptedIn client) =
        ((mail t).serve Letter.id (calls.map asked)).2.flatMap (postedTo client) ∧
      (exchanges calls t).flatMap (fetchedIn client) =
        ((mail t).serve Letter.id (calls.map asked)).2.flatMap (takenBy client) := by
  induction calls generalizing t with
  | nil => exact ⟨rfl, rfl⟩
  | cons call later ih =>
    rw [exchanges_cons] at answered ⊢
    obtain ⟨moved, encodes⟩ := request_served call sound
    have after := run_keeps execute execute_sound (handle_issues call.draws call.request) sound
    obtain ⟨posted, taken⟩ := exchange_letters call sound encodes
      (answered _ List.mem_cons_self) client
    obtain ⟨later_posted, later_taken⟩ := ih after
      fun e listed => answered e (List.mem_cons_of_mem _ listed)
    rw [moved] at later_posted later_taken
    simp only [List.flatMap_cons, List.map_cons, Service.serve]
    rw [posted, taken, later_posted, later_taken]
    exact ⟨rfl, rfl⟩

theorem history_in_order {calls : List Call} {s : Server}
    (ran : runFrom Server.next ⟨emptyTables, []⟩ calls = some s)
    (answered : ∀ e ∈ s.history, FetchAnswered e) (client : Bytes) :
    s.history.flatMap (acceptedIn client) =
      s.history.flatMap (fetchedIn client) ++ (s.tables.mailbox client).map letter := by
  obtain ⟨tables, history, -⟩ := history_results ran
  rw [show s.history = exchanges calls emptyTables from history] at answered ⊢
  obtain ⟨posted, taken⟩ := letters_told calls empty_store_sound answered client
  have order := served_in_order Letter.id (mail emptyTables) (calls.map asked) client
  rw [posted, taken, tables]
  rw [← (sequence_served calls empty_store_sound).1] at order
  exact order

theorem fetch_settles_ok {pool : Workers} (known : Known pool) {i : Nat} {t : Worker}
    (here : pool.threads i = some t) (fetch : t.tag.request.requestCode = codeFetchMessages)
    {r : Except PyError ServerResponse} (settled : settles t.rest = some r) :
    ∃ resp, r = .ok resp := by
  have holds := known.fetches.holds i t here
  rcases known.rows i t here with
    ⟨other, -⟩ | ⟨-, start⟩ | ⟨fetched, waiting, selected, count, loop⟩
  · exact absurd fetch other
  · rw [start, fetch_program] at settled
    cases settled
  · obtain ⟨-, waiting_rows⟩ := loop_rows selected count
    have packs : ∀ m ∈ waiting, Packs m := fun m listed =>
      sound_packs known.sound m (holds.waiting m (waiting_rows ▸ listed))
    have fits := holds.fits
    rw [selected, List.flatMap_append] at fits
    rw [loop, settles_loop packs, build_ok fits] at settled
    cases settled
    exact ⟨_, rfl⟩

theorem serial_fetches_answered {pool : Workers}
    (reached : Reachable (workers.restrict Alone) pool) {order : List (Nat × Call)}
    (linear : Linearized execute (fun call : Call => handle call.draws call.request) settles
      SerialStore emptyTables pool order) :
    ∀ e ∈ exchanges (order.map Prod.snd) emptyTables, FetchAnswered e := by
  intro e listed fetch
  obtain ⟨k, at_k⟩ := List.mem_iff_getElem?.mp listed
  rw [exchanges, List.getElem?_zipWith_eq_some] at at_k
  obtain ⟨call, r, asked_at, result_at, rfl⟩ := at_k
  rw [List.getElem?_map, Option.map_eq_some_iff] at asked_at
  obtain ⟨⟨i, call⟩, entry, rfl⟩ := asked_at
  obtain ⟨t, here, rfl, settled⟩ := linear.entered i call (List.mem_of_getElem? entry)
  obtain ⟨result, settled⟩ := Option.ne_none_iff_exists'.mp settled
  obtain ⟨j, entry_too, result_too⟩ := linear.results i t result here settled
  have k_in : k < (order.map Prod.fst).length := by
    rw [List.length_map]
    exact (List.getElem?_eq_some_iff.mp entry).1
  have same : k = j := by
    rw [← List.getElem?_inj k_in linear.once, List.getElem?_map, List.getElem?_map, entry,
      entry_too]
  subst j
  rw [result_at] at result_too
  cases result_too
  exact fetch_settles_ok (known_reached reached) here fetch settled

/-- Many workers: there is a serial order of their requests in which the messages
    for each client are delivered first in, first out. -/
theorem workers_in_order {pool : Workers} (reached : Reachable (workers.restrict Alone) pool) :
    ∃ order s, Serial pool order ∧
      runFrom Server.next ⟨emptyTables, []⟩ (order.map Prod.snd) = some s ∧
      ∀ client, s.history.flatMap (acceptedIn client) =
        s.history.flatMap (fetchedIn client) ++
          ((settledRows pool).filter (·.toClient = client)).map letter := by
  obtain ⟨order, linear⟩ := linearized_run serial_points reached
  have ran := run_in_sequence (order.map Prod.snd) emptyTables []
  refine ⟨order, _, serial_of_linearized reached linear, ran, fun client => ?_⟩
  rw [history_in_order ran (serial_fetches_answered reached linear) client]
  congr 2
  rw [show (inSequence (order.map Prod.snd) emptyTables).1 = _ from linear.store]
  rfl

theorem text_run_in_order :
    ∃ pool t, pool.threads 2 = some t ∧
      (fetchedRows t).map MessageRow.content = [[0x68, 0x69]] ∧
      ∃ (order : List (Nat × Call)) (s : Server), Serial pool order ∧
        runFrom Server.next ⟨emptyTables, []⟩ (order.map Prod.snd) = some s ∧
        ∀ client, s.history.flatMap (acceptedIn client) =
          s.history.flatMap (fetchedIn client) ++
            ((settledRows pool).filter (·.toClient = client)).map letter := by
  obtain ⟨pool, reached, -, t, r, here, done, text⟩ := text_run
  exact ⟨pool, t, here, text, workers_in_order reached⟩

end LettersInOrder
