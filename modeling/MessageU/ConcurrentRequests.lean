import MessageU.ConcurrentFetches
import MessageU.LinearizedThreads

/- Requests of every kind by many workers at the same time. While names are
   checked alone, mailboxes are fetched alone and no message takes the id of a row
   that a fetch has still to delete, the workers give the results of the same
   requests handled one after another. A fetch takes effect at its SELECT, a
   registration and a send at their INSERT, the others at their only statement. -/
namespace ConcurrentRequests
open ByteFields GuardedRuns StatementPrograms LinearizedThreads RequestFormat ServerTables
open ResponseFormat RequestHandling ServerRuns ConcurrentFetches

/-- How a worker is going to end, once no answer can change it. A fetch reads
    nothing of what its DELETEs are answered. -/
def settles : Sql ServerResponse → Option (Except PyError ServerResponse)
  | .statement (.deleteMessage id) next =>
      some (run execute (.statement (.deleteMessage id) next) emptyTables).2
  | rest => ended rest

def nextStored : Sql ServerResponse → Option Nat
  | .statement (.insertMessage id _ _ _ _) _ => some id
  | _ => none

/-- No message is inserted with the id of a row that a fetch has still to delete. -/
def StoreAlone (pool : Workers) : Action Call → Prop
  | .spawn _ _ => True
  | .turn i => ∀ t id, pool.threads i = some t → nextStored t.rest = some id →
      ∀ j u, pool.threads j = some u → ∀ m ∈ waitingRows u, m.id ≠ id

def Alone (pool : Workers) (action : Action Call) : Prop :=
  ConcurrentRegistrations.CheckAlone pool action ∧ FetchAlone pool action ∧
    StoreAlone pool action

def rowsAt (pool : Workers) (i : Nat) : List MessageRow :=
  (pool.threads i).elim [] waitingRows

open Classical in
noncomputable def unclaimed (rows : Nat → List MessageRow) (m : MessageRow) : Bool :=
  decide (∀ i, m ∉ rows i)

noncomputable def settledRows (pool : Workers) : List MessageRow :=
  pool.store.messages.filter (unclaimed (rowsAt pool))

def SerialStore (pool : Workers) (serial : Tables) : Prop :=
  serial = { pool.store with messages := settledRows pool }

def ReadsClients : Statement → Prop
  | .selectPublicKey _ | .selectClientByName _ | .selectClientById _
  | .selectClientsExcept _ | .selectClients => True
  | _ => False

def BeforeInsert (clients : List ClientRow) (call : Call) (rest : Sql ServerResponse) : Prop :=
  (call.request.requestCode = codeRegister ∧ validUtf8 (call.request.payload.drop 255) = true ∧
    ∃ name, registrationName call.request.payload = some name ∧
      rest = registerTail call.draws.uuid name (call.request.payload.drop 255)) ∨
  (call.request.requestCode = codeSendMsg ∧ MessageSound call.request.payload ∧
    call.request.payload.take 16 ∈ clients.map ClientRow.id ∧
    rest = sendTail call.draws.msgId call.request.payload call.request.clientId.bytes)

def Stage (clients : List ClientRow) (call : Call) (rest : Sql ServerResponse) : Prop :=
  rest = handle call.draws call.request ∨ BeforeInsert clients call rest ∨ settles rest ≠ none

/-! What is settled. -/

theorem settles_ended {rest : Sql ServerResponse} {r : Except PyError ServerResponse}
    (is_over : ended rest = some r) : settles rest = some r := by
  cases rest with
  | done value => exact is_over
  | raise error => exact is_over
  | statement q next => cases is_over

theorem built_ended (result : Except PyError ServerResponse) :
    ended (built result) = some result := by
  cases result <;> rfl

theorem settles_loop {rows : List MessageRow} (packs : ∀ m ∈ rows, Packs m) (payload : Bytes) :
    settles (fetchLoop rows payload) =
      some ((ServerResponse.ofCode codeMsgFetch).build (payload ++ rows.flatMap fetchRecord)) := by
  have result := congrArg Prod.snd (run_fetch_loop packs payload emptyTables)
  cases rows with
  | nil =>
    rw [List.flatMap_nil, List.append_nil, fetchLoop]
    exact settles_ended (built_ended _)
  | cons m rest =>
    rw [fetch_loop_cons (packs m List.mem_cons_self)] at result ⊢
    exact congrArg some result

theorem quiet_settles {q : Statement} (quiet : NoFetch q) (next : Answer q → Sql ServerResponse) :
    settles (.statement q next) = none := by
  cases q with
  | deleteMessage id => exact absurd rfl (quiet.1 id)
  | _ => rfl

theorem register_tail_turn {uuid : ClientId} {name key : Bytes} (text : validUtf8 key = true) :
    registerTail uuid name key =
      .statement (.insertClient ⟨uuid.bytes, name, key⟩) fun _ => .done (registered uuid) :=
  if_pos text

theorem send_tail_turn {msgId : Nat} {paramsRaw source : Bytes} (sound : MessageSound paramsRaw) :
    sendTail msgId paramsRaw source =
      .statement (.insertMessage msgId (paramsRaw.take 16) source
        (fromBigEndian (slice paramsRaw 16 17)) (paramsRaw.drop 21)) fun
          | .ok _ => .done (sentResponse (paramsRaw.take 16) msgId)
          | .error _ => .done getErrResponse :=
  if_pos sound

theorem before_insert_unsettled {clients : List ClientRow} {call : Call}
    {rest : Sql ServerResponse} (before : BeforeInsert clients call rest) :
    settles rest = none := by
  rcases before with ⟨-, text, name, -, rfl⟩ | ⟨-, sound, -, rfl⟩
  · rw [register_tail_turn text]
    rfl
  · rw [send_tail_turn sound]
    rfl

/-! What a worker's turn can be. -/

theorem list_program (source : Bytes) :
    listClients source = .statement (.selectClientsExcept source) fun
      | .ok rows => built ((ServerResponse.ofCode codeClientsList).build (rows.flatMap listEntry))
      | .error _ => built ((ServerResponse.ofCode codeClientsList).build []) :=
  same_answers (fun _ => rfl) fun _ => rfl

theorem pubkey_program {paramsRaw : Bytes} (size : paramsRaw.length = 16) :
    getPubkey paramsRaw = .statement (.selectPublicKey paramsRaw) fun
      | .ok keys => built ((ServerResponse.ofCode codePublicKey).build (paramsRaw ++ keys.headD []))
      | .error e => .raise (.database e) := by
  have sixteen : ¬ paramsRaw.length ≠ ClientManager.clientIdSize := not_not.mpr size
  rw [getPubkey, if_neg sixteen]
  refine same_answers (fun keys => ?_) fun _ => rfl
  cases keys <;> rfl

theorem reads_execute {q : Statement} (reads : ReadsClients q) {s t : Tables}
    (same : s.clients = t.clients) : execute q s = (s, (execute q t).2) := by
  cases q with
  | insertClient row => cases reads
  | insertMessage id dst source type content => cases reads
  | deleteMessage id => cases reads
  | selectMessages source => cases reads
  | _ => simp only [execute, same]

/-- The first statement of every handler but the fetch is a check of the client
    table; the answer settles the request, or its INSERT comes next. -/
theorem first_turn {call : Call} {q : Statement} {next : Answer q → Sql ServerResponse}
    (start : .statement q next = handle call.draws call.request)
    (other : call.request.requestCode ≠ codeFetchMessages) (t : Tables) :
    ReadsClients q ∧ ((∃ r, ended (next (execute q t).2) = some r) ∨
      BeforeInsert t.clients call (next (execute q t).2)) := by
  rcases handled_code_cases call.request with
    unsupported | register | list | send | fetch | pubkey
  · rw [handle_unsupported _ unsupported] at start
    cases start
  · rw [handle_register _ register] at start
    cases asks : registrationName call.request.payload with
    | none =>
      rcases register_refused call.draws.uuid asks with refused | raised
      · rw [refused] at start
        cases start
      · rw [raised] at start
        cases start
    | some name =>
      rw [register_program _ asks] at start
      cases start
      refine ⟨trivial, ?_⟩
      simp only [execute]
      split
      · exact Or.inl ⟨_, rfl⟩
      · by_cases text : validUtf8 (call.request.payload.drop 255) = true
        · exact Or.inr (Or.inl ⟨register, text, name, asks, rfl⟩)
        · rw [registerTail, if_neg text]
          exact Or.inl ⟨_, rfl⟩
  · rw [handle_list _ list, list_program] at start
    cases start
    exact ⟨trivial, Or.inl ⟨_, built_ended _⟩⟩
  · rw [handle_send _ send] at start
    by_cases enough : 21 ≤ call.request.payload.length
    · rw [send_program _ _ enough] at start
      cases start
      refine ⟨trivial, ?_⟩
      simp only [execute]
      split
      · rename_i found
        by_cases sound : MessageSound call.request.payload
        · have known := (row_found_iff ClientRow.id _ _).mp found
          exact Or.inr (Or.inr ⟨send, sound, known, rfl⟩)
        · rw [sendTail, if_neg sound]
          exact Or.inl ⟨_, rfl⟩
      · exact Or.inl ⟨_, rfl⟩
    · rw [send_refused _ _ (Nat.lt_of_not_le enough)] at start
      cases start
  · exact absurd fetch other
  · rw [handle_pubkey _ pubkey] at start
    by_cases size : call.request.payload.length = 16
    · rw [pubkey_program size] at start
      cases start
      exact ⟨trivial, Or.inl ⟨_, built_ended _⟩⟩
    · rw [pubkey_refused size] at start
      cases start

theorem replayed {t : Tables} {call : Call} {rest : Sql ServerResponse}
    (before : BeforeInsert t.clients call rest)
    (free : ∀ name, ConcurrentRegistrations.nextInsert rest = some name →
      name ∉ t.clients.map ClientRow.name) :
    run execute (handle call.draws call.request) t = run execute rest t := by
  rcases before with ⟨register, text, name, asks, rfl⟩ | ⟨send, sound, known, rfl⟩
  · have free_name : name ∉ t.clients.map ClientRow.name :=
      free name (by rw [register_tail_turn text]; rfl)
    rw [handle_register _ register, register_program _ asks, run_statement]
    simp only [execute, (row_found_iff ClientRow.name _ _).not.mpr free_name, ↓reduceIte]
  · rw [handle_send _ send, send_program _ _ sound.1, run_statement]
    simp only [execute, (row_found_iff ClientRow.id _ _).mpr known, ↓reduceIte]

theorem part_execute {q : Statement} (quiet : NoFetch q) (t : Tables) (part : MessageRow → Bool)
    (new : ∀ m ∈ (execute q t).1.messages, m ∉ t.messages → part m = true)
    (taken : ∀ id dst source type content, q = .insertMessage id dst source type content →
      ∀ m ∈ t.messages, m.id = id → part m = true) :
    execute q { t with messages := t.messages.filter part } =
      ({ (execute q t).1 with messages := (execute q t).1.messages.filter part },
        (execute q t).2) := by
  cases q with
  | insertClient row =>
    simp only [execute]
    split <;> rfl
  | deleteMessage id => exact absurd rfl (quiet.1 id)
  | selectMessages source => exact absurd rfl (quiet.2 source)
  | insertMessage id dst source type content =>
    simp only [execute] at new ⊢
    by_cases collides : id ∈ t.messages.map MessageRow.id
    · have collides_too : id ∈ (t.messages.filter part).map MessageRow.id := by
        obtain ⟨m, stored, same⟩ := List.mem_map.mp collides
        have in_part := taken id dst source type content rfl m stored same
        exact List.mem_map.mpr ⟨m, List.mem_filter.mpr ⟨stored, in_part⟩, same⟩
      rw [if_pos collides_too, if_pos collides]
    · have fresh_too : id ∉ (t.messages.filter part).map MessageRow.id := by
        intro used
        obtain ⟨m, stored, same⟩ := List.mem_map.mp used
        exact collides (List.mem_map.mpr ⟨m, List.mem_of_mem_filter stored, same⟩)
      rw [if_neg collides] at new
      have row_in : part ⟨id, dst, source, type, content, t.accepted⟩ = true := by
        apply new _ (List.mem_append_right _ (List.mem_singleton_self _))
        intro stored
        exact collides (List.mem_map.mpr ⟨_, stored, rfl⟩)
      rw [if_neg fresh_too, if_neg collides, List.filter_append, List.filter_singleton, row_in]
      rfl
  | _ => rfl

/-! The rows that wait for their DELETE. -/

theorem rows_at {pool : Workers} {i : Nat} {t : Worker} (here : pool.threads i = some t) :
    rowsAt pool i = waitingRows t := by
  rw [rowsAt, here]
  rfl

theorem rows_owner {pool : Workers} {i : Nat} {m : MessageRow} (waits : m ∈ rowsAt pool i) :
    ∃ t, pool.threads i = some t ∧ m ∈ waitingRows t := by
  cases here : pool.threads i with
  | none =>
    rw [rowsAt, here] at waits
    cases waits
  | some t => exact ⟨t, rfl, rows_at here ▸ waits⟩

theorem rows_set (pool : Workers) (store : Tables) (i j : Nat) (t : Worker) :
    rowsAt (Pool.set ⟨store, pool.threads⟩ i t) j =
      if j = i then waitingRows t else rowsAt pool j := by
  rw [rowsAt, set_threads]
  split <;> rfl

theorem rows_unmoved (pool : Workers) (store : Tables) {i : Nat} {t : Worker}
    (same : waitingRows t = rowsAt pool i) :
    rowsAt (Pool.set ⟨store, pool.threads⟩ i t) = rowsAt pool := by
  funext j
  rw [rows_set]
  split
  · rename_i here
    rw [here, same]
  · rfl

theorem nothing_waits {t : Worker} (nothing : selectedRows t.answers = []) :
    waitingRows t = [] := by
  rw [waitingRows, nothing, List.drop_nil]

theorem part_keyed {t : Tables} (keyed : t.Keyed) (part : MessageRow → Bool) :
    Tables.Keyed { t with messages := t.messages.filter part } where
  clientIds := keyed.clientIds
  messageIds := keyed.messageIds.sublist (List.filter_sublist.map _)
  serials := keyed.serials.sublist (List.filter_sublist.map _)
  issued := fun m stored => keyed.issued m (List.mem_of_mem_filter stored)

/-! One step. -/

structure Known (pool : Workers) : Prop where
  sound : StoreSound pool.store
  names : ConcurrentRegistrations.NamesApart pool
  fetches : FetchesApart pool
  rows : ∀ i t, pool.threads i = some t → ConcurrentFetches.Stage t.tag t.answers t.rest
  stages : ∀ i t, pool.threads i = some t → Stage pool.store.clients t.tag t.rest

open Classical in
theorem unclaimed_iff (rows : Nat → List MessageRow) (m : MessageRow) :
    unclaimed rows m = true ↔ ∀ i, m ∉ rows i := by
  rw [unclaimed, decide_eq_true_iff]

theorem unclaimed_split (rows : Nat → List MessageRow) (i : Nat) (m : MessageRow) :
    unclaimed rows m = true ↔ m ∉ rows i ∧ ∀ j, j ≠ i → m ∉ rows j := by
  rw [unclaimed_iff]
  constructor
  · exact fun nowhere => ⟨nowhere i, fun j _ => nowhere j⟩
  · rintro ⟨not_here, elsewhere⟩ j
    by_cases same : j = i
    · exact same ▸ not_here
    · exact elsewhere j same

theorem unclaimed_set (pool : Workers) (store : Tables) (i : Nat) (t : Worker) (m : MessageRow) :
    unclaimed (rowsAt (Pool.set ⟨store, pool.threads⟩ i t)) m = true ↔
      m ∉ waitingRows t ∧ ∀ j, j ≠ i → m ∉ rowsAt pool j := by
  rw [unclaimed_split _ i, rows_set, if_pos rfl, and_congr_right_iff]
  intro _
  apply forall₂_congr
  intro j other
  rw [rows_set, if_neg other]

/-- The turn of worker i takes effect at once or not at all, and leaves it where a
    worker can be. -/
structure Turned (pool : Workers) (i : Nat) (call : Call)
    (answers : List ((q : Statement) × Answer q)) (q : Statement)
    (next : Answer q → Sql ServerResponse) (s : Tables) : Prop where
  effect : ∃ t, Effect execute (fun call : Call => handle call.draws call.request) call
      (settles (.statement q next)) s (settles (next (execute q pool.store).2)) t ∧
    SerialStore (Pool.set ⟨(execute q pool.store).1, pool.threads⟩ i
      ⟨call, answers ++ [⟨q, (execute q pool.store).2⟩], next (execute q pool.store).2⟩) t
  stage : Stage (execute q pool.store).1.clients call (next (execute q pool.store).2)

section Turn
variable {pool : Workers} (known : Known pool) {i : Nat} {call : Call}
  {answers : List ((q : Statement) × Answer q)} {q : Statement}
  {next : Answer q → Sql ServerResponse}
include known

theorem waiting_stored {j : Nat} {m : MessageRow} (waits : m ∈ rowsAt pool j) :
    m ∈ pool.store.messages := by
  obtain ⟨t, there, listed⟩ := rows_owner waits
  exact (known.fetches.holds j t there).waiting m listed

theorem mailbox_whole {source : Bytes} (free : ∀ j u, pool.threads j = some u →
      u.tag.request.clientId.bytes = source → deletesNext u.rest = false) :
    Tables.mailbox { pool.store with messages := settledRows pool } source =
      pool.store.mailbox source := by
  simp only [Tables.mailbox, settledRows, List.filter_filter]
  apply List.filter_congr
  intro m stored
  by_cases addressed : m.toClient = source
  · have unclaimed_row : unclaimed (rowsAt pool) m = true := by
      rw [unclaimed_iff]
      intro j waits
      obtain ⟨u, there, listed⟩ := rows_owner waits
      have holds := known.fetches.holds j u there
      have in_selected : m ∈ selectedRows u.answers := by
        rw [rows_split u]
        exact List.mem_append_right _ listed
      have deletes := waiting_deletes known.sound (known.rows j u there) holds listed
      rw [free j u there ((holds.addressed m in_selected).symm.trans addressed)] at deletes
      cases deletes
    simp [addressed, unclaimed_row]
  · simp [addressed]

variable (here : pool.threads i = some ⟨call, answers, .statement q next⟩)
include here

theorem quiet_turn (quiet : NoFetch q) (nothing : selectedRows answers = [])
    (taken : ∀ id dst source type content, q = .insertMessage id dst source type content →
      ∀ m ∈ pool.store.messages, m.id = id → unclaimed (rowsAt pool) m = true)
    {s : Tables} (serial : SerialStore pool s)
    (replay : run execute (handle call.draws call.request) s = run execute (.statement q next) s)
    (goes_on : (∃ r, ended (next (execute q pool.store).2) = some r) ∨
      BeforeInsert pool.store.clients call (next (execute q pool.store).2) ∧
        (execute q pool.store).1 = pool.store) :
    Turned pool i call answers q next s := by
  have still_nothing := selected_quiet answers quiet (execute q pool.store).2 nothing
  have unmoved : rowsAt (Pool.set ⟨(execute q pool.store).1, pool.threads⟩ i
      ⟨call, answers ++ [⟨q, (execute q pool.store).2⟩], next (execute q pool.store).2⟩) =
      rowsAt pool := by
    apply rows_unmoved
    rw [rows_at here, nothing_waits still_nothing, nothing_waits nothing]
  have same_part := part_execute quiet pool.store (unclaimed (rowsAt pool)) (by
    intro m _ new
    rw [unclaimed_iff]
    exact fun j waits => new (waiting_stored known waits)) taken
  refine ⟨⟨{ (execute q pool.store).1 with
    messages := (execute q pool.store).1.messages.filter (unclaimed (rowsAt pool)) }, ?_, ?_⟩, ?_⟩
  · rw [quiet_settles quiet]
    rcases goes_on with ⟨r, is_over⟩ | ⟨inserts, unchanged⟩
    · right
      rw [replay, run_statement, show s = _ from serial, settledRows, same_part,
        run_ended execute is_over]
      exact ⟨rfl, settles_ended is_over, rfl⟩
    · left
      rw [before_insert_unsettled inserts, unchanged]
      exact ⟨rfl, serial.symm⟩
  · rw [SerialStore, settledRows, unmoved]
    rfl
  · rcases goes_on with ⟨r, is_over⟩ | ⟨inserts, unchanged⟩
    · rw [Stage, settles_ended is_over]
      exact Or.inr (Or.inr (Option.some_ne_none r))
    · rw [unchanged]
      exact Or.inr (Or.inl inserts)

theorem select_turn (handled : handle call.draws call.request =
      fetchMessages call.request.clientId.bytes) (first : answers = [])
    (program : .statement q next = fetchMessages call.request.clientId.bytes)
    (free : ∀ j u, pool.threads j = some u →
      u.tag.request.clientId.bytes = call.request.clientId.bytes → deletesNext u.rest = false)
    {s : Tables} (serial : SerialStore pool s) :
    Turned pool i call answers q next s := by
  have whole := mailbox_whole known free
  rw [← show s = _ from serial] at whole
  have packs := mailbox_packs known.sound call.request.clientId.bytes
  have keyed : s.Keyed := by
    rw [show s = _ from serial]
    exact part_keyed known.sound.keyed _
  have alone : run execute (handle call.draws call.request) s = _ :=
    (congrArg (run execute · s) handled).trans (run_fetch keyed (by rw [whole]; exact packs))
  rw [fetch_program] at program
  cases program
  refine ⟨⟨{ s with messages := s.messages.filter (·.toClient ≠ call.request.clientId.bytes) },
    ?_, ?_⟩, ?_⟩
  · right
    dsimp only
    rw [alone, whole]
    exact ⟨rfl, settles_loop packs [], rfl⟩
  · rw [SerialStore, show s = _ from serial, settledRows, settledRows]
    congr 1
    simp only [execute, List.filter_filter]
    apply List.filter_congr
    intro m stored
    have nothing_before : m ∉ rowsAt pool i := by
      rw [rows_at here, first, nothing_waits rfl]
      exact List.not_mem_nil
    have waits_after : m ∈ pool.store.mailbox call.request.clientId.bytes ↔
        m.toClient = call.request.clientId.bytes := by
      rw [Tables.mailbox, List.mem_filter, decide_eq_true_eq]
      exact and_iff_right stored
    rw [Bool.eq_iff_iff, Bool.and_eq_true, decide_eq_true_eq, unclaimed_split _ i, unclaimed_set,
      ne_eq, ← waits_after, first]
    exact and_congr_right fun _ => and_iff_right nothing_before
  · right; right
    rw [← Option.isSome_iff_ne_none]
    exact Option.isSome_of_eq_some (settles_loop packs [])

theorem delete_turn {fetched waiting : List MessageRow}
    (selected : selectedRows answers = fetched ++ waiting)
    (count : answers.length = fetched.length + 1)
    (program : .statement q next = fetchLoop waiting (fetched.flatMap fetchRecord))
    {s : Tables} (serial : SerialStore pool s) :
    Turned pool i call answers q next s := by
  obtain ⟨-, waiting_rows⟩ := loop_rows (t := ⟨call, answers, .statement q next⟩) selected count
  have holds := known.fetches.holds i _ here
  have packs : ∀ m ∈ waiting, Packs m := fun m listed =>
    sound_packs known.sound m (holds.waiting m (waiting_rows ▸ listed))
  obtain ⟨m, rest, rfl, rfl, after⟩ := fetch_loop_turn program
  obtain ⟨first, later, same, waits, turned⟩ :=
    loop_turn (t := ⟨call, answers, .statement (.deleteMessage m.id) next⟩) selected count program
  obtain ⟨rfl, rfl⟩ : m = first ∧ rest = later := by
    rw [waiting_rows] at waits
    exact List.cons.inj waits
  have stored := holds.waiting m (waits ▸ List.mem_cons_self)
  have rest_settles := settles_loop (fun x listed => packs x (List.mem_cons_of_mem m listed))
    (fetched.flatMap fetchRecord ++ fetchRecord m)
  refine ⟨⟨s, Or.inl ⟨?_, rfl⟩, ?_⟩, ?_⟩
  · rw [program, after, settles_loop packs, rest_settles, List.flatMap_cons, List.append_assoc]
  · rw [SerialStore, show s = _ from serial, settledRows, settledRows]
    refine congrArg (fun rows : List MessageRow => { pool.store with messages := rows }) ?_
    show _ = ((execute (.deleteMessage m.id) pool.store).1.messages).filter _
    simp only [execute, List.filter_filter]
    apply List.filter_congr
    intro x x_stored
    have m_or_other : x.id = m.id ↔ x = m :=
      ⟨fun same => List.inj_on_of_nodup_map known.sound.keyed.messageIds x_stored stored same,
        congrArg MessageRow.id⟩
    rw [Bool.eq_iff_iff, Bool.and_eq_true, decide_eq_true_eq, unclaimed_split _ i, unclaimed_set,
      rows_at here, waits, (turned _ _).2.2, List.mem_cons, not_or, ne_eq, m_or_other]
    constructor
    · rintro ⟨⟨not_m, not_rest⟩, elsewhere⟩
      exact ⟨⟨not_rest, elsewhere⟩, not_m⟩
    · rintro ⟨⟨not_rest, elsewhere⟩, not_m⟩
      exact ⟨⟨not_m, not_rest⟩, elsewhere⟩
  · rw [after, Stage, rest_settles]
    exact Or.inr (Or.inr (Option.some_ne_none _))

theorem any_turn (alone : Alone pool (.turn i)) {s : Tables} (serial : SerialStore pool s) :
    Turned pool i call answers q next s := by
  have same_clients : s.clients = pool.store.clients := by rw [show s = _ from serial]
  rcases known.rows i _ here with
    ⟨other, nothing, issues⟩ | ⟨first, program⟩ | ⟨fetched, waiting, selected, count, program⟩
  · rcases known.stages i _ here with start | inserts | settled
    · obtain ⟨reads, goes_on⟩ := first_turn start other pool.store
      have unchanged : (execute q pool.store).1 = pool.store :=
        congrArg Prod.fst (reads_execute reads rfl)
      apply quiet_turn known here issues.1 nothing ?_ serial
      · exact congrArg (run execute · s) start.symm
      · exact goes_on.imp_right fun inserts => ⟨inserts, unchanged⟩
      · rintro id dst source type content rfl
        cases reads
    · apply quiet_turn known here issues.1 nothing ?_ serial
      · rw [← same_clients] at inserts
        apply replayed inserts
        rw [same_clients]
        exact fun name checked => known.names.free i _ name here checked
      · left
        dsimp only at inserts
        rcases inserts with ⟨-, text, name, -, tail⟩ | ⟨-, sound, -, tail⟩
        · rw [register_tail_turn text] at tail
          cases tail
          exact ⟨_, rfl⟩
        · rw [send_tail_turn sound] at tail
          cases tail
          cases (execute _ pool.store).2 with
          | ok inserted => exact ⟨_, rfl⟩
          | error e => exact ⟨_, rfl⟩
      · rintro id dst source type content rfl m stored same
        rw [unclaimed_iff]
        intro j waits
        obtain ⟨u, there, listed⟩ := rows_owner waits
        exact alone.2.2 _ id here rfl j u there m listed same
    · exact absurd (quiet_settles issues.1 next) settled
  · rcases known.stages i _ here with start | inserts | settled
    · exact select_turn known here (start.symm.trans program) first program
        (fun j u there sender => (alone.2.1 _ _ here (by
          dsimp only at program
          rw [program, fetch_program]
          rfl)).2 j u there sender) serial
    · dsimp only at program
      rw [program, fetch_program] at inserts
      rcases inserts with ⟨-, text, name, -, tail⟩ | ⟨-, sound, -, tail⟩
      · rw [register_tail_turn text] at tail
        cases tail
      · rw [send_tail_turn sound] at tail
        cases tail
    · dsimp only at program
      rw [program, fetch_program] at settled
      exact absurd rfl settled
  · exact delete_turn known here selected count program serial

end Turn

/-! Whole runs. -/

theorem ids_kept (q : Statement) (t : Tables) :
    ∀ id ∈ t.clients.map ClientRow.id, id ∈ (execute q t).1.clients.map ClientRow.id := by
  intro id listed
  cases q with
  | insertClient row =>
    simp only [execute]
    split
    · exact listed
    · rw [List.map_append]
      exact List.mem_append_left _ listed
  | insertMessage msgId dst source type content =>
    simp only [execute]
    split <;> exact listed
  | _ => exact listed

theorem stage_grows {clients more : List ClientRow}
    (kept : ∀ id ∈ clients.map ClientRow.id, id ∈ more.map ClientRow.id) {call : Call}
    {rest : Sql ServerResponse} (here : Stage clients call rest) : Stage more call rest := by
  rcases here with start | (register | ⟨send, sound, known, tail⟩) | settled
  · exact Or.inl start
  · exact Or.inr (Or.inl (Or.inl register))
  · exact Or.inr (Or.inl (Or.inr ⟨send, sound, kept _ known, tail⟩))
  · exact Or.inr (Or.inr settled)

theorem known_reached {pool : Workers} (reached : Reachable (workers.restrict Alone) pool) :
    Known pool := by
  have names : Invariant (workers.restrict Alone) _ :=
    ConcurrentRegistrations.workers_names_apart.restrict_finer fun _ _ alone => alone.1
  have fetches : Invariant (workers.restrict Alone) _ :=
    workers_fetches_apart.restrict_finer fun _ _ alone => alone.2.1
  have stages : Invariant (workers.restrict Alone) (fun pool => _ ∧
      ∀ i t, pool.threads i = some t → Stage pool.store.clients t.tag t.rest) :=
    (names.and fetches).strengthen (by
      intro pool first i t here
      rw [show pool = ⟨emptyTables, fun _ => none⟩ from first] at here
      cases here) (by
      rintro pool action after ⟨⟨-, names⟩, ⟨⟨-, sound⟩, rows⟩, fetches⟩ before taken j u there
      rcases pool_step_cases execute _ taken.2 with
        ⟨i, call, rfl, -, rfl⟩ | ⟨i, call, answers, q, next, rfl, here, rfl⟩
      · rw [set_threads] at there
        split at there
        · cases there
          exact Or.inl rfl
        · exact before j u there
      · rw [set_threads] at there
        split at there
        · cases there
          exact (any_turn ⟨sound, names, fetches, rows, before⟩ here taken.1 rfl).stage
        · exact stage_grows (ids_kept q pool.store) (before j u there))
  obtain ⟨⟨⟨-, names_apart⟩, ⟨⟨-, sound⟩, rows⟩, fetches_apart⟩, here⟩ := stages.holds reached
  exact ⟨sound, names_apart, fetches_apart, rows, here⟩

theorem started_effect (call : Call) (s : Tables) :
    Effect execute (fun call : Call => handle call.draws call.request) call none s
      (settles (handle call.draws call.request)) s := by
  cases start : ended (handle call.draws call.request) with
  | some r =>
    right
    dsimp only
    rw [run_ended execute start]
    exact ⟨rfl, settles_ended start, rfl⟩
  | none =>
    left
    refine ⟨?_, rfl⟩
    rcases ConcurrentFetches.stage_started call with
      ⟨-, -, quiet⟩ | ⟨-, fetch⟩ | ⟨_, _, _, count, _⟩
    · cases program : handle call.draws call.request with
      | done r =>
        rw [program] at start
        cases start
      | raise e =>
        rw [program] at start
        cases start
      | statement q next =>
        rw [program] at quiet
        exact quiet_settles quiet.1 next
    · rw [fetch, fetch_program]
      rfl
    · cases count

theorem serial_points : LinearizationPoints execute
    (fun call : Call => handle call.draws call.request) settles SerialStore emptyTables Alone where
  start := rfl
  spawned pool i call s _ serial free := by
    refine ⟨s, started_effect call s, ?_⟩
    have unmoved : rowsAt (Pool.set ⟨pool.store, pool.threads⟩ i
        ⟨call, [], handle call.draws call.request⟩) = rowsAt pool := by
      apply rows_unmoved
      rw [nothing_waits rfl, rowsAt, free]
      rfl
    rw [SerialStore, settledRows]
    exact unmoved ▸ serial
  turned pool i call answers q next s reached serial alone here :=
    (any_turn (known_reached reached) here alone serial).effect

/-! The serial run is a run of the server that handles one request at a time. -/

abbrev inSequence (calls : List Call) (t : Tables) :
    Tables × List (Except PyError ServerResponse) :=
  inTurn execute (fun call : Call => handle call.draws call.request) calls t

theorem run_in_sequence (calls : List Call) (t : Tables) (history : List Exchange) :
    runFrom Server.next ⟨t, history⟩ calls = some ⟨(inSequence calls t).1,
      history ++ List.zipWith (fun call r => ⟨call.request, r⟩) calls (inSequence calls t).2⟩ := by
  induction calls generalizing t history with
  | nil => simp [runFrom, inTurn]
  | cons call later ih =>
    rw [runFrom, Server.next]
    dsimp only [Option.bind_some]
    rw [ih]
    simp [inTurn]

/-- The workers' requests in an order in which one server that handles them one
    after another gives every ended worker its result and comes to the same tables,
    but for the rows that a fetch has already sent away and has still to delete. -/
structure Serial (pool : Workers) (order : List (Nat × Call)) : Prop where
  once : (order.map Prod.fst).Nodup
  started : ∀ i call, (i, call) ∈ order → ∃ t, pool.threads i = some t ∧ t.tag = call
  run : ∃ s, runFrom Server.next ⟨emptyTables, []⟩ (order.map Prod.snd) = some s ∧
    SerialStore pool s.tables ∧
    ((∀ i t, pool.threads i = some t → ended t.rest ≠ none) → s.tables = pool.store) ∧
    ∀ i t r, pool.threads i = some t → ended t.rest = some r →
      ∃ k : Nat, order[k]? = some (i, t.tag) ∧ s.history[k]? = some ⟨t.tag.request, r⟩

theorem ended_serial {pool : Workers} (reached : Reachable (workers.restrict Alone) pool)
    (all_ended : ∀ i t, pool.threads i = some t → ended t.rest ≠ none) {s : Tables}
    (serial : SerialStore pool s) : s = pool.store := by
  have known := known_reached reached
  have nothing : settledRows pool = pool.store.messages := by
    rw [settledRows, List.filter_eq_self]
    intro m _
    rw [unclaimed_iff]
    intro i waits
    obtain ⟨t, here, listed⟩ := rows_owner waits
    have deletes := waiting_deletes known.sound (known.rows i t here)
      (known.fetches.holds i t here) listed
    have ended_so := all_ended i t here
    cases rest : t.rest with
    | done r =>
      rw [rest] at deletes
      cases deletes
    | raise e =>
      rw [rest] at deletes
      cases deletes
    | statement q next =>
      rw [rest] at ended_so
      exact ended_so rfl
  rw [show s = _ from serial, nothing]

theorem serial_of_linearized {pool : Workers} (reached : Reachable (workers.restrict Alone) pool)
    {order : List (Nat × Call)}
    (linear : Linearized execute (fun call : Call => handle call.draws call.request) settles
      SerialStore emptyTables pool order) : Serial pool order := by
  refine ⟨linear.once, ?_, _, run_in_sequence _ _ _, linear.store,
    fun all_ended => ended_serial reached all_ended linear.store, ?_⟩
  · intro i call listed
    obtain ⟨t, here, tagged, -⟩ := linear.entered i call listed
    exact ⟨t, here, tagged⟩
  · intro i t r here is_over
    obtain ⟨k, entry, result⟩ := linear.results i t r here (settles_ended is_over)
    refine ⟨k, entry, ?_⟩
    rw [List.nil_append, List.getElem?_zipWith_eq_some]
    refine ⟨t.tag, r, ?_, result, rfl⟩
    rw [List.getElem?_map, entry]
    rfl

/-- In every run whose checks, fetches and INSERTs keep out of each other's way, the
    workers are linearizable: a serial order explains all results, and it only
    grows, so a request answered before another one came in stays before it. -/
theorem requests_linearizable {pool : Workers} (reached : Reachable (workers.restrict Alone) pool) :
    ∃ order, Serial pool order ∧ ∀ after, Later (workers.restrict Alone) pool after →
      ∃ more, Serial after (order ++ more) := by
  obtain ⟨order, linear⟩ := linearized_run serial_points reached
  refine ⟨order, serial_of_linearized reached linear, ?_⟩
  intro after later
  obtain ⟨more, grown⟩ := linearized_later serial_points reached linear later
  exact ⟨more, serial_of_linearized (later_reachable reached later) grown⟩

theorem other_turn {pool : Workers} {i : Nat} {t : Worker} (here : pool.threads i = some t)
    (no_check : ConcurrentRegistrations.nextCheck t.rest = none)
    (no_fetch : nextFetch t.rest = none) (no_store : nextStored t.rest = none) :
    Alone pool (.turn i) := by
  refine ⟨?_, other_turn_alone here no_fetch, ?_⟩
  · intro u name there next
    rw [here] at there
    cases there
    rw [no_check] at next
    cases next
  · intro u id there next
    rw [here] at there
    cases there
    rw [no_store] at next
    cases next

def ownerRow : ClientRow := ⟨owner.bytes, [0x41], (registrationPayload [0x41]).drop 255⟩

theorem text_run :
    ∃ pool, Reachable (workers.restrict Alone) pool ∧ pool.store = ⟨[ownerRow], [], 1⟩ ∧
      ∃ t r, pool.threads 2 = some t ∧ t.rest = .done r ∧
        (fetchedRows t).map MessageRow.content = [[0x68, 0x69]] := by
  have start : Reachable (workers.restrict Alone) ⟨emptyTables, fun _ => none⟩ := .start rfl
  have registering := reach_spawn start 0 (ConcurrentRegistrations.registration owner) rfl
    ⟨trivial, trivial, trivial⟩
  rw [ConcurrentRegistrations.registration_program] at registering
  have checked := reach_turn registering 0 rfl (by
    refine ⟨?_, other_turn_alone rfl rfl, ?_⟩
    · intro t name here checks j u there
      rw [set_threads] at there
      split at there
      · cases there
        exact fun impossible => by cases impossible
      · cases there
    · intro t id here stores
      cases here
      cases stores)
  have registered := reach_turn checked 0 rfl (other_turn rfl rfl rfl rfl)
  have sender := reach_spawn registered 1 sending rfl ⟨trivial, trivial, trivial⟩
  rw [sending_program] at sender
  have fetcher := reach_spawn sender 2 fetching rfl ⟨trivial, trivial, trivial⟩
  rw [fetching_program] at fetcher
  have found := reach_turn fetcher 1 rfl (other_turn rfl rfl rfl rfl)
  have stored := reach_turn found 1 rfl (by
    refine ⟨?_, other_turn_alone rfl rfl, ?_⟩
    · intro t name here checks
      cases here
      cases checks
    · intro t id here stores j u there m waits
      match j with
      | 0 | 1 | 2 =>
        cases there
        cases waits
      | j + 3 => cases there)
  have selected := reach_turn stored 2 rfl (by
    refine ⟨?_, ?_, ?_⟩
    · intro t name here checks
      cases here
      cases checks
    · intro t source here next
      cases here
      cases next
      refine ⟨by decide +kernel, fun j u there _ => ?_⟩
      match j with
      | 0 | 1 | 2 =>
        cases there
        rfl
      | j + 3 => cases there
    · intro t id here stores
      cases here
      cases stores)
  have deleted := reach_turn selected 2 rfl (other_turn rfl rfl rfl rfl)
  exact ⟨_, deleted, rfl, _, _, rfl, rfl, rfl⟩

theorem text_run_linearizable :
    ∃ pool t r, pool.threads 2 = some t ∧ t.rest = .done r ∧
      (fetchedRows t).map MessageRow.content = [[0x68, 0x69]] ∧
      ∃ order, Serial pool order ∧ ∀ after, Later (workers.restrict Alone) pool after →
        ∃ more, Serial after (order ++ more) := by
  obtain ⟨pool, reached, -, t, r, here, done, text⟩ := text_run
  exact ⟨pool, t, r, here, done, text, requests_linearizable reached⟩

end ConcurrentRequests
