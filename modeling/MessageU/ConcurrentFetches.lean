import MessageU.ConcurrentRegistrations

/- Fetches by many workers. A fetch is one SELECT and then a DELETE for each row
   it was given, by id. It delivers each message once in the runs in which no
   mailbox is selected while another fetch of it has rows left to delete; then
   every row a fetch holds is still its own when the DELETE comes. -/
namespace ConcurrentFetches
open ByteFields GuardedRuns StatementPrograms RequestFormat ServerTables ResponseFormat
open RequestHandling ServerRuns

def selectedRows : List ((q : Statement) × Answer q) → List MessageRow
  | ⟨.selectMessages _, .ok rows⟩ :: _ => rows
  | _ => []

def fetchedRows (t : Worker) : List MessageRow :=
  (selectedRows t.answers).take (t.answers.length - 1)

def waitingRows (t : Worker) : List MessageRow :=
  (selectedRows t.answers).drop (t.answers.length - 1)

def nextFetch : Sql ServerResponse → Option Bytes
  | .statement (.selectMessages source) _ => some source
  | _ => none

def deletesNext : Sql ServerResponse → Bool
  | .statement (.deleteMessage _) _ => true
  | _ => false

/-- A mailbox is selected when no other fetch of it has rows left to delete, and
    when its size fits the response header. -/
def FetchAlone (pool : Workers) : Action Call → Prop
  | .spawn _ _ => True
  | .turn i => ∀ t source, pool.threads i = some t → nextFetch t.rest = some source →
      ((pool.store.mailbox source).flatMap fetchRecord).length < 2 ^ 32 ∧
        ∀ j u, pool.threads j = some u → u.tag.request.clientId.bytes = source →
          deletesNext u.rest = false

def NoFetch (q : Statement) : Prop :=
  (∀ id, q ≠ .deleteMessage id) ∧ ∀ source, q ≠ .selectMessages source

def Stage (call : Call) (answers : List ((q : Statement) × Answer q))
    (rest : Sql ServerResponse) : Prop :=
  (call.request.requestCode ≠ codeFetchMessages ∧ selectedRows answers = [] ∧
      rest.Issues NoFetch) ∨
    (answers = [] ∧ rest = fetchMessages call.request.clientId.bytes) ∨
    ∃ fetched waiting, selectedRows answers = fetched ++ waiting ∧
      answers.length = fetched.length + 1 ∧
      rest = fetchLoop waiting (fetched.flatMap fetchRecord)

structure Holds (store : Tables) (t : Worker) : Prop where
  waiting : ∀ m ∈ waitingRows t, m ∈ store.messages
  gone : ∀ m ∈ fetchedRows t, m.serial ∉ store.messages.map MessageRow.serial
  issued : ∀ m ∈ selectedRows t.answers, m.serial < store.accepted
  addressed : ∀ m ∈ selectedRows t.answers, m.toClient = t.tag.request.clientId.bytes
  distinct : (selectedRows t.answers).Nodup
  fits : ((selectedRows t.answers).flatMap fetchRecord).length < 2 ^ 32

structure FetchesApart (pool : Workers) : Prop where
  holds : ∀ i t, pool.threads i = some t → Holds pool.store t
  apart : ∀ i j t u, i ≠ j → pool.threads i = some t → pool.threads j = some u →
    ∀ m ∈ selectedRows t.answers, ∀ n ∈ selectedRows u.answers, m.serial ≠ n.serial

/-! Where a worker can be. -/

theorem selected_snoc {answers : List ((q : Statement) × Answer q)} (started : answers ≠ [])
    (next : (q : Statement) × Answer q) :
    selectedRows (answers ++ [next]) = selectedRows answers := by
  cases answers with
  | nil => exact absurd rfl started
  | cons first later =>
    rw [List.cons_append]
    obtain ⟨q, answer⟩ := first
    cases q with
    | selectMessages source => cases answer <;> rfl
    | _ => rfl

theorem selected_quiet (answers : List ((q : Statement) × Answer q)) {q : Statement}
    (quiet : NoFetch q) (answer : Answer q) (nothing : selectedRows answers = []) :
    selectedRows (answers ++ [⟨q, answer⟩]) = [] := by
  cases answers with
  | nil =>
    cases q with
    | selectMessages source => exact absurd rfl (quiet.2 source)
    | _ => rfl
  | cons first later =>
    rw [selected_snoc (List.cons_ne_nil first later), nothing]

theorem stage_started (call : Call) : Stage call [] (handle call.draws call.request) := by
  rcases handled_code_cases call.request with
    unsupported | register | list | send | fetch | pubkey
  · rw [handle_unsupported _ unsupported]
    refine Or.inl ⟨fun fetch => ?_, rfl, trivial⟩
    rw [fetch] at unsupported
    exact unsupported (by decide)
  · rw [handle_register _ register]
    refine Or.inl ⟨by rw [register]; decide, rfl,
      register_issues _ _ (fun name => ⟨?_, ?_⟩) fun name asks => ⟨?_, ?_⟩⟩
    all_goals rintro x ⟨⟩
  · rw [handle_list _ list]
    refine Or.inl ⟨by rw [list]; decide, rfl, list_issues _ ⟨?_, ?_⟩⟩
    all_goals rintro x ⟨⟩
  · rw [handle_send _ send]
    refine Or.inl ⟨by rw [send]; decide, rfl,
      send_issues _ _ _ (fun id => ⟨?_, ?_⟩) fun sound => ⟨?_, ?_⟩⟩
    all_goals rintro x ⟨⟩
  · rw [handle_fetch _ fetch]
    exact Or.inr (Or.inl ⟨rfl, rfl⟩)
  · rw [handle_pubkey _ pubkey]
    refine Or.inl ⟨by rw [pubkey]; decide, rfl, pubkey_issues _ ⟨?_, ?_⟩⟩
    all_goals rintro x ⟨⟩

theorem fetch_loop_turn {rows : List MessageRow} {payload : Bytes} {q : Statement}
    {next : Answer q → Sql ServerResponse}
    (turn : Program.statement q next = fetchLoop rows payload) :
    ∃ m rest, rows = m :: rest ∧ q = .deleteMessage m.id ∧
      ∀ r, next r = fetchLoop rest (payload ++ fetchRecord m) := by
  cases rows with
  | nil =>
    rw [fetchLoop] at turn
    cases built_response : (ServerResponse.ofCode codeMsgFetch).build payload with
    | ok r =>
      rw [built_response] at turn
      cases turn
    | error e =>
      rw [built_response] at turn
      cases turn
  | cons m rest =>
    by_cases packs : Packs m
    · rw [fetch_loop_cons packs] at turn
      cases turn
      exact ⟨m, rest, rfl, rfl, fun _ => rfl⟩
    · rw [fetchLoop, if_neg packs] at turn
      cases turn

theorem fetch_loop_done {rows : List MessageRow} {payload : Bytes} {r : ServerResponse}
    (ended : Program.done r = fetchLoop rows payload) : rows = [] ∧ r.payload = payload := by
  cases rows with
  | nil =>
    rw [fetchLoop] at ended
    by_cases fits : payload.length < 2 ^ 32
    · rw [build_ok fits] at ended
      cases ended
      exact ⟨rfl, rfl⟩
    · rw [build_too_long (Nat.not_lt.mp fits)] at ended
      cases ended
  | cons m rest =>
    by_cases packs : Packs m
    · rw [fetch_loop_cons packs] at ended
      cases ended
    · rw [fetchLoop, if_neg packs] at ended
      cases ended

theorem stage_answered {call : Call} {answers : List ((q : Statement) × Answer q)}
    {q : Statement} {next : Answer q → Sql ServerResponse}
    (here : Stage call answers (.statement q next)) (r : Answer q) :
    Stage call (answers ++ [⟨q, r⟩]) (next r) := by
  rcases here with
    ⟨other, nothing, quiet⟩ | ⟨rfl, start⟩ | ⟨fetched, waiting, selected, count, loop⟩
  · exact Or.inl ⟨other, selected_quiet answers quiet.1 r nothing, quiet.2 r⟩
  · rw [fetch_program] at start
    cases start
    cases r with
    | error e => exact Or.inr (Or.inr ⟨[], [], rfl, rfl, rfl⟩)
    | ok rows => exact Or.inr (Or.inr ⟨[], rows, rfl, rfl, rfl⟩)
  · obtain ⟨m, rest, rfl, rfl, after⟩ := fetch_loop_turn loop
    have started : answers ≠ [] := List.ne_nil_of_length_pos (by omega)
    refine Or.inr (Or.inr ⟨fetched ++ [m], rest, ?_, ?_, ?_⟩)
    · rw [selected_snoc started, selected, List.append_assoc, List.singleton_append]
    · simp [count]
    · rw [after, List.flatMap_append, List.flatMap_singleton]

theorem workers_stage : Invariant workers
    (fun pool => ∀ i t, pool.threads i = some t → Stage t.tag t.answers t.rest) :=
  thread_shape execute (fun call : Call => handle call.draws call.request) Stage stage_started
    (fun _ _ _ _ r here => stage_answered here r) emptyTables

theorem rows_split (t : Worker) : selectedRows t.answers = fetchedRows t ++ waitingRows t :=
  (List.take_append_drop _ _).symm

theorem loop_rows {t : Worker} {fetched waiting : List MessageRow}
    (selected : selectedRows t.answers = fetched ++ waiting)
    (count : t.answers.length = fetched.length + 1) :
    fetchedRows t = fetched ∧ waitingRows t = waiting := by
  rw [fetchedRows, waitingRows, selected, count, Nat.add_sub_cancel]
  exact ⟨List.take_left, List.drop_left⟩

/-! What one statement does to the rows a worker holds. -/

theorem holds_nothing {t : Worker} (store : Tables) (nothing : selectedRows t.answers = []) :
    Holds store t := by
  have fetched : fetchedRows t = [] := by rw [fetchedRows, nothing, List.take_nil]
  have waiting : waitingRows t = [] := by rw [waitingRows, nothing, List.drop_nil]
  refine ⟨?_, ?_, ?_, ?_, ?_, ?_⟩
  · simp [waiting]
  · simp [fetched]
  · simp [nothing]
  · simp [nothing]
  · simp [nothing]
  · simp [nothing]

theorem rows_kept {q : Statement} (quiet : NoFetch q) (store : Tables) :
    store.accepted ≤ (execute q store).1.accepted ∧
      (∀ m ∈ store.messages, m ∈ (execute q store).1.messages) ∧
      ∀ m ∈ (execute q store).1.messages, m ∈ store.messages ∨ m.serial = store.accepted := by
  cases q with
  | insertMessage id toClient fromClient type content =>
    simp only [execute]
    split
    · exact ⟨Nat.le_refl _, fun m hm => hm, fun m hm => Or.inl hm⟩
    · refine ⟨Nat.le_succ _, fun m hm => List.mem_append_left _ hm, fun m hm => ?_⟩
      rcases List.mem_append.mp hm with old | new
      · exact Or.inl old
      · exact Or.inr (List.mem_singleton.mp new ▸ rfl)
  | insertClient row =>
    simp only [execute]
    split <;> exact ⟨Nat.le_refl _, fun m hm => hm, fun m hm => Or.inl hm⟩
  | deleteMessage id => exact absurd rfl (quiet.1 id)
  | _ => exact ⟨Nat.le_refl _, fun m hm => hm, fun m hm => Or.inl hm⟩

theorem holds_quiet {store : Tables} {t : Worker} (holds : Holds store t) {q : Statement}
    (quiet : NoFetch q) : Holds (execute q store).1 t := by
  obtain ⟨more, kept, origin⟩ := rows_kept quiet store
  refine { holds with
    waiting := fun m hm => kept m (holds.waiting m hm)
    gone := fun m hm back => ?_
    issued := fun m hm => Nat.lt_of_lt_of_le (holds.issued m hm) more }
  obtain ⟨n, stored, same⟩ := List.mem_map.mp back
  rcases origin n stored with old | new
  · exact holds.gone m hm (List.mem_map.mpr ⟨n, old, same⟩)
  · have listed : m ∈ selectedRows t.answers := by
      rw [rows_split t]
      exact List.mem_append_left _ hm
    have := holds.issued m listed
    omega

theorem holds_deleted {store : Tables} (keyed : store.Keyed) {t : Worker} (holds : Holds store t)
    {m : MessageRow} (stored : m ∈ store.messages)
    (other : ∀ n ∈ selectedRows t.answers, n.serial ≠ m.serial) :
    Holds (execute (.deleteMessage m.id) store).1 t := by
  have removed := delete_row keyed stored
  refine { holds with
    waiting := fun n hn => (removed n).mpr ⟨holds.waiting n hn, fun same => ?_⟩
    gone := fun n hn back => ?_ }
  · have listed : n ∈ selectedRows t.answers := by
      rw [rows_split t]
      exact List.mem_append_right _ hn
    exact other n listed (congrArg MessageRow.serial same)
  · obtain ⟨x, left, same⟩ := List.mem_map.mp back
    exact holds.gone n hn (List.mem_map.mpr ⟨x, ((removed x).mp left).1, same⟩)

theorem holds_own_delete {store : Tables} (keyed : store.Keyed) {t u : Worker}
    (holds : Holds store t) (tag : u.tag = t.tag)
    (selected : selectedRows u.answers = selectedRows t.answers) {m : MessageRow}
    {rest : List MessageRow} (waiting : waitingRows t = m :: rest)
    (fetched_after : fetchedRows u = fetchedRows t ++ [m]) (waiting_after : waitingRows u = rest) :
    Holds (execute (.deleteMessage m.id) store).1 u := by
  have stored : m ∈ store.messages := holds.waiting m (waiting ▸ List.mem_cons_self)
  have removed := delete_row keyed stored
  have unique := holds.distinct
  rw [rows_split t, waiting] at unique
  have fresh : m ∉ rest := (List.nodup_cons.mp (List.nodup_append.mp unique).2.1).1
  refine ⟨?_, ?_, ?_, ?_, ?_, ?_⟩
  · intro n hn
    rw [waiting_after] at hn
    exact (removed n).mpr ⟨holds.waiting n (waiting ▸ List.mem_cons_of_mem m hn),
      fun same => fresh (same ▸ hn)⟩
  · intro n hn back
    obtain ⟨x, left, same⟩ := List.mem_map.mp back
    obtain ⟨before, different⟩ := (removed x).mp left
    rw [fetched_after] at hn
    rcases List.mem_append.mp hn with old | new
    · exact holds.gone n old (List.mem_map.mpr ⟨x, before, same⟩)
    · rw [List.mem_singleton.mp new] at same
      exact different (List.inj_on_of_nodup_map keyed.serials before stored same)
  · rw [selected]
    exact holds.issued
  · rw [selected, tag]
    exact holds.addressed
  · rw [selected]
    exact holds.distinct
  · rw [selected]
    exact holds.fits

theorem holds_own_select {store : Tables} (keyed : store.Keyed) {t : Worker}
    (one : t.answers.length = 1)
    (selected : selectedRows t.answers = store.mailbox t.tag.request.clientId.bytes)
    (fits : ((store.mailbox t.tag.request.clientId.bytes).flatMap fetchRecord).length < 2 ^ 32) :
    Holds store t := by
  have fetched : fetchedRows t = [] := by rw [fetchedRows, one, Nat.sub_self, List.take_zero]
  have waiting : waitingRows t = selectedRows t.answers := by
    rw [waitingRows, one, Nat.sub_self, List.drop_zero]
  refine ⟨?_, ?_, ?_, ?_, ?_, ?_⟩
  · intro m hm
    rw [waiting, selected] at hm
    exact List.mem_of_mem_filter hm
  · simp [fetched]
  · intro m hm
    rw [selected] at hm
    exact keyed.issued m (List.mem_of_mem_filter hm)
  · intro m hm
    rw [selected] at hm
    exact of_decide_eq_true (List.mem_filter.mp hm).2
  · rw [selected]
    exact (List.Nodup.of_map _ keyed.serials).filter _
  · rw [selected]
    exact fits

/-! One step. -/

theorem fetches_apart_set {pool : Workers} (before : FetchesApart pool) {store : Tables} {i : Nat}
    {t : Worker} (own : Holds store t)
    (others : ∀ j u, j ≠ i → pool.threads j = some u → Holds store u)
    (apart : ∀ j u, j ≠ i → pool.threads j = some u → ∀ m ∈ selectedRows t.answers,
      ∀ n ∈ selectedRows u.answers, m.serial ≠ n.serial) :
    FetchesApart (Pool.set ⟨store, pool.threads⟩ i t) := by
  refine ⟨?_, ?_⟩
  · intro j u here
    rw [set_threads] at here
    split at here
    · cases here
      exact own
    · rename_i other
      exact others j u other here
  · intro j k u v different here there m hm n hn
    rw [set_threads] at here there
    split at here
    · cases here
      rename_i same
      have k_other : k ≠ i := fun k_is_i => different (same.trans k_is_i.symm)
      rw [if_neg k_other] at there
      exact apart k v k_other there m hm n hn
    · rename_i j_other
      split at there
      · cases there
        exact (apart j u j_other here n hn m hm).symm
      · exact before.apart j k u v different here there m hm n hn

theorem waiting_deletes {store : Tables} (sound : StoreSound store) {t : Worker}
    (stage : Stage t.tag t.answers t.rest) (holds : Holds store t) {m : MessageRow}
    (waits : m ∈ waitingRows t) : deletesNext t.rest = true := by
  rcases stage with ⟨-, nothing, -⟩ | ⟨nothing, -⟩ | ⟨fetched, waiting, selected, count, loop⟩
  · rw [waitingRows, nothing, List.drop_nil] at waits
    cases waits
  · rw [waitingRows, nothing] at waits
    cases waits
  · obtain ⟨-, waiting_rows⟩ := loop_rows selected count
    cases waiting with
    | nil =>
      rw [waiting_rows] at waits
      cases waits
    | cons first rest =>
      have stored := holds.waiting first (waiting_rows ▸ List.mem_cons_self)
      rw [loop, fetch_loop_cons (sound_packs sound first stored)]
      rfl

theorem loop_turn {t : Worker} {fetched waiting : List MessageRow} {q : Statement}
    {next : Answer q → Sql ServerResponse}
    (selected : selectedRows t.answers = fetched ++ waiting)
    (count : t.answers.length = fetched.length + 1)
    (loop : Program.statement q next = fetchLoop waiting (fetched.flatMap fetchRecord)) :
    ∃ m rest, q = .deleteMessage m.id ∧ waitingRows t = m :: rest ∧ ∀ answer after,
      selectedRows (t.answers ++ [⟨q, answer⟩]) = selectedRows t.answers ∧
      fetchedRows ⟨t.tag, t.answers ++ [⟨q, answer⟩], after⟩ = fetchedRows t ++ [m] ∧
      waitingRows ⟨t.tag, t.answers ++ [⟨q, answer⟩], after⟩ = rest := by
  obtain ⟨m, rest, rfl, rfl, -⟩ := fetch_loop_turn loop
  obtain ⟨fetched_rows, waiting_rows⟩ := loop_rows selected count
  have started : t.answers ≠ [] := List.ne_nil_of_length_pos (by omega)
  refine ⟨m, rest, rfl, waiting_rows, fun answer after => ?_⟩
  have same := selected_snoc started ⟨.deleteMessage m.id, answer⟩
  have after_rows := loop_rows
    (t := ⟨t.tag, t.answers ++ [⟨.deleteMessage m.id, answer⟩], after⟩)
    (show _ = (fetched ++ [m]) ++ rest by rw [same, selected]; simp) (by simp [count])
  exact ⟨same, by rw [after_rows.1, fetched_rows], after_rows.2⟩

theorem fetches_apart_turn {pool : Workers} (sound : StoreSound pool.store)
    (stages : ∀ j u, pool.threads j = some u → Stage u.tag u.answers u.rest)
    (before : FetchesApart pool) {i : Nat} {call : Call}
    {answers : List ((q : Statement) × Answer q)} {q : Statement}
    {next : Answer q → Sql ServerResponse}
    (here : pool.threads i = some ⟨call, answers, .statement q next⟩)
    (alone : FetchAlone pool (.turn i)) :
    FetchesApart (Pool.set ⟨(execute q pool.store).1, pool.threads⟩ i
      ⟨call, answers ++ [⟨q, (execute q pool.store).2⟩], next (execute q pool.store).2⟩) := by
  rcases stages i _ here with
    ⟨-, nothing, quiet⟩ | ⟨rfl, start⟩ | ⟨fetched, waiting, selected, count, loop⟩
  · have still_nothing := selected_quiet answers quiet.1 (execute q pool.store).2 nothing
    apply fetches_apart_set before (holds_nothing _ still_nothing)
    · exact fun j u _ there => holds_quiet (before.holds j u there) quiet.1
    · intro j u _ there m hm
      rw [still_nothing] at hm
      cases hm
  · dsimp only at start
    rw [fetch_program] at start
    cases start
    obtain ⟨fits, free⟩ := alone _ _ here rfl
    apply fetches_apart_set before (holds_own_select sound.keyed rfl rfl fits)
    · exact fun j u _ there => before.holds j u there
    · intro j u _ there m hm n hn same
      have stored : m ∈ pool.store.messages := List.mem_of_mem_filter hm
      have holds := before.holds j u there
      have addressed := holds.addressed n hn
      rw [rows_split u] at hn
      rcases List.mem_append.mp hn with fetched | waits
      · exact holds.gone n fetched (List.mem_map.mpr ⟨m, stored, same⟩)
      · have m_is_n := List.inj_on_of_nodup_map sound.keyed.serials stored
          (holds.waiting n waits) same
        have owner : u.tag.request.clientId.bytes = call.request.clientId.bytes := by
          rw [← addressed, ← m_is_n]
          exact of_decide_eq_true (List.mem_filter.mp hm).2
        have deletes := waiting_deletes sound (stages j u there) holds waits
        rw [free j u there owner] at deletes
        cases deletes
  · obtain ⟨m, rest, rfl, waiting_rows, after⟩ :=
      loop_turn (t := ⟨call, answers, .statement q next⟩) selected count loop
    obtain ⟨same, fetched_after, waiting_after⟩ :=
      after (execute (.deleteMessage m.id) pool.store).2
        (next (execute (.deleteMessage m.id) pool.store).2)
    have holds := before.holds i _ here
    have waits : m ∈ waitingRows ⟨call, answers, .statement (.deleteMessage m.id) next⟩ :=
      waiting_rows ▸ List.mem_cons_self
    have listed : m ∈ selectedRows answers := by
      rw [rows_split ⟨call, answers, .statement (.deleteMessage m.id) next⟩]
      exact List.mem_append_right _ waits
    have own := holds_own_delete sound.keyed holds (u := ⟨call, answers ++ [⟨_, _⟩], _⟩) rfl same
      waiting_rows fetched_after waiting_after
    apply fetches_apart_set before own
    · intro j u different there
      apply holds_deleted sound.keyed (before.holds j u there) (holds.waiting m waits)
      intro n hn
      exact before.apart j i u _ different there here n hn m listed
    · intro j u different there x hx
      rw [same] at hx
      exact before.apart i j _ u (Ne.symm different) here there x hx

/-! Whole runs. -/

theorem workers_fetches_apart : Invariant (workers.restrict FetchAlone) (fun pool =>
    (PoolSound pool ∧ ∀ i t, pool.threads i = some t → Stage t.tag t.answers t.rest) ∧
      FetchesApart pool) := by
  apply ((workers_store_sound.and workers_stage).restrict FetchAlone).strengthen
  · intro pool first
    rw [show pool = ⟨emptyTables, fun _ => none⟩ from first]
    refine ⟨?_, ?_⟩
    · rintro i t ⟨⟩
    · rintro i j t u - ⟨⟩
  · rintro pool action after ⟨⟨-, sound⟩, stages⟩ before taken
    rcases pool_step_cases execute _ taken.2 with
      ⟨i, call, -, -, rfl⟩ | ⟨i, call, answers, q, next, rfl, here, rfl⟩
    · apply fetches_apart_set before (holds_nothing _ rfl)
      · exact fun j u _ there => before.holds j u there
      · intro j u _ there m hm
        cases hm
    · exact fetches_apart_turn sound stages before here taken.1

theorem removed_row_fetched {pool after : Workers} {action : Action Call}
    (sound : StoreSound pool.store)
    (stages : ∀ i t, pool.threads i = some t → Stage t.tag t.answers t.rest)
    (apart : FetchesApart pool) (taken : workers.step pool action after) {m : MessageRow}
    (stored : m ∈ pool.store.messages) (removed : m ∉ after.store.messages) :
    ∃ i t, after.threads i = some t ∧ m ∈ fetchedRows t ∧
      ((selectedRows t.answers).flatMap fetchRecord).length < 2 ^ 32 := by
  rcases pool_step_cases execute _ taken with
    ⟨i, call, -, -, rfl⟩ | ⟨i, call, answers, q, next, -, here, rfl⟩
  · exact absurd stored removed
  · rcases stages i _ here with
      ⟨-, -, quiet⟩ | ⟨-, start⟩ | ⟨fetched, waiting, selected, count, loop⟩
    · exact absurd ((rows_kept quiet.1 pool.store).2.1 m stored) removed
    · dsimp only at start
      rw [fetch_program] at start
      cases start
      exact absurd stored removed
    · obtain ⟨first, rest, rfl, waiting_rows, after_rows⟩ :=
        loop_turn (t := ⟨call, answers, .statement q next⟩) selected count loop
      obtain ⟨same, fetched_after, -⟩ :=
        after_rows (execute (.deleteMessage first.id) pool.store).2
          (next (execute (.deleteMessage first.id) pool.store).2)
      have holds := apart.holds i _ here
      have first_stored := holds.waiting first (waiting_rows ▸ List.mem_cons_self)
      have m_is_first : m = first := by
        by_contra different
        exact removed ((delete_row sound.keyed first_stored m).mpr ⟨stored, different⟩)
      refine ⟨i, _, (set_threads _ i i _).trans (if_pos rfl), ?_, ?_⟩
      · rw [fetched_after, m_is_first]
        exact List.mem_append_right _ (List.mem_singleton_self first)
      · dsimp only at same ⊢
        rw [same]
        exact holds.fits

theorem response_rows {t : Worker} (stage : Stage t.tag t.answers t.rest)
    (fetch : t.tag.request.requestCode = codeFetchMessages) {r : ServerResponse}
    (ended : t.rest = .done r) : r.payload = (fetchedRows t).flatMap fetchRecord := by
  rcases stage with ⟨other, -⟩ | ⟨-, start⟩ | ⟨fetched, waiting, selected, count, loop⟩
  · exact absurd fetch other
  · rw [ended, fetch_program] at start
    cases start
  · rw [ended] at loop
    obtain ⟨fetched_rows, -⟩ := loop_rows selected count
    rw [fetched_rows]
    exact (fetch_loop_done loop).2

/-- Each accepted message is in at most one fetch response, byte for byte, and
    leaves the table only into one. -/
theorem fetched_exactly_once {pool : Workers}
    (reached : Reachable (workers.restrict FetchAlone) pool) :
    (∀ i j t u, i ≠ j → pool.threads i = some t → pool.threads j = some u →
      ∀ m ∈ fetchedRows t, ∀ n ∈ fetchedRows u, m.serial ≠ n.serial) ∧
    (∀ i t r, pool.threads i = some t → t.tag.request.requestCode = codeFetchMessages →
      t.rest = .done r → r.payload = (fetchedRows t).flatMap fetchRecord) ∧
    ∀ action after, (workers.restrict FetchAlone).step pool action after →
      ∀ m ∈ pool.store.messages, m ∉ after.store.messages →
        ∃ i t, after.threads i = some t ∧ m ∈ fetchedRows t ∧
          ((selectedRows t.answers).flatMap fetchRecord).length < 2 ^ 32 := by
  obtain ⟨⟨⟨-, sound⟩, stages⟩, apart⟩ := workers_fetches_apart.holds reached
  refine ⟨?_, ?_, ?_⟩
  · intro i j t u different here there m hm n hn
    apply apart.apart i j t u different here there m _ n
    · rw [rows_split u]
      exact List.mem_append_left _ hn
    · rw [rows_split t]
      exact List.mem_append_left _ hm
  · exact fun i t r here fetch ended => response_rows (stages i t here) fetch ended
  · exact fun action after taken m stored removed =>
      removed_row_fetched sound stages apart taken.2 stored removed

/-! Two fetches of one mailbox. -/

def checkThenStore (msgId : Nat) (dst source : Bytes) (type : Nat) (content : Bytes) :
    Sql ServerResponse :=
  .statement (.selectClientById dst) fun
    | .ok rows =>
      if rows.length > 0 then
        .statement (.insertMessage msgId dst source type content) fun
          | .ok _ => .done (sentResponse dst msgId)
          | .error _ => .done getErrResponse
      else .done getErrResponse
    | .error e => .raise (.database e)

theorem check_then_store (msgId : Nat) {dst : Bytes} (source : Bytes) {type : Nat}
    {content : Bytes} (dst_size : dst.length = 16) (supported : type ∈ supportedMsgTypes)
    (fits : content.length < 2 ^ 32) :
    sendMsg msgId (messagePayload dst type content) source =
      checkThenStore msgId dst source type content := by
  have sound := message_sound dst_size supported fits
  rw [send_program _ _ sound.1, sendTail, if_pos sound, message_destination dst_size,
    message_content dst_size, message_type dst_size supported, checkThenStore]
  refine same_answers (fun rows => ?_) fun _ => rfl
  dsimp only
  split
  · exact same_answers (fun _ => rfl) fun _ => rfl
  · rfl

def owner : ClientId := ⟨List.replicate 16 2, rfl⟩

def sending : Call :=
  ⟨⟨owner, 7, by decide, by decide⟩,
    requestOf owner codeSendMsg (messagePayload owner.bytes msgTypeSendTxtMsg [0x68, 0x69])⟩

def fetching : Call := ⟨sending.draws, requestOf owner codeFetchMessages []⟩

theorem sending_program : handle sending.draws sending.request =
    checkThenStore 7 owner.bytes owner.bytes msgTypeSendTxtMsg [0x68, 0x69] := by
  have code : sending.request.requestCode = codeSendMsg := rfl
  rw [handle_send sending.draws code, sending, request_payload]
  exact check_then_store 7 owner.bytes owner.size (by decide) (by decide)

theorem fetching_program : handle fetching.draws fetching.request =
    .statement (.selectMessages owner.bytes) fun
      | .ok rows => fetchLoop rows []
      | .error _ => fetchLoop [] [] := by
  have code : fetching.request.requestCode = codeFetchMessages := rfl
  rw [handle_fetch fetching.draws code,
    show fetching.request.clientId = owner from rfl, fetch_program]
  exact same_answers (fun _ => rfl) fun _ => rfl

theorem other_turn_alone {pool : Workers} {i : Nat} {t : Worker} (here : pool.threads i = some t)
    (other : nextFetch t.rest = none) : FetchAlone pool (.turn i) := by
  intro u source there next
  rw [here] at there
  cases there
  rw [other] at next
  cases next

theorem text_fetched_once :
    ∃ pool, Reachable (workers.restrict FetchAlone) pool ∧ ∃ t r, pool.threads 2 = some t ∧
      t.rest = .done r ∧ (fetchedRows t).map MessageRow.content = [[0x68, 0x69]] ∧
      r.payload = (fetchedRows t).flatMap fetchRecord := by
  have start : Reachable (workers.restrict FetchAlone) ⟨emptyTables, fun _ => none⟩ := .start rfl
  have registering := reach_spawn start 0 (ConcurrentRegistrations.registration owner) rfl trivial
  rw [ConcurrentRegistrations.registration_program] at registering
  have checked := reach_turn registering 0 rfl (other_turn_alone rfl rfl)
  have registered := reach_turn checked 0 rfl (other_turn_alone rfl rfl)
  have sender := reach_spawn registered 1 sending rfl trivial
  rw [sending_program] at sender
  have found := reach_turn sender 1 rfl (other_turn_alone rfl rfl)
  have stored := reach_turn found 1 rfl (other_turn_alone rfl rfl)
  have fetcher := reach_spawn stored 2 fetching rfl trivial
  rw [fetching_program] at fetcher
  have selected := reach_turn fetcher 2 rfl (by
    intro t source here next
    cases here
    cases next
    refine ⟨by decide +kernel, fun j u there _ => ?_⟩
    rw [set_threads] at there
    split at there
    · cases there
      rfl
    · rename_i not_two
      match j, not_two with
      | 0, _ => cases there; rfl
      | 1, _ => cases there; rfl
      | 2, two => exact absurd rfl two
      | j + 3, _ => cases there)
  have deleted := reach_turn selected 2 rfl (other_turn_alone rfl rfl)
  exact ⟨_, deleted, _, _, rfl, rfl, rfl,
    (fetched_exactly_once deleted).2.1 2 _ _ rfl rfl rfl⟩

/-- The owner registers, one text is stored for it, and two fetches select it
    before either deletes it: both responses have it. -/
theorem fetched_twice :
    ∃ pool, Reachable workers pool ∧ ∃ t u, pool.threads 2 = some t ∧ pool.threads 3 = some u ∧
      ∃ r, t.rest = .done r ∧ u.rest = .done r ∧ r.payload = (fetchedRows t).flatMap fetchRecord ∧
        fetchedRows t = fetchedRows u ∧ (fetchedRows t).map MessageRow.serial = [0] := by
  have start : Reachable (workers.restrict fun _ _ => True) ⟨emptyTables, fun _ => none⟩ :=
    .start rfl
  have registering := reach_spawn start 0 (ConcurrentRegistrations.registration owner) rfl trivial
  rw [ConcurrentRegistrations.registration_program] at registering
  have sender := reach_spawn registering 1 sending rfl trivial
  rw [sending_program] at sender
  have first := reach_spawn sender 2 fetching rfl trivial
  rw [fetching_program] at first
  have second := reach_spawn first 3 fetching rfl trivial
  rw [fetching_program] at second
  have stored := run_reachable [.turn 0, .turn 0, .turn 1, .turn 1] (restricted_reachable second)
    rfl
  have selected := run_reachable [.turn 2, .turn 3] stored rfl
  have deleted := run_reachable [.turn 2, .turn 3] selected rfl
  exact ⟨_, deleted, _, _, rfl, rfl, _, rfl, rfl, rfl, rfl, rfl⟩

end ConcurrentFetches
