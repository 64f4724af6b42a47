import MessageU.ServerRuns

/- Registrations by many workers. The check of a name and the INSERT of its row
   are two statements, so two workers can both find a name free. Names stay
   unique in the runs in which no worker checks a name that another one has
   checked and is about to insert. -/
namespace ConcurrentRegistrations
open ByteFields GuardedRuns StatementPrograms RequestFormat ServerTables ResponseFormat
open RequestHandling ServerRuns

def nextInsert : Sql ServerResponse → Option Bytes
  | .statement (.insertClient row) _ => some row.name
  | _ => none

def nextCheck : Sql ServerResponse → Option Bytes
  | .statement (.selectClientByName name) next =>
    match next (.ok []) with
    | .statement (.insertClient _) _ => some name
    | _ => none
  | _ => none

/-- No name is checked while another worker has its INSERT before it. -/
def CheckAlone (pool : Workers) : Action Call → Prop
  | .spawn _ _ => True
  | .turn i => ∀ t name, pool.threads i = some t → nextCheck t.rest = some name →
      ∀ j u, pool.threads j = some u → nextInsert u.rest ≠ some name

def NoInsert (q : Statement) : Prop := ∀ row, q ≠ .insertClient row

def Stage (call : Call) (rest : Sql ServerResponse) : Prop :=
  rest.Issues NoInsert ∨
    ∃ name, registrationName call.request.payload = some name ∧
      (rest = registerUser call.draws.uuid call.request.payload ∨
        rest = registerTail call.draws.uuid name (call.request.payload.drop 255))

structure NamesApart (pool : Workers) : Prop where
  names : (pool.store.clients.map ClientRow.name).Nodup
  free : ∀ i t name, pool.threads i = some t → nextInsert t.rest = some name →
    name ∉ pool.store.clients.map ClientRow.name
  apart : ∀ i j t u name, i ≠ j → pool.threads i = some t → pool.threads j = some u →
    nextInsert t.rest = some name → nextInsert u.rest ≠ some name

/-! Where a worker can be. -/

theorem next_insert_none {rest : Sql ServerResponse} (quiet : rest.Issues NoInsert) :
    nextInsert rest = none := by
  cases rest with
  | done r => rfl
  | raise e => rfl
  | statement q k =>
    cases q with
    | insertClient row => exact absurd rfl (quiet.1 row)
    | _ => rfl

theorem started_cases (call : Call) : (handle call.draws call.request).Issues NoInsert ∨
    ∃ name, registrationName call.request.payload = some name ∧
      handle call.draws call.request = registerUser call.draws.uuid call.request.payload := by
  rcases handled_code_cases call.request with
    unsupported | register | list | send | fetch | pubkey
  · rw [handle_unsupported _ unsupported]
    exact Or.inl trivial
  · rw [handle_register _ register]
    cases asks : registrationName call.request.payload with
    | none =>
      left
      rcases register_refused call.draws.uuid asks with refused | raised
      · rw [refused]
        trivial
      · rw [raised]
        trivial
    | some name => exact Or.inr ⟨name, rfl, rfl⟩
  · rw [handle_list _ list]
    exact Or.inl (list_issues _ fun row same => by cases same)
  · rw [handle_send _ send]
    exact Or.inl (send_issues _ _ _ (fun id row same => by cases same)
      fun sound row same => by cases same)
  · rw [handle_fetch _ fetch]
    exact Or.inl (fetch_issues _ (fun row same => by cases same) fun id row same => by cases same)
  · rw [handle_pubkey _ pubkey]
    exact Or.inl (pubkey_issues _ fun row same => by cases same)

theorem stage_started (call : Call) : Stage call (handle call.draws call.request) := by
  rcases started_cases call with quiet | ⟨name, asks, start⟩
  · exact Or.inl quiet
  · exact Or.inr ⟨name, asks, Or.inl start⟩

theorem stage_answered {call : Call} {q : Statement} {next : Answer q → Sql ServerResponse}
    (here : Stage call (.statement q next)) (r : Answer q) : Stage call (next r) := by
  rcases here with quiet | ⟨name, asks, start | tail⟩
  · exact Or.inl (quiet.2 r)
  · rw [register_program _ asks] at start
    cases start
    cases r with
    | error e => exact Or.inl trivial
    | ok rows =>
      dsimp only
      split
      · exact Or.inl trivial
      · exact Or.inr ⟨name, asks, Or.inr rfl⟩
  · rw [registerTail] at tail
    split at tail
    · cases tail
      exact Or.inl trivial
    · cases tail

theorem workers_stage : Invariant workers
    (fun pool => ∀ i t, pool.threads i = some t → Stage t.tag t.rest) :=
  thread_shape execute (fun call : Call => handle call.draws call.request)
    (fun call _ rest => Stage call rest) stage_started
    (fun _ _ _ _ r here => stage_answered here r) emptyTables

theorem check_of_start {call : Call} {name : Bytes}
    (asks : registrationName call.request.payload = some name)
    (key_ok : validUtf8 (call.request.payload.drop 255) = true) :
    nextCheck (registerUser call.draws.uuid call.request.payload) = some name := by
  rw [register_program _ asks]
  simp only [nextCheck, List.length_nil, gt_iff_lt, Nat.lt_irrefl, ↓reduceIte, registerTail, key_ok]

/-! One step. -/

theorem names_apart_set {pool : Workers} (before : NamesApart pool) {store : Tables} {i : Nat}
    {t : Worker} (names : (store.clients.map ClientRow.name).Nodup)
    (own : ∀ name, nextInsert t.rest = some name →
      name ∉ store.clients.map ClientRow.name ∧
        ∀ j u, pool.threads j = some u → nextInsert u.rest ≠ some name)
    (others : ∀ j u name, j ≠ i → pool.threads j = some u → nextInsert u.rest = some name →
      name ∉ store.clients.map ClientRow.name) :
    NamesApart (Pool.set ⟨store, pool.threads⟩ i t) := by
  refine ⟨names, ?_, ?_⟩
  · intro j u name here inserts
    rw [set_threads] at here
    split at here
    · cases here
      exact (own name inserts).1
    · rename_i other
      exact others j u name other here inserts
  · intro j k u v name different here there inserts
    rw [set_threads] at here there
    split at here
    · cases here
      rename_i same
      rw [if_neg (fun k_is_i => different (same.trans k_is_i.symm))] at there
      exact (own name inserts).2 k v there
    · split at there
      · cases there
        intro also
        exact (own name also).2 j u here inserts
      · exact before.apart j k u v name different here there inserts

theorem names_apart_quiet {pool : Workers} (before : NamesApart pool) {store : Tables} {i : Nat}
    {t : Worker} (same : store.clients = pool.store.clients) (quiet : nextInsert t.rest = none) :
    NamesApart (Pool.set ⟨store, pool.threads⟩ i t) := by
  apply names_apart_set before
  · rw [same]
    exact before.names
  · intro name inserts
    rw [quiet] at inserts
    cases inserts
  · intro j u name other here inserts
    rw [same]
    exact before.free j u name here inserts

theorem clients_unchanged {q : Statement} (quiet : NoInsert q) (t : Tables) :
    (execute q t).1.clients = t.clients := by
  cases q with
  | insertClient row => exact absurd rfl (quiet row)
  | insertMessage id dst source type content =>
    simp only [execute]
    split <;> rfl
  | _ => rfl

theorem names_apart_turn {pool : Workers} (before : NamesApart pool) {i : Nat} {call : Call}
    {answers : List ((q : Statement) × Answer q)} {q : Statement}
    {next : Answer q → Sql ServerResponse}
    (here : pool.threads i = some ⟨call, answers, .statement q next⟩)
    (stage : Stage call (.statement q next)) (alone : CheckAlone pool (.turn i)) :
    NamesApart (Pool.set ⟨(execute q pool.store).1, pool.threads⟩ i
      ⟨call, answers ++ [⟨q, (execute q pool.store).2⟩], next (execute q pool.store).2⟩) := by
  rcases stage with quiet | ⟨name, asks, start | tail⟩
  · exact names_apart_quiet before (clients_unchanged quiet.1 _) (next_insert_none (quiet.2 _))
  · have checks := alone _ name here
    rw [start] at checks
    rw [register_program _ asks] at start
    cases start
    simp only [execute]
    by_cases taken : (pool.store.clients.filter (·.name = name)).length > 0
    · rw [if_pos taken]
      exact names_apart_quiet before rfl rfl
    · rw [if_neg taken]
      have free := (row_found_iff ClientRow.name _ _).not.mp taken
      rw [registerTail]
      by_cases key_ok : validUtf8 (call.request.payload.drop 255) = true
      · rw [if_pos key_ok]
        apply names_apart_set before before.names
        · rintro other ⟨⟩
          exact ⟨free, checks (check_of_start asks key_ok)⟩
        · exact fun j u other _ there inserts => before.free j u other there inserts
      · rw [if_neg key_ok]
        exact names_apart_quiet before rfl rfl
  · rw [registerTail] at tail
    split at tail
    · cases tail
      simp only [execute]
      split
      · exact names_apart_quiet before rfl rfl
      · apply names_apart_set before
        · rw [List.map_append]
          exact nodup_snoc before.names (before.free i _ name here rfl)
        · rintro other ⟨⟩
        · intro j u other different there inserts
          rw [List.map_append, List.mem_append, List.map_singleton, List.mem_singleton]
          rintro (old | rfl)
          · exact before.free j u other there inserts old
          · exact before.apart i j _ u _ (Ne.symm different) here there rfl inserts
    · cases tail

/-! Whole runs. -/

theorem workers_names_apart : Invariant (workers.restrict CheckAlone)
    (fun pool => (∀ i t, pool.threads i = some t → Stage t.tag t.rest) ∧ NamesApart pool) := by
  apply (workers_stage.restrict CheckAlone).strengthen
  · intro pool first
    rw [show pool = ⟨emptyTables, fun _ => none⟩ from first]
    refine ⟨List.nodup_nil, ?_, ?_⟩
    · rintro i t name ⟨⟩
    · rintro i j t u name - ⟨⟩
  · intro pool action after stages before taken
    rcases pool_step_cases execute _ taken.2 with
      ⟨i, call, -, -, rfl⟩ | ⟨i, call, answers, q, next, rfl, here, rfl⟩
    · apply names_apart_quiet before rfl
      rcases started_cases call with quiet | ⟨name, asks, start⟩
      · exact next_insert_none quiet
      · rw [start, register_program _ asks]
        rfl
    · exact names_apart_turn before here (stages i _ here) taken.1

/-- In every state of every run in which names are checked alone. -/
theorem names_unique {pool : Workers} (reached : Reachable (workers.restrict CheckAlone) pool) :
    (pool.store.clients.map ClientRow.name).Nodup :=
  (workers_names_apart.holds reached).2.names

def registrationOf (name : Bytes) (uuid : ClientId) : Call :=
  ⟨⟨uuid, 1, by decide, by decide⟩,
    requestOf ⟨List.replicate 16 1, rfl⟩ codeRegister (registrationPayload name)⟩

def registration : ClientId → Call := registrationOf [0x41]

def checkThenInsert (uuid : ClientId) (name key : Bytes) : Sql ServerResponse :=
  .statement (.selectClientByName name) fun
    | .ok rows =>
      if rows.length > 0 then .done getErrResponse
      else .statement (.insertClient ⟨uuid.bytes, name, key⟩) fun _ => .done (registered uuid)
    | .error e => .raise (.database e)

theorem check_then_insert (uuid : ClientId) {paramsRaw name : Bytes}
    (asks : registrationName paramsRaw = some name)
    (key_ok : validUtf8 (paramsRaw.drop 255) = true) :
    registerUser uuid paramsRaw = checkThenInsert uuid name (paramsRaw.drop 255) := by
  rw [register_program uuid asks, registerTail, if_pos key_ok]
  rfl

theorem registration_of_program {name : Bytes}
    (asks : registrationName (registrationPayload name) = some name)
    (key_ok : validUtf8 ((registrationPayload name).drop 255) = true) (uuid : ClientId) :
    handle (registrationOf name uuid).draws (registrationOf name uuid).request =
      checkThenInsert uuid name ((registrationPayload name).drop 255) := by
  have code : (registrationOf name uuid).request.requestCode = codeRegister := rfl
  rw [handle_register (registrationOf name uuid).draws code, registrationOf, request_payload]
  exact check_then_insert uuid asks key_ok

theorem registration_program (uuid : ClientId) :
    handle (registration uuid).draws (registration uuid).request =
      checkThenInsert uuid [0x41] ((registrationPayload [0x41]).drop 255) :=
  registration_of_program (by decide +kernel) (by decide +kernel) uuid

theorem interleaved_registrations_unique :
    ∃ pool, Reachable (workers.restrict CheckAlone) pool ∧
      pool.store.clients.map ClientRow.name = [[0x41], [0x42]] ∧
      (pool.store.clients.map ClientRow.name).Nodup := by
  let first : ClientId := ⟨List.replicate 16 2, rfl⟩
  let second : ClientId := ⟨List.replicate 16 3, rfl⟩
  have start : Reachable (workers.restrict CheckAlone) ⟨emptyTables, fun _ => none⟩ := .start rfl
  have one := reach_spawn start 0 (registration first) rfl trivial
  rw [registration_program] at one
  have two := reach_spawn one 1 (registrationOf [0x42] second) rfl trivial
  rw [registration_of_program (by decide +kernel) (by decide +kernel)] at two
  have first_checked := reach_turn two 0 rfl (by
    intro t name here checks j u there
    rw [set_threads, set_threads] at there
    split_ifs at there
    · cases there
      exact fun impossible => by cases impossible
    · cases there
      exact fun impossible => by cases impossible)
  have both_checked := reach_turn first_checked 1 rfl (by
    intro t name here checks j u there
    cases here
    cases checks
    rw [set_threads, set_threads, set_threads] at there
    split_ifs at there
    · cases there
      exact fun same => absurd (Option.some.inj same) (by decide)
    · cases there
      exact fun impossible => by cases impossible)
  have inserting {pool : Workers} {i : Nat} {t : Worker} {row : ClientRow}
      (here : pool.threads i = some t) (inserts : nextInsert t.rest = some row.name) :
      CheckAlone pool (.turn i) := by
    intro t' name here' checks
    rw [here] at here'
    cases here'
    unfold nextInsert at inserts
    split at inserts
    · rename_i rest
      rw [rest] at checks
      cases checks
    · cases inserts
  have first_in := reach_turn both_checked 0 rfl (inserting rfl rfl)
  have both_in := reach_turn first_in 1 rfl (inserting rfl rfl)
  exact ⟨_, both_in, rfl, names_unique both_in⟩

/-- Both workers find the name free, and both insert it. -/
theorem name_registered_twice :
    ∃ pool, Reachable workers pool ∧ pool.store.clients.map ClientRow.name = [[0x41], [0x41]] ∧
      ¬ (pool.store.clients.map ClientRow.name).Nodup := by
  let first : ClientId := ⟨List.replicate 16 2, rfl⟩
  let second : ClientId := ⟨List.replicate 16 3, rfl⟩
  have start : Reachable (workers.restrict fun _ _ => True) ⟨emptyTables, fun _ => none⟩ :=
    .start rfl
  have one := reach_spawn start 0 (registration first) rfl trivial
  rw [registration_program] at one
  have two := reach_spawn one 1 (registration second) rfl trivial
  rw [registration_program] at two
  have both := run_reachable [.turn 0, .turn 1, .turn 0, .turn 1] (restricted_reachable two) rfl
  exact ⟨_, both, rfl, by decide⟩

end ConcurrentRegistrations
