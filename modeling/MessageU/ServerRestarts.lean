import MessageU.ConcurrentRequests

/- A server that is killed between any two statements and started again. Each statement is
   committed, and a table is created only where there is none, so the tables stay while the
   workers are gone. What a fetch has deleted may be lost then, and is not given again. -/
namespace ServerRestarts
open ByteFields GuardedRuns StatementPrograms RequestFormat ServerTables ResponseFormat
open RequestHandling ServerRuns ConcurrentFetches ConcurrentRequests

/-- server.db; a table that was not created yet is none. -/
structure Database where
  clients : Option (List ClientRow)
  messages : Option (List MessageRow)
  accepted : Nat

def Manager.initTable {Row : Type} : Option (List Row) → List Row
  | none => []
  | some rows => rows

def Database.opened (db : Database) : Tables :=
  ⟨Manager.initTable db.clients, Manager.initTable db.messages, db.accepted⟩

def Database.holding (t : Tables) : Database := ⟨some t.clients, some t.messages, t.accepted⟩

@[simp] theorem holding_opened (t : Tables) : (Database.holding t).opened = t := rfl

structure Site where
  database : Database
  up : Bool
  session : Nat
  workers : Nat → Nat → Option Worker

def Site.initial : Site := ⟨⟨none, none, 0⟩, false, 0, fun _ _ => none⟩

def Site.pool (s : Site) : Workers := ⟨s.database.opened, s.workers s.session⟩

def Site.worked (s : Site) (pool : Workers) : Site :=
  { s with
    database := .holding pool.store
    workers := Function.update s.workers s.session pool.threads }

inductive Event where
  | boot
  | interrupted
  | crash
  | act (action : Action Call)

/-- The server may be interrupted when the first of its two managers was made. -/
inductive Site.Step (s : Site) : Event → Site → Prop where
  | boot (down : s.up = false) :
      s.Step .boot { s with database := .holding s.database.opened, up := true }
  | interrupted (down : s.up = false) : s.Step .interrupted
      { s with
        database := { s.database with clients := some (Manager.initTable s.database.clients) } }
  | crash (up : s.up = true) :
      s.Step .crash { s with up := false, session := s.session + 1 }
  | act {action : Action Call} {pool : Workers} (up : s.up = true)
      (taken : ServerRuns.workers.step s.pool action pool) :
      s.Step (.act action) (s.worked pool)

def sites : StepSystem Site Event where
  start s := s = Site.initial
  step := Site.Step

/-- No mailbox is selected while another fetch of it, in the same session, has rows left
    to delete. -/
def FetchesAlone (s : Site) : Event → Prop
  | .act action => FetchAlone s.pool action
  | _ => True

/-! One statement. -/

theorem execute_rows (q : Statement) (t : Tables) :
    t.accepted ≤ (execute q t).1.accepted ∧
      ∀ m ∈ (execute q t).1.messages, m ∈ t.messages ∨ m.serial = t.accepted := by
  by_cases quiet : NoFetch q
  · obtain ⟨more, -, origin⟩ := rows_kept quiet t
    exact ⟨more, origin⟩
  · cases q with
    | deleteMessage id =>
      exact ⟨Nat.le_refl _, fun m stored => Or.inl (List.mem_of_mem_filter stored)⟩
    | selectMessages source => exact ⟨Nat.le_refl _, fun m stored => Or.inl stored⟩
    | _ => exact absurd ⟨by simp, by simp⟩ quiet

theorem selected_after (answers : List ((q : Statement) × Answer q)) (q : Statement)
    (t : Tables) :
    selectedRows (answers ++ [⟨q, (execute q t).2⟩]) = selectedRows answers ∨
      ∀ m ∈ selectedRows (answers ++ [⟨q, (execute q t).2⟩]), m ∈ t.messages := by
  by_cases started : answers = []
  · subst started
    cases q with
    | selectMessages source => exact Or.inr fun m listed => List.mem_of_mem_filter listed
    | _ => exact Or.inl rfl
  · exact Or.inl (selected_snoc started _)

theorem step_rows {pool after : Workers} {action : Action Call}
    (taken : ServerRuns.workers.step pool action after) :
    pool.store.accepted ≤ after.store.accepted ∧
      (∀ m ∈ after.store.messages, m ∈ pool.store.messages ∨ m.serial = pool.store.accepted) ∧
      ∀ j u, after.threads j = some u →
        (∃ before, pool.threads j = some before ∧
          selectedRows u.answers = selectedRows before.answers) ∨
        ∀ m ∈ selectedRows u.answers, m ∈ pool.store.messages := by
  rcases pool_step_cases execute _ taken with
    ⟨i, call, -, -, rfl⟩ | ⟨i, call, answers, q, next, -, here, rfl⟩
  · refine ⟨Nat.le_refl _, fun m stored => Or.inl stored, fun j u there => ?_⟩
    rw [set_threads] at there
    split at there
    · cases there
      exact Or.inr fun m impossible => (by cases impossible)
    · exact Or.inl ⟨u, there, rfl⟩
  · obtain ⟨more, origin⟩ := execute_rows q pool.store
    refine ⟨more, origin, fun j u there => ?_⟩
    rw [set_threads] at there
    split at there
    · rename_i same
      subst same
      cases there
      exact (selected_after answers q pool.store).imp_left fun kept => ⟨_, here, kept⟩
    · exact Or.inl ⟨u, there, rfl⟩

/-! What holds in every run. -/

structure Survived (store : Tables) (t : Worker) : Prop where
  gone : ∀ m ∈ fetchedRows t, m.serial ∉ store.messages.map MessageRow.serial
  issued : ∀ m ∈ fetchedRows t, m.serial < store.accepted

def Working (pool : Workers) : Prop :=
  (PoolSound pool ∧ ∀ i t, pool.threads i = some t → Stage t.tag t.answers t.rest) ∧
    FetchesApart pool

structure Kept (s : Site) : Prop where
  working : Working s.pool
  later : ∀ n, s.session < n → s.workers n = fun _ => none
  stages : ∀ n i t, s.workers n i = some t → Stage t.tag t.answers t.rest
  past : ∀ n, n < s.session → ∀ i t, s.workers n i = some t → Survived s.database.opened t
  apart : ∀ n m i j t u, n < s.session → m < s.session → (n, i) ≠ (m, j) →
    s.workers n i = some t → s.workers m j = some u →
    ∀ x ∈ fetchedRows t, ∀ y ∈ fetchedRows u, x.serial ≠ y.serial
  present : ∀ n, n < s.session → ∀ i t j u, s.workers n i = some t →
    s.workers s.session j = some u →
    ∀ x ∈ fetchedRows t, ∀ y ∈ selectedRows u.answers, x.serial ≠ y.serial

theorem fetched_selected {t : Worker} {m : MessageRow} (fetched : m ∈ fetchedRows t) :
    m ∈ selectedRows t.answers := by
  rw [rows_split t]
  exact List.mem_append_left _ fetched

theorem no_workers_working {t : Tables} (sound : StoreSound t) : Working ⟨t, fun _ => none⟩ :=
  ⟨⟨⟨fun i u impossible => (by cases impossible), sound⟩,
      fun i u impossible => (by cases impossible)⟩,
    ⟨fun i u impossible => (by cases impossible),
      fun i j t u _ impossible => (by cases impossible)⟩⟩

/-- The rows of the past stay gone, for new rows have new serials. -/
theorem survived_step {pool after : Workers} {action : Action Call}
    (taken : ServerRuns.workers.step pool action after) {t : Worker}
    (survived : Survived pool.store t) : Survived after.store t := by
  obtain ⟨more, origin, -⟩ := step_rows taken
  refine ⟨fun m fetched back => ?_, fun m fetched =>
    Nat.lt_of_lt_of_le (survived.issued m fetched) more⟩
  obtain ⟨n, stored, same⟩ := List.mem_map.mp back
  rcases origin n stored with old | new
  · exact survived.gone m fetched (List.mem_map.mpr ⟨n, old, same⟩)
  · have := survived.issued m fetched
    omega

@[simp] theorem worked_pool (s : Site) (pool : Workers) : (s.worked pool).pool = pool := by
  simp [Site.worked, Site.pool]

theorem worked_own (s : Site) (pool : Workers) :
    (s.worked pool).workers s.session = pool.threads :=
  Function.update_self _ _ _

theorem worked_other {s : Site} {n : Nat} (other : n ≠ s.session) (pool : Workers) :
    (s.worked pool).workers n = s.workers n :=
  Function.update_of_ne other _ _

theorem kept_act {s : Site} (kept : Kept s) {action : Action Call}
    {pool : Workers} (alone : FetchAlone s.pool action)
    (taken : ServerRuns.workers.step s.pool action pool) : Kept (s.worked pool) := by
  have working : Working pool :=
    workers_fetches_apart.step s.pool action pool kept.working ⟨alone, taken⟩
  have past {n : Nat} (before : n < s.session) : (s.worked pool).workers n = s.workers n :=
    worked_other (Nat.ne_of_lt before) pool
  obtain ⟨-, -, selected⟩ := step_rows taken
  constructor
  · rw [worked_pool]
    exact working
  · intro n later
    have other : n ≠ s.session := Nat.ne_of_gt later
    rw [worked_other other]
    exact kept.later n later
  · intro n i t here
    by_cases same : n = s.session
    · rw [same, worked_own] at here
      exact working.1.2 i t here
    · rw [worked_other same] at here
      exact kept.stages n i t here
  · intro n before i t here
    rw [past before] at here
    exact survived_step taken (kept.past n before i t here)
  · intro n m i j t u before before' different here there
    rw [past before] at here
    rw [past before'] at there
    exact kept.apart n m i j t u before before' different here there
  · intro n before i t j u here there x fetched y listed
    rw [past before] at here
    replace there : (s.worked pool).workers s.session j = some u := there
    rw [worked_own] at there
    rcases selected j u there with ⟨u', there', same⟩ | stored
    · rw [same] at listed
      exact kept.present n before i t j u' here there' x fetched y listed
    · intro same
      exact (kept.past n before i t here).gone x fetched
        (List.mem_map.mpr ⟨y, stored y listed, same.symm⟩)

theorem kept_crash {s : Site} (kept : Kept s) :
    Kept { s with up := false, session := s.session + 1 } := by
  have holds (i : Nat) (t : Worker) (here : s.workers s.session i = some t) :=
    kept.working.2.holds i t here
  have nobody : s.workers (s.session + 1) = fun _ => none := kept.later _ (Nat.lt_succ_self _)
  constructor
  · show Working ⟨s.database.opened, s.workers (s.session + 1)⟩
    rw [nobody]
    exact no_workers_working kept.working.1.1.2
  · exact fun n later => kept.later n (Nat.lt_of_succ_lt later)
  · exact kept.stages
  · intro n before i t here
    rcases Nat.lt_succ_iff_lt_or_eq.mp before with past | rfl
    · exact kept.past n past i t here
    · exact ⟨(holds i t here).gone, fun m fetched =>
        (holds i t here).issued m (fetched_selected fetched)⟩
  · intro n m i j t u before before' different here there x fetched y fetched'
    rcases Nat.lt_succ_iff_lt_or_eq.mp before with past | rfl
    · rcases Nat.lt_succ_iff_lt_or_eq.mp before' with past' | rfl
      · exact kept.apart n m i j t u past past' different here there x fetched y fetched'
      · exact kept.present n past i t j u here there x fetched y (fetched_selected fetched')
    · rcases Nat.lt_succ_iff_lt_or_eq.mp before' with past' | rfl
      · exact (kept.present m past' j u i t there here y fetched' x (fetched_selected fetched)).symm
      · exact kept.working.2.apart i j t u (fun same => different (by rw [same])) here there x
          (fetched_selected fetched) y (fetched_selected fetched')
  · intro n before i t j u here there
    replace there : s.workers (s.session + 1) j = some u := there
    rw [nobody] at there
    cases there

theorem kept_opened {s : Site} (kept : Kept s) (database : Database)
    (same : database.opened = s.database.opened) (up : Bool) :
    Kept { s with database, up } where
  working := by
    show Working ⟨database.opened, s.workers s.session⟩
    rw [same]
    exact kept.working
  later := kept.later
  stages := kept.stages
  past n before i t here := by
    show Survived database.opened t
    rw [same]
    exact kept.past n before i t here
  apart := kept.apart
  present := kept.present

theorem sites_kept : Invariant (sites.restrict FetchesAlone) Kept where
  start s first := by
    rw [show s = Site.initial from first]
    exact ⟨no_workers_working empty_store_sound, fun _ _ => rfl,
      fun n i t impossible => (by cases impossible),
      fun n impossible => absurd impossible (Nat.not_lt_zero n),
      fun n m i j t u impossible => absurd impossible (Nat.not_lt_zero n),
      fun n impossible => absurd impossible (Nat.not_lt_zero n)⟩
  step s event after kept taken := by
    obtain ⟨alone, taken⟩ := taken
    cases taken with
    | boot down => exact kept_opened kept (.holding s.database.opened) rfl true
    | interrupted down =>
      exact kept_opened kept
        { s.database with clients := some (Manager.initTable s.database.clients) } rfl s.up
    | crash up => exact kept_crash kept
    | act up taken => exact kept_act kept alone taken

/-- In every run with restarts, a message is in one response to a fetch at most, and leaves
    the table only for one. -/
theorem fetched_once_over_restarts {s : Site}
    (reached : Reachable (sites.restrict FetchesAlone) s) :
    StoreSound s.database.opened ∧
    (∀ n m i j t u, (n, i) ≠ (m, j) → s.workers n i = some t → s.workers m j = some u →
      ∀ x ∈ fetchedRows t, ∀ y ∈ fetchedRows u, x.serial ≠ y.serial) ∧
    (∀ n i t r, s.workers n i = some t → t.tag.request.requestCode = codeFetchMessages →
      t.rest = .done r → r.payload = (fetchedRows t).flatMap fetchRecord) ∧
    ∀ event after, (sites.restrict FetchesAlone).step s event after →
      ∀ m ∈ s.database.opened.messages, m ∉ after.database.opened.messages →
        ∃ i t, after.workers after.session i = some t ∧ m ∈ fetchedRows t := by
  have kept := sites_kept.holds reached
  have none_later {n i : Nat} {t : Worker} (here : s.workers n i = some t) : n ≤ s.session := by
    by_contra later
    rw [kept.later n (Nat.lt_of_not_le later)] at here
    cases here
  refine ⟨kept.working.1.1.2, ?_, ?_, ?_⟩
  · intro n m i j t u different here there
    exact (kept_crash kept).apart n m i j t u (Nat.lt_succ_of_le (none_later here))
      (Nat.lt_succ_of_le (none_later there)) different here there
  · exact fun n i t r here fetch ended => response_rows (kept.stages n i t here) fetch ended
  · rintro event after ⟨alone, taken⟩ m stored removed
    cases taken with
    | boot down => exact absurd stored removed
    | interrupted down => exact absurd stored removed
    | crash up => exact absurd stored removed
    | act up taken =>
      rename_i action pool
      obtain ⟨i, t, here, fetched, -⟩ := removed_row_fetched kept.working.1.1.2
        kept.working.1.2 kept.working.2 taken stored removed
      refine ⟨i, t, ?_, fetched⟩
      show (s.worked pool).workers s.session i = _
      rw [worked_own]
      exact here

/-! A session is a run of the workers over the tables it opens. -/

@[simp] theorem worked_worked (s : Site) (pool after : Workers) :
    (s.worked pool).worked after = s.worked after := by
  simp [Site.worked]

theorem session_runs {s : Site} (reached : Reachable (sites.restrict FetchesAlone) s)
    (up : s.up = true) (opened : s.database = .holding s.database.opened)
    (fresh : s.workers s.session = fun _ => none) {pool : Workers}
    (run : Reachable ((interleaving execute (fun call : Call => handle call.draws call.request)
      s.database.opened).restrict FetchAlone) pool) :
    Reachable (sites.restrict FetchesAlone) (s.worked pool) := by
  induction run with
  | start first =>
    rw [first]
    have same : s.worked ⟨s.database.opened, fun _ => none⟩ = s := by
      rw [Site.worked, ← opened, ← fresh, Function.update_eq_self]
    rw [same]
    exact reached
  | @next before after action _ taken ih =>
    rw [← worked_worked s before after]
    refine .next (l := .act action) ih ⟨?_, .act up ?_⟩
    · rw [FetchesAlone, worked_pool]
      exact taken.1
    · rw [worked_pool]
      exact taken.2

theorem fetch_without_texts :
    ∃ pool, Reachable ((interleaving execute
        (fun call : Call => handle call.draws call.request) ⟨[ownerRow], [], 1⟩).restrict
          FetchAlone) pool ∧
      ∃ t r, pool.threads 0 = some t ∧ t.tag = fetching ∧ t.rest = .done r ∧
        fetchedRows t = [] := by
  have start : Reachable ((interleaving execute (fun call : Call => handle call.draws call.request)
      ⟨[ownerRow], [], 1⟩).restrict FetchAlone) ⟨⟨[ownerRow], [], 1⟩, fun _ => none⟩ := .start rfl
  have fetcher := reach_spawn start 0 fetching rfl trivial
  rw [fetching_program] at fetcher
  have ended := reach_turn fetcher 0 rfl (by
    intro t source here next
    cases here
    cases next
    refine ⟨by decide +kernel, fun j u there _ => ?_⟩
    match j with
    | 0 => cases there; rfl
    | j + 1 => cases there)
  exact ⟨_, ended, _, _, rfl, rfl, rfl, rfl⟩

theorem text_fetched_before_crash :
    ∃ s, Reachable (sites.restrict FetchesAlone) s ∧ s.session = 1 ∧
      (∃ t, s.workers 0 2 = some t ∧ (fetchedRows t).map MessageRow.content = [[0x68, 0x69]] ∧
        ∀ m j u, ((0 : Nat), 2) ≠ (m, j) → s.workers m j = some u →
          ∀ x ∈ fetchedRows t, ∀ y ∈ fetchedRows u, x.serial ≠ y.serial) ∧
      ∃ t r, s.workers 1 0 = some t ∧ t.rest = .done r ∧ r.payload = [] := by
  obtain ⟨⟨store, threads⟩, ran, rfl, t, -, here, -, text⟩ := text_run
  obtain ⟨pool, ran_again, u, r, there, fetch, ended, nothing⟩ := fetch_without_texts
  have booted : Reachable (sites.restrict FetchesAlone) _ :=
    .next (l := .boot) (.start rfl) ⟨trivial, .boot rfl⟩
  have worked := session_runs booted rfl rfl rfl (finer_reachable (fun _ _ alone => alone.2.1) ran)
  have killed := Reachable.next (l := Event.crash) worked ⟨trivial, .crash rfl⟩
  have again := Reachable.next (l := Event.boot) killed ⟨trivial, .boot rfl⟩
  have whole := session_runs again rfl rfl rfl ran_again
  have once := fetched_once_over_restarts whole
  refine ⟨_, whole, rfl, ⟨t, here, text, fun m j u different other =>
    once.2.1 0 m 2 j t u different here other⟩, u, r, there, ended, ?_⟩
  rw [once.2.2.1 1 0 u r there (by rw [fetch]; rfl) ended, nothing]
  rfl

end ServerRestarts
