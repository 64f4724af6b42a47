import MessageU.ConcurrentRequests
import MessageU.SystemDelivery

/- The system with the server as it is, one thread for each connection and one statement
   at a time. A connection counts as served once nothing can change the result of its
   thread; then every run is a run of the system whose requests are served in one step. -/
namespace InterleavedSystem
open ByteFields SegmentedStream GuardedRuns StatementPrograms LinearizedThreads RequestFormat
open ServerTables ResponseFormat RequestHandling ServerRuns ServerWorker HandlerOutcomes
open ClientReception ClientCredentials ClientOperations ConcurrentRequests MessagingSystem
open SystemRuns SystemIdentity SystemMail SystemContacts SystemDelivery ConcurrentFetches

/-- Thread `i` serves connection `i`, and `received` is what its worker had done when it
    called the handler. -/
structure Threaded where
  pool : Workers
  received : Nat → WorkerRun
  processes : Nat → Process
  connections : List Connection

inductive Event where
  | user (move : Move)
  | refuse (k : Nat) (sock : Socket)
  | receive (k : Nat) (draws : Draws) (sock : Socket)
  | turn (k : Nat)
  | answer (k : Nat)

def Threaded.initial : Threaded :=
  ⟨⟨emptyTables, fun _ => none⟩, fun _ => ⟨0, none, [], [], none⟩,
    fun _ => .off none, []⟩

def Threaded.world (s : Threaded) : World := ⟨s.pool.store, s.processes, s.connections⟩

inductive Threaded.Step (s : Threaded) : Event → Threaded → Prop where
  | user {move : Move} {after : World} (own : ∀ k draws sock, move ≠ .serve k draws sock)
      (taken : s.world.Step move after) : s.Step (.user move)
        { s with processes := after.processes, connections := after.connections }
  | refuse {k : Nat} {there : Connection} {sock : Socket} {worker : WorkerRun}
      (here : s.connections[k]? = some there) (unserved : there.reply = none)
      (unread : s.pool.threads k = none) (arrived : contents sock <+: there.raw)
      (refused : receiveRequest sock = (worker, none)) : s.Step (.refuse k sock)
        { s with connections := s.connections.set k (there.refuse worker) }
  | receive {k : Nat} {there : Connection} {draws : Draws} {sock : Socket} {worker : WorkerRun}
      {request : ServerRequest} (here : s.connections[k]? = some there)
      (unserved : there.reply = none) (unread : s.pool.threads k = none)
      (arrived : contents sock <+: there.raw)
      (received : receiveRequest sock = (worker, some request)) : s.Step (.receive k draws sock)
        { s with
          pool := s.pool.set k ⟨⟨draws, request⟩, [], handle draws request⟩
          received := Function.update s.received k worker }
  | turn {k : Nat} {pool : Workers}
      (taken : s.pool.next execute (fun call => handle call.draws call.request) (.turn k) =
        some pool) : s.Step (.turn k) { s with pool }
  | answer {k : Nat} {there : Connection} {call : Call}
      {answers : List ((q : Statement) × Answer q)} {rest : Sql ServerResponse}
      {result : Except PyError ServerResponse} (here : s.connections[k]? = some there)
      (unserved : there.reply = none) (thread : s.pool.threads k = some ⟨call, answers, rest⟩)
      (returned : ended rest = some result) : s.Step (.answer k)
        { s with connections :=
            s.connections.set k (there.answer (s.received k) ⟨call.request, result⟩) }

def threaded : StepSystem Threaded Event where
  start s := s = Threaded.initial
  step := Threaded.Step

/-- What the runs are asked for: workers keep out of each other's way, ids are fresh
    when a worker that registers moves, and nothing is cut on the way to a client. -/
def Orderly (s : Threaded) : Event → Prop
  | .user move => FetchesWhole s.world move ∧ ListsHeaded s.world move
  | .receive _ draws sock =>
    ∀ request ∈ (receiveRequest sock).2, FreshDraw s.pool.store.clients draws request
  | .turn k => Alone s.pool (.turn k) ∧ ∀ t, s.pool.threads k = some t →
      FreshDraw s.pool.store.clients t.tag.draws t.tag.request
  | .refuse _ _ | .answer _ => True

/-! The system in which it is served at once. -/

def Threaded.outcome (s : Threaded) (i : Nat) : Option Exchange :=
  (s.pool.threads i).bind fun t => (settles t.rest).map fun result => ⟨t.tag.request, result⟩

def Threaded.seenAt (s : Threaded) (i : Nat) (k : Connection) : Connection :=
  (s.outcome i).elim k (k.answer (s.received i))

noncomputable def Threaded.seen (s : Threaded) : World :=
  ⟨{ s.pool.store with messages := settledRows s.pool }, s.processes,
    s.connections.mapIdx s.seenAt⟩

section Seen
variable (s : Threaded) {i : Nat}

theorem seen_unsettled (unsettled : s.outcome i = none) (k : Connection) : s.seenAt i k = k := by
  rw [Threaded.seenAt, unsettled]
  rfl

theorem seen_settled {e : Exchange} (settled : s.outcome i = some e) (k : Connection) :
    s.seenAt i k = k.answer (s.received i) e := by
  rw [Threaded.seenAt, settled]
  rfl

theorem no_outcome (free : s.pool.threads i = none) : s.outcome i = none := by
  rw [Threaded.outcome, free]
  rfl

theorem seen_here {k : Connection} (here : s.connections[i]? = some k) :
    s.seen.connections[i]? = some (s.seenAt i k) := by
  show (s.connections.mapIdx s.seenAt)[i]? = _
  rw [List.getElem?_mapIdx, here]
  rfl

theorem seen_finish (k : Connection) (handled : List Message) :
    s.seenAt i (k.finish handled) = (s.seenAt i k).finish handled := by
  unfold Threaded.seenAt
  cases s.outcome i <;> rfl

theorem seen_op (k : Connection) : (s.seenAt i k).op = k.op := by
  unfold Threaded.seenAt
  cases s.outcome i <;> rfl

end Seen

theorem set_same {α : Type} {l : List α} {j : Nat} {x : α} (here : l[j]? = some x) :
    l.set j x = l := by
  obtain ⟨front, back, first, second⟩ := set_split here x
  rw [second, first]

theorem seen_moved {s after : Threaded} {j : Nat} {old new : Connection}
    (here : s.connections[j]? = some old)
    (others : ∀ i, i ≠ j → after.outcome i = s.outcome i ∧ after.received i = s.received i)
    (connections : after.connections = s.connections.set j new) :
    after.seen.connections = s.seen.connections.set j (after.seenAt j new) := by
  show after.connections.mapIdx after.seenAt = (s.connections.mapIdx s.seenAt).set j _
  apply List.ext_getElem?
  intro i
  rw [connections, List.getElem?_mapIdx]
  by_cases same : j = i
  · subst same
    obtain ⟨inside, -⟩ := List.getElem?_eq_some_iff.mp here
    rw [List.getElem?_set_self inside, List.getElem?_set_self (by rwa [List.length_mapIdx])]
    rfl
  · obtain ⟨outcome, received⟩ := others i (Ne.symm same)
    rw [List.getElem?_set_ne same, List.getElem?_set_ne same, List.getElem?_mapIdx]
    cases s.connections[i]? with
    | none => rfl
    | some k =>
      show some (after.seenAt i k) = some (s.seenAt i k)
      rw [Threaded.seenAt, Threaded.seenAt, outcome, received]

/-! What holds in every run. -/

structure Attended (s : Threaded) : Prop where
  pool : Reachable (workers.restrict Alone) s.pool
  inside : ∀ k t, s.pool.threads k = some t → ∃ there sock, s.connections[k]? = some there ∧
    contents sock <+: there.raw ∧ receiveRequest sock = (s.received k, some t.tag.request)
  answered : ∀ k there t, s.connections[k]? = some there → s.pool.threads k = some t →
    there.reply = none ∨ ∃ result, ended t.rest = some result ∧
      there = there.answer (s.received k) ⟨t.tag.request, result⟩

theorem answered_seen {s : Threaded} (attended : Attended s) {j : Nat} {k : Connection}
    (here : s.connections[j]? = some k) : k.reply = none ∨ s.seenAt j k = k := by
  cases thread : s.pool.threads j with
  | none => exact Or.inr (seen_unsettled s (no_outcome s thread) k)
  | some t =>
    rcases attended.answered j k t here thread with unanswered | ⟨result, returned, same⟩
    · exact Or.inl unanswered
    · right
      have settled : s.outcome j = some ⟨t.tag.request, result⟩ := by
        rw [Threaded.outcome, thread, Option.bind_some, settles_ended returned]
        rfl
      rw [seen_settled s settled]
      exact same.symm

theorem user_connections {w after : World} {move : Move}
    (own : ∀ k draws sock, move ≠ .serve k draws sock) (taken : w.Step move after) {j : Nat}
    {k : Connection} (here : w.connections[j]? = some k) :
    ∃ k', after.connections[j]? = some k' ∧ k'.raw = k.raw ∧ k'.reply = k.reply ∧
      k'.exchange = k.exchange := by
  have finished {i : Nat} {old : Connection} (there : w.connections[i]? = some old)
      (handled : List Message) : ∃ k', (w.connections.set i (old.finish handled))[j]? = some k' ∧
        k'.raw = k.raw ∧ k'.reply = k.reply ∧ k'.exchange = k.exchange := by
    by_cases same : i = j
    · subst same
      rw [here] at there
      cases there
      obtain ⟨inside, -⟩ := List.getElem?_eq_some_iff.mp here
      exact ⟨_, List.getElem?_set_self inside, rfl, rfl, rfl⟩
    · exact ⟨k, by rw [List.getElem?_set_ne same]; exact here, rfl, rfl, rfl⟩
  cases taken with
  | launch _ _ => exact ⟨k, here, rfl, rfl, rfl⟩
  | kill _ => exact ⟨k, here, rfl, rfl, rfl⟩
  | unsent _ _ _ => exact ⟨k, here, rfl, rfl, rfl⟩
  | ask _ _ _ =>
    obtain ⟨inside, -⟩ := List.getElem?_eq_some_iff.mp here
    exact ⟨k, (List.getElem?_append_left inside).trans here, rfl, rfl, rfl⟩
  | refuse _ _ _ _ => exact absurd rfl (own _ _ _)
  | serve _ _ _ _ => exact absurd rfl (own _ _ _)
  | finish _ there _ _ _ => exact finished there _
  | astray _ there _ _ _ _ _ _ => exact finished there _

theorem attended_user {s : Threaded} (attended : Attended s) {move : Move} {after : World}
    (own : ∀ k draws sock, move ≠ .serve k draws sock) (taken : s.world.Step move after) :
    Attended { s with processes := after.processes, connections := after.connections } where
  pool := attended.pool
  inside k t thread := by
    obtain ⟨there, sock, here, arrived, received⟩ := attended.inside k t thread
    obtain ⟨k', here', raw, -, -⟩ := user_connections own taken here
    exact ⟨k', sock, here', raw ▸ arrived, received⟩
  answered k there t here thread := by
    obtain ⟨before, -, here', -, -⟩ := attended.inside k t thread
    obtain ⟨k', there', -, reply, exchange⟩ := user_connections own taken here'
    obtain rfl : k' = there := Option.some.inj (there'.symm.trans here)
    rcases attended.answered k before t here' thread with unanswered | ⟨result, returned, same⟩
    · exact Or.inl (reply.trans unanswered)
    · refine Or.inr ⟨result, returned, ?_⟩
      have kept_reply := reply.trans (congrArg Connection.reply same)
      have kept_exchange := exchange.trans (congrArg Connection.exchange same)
      obtain ⟨owner, client, op, raw, exchange, reply, handled⟩ := k'
      dsimp only [Connection.answer] at kept_reply kept_exchange ⊢
      rw [kept_reply, kept_exchange]

theorem attended_set {s : Threaded} (attended : Attended s) {j : Nat} {old new : Connection}
    (here : s.connections[j]? = some old) (raw : new.raw = old.raw)
    (answered : ∀ t, s.pool.threads j = some t → ∃ result, ended t.rest = some result ∧
      new = new.answer (s.received j) ⟨t.tag.request, result⟩) :
    Attended { s with connections := s.connections.set j new } where
  pool := attended.pool
  inside k t thread := by
    obtain ⟨there, sock, here', arrived, received⟩ := attended.inside k t thread
    by_cases same : j = k
    · subst same
      rw [here] at here'
      cases here'
      obtain ⟨inside, -⟩ := List.getElem?_eq_some_iff.mp here
      exact ⟨new, sock, List.getElem?_set_self inside, raw ▸ arrived, received⟩
    · exact ⟨there, sock, by rw [List.getElem?_set_ne same]; exact here', arrived, received⟩
  answered k there t here' thread := by
    by_cases same : j = k
    · subst same
      obtain ⟨inside, -⟩ := List.getElem?_eq_some_iff.mp here
      obtain rfl : new = there :=
        Option.some.inj ((List.getElem?_set_self inside).symm.trans here')
      exact Or.inr (answered t thread)
    · rw [List.getElem?_set_ne same] at here'
      exact attended.answered k there t here' thread

theorem attended_step {s after : Threaded} {event : Event} (attended : Attended s)
    (orderly : Orderly s event) (taken : s.Step event after) : Attended after := by
  cases taken with
  | user own taken => exact attended_user attended own taken
  | refuse here unserved unread arrived refused =>
    apply attended_set attended here (by rfl)
    intro t thread
    rw [unread] at thread
    cases thread
  | receive here unserved unread arrived received =>
    rename_i j there draws sock worker request
    refine ⟨reach_spawn attended.pool j ⟨draws, request⟩ unread ⟨trivial, trivial, trivial⟩, ?_, ?_⟩
    · intro k t thread
      rw [set_threads] at thread
      by_cases same : k = j
      · subst same
        rw [if_pos rfl] at thread
        cases thread
        refine ⟨there, sock, here, arrived, ?_⟩
        rw [received]
        simp
      · rw [if_neg same] at thread
        obtain ⟨before, sock', here', arrived', received'⟩ := attended.inside k t thread
        refine ⟨before, sock', here', arrived', ?_⟩
        simpa [same] using received'
    · intro k before t here' thread
      rw [set_threads] at thread
      by_cases same : k = j
      · subst same
        rw [here] at here'
        cases here'
        exact Or.inl unserved
      · rw [if_neg same] at thread
        simpa [same] using attended.answered k before t here' thread
  | turn taken =>
    rename_i j pool
    rcases pool_step_cases _ _ taken with
      ⟨i, tag, impossible, -, -⟩ | ⟨i, call, answers, q, next, same_turn, thread_here, rfl⟩
    · cases impossible
    · cases same_turn
      refine ⟨.next attended.pool ⟨orderly.1, taken⟩, ?_, ?_⟩
      · intro k t thread
        rw [set_threads] at thread
        split at thread
        · rename_i same
          subst same
          cases thread
          exact attended.inside k ⟨call, answers, .statement q next⟩ thread_here
        · exact attended.inside k t thread
      · intro k before t here' thread
        rw [set_threads] at thread
        split at thread
        · rename_i same
          subst same
          left
          rcases attended.answered k before _ here' thread_here with
            unanswered | ⟨result, returned, -⟩
          · exact unanswered
          · cases returned
        · exact attended.answered k before t here' thread
  | answer here unserved thread returned =>
    apply attended_set attended here (by rfl)
    intro t there
    rw [thread] at there
    cases there
    exact ⟨_, returned, rfl⟩

theorem system_attended : Invariant (threaded.restrict Orderly) Attended where
  start s first := by
    rw [show s = Threaded.initial from first]
    refine ⟨.start rfl, ?_, ?_⟩
    · intro k t impossible
      cases impossible
    · intro k there t impossible
      cases impossible
  step s event after attended taken := attended_step attended taken.1 taken.2

/-! Every step, as it is seen. -/

theorem seen_back {s : Threaded} {j : Nat} {k : Connection}
    (here : s.seen.connections[j]? = some k) :
    ∃ k', s.connections[j]? = some k' ∧ k = s.seenAt j k' := by
  replace here : (s.connections.mapIdx s.seenAt)[j]? = some k := here
  rw [List.getElem?_mapIdx] at here
  obtain ⟨k', there, same⟩ := Option.map_eq_some_iff.mp here
  exact ⟨k', there, same.symm⟩

section User
variable {s : Threaded} (attended : Attended s)
include attended

theorem arrived_seen {j : Nat} {k : Connection} (here : s.connections[j]? = some k) {sock : Socket}
    (arrived : contents sock <+: k.reply.getD []) :
    contents sock <+: (s.seenAt j k).reply.getD [] := by
  rcases answered_seen attended here with unanswered | same
  · rw [unanswered] at arrived
    rw [List.prefix_nil.mp arrived]
    exact List.nil_prefix
  · rw [same]
    exact arrived

theorem uncut_seen {move : Move} (own : ∀ k draws sock, move ≠ .serve k draws sock)
    (fetches : FetchesWhole s.world move) (lists : ListsHeaded s.world move) :
    Uncut s.seen move := by
  cases move with
  | serve k draws sock => exact absurd rfl (own k draws sock)
  | finish u env =>
    refine ⟨trivial, ?_, ?_⟩
    · intro c j k waits here op
      obtain ⟨k', there, rfl⟩ := seen_back here
      rw [seen_op] at op
      rcases fetches c j k' waits there op with nothing | whole_reply
      · exact Or.inl nothing
      · rcases answered_seen attended there with unanswered | same
        · left
          rw [whole_reply, unanswered]
          rfl
        · right
          rw [same]
          exact whole_reply
    · intro c j k waits here op
      obtain ⟨k', there, rfl⟩ := seen_back here
      rw [seen_op] at op
      exact lists c j k' waits there op
  | _ => exact ⟨trivial, trivial, trivial⟩

omit attended in
theorem finish_seen (j : Nat) (k : Connection) (handled : List Message) :
    (s.connections.set j (k.finish handled)).mapIdx s.seenAt =
      (s.connections.mapIdx s.seenAt).set j ((s.seenAt j k).finish handled) := by
  rw [List.mapIdx_set, seen_finish]

theorem ask_seen (new : Connection) : (s.connections ++ [new]).mapIdx s.seenAt =
    s.connections.mapIdx s.seenAt ++ [new] := by
  have free : s.pool.threads s.connections.length = none := by
    cases thread : s.pool.threads s.connections.length with
    | none => rfl
    | some t =>
      obtain ⟨there, -, here, -⟩ := attended.inside _ t thread
      rw [List.getElem?_eq_none (Nat.le_refl _)] at here
      cases here
  rw [List.mapIdx_append, List.mapIdx_singleton, Nat.zero_add,
    seen_unsettled s (no_outcome s free)]

theorem user_seen {move : Move} {after : World}
    (own : ∀ k draws sock, move ≠ .serve k draws sock) (taken : s.world.Step move after) :
    s.seen.Step move (Threaded.seen
      { s with processes := after.processes, connections := after.connections }) := by
  cases taken with
  | launch off started => exact .launch off started
  | kill u => exact .kill u
  | unsent idle typed silent => exact .unsent idle typed silent
  | ask idle typed sent =>
    rename_i u c op env raw
    have step : s.seen.Step (.ask u op env) _ := .ask idle typed sent
    have seen := ask_seen attended ⟨u, c, op, raw, none, none, []⟩
    have count : s.seen.connections.length = s.connections.length := List.length_mapIdx
    rw [count] at step
    show s.seen.Step _ ⟨_, _, (s.connections ++ [_]).mapIdx s.seenAt⟩
    rw [seen]
    exact step
  | refuse _ _ _ _ => exact absurd rfl (own _ _ _)
  | serve _ _ _ _ => exact absurd rfl (own _ _ _)
  | finish waits here sends arrived set =>
    rename_i u j c k env
    have step : s.seen.Step (.finish u env) _ := .finish waits (seen_here s here) sends
      (arrived_seen attended here arrived) (by rw [seen_op]; exact set)
    rw [seen_op] at step
    show s.seen.Step _ ⟨_, _, (s.connections.set j _).mapIdx s.seenAt⟩
    rw [finish_seen]
    exact step
  | astray waits here sends arrived unset listing fetching left =>
    rename_i u j c k env contacts handled p
    have step : s.seen.Step (.finish u env) _ := .astray (w := s.seen) waits (seen_here s here)
      sends (arrived_seen attended here arrived) (by rw [seen_op]; exact unset)
      (by rw [seen_op]; exact listing) (by rw [seen_op]; exact fetching) left
    show s.seen.Step _ ⟨_, _, (s.connections.set j _).mapIdx s.seenAt⟩
    rw [finish_seen]
    exact step

end User

section Served
variable {s : Threaded}

theorem refuse_seen {j : Nat} {k : Connection} {sock : Socket} {worker : WorkerRun}
    (here : s.connections[j]? = some k) (unserved : k.reply = none)
    (unread : s.pool.threads j = none) (arrived : contents sock <+: k.raw)
    (refused : receiveRequest sock = (worker, none)) (draws : Draws) :
    s.seen.Step (.serve j draws sock)
      (Threaded.seen { s with connections := s.connections.set j (k.refuse worker) }) := by
  have unsettled := no_outcome s unread
  have same (k : Connection) : s.seenAt j k = k := seen_unsettled s unsettled k
  have step : s.seen.Step (.serve j draws sock) _ :=
    .refuse (seen_here s here) (by rw [same]; exact unserved) (by rw [same]; exact arrived) refused
  show s.seen.Step _ ⟨_, _, (s.connections.set j _).mapIdx s.seenAt⟩
  rw [List.mapIdx_set, same]
  rw [same] at step
  exact step

theorem answer_seen {j : Nat} {k : Connection} {call : Call}
    {answers : List ((q : Statement) × Answer q)} {rest : Sql ServerResponse}
    {result : Except PyError ServerResponse} (here : s.connections[j]? = some k)
    (thread : s.pool.threads j = some ⟨call, answers, rest⟩) (returned : ended rest = some result) :
    Threaded.seen
        { s with
          connections := s.connections.set j (k.answer (s.received j) ⟨call.request, result⟩) } =
      s.seen := by
  have settled : s.outcome j = some ⟨call.request, result⟩ := by
    rw [Threaded.outcome, thread, Option.bind_some, settles_ended returned]
    rfl
  have same : (s.connections.set j (k.answer (s.received j) ⟨call.request, result⟩)).mapIdx
      s.seenAt = s.connections.mapIdx s.seenAt := by
    rw [List.mapIdx_set, seen_settled s settled]
    apply set_same
    rw [List.getElem?_mapIdx, here, Option.map_some, seen_settled s settled]
    rfl
  show World.mk _ _ ((s.connections.set j _).mapIdx s.seenAt) = _
  rw [same]
  rfl

theorem world_same {w v : World} (tables : w.tables = v.tables)
    (processes : w.processes = v.processes) (connections : w.connections = v.connections) :
    w = v := by
  cases w
  cases v
  cases tables
  cases processes
  cases connections
  rfl

theorem moved_seen {pool : Workers} {received : Nat → WorkerRun} {j : Nat} {t : Worker}
    {result : Option (Except PyError ServerResponse)} (thread : pool.threads j = some t)
    (others : ∀ i, i ≠ j → pool.threads i = s.pool.threads i ∧ received i = s.received i)
    {k : Connection} (here : s.connections[j]? = some k) {sock : Socket}
    (arrived : contents sock <+: k.raw)
    (request : receiveRequest sock = (received j, some t.tag.request))
    (fresh : FreshDraw s.pool.store.clients t.tag.draws t.tag.request)
    (before : s.outcome j = result.map fun r => ⟨t.tag.request, r⟩)
    (unanswered : result = none → k.reply = none)
    (kept : result ≠ none → received j = s.received j) {store : Tables}
    (effect : Effect execute (fun call : Call => handle call.draws call.request) t.tag result
      s.seen.tables (settles t.rest) store) (serial : SerialStore pool store) :
    Threaded.seen { s with pool, received } = s.seen ∨ ∃ move,
      (messaging.restrict Uncut).step s.seen move (Threaded.seen { s with pool, received }) := by
  have outcome : Threaded.outcome { s with pool, received } j =
      (settles t.rest).map fun r => ⟨t.tag.request, r⟩ := by
    rw [Threaded.outcome]
    show (pool.threads j).bind _ = _
    rw [thread]
    rfl
  have moved : (Threaded.seen { s with pool, received }).connections =
      s.seen.connections.set j (Threaded.seenAt { s with pool, received } j k) := by
    apply seen_moved here
    · intro i other
      obtain ⟨same_thread, same_run⟩ := others i other
      refine ⟨?_, same_run⟩
      show (pool.threads i).bind _ = (s.pool.threads i).bind _
      rw [same_thread]
    · exact (set_same here).symm
  rcases effect with ⟨same, stays⟩ | ⟨unsettled, settled, stored⟩
  · left
    apply world_same
    · exact serial.symm.trans stays
    · rfl
    · rw [moved]
      apply set_same
      rw [seen_here s here]
      rw [same, ← before] at outcome
      cases result with
      | none =>
        rw [seen_unsettled s before, seen_unsettled _ (outcome.trans before)]
      | some r =>
        rw [seen_settled s before, seen_settled _ (outcome.trans before)]
        exact congrArg (fun run => some (k.answer run _)) (kept (by simp)).symm
  · right
    rw [unsettled] at before
    rw [settled] at outcome
    have same : s.seenAt j k = k := seen_unsettled s before k
    have step : s.seen.Step (.serve j t.tag.draws sock) _ :=
      .serve (seen_here s here) (by rw [same]; exact unanswered unsettled)
        (by rw [same]; exact arrived) request
    refine ⟨.serve j t.tag.draws sock, ⟨?_, trivial, trivial⟩, ?_⟩
    · intro asked here
      rw [request] at here
      cases here
      exact fresh
    · rw [same] at step
      have served : Threaded.seen { s with pool, received } =
          { s.seen.update j (k.answer (received j) ⟨t.tag.request,
              (run execute (handle t.tag.draws t.tag.request) s.seen.tables).2⟩) with
            tables := (run execute (handle t.tag.draws t.tag.request) s.seen.tables).1 } := by
        apply world_same
        · exact serial.symm.trans stored
        · rfl
        · rw [moved, seen_settled _ outcome]
          rfl
      rw [served]
      exact step

end Served

theorem step_seen {s after : Threaded} {event : Event} (attended : Attended s)
    (orderly : Orderly s event) (taken : s.Step event after) :
    after.seen = s.seen ∨ ∃ move, (messaging.restrict Uncut).step s.seen move after.seen := by
  cases taken with
  | user own taken =>
    exact Or.inr ⟨_, uncut_seen attended own orderly.1 orderly.2, user_seen attended own taken⟩
  | refuse here unserved unread arrived refused =>
    rename_i j there sock worker
    let draws : Draws := ⟨⟨List.replicate 16 0, rfl⟩, 1, by decide, by decide⟩
    refine Or.inr ⟨.serve j draws sock, ⟨?_, trivial, trivial⟩,
      refuse_seen here unserved unread arrived refused draws⟩
    intro request impossible
    rw [refused] at impossible
    cases impossible
  | receive here unserved unread arrived received =>
    rename_i j there draws sock worker request
    have serial : SerialStore s.pool s.seen.tables := rfl
    obtain ⟨store, effect, related⟩ :=
      serial_points.spawned s.pool j ⟨draws, request⟩ s.seen.tables attended.pool serial unread
    have thread : (s.pool.set j ⟨⟨draws, request⟩, [], handle draws request⟩).threads j =
        some ⟨⟨draws, request⟩, [], handle draws request⟩ := by
      rw [set_threads, if_pos rfl]
    have before : s.outcome j = (none : Option (Except PyError ServerResponse)).map fun r =>
        ⟨request, r⟩ := no_outcome s unread
    refine moved_seen thread ?_ here arrived ?_ ?_ before (fun _ => unserved)
      (fun settled => absurd rfl settled) effect related
    · intro i other
      rw [set_threads, if_neg other, Function.update_of_ne other]
      exact ⟨rfl, rfl⟩
    · rw [Function.update_self]
      exact received
    · exact orderly request (by rw [received]; rfl)
  | turn taken =>
    rename_i j pool
    rcases pool_step_cases _ _ taken with
      ⟨i, tag, impossible, -, -⟩ | ⟨i, call, answers, q, next, same_turn, thread, rfl⟩
    · cases impossible
    · cases same_turn
      have serial : SerialStore s.pool s.seen.tables := rfl
      obtain ⟨store, effect, related⟩ := serial_points.turned s.pool j call answers q next
        s.seen.tables attended.pool serial orderly.1 thread
      obtain ⟨there, sock, here, arrived, received⟩ := attended.inside j _ thread
      have moved : (Pool.set ⟨(execute q s.pool.store).1, s.pool.threads⟩ j
          ⟨call, answers ++ [⟨q, (execute q s.pool.store).2⟩],
            next (execute q s.pool.store).2⟩).threads j =
          some ⟨call, answers ++ [⟨q, (execute q s.pool.store).2⟩],
            next (execute q s.pool.store).2⟩ := by
        rw [set_threads, if_pos rfl]
      have before : s.outcome j = (settles (.statement q next)).map fun r =>
          ⟨call.request, r⟩ := by
        rw [Threaded.outcome, thread]
        rfl
      have fresh : FreshDraw s.pool.store.clients call.draws call.request := orderly.2 _ thread
      refine moved_seen moved ?_ here arrived received fresh before ?_ (fun _ => rfl) effect related
      · intro i other
        rw [set_threads, if_neg other]
        exact ⟨rfl, rfl⟩
      · intro unsettled
        rcases attended.answered j there _ here thread with unanswered | ⟨result, returned, -⟩
        · exact unanswered
        · rw [settles_ended returned] at unsettled
          cases unsettled
  | answer here unserved thread returned => exact Or.inl (answer_seen here thread returned)

/-- Every run of the threads is seen as a run in which requests are served one by one. -/
theorem seen_in_turn {s : Threaded} (reached : Reachable (threaded.restrict Orderly) s) :
    Reachable (messaging.restrict Uncut) s.seen := by
  apply simulated system_attended Threaded.seen _ _ reached
  · intro s first
    rw [show s = Threaded.initial from first]
    exact world_same rfl rfl rfl
  · intro s event after attended taken
    exact step_seen attended taken.1 taken.2

/-! What is seen of the clients. -/

section Fields
variable (s : Threaded) (i : Nat) (k : Connection)

theorem seen_owner : (s.seenAt i k).owner = k.owner := by
  unfold Threaded.seenAt
  cases s.outcome i <;> rfl

theorem seen_client : (s.seenAt i k).client = k.client := by
  unfold Threaded.seenAt
  cases s.outcome i <;> rfl

theorem seen_handled : (s.seenAt i k).handled = k.handled := by
  unfold Threaded.seenAt
  cases s.outcome i <;> rfl

end Fields

theorem seen_member {s : Threaded} {k : Connection} (listed : k ∈ s.connections) :
    ∃ i, s.seenAt i k ∈ s.seen.connections := by
  obtain ⟨i, here⟩ := List.mem_iff_getElem?.mp listed
  exact ⟨i, List.mem_of_getElem? (seen_here s here)⟩

theorem member_seen {s : Threaded} {k : Connection} (listed : k ∈ s.seen.connections) :
    ∃ i k', k' ∈ s.connections ∧ k = s.seenAt i k' := by
  obtain ⟨i, here⟩ := List.mem_iff_getElem?.mp listed
  obtain ⟨k', there, same⟩ := seen_back here
  exact ⟨i, k', List.mem_of_getElem? there, same⟩

theorem seen_flat (s : Threaded) {f : Connection → List Note}
    (same : ∀ i k, f (s.seenAt i k) = f k) :
    s.seen.connections.flatMap f = s.connections.flatMap f := by
  show (s.connections.mapIdx s.seenAt).flatMap f = _
  rw [List.flatMap_def, List.flatMap_def]
  congr 1
  apply List.ext_getElem?
  intro i
  rw [List.getElem?_map, List.getElem?_map, List.getElem?_mapIdx]
  cases s.connections[i]? with
  | none => rfl
  | some k => exact congrArg some (same i k)

/-! Runs that can be computed. -/

def Allowed (s : Threaded) (k : Nat) : Prop :=
  ∀ t ∈ s.pool.threads k, FreshDraw s.pool.store.clients t.tag.draws t.tag.request ∧
    (∀ name ∈ ConcurrentRegistrations.nextCheck t.rest, ∀ j < s.connections.length,
      ∀ u ∈ s.pool.threads j, ConcurrentRegistrations.nextInsert u.rest ≠ some name) ∧
    (∀ source ∈ nextFetch t.rest,
      ((s.pool.store.mailbox source).flatMap fetchRecord).length < 2 ^ 32 ∧
        ∀ j < s.connections.length, ∀ u ∈ s.pool.threads j,
          u.tag.request.clientId.bytes = source → deletesNext u.rest = false) ∧
    ∀ id ∈ nextStored t.rest, ∀ j < s.connections.length, ∀ u ∈ s.pool.threads j,
      ∀ m ∈ waitingRows u, m.id ≠ id

instance (s : Threaded) (k : Nat) : Decidable (Allowed s k) :=
  inferInstanceAs (Decidable (∀ t ∈ s.pool.threads k, _ ∧ _ ∧ _ ∧ _))

inductive Work where
  | user (deed : Deed)
  | receive (k : Nat) (draws : Draws)
  | turn (k : Nat)
  | answer (k : Nat)

def Threaded.userNext (s : Threaded) (deed : Deed) : Option Threaded :=
  (s.world.next (deed.move s.world)).map fun after =>
    { s with processes := after.processes, connections := after.connections }

def Threaded.receiveNext (s : Threaded) (k : Nat) (draws : Draws) (there : Connection) :
    Option Threaded :=
  match receiveRequest (whole there.raw) with
  | (worker, some request) =>
    if there.reply = none ∧ (s.pool.threads k).isNone ∧
        FreshDraw s.pool.store.clients draws request then
      some { s with
        pool := s.pool.set k ⟨⟨draws, request⟩, [], handle draws request⟩
        received := Function.update s.received k worker }
    else none
  | (_, none) => none

def Threaded.answerNext (s : Threaded) (k : Nat) (there : Connection) (t : Worker) :
    Option Threaded :=
  match ended t.rest with
  | some result =>
    if there.reply = none then
      some { s with connections :=
          s.connections.set k (there.answer (s.received k) ⟨t.tag.request, result⟩) }
    else none
  | none => none

def Threaded.next (s : Threaded) : Work → Option Threaded
  | .user (.serve _ _) => none
  | .user deed => s.userNext deed
  | .receive k draws => s.connections[k]?.bind (s.receiveNext k draws)
  | .turn k =>
    if Allowed s k then
      (s.pool.next execute (fun call => handle call.draws call.request) (.turn k)).map fun pool =>
        { s with pool }
    else none
  | .answer k => s.connections[k]?.bind fun there => (s.pool.threads k).bind (s.answerNext k there)

section Computed
variable {s : Threaded} (attended : Attended s)
include attended

theorem allowed_alone {k : Nat} (allowed : Allowed s k) : Orderly s (.turn k) := by
  have inside {j : Nat} {u : Worker} (thread : s.pool.threads j = some u) :
      j < s.connections.length := by
    obtain ⟨there, -, here, -⟩ := attended.inside j u thread
    exact (List.getElem?_eq_some_iff.mp here).1
  refine ⟨⟨?_, ?_, ?_⟩, fun t thread => (allowed t thread).1⟩
  · intro t name thread checks j u other
    exact (allowed t thread).2.1 name checks j (inside other) u other
  · intro t source thread fetches
    obtain ⟨fits, apart⟩ := (allowed t thread).2.2.1 source fetches
    exact ⟨fits, fun j u other => apart j (inside other) u other⟩
  · intro t id thread stores j u other
    exact (allowed t thread).2.2.2 id stores j (inside other) u other

theorem user_next {after : Threaded} {deed : Deed} (sound : Sound s.seen)
    (no_server : ∀ k draws, deed ≠ .serve k draws) (next : s.userNext deed = some after) :
    ∃ event, Orderly s event ∧ s.Step event after := by
  obtain ⟨w, moved, rfl⟩ := Option.map_eq_some_iff.mp next
  have own (k : Nat) (draws : Draws) (sock : Socket) :
      deed.move s.world ≠ .serve k draws sock := by
    cases deed with
    | serve k' draws' => exact absurd rfl (no_server k' draws')
    | _ => simp [Deed.move]
  refine ⟨.user (deed.move s.world), deed_whole ?_ deed, .user own (next_step moved)⟩
  intro k listed
  obtain ⟨i, here⟩ := List.mem_iff_getElem?.mp listed
  rcases answered_seen attended here with unanswered | same
  · left
    rw [unanswered]
    rfl
  · have seen := List.mem_of_getElem? (seen_here s here)
    rw [same] at seen
    exact replies_known sound k seen

theorem next_orderly {after : Threaded} {work : Work} (sound : Sound s.seen)
    (next : s.next work = some after) : ∃ event, Orderly s event ∧ s.Step event after := by
  cases work with
  | user deed =>
    cases deed with
    | serve k draws => cases next
    | _ => exact user_next attended sound (by simp) next
  | receive k draws =>
    obtain ⟨there, here, next⟩ := Option.bind_eq_some_iff.mp next
    unfold Threaded.receiveNext at next
    split at next
    · rename_i worker request received
      split at next
      · rename_i idle
        cases next
        refine ⟨.receive k draws (whole there.raw), ?_, .receive here idle.1
          (Option.isNone_iff_eq_none.mp idle.2.1) ?_ received⟩
        · intro asked same
          rw [received] at same
          cases same
          exact idle.2.2
        · rw [whole_contents]
      · cases next
    · cases next
  | turn k =>
    simp only [Threaded.next] at next
    split at next
    · rename_i allowed
      obtain ⟨pool, taken, rfl⟩ := Option.map_eq_some_iff.mp next
      exact ⟨.turn k, allowed_alone attended allowed, .turn taken⟩
    · cases next
  | answer k =>
    obtain ⟨there, here, next⟩ := Option.bind_eq_some_iff.mp next
    obtain ⟨⟨call, answers, rest⟩, thread, next⟩ := Option.bind_eq_some_iff.mp next
    unfold Threaded.answerNext at next
    split at next
    · rename_i result returned
      split at next
      · rename_i unserved
        cases next
        exact ⟨.answer k, trivial, .answer here unserved thread returned⟩
      · cases next
    · cases next

end Computed

theorem worked_reachable {s : Threaded} {works : List Work}
    (run : runFrom Threaded.next Threaded.initial works = some s) :
    Reachable (threaded.restrict Orderly) s := by
  have reached := run_reachable works (.start rfl) run
  clear run
  induction reached with
  | start first => exact .start first
  | next before taken ih =>
    have attended := system_attended.holds ih
    have sound := (system_known.holds (seen_in_turn ih)).sound
    obtain ⟨event, orderly, step⟩ := next_orderly attended sound taken
    exact .next ih ⟨orderly, step⟩

/-- "A" and "B" register at the same time and list each other; the fetch of "B" is being
    answered while "A" sends its "hi". -/
def bothAtOnce (a b other : Draws) : List Work :=
  [.user (.launch 0), .user (.launch 1), .user (.ask 0 (.register [0x41])),
    .user (.ask 1 (.register [0x42])), .receive 0 a, .receive 1 b, .turn 1, .turn 0, .turn 0,
    .turn 1, .answer 0, .user (.finish 0), .answer 1, .user (.finish 1),
    .user (.ask 0 .listUsers), .user (.ask 1 .listUsers), .receive 2 other, .receive 3 other,
    .turn 3, .turn 2, .answer 2, .answer 3, .user (.finish 0), .user (.finish 1),
    .user (.ask 0 (.sendText [0x42] [0x68, 0x69])), .user (.ask 1 .fetchMessages),
    .receive 5 other, .receive 4 other, .turn 4, .turn 4, .turn 5, .turn 5, .answer 5,
    .user (.finish 1), .answer 4, .user (.finish 0)]

/-! What follows. -/

/-- Whatever the order of the statements of the threads, the clients could have been
    served one after another: there is such a run with the same processes and the same
    replies, some of them earlier, and the same tables once every thread has ended. -/
theorem threads_serve_in_turn {s : Threaded} (reached : Reachable (threaded.restrict Orderly) s) :
    ∃ w : World, Reachable (messaging.restrict Uncut) w ∧ w.processes = s.processes ∧
      w.connections.length = s.connections.length ∧
      (∀ (i : Nat) (k : Connection), s.connections[i]? = some k → w.connections[i]? = some k ∨
        (k.reply = none ∧ ∃ worker e, w.connections[i]? = some (k.answer worker e))) ∧
      ((∀ i t, s.pool.threads i = some t → ended t.rest ≠ none) → w.tables = s.pool.store) := by
  have attended := system_attended.holds reached
  refine ⟨s.seen, seen_in_turn reached, rfl, List.length_mapIdx, ?_, ?_⟩
  · intro i k here
    rw [seen_here s here]
    rcases answered_seen attended here with unanswered | same
    · cases settled : s.outcome i with
      | none => exact Or.inl (congrArg some (seen_unsettled s settled k))
      | some e =>
        exact Or.inr ⟨unanswered, s.received i, e, congrArg some (seen_settled s settled k)⟩
    · exact Or.inl (congrArg some same)
  · intro all_ended
    exact ended_serial attended.pool all_ended rfl

theorem both_served_in_turn :
    let a : Draws := ⟨⟨List.replicate 16 2, rfl⟩, 1, by decide, by decide⟩
    let b : Draws := ⟨⟨List.replicate 16 3, rfl⟩, 2, by decide, by decide⟩
    let other : Draws := ⟨⟨List.replicate 16 4, rfl⟩, 3, by decide, by decide⟩
    ∃ s k w, runFrom Threaded.next Threaded.initial (bothAtOnce a b other) = some s ∧
      s.connections[5]? = some k ∧
      k.handled = [⟨a.uuid.bytes, messageTypeSendTxt, 2, [0x68, 0x69]⟩] ∧
      Reachable (messaging.restrict Uncut) w ∧ w.connections[5]? = some k := by
  intro a b other
  have served : (runFrom Threaded.next Threaded.initial (bothAtOnce a b other)).map (fun s =>
      s.connections[5]?.map fun k => (k.handled, k.reply.isSome)) =
      some (some ([⟨a.uuid.bytes, messageTypeSendTxt, 2, [0x68, 0x69]⟩], true)) := by
    decide +kernel
  obtain ⟨s, run, found⟩ := Option.map_eq_some_iff.mp served
  obtain ⟨k, here, facts⟩ := Option.map_eq_some_iff.mp found
  simp only [Prod.mk.injEq] at facts
  obtain ⟨handled, replied⟩ := facts
  obtain ⟨w, in_turn, -, -, same, -⟩ := threads_serve_in_turn (worked_reachable run)
  refine ⟨s, k, w, run, here, handled, in_turn, (same 5 k here).resolve_right ?_⟩
  rintro ⟨unanswered, -⟩
  rw [unanswered] at replied
  cases replied

/-- With any threads at work: what a client is shown was sent to it, no more often than
    it was sent, and under the name of the sender. -/
theorem threads_deliver_truly {s : Threaded} (reached : Reachable (threaded.restrict Orderly) s) :
    (∀ id, (s.connections.flatMap (shownTo id) : Multiset Note) ≤
      s.connections.flatMap (sentTo id)) ∧
    ∀ j ∈ s.connections, ∀ m ∈ j.handled, ∃ k ∈ s.connections, ∃ sent typed own,
      message k.client.contacts k.op = some sent ∧ sent.messageType = m.messageType ∧
      sent.messageContent = m.messageContent ∧ destination k.op = some typed ∧
      Registered s.seen.connections j.owner own j.client.id ∧ typed = shownName own j.client.id ∧
      k.client.id = m.clientId ∧
      (Client.getContactNameById j.client.contacts m.clientId = [] ∨
        ∃ name, Registered s.seen.connections k.owner name m.clientId ∧
          Client.getContactNameById j.client.contacts m.clientId = shownName name m.clientId) := by
  have known := system_known.holds (seen_in_turn reached)
  constructor
  · intro id
    have shown := shown_from_sent known.sound known.mailed id
    rw [seen_flat s fun i k => by rw [shownTo, seen_client, seen_handled]; rfl,
      seen_flat s fun i k => by rw [sentTo, seen_client, seen_op]; rfl] at shown
    exact shown
  · intro j listed m shown
    obtain ⟨i, seen⟩ := seen_member listed
    have handed : noteOf m ∈ (s.seenAt i j).handled.map noteOf := by
      rw [seen_handled]
      exact List.mem_map_of_mem shown
    obtain ⟨k', inside, sent, typed, own, carries, type, content, named, registered, is_own, source,
      above⟩ := given_truly known seen ((known.mailed.handed _ seen).subset handed)
    obtain ⟨i', k, there, rfl⟩ := member_seen inside
    rw [seen_client, seen_op] at carries
    rw [seen_op] at named
    rw [seen_owner, seen_client] at registered
    rw [seen_client] at is_own source above
    rw [seen_owner] at above
    exact ⟨k, there, sent, typed, own, carries, type, content, named, registered, is_own, source,
      above⟩

theorem hi_delivered_truly :
    let a : Draws := ⟨⟨List.replicate 16 2, rfl⟩, 1, by decide, by decide⟩
    let b : Draws := ⟨⟨List.replicate 16 3, rfl⟩, 2, by decide, by decide⟩
    let other : Draws := ⟨⟨List.replicate 16 4, rfl⟩, 3, by decide, by decide⟩
    ∃ s, runFrom Threaded.next Threaded.initial (bothAtOnce a b other) = some s ∧
      ∃ k ∈ s.connections, ∃ typed own, destination k.op = some typed ∧
        Registered s.seen.connections 1 own b.uuid.bytes ∧ typed = shownName own b.uuid.bytes ∧
        k.client.id = a.uuid.bytes := by
  intro a b other
  have shown : (runFrom Threaded.next Threaded.initial (bothAtOnce a b other)).map (fun s =>
      s.connections[5]?.map fun k => (k.owner, k.client.id, k.handled)) =
      some (some (1, b.uuid.bytes, [⟨a.uuid.bytes, messageTypeSendTxt, 2, [0x68, 0x69]⟩])) := by
    decide +kernel
  obtain ⟨s, run, found⟩ := Option.map_eq_some_iff.mp shown
  obtain ⟨j, here, facts⟩ := Option.map_eq_some_iff.mp found
  simp only [Prod.mk.injEq] at facts
  obtain ⟨owner, reader, handled⟩ := facts
  obtain ⟨-, truly⟩ := threads_deliver_truly (worked_reachable run)
  obtain ⟨k, inside, -, typed, own, -, -, -, named, registered, is_own, source, -⟩ :=
    truly j (List.mem_of_getElem? here) ⟨a.uuid.bytes, messageTypeSendTxt, 2, [0x68, 0x69]⟩ (by
      rw [handled]
      exact List.mem_singleton_self _)
  rw [owner, reader] at registered
  rw [reader] at is_own
  exact ⟨s, run, k, inside, typed, own, named, registered, is_own, source⟩

end InterleavedSystem
