import MessageU.StatementPrograms

/- Threads whose operations take effect at one point each. A step may settle how
   a thread is going to end while the rest of its program still runs. The operations
   in the order in which they were settled are a serial run with the same
   results, and that order only grows at its end. -/
namespace LinearizedThreads
open GuardedRuns StatementPrograms

variable {Stmt : Type} {Answer : Stmt → Type} {Err α Store Tag : Type}

def ended : Program Stmt Answer Err α → Option (Except Err α)
  | .done a => some (.ok a)
  | .raise e => some (.error e)
  | .statement _ _ => none

theorem run_ended (exec : (q : Stmt) → Store → Store × Answer q)
    {p : Program Stmt Answer Err α} {r : Except Err α} (is_over : ended p = some r) (s : Store) :
    run exec p s = (s, r) := by
  cases p with
  | done a =>
    cases is_over
    rfl
  | raise e =>
    cases is_over
    rfl
  | statement q k => cases is_over

section Serial
variable (exec : (q : Stmt) → Store → Store × Answer q)
  (program : Tag → Program Stmt Answer Err α)

def inTurn : List Tag → Store → Store × List (Except Err α)
  | [], s => (s, [])
  | tag :: later, s =>
    ((inTurn later (run exec (program tag) s).1).1,
      (run exec (program tag) s).2 :: (inTurn later (run exec (program tag) s).1).2)

theorem in_turn_snoc (tags : List Tag) (tag : Tag) (s : Store) :
    inTurn exec program (tags ++ [tag]) s =
      ((run exec (program tag) (inTurn exec program tags s).1).1,
        (inTurn exec program tags s).2 ++
          [(run exec (program tag) (inTurn exec program tags s).1).2]) := by
  induction tags generalizing s with
  | nil => rfl
  | cons first later ih => simp only [List.cons_append, inTurn, ih]

theorem in_turn_length (tags : List Tag) (s : Store) :
    (inTurn exec program tags s).2.length = tags.length := by
  induction tags generalizing s with
  | nil => rfl
  | cons first later ih => simp only [inTurn, List.length_cons, ih]

def Effect (tag : Tag) (before : Option (Except Err α)) (s : Store)
    (after : Option (Except Err α)) (t : Store) : Prop :=
  (after = before ∧ t = s) ∨
    (before = none ∧ after = some (run exec (program tag) s).2 ∧ t = (run exec (program tag) s).1)

variable (settles : Program Stmt Answer Err α → Option (Except Err α))
  (related : Pool Store Stmt Answer Err Tag α → Store → Prop)

/-- The threads that are settled, in a serial order with their results; the store
    of that serial run is related to the one the threads work on. -/
structure Linearized (store : Store) (pool : Pool Store Stmt Answer Err Tag α)
    (order : List (Nat × Tag)) : Prop where
  once : (order.map Prod.fst).Nodup
  entered : ∀ i tag, (i, tag) ∈ order →
    ∃ t, pool.threads i = some t ∧ t.tag = tag ∧ settles t.rest ≠ none
  results : ∀ i t r, pool.threads i = some t → settles t.rest = some r →
    ∃ k : Nat, order[k]? = some (i, t.tag) ∧
      (inTurn exec program (order.map Prod.snd) store).2[k]? = some r
  store : related pool (inTurn exec program (order.map Prod.snd) store).1

structure LinearizationPoints (store : Store)
    (guard : Pool Store Stmt Answer Err Tag α → Action Tag → Prop) : Prop where
  start : related ⟨store, fun _ => none⟩ store
  spawned : ∀ pool i tag s, Reachable ((interleaving exec program store).restrict guard) pool →
    related pool s → pool.threads i = none →
    ∃ t, Effect exec program tag none s (settles (program tag)) t ∧
      related (pool.set i ⟨tag, [], program tag⟩) t
  turned : ∀ pool i tag answers q k s,
    Reachable ((interleaving exec program store).restrict guard) pool → related pool s →
    guard pool (.turn i) → pool.threads i = some ⟨tag, answers, .statement q k⟩ →
    ∃ t, Effect exec program tag (settles (.statement q k)) s
        (settles (k (exec q pool.store).2)) t ∧
      related (Pool.set ⟨(exec q pool.store).1, pool.threads⟩ i
        ⟨tag, answers ++ [⟨q, (exec q pool.store).2⟩], k (exec q pool.store).2⟩) t

end Serial

section Runs
variable {exec : (q : Stmt) → Store → Store × Answer q}
  {program : Tag → Program Stmt Answer Err α}
  {settles : Program Stmt Answer Err α → Option (Except Err α)}
  {related : Pool Store Stmt Answer Err Tag α → Store → Prop} {store : Store}
  {pool : Pool Store Stmt Answer Err Tag α} {order : List (Nat × Tag)}

theorem linearized_set (before : Linearized exec program settles related store pool order)
    {s t : Store} {i : Nat} {thread : Thread Stmt Answer Err Tag α}
    (same_tag : ∀ u, pool.threads i = some u → u.tag = thread.tag)
    (effect : Effect exec program thread.tag
      ((pool.threads i).bind fun u => settles u.rest)
      (inTurn exec program (order.map Prod.snd) store).1 (settles thread.rest) t)
    (moved : related (Pool.set ⟨s, pool.threads⟩ i thread) t) :
    ∃ more, Linearized exec program settles related store (Pool.set ⟨s, pool.threads⟩ i thread)
      (order ++ more) := by
  rcases effect with ⟨unchanged, rfl⟩ | ⟨unsettled, settled, rfl⟩
  · refine ⟨[], ?_⟩
    rw [List.append_nil]
    refine ⟨before.once, ?_, ?_, moved⟩
    · intro j tag listed
      obtain ⟨u, there, tagged, settled⟩ := before.entered j tag listed
      by_cases same : j = i
      · subst j
        refine ⟨thread, (set_threads _ i i thread).trans (if_pos rfl), ?_, ?_⟩
        · rw [← same_tag u there, tagged]
        · rw [unchanged, there]
          exact settled
      · exact ⟨u, (set_threads _ i j thread).trans ((if_neg same).trans there), tagged, settled⟩
    · intro j u r there result
      rw [set_threads] at there
      split at there
      · rename_i same
        cases there
        subst j
        rw [unchanged, Option.bind_eq_some_iff] at result
        obtain ⟨old, here, result⟩ := result
        rw [← same_tag old here]
        exact before.results i old r here result
      · exact before.results j u r there result
  · have absent : i ∉ order.map Prod.fst := by
      intro listed
      obtain ⟨⟨j, tag⟩, entry, rfl⟩ := List.mem_map.mp listed
      obtain ⟨u, there, -, settled⟩ := before.entered j tag entry
      rw [there] at unsettled
      exact settled unsettled
    refine ⟨[(i, thread.tag)], ?_, ?_, ?_, ?_⟩
    · rw [List.map_append, List.nodup_append]
      refine ⟨before.once, List.nodup_singleton i, ?_⟩
      intro j old k new same
      rw [List.map_singleton, List.mem_singleton] at new
      rw [same, new] at old
      exact absent old
    · intro j tag listed
      rcases List.mem_append.mp listed with old | new
      · obtain ⟨u, there, tagged, settled⟩ := before.entered j tag old
        have other : j ≠ i := fun same => absent (same ▸ List.mem_map_of_mem (f := Prod.fst) old)
        exact ⟨u, (set_threads _ i j thread).trans ((if_neg other).trans there), tagged, settled⟩
      · rw [List.mem_singleton] at new
        cases new
        refine ⟨thread, (set_threads _ i i thread).trans (if_pos rfl), rfl, ?_⟩
        rw [settled]
        exact Option.some_ne_none _
    · intro j u r there result
      have length : (inTurn exec program (order.map Prod.snd) store).2.length = order.length := by
        rw [in_turn_length, List.length_map]
      rw [List.map_append, List.map_singleton, in_turn_snoc]
      rw [set_threads] at there
      split at there
      · rename_i same
        cases there
        subst j
        rw [settled] at result
        cases result
        refine ⟨order.length, ?_, ?_⟩
        · simp
        · rw [List.getElem?_append_right (Nat.le_of_eq length), length, Nat.sub_self]
          rfl
      · obtain ⟨k, entry, ended_so⟩ := before.results j u r there result
        obtain ⟨k_in, -⟩ := List.getElem?_eq_some_iff.mp entry
        refine ⟨k, ?_, ?_⟩
        · rw [List.getElem?_append_left k_in, entry]
        · rw [List.getElem?_append_left (length ▸ k_in), ended_so]
    · rw [List.map_append, List.map_singleton, in_turn_snoc]
      exact moved

variable {guard : Pool Store Stmt Answer Err Tag α → Action Tag → Prop}
  (points : LinearizationPoints exec program settles related store guard)
include points

theorem linearized_start :
    Linearized exec program settles related store ⟨store, fun _ => none⟩ [] := by
  refine ⟨List.nodup_nil, ?_, ?_, points.start⟩
  · intro i tag impossible
    cases impossible
  · intro i t r impossible
    cases impossible

theorem linearized_step
    (reached : Reachable ((interleaving exec program store).restrict guard) pool)
    (before : Linearized exec program settles related store pool order)
    {after : Pool Store Stmt Answer Err Tag α} {action : Action Tag}
    (taken : ((interleaving exec program store).restrict guard).step pool action after) :
    ∃ more, Linearized exec program settles related store after (order ++ more) := by
  rcases pool_step_cases exec program taken.2 with
    ⟨i, tag, rfl, free, rfl⟩ | ⟨i, tag, answers, q, k, rfl, here, rfl⟩
  · obtain ⟨t, effect, moved⟩ := points.spawned pool i tag _ reached before.store free
    apply linearized_set before (s := pool.store) ?_ ?_ moved
    · intro u there
      rw [free] at there
      cases there
    · rw [free]
      exact effect
  · obtain ⟨t, effect, moved⟩ :=
      points.turned pool i tag answers q k _ reached before.store taken.1 here
    apply linearized_set before ?_ ?_ moved
    · intro u there
      rw [here] at there
      cases there
      rfl
    · rw [here]
      exact effect

theorem linearized_run
    (reached : Reachable ((interleaving exec program store).restrict guard) pool) :
    ∃ order, Linearized exec program settles related store pool order := by
  induction reached with
  | @start pool first =>
    rw [show pool = ⟨store, fun _ => none⟩ from first]
    exact ⟨[], linearized_start points⟩
  | next before taken ih =>
    obtain ⟨order, linear⟩ := ih
    obtain ⟨more, after⟩ := linearized_step points before linear taken
    exact ⟨order ++ more, after⟩

/-- Along every run the order of the settled operations only grows at its end. -/
theorem linearized_later
    (reached : Reachable ((interleaving exec program store).restrict guard) pool)
    (before : Linearized exec program settles related store pool order)
    {after : Pool Store Stmt Answer Err Tag α}
    (later : Later ((interleaving exec program store).restrict guard) pool after) :
    ∃ more, Linearized exec program settles related store after (order ++ more) := by
  suffices Reachable ((interleaving exec program store).restrict guard) after ∧
      ∃ more, Linearized exec program settles related store after (order ++ more) from this.2
  induction later with
  | refl => exact ⟨reached, [], (List.append_nil order).symm ▸ before⟩
  | tail _ taken ih =>
    obtain ⟨action, taken⟩ := taken
    obtain ⟨mid_reached, more, mid⟩ := ih
    obtain ⟨last, moved⟩ := linearized_step points mid_reached mid taken
    exact ⟨.next mid_reached taken, more ++ last, List.append_assoc order more last ▸ moved⟩

end Runs
end LinearizedThreads
