import MessageU.GuardedRuns

/- Manager.do_sql by many threads on one Manager. The connection is a field of
   the Manager: each call stores its own there before it takes the lock, and
   reads the field again for the statement, the commit and the close. A
   connection is named by the call that created it. Of sqlite3: a commit makes
   durable what ran on that connection, a close or a drop undoes the rest, and a
   closed connection raises. -/
namespace SharedConnection
open GuardedRuns

inductive Raised where
  | closedConnection
  | noConnection
  | ownError
  deriving DecidableEq, Repr

inductive Pc where
  | start
  | created
  | locked
  | executed (cursor : Nat)
  | committed (cursor : Nat)
  | released (cursor : Nat)
  | fetched
  | returned
  | unwinding (e : Raised)
  | raised (e : Raised)
  deriving DecidableEq, Repr

structure SqlCall where
  pc : Pc
  executedOn : Option Nat
  committedOn : Option Nat
  closedOn : Option Nat
  deriving DecidableEq, Repr

structure Manager where
  connection : Option Nat
  lock : Option Nat
  closed : Nat → Bool
  uncommitted : Nat → List Nat
  durable : List Nat
  calls : Nat → SqlCall

/-- One step of one call; `fails` lets sqlite3 raise for reasons of its own. -/
structure Turn where
  call : Nat
  fails : Bool

def initial : Manager :=
  ⟨none, none, fun _ => false, fun _ => [], [], fun _ => ⟨.start, none, none, none⟩⟩

def Manager.setCall (s : Manager) (i : Nat) (call : SqlCall) : Manager :=
  { s with calls := Function.update s.calls i call }

def Manager.use (s : Manager) (fails : Bool) : Except Raised Nat :=
  match s.connection with
  | none => .error .noConnection
  | some c => if s.closed c then .error .closedConnection
      else if fails then .error .ownError else .ok c

/-- The lock is released after a raise as after a commit. -/
def Manager.next (s : Manager) (turn : Turn) : Option Manager :=
  let i := turn.call
  let call := s.calls i
  match call.pc with
  | .start =>
    if turn.fails then some (s.setCall i { call with pc := .raised .ownError })
    else some (Manager.setCall
      { s with
        connection := some i
        closed := Function.update s.closed i false
        uncommitted := Function.update s.uncommitted i [] } i { call with pc := .created })
  | .created =>
    match s.lock with
    | none => some (Manager.setCall { s with lock := some i } i { call with pc := .locked })
    | some _ => none
  | .locked =>
    match s.use turn.fails with
    | .error e => some (s.setCall i { call with pc := .unwinding e })
    | .ok c =>
      some (Manager.setCall
        { s with uncommitted := Function.update s.uncommitted c (s.uncommitted c ++ [i]) } i
        { call with pc := .executed c, executedOn := some c })
  | .executed cursor =>
    match s.use turn.fails with
    | .error e => some (s.setCall i { call with pc := .unwinding e })
    | .ok c =>
      some (Manager.setCall
        { s with
          durable := s.durable ++ s.uncommitted c
          uncommitted := Function.update s.uncommitted c [] } i
        { call with pc := .committed cursor, committedOn := some c })
  | .committed cursor =>
    some (Manager.setCall { s with lock := none } i { call with pc := .released cursor })
  | .released cursor =>
    if s.closed cursor then some (s.setCall i { call with pc := .raised .closedConnection })
    else if turn.fails then some (s.setCall i { call with pc := .raised .ownError })
    else some (s.setCall i { call with pc := .fetched })
  | .fetched =>
    match s.connection with
    | none => some (s.setCall i { call with pc := .returned })
    | some c =>
      some (Manager.setCall
        { s with
          closed := Function.update s.closed c true
          uncommitted := Function.update s.uncommitted c [] } i
        { call with pc := .returned, closedOn := some c })
  | .unwinding e =>
    some (Manager.setCall { s with lock := none } i { call with pc := .raised e })
  | .returned => none
  | .raised _ => none

def doSql : StepSystem Manager Turn := ofNext initial Manager.next

/-- Between creating its connection and its last use of the field. -/
def InFlight : Pc → Prop
  | .created | .locked | .executed _ | .committed _ | .released _ | .fetched => True
  | _ => False

/-- A connection is created only while no other call is between its own and its
    last use of it. -/
def CreatesAlone (s : Manager) (turn : Turn) : Prop :=
  (s.calls turn.call).pc = .start → turn.fails = false → ∀ j, ¬ InFlight (s.calls j).pc

structure OwnConnection (s : Manager) (i : Nat) : Prop where
  executes : ∀ c, (s.calls i).executedOn = some c → c = i
  commits : ∀ c, (s.calls i).committedOn = some c → c = i
  closes : ∀ c, (s.calls i).closedOn = some c → c = i
  returns : (s.calls i).pc = .returned → (s.calls i).executedOn = some i ∧
    (s.calls i).committedOn = some i ∧ (s.calls i).closedOn = some i ∧ i ∈ s.durable
  unbroken : ∀ e, (s.calls i).pc = .unwinding e ∨ (s.calls i).pc = .raised e → e = .ownError

def Done (uncommitted durable : List Nat) (i : Nat) (call : SqlCall) : Prop :=
  match call.pc with
  | .start | .created | .locked =>
    call.executedOn = none ∧ call.committedOn = none ∧ call.closedOn = none
  | .executed cursor => cursor = i ∧ call.executedOn = some i ∧ call.committedOn = none ∧
    call.closedOn = none ∧ i ∈ uncommitted
  | .committed cursor | .released cursor => cursor = i ∧ call.executedOn = some i ∧
    call.committedOn = some i ∧ call.closedOn = none ∧ i ∈ durable
  | .fetched => call.executedOn = some i ∧ call.committedOn = some i ∧ call.closedOn = none ∧
    i ∈ durable
  | .returned => call.executedOn = some i ∧ call.committedOn = some i ∧
    call.closedOn = some i ∧ i ∈ durable
  | .unwinding e | .raised e => e = .ownError ∧ (∀ c, call.executedOn = some c → c = i) ∧
    (∀ c, call.committedOn = some c → c = i) ∧ call.closedOn = none

structure Apart (s : Manager) : Prop where
  done : ∀ i, Done (s.uncommitted i) s.durable i (s.calls i)
  current : ∀ i, InFlight (s.calls i).pc → s.connection = some i ∧ s.closed i = false

theorem done_mono {uncommitted durable durable' : List Nat} {i : Nat} {call : SqlCall}
    (done : Done uncommitted durable i call) (more : durable ⊆ durable') :
    Done uncommitted durable' i call := by
  unfold Done at done ⊢
  split at done
  · exact done
  · exact done
  · exact done
  · exact done
  · exact ⟨done.1, done.2.1, done.2.2.1, done.2.2.2.1, more done.2.2.2.2⟩
  · exact ⟨done.1, done.2.1, done.2.2.1, done.2.2.2.1, more done.2.2.2.2⟩
  · exact ⟨done.1, done.2.1, done.2.2.1, more done.2.2.2⟩
  · exact ⟨done.1, done.2.1, done.2.2.1, more done.2.2.2⟩
  · exact done
  · exact done

theorem done_own {uncommitted durable : List Nat} {i : Nat} {call : SqlCall}
    (done : Done uncommitted durable i call) :
    (∀ c, call.executedOn = some c → c = i) ∧ (∀ c, call.committedOn = some c → c = i) ∧
      ∀ c, call.closedOn = some c → c = i := by
  unfold Done at done
  split at done
  · simp [done]
  · simp [done]
  · simp [done]
  · simp [done, eq_comm]
  · simp [done, eq_comm]
  · simp [done, eq_comm]
  · simp [done, eq_comm]
  · simp [done, eq_comm]
  · exact ⟨done.2.1, done.2.2.1, by simp [done.2.2.2]⟩
  · exact ⟨done.2.1, done.2.2.1, by simp [done.2.2.2]⟩

theorem apart_set {s s' : Manager} (apart : Apart s) {i : Nat} {call : SqlCall}
    (same_calls : s'.calls = s.calls)
    (own : Done (s'.uncommitted i) s'.durable i call)
    (others : ∀ j, j ≠ i → s'.uncommitted j = s.uncommitted j)
    (more : s.durable ⊆ s'.durable)
    (current : ∀ j, InFlight (if j = i then call.pc else (s.calls j).pc) →
      s'.connection = some j ∧ s'.closed j = false) :
    Apart (s'.setCall i call) := by
  have looked_up : ∀ j, (s'.setCall i call).calls j = if j = i then call else s.calls j := by
    intro j
    simp only [Manager.setCall, Function.update_apply, same_calls]
  refine ⟨?_, ?_⟩
  · intro j
    rw [looked_up]
    split
    · rename_i here
      rw [here]
      exact own
    · rename_i other
      have kept := done_mono (apart.done j) more
      rw [← others j other] at kept
      exact kept
  · intro j flying
    rw [looked_up, apply_ite SqlCall.pc] at flying
    exact current j flying

theorem apart_stopped {s s' : Manager} (apart : Apart s) {i : Nat} {call : SqlCall}
    (same_calls : s'.calls = s.calls) (same_uncommitted : s'.uncommitted = s.uncommitted)
    (same_durable : s'.durable = s.durable) (same_connection : s'.connection = s.connection)
    (same_closed : s'.closed = s.closed) (own : Done (s.uncommitted i) s.durable i call)
    (stopped : ¬ InFlight call.pc) : Apart (s'.setCall i call) := by
  refine apart_set apart same_calls ?_ ?_ ?_ ?_
  · rw [same_uncommitted, same_durable]
    exact own
  · exact fun j _ => by rw [same_uncommitted]
  · rw [same_durable]
    exact List.Subset.refl _
  · intro j now
    rw [same_connection, same_closed]
    by_cases here : j = i
    · rw [if_pos here] at now
      exact absurd now stopped
    · rw [if_neg here] at now
      exact apart.current j now

theorem apart_failed {s : Manager} (apart : Apart s) {i : Nat} {pc : Pc}
    (not_closed : (s.calls i).closedOn = none)
    (stops : pc = .unwinding .ownError ∨ pc = .raised .ownError) :
    Apart (s.setCall i { s.calls i with pc := pc }) := by
  obtain ⟨executes, commits, -⟩ := done_own (apart.done i)
  rcases stops with rfl | rfl
  · exact apart_stopped apart rfl rfl rfl rfl rfl ⟨rfl, executes, commits, not_closed⟩ id
  · exact apart_stopped apart rfl rfl rfl rfl rfl ⟨rfl, executes, commits, not_closed⟩ id

section Alone
variable {s : Manager} (apart : Apart s) {i : Nat} (flying : InFlight (s.calls i).pc)
include apart flying

theorem flies_alone (j : Nat) (also : InFlight (s.calls j).pc) : j = i := by
  have mine := (apart.current i flying).1
  rw [(apart.current j also).1] at mine
  exact Option.some.inj mine

theorem use_own (fails : Bool) :
    s.use fails = if fails then .error .ownError else .ok i := by
  obtain ⟨mine, is_open⟩ := apart.current i flying
  simp only [Manager.use, mine, is_open, Bool.false_eq_true, ↓reduceIte]

theorem current_alone {s' : Manager} {call : SqlCall} {j : Nat}
    (mine : InFlight call.pc → s'.connection = some i ∧ s'.closed i = false)
    (now : InFlight (if j = i then call.pc else (s.calls j).pc)) :
    s'.connection = some j ∧ s'.closed j = false := by
  by_cases here : j = i
  · rw [if_pos here] at now
    exact here ▸ mine now
  · rw [if_neg here] at now
    exact absurd (flies_alone apart flying j now) here

theorem apart_moved {s' : Manager} {call : SqlCall} (same_calls : s'.calls = s.calls)
    (own : Done (s'.uncommitted i) s'.durable i call)
    (others : ∀ j, j ≠ i → s'.uncommitted j = s.uncommitted j)
    (more : s.durable ⊆ s'.durable)
    (same_connection : s'.connection = s.connection) (same_closed : s'.closed = s.closed) :
    Apart (s'.setCall i call) := by
  apply apart_set apart same_calls own others more
  intro j now
  apply current_alone apart flying _ now
  intro _
  rw [same_connection, same_closed]
  exact apart.current i flying

end Alone

theorem apart_step {s t : Manager} {turn : Turn} (apart : Apart s) (alone : CreatesAlone s turn)
    (taken : s.next turn = some t) : Apart t := by
  obtain ⟨i, fails⟩ := turn
  have done := apart.done i
  unfold Done at done
  simp only [Manager.next] at taken
  cases pc : (s.calls i).pc with
  | start =>
    simp only [pc] at taken done
    cases fails with
    | true =>
      simp only [↓reduceIte, Option.some.injEq] at taken
      exact taken ▸ apart_failed apart done.2.2 (Or.inr rfl)
    | false =>
      simp only [Bool.false_eq_true, ↓reduceIte, Option.some.injEq] at taken
      subst taken
      refine apart_set apart rfl ?_ ?_ ?_ ?_
      · exact done
      · exact fun j other => Function.update_of_ne other _ _
      · exact List.Subset.refl _
      · intro j now
        by_cases here : j = i
        · subst here
          exact ⟨rfl, Function.update_self ..⟩
        · rw [if_neg here] at now
          exact absurd now (alone pc rfl j)
  | created =>
    have flying : InFlight (s.calls i).pc := by rw [pc]; trivial
    simp only [pc] at taken done
    cases free : s.lock with
    | none =>
      simp only [free, Option.some.injEq] at taken
      subst taken
      exact apart_moved apart flying rfl done (fun _ _ => rfl) (List.Subset.refl _) rfl rfl
    | some holder =>
      simp only [free] at taken
      cases taken
  | locked =>
    have flying : InFlight (s.calls i).pc := by rw [pc]; trivial
    simp only [pc, use_own apart flying] at taken done
    cases fails with
    | true =>
      simp only [↓reduceIte, Option.some.injEq] at taken
      exact taken ▸ apart_failed apart done.2.2 (Or.inl rfl)
    | false =>
      simp only [Bool.false_eq_true, ↓reduceIte, Option.some.injEq] at taken
      subst taken
      refine apart_moved apart flying rfl ?_ ?_ (List.Subset.refl _) rfl rfl
      · refine ⟨rfl, rfl, done.2.1, done.2.2, ?_⟩
        simp
      · exact fun j other => Function.update_of_ne other _ _
  | executed cursor =>
    have flying : InFlight (s.calls i).pc := by rw [pc]; trivial
    simp only [pc, use_own apart flying] at taken done
    obtain ⟨mine, executed, -, closed, ran⟩ := done
    cases fails with
    | true =>
      simp only [↓reduceIte, Option.some.injEq] at taken
      exact taken ▸ apart_failed apart closed (Or.inl rfl)
    | false =>
      simp only [Bool.false_eq_true, ↓reduceIte, Option.some.injEq] at taken
      subst taken
      refine apart_moved apart flying rfl ?_ ?_ (List.subset_append_left _ _) rfl rfl
      · exact ⟨mine, executed, rfl, closed, List.mem_append_right _ ran⟩
      · exact fun j other => Function.update_of_ne other _ _
  | committed cursor =>
    have flying : InFlight (s.calls i).pc := by rw [pc]; trivial
    simp only [pc, Option.some.injEq] at taken done
    subst taken
    exact apart_moved apart flying rfl done (fun _ _ => rfl) (List.Subset.refl _) rfl rfl
  | released cursor =>
    have flying : InFlight (s.calls i).pc := by rw [pc]; trivial
    simp only [pc] at done
    obtain ⟨mine, executed, committed, closed, durable⟩ := done
    simp only [pc, mine, (apart.current i flying).2, Bool.false_eq_true, ↓reduceIte] at taken
    cases fails with
    | true =>
      simp only [↓reduceIte, Option.some.injEq] at taken
      exact taken ▸ apart_failed apart closed (Or.inr rfl)
    | false =>
      simp only [Bool.false_eq_true, ↓reduceIte, Option.some.injEq] at taken
      subst taken
      exact apart_moved apart flying rfl ⟨executed, committed, closed, durable⟩ (fun _ _ => rfl)
        (List.Subset.refl _) rfl rfl
  | fetched =>
    have flying : InFlight (s.calls i).pc := by rw [pc]; trivial
    simp only [pc, (apart.current i flying).1, Option.some.injEq] at taken done
    subst taken
    obtain ⟨executed, committed, -, durable⟩ := done
    refine apart_set apart rfl ?_ ?_ ?_ ?_
    · exact ⟨executed, committed, rfl, durable⟩
    · exact fun j other => Function.update_of_ne other _ _
    · exact List.Subset.refl _
    · exact fun j now => current_alone apart flying (fun flying => absurd flying id) now
  | unwinding e =>
    simp only [pc, Option.some.injEq] at taken done
    subst taken
    exact apart_stopped apart rfl rfl rfl rfl rfl done id
  | returned =>
    simp only [pc] at taken
    cases taken
  | raised e =>
    simp only [pc] at taken
    cases taken

theorem calls_apart : Invariant (doSql.restrict CreatesAlone) Apart where
  start s first := by
    rw [show s = initial from first]
    exact ⟨fun i => ⟨rfl, rfl, rfl⟩, fun i flying => absurd flying id⟩
  step s turn t apart taken := apart_step apart taken.1 taken.2

theorem own_of_apart {s : Manager} (apart : Apart s) (i : Nat) : OwnConnection s i := by
  have done := apart.done i
  obtain ⟨executes, commits, closes⟩ := done_own done
  refine ⟨executes, commits, closes, ?_, ?_⟩
  · intro returned
    unfold Done at done
    simpa only [returned] using done
  · rintro e (unwinding | raised)
    · unfold Done at done
      simp only [unwinding] at done
      exact done.1
    · unfold Done at done
      simp only [raised] at done
      exact done.1

theorem sql_calls_own {s : Manager} (reached : Reachable (doSql.restrict CreatesAlone) s)
    (i : Nat) : OwnConnection s i :=
  own_of_apart (calls_apart.holds reached) i

theorem reach_later {s t : Manager} (i : Nat)
    (reached : Reachable (doSql.restrict CreatesAlone) s) (begun : (s.calls i).pc ≠ .start)
    (taken : s.next ⟨i, false⟩ = some t) : Reachable (doSql.restrict CreatesAlone) t :=
  .next reached ⟨fun fresh => absurd fresh begun, taken⟩

theorem reach_created {s t : Manager} (i : Nat)
    (reached : Reachable (doSql.restrict CreatesAlone) s) (alone : ∀ j, ¬ InFlight (s.calls j).pc)
    (taken : s.next ⟨i, false⟩ = some t) : Reachable (doSql.restrict CreatesAlone) t :=
  .next reached ⟨fun _ _ => alone, taken⟩

theorem two_calls_own : ∃ s, (s.calls 0).pc = .returned ∧ (s.calls 1).pc = .returned ∧
    s.durable = [0, 1] ∧ OwnConnection s 0 ∧ OwnConnection s 1 := by
  have start : Reachable (doSql.restrict CreatesAlone) initial := .start rfl
  have created := reach_created 0 start (fun _ => id) rfl
  have locked := reach_later 0 created (by decide) rfl
  have executed := reach_later 0 locked (by decide) rfl
  have committed := reach_later 0 executed (by decide) rfl
  have released := reach_later 0 committed (by decide) rfl
  have fetched := reach_later 0 released (by decide) rfl
  have returned := reach_later 0 fetched (by decide) rfl
  have created := reach_created 1 returned (fun | 0 => id | _ + 1 => id) rfl
  have locked := reach_later 1 created (by decide) rfl
  have executed := reach_later 1 locked (by decide) rfl
  have committed := reach_later 1 executed (by decide) rfl
  have released := reach_later 1 committed (by decide) rfl
  have fetched := reach_later 1 released (by decide) rfl
  have returned := reach_later 1 fetched (by decide) rfl
  exact ⟨_, rfl, rfl, rfl, sql_calls_own returned 0, sql_calls_own returned 1⟩

/-- Call 1 creates its connection between the execute and the commit of call 0:
    call 0 commits and closes the connection of call 1 and returns without its
    statement, and call 1 raises. -/
theorem statement_lost : ∃ s, Reachable doSql s ∧ (s.calls 0).pc = .returned ∧
    (s.calls 0).committedOn = some 1 ∧ 0 ∉ s.durable ∧
    (s.calls 1).pc = .raised .closedConnection ∧ ¬ OwnConnection s 0 := by
  have first : Reachable doSql initial := .start rfl
  have replaced := run_reachable [⟨0, false⟩, ⟨0, false⟩, ⟨0, false⟩, ⟨1, false⟩] first rfl
  have returned := run_reachable [⟨0, false⟩, ⟨0, false⟩, ⟨0, false⟩, ⟨0, false⟩] replaced rfl
  have lost := run_reachable [⟨1, false⟩, ⟨1, false⟩, ⟨1, false⟩] returned rfl
  refine ⟨_, lost, rfl, rfl, by decide, rfl, fun own => ?_⟩
  exact absurd (own.commits 1 rfl) (by decide)

end SharedConnection
