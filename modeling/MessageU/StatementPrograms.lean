import MessageU.GuardedRuns

/- Programs that talk to a shared store one atomic statement at a time. The
   same program is run alone to its end, or by one of many threads whose
   statements interleave in any order. Answers depend on the statement. -/
namespace StatementPrograms
open GuardedRuns

inductive Program (Stmt : Type) (Answer : Stmt → Type) (Err α : Type) where
  | done (value : α)
  | raise (error : Err)
  | statement (q : Stmt) (next : Answer q → Program Stmt Answer Err α)

variable {Stmt : Type} {Answer : Stmt → Type} {Err α β Store : Type}

def Program.bind : Program Stmt Answer Err α → (α → Program Stmt Answer Err β) →
    Program Stmt Answer Err β
  | .done a, f => f a
  | .raise e, _ => .raise e
  | .statement q k, f => .statement q fun r => (k r).bind f

instance : Monad (Program Stmt Answer Err) where
  pure := .done
  bind := Program.bind

def Program.except : Program Stmt Answer Err α → Program Stmt Answer Err α →
    Program Stmt Answer Err α
  | .done a, _ => .done a
  | .raise _, handler => handler
  | .statement q k, handler => .statement q fun r => (k r).except handler

def Program.outcome : Program Stmt Answer Err α → Program Stmt Answer Err (Except Err α)
  | .done a => .done (.ok a)
  | .raise e => .done (.error e)
  | .statement q k => .statement q fun r => (k r).outcome

def run (exec : (q : Stmt) → Store → Store × Answer q) :
    Program Stmt Answer Err α → Store → Store × Except Err α
  | .done a, s => (s, .ok a)
  | .raise e, s => (s, .error e)
  | .statement q k, s => run exec (k (exec q s).2) (exec q s).1

def issued (exec : (q : Stmt) → Store → Store × Answer q) :
    Program Stmt Answer Err α → Store → List Stmt
  | .done _, _ => []
  | .raise _, _ => []
  | .statement q k, s => q :: issued exec (k (exec q s).2) (exec q s).1

@[simp] theorem pure_done (a : α) : (pure a : Program Stmt Answer Err α) = .done a := rfl

@[simp] theorem bind_done (a : α) (f : α → Program Stmt Answer Err β) :
    (Program.done a >>= f) = f a := rfl

@[simp] theorem bind_raise (e : Err) (f : α → Program Stmt Answer Err β) :
    (Program.raise e >>= f) = .raise e := rfl

@[simp] theorem bind_statement (q : Stmt) (k : Answer q → Program Stmt Answer Err α)
    (f : α → Program Stmt Answer Err β) :
    (Program.statement q k >>= f) = .statement q fun r => k r >>= f := rfl

section Alone
variable (exec : (q : Stmt) → Store → Store × Answer q)

@[simp] theorem run_done (a : α) (s : Store) :
    run exec (.done a : Program Stmt Answer Err α) s = (s, .ok a) := rfl

@[simp] theorem run_raise (e : Err) (s : Store) :
    run exec (.raise e : Program Stmt Answer Err α) s = (s, .error e) := rfl

@[simp] theorem run_statement (q : Stmt) (k : Answer q → Program Stmt Answer Err α) (s : Store) :
    run exec (.statement q k) s = run exec (k (exec q s).2) (exec q s).1 := rfl

@[simp] theorem issued_done (a : α) (s : Store) :
    issued exec (.done a : Program Stmt Answer Err α) s = [] := rfl

@[simp] theorem issued_statement (q : Stmt) (k : Answer q → Program Stmt Answer Err α)
    (s : Store) :
    issued exec (.statement q k) s = q :: issued exec (k (exec q s).2) (exec q s).1 := rfl

theorem run_bind (p : Program Stmt Answer Err α) (f : α → Program Stmt Answer Err β)
    (s : Store) :
    run exec (p >>= f) s =
      match run exec p s with
      | (t, .ok a) => run exec (f a) t
      | (t, .error e) => (t, .error e) := by
  induction p generalizing s with
  | done a => rfl
  | raise e => rfl
  | statement q k ih => exact ih (exec q s).2 (exec q s).1

theorem run_outcome (p : Program Stmt Answer Err α) (s : Store) :
    run exec p.outcome s = ((run exec p s).1, .ok (run exec p s).2) := by
  induction p generalizing s with
  | done a => rfl
  | raise e => rfl
  | statement q k ih => exact ih (exec q s).2 (exec q s).1

end Alone

/-- Every statement the program can come to is allowed, whatever the answers. -/
def Program.Issues (allowed : Stmt → Prop) : Program Stmt Answer Err α → Prop
  | .done _ => True
  | .raise _ => True
  | .statement q k => allowed q ∧ ∀ r, (k r).Issues allowed

theorem issues_bind {allowed : Stmt → Prop} {p : Program Stmt Answer Err α}
    {f : α → Program Stmt Answer Err β} (first : p.Issues allowed)
    (next : ∀ a, (f a).Issues allowed) : (p >>= f).Issues allowed := by
  induction p with
  | done a => exact next a
  | raise e => trivial
  | statement q k ih => exact ⟨first.1, fun r => ih r (first.2 r)⟩

theorem run_keeps (exec : (q : Stmt) → Store → Store × Answer q) {allowed : Stmt → Prop}
    {kept : Store → Prop} (step : ∀ q s, allowed q → kept s → kept (exec q s).1)
    {p : Program Stmt Answer Err α} (issues : p.Issues allowed) {s : Store} (before : kept s) :
    kept (run exec p s).1 := by
  induction p generalizing s with
  | done a => exact before
  | raise e => exact before
  | statement q k ih => exact ih _ (issues.2 _) (step q s issues.1 before)

def Program.Yields (good : α → Prop) : Program Stmt Answer Err α → Prop
  | .done a => good a
  | .raise _ => True
  | .statement _ k => ∀ r, (k r).Yields good

theorem yields_bind {good : β → Prop} (p : Program Stmt Answer Err α)
    {f : α → Program Stmt Answer Err β} (next : ∀ a, (f a).Yields good) :
    (p >>= f).Yields good := by
  induction p with
  | done a => exact next a
  | raise e => trivial
  | statement q k ih => exact fun r => ih r

theorem yields_weaken {good better : α → Prop} (weaker : ∀ a, better a → good a)
    {p : Program Stmt Answer Err α} (yields : p.Yields better) : p.Yields good := by
  induction p with
  | done a => exact weaker a yields
  | raise e => trivial
  | statement q k ih => exact fun r => ih r (yields r)

theorem run_yields (exec : (q : Stmt) → Store → Store × Answer q) {good : α → Prop}
    {p : Program Stmt Answer Err α} (yields : p.Yields good) {s : Store} {a : α}
    (ended : (run exec p s).2 = .ok a) : good a := by
  induction p generalizing s with
  | done b =>
    cases ended
    exact yields
  | raise e => cases ended
  | statement q k ih => exact ih _ (yields _) ended

/-! Threads over one store. The tag says what a thread was started for; the
answers it has received so far are kept beside the rest of its program. -/

structure Thread (Stmt : Type) (Answer : Stmt → Type) (Err Tag α : Type) where
  tag : Tag
  answers : List ((q : Stmt) × Answer q)
  rest : Program Stmt Answer Err α

structure Pool (Store : Type) (Stmt : Type) (Answer : Stmt → Type) (Err Tag α : Type) where
  store : Store
  threads : Nat → Option (Thread Stmt Answer Err Tag α)

inductive Action (Tag : Type) where
  | spawn (i : Nat) (tag : Tag)
  | turn (i : Nat)

section Together
variable {Tag : Type} (exec : (q : Stmt) → Store → Store × Answer q)
  (program : Tag → Program Stmt Answer Err α)

def Pool.set (pool : Pool Store Stmt Answer Err Tag α) (i : Nat)
    (thread : Thread Stmt Answer Err Tag α) : Pool Store Stmt Answer Err Tag α :=
  { pool with threads := Function.update pool.threads i (some thread) }

/-- A turn runs the next statement of one thread as a single atomic step. -/
def Pool.next (pool : Pool Store Stmt Answer Err Tag α) :
    Action Tag → Option (Pool Store Stmt Answer Err Tag α)
  | .spawn i tag =>
      match pool.threads i with
      | none => some (pool.set i ⟨tag, [], program tag⟩)
      | some _ => none
  | .turn i =>
      match pool.threads i with
      | some ⟨tag, answers, .statement q k⟩ =>
          let (s, r) := exec q pool.store
          some (Pool.set ⟨s, pool.threads⟩ i ⟨tag, answers ++ [⟨q, r⟩], k r⟩)
      | _ => none

def interleaving (store : Store) : StepSystem (Pool Store Stmt Answer Err Tag α) (Action Tag) :=
  ofNext ⟨store, fun _ => none⟩ (Pool.next exec program)

theorem pool_step_cases {pool after : Pool Store Stmt Answer Err Tag α} {action : Action Tag}
    (taken : pool.next exec program action = some after) :
    (∃ i tag, action = .spawn i tag ∧ pool.threads i = none ∧
      after = pool.set i ⟨tag, [], program tag⟩) ∨
    (∃ i tag answers q k, action = .turn i ∧
      pool.threads i = some ⟨tag, answers, .statement q k⟩ ∧
      after = Pool.set ⟨(exec q pool.store).1, pool.threads⟩ i
        ⟨tag, answers ++ [⟨q, (exec q pool.store).2⟩], k (exec q pool.store).2⟩) := by
  cases action with
  | spawn i tag =>
    simp only [Pool.next] at taken
    split at taken
    · rename_i free
      exact Or.inl ⟨i, tag, rfl, free, (Option.some.inj taken).symm⟩
    · cases taken
  | turn i =>
    simp only [Pool.next] at taken
    split at taken
    · rename_i tag answers q k here
      exact Or.inr ⟨i, tag, answers, q, k, rfl, here, (Option.some.inj taken).symm⟩
    · cases taken

theorem set_threads (pool : Pool Store Stmt Answer Err Tag α) (i j : Nat)
    (thread : Thread Stmt Answer Err Tag α) :
    (pool.set i thread).threads j = if j = i then some thread else pool.threads j := by
  simp [Pool.set, Function.update_apply]

section Reached
variable {exec program} {store : Store}
  {guard : Pool Store Stmt Answer Err Tag α → Action Tag → Prop}
  {pool : Pool Store Stmt Answer Err Tag α}
  (reached : Reachable ((interleaving exec program store).restrict guard) pool)
include reached

theorem reach_spawn (i : Nat) (tag : Tag) (free : pool.threads i = none)
    (allowed : guard pool (.spawn i tag)) :
    Reachable ((interleaving exec program store).restrict guard)
      (pool.set i ⟨tag, [], program tag⟩) := by
  refine .next (l := .spawn i tag) reached ⟨allowed, ?_⟩
  show pool.next exec program (.spawn i tag) = _
  rw [Pool.next, free]

theorem reach_turn (i : Nat) {tag : Tag} {answers : List ((q : Stmt) × Answer q)} {q : Stmt}
    {k : Answer q → Program Stmt Answer Err α}
    (here : pool.threads i = some ⟨tag, answers, .statement q k⟩) (allowed : guard pool (.turn i)) :
    Reachable ((interleaving exec program store).restrict guard)
      (Pool.set ⟨(exec q pool.store).1, pool.threads⟩ i
        ⟨tag, answers ++ [⟨q, (exec q pool.store).2⟩], k (exec q pool.store).2⟩) := by
  refine .next (l := .turn i) reached ⟨allowed, ?_⟩
  show pool.next exec program (.turn i) = _
  rw [Pool.next, here]

end Reached

theorem thread_shape (shape : Tag → List ((q : Stmt) × Answer q) →
      Program Stmt Answer Err α → Prop)
    (started : ∀ tag, shape tag [] (program tag))
    (answered : ∀ tag answers q k r, shape tag answers (.statement q k) →
      shape tag (answers ++ [⟨q, r⟩]) (k r)) (store : Store) :
    Invariant (interleaving exec program store)
      (fun pool => ∀ i t, pool.threads i = some t → shape t.tag t.answers t.rest) where
  start pool first i t here := by
    simp [show pool = ⟨store, fun _ => none⟩ from first] at here
  step pool action after known taken i t here := by
    rcases pool_step_cases exec program taken with
      ⟨j, tag, -, -, rfl⟩ | ⟨j, tag, answers, q, k, -, before, rfl⟩
    · rw [set_threads] at here
      split at here
      · cases here
        exact started tag
      · exact known i t here
    · rw [set_threads] at here
      split at here
      · cases here
        exact answered tag answers q k _ (known j _ before)
      · exact known i t here

/-- What every allowed statement keeps, every interleaving keeps. -/
theorem interleaving_keeps {allowed : Stmt → Prop} {kept : Store → Prop}
    (step : ∀ q s, allowed q → kept s → kept (exec q s).1)
    (issues : ∀ tag, (program tag).Issues allowed) {store : Store} (initially : kept store) :
    Invariant (interleaving exec program store)
      (fun pool => (∀ i t, pool.threads i = some t → t.rest.Issues allowed) ∧
        kept pool.store) := by
  have shapes := thread_shape exec program (fun _ _ p => p.Issues allowed) issues
    (fun _ _ _ _ r rest => rest.2 r) store
  apply shapes.strengthen
  · intro pool first
    rw [show pool = ⟨store, fun _ => none⟩ from first]
    exact initially
  · intro pool action after known before taken
    rcases pool_step_cases exec program taken with
      ⟨i, tag, -, -, rfl⟩ | ⟨i, tag, answers, q, k, -, here, rfl⟩
    · exact before
    · exact step q pool.store (known i _ here).1 before

end Together
end StatementPrograms
