import Mathlib

/- Labelled step systems and what holds in every state of every run. A guard
   keeps only the steps whose state and label satisfy it, so a property of the
   guarded system speaks of the runs all of whose steps meet the guard. -/
namespace GuardedRuns
variable {State Label : Type}

structure StepSystem (State Label : Type) where
  start : State → Prop
  step : State → Label → State → Prop

inductive Reachable (sys : StepSystem State Label) : State → Prop where
  | start {s : State} (first : sys.start s) : Reachable sys s
  | next {s t : State} {l : Label} (before : Reachable sys s) (taken : sys.step s l t) :
      Reachable sys t

structure Invariant (sys : StepSystem State Label) (inv : State → Prop) : Prop where
  start : ∀ s, sys.start s → inv s
  step : ∀ s l t, inv s → sys.step s l t → inv t

theorem Invariant.holds {sys : StepSystem State Label} {inv : State → Prop}
    (kept : Invariant sys inv) {s : State} (run : Reachable sys s) : inv s := by
  induction run with
  | start first => exact kept.start _ first
  | next _ taken ih => exact kept.step _ _ _ ih taken

def StepSystem.restrict (sys : StepSystem State Label) (guard : State → Label → Prop) :
    StepSystem State Label where
  start := sys.start
  step s l t := guard s l ∧ sys.step s l t

theorem restricted_reachable {sys : StepSystem State Label} {guard : State → Label → Prop}
    {s : State} (run : Reachable (sys.restrict guard) s) : Reachable sys s := by
  induction run with
  | start first => exact .start first
  | next _ taken ih => exact .next ih taken.2

theorem finer_reachable {sys : StepSystem State Label} {guard finer : State → Label → Prop}
    (allows : ∀ s l, finer s l → guard s l) {s : State}
    (run : Reachable (sys.restrict finer) s) : Reachable (sys.restrict guard) s := by
  induction run with
  | start first => exact .start first
  | next _ taken ih => exact .next ih ⟨allows _ _ taken.1, taken.2⟩

theorem Invariant.restrict {sys : StepSystem State Label} {inv : State → Prop}
    (kept : Invariant sys inv) (guard : State → Label → Prop) :
    Invariant (sys.restrict guard) inv where
  start := kept.start
  step s l t before taken := kept.step s l t before taken.2

theorem Invariant.restrict_finer {sys : StepSystem State Label} {guard finer : State → Label → Prop}
    {inv : State → Prop} (kept : Invariant (sys.restrict guard) inv)
    (allows : ∀ s l, finer s l → guard s l) : Invariant (sys.restrict finer) inv where
  start := kept.start
  step s l t before taken := kept.step s l t before ⟨allows s l taken.1, taken.2⟩

theorem Invariant.and {sys : StepSystem State Label} {left right : State → Prop}
    (hl : Invariant sys left) (hr : Invariant sys right) :
    Invariant sys (fun s => left s ∧ right s) where
  start s first := ⟨hl.start s first, hr.start s first⟩
  step s l t both taken := ⟨hl.step s l t both.1 taken, hr.step s l t both.2 taken⟩

theorem Invariant.strengthen {sys : StepSystem State Label} {known inv : State → Prop}
    (base : Invariant sys known) (start : ∀ s, sys.start s → inv s)
    (step : ∀ s l t, known s → inv s → sys.step s l t → inv t) :
    Invariant sys (fun s => known s ∧ inv s) where
  start s first := ⟨base.start s first, start s first⟩
  step s l t both taken := ⟨base.step s l t both.1 taken, step s l t both.1 both.2 taken⟩

def Later (sys : StepSystem State Label) : State → State → Prop :=
  Relation.ReflTransGen fun s t => ∃ l, sys.step s l t

theorem later_reachable {sys : StepSystem State Label} {s t : State} (reached : Reachable sys s)
    (later : Later sys s t) : Reachable sys t := by
  induction later with
  | refl => exact reached
  | tail _ taken ih =>
    obtain ⟨l, taken⟩ := taken
    exact .next ih taken

/-- A view that turns every step into a step of another system, or into none,
    turns every run into a run of that system. -/
theorem simulated {State' Label' : Type} {sys : StepSystem State Label}
    {general : StepSystem State' Label'} {known : State → Prop} (base : Invariant sys known)
    (view : State → State') (start : ∀ s, sys.start s → general.start (view s))
    (step : ∀ s l t, known s → sys.step s l t →
      view t = view s ∨ ∃ m, general.step (view s) m (view t))
    {s : State} (run : Reachable sys s) : Reachable general (view s) := by
  induction run with
  | start first => exact .start (start _ first)
  | @next s t l before taken ih =>
    rcases step s l t (base.holds before) taken with same | ⟨m, moved⟩
    · exact same ▸ ih
    · exact .next ih moved

def ofNext (initial : State) (next : State → Label → Option State) : StepSystem State Label where
  start s := s = initial
  step s l t := next s l = some t

def runFrom (next : State → Label → Option State) : State → List Label → Option State
  | s, [] => some s
  | s, l :: ls => (next s l).bind (runFrom next · ls)

theorem run_reachable {initial : State} {next : State → Label → Option State} {s t : State}
    (labels : List Label) (from_s : Reachable (ofNext initial next) s)
    (run : runFrom next s labels = some t) : Reachable (ofNext initial next) t := by
  induction labels generalizing s with
  | nil =>
    simp only [runFrom, Option.some.injEq] at run
    exact run ▸ from_s
  | cons l ls ih =>
    simp only [runFrom, Option.bind_eq_some_iff] at run
    obtain ⟨mid, taken, rest⟩ := run
    exact ih (.next from_s taken) rest

theorem run_snoc (next : State → Label → Option State) (s : State) (labels : List Label)
    (l : Label) : runFrom next s (labels ++ [l]) = (runFrom next s labels).bind (next · l) := by
  induction labels generalizing s with
  | nil => simp [runFrom]
  | cons m ls ih =>
    simp only [List.cons_append, runFrom]
    cases next s m with
    | none => rfl
    | some mid => exact ih mid

theorem run_related {next : State → Label → Option State} (related : State → State → Prop)
    (refl : ∀ s, related s s) (trans : ∀ s mid t, related s mid → related mid t → related s t)
    (step : ∀ s l t, next s l = some t → related s t) {labels : List Label} {s t : State}
    (run : runFrom next s labels = some t) : related s t := by
  induction labels generalizing s with
  | nil =>
    cases run
    exact refl _
  | cons l ls ih =>
    simp only [runFrom, Option.bind_eq_some_iff] at run
    obtain ⟨mid, taken, rest⟩ := run
    exact trans s mid t (step s l mid taken) (ih rest)

/-- On the way to `t` the label `l`, taken in `s`, made something present. -/
structure Entered (next : State → Label → Option State) (present : State → Prop) (s : State)
    (l : Label) (t : State) : Prop where
  absent : ¬ present s
  appears : ∃ after labels, next s l = some after ∧ present after ∧
    runFrom next after labels = some t

theorem present_entered {initial : State} {next : State → Label → Option State}
    (present : State → Prop) (absent : ¬ present initial) {t : State}
    (reached : Reachable (ofNext initial next) t) (now : present t) :
    ∃ s l, Reachable (ofNext initial next) s ∧ Entered next present s l t := by
  induction reached with
  | start first =>
    obtain rfl := first
    exact absurd now absent
  | @next s t l before taken ih =>
    by_cases already : present s
    · obtain ⟨origin, label, from_start, entered⟩ := ih already
      obtain ⟨after, labels, moved, appeared, run⟩ := entered.appears
      have longer : runFrom next after (labels ++ [l]) = some t := by
        rw [run_snoc, run]
        exact taken
      exact ⟨origin, label, from_start, entered.absent, after, labels ++ [l], moved, appeared,
        longer⟩
    · exact ⟨s, l, before, already, t, [], taken, now, rfl⟩

end GuardedRuns
