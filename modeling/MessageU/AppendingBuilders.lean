import Mathlib

/- Builders: objects with fields that calls change and an encoding that other calls
   return. One that appends each encoding to what the builds before have left returns
   all of them, so that it is right no more than once. -/
namespace AppendingBuilders
variable {Fields Change β : Type}

inductive Call (Change : Type) where
  | change (c : Change)
  | build
  deriving DecidableEq, Repr

structure Builder (Fields Change β : Type) where
  apply : Fields → Change → Fields
  encode : Fields → List β

def buildCount : List (Call Change) → Nat
  | [] => 0
  | .change _ :: rest => buildCount rest
  | .build :: rest => buildCount rest + 1

def Builder.built (b : Builder Fields Change β) : Fields → List (Call Change) → List Fields
  | _, [] => []
  | f, .change c :: rest => b.built (b.apply f c) rest
  | f, .build :: rest => f :: b.built f rest

/-- The fields at each build, and what it returns: all that was there, and their encoding. -/
def Builder.appended (b : Builder Fields Change β) :
    Fields → List β → List (Call Change) → List (Fields × List β)
  | _, _, [] => []
  | f, out, .change c :: rest => b.appended (b.apply f c) out rest
  | f, out, .build :: rest => (f, out ++ b.encode f) :: b.appended f (out ++ b.encode f) rest

section Runs
variable (b : Builder Fields Change β)

theorem built_length (f : Fields) (calls : List (Call Change)) :
    (b.built f calls).length = buildCount calls := by
  induction calls generalizing f with
  | nil => rfl
  | cons call rest ih =>
    cases call with
    | change c => exact ih (b.apply f c)
    | build =>
      simp only [Builder.built, buildCount, List.length_cons]
      rw [ih f]

theorem appended_outputs (f : Fields) (out : List β) (calls : List (Call Change)) :
    (b.appended f out calls).map Prod.fst = b.built f calls ∧
      ∀ n p, (b.appended f out calls)[n]? = some p →
        p.2 = out ++ ((b.built f calls).take (n + 1)).flatMap b.encode := by
  induction calls generalizing f out with
  | nil =>
    constructor
    · rfl
    · intro n p impossible
      simp [Builder.appended] at impossible
  | cons call rest ih =>
    cases call with
    | change c => exact ih (b.apply f c) out
    | build =>
      obtain ⟨fields, outputs⟩ := ih f (out ++ b.encode f)
      constructor
      · simp only [Builder.appended, Builder.built, List.map_cons]
        rw [fields]
      · intro n p here
        cases n with
        | zero =>
          simp only [Builder.appended, List.getElem?_cons_zero, Option.some.injEq] at here
          simp [← here, Builder.built]
        | succ n =>
          simp only [Builder.appended, List.getElem?_cons_succ] at here
          rw [outputs n p here, Builder.built, List.take_succ_cons, List.flatMap_cons,
            List.append_assoc]

theorem built_kept (inv : Fields → Prop) (kept : ∀ f c, inv f → inv (b.apply f c)) {f : Fields}
    (start : inv f) (calls : List (Call Change)) : ∀ g ∈ b.built f calls, inv g := by
  induction calls generalizing f with
  | nil => exact List.forall_mem_nil _
  | cons call rest ih =>
    cases call with
    | change c => exact ih (kept f c start)
    | build => exact List.forall_mem_cons.mpr ⟨start, ih start⟩

end Runs

/-! When the builds are right. -/

section Right
variable (b : Builder Fields Change β) {Right : Fields → List β → Prop}
  (sized : ∀ f raw, Right f raw → raw.length = (b.encode f).length)
include sized

theorem late_builds_wrong (f : Fields) {out : List β} (some_out : out ≠ [])
    (calls : List (Call Change)) : ∀ p ∈ b.appended f out calls, ¬ Right p.1 p.2 := by
  induction calls generalizing f out with
  | nil =>
    intro p impossible
    cases impossible
  | cons call rest ih =>
    cases call with
    | change c => exact ih (b.apply f c) some_out
    | build =>
      have longer := List.length_pos_of_ne_nil some_out
      have more : out ++ b.encode f ≠ [] := by
        simp [some_out]
      refine List.forall_mem_cons.mpr ⟨?_, ih f more⟩
      intro right
      have size := sized f _ right
      simp only [List.length_append] at size
      omega

/-- Every build is right just when there is no second one, and the encoding is right. -/
theorem appended_right_iff (some_encoding : ∀ f, b.encode f ≠ []) (f : Fields)
    (calls : List (Call Change)) :
    (∀ p ∈ b.appended f [] calls, Right p.1 p.2) ↔
      buildCount calls ≤ 1 ∧ ∀ g ∈ b.built f calls, Right g (b.encode g) := by
  induction calls generalizing f with
  | nil => simp [Builder.appended, Builder.built, buildCount]
  | cons call rest ih =>
    cases call with
    | change c => exact ih (b.apply f c)
    | build =>
      have later := late_builds_wrong b sized f (some_encoding f) rest
      have fields := (appended_outputs b f (b.encode f) rest).1
      have count := built_length b f rest
      simp only [Builder.appended, Builder.built, List.nil_append, List.forall_mem_cons, buildCount]
      constructor
      · rintro ⟨right, rest_right⟩
        have no_more : b.appended f (b.encode f) rest = [] :=
          List.eq_nil_iff_forall_not_mem.mpr fun p there => later p there (rest_right p there)
        rw [no_more, List.map_nil] at fields
        rw [← fields] at count ⊢
        exact ⟨by simp [← count], right, List.forall_mem_nil _⟩
      · rintro ⟨once, right, -⟩
        have no_more : b.built f rest = [] := List.length_eq_zero_iff.mp (by omega)
        rw [no_more, List.map_eq_nil_iff] at fields
        rw [fields]
        exact ⟨right, List.forall_mem_nil _⟩

end Right

end AppendingBuilders
