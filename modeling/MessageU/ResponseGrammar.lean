import MessageU.ResponseFormat

/- What the client's Response constructor accepts. Its search for the code goes one
   index past the table, so that a code which is in no table is compared with the two
   bytes of memory behind it. -/
namespace ResponseGrammar
open ByteFields RequestFormat ResponseFormat

def codeField (data : Bytes) : Nat := fromBigEndian (slice data 1 3)
def sizeField (data : Bytes) : Nat := fromBigEndian (slice data 3 7)

/-- Seven bytes at least: the version, a supported code, and the size of what follows. -/
def InGrammar (data : Bytes) : Prop :=
  7 ≤ data.length ∧ data.head? = some 2 ∧ codeField data ∈ supportedResponses ∧
    sizeField data = data.length - 7

instance (data : Bytes) : Decidable (InGrammar data) :=
  inferInstanceAs (Decidable (_ ∧ _ ∧ _ ∧ _))

/-- The loop of _is_response_code_valid from an index on: its verdict, and the indices
    it reads. -/
def codeSearch (beyond code i : Nat) : Bool × List Nat :=
  if i ≤ supportedResponses.length then
    if supportedResponses.getD i beyond = code then (true, [i])
    else
      let later := codeSearch beyond code (i + 1)
      (later.1, i :: later.2)
  else (false, [])
termination_by supportedResponses.length + 1 - i

def Searched (data : Bytes) : Prop := 7 ≤ data.length ∧ data.head? = some 2

instance (data : Bytes) : Decidable (Searched data) := inferInstanceAs (Decidable (_ ∧ _))

def searchedIndices (beyond : Nat) (data : Bytes) : List Nat :=
  if Searched data then (codeSearch beyond (codeField data) 0).2 else []

def Inside (indices : List Nat) : Prop := ∀ i ∈ indices, i < supportedResponses.length

/-! The search. -/

section Search
variable (beyond code : Nat)

theorem search_finds_iff (i : Nat) :
    (codeSearch beyond code i).1 = true ↔
      ∃ j, i ≤ j ∧ j ≤ supportedResponses.length ∧ supportedResponses.getD j beyond = code := by
  fun_induction codeSearch beyond code i with
  | case1 i within here => exact iff_of_true rfl ⟨i, Nat.le_refl i, within, here⟩
  | case2 i within other later ih =>
    refine ih.trans ?_
    constructor
    · rintro ⟨j, after, inside, here⟩
      exact ⟨j, by omega, inside, here⟩
    · rintro ⟨j, after, inside, here⟩
      have different : i ≠ j := fun same => other (same ▸ here)
      exact ⟨j, by omega, inside, here⟩
  | case3 i past =>
    refine iff_of_false (by simp) ?_
    rintro ⟨j, after, inside, -⟩
    omega

theorem search_inside_iff (i : Nat) (within : i ≤ supportedResponses.length) :
    Inside (codeSearch beyond code i).2 ↔
      ∃ j, i ≤ j ∧ j < supportedResponses.length ∧ supportedResponses.getD j beyond = code := by
  unfold Inside
  fun_induction codeSearch beyond code i with
  | case1 i _ here =>
    rw [List.forall_mem_singleton]
    constructor
    · intro inside
      exact ⟨i, Nat.le_refl i, inside, here⟩
    · rintro ⟨j, after, inside, -⟩
      omega
  | case2 i _ other later ih =>
    rw [List.forall_mem_cons]
    constructor
    · rintro ⟨inside, rest⟩
      obtain ⟨j, after, still, here⟩ := (ih inside).mp rest
      exact ⟨j, by omega, still, here⟩
    · rintro ⟨j, after, inside, here⟩
      have different : i ≠ j := fun same => other (same ▸ here)
      exact ⟨by omega, (ih (by omega)).mpr ⟨j, by omega, inside, here⟩⟩
  | case3 i past => exact absurd within past

theorem table_mem_iff :
    code ∈ supportedResponses ↔
      ∃ j, 0 ≤ j ∧ j < supportedResponses.length ∧ supportedResponses.getD j beyond = code := by
  rw [List.mem_iff_getElem]
  constructor
  · rintro ⟨j, inside, here⟩
    exact ⟨j, Nat.zero_le j, inside, by rw [List.getD_eq_getElem _ _ inside, here]⟩
  · rintro ⟨j, -, inside, here⟩
    exact ⟨j, inside, by rw [← here, List.getD_eq_getElem _ _ inside]⟩

theorem search_inside : Inside (codeSearch beyond code 0).2 ↔ code ∈ supportedResponses :=
  (search_inside_iff beyond code 0 (Nat.zero_le _)).trans (table_mem_iff beyond code).symm

theorem verdict_searched : (codeSearch beyond code 0).1 = isResponseCodeValid beyond code := by
  rw [Bool.eq_iff_iff, search_finds_iff]
  simp only [isResponseCodeValid, List.any_eq_true, List.mem_range, beq_iff_eq, Nat.zero_le,
    true_and, Nat.lt_succ_iff]

theorem code_valid_iff :
    isResponseCodeValid beyond code = true ↔ code ∈ supportedResponses ∨ code = beyond := by
  rw [← verdict_searched, search_finds_iff, table_mem_iff beyond]
  constructor
  · rintro ⟨j, after, within, here⟩
    rcases Nat.lt_or_eq_of_le within with inside | last
    · exact Or.inl ⟨j, after, inside, here⟩
    · subst last
      exact Or.inr here.symm
  · rintro (⟨j, after, inside, here⟩ | same)
    · exact ⟨j, after, Nat.le_of_lt inside, here⟩
    · exact ⟨supportedResponses.length, Nat.zero_le _, Nat.le_refl _, same.symm⟩

end Search

/-! The constructor. -/

theorem constructor_accepts_iff (beyond : Nat) (data : Bytes) :
    (ClientResponse.ofData beyond data).isValid = true ↔
      Searched data ∧ isResponseCodeValid beyond (codeField data) = true ∧
        sizeField data = data.length - 7 := by
  by_cases long : 7 ≤ data.length
  · match data, long with
    | a :: b :: c :: d :: e :: f :: g :: payload, long =>
      have version : (a :: b :: c :: d :: e :: f :: g :: payload).head? = some 2 ↔
          a.toNat = supportedVersion := by
        rw [List.head?_cons, Option.some.injEq, ← UInt8.toNat_inj]
        rfl
      have code : codeField (a :: b :: c :: d :: e :: f :: g :: payload) =
          fromBigEndian [b, c] := rfl
      have size : sizeField (a :: b :: c :: d :: e :: f :: g :: payload) =
          fromBigEndian [d, e, f, g] := rfl
      have enough : ¬ (a :: b :: c :: d :: e :: f :: g :: payload).length < minResponseSize :=
        Nat.not_lt.mpr long
      simp only [ClientResponse.ofData, if_neg enough, Searched, version, code, size,
        List.getD_cons_zero, List.getD_cons_succ, assembled_half, assembled_word]
      split_ifs <;> simp_all [minResponseSize]
  · have short : data.length < minResponseSize := Nat.not_le.mp long
    simp [ClientResponse.ofData, short, Searched, long]

theorem verdict_iff (beyond : Nat) (data : Bytes) :
    ((ClientResponse.ofData beyond data).isValid = true ↔ InGrammar data) ↔
      ¬ (Searched data ∧ codeField data ∉ supportedResponses ∧ codeField data = beyond ∧
        sizeField data = data.length - 7) := by
  rw [constructor_accepts_iff, code_valid_iff]
  unfold InGrammar Searched
  tauto

/-- The constructor accepts its grammar, whatever lies behind the table, and stays
    inside it, for the vectors that are refused before the search or have a code of
    the table. The search stays inside for no other codes, and what lies behind the table
    then decides only about the code that is the same. -/
theorem response_grammar_iff (data : Bytes) (code : Nat) :
    ((∀ beyond < 2 ^ 16,
        ((ClientResponse.ofData beyond data).isValid = true ↔ InGrammar data) ∧
          Inside (searchedIndices beyond data)) ↔
      (Searched data → codeField data ∈ supportedResponses)) ∧
    ((∀ beyond < 2 ^ 16, Inside (codeSearch beyond code 0).2) ↔ code ∈ supportedResponses) ∧
    ∀ beyond, ((ClientResponse.ofData beyond data).isValid = true ↔ InGrammar data) ↔
      ¬ (Searched data ∧ codeField data ∉ supportedResponses ∧ codeField data = beyond ∧
        sizeField data = data.length - 7) := by
  refine ⟨?_, ?_, fun beyond => verdict_iff beyond data⟩
  · unfold searchedIndices
    constructor
    · intro exact_inside searched
      obtain ⟨-, inside⟩ := exact_inside 0 (by decide)
      rw [if_pos searched] at inside
      exact (search_inside 0 _).mp inside
    · intro known beyond _
      constructor
      · rw [verdict_iff]
        rintro ⟨searched, unknown, -⟩
        exact unknown (known searched)
      · by_cases searched : Searched data
        · rw [if_pos searched]
          exact (search_inside beyond _).mpr (known searched)
        · rw [if_neg searched]
          intro i impossible
          cases impossible
  · constructor
    · intro inside
      exact (search_inside 0 code).mp (inside 0 (by decide))
    · intro known beyond _
      exact (search_inside beyond code).mpr known

/-- Code 3000 is in no table; the same two bytes behind the table let it pass. -/
theorem code_behind_table_accepted :
    let data : Bytes := [2, 0x0b, 0xb8, 0, 0, 0, 0]
    codeField data = 3000 ∧ ¬ InGrammar data ∧
      (ClientResponse.ofData 3000 data).isValid = true ∧
      (ClientResponse.ofData 0 data).isValid = false ∧
      ∀ beyond, ¬ Inside (searchedIndices beyond data) := by
  intro data
  refine ⟨by decide, by decide, by decide, by decide, ?_⟩
  intro beyond
  rw [searchedIndices, if_pos (by decide), search_inside]
  decide

end ResponseGrammar
