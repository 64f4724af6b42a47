import MessageU.ServerRuns

/- What a registration reports against what it stored. add_client swallows every
   exception of its INSERT, so the success response follows whatever happened to
   the row. The two statements of a registration are given their fault, if any. -/
namespace RegistrationOutcome
open ByteFields GuardedRuns StatementPrograms RequestFormat ServerTables ResponseFormat
open RequestHandling ServerRuns

/-- A reported success is true of the tables: the client has a row with the
    reported id, the name and the key of its request. -/
def SuccessTrue (paramsRaw : Bytes)
    (ended : (Tables × List (Option DatabaseError)) × Except PyError ServerResponse) : Prop :=
  ∀ resp, ended.2 = .ok resp → resp.code = codeSuccessfulRegistration →
    ∃ row ∈ ended.1.1.clients, row.id = resp.payload ∧
      row.name = strip 0x11 (paramsRaw.take 255) ∧ row.publicKey = paramsRaw.drop 255

def ReachesInsert (t : Tables) (paramsRaw : Bytes) (select : Option DatabaseError) : Prop :=
  ∃ name, registrationName paramsRaw = some name ∧ select = none ∧
    name ∉ t.clients.map ClientRow.name ∧ validUtf8 (paramsRaw.drop 255) = true

theorem refusal_true (paramsRaw : Bytes) (store : Tables × List (Option DatabaseError)) :
    SuccessTrue paramsRaw (store, .ok getErrResponse) := by
  rintro resp ⟨⟩ success
  exact absurd success (by decide)

theorem raise_true (paramsRaw : Bytes) (store : Tables × List (Option DatabaseError))
    (e : PyError) : SuccessTrue paramsRaw (store, .error e) := by
  rintro resp ⟨⟩

theorem before_insert_true (uuid : ClientId) {paramsRaw : Bytes} {t : Tables}
    {select : Option DatabaseError} (insert : Option DatabaseError)
    (stops : ¬ ReachesInsert t paramsRaw select) :
    SuccessTrue paramsRaw
      (run executeFaulty (registerUser uuid paramsRaw) (t, [select, insert])) := by
  cases asks : registrationName paramsRaw with
  | none =>
    rcases register_refused uuid asks with refused | raised
    · rw [refused]
      exact refusal_true _ _
    · rw [raised]
      exact raise_true _ _ _
  | some name =>
    rw [register_program uuid asks, run_statement]
    cases select with
    | some error => exact raise_true _ _ _
    | none =>
      simp only [executeFaulty, execute]
      by_cases taken : (t.clients.filter (·.name = name)).length > 0
      · rw [if_pos taken]
        exact refusal_true _ _
      · have free := (row_found_iff ClientRow.name _ _).not.mp taken
        rw [if_neg taken, registerTail]
        have bad_key : ¬ validUtf8 (paramsRaw.drop 255) = true := fun key_ok =>
          stops ⟨name, asks, rfl, free, key_ok⟩
        rw [if_neg bad_key]
        exact raise_true _ _ _

theorem after_insert (uuid : ClientId) {paramsRaw : Bytes} {t : Tables}
    {select : Option DatabaseError} (insert : Option DatabaseError)
    (reaches : ReachesInsert t paramsRaw select) :
    run executeFaulty (registerUser uuid paramsRaw) (t, [select, insert]) =
      ((executeFaulty (.insertClient ⟨uuid.bytes, strip 0x11 (paramsRaw.take 255),
        paramsRaw.drop 255⟩) (t, [insert])).1, .ok (registered uuid)) := by
  obtain ⟨name, asks, rfl, free, key_ok⟩ := reaches
  rw [register_program uuid asks, run_statement]
  simp only [executeFaulty, execute, (row_found_iff ClientRow.name _ _).not.mpr free,
    ↓reduceIte, registerTail, key_ok, run_statement, run_done, List.tail_cons]
  rw [(registration_row asks).2]

/-- When a reported success is true, for every request and every fault. -/
theorem registration_success_iff (t : Tables) (uuid : ClientId) (paramsRaw : Bytes)
    (select insert : Option DatabaseError) :
    SuccessTrue paramsRaw
        (run executeFaulty (registerUser uuid paramsRaw) (t, [select, insert])) ↔
      (ReachesInsert t paramsRaw select →
        insert = none ∧ uuid.bytes ∉ t.clients.map ClientRow.id) := by
  constructor
  · intro holds reaches
    rw [after_insert uuid insert reaches] at holds
    obtain ⟨name, asks, -, free, -⟩ := reaches
    obtain ⟨row, stored, -, same_name, -⟩ := holds _ rfl rfl
    have unstored : row ∉ t.clients := fun old =>
      free (List.mem_map.mpr ⟨row, old, same_name.trans ((registration_row asks).2).symm⟩)
    cases insert with
    | some error => exact absurd stored unstored
    | none =>
      refine ⟨rfl, fun collides => ?_⟩
      simp only [executeFaulty, execute, if_pos collides] at stored
      exact unstored stored
  · intro condition
    by_cases reaches : ReachesInsert t paramsRaw select
    · obtain ⟨rfl, fresh⟩ := condition reaches
      rw [after_insert uuid none reaches]
      rintro resp ⟨⟩ -
      refine ⟨⟨uuid.bytes, strip 0x11 (paramsRaw.take 255), paramsRaw.drop 255⟩, ?_, rfl, rfl, rfl⟩
      simp only [executeFaulty, execute, if_neg fresh]
      exact List.mem_append_right _ (List.mem_singleton_self _)
    · exact before_insert_true uuid insert reaches

/-- A database error on the INSERT of the first registration: success is reported
    and the table stays empty. -/
theorem failed_insert_reported :
    let uuid : ClientId := ⟨List.replicate 16 1, rfl⟩
    Reachable sequential ⟨emptyTables, []⟩ ∧
      ¬ SuccessTrue (registrationPayload [0x41]) (run executeFaulty
        (registerUser uuid (registrationPayload [0x41]))
          (emptyTables, [none, some .operationalError])) := by
  intro uuid
  have reaches : ReachesInsert emptyTables (registrationPayload [0x41]) none :=
    ⟨[0x41], by decide +kernel, rfl, by simp [emptyTables], by decide +kernel⟩
  refine ⟨.start rfl, fun holds => ?_⟩
  rw [after_insert uuid _ reaches] at holds
  obtain ⟨row, stored, -⟩ := holds _ rfl rfl
  cases stored

end RegistrationOutcome
