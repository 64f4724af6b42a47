import MessageU.ContactListing

/- What the list of clients adds to the contacts, for any bytes that may come as its
   payload: ids may repeat in it, with other names, and its end may be cut off. -/
namespace ContactMerge
open ByteFields RequestFormat ClientReception ClientCredentials ContactListing

def recordCount (payload : Bytes) : Nat := payload.length / pairSize

def record (payload : Bytes) (i : Nat) : Bytes :=
  slice payload (pairSize * i) (pairSize * i + pairSize)

def recordId (payload : Bytes) (i : Nat) : Bytes := (record payload i).take fieldClientIdSize

def recordContact (payload : Bytes) (i : Nat) : Contact :=
  ⟨untilZero ((record payload i).drop fieldClientIdSize), recordId payload i, [], []⟩

/-- The first record with an id that is not known yet. -/
def NewRecord (known : List Contact) (payload : Bytes) (i : Nat) : Prop :=
  recordId payload i ∉ known.map Contact.id ∧ ∀ j < i, recordId payload j ≠ recordId payload i

instance (known : List Contact) (payload : Bytes) (i : Nat) :
    Decidable (NewRecord known payload i) :=
  inferInstanceAs (Decidable (_ ∧ _))

def newContacts (known : List Contact) (payload : Bytes) (n : Nat) : List Contact :=
  ((List.range n).filter (NewRecord known payload ·)).map (recordContact payload)

theorem record_length {payload : Bytes} {i : Nat} (complete : i < recordCount payload) :
    (record payload i).length = 271 := by
  have inside : pairSize * i + pairSize ≤ payload.length := by
    calc pairSize * i + pairSize = pairSize * (i + 1) := (Nat.mul_succ _ _).symm
      _ ≤ pairSize * recordCount payload := Nat.mul_le_mul_left _ complete
      _ ≤ payload.length := Nat.mul_div_le _ _
  rw [record, slice_length payload inside, Nat.add_sub_cancel_left]
  rfl

theorem add_record (known : List Contact) {payload : Bytes} {i : Nat}
    (complete : i < recordCount payload) :
    addContact known (record payload i) =
      if Client.isKnownContact known (recordId payload i) then known
      else known ++ [recordContact payload i] := by
  have width : ((record payload i).drop fieldClientIdSize).length = Client.nameSize := by
    rw [List.length_drop, record_length complete]
    rfl
  have cut := take_until_zero ((record payload i).drop fieldClientIdSize)
  rw [width] at cut
  unfold addContact recordContact
  dsimp only
  rw [cut, recordId]
  by_cases there : Client.isKnownContact known
    ((record payload i).take fieldClientIdSize) = true <;> simp [there]

theorem first_with (key : Nat → Bytes) (j : Nat) :
    ∃ i ≤ j, key i = key j ∧ ∀ k < i, key k ≠ key i := by
  have some_index : ∃ i, key i = key j := ⟨j, rfl⟩
  have found := Nat.find_spec some_index
  refine ⟨Nat.find some_index, Nat.find_min' some_index rfl, found, ?_⟩
  intro k earlier same
  exact Nat.find_min some_index earlier (same.trans found)

section Merge
variable (known : List Contact) (payload : Bytes)

theorem new_id_iff (n : Nat) (id : Bytes) :
    id ∈ (newContacts known payload n).map Contact.id ↔
      id ∉ known.map Contact.id ∧ ∃ i < n, recordId payload i = id := by
  simp only [newContacts, List.map_map, List.mem_map, List.mem_filter, List.mem_range,
    decide_eq_true_eq, Function.comp_apply, recordContact]
  constructor
  · rintro ⟨i, ⟨inside, unknown, -⟩, rfl⟩
    exact ⟨fun old => unknown (List.mem_map.mpr old), i, inside, rfl⟩
  · rintro ⟨unknown, j, inside, rfl⟩
    obtain ⟨i, before, same, first⟩ := first_with (recordId payload) j
    refine ⟨i, ⟨by omega, ?_, first⟩, same⟩
    rw [same]
    exact fun old => unknown (List.mem_map.mp old)

theorem known_after (n : Nat) :
    Client.isKnownContact (known ++ newContacts known payload n) (recordId payload n) = true ↔
      ¬ NewRecord known payload n := by
  rw [known_iff, List.map_append, List.mem_append, new_id_iff]
  unfold NewRecord
  by_cases before : recordId payload n ∈ known.map Contact.id
  · simp [before]
  · simp only [before, false_or, not_false_eq_true, true_and, not_forall, not_not, exists_prop]

theorem merge_records (n : Nat) (complete : n ≤ recordCount payload) :
    (List.range n).foldl (fun contacts i => addContact contacts (record payload i)) known =
      known ++ newContacts known payload n := by
  induction n with
  | zero => simp [newContacts]
  | succ n ih =>
    have next : newContacts known payload (n + 1) = newContacts known payload n ++
        if NewRecord known payload n then [recordContact payload n] else [] := by
      simp only [newContacts, List.range_succ, List.filter_append, List.map_append]
      by_cases new : NewRecord known payload n <;> simp [new]
    rw [List.range_succ, List.foldl_append, ih (by omega), List.foldl_cons, List.foldl_nil,
      add_record _ complete, next]
    by_cases new : NewRecord known payload n
    · rw [if_neg (fun there => (known_after known payload n).mp there new), if_pos new,
        List.append_assoc]
    · rw [if_pos ((known_after known payload n).mpr new), if_neg new, List.append_nil]

theorem merged_contacts : addContacts known payload =
    known ++ newContacts known payload (recordCount payload) :=
  merge_records known payload _ (Nat.le_refl _)

theorem merge_again :
    addContacts (addContacts known payload) payload = addContacts known payload := by
  have nothing : newContacts (addContacts known payload) payload (recordCount payload) = [] := by
    rw [newContacts, List.map_eq_nil_iff, List.filter_eq_nil_iff]
    intro i inside new
    obtain ⟨unknown, -⟩ := of_decide_eq_true new
    rw [merged_contacts, List.map_append, List.mem_append, new_id_iff] at unknown
    by_cases before : recordId payload i ∈ known.map Contact.id
    · exact unknown (Or.inl before)
    · exact unknown (Or.inr ⟨before, i, List.mem_range.mp inside, rfl⟩)
  rw [merged_contacts, nothing, List.append_nil]

variable {known}

theorem add_distinct (distinct : (known.map Contact.id).Nodup) (pair : Bytes) :
    ((addContact known pair).map Contact.id).Nodup := by
  unfold addContact
  dsimp only
  by_cases there : Client.isKnownContact known (pair.take fieldClientIdSize) = true
  · simpa [there] using distinct
  · have fresh := (known_iff known (pair.take fieldClientIdSize)).not.mp there
    simp only [there, Bool.not_false, ↓reduceIte, List.map_append]
    exact ServerTables.nodup_snoc distinct fresh

theorem merge_distinct (distinct : (known.map Contact.id).Nodup) :
    ((addContacts known payload).map Contact.id).Nodup := by
  unfold addContacts
  generalize List.range (payload.length / pairSize) = records
  induction records generalizing known with
  | nil => exact distinct
  | cons i rest ih => exact ih (add_distinct distinct _)

theorem merges_distinct (distinct : (known.map Contact.id).Nodup) (payloads : List Bytes) :
    ((payloads.foldl addContacts known).map Contact.id).Nodup := by
  induction payloads generalizing known with
  | nil => exact distinct
  | cons payload rest ih => exact ih (merge_distinct payload distinct)

end Merge

theorem name_of_id_of_name {contacts : List Contact}
    (distinct : (contacts.map Contact.id).Nodup) {c : Contact} (listed : c ∈ contacts) :
    Client.getContactNameById contacts (Client.getContactIdByName contacts c.name) = c.name := by
  unfold Client.getContactIdByName
  split
  · rename_i found here
    have same_name : found.name = c.name := by simpa using List.find?_some here
    rw [← same_name]
    exact field_by_id Contact.name distinct (List.mem_of_find?_eq_some here)
  · rename_i missing
    have absent := List.find?_eq_none.mp missing c listed
    simp at absent

/-- A merge appends one contact for each new id, from the first record that has it;
    a second one with the same payload does nothing; and names and ids keep together. -/
theorem contacts_merged {known : List Contact} (distinct : (known.map Contact.id).Nodup)
    (payload : Bytes) :
    let added := newContacts known payload (recordCount payload)
    addContacts known payload = known ++ added ∧
      (∀ id, id ∈ added.map Contact.id ↔
        id ∉ known.map Contact.id ∧ ∃ i < recordCount payload, recordId payload i = id) ∧
      ((addContacts known payload).map Contact.id).Nodup ∧
      addContacts (addContacts known payload) payload = addContacts known payload ∧
      ∀ payloads : List Bytes, ∀ c ∈ payloads.foldl addContacts known,
        let contacts := payloads.foldl addContacts known
        Client.getContactNameById contacts (Client.getContactIdByName contacts c.name) = c.name :=
  ⟨merged_contacts known payload, new_id_iff known payload _, merge_distinct payload distinct,
    merge_again known payload, fun payloads _ listed =>
      name_of_id_of_name (merges_distinct distinct payloads) listed⟩

theorem second_record_added :
    let known : List Contact := [⟨[0x61], List.replicate 16 1, [], []⟩]
    let payload : Bytes := List.replicate 16 1 ++ List.replicate 255 0x62 ++
      (List.replicate 16 2 ++ 0x63 :: List.replicate 254 0) ++
      (List.replicate 16 2 ++ List.replicate 255 0x64) ++ List.replicate 16 3
    addContacts known payload = known ++ [⟨[0x63], List.replicate 16 2, [], []⟩] ∧
      addContacts (addContacts known payload) payload = addContacts known payload := by
  intro known payload
  have distinct : (known.map Contact.id).Nodup := by decide
  obtain ⟨merged, -, -, again, -⟩ := contacts_merged distinct payload
  have added : newContacts known payload (recordCount payload) =
      [⟨[0x63], List.replicate 16 2, [], []⟩] := by decide +kernel
  rw [added] at merged
  exact ⟨merged, again⟩

end ContactMerge
