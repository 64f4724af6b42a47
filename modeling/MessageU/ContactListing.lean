import MessageU.ClientOperations
import MessageU.ServerRuns

/- The list of clients from the server's rows to the contacts of the client that
   asked. A name is stored as text, padded with zero bytes on the wire, and cut off
   at its first zero byte by the client. -/
namespace ContactListing
open ByteFields SegmentedStream StatementPrograms RequestFormat ServerTables ResponseFormat
open RequestHandling ServerRuns ClientReception

def shown (row : ClientRow) : Contact := ⟨untilZero row.name, row.id, [], []⟩

/-! Reception of the payload, however it is cut up. -/

theorem receive_all_contacts {sock : Socket} (flowing : Flowing sock) (received : Nat)
    (respData : Bytes) :
    ∃ rest, receiveContacts (received + (contents sock).length) received respData sock =
      (.ok (respData ++ contents sock), rest) := by
  induction left : (contents sock).length using Nat.strong_induction_on
    generalizing sock received respData with
  | _ left_bytes ih =>
    subst left
    obtain ⟨bs, rest, read, later, exhausted⟩ :=
      recv_flowing (show 0 < minResponseSize by decide) flowing
    have front := recv_contents read
    rw [receiveContacts]
    by_cases more : received < received + (contents sock).length
    · have some_bytes : bs ≠ [] := by
        intro nothing
        rw [exhausted nothing] at more
        simp at more
      have positive := List.length_pos_iff.mpr some_bytes
      have shorter : (contents rest).length < (contents sock).length := by
        rw [front, List.length_append]
        omega
      have total : received + (contents sock).length =
          received + bs.length + (contents rest).length := by
        rw [front, List.length_append, Nat.add_assoc]
      obtain ⟨after, done⟩ := ih _ shorter later (received + bs.length) (respData ++ bs) rfl
      rw [if_pos more, read]
      simp only [Nat.ne_of_gt positive, ↓reduceDIte]
      rw [total, done, front, List.append_assoc]
      exact ⟨after, rfl⟩
    · have nothing : contents sock = [] := List.eq_nil_of_length_eq_zero (by omega)
      rw [if_neg more, nothing, List.append_nil]
      exact ⟨sock, rfl⟩

theorem list_operation_done (contacts : List Contact) {clientId : Bytes} (some_id : clientId ≠ [])
    (beyond : Nat) {code : Nat} (supported : code ∈ supportedResponses) {payload : Bytes}
    (fits : payload.length < 2 ^ 32) {sock rest : Socket}
    (read : recv 7 sock = (.data (responseHeader supportedVersion code payload.length), rest))
    (flowing : Flowing rest) (joined : contents rest = payload) :
    ∃ after, ListUserOperation.doOperation contacts clientId true beyond sock =
      if code = codeError then ⟨contacts, .errorResponse, after⟩
      else if Client.maxPayloadSize < payload.length then ⟨contacts, .payloadTooBig, after⟩
      else ⟨addContacts contacts payload, .returned, after⟩ := by
  subst joined
  obtain ⟨after, gathered⟩ := receive_all_contacts flowing 0 []
  rw [Nat.zero_add, List.nil_append] at gathered
  unfold ListUserOperation.doOperation
  rw [header_taken _ _ some_id beyond supported fits read, headed]
  by_cases error : code = codeError
  · rw [if_pos error]
    exact ⟨rest, by simp [error]⟩
  · by_cases big : Client.maxPayloadSize < (contents rest).length
    · rw [if_neg error, if_pos big]
      exact ⟨rest, by simp [error, big]⟩
    · rw [if_neg error, if_neg big]
      exact ⟨after, by simp [error, big, gathered]⟩

/-! The records of the payload. -/

theorem records_sliced {width : Nat} {records : List Bytes}
    (size : ∀ r ∈ records, r.length = width) :
    (List.range records.length).map
      (fun i => slice records.flatten (width * i) (width * i + width)) = records := by
  induction records with
  | nil => rfl
  | cons r rest ih =>
    have first : r.length = width := size r List.mem_cons_self
    have head : slice (r ++ rest.flatten) (width * 0) (width * 0 + width) = r := by
      rw [← first]
      simp [slice]
    have tail : ∀ i, slice (r ++ rest.flatten) (width * (i + 1)) (width * (i + 1) + width) =
        slice rest.flatten (width * i) (width * i + width) := by
      intro i
      have moved := slice_shift r rest.flatten (width * i) (width * i + width)
      rw [first] at moved
      rw [← moved]
      congr 1 <;> rw [Nat.mul_add] <;> omega
    rw [List.length_cons, List.range_succ_eq_map, List.map_cons, List.map_map, List.flatten_cons,
      head]
    congr 1
    calc _ = (List.range rest.length).map
          (fun i => slice rest.flatten (width * i) (width * i + width)) := by
            apply List.map_congr_left
            intro i _
            exact tail i
      _ = rest := ih fun x hx => size x (List.mem_cons_of_mem r hx)

theorem add_entry {row : ClientRow} (sound : ClientRow.Sound row) (known : List Contact) :
    addContact known (listEntry row) =
      if Client.isKnownContact known row.id then known else known ++ [shown row] := by
  obtain ⟨id, name, -⟩ := sound
  have front : zeroPadded ClientManager.clientIdSize row.id = row.id := by
    simp [zeroPadded, ClientManager.clientIdSize, id]
  have width : (zeroPadded ClientManager.nameSize row.name).length = Client.nameSize := by
    simp only [zeroPadded, ClientManager.nameSize, Client.nameSize, List.length_append,
      List.length_replicate]
    omega
  have head : (listEntry row).take fieldClientIdSize = row.id := by
    rw [listEntry, front]
    exact List.take_left' id
  have tail : (listEntry row).drop fieldClientIdSize =
      zeroPadded ClientManager.nameSize row.name := by
    rw [listEntry, front]
    exact List.drop_left' id
  have cut : (zeroPadded ClientManager.nameSize row.name).take
      (((zeroPadded ClientManager.nameSize row.name).findIdx? (· == 0)).getD Client.nameSize) =
        untilZero row.name := by
    rw [← width, take_until_zero, zeroPadded, until_zero_padded]
  simp only [addContact, head, tail, cut, shown]
  by_cases there : Client.isKnownContact known row.id = true <;> simp [there]

theorem add_contacts_entries {rows : List ClientRow} (sound : ∀ r ∈ rows, ClientRow.Sound r)
    (known : List Contact) :
    addContacts known (rows.flatMap listEntry) =
      (rows.map listEntry).foldl addContact known := by
  have width : ∀ r ∈ rows.map listEntry, r.length = pairSize := by
    intro r hr
    obtain ⟨row, listed, rfl⟩ := List.mem_map.mp hr
    exact list_entry_length (sound row listed)
  have count : (rows.flatMap listEntry).length / pairSize = (rows.map listEntry).length := by
    have positive : 0 < pairSize := by decide
    rw [list_payload_length sound, List.length_map]
    exact Nat.mul_div_cancel_left _ positive
  have sliced := records_sliced width
  rw [← List.flatMap_def] at sliced
  unfold addContacts
  rw [count]
  conv_rhs => rw [← sliced, List.foldl_map]

theorem known_iff (contacts : List Contact) (id : Bytes) :
    Client.isKnownContact contacts id = true ↔ id ∈ contacts.map Contact.id := by
  simp only [Client.isKnownContact, List.any_eq_true, beq_iff_eq, List.mem_map]

theorem fold_entries {rows : List ClientRow} (sound : ∀ r ∈ rows, ClientRow.Sound r)
    (distinct : (rows.map ClientRow.id).Nodup) {known : List Contact}
    (fresh : ∀ r ∈ rows, r.id ∉ known.map Contact.id) :
    (rows.map listEntry).foldl addContact known = known ++ rows.map shown := by
  induction rows generalizing known with
  | nil => simp
  | cons row rest ih =>
    have unknown : ¬ Client.isKnownContact known row.id = true := by
      rw [known_iff]
      exact fresh row List.mem_cons_self
    simp only [List.map_cons, List.nodup_cons] at distinct
    have still_fresh : ∀ r ∈ rest, r.id ∉ (known ++ [shown row]).map Contact.id := by
      intro r hr
      rw [List.map_append, List.mem_append]
      rintro (before | new)
      · exact fresh r (List.mem_cons_of_mem row hr) before
      · have same : r.id = row.id := by simpa [shown] using new
        exact distinct.1 (same ▸ List.mem_map_of_mem hr)
    rw [List.map_cons, List.foldl_cons, add_entry (sound row List.mem_cons_self), if_neg unknown,
      ih (fun r hr => sound r (List.mem_cons_of_mem row hr)) distinct.2 still_fresh,
      List.append_assoc]
    rfl

theorem contacts_of_rows {rows : List ClientRow} (sound : ∀ r ∈ rows, ClientRow.Sound r)
    (distinct : (rows.map ClientRow.id).Nodup) :
    addContacts [] (rows.flatMap listEntry) = rows.map shown := by
  rw [add_contacts_entries sound, fold_entries sound distinct (by simp), List.nil_append]

def listed (t : Tables) (source : Bytes) : List ClientRow := t.clients.filter (·.id ≠ source)

theorem listed_sound {t : Tables} (sound : StoreSound t) (source : Bytes) :
    (∀ r ∈ listed t source, ClientRow.Sound r) ∧
      ((listed t source).map ClientRow.id).Nodup := by
  constructor
  · intro r hr
    exact sound.clients r (List.mem_of_mem_filter hr)
  · exact sound.keyed.clientIds.sublist (List.filter_sublist.map _)

theorem list_answer {t : Tables} {draws : Draws} {request : ServerRequest}
    (asked : request.requestCode = codeListClients) {resp : ServerResponse}
    (answered : (run execute (handle draws request) t).2 = .ok resp) :
    resp = ⟨supportedVersion, codeClientsList,
      (listed t request.clientId.bytes).flatMap listEntry,
      responseHeader supportedVersion codeClientsList
        ((listed t request.clientId.bytes).flatMap listEntry).length ++
          (listed t request.clientId.bytes).flatMap listEntry⟩ ∧
      resp.payload.length < 2 ^ 32 := by
  rw [handle_list draws asked, run_list_clients] at answered
  have fits := (build_ok_iff _).mp ⟨resp, answered⟩
  rw [build_ok fits] at answered
  cases answered
  exact ⟨rfl, fits⟩

theorem listing_answered {t : Tables} (sound : StoreSound t) (draws : Draws)
    {request : ServerRequest} (asked : request.requestCode = codeListClients)
    (few : (listed t request.clientId.bytes).length ≤ 15000000) :
    ∃ resp, (run execute (handle draws request) t).2 = .ok resp := by
  have rows_sound := (listed_sound sound request.clientId.bytes).1
  rw [handle_list draws asked, run_list_clients, build_ok_iff]
  show ((listed t request.clientId.bytes).flatMap listEntry).length < 2 ^ 32
  rw [list_payload_length rows_sound]
  omega

end ContactListing
