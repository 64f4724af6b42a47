import MessageU.ContactListing
import MessageU.StoreInvariant

/- Names that the server keeps apart and the client does not. The server compares
   whole names, zero bytes and all; the client shows a name up to its first zero
   byte and looks an id up by what it shows. -/
namespace DisplayedNames
open ByteFields GuardedRuns StatementPrograms RequestFormat ServerTables ResponseFormat
open RequestHandling ServerRuns ClientReception ClientCredentials ContactListing StoreInvariant

/-- A name that is `common`, or goes on with a zero byte behind it. -/
def BeginsAs (common name : Bytes) : Prop := name = common ∨ ∃ rest, name = common ++ 0 :: rest

def Separable (rows : List ClientRow) : Prop :=
  ∀ a ∈ rows, ∀ b ∈ rows, a ≠ b →
    ¬ ∃ common, (0 : Byte) ∉ common ∧ BeginsAs common a.name ∧ BeginsAs common b.name

/-- Different clients have different contact names, and the name shown for a client
    leads back to its id. -/
structure KeptApart (rows : List ClientRow) (contacts : List Contact) : Prop where
  names : ∀ x ∈ contacts, ∀ y ∈ contacts, x.id ≠ y.id → x.name ≠ y.name
  ids : ∀ row ∈ rows, ∃ contact ∈ contacts, contact.id = row.id ∧
    Client.getContactIdByName contacts contact.name = row.id

theorem until_zero_has_none (bs : Bytes) : (0 : Byte) ∉ untilZero bs := by
  intro inside
  have nonzero := List.mem_takeWhile_imp inside
  simp at nonzero

theorem begins_as_iff {common : Bytes} (free : (0 : Byte) ∉ common) (name : Bytes) :
    BeginsAs common name ↔ untilZero name = common := by
  constructor
  · rintro (rfl | ⟨rest, rfl⟩)
    · exact until_zero_free free
    · have prefix_kept : ∀ x ∈ common, (x != 0) = true := by
        intro x hx
        have nonzero : x ≠ 0 := fun zero => free (zero ▸ hx)
        simpa using nonzero
      rw [untilZero, List.takeWhile_append_of_pos prefix_kept]
      simp
  · rintro rfl
    have split := List.takeWhile_append_dropWhile (p := (· != 0)) (l := name)
    cases tail : name.dropWhile (· != 0) with
    | nil =>
      left
      rw [tail, List.append_nil] at split
      exact split.symm
    | cons x rest =>
      right
      have stopped := List.head?_dropWhile_not (· != 0) name
      rw [tail] at stopped split
      have zero : x = 0 := by simpa using stopped
      exact ⟨rest, by rw [← zero]; exact split.symm⟩

theorem separable_iff (rows : List ClientRow) :
    Separable rows ↔
      ∀ a ∈ rows, ∀ b ∈ rows, a ≠ b → untilZero a.name ≠ untilZero b.name := by
  constructor
  · intro separable a ha b hb different same
    have free := until_zero_has_none a.name
    apply separable a ha b hb different
    exact ⟨untilZero a.name, free, (begins_as_iff free _).mpr rfl,
      (begins_as_iff free _).mpr same.symm⟩
  · rintro distinct a ha b hb different ⟨common, free, left, right⟩
    apply distinct a ha b hb different
    rw [(begins_as_iff free _).mp left, (begins_as_iff free _).mp right]

theorem kept_apart_iff {rows : List ClientRow} (distinct : (rows.map ClientRow.id).Nodup) :
    KeptApart rows (rows.map shown) ↔ Separable rows := by
  rw [separable_iff]
  constructor
  · intro apart a ha b hb different same
    have ids : a.id ≠ b.id := fun equal =>
      different (List.inj_on_of_nodup_map distinct ha hb equal)
    exact apart.names (shown a) (List.mem_map_of_mem ha) (shown b) (List.mem_map_of_mem hb) ids same
  · intro separable
    constructor
    · intro x hx y hy ids
      obtain ⟨a, ha, rfl⟩ := List.mem_map.mp hx
      obtain ⟨b, hb, rfl⟩ := List.mem_map.mp hy
      exact separable a ha b hb fun same => ids (same ▸ rfl)
    · intro row hrow
      refine ⟨shown row, List.mem_map_of_mem hrow, rfl, ?_⟩
      have present : ((rows.map shown).find? (·.name == (shown row).name)).isSome := by
        rw [List.find?_isSome]
        exact ⟨shown row, List.mem_map_of_mem hrow, by simp⟩
      obtain ⟨found, first⟩ := Option.isSome_iff_exists.mp present
      obtain ⟨other, hother, rfl⟩ := List.mem_map.mp (List.mem_of_find?_eq_some first)
      have same_name := List.find?_some first
      have same : other = row := by
        by_contra different
        exact separable other hother row hrow different (by simpa [shown] using same_name)
      rw [Client.getContactIdByName, first, same]
      rfl

/-- The client keeps the listed clients apart just when no two of their names are the
    same up to a zero byte. -/
theorem listed_kept_apart_iff {s : Server} (reached : Reachable sequential s) (draws : Draws)
    {request : ServerRequest} (asked : request.requestCode = codeListClients)
    {resp : ServerResponse}
    (answered : (run execute (handle draws request) s.tables).2 = .ok resp) :
    KeptApart (listed s.tables request.clientId.bytes) (addContacts [] resp.payload) ↔
      Separable (listed s.tables request.clientId.bytes) := by
  obtain ⟨sound, distinct⟩ := listed_sound (store_sound.holds reached) request.clientId.bytes
  rw [(list_answer asked answered).1, contacts_of_rows sound distinct, kept_apart_iff distinct]

theorem two_names_kept_apart :
    let owner : ClientId := ⟨List.replicate 16 1, rfl⟩
    let other : ClientId := ⟨List.replicate 16 2, rfl⟩
    let t : Tables := ⟨[ownRow owner, otherRow other], [], 0⟩
    let request := requestOf ⟨List.replicate 16 3, rfl⟩ codeListClients []
    ∃ resp, (run execute (handle ⟨owner, 1, by decide, by decide⟩ request) t).2 = .ok resp ∧
      KeptApart [ownRow owner, otherRow other] (addContacts [] resp.payload) := by
  intro owner other t request
  obtain ⟨history, decoded⟩ := other_registered owner (show other.bytes ≠ owner.bytes by decide)
    [] (by simp) (by decide)
  have reached := restricted_reachable decoded
  obtain ⟨resp, answered⟩ := listing_answered (store_sound.holds reached)
    ⟨owner, 1, by decide, by decide⟩ (show request.requestCode = codeListClients from rfl)
    (show (listed t request.clientId.bytes).length ≤ 15000000 by decide)
  have apart := listed_kept_apart_iff reached _
    (show request.requestCode = codeListClients from rfl) answered
  have rows : listed t request.clientId.bytes = [ownRow owner, otherRow other] := by
    decide +kernel
  refine ⟨resp, answered, ?_⟩
  rw [← rows]
  refine apart.mpr ((separable_iff _).mpr ?_)
  show ∀ a ∈ listed t request.clientId.bytes, ∀ b ∈ listed t request.clientId.bytes, a ≠ b → _
  rw [rows]
  decide +kernel

/-- The names 61 00 62 and 61 00 63 are both shown as "a", and both lead to the first
    client. -/
theorem zero_byte_names_confused :
    let owner : ClientId := ⟨List.replicate 16 1, rfl⟩
    let draws : Draws := ⟨owner, 1, by decide, by decide⟩
    let request := requestOf owner codeListClients []
    ∃ s, Reachable (sequential.restrict Decoded) s ∧
      ∃ resp, (run execute (handle draws request) s.tables).2 = .ok resp ∧
        (listed s.tables owner.bytes).map ClientRow.name = [[0x61, 0, 0x62], [0x61, 0, 0x63]] ∧
        addContacts [] resp.payload = [⟨[0x61], List.replicate 16 2, [], []⟩,
          ⟨[0x61], List.replicate 16 3, [], []⟩] ∧
        ¬ KeptApart (listed s.tables owner.bytes) (addContacts [] resp.payload) := by
  intro owner draws request
  let second : ClientId := ⟨List.replicate 16 2, rfl⟩
  let third : ClientId := ⟨List.replicate 16 3, rfl⟩
  obtain ⟨_, first_in⟩ := own_messages_stored owner [] (by simp) (by decide)
  let two : Bytes := [0x61, 0, 0x62]
  let three : Bytes := [0x61, 0, 0x63]
  let secondRow : ClientRow := ⟨second.bytes, two, (registrationPayload two).drop 255⟩
  obtain ⟨_, second_in⟩ := registration_reached first_in ⟨second, 1, by decide, by decide⟩ owner
    (show registrationName (registrationPayload two) = some two by decide +kernel)
    (by decide +kernel) (show two ∉ [ownRow owner].map ClientRow.name by decide)
    (show second.bytes ∉ [ownRow owner].map ClientRow.id by decide)
  obtain ⟨history, third_in⟩ := registration_reached second_in
    ⟨third, 1, by decide, by decide⟩ owner
    (show registrationName (registrationPayload three) = some three by decide +kernel)
    (by decide +kernel) (show three ∉ [ownRow owner, secondRow].map ClientRow.name by decide)
    (show third.bytes ∉ [ownRow owner, secondRow].map ClientRow.id by decide)
  let thirdRow : ClientRow := ⟨third.bytes, three, (registrationPayload three).drop 255⟩
  let t : Tables := ⟨[ownRow owner, secondRow, thirdRow], [], 0⟩
  have sound := store_sound.holds (restricted_reachable third_in)
  obtain ⟨resp, answered⟩ := listing_answered sound draws
    (show request.requestCode = codeListClients from rfl)
    (show (listed t request.clientId.bytes).length ≤ 15000000 by decide)
  obtain ⟨rows_sound, distinct⟩ := listed_sound sound request.clientId.bytes
  have contacts : addContacts [] resp.payload = [⟨[0x61], List.replicate 16 2, [], []⟩,
      ⟨[0x61], List.replicate 16 3, [], []⟩] := by
    rw [(list_answer rfl answered).1, contacts_of_rows rows_sound distinct]
    rfl
  refine ⟨_, third_in, resp, answered, rfl, contacts, ?_⟩
  rw [contacts]
  intro apart
  exact apart.names ⟨[0x61], List.replicate 16 2, [], []⟩ (by simp)
    ⟨[0x61], List.replicate 16 3, [], []⟩ (by simp) (by decide) rfl

end DisplayedNames
