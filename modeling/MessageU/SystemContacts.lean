import MessageU.SystemIdentity

/- Who the contacts of a client are. While the header of a list is not cut, each of them is a
   user that registered, under the name that it chose. -/
namespace SystemContacts
open ByteFields SegmentedStream GuardedRuns StatementPrograms RequestFormat ServerTables
open ResponseFormat RequestHandling ServerRuns ServerWorker HandlerOutcomes ClientReception
open ClientCredentials ClientOperations ClientFragments ContactListing MessagingSystem
open SystemRuns SystemIdentity

def ListsHeaded (w : World) : Move → Prop
  | .finish u env => ∀ c j k, w.processes u = .waiting c j → w.connections[j]? = some k →
      k.op = .listUsers → ∀ data rest, recv 7 env.sock = (.data data, rest) →
        data = [] ∨ data.length = 7
  | _ => True

/-! Contacts. -/

def ContactsKnown (clients : List ClientRow) (contacts : List Contact) : Prop :=
  ∀ contact ∈ contacts, ∃ row ∈ clients, contact = shown row

theorem known_grow {clients later : List ClientRow} (grown : clients <+: later)
    {contacts : List Contact} (known : ContactsKnown clients contacts) :
    ContactsKnown later contacts := by
  intro contact listed
  obtain ⟨row, stored, same⟩ := known contact listed
  exact ⟨row, grown.subset stored, same⟩

theorem known_added {clients rows : List ClientRow}
    (stored : ∀ row ∈ rows, ClientRow.Sound row ∧ row ∈ clients) {contacts : List Contact}
    (known : ContactsKnown clients contacts) :
    ContactsKnown clients (addContacts contacts (rows.flatMap listEntry)) := by
  rw [add_contacts_entries fun row listed => (stored row listed).1]
  induction rows generalizing contacts with
  | nil => exact known
  | cons row rest ih =>
    obtain ⟨sound, inside⟩ := stored row List.mem_cons_self
    rw [List.map_cons, List.foldl_cons, add_entry sound]
    apply ih fun row later => stored row (List.mem_cons_of_mem _ later)
    split
    · exact known
    · intro contact listed
      rcases List.mem_append.mp listed with before | new
      · exact known contact before
      · exact ⟨row, inside, List.mem_singleton.mp new⟩

section Listed
variable {clients : List ClientRow} {k : Connection} (sound : ConnectionSound clients k)
variable {env : Environment} (sends : env.sends = true)
variable (arrived : contents env.sock <+: k.reply.getD [])
include sound sends arrived

theorem list_set (lists : k.op = .listUsers)
    (uncut : ∀ data rest, recv 7 env.sock = (.data data, rest) → data = [] ∨ data.length = 7) :
    (perform k.client k.op env).how ≠ .ended .indeterminate := by
  have some_id : k.client.id ≠ [] := List.ne_nil_of_length_pos (by rw [sound.id]; decide)
  have made : ClientRequest.ofCode k.client.id codeListClients =
      .ok ⟨k.client.id, codeListClients, supportedVersion, 0, [], []⟩ := by
    simp [ClientRequest.ofCode, some_id]
  have how : (perform k.client k.op env).how = .ended (ListUserOperation.doOperation
      k.client.contacts k.client.id true env.beyond env.sock).ending := by
    rw [lists]
    simp only [perform, ListUserOperation.perform, made, sends]
  rw [how, ListUserOperation.doOperation]
  rcases header_arrived sound arrived "ListUser Operation" codeListClients with
    ⟨e, rest, ended⟩ | ⟨data, rest, read, something, short, -⟩ | ⟨resp, rest, -, -, -, -, taken⟩
  · rw [ended]
    simp
  · rcases uncut data rest read with nothing | full
    · exact absurd nothing something
    · omega
  · rw [taken, headed]
    split_ifs
    · simp
    · simp
    · dsimp only
      split <;> simp

theorem finished_known (known : ContactsKnown clients k.client.contacts) {c : Client}
    (left : (afterwards (perform k.client k.op env)).client = some c) :
    ContactsKnown clients c.contacts := by
  have unchanged (same : Unchanged k.client (perform k.client k.op env)) :
      ContactsKnown clients c.contacts := by
    rcases same with idle | off
    · rw [idle] at left
      cases left
      exact known
    · rw [off] at left
      cases left
  rcases perform_keeps k.client env k.op with
    ⟨typed, registers⟩ | ⟨lists, -⟩ | ⟨-, same⟩ | ⟨-, -, same, -⟩
  · rcases register_finished sound arrived registers with
      same | ⟨-, named | ⟨request, uuid, -, saved⟩⟩
    · exact unchanged same
    · rw [named] at left
      cases left
      exact known
    · rw [saved, Client.saveClientCreds] at left
      split at left
      · cases left
        exact known
      · cases left
        exact known
  · rcases list_finished sound sends arrived lists with ⟨-, same⟩ | ⟨rows, stored, -, added⟩
    · exact unchanged same
    · rw [added] at left
      cases left
      exact known_added stored known
  · exact unchanged (kept_unchanged same)
  · exact unchanged (kept_unchanged same)

end Listed

/-! What a step leaves of the past. -/

theorem step_history {w after : World} {move : Move} (sound : Sound w)
    (taken : w.Step move after) : w.tables.clients <+: after.tables.clients ∧
      AnswersKept w.connections after.connections ∧
      ∀ k ∈ after.connections, (∃ before ∈ w.connections, k.owner = before.owner ∧
        k.client = before.client) ∨ w.processes k.owner = .idle k.client := by
  have stays : AnswersKept w.connections w.connections := fun k listed _ =>
    ⟨k, listed, rfl, rfl, rfl⟩
  have same (k : Connection) (listed : k ∈ w.connections) :
      (∃ before ∈ w.connections, k.owner = before.owner ∧ k.client = before.client) ∨
        w.processes k.owner = .idle k.client := Or.inl ⟨k, listed, rfl, rfl⟩
  have replaced {j : Nat} {old new : Connection} (here : w.connections[j]? = some old)
      (owner : new.owner = old.owner) (client : new.client = old.client) (k : Connection)
      (listed : k ∈ w.connections.set j new) :
      (∃ before ∈ w.connections, k.owner = before.owner ∧ k.client = before.client) ∨
        w.processes k.owner = .idle k.client := by
    rcases List.mem_or_eq_of_mem_set listed with there | rfl
    · exact same k there
    · exact Or.inl ⟨old, List.mem_of_getElem? here, owner, client⟩
  cases taken with
  | launch _ _ => exact ⟨List.prefix_refl _, stays, same⟩
  | kill _ => exact ⟨List.prefix_refl _, stays, same⟩
  | unsent _ _ _ => exact ⟨List.prefix_refl _, stays, same⟩
  | ask idle typed sent =>
    refine ⟨List.prefix_refl _, fun k listed _ =>
      ⟨k, List.mem_append_left _ listed, rfl, rfl, rfl⟩, ?_⟩
    intro k listed
    rcases List.mem_append.mp listed with before | new
    · exact same k before
    · rw [List.mem_singleton.mp new]
      exact Or.inr idle
  | refuse here unserved arrived refused =>
    rename_i j k draws sock worker
    exact ⟨List.prefix_refl _, answered_kept here (k.refuse worker) rfl rfl fun _ => rfl,
      replaced here rfl rfl⟩
  | serve here unserved arrived received =>
    rename_i j k draws sock worker request
    have there := sound.connections k (List.mem_of_getElem? here)
    exact ⟨clients_grow draws request w.tables, answered_kept here (k.answer worker _) rfl rfl
      fun some_exchange => absurd (there.pending unserved) some_exchange, replaced here rfl rfl⟩
  | finish waits here sends arrived set =>
    rename_i u j c k env
    exact ⟨List.prefix_refl _, answered_kept here (k.finish _) rfl rfl fun _ => rfl,
      replaced here rfl rfl⟩
  | astray waits here sends arrived unset listing fetching left =>
    rename_i u j c k env contacts handled p
    exact ⟨List.prefix_refl _, answered_kept here (k.finish handled) rfl rfl fun _ => rfl,
      replaced here rfl rfl⟩

/-! Who is who among the contacts. -/

structure ContactsSound (w : World) : Prop where
  clients : ∀ u c, (w.processes u).client = some c → ContactsKnown w.tables.clients c.contacts
  connections : ∀ k ∈ w.connections, ContactsKnown w.tables.clients k.client.contacts

theorem put_known {clients : List ClientRow} {w : World} {u : Nat} {p : Process}
    (own : ∀ c, p.client = some c → ContactsKnown clients c.contacts)
    (others : ∀ v c, (w.processes v).client = some c → ContactsKnown clients c.contacts) :
    ∀ v c, ((w.put u p).processes v).client = some c → ContactsKnown clients c.contacts := by
  intro v c running
  rw [process_put] at running
  split at running
  · exact own c running
  · exact others v c running

theorem contacts_step {w after : World} {move : Move} (sound : Sound w) (known : ContactsSound w)
    (uncut : ListsHeaded w move) (taken : w.Step move after) : ContactsSound after := by
  obtain ⟨grown, -, opened⟩ := step_history sound taken
  refine ⟨?_, fun k listed => ?_⟩
  · cases taken with
    | launch off started =>
      rename_i u meInfo c
      have file := sound.files u
      rw [off] at file
      obtain ⟨c', again, -, none_yet, -⟩ := launched file
      have same : c = c' := Except.ok.inj (started.symm.trans again)
      refine put_known (w := w) ?_ known.clients
      rintro _ ⟨rfl⟩
      rw [same, none_yet]
      intro contact impossible
      cases impossible
    | kill u =>
      refine put_known (w := w) ?_ known.clients
      intro c impossible
      cases impossible
    | unsent idle typed silent =>
      rename_i u c op env
      refine put_known (w := w) ?_ known.clients
      intro c' left
      rcases unsent_unchanged silent with same | off
      · rw [same] at left
        cases left
        exact known.clients u c (by rw [idle]; rfl)
      · rw [off] at left
        cases left
    | ask idle typed sent =>
      rename_i u c op env raw
      refine put_known (w := w) ?_ known.clients
      rintro _ ⟨rfl⟩
      exact known.clients u c (by rw [idle]; rfl)
    | refuse _ _ _ _ => exact known.clients
    | serve _ _ _ _ => exact fun u c running => known_grow grown (known.clients u c running)
    | finish waits here sends arrived set =>
      obtain ⟨rfl, rfl, -, -, listed⟩ := waiting_connection sound waits here
      rename_i j k env
      exact put_known (w := w) (fun c left => finished_known listed sends arrived
        (known.connections k (List.mem_of_getElem? here)) left) known.clients
    | astray waits here sends arrived unset listing fetching left =>
      obtain ⟨rfl, rfl, -, -, listed⟩ := waiting_connection sound waits here
      rename_i j k env contacts handled p
      refine put_known (w := w) ?_ known.clients
      by_cases lists : k.op = .listUsers
      · exact absurd unset (list_set listed sends arrived lists (uncut _ _ _ waits here lists))
      · rcases left with rfl | rfl
        · rintro _ ⟨rfl⟩
          rw [listing lists]
          exact known.connections k (List.mem_of_getElem? here)
        · intro c impossible
          cases impossible
  · rcases opened k listed with ⟨before, there, -, client⟩ | idle
    · rw [client]
      exact known_grow grown (known.connections before there)
    · exact known_grow grown (known.clients k.owner k.client (by rw [idle]; rfl))

theorem system_contacts :
    Invariant (messaging.restrict ListsHeaded) (fun w => Sound w ∧ ContactsSound w) := by
  apply Invariant.strengthen (system_sound.restrict ListsHeaded)
  · intro w first
    rw [show w = World.initial from first]
    constructor
    · intro u c impossible
      cases impossible
    · intro k impossible
      cases impossible
  · intro w move after sound known taken
    exact contacts_step sound known taken.1 taken.2

def AskersIdentified (w : World) : Prop :=
  ∀ k ∈ w.connections,
    k.client.id = placeholder ∨ ∃ name, Registered w.connections k.owner name k.client.id

theorem system_askers :
    Invariant (messaging.restrict FreshIds) (fun w => (Sound w ∧ Identified w) ∧
      AskersIdentified w) := by
  apply Invariant.strengthen system_identified
  · intro w first
    rw [show w = World.initial from first]
    intro k impossible
    cases impossible
  · rintro w move after ⟨sound, identified⟩ askers taken k listed
    obtain ⟨-, kept, opened⟩ := step_history sound taken.2
    have later (known : ∃ name, Registered w.connections k.owner name k.client.id) :
        ∃ name, Registered after.connections k.owner name k.client.id := by
      obtain ⟨name, registered⟩ := known
      exact ⟨name, registered_kept kept registered⟩
    rcases opened k listed with ⟨before, there, owner, client⟩ | idle
    · rw [owner, client] at later ⊢
      exact (askers before there).imp_right later
    · exact ((identified.processes k.owner).id k.client (by rw [idle]; rfl)).imp_right later

/-- What is shown of the name that a user registered under. -/
def shownName (name id : Bytes) : Bytes := untilZero (rowOf name id).name

theorem contact_registered {w : World} (sound : Sound w) (identified : Identified w)
    {contacts : List Contact} (known : ContactsKnown w.tables.clients contacts) {contact : Contact}
    (listed : contact ∈ contacts) :
    contact.id ≠ placeholder ∧ ∃ u name, Registered w.connections u name contact.id ∧
      contact = ⟨shownName name contact.id, contact.id, [], []⟩ := by
  obtain ⟨row, stored, rfl⟩ := known contact listed
  constructor
  · intro same
    exact identified.given (List.mem_map.mpr ⟨row, stored, same⟩)
  · obtain ⟨u, name, id, registered, rfl⟩ :=
      listed_registered sound (identified.directory.mem_iff.mp stored)
    exact ⟨u, name, registered, rfl⟩

theorem name_by_id (contacts : List Contact) (id : Bytes) :
    Client.getContactNameById contacts id = [] ∨
      ∃ contact ∈ contacts, contact.id = id ∧
        Client.getContactNameById contacts id = contact.name := by
  unfold Client.getContactNameById Client.getContactFieldById
  split
  · rename_i contact found
    exact Or.inr ⟨contact, List.mem_of_find?_eq_some found, by simpa using List.find?_some found,
      rfl⟩
  · exact Or.inl rfl

theorem id_by_name {contacts : List Contact} {name : Bytes}
    (full : (Client.getContactIdByName contacts name).length = 16) :
    ∃ contact ∈ contacts, contact.name = name ∧
      contact.id = Client.getContactIdByName contacts name := by
  unfold Client.getContactIdByName at full ⊢
  split
  · rename_i contact found
    exact ⟨contact, List.mem_of_find?_eq_some found, by simpa using List.find?_some found, rfl⟩
  · rename_i missing
    rw [missing] at full
    cases full

end SystemContacts
