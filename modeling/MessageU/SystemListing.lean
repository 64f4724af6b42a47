import MessageU.SystemDelivery

/- Whom a client gets to know. A listing that the server answers after a user has
   registered, and that returns, leaves this user among the contacts. -/
namespace SystemListing
open ByteFields SegmentedStream GuardedRuns StatementPrograms RequestFormat ServerTables
open ResponseFormat RequestHandling ServerRuns ServerWorker HandlerOutcomes ClientReception
open ClientCredentials ClientOperations ContactListing MessagingSystem SystemRuns
open SystemIdentity SystemContacts SystemDelivery

def Listable (w : World) (move : Move) : Prop := FreshIds w move ∧ ListsHeaded w move

/-- The server's answer to the listing has these rows in it, but for the client's own. -/
def Lists (rows : List ClientRow) (k : Connection) : Prop :=
  ∀ request resp, k.exchange = some ⟨request, .ok resp⟩ → ∃ all : List ClientRow,
    (∀ row ∈ all, ClientRow.Sound row) ∧ resp.payload = all.flatMap listEntry ∧
      ∀ row ∈ rows, row.id ≠ k.client.id → row ∈ all

theorem step_exchange {w after : World} {move : Move} (sound : Sound w)
    (taken : w.Step move after) {j : Nat} {k : Connection}
    (here : after.connections[j]? = some k) :
    k.exchange = none ∨
      (∃ before, w.connections[j]? = some before ∧ before.client = k.client ∧
        before.op = k.op ∧ before.exchange = k.exchange) ∨
      ∃ draws id, k.client.id = ClientId.bytes id ∧
        let request := requestFor id k.client.contacts k.op
        k.exchange = some ⟨request, (run execute (handle draws request) w.tables).2⟩ := by
  have unchanged (there : w.connections[j]? = some k) :
      ∃ before, w.connections[j]? = some before ∧ before.client = k.client ∧
        before.op = k.op ∧ before.exchange = k.exchange := ⟨k, there, rfl, rfl, rfl⟩
  have replaced {i : Nat} {old new : Connection} (there : w.connections[i]? = some old)
      (set : (w.connections.set i new)[j]? = some k) :
      (i = j ∧ k = new) ∨ w.connections[j]? = some k := by
    by_cases same : i = j
    · subst same
      obtain ⟨inside, -⟩ := List.getElem?_eq_some_iff.mp there
      exact Or.inl ⟨rfl, Option.some.inj (set.symm.trans (List.getElem?_set_self inside))⟩
    · rw [List.getElem?_set_ne same] at set
      exact Or.inr set
  cases taken with
  | launch _ _ => exact Or.inr (Or.inl (unchanged here))
  | kill _ => exact Or.inr (Or.inl (unchanged here))
  | unsent _ _ _ => exact Or.inr (Or.inl (unchanged here))
  | ask idle typed sent =>
    by_cases inside : j < w.connections.length
    · rw [List.getElem?_append_left inside] at here
      exact Or.inr (Or.inl (unchanged here))
    · rw [List.getElem?_append_right (Nat.le_of_not_lt inside)] at here
      obtain ⟨first, rfl⟩ := List.getElem?_eq_some_iff.mp here
      left
      simp
  | refuse there unserved arrived refused =>
    rename_i i old draws sock worker
    right; left
    rcases replaced there here with ⟨rfl, rfl⟩ | same
    · exact ⟨old, there, rfl, rfl, rfl⟩
    · exact unchanged same
  | serve there unserved arrived received =>
    rename_i i old draws sock worker request
    right
    rcases replaced there here with ⟨rfl, rfl⟩ | same
    · right
      have own_sound := sound.connections old (List.mem_of_getElem? there)
      obtain ⟨id, own⟩ := own_id own_sound
      obtain rfl := received_asked own_sound own arrived received
      exact ⟨draws, id, own, rfl⟩
    · exact Or.inl (unchanged same)
  | finish waits there sends arrived set =>
    rename_i u i c old env
    right; left
    rcases replaced there here with ⟨rfl, rfl⟩ | same
    · exact ⟨old, there, rfl, rfl, rfl⟩
    · exact unchanged same
  | astray waits there sends arrived unset listing fetching left =>
    rename_i u i c old env contacts handled p
    right; left
    rcases replaced there here with ⟨rfl, rfl⟩ | same
    · exact ⟨old, there, rfl, rfl, rfl⟩
    · exact unchanged same

theorem later_lists {guard : World → Move → Prop} {w later : World} (sound : Sound w)
    (path : Later (messaging.restrict guard) w later) {j : Nat}
    (unserved : ∀ k, w.connections[j]? = some k → k.exchange = none) :
    Sound later ∧ w.tables.clients <+: later.tables.clients ∧
      ∀ k, later.connections[j]? = some k → k.op = .listUsers →
        Lists w.tables.clients k := by
  induction path with
  | refl =>
    refine ⟨sound, List.prefix_refl _, fun k here _ request resp answered => ?_⟩
    rw [unserved k here] at answered
    cases answered
  | tail path step ih =>
    rename_i mid after
    obtain ⟨move, -, taken⟩ := step
    obtain ⟨mid_sound, grown, lists⟩ := ih
    refine ⟨system_sound.step _ _ _ mid_sound taken,
      grown.trans (step_history mid_sound taken).1, fun k here listing => ?_⟩
    rcases step_exchange mid_sound taken here with
      unasked | ⟨before, there, client, op, exchange⟩ | ⟨draws, id, own, served⟩
    · intro request resp answered
      rw [unasked] at answered
      cases answered
    · have still := lists before there (op.trans listing)
      rw [Lists, client, exchange] at still
      exact still
    · intro request resp answered
      rw [served, listing] at answered
      obtain ⟨rfl, result⟩ := Exchange.mk.inj (Option.some.inj answered)
      obtain ⟨object, -⟩ := list_answer rfl result
      refine ⟨listed mid.tables id.bytes, (listed_sound mid_sound.store id.bytes).1,
        by rw [object]; rfl, fun row stored other => ?_⟩
      exact List.mem_filter.mpr ⟨grown.subset stored, by simpa [← own] using other⟩

theorem still_registered {guard : World → Move → Prop} {w later : World} (sound : Sound w)
    (path : Later (messaging.restrict guard) w later) {u : Nat} {name id : Bytes}
    (registered : Registered w.connections u name id) :
    Sound later ∧ Registered later.connections u name id := by
  induction path with
  | refl => exact ⟨sound, registered⟩
  | tail path step ih =>
    obtain ⟨move, -, taken⟩ := step
    obtain ⟨mid_sound, still⟩ := ih
    exact ⟨system_sound.step _ _ _ mid_sound taken,
      registered_kept (step_history mid_sound taken).2.1 still⟩

theorem rows_known {all : List ClientRow} (sound : ∀ row ∈ all, ClientRow.Sound row)
    (contacts : List Contact) :
    (∀ contact ∈ contacts, ∃ c ∈ addContacts contacts (all.flatMap listEntry),
        c.id = contact.id) ∧
      ∀ row ∈ all, ∃ c ∈ addContacts contacts (all.flatMap listEntry), c.id = row.id := by
  rw [add_contacts_entries sound]
  induction all generalizing contacts with
  | nil => exact ⟨fun contact inside => ⟨contact, inside, rfl⟩, by simp⟩
  | cons row rest ih =>
    rw [List.map_cons, List.foldl_cons, add_entry (sound row List.mem_cons_self)]
    have known : ∃ c ∈ (if Client.isKnownContact contacts row.id then contacts
        else contacts ++ [shown row]), c.id = row.id := by
      split
      · rename_i is_known
        obtain ⟨c, inside, same⟩ := List.any_eq_true.mp is_known
        exact ⟨c, inside, by simpa using same⟩
      · exact ⟨shown row, by simp, rfl⟩
    have kept (contact : Contact) (inside : contact ∈ contacts) :
        contact ∈ (if Client.isKnownContact contacts row.id then contacts
          else contacts ++ [shown row]) := by
      split
      · exact inside
      · exact List.mem_append_left _ inside
    obtain ⟨before, others⟩ := ih (fun r later => sound r (List.mem_cons_of_mem row later)) _
    refine ⟨fun contact inside => before contact (kept contact inside), fun r listed => ?_⟩
    rcases List.mem_cons.mp listed with rfl | later
    · obtain ⟨c, inside, same⟩ := known
      obtain ⟨c', inside', same'⟩ := before c inside
      exact ⟨c', inside', same'.trans same⟩
    · exact others r later

theorem listing_returned {clients : List ClientRow} {k : Connection}
    (sound : ConnectionSound clients k) (listing : k.op = .listUsers) {rows : List ClientRow}
    (lists : Lists rows k) {env : Environment} (sends : env.sends = true)
    (arrived : contents env.sock <+: k.reply.getD [])
    (returned : (perform k.client k.op env).how = .ended .returned) :
    ∃ c, afterwards (perform k.client k.op env) = .idle c ∧
      ∀ row ∈ rows, row.id ≠ k.client.id → ∃ contact ∈ c.contacts, contact.id = row.id := by
  rcases list_finished sound sends arrived listing with
    ⟨impossible, -⟩ | ⟨given, -, ⟨request, resp, answered, payload⟩, left⟩
  · exact absurd returned impossible
  · obtain ⟨all, all_sound, same, inside⟩ := lists request resp answered
    refine ⟨_, left, fun row stored other => ?_⟩
    rw [← payload, same]
    exact (rows_known all_sound _).2 row (inside row stored other)

theorem system_listing : Invariant (messaging.restrict Listable)
    (fun w => (Sound w ∧ Identified w) ∧ ContactsSound w) := by
  have both := (system_identified.restrict_finer fun _ _ listable => listable.1).and
    (system_contacts.restrict_finer fun _ _ (listable : Listable _ _) => listable.2)
  constructor
  · intro w first
    obtain ⟨known, -, contacts⟩ := both.start w first
    exact ⟨known, contacts⟩
  · rintro w move after ⟨known, contacts⟩ taken
    obtain ⟨known', -, contacts'⟩ := both.step w move after ⟨known, known.1, contacts⟩ taken
    exact ⟨known', contacts'⟩

/-! Runs that can be computed. -/

theorem played_later {w after : World} {deeds : List Deed} (sound : Sound w)
    (run : runFrom World.play w deeds = some after) :
    Later (messaging.restrict Listable) w after := by
  induction deeds generalizing w with
  | nil =>
    cases run
    exact .refl
  | cons deed rest ih =>
    obtain ⟨mid, played, run⟩ := Option.bind_eq_some_iff.mp run
    obtain ⟨allowed, taken⟩ := tried_step played
    have uncut := deed_uncut sound (of_decide_eq_true allowed)
    have step : (messaging.restrict Listable).step w (deed.move w) mid :=
      ⟨⟨uncut.1, uncut.2.2⟩, taken⟩
    exact .head ⟨_, step⟩ (ih (system_sound.step _ _ _ sound taken) run)

def World.awaited (w : World) (u : Nat) : Option (Client × Nat × Connection) :=
  match w.processes u with
  | .waiting c j => w.connections[j]?.map fun k => (c, j, k)
  | _ => none

theorem awaited_waits {w : World} {u j : Nat} {c : Client} {k : Connection}
    (awaited : World.awaited w u = some (c, j, k)) :
    w.processes u = .waiting c j ∧ w.connections[j]? = some k := by
  unfold World.awaited at awaited
  split at awaited
  · rename_i waits
    obtain ⟨k', here, same⟩ := Option.map_eq_some_iff.mp awaited
    cases same
    exact ⟨waits, here⟩
  · cases awaited

/-! What follows. -/

end SystemListing
