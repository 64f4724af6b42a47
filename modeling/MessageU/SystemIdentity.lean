import MessageU.SystemRuns

/- Who is who. An id is given out once, to the user whose client asked for it, and the
   client table is the list of the registrations that succeeded. A saved registration
   stays what it is. -/
namespace SystemIdentity
open ByteFields SegmentedStream GuardedRuns StatementPrograms RequestFormat ServerTables
open ResponseFormat RequestHandling ServerRuns ServerWorker HandlerOutcomes ClientReception
open ClientCredentials ClientOperations CredentialsFile MessagingSystem SystemRuns

def rowOf (name id : Bytes) : ClientRow :=
  ⟨id, strip 0x11 ((registrationPayload name).take 255), (registrationPayload name).drop 255⟩

def registration : Operation → Option Exchange → Option ClientRow
  | .register name, some ⟨_, .ok resp⟩ =>
    if resp.code = codeSuccessfulRegistration then some (rowOf name resp.payload) else none
  | _, _ => none

/-- A client of this user registered under this name and was answered with this id. -/
def Registered (connections : List Connection) (u : Nat) (name id : Bytes) : Prop :=
  ∃ k ∈ connections, k.owner = u ∧ k.op = .register name ∧
    ∃ request uuid, k.exchange = some ⟨request, .ok (registered uuid)⟩ ∧ uuid.bytes = id

/-- uuid4 gives a client that registers no id twice, and none of sixteen ones. -/
def FreshDraw (clients : List ClientRow) (draws : Draws) (request : ServerRequest) : Prop :=
  request.requestCode = codeRegister →
    draws.uuid.bytes ∉ clients.map ClientRow.id ∧ draws.uuid.bytes ≠ placeholder

instance (clients : List ClientRow) (draws : Draws) (request : ServerRequest) :
    Decidable (FreshDraw clients draws request) :=
  inferInstanceAs (Decidable (_ → _ ∧ _))

def FreshIds (w : World) : Move → Prop
  | .serve _ draws sock =>
    ∀ request ∈ (receiveRequest sock).2, FreshDraw w.tables.clients draws request
  | _ => True

theorem unasked_registration (op : Operation) : registration op none = none := by
  cases op <;> rfl

theorem other_registration {op : Operation} (other : askedCode op ≠ codeRegister)
    (exchange : Option Exchange) : registration op exchange = none := by
  cases op with
  | register name => exact absurd rfl other
  | _ => rfl

theorem registration_back {clients : List ClientRow} {k : Connection}
    (sound : ConnectionSound clients k) {row : ClientRow}
    (some_row : registration k.op k.exchange = some row) :
    ∃ name request uuid, k.op = .register name ∧
      k.exchange = some ⟨request, .ok (registered uuid)⟩ ∧ row = rowOf name uuid.bytes := by
  unfold registration at some_row
  split at some_row
  · rename_i name request resp registers answered
    split at some_row
    · rename_i success
      have no_error : resp.code ≠ codeError := by
        rw [success]
        decide
      have answers := ((sound.answer request resp answered).2.resolve_left no_error).2
      rw [registers] at answers
      obtain ⟨uuid, rfl⟩ := answers
      exact ⟨name, request, uuid, registers, answered, (Option.some.inj some_row).symm⟩
    · cases some_row
  · cases some_row

theorem success_registers (name : Bytes) (request : ServerRequest) (uuid : ClientId) :
    registration (.register name) (some ⟨request, .ok (registered uuid)⟩) =
      some (rowOf name uuid.bytes) := by
  rw [registration]
  exact if_pos rfl

theorem served_registration (draws : Draws) (id : ClientId) (contacts : List Contact)
    (op : Operation) {t : Tables}
    (fresh : FreshDraw t.clients draws (requestFor id contacts op)) :
    (run execute (handle draws (requestFor id contacts op)) t).1.clients = t.clients ++
      (registration op (some ⟨requestFor id contacts op,
        (run execute (handle draws (requestFor id contacts op)) t).2⟩)).toList := by
  by_cases registers : askedCode op = codeRegister
  · cases op with
    | register name =>
      have payload : (requestFor id contacts (.register name)).payload =
        registrationPayload name := request_payload _ _ _
      rw [handle_register draws rfl, payload]
      rcases run_register draws.uuid (registrationPayload name) t with
        refused | raised | ⟨taken, asks, -, done⟩
      · rw [refused]
        simp [registration, getErrResponse, ServerResponse.ofCode, codeError,
          codeSuccessfulRegistration]
      · rw [raised]
        simp [registration]
      · rw [done, success_registers]
        obtain ⟨-, rfl⟩ := registration_row asks
        simp only [execute, (fresh rfl).1, ↓reduceIte]
        rfl
    | _ => exact absurd registers (by simp [askedCode, codeRegister, codeListClients,
        codeFetchPublicKey, codeFetchMessages, codeSendMsg])
  · rw [other_registration registers]
    have kept : (run execute (handle draws (requestFor id contacts op)) t).1.clients = t.clients :=
      @RegisteredContacts.other_keeps_clients ⟨draws, requestFor id contacts op⟩ t registers
    simpa using kept

/-! Connections in their list. -/

section Lists
variable {α β : Type} {l : List α} {j : Nat} {old : α} (here : l[j]? = some old) (new : α)
include here

theorem set_split :
    ∃ front back, l = front ++ old :: back ∧ l.set j new = front ++ new :: back := by
  obtain ⟨inside, rfl⟩ := List.getElem?_eq_some_iff.mp here
  refine ⟨l.take j, l.drop (j + 1), by simp, ?_⟩
  rw [List.set_eq_take_append_cons_drop, if_pos inside]

theorem flat_set {f : α → List β} (before : f old = []) :
    ((l.set j new).flatMap f).Perm (l.flatMap f ++ f new) := by
  obtain ⟨front, back, first, second⟩ := set_split here new
  rw [second, first]
  simp only [List.flatMap_append, List.flatMap_cons, before, List.nil_append, List.append_assoc]
  exact List.Perm.append_left _ List.perm_append_comm

theorem flat_unset {f : α → List β} (same : f new = f old) :
    (l.set j new).flatMap f = l.flatMap f := by
  obtain ⟨front, back, first, second⟩ := set_split here new
  rw [second, first]
  simp only [List.flatMap_append, List.flatMap_cons, same]

end Lists

def registrations (connections : List Connection) : List ClientRow :=
  connections.filterMap fun k => registration k.op k.exchange

section Registrations
variable {l : List Connection} {j : Nat} {old : Connection} (here : l[j]? = some old)
variable (new : Connection)
include here

theorem registrations_set (before : old.exchange = none) :
    (registrations (l.set j new)).Perm
      (registrations l ++ (registration new.op new.exchange).toList) := by
  simp only [registrations, List.filterMap_eq_flatMap_toList]
  apply flat_set here new
  rw [before, unasked_registration]
  rfl

theorem registrations_unset (op : new.op = old.op) (exchange : new.exchange = old.exchange) :
    registrations (l.set j new) = registrations l := by
  simp only [registrations, List.filterMap_eq_flatMap_toList]
  apply flat_unset here new
  rw [op, exchange]

end Registrations

/-! The invariant. -/

structure ProcessIdentified (connections : List Connection) (u : Nat) (p : Process) : Prop where
  id : ∀ c, p.client = some c → c.id = placeholder ∨ ∃ name, Registered connections u name c.id
  file : ∀ name id, newline ∉ name → id.length = 16 → p.meInfo = some (savedText name id) →
    Registered connections u name id

structure Identified (w : World) : Prop where
  directory : w.tables.clients.Perm (registrations w.connections)
  given : placeholder ∉ w.tables.clients.map ClientRow.id
  names : (w.tables.clients.map ClientRow.name).Nodup
  processes : ∀ u, ProcessIdentified w.connections u (w.processes u)

theorem saved_text_inj {name other id uuid : Bytes} (one_line : newline ∉ name)
    (size : id.length = 16) (one_line' : newline ∉ other) (size' : uuid.length = 16)
    (same : savedText name id = savedText other uuid) : name = other ∧ id = uuid := by
  obtain ⟨c, -, -, -, -, -, reads⟩ :=
    launched (Or.inr ⟨name, id, one_line, size, rfl⟩ : FileSound (some (savedText name id)))
  obtain ⟨first_name, first_id⟩ := reads name id rfl one_line size
  obtain ⟨second_name, second_id⟩ := reads other uuid (congrArg some same) one_line' size'
  exact ⟨first_name.symm.trans second_name, first_id.symm.trans second_id⟩

def AnswersKept (before after : List Connection) : Prop :=
  ∀ k ∈ before, k.exchange ≠ none → ∃ k' ∈ after,
    k'.owner = k.owner ∧ k'.op = k.op ∧ k'.exchange = k.exchange

theorem registered_kept {before after : List Connection} (kept : AnswersKept before after) {u : Nat}
    {name id : Bytes} (was : Registered before u name id) : Registered after u name id := by
  obtain ⟨k, listed, owner, op, request, uuid, answered, same⟩ := was
  obtain ⟨k', listed', owner', op', exchange'⟩ := kept k listed (by rw [answered]; simp)
  exact ⟨k', listed', owner'.trans owner, op'.trans op, request, uuid, exchange'.trans answered,
    same⟩

theorem process_kept {before after : List Connection} (kept : AnswersKept before after) {u : Nat}
    {p : Process} (was : ProcessIdentified before u p) : ProcessIdentified after u p where
  id c running := (was.id c running).imp_right fun ⟨name, known⟩ =>
    ⟨name, registered_kept kept known⟩
  file name id one_line size saved := registered_kept kept (was.file name id one_line size saved)

theorem answered_kept {l : List Connection} {j : Nat} {old : Connection}
    (here : l[j]? = some old) (new : Connection) (owner : new.owner = old.owner)
    (op : new.op = old.op) (exchange : old.exchange ≠ none → new.exchange = old.exchange) :
    AnswersKept l (l.set j new) := by
  intro k listed answered
  obtain ⟨i, there⟩ := List.mem_iff_getElem?.mp listed
  by_cases same : j = i
  · subst same
    rw [here] at there
    cases there
    obtain ⟨inside, -⟩ := List.getElem?_eq_some_iff.mp here
    exact ⟨new, List.mem_of_getElem? (List.getElem?_set_self inside), owner, op,
      exchange answered⟩
  · exact ⟨k, List.mem_of_getElem? (by rw [List.getElem?_set_ne same]; exact there), rfl, rfl, rfl⟩

theorem identified_put {w : World} (directory : w.tables.clients.Perm (registrations w.connections))
    (given : placeholder ∉ w.tables.clients.map ClientRow.id)
    (names : (w.tables.clients.map ClientRow.name).Nodup) {u : Nat} {p : Process}
    (own : ProcessIdentified w.connections u p)
    (others : ∀ v, v ≠ u → ProcessIdentified w.connections v (w.processes v)) :
    Identified (w.put u p) := by
  refine ⟨directory, given, names, fun v => ?_⟩
  rw [process_put]
  by_cases here : v = u
  · rw [if_pos here, here]
    exact own
  · rw [if_neg here]
    exact others v here

section Processes
variable {connections : List Connection} {u : Nat} {c : Client}

theorem idle_identified
    (id : c.id = placeholder ∨ ∃ name, Registered connections u name c.id)
    (file : ∀ name id, newline ∉ name → id.length = 16 → c.meInfo = some (savedText name id) →
      Registered connections u name id) : ProcessIdentified connections u (.idle c) where
  id _ same := Option.some.inj same ▸ id
  file := file

theorem unchanged_identified {p : Process} (before : ProcessIdentified connections u p)
    (running : p.client = some c) (file : p.meInfo = c.meInfo) {run : OperationRun}
    (unchanged : Unchanged c run) : ProcessIdentified connections u (afterwards run) := by
  have saved := before.file
  rw [file] at saved
  rcases unchanged with idle | off
  · rw [idle]
    exact idle_identified (before.id c running) saved
  · rw [off]
    refine ⟨?_, saved⟩
    intro c' impossible
    cases impossible

theorem launch_identified {meInfo : Option Bytes} (sound : FileSound meInfo)
    (before : ProcessIdentified connections u (.off meInfo))
    (started : Client.init meInfo = .ok c) : ProcessIdentified connections u (.idle c) := by
  obtain ⟨c', again, -, -, file, first, reads⟩ := launched sound
  have same : c = c' := Except.ok.inj (started.symm.trans again)
  subst same
  apply idle_identified
  · rcases sound with nothing | ⟨name, id, one_line, size, saved⟩
    · exact Or.inl (first nothing)
    · right
      refine ⟨name, ?_⟩
      rw [(reads name id saved one_line size).2]
      exact before.file name id one_line size saved
  · intro name id one_line size saved
    exact before.file name id one_line size (file.symm.trans saved)

end Processes

theorem finish_identified {clients : List ClientRow} {connections after : List Connection}
    {k : Connection} (sound : ConnectionSound clients k) (own : ClientSound k.client)
    (before : ProcessIdentified connections k.owner (.idle k.client))
    (kept : AnswersKept connections after) (listed : k ∈ connections) {env : Environment}
    (sends : env.sends = true) (arrived : contents env.sock <+: k.reply.getD []) :
    ProcessIdentified after k.owner (afterwards (perform k.client k.op env)) := by
  have known := process_kept kept before
  have unchanged (same : Unchanged k.client (perform k.client k.op env)) :=
    unchanged_identified known rfl rfl same
  rcases perform_keeps k.client env k.op with
    ⟨typed, registers⟩ | ⟨lists, -⟩ | ⟨-, same⟩ | ⟨-, -, same, -⟩
  · have one_line := ((typed_sizes sound.typed).1 typed registers).1
    rcases register_finished sound arrived registers with
      same | ⟨unregistered, named | ⟨request, uuid, answered, saved⟩⟩
    · exact unchanged same
    · rw [named]
      have no_file := unregistered_no_file own unregistered
      refine idle_identified (known.id k.client rfl) ?_
      intro name id _ _ file
      rw [show k.client.meInfo = _ from file] at no_file
      cases no_file
    · rw [saved]
      have given : Registered after k.owner typed uuid.bytes :=
        registered_kept kept ⟨k, listed, rfl, registers, request, uuid, answered, rfl⟩
      have no_file := unregistered_no_file own unregistered
      cases opens : env.opens with
      | false =>
        refine idle_identified (Or.inr ⟨typed, given⟩) ?_
        intro name id _ _ file
        rw [show k.client.meInfo = _ from file] at no_file
        cases no_file
      | true =>
        rw [saved_file]
        refine idle_identified (Or.inr ⟨typed, given⟩) ?_
        intro name id one_line' size file
        have written : savedText typed uuid.bytes = savedText name id := by
          simpa only [Client.credentials, savedText, own.key, Option.some.injEq] using file
        obtain ⟨rfl, rfl⟩ := saved_text_inj one_line uuid.size one_line' size written
        exact given
  · rcases list_finished sound sends arrived lists with ⟨-, same⟩ | ⟨rows, -, -, shown⟩
    · exact unchanged same
    · rw [shown]
      exact idle_identified (known.id k.client rfl) known.file
  · exact unchanged (kept_unchanged same)
  · exact unchanged (kept_unchanged same)

theorem served_identified {w : World} (sound : Sound w) (identified : Identified w) {j : Nat}
    {k : Connection} (here : w.connections[j]? = some k) (unserved : k.reply = none)
    {draws : Draws} {sock : Socket} {worker : WorkerRun} {request : ServerRequest}
    (fresh : FreshDraw w.tables.clients draws request) (arrived : contents sock <+: k.raw)
    (received : receiveRequest sock = (worker, some request)) :
    Identified
      { w.update j (k.answer worker ⟨request, (run execute (handle draws request) w.tables).2⟩) with
        tables := (run execute (handle draws request) w.tables).1 } where
  directory := by
    have there := sound.connections k (List.mem_of_getElem? here)
    obtain ⟨id, own⟩ := own_id there
    have asked := received_asked there own arrived received
    have added := served_registration draws id k.client.contacts k.op (asked ▸ fresh)
    rw [← asked] at added
    refine List.Perm.trans ?_ (registrations_set here _ (there.pending unserved)).symm
    rw [added]
    exact identified.directory.append_right _
  given := by
    rcases StoreInvariant.clients_handled ⟨draws, request⟩ w.tables with
      same | ⟨row, ⟨registers, -, inserted⟩, -, -, appended⟩
    · rw [show (run execute (handle draws request) w.tables).1.clients = _ from same]
      exact identified.given
    · rw [show (run execute (handle draws request) w.tables).1.clients = _ from appended,
        List.map_append, List.mem_append, not_or, inserted]
      refine ⟨identified.given, ?_⟩
      simpa using Ne.symm (fresh registers).2
  names := by
    rcases StoreInvariant.clients_handled ⟨draws, request⟩ w.tables with
      same | ⟨row, -, -, free, appended⟩
    · rw [show (run execute (handle draws request) w.tables).1.clients = _ from same]
      exact identified.names
    · rw [show (run execute (handle draws request) w.tables).1.clients = _ from appended,
        List.map_append]
      exact nodup_snoc identified.names free
  processes u := by
    have there := sound.connections k (List.mem_of_getElem? here)
    exact process_kept (answered_kept here (k.answer worker _) rfl rfl fun some_exchange =>
      absurd (there.pending unserved) some_exchange) (identified.processes u)

theorem done_identified {w : World} (identified : Identified w) {j : Nat} {k : Connection}
    (here : w.connections[j]? = some k) (handled : List Message) {p : Process}
    (own : AnswersKept w.connections (w.connections.set j (k.finish handled)) →
      ProcessIdentified (w.connections.set j (k.finish handled)) k.owner p) :
    Identified (World.put (w.update j (k.finish handled)) k.owner p) := by
  have kept := answered_kept here (k.finish handled) rfl rfl fun _ => rfl
  apply identified_put (w := w.update j (k.finish handled))
  · rw [World.update, registrations_unset here (k.finish handled) rfl rfl]
    exact identified.directory
  · exact identified.given
  · exact identified.names
  · exact own kept
  · exact fun v _ => process_kept kept (identified.processes v)

theorem identities_step {w after : World} {move : Move} (sound : Sound w)
    (identified : Identified w) (fresh : FreshIds w move) (taken : w.Step move after) :
    Identified after := by
  have others (u v : Nat) (_ : v ≠ u) := identified.processes v
  cases taken with
  | launch off started =>
    rename_i u meInfo c
    have file := sound.files u
    have before := identified.processes u
    rw [off] at file before
    exact identified_put identified.directory identified.given identified.names
      (launch_identified file before started) (others u)
  | kill u =>
    refine identified_put identified.directory identified.given identified.names
      ⟨?_, (identified.processes u).file⟩ (others u)
    intro c impossible
    cases impossible
  | unsent idle typed silent =>
    rename_i u c op env
    have before := identified.processes u
    rw [idle] at before
    exact identified_put identified.directory identified.given identified.names
      (unchanged_identified before rfl rfl (unsent_unchanged silent)) (others u)
  | ask idle typed sent =>
    rename_i u c op env raw
    have kept : AnswersKept w.connections
        (w.connections ++ [⟨u, c, op, raw, none, none, []⟩]) :=
      fun k listed _ => ⟨k, List.mem_append_left _ listed, rfl, rfl, rfl⟩
    have before := process_kept kept (identified.processes u)
    rw [idle] at before
    apply identified_put (w := { w with
      connections := w.connections ++ [⟨u, c, op, raw, none, none, []⟩] })
    · have nothing : registrations (w.connections ++ [⟨u, c, op, raw, none, none, []⟩]) =
          registrations w.connections := by
        simp [registrations, List.filterMap_append, unasked_registration]
      show w.tables.clients.Perm (registrations (w.connections ++ _))
      rw [nothing]
      exact identified.directory
    · exact identified.given
    · exact identified.names
    · exact ⟨before.id, before.file⟩
    · exact fun v _ => process_kept kept (identified.processes v)
  | refuse here unserved arrived refused =>
    rename_i j k draws sock worker
    refine ⟨?_, identified.given, identified.names, fun u => ?_⟩
    · rw [World.update, registrations_unset here (k.refuse worker) rfl rfl]
      exact identified.directory
    · exact process_kept (answered_kept here (k.refuse worker) rfl rfl fun _ => rfl)
        (identified.processes u)
  | serve here unserved arrived received =>
    exact served_identified sound identified here unserved (fresh _ (by rw [received]; rfl)) arrived
      received
  | finish waits here sends arrived set =>
    rename_i u j c k env
    obtain ⟨rfl, rfl, -, own, listed⟩ := waiting_connection sound waits here
    have before := identified.processes k.owner
    rw [waits] at before
    exact done_identified identified here _ fun kept =>
      finish_identified listed own ⟨before.id, before.file⟩ kept (List.mem_of_getElem? here) sends
        arrived
  | astray waits here sends arrived unset listing fetching left =>
    rename_i u j c k env contacts handled p
    obtain ⟨rfl, rfl, -, own, -⟩ := waiting_connection sound waits here
    have before := identified.processes k.owner
    rw [waits] at before
    refine done_identified identified here _ fun kept => ?_
    have known := process_kept kept before
    rcases left with rfl | rfl
    · exact idle_identified (known.id k.client rfl) known.file
    · refine ⟨?_, known.file⟩
      intro c impossible
      cases impossible

theorem system_identified :
    Invariant (messaging.restrict FreshIds) (fun w => Sound w ∧ Identified w) := by
  apply Invariant.strengthen (system_sound.restrict FreshIds)
  · intro w first
    rw [show w = World.initial from first]
    refine ⟨List.Perm.refl _, List.not_mem_nil, List.nodup_nil, fun u => ⟨?_, ?_⟩⟩
    · intro c impossible
      cases impossible
    · intro name id _ _ impossible
      cases impossible
  · intro w move after sound identified taken
    exact identities_step sound identified taken.1 taken.2

/-! Runs that nothing disturbs. -/

instance (w : World) : (move : Move) → Decidable (FreshIds w move)
  | .serve _ draws sock => inferInstanceAs (Decidable
      (∀ request ∈ (receiveRequest sock).2, FreshDraw w.tables.clients draws request))
  | .launch _ | .kill _ | .ask _ _ _ | .finish _ _ => inferInstanceAs (Decidable True)

def World.tried (allowed : World → Deed → Bool) (w : World) (deed : Deed) : Option World :=
  if allowed w deed then w.next (deed.move w) else none

def World.play : World → Deed → Option World :=
  World.tried fun w deed => decide (FreshIds w (deed.move w))

theorem tried_step {allowed : World → Deed → Bool} {w after : World} {deed : Deed}
    (tried : World.tried allowed w deed = some after) :
    allowed w deed = true ∧ w.Step (deed.move w) after := by
  unfold World.tried at tried
  split at tried
  · rename_i allows
    exact ⟨allows, next_step tried⟩
  · cases tried

theorem tried_reachable {allowed : World → Deed → Bool} {guard : World → Move → Prop}
    (meets : ∀ w deed, Sound w → allowed w deed = true → guard w (Deed.move w deed))
    {w : World} {deeds : List Deed}
    (run : runFrom (World.tried allowed) World.initial deeds = some w) :
    Reachable (messaging.restrict guard) w := by
  have tried_sound : Invariant (ofNext World.initial (World.tried allowed)) Sound := by
    constructor
    · intro w first
      exact system_sound.start w first
    · intro w deed after sound tried
      exact system_sound.step w _ after sound (tried_step tried).2
  show Reachable (messaging.restrict guard) (id w)
  apply simulated tried_sound id _ _ (run_reachable deeds (.start rfl) run)
  · exact fun w first => first
  · intro w deed after sound tried
    obtain ⟨allows, taken⟩ := tried_step tried
    exact Or.inr ⟨deed.move w, meets w deed sound allows, taken⟩

theorem played_reachable {guard : World → Move → Prop}
    (meets : ∀ w deed, Sound w → FreshIds w (Deed.move w deed) → guard w (Deed.move w deed))
    {w : World} {deeds : List Deed} (run : runFrom World.play World.initial deeds = some w) :
    Reachable (messaging.restrict guard) w :=
  tried_reachable (fun w deed sound fresh => meets w deed sound (of_decide_eq_true fresh)) run

def registering (u k : Nat) (name : Bytes) (draws : Draws) : List Deed :=
  [.launch u, .ask u (.register name), .serve k draws, .finish u]

/-! What follows. -/

theorem registered_listed {connections : List Connection} {u : Nat} {name id : Bytes}
    (known : Registered connections u name id) : rowOf name id ∈ registrations connections := by
  obtain ⟨k, listed, -, registers, request, uuid, answered, rfl⟩ := known
  refine List.mem_filterMap.mpr ⟨k, listed, ?_⟩
  rw [registers, answered]
  exact success_registers name request uuid

theorem listed_registered {w : World} (sound : Sound w) {row : ClientRow}
    (listed : row ∈ registrations w.connections) :
    ∃ u name id, Registered w.connections u name id ∧ row = rowOf name id := by
  obtain ⟨k, inside, some_row⟩ := List.mem_filterMap.mp listed
  obtain ⟨name, request, uuid, registers, answered, same⟩ :=
    registration_back (sound.connections k inside) some_row
  exact ⟨k.owner, name, uuid.bytes, ⟨k, inside, rfl, registers, request, uuid, answered, rfl⟩, same⟩

theorem row_once {connections : List Connection}
    (ids : ((registrations connections).map ClientRow.id).Nodup) {j k : Connection}
    (listed : j ∈ connections) (listed' : k ∈ connections) {row row' : ClientRow}
    (here : registration j.op j.exchange = some row)
    (there : registration k.op k.exchange = some row') (same : row.id = row'.id) : j = k := by
  let Apart (j k : Connection) : Prop :=
    ∀ a, registration j.op j.exchange = some a → ∀ b, registration k.op k.exchange = some b →
      a.id ≠ b.id
  have apart : connections.Pairwise Apart := List.pairwise_filterMap.mp (List.pairwise_map.mp ids)
  have symmetric : Std.Symm Apart := ⟨fun _ _ distinct b hb a ha => (distinct a ha b hb).symm⟩
  by_contra different
  exact apart.forall listed listed' different row here row' there same

theorem registered_unique {w : World} (sound : Sound w) (identified : Identified w) {u v : Nat}
    {name other id : Bytes} (first : Registered w.connections u name id)
    (second : Registered w.connections v other id) : u = v ∧ name = other := by
  have ids : ((registrations w.connections).map ClientRow.id).Nodup :=
    (identified.directory.map ClientRow.id).nodup_iff.mp sound.store.keyed.clientIds
  obtain ⟨j, listed, rfl, registers, request, uuid, answered, rfl⟩ := first
  obtain ⟨k, listed', rfl, registers', request', uuid', answered', same_id⟩ := second
  have row : registration j.op j.exchange = some (rowOf name uuid.bytes) := by
    rw [registers, answered]
    exact success_registers name request uuid
  have row' : registration k.op k.exchange = some (rowOf other uuid'.bytes) := by
    rw [registers', answered']
    exact success_registers other request' uuid'
  have same := row_once ids listed listed' row row' same_id.symm
  subst same
  rw [registers] at registers'
  exact ⟨rfl, Operation.register.inj registers'⟩

theorem name_unique {w : World} (sound : Sound w) (identified : Identified w) {u v : Nat}
    {name other id uuid : Bytes} (first : Registered w.connections u name id)
    (second : Registered w.connections v other uuid)
    (same : (rowOf name id).name = (rowOf other uuid).name) : u = v ∧ id = uuid := by
  have stored := identified.directory.mem_iff.mpr (registered_listed first)
  have stored' := identified.directory.mem_iff.mpr (registered_listed second)
  have one_row := List.inj_on_of_nodup_map identified.names stored stored' same
  have one_id : id = uuid := congrArg ClientRow.id one_row
  rw [← one_id] at second
  exact ⟨(registered_unique sound identified first second).1, one_id⟩

/-- In every run: who knows itself by an id was given it, nobody else was, nobody else has
    the name it is stored under, and the client table is the list of those who registered. -/
theorem identities_unique {w : World} (reached : Reachable (messaging.restrict FreshIds) w) :
    (∀ u c, (w.processes u).client = some c →
      c.id = placeholder ∨ ∃ name, Registered w.connections u name c.id) ∧
    (∀ u v name other id, Registered w.connections u name id →
      Registered w.connections v other id → u = v ∧ name = other) ∧
    (∀ u v name other id uuid, Registered w.connections u name id →
      Registered w.connections v other uuid → (rowOf name id).name = (rowOf other uuid).name →
        u = v ∧ id = uuid) ∧
    (∀ row, row ∈ w.tables.clients ↔
      ∃ u name id, Registered w.connections u name id ∧ row = rowOf name id) ∧
    (∀ u name id, Registered w.connections u name id → id ≠ placeholder) ∧
    ∀ u v c d, (w.processes u).client = some c → (w.processes v).client = some d → c.id = d.id →
      c.id = placeholder ∨ u = v := by
  obtain ⟨sound, identified⟩ := system_identified.holds reached
  have own := fun u => (identified.processes u).id
  have once (u v : Nat) (name other id : Bytes) (first : Registered w.connections u name id)
      (second : Registered w.connections v other id) : u = v ∧ name = other :=
    registered_unique sound identified first second
  refine ⟨own, once, fun _ _ _ _ _ _ first second same =>
    name_unique sound identified first second same, ?_, ?_, ?_⟩
  · intro row
    constructor
    · intro stored
      exact listed_registered sound (identified.directory.mem_iff.mp stored)
    · rintro ⟨u, name, id, known, rfl⟩
      exact identified.directory.mem_iff.mpr (registered_listed known)
  · rintro u name id known rfl
    exact identified.given (List.mem_map.mpr
      ⟨_, identified.directory.mem_iff.mpr (registered_listed known), rfl⟩)
  · intro u v c d running running' same
    rcases own u c running with nobody | ⟨name, known⟩
    · exact Or.inl nobody
    · rcases own v d running' with nobody | ⟨other, known'⟩
      · exact Or.inl (same.trans nobody)
      · rw [← same] at known'
        exact Or.inr (once u v name other c.id known known').1

theorem two_users_identified :
    let a : Draws := ⟨⟨List.replicate 16 2, rfl⟩, 1, by decide, by decide⟩
    let b : Draws := ⟨⟨List.replicate 16 3, rfl⟩, 2, by decide, by decide⟩
    ∃ w, runFrom World.play World.initial
        (registering 0 0 [0x41] a ++ registering 1 1 [0x42] b) = some w ∧
      (w.processes 0).client.map Client.id = some a.uuid.bytes ∧
      (w.processes 1).client.map Client.id = some b.uuid.bytes ∧
      (∃ name, Registered w.connections 0 name a.uuid.bytes) ∧
      ∃ name, Registered w.connections 1 name b.uuid.bytes := by
  intro a b
  have ids : (runFrom World.play World.initial
      (registering 0 0 [0x41] a ++ registering 1 1 [0x42] b)).map (fun w =>
        ((w.processes 0).client.map Client.id, (w.processes 1).client.map Client.id)) =
      some (some a.uuid.bytes, some b.uuid.bytes) := by
    decide +kernel
  obtain ⟨w, run, both⟩ := Option.map_eq_some_iff.mp ids
  obtain ⟨first, second⟩ := Prod.mk.inj both
  have own := (identities_unique (played_reachable (fun _ _ _ fresh => fresh) run)).1
  obtain ⟨c, running, is_a⟩ := Option.map_eq_some_iff.mp first
  obtain ⟨d, running', is_b⟩ := Option.map_eq_some_iff.mp second
  refine ⟨w, run, first, second, ?_, ?_⟩
  · rw [← is_a]
    exact (own 0 c running).resolve_left (by rw [is_a]; decide)
  · rw [← is_b]
    exact (own 1 d running').resolve_left (by rw [is_b]; decide)

/-! A saved registration. -/

theorem unchanged_file {c : Client} {run : OperationRun} (unchanged : Unchanged c run) :
    (afterwards run).meInfo = c.meInfo := by
  rcases unchanged with idle | off
  · rw [idle]
    rfl
  · rw [off]
    rfl

theorem put_file {w : World} {u : Nat} {p : Process} (same : p.meInfo = (w.processes u).meInfo)
    (v : Nat) : ((w.put u p).processes v).meInfo = (w.processes v).meInfo := by
  rw [process_put]
  by_cases here : v = u
  · rw [if_pos here, here]
    exact same
  · rw [if_neg here]

theorem finish_file {clients : List ClientRow} {k : Connection} (sound : ConnectionSound clients k)
    (registered : Client.isClientRegistered k.client.meInfo = true) {env : Environment}
    (sends : env.sends = true) (arrived : contents env.sock <+: k.reply.getD []) :
    (afterwards (perform k.client k.op env)).meInfo = k.client.meInfo := by
  rcases perform_keeps k.client env k.op with
    ⟨typed, registers⟩ | ⟨lists, -⟩ | ⟨-, same⟩ | ⟨-, -, same, -⟩
  · rcases register_finished sound arrived registers with unchanged | ⟨unregistered, -⟩
    · exact unchanged_file unchanged
    · rw [registered] at unregistered
      cases unregistered
  · rcases list_finished sound sends arrived lists with ⟨-, unchanged⟩ | ⟨rows, -, -, shown⟩
    · exact unchanged_file unchanged
    · rw [shown]
      rfl
  · exact unchanged_file (kept_unchanged same)
  · exact unchanged_file (kept_unchanged same)

theorem file_kept {w after : World} {move : Move} (sound : Sound w) (taken : w.Step move after)
    {u : Nat} (registered : Client.isClientRegistered (w.processes u).meInfo = true) :
    (after.processes u).meInfo = (w.processes u).meInfo := by
  cases taken with
  | launch off started =>
    rename_i v meInfo c
    have file := sound.files v
    rw [off] at file
    obtain ⟨c', again, -, -, same, -⟩ := launched file
    have same_client : c = c' := Except.ok.inj (started.symm.trans again)
    exact put_file (by rw [off, same_client]; exact same) u
  | kill v => exact put_file (p := .off (w.processes v).meInfo) rfl u
  | unsent idle typed silent =>
    exact put_file (by rw [idle]; exact unchanged_file (unsent_unchanged silent)) u
  | ask idle typed sent => exact put_file (by rw [idle]; rfl) u
  | refuse here unserved arrived refused => rfl
  | serve here unserved arrived received => rfl
  | finish waits here sends arrived set =>
    obtain ⟨rfl, rfl, -, -, listed⟩ := waiting_connection sound waits here
    rename_i j k env
    by_cases own : u = k.owner
    · subst own
      rw [process_put, if_pos rfl]
      rw [waits] at registered ⊢
      exact finish_file listed registered sends arrived
    · rw [process_put, if_neg own]
      rfl
  | astray waits here sends arrived unset listing fetching left =>
    refine put_file ?_ u
    rw [World.update, waits]
    rcases left with rfl | rfl <;> rfl

/-- Whatever happens after a registration was saved, me.info stays as it is, and every
    client of this user that runs has its name and its id. -/
theorem registration_permanent {w : World} (reached : Reachable messaging w) {u : Nat}
    (registered : Client.isClientRegistered (w.processes u).meInfo = true) :
    ∃ name id, (w.processes u).meInfo = some (savedText name id) ∧
      ∀ later, Later messaging w later →
        (later.processes u).meInfo = some (savedText name id) ∧
        ∀ c, (later.processes u).client = some c → c.name = name ∧ c.id = id := by
  rcases (system_sound.holds reached).files u with nothing | ⟨name, id, one_line, size, saved⟩
  · rw [nothing] at registered
    cases registered
  · refine ⟨name, id, saved, fun later path => ?_⟩
    have still : (later.processes u).meInfo = some (savedText name id) := by
      induction path with
      | refl => exact saved
      | tail before step ih =>
        obtain ⟨move, taken⟩ := step
        have sound := system_sound.holds (later_reachable reached before)
        rw [file_kept sound taken (by rw [ih]; exact saved_is_registered size)]
        exact ih
    refine ⟨still, fun c running => ?_⟩
    have sound := system_sound.holds (later_reachable reached path)
    have own := sound.clients u c running
    have file : c.meInfo = (later.processes u).meInfo := by
      cases here : later.processes u with
      | off meInfo =>
        rw [here] at running
        cases running
      | idle c' =>
        rw [here] at running
        cases running
        rfl
      | waiting c' j =>
        rw [here] at running
        cases running
        rfl
    rw [still] at file
    rcases own.file with nothing | ⟨line, written⟩
    · rw [nothing] at file
      cases file
    · rw [written] at file
      exact saved_text_inj line own.id one_line size (Option.some.inj file)

theorem registered_for_good :
    let a : Draws := ⟨⟨List.replicate 16 2, rfl⟩, 1, by decide, by decide⟩
    ∃ w, runFrom World.play World.initial (registering 0 0 [0x41] a) = some w ∧
      ∀ later, Later messaging w later →
        (later.processes 0).meInfo = some (savedText [0x41] a.uuid.bytes) := by
  intro a
  have saved : (runFrom World.play World.initial (registering 0 0 [0x41] a)).map (fun w =>
      (w.processes 0).meInfo) = some (some (savedText [0x41] a.uuid.bytes)) := by
    decide +kernel
  obtain ⟨w, run, file⟩ := Option.map_eq_some_iff.mp saved
  have reached : Reachable messaging w :=
    restricted_reachable (played_reachable (fun _ _ _ fresh => fresh) run)
  obtain ⟨name, id, written, permanent⟩ := registration_permanent reached
    (by rw [file]; exact saved_is_registered a.uuid.size)
  refine ⟨w, run, fun later path => ?_⟩
  rw [(permanent later path).1, ← written, file]

end SystemIdentity
