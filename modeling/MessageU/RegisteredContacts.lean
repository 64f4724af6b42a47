import MessageU.ContactListing
import MessageU.HandlerOutcomes
import MessageU.StoreInvariant

/- A name from the terminal of one client to the contact list of another: filled up
   with 11, stripped and read as text, stored, padded with zero bytes, listed, and
   cut off at the first zero byte. Sound names come through unchanged. -/
namespace RegisteredContacts
open ByteFields SegmentedStream GuardedRuns StatementPrograms RequestFormat ServerTables
open ResponseFormat RequestHandling ServerRuns ClientReception ClientCredentials
open ClientOperations ContactListing HandlerOutcomes StoreInvariant

structure NameSound (name : Bytes) : Prop where
  size : name.length ≤ 255
  text : validUtf8 name = true
  no_zero : (0 : Byte) ∉ name
  head : name.head? ≠ some 0x11
  last : name.getLast? ≠ some 0x11

/-- One client that registers, under what it typed, and what the server draws for it. -/
structure Registration where
  client : Client
  name : Bytes
  env : Environment
  draws : Draws

def Made (r : Registration) (call : Call) : Prop :=
  call.draws = r.draws ∧ ∃ raw, (perform r.client (.register r.name) r.env).sent = some raw ∧
    accept raw = some call.request

def outcome (r : Registration) (e : Exchange) : Option Contact :=
  match e.result with
  | .ok resp =>
    if resp.code = codeSuccessfulRegistration then some ⟨r.name, resp.payload, [], []⟩ else none
  | .error _ => none

def successes (regs : List Registration) (history : List Exchange) : List Contact :=
  (regs.zip history).filterMap fun x => outcome x.1 x.2

/-! What RegisterOperation sends. -/

theorem created_payload {typed : Bytes} :
    RegisterOperation.createPayload (filled Client.nameSize typed)
      (filled Client.publicKeySize Client.getPubKey) = registrationPayload typed := by
  simp [RegisterOperation.createPayload, filled, paddingByte, Client.getPubKey, registrationPayload,
    fillingByte, Client.nameSize, Client.publicKeySize]

theorem registration_size {typed : Bytes} (short : typed.length ≤ 255) :
    (registrationPayload typed).length = 415 := by
  simp only [registrationPayload, List.length_append, List.length_replicate]
  omega

theorem register_request {c : Client} {typed : Bytes} {env : Environment} {r : ClientRequest}
    (made : (RegisterOperation.doOperation c typed env).request = some r) :
    r = ⟨c.id, codeRegister, supportedVersion, (registrationPayload typed).length,
      registrationPayload typed, []⟩ := by
  unfold RegisterOperation.doOperation RegisterOperation.doOperationFinding at made
  dsimp only at made
  rw [created_payload] at made
  split at made
  · cases made
  · split at made
    · cases made
    · rename_i request built
      have object := (of_payload_made built).1
      split at made
      · cases made
        exact object
      · split at made <;>
        · cases made
          exact object

theorem layout_size_any (clientId : Bytes) (version code size : Nat) (payload : Bytes) :
    (layout clientId version code size payload).length = clientId.length + 7 + payload.length := by
  simp only [layout, List.length_append, big_endian_length]
  omega

theorem made_payload {r : Registration} {call : Call} (made : Made r call)
    (short : r.name.length ≤ 255) (size : call.request.payload.length = 415) :
    call.request.payload = registrationPayload r.name := by
  obtain ⟨-, raw, sent, accepted⟩ := made
  obtain ⟨request, asked, built⟩ := (perform_requests r.client r.env _).sent raw sent
  rw [register_request asked, build_appends, List.nil_append] at built
  replace built : raw = layout r.client.id supportedVersion codeRegister
    (registrationPayload r.name).length (registrationPayload r.name) := built
  obtain ⟨enough, -, -, -, decoded⟩ := (accept_some_iff raw _).mp accepted
  have payload : call.request.payload = raw.drop 23 := by
    rw [decoded]
    rfl
  have long := layout_size_any r.client.id supportedVersion codeRegister
    (registrationPayload r.name).length (registrationPayload r.name)
  have typed_size := registration_size short
  rw [payload, List.length_drop, built, long, typed_size] at size
  have id_size : r.client.id.length = 16 := by omega
  rw [payload, built]
  exact layout_payload _ _ _ _ _ id_size

theorem registration_key : validUtf8 (List.replicate 160 0x39) = true := by decide +kernel

theorem sound_registration {name : Bytes} (sound : NameSound name) :
    registrationName (registrationPayload name) = some name ∧
      validUtf8 ((registrationPayload name).drop 255) = true := by
  have long : (name ++ List.replicate (255 - name.length) 0x11).length = 255 := by
    have := sound.size
    simp only [List.length_append, List.length_replicate]
    omega
  have front : (registrationPayload name).take 255 =
      name ++ List.replicate (255 - name.length) 0x11 := by
    rw [registrationPayload, List.take_left' long]
  have back : (registrationPayload name).drop 255 = List.replicate 160 0x39 := by
    rw [registrationPayload, List.drop_left' long]
  have stripped : strip 0x11 ((registrationPayload name).take 255) = name := by
    rw [front]
    exact strip_filled sound.head sound.last _
  constructor
  · unfold registrationName
    dsimp only
    rw [stripped, if_pos ⟨registration_size sound.size, sound.text⟩]
  · rw [back]
    exact registration_key

/-! What one call does to the contacts that the rows are shown as. -/

theorem other_never_registers (draws : Draws) {request : ServerRequest} {t : Tables}
    (other : request.requestCode ≠ codeRegister) {resp : ServerResponse}
    (answered : (run execute (handle draws request) t).2 = .ok resp) :
    resp.code ≠ codeSuccessfulRegistration := by
  intro success
  obtain ⟨-, error | paired⟩ := run_yields execute (handle_answers draws request) answered
  · rw [error] at success
    exact absurd success (by decide)
  · rw [success] at paired
    have only : ∀ pair ∈ answerCodes, pair.2 = codeSuccessfulRegistration →
        pair.1 = codeRegister := by decide
    exact other (only _ paired rfl)

theorem no_outcome {r : Registration} {e : Exchange}
    (refused : ∀ resp, e.result = .ok resp → resp.code ≠ codeSuccessfulRegistration) :
    outcome r e = none := by
  unfold outcome
  split
  · rename_i resp answered
    rw [if_neg (refused resp answered)]
  · rfl

theorem other_keeps_clients {call : Call} {t : Tables}
    (other : call.request.requestCode ≠ codeRegister) :
    (run execute (handle call.draws call.request) t).1.clients = t.clients := by
  rcases clients_handled call t with same | ⟨row, ⟨register, -⟩, -⟩
  · exact same
  · exact absurd register other

theorem registration_step {r : Registration} {call : Call} (made : Made r call)
    (name_sound : NameSound r.name) {t : Tables}
    (fresh : r.draws.uuid.bytes ∉ t.clients.map ClientRow.id) :
    (run execute (handle call.draws call.request) t).1.clients.map shown =
      t.clients.map shown ++ (outcome r
        ⟨call.request, (run execute (handle call.draws call.request) t).2⟩).toList := by
  by_cases register : call.request.requestCode = codeRegister
  · rw [handle_register call.draws register]
    rcases run_register call.draws.uuid call.request.payload t with
      refused | raised | ⟨name, asks, -, done⟩
    · have nothing : outcome r ⟨call.request, .ok getErrResponse⟩ = none := rfl
      rw [refused, nothing]
      exact (List.append_nil _).symm
    · have nothing : outcome r ⟨call.request, .error .unicodeDecodeError⟩ = none := rfl
      rw [raised, nothing]
      exact (List.append_nil _).symm
    · have payload := made_payload made name_sound.size (registration_sizes asks).1
      rw [payload, (sound_registration name_sound).1] at asks
      obtain rfl := Option.some.inj asks
      have success : outcome r ⟨call.request, .ok (registered call.draws.uuid)⟩ =
          some ⟨r.name, r.draws.uuid.bytes, [], []⟩ := by
        rw [← made.1]
        rfl
      rw [done, success, made.1]
      simp only [execute, if_neg fresh, List.map_append, List.map_cons, List.map_nil, shown,
        until_zero_free name_sound.no_zero, Option.toList_some]
  · have silent := @other_never_registers call.draws call.request t register
    have nothing : outcome r ⟨call.request, (run execute (handle call.draws call.request) t).2⟩ =
        none := no_outcome (fun resp answered => silent answered)
    rw [other_keeps_clients register, nothing]
    exact (List.append_nil _).symm

theorem registrations_run {regs : List Registration} {calls : List Call} {s t : Server}
    (made : List.Forall₂ Made regs calls) (names : ∀ r ∈ regs, NameSound r.name)
    (distinct : (regs.map fun r => r.draws.uuid.bytes).Nodup)
    (fresh : ∀ r ∈ regs, r.draws.uuid.bytes ∉ s.tables.clients.map ClientRow.id)
    (run : runFrom Server.next s calls = some t) :
    ∃ new, t.history = s.history ++ new ∧
      t.tables.clients.map shown = s.tables.clients.map shown ++ successes regs new := by
  induction made generalizing s with
  | nil =>
    cases run
    exact ⟨[], (List.append_nil _).symm, (List.append_nil _).symm⟩
  | @cons r call regs calls first rest ih =>
    simp only [runFrom, Option.bind_eq_some_iff] at run
    obtain ⟨mid, taken, later⟩ := run
    obtain ⟨new_id, distinct_rest⟩ := List.nodup_cons.mp distinct
    have moved := next_server taken
    have step := registration_step first (names r List.mem_cons_self)
      (fresh r List.mem_cons_self)
    have still_fresh : ∀ x ∈ regs, x.draws.uuid.bytes ∉ mid.tables.clients.map ClientRow.id := by
      intro x hx
      have before := fresh x (List.mem_cons_of_mem r hx)
      rw [moved]
      rcases clients_handled call s.tables with same | ⟨row, ⟨-, -, registered⟩, -, -, appended⟩
      · rwa [same]
      · rw [appended, List.map_append, List.mem_append, not_or]
        refine ⟨before, ?_⟩
        intro taken_id
        have same_id : x.draws.uuid.bytes = r.draws.uuid.bytes := by
          rw [← first.1]
          simpa [registered] using taken_id
        exact new_id (List.mem_map.mpr ⟨x, hx, same_id⟩)
    obtain ⟨new, history, clients⟩ := ih
      (fun x hx => names x (List.mem_cons_of_mem r hx)) distinct_rest still_fresh later
    let done := run execute (handle call.draws call.request) s.tables
    refine ⟨⟨call.request, done.2⟩ :: new, ?_, ?_⟩
    · rw [history, moved, List.append_assoc]
      rfl
    · rw [clients, moved, step, List.append_assoc]
      congr 1
      simp only [successes, List.zip_cons_cons, List.filterMap_cons]
      split
      · rename_i nothing
        rw [nothing]
        rfl
      · rename_i contact something
        rw [something]
        rfl

theorem others_run {calls : List Call} {s t : Server}
    (others : ∀ call ∈ calls, call.request.requestCode ≠ codeRegister)
    (run : runFrom Server.next s calls = some t) : t.tables.clients = s.tables.clients := by
  induction calls generalizing s with
  | nil =>
    cases run
    rfl
  | cons call calls ih =>
    simp only [runFrom, Option.bind_eq_some_iff] at run
    obtain ⟨mid, taken, later⟩ := run
    rw [ih (fun x hx => others x (List.mem_cons_of_mem call hx)) later, next_server taken]
    exact other_keeps_clients (others call List.mem_cons_self)

/-! The listing. -/

theorem listing_sent {b : Client} {env : Environment} {raw : Bytes} {request : ServerRequest}
    (id_size : b.id.length = 16) (sent : (perform b .listUsers env).sent = some raw)
    (accepted : accept raw = some request) :
    env.sends = true ∧ request.requestCode = codeListClients ∧ request.clientId.bytes = b.id ∧
      (perform b .listUsers env).client.contacts =
        (ListUserOperation.doOperation b.contacts b.id true env.beyond env.sock).contacts := by
  have some_id : b.id ≠ [] := List.ne_nil_of_length_pos (by omega)
  have made : ClientRequest.ofCode b.id codeListClients =
      .ok ⟨b.id, codeListClients, supportedVersion, 0, [], []⟩ := by
    simp [ClientRequest.ofCode, some_id]
  have performed : perform b .listUsers env = ListUserOperation.perform b env := rfl
  rw [performed] at sent ⊢
  unfold ListUserOperation.perform at sent ⊢
  rw [made] at sent ⊢
  dsimp only at sent ⊢
  have sends : env.sends = true := by
    cases ok : env.sends with
    | true => rfl
    | false =>
      rw [ok, unsent_header] at sent
      cases sent
  have built : raw = layout b.id supportedVersion codeListClients 0 [] := by
    rw [header_sent made sent, build_appends]
    rfl
  have expected := accept_layout ⟨b.id, id_size⟩ ([] : Bytes)
    (show codeListClients ∈ supportedCodes by decide)
    (show 23 + ([] : Bytes).length ≤ 0x7fffffff by decide)
  rw [built] at accepted
  obtain rfl := Option.some.inj (accepted.symm.trans expected)
  rw [sends]
  exact ⟨rfl, rfl, rfl, rfl⟩

theorem listed_contacts {rows : List ClientRow} (source : Bytes) :
    (rows.filter (·.id ≠ source)).map shown = (rows.map shown).filter (·.id ≠ source) := by
  rw [List.filter_map]
  rfl

section Listing
variable {t : Tables} (sound : StoreSound t) {b : Client} (id_size : b.id.length = 16)
variable (no_contacts : b.contacts = []) {env : Environment} {raw : Bytes}
variable (sent : (perform b .listUsers env).sent = some raw)
variable {request : ServerRequest} (accepted : accept raw = some request) {draws : Draws}
variable {resp : ServerResponse}
variable (answered : (run execute (handle draws request) t).2 = .ok resp)
variable (fits : resp.payload.length ≤ 65536) {rest : Socket}
variable (header : recv 7 env.sock = (.data (resp.rawData.take 7), rest)) (pieces : Flowing rest)
variable (joined : contents rest = resp.payload)
include sound id_size no_contacts sent accepted answered fits header pieces joined

theorem listing_shows : (perform b .listUsers env).client.contacts =
    (t.clients.map shown).filter (·.id ≠ b.id) := by
  obtain ⟨-, asked, source, contacts⟩ := listing_sent id_size sent accepted
  obtain ⟨object, small⟩ := list_answer asked answered
  obtain ⟨rows_sound, distinct_ids⟩ := listed_sound sound b.id
  rw [source] at object
  have some_id : b.id ≠ [] := List.ne_nil_of_length_pos (by omega)
  have front : resp.rawData.take 7 =
      responseHeader supportedVersion codeClientsList resp.payload.length := by
    rw [object]
    exact List.take_left' (response_header_length _ _ _)
  rw [front] at header
  obtain ⟨after, done⟩ := list_operation_done b.contacts some_id env.beyond
    (show codeClientsList ∈ supportedResponses by decide) small header pieces joined
  have no_error : codeClientsList ≠ codeError := by decide
  have not_big : ¬ Client.maxPayloadSize < resp.payload.length := Nat.not_lt.mpr fits
  rw [contacts, done, if_neg no_error, if_neg not_big, no_contacts]
  have payload : resp.payload = (listed t b.id).flatMap listEntry := by rw [object]
  calc addContacts [] resp.payload = (listed t b.id).map shown := by
        rw [payload, contacts_of_rows rows_sound distinct_ids]
    _ = (t.clients.map shown).filter (·.id ≠ b.id) := listed_contacts b.id

end Listing

/-- After any registrations under sound names, and any requests of other kinds, a
    client without contacts that lists the others has one contact for each success
    but its own, with the id of the response and the name that was typed. -/
theorem names_and_ids_listed {regs : List Registration} {calls later : List Call} {s t : Server}
    (made : List.Forall₂ Made regs calls) (names : ∀ r ∈ regs, NameSound r.name)
    (distinct : (regs.map fun r => r.draws.uuid.bytes).Nodup)
    (registers : runFrom Server.next ⟨emptyTables, []⟩ calls = some s)
    (others : ∀ call ∈ later, call.request.requestCode ≠ codeRegister)
    (goes_on : runFrom Server.next s later = some t)
    {b : Client} (id_size : b.id.length = 16) (no_contacts : b.contacts = [])
    {env : Environment} {raw : Bytes} (sent : (perform b .listUsers env).sent = some raw)
    {request : ServerRequest} (accepted : accept raw = some request) (draws : Draws)
    {resp : ServerResponse} (answered : (run execute (handle draws request) t.tables).2 = .ok resp)
    (fits : resp.payload.length ≤ 65536) {rest : Socket}
    (header : recv 7 env.sock = (.data (resp.rawData.take 7), rest)) (pieces : Flowing rest)
    (joined : contents rest = resp.payload) :
    (perform b .listUsers env).client.contacts =
      (successes regs s.history).filter (·.id ≠ b.id) := by
  have fresh : ∀ r ∈ regs, r.draws.uuid.bytes ∉ emptyTables.clients.map ClientRow.id := by
    intro r _
    simp [emptyTables]
  obtain ⟨new, history, registered⟩ := registrations_run made names distinct fresh registers
  have known : t.tables.clients.map shown = successes regs s.history := by
    rw [others_run others goes_on, registered, history]
    rfl
  have sound : StoreSound t.tables := by
    have start : Reachable sequential ⟨emptyTables, []⟩ := .start rfl
    have registered_there := run_reachable calls start registers
    exact store_sound.holds (run_reachable later registered_there goes_on)
  rw [← known]
  exact listing_shows sound id_size no_contacts sent accepted answered fits header pieces joined

/-! Two clients that register one after the other. -/

theorem registration_sent {c : Client} {id : ClientId} (own : c.id = id.bytes)
    (unregistered : Client.isClientRegistered c.meInfo = false) (typed : Bytes)
    {env : Environment} (sends : env.sends = true) :
    (RegisterOperation.doOperation c typed env).sent =
      some (requestOf id codeRegister (registrationPayload typed)).rawData := by
  have made : ClientRequest.ofPayload id.bytes codeRegister (registrationPayload typed) = _ :=
    payload_request (by decide) (fun _ => rfl) (registrationPayload typed)
  have sent := exchange_sends "Register Operation" ⟨id.bytes, codeRegister, supportedVersion,
    (registrationPayload typed).length, registrationPayload typed, []⟩
    RegisterOperation.responseSize sends
  rw [build_appends, List.nil_append] at sent
  unfold RegisterOperation.doOperation RegisterOperation.doOperationFinding
  dsimp only
  rw [created_payload, own, made, if_neg (by simp [unregistered])]
  dsimp only
  split
  · exact sent
  · split <;> exact sent

theorem registration_made {c : Client} {id : ClientId} (own : c.id = id.bytes)
    (unregistered : Client.isClientRegistered c.meInfo = false) {typed : Bytes}
    (short : typed.length ≤ 255) {env : Environment} (sends : env.sends = true) (draws : Draws) :
    Made ⟨c, typed, env, draws⟩ ⟨draws, requestOf id codeRegister (registrationPayload typed)⟩ := by
  have size := registration_size short
  have accepted := accept_layout id (registrationPayload typed)
    (show codeRegister ∈ supportedCodes by decide)
    (show 23 + (registrationPayload typed).length ≤ 0x7fffffff by omega)
  exact ⟨rfl, _, registration_sent own unregistered typed sends, accepted⟩

def namedRow (uuid : ClientId) (name : Bytes) : ClientRow :=
  ⟨uuid.bytes, name, (registrationPayload name).drop 255⟩

theorem two_registered (drawsA drawsB : Draws) (client : ClientId)
    (different : drawsB.uuid.bytes ≠ drawsA.uuid.bytes) :
    let first := requestOf client codeRegister (registrationPayload [0x41])
    let second := requestOf client codeRegister (registrationPayload [0x42])
    runFrom Server.next ⟨emptyTables, []⟩ [⟨drawsA, first⟩, ⟨drawsB, second⟩] =
      some ⟨⟨[namedRow drawsA.uuid [0x41], namedRow drawsB.uuid [0x42]], [], 0⟩,
        [⟨first, .ok (registered drawsA.uuid)⟩, ⟨second, .ok (registered drawsB.uuid)⟩]⟩ := by
  intro first second
  have soundA : NameSound [0x41] := ⟨by decide, by decide, by decide, by decide, by decide⟩
  have soundB : NameSound [0x42] := ⟨by decide, by decide, by decide, by decide, by decide⟩
  have keyA := sound_registration soundA
  have keyB := sound_registration soundB
  let mid : Server :=
    ⟨⟨[namedRow drawsA.uuid [0x41]], [], 0⟩, [⟨first, .ok (registered drawsA.uuid)⟩]⟩
  have takenA : Server.next ⟨emptyTables, []⟩ ⟨drawsA, first⟩ = some mid :=
    next_registers _ drawsA client keyA.1 keyA.2 (by simp [emptyTables]) (by simp [emptyTables])
  have new_name : [0x42] ∉ mid.tables.clients.map ClientRow.name := by
    simp [mid, namedRow]
  have new_id : drawsB.uuid.bytes ∉ mid.tables.clients.map ClientRow.id := by
    simp [mid, namedRow, different]
  have takenB := next_registers mid drawsB client keyB.1 keyB.2 new_name new_id
  rw [runFrom, takenA, Option.bind_some, runFrom, takenB, Option.bind_some, runFrom]
  rfl

theorem two_clients_listed :
    let a : ClientId := ⟨List.replicate 16 1, rfl⟩
    let b : ClientId := ⟨List.replicate 16 2, rfl⟩
    let drawsA : Draws := ⟨a, 1, by decide, by decide⟩
    let drawsB : Draws := ⟨b, 1, by decide, by decide⟩
    ∃ s, runFrom Server.next ⟨emptyTables, []⟩
        [⟨drawsA, requestOf a codeRegister (registrationPayload [0x41])⟩,
          ⟨drawsB, requestOf a codeRegister (registrationPayload [0x42])⟩] = some s ∧
      ∃ resp, (run execute (handle drawsB (requestOf b codeListClients [])) s.tables).2 = .ok resp ∧
        (perform ⟨[0x42], b.bytes, [], [], none⟩ .listUsers
          ⟨true, true, 0, [], [.data (resp.rawData.take 7), .data resp.payload]⟩).client.contacts =
            [⟨[0x41], a.bytes, [], []⟩] := by
  intro a b drawsA drawsB
  let unsent : Environment := ⟨true, true, 0, [], []⟩
  let newcomer : Client := ⟨[], a.bytes, [], [], none⟩
  let lister : Client := ⟨[0x42], b.bytes, [], [], none⟩
  let listing : ServerRequest := requestOf b codeListClients []
  let t : Tables := ⟨[namedRow a [0x41], namedRow b [0x42]], [], 0⟩
  have names : ∀ name ∈ ([[0x41], [0x42]] : List Bytes), NameSound name := by
    intro name listed
    have one_of : name = [0x41] ∨ name = [0x42] := by simpa using listed
    rcases one_of with rfl | rfl <;> exact ⟨by decide, by decide, by decide, by decide, by decide⟩
  have registers := two_registered drawsA drawsB a (by decide)
  have sound : StoreSound t := by
    have start : Reachable sequential ⟨emptyTables, []⟩ := .start rfl
    exact store_sound.holds (run_reachable _ start registers)
  obtain ⟨resp, answered⟩ := listing_answered sound drawsB
    (show listing.requestCode = codeListClients from rfl)
    (show (listed t listing.clientId.bytes).length ≤ 15000000 by decide)
  obtain ⟨object, -⟩ := list_answer rfl answered
  have others : listed t b.bytes = [namedRow a [0x41]] := by decide +kernel
  have long : resp.payload.length = 271 := by
    rw [object]
    show ((listed t b.bytes).flatMap listEntry).length = 271
    rw [others, List.flatMap_singleton]
    exact list_entry_length (sound.clients _ List.mem_cons_self)
  have pieces : ∀ c ∈ [resp.payload], c ≠ [] := by
    intro c hc
    rw [List.mem_singleton.mp hc]
    exact List.ne_nil_of_length_pos (by omega)
  have header_fits : (resp.rawData.take 7).length ≤ 7 := List.length_take_le _ _
  have made : List.Forall₂ Made
      [⟨newcomer, [0x41], unsent, drawsA⟩, ⟨newcomer, [0x42], unsent, drawsB⟩]
      [⟨drawsA, requestOf a codeRegister (registrationPayload [0x41])⟩,
        ⟨drawsB, requestOf a codeRegister (registrationPayload [0x42])⟩] :=
    .cons (registration_made rfl rfl (by decide) rfl drawsA)
      (.cons (registration_made rfl rfl (by decide) rfl drawsB) .nil)
  let env : Environment :=
    ⟨true, true, 0, [], [.data (resp.rawData.take 7), .data resp.payload]⟩
  have sent : (perform lister .listUsers env).sent = some listing.rawData := by
    have asked : ClientRequest.ofCode b.bytes codeListClients =
        .ok ⟨b.bytes, codeListClients, supportedVersion, 0, [], []⟩ := rfl
    have built := header_request_sent "ListUser Operation" asked 0 env.sock
    rw [build_appends, List.nil_append] at built
    exact built
  have accepted : accept listing.rawData = some listing := by decide
  have none_later : ∀ call ∈ ([] : List Call), call.request.requestCode ≠ codeRegister := by simp
  have contacts := names_and_ids_listed made (by simpa using names) (by decide) registers
    none_later rfl (show lister.id.length = 16 from rfl) rfl sent accepted drawsB answered
    (by omega) (recv_segment header_fits (segments [resp.payload])) (segments_flowing pieces)
    (by rw [segments_contents]; simp)
  exact ⟨_, registers, resp, answered, contacts⟩

end RegisteredContacts
