import MessageU.ConcurrentRequests
import MessageU.MailboxConservation
import MessageU.MailService

/- The server is a mail service. Each request asks the service for something, and
   its response encodes what the service replies. What the service does for any
   sequence of requests, the server therefore does, alone or with many workers. -/
namespace MailRefinement
open ByteFields GuardedRuns StatementPrograms LinearizedThreads RequestFormat ServerTables
open ResponseFormat RequestHandling ServerRuns MailboxConservation ConcurrentRequests MailService

abbrev Mail : Type := Service Bytes Bytes Bytes Letter
abbrev MailRequest : Type := Request Bytes Bytes Bytes Letter
abbrev MailReply : Type := Reply Bytes Bytes Bytes Letter

def member (c : ClientRow) : Member Bytes Bytes Bytes := ⟨c.id, c.name, c.publicKey⟩

def mail (t : Tables) : Mail := ⟨t.clients.map member, fun id => (t.mailbox id).map letter⟩

/-! What a request asks for, and how a reply is encoded. -/

def askedJoin (uuid : ClientId) (paramsRaw : Bytes) : MailRequest :=
  match registrationName paramsRaw with
  | some name =>
    if validUtf8 (paramsRaw.drop 255) then .join ⟨uuid.bytes, name, paramsRaw.drop 255⟩
    else .nonsense
  | none => .nonsense

def asked (call : Call) : MailRequest :=
  let code := call.request.requestCode
  if code = codeRegister then askedJoin call.draws.uuid call.request.payload
  else if code = codeListClients then .directory call.request.clientId.bytes
  else if code = codeSendMsg then
    if MessageSound call.request.payload then
      .post (call.request.payload.take 16) (sentLetter call)
    else .nonsense
  else if code = codeFetchPublicKey then
    if call.request.payload.length = 16 then .lookUp call.request.payload else .nonsense
  else if code = codeFetchMessages then .take call.request.clientId.bytes
  else .nonsense

def memberEntry (m : Member Bytes Bytes Bytes) : Bytes :=
  zeroPadded ClientManager.clientIdSize m.id ++ zeroPadded ClientManager.nameSize m.name

def letterRecord (l : Letter) : Bytes :=
  l.source ++ (bigEndian 4 l.id ++ (bigEndian 1 (l.type &&& 0xff) ++
    (bigEndian 4 l.content.length ++ l.content)))

def encoded : MailReply → Except PyError ServerResponse
  | .joined m => (ServerResponse.ofCode codeSuccessfulRegistration).build m.id
  | .members list => (ServerResponse.ofCode codeClientsList).build (list.flatMap memberEntry)
  | .card id found => (ServerResponse.ofCode codePublicKey).build (id ++ found.getD [])
  | .posted dest l => (ServerResponse.ofCode codeMsgSent).build (dest ++ littleEndian 4 l.id)
  | .letters _ list => (ServerResponse.ofCode codeMsgFetch).build (list.flatMap letterRecord)
  | .refused | .ignored => .ok getErrResponse

/-- Nonsense is answered with an error too, or it is text that cannot be decoded. -/
def Encodes (reply : MailReply) (result : Except PyError ServerResponse) : Prop :=
  (reply ≠ .ignored ∧ result = encoded reply) ∨
    (reply = .ignored ∧ (result = .ok getErrResponse ∨ result = .error .unicodeDecodeError))

theorem ignored_encodes {result : Except PyError ServerResponse}
    (ended_so : result = .ok getErrResponse ∨ result = .error .unicodeDecodeError) :
    Encodes .ignored result := Or.inr ⟨rfl, ended_so⟩

theorem built_done {result : Except PyError ServerResponse} {r : ServerResponse}
    (done : built result = .done r) : result = .ok r := by
  cases result with
  | ok value =>
    cases done
    rfl
  | error e => cases done

/-! One request. -/

/-- A request that changes the tables as the service changes, and says so. -/
def Served (t : Tables) (r : MailRequest)
    (out : Tables × Except PyError ServerResponse) : Prop :=
  mail out.1 = ((mail t).answer Letter.id r).1 ∧ Encodes ((mail t).answer Letter.id r).2 out.2

section Handlers
variable {t : Tables}

theorem names_of_mail (t : Tables) :
    (mail t).members.map Member.name = t.clients.map ClientRow.name := by
  rw [mail, List.map_map]
  rfl

theorem ids_of_mail (t : Tables) :
    (mail t).members.map Member.id = t.clients.map ClientRow.id := by
  rw [mail, List.map_map]
  rfl

theorem waiting_iff (t : Tables) (id : Nat) :
    (mail t).Waiting Letter.id id ↔ id ∈ t.messages.map MessageRow.id := by
  constructor
  · rintro ⟨owner, l, listed, same⟩
    obtain ⟨m, waits, rfl⟩ := List.mem_map.mp listed
    exact List.mem_map.mpr ⟨m, List.mem_of_mem_filter waits, same⟩
  · intro used
    obtain ⟨m, stored, same⟩ := List.mem_map.mp used
    have waits : m ∈ t.mailbox m.toClient := List.mem_filter.mpr ⟨stored, decide_eq_true rfl⟩
    exact ⟨m.toClient, letter m, List.mem_map_of_mem waits, same⟩

theorem ignored_served {out : Tables × Except PyError ServerResponse} (same : out.1 = t)
    (ended_so : out.2 = .ok getErrResponse ∨ out.2 = .error .unicodeDecodeError) :
    Served t .nonsense out :=
  ⟨congrArg mail same, ignored_encodes ended_so⟩

theorem register_served (uuid : ClientId) (paramsRaw : Bytes) :
    Served t (askedJoin uuid paramsRaw) (run execute (registerUser uuid paramsRaw) t) := by
  rw [askedJoin]
  cases asks : registrationName paramsRaw with
  | none =>
    rcases register_refused uuid asks with refused | raised
    · rw [refused]
      exact ignored_served rfl (Or.inl rfl)
    · rw [raised]
      exact ignored_served rfl (Or.inr rfl)
  | some name =>
    dsimp only
    rw [register_program uuid asks, run_statement]
    by_cases text : validUtf8 (paramsRaw.drop 255) = true
    · rw [if_pos text]
      have confirmed : encoded (.joined ⟨uuid.bytes, name, paramsRaw.drop 255⟩) =
        .ok (registered uuid) := built_done (built_registered uuid)
      by_cases taken : name ∈ t.clients.map ClientRow.name
      · have found := (row_found_iff ClientRow.name t.clients name).mpr taken
        simp only [execute, found, ↓reduceIte, run_done, Served, Service.answer, names_of_mail,
          taken]
        exact ⟨trivial, Or.inl ⟨fun impossible => (by cases impossible), rfl⟩⟩
      · have free := (row_found_iff ClientRow.name t.clients name).not.mpr taken
        simp only [execute, free, ↓reduceIte]
        rw [run_register_tail, if_pos text]
        by_cases in_use : uuid.bytes ∈ t.clients.map ClientRow.id
        · simp only [execute, in_use, ↓reduceIte, Served, Service.answer, names_of_mail, taken,
            ids_of_mail]
          exact ⟨trivial, Or.inl ⟨fun impossible => (by cases impossible), confirmed.symm⟩⟩
        · simp only [execute, in_use, ↓reduceIte, Served, Service.answer, names_of_mail, taken,
            ids_of_mail]
          refine ⟨?_, Or.inl ⟨fun impossible => (by cases impossible), confirmed.symm⟩⟩
          simp [mail, member, Tables.mailbox]
    · rw [if_neg text]
      simp only [execute]
      split
      · exact ignored_served rfl (Or.inl rfl)
      · rw [run_register_tail, if_neg text]
        exact ignored_served rfl (Or.inr rfl)

theorem list_served (source : Bytes) :
    Served t (.directory source) (run execute (listClients source) t) := by
  rw [run_list_clients]
  refine ⟨rfl, Or.inl ⟨fun impossible => (by cases impossible), ?_⟩⟩
  simp only [Service.answer, encoded, mail, List.filter_map, List.flatMap_map]
  rfl

theorem card_found (clients : List ClientRow) (id : Bytes) :
    (((clients.map member).find? (·.id = id)).map Member.card).getD [] =
      ((clients.filter (·.id = id)).map ClientRow.publicKey).headD [] := by
  induction clients with
  | nil => rfl
  | cons c rest ih =>
    by_cases same : c.id = id
    · simp [member, same]
    · rw [List.map_cons, List.find?_cons_of_neg (by simp [member, same]),
        List.filter_cons_of_neg (by simp [same])]
      exact ih

theorem pubkey_served {paramsRaw : Bytes} (size : paramsRaw.length = 16) :
    Served t (.lookUp paramsRaw) (run execute (getPubkey paramsRaw) t) := by
  rw [run_pubkey size]
  refine ⟨rfl, Or.inl ⟨fun impossible => (by cases impossible), ?_⟩⟩
  simp only [Service.answer, encoded, mail, card_found]

theorem send_served (call : Call) (sound : MessageSound call.request.payload) :
    Served t (.post (call.request.payload.take 16) (sentLetter call)) (run execute
      (sendMsg call.draws.msgId call.request.payload call.request.clientId.bytes) t) := by
  by_cases accepted : MessageAccepted t call.draws.msgId call.request.payload
  · have known := accepted.2.1
    have free : ¬ (mail t).Waiting Letter.id (sentLetter call).id :=
      (waiting_iff t _).not.mpr accepted.2.2
    rw [run_send_accepted _ accepted]
    simp only [Served, Service.answer, ids_of_mail, known, free, not_false_eq_true, and_self,
      ↓reduceIte]
    refine ⟨?_, Or.inl ⟨fun impossible => (by cases impossible), ?_⟩⟩
    · rw [mail, mail, Service.mk.injEq]
      refine ⟨rfl, ?_⟩
      funext client
      rw [mailbox_with_message]
      by_cases here : call.request.payload.take 16 = client
      · subst here
        rw [if_pos rfl, Function.update_self]
        rfl
      · rw [if_neg here, Function.update_of_ne (Ne.symm here), List.append_nil]
    · have short : (call.request.payload.take 16).length ≤ 16 := by simp
      exact (built_done (built_sent short call.draws.msgId)).symm
  · have refused : ¬ (call.request.payload.take 16 ∈ t.clients.map ClientRow.id ∧
        ¬ (mail t).Waiting Letter.id (sentLetter call).id) := by
      rintro ⟨known, free⟩
      exact accepted ⟨sound, known, (waiting_iff t _).not.mp free⟩
    rw [run_send_refused _ accepted]
    simp only [Served, Service.answer, ids_of_mail, refused, ↓reduceIte]
    exact ⟨trivial, Or.inl ⟨fun impossible => (by cases impossible), rfl⟩⟩

theorem fetch_served (sound : StoreSound t) (source : Bytes) :
    Served t (.take source) (run execute (fetchMessages source) t) := by
  rw [run_fetch sound.keyed (mailbox_packs sound source)]
  refine ⟨?_, Or.inl ⟨fun impossible => (by cases impossible), ?_⟩⟩
  · rw [mail, Service.answer, mail, Service.mk.injEq]
    refine ⟨rfl, ?_⟩
    funext client
    rw [mailbox_emptied]
    by_cases here : client = source
    · subst here
      rw [if_pos rfl, Function.update_self]
      rfl
    · rw [if_neg here, Function.update_of_ne here]
  · simp only [Service.answer, encoded, mail, List.flatMap_map]
    rfl

end Handlers

theorem request_served (call : Call) {t : Tables} (sound : StoreSound t) :
    Served t (asked call) (run execute (handle call.draws call.request) t) := by
  rcases handled_code_cases call.request with
    unsupported | register | list | send | fetch | pubkey
  · have nonsense : asked call = .nonsense := by
      simp only [supportedCodes, List.mem_cons, List.not_mem_nil, or_false, not_or] at unsupported
      obtain ⟨a, b, c, d, e⟩ := unsupported
      simp only [asked, a, b, c, d, e, ↓reduceIte]
    rw [handle_unsupported _ unsupported, nonsense]
    exact ignored_served rfl (Or.inl rfl)
  · have join : asked call = askedJoin call.draws.uuid call.request.payload := by
      rw [asked, register]
      rfl
    rw [handle_register _ register, join]
    exact register_served _ _
  · have directory : asked call = .directory call.request.clientId.bytes := by
      rw [asked, list]
      rfl
    rw [handle_list _ list, directory]
    exact list_served _
  · rw [handle_send _ send]
    by_cases sound_message : MessageSound call.request.payload
    · have post : asked call = .post (call.request.payload.take 16) (sentLetter call) := by
        rw [asked, send]
        exact if_pos sound_message
      rw [post]
      exact send_served call sound_message
    · have nonsense : asked call = .nonsense := by
        rw [asked, send]
        exact if_neg sound_message
      rw [nonsense, run_send_refused _ fun accepted => sound_message accepted.1]
      exact ignored_served rfl (Or.inl rfl)
  · have take : asked call = .take call.request.clientId.bytes := by
      rw [asked, fetch]
      rfl
    rw [handle_fetch _ fetch, take]
    exact fetch_served sound _
  · rw [handle_pubkey _ pubkey]
    by_cases size : call.request.payload.length = 16
    · have look_up : asked call = .lookUp call.request.payload := by
        rw [asked, pubkey]
        exact if_pos size
      rw [look_up]
      exact pubkey_served size
    · have nonsense : asked call = .nonsense := by
        rw [asked, pubkey]
        exact if_neg size
      rw [nonsense, pubkey_refused size]
      exact ignored_served rfl (Or.inl rfl)

/-! Whole runs. -/

theorem sequence_served (calls : List Call) {t : Tables} (sound : StoreSound t) :
    mail (inSequence calls t).1 = ((mail t).serve Letter.id (calls.map asked)).1 ∧
      List.Forall₂ Encodes ((mail t).serve Letter.id (calls.map asked)).2
        (inSequence calls t).2 := by
  induction calls generalizing t with
  | nil => exact ⟨rfl, .nil⟩
  | cons call later ih =>
    obtain ⟨moved, encodes⟩ := request_served call sound
    have after := run_keeps execute execute_sound (handle_issues call.draws call.request) sound
    obtain ⟨rest, replies⟩ := ih after
    rw [moved] at rest replies
    exact ⟨rest, .cons encodes replies⟩

theorem history_results {calls : List Call} {s : Server}
    (ran : runFrom Server.next ⟨emptyTables, []⟩ calls = some s) :
    s.tables = (inSequence calls emptyTables).1 ∧
      s.history = List.zipWith (fun call r => ⟨call.request, r⟩) calls
        (inSequence calls emptyTables).2 ∧
      s.history.map Exchange.result = (inSequence calls emptyTables).2 := by
  rw [run_in_sequence] at ran
  cases ran
  refine ⟨rfl, rfl, ?_⟩
  have long : (inSequence calls emptyTables).2.length = calls.length := in_turn_length _ _ _ _
  calc (List.zipWith (fun call r => (⟨call.request, r⟩ : Exchange)) calls
        (inSequence calls emptyTables).2).map Exchange.result
      = List.zipWith (fun _ r => r) calls (inSequence calls emptyTables).2 := List.map_zipWith ..
    _ = (calls.zip (inSequence calls emptyTables).2).map Prod.snd := by
      rw [List.zip, List.map_zipWith]
    _ = (inSequence calls emptyTables).2 := List.map_snd_zip (Nat.le_of_eq long)

theorem reply_at {replies : List MailReply} {results : List (Except PyError ServerResponse)}
    (encode : List.Forall₂ Encodes replies results) {k : Nat} {r : Except PyError ServerResponse}
    (result : results[k]? = some r) :
    ∃ reply, replies[k]? = some reply ∧ Encodes reply r := by
  obtain ⟨k_in, rfl⟩ := List.getElem?_eq_some_iff.mp result
  have k_in_too : k < replies.length := encode.length_eq ▸ k_in
  exact ⟨replies[k], List.getElem?_eq_getElem k_in_too, encode.get k_in_too k_in⟩

/-- The server is the mail service: from the first request on it does to its tables
    what the service does, and its responses encode the service's replies. -/
theorem server_is_mail_service (calls : List Call) :
    ∃ s, runFrom Server.next ⟨emptyTables, []⟩ calls = some s ∧
      mail s.tables = (Service.empty.serve Letter.id (calls.map asked)).1 ∧
      List.Forall₂ Encodes (Service.empty.serve Letter.id (calls.map asked)).2
        (s.history.map Exchange.result) := by
  obtain ⟨moved, replies⟩ := sequence_served calls empty_store_sound
  have ran := run_in_sequence calls emptyTables []
  refine ⟨_, ran, moved, ?_⟩
  rw [(history_results ran).2.2]
  exact replies

/-- So are its workers, as far as they keep out of each other's way. -/
theorem workers_are_mail_service {pool : Workers}
    (reached : Reachable (workers.restrict Alone) pool) :
    ∃ order, Serial pool order ∧
      mail { pool.store with messages := settledRows pool } =
        (Service.empty.serve Letter.id (order.map (asked ∘ Prod.snd))).1 ∧
      ∀ i t r, pool.threads i = some t → ended t.rest = some r →
        ∃ (k : Nat) (reply : MailReply), order[k]? = some (i, t.tag) ∧
          (Service.empty.serve Letter.id (order.map (asked ∘ Prod.snd))).2[k]? = some reply ∧
          Encodes reply r := by
  obtain ⟨order, linear⟩ := linearized_run serial_points reached
  obtain ⟨moved, replies⟩ := sequence_served (order.map Prod.snd) empty_store_sound
  rw [List.map_map] at moved replies
  refine ⟨order, serial_of_linearized reached linear, ?_, ?_⟩
  · rw [← show _ = _ from linear.store]
    exact moved
  · intro i t r here is_over
    obtain ⟨k, entry, result⟩ := linear.results i t r here (settles_ended is_over)
    obtain ⟨reply, replied, encodes⟩ := reply_at replies result
    exact ⟨k, reply, entry, replied, encodes⟩

theorem text_run_served :
    ∃ pool t r, pool.threads 2 = some t ∧ t.rest = .done r ∧ ∃ order, Serial pool order ∧
      ∃ (k : Nat) (reply : MailReply), order[k]? = some (2, t.tag) ∧
        (Service.empty.serve Letter.id (order.map (asked ∘ Prod.snd))).2[k]? = some reply ∧
        Encodes reply (.ok r) := by
  obtain ⟨pool, reached, -, t, r, here, done, -⟩ := text_run
  obtain ⟨order, serial, -, replies⟩ := workers_are_mail_service reached
  exact ⟨pool, t, r, here, done, order, serial, replies 2 t (.ok r) here (by rw [done]; rfl)⟩

end MailRefinement
