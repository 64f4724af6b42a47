import MessageU.RequestFragments

/- How a request that was received can end: with a response, with an error
   response, or with an exception that ends its worker without a word. The checks
   of a handler come before its write, except that a fetch has deleted the mailbox
   by the time its response is packed. -/
namespace HandlerOutcomes
open ByteFields SegmentedStream GuardedRuns StatementPrograms RequestFormat ServerTables
open ResponseFormat RequestHandling ServerRuns ServerWorker RequestFragments

inductive ReachableTables : Tables → Prop where
  | sequential {s : Server} (reached : Reachable sequential s) : ReachableTables s.tables
  | interleaved {pool : Workers} (reached : Reachable workers pool) : ReachableTables pool.store

theorem reachable_sound {t : Tables} (reached : ReachableTables t) : StoreSound t := by
  cases reached with
  | sequential reached => exact store_sound.holds reached
  | interleaved reached => exact (workers_store_sound.holds reached).2

/-! What a handler returns can be built again. -/

structure ResponseSound (resp : ServerResponse) : Prop where
  version : resp.version = supportedVersion
  code : resp.code ∈ supportedResponses
  size : resp.payload.length < 2 ^ 32

theorem error_sound : ResponseSound getErrResponse :=
  ⟨rfl, by decide, by decide⟩

theorem build_keeps_version {r built : ServerResponse} {payload : Bytes}
    (done : r.build payload = .ok built) : built.version = r.version := by
  simp only [ServerResponse.build] at done
  split at done
  all_goals
    split at done
    · cases done
      rfl
    · cases done

theorem build_bounds {r built : ServerResponse} {payload : Bytes}
    (done : r.build payload = .ok built) : built.payload.length < 2 ^ 32 := by
  simp only [ServerResponse.build] at done
  split at done
  all_goals
    split at done
    · rename_i fits
      cases done
      exact fits
    · cases done

def AnswerSound (success : Nat) (resp : ServerResponse) : Prop :=
  ResponseSound resp ∧ (resp.code = codeError ∨ resp.code = success)

theorem error_answer (success : Nat) : AnswerSound success getErrResponse :=
  ⟨error_sound, Or.inl rfl⟩

theorem built_yields {code : Nat} (supported : code ∈ supportedResponses) (payload : Bytes) :
    (built ((ServerResponse.ofCode code).build payload)).Yields (AnswerSound code) := by
  cases result : (ServerResponse.ofCode code).build payload with
  | error e => trivial
  | ok resp =>
    have same_code := build_code result
    refine ⟨⟨build_keeps_version result, ?_, build_bounds result⟩, Or.inr same_code⟩
    rw [same_code]
    exact supported

theorem register_yields (uuid : ClientId) (paramsRaw : Bytes) :
    (registerUser uuid paramsRaw).Yields (AnswerSound codeSuccessfulRegistration) := by
  unfold registerUser
  split
  · exact error_answer _
  · apply yields_bind
    intro name
    apply yields_bind
    intro taken
    split
    · exact error_answer _
    · apply yields_bind
      intro key
      apply yields_bind
      intro added
      exact built_yields (by decide) _

theorem list_yields (source : Bytes) :
    (listClients source).Yields (AnswerSound codeClientsList) := by
  unfold listClients
  apply yields_bind
  intro clients
  exact built_yields (by decide) _

theorem send_yields (msgId : Nat) (paramsRaw source : Bytes) :
    (sendMsg msgId paramsRaw source).Yields (AnswerSound codeMsgSent) := by
  unfold sendMsg
  split
  · exact error_answer _
  · apply yields_bind
    intro valid
    split
    · exact error_answer _
    · dsimp only
      split
      · exact error_answer _
      · split
        · exact error_answer _
        · apply yields_bind
          intro stored
          cases stored with
          | none => exact error_answer _
          | some id => exact built_yields (by decide) _

theorem pubkey_yields (paramsRaw : Bytes) :
    (getPubkey paramsRaw).Yields (AnswerSound codePublicKey) := by
  unfold getPubkey
  split
  · exact error_answer _
  · apply yields_bind
    intro key
    exact built_yields (by decide) _

theorem fetch_loop_yields (rows : List MessageRow) (payload : Bytes) :
    (fetchLoop rows payload).Yields (AnswerSound codeMsgFetch) := by
  induction rows generalizing payload with
  | nil => exact built_yields (by decide) _
  | cons m rest ih =>
    unfold fetchLoop
    split
    · apply yields_bind
      intro deleted
      exact ih _
    · trivial

theorem fetch_yields (source : Bytes) :
    (fetchMessages source).Yields (AnswerSound codeMsgFetch) := by
  unfold fetchMessages
  apply yields_bind
  intro rows
  exact fetch_loop_yields rows []

def answerCodes : List (Nat × Nat) :=
  [(codeRegister, codeSuccessfulRegistration), (codeListClients, codeClientsList),
    (codeSendMsg, codeMsgSent), (codeFetchMessages, codeMsgFetch),
    (codeFetchPublicKey, codePublicKey)]

theorem answer_paired {code success : Nat} (paired : (code, success) ∈ answerCodes)
    {p : Sql ServerResponse} (yields : p.Yields (AnswerSound success)) :
    p.Yields fun resp => ResponseSound resp ∧
      (resp.code = codeError ∨ (code, resp.code) ∈ answerCodes) := by
  apply yields_weaken _ yields
  rintro resp ⟨sound, error | succeeded⟩
  · exact ⟨sound, Or.inl error⟩
  · exact ⟨sound, Or.inr (succeeded ▸ paired)⟩

theorem handle_answers (draws : Draws) (request : ServerRequest) :
    (handle draws request).Yields fun resp => ResponseSound resp ∧
      (resp.code = codeError ∨ (request.requestCode, resp.code) ∈ answerCodes) := by
  rcases handled_code_cases request with
    unsupported | register | list | send | fetch | pubkey
  · rw [handle_unsupported draws unsupported]
    exact ⟨error_sound, Or.inl rfl⟩
  · rw [handle_register draws register, register]
    exact answer_paired (by decide) (register_yields _ _)
  · rw [handle_list draws list, list]
    exact answer_paired (by decide) (list_yields _)
  · rw [handle_send draws send, send]
    exact answer_paired (by decide) (send_yields _ _ _)
  · rw [handle_fetch draws fetch, fetch]
    exact answer_paired (by decide) (fetch_yields _)
  · rw [handle_pubkey draws pubkey, pubkey]
    exact answer_paired (by decide) (pubkey_yields _)

theorem handle_yields (draws : Draws) (request : ServerRequest) :
    (handle draws request).Yields ResponseSound :=
  yields_weaken (fun _ answered => answered.1) (handle_answers draws request)

def wireBytes (resp : ServerResponse) : Bytes :=
  responseHeader supportedVersion resp.code resp.payload.length ++ resp.payload

theorem build_again {resp : ServerResponse} (sound : ResponseSound resp) :
    resp.build [] = .ok { resp with rawData := wireBytes resp } := by
  unfold ServerResponse.build
  rw [if_neg (not_not.mpr rfl)]
  dsimp only
  rw [if_pos sound.size, sound.version]
  rfl

theorem answer_built (w : WorkerRun) {resp : ServerResponse} (sound : ResponseSound resp) :
    w.answer (.ok resp) = { w with sent := w.sent ++ [wireBytes resp] } := by
  have again : ResponseSound { resp with rawData := wireBytes resp } :=
    ⟨sound.version, sound.code, sound.size⟩
  unfold WorkerRun.answer
  dsimp only
  rw [build_again sound]
  dsimp only
  rw [build_again again]
  rfl

/-! Which requests are answered. -/

theorem run_faultless {α : Type} (p : Sql α) (t : Tables) :
    run executeFaulty p (t, []) = (((run execute p t).1, []), (run execute p t).2) := by
  induction p generalizing t with
  | done a => rfl
  | raise e => rfl
  | statement q k ih => exact ih (execute q t).2 (execute q t).1

def Answers (t : Tables) (p : Sql ServerResponse) : Prop :=
  ∃ resp, (run execute p t).2 = .ok resp

/-- A registration of the right size is read as text up to its taken name, and its
    key too when the name is free. -/
def RegistrationDecodes (t : Tables) (paramsRaw : Bytes) : Prop :=
  let name := strip 0x11 (paramsRaw.take 255)
  paramsRaw.length = 415 → validUtf8 name = true ∧
    (name ∉ t.clients.map ClientRow.name → validUtf8 (paramsRaw.drop 255) = true)

/-- The requests that raise nothing: what is decoded is text, and what is listed or
    fetched has a size that packs. -/
def Answerable (t : Tables) (request : ServerRequest) : Prop :=
  (request.requestCode = codeRegister → RegistrationDecodes t request.payload) ∧
  (request.requestCode = codeListClients →
    271 * (t.clients.filter (·.id ≠ request.clientId.bytes)).length < 2 ^ 32) ∧
  (request.requestCode = codeFetchMessages →
    ((t.mailbox request.clientId.bytes).map fun m => 25 + m.content.length).sum < 2 ^ 32)

instance (t : Tables) (paramsRaw : Bytes) : Decidable (RegistrationDecodes t paramsRaw) :=
  inferInstanceAs (Decidable (_ → _ ∧ (_ → _)))

instance (t : Tables) (request : ServerRequest) : Decidable (Answerable t request) :=
  inferInstanceAs (Decidable ((_ → _) ∧ (_ → _) ∧ (_ → _)))

theorem register_answers_iff (uuid : ClientId) (paramsRaw : Bytes) (t : Tables) :
    Answers t (registerUser uuid paramsRaw) ↔ RegistrationDecodes t paramsRaw := by
  unfold Answers RegistrationDecodes
  by_cases size : paramsRaw.length = 415
  · by_cases text : validUtf8 (strip 0x11 (paramsRaw.take 255)) = true
    · have asks : registrationName paramsRaw = some (strip 0x11 (paramsRaw.take 255)) :=
        if_pos ⟨size, text⟩
      rw [register_program uuid asks, run_statement]
      simp only [execute]
      by_cases taken : strip 0x11 (paramsRaw.take 255) ∈ t.clients.map ClientRow.name
      · rw [if_pos ((row_found_iff ClientRow.name _ _).mpr taken)]
        simp [text, taken]
      · rw [if_neg ((row_found_iff ClientRow.name _ _).not.mpr taken), run_register_tail]
        by_cases key_ok : validUtf8 (paramsRaw.drop 255) = true
        · simp [text, key_ok]
        · simp only [key_ok, size, taken]
          simp
    · rw [register_no_text uuid size text]
      simp [size, text]
  · rw [register_wrong_size uuid size]
    simp [size]

theorem send_answers (msgId : Nat) (paramsRaw source : Bytes) (t : Tables) :
    Answers t (sendMsg msgId paramsRaw source) := by
  unfold Answers
  by_cases accepted : MessageAccepted t msgId paramsRaw
  · rw [run_send_accepted source accepted]
    exact ⟨_, rfl⟩
  · rw [run_send_refused source accepted]
    exact ⟨_, rfl⟩

theorem pubkey_answers {t : Tables} (sound : StoreSound t) (paramsRaw : Bytes) :
    Answers t (getPubkey paramsRaw) := by
  unfold Answers
  by_cases size : paramsRaw.length = 16
  · rw [run_pubkey size, build_ok_iff, List.length_append, size]
    cases found : t.clients.filter (·.id = paramsRaw) with
    | nil => simp
    | cons row rest =>
      have stored : row ∈ t.clients := List.mem_of_mem_filter (found ▸ List.mem_cons_self)
      have key := (sound.clients row stored).publicKey
      simp [key]
  · rw [pubkey_refused size]
    exact ⟨_, rfl⟩

theorem list_answers_iff {t : Tables} (sound : StoreSound t) (source : Bytes) :
    Answers t (listClients source) ↔
      271 * (t.clients.filter (·.id ≠ source)).length < 2 ^ 32 := by
  unfold Answers
  rw [run_list_clients, build_ok_iff,
    list_payload_length fun c hc => sound.clients c (List.mem_of_mem_filter hc)]

theorem fetch_answers_iff {t : Tables} (sound : StoreSound t) (source : Bytes) :
    Answers t (fetchMessages source) ↔
      ((t.mailbox source).map fun m => 25 + m.content.length).sum < 2 ^ 32 := by
  unfold Answers
  rw [run_fetch sound.keyed (mailbox_packs sound source), build_ok_iff,
    fetch_payload_length (mailbox_sound sound source)]

theorem handle_answers_iff {t : Tables} (sound : StoreSound t) (draws : Draws)
    (request : ServerRequest) : Answers t (handle draws request) ↔ Answerable t request := by
  rcases handled_code_cases request with
    unsupported | register | list | send | fetch | pubkey
  · have unasked {code : Nat} (supported : code ∈ supportedCodes) :
        ¬ request.requestCode = code := fun same => unsupported (same ▸ supported)
    have answerable : Answerable t request :=
      ⟨fun asked => absurd asked (unasked (by decide)),
        fun asked => absurd asked (unasked (by decide)),
        fun asked => absurd asked (unasked (by decide))⟩
    rw [handle_unsupported draws unsupported]
    exact iff_of_true ⟨_, rfl⟩ answerable
  · rw [handle_register draws register, register_answers_iff]
    simp [Answerable, register, codeRegister, codeListClients, codeFetchMessages]
  · rw [handle_list draws list, list_answers_iff sound]
    simp [Answerable, list, codeRegister, codeListClients, codeFetchMessages]
  · rw [handle_send draws send]
    apply iff_of_true (send_answers _ _ _ t)
    simp [Answerable, send, codeRegister, codeListClients, codeSendMsg, codeFetchMessages]
  · rw [handle_fetch draws fetch, fetch_answers_iff sound]
    simp [Answerable, fetch, codeRegister, codeListClients, codeFetchMessages]
  · rw [handle_pubkey draws pubkey]
    apply iff_of_true (pubkey_answers sound _)
    simp [Answerable, pubkey, codeRegister, codeListClients, codeFetchPublicKey,
      codeFetchMessages]

def Replies (draws : Draws) (sock : Socket) (t : Tables) : Prop :=
  ∃ w store, run executeFaulty (workerHandleConnection draws sock) (t, []) = (store, .ok w) ∧
    w.raised = none ∧ w.sent.length = 1

theorem replies_iff (draws : Draws) {sock : Socket} {request : ServerRequest}
    (received : (receiveRequest sock).2 = some request) (t : Tables) :
    Replies draws sock t ↔ Answers t (handle draws request) := by
  have sound := receive_request_sound sock
  have worker := run_worker draws sock t []
  generalize receiveRequest sock = out at received sound worker
  obtain ⟨w, _ | taken⟩ := out
  · cases received
  · obtain rfl : taken = request := Option.some.inj received
    have quiet : w.raised = none := sound.raised
    have silent : w.sent = [] := by
      rcases sound.sent with nothing | ⟨impossible, -⟩
      · exact nothing
      · cases impossible
    simp only [List.tail_nil, run_faultless (handle draws taken) t] at worker
    unfold Replies Answers
    rw [worker]
    cases result : (run execute (handle draws taken) t).2 with
    | error e =>
      constructor
      · rintro ⟨_, _, ⟨rfl, rfl⟩, raised, -⟩
        cases raised
      · rintro ⟨resp, impossible⟩
        cases impossible
    | ok resp =>
      have resp_sound := run_yields execute (handle_yields draws taken) result
      rw [answer_built w resp_sound]
      constructor
      · intro _
        exact ⟨resp, rfl⟩
      · intro _
        refine ⟨_, _, rfl, quiet, ?_⟩
        simp [silent]

/-- A request is answered, and a worker that has received it sends one reply, unless
    it is a registration that is no text or its response is too long to pack. -/
theorem answered_iff {t : Tables} (reached : ReachableTables t) (draws : Draws)
    (request : ServerRequest) :
    (Answers t (handle draws request) ↔ Answerable t request) ∧
      ∀ sock, (receiveRequest sock).2 = some request →
        (Replies draws sock t ↔ Answerable t request) := by
  have handled := handle_answers_iff (reachable_sound reached) draws request
  constructor
  · exact handled
  · intro sock received
    exact (replies_iff draws received t).trans handled

theorem empty_tables_reached : ReachableTables emptyTables :=
  .sequential (s := ⟨emptyTables, []⟩) (.start rfl)

theorem hi_fetch_answered :
    let owner : ClientId := ⟨List.replicate 16 1, rfl⟩
    let draws : Draws := ⟨owner, 1, by decide, by decide⟩
    let request := requestOf owner codeFetchMessages []
    let sock := segments [layout owner.bytes supportedVersion codeFetchMessages 0 []]
    ∃ t, ReachableTables t ∧ (t.mailbox owner.bytes).map MessageRow.content = [[0x68, 0x69]] ∧
      (receiveRequest sock).2 = some request ∧ Answers t (handle draws request) ∧
      Replies draws sock t := by
  intro owner draws request sock
  obtain ⟨history, stored⟩ := own_messages_stored owner [(msgTypeSendTxtMsg, [0x68, 0x69])]
    (by decide) (by decide)
  have reached : ReachableTables _ := .sequential (restricted_reachable stored)
  have received : (receiveRequest sock).2 = some request := by
    apply full_pieces_received (by decide) (by decide) (List.append_nil _)
    · decide
    · intro c impossible
      cases impossible
    · decide
    · intro c impossible
      cases impossible
  let t : Tables := ⟨[ownRow owner], ownRows owner [(msgTypeSendTxtMsg, [0x68, 0x69])], 1⟩
  have answerable : Answerable t request := by decide
  obtain ⟨handled, replied⟩ := answered_iff reached draws request
  exact ⟨t, reached, rfl, received, handled.mpr answerable, (replied sock received).mpr answerable⟩

/-- A registration for the name ff, which no UTF-8 text has: the request is accepted
    and its worker dies without a reply. -/
theorem no_text_name_unanswered :
    let owner : ClientId := ⟨List.replicate 16 1, rfl⟩
    let draws : Draws := ⟨owner, 1, by decide, by decide⟩
    let payload := registrationPayload [0xff]
    let header := layout owner.bytes supportedVersion codeRegister payload.length []
    let request := requestOf owner codeRegister payload
    ReachableTables emptyTables ∧ accept (header ++ payload) = some request ∧
      (receiveRequest (segments [header, payload])).2 = some request ∧
      ¬ Answers emptyTables (handle draws request) ∧
      ¬ Replies draws (segments [header, payload]) emptyTables := by
  intro owner draws payload header request
  have size : payload.length = 415 := by decide +kernel
  have joined : header ++ [payload].flatten =
      layout owner.bytes supportedVersion codeRegister payload.length payload := by
    rw [List.flatten_singleton, layout_split _ _ _ _ payload]
  have received : (receiveRequest (segments [header, payload])).2 = some request := by
    apply full_pieces_received (by decide) (by omega) joined
    · decide +kernel
    · intro c hc
      rw [List.mem_singleton.mp hc]
      exact ⟨List.ne_nil_of_length_pos (by omega), by omega⟩
    · decide +kernel
    · intro c impossible
      cases impossible
  have unanswered : ¬ Answers emptyTables (handle draws request) := by
    rw [handle_register draws rfl, register_answers_iff, request_payload]
    intro decodes
    exact absurd (decodes size).1 (by decide +kernel)
  refine ⟨empty_tables_reached, ?_, received, unanswered, ?_⟩
  · have accepted := @accept_layout owner codeRegister payload (by decide) (by omega)
    rwa [← joined, List.flatten_singleton] at accepted
  · rw [replies_iff draws received]
    exact unanswered

end HandlerOutcomes
