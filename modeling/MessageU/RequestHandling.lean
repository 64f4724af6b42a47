import MessageU.ResponseFormat

/- RequestHandler.handle and its five handlers, as programs over the SQL
   statements in the order the source issues them. The random uuid and message
   id are drawn beforehand. Each handler comes with the program it is, one
   statement at a time, which both the lone run and the interleavings use. -/
namespace RequestHandling
open ByteFields StatementPrograms RequestFormat ServerTables ResponseFormat

def msgTypeGetSymKey : Nat := 1
def msgTypeSendSymKey : Nat := 2
def msgTypeSendTxtMsg : Nat := 3
def msgTypeSendFile : Nat := 4

def supportedMsgTypes : List Nat :=
  [msgTypeGetSymKey, msgTypeSendFile, msgTypeSendSymKey, msgTypeSendTxtMsg]

theorem supported_iff (type : Nat) : type ∈ supportedMsgTypes ↔ 1 ≤ type ∧ type ≤ 4 := by
  simp only [supportedMsgTypes, msgTypeGetSymKey, msgTypeSendFile, msgTypeSendSymKey,
    msgTypeSendTxtMsg, List.mem_cons, List.not_mem_nil, or_false]
  omega

def fieldSizeMsgTypeSize : Nat := 1
def fieldSizeMsgContentSize : Nat := 4

/-- uuid4().bytes_le and random.randint(1, 0xffffffff). -/
structure Draws where
  uuid : ClientId
  msgId : Nat
  positive : 1 ≤ msgId
  small : msgId ≤ 0xffffffff

def getErrResponse : ServerResponse := ServerResponse.ofCode codeError

def decodeText (bs : Bytes) : Sql Bytes :=
  if validUtf8 bs then .done bs else .raise .unicodeDecodeError

def built : Except PyError ServerResponse → Sql ServerResponse
  | .ok r => .done r
  | .error e => .raise e

def registerUser (uuid : ClientId) (paramsRaw : Bytes) : Sql ServerResponse :=
  if paramsRaw.length ≠ ClientManager.nameSize + ClientManager.publicKeySize then
    .done getErrResponse
  else do
    let clientName ← decodeText (strip 0x11 (paramsRaw.take ClientManager.nameSize))
    let exists? ← ClientManager.isClientExist clientName
    if exists? then .done getErrResponse
    else do
      let publicKey := paramsRaw.drop ClientManager.nameSize
      let _ ← decodeText publicKey
      ClientManager.addClient uuid.bytes clientName publicKey
      built ((ServerResponse.ofCode codeSuccessfulRegistration).build uuid.bytes)

def zeroPadded (size : Nat) (bs : Bytes) : Bytes := bs ++ List.replicate (size - bs.length) 0

def listEntry (client : ClientRow) : Bytes :=
  zeroPadded ClientManager.clientIdSize client.id ++
    zeroPadded ClientManager.nameSize client.name

def listClients (source : Bytes) : Sql ServerResponse := do
  let clientsList ← ClientManager.fetchAll source
  built ((ServerResponse.ofCode codeClientsList).build (clientsList.flatMap listEntry))

def requestMinSize : Nat :=
  ClientManager.clientIdSize + fieldSizeMsgTypeSize + fieldSizeMsgContentSize

/-- The type is checked last, after the declared size. -/
def sendMsg (msgId : Nat) (paramsRaw source : Bytes) : Sql ServerResponse :=
  if paramsRaw.length < requestMinSize then .done getErrResponse
  else do
    let clientId := paramsRaw.take ClientManager.clientIdSize
    let valid ← ClientManager.isIdValid clientId
    if !valid then .done getErrResponse
    else
      let contentSize := fromBigEndian (slice paramsRaw 17 21)
      if (paramsRaw.drop requestMinSize).length ≠ contentSize then .done getErrResponse
      else
        let msgType := fromBigEndian (slice paramsRaw 16 17)
        if msgType ∉ supportedMsgTypes then .done getErrResponse
        else do
          let stored ← MessageManager.addMessage msgId clientId source msgType
            (paramsRaw.drop requestMinSize)
          match stored with
          | none => .done getErrResponse
          | some id =>
            built ((ServerResponse.ofCode codeMsgSent).build
              (clientId ++ littleEndian MessageManager.msgIdSize id))

def getPubkey (paramsRaw : Bytes) : Sql ServerResponse :=
  if paramsRaw.length ≠ ClientManager.clientIdSize then .done getErrResponse
  else do
    let pubkey ← ClientManager.getPubKey paramsRaw
    built ((ServerResponse.ofCode codePublicKey).build (paramsRaw ++ pubkey))

def fetchRecord (m : MessageRow) : Bytes :=
  m.fromClient ++ (bigEndian 4 m.id ++ (bigEndian 1 (m.type &&& 0xff) ++
    (bigEndian 4 m.content.length ++ m.content)))

theorem fetch_record_length {m : MessageRow} (source : m.fromClient.length = 16) :
    (fetchRecord m).length = 25 + m.content.length := by
  simp only [fetchRecord, List.length_append, big_endian_length, source]
  omega

def Packs (m : MessageRow) : Prop := m.id < 2 ^ 32 ∧ m.content.length < 2 ^ 32

instance (m : MessageRow) : Decidable (Packs m) := inferInstanceAs (Decidable (_ ∧ _))

/-- The loop of __fetch_messages: a row is appended, then deleted. -/
def fetchLoop : List MessageRow → Bytes → Sql ServerResponse
  | [], payload => built ((ServerResponse.ofCode codeMsgFetch).build payload)
  | m :: rest, payload =>
    if Packs m then do
      MessageManager.deleteMessage m.id
      fetchLoop rest (payload ++ fetchRecord m)
    else .raise .structError

def fetchMessages (source : Bytes) : Sql ServerResponse := do
  let messages ← MessageManager.fetchMessages source
  fetchLoop messages []

def handle (draws : Draws) (request : ServerRequest) : Sql ServerResponse :=
  let code := request.requestCode
  if code ∉ supportedCodes then .done getErrResponse
  else if code = codeRegister then registerUser draws.uuid request.payload
  else if code = codeListClients then listClients request.clientId.bytes
  else if code = codeSendMsg then sendMsg draws.msgId request.payload request.clientId.bytes
  else if code = codeFetchPublicKey then getPubkey request.payload
  else if code = codeFetchMessages then fetchMessages request.clientId.bytes
  else .raise .keyError

/-! The handlers statement by statement. -/

theorem decode_text_ok {bs : Bytes} (text : validUtf8 bs = true) : decodeText bs = .done bs :=
  if_pos text

theorem decode_text_bad {bs : Bytes} (no_text : ¬ validUtf8 bs = true) :
    decodeText bs = .raise .unicodeDecodeError :=
  if_neg no_text

/-- The requests a registration lets through to its first statement. -/
def registrationName (paramsRaw : Bytes) : Option Bytes :=
  let name := strip 0x11 (paramsRaw.take 255)
  if paramsRaw.length = 415 ∧ validUtf8 name = true then some name else none

theorem registration_row {paramsRaw name : Bytes} (asks : registrationName paramsRaw = some name) :
    paramsRaw.length = 415 ∧ name = strip 0x11 (paramsRaw.take 255) := by
  simp only [registrationName] at asks
  split at asks
  · rename_i sound
    exact ⟨sound.1, (Option.some.inj asks).symm⟩
  · cases asks

theorem registration_sizes {paramsRaw name : Bytes}
    (asks : registrationName paramsRaw = some name) :
    paramsRaw.length = 415 ∧ name.length ≤ 255 := by
  obtain ⟨size, stripped⟩ := registration_row asks
  refine ⟨size, ?_⟩
  calc name.length = (strip 0x11 (paramsRaw.take 255)).length := by rw [stripped]
    _ ≤ (paramsRaw.take 255).length := strip_length _ _
    _ ≤ 255 := by simp

def registered (uuid : ClientId) : ServerResponse :=
  ⟨supportedVersion, codeSuccessfulRegistration, uuid.bytes,
    responseHeader supportedVersion codeSuccessfulRegistration 16 ++ uuid.bytes⟩

theorem built_registered (uuid : ClientId) :
    built ((ServerResponse.ofCode codeSuccessfulRegistration).build uuid.bytes) =
      .done (registered uuid) := by
  have size : uuid.bytes.length = 16 := uuid.size
  rw [build_ok (by omega), size]
  rfl

def registerTail (uuid : ClientId) (name key : Bytes) : Sql ServerResponse :=
  if validUtf8 key then
    .statement (.insertClient ⟨uuid.bytes, name, key⟩) fun _ => .done (registered uuid)
  else .raise .unicodeDecodeError

theorem register_tail_program (uuid : ClientId) (name key : Bytes) :
    (do let _ ← decodeText key
        ClientManager.addClient uuid.bytes name key
        built ((ServerResponse.ofCode codeSuccessfulRegistration).build uuid.bytes)) =
      registerTail uuid name key := by
  rw [registerTail]
  by_cases key_ok : validUtf8 key = true
  · rw [decode_text_ok key_ok, if_pos key_ok]
    exact same_answers (fun _ => built_registered uuid) fun _ => built_registered uuid
  · rw [decode_text_bad key_ok, if_neg key_ok]
    rfl

theorem register_program (uuid : ClientId) {paramsRaw name : Bytes}
    (asks : registrationName paramsRaw = some name) :
    registerUser uuid paramsRaw = .statement (.selectClientByName name) fun
      | .ok rows => if rows.length > 0 then .done getErrResponse
          else registerTail uuid name (paramsRaw.drop 255)
      | .error e => .raise (.database e) := by
  simp only [registrationName] at asks
  split at asks
  · rename_i sound
    cases asks
    simp only [registerUser, ClientManager.nameSize, ClientManager.publicKeySize, sound.1,
      ne_eq, not_true, ↓reduceIte, decode_text_ok sound.2, bind_done,
      ClientManager.isClientExist, doSql, bind_statement]
    refine same_answers (fun rows => ?_) fun _ => rfl
    simp only [bind_done, pure_done, decide_eq_true_eq]
    by_cases taken : rows.length > 0
    · rw [if_pos taken, if_pos taken]
    · rw [if_neg taken, if_neg taken]
      exact register_tail_program uuid _ _
  · cases asks

theorem register_wrong_size (uuid : ClientId) {paramsRaw : Bytes}
    (size : paramsRaw.length ≠ 415) : registerUser uuid paramsRaw = .done getErrResponse := by
  simp [registerUser, ClientManager.nameSize, ClientManager.publicKeySize, size]

theorem register_no_text (uuid : ClientId) {paramsRaw : Bytes} (size : paramsRaw.length = 415)
    (no_text : ¬ validUtf8 (strip 0x11 (paramsRaw.take 255)) = true) :
    registerUser uuid paramsRaw = .raise .unicodeDecodeError := by
  simp [registerUser, ClientManager.nameSize, ClientManager.publicKeySize, size, decodeText,
    no_text]

theorem register_refused (uuid : ClientId) {paramsRaw : Bytes}
    (refused : registrationName paramsRaw = none) :
    registerUser uuid paramsRaw = .done getErrResponse ∨
      registerUser uuid paramsRaw = .raise .unicodeDecodeError := by
  simp only [registrationName, ite_eq_right_iff, reduceCtorEq, imp_false, not_and] at refused
  by_cases size : paramsRaw.length = 415
  · exact Or.inr (register_no_text uuid size (refused size))
  · exact Or.inl (register_wrong_size uuid size)

theorem fetch_program (source : Bytes) :
    fetchMessages source = .statement (.selectMessages source) fun
      | .ok rows => fetchLoop rows []
      | .error _ => fetchLoop [] [] :=
  same_answers (fun _ => rfl) fun _ => rfl

theorem fetch_loop_cons {m : MessageRow} (packs : Packs m) (rest : List MessageRow)
    (payload : Bytes) :
    fetchLoop (m :: rest) payload = .statement (.deleteMessage m.id) fun _ =>
      fetchLoop rest (payload ++ fetchRecord m) := by
  rw [fetchLoop, if_pos packs]
  exact same_answers (fun _ => rfl) fun _ => rfl

def MessageSound (paramsRaw : Bytes) : Prop :=
  21 ≤ paramsRaw.length ∧ fromBigEndian (slice paramsRaw 17 21) = paramsRaw.length - 21 ∧
    fromBigEndian (slice paramsRaw 16 17) ∈ supportedMsgTypes

instance (paramsRaw : Bytes) : Decidable (MessageSound paramsRaw) :=
  inferInstanceAs (Decidable (_ ∧ _ ∧ _))

def sentResponse (dst : Bytes) (msgId : Nat) : ServerResponse :=
  let payload := dst ++ littleEndian 4 msgId
  ⟨supportedVersion, codeMsgSent, payload,
    responseHeader supportedVersion codeMsgSent payload.length ++ payload⟩

theorem built_sent {dst : Bytes} (short : dst.length ≤ 16) (msgId : Nat) :
    built ((ServerResponse.ofCode codeMsgSent).build (dst ++ littleEndian 4 msgId)) =
      .done (sentResponse dst msgId) := by
  have size : (dst ++ littleEndian 4 msgId).length = dst.length + 4 := by simp
  rw [build_ok (by omega)]
  rfl

def sendTail (msgId : Nat) (paramsRaw source : Bytes) : Sql ServerResponse :=
  if MessageSound paramsRaw then
    .statement (.insertMessage msgId (paramsRaw.take 16) source
      (fromBigEndian (slice paramsRaw 16 17)) (paramsRaw.drop 21)) fun
        | .ok _ => .done (sentResponse (paramsRaw.take 16) msgId)
        | .error _ => .done getErrResponse
  else .done getErrResponse

theorem add_message_program (msgId : Nat) (dst source : Bytes) (type : Nat) (content : Bytes)
    (next : Option Nat → Sql ServerResponse) :
    MessageManager.addMessage msgId dst source type content >>= next =
      .statement (.insertMessage msgId dst source type content) fun
        | .ok _ => next (some msgId)
        | .error _ => next none :=
  same_answers (fun _ => rfl) fun _ => rfl

theorem send_tail_program (msgId : Nat) {paramsRaw : Bytes} (source : Bytes)
    (enough : 21 ≤ paramsRaw.length) :
    (if (paramsRaw.drop 21).length ≠ fromBigEndian (slice paramsRaw 17 21) then
        .done getErrResponse
      else if fromBigEndian (slice paramsRaw 16 17) ∉ supportedMsgTypes then .done getErrResponse
      else do
        let stored ← MessageManager.addMessage msgId (paramsRaw.take 16) source
          (fromBigEndian (slice paramsRaw 16 17)) (paramsRaw.drop 21)
        match stored with
        | none => .done getErrResponse
        | some id => built ((ServerResponse.ofCode codeMsgSent).build
            (paramsRaw.take 16 ++ littleEndian 4 id))) =
      sendTail msgId paramsRaw source := by
  have short : (paramsRaw.take 16).length ≤ 16 := by simp
  rw [sendTail]
  by_cases size : fromBigEndian (slice paramsRaw 17 21) = paramsRaw.length - 21
  · by_cases type : fromBigEndian (slice paramsRaw 16 17) ∈ supportedMsgTypes
    · rw [if_pos (show MessageSound paramsRaw from ⟨enough, size, type⟩),
        if_neg (by simp [size]), if_neg (not_not.mpr type), add_message_program]
      exact same_answers (fun _ => built_sent short msgId) fun _ => rfl
    · rw [if_neg (fun sound : MessageSound paramsRaw => type sound.2.2),
        if_neg (by simp [size]), if_pos type]
  · rw [if_neg (fun sound : MessageSound paramsRaw => size sound.2.1),
      if_pos (by simpa using Ne.symm size)]

theorem send_program (msgId : Nat) {paramsRaw : Bytes} (source : Bytes)
    (enough : 21 ≤ paramsRaw.length) :
    sendMsg msgId paramsRaw source = .statement (.selectClientById (paramsRaw.take 16)) fun
      | .ok rows => if rows.length > 0 then sendTail msgId paramsRaw source
          else .done getErrResponse
      | .error e => .raise (.database e) := by
  have min_size : requestMinSize = 21 := rfl
  simp only [sendMsg, min_size, Nat.not_lt.mpr enough, ↓reduceIte, ClientManager.isIdValid, doSql,
    bind_statement]
  refine same_answers (fun rows => ?_) fun _ => rfl
  simp only [bind_done, pure_done, Bool.not_eq_true', decide_eq_false_iff_not]
  by_cases known : rows.length > 0
  · rw [if_neg (not_not.mpr known), if_pos known]
    exact send_tail_program msgId source enough
  · rw [if_pos known, if_neg known]

theorem send_refused (msgId : Nat) {paramsRaw : Bytes} (source : Bytes)
    (short : paramsRaw.length < 21) : sendMsg msgId paramsRaw source = .done getErrResponse :=
  if_pos short

/-! The handlers run alone on tables that answer every statement. -/

theorem run_built (result : Except PyError ServerResponse) (t : Tables) :
    run execute (built result) t = (t, result) := by
  cases result <;> rfl

def withMessage (t : Tables) (msgId : Nat) (paramsRaw source : Bytes) : Tables :=
  { t with
    messages := t.messages ++ [⟨msgId, paramsRaw.take 16, source,
      fromBigEndian (slice paramsRaw 16 17), paramsRaw.drop 21, t.accepted⟩]
    accepted := t.accepted + 1 }

def MessageAccepted (t : Tables) (msgId : Nat) (paramsRaw : Bytes) : Prop :=
  MessageSound paramsRaw ∧ paramsRaw.take 16 ∈ t.clients.map ClientRow.id ∧
    msgId ∉ t.messages.map MessageRow.id

theorem run_send_tail (msgId : Nat) {paramsRaw : Bytes} (source : Bytes) (t : Tables)
    (sound : MessageSound paramsRaw) :
    run execute (sendTail msgId paramsRaw source) t =
      if msgId ∈ t.messages.map MessageRow.id then (t, .ok getErrResponse)
      else (withMessage t msgId paramsRaw source,
        .ok (sentResponse (paramsRaw.take 16) msgId)) := by
  rw [sendTail, if_pos sound, run_statement]
  by_cases collides : msgId ∈ t.messages.map MessageRow.id
  · simp only [execute, if_pos collides, run_done]
  · simp only [execute, if_neg collides, run_done]
    rfl

theorem run_send_accepted {msgId : Nat} {paramsRaw : Bytes} (source : Bytes) {t : Tables}
    (accepted : MessageAccepted t msgId paramsRaw) :
    run execute (sendMsg msgId paramsRaw source) t =
      (withMessage t msgId paramsRaw source,
        .ok (sentResponse (paramsRaw.take 16) msgId)) := by
  obtain ⟨sound, known, fresh⟩ := accepted
  rw [send_program msgId source sound.1, run_statement]
  simp only [execute, (row_found_iff ClientRow.id _ _).mpr known, ↓reduceIte]
  rw [run_send_tail msgId source t sound, if_neg fresh]

theorem run_send_refused {msgId : Nat} {paramsRaw : Bytes} (source : Bytes) {t : Tables}
    (refused : ¬ MessageAccepted t msgId paramsRaw) :
    run execute (sendMsg msgId paramsRaw source) t = (t, .ok getErrResponse) := by
  by_cases enough : 21 ≤ paramsRaw.length
  · rw [send_program msgId source enough, run_statement]
    by_cases known : paramsRaw.take 16 ∈ t.clients.map ClientRow.id
    · simp only [execute, (row_found_iff ClientRow.id _ _).mpr known, ↓reduceIte]
      by_cases sound : MessageSound paramsRaw
      · rw [run_send_tail msgId source t sound]
        exact if_pos (by_contra fun fresh => refused ⟨sound, known, fresh⟩)
      · rw [sendTail, if_neg sound, run_done]
    · simp only [execute, (row_found_iff ClientRow.id _ _).not.mpr known, ↓reduceIte, run_done]
  · rw [send_refused msgId source (by omega), run_done]

theorem run_fetch_loop {rows : List MessageRow} (packs : ∀ m ∈ rows, Packs m)
    (payload : Bytes) (t : Tables) :
    run execute (fetchLoop rows payload) t =
      ({ t with messages := t.messages.filter (fun x => x.id ∉ rows.map MessageRow.id) },
        (ServerResponse.ofCode codeMsgFetch).build (payload ++ rows.flatMap fetchRecord)) := by
  induction rows generalizing payload t with
  | nil => simp [fetchLoop, run_built]
  | cons m rest ih =>
    have tail_packs : ∀ x ∈ rest, Packs x := fun x hx => packs x (List.mem_cons_of_mem m hx)
    rw [fetch_loop_cons (packs m List.mem_cons_self), run_statement, ih tail_packs]
    simp only [execute, List.filter_filter, List.flatMap_cons, List.append_assoc, List.map_cons,
      List.mem_cons, not_or, ne_eq, Bool.decide_and, Bool.and_comm]

theorem run_fetch {t : Tables} (keyed : t.Keyed) {source : Bytes}
    (packs : ∀ m ∈ t.mailbox source, Packs m) :
    run execute (fetchMessages source) t =
      ({ t with messages := t.messages.filter (·.toClient ≠ source) },
        (ServerResponse.ofCode codeMsgFetch).build ((t.mailbox source).flatMap fetchRecord)) := by
  have kept : t.messages.filter (fun x => x.id ∉ (t.mailbox source).map MessageRow.id) =
      t.messages.filter (·.toClient ≠ source) := by
    apply List.filter_congr
    intro x hx
    rw [decide_eq_decide, not_iff_not]
    constructor
    · intro listed
      obtain ⟨y, hy, same⟩ := List.mem_map.mp listed
      have stored := (List.mem_filter.mp hy).1
      have x_is_y := List.inj_on_of_nodup_map keyed.messageIds hx stored same.symm
      exact x_is_y ▸ of_decide_eq_true (List.mem_filter.mp hy).2
    · intro addressed
      exact List.mem_map_of_mem (List.mem_filter.mpr ⟨hx, decide_eq_true addressed⟩)
  rw [fetch_program, run_statement]
  simp only [execute]
  rw [← kept]
  exact run_fetch_loop packs [] t

theorem run_list_clients (source : Bytes) (t : Tables) :
    run execute (listClients source) t =
      (t, (ServerResponse.ofCode codeClientsList).build
        ((t.clients.filter (·.id ≠ source)).flatMap listEntry)) := by
  rw [← run_built _ t]
  rfl

theorem run_pubkey {paramsRaw : Bytes} (size : paramsRaw.length = 16) (t : Tables) :
    run execute (getPubkey paramsRaw) t =
      (t, (ServerResponse.ofCode codePublicKey).build (paramsRaw ++
        ((t.clients.filter (·.id = paramsRaw)).map ClientRow.publicKey).headD [])) := by
  have sixteen : ¬ paramsRaw.length ≠ ClientManager.clientIdSize := not_not.mpr size
  rw [getPubkey, if_neg sixteen]
  simp only [ClientManager.getPubKey, doSql, bind_statement, run_statement, execute, bind_done]
  cases found : (t.clients.filter (·.id = paramsRaw)).map ClientRow.publicKey with
  | nil => exact run_built _ t
  | cons key rest => exact run_built _ t

theorem pubkey_refused {paramsRaw : Bytes} (size : paramsRaw.length ≠ 16) :
    getPubkey paramsRaw = .done getErrResponse :=
  if_pos size

theorem run_get_pubkey (paramsRaw : Bytes) (t : Tables) :
    (run execute (getPubkey paramsRaw) t).1 = t ∧
      ∀ resp, (run execute (getPubkey paramsRaw) t).2 = .ok resp →
        resp.code = codeError ∨ resp.code = codePublicKey := by
  by_cases size : paramsRaw.length = 16
  · rw [run_pubkey size]
    exact ⟨rfl, fun resp answered => Or.inr (build_code answered)⟩
  · rw [pubkey_refused size]
    refine ⟨rfl, ?_⟩
    rintro resp ⟨⟩
    exact Or.inl rfl

theorem run_register_tail (uuid : ClientId) (name key : Bytes) (t : Tables) :
    run execute (registerTail uuid name key) t =
      if validUtf8 key then
        ((execute (.insertClient ⟨uuid.bytes, name, key⟩) t).1, .ok (registered uuid))
      else (t, .error .unicodeDecodeError) := by
  rw [registerTail]
  split <;> rfl

theorem run_register (uuid : ClientId) (paramsRaw : Bytes) (t : Tables) :
    run execute (registerUser uuid paramsRaw) t = (t, .ok getErrResponse) ∨
      run execute (registerUser uuid paramsRaw) t = (t, .error .unicodeDecodeError) ∨
      ∃ name, registrationName paramsRaw = some name ∧ name ∉ t.clients.map ClientRow.name ∧
        run execute (registerUser uuid paramsRaw) t =
          ((execute (.insertClient ⟨uuid.bytes, name, paramsRaw.drop 255⟩) t).1,
            .ok (registered uuid)) := by
  cases asks : registrationName paramsRaw with
  | none =>
    rcases register_refused uuid asks with refused | raised
    · exact Or.inl (by rw [refused, run_done])
    · exact Or.inr (Or.inl (by rw [raised, run_raise]))
  | some name =>
    rw [register_program uuid asks, run_statement]
    simp only [execute]
    split
    · exact Or.inl rfl
    · rename_i free
      have new_name := (row_found_iff ClientRow.name t.clients name).not.mp free
      rw [run_register_tail]
      split
      · exact Or.inr (Or.inr ⟨name, rfl, new_name, rfl⟩)
      · exact Or.inr (Or.inl rfl)

theorem run_register_accepted {uuid : ClientId} {paramsRaw name : Bytes} {t : Tables}
    (asks : registrationName paramsRaw = some name)
    (key_ok : validUtf8 (paramsRaw.drop 255) = true)
    (new_name : name ∉ t.clients.map ClientRow.name)
    (new_id : uuid.bytes ∉ t.clients.map ClientRow.id) :
    run execute (registerUser uuid paramsRaw) t =
      ({ t with clients := t.clients ++ [⟨uuid.bytes, name, paramsRaw.drop 255⟩] },
        .ok (registered uuid)) := by
  rw [register_program uuid asks, run_statement]
  simp only [execute, (row_found_iff ClientRow.name _ _).not.mpr new_name, ↓reduceIte]
  rw [run_register_tail, if_pos key_ok]
  simp only [execute, new_id, ↓reduceIte]

section Dispatch
variable (draws : Draws) {request : ServerRequest}

theorem handle_register (asked : request.requestCode = codeRegister) :
    handle draws request = registerUser draws.uuid request.payload := by
  rw [handle, asked]
  rfl

theorem handle_list (asked : request.requestCode = codeListClients) :
    handle draws request = listClients request.clientId.bytes := by
  rw [handle, asked]
  rfl

theorem handle_send (asked : request.requestCode = codeSendMsg) :
    handle draws request = sendMsg draws.msgId request.payload request.clientId.bytes := by
  rw [handle, asked]
  rfl

theorem handle_pubkey (asked : request.requestCode = codeFetchPublicKey) :
    handle draws request = getPubkey request.payload := by
  rw [handle, asked]
  rfl

theorem handle_fetch (asked : request.requestCode = codeFetchMessages) :
    handle draws request = fetchMessages request.clientId.bytes := by
  rw [handle, asked]
  rfl

theorem handle_unsupported (unsupported : request.requestCode ∉ supportedCodes) :
    handle draws request = .done getErrResponse := by
  rw [handle, if_pos unsupported]

theorem handled_code_cases (request : ServerRequest) :
    request.requestCode ∉ supportedCodes ∨ request.requestCode = codeRegister ∨
      request.requestCode = codeListClients ∨ request.requestCode = codeSendMsg ∨
      request.requestCode = codeFetchMessages ∨ request.requestCode = codeFetchPublicKey := by
  by_cases supported : request.requestCode ∈ supportedCodes
  · right
    simpa [supportedCodes] using supported
  · exact Or.inl supported

end Dispatch

/-- What one request can do to the messages: it stores its own, it empties the
    mailbox of its sender, or it leaves them alone and answers neither code. -/
theorem run_handle_cases (draws : Draws) (request : ServerRequest) {t : Tables}
    (keyed : t.Keyed) (packs : ∀ m ∈ t.messages, Packs m) :
    (request.requestCode = codeSendMsg ∧ MessageAccepted t draws.msgId request.payload ∧
      run execute (handle draws request) t =
        (withMessage t draws.msgId request.payload request.clientId.bytes,
          .ok (sentResponse (request.payload.take 16) draws.msgId))) ∨
    (request.requestCode = codeFetchMessages ∧
      run execute (handle draws request) t =
        ({ t with messages := t.messages.filter (·.toClient ≠ request.clientId.bytes) },
          (ServerResponse.ofCode codeMsgFetch).build
            ((t.mailbox request.clientId.bytes).flatMap fetchRecord))) ∨
    (request.requestCode ≠ codeFetchMessages ∧
      (run execute (handle draws request) t).1.messages = t.messages ∧
      (run execute (handle draws request) t).1.accepted = t.accepted ∧
      ∀ resp, (run execute (handle draws request) t).2 = .ok resp →
        resp.code ≠ codeMsgSent ∧ resp.code ≠ codeMsgFetch) := by
  rcases handled_code_cases request with
    unsupported | register | list | send | fetch | pubkey
  · right; right
    refine ⟨fun fetch => unsupported (fetch ▸ by decide), ?_⟩
    rw [handle_unsupported draws unsupported, run_done]
    refine ⟨rfl, rfl, ?_⟩
    rintro resp ⟨⟩
    decide
  · right; right
    refine ⟨by rw [register]; decide, ?_⟩
    rw [handle_register draws register]
    rcases run_register draws.uuid request.payload t with
      refused | raised | ⟨name, -, -, done⟩
    · rw [refused]
      refine ⟨rfl, rfl, ?_⟩
      rintro resp ⟨⟩
      decide
    · rw [raised]
      exact ⟨rfl, rfl, fun resp impossible => by cases impossible⟩
    · rw [done]
      refine ⟨?_, ?_, ?_⟩
      · simp only [execute]
        split <;> rfl
      · simp only [execute]
        split <;> rfl
      · rintro resp ⟨⟩
        exact (by decide : codeSuccessfulRegistration ≠ codeMsgSent ∧
          codeSuccessfulRegistration ≠ codeMsgFetch)
  · right; right
    refine ⟨by rw [list]; decide, ?_⟩
    rw [handle_list draws list, run_list_clients]
    refine ⟨rfl, rfl, ?_⟩
    intro resp answered
    rw [build_code answered]
    decide
  · rw [handle_send draws send]
    by_cases accepted : MessageAccepted t draws.msgId request.payload
    · left
      exact ⟨send, accepted, run_send_accepted _ accepted⟩
    · right; right
      refine ⟨by rw [send]; decide, ?_⟩
      rw [run_send_refused _ accepted]
      refine ⟨rfl, rfl, ?_⟩
      rintro resp ⟨⟩
      decide
  · right; left
    refine ⟨fetch, ?_⟩
    rw [handle_fetch draws fetch]
    exact run_fetch keyed fun m hm => packs m (List.mem_of_mem_filter hm)
  · right; right
    refine ⟨by rw [pubkey]; decide, ?_⟩
    rw [handle_pubkey draws pubkey]
    obtain ⟨unchanged, codes⟩ := run_get_pubkey request.payload t
    refine ⟨by rw [unchanged], by rw [unchanged], ?_⟩
    intro resp answered
    rcases codes resp answered with error | key
    · rw [error]
      decide
    · rw [key]
      decide

end RequestHandling
