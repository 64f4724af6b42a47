import MessageU.FetchDelivery
import MessageU.MessageFormat

/- A text from the sender's terminal to the receiver's _handle_msg. The terminal takes
   off 21 bytes from the largest payload, the header of the message as it is sent; the
   header it is fetched with has 25. -/
namespace TextLimits
open ByteFields SegmentedStream StatementPrograms RequestFormat ServerTables
open ResponseFormat RequestHandling ServerRuns HandlerOutcomes ClientReception ClientCredentials
open ClientOperations FetchRoundTrip FetchDelivery MessageFormat

/-- std::cin; `eof` is set once a line was read that no newline ended. -/
structure Stdin where
  text : Bytes
  eof : Bool
  deriving DecidableEq, Repr

/-- std::getline(std::cin, line): past the end the line stays what it was. -/
def Stdin.getline (stdin : Stdin) (line : Bytes) : Bytes × Stdin :=
  if stdin.eof then (line, stdin)
  else (stdin.text.takeWhile (· != newline),
    ⟨(stdin.text.dropWhile (· != newline)).drop 1, newline ∉ stdin.text⟩)

theorem line_read {stdin : Stdin} (more : stdin.eof = false) (line : Bytes) :
    stdin.getline line = (stdin.text.takeWhile (· != newline),
      ⟨(stdin.text.dropWhile (· != newline)).drop 1, newline ∉ stdin.text⟩) := by
  simp [Stdin.getline, more]

theorem line_shortens {stdin : Stdin} (more : stdin.eof = false) (line : Bytes) :
    (stdin.getline line).2.eof = true ∨
      (stdin.getline line).2.text.length < stdin.text.length := by
  rw [line_read more]
  by_cases ended : newline ∈ stdin.text
  · right
    have positive := List.length_pos_of_mem ended
    have dropped : (stdin.text.dropWhile (· != newline)).length ≤ stdin.text.length :=
      (List.dropWhile_sublist _).length_le
    rw [List.length_drop]
    omega
  · left
    exact decide_eq_true ended

/-- The loop of get_txt_msg; none if it never ends. -/
def Terminal.getTxtMsg (txtMsg : Bytes) (stdin : Stdin) : Option Bytes :=
  let read := stdin.getline txtMsg
  if Client.maxPayloadSize - minMessageSize < read.1.length then
    if _ : stdin.eof = true then none else getTxtMsg read.1 read.2
  else some read.1
termination_by if stdin.eof then 0 else stdin.text.length + 1
decreasing_by
  rename_i more
  have running : stdin.eof = false := by simpa using more
  rcases line_shortens running txtMsg with ended | shorter
  · simp [ended, running]
  · simp only [running, Bool.false_eq_true, ↓reduceIte]
    split <;> omega

theorem typed_length {line text : Bytes} {stdin : Stdin}
    (typed : Terminal.getTxtMsg line stdin = some text) : text.length ≤ 65515 := by
  fun_induction Terminal.getTxtMsg line stdin with
  | case1 => cases typed
  | case2 line stdin read long more ih => exact ih typed
  | case3 line stdin read short =>
    cases typed
    exact Nat.not_lt.mp short

theorem line_typed {text : Bytes} (one_line : newline ∉ text) (short : text.length ≤ 65515) :
    Terminal.getTxtMsg [] ⟨text ++ [newline], false⟩ = some text := by
  have taken := (line_taken one_line []).1
  have within : ¬ Client.maxPayloadSize - minMessageSize < text.length := Nat.not_lt.mpr short
  rw [Terminal.getTxtMsg]
  simp only [line_read, taken, within, ↓reduceIte]

/-! From the sender to the mailbox. -/

theorem text_operation {c : Client} {own recipient : ClientId} (own_id : c.id = own.bytes)
    {destination : Bytes}
    (wanted : Client.getContactIdByName c.contacts destination = recipient.bytes) (text : Bytes)
    (env : Environment) :
    let payload := messagePayload recipient.bytes messageTypeSendTxt text
    SendTxtOperation.doOperation c destination text env =
      sendRequest "SendTxt Operation" true c
        ⟨own.bytes, codeSendMsg, supportedVersion, payload.length, payload, []⟩ env := by
  have known : ¬ recipient.bytes.length ≠ fieldClientIdSize := not_not.mpr recipient.size
  have constructed : Message.ofContent recipient.bytes messageTypeSendTxt text =
      .ok ⟨recipient.bytes, messageTypeSendTxt, text.length, text⟩ := by
    have valid : Message.isMsgTypeValid messageTypeSendTxt = true := by decide
    have no_request : ¬ messageTypeSendTxt = messageTypeRequestSymKey := by decide
    simp [Message.ofContent, Message.setContent, valid, no_request]
  have bytes := built_payload (Or.inr ⟨text, constructed⟩)
  have made := payload_request (show codeSendMsg ∈ supportedCodes by decide)
    (fun no_id => absurd no_id own.some_bytes)
  simp only [SendTxtOperation.doOperation, sendContent, sendContentFinding, wanted, if_neg known,
    constructed, bytes, own_id, made]
  rfl

theorem text_sent {c : Client} {own recipient : ClientId} (own_id : c.id = own.bytes)
    {destination text : Bytes}
    (wanted : Client.getContactIdByName c.contacts destination = recipient.bytes)
    {env : Environment} {raw : Bytes}
    (sent : (SendTxtOperation.doOperation c destination text env).sent = some raw) :
    raw = (requestOf own codeSendMsg
      (messagePayload recipient.bytes messageTypeSendTxt text)).rawData := by
  rw [text_operation own_id wanted] at sent
  rw [exchange_sent sent, build_appends, List.nil_append]
  rfl

/-! From the mailbox to the receiver. -/

def TextReceived (source text : Bytes) (fetched : FetchRun) : Prop :=
  fetched.handled = [⟨source, messageTypeSendTxt, text.length, text⟩] ∧
    fetched.ending = .returned

theorem lone_text_outcome {m : MessageRow} (source : m.fromClient.length = 16)
    (text : m.type = msgTypeSendTxtMsg) {resp : ServerResponse}
    (no_error : resp.code ≠ codeError) (payload : resp.payload = [m].flatMap fetchRecord) :
    fetchOutcome resp [m] =
      if 65511 < m.content.length then ([], .payloadTooBig) else ([toMessage m], .returned) := by
  have long : resp.payload.length = 25 + m.content.length := by
    rw [payload, List.flatMap_singleton, fetch_record_length source]
  have accepted : ¬ Refused m := fun refused =>
    absurd (text.symm.trans refused.1) (by decide)
  rw [fetchOutcome, if_neg no_error, long]
  by_cases big : 65511 < m.content.length
  · have too_big : Client.maxPayloadSize < 25 + m.content.length := by
      show 65536 < 25 + m.content.length
      omega
    rw [if_pos big, if_pos too_big]
  · have fits : ¬ Client.maxPayloadSize < 25 + m.content.length := by
      show ¬ 65536 < 25 + m.content.length
      omega
    rw [if_neg big, if_neg fits]
    simp [delivered, accepted]

theorem lone_text_fetched {t : Tables} (reached : ReachableTables t) {m : MessageRow}
    (text : m.type = msgTypeSendTxtMsg) (short : m.content.length ≤ 65515) (draws : Draws)
    {fetch : ServerRequest} (asked : fetch.requestCode = codeFetchMessages)
    (alone : t.mailbox fetch.clientId.bytes = [m]) (beyond : Nat) (buffer : Bytes) :
    ∃ resp, (run execute (handle draws fetch) t).2 = .ok resp ∧
      (TextReceived m.fromClient m.content (FetchMsgOperation.doOperation fetch.clientId.bytes
        true beyond buffer (whole resp.rawData)) ↔ m.content.length ≤ 65511) := by
  have sound := reachable_sound reached
  have rows_sound := mailbox_sound sound fetch.clientId.bytes
  have source := (rows_sound m (by simp [alone])).source
  have size : ((t.mailbox fetch.clientId.bytes).flatMap fetchRecord).length ≤ 65540 := by
    rw [alone, List.flatMap_singleton, fetch_record_length source]
    omega
  obtain ⟨resp, answered, -⟩ := fetch_answered sound draws asked (by decide) size
  obtain ⟨object, -⟩ := fetch_answer sound asked answered
  have payload : resp.payload = (t.mailbox fetch.clientId.bytes).flatMap fetchRecord := by
    rw [object]
  have bytes : resp.rawData = wireBytes resp := by
    rw [object]
    rfl
  have no_error : resp.code ≠ codeError := by
    rw [object]
    exact (by decide : codeMsgFetch ≠ codeError)
  have response_sound : ResponseSound resp :=
    run_yields execute (handle_yields draws fetch) answered
  obtain ⟨handled, ending⟩ := whole_reads_fetch fetch.clientId.some_bytes beyond buffer
    response_sound rows_sound payload (whole_flowing _) (whole_contents _)
    (uncut_reads rows_sound payload)
  rw [alone] at handled ending payload
  rw [lone_text_outcome source text no_error payload] at handled ending
  refine ⟨resp, answered, ?_⟩
  unfold TextReceived
  rw [bytes, handled, ending]
  by_cases big : 65511 < m.content.length
  · simp [big]
  · rw [if_neg big, toMessage, text]
    exact iff_of_true ⟨rfl, rfl⟩ (Nat.not_lt.mp big)

/-- A text that could be typed and was sent is received if it has at most 65511 bytes. -/
theorem text_received_iff {c : Client} {own recipient : ClientId} (own_id : c.id = own.bytes)
    {destination text : Bytes}
    (wanted : Client.getContactIdByName c.contacts destination = recipient.bytes)
    {stdin : Stdin} (typed : Terminal.getTxtMsg [] stdin = some text)
    {env : Environment} {raw : Bytes}
    (sent : (SendTxtOperation.doOperation c destination text env).sent = some raw)
    {request : ServerRequest} (decoded : accept raw = some request)
    {t after : Tables} (empty : t.mailbox recipient.bytes = []) {draws : Draws}
    {resp : ServerResponse} (answered : run execute (handle draws request) t = (after, .ok resp))
    (success : resp.code = codeMsgSent)
    {later : Tables} (reached : ReachableTables later)
    (kept : later.mailbox recipient.bytes = after.mailbox recipient.bytes) (fetchDraws : Draws)
    {fetch : ServerRequest} (asked : fetch.requestCode = codeFetchMessages)
    (by_recipient : fetch.clientId = recipient) (beyond : Nat) (buffer : Bytes) :
    ∃ fetched, (run execute (handle fetchDraws fetch) later).2 = .ok fetched ∧
      (TextReceived own.bytes text (FetchMsgOperation.doOperation recipient.bytes true beyond
        buffer (whole fetched.rawData)) ↔ text.length ≤ 65511) := by
  have short := typed_length typed
  have long : (messagePayload recipient.bytes messageTypeSendTxt text).length =
      21 + text.length := message_length recipient.size
  rw [text_sent own_id wanted sent, requestOf, accept_layout own _ (by decide) (by omega)]
    at decoded
  have object : request =
      requestOf own codeSendMsg (messagePayload recipient.bytes messageTypeSendTxt text) :=
    (Option.some.inj decoded).symm
  subst object
  obtain ⟨-, rfl, -⟩ := sent_accepted rfl answered success
  rw [request_payload] at kept
  have stored : (withMessage t draws.msgId (messagePayload recipient.bytes messageTypeSendTxt text)
      own.bytes).mailbox recipient.bytes =
        [⟨draws.msgId, recipient.bytes, own.bytes, msgTypeSendTxtMsg, text, t.accepted⟩] := by
    have before : t.messages.filter (·.toClient = recipient.bytes) = [] := empty
    rw [message_stored recipient.size (by decide)]
    simp only [Tables.mailbox, List.filter_append, before, List.nil_append, List.filter_cons,
      List.filter_nil, decide_true, ↓reduceIte]
    rfl
  have alone := kept.trans stored
  rw [← by_recipient] at alone ⊢
  exact lone_text_fetched reached rfl short fetchDraws asked alone beyond buffer

/-! A client that is listed to itself as "A" and sends itself a text. -/

def listedToItself (owner : ClientId) : Client :=
  ⟨[0x41], owner.bytes, [], [⟨[0x41], owner.bytes, [], []⟩], none⟩

theorem text_to_itself (owner : ClientId) {text : Bytes} (short : text.length ≤ 65515)
    {env : Environment} (sends : env.sends = true) :
    let request := requestOf owner codeSendMsg
      (messagePayload owner.bytes messageTypeSendTxt text)
    (SendTxtOperation.doOperation (listedToItself owner) [0x41] text env).sent =
        some request.rawData ∧
      accept request.rawData = some request := by
  intro request
  have own_contact : Client.getContactIdByName (listedToItself owner).contacts [0x41] =
      owner.bytes := by simp [listedToItself, Client.getContactIdByName]
  have long : (messagePayload owner.bytes messageTypeSendTxt text).length = 21 + text.length :=
    message_length owner.size
  refine ⟨?_, accept_layout owner _ (by decide) (by omega)⟩
  rw [text_operation rfl own_contact]
  refine (exchange_sends _ _ _ sends).trans ?_
  rw [build_appends, List.nil_append]
  rfl

def openEnvironment : Environment := ⟨true, true, 0, [], []⟩

theorem hi_received :
    let text : Bytes := [0x68, 0x69]
    ∃ fetched, (run execute (handle ⟨ownerOne, 2, by decide, by decide⟩
        (requestOf ownerOne codeFetchMessages []))
          ⟨[ownRow ownerOne], [ownText ownerOne 1 text], 1⟩).2 = .ok fetched ∧
      TextReceived ownerOne.bytes text
        (FetchMsgOperation.doOperation ownerOne.bytes true 0 [] (whole fetched.rawData)) := by
  intro text
  have short : text.length ≤ 65515 := by decide
  obtain ⟨sent, decoded⟩ :=
    text_to_itself ownerOne short (show openEnvironment.sends = true from rfl)
  obtain ⟨fetched, done, received⟩ := text_received_iff
    (show (listedToItself ownerOne).id = _ from rfl)
    (show Client.getContactIdByName (listedToItself ownerOne).contacts [0x41] = _ from by decide)
    (line_typed (by decide) short) sent decoded rfl (own_text_stored ownerOne firstDraws short) rfl
    (own_text_reached ownerOne firstDraws short) rfl ⟨ownerOne, 2, by decide, by decide⟩
    (show (requestOf ownerOne codeFetchMessages []).requestCode = _ from rfl) rfl 0 []
  exact ⟨fetched, done, received.mpr (by decide)⟩

/-- A line of 65512 bytes can be typed and is sent, stored, and fetched in a response
    of 65537 bytes, which the receiver skips. -/
theorem long_text_skipped :
    let text : Bytes := List.replicate 65512 0x41
    let request := requestOf ownerOne codeSendMsg
      (messagePayload ownerOne.bytes messageTypeSendTxt text)
    let after : Tables := ⟨[ownRow ownerOne], [ownText ownerOne 1 text], 1⟩
    Terminal.getTxtMsg [] ⟨text ++ [newline], false⟩ = some text ∧
      (SendTxtOperation.doOperation (listedToItself ownerOne) [0x41] text openEnvironment).sent =
        some request.rawData ∧
      accept request.rawData = some request ∧
      run execute (handle firstDraws request) ⟨[ownRow ownerOne], [], 0⟩ =
        (after, .ok (sentResponse ownerOne.bytes 1)) ∧
      ReachableTables after ∧
      ∃ fetched, (run execute (handle ⟨ownerOne, 2, by decide, by decide⟩
          (requestOf ownerOne codeFetchMessages [])) after).2 = .ok fetched ∧
        ¬ TextReceived ownerOne.bytes text
          (FetchMsgOperation.doOperation ownerOne.bytes true 0 [] (whole fetched.rawData)) := by
  intro text request after
  have size : text.length = 65512 := List.length_replicate
  have one_line : newline ∉ text := by
    intro there
    exact absurd (List.eq_of_mem_replicate there) (by decide)
  clear_value text
  have short : text.length ≤ 65515 := by omega
  obtain ⟨sent, decoded⟩ :=
    text_to_itself ownerOne short (show openEnvironment.sends = true from rfl)
  have stored := own_text_stored ownerOne firstDraws short
  have reached := own_text_reached ownerOne firstDraws short
  obtain ⟨fetched, done, received⟩ := lone_text_fetched reached rfl short
    ⟨ownerOne, 2, by decide, by decide⟩
    (show (requestOf ownerOne codeFetchMessages []).requestCode = _ from rfl)
    (own_text_waiting ownerOne 1 text) 0 []
  refine ⟨line_typed one_line short, sent, decoded, stored, reached, fetched, done, ?_⟩
  intro whole_text
  have within : text.length ≤ 65511 := received.mp whole_text
  omega

end TextLimits
