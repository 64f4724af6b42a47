import MessageU.ClientReception
import MessageU.ServerRuns

/- The client drops a response whose payload is over 65536 bytes; the server puts
   no bound on a mailbox or on the client table, and a fetch has deleted its
   messages by the time it answers. Which responses pass is a matter of how much
   has been stored. -/
namespace ResponseLimits
open ByteFields SegmentedStream GuardedRuns StatementPrograms RequestFormat ServerTables
open ResponseFormat RequestHandling ServerRuns ClientReception

/-! The client's side. -/

theorem header_received (name : String) (requestCode : Nat) (clientId : ClientId) (beyond : Nat)
    {code : Nat} (supported : code ∈ supportedResponses) (no_error : code ≠ codeError)
    {payload : Bytes} (fits : payload.length < 2 ^ 32) :
    (receiveHeader name requestCode clientId.bytes true beyond
      (whole (responseHeader supportedVersion code payload.length ++ payload))).2 =
        if 65536 < payload.length then .ended .payloadTooBig (whole payload)
        else .sized payload.length (whole payload) := by
  have read := recv_whole (responseHeader supportedVersion code payload.length) payload
  rw [response_header_length] at read
  rw [header_taken name requestCode clientId.some_bytes beyond supported fits read, headed,
    if_neg no_error, Client.maxPayloadSize]

theorem fetch_never_too_big (size received : Nat) (buffer : Bytes) (sock : Socket) :
    (fetchMassages size received buffer sock).ending ≠ .payloadTooBig := by
  rcases fetch_ends size received buffer sock with returned | ⟨e, threw⟩
  · rw [returned]
    simp
  · rw [threw]
    simp

theorem fetch_operation_skips_iff (clientId : ClientId) (beyond : Nat) (buffer : Bytes)
    {payload : Bytes} (fits : payload.length < 2 ^ 32) :
    (FetchMsgOperation.doOperation clientId.bytes true beyond buffer
      (whole (responseHeader supportedVersion codeMsgFetch payload.length ++ payload))).ending ≠
        .payloadTooBig ↔ payload.length ≤ 65536 := by
  rw [FetchMsgOperation.doOperation,
    header_received _ _ clientId beyond (by decide) (by decide) fits]
  by_cases long : 65536 < payload.length
  · simp [long]
  · simp [long, fetch_never_too_big, Nat.not_lt.mp long]

theorem list_operation_skips_iff (contacts : List Contact) (clientId : ClientId) (beyond : Nat)
    {payload : Bytes} (fits : payload.length < 2 ^ 32) :
    (ListUserOperation.doOperation contacts clientId.bytes true beyond
      (whole (responseHeader supportedVersion codeClientsList payload.length ++ payload))).ending ≠
        .payloadTooBig ↔ payload.length ≤ 65536 := by
  rw [ListUserOperation.doOperation,
    header_received _ _ clientId beyond (by decide) (by decide) fits]
  by_cases long : 65536 < payload.length
  · simp [long]
  · simp only [long, ↓reduceIte, ne_eq, Nat.not_lt.mp long, iff_true]
    split <;> simp

/-! The server's side. -/

theorem built_passes_iff {code : Nat} (payload : Bytes) (passes : ServerResponse → Prop)
    (client : payload.length < 2 ^ 32 → (passes ⟨supportedVersion, code, payload,
        responseHeader supportedVersion code payload.length ++ payload⟩ ↔ payload.length ≤ 65536)) :
    (∃ resp, (ServerResponse.ofCode code).build payload = .ok resp ∧ passes resp) ↔
      payload.length ≤ 65536 := by
  by_cases fits : payload.length < 2 ^ 32
  · rw [build_ok fits]
    constructor
    · rintro ⟨_, ⟨rfl⟩, passed⟩
      exact (client fits).mp passed
    · intro small
      exact ⟨_, rfl, (client fits).mpr small⟩
  · rw [build_too_long (Nat.not_lt.mp fits)]
    constructor
    · rintro ⟨_, ⟨⟩, -⟩
    · intro small
      omega

theorem fetch_fits_iff {t : Tables} (sound : StoreSound t) (client : ClientId) (draws : Draws)
    (beyond : Nat) (buffer : Bytes) :
    (∃ resp, (run execute (handle draws (requestOf client codeFetchMessages [])) t).2 = .ok resp ∧
      (FetchMsgOperation.doOperation client.bytes true beyond buffer
        (whole resp.rawData)).ending ≠ .payloadTooBig) ↔
      ((t.mailbox client.bytes).map fun m => 25 + m.content.length).sum ≤ 65536 := by
  have code : (requestOf client codeFetchMessages []).requestCode = codeFetchMessages := rfl
  rw [handle_fetch draws code,
    run_fetch sound.keyed (mailbox_packs sound _),
    ← fetch_payload_length (mailbox_sound sound client.bytes)]
  exact built_passes_iff _ (fun resp => (FetchMsgOperation.doOperation client.bytes true
    beyond buffer (whole resp.rawData)).ending ≠ .payloadTooBig)
    (fetch_operation_skips_iff client beyond buffer)

theorem list_fits_iff {t : Tables} (sound : StoreSound t) (client : ClientId) (draws : Draws)
    (beyond : Nat) (contacts : List Contact) :
    (∃ resp, (run execute (handle draws (requestOf client codeListClients [])) t).2 = .ok resp ∧
      (ListUserOperation.doOperation contacts client.bytes true beyond
        (whole resp.rawData)).ending ≠ .payloadTooBig) ↔
      271 * (t.clients.filter (·.id ≠ client.bytes)).length ≤ 65536 := by
  have code : (requestOf client codeListClients []).requestCode = codeListClients := rfl
  rw [handle_list draws code, run_list_clients,
    ← list_payload_length fun c hc => sound.clients c (List.mem_of_mem_filter hc)]
  exact built_passes_iff _ (fun resp => (ListUserOperation.doOperation contacts
    client.bytes true beyond (whole resp.rawData)).ending ≠ .payloadTooBig)
    (list_operation_skips_iff contacts client beyond)

/-- In every reachable state, for both responses. -/
theorem responses_fit_iff {s : Server} (reached : Reachable sequential s) (client : ClientId)
    (draws : Draws) (beyond : Nat) (buffer : Bytes) (contacts : List Contact) :
    ((∃ resp, (run execute (handle draws (requestOf client codeFetchMessages [])) s.tables).2 =
          .ok resp ∧
        (FetchMsgOperation.doOperation client.bytes true beyond buffer
          (whole resp.rawData)).ending ≠ .payloadTooBig) ↔
      ((s.tables.mailbox client.bytes).map fun m => 25 + m.content.length).sum ≤ 65536) ∧
    ((∃ resp, (run execute (handle draws (requestOf client codeListClients [])) s.tables).2 =
          .ok resp ∧
        (ListUserOperation.doOperation contacts client.bytes true beyond
          (whole resp.rawData)).ending ≠ .payloadTooBig) ↔
      271 * (s.tables.clients.filter (·.id ≠ client.bytes)).length ≤ 65536) :=
  have sound := store_sound.holds reached
  ⟨fetch_fits_iff sound client draws beyond buffer,
    list_fits_iff sound client draws beyond contacts⟩

theorem hi_and_other_client_fit :
    let owner : ClientId := ⟨List.replicate 16 1, rfl⟩
    let draws : Draws := ⟨owner, 1, by decide, by decide⟩
    ∃ s, Reachable sequential s ∧
      (s.tables.mailbox owner.bytes).map MessageRow.content = [[0x68, 0x69]] ∧
      (s.tables.clients.filter (·.id ≠ owner.bytes)).map ClientRow.name = [[0x42]] ∧
      (∃ resp, (run execute (handle draws (requestOf owner codeFetchMessages [])) s.tables).2 =
          .ok resp ∧
        (FetchMsgOperation.doOperation owner.bytes true 0 (List.replicate 25 0)
          (whole resp.rawData)).ending ≠ .payloadTooBig) ∧
      ∃ resp, (run execute (handle draws (requestOf owner codeListClients [])) s.tables).2 =
          .ok resp ∧
        (ListUserOperation.doOperation [] owner.bytes true 0 (whole resp.rawData)).ending ≠
          .payloadTooBig := by
  intro owner draws
  let other : ClientId := ⟨List.replicate 16 2, rfl⟩
  obtain ⟨history, decoded⟩ := other_registered owner (show other.bytes ≠ owner.bytes by decide)
    [(msgTypeSendTxtMsg, [0x68, 0x69])] (by decide) (by decide)
  have reached := restricted_reachable decoded
  obtain ⟨fetch, list⟩ := responses_fit_iff reached owner draws 0 (List.replicate 25 0) []
  let t : Tables := ⟨[ownRow owner, otherRow other], ownRows owner [(msgTypeSendTxtMsg,
    [0x68, 0x69])], 1⟩
  have few_bytes : ((t.mailbox owner.bytes).map fun m => 25 + m.content.length).sum ≤ 65536 := by
    decide
  have few_clients : 271 * (t.clients.filter (·.id ≠ owner.bytes)).length ≤ 65536 := by decide
  exact ⟨_, reached, rfl, rfl, fetch.mpr few_bytes, list.mpr few_clients⟩

/-- One text of 65512 bytes, which the client itself lets its user type, is
    deleted by the fetch and dropped by the client. -/
theorem long_text_lost :
    let owner : ClientId := ⟨List.replicate 16 1, rfl⟩
    let draws : Draws := ⟨owner, 1, by decide, by decide⟩
    let text : Bytes := List.replicate 65512 0x61
    ∃ s, Reachable sequential s ∧ (s.tables.mailbox owner.bytes).map MessageRow.content = [text] ∧
      (run execute (handle draws (requestOf owner codeFetchMessages [])) s.tables).1.mailbox
        owner.bytes = [] ∧
      ¬ ∃ resp, (run execute (handle draws (requestOf owner codeFetchMessages [])) s.tables).2 =
          .ok resp ∧
        (FetchMsgOperation.doOperation owner.bytes true 0 (List.replicate 25 0)
          (whole resp.rawData)).ending ≠ .payloadTooBig := by
  intro owner draws text
  have text_size : text.length = 65512 := List.length_replicate
  have fit : ∀ x ∈ [(msgTypeSendTxtMsg, text)],
      x.1 ∈ supportedMsgTypes ∧ x.2.length ≤ 0x7fffffff - 44 := by
    intro x hx
    rw [List.mem_singleton.mp hx]
    show msgTypeSendTxtMsg ∈ supportedMsgTypes ∧ text.length ≤ 0x7fffffff - 44
    exact ⟨by decide, by omega⟩
  obtain ⟨history, decoded⟩ := own_messages_stored owner [(msgTypeSendTxtMsg, text)] fit (by simp)
  have reached := restricted_reachable decoded
  have sound := store_sound.holds reached
  have stored := own_mailbox owner [(msgTypeSendTxtMsg, text)] [ownRow owner] 1
  refine ⟨_, reached, ?_, ?_, ?_⟩
  · exact congrArg (List.map MessageRow.content) stored
  · have code : (requestOf owner codeFetchMessages []).requestCode = codeFetchMessages := rfl
    rw [handle_fetch draws code,
      run_fetch sound.keyed (mailbox_packs sound _)]
    exact (mailbox_emptied _ _ _).trans (if_pos rfl)
  · rw [fetch_fits_iff sound]
    show ¬ ((Tables.mailbox _ owner.bytes).map fun m => 25 + m.content.length).sum ≤ 65536
    rw [own_mailbox]
    simp [ownRows, text_size]

end ResponseLimits
