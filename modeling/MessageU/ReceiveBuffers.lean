import MessageU.ClientOperations

/- The receive buffers of the seven operations: how large each is, how much a recv may
   write into it, how much it wrote, and which bytes are read before the next recv. All
   but one are read as far as recv says that they were written. The header of a
   fetched message goes into a buffer of the size of a sent one. -/
namespace ReceiveBuffers
open ByteFields SegmentedStream RequestFormat ResponseFormat ClientReception ClientCredentials
open ClientOperations

structure Access where
  declared : Nat
  allowed : Nat
  written : Nat
  read : List Nat
  deriving DecidableEq, Repr

def Access.InBounds (a : Access) : Prop :=
  a.allowed ≤ a.declared ∧ ∀ i ∈ a.read, i < a.declared ∧ i < a.written

instance (a : Access) : Decidable a.InBounds := inferInstanceAs (Decidable (_ ∧ _))

/-- recv fills a buffer of the size it asks for, and what it wrote is copied. -/
def copied (size : Nat) : Arrival → Access
  | .reset => ⟨size, size, 0, []⟩
  | .data bs => ⟨size, size, bs.length, List.range bs.length⟩

def headerRead : List Nat := List.range fieldClientIdSize ++ [20, 21, 22, 23, 24]

def messageHeader (written : Nat) (read : List Nat) : Access :=
  ⟨minMessageSize, minMsgResponseSize, written, read⟩

def fetchTraced (msgsDataSize received : Nat) (buffer : Bytes) (sock : Socket) :
    FetchRun × List Access :=
  if received < msgsDataSize then
    match recv minMsgResponseSize sock with
    | (.reset, rest) => (recvFailed rest, [messageHeader 0 []])
    | (.data data, rest) =>
      let result := data.length
      if _ : result = 0 then (recvFailed rest, [messageHeader 0 []])
      else
        let header := messageHeader result headerRead
        let buffer := overwrite buffer data
        let clientId := buffer.take fieldClientIdSize
        let msgType := (buffer.getD 20 0).toNat
        let contentSize := byteswapUlong (fromLittleEndian (slice buffer 21 25))
        if Client.maxPayloadSize < contentSize then
          (⟨[], .threw (.runtimeError "MSG content to big!"), rest⟩, [header])
        else if 0 < contentSize then
          let read := recv contentSize rest
          let contentData := copied contentSize read.1
          match read with
          | (.reset, rest) => (recvFailed rest, [header, contentData])
          | (.data content, rest) =>
            if content.length = 0 then (recvFailed rest, [header, contentData])
            else
              match Message.ofContent clientId msgType content with
              | .error e => (⟨[], .threw e, rest⟩, [header, contentData])
              | .ok msg =>
                let later := fetchTraced msgsDataSize (received + result + content.length)
                  buffer rest
                (later.1.handleMsg msg, header :: contentData :: later.2)
        else
          match Message.ofType clientId msgType with
          | .error e => (⟨[], .threw e, rest⟩, [header])
          | .ok msg =>
            let later := fetchTraced msgsDataSize (received + result + result) buffer rest
            (later.1.handleMsg msg, header :: later.2)
  else (⟨[], .returned, sock⟩, [])
termination_by msgsDataSize - received
decreasing_by
  all_goals omega

def receiveTraced (payloadSize received : Nat) (respData : Bytes) (sock : Socket) :
    (Except Thrown Bytes × Socket) × List Access :=
  if received < payloadSize then
    let read := recv minResponseSize sock
    let receivedData := copied minResponseSize read.1
    match read with
    | (.reset, rest) =>
      ((.error (.runtimeError "ListUser Operation: Failed to recv data"), rest), [receivedData])
    | (.data data, rest) =>
      if _ : data.length = 0 then
        ((.error (.runtimeError "ListUser Operation: Failed to recv data"), rest), [receivedData])
      else
        let later := receiveTraced payloadSize (received + data.length) (respData ++ data) rest
        (later.1, receivedData :: later.2)
  else ((.ok respData, sock), [])
termination_by payloadSize - received
decreasing_by omega

/-- Whatever the fields hold that the Response constructor left unset. -/
structure Unset where
  code : Nat
  size : Nat
  deriving DecidableEq, Repr

def sizeRead (env : Environment) (unset : Unset) (data : Bytes) : Nat :=
  (ClientResponse.ofData env.beyond data).payloadSize.getD unset.size

def behindHeader (env : Environment) (unset : Unset) (next : Nat → Socket → List Access) :
    List Access :=
  let read := recv minResponseSize env.sock
  let receivedData := copied minResponseSize read.1
  match read with
  | (.reset, _) => [receivedData]
  | (.data data, rest) =>
    if data.length = 0 then [receivedData]
    else
      let resp := ClientResponse.ofData env.beyond data
      if resp.responseCode.getD unset.code = codeError then [receivedData]
      else if Client.maxPayloadSize < sizeRead env unset data then [receivedData]
      else receivedData :: next (sizeRead env unset data) rest

def GetPublicKeyOperation.payloadSize : Nat := fieldClientIdSize + Client.publicKeySize

/-- The receive buffers of an operation. Nothing is received unless the request was
    sent. The public key is read once more when everything is in order. -/
def accesses (c : Client) (op : Operation) (env : Environment) (unset : Unset) : List Access :=
  if (perform c op env).sent = none then []
  else
    match op with
    | .register _ =>
      [copied RegisterOperation.responseSize (recv RegisterOperation.responseSize env.sock).1]
    | .listUsers =>
      behindHeader env unset fun size rest => (receiveTraced size 0 [] rest).2
    | .getPublicKey _ =>
      let receivedData := copied GetPublicKeyOperation.responseSize
        (recv GetPublicKeyOperation.responseSize env.sock).1
      if (perform c op env).how = .ended .returned then
        [{ receivedData with
          read := receivedData.read ++ List.range GetPublicKeyOperation.payloadSize }]
      else [receivedData]
    | .fetchMessages =>
      behindHeader env unset fun size rest => (fetchTraced size 0 env.buffer rest).2
    | .sendText _ _ | .getSymmKey _ | .sendSymKey _ =>
      [copied sentResponseSize (recv sentResponseSize env.sock).1]

/-! The traced loops are the loops. -/

theorem fetch_traced (msgsDataSize received : Nat) (buffer : Bytes) (sock : Socket) :
    (fetchTraced msgsDataSize received buffer sock).1 =
      fetchMassages msgsDataSize received buffer sock := by
  induction left : msgsDataSize - received using Nat.strong_induction_on
    generalizing received buffer sock with
  | _ left ih =>
    subst left
    rw [fetchTraced, fetchMassages]
    by_cases more : received < msgsDataSize
    · rw [if_pos more, if_pos more]
      obtain ⟨arrival, rest⟩ := recv minMsgResponseSize sock
      cases arrival with
      | reset => rfl
      | data data =>
        dsimp only
        by_cases nothing : data.length = 0
        · rw [dif_pos nothing, dif_pos nothing]
        · rw [dif_neg nothing, dif_neg nothing]
          generalize overwrite buffer data = buffer
          have later : ∀ n rest, (fetchTraced msgsDataSize (received + data.length + n) buffer
              rest).1 = fetchMassages msgsDataSize (received + data.length + n) buffer rest :=
            fun n rest => ih _ (by omega) _ buffer rest rfl
          by_cases big : Client.maxPayloadSize <
            byteswapUlong (fromLittleEndian (slice buffer 21 25))
          · rw [if_pos big, if_pos big]
          · rw [if_neg big, if_neg big]
            by_cases full : 0 < byteswapUlong (fromLittleEndian (slice buffer 21 25))
            · rw [if_pos full, if_pos full]
              obtain ⟨arrival, rest⟩ :=
                recv (byteswapUlong (fromLittleEndian (slice buffer 21 25))) rest
              cases arrival with
              | reset => rfl
              | data content =>
                dsimp only
                by_cases empty : content.length = 0
                · rw [if_pos empty, if_pos empty]
                · rw [if_neg empty, if_neg empty]
                  cases Message.ofContent (buffer.take fieldClientIdSize)
                    (buffer.getD 20 0).toNat content with
                  | error e => rfl
                  | ok msg => exact congrArg (FetchRun.handleMsg msg) (later _ _)
            · rw [if_neg full, if_neg full]
              cases Message.ofType (buffer.take fieldClientIdSize) (buffer.getD 20 0).toNat with
              | error e => rfl
              | ok msg => exact congrArg (FetchRun.handleMsg msg) (later _ _)
    · rw [if_neg more, if_neg more]

theorem receive_traced (payloadSize received : Nat) (respData : Bytes) (sock : Socket) :
    (receiveTraced payloadSize received respData sock).1 =
      receiveContacts payloadSize received respData sock := by
  induction left : payloadSize - received using Nat.strong_induction_on
    generalizing received respData sock with
  | _ left ih =>
    subst left
    rw [receiveTraced, receiveContacts]
    by_cases more : received < payloadSize
    · rw [if_pos more, if_pos more]
      obtain ⟨arrival, rest⟩ := recv minResponseSize sock
      cases arrival with
      | reset => rfl
      | data data =>
        dsimp only
        by_cases nothing : data.length = 0
        · rw [dif_pos nothing, dif_pos nothing]
        · rw [dif_neg nothing, dif_neg nothing]
          exact ih _ (by omega) _ _ _ rfl
    · rw [if_neg more, if_neg more]

/-! Which buffers are used in bounds. -/

theorem copied_in_bounds (size : Nat) (sock : Socket) :
    (copied size (recv size sock).1).InBounds := by
  obtain ⟨arrival, rest, read⟩ : ∃ arrival rest, recv size sock = (arrival, rest) := ⟨_, _, rfl⟩
  rw [read]
  cases arrival with
  | reset => exact ⟨Nat.le_refl size, by simp [copied]⟩
  | data bs =>
    have bounded := recv_bounded read
    refine ⟨Nat.le_refl size, ?_⟩
    intro i inside
    have written : i < bs.length := List.mem_range.mp inside
    exact ⟨Nat.lt_of_lt_of_le written bounded, written⟩

theorem receive_in_bounds (payloadSize received : Nat) (respData : Bytes) (sock : Socket) :
    ∀ a ∈ (receiveTraced payloadSize received respData sock).2, a.InBounds := by
  induction left : payloadSize - received using Nat.strong_induction_on
    generalizing received respData sock with
  | _ left ih =>
    subst left
    have first := copied_in_bounds minResponseSize sock
    rw [receiveTraced]
    by_cases more : received < payloadSize
    · rw [if_pos more]
      dsimp only
      generalize copied minResponseSize (recv minResponseSize sock).1 = receivedData at first ⊢
      obtain ⟨arrival, rest⟩ := recv minResponseSize sock
      cases arrival with
      | reset => exact List.forall_mem_singleton.mpr first
      | data data =>
        dsimp only
        by_cases nothing : data.length = 0
        · rw [dif_pos nothing]
          exact List.forall_mem_singleton.mpr first
        · rw [dif_neg nothing]
          exact List.forall_mem_cons.mpr ⟨first, ih _ (by omega) _ _ _ rfl⟩
    · rw [if_neg more]
      intro a impossible
      cases impossible

theorem traced_turn {msgsDataSize received : Nat} (more : received < msgsDataSize)
    (buffer : Bytes) (sock : Socket) :
    ∃ written read contents later,
      (fetchTraced msgsDataSize received buffer sock).2 =
        messageHeader written read :: (contents ++ later) ∧
      (∀ a ∈ contents, a.InBounds) ∧
      (later = [] ∨ ∃ next buffer rest, received < next ∧
        later = (fetchTraced msgsDataSize next buffer rest).2) := by
  have none_yet : ∀ a ∈ ([] : List Access), a.InBounds := List.forall_mem_nil _
  rw [fetchTraced, if_pos more]
  obtain ⟨arrival, rest⟩ := recv minMsgResponseSize sock
  cases arrival with
  | reset => exact ⟨0, [], [], [], rfl, none_yet, Or.inl rfl⟩
  | data data =>
    dsimp only
    by_cases nothing : data.length = 0
    · rw [dif_pos nothing]
      exact ⟨0, [], [], [], rfl, none_yet, Or.inl rfl⟩
    · rw [dif_neg nothing]
      refine ⟨data.length, headerRead, ?_⟩
      generalize overwrite buffer data = buffer
      generalize byteswapUlong (fromLittleEndian (slice buffer 21 25)) = contentSize
      split
      · exact ⟨[], [], rfl, none_yet, Or.inl rfl⟩
      · split
        · have in_bounds : ∀ a ∈ [copied contentSize (recv contentSize rest).1], a.InBounds :=
            List.forall_mem_singleton.mpr (copied_in_bounds contentSize rest)
          split
          · exact ⟨_, [], rfl, in_bounds, Or.inl rfl⟩
          · rename_i content rest' _
            split
            · exact ⟨_, [], rfl, in_bounds, Or.inl rfl⟩
            · split
              · exact ⟨_, [], rfl, in_bounds, Or.inl rfl⟩
              · exact ⟨_, _, rfl, in_bounds, Or.inr ⟨received + data.length + content.length,
                  buffer, rest', by omega, rfl⟩⟩
        · split
          · exact ⟨[], [], rfl, none_yet, Or.inl rfl⟩
          · exact ⟨[], _, rfl, none_yet, Or.inr ⟨received + data.length + data.length, buffer,
              rest, by omega, rfl⟩⟩

theorem message_header_out (written : Nat) (read : List Nat) :
    ¬ (messageHeader written read).InBounds := by
  rintro ⟨allowed, -⟩
  exact absurd allowed (by decide : ¬ minMsgResponseSize ≤ minMessageSize)

theorem fetch_out_of_bounds {msgsDataSize received : Nat} (more : received < msgsDataSize)
    (buffer : Bytes) (sock : Socket) :
    ∃ a ∈ (fetchTraced msgsDataSize received buffer sock).2, ¬ a.InBounds := by
  obtain ⟨written, read, contents, later, trace, -⟩ := traced_turn more buffer sock
  rw [trace]
  exact ⟨_, List.mem_cons_self, message_header_out written read⟩

theorem fetch_contents_in_bounds (msgsDataSize received : Nat) (buffer : Bytes) (sock : Socket) :
    ∀ a ∈ (fetchTraced msgsDataSize received buffer sock).2,
      a.InBounds ∨ ∃ written read, a = messageHeader written read := by
  induction left : msgsDataSize - received using Nat.strong_induction_on
    generalizing received buffer sock with
  | _ left ih =>
    subst left
    intro a inside
    by_cases more : received < msgsDataSize
    · obtain ⟨written, read, contents, later, trace, in_bounds, goes_on⟩ :=
        traced_turn more buffer sock
      rw [trace] at inside
      rcases List.mem_cons.mp inside with header | behind
      · exact Or.inr ⟨written, read, header⟩
      · rcases List.mem_append.mp behind with content | after
        · exact Or.inl (in_bounds a content)
        · rcases goes_on with ended | ⟨next, buffer', rest, further, turns⟩
          · rw [ended] at after
            cases after
          · rw [turns] at after
            exact ih _ (by omega) next buffer' rest rfl a after
    · rw [fetchTraced, if_neg more] at inside
      cases inside

/-! The header of a response, and the loop behind it. -/

def HeaderPassed (env : Environment) (unset : Unset) (data : Bytes) : Prop :=
  data.length ≠ 0 ∧
    (ClientResponse.ofData env.beyond data).responseCode.getD unset.code ≠ codeError ∧
    sizeRead env unset data ≤ Client.maxPayloadSize

theorem behind_header_cases (env : Environment) (unset : Unset)
    (next : Nat → Socket → List Access) :
    (∃ data rest, recv minResponseSize env.sock = (.data data, rest) ∧
      HeaderPassed env unset data ∧
      behindHeader env unset next = copied minResponseSize (recv minResponseSize env.sock).1 ::
        next (sizeRead env unset data) rest) ∨
    (∀ data rest, recv minResponseSize env.sock = (.data data, rest) →
        ¬ HeaderPassed env unset data) ∧
      behindHeader env unset next = [copied minResponseSize (recv minResponseSize env.sock).1] := by
  unfold behindHeader
  dsimp only
  generalize copied minResponseSize (recv minResponseSize env.sock).1 = receivedData
  obtain ⟨arrival, rest⟩ := recv minResponseSize env.sock
  cases arrival with
  | reset =>
    right
    refine ⟨?_, rfl⟩
    intro data rest' other
    cases other
  | data data =>
    by_cases passed : HeaderPassed env unset data
    · left
      refine ⟨data, rest, rfl, passed, ?_⟩
      obtain ⟨something, no_error, small⟩ := passed
      simp only [something, no_error, Nat.not_lt.mpr small, ↓reduceIte]
    · right
      constructor
      · intro data' rest' same
        cases same
        exact passed
      · dsimp only
        split
        · rfl
        · rename_i something
          split
          · rfl
          · rename_i no_error
            rw [if_pos]
            exact Nat.lt_of_not_le fun small => passed ⟨something, no_error, small⟩

section SizedHeader
variable {name : String} {code : Nat} {clientId : Bytes} {env : Environment} {size : Nat}
  {rest : Socket}
  (sized : (receiveHeader name code clientId env.sends env.beyond env.sock).2 = .sized size rest)
  (unset : Unset)
include sized

theorem sized_passed :
    ∃ data, recv minResponseSize env.sock = (.data data, rest) ∧
      HeaderPassed env unset data ∧ sizeRead env unset data = size := by
  unfold receiveHeader at sized
  split at sized
  · cases sized
  · dsimp only at sized
    split at sized
    · cases sized
    · split at sized
      · cases sized
      · rename_i data rest' read
        split at sized
        · cases sized
        · rename_i something
          split at sized
          · cases sized
          · rename_i read_code code_set
            split at sized
            · cases sized
            · rename_i no_error
              split at sized
              · cases sized
              · rename_i read_size size_set
                split at sized
                · cases sized
                · rename_i small
                  cases sized
                  have size_read : sizeRead env unset data = size := by
                    rw [sizeRead, size_set, Option.getD_some]
                  refine ⟨data, read, ⟨something, ?_, ?_⟩, size_read⟩
                  · rw [code_set, Option.getD_some]
                    exact no_error
                  · rw [size_read]
                    exact Nat.not_lt.mp small

theorem sized_header (next : Nat → Socket → List Access) :
    behindHeader env unset next =
      copied minResponseSize (recv minResponseSize env.sock).1 :: next size rest := by
  obtain ⟨data, read, passed, size_read⟩ := sized_passed sized unset
  rcases behind_header_cases env unset next with ⟨data', rest', same, -, trace⟩ | ⟨refused, -⟩
  · rw [read] at same
    cases same
    rw [trace, size_read]
  · exact absurd passed (refused data rest read)

end SizedHeader

theorem fetch_run_traced {c : Client} {env : Environment} {size : Nat} {rest : Socket}
    (sized : (receiveHeader "FetchMsgOperation" codeFetchMessages c.id env.sends env.beyond
      env.sock).2 = .sized size rest) (unset : Unset) :
    FetchMsgOperation.doOperation c.id env.sends env.beyond env.buffer env.sock =
        (fetchTraced size 0 env.buffer rest).1 ∧
      behindHeader env unset (fun size rest => (fetchTraced size 0 env.buffer rest).2) =
        copied minResponseSize (recv minResponseSize env.sock).1 ::
          (fetchTraced size 0 env.buffer rest).2 := by
  constructor
  · simp only [FetchMsgOperation.doOperation, sized, fetch_traced]
  · exact sized_header sized unset _

theorem list_run_traced {c : Client} {env : Environment} {size : Nat} {rest : Socket}
    (sized : (receiveHeader "ListUser Operation" codeListClients c.id env.sends env.beyond
      env.sock).2 = .sized size rest) (unset : Unset) :
    (∀ e last, (receiveTraced size 0 [] rest).1 = (.error e, last) →
        ListUserOperation.doOperation c.contacts c.id env.sends env.beyond env.sock =
          ⟨c.contacts, .threw e, last⟩) ∧
      (∀ respData last, (receiveTraced size 0 [] rest).1 = (.ok respData, last) →
        ListUserOperation.doOperation c.contacts c.id env.sends env.beyond env.sock =
          ⟨addContacts c.contacts respData, .returned, last⟩) ∧
      behindHeader env unset (fun size rest => (receiveTraced size 0 [] rest).2) =
        copied minResponseSize (recv minResponseSize env.sock).1 ::
          (receiveTraced size 0 [] rest).2 := by
  rw [receive_traced]
  refine ⟨?_, ?_, sized_header sized unset _⟩
  · intro e last failed
    simp only [ListUserOperation.doOperation, sized, failed]
  · intro respData last received
    simp only [ListUserOperation.doOperation, sized, received]

/-! The operations. -/

theorem returned_key_whole {c : Client} {destination : Bytes} {env : Environment}
    (returned : (GetPublicKeyOperation.doOperation c destination env).how = .ended .returned) :
    ∃ data rest, recv GetPublicKeyOperation.responseSize env.sock = (.data data, rest) ∧
      data.length = GetPublicKeyOperation.responseSize := by
  unfold GetPublicKeyOperation.doOperation GetPublicKeyOperation.doOperationFinding at returned
  dsimp only at returned
  split at returned
  · cases returned
  · split at returned
    · cases returned
    · rename_i request _
      have ending : responseEnding true GetPublicKeyOperation.responseSize env.beyond
          (exchange "GetPublicKey Operation" request GetPublicKeyOperation.responseSize env).2 =
            .returned := by
        split at returned <;> exact OperationEnd.ended.inj returned
      clear returned
      cases received : (exchange "GetPublicKey Operation" request
          GetPublicKeyOperation.responseSize env).2 with
      | error e =>
        rw [received] at ending
        cases ending
      | ok data =>
        rw [received] at ending
        obtain ⟨rest, read⟩ := exchange_received received
        exact ⟨data, rest, read, returned_length ending⟩

theorem fetch_sent_iff (c : Client) (env : Environment) :
    (FetchMsgOperation.perform c env).sent = none ↔ ¬ (c.id ≠ [] ∧ env.sends = true) := by
  unfold FetchMsgOperation.perform
  split
  · rename_i e refused
    have no_id : c.id = [] := by
      by_contra some_id
      simp [ClientRequest.ofCode, some_id] at refused
    exact ⟨fun _ both => both.1 no_id, fun _ => rfl⟩
  · rename_i request made
    have some_id := (of_code_made made).2
    dsimp only
    cases sends : env.sends with
    | false =>
      rw [unsent_header]
      exact ⟨fun _ both => Bool.false_ne_true both.2, fun _ => rfl⟩
    | true =>
      rw [header_request_sent _ made]
      constructor
      · intro impossible
        cases impossible
      · intro neither
        exact absurd ⟨some_id, rfl⟩ neither

def EntersLoop (c : Client) (op : Operation) (env : Environment) (unset : Unset) : Prop :=
  op = .fetchMessages ∧ c.id ≠ [] ∧ env.sends = true ∧
    ∃ data rest, recv minResponseSize env.sock = (.data data, rest) ∧
      HeaderPassed env unset data ∧ 0 < sizeRead env unset data

theorem fetch_buffers_iff (c : Client) (env : Environment) (unset : Unset) :
    (∀ a ∈ accesses c .fetchMessages env unset, a.InBounds) ↔
      ¬ EntersLoop c .fetchMessages env unset := by
  have response := copied_in_bounds minResponseSize env.sock
  unfold accesses
  by_cases unsent : (perform c .fetchMessages env).sent = none
  · rw [if_pos unsent]
    have stays := (fetch_sent_iff c env).mp unsent
    constructor
    · rintro - ⟨-, some_id, sends, -⟩
      exact stays ⟨some_id, sends⟩
    · intro _ a impossible
      cases impossible
  · rw [if_neg unsent]
    have went := not_not.mp (mt (fetch_sent_iff c env).mpr unsent)
    rcases behind_header_cases env unset (fun size rest => (fetchTraced size 0 env.buffer rest).2)
      with ⟨data, rest, read, passed, trace⟩ | ⟨refused, trace⟩
    · dsimp only
      rw [trace]
      by_cases more : 0 < sizeRead env unset data
      · constructor
        · intro all_in
          obtain ⟨a, inside, outside⟩ := fetch_out_of_bounds more env.buffer rest
          exact absurd (all_in a (List.mem_cons_of_mem _ inside)) outside
        · intro stays
          exact absurd ⟨rfl, went.1, went.2, data, rest, read, passed, more⟩ stays
      · constructor
        · rintro - ⟨-, -, -, data', rest', same, -, more'⟩
          rw [read] at same
          cases same
          exact more more'
        · intro _
          rw [fetchTraced, if_neg more]
          exact List.forall_mem_singleton.mpr response
    · dsimp only
      rw [trace]
      constructor
      · rintro - ⟨-, -, -, data, rest, read, passed, -⟩
        exact refused data rest read passed
      · intro _
        exact List.forall_mem_singleton.mpr response

theorem other_buffers_in_bounds (c : Client) {op : Operation} (other : op ≠ .fetchMessages)
    (env : Environment) (unset : Unset) : ∀ a ∈ accesses c op env unset, a.InBounds := by
  have whole := fun size =>
    List.forall_mem_singleton.mpr (copied_in_bounds size env.sock)
  unfold accesses
  split
  · intro a impossible
    cases impossible
  · cases op with
    | register name => exact whole _
    | listUsers =>
      dsimp only
      rcases behind_header_cases env unset (fun size rest => (receiveTraced size 0 [] rest).2)
        with ⟨data, rest, -, -, trace⟩ | ⟨-, trace⟩
      · rw [trace]
        exact List.forall_mem_cons.mpr
          ⟨copied_in_bounds _ _, receive_in_bounds _ 0 [] rest⟩
      · rw [trace]
        exact whole _
    | getPublicKey destination =>
      dsimp only
      split
      · rename_i returned
        obtain ⟨data, rest, read, all_of_it⟩ := returned_key_whole returned
        refine List.forall_mem_singleton.mpr ⟨?_, ?_⟩
        · rw [read]
          exact Nat.le_refl _
        · rw [read]
          intro i inside
          have below : i < GetPublicKeyOperation.responseSize := by
            rcases List.mem_append.mp inside with copied_byte | key_byte
            · rw [← all_of_it]
              exact List.mem_range.mp copied_byte
            · exact Nat.lt_trans (List.mem_range.mp key_byte) (by decide)
          exact ⟨below, all_of_it ▸ below⟩
      · exact whole _
    | fetchMessages => exact absurd rfl other
    | sendText destination text => exact whole _
    | getSymmKey destination => exact whole _
    | sendSymKey destination => exact whole _

theorem buffers_in_bounds_iff (c : Client) (op : Operation) (env : Environment) (unset : Unset) :
    (∀ a ∈ accesses c op env unset, a.InBounds) ↔ ¬ EntersLoop c op env unset := by
  by_cases fetch : op = .fetchMessages
  · rw [fetch]
    exact fetch_buffers_iff c env unset
  · constructor
    · rintro - ⟨same, -⟩
      exact fetch same
    · intro _
      exact other_buffers_in_bounds c fetch env unset

/-- A response with one message of two bytes, each read filling what it asks for: the
    header of 25 bytes goes into a buffer of 21. -/
theorem message_header_overruns :
    let header : Bytes := responseHeader supportedVersion codeMsgFetch 27
    let message : Bytes := List.replicate 16 2 ++ [1, 0, 0, 0] ++ [3] ++ [0, 0, 0, 2]
    let content : Bytes := [0x68, 0x69]
    let c : Client := ⟨[], List.replicate 16 1, [], [], none⟩
    let env : Environment :=
      ⟨true, true, 0, [], [.data header, .data message, .data content]⟩
    accesses c .fetchMessages env ⟨0, 0⟩ =
        [copied 7 (.data header), ⟨21, 25, 25, headerRead⟩, copied 2 (.data content)] ∧
      ¬ ∀ a ∈ accesses c .fetchMessages env ⟨0, 0⟩, a.InBounds := by
  decide +kernel

end ReceiveBuffers
