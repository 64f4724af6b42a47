import MessageU.MenuPasses

/- The machine of the menu, which reads a line or receives a record in a step, against the
   passes: whatever the machine has come to, a row of passes over the visits, in their order,
   has come to as well. -/
namespace MenuRefinement
open ByteFields SegmentedStream RequestFormat ResponseFormat ClientReception ClientCredentials
open ClientOperations ResponseMatching ReceiveBuffers TextLimits ClientMenu MenuPasses

/-! What each recv brings. -/

theorem recv_one (asked : Nat) (arrival : Arrival) :
    (recv asked [arrival]).1 = upTo asked arrival := by
  cases arrival with
  | reset => rfl
  | data bs =>
    rw [recv]
    split_ifs with all
    · rw [upTo, List.take_of_length_le all]
    · rfl

theorem recv_up_to (asked : Nat) (arrival : Arrival) (later : Socket) :
    recv asked (upTo asked arrival :: later) = (upTo asked arrival, later) := by
  cases arrival with
  | reset => rfl
  | data bs => rw [upTo, recv, if_pos (List.length_take_le asked bs)]

theorem outcome_brought (asked : Nat) (server : Outcomes) :
    recvOutcome asked server = (upTo asked (server 0), fun k => server (k + 1)) := by
  rw [recvOutcome, recv_one]

section Turns
variable (received : Nat) (buffer : Bytes) (server : Outcomes) (later : Socket)

theorem list_turn_brought :
    ListUserOperation.turn recv received buffer (upTo minResponseSize (server 0) :: later) =
        ((ListUserOperation.turn recvOutcome received buffer server).1, later) ∧
      (ListUserOperation.turn recvOutcome received buffer server).2 = fun k => server (k + 1) := by
  unfold ListUserOperation.turn
  rw [recv_up_to, outcome_brought]
  cases upTo minResponseSize (server 0) with
  | reset => exact ⟨rfl, rfl⟩
  | data data =>
    dsimp only
    split <;> exact ⟨rfl, rfl⟩

theorem fetch_turn_brought :
    FetchMsgOperation.turn recv received buffer
        (FetchMsgOperation.record buffer server ++ later) =
      ((FetchMsgOperation.turn recvOutcome received buffer server).1, later) := by
  have header (more : Socket) : recv minMsgResponseSize
      (upTo minMsgResponseSize (server 0) :: more) = (upTo minMsgResponseSize (server 0), more) :=
    recv_up_to _ _ _
  unfold FetchMsgOperation.turn FetchMsgOperation.record
  rw [outcome_brought]
  cases first : upTo minMsgResponseSize (server 0) with
  | reset =>
    rfl
  | data data =>
    rw [first] at header
    by_cases asks : data.length ≠ 0 ∧
        0 < byteswapUlong (fromLittleEndian (slice (overwrite buffer data) 21 25)) ∧
        byteswapUlong (fromLittleEndian (slice (overwrite buffer data) 21 25)) ≤
          Client.maxPayloadSize
    · dsimp only
      rw [if_pos asks, List.cons_append, List.singleton_append, header]
      dsimp only
      generalize overwrite buffer data = buffer at asks ⊢
      generalize byteswapUlong (fromLittleEndian (slice buffer 21 25)) = contentSize at asks ⊢
      obtain ⟨something, full, fits⟩ := asks
      simp only [if_neg something, if_neg (Nat.not_lt.mpr fits), if_pos full, recv_up_to,
        outcome_brought]
      cases upTo contentSize (server (0 + 1)) with
      | reset => rfl
      | data content =>
        dsimp only
        split
        · rfl
        · split <;> rfl
    · dsimp only
      rw [if_neg asks, List.singleton_append, header]
      dsimp only
      generalize overwrite buffer data = buffer at asks ⊢
      generalize byteswapUlong (fromLittleEndian (slice buffer 21 25)) = contentSize at asks ⊢
      by_cases nothing : data.length = 0
      · simp only [if_pos nothing]
      by_cases big : Client.maxPayloadSize < contentSize
      · simp only [if_neg nothing, if_pos big]
      have empty : ¬ 0 < contentSize := fun full => asks ⟨nothing, full, Nat.not_lt.mp big⟩
      simp only [if_neg nothing, if_neg big, if_neg empty]
      split <;> rfl

end Turns

theorem header_read (unset : Unset) (name : String) {code : Nat} {clientId : Bytes}
    {request : ClientRequest} (made : ClientRequest.ofCode clientId code = .ok request)
    (beyond : Nat) {sock rest : Socket} {data : Bytes}
    (read : recv minResponseSize sock = (.data data, rest)) (something : ¬ data.length = 0) :
    receiveHeaderFinding unset name code clientId true beyond sock =
      headed ((ClientResponse.ofData beyond data).responseCode.getD unset.code)
        ((ClientResponse.ofData beyond data).payloadSize.getD unset.size) rest := by
  simp only [receiveHeaderFinding, receiveHeader, made, read, something, Bool.not_true,
    Bool.false_eq_true, ↓reduceIte, arrived]
  rcases Option.eq_none_or_eq_some (ClientResponse.ofData beyond data).responseCode with
    code | ⟨found, code⟩
  · simp only [code]
  by_cases error : found = codeError
  · simp only [code, error, headed, Option.getD_some, ↓reduceIte]
  rcases Option.eq_none_or_eq_some (ClientResponse.ofData beyond data).payloadSize with
    size | ⟨known, size⟩
  · simp only [code, size, error, ↓reduceIte]
  · by_cases big : Client.maxPayloadSize < known
    · simp only [code, size, error, big, headed, Option.getD_some, ↓reduceIte]
    · simp only [code, size, error, big, headed, Option.getD_some, ↓reduceIte]

theorem header_up_to (unset : Unset) (name : String) (code : Nat) (clientId : Bytes)
    (sends : Bool) (beyond : Nat) (arrival : Arrival) (later : Socket) :
    let find := receiveHeaderFinding unset name code clientId sends beyond
    (∃ size rest, find [arrival] = .sized size rest ∧
        find (upTo minResponseSize arrival :: later) = .sized size later) ∨
      ∃ how rest rest', find [arrival] = .ended how rest ∧
        find (upTo minResponseSize arrival :: later) = .ended how rest' := by
  dsimp only
  cases made : ClientRequest.ofCode clientId code with
  | error e =>
    simp only [receiveHeaderFinding, receiveHeader, made]
    exact Or.inr ⟨_, _, _, rfl, rfl⟩
  | ok request =>
    cases sends with
    | false =>
      simp only [receiveHeaderFinding, receiveHeader, made, Bool.not_false, ↓reduceIte]
      exact Or.inr ⟨_, _, _, rfl, rfl⟩
    | true =>
      have again := recv_up_to minResponseSize arrival later
      cases first : recv minResponseSize [arrival] with
      | mk read rest =>
        have same : upTo minResponseSize arrival = read := by rw [← recv_one, first]
        rw [same] at again ⊢
        cases read with
        | reset =>
          simp only [receiveHeaderFinding, receiveHeader, made, first, again, Bool.not_true,
            Bool.false_eq_true, ↓reduceIte]
          exact Or.inr ⟨_, _, _, rfl, rfl⟩
        | data data =>
          by_cases nothing : data.length = 0
          · simp only [receiveHeaderFinding, receiveHeader, made, first, again, nothing,
              Bool.not_true, Bool.false_eq_true, ↓reduceIte]
            exact Or.inr ⟨_, _, _, rfl, rfl⟩
          · rw [header_read unset name made beyond first nothing,
              header_read unset name made beyond again nothing]
            unfold headed
            by_cases error : (ClientResponse.ofData beyond data).responseCode.getD unset.code =
                codeError
            · rw [if_pos error, if_pos error]
              exact Or.inr ⟨_, _, _, rfl, rfl⟩
            rw [if_neg error, if_neg error]
            by_cases big : Client.maxPayloadSize <
                (ClientResponse.ofData beyond data).payloadSize.getD unset.size
            · rw [if_pos big, if_pos big]
              exact Or.inr ⟨_, _, _, rfl, rfl⟩
            · rw [if_neg big, if_neg big]
              exact Or.inl ⟨_, _, rfl, rfl⟩

section Visits
variable (v : Visit) (c : Client)

theorem headed_finds (name : String) (code : Nat) (clientId : Bytes)
    (loop : Nat → Outcomes → Point) :
    v.headed name code clientId loop =
      match receiveHeaderFinding v.unset name code clientId v.sends v.beyond [v.outcomes 0] with
      | .sized size _ => loop size fun k => v.outcomes (k + 1)
      | .ended how _ => leads (.ended how) := by
  unfold Visit.headed receiveHeaderFinding
  generalize (receiveHeader name code clientId v.sends v.beyond [v.outcomes 0]).2 = read
  cases read with
  | sized size rest => rfl
  | ended how rest =>
    cases how with
    | indeterminate =>
      dsimp only [headed]
      split_ifs <;> rfl
    | _ => rfl

theorem headed_goes (name : String) (code : Nat) (clientId : Bytes)
    (loop : Nat → Outcomes → Point) :
    (∃ size, v.headed name code clientId loop = loop size (fun k => v.outcomes (k + 1)) ∧
        ∀ later, receiveHeaderFinding v.unset name code clientId v.sends v.beyond
          (upTo minResponseSize (v.outcomes 0) :: later) = .sized size later) ∨
      ∃ how, v.headed name code clientId loop = leads (.ended how) ∧
        ∀ later, ∃ rest, receiveHeaderFinding v.unset name code clientId v.sends v.beyond
          (upTo minResponseSize (v.outcomes 0) :: later) = .ended how rest := by
  rw [headed_finds]
  rcases header_up_to v.unset name code clientId v.sends v.beyond (v.outcomes 0) [] with
    ⟨size, rest, sized, -⟩ | ⟨how, rest, -, ended, -⟩
  · left
    rw [sized]
    refine ⟨size, rfl, fun later => ?_⟩
    rcases header_up_to v.unset name code clientId v.sends v.beyond (v.outcomes 0) later with
      ⟨size', rest', sized', all⟩ | ⟨how, rest', -, ended, -⟩
    · rw [sized] at sized'
      cases sized'
      exact all
    · rw [sized] at ended
      cases ended
  · right
    rw [ended]
    refine ⟨how, rfl, fun later => ?_⟩
    rcases header_up_to v.unset name code clientId v.sends v.beyond (v.outcomes 0) later with
      ⟨size, rest', sized, -⟩ | ⟨how', rest', rest'', ended', all⟩
    · rw [ended] at sized
      cases sized
    · rw [ended] at ended'
      cases ended'
      exact ⟨rest'', all⟩

/-! An operation with one recv. -/

theorem exchange_once (name : String) (request : ClientRequest) {size : Nat} {env : Environment}
    {sock : Socket} (same : (recv size env.sock).1 = (recv size sock).1) :
    exchange name request size env = exchange name request size { env with sock } := by
  unfold exchange
  dsimp only
  cases first : recv size env.sock with
  | mk read rest =>
    cases second : recv size sock with
    | mk read' rest' =>
      rw [first, second] at same
      obtain rfl : read = read' := same
      cases read <;> rfl

theorem performed_once {op : Operation} (one_recv : op ≠ .listUsers ∧ op ≠ .fetchMessages)
    {env : Environment} {sock : Socket}
    (same : (recv (firstRead op) env.sock).1 = (recv (firstRead op) sock).1) :
    perform c op env = perform c op { env with sock } := by
  have once (name : String) (request : ClientRequest) :
      exchange name request (firstRead op) env =
        exchange name request (firstRead op) { env with sock } := exchange_once name request same
  cases op with
  | listUsers => exact absurd rfl one_recv.1
  | fetchMessages => exact absurd rfl one_recv.2
  | register name =>
    simp only [firstRead] at once
    simp only [perform, RegisterOperation.doOperation, RegisterOperation.doOperationFinding,
      once]
  | getPublicKey destination =>
    simp only [firstRead] at once
    simp only [perform, GetPublicKeyOperation.doOperation,
      GetPublicKeyOperation.doOperationFinding, once]
  | sendText destination text =>
    simp only [firstRead] at once
    simp only [perform, SendTxtOperation.doOperation, sendContent, sendContentFinding,
      sendRequestFinding, once]
  | getSymmKey destination =>
    simp only [firstRead] at once
    simp only [perform, GetSymmKeyOperation.doOperation, sendRequest, sendRequestFinding,
      once]
  | sendSymKey destination =>
    simp only [firstRead] at once
    simp only [perform, SendSymKeyOperation.doOperation, sendContent, sendContentFinding,
      sendRequestFinding, once]

theorem unset_unchecked {op : Operation} (one_recv : op ≠ .listUsers ∧ op ≠ .fetchMessages)
    {env : Environment} (unset : (perform c op env).how = .ended .indeterminate) :
    firstRead op = sentResponseSize ∧
      (ClientResponse.ofData env.beyond
        (arrived (recv sentResponseSize env.sock).1)).responseCode = none := by
  have known := other_known_size one_recv.1 one_recv.2
  have open_still : ¬ CodeSet (checksValid op) (firstRead op) env :=
    fun set => known_size_determined known set unset
  simp only [CodeSet, not_forall, not_or, not_not] at open_still
  obtain ⟨data, rest, read, -, unchecked, code⟩ := open_still
  have size : firstRead op = sentResponseSize := by
    cases op with
    | getSymmKey _ => rfl
    | sendSymKey _ => rfl
    | listUsers => exact absurd rfl one_recv.1
    | fetchMessages => exact absurd rfl one_recv.2
    | _ => exact absurd rfl unchecked
  refine ⟨size, ?_⟩
  rw [size] at read
  rw [read]
  exact code

theorem unset_one_recv {op : Operation} (one_recv : op ≠ .listUsers ∧ op ≠ .fetchMessages)
    (unset : Unset) {env : Environment}
    (open_still : (perform c op env).how = .ended .indeterminate) :
    performUnset unset c op env = ((perform c op env).client, .ended (settled unset env)) := by
  cases op with
  | listUsers => exact absurd rfl one_recv.1
  | fetchMessages => exact absurd rfl one_recv.2
  | _ => simp only [performUnset, if_pos open_still]

theorem performed_performs {op : Operation}
    (one_recv : op ≠ .listUsers ∧ op ≠ .fetchMessages) :
    ∃ how, Performs v c op (v.performed c op).1 how ∧ (v.performed c op).2 = leads how := by
  let env (sock : Socket) : Environment := ⟨v.sends, v.opens, v.beyond, v.buffer, sock⟩
  have pieces (later : Socket) : brought v 0 op ++ later =
      upTo (firstRead op) (v.outcomes 0) :: later := by
    cases op with
    | listUsers => exact absurd rfl one_recv.1
    | fetchMessages => exact absurd rfl one_recv.2
    | _ => rfl
  have once (later : Socket) : (recv (firstRead op) [v.outcomes 0]).1 =
      (recv (firstRead op) (brought v 0 op ++ later)).1 := by
    rw [pieces, recv_one, recv_up_to]
  have same (later : Socket) : perform c op (env [v.outcomes 0]) =
      perform c op (env (brought v 0 op ++ later)) :=
    performed_once c one_recv (once later)
  by_cases unset : (perform c op (env [v.outcomes 0])).how = .ended .indeterminate
  · obtain ⟨size, code⟩ := unset_unchecked c one_recv unset
    refine ⟨.ended (settled v.unset (env [v.outcomes 0])), ⟨0, fun later => ?_⟩, ?_⟩
    · have settles : settled v.unset (env (brought v 0 op ++ later)) =
          settled v.unset (env [v.outcomes 0]) := by
        have read := once later
        rw [size] at read
        simp only [settled, env, read]
      change performUnset v.unset c op (env (brought v 0 op ++ later)) = _
      rw [unset_one_recv c one_recv v.unset (by rw [← same]; exact unset), settles, ← same]
      rfl
    · have unset_code : refuses (some v.unset.code) false (ClientResponse.ofData v.beyond
          (arrived (recv sentResponseSize [v.outcomes 0]).1)) =
            some (decide (v.unset.code = codeError)) := by
        simp only [env] at code
        simp [refuses, code]
      simp only [env] at unset
      simp only [Visit.performed, unset, settled, responseEndingFinding, env, unset_code]
      by_cases error : v.unset.code = codeError
      · simp only [error, decide_true, ↓reduceIte, leads]
      · simp only [error, decide_false, ↓reduceIte]
        split_ifs <;> rfl
  · refine ⟨(perform c op (env [v.outcomes 0])).how, ⟨0, fun later => ?_⟩, ?_⟩
    · change performUnset v.unset c op (env (brought v 0 op ++ later)) = _
      rw [performed_set v.unset (by rw [← same]; exact unset), ← same]
      rfl
    · simp only [env] at unset ⊢
      simp only [Visit.performed]
      split
      · rename_i e threw
        rw [threw]
        rfl
      · rename_i open_still
        exact absurd open_still unset
      · rename_i others unset_not
        unfold leads
        split
        · rename_i e threw
          exact absurd threw (others e)
        · rfl

end Visits

/-! Where the machine stands in the middle of a pass. -/

def Listing (v : Visit) (c : Client) (payloadSize received : Nat) (respData : Bytes)
    (server : Outcomes) : Prop :=
  ∃ turns, ∀ more later,
    ListUserOperation.doOperationFinding v.unset c.contacts c.id v.sends v.beyond
        (brought v (more + turns) .listUsers ++ later) =
      listed c.contacts (receiveContacts payloadSize received respData
        (ListUserOperation.brought more server ++ later))

def Fetching (v : Visit) (c : Client) (msgsDataSize received : Nat) (buffer : Bytes)
    (server : Outcomes) : Prop :=
  ∃ turns, ∀ more later,
    (FetchMsgOperation.doOperationFinding v.unset c.id v.sends v.beyond v.buffer
        (brought v (more + turns) .fetchMessages ++ later)).ending =
      (fetchMassages msgsDataSize received buffer
        (FetchMsgOperation.brought more received buffer server ++ later)).ending

def Led (c : Client) (stdin : Stdin) (question : Question) (answer : Bytes) (rest : Stdin) : Prop :=
  match question with
  | .operationNum => Answered .operationNum [] stdin answer rest
  | .clientName => Chosen c stdin (.operation (.register answer)) rest
  | .destinationName .getPublicKey => Chosen c stdin (.operation (.getPublicKey answer)) rest
  | .destinationName .getSymmKey => Chosen c stdin (.operation (.getSymmKey answer)) rest
  | .destinationName .sendSymKey => Chosen c stdin (.operation (.sendSymKey answer)) rest
  | .destinationName .sendText => ∃ opNumber between,
      Answered .operationNum [] stdin opNumber between ∧
        Terminal.operationNumber opNumber = opSendMessage ∧
        Answered (.destinationName .sendText) [] between answer rest
  | .txtMsg destination => Chosen c stdin (.operation (.sendText destination answer)) rest

def Stands (v : Visit) (c : Client) (stdin : Stdin) (after : Client) (rest : Stdin) : Point → Prop
  | .menu => Pass v c stdin after rest .menu
  | .asking question line => after = c ∧ Opened v ∧ ∀ answer last,
      Answered question line rest answer last → Led c stdin question answer last
  | .listing payloadSize received respData server => after = c ∧ Opened v ∧
      Chosen c stdin (.operation .listUsers) rest ∧ Listing v c payloadSize received respData server
  | .fetching msgsDataSize received buffer server => after = c ∧ Opened v ∧
      Chosen c stdin (.operation .fetchMessages) rest ∧
      Fetching v c msgsDataSize received buffer server
  | point => Pass v c stdin after rest point

section Passes
variable {v : Visit} {c : Client} {stdin rest : Stdin}

/-! The loops that receive. -/

theorem listing_turn {payloadSize received : Nat} {respData : Bytes} {server : Outcomes}
    (listing : Listing v c payloadSize received respData server) (more : received < payloadSize) :
    match ListUserOperation.turn recvOutcome received respData server with
    | (.ok (received, respData), server) => Listing v c payloadSize received respData server
    | (.error e, _) => Performs v c .listUsers c (.ended (.threw e)) := by
  obtain ⟨turns, reads⟩ := listing
  have goes_on (left : Nat) (later : Socket) :
      ListUserOperation.doOperationFinding v.unset c.contacts c.id v.sends v.beyond
          (brought v (left + 1 + turns) .listUsers ++ later) =
        listed c.contacts (receiveFrom payloadSize
          ((ListUserOperation.turn recvOutcome received respData server).1,
            ListUserOperation.brought left (fun k => server (k + 1)) ++ later)) := by
    rw [reads, ListUserOperation.brought, List.cons_append, receive_turn more,
      (list_turn_brought received respData server _).1]
  have remains := (list_turn_brought received respData server []).2
  cases turned : ListUserOperation.turn recvOutcome received respData server with
  | mk result left =>
    rw [turned] at goes_on remains
    obtain rfl : left = fun k => server (k + 1) := remains
    cases result with
    | error e =>
      refine ⟨1 + turns, fun later => ?_⟩
      have ended := goes_on 0 later
      rw [Nat.zero_add] at ended
      simp only [performUnset, ended]
      rfl
    | ok read =>
      refine ⟨turns + 1, fun left later => ?_⟩
      rw [← Nat.succ_add_eq_add_succ]
      exact goes_on left later

theorem listing_done {payloadSize received : Nat} {respData : Bytes} {server : Outcomes}
    (listing : Listing v c payloadSize received respData server)
    (enough : ¬ received < payloadSize) :
    Performs v c .listUsers { c with contacts := addContacts c.contacts respData }
      (.ended .returned) := by
  obtain ⟨turns, reads⟩ := listing
  refine ⟨0 + turns, fun later => ?_⟩
  have ended := reads 0 later
  rw [receiveContacts, if_neg enough] at ended
  simp only [performUnset, ended]
  rfl

theorem fetching_turn {msgsDataSize received : Nat} {buffer : Bytes} {server : Outcomes}
    (fetching : Fetching v c msgsDataSize received buffer server)
    (more : received < msgsDataSize) :
    match FetchMsgOperation.turn recvOutcome received buffer server with
    | (.ok (_, received, buffer), server) => Fetching v c msgsDataSize received buffer server
    | (.error e, _) => Performs v c .fetchMessages c (.ended (.threw e)) := by
  obtain ⟨turns, reads⟩ := fetching
  cases turned : FetchMsgOperation.turn recvOutcome received buffer server with
  | mk result behind =>
    cases result with
    | error e =>
      refine ⟨1 + turns, fun later => ?_⟩
      have ended := reads 1 later
      rw [FetchMsgOperation.brought, turned] at ended
      dsimp only at ended
      rw [List.append_assoc, fetch_turn more, fetch_turn_brought, turned] at ended
      simp only [performUnset, handled_messages_keep, ended]
      rfl
    | ok read =>
      refine ⟨turns + 1, fun left later => ?_⟩
      have goes_on := reads (left + 1) later
      rw [FetchMsgOperation.brought, turned] at goes_on
      dsimp only at goes_on
      rw [List.append_assoc, fetch_turn more, fetch_turn_brought, turned] at goes_on
      rw [← Nat.succ_add_eq_add_succ]
      exact goes_on

theorem fetching_done {msgsDataSize received : Nat} {buffer : Bytes} {server : Outcomes}
    (fetching : Fetching v c msgsDataSize received buffer server)
    (enough : ¬ received < msgsDataSize) :
    Performs v c .fetchMessages c (.ended .returned) := by
  obtain ⟨turns, reads⟩ := fetching
  refine ⟨0 + turns, fun later => ?_⟩
  have ended := reads 0 later
  rw [fetchMassages, if_neg enough] at ended
  simp only [performUnset, handled_messages_keep, ended]

/-! From the number to the operation. -/

theorem performs_stands {op : Operation} {after : Client} {how : OperationEnd}
    (opened : Opened v) (chosen : Chosen c stdin (.operation op) rest)
    (performs : Performs v c op after how) : Stands v c stdin after rest (leads how) := by
  have pass : Pass v c stdin after rest (leads how) :=
    .opened opened chosen ⟨how, performs, rfl⟩
  unfold leads at pass ⊢
  split at pass
  · exact pass
  · exact pass

theorem headed_list_stands (opened : Opened v)
    (chosen : Chosen c stdin (.operation .listUsers) rest) :
    Stands v c stdin c rest (v.headed "ListUser Operation" codeListClients c.id
      fun size server => .listing size 0 [] server) := by
  rcases headed_goes v "ListUser Operation" codeListClients c.id
      (fun size server => .listing size 0 [] server) with
    ⟨size, goes, found⟩ | ⟨how, goes, found⟩
  · rw [goes]
    refine ⟨rfl, opened, chosen, 0, fun more later => ?_⟩
    have first := found (ListUserOperation.brought more (fun k => v.outcomes (k + 1)) ++ later)
    rw [ListUserOperation.doOperationFinding, brought, List.cons_append]
    simp only [firstRead, Nat.add_zero, first]
  · rw [goes]
    refine performs_stands opened chosen ⟨0, fun later => ?_⟩
    obtain ⟨rest, ended⟩ := found later
    simp only [performUnset, ListUserOperation.doOperationFinding, brought, List.cons_append,
      firstRead, ListUserOperation.brought, List.nil_append, ended]

theorem headed_fetch_stands (opened : Opened v)
    (chosen : Chosen c stdin (.operation .fetchMessages) rest) :
    Stands v c stdin c rest (v.headed "FetchMsgOperation" codeFetchMessages c.id
      fun size server => .fetching size 0 v.buffer server) := by
  rcases headed_goes v "FetchMsgOperation" codeFetchMessages c.id
      (fun size server => .fetching size 0 v.buffer server) with
    ⟨size, goes, found⟩ | ⟨how, goes, found⟩
  · rw [goes]
    refine ⟨rfl, opened, chosen, 0, fun more later => ?_⟩
    have first := found
      (FetchMsgOperation.brought more 0 v.buffer (fun k => v.outcomes (k + 1)) ++ later)
    rw [FetchMsgOperation.doOperationFinding, brought, List.cons_append]
    simp only [firstRead, Nat.add_zero, first]
  · rw [goes]
    refine performs_stands opened chosen ⟨0, fun later => ?_⟩
    obtain ⟨rest, ended⟩ := found later
    simp only [performUnset, FetchMsgOperation.doOperationFinding, brought, List.cons_append,
      firstRead, FetchMsgOperation.brought, List.nil_append, ended, List.foldl_nil]

theorem created_stands (opened : Opened v) {opNumber : Bytes}
    (typed : Answered .operationNum [] stdin opNumber rest)
    (stays : Terminal.operationNumber opNumber ≠ opExit) :
    Stands v c stdin c rest (v.createOperation c (Terminal.operationNumber opNumber)) := by
  have makes {choice : Choice} {last : Stdin}
      (made : Made c (Terminal.operationNumber opNumber) rest choice last) :
      Chosen c stdin choice last := ⟨opNumber, rest, typed, made⟩
  simp only [Made, if_neg stays] at makes
  unfold Visit.createOperation
  split_ifs with register registered list key symm_key send_key send fetch
  · simp only [if_pos register, if_pos registered] at makes
    exact .opened opened (makes ⟨rfl, rfl⟩) ⟨rfl, rfl⟩
  · simp only [if_pos register, if_neg registered] at makes
    exact ⟨rfl, opened, fun answer last answered => makes ⟨answer, answered, rfl⟩⟩
  · simp only [if_neg register, if_pos list] at makes
    exact headed_list_stands opened (makes ⟨rfl, rfl⟩)
  · simp only [if_neg register, if_neg list, if_pos key] at makes
    exact ⟨rfl, opened, fun answer last answered => makes ⟨answer, answered, rfl⟩⟩
  · simp only [if_neg register, if_neg list, if_neg key, if_pos symm_key] at makes
    exact ⟨rfl, opened, fun answer last answered => makes ⟨answer, answered, rfl⟩⟩
  · simp only [if_neg register, if_neg list, if_neg key, if_neg symm_key, if_pos send_key] at makes
    exact ⟨rfl, opened, fun answer last answered => makes ⟨answer, answered, rfl⟩⟩
  · exact ⟨rfl, opened, fun answer last answered => ⟨opNumber, rest, typed, send, answered⟩⟩
  · simp only [if_neg register, if_neg list, if_neg key, if_neg symm_key, if_neg send_key,
      if_neg send, if_pos fetch] at makes
    exact headed_fetch_stands opened (makes ⟨rfl, rfl⟩)
  · simp only [if_neg register, if_neg list, if_neg key, if_neg symm_key, if_neg send_key,
      if_neg send, if_neg fetch] at makes
    exact .opened opened (makes ⟨rfl, rfl⟩) ⟨rfl, rfl⟩

theorem performed_stands (opened : Opened v) {op : Operation}
    (one_recv : op ≠ .listUsers ∧ op ≠ .fetchMessages)
    (chosen : Chosen c stdin (.operation op) rest) :
    Stands v c stdin (v.performed c op).1 rest (v.performed c op).2 := by
  obtain ⟨how, performs, point⟩ := performed_performs v c one_recv
  rw [point]
  exact performs_stands opened chosen performs

theorem answered_stands (opened : Opened v) {question : Question} {answer : Bytes}
    (led : Led c stdin question answer rest) :
    Stands v c stdin (v.answered c question answer).1 rest (v.answered c question answer).2 := by
  cases question with
  | operationNum =>
    simp only [Visit.answered]
    split
    · rename_i exits
      have chosen : Chosen c stdin .exit rest := by
        refine ⟨answer, rest, led, ?_⟩
        simp only [Made, if_pos exits, and_self]
      exact .opened opened chosen ⟨rfl, rfl⟩
    · rename_i stays
      exact created_stands opened led stays
  | clientName => exact performed_stands opened (by simp) led
  | destinationName op =>
    cases op with
    | getPublicKey => exact performed_stands opened (by simp) led
    | getSymmKey => exact performed_stands opened (by simp) led
    | sendSymKey => exact performed_stands opened (by simp) led
    | sendText =>
      obtain ⟨opNumber, between, typed, send, answered⟩ := led
      simp only [Visit.answered]
      split
      · rename_i unknown
        have chosen : Chosen c stdin .nothing rest := by
          refine ⟨opNumber, between, typed, ?_⟩
          rw [send]
          refine ⟨answer, rest, answered, ?_⟩
          rw [if_pos unknown]
          exact ⟨rfl, rfl⟩
        exact .opened opened chosen ⟨rfl, rfl⟩
      · rename_i known
        refine ⟨rfl, opened, fun text last text_typed => ⟨opNumber, between, typed, ?_⟩⟩
        rw [send]
        refine ⟨answer, rest, answered, ?_⟩
        rw [if_neg known]
        exact ⟨text, text_typed, rfl⟩
  | txtMsg destination => exact performed_stands opened (by simp) led

end Passes

theorem handled_keeps (contacts : List Contact) (msg : Message) :
    FetchMsgOperation.handleMsg contacts msg = contacts :=
  handled_messages_keep contacts [msg]

/-- A turn of the machine inside a pass keeps to what the pass makes of the client. -/
theorem turn_stands {c : Client} {stdin : Stdin} {s : Session} (inside : s.point ≠ .menu)
    (stands : Stands s.visit c stdin s.client s.stdin s.point) :
    Stands s.visit c stdin (ClientMenu.step s).client (ClientMenu.step s).stdin
        (ClientMenu.step s).point ∧
      (ClientMenu.step s).visit = s.visit ∧ (ClientMenu.step s).later = s.later := by
  obtain ⟨d, rest, v, later, point⟩ := s
  cases point with
  | menu => exact absurd rfl inside
  | asking question line =>
    obtain ⟨rfl, opened, leads_on⟩ := stands
    simp only [ClientMenu.step]
    split
    · rename_i refused
      exact ⟨⟨rfl, opened, fun answer last answered =>
        leads_on answer last (.again refused answered)⟩, rfl, rfl⟩
    · rename_i taken
      exact ⟨answered_stands opened (leads_on _ _ (.taken (Bool.not_eq_true _ ▸ taken))), rfl, rfl⟩
  | listing payloadSize received respData server =>
    obtain ⟨rfl, opened, chosen, listing⟩ := stands
    simp only [ClientMenu.step]
    by_cases more : received < payloadSize
    · have turn := listing_turn listing more
      rw [if_pos more]
      cases turned : ListUserOperation.turn recvOutcome received respData server with
      | mk result left =>
        rw [turned] at turn
        cases result with
        | error e => exact ⟨performs_stands opened chosen turn, rfl, rfl⟩
        | ok read => exact ⟨⟨rfl, opened, chosen, turn⟩, rfl, rfl⟩
    · rw [if_neg more]
      exact ⟨performs_stands opened chosen (listing_done listing more), rfl, rfl⟩
  | fetching msgsDataSize received buffer server =>
    obtain ⟨rfl, opened, chosen, fetching⟩ := stands
    simp only [ClientMenu.step]
    by_cases more : received < msgsDataSize
    · have turn := fetching_turn fetching more
      rw [if_pos more]
      cases turned : FetchMsgOperation.turn recvOutcome received buffer server with
      | mk result left =>
        rw [turned] at turn
        cases result with
        | error e => exact ⟨performs_stands opened chosen turn, rfl, rfl⟩
        | ok read =>
          dsimp only
          rw [handled_keeps]
          exact ⟨⟨rfl, opened, chosen, turn⟩, rfl, rfl⟩
    · rw [if_neg more]
      exact ⟨performs_stands opened chosen (fetching_done fetching more), rfl, rfl⟩
  | returned => exact ⟨stands, rfl, rfl⟩
  | threw e => exact ⟨stands, rfl, rfl⟩

def Within (visits : Nat → Visit) (c : Client) (stdin : Stdin) (s : Session) : Prop :=
  ∃ k d between, Passes visits c stdin k d between ∧
    ((s.point = .menu ∧ s.client = d ∧ s.stdin = between ∧
        s.later = fun i => visits (k + i)) ∨
      (s.point ≠ .menu ∧ s.visit = visits k ∧ (s.later = fun i => visits (k + 1 + i)) ∧
        Stands (visits k) d between s.client s.stdin s.point))

theorem menu_begins {s : Session} (menu : s.point = .menu) :
    (ClientMenu.step s).point ≠ .menu ∧ (ClientMenu.step s).visit = s.later 0 ∧
      ((ClientMenu.step s).later = fun k => s.later (k + 1)) ∧
      Stands (s.later 0) s.client s.stdin (ClientMenu.step s).client (ClientMenu.step s).stdin
        (ClientMenu.step s).point := by
  obtain ⟨d, rest, v, later, point⟩ := s
  obtain rfl : point = .menu := menu
  simp only [ClientMenu.step]
  split_ifs with failed unconnected
  · exact ⟨by simp, trivial, trivial, .uncreated (by simpa using failed)⟩
  · exact ⟨by simp, trivial, trivial,
      .unconnected (by simpa using failed) (by simpa using unconnected)⟩
  · refine ⟨by simp, trivial, trivial, rfl, ?_, fun answer last answered => answered⟩
    exact ⟨by simpa using failed, by simpa using unconnected⟩

theorem step_within {visits : Nat → Visit} {c : Client} {stdin : Stdin} {s : Session}
    (within : Within visits c stdin s) : Within visits c stdin (ClientMenu.step s) := by
  obtain ⟨k, d, between, passes, ⟨menu, rfl, rfl, later⟩ | ⟨inside, visit, later, stands⟩⟩ := within
  · obtain ⟨inside, visit, left, stands⟩ := menu_begins menu
    have first : s.later 0 = visits k := by
      rw [later]
      rfl
    rw [first] at visit stands
    refine ⟨k, s.client, s.stdin, passes, Or.inr ⟨inside, visit, ?_, stands⟩⟩
    rw [left, later]
    funext i
    rw [Nat.add_comm i 1, Nat.add_assoc]
  · rw [← visit] at stands
    obtain ⟨stands', same_visit, same_later⟩ := turn_stands inside stands
    rw [visit] at stands' same_visit
    by_cases menu : (ClientMenu.step s).point = .menu
    · rw [menu] at stands'
      refine ⟨k + 1, _, _, passes.more stands', Or.inl ⟨menu, rfl, rfl, ?_⟩⟩
      rw [same_later, later]
    · exact ⟨k, d, between, passes,
        Or.inr ⟨menu, same_visit, same_later.trans later, stands'⟩⟩

theorem machine_within (c : Client) (stdin : Stdin) (visits : Nat → Visit) (n : Nat) :
    Within visits c stdin ((ClientMenu.step^[n]) (ClientMenu.start c stdin visits)) := by
  induction n with
  | zero =>
    refine ⟨0, c, stdin, .none, Or.inl ⟨rfl, rfl, rfl, ?_⟩⟩
    funext i
    rw [Nat.zero_add]
    rfl
  | succ n ih =>
    rw [Function.iterate_succ_apply']
    exact step_within ih

/-- Whatever is typed and whatever the server sends, passes over the visits in their order,
    each of one operation at most, make of the client and of the input what the menu does,
    and there is one such row only. -/
theorem menu_operates (c : Client) (stdin : Stdin) (visits : Nat → Visit) (n : Nat) :
    let s := (ClientMenu.step^[n]) (ClientMenu.start c stdin visits)
    ∃ k d between, Passes visits c stdin k d between ∧
      (∀ d' between', Passes visits c stdin k d' between' → d' = d ∧ between' = between) ∧
      (s.point = .menu → s.client = d ∧ s.stdin = between) ∧
      (s.point.ended = true → Pass (visits k) d between s.client s.stdin s.point) ∧
      (s.point ≠ .menu → s.point.ended = false → s.client = d ∧ s.visit = visits k) := by
  intro s
  obtain ⟨k, d, between, passes, within⟩ := machine_within c stdin visits n
  change (s.point = .menu ∧ s.client = d ∧ s.stdin = between ∧ _) ∨
    (s.point ≠ .menu ∧ s.visit = visits k ∧ _ ∧
      Stands (visits k) d between s.client s.stdin s.point) at within
  refine ⟨k, d, between, passes, fun _ _ other => passes_unique passes other, ?_⟩
  rcases within with ⟨menu, client, input, -⟩ | ⟨inside, visit, -, stands⟩
  · rw [menu]
    exact ⟨fun _ => ⟨client, input⟩, fun ended => (by cases ended), fun elsewhere =>
      absurd rfl elsewhere⟩
  · refine ⟨fun menu => absurd menu inside, fun ended => ?_, fun _ running => ?_⟩
    · cases here : s.point with
      | returned => rwa [here] at stands
      | threw e => rwa [here] at stands
      | _ =>
        rw [here] at ended
        cases ended
    · cases here : s.point with
      | menu => exact absurd here inside
      | asking question line =>
        rw [here] at stands
        exact ⟨stands.1, visit⟩
      | listing payloadSize received respData server =>
        rw [here] at stands
        exact ⟨stands.1, visit⟩
      | fetching msgsDataSize received buffer server =>
        rw [here] at stands
        exact ⟨stands.1, visit⟩
      | _ =>
        rw [here] at running
        cases running

/-! A client that has registered. -/

theorem registered_same {c : Client} (registered : Client.isClientRegistered c.meInfo = true)
    (op : Operation) (env : Environment) :
    (perform c op env).client = { c with contacts := (perform c op env).client.contacts } := by
  rcases perform_keeps c env op with ⟨name, rfl⟩ | ⟨-, same, -⟩ | ⟨-, same⟩ | ⟨-, -, same, -⟩
  · simp only [perform, RegisterOperation.doOperation, RegisterOperation.doOperationFinding,
      registered, ↓reduceIte, stopped]
  · exact same
  · rw [same]
  · rw [same]

theorem registered_answer {c : Client} (registered : Client.isClientRegistered c.meInfo = true)
    (v : Visit) (question : Question) (answer : Bytes) :
    (v.answered c question answer).1 =
      { c with contacts := (v.answered c question answer).1.contacts } := by
  have performed (op : Operation) : (v.performed c op).1 =
      { c with contacts := (v.performed c op).1.contacts } := registered_same registered op _
  cases question with
  | operationNum =>
    simp only [Visit.answered]
    split <;> rfl
  | clientName => exact performed _
  | destinationName op =>
    cases op with
    | sendText =>
      simp only [Visit.answered]
      split <;> rfl
    | _ => exact performed _
  | txtMsg destination => exact performed _

theorem registered_step {s : Session}
    (registered : Client.isClientRegistered s.client.meInfo = true) :
    (ClientMenu.step s).client =
      { s.client with contacts := (ClientMenu.step s).client.contacts } := by
  obtain ⟨c, stdin, v, later, point⟩ := s
  cases point with
  | menu => rfl
  | asking question line =>
    simp only [ClientMenu.step]
    split
    · rfl
    · exact registered_answer registered v question _
  | listing payloadSize received respData server =>
    simp only [ClientMenu.step]
    split
    · split <;> rfl
    · rfl
  | fetching msgsDataSize received buffer server =>
    simp only [ClientMenu.step]
    split
    · split <;> rfl
    · rfl
  | returned => rfl
  | threw e => rfl

/-- Nothing that is typed and nothing that a server sends changes who a registered client
    is, or its me.info. -/
theorem registered_client_kept {c : Client}
    (registered : Client.isClientRegistered c.meInfo = true) (stdin : Stdin)
    (visits : Nat → Visit) (n : Nat) :
    let s := (ClientMenu.step^[n]) (ClientMenu.start c stdin visits)
    s.client.meInfo = c.meInfo ∧
      ((∀ e, s.point ≠ .threw e) → s.client = { c with contacts := s.client.contacts }) := by
  have same : ((ClientMenu.step^[n]) (ClientMenu.start c stdin visits)).client =
      { c with contacts :=
        ((ClientMenu.step^[n]) (ClientMenu.start c stdin visits)).client.contacts } := by
    induction n with
    | zero => rfl
    | succ n ih =>
      rw [Function.iterate_succ_apply']
      generalize (ClientMenu.step^[n]) (ClientMenu.start c stdin visits) = s at ih ⊢
      have still : Client.isClientRegistered s.client.meInfo = true := by
        rw [ih]
        exact registered
      rw [registered_step still, ih]
  intro s
  exact ⟨by rw [show s.client = _ from same], fun _ => same⟩

theorem a_kept :
    let a : Client := ⟨[0x41], List.replicate 16 2, [], [], some (List.replicate 40 0x41)⟩
    let visit : Visit := ⟨true, true, true, true, 0, ⟨0, 0⟩, [], fun _ =>
      .data (responseHeader supportedVersion codeSuccessfulRegistration 16 ++
        List.replicate 16 3)⟩
    let s := (ClientMenu.step^[6]) (ClientMenu.start a ⟨[0x32, 0x30, newline], false⟩
      fun _ => visit)
    s.point = .menu ∧ s.client.meInfo = a.meInfo ∧
      s.client = { a with contacts := s.client.contacts } := by
  intro a visit s
  have menu : s.point = .menu := rfl
  have registered : Client.isClientRegistered a.meInfo = true := by decide
  obtain ⟨file, same⟩ := registered_client_kept registered ⟨[0x32, 0x30, newline], false⟩
    (fun _ => visit) 6
  refine ⟨menu, file, same fun e threw => ?_⟩
  rw [menu] at threw
  cases threw

end MenuRefinement
