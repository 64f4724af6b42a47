import MessageU.ClientMenu
import MessageU.ResponseMatching

/- What a user sees of Client::start: a pass through the menu is one operation, chosen by the
   lines that are typed and done to its end with what the visit brings. A pass, and so a row
   of them, comes to one thing only. -/
namespace MenuPasses
open ByteFields SegmentedStream RequestFormat ResponseFormat ClientReception
open ClientCredentials ClientOperations ResponseMatching ReceiveBuffers TextLimits ClientMenu

/-! An operation to its end, also where it goes on with what the constructor left unset. -/

def receiveHeaderFinding (unset : Unset) (name : String) (requestCode : Nat) (clientId : Bytes)
    (sends : Bool) (beyond : Nat) (sock : Socket) : Headed :=
  match (receiveHeader name requestCode clientId sends beyond sock).2 with
  | .ended .indeterminate rest =>
    let resp := ClientResponse.ofData beyond (arrived (recv minResponseSize sock).1)
    headed (resp.responseCode.getD unset.code) (resp.payloadSize.getD unset.size) rest
  | read => read

def listed (contacts : List Contact) : Except Thrown Bytes × Socket → ListRun
  | (.error e, rest) => ⟨contacts, .threw e, rest⟩
  | (.ok respData, rest) => ⟨addContacts contacts respData, .returned, rest⟩

def ListUserOperation.doOperationFinding (unset : Unset) (contacts : List Contact)
    (clientId : Bytes) (sends : Bool) (beyond : Nat) (sock : Socket) : ListRun :=
  match receiveHeaderFinding unset "ListUser Operation" codeListClients clientId sends beyond
      sock with
  | .ended how rest => ⟨contacts, how, rest⟩
  | .sized size rest => listed contacts (receiveContacts size 0 [] rest)

def FetchMsgOperation.doOperationFinding (unset : Unset) (clientId : Bytes) (sends : Bool)
    (beyond : Nat) (buffer : Bytes) (sock : Socket) : FetchRun :=
  match receiveHeaderFinding unset "FetchMsgOperation" codeFetchMessages clientId sends beyond
      sock with
  | .ended how rest => ⟨[], how, rest⟩
  | .sized size rest => fetchMassages size 0 buffer rest

/-- Only an operation that does not ask whether the response is valid comes to this. -/
def settled (unset : Unset) (env : Environment) : Ending :=
  responseEndingFinding (some unset.code) false sentResponseSize env.beyond
    (.ok (arrived (recv sentResponseSize env.sock).1))

def performUnset (unset : Unset) (c : Client) (op : Operation) (env : Environment) :
    Client × OperationEnd :=
  match op with
  | .listUsers =>
    let run := ListUserOperation.doOperationFinding unset c.contacts c.id env.sends env.beyond
      env.sock
    ({ c with contacts := run.contacts }, .ended run.ending)
  | .fetchMessages =>
    let run := FetchMsgOperation.doOperationFinding unset c.id env.sends env.beyond env.buffer
      env.sock
    ({ c with contacts := run.handled.foldl FetchMsgOperation.handleMsg c.contacts },
      .ended run.ending)
  | op =>
    let run := perform c op env
    (run.client, if run.how = .ended .indeterminate then .ended (settled unset env) else run.how)

/-! What the recvs of a visit bring, in order, each as far as it is asked for. -/

def upTo (asked : Nat) : Arrival → Arrival
  | .data bs => .data (bs.take asked)
  | .reset => .reset

def ListUserOperation.brought : Nat → Outcomes → Socket
  | 0, _ => []
  | turns + 1, server =>
    upTo minResponseSize (server 0) :: ListUserOperation.brought turns fun k => server (k + 1)

/-- The header of a message, and its content where that is asked for. -/
def FetchMsgOperation.record (buffer : Bytes) (server : Outcomes) : Socket :=
  match upTo minMsgResponseSize (server 0) with
  | .reset => [.reset]
  | .data data =>
    let contentSize := byteswapUlong (fromLittleEndian (slice (overwrite buffer data) 21 25))
    if data.length ≠ 0 ∧ 0 < contentSize ∧ contentSize ≤ Client.maxPayloadSize then
      [.data data, upTo contentSize (server 1)]
    else [.data data]

def FetchMsgOperation.brought : Nat → Nat → Bytes → Outcomes → Socket
  | 0, _, _, _ => []
  | turns + 1, received, buffer, server =>
    FetchMsgOperation.record buffer server ++
      match FetchMsgOperation.turn recvOutcome received buffer server with
      | (.ok (_, received, buffer), rest) => FetchMsgOperation.brought turns received buffer rest
      | (.error _, _) => []

/-- To an operation with a loop, in so many turns of it. -/
def brought (v : Visit) (turns : Nat) (op : Operation) : Socket :=
  let server : Outcomes := fun k => v.outcomes (k + 1)
  upTo (firstRead op) (v.outcomes 0) ::
    match op with
    | .listUsers => ListUserOperation.brought turns server
    | .fetchMessages => FetchMsgOperation.brought turns 0 v.buffer server
    | _ => []

/-- The operation comes to its end in some turns, and reads nothing of what is later. -/
def Performs (v : Visit) (c : Client) (op : Operation) (d : Client) (how : OperationEnd) : Prop :=
  ∃ turns, ∀ later, performUnset v.unset c op
    ⟨v.sends, v.opens, v.beyond, v.buffer, brought v turns op ++ later⟩ = (d, how)

/-! What the lines that are typed choose. -/

/-- A loop of the terminal reads lines until one is not refused. -/
inductive Answered (question : Question) : Bytes → Stdin → Bytes → Stdin → Prop where
  | taken {line : Bytes} {stdin : Stdin}
      (taken : question.refuses (stdin.getline line).1 = false) :
      Answered question line stdin (stdin.getline line).1 (stdin.getline line).2
  | again {line answer : Bytes} {stdin rest : Stdin}
      (refused : question.refuses (stdin.getline line).1 = true)
      (later : Answered question (stdin.getline line).1 (stdin.getline line).2 answer rest) :
      Answered question line stdin answer rest

/-- What the lines of a pass come to. -/
inductive Choice where
  | exit
  | nothing
  | operation (op : Operation)
  deriving DecidableEq, Repr

/-- The operation that the factory makes from a number; the constructor asks for the rest. -/
def Made (c : Client) (opNum : Nat) (stdin : Stdin) (choice : Choice) (rest : Stdin) : Prop :=
  let asks (question : Question) (make : Bytes → Operation) : Prop :=
    ∃ answer, Answered question [] stdin answer rest ∧ choice = .operation (make answer)
  if opNum = opExit then choice = .exit ∧ rest = stdin
  else if opNum = opRegister then
    if Client.isClientRegistered c.meInfo then choice = .nothing ∧ rest = stdin
    else asks .clientName .register
  else if opNum = opClientList then choice = .operation .listUsers ∧ rest = stdin
  else if opNum = opPublicKeyRequest then asks (.destinationName .getPublicKey) .getPublicKey
  else if opNum = opGetSymKey then asks (.destinationName .getSymmKey) .getSymmKey
  else if opNum = opSendSymKey then asks (.destinationName .sendSymKey) .sendSymKey
  else if opNum = opSendMessage then
    ∃ destination between, Answered (.destinationName .sendText) [] stdin destination between ∧
      if (Client.getContactIdByName c.contacts destination).length ≠ fieldClientIdSize then
        choice = .nothing ∧ rest = between
      else ∃ text, Answered (.txtMsg destination) [] between text rest ∧
        choice = .operation (.sendText destination text)
  else if opNum = opFetchMessages then choice = .operation .fetchMessages ∧ rest = stdin
  else choice = .nothing ∧ rest = stdin

def Chosen (c : Client) (stdin : Stdin) (choice : Choice) (rest : Stdin) : Prop :=
  ∃ opNumber between, Answered .operationNum [] stdin opNumber between ∧
    Made c (Terminal.operationNumber opNumber) between choice rest

/-! A pass through the menu. -/

def Opened (v : Visit) : Prop := v.created = true ∧ v.connected = true

/-- Only an exception leaves the menu. -/
def leads : OperationEnd → Point
  | .ended (.threw e) => .threw e
  | _ => .menu

def Done (v : Visit) (c d : Client) (point : Point) : Choice → Prop
  | .exit => d = c ∧ point = .returned
  | .nothing => d = c ∧ point = .menu
  | .operation op => ∃ how, Performs v c op d how ∧ point = leads how

inductive Pass (v : Visit) (c : Client) (stdin : Stdin) : Client → Stdin → Point → Prop where
  | uncreated (failed : v.created = false) :
      Pass v c stdin c stdin (.threw (.runtimeError "Failed to create socket"))
  | unconnected (created : v.created = true) (failed : v.connected = false) :
      Pass v c stdin c stdin (.threw (.runtimeError "Failed to connect to server"))
  | opened {choice : Choice} {d : Client} {rest : Stdin} {point : Point} (opened : Opened v)
      (chosen : Chosen c stdin choice rest) (done : Done v c d point choice) :
      Pass v c stdin d rest point

/-- So many passes, each over a visit of its own and back to the menu. -/
inductive Passes (visits : Nat → Visit) (c : Client) (stdin : Stdin) :
    Nat → Client → Stdin → Prop where
  | none : Passes visits c stdin 0 c stdin
  | more {k : Nat} {d after : Client} {between rest : Stdin}
      (before : Passes visits c stdin k d between)
      (pass : Pass (visits k) d between after rest .menu) :
      Passes visits c stdin (k + 1) after rest

/-! Where nothing that was left unset is used. -/

theorem header_set {unset : Unset} {name : String} {code : Nat} {clientId : Bytes} {sends : Bool}
    {beyond : Nat} {sock : Socket}
    (set : ∀ rest, (receiveHeader name code clientId sends beyond sock).2 ≠
      .ended .indeterminate rest) :
    receiveHeaderFinding unset name code clientId sends beyond sock =
      (receiveHeader name code clientId sends beyond sock).2 := by
  unfold receiveHeaderFinding
  split
  · rename_i rest open_still
    exact absurd open_still (set rest)
  · rfl

theorem list_performed (c : Client) (env : Environment) :
    let run := ListUserOperation.doOperation c.contacts c.id env.sends env.beyond env.sock
    (perform c .listUsers env).how = .ended run.ending ∧
      (perform c .listUsers env).client = { c with contacts := run.contacts } := by
  unfold perform ListUserOperation.perform ListUserOperation.doOperation receiveHeader
  cases ClientRequest.ofCode c.id codeListClients <;> exact ⟨rfl, rfl⟩

theorem fetch_performed (c : Client) (env : Environment) :
    let run := FetchMsgOperation.doOperation c.id env.sends env.beyond env.buffer env.sock
    (perform c .fetchMessages env).how = .ended run.ending ∧
      (perform c .fetchMessages env).client =
        { c with contacts := run.handled.foldl FetchMsgOperation.handleMsg c.contacts } := by
  unfold perform FetchMsgOperation.perform FetchMsgOperation.doOperation receiveHeader
  cases ClientRequest.ofCode c.id codeFetchMessages <;> exact ⟨rfl, rfl⟩

/-- An operation that uses nothing unset is the operation as it is performed. -/
theorem performed_set (unset : Unset) {c : Client} {op : Operation} {env : Environment}
    (set : (perform c op env).how ≠ .ended .indeterminate) :
    performUnset unset c op env = ((perform c op env).client, (perform c op env).how) := by
  cases op with
  | listUsers =>
    obtain ⟨how, client⟩ := list_performed c env
    have header (rest : Socket) : (receiveHeader "ListUser Operation" codeListClients c.id env.sends
        env.beyond env.sock).2 ≠ .ended .indeterminate rest := by
      intro open_still
      apply set
      rw [how, ListUserOperation.doOperation, open_still]
    rw [how, client, performUnset, ListUserOperation.doOperationFinding, header_set header,
      ListUserOperation.doOperation]
    cases (receiveHeader "ListUser Operation" codeListClients c.id env.sends env.beyond
        env.sock).2 with
    | ended end_how rest => rfl
    | sized size rest =>
      dsimp only
      obtain ⟨read, rest⟩ := receiveContacts size 0 [] rest
      cases read <;> rfl
  | fetchMessages =>
    obtain ⟨how, client⟩ := fetch_performed c env
    have header (rest : Socket) : (receiveHeader "FetchMsgOperation" codeFetchMessages c.id
        env.sends env.beyond env.sock).2 ≠ .ended .indeterminate rest := by
      intro open_still
      apply set
      rw [how, FetchMsgOperation.doOperation, open_still]
    rw [how, client, performUnset, FetchMsgOperation.doOperationFinding, header_set header]
    rfl
  | _ => simp only [performUnset, if_neg set]

/-! A pass is determined by its visit and by what is typed. -/

theorem answered_unique {question : Question} {line answer answer' : Bytes}
    {stdin rest rest' : Stdin} (one : Answered question line stdin answer rest)
    (other : Answered question line stdin answer' rest') : answer' = answer ∧ rest' = rest := by
  induction one with
  | taken taken =>
    cases other with
    | taken _ => exact ⟨rfl, rfl⟩
    | again refused _ =>
      rw [taken] at refused
      cases refused
  | again refused _ ih =>
    cases other with
    | taken taken =>
      rw [refused] at taken
      cases taken
    | again _ later => exact ih later

theorem asked_unique {question : Question} {make : Bytes → Operation} {choice choice' : Choice}
    {stdin rest rest' : Stdin}
    (one : ∃ answer, Answered question [] stdin answer rest ∧ choice = .operation (make answer))
    (other : ∃ answer, Answered question [] stdin answer rest' ∧
      choice' = .operation (make answer)) : choice' = choice ∧ rest' = rest := by
  obtain ⟨answer, answered, rfl⟩ := one
  obtain ⟨answer', answered', rfl⟩ := other
  obtain ⟨rfl, rfl⟩ := answered_unique answered answered'
  exact ⟨rfl, rfl⟩

theorem made_unique {c : Client} {opNum : Nat} {choice choice' : Choice}
    {stdin rest rest' : Stdin} (one : Made c opNum stdin choice rest)
    (other : Made c opNum stdin choice' rest') : choice' = choice ∧ rest' = rest := by
  have same {made : Choice} {left : Stdin} (one : choice = made ∧ rest = left)
      (other : choice' = made ∧ rest' = left) : choice' = choice ∧ rest' = rest :=
    ⟨other.1.trans one.1.symm, other.2.trans one.2.symm⟩
  unfold Made at one other
  dsimp only at one other
  by_cases exits : opNum = opExit
  · rw [if_pos exits] at one other
    exact same one other
  rw [if_neg exits] at one other
  by_cases register : opNum = opRegister
  · rw [if_pos register] at one other
    by_cases registered : Client.isClientRegistered c.meInfo = true
    · rw [if_pos registered] at one other
      exact same one other
    · rw [if_neg registered] at one other
      exact asked_unique one other
  rw [if_neg register] at one other
  by_cases list : opNum = opClientList
  · rw [if_pos list] at one other
    exact same one other
  rw [if_neg list] at one other
  by_cases key : opNum = opPublicKeyRequest
  · rw [if_pos key] at one other
    exact asked_unique one other
  rw [if_neg key] at one other
  by_cases symm_key : opNum = opGetSymKey
  · rw [if_pos symm_key] at one other
    exact asked_unique one other
  rw [if_neg symm_key] at one other
  by_cases send_key : opNum = opSendSymKey
  · rw [if_pos send_key] at one other
    exact asked_unique one other
  rw [if_neg send_key] at one other
  by_cases send : opNum = opSendMessage
  · rw [if_pos send] at one other
    obtain ⟨destination, between, answered, led⟩ := one
    obtain ⟨destination', between', answered', led'⟩ := other
    obtain ⟨rfl, rfl⟩ := answered_unique answered answered'
    by_cases unknown :
        (Client.getContactIdByName c.contacts destination').length ≠ fieldClientIdSize
    · rw [if_pos unknown] at led led'
      exact same led led'
    · rw [if_neg unknown] at led led'
      exact asked_unique led led'
  rw [if_neg send] at one other
  by_cases fetch : opNum = opFetchMessages
  · rw [if_pos fetch] at one other
    exact same one other
  rw [if_neg fetch] at one other
  exact same one other

theorem chosen_unique {c : Client} {choice choice' : Choice} {stdin rest rest' : Stdin}
    (one : Chosen c stdin choice rest) (other : Chosen c stdin choice' rest') :
    choice' = choice ∧ rest' = rest := by
  obtain ⟨opNumber, between, answered, made⟩ := one
  obtain ⟨opNumber', between', answered', made'⟩ := other
  obtain ⟨rfl, rfl⟩ := answered_unique answered answered'
  exact made_unique made made'

theorem list_brought_more (turns more : Nat) (server : Outcomes) :
    ∃ behind, ListUserOperation.brought (turns + more) server =
      ListUserOperation.brought turns server ++ behind := by
  induction turns generalizing server with
  | zero => exact ⟨_, rfl⟩
  | succ turns ih =>
    obtain ⟨behind, same⟩ := ih fun k => server (k + 1)
    rw [Nat.succ_add]
    exact ⟨behind, congrArg (_ :: ·) same⟩

theorem fetch_brought_more (turns more received : Nat) (buffer : Bytes) (server : Outcomes) :
    ∃ behind, FetchMsgOperation.brought (turns + more) received buffer server =
      FetchMsgOperation.brought turns received buffer server ++ behind := by
  induction turns generalizing received buffer server with
  | zero => exact ⟨_, rfl⟩
  | succ turns ih =>
    rw [Nat.succ_add, FetchMsgOperation.brought, FetchMsgOperation.brought]
    cases turned : FetchMsgOperation.turn recvOutcome received buffer server with
    | mk result rest =>
      cases result with
      | error e => exact ⟨[], (List.append_nil _).symm⟩
      | ok read =>
        obtain ⟨behind, same⟩ := ih read.2.1 read.2.2 rest
        refine ⟨behind, ?_⟩
        dsimp only
        rw [same, List.append_assoc]

theorem brought_more (v : Visit) (op : Operation) {turns turns' : Nat} (more : turns ≤ turns') :
    ∃ behind, brought v turns' op = brought v turns op ++ behind := by
  obtain ⟨extra, rfl⟩ := Nat.exists_eq_add_of_le more
  cases op with
  | listUsers =>
    obtain ⟨behind, same⟩ := list_brought_more turns extra fun k => v.outcomes (k + 1)
    exact ⟨behind, congrArg (_ :: ·) same⟩
  | fetchMessages =>
    obtain ⟨behind, same⟩ := fetch_brought_more turns extra 0 v.buffer fun k => v.outcomes (k + 1)
    exact ⟨behind, congrArg (_ :: ·) same⟩
  | _ => exact ⟨[], (List.append_nil _).symm⟩

theorem performs_unique {v : Visit} {c d d' : Client} {op : Operation} {how how' : OperationEnd}
    (one : Performs v c op d how) (other : Performs v c op d' how') : d' = d ∧ how' = how := by
  obtain ⟨turns, reads⟩ := one
  obtain ⟨turns', reads'⟩ := other
  have same : (d', how') = (d, how) := by
    rcases Nat.le_total turns turns' with more | more
    · obtain ⟨behind, pieces⟩ := brought_more v op more
      rw [← reads' [], ← reads behind, pieces, List.append_nil]
    · obtain ⟨behind, pieces⟩ := brought_more v op more
      rw [← reads' behind, ← reads [], pieces, List.append_nil]
  exact ⟨congrArg Prod.fst same, congrArg Prod.snd same⟩

theorem done_unique {v : Visit} {c d d' : Client} {point point' : Point} {choice : Choice}
    (one : Done v c d point choice) (other : Done v c d' point' choice) :
    d' = d ∧ point' = point := by
  cases choice with
  | exit => exact ⟨other.1.trans one.1.symm, other.2.trans one.2.symm⟩
  | nothing => exact ⟨other.1.trans one.1.symm, other.2.trans one.2.symm⟩
  | operation op =>
    obtain ⟨how, performs, rfl⟩ := one
    obtain ⟨how', performs', rfl⟩ := other
    obtain ⟨rfl, rfl⟩ := performs_unique performs performs'
    exact ⟨rfl, rfl⟩

theorem pass_unique {v : Visit} {c d d' : Client} {stdin rest rest' : Stdin}
    {point point' : Point} (one : Pass v c stdin d rest point)
    (other : Pass v c stdin d' rest' point') : d' = d ∧ rest' = rest ∧ point' = point := by
  cases one with
  | uncreated failed =>
    cases other with
    | uncreated _ => exact ⟨rfl, rfl, rfl⟩
    | unconnected created _ => simp [failed] at created
    | opened opened _ _ => simp [Opened, failed] at opened
  | unconnected created failed =>
    cases other with
    | uncreated failed' => simp [created] at failed'
    | unconnected _ _ => exact ⟨rfl, rfl, rfl⟩
    | opened opened _ _ => simp [Opened, failed] at opened
  | opened opened chosen done =>
    cases other with
    | uncreated failed => simp [Opened, failed] at opened
    | unconnected _ failed => simp [Opened, failed] at opened
    | opened _ chosen' done' =>
      obtain ⟨rfl, rfl⟩ := chosen_unique chosen chosen'
      obtain ⟨rfl, rfl⟩ := done_unique done done'
      exact ⟨rfl, rfl, rfl⟩

/-- There is one row of so many passes at most. -/
theorem passes_unique {visits : Nat → Visit} {c d d' : Client} {stdin rest rest' : Stdin}
    {k : Nat} (one : Passes visits c stdin k d rest) (other : Passes visits c stdin k d' rest') :
    d' = d ∧ rest' = rest := by
  induction one generalizing d' rest' with
  | none =>
    cases other
    exact ⟨rfl, rfl⟩
  | more _ pass ih =>
    cases other with
    | more before' pass' =>
      obtain ⟨rfl, rfl⟩ := ih before'
      obtain ⟨client, input, -⟩ := pass_unique pass pass'
      exact ⟨client, input⟩

end MenuPasses
