import MessageU.ClientOperations

/- What a response must be before the client acts on it. No operation compares the
   code with the one its request calls for: any accepted code but the error code
   will do. Statements about a header that was not read whole are left out where the
   operation goes on with fields that the constructor did not set. -/
namespace ResponseMatching
open ByteFields SegmentedStream RequestFormat ResponseFormat ClientReception ClientCredentials
open ClientOperations

def HeaderRead (beyond : Nat) (data : Bytes) (code : Nat) : Prop :=
  7 ≤ data.length ∧ (data.getD 0 0).toNat = supportedVersion ∧
    code = fromBigEndian [data.getD 1 0, data.getD 2 0] ∧ isResponseCodeValid beyond code = true

instance (beyond : Nat) (data : Bytes) (code : Nat) : Decidable (HeaderRead beyond data code) :=
  inferInstanceAs (Decidable (_ ∧ _ ∧ _ ∧ _))

/-- What the first recv asks for. -/
def firstRead : Operation → Nat
  | .register _ => RegisterOperation.responseSize
  | .listUsers | .fetchMessages => minResponseSize
  | .getPublicKey _ => GetPublicKeyOperation.responseSize
  | .sendText _ _ | .getSymmKey _ | .sendSymKey _ => sentResponseSize

/-- The operations that ask whether the response is valid. -/
def checksValid : Operation → Bool
  | .register _ | .getPublicKey _ | .sendText _ _ => true
  | _ => false

structure Matched (c : Client) (op : Operation) (env : Environment) (run : OperationRun) :
    Prop where
  identity : run.client.id ≠ c.id ∨ run.client.meInfo ≠ c.meInfo →
    ∃ typed payload, op = .register typed ∧ CompleteResponse env 23 payload ∧
      run.how = .ended .returned
  contacts : run.client.contacts ≠ c.contacts → op = .listUsers
  handled : run.handled ≠ [] → op = .fetchMessages
  accepted : ∀ data rest code, recv (firstRead op) env.sock = (.data data, rest) →
    HeaderRead env.beyond data code → run.how ≠ .ended .indeterminate ∧
      (code = codeError → run.client = { c with name := run.client.name } ∧ run.handled = [])
  unread : (∀ data rest, recv (firstRead op) env.sock = (.data data, rest) → data = []) →
    run.how ≠ .ended .indeterminate ∧ run.client = { c with name := run.client.name } ∧
      run.handled = []
  checked : checksValid op = true → run.how ≠ .ended .indeterminate ∧
    ∀ found, performFinding found c op env = run

/-! The fields of a response. -/

theorem header_fields {beyond : Nat} {data : Bytes} {code : Nat}
    (header : HeaderRead beyond data code) :
    (ClientResponse.ofData beyond data).responseCode = some code ∧
      ∃ size, (ClientResponse.ofData beyond data).payloadSize = some size := by
  obtain ⟨long, version, read, known⟩ := header
  rw [← assembled_half] at read
  have enough : ¬ data.length < minResponseSize := Nat.not_lt.mpr long
  subst read
  simp only [ClientResponse.ofData, enough, ↓reduceIte, version, ne_eq, not_true, known,
    Bool.not_true, Bool.false_eq_true]
  split <;> exact ⟨rfl, _, rfl⟩

/-! The operations with a response of known size. -/

theorem ending_determined {checks : Bool} {responseSize beyond : Nat}
    {received : Except Thrown Bytes}
    (set : ∀ data, received = .ok data →
      checks = true ∨ (ClientResponse.ofData beyond data).responseCode ≠ none) :
    responseEnding checks responseSize beyond received ≠ .indeterminate := by
  cases received with
  | error e => simp [responseEnding, responseEndingFinding]
  | ok data =>
    simp only [responseEnding, responseEndingFinding]
    split
    · rename_i unset
      exact absurd unset (refuses_determined (set data rfl))
    · simp
    · split <;> simp

section Exchange
variable {c : Client} {env : Environment}

def CodeSet (checks : Bool) (responseSize : Nat) (env : Environment) : Prop :=
  ∀ data rest, recv responseSize env.sock = (.data data, rest) → data ≠ [] →
    checks = true ∨ (ClientResponse.ofData env.beyond data).responseCode ≠ none

theorem ended_determined {how : Ending} (determined : how ≠ .indeterminate) :
    OperationEnd.ended how ≠ .ended .indeterminate :=
  fun same => determined (OperationEnd.ended.inj same)

theorem exchange_determined (name : String) {checks : Bool} (request : ClientRequest)
    {responseSize : Nat} (set : CodeSet checks responseSize env) :
    responseEnding checks responseSize env.beyond (exchange name request responseSize env).2 ≠
      .indeterminate := by
  apply ending_determined
  intro data received
  obtain ⟨rest, read⟩ := exchange_received received
  apply set data rest read
  intro nothing
  subst nothing
  simp only [exchange] at received
  split at received
  · cases received
  · rw [read] at received
    cases received

theorem ending_found (found : Nat) (responseSize beyond : Nat)
    (received : Except Thrown Bytes) :
    responseEndingFinding (some found) true responseSize beyond received =
      responseEndingFinding none true responseSize beyond received := by
  cases received with
  | error e => rfl
  | ok data => simp only [responseEndingFinding, refuses_checked (some found)]

theorem found_unused {op : Operation} (checked : checksValid op = true) (found : Nat) :
    performFinding found c op env = perform c op env := by
  cases op with
  | register typed =>
    simp only [performFinding, perform, RegisterOperation.doOperation,
      RegisterOperation.doOperationFinding, refuses_checked (some found)]
  | getPublicKey destination =>
    simp only [performFinding, perform, GetPublicKeyOperation.doOperation,
      GetPublicKeyOperation.doOperationFinding, ending_found]
  | sendText destination text =>
    simp only [performFinding, perform, SendTxtOperation.doOperation, sendContent,
      sendContentFinding, sendRequestFinding, ending_found]
  | listUsers => cases checked
  | fetchMessages => cases checked
  | getSymmKey destination => cases checked
  | sendSymKey destination => cases checked

theorem register_determined (typed : Bytes) :
    (RegisterOperation.doOperation c typed env).how ≠ .ended .indeterminate := by
  rcases register_cases c typed env with
    ⟨-, early⟩ | ⟨-, -, ⟨-, how, ended, -, determined⟩ | ⟨-, -, -, ended⟩⟩
  · rw [early]
    simp [stopped]
  · rw [ended]
    exact ended_determined determined
  · rw [ended]
    simp

theorem pubkey_determined (destination : Bytes)
    (set : CodeSet true GetPublicKeyOperation.responseSize env) :
    (GetPublicKeyOperation.doOperation c destination env).how ≠ .ended .indeterminate := by
  unfold GetPublicKeyOperation.doOperation GetPublicKeyOperation.doOperationFinding
  dsimp only
  split
  · simp [stopped]
  · split
    · simp [stopped]
    · rename_i request made
      have determined := exchange_determined "GetPublicKey Operation" request set
      split <;> exact ended_determined determined

theorem symm_key_determined (destination : Bytes) (set : CodeSet false sentResponseSize env) :
    (GetSymmKeyOperation.doOperation c destination env).how ≠ .ended .indeterminate := by
  unfold GetSymmKeyOperation.doOperation
  dsimp only
  split
  · simp [stopped]
  · split
    · simp [stopped]
    · rename_i request made
      split
      · simp [stopped]
      · exact ended_determined (exchange_determined "GetSymmKey Operation" request set)

theorem content_determined (name : String) (checks : Bool) (type : Nat)
    (destination content : Bytes) (set : CodeSet checks sentResponseSize env) :
    (sendContent name checks type c destination content env).how ≠ .ended .indeterminate := by
  unfold sendContent sendContentFinding
  dsimp only
  split
  · simp [stopped]
  · split
    · simp [stopped]
    · split
      · simp [stopped]
      · rename_i request made
        exact ended_determined (exchange_determined name request set)

end Exchange

/-! The operations that read a header first. -/

section Header
variable {name : String} {requestCode : Nat} {clientId : Bytes} {sends : Bool} {beyond : Nat}
  {sock rest : Socket} {data : Bytes}

theorem header_read_cases {code : Nat} (read : recv 7 sock = (.data data, rest))
    (header : HeaderRead beyond data code) :
    (∃ e after, (receiveHeader name requestCode clientId sends beyond sock).2 =
        .ended (.threw e) after) ∨
      (code = codeError ∧ (receiveHeader name requestCode clientId sends beyond sock).2 =
        .ended .errorResponse rest) ∨
      (code ≠ codeError ∧ ((receiveHeader name requestCode clientId sends beyond sock).2 =
          .ended .payloadTooBig rest ∨
        ∃ size, (receiveHeader name requestCode clientId sends beyond sock).2 =
          .sized size rest)) := by
  obtain ⟨code_set, size, size_set⟩ := header_fields header
  have some_data : ¬ data.length = 0 := by
    have := header.1
    omega
  unfold receiveHeader
  split
  · exact Or.inl ⟨_, _, rfl⟩
  · dsimp only
    split
    · exact Or.inl ⟨_, _, rfl⟩
    · rw [show minResponseSize = 7 from rfl, read]
      simp only [some_data, ↓reduceIte, code_set, size_set]
      by_cases error : code = codeError
      · rw [if_pos error]
        exact Or.inr (Or.inl ⟨error, rfl⟩)
      · rw [if_neg error]
        right; right
        refine ⟨error, ?_⟩
        split
        · exact Or.inl rfl
        · exact Or.inr ⟨size, rfl⟩

theorem header_unread (nothing : ∀ data rest, recv 7 sock = (.data data, rest) → data = []) :
    ∃ e after, (receiveHeader name requestCode clientId sends beyond sock).2 =
      .ended (.threw e) after := by
  unfold receiveHeader
  split
  · exact ⟨_, _, rfl⟩
  · dsimp only
    split
    · exact ⟨_, _, rfl⟩
    · rw [show minResponseSize = 7 from rfl]
      rcases read : recv 7 sock with ⟨data | -, rest⟩
      · rw [nothing data rest read]
        exact ⟨_, _, rfl⟩
      · exact ⟨_, _, rfl⟩

end Header

section Lists
variable {c : Client} {env : Environment}

theorem list_accepted {data : Bytes} {rest : Socket} {code : Nat}
    (read : recv 7 env.sock = (.data data, rest)) (header : HeaderRead env.beyond data code) :
    (ListUserOperation.perform c env).how ≠ .ended .indeterminate ∧
      (code = codeError → (ListUserOperation.perform c env).client = c) := by
  unfold ListUserOperation.perform
  split
  · exact ⟨by simp [stopped], fun _ => rfl⟩
  · dsimp only
    unfold ListUserOperation.doOperation
    rcases header_read_cases read header with
      ⟨e, after, threw⟩ | ⟨-, error⟩ | ⟨no_error, big | ⟨size, sized⟩⟩
    · rw [threw]
      exact ⟨by simp, fun _ => rfl⟩
    · rw [error]
      exact ⟨by simp, fun _ => rfl⟩
    · rw [big]
      exact ⟨by simp, fun error => absurd error no_error⟩
    · rw [sized]
      refine ⟨?_, fun error => absurd error no_error⟩
      dsimp only
      split <;> simp

theorem list_unread
    (nothing : ∀ data rest, recv 7 env.sock = (.data data, rest) → data = []) :
    (ListUserOperation.perform c env).how ≠ .ended .indeterminate ∧
      (ListUserOperation.perform c env).client = c := by
  unfold ListUserOperation.perform
  split
  · exact ⟨by simp [stopped], rfl⟩
  · dsimp only
    unfold ListUserOperation.doOperation
    obtain ⟨e, after, threw⟩ := header_unread nothing
    rw [threw]
    exact ⟨by simp, rfl⟩

theorem fetch_accepted {data : Bytes} {rest : Socket} {code : Nat}
    (read : recv 7 env.sock = (.data data, rest)) (header : HeaderRead env.beyond data code) :
    (FetchMsgOperation.perform c env).how ≠ .ended .indeterminate ∧
      (code = codeError → (FetchMsgOperation.perform c env).handled = []) := by
  unfold FetchMsgOperation.perform
  split
  · exact ⟨by simp [stopped], fun _ => rfl⟩
  · dsimp only
    unfold FetchMsgOperation.doOperation
    rcases header_read_cases read header with
      ⟨e, after, threw⟩ | ⟨-, error⟩ | ⟨no_error, big | ⟨size, sized⟩⟩
    · rw [threw]
      exact ⟨by simp, fun _ => rfl⟩
    · rw [error]
      exact ⟨by simp, fun _ => rfl⟩
    · rw [big]
      exact ⟨by simp, fun error => absurd error no_error⟩
    · rw [sized]
      refine ⟨?_, fun error => absurd error no_error⟩
      rcases fetch_ends size 0 env.buffer rest with returned | ⟨e, threw⟩
      · simp [returned]
      · simp [threw]

theorem fetch_unread
    (nothing : ∀ data rest, recv 7 env.sock = (.data data, rest) → data = []) :
    (FetchMsgOperation.perform c env).how ≠ .ended .indeterminate ∧
      (FetchMsgOperation.perform c env).handled = [] := by
  unfold FetchMsgOperation.perform
  split
  · exact ⟨by simp [stopped], rfl⟩
  · dsimp only
    unfold FetchMsgOperation.doOperation
    obtain ⟨e, after, threw⟩ := header_unread nothing
    rw [threw]
    exact ⟨by simp, rfl⟩

end Lists

/-! All operations. -/

section Registration
variable {c : Client} {env : Environment} {typed : Bytes}

theorem register_keeps :
    ((RegisterOperation.doOperation c typed env).client =
        { c with name := (RegisterOperation.doOperation c typed env).client.name } ∨
      ∃ payload, CompleteResponse env 23 payload ∧
        (RegisterOperation.doOperation c typed env).how = .ended .returned ∧
        (RegisterOperation.doOperation c typed env).client.contacts = c.contacts) ∧
    (RegisterOperation.doOperation c typed env).handled = [] := by
  rcases register_cases c typed env with
    ⟨-, early⟩ | ⟨-, silent, ⟨named, -⟩ | ⟨payload, complete, taken, returned⟩⟩
  · rw [early]
    exact ⟨Or.inl rfl, rfl⟩
  · refine ⟨Or.inl ?_, silent⟩
    rw [named]
  · refine ⟨Or.inr ⟨payload, complete, returned, ?_⟩, silent⟩
    rw [taken]
    unfold Client.saveClientCreds
    split <;> rfl

theorem parsed_nonempty {beyond code : Nat} {data payload : Bytes}
    (parsed : Parsed beyond data code payload) : data ≠ [] := by
  rw [parsed.bytes]
  apply List.ne_nil_of_length_pos
  rw [List.length_append, response_header_length]
  omega

theorem register_kept_unless (complete : ¬ ∃ payload, CompleteResponse env 23 payload) :
    (RegisterOperation.doOperation c typed env).how ≠ .ended .indeterminate ∧
      (RegisterOperation.doOperation c typed env).client =
        { c with name := (RegisterOperation.doOperation c typed env).client.name } ∧
      (RegisterOperation.doOperation c typed env).handled = [] := by
  obtain ⟨kept | ⟨payload, taken, -⟩, silent⟩ := @register_keeps c env typed
  · exact ⟨register_determined typed, kept, silent⟩
  · exact absurd ⟨payload, taken⟩ complete

theorem error_incomplete {data : Bytes} {rest : Socket} {code : Nat}
    (read : recv 23 env.sock = (.data data, rest)) (header : HeaderRead env.beyond data code)
    (error : code = codeError) : ¬ ∃ payload, CompleteResponse env 23 payload := by
  rintro ⟨payload, other, after, code', again, parsed, no_error⟩
  rw [read] at again
  cases again
  have found := (header_fields header).1
  rw [parsed.object] at found
  exact no_error ((Option.some.inj found).trans error)

theorem unread_incomplete
    (nothing : ∀ data rest, recv 23 env.sock = (.data data, rest) → data = []) :
    ¬ ∃ payload, CompleteResponse env 23 payload := by
  rintro ⟨payload, data, rest, code, read, parsed, -⟩
  exact parsed_nonempty parsed (nothing data rest read)

end Registration

theorem code_set {checks : Bool} {responseSize : Nat} {env : Environment} {data : Bytes}
    {rest : Socket} {code : Nat} (read : recv responseSize env.sock = (.data data, rest))
    (header : HeaderRead env.beyond data code) : CodeSet checks responseSize env := by
  intro other after again _
  rw [read] at again
  cases again
  right
  rw [(header_fields header).1]
  simp

theorem code_unasked {checks : Bool} {responseSize : Nat} {env : Environment}
    (nothing : ∀ data rest, recv responseSize env.sock = (.data data, rest) → data = []) :
    CodeSet checks responseSize env :=
  fun data rest read some_data => absurd (nothing data rest read) some_data

theorem code_checked (responseSize : Nat) (env : Environment) : CodeSet true responseSize env :=
  fun _ _ _ _ => Or.inl rfl

theorem known_size_determined {c : Client} {op : Operation} {env : Environment}
    (known : firstRead op ≠ minResponseSize) (set : CodeSet (checksValid op) (firstRead op) env) :
    (perform c op env).how ≠ .ended .indeterminate := by
  cases op with
  | register typed => exact register_determined typed
  | listUsers => exact absurd rfl known
  | fetchMessages => exact absurd rfl known
  | getPublicKey destination => exact pubkey_determined destination set
  | sendText destination text =>
    exact content_determined "SendTxt Operation" true messageTypeSendTxt destination text set
  | getSymmKey destination => exact symm_key_determined destination set
  | sendSymKey destination =>
    exact content_determined "SendSymKey Operation" false messageTypeSendSymKey destination _ set

theorem other_known_size {op : Operation} (not_list : op ≠ .listUsers)
    (not_fetch : op ≠ .fetchMessages) : firstRead op ≠ minResponseSize := by
  cases op with
  | listUsers => exact absurd rfl not_list
  | fetchMessages => exact absurd rfl not_fetch
  | register typed => exact (by decide : RegisterOperation.responseSize ≠ minResponseSize)
  | getPublicKey _ => exact (by decide : GetPublicKeyOperation.responseSize ≠ minResponseSize)
  | _ => exact (by decide : sentResponseSize ≠ minResponseSize)

theorem register_matched (c : Client) (typed : Bytes) (env : Environment) :
    Matched c (.register typed) env (RegisterOperation.doOperation c typed env) := by
  obtain ⟨kept, silent⟩ := @register_keeps c env typed
  constructor
  · intro changed
    rcases kept with kept | ⟨payload, complete, returned, -⟩
    · rw [kept] at changed
      simp at changed
    · exact ⟨typed, payload, rfl, complete, returned⟩
  · intro changed
    rcases kept with kept | ⟨-, -, -, contacts⟩
    · rw [kept] at changed
      simp at changed
    · exact absurd contacts changed
  · intro handed
    exact absurd silent handed
  · intro data rest code read header
    refine ⟨register_determined typed, fun error => ?_⟩
    exact (register_kept_unless (error_incomplete read header error)).2
  · intro nothing
    exact register_kept_unless (unread_incomplete nothing)
  · intro checked
    exact ⟨register_determined typed, found_unused checked⟩

theorem list_matched (c : Client) (env : Environment) :
    Matched c .listUsers env (ListUserOperation.perform c env) := by
  obtain ⟨contacts, silent⟩ := list_keeps c env
  constructor
  · intro changed
    rw [contacts] at changed
    simp at changed
  · intro _
    rfl
  · intro handed
    exact absurd silent handed
  · intro data rest code read header
    obtain ⟨determined, kept⟩ := list_accepted (c := c) read header
    refine ⟨determined, fun error => ⟨?_, silent⟩⟩
    rw [kept error]
  · intro nothing
    obtain ⟨determined, kept⟩ := list_unread (c := c) nothing
    exact ⟨determined, by rw [kept], silent⟩
  · intro impossible
    cases impossible

theorem fetch_matched (c : Client) (env : Environment) :
    Matched c .fetchMessages env (FetchMsgOperation.perform c env) := by
  have same := fetch_keeps c env
  constructor
  · intro changed
    rw [same] at changed
    simp at changed
  · intro changed
    rw [same] at changed
    simp at changed
  · intro _
    rfl
  · intro data rest code read header
    obtain ⟨determined, silent⟩ := fetch_accepted (c := c) read header
    exact ⟨determined, fun error => ⟨by rw [same], silent error⟩⟩
  · intro nothing
    obtain ⟨determined, silent⟩ := fetch_unread (c := c) nothing
    exact ⟨determined, by rw [same], silent⟩
  · intro impossible
    cases impossible

/-- Only a registration takes an id, from a complete response; only a listing takes
    contacts and only a fetch hands on messages, and neither after an error code. Once a
    header has been read no operation asks for a field that is not set, and one that asks
    for validity does the same whatever an unset code reads as. -/
theorem responses_matched (c : Client) (op : Operation) (env : Environment) :
    Matched c op env (perform c op env) := by
  rcases perform_keeps c env op with
    ⟨typed, rfl⟩ | ⟨rfl, -⟩ | ⟨rfl, -⟩ | ⟨not_list, not_fetch, same, silent⟩
  · exact register_matched c typed env
  · exact list_matched c env
  · exact fetch_matched c env
  · have known := other_known_size not_list not_fetch
    constructor
    · intro changed
      rw [same] at changed
      simp at changed
    · intro changed
      rw [same] at changed
      simp at changed
    · intro handed
      exact absurd silent handed
    · intro data rest code read header
      refine ⟨known_size_determined known (code_set read header), fun _ => ⟨?_, silent⟩⟩
      rw [same]
    · intro nothing
      refine ⟨known_size_determined known (code_unasked nothing), ?_, silent⟩
      rw [same]
    · intro checked
      refine ⟨known_size_determined known ?_, found_unused checked⟩
      rw [checked]
      exact code_checked _ env

/-- A registration that is answered with "message sent" takes its payload for an id. -/
theorem sent_answer_registers :
    let c : Client := ⟨[], List.replicate 16 1, List.replicate 160 0x41, [], none⟩
    let data := responseHeader supportedVersion codeMsgSent 16 ++ List.replicate 16 7
    let env : Environment := ⟨true, true, 0, [], [.data data]⟩
    let run := perform c (.register [0x41]) env
    recv (firstRead (.register [0x41])) env.sock = (.data data, []) ∧
      HeaderRead env.beyond data codeMsgSent ∧ codeMsgSent ≠ codeSuccessfulRegistration ∧
      run.client.id = List.replicate 16 7 ∧ run.client.id ≠ c.id ∧
      run.client.meInfo ≠ c.meInfo := by
  decide +kernel

end ResponseMatching
