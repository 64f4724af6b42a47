import MessageU.GuardedRuns
import MessageU.ClientOperations

/- The id of a client over its whole life: from me.info, or sixteen ones without it,
   through any operations against any server. Neither the file's reader nor a
   registration checks that what it takes for an id has sixteen bytes. -/
namespace ClientIdentity
open ByteFields SegmentedStream GuardedRuns RequestFormat ResponseFormat ClientReception
open ClientCredentials ClientOperations

/-- A throw ends the process. What is left of the contacts once an unset field has
    been used is not known. -/
def Moves (c : Client) (op : Operation) (env : Environment) (after : Client) : Prop :=
  match (perform c op env).how with
  | .ended (.threw _) => False
  | .ended .indeterminate => ∃ contacts, after = { (perform c op env).client with contacts }
  | _ => after = (perform c op env).client

def clientRuns (file : Option Bytes → Prop) : StepSystem Client (Operation × Environment) where
  start c := ∃ meInfo, file meInfo ∧ Client.init meInfo = .ok c
  step c label after := Moves c label.1 label.2 after

def Identified (c : Client) (op : Operation) (env : Environment) : Prop :=
  (∀ r, (perform c op env).request = some r → r.clientId.length = 16) ∧
    ∀ raw, (perform c op env).sent = some raw →
      ∃ r, (perform c op env).request = some r ∧ raw.length = 23 + r.payload.length

def idLine (text : Bytes) : Bytes := (getline (getline text).2).1

/-- A file that is read has 32 characters for the id, or none, or an odd number that
    ends the constructor with an exception. -/
def FileSound (meInfo : Option Bytes) : Prop :=
  Client.isClientRegistered meInfo = true →
    (idLine (meInfo.getD [])).length = 32 ∨ (idLine (meInfo.getD [])).length = 0 ∨
      (idLine (meInfo.getD [])).length % 2 = 1

/-- A registration that gets a complete response gets sixteen bytes of payload, or
    none and can save them. -/
def ResponseSound (c : Client) (label : Operation × Environment) : Prop :=
  ∀ typed payload, label.1 = .register typed → Client.isClientRegistered c.meInfo = false →
    CompleteResponse label.2 23 payload →
      payload.length = 16 ∨ payload = [] ∧ label.2.opens = true

structure IdSound (c : Client) : Prop where
  id : c.id.length = 16 ∨ c.id = [] ∧ Client.isClientRegistered c.meInfo = true
  key : Client.isClientRegistered c.meInfo = true ∨ c.privateKey.length = 160

theorem init_sound {meInfo : Option Bytes} {c : Client} (sound : FileSound meInfo)
    (started : Client.init meInfo = .ok c) : IdSound c := by
  by_cases registered : Client.isClientRegistered meInfo = true
  · simp only [Client.init, Client.readClientCreds, registered, ↓reduceIte, Bool.not_true,
      Bool.false_eq_true] at started
    obtain ⟨even, odd⟩ := read_id_length (idLine (meInfo.getD []))
    by_cases parity : (idLine (meInfo.getD [])).length % 2 = 1
    · obtain ⟨e, raised⟩ := odd parity
      simp only [idLine] at raised
      rw [raised] at started
      cases started
    · obtain ⟨id, read, size⟩ := even (by omega)
      have length := sound registered
      simp only [idLine] at read
      rw [read] at started
      cases started
      refine ⟨?_, Or.inl registered⟩
      rcases length with whole | nothing | impossible
      · exact Or.inl (show id.length = 16 by omega)
      · exact Or.inr ⟨List.eq_nil_of_length_eq_zero (show id.length = 0 by omega), registered⟩
      · exact absurd impossible parity
  · simp only [Client.init, registered] at started
    cases started
    exact ⟨Or.inl rfl, Or.inr rfl⟩

theorem saved_registered (c : Client) (long : 16 < c.privateKey.length) :
    Client.isClientRegistered (c.saveClientCreds true).meInfo = true := by
  simp only [Client.saveClientCreds, ↓reduceIte, registered_iff]
  refine ⟨_, rfl, ?_⟩
  simp only [Client.credentials, List.length_append, List.length_cons]
  omega

theorem saved_id (c : Client) (opens : Bool) :
    (c.saveClientCreds opens).id = c.id ∧ (c.saveClientCreds opens).privateKey = c.privateKey := by
  unfold Client.saveClientCreds
  split <;> exact ⟨rfl, rfl⟩

theorem register_sound {c : Client} {typed : Bytes} {env : Environment} (sound : IdSound c)
    (responses : ResponseSound c (.register typed, env)) :
    IdSound (RegisterOperation.doOperation c typed env).client := by
  rcases register_cases c typed env with
    ⟨-, early⟩ | ⟨unregistered, -, ⟨named, -⟩ | ⟨payload, complete, taken, -⟩⟩
  · rw [early]
    exact sound
  · rw [named]
    exact ⟨sound.id, sound.key⟩
  · have key : c.privateKey.length = 160 := by
      rcases sound.key with registered | key
      · rw [registered] at unregistered
        cases unregistered
      · exact key
    obtain ⟨id, private_key⟩ :=
      saved_id { c with name := typed, id := payload } env.opens
    rw [taken]
    rcases responses typed payload rfl unregistered complete with whole | ⟨nothing, opens⟩
    · refine ⟨Or.inl (by rw [id]; exact whole), ?_⟩
      right
      rw [private_key]
      exact key
    · have registered := saved_registered { c with name := typed, id := payload }
        (show 16 < c.privateKey.length by omega)
      rw [opens] at id ⊢
      exact ⟨Or.inr ⟨by rw [id]; exact nothing, registered⟩, Or.inl registered⟩

theorem perform_sound {c : Client} {op : Operation} {env : Environment} (sound : IdSound c)
    (responses : ResponseSound c (op, env)) : IdSound (perform c op env).client := by
  rcases perform_keeps c env op with
    ⟨typed, rfl⟩ | ⟨-, contacts, -⟩ | ⟨-, same⟩ | ⟨-, -, same, -⟩
  · exact register_sound sound responses
  · rw [contacts]
    exact ⟨sound.id, sound.key⟩
  · rw [same]
    exact sound
  · rw [same]
    exact sound

theorem id_sound :
    Invariant ((clientRuns FileSound).restrict ResponseSound) IdSound where
  start c first := by
    obtain ⟨meInfo, sound, started⟩ := first
    exact init_sound sound started
  step c label after sound taken := by
    obtain ⟨responses, moved⟩ := taken
    have kept := perform_sound sound responses
    simp only [clientRuns, Moves] at moved
    split at moved
    · cases moved
    · obtain ⟨contacts, rfl⟩ := moved
      exact ⟨kept.id, kept.key⟩
    · rw [moved]
      exact kept

theorem empty_code_request (code : Nat) :
    ClientRequest.ofCode [] code = .error (.invalidArgument "Request: Bad arguments") := rfl

theorem empty_payload_request {code : Nat} (other : code ≠ codeRegister) (payload : Bytes) :
    ClientRequest.ofPayload [] code payload =
      .error (.invalidArgument "Request: Bad arguments") := by
  simp [ClientRequest.ofPayload, other]

theorem empty_id_silent {c : Client} (empty : c.id = [])
    (registered : Client.isClientRegistered c.meInfo = true) (op : Operation) (env : Environment) :
    (perform c op env).request = none := by
  have send (payload : Bytes) := empty_payload_request (show codeSendMsg ≠ codeRegister by decide)
    payload
  have pubkey (payload : Bytes) :=
    empty_payload_request (show codeFetchPublicKey ≠ codeRegister by decide) payload
  cases op with
  | register typed =>
    rcases register_cases c typed env with ⟨-, early⟩ | ⟨unregistered, -⟩
    · rw [perform, early]
      rfl
    · rw [registered] at unregistered
      cases unregistered
  | listUsers => simp only [perform, ListUserOperation.perform, empty, empty_code_request, stopped]
  | fetchMessages =>
    simp only [perform, FetchMsgOperation.perform, empty, empty_code_request, stopped]
  | getPublicKey destination =>
    simp only [perform, GetPublicKeyOperation.doOperation, GetPublicKeyOperation.doOperationFinding,
      empty, pubkey]
    split <;> rfl
  | sendText destination text =>
    simp only [perform, SendTxtOperation.doOperation, sendContent, sendContentFinding, empty,
      send]
    split
    · rfl
    · split <;> rfl
  | getSymmKey destination =>
    simp only [perform, GetSymmKeyOperation.doOperation, empty, send]
    split <;> rfl
  | sendSymKey destination =>
    simp only [perform, SendSymKeyOperation.doOperation, sendContent, sendContentFinding, empty,
      send]
    split
    · rfl
    · split <;> rfl

theorem request_length (r : ClientRequest) (fresh : r.rawRequest = [])
    (id : r.clientId.length = 16) : r.buildRequest.2.length = 23 + r.payload.length := by
  rw [build_appends, fresh, List.nil_append, layout_length _ _ _ _ _ id]

theorem identified {c : Client} (sound : IdSound c) (op : Operation) (env : Environment) :
    Identified c op env := by
  have requests := perform_requests c env op
  have size : ∀ r, (perform c op env).request = some r → r.clientId.length = 16 := by
    intro r made
    rcases sound.id with whole | ⟨empty, registered⟩
    · rw [(requests.fresh r made).1]
      exact whole
    · rw [empty_id_silent empty registered] at made
      cases made
  constructor
  · exact size
  · intro raw sent
    obtain ⟨r, made, built⟩ := requests.sent raw sent
    refine ⟨r, made, ?_⟩
    rw [built, request_length r (requests.fresh r made).2 (size r made)]

/-- In every run from a file with a sound second line whose registrations are
    answered with sixteen bytes, every request has a whole header. -/
theorem client_identified {c : Client}
    (reached : Reachable ((clientRuns FileSound).restrict ResponseSound) c) (op : Operation)
    (env : Environment) : Identified c op env :=
  identified (id_sound.holds reached) op env

theorem registered_client_identified :
    let answer := responseHeader supportedVersion codeSuccessfulRegistration 16 ++
      List.replicate 16 2
    let env : Environment := ⟨true, true, 0, [], [.data answer]⟩
    ∃ c d, Reachable ((clientRuns FileSound).restrict ResponseSound) c ∧
      c.id = List.replicate 16 2 ∧ Client.init c.meInfo = .ok d ∧
      Reachable ((clientRuns FileSound).restrict ResponseSound) d ∧
      d.id = List.replicate 16 2 ∧
      (perform c .listUsers env).sent.map List.length = some 23 ∧ Identified c .listUsers env ∧
      (perform d .listUsers env).sent.map List.length = some 23 ∧
      Identified d .listUsers env := by
  intro answer env
  let newcomer : Client := ⟨[], List.replicate 16 1, List.replicate 160 0x41, [], none⟩
  have no_file : FileSound none := by
    intro registered
    cases registered
  have first : Reachable ((clientRuns FileSound).restrict ResponseSound) newcomer :=
    .start ⟨none, no_file, rfl⟩
  have response : ResponseSound newcomer (.register [0x61], env) := by
    rintro typed payload - - ⟨data, rest, code, read, parsed, -⟩
    have same : data = answer := by
      have whole : recv 23 env.sock = (.data answer, []) := by decide
      rw [whole] at read
      cases read
      rfl
    have payload_read := congrArg ClientResponse.payload parsed.object
    rw [same] at payload_read
    left
    rw [← show (ClientResponse.ofData 0 answer).payload = payload from payload_read]
    decide
  let c : Client := (perform newcomer (.register [0x61]) env).client
  have returned : (perform newcomer (.register [0x61]) env).how = .ended .returned := by
    decide +kernel
  have moved : Moves newcomer (.register [0x61]) env c := by
    unfold Moves
    rw [returned]
  have reached : Reachable ((clientRuns FileSound).restrict ResponseSound) c :=
    .next first ⟨response, moved⟩
  have file : FileSound c.meInfo := fun _ => Or.inl (by decide +kernel)
  obtain ⟨d, started, id⟩ : ∃ d, Client.init c.meInfo = .ok d ∧ d.id = List.replicate 16 2 :=
    ⟨⟨[0x61], List.replicate 16 2, List.replicate 160 0x41, [], c.meInfo⟩, by decide +kernel, rfl⟩
  have again : Reachable ((clientRuns FileSound).restrict ResponseSound) d :=
    .start ⟨c.meInfo, file, started⟩
  have sent : ∀ e : Client, e.id = List.replicate 16 2 →
      (perform e .listUsers env).sent.map List.length = some 23 := by
    intro e own
    have made : ClientRequest.ofCode e.id codeListClients =
        .ok ⟨List.replicate 16 2, codeListClients, supportedVersion, 0, [], []⟩ := by
      rw [own]
      rfl
    simp only [perform, ListUserOperation.perform, made]
    rw [header_request_sent _ made]
    rfl
  have own : c.id = List.replicate 16 2 := by decide +kernel
  exact ⟨c, d, reached, own, started, again, id, sent c own, client_identified reached _ env,
    sent d id, client_identified again _ env⟩

/-- A file whose second line is "ab": the id is the one byte ab, and a list request
    goes out with a header of eight bytes. -/
theorem short_line_misidentified :
    let text : Bytes := [0x61, 0x0a, 0x61, 0x62, 0x0a] ++ List.replicate 160 0x41
    let env : Environment := ⟨true, true, 0, [], []⟩
    Client.isClientRegistered (some text) = true ∧
      ∃ c, Reachable (clientRuns fun _ => True) c ∧ c.meInfo = some text ∧ c.id = [0xab] ∧
        (perform c .listUsers env).sent.map List.length = some 8 ∧
        ¬ Identified c .listUsers env := by
  intro text env
  let c : Client := ⟨[0x61], [0xab], List.replicate 160 0x41, [], some text⟩
  have started : Client.init (some text) = .ok c := by decide +kernel
  refine ⟨by decide +kernel, c, .start ⟨some text, trivial, started⟩, rfl, rfl, by decide, ?_⟩
  intro identified
  have request : (perform c .listUsers env).request =
      some ⟨[0xab], codeListClients, supportedVersion, 0, [], []⟩ := by decide
  exact absurd (identified.1 _ request) (by decide)

end ClientIdentity
