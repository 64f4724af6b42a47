import MessageU.ClientOperations
import MessageU.CredentialsFile

/- What a registration leaves behind. The typed name is set before anything is sent,
   a me.info that cannot be opened is no reason to throw, though an exception is made
   for it, and whether what is written to an opened me.info gets there is not asked. -/
namespace FailedRegistration
open ByteFields SegmentedStream RequestFormat ResponseFormat ClientReception ClientCredentials
open ClientOperations CredentialsFile

/-- do_operation where me.info is written as far as `saving` says. -/
def registration (saving : Saving) (c : Client) (typed : Bytes) (env : Environment) :
    OperationRun :=
  RegisterOperation.doOperationFinding none (·.saveClientCredsUpTo saving) c typed env

def HoldsCredentials (meInfo : Option Bytes) (name id : Bytes) : Prop :=
  ∃ rest, meInfo = some (name ++ newline :: (id.flatMap hexByte ++ newline :: rest))

/-- A failure leaves the client as it was; a success is in me.info. -/
def RegistrationSound (c : Client) (typed : Bytes) (run : OperationRun) : Prop :=
  ((∃ how, run.how = .ended how ∧ how ≠ .returned) → run.client = c) ∧
    (run.how = .ended .returned → HoldsCredentials run.client.meInfo typed run.client.id)

def Answered (env : Environment) (payload : Bytes) : Prop :=
  env.sends = true ∧ CompleteResponse env 23 payload

/-- The file takes the lines of the name and the id, or keeps them where it is not opened. -/
def Saved (saving : Saving) (meInfo : Option Bytes) (name id : Bytes) : Prop :=
  match saving with
  | .unopened => HoldsCredentials meInfo name id
  | .written count => name.length + 1 + 2 * id.length + 1 ≤ count

theorem registration_request (clientId payload : Bytes) :
    ClientRequest.ofPayload clientId codeRegister payload =
      .ok ⟨clientId, codeRegister, supportedVersion, payload.length, payload, []⟩ :=
  payload_request (by decide) (fun _ => rfl) payload

/-- A shorter file cannot hold the two lines, and a longer one begins with them. -/
theorem saved_holds_iff (saving : Saving) (c : Client) :
    HoldsCredentials (c.saveClientCredsUpTo saving).meInfo c.name c.id ↔
      Saved saving c.meInfo c.name c.id := by
  cases saving with
  | unopened => exact Iff.rfl
  | written count =>
    let lines := c.name ++ newline :: (c.id.flatMap hexByte ++ [newline])
    have size : lines.length = c.name.length + 1 + 2 * c.id.length + 1 := by
      simp only [lines, List.length_append, List.length_cons, List.length_nil,
        written_id_length]
      omega
    have begins (rest : Bytes) : lines ++ rest =
        c.name ++ newline :: (c.id.flatMap hexByte ++ newline :: rest) := by
      simp [lines]
    have text : c.credentials = lines ++ (c.privateKey ++ [newline]) := (begins _).symm
    simp only [HoldsCredentials, Client.saveClientCredsUpTo, Saved, Option.some.injEq, ← begins,
      text, ← size]
    constructor
    · rintro ⟨rest, cut⟩
      have length := congrArg List.length cut
      simp only [List.length_take, List.length_append] at length
      omega
    · intro whole
      refine ⟨(c.privateKey ++ [newline]).take (count - lines.length), ?_⟩
      rw [List.take_append, List.take_of_length_le whole]

section Registration
variable (saving : Saving) {c : Client}
  (unregistered : Client.isClientRegistered c.meInfo = false)
  (typed : Bytes) {env : Environment}
include unregistered

theorem answered_registration {payload : Bytes} (answered : Answered env payload) :
    (registration saving c typed env).client =
        Client.saveClientCredsUpTo { c with name := typed, id := payload } saving ∧
      (registration saving c typed env).how = .ended .returned := by
  obtain ⟨sends, data, rest, code, read, parsed, no_error⟩ := answered
  have something : data ≠ [] := by
    rw [parsed.bytes]
    exact List.ne_nil_of_length_pos (by simp [response_header_length])
  have read_whole : recv RegisterOperation.responseSize env.sock = (.data data, rest) := read
  have exchanged (request : ClientRequest) :=
    exchange_answered "Register Operation" request sends read_whole something
  have accepted : refuses none true (ClientResponse.ofData env.beyond data) = some false := by
    rw [parsed.object, refuses_set rfl]
    simp [no_error]
  have own : (ClientResponse.ofData env.beyond data).payload = payload := by
    rw [parsed.object]
  simp [registration, RegisterOperation.doOperationFinding, unregistered, registration_request,
    exchanged, accepted, own]

theorem unanswered_registration (unanswered : ∀ payload, ¬ Answered env payload) :
    (registration saving c typed env).client = { c with name := typed } ∧
      ∃ how, (registration saving c typed env).how = .ended how ∧ how ≠ .returned := by
  cases sends : env.sends with
  | false =>
    have stops : ∀ request, exchange "Register Operation" request RegisterOperation.responseSize
        env = (none, .error (.runtimeError "Register Operation: Failed to send data")) := by
      intro request
      simp [exchange, sends]
    simp [registration, RegisterOperation.doOperationFinding, unregistered, registration_request,
      stops]
  | true =>
    rcases registration_cases (·.saveClientCredsUpTo saving) c typed env with
      ⟨registered, -⟩ | ⟨-, -, ⟨client, how, ended, no_return, -⟩ | ⟨payload, complete, -⟩⟩
    · rw [unregistered] at registered
      cases registered
    · exact ⟨client, how, ended, no_return⟩
    · exact absurd ⟨sends, complete⟩ (unanswered payload)

theorem unanswered_sound_iff (unanswered : ∀ payload, ¬ Answered env payload) :
    RegistrationSound c typed (registration saving c typed env) ↔ c.name = typed := by
  obtain ⟨client, how, ended, other⟩ :=
    unanswered_registration saving unregistered typed unanswered
  unfold RegistrationSound
  rw [client, ended]
  constructor
  · rintro ⟨unchanged, -⟩
    have same := congrArg Client.name (unchanged ⟨how, rfl, other⟩)
    exact same.symm
  · intro same
    refine ⟨fun _ => by rw [← same], ?_⟩
    intro returned
    cases returned
    exact absurd rfl other

theorem answered_sound_iff {payload : Bytes} (answered : Answered env payload) :
    RegistrationSound c typed (registration saving c typed env) ↔
      Saved saving c.meInfo typed payload := by
  obtain ⟨client, returned⟩ := answered_registration saving unregistered typed answered
  have no_failure : ¬ ∃ how, (OperationEnd.ended .returned) = .ended how ∧ how ≠ .returned := by
    rintro ⟨how, ended, other⟩
    cases ended
    exact other rfl
  have id : (Client.saveClientCredsUpTo { c with name := typed, id := payload } saving).id =
      payload := by
    cases saving <;> rfl
  have held := saved_holds_iff saving { c with name := typed, id := payload }
  unfold RegistrationSound
  rw [client, returned, id, ← held]
  exact ⟨fun sound => sound.2 rfl, fun held => ⟨fun failed => absurd failed no_failure,
    fun _ => held⟩⟩

end Registration

theorem answered_once {env : Environment} {payload other : Bytes}
    (answered : Answered env payload) (again : Answered env other) : payload = other := by
  obtain ⟨-, data, rest, code, read, parsed, -⟩ := answered
  obtain ⟨-, data', rest', code', read', parsed', -⟩ := again
  rw [read] at read'
  cases read'
  exact congrArg ClientResponse.payload (parsed.object.symm.trans parsed'.object)

/-- A failed registration leaves no trace if the typed name is the one the client has,
    and a successful one is in me.info if the file is opened and its first two lines are
    written, or if it is not opened and held the same before. -/
theorem registration_sound_iff (saving : Saving) (c : Client) (typed : Bytes)
    (env : Environment) :
    RegistrationSound c typed (registration saving c typed env) ↔
      Client.isClientRegistered c.meInfo = true ∨
        ((∀ payload, ¬ Answered env payload) → c.name = typed) ∧
          ∀ payload, Answered env payload → Saved saving c.meInfo typed payload := by
  cases registered : Client.isClientRegistered c.meInfo with
  | true =>
    have stops : registration saving c typed env = stopped c .alreadyRegistered := by
      simp [registration, RegisterOperation.doOperationFinding, registered]
    rw [stops]
    refine iff_of_true ⟨?_, ?_⟩ (Or.inl rfl)
    · rintro ⟨how, ended, -⟩
      cases ended
    · intro returned
      cases returned
  | false =>
    rw [or_iff_right Bool.false_ne_true]
    by_cases answered : ∃ payload, Answered env payload
    · obtain ⟨payload, answer⟩ := answered
      rw [answered_sound_iff saving registered typed answer]
      constructor
      · intro held
        refine ⟨fun unanswered => absurd answer (unanswered payload), ?_⟩
        intro other again
        rwa [← answered_once answer again]
      · rintro ⟨-, held⟩
        exact held payload answer
    · rw [not_exists] at answered
      rw [unanswered_sound_iff saving registered typed answered]
      constructor
      · intro same
        exact ⟨fun _ => same, fun payload answer => absurd answer (answered payload)⟩
      · rintro ⟨same, -⟩
        exact same answered

def newClient : Client := ⟨[], List.replicate 16 1, List.replicate 160 0x41, [], none⟩

/-- The send fails and the name stays; the response comes, the file is not opened, or is
    opened and nothing gets into it, and a success is reported. -/
theorem failures_leave_traces :
    let unsent : Environment := ⟨false, true, 0, [], []⟩
    let answering : Environment := ⟨true, true, 0, [], [.data
      (responseHeader supportedVersion codeSuccessfulRegistration 16 ++ List.replicate 16 7)]⟩
    let first := registration (.written 1000) newClient [0x61] unsent
    let second := registration .unopened newClient [0x61] answering
    let third := registration (.written 0) newClient [0x61] answering
    (first.how = .ended (.threw (.runtimeError "Register Operation: Failed to send data")) ∧
      first.client ≠ newClient ∧ ¬ RegistrationSound newClient [0x61] first) ∧
    (second.how = .ended .returned ∧ second.client.meInfo = none ∧
      ¬ RegistrationSound newClient [0x61] second) ∧
    (third.how = .ended .returned ∧ third.client.meInfo = some [] ∧
      ¬ RegistrationSound newClient [0x61] third) := by
  intro unsent answering first second third
  have threw : first.how =
      .ended (.threw (.runtimeError "Register Operation: Failed to send data")) := by
    decide +kernel
  have renamed : first.client ≠ newClient := by decide +kernel
  have returned : second.how = .ended .returned ∧ third.how = .ended .returned := by
    decide +kernel
  have no_file : second.client.meInfo = none := by decide +kernel
  have empty : third.client.meInfo = some [] := by decide +kernel
  refine ⟨⟨threw, renamed, ?_⟩, ⟨returned.1, no_file, ?_⟩, ⟨returned.2, empty, ?_⟩⟩
  · rintro ⟨unchanged, -⟩
    exact renamed (unchanged ⟨_, threw, by decide⟩)
  · rintro ⟨-, held⟩
    obtain ⟨rest, file⟩ := held returned.1
    rw [no_file] at file
    cases file
  · rintro ⟨-, held⟩
    obtain ⟨rest, file⟩ := held returned.2
    rw [empty] at file
    cases file

end FailedRegistration
