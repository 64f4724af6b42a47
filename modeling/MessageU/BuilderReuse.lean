import MessageU.AppendingBuilders
import MessageU.MessageFormat

/- The two builders of the client, Request and Message. Each keeps what it has built in
   a field of its own and appends to it, where the server's Response replaces it. -/
namespace BuilderReuse
open ByteFields RequestFormat ResponseFormat ClientReception ClientOperations MessageFormat
open AppendingBuilders

def Framed (header content raw : Bytes) : Prop :=
  ∃ size, size.length = 4 ∧ fromBigEndian size = content.length ∧
    raw = header ++ (size ++ content)

theorem framed_length {header content raw : Bytes} (framed : Framed header content raw) (n : Nat) :
    raw.length = (header ++ (bigEndian 4 n ++ content)).length := by
  obtain ⟨size, width, -, rfl⟩ := framed
  simp only [List.length_append, big_endian_length, width]

theorem framed_nonempty (header content : Bytes) (n : Nat) :
    header ++ (bigEndian 4 n ++ content) ≠ [] := by
  apply List.ne_nil_of_length_pos
  simp only [List.length_append, big_endian_length]
  omega

theorem framed_iff (header content : Bytes) (n : Nat) :
    Framed header content (header ++ (bigEndian 4 n ++ content)) ↔
      n % 2 ^ 32 = content.length := by
  have field := from_big_endian_mod 4 n
  constructor
  · rintro ⟨size, width, counts, same⟩
    have behind := List.append_cancel_left same
    have sizes := List.append_cancel_right behind
    rw [← sizes] at counts
    exact field.symm.trans counts
  · intro counts
    exact ⟨bigEndian 4 n, big_endian_length 4 n, field.trans counts, rfl⟩

theorem framed_fits_iff (header content : Bytes) :
    Framed header content (header ++ (bigEndian 4 content.length ++ content)) ↔
      content.length < 2 ^ 32 := by
  rw [framed_iff]
  exact Nat.mod_eq_iff_lt (by decide)

theorem response_rebuilt {r built : ServerResponse} {payload : Bytes}
    (done : r.build payload = .ok built) : built.build [] = .ok built := by
  simp only [ServerResponse.build, ne_eq, not_true_eq_false, ↓reduceIte] at done ⊢
  split at done
  all_goals
    split at done
    · rename_i small
      cases done
      exact if_pos small
    · cases done

/-! Requests. -/

/-- Both overloads of append_to_payload. -/
def ClientRequest.appendToPayload (r : ClientRequest) (vec : Bytes) : ClientRequest :=
  { r with payload := r.payload ++ vec, payloadSize := r.payloadSize + vec.length }

def ClientRequest.builds : ClientRequest → List (Call Bytes) → List (ClientRequest × Bytes)
  | _, [] => []
  | r, .change vec :: rest => builds (appendToPayload r vec) rest
  | r, .build :: rest => (r, r.buildRequest.2) :: builds r.buildRequest.1 rest

inductive RequestMade : ClientRequest → Prop where
  | empty : RequestMade ⟨[], 0, supportedVersion, 0, [], []⟩
  | ofCode {clientId : Bytes} {code : Nat} {r : ClientRequest}
      (made : ClientRequest.ofCode clientId code = .ok r) : RequestMade r
  | ofPayload {clientId payload : Bytes} {code : Nat} {r : ClientRequest}
      (made : ClientRequest.ofPayload clientId code payload = .ok r) : RequestMade r

def requestHeader (r : ClientRequest) : Bytes :=
  r.clientId ++ (bigEndian 1 r.version ++ bigEndian 2 r.requestCode)

def RequestEncoded (r : ClientRequest) (raw : Bytes) : Prop :=
  Framed (requestHeader r) r.payload raw

def requestBuilder : Builder ClientRequest Bytes Byte where
  apply := ClientRequest.appendToPayload
  encode r := requestHeader r ++ (bigEndian 4 r.payloadSize ++ r.payload)

theorem made_fresh {r : ClientRequest} (made : RequestMade r) :
    r.rawRequest = [] ∧ r.payloadSize = r.payload.length := by
  cases made with
  | empty => exact ⟨rfl, rfl⟩
  | ofCode made =>
    rw [(of_code_made made).1]
    exact ⟨rfl, rfl⟩
  | ofPayload made =>
    rw [(of_payload_made made).1]
    exact ⟨rfl, rfl⟩

theorem request_build (r : ClientRequest) :
    r.buildRequest.2 = r.rawRequest ++ requestBuilder.encode r := by
  rw [build_appends]
  simp only [layout, requestBuilder, requestHeader, List.append_assoc]

def withoutRaw (r : ClientRequest) : ClientRequest := { r with rawRequest := [] }

theorem request_builds (r : ClientRequest) (calls : List (Call Bytes)) :
    (ClientRequest.builds r calls).map (fun p => (withoutRaw p.1, p.2)) =
      requestBuilder.appended (withoutRaw r) r.rawRequest calls := by
  induction calls generalizing r with
  | nil => rfl
  | cons call rest ih =>
    cases call with
    | change vec => exact ih (ClientRequest.appendToPayload r vec)
    | build =>
      have later := ih r.buildRequest.1
      have raw : r.buildRequest.1.rawRequest = r.buildRequest.2 := rfl
      rw [raw, request_build] at later
      simp only [ClientRequest.builds, List.map_cons, Builder.appended]
      rw [request_build]
      exact congrArg _ later

theorem request_encoded_iff {r : ClientRequest} (counted : r.payloadSize = r.payload.length) :
    RequestEncoded r (requestBuilder.encode r) ↔ r.payload.length < 2 ^ 32 := by
  simp only [requestBuilder, counted]
  exact framed_fits_iff (requestHeader r) r.payload

theorem requests_reused_iff {r : ClientRequest} (made : RequestMade r)
    (calls : List (Call Bytes)) :
    (∀ p ∈ ClientRequest.builds r calls, RequestEncoded p.1 p.2) ↔
      buildCount calls ≤ 1 ∧ ∀ g ∈ requestBuilder.built r calls, g.payload.length < 2 ^ 32 := by
  obtain ⟨no_raw, counted⟩ := made_fresh made
  have same : withoutRaw r = r := by
    rw [withoutRaw, ← no_raw]
  have runs := request_builds r calls
  rw [same, no_raw] at runs
  have kept : ∀ g vec, g.payloadSize = g.payload.length →
      (requestBuilder.apply g vec).payloadSize = (requestBuilder.apply g vec).payload.length := by
    intro g vec before
    simp only [requestBuilder, ClientRequest.appendToPayload, List.length_append, before]
  have counts := built_kept requestBuilder (fun g => g.payloadSize = g.payload.length) kept
    counted calls
  have right := appended_right_iff requestBuilder
    (fun g raw (encoded : RequestEncoded g raw) => framed_length encoded g.payloadSize)
    (fun g => framed_nonempty (requestHeader g) g.payload g.payloadSize) r calls
  rw [← runs, List.forall_mem_map] at right
  refine right.trans (and_congr_right fun _ => ?_)
  exact forall₂_congr fun g there => request_encoded_iff (counts g there)

/-! Messages. -/

/-- Message() leaves the content size as it happens to be. -/
def Message.empty (contentSize : Nat) : Message := ⟨[], messageTypeSendTxt, contentSize, []⟩

/-- set_content, or the message as it was when that has thrown. -/
def Message.afterSetContent (m : Message) (content : Bytes) : Message :=
  match Message.setContent m content with
  | .ok after => after
  | .error _ => m

def Message.builds : Message → Bytes → List (Call Bytes) → List (Message × Bytes)
  | _, _, [] => []
  | m, rawMessage, .change content :: rest => builds (afterSetContent m content) rawMessage rest
  | m, rawMessage, .build :: rest =>
    (m, Message.buildMsg m rawMessage) :: builds m (Message.buildMsg m rawMessage) rest

def messageHeader (m : Message) : Bytes := m.clientId ++ bigEndian 1 m.messageType

def MessageEncoded (m : Message) (raw : Bytes) : Prop :=
  Framed (messageHeader m) m.messageContent raw

def messageBuilder : Builder Message Bytes Byte where
  apply := Message.afterSetContent
  encode m := messageHeader m ++ (bigEndian 4 m.contentSize ++ m.messageContent)

theorem message_build (m : Message) (rawMessage : Bytes) :
    Message.buildMsg m rawMessage = rawMessage ++ messageBuilder.encode m := by
  have type_byte : [UInt8.ofNat m.messageType] = bigEndian 1 m.messageType := by simp [bigEndian]
  simp only [Message.buildMsg, messageBuilder, messageHeader, shifted_word, type_byte,
    List.append_assoc]

theorem message_builds (m : Message) (rawMessage : Bytes) (calls : List (Call Bytes)) :
    Message.builds m rawMessage calls = messageBuilder.appended m rawMessage calls := by
  induction calls generalizing m rawMessage with
  | nil => rfl
  | cons call rest ih =>
    cases call with
    | change content => exact ih (Message.afterSetContent m content) rawMessage
    | build =>
      simp only [Message.builds, Builder.appended, message_build]
      rw [ih]

theorem content_counted {m : Message} (content : Bytes)
    (set : m.messageType ≠ messageTypeRequestSymKey ∨ m.contentSize = m.messageContent.length) :
    (Message.afterSetContent m content).contentSize =
      (Message.afterSetContent m content).messageContent.length := by
  unfold Message.afterSetContent Message.setContent
  by_cases request : m.messageType = messageTypeRequestSymKey
  · rw [if_pos request]
    exact set.resolve_left (not_not.mpr request)
  · rw [if_neg request]

theorem message_right_iff (m : Message) (calls : List (Call Bytes)) :
    (∀ p ∈ Message.builds m [] calls, MessageEncoded p.1 p.2) ↔
      buildCount calls ≤ 1 ∧
        ∀ g ∈ messageBuilder.built m calls, g.contentSize % 2 ^ 32 = g.messageContent.length := by
  have right := appended_right_iff messageBuilder
    (fun g raw (encoded : MessageEncoded g raw) => framed_length encoded g.contentSize)
    (fun g => framed_nonempty (messageHeader g) g.messageContent g.contentSize) m calls
  rw [message_builds, right]
  refine and_congr_right fun _ => ?_
  exact forall₂_congr fun g _ => framed_iff (messageHeader g) g.messageContent g.contentSize

theorem counted_messages_iff {m : Message} (counted : m.contentSize = m.messageContent.length)
    (calls : List (Call Bytes)) :
    (∀ p ∈ Message.builds m [] calls, MessageEncoded p.1 p.2) ↔
      buildCount calls ≤ 1 ∧
        ∀ g ∈ messageBuilder.built m calls, g.messageContent.length < 2 ^ 32 := by
  have counts := built_kept messageBuilder (fun g => g.contentSize = g.messageContent.length)
    (fun g content before => content_counted content (Or.inr before)) counted calls
  rw [message_right_iff]
  refine and_congr_right fun _ => ?_
  refine forall₂_congr fun g there => ?_
  rw [counts g there]
  exact Nat.mod_eq_iff_lt (by decide)

theorem empty_messages_iff (contentSize : Nat) (calls : List (Call Bytes)) :
    (∀ p ∈ Message.builds (Message.empty contentSize) [] calls, MessageEncoded p.1 p.2) ↔
      buildCount calls ≤ 1 ∧
        (∀ g ∈ messageBuilder.built (Message.empty contentSize) calls,
          g.messageContent.length < 2 ^ 32) ∧
        (calls.head? = some .build → contentSize % 2 ^ 32 = 0) := by
  cases calls with
  | nil => simp [Message.builds, buildCount, Builder.built]
  | cons call rest =>
    cases call with
    | change content =>
      have text : (Message.empty contentSize).messageType ≠ messageTypeRequestSymKey := by
        show messageTypeSendTxt ≠ messageTypeRequestSymKey
        decide
      have counted := counted_messages_iff (content_counted content (Or.inl text)) rest
      simp only [List.head?_cons, Option.some.injEq, reduceCtorEq, false_implies, and_true]
      exact counted
    | build =>
      rw [message_right_iff]
      refine and_congr_right fun once => ?_
      have no_more : messageBuilder.built (Message.empty contentSize) rest = [] := by
        have count := built_length messageBuilder (Message.empty contentSize) rest
        simp only [buildCount] at once
        exact List.length_eq_zero_iff.mp (by omega)
      rw [Builder.built, no_more, List.forall_mem_singleton, List.forall_mem_singleton]
      constructor
      · intro same
        exact ⟨Nat.two_pow_pos 32, fun _ => same⟩
      · rintro ⟨-, zero⟩
        exact zero rfl

def MessageMade (unset : Nat) (m : Message) : Prop :=
  m = Message.empty unset ∨ ∃ id type, Constructed id type m

/-- No builder builds twice; before that a size is right that fits in its field, unless
    no content was given to a message made without arguments. -/
theorem builders_reused_iff {r : ClientRequest} (request : RequestMade r)
    (requestCalls : List (Call Bytes)) {unset : Nat} {m : Message} (message : MessageMade unset m)
    (messageCalls : List (Call Bytes)) :
    ((∀ p ∈ ClientRequest.builds r requestCalls, RequestEncoded p.1 p.2) ↔
      buildCount requestCalls ≤ 1 ∧
        ∀ g ∈ requestBuilder.built r requestCalls, g.payload.length < 2 ^ 32) ∧
    ((∀ p ∈ Message.builds m [] messageCalls, MessageEncoded p.1 p.2) ↔
      buildCount messageCalls ≤ 1 ∧
        (∀ g ∈ messageBuilder.built m messageCalls, g.messageContent.length < 2 ^ 32) ∧
        (m = Message.empty unset → messageCalls.head? = some .build → unset % 2 ^ 32 = 0)) := by
  refine ⟨requests_reused_iff request requestCalls, ?_⟩
  rcases message with rfl | ⟨id, type, made⟩
  · rw [empty_messages_iff]
    simp only [true_implies]
  · obtain ⟨-, fields⟩ := constructed_fields made
    have counted : m.contentSize = m.messageContent.length := congrArg Message.contentSize fields
    rw [counted_messages_iff counted]
    have zero : m = Message.empty unset → messageCalls.head? = some .build →
        unset % 2 ^ 32 = 0 := by
      intro same _
      rw [same] at counted
      exact congrArg (· % 2 ^ 32) counted
    exact and_congr_right fun _ => (and_iff_left zero).symm

theorem single_builds_right :
    let r : ClientRequest := ⟨List.replicate 16 1, codeSendMsg, supportedVersion, 1, [7], []⟩
    let m : Message := ⟨List.replicate 16 2, messageTypeSendTxt, 1, [8]⟩
    (∀ p ∈ ClientRequest.builds r [.change [9], .build, .change [7]], RequestEncoded p.1 p.2) ∧
      ∀ p ∈ Message.builds m [] [.change [1, 2], .change [3], .build], MessageEncoded p.1 p.2 := by
  intro r m
  have made : ClientRequest.ofPayload (List.replicate 16 1) codeSendMsg [7] = .ok r := by decide
  have constructed : Message.ofContent (List.replicate 16 2) messageTypeSendTxt [8] = .ok m := by
    decide
  obtain ⟨requests, messages⟩ := builders_reused_iff (.ofPayload made)
    [.change [9], .build, .change [7]]
    (show MessageMade 0 m from Or.inr ⟨_, _, Or.inr ⟨_, constructed⟩⟩)
    [.change [1, 2], .change [3], .build]
  exact ⟨requests.mpr (by decide), messages.mpr (by decide)⟩

/-- The second build returns everything twice, in a request and in a message. -/
theorem second_builds_doubled :
    let r : ClientRequest := ⟨List.replicate 16 1, codeListClients, supportedVersion, 0, [], []⟩
    let m : Message := ⟨List.replicate 16 2, messageTypeSendTxt, 1, [8]⟩
    RequestMade r ∧ MessageMade 0 m ∧
      (ClientRequest.builds r [.build, .build]).map Prod.snd =
        [requestBuilder.encode r, requestBuilder.encode r ++ requestBuilder.encode r] ∧
      (¬ ∀ p ∈ ClientRequest.builds r [.build, .build], RequestEncoded p.1 p.2) ∧
      (Message.builds m [] [.build, .build]).map Prod.snd =
        [messageBuilder.encode m, messageBuilder.encode m ++ messageBuilder.encode m] ∧
      ¬ ∀ p ∈ Message.builds m [] [.build, .build], MessageEncoded p.1 p.2 := by
  intro r m
  have made : RequestMade r := .ofCode
    (show ClientRequest.ofCode (List.replicate 16 1) codeListClients = .ok r by decide)
  have constructed : Constructed (List.replicate 16 2) messageTypeSendTxt m :=
    Or.inr ⟨[8], by decide⟩
  refine ⟨made, Or.inr ⟨_, _, constructed⟩, by decide, ?_, by decide, ?_⟩
  · rw [requests_reused_iff made]
    decide
  · rw [counted_messages_iff (show m.contentSize = m.messageContent.length from rfl)]
    decide

end BuilderReuse
