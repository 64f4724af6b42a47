import MessageU.ByteFields

/- The request on the wire: the C++ client writes it by shifting bytes, the
   Python server reads it with a struct format. The bytes a client builds are
   exactly the ones the server accepts, with the fields it was built from.
   size_t is a Nat here: only the low 32 bits of a size are ever written. -/
namespace RequestFormat
open ByteFields

def supportedVersion : Nat := 2
def fieldClientIdSize : Nat := 16

def codeRegister : Nat := 1000
def codeListClients : Nat := 1001
def codeFetchPublicKey : Nat := 1002
def codeSendMsg : Nat := 1003
def codeFetchMessages : Nat := 1004

def supportedCodes : List Nat :=
  [codeRegister, codeListClients, codeSendMsg, codeFetchMessages, codeFetchPublicKey]

theorem supported_code_bound {code : Nat} (supported : code ∈ supportedCodes) :
    code < 256 ^ 2 := by
  have bounded : ∀ c ∈ supportedCodes, c < 256 ^ 2 := by decide
  exact bounded code supported

inductive Thrown where
  | invalidArgument (what : String)
  | logicError (what : String)
  | runtimeError (what : String)
  deriving DecidableEq, Repr

structure ClientRequest where
  clientId : Bytes
  requestCode : Nat
  version : Nat
  payloadSize : Nat
  payload : Bytes
  rawRequest : Bytes
  deriving DecidableEq, Repr

def ClientRequest.validateCode (code : Nat) : Bool := decide (code ∈ supportedCodes)

/-- Request(client_id, code): an unsupported code is reported but let through. -/
def ClientRequest.ofCode (clientId : Bytes) (code : Nat) : Except Thrown ClientRequest :=
  if clientId.isEmpty then .error (.invalidArgument "Request: Bad arguments")
  else .ok ⟨clientId, code, supportedVersion, 0, [], []⟩

def ClientRequest.ofPayload (clientId : Bytes) (code : Nat) (payload : Bytes) :
    Except Thrown ClientRequest :=
  if !validateCode code || (clientId.isEmpty && code != codeRegister) then
    .error (.invalidArgument "Request: Bad arguments")
  else .ok ⟨clientId, code, supportedVersion, payload.length, payload, []⟩

def ClientRequest.buildRequest (r : ClientRequest) : ClientRequest × Bytes :=
  let raw := r.rawRequest ++ (r.clientId ++ ([UInt8.ofNat r.version] ++
    ([UInt8.ofNat (r.requestCode >>> 8), UInt8.ofNat (r.requestCode &&& 0xff)] ++
      ([UInt8.ofNat (r.payloadSize >>> 24), UInt8.ofNat (r.payloadSize >>> 16),
        UInt8.ofNat (r.payloadSize >>> 8), UInt8.ofNat r.payloadSize] ++ r.payload))))
  ({ r with rawRequest := raw }, raw)

/-- What the server unpacks from '16s' is always sixteen bytes. -/
structure ClientId where
  bytes : Bytes
  size : bytes.length = fieldClientIdSize
  deriving DecidableEq, Repr

theorem ClientId.some_bytes (id : ClientId) : id.bytes ≠ [] :=
  List.ne_nil_of_length_pos (by rw [id.size]; decide)

@[ext] theorem ClientId.ext {a b : ClientId} (same : a.bytes = b.bytes) : a = b := by
  cases a; cases b
  simp_all

structure Header where
  clientId : ClientId
  version : Nat
  code : Nat
  payloadSize : Nat
  deriving DecidableEq, Repr

structure ServerRequest where
  header : Header
  rawData : Bytes
  deriving DecidableEq, Repr

def headerSize : Nat := 23
def maxPayloadSize : Nat := 0x7fffffff

def ServerRequest.fresh : ServerRequest :=
  ⟨⟨⟨List.replicate fieldClientIdSize 0, List.length_replicate⟩, 0, 0, 0⟩, []⟩

/-- struct.unpack(">16s1B1H1I", header). -/
def parseHeader (raw : Bytes) (enough : 23 ≤ raw.length) : Header where
  clientId := ⟨slice raw 0 16, slice_length raw (by omega)⟩
  version := fromBigEndian (slice raw 16 17)
  code := fromBigEndian (slice raw 17 19)
  payloadSize := fromBigEndian (slice raw 19 23)

/-- The header is kept even when it is then refused. -/
def ServerRequest.decodeHeader (r : ServerRequest) (raw : Bytes) : ServerRequest × Bool :=
  if short : raw.length < headerSize then (r, false)
  else
    let header := parseHeader raw (Nat.le_of_not_lt short)
    ({ r with header },
      if header.version ≠ supportedVersion then false
      else if header.payloadSize > maxPayloadSize then false
      else if header.code ∉ supportedCodes then false
      else true)

/-- Compares with the size in the header decoded before. -/
def ServerRequest.decodePayload (r : ServerRequest) (raw : Bytes) : ServerRequest × Bool :=
  if raw.length < headerSize then (r, false)
  else if raw.length > maxPayloadSize then (r, false)
  else if (raw.drop headerSize).length ≠ r.header.payloadSize then (r, false)
  else ({ r with rawData := raw }, true)

def ServerRequest.clientId (r : ServerRequest) : ClientId := r.header.clientId
def ServerRequest.clientVersion (r : ServerRequest) : Nat := r.header.version
def ServerRequest.requestCode (r : ServerRequest) : Nat := r.header.code
def ServerRequest.payloadSize (r : ServerRequest) : Nat := r.header.payloadSize
def ServerRequest.payload (r : ServerRequest) : Bytes := r.rawData.drop headerSize

/-- Both decoders on the same bytes; a request only if both accept. -/
def accept (raw : Bytes) : Option ServerRequest :=
  let (r, headerOk) := ServerRequest.fresh.decodeHeader raw
  if headerOk then
    let (r, payloadOk) := r.decodePayload raw
    if payloadOk then some r else none
  else none

def freshBuild (clientId : Bytes) (code : Nat) (payload : Bytes) : Except Thrown Bytes := do
  let r ← ClientRequest.ofPayload clientId code payload
  pure r.buildRequest.2

def layout (clientId : Bytes) (version code size : Nat) (payload : Bytes) : Bytes :=
  clientId ++ (bigEndian 1 version ++ (bigEndian 2 code ++ (bigEndian 4 size ++ payload)))

theorem build_appends (r : ClientRequest) :
    r.buildRequest.2 = r.rawRequest ++
      layout r.clientId r.version r.requestCode r.payloadSize r.payload := by
  have version_byte : [UInt8.ofNat r.version] = bigEndian 1 r.version := by simp [bigEndian]
  simp only [ClientRequest.buildRequest, layout, shifted_word, shifted_half, version_byte]

theorem payload_request {clientId : Bytes} {code : Nat} (supported : code ∈ supportedCodes)
    (named : clientId = [] → code = codeRegister) (payload : Bytes) :
    ClientRequest.ofPayload clientId code payload =
      .ok ⟨clientId, code, supportedVersion, payload.length, payload, []⟩ := by
  have sound : ¬ (!ClientRequest.validateCode code ||
      (clientId.isEmpty && code != codeRegister)) = true := by
    simpa [ClientRequest.validateCode, supported] using named
  rw [ClientRequest.ofPayload, if_neg sound]

theorem fresh_build_layout {clientId : Bytes} {code : Nat} (payload : Bytes)
    (id_size : clientId.length = 16) (supported : code ∈ supportedCodes) :
    freshBuild clientId code payload =
      .ok (layout clientId supportedVersion code payload.length payload) := by
  have some_id : clientId ≠ [] := List.ne_nil_of_length_pos (by omega)
  rw [freshBuild, payload_request supported (fun no_id => absurd no_id some_id)]
  simp only [build_appends, List.nil_append, pure, Except.pure, bind, Except.bind]

section Layout
variable (clientId : Bytes) (version code size : Nat) (payload : Bytes)
  (id_size : clientId.length = 16)
include id_size

theorem layout_length :
    (layout clientId version code size payload).length = 23 + payload.length := by
  simp only [layout, List.length_append, big_endian_length, id_size]
  omega

theorem layout_payload : (layout clientId version code size payload).drop 23 = payload := by
  rw [layout, ← List.append_assoc, ← List.append_assoc, ← List.append_assoc]
  apply List.drop_left'
  simp [id_size]

theorem layout_id : slice (layout clientId version code size payload) 0 16 = clientId :=
  slice_middle [] clientId _ rfl (by simpa using id_size)

theorem layout_version :
    slice (layout clientId version code size payload) 16 17 = bigEndian 1 version :=
  slice_middle clientId _ _ id_size (by simp [id_size])

theorem layout_code :
    slice (layout clientId version code size payload) 17 19 = bigEndian 2 code := by
  rw [layout, ← List.append_assoc]
  exact slice_middle _ _ _ (by simp [id_size]) (by simp [id_size])

theorem layout_size :
    slice (layout clientId version code size payload) 19 23 = bigEndian 4 size := by
  rw [layout, ← List.append_assoc, ← List.append_assoc]
  exact slice_middle _ _ _ (by simp [id_size]) (by simp [id_size])

end Layout

theorem slice_join (raw : Bytes) {start stop : Nat} (ordered : start ≤ stop) :
    slice raw start stop ++ raw.drop stop = raw.drop start := by
  have whole := List.take_append_drop (stop - start) (raw.drop start)
  rwa [List.drop_drop, Nat.add_sub_cancel' ordered, ← List.drop_take] at whole

theorem field_of_slice (raw : Bytes) {start stop w : Nat} (inside : stop ≤ raw.length)
    (width : stop - start = w) :
    bigEndian w (fromBigEndian (slice raw start stop)) = slice raw start stop := by
  have length : (slice raw start stop).length = w := (slice_length raw inside).trans width
  exact length ▸ big_endian_of_bytes _

/-- Every string long enough for a header is laid out by its own fields. -/
theorem layout_of_bytes {raw : Bytes} (enough : 23 ≤ raw.length) :
    layout (slice raw 0 16) (fromBigEndian (slice raw 16 17))
      (fromBigEndian (slice raw 17 19)) (fromBigEndian (slice raw 19 23)) (raw.drop 23) = raw := by
  have version : bigEndian 1 (fromBigEndian (slice raw 16 17)) = slice raw 16 17 :=
    field_of_slice raw (by omega) rfl
  have code : bigEndian 2 (fromBigEndian (slice raw 17 19)) = slice raw 17 19 :=
    field_of_slice raw (by omega) rfl
  have size : bigEndian 4 (fromBigEndian (slice raw 19 23)) = slice raw 19 23 :=
    field_of_slice raw (by omega) rfl
  rw [layout, version, code, size, slice_join raw (by decide), slice_join raw (by decide),
    slice_join raw (by decide), slice_join raw (by decide), List.drop_zero]

theorem parse_layout (id : ClientId) {version code size : Nat} (payload : Bytes)
    (hv : version < 256) (hc : code < 256 ^ 2) (hs : size < 256 ^ 4)
    (enough : 23 ≤ (layout id.bytes version code size payload).length) :
    parseHeader (layout id.bytes version code size payload) enough = ⟨id, version, code, size⟩ := by
  simp only [parseHeader, Header.mk.injEq]
  refine ⟨ClientId.ext (layout_id _ _ _ _ _ id.size), ?_, ?_, ?_⟩
  · rw [layout_version _ _ _ _ _ id.size, from_big_endian_of_lt (by simpa using hv)]
  · rw [layout_code _ _ _ _ _ id.size, from_big_endian_of_lt hc]
  · rw [layout_size _ _ _ _ _ id.size, from_big_endian_of_lt hs]

def SupportedHeader (raw : Bytes) : Prop :=
  23 ≤ raw.length ∧ fromBigEndian (slice raw 16 17) = 2 ∧
    fromBigEndian (slice raw 17 19) ∈ supportedCodes ∧
    fromBigEndian (slice raw 19 23) ≤ 0x7fffffff

theorem header_verdict (h : Header) :
    (if h.version ≠ supportedVersion then false
      else if h.payloadSize > maxPayloadSize then false
      else if h.code ∉ supportedCodes then false
      else true) = true ↔
    h.version = 2 ∧ h.code ∈ supportedCodes ∧ h.payloadSize ≤ 0x7fffffff := by
  split_ifs <;> simp_all [supportedVersion, maxPayloadSize]

theorem decode_header_accepts (r : ServerRequest) (raw : Bytes) :
    (r.decodeHeader raw).2 = true ↔ SupportedHeader raw := by
  by_cases short : raw.length < 23
  · simp [ServerRequest.decodeHeader, headerSize, SupportedHeader, short]
  · have enough : 23 ≤ raw.length := Nat.le_of_not_lt short
    have verdict := header_verdict (parseHeader raw enough)
    simp only [ServerRequest.decodeHeader, headerSize, short, ↓reduceDIte, SupportedHeader,
      enough, true_and]
    exact verdict

theorem decode_header_parses (r : ServerRequest) {raw : Bytes} (enough : 23 ≤ raw.length) :
    (r.decodeHeader raw).1 = { r with header := parseHeader raw enough } := by
  simp [ServerRequest.decodeHeader, headerSize, Nat.not_lt.mpr enough]

theorem decode_payload_accepts (r : ServerRequest) (raw : Bytes) :
    (r.decodePayload raw).2 = true ↔
      23 ≤ raw.length ∧ raw.length ≤ 0x7fffffff ∧ raw.length - 23 = r.header.payloadSize := by
  unfold ServerRequest.decodePayload
  simp only [headerSize, maxPayloadSize, List.length_drop]
  split
  · simp_all
  · split
    · simp_all
    · split <;> simp_all

theorem decode_payload_keeps {r : ServerRequest} {raw : Bytes}
    (accepted : (r.decodePayload raw).2 = true) :
    (r.decodePayload raw).1 = { r with rawData := raw } := by
  obtain ⟨enough, small, exact_size⟩ := (decode_payload_accepts r raw).mp accepted
  simp [ServerRequest.decodePayload, headerSize, maxPayloadSize, exact_size,
    Nat.not_lt.mpr enough, Nat.not_lt.mpr small]

theorem accept_some_iff (raw : Bytes) (r : ServerRequest) :
    accept raw = some r ↔
      ∃ enough : 23 ≤ raw.length, SupportedHeader raw ∧ raw.length ≤ 0x7fffffff ∧
        fromBigEndian (slice raw 19 23) = raw.length - 23 ∧
        r = ⟨parseHeader raw enough, raw⟩ := by
  have parsed := @decode_header_parses ServerRequest.fresh raw
  have header_iff := decode_header_accepts ServerRequest.fresh raw
  have payload_iff := decode_payload_accepts (ServerRequest.fresh.decodeHeader raw).1 raw
  have kept := @decode_payload_keeps (ServerRequest.fresh.decodeHeader raw).1 raw
  simp only [accept]
  constructor
  · intro accepted
    split at accepted
    · rename_i headerOk
      split at accepted
      · rename_i payloadOk
        obtain ⟨enough, small, exact_size⟩ := payload_iff.mp payloadOk
        rw [kept payloadOk, parsed enough] at accepted
        rw [parsed enough] at exact_size
        exact ⟨enough, header_iff.mp headerOk, small, exact_size.symm,
          (Option.some.inj accepted).symm⟩
      · cases accepted
    · cases accepted
  · rintro ⟨enough, supported, small, exact_size, rfl⟩
    have headerOk := header_iff.mpr supported
    have payloadOk := payload_iff.mpr ⟨enough, small, by rw [parsed enough]; exact exact_size.symm⟩
    rw [if_pos headerOk, if_pos payloadOk, kept payloadOk, parsed enough]

theorem layout_supported (id : ClientId) {code size : Nat} (payload : Bytes)
    (supported : code ∈ supportedCodes) (small : size ≤ 0x7fffffff) :
    SupportedHeader (layout id.bytes supportedVersion code size payload) := by
  have long := layout_length id.bytes supportedVersion code size payload id.size
  refine ⟨by omega, ?_, ?_, ?_⟩
  · rw [layout_version _ _ _ _ _ id.size, from_big_endian_of_lt (by decide)]
    rfl
  · rwa [layout_code _ _ _ _ _ id.size, from_big_endian_of_lt (supported_code_bound supported)]
  · rwa [layout_size _ _ _ _ _ id.size, from_big_endian_of_lt (by omega)]

theorem accept_layout (id : ClientId) {code : Nat} (payload : Bytes)
    (supported : code ∈ supportedCodes) (small : 23 + payload.length ≤ 0x7fffffff) :
    accept (layout id.bytes supportedVersion code payload.length payload) =
      some ⟨⟨id, supportedVersion, code, payload.length⟩,
        layout id.bytes supportedVersion code payload.length payload⟩ := by
  have long := layout_length id.bytes supportedVersion code payload.length payload id.size
  have size : fromBigEndian (bigEndian 4 payload.length) = payload.length :=
    from_big_endian_of_lt (by omega)
  rw [accept_some_iff]
  refine ⟨by omega, layout_supported id payload supported (by omega), by omega, ?_, ?_⟩
  · rw [layout_size _ _ _ _ _ id.size, size, long, Nat.add_sub_cancel_left]
  · have parsed := parse_layout id payload (show supportedVersion < 256 by decide)
      (supported_code_bound supported) (show payload.length < 256 ^ 4 by omega) (by omega)
    rw [parsed]

theorem code_only_request {clientId : Bytes} {code : Nat} (some_id : clientId ≠ [])
    (supported : code ∈ supportedCodes) :
    ClientRequest.ofCode clientId code = ClientRequest.ofPayload clientId code [] := by
  simp [ClientRequest.ofCode, ClientRequest.ofPayload, ClientRequest.validateCode, some_id,
    supported]

theorem of_payload_made {clientId payload : Bytes} {code : Nat} {r : ClientRequest}
    (made : ClientRequest.ofPayload clientId code payload = .ok r) :
    r = ⟨clientId, code, supportedVersion, payload.length, payload, []⟩ ∧
      (clientId = [] → code = codeRegister) := by
  simp only [ClientRequest.ofPayload] at made
  split at made
  · cases made
  · rename_i sound
    cases made
    constructor
    · rfl
    · intro nothing
      by_contra other
      simp [nothing, other] at sound

theorem of_code_made {clientId : Bytes} {code : Nat} {r : ClientRequest}
    (made : ClientRequest.ofCode clientId code = .ok r) :
    r = ⟨clientId, code, supportedVersion, 0, [], []⟩ ∧ clientId ≠ [] := by
  simp only [ClientRequest.ofCode] at made
  split at made
  · cases made
  · rename_i some_id
    cases made
    exact ⟨rfl, by simpa using some_id⟩

theorem version_byte {raw : Bytes} (enough : 23 ≤ raw.length) :
    fromBigEndian (slice raw 16 17) = 2 ↔ raw[16]? = some 2 := by
  have inside : 16 < raw.length := by omega
  have single : slice raw 16 17 = [raw[16]] := by
    rw [slice, List.drop_take, List.drop_eq_getElem_cons inside]
    rfl
  rw [single, List.getElem?_eq_getElem inside]
  simp only [fromBigEndian, List.length_nil, Option.some.injEq]
  constructor
  · intro value
    exact UInt8.toNat_inj.mp (by simpa using value)
  · intro value
    rw [value]
    rfl

/-- Encoder and decoder are inverse to each other, and the accepted strings are
    exactly those with a sound header and the declared number of bytes after it. -/
theorem request_format_bijection :
    (∀ (id : ClientId) (code : Nat) (payload : Bytes), code ∈ supportedCodes →
      23 + payload.length ≤ 0x7fffffff →
      ∃ request decoded, ClientRequest.ofPayload id.bytes code payload = .ok request ∧
        accept request.buildRequest.2 = some decoded ∧
        decoded.clientId.bytes = request.clientId ∧ decoded.clientId = id ∧
        decoded.clientVersion = request.version ∧ decoded.requestCode = code ∧
        decoded.payloadSize = request.payloadSize ∧ decoded.payload = payload) ∧
    (∀ (raw : Bytes) (decoded : ServerRequest), accept raw = some decoded →
      freshBuild decoded.clientId.bytes decoded.requestCode decoded.payload = .ok raw) ∧
    (∀ raw : Bytes, (accept raw).isSome = true ↔
      23 ≤ raw.length ∧ raw.length ≤ 0x7fffffff ∧ raw[16]? = some 2 ∧
        fromBigEndian (slice raw 17 19) ∈ supportedCodes ∧
        fromBigEndian (slice raw 19 23) = raw.length - 23) := by
  refine ⟨?_, ?_, ?_⟩
  · intro id code payload supported small
    have built := payload_request supported (fun no_id => absurd no_id id.some_bytes) payload
    refine ⟨_, ⟨⟨id, supportedVersion, code, payload.length⟩,
      layout id.bytes supportedVersion code payload.length payload⟩,
      built, ?_, rfl, rfl, rfl, rfl, rfl, ?_⟩
    · rw [build_appends, List.nil_append]
      exact accept_layout id payload supported small
    · exact layout_payload _ _ _ _ _ id.size
  · intro raw decoded accepted
    obtain ⟨enough, supported, small, exact_size, rfl⟩ := (accept_some_iff raw decoded).mp accepted
    have again := layout_of_bytes enough
    rw [supported.2.1, exact_size, ← List.length_drop] at again
    exact (fresh_build_layout _ (slice_length raw (by omega)) supported.2.2.1).trans
      (congrArg _ again)
  · intro raw
    rw [Option.isSome_iff_exists]
    constructor
    · rintro ⟨decoded, accepted⟩
      obtain ⟨enough, supported, small, exact_size, -⟩ := (accept_some_iff raw decoded).mp accepted
      exact ⟨enough, small, (version_byte enough).mp supported.2.1, supported.2.2.1, exact_size⟩
    · rintro ⟨enough, small, version, code, exact_size⟩
      have header : SupportedHeader raw :=
        ⟨enough, (version_byte enough).mpr version, code, by omega⟩
      exact ⟨_, (accept_some_iff raw _).mpr ⟨enough, header, small, exact_size, rfl⟩⟩

theorem pubkey_request_decoded :
    let payload : Bytes := List.replicate 15 0 ++ [0xff]
    ∃ request decoded,
      ClientRequest.ofPayload (List.replicate 16 1) codeFetchPublicKey payload = .ok request ∧
      accept request.buildRequest.2 = some decoded ∧
      decoded.clientId.bytes = request.clientId ∧
      decoded.clientId = ⟨List.replicate 16 1, by decide⟩ ∧
      decoded.clientVersion = request.version ∧ decoded.requestCode = codeFetchPublicKey ∧
      decoded.payloadSize = request.payloadSize ∧ decoded.payload = payload :=
  request_format_bijection.1 ⟨List.replicate 16 1, by decide⟩ codeFetchPublicKey
    (List.replicate 15 0 ++ [0xff]) (by decide) (by decide)

end RequestFormat
