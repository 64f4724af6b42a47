import MessageU.RequestFormat
import MessageU.ServerTables

/- The response on the wire: packed by the Python server, taken apart by the
   C++ client. A field of the client's object that its constructor left unset is
   `none`; reading it is indeterminate. The client's search for a response code
   also compares with what follows the table in memory, which is a parameter. -/
namespace ResponseFormat
open ByteFields RequestFormat ServerTables

def codeSuccessfulRegistration : Nat := 2000
def codeClientsList : Nat := 2001
def codePublicKey : Nat := 2002
def codeMsgSent : Nat := 2003
def codeMsgFetch : Nat := 2004
def codeError : Nat := 9000

structure ServerResponse where
  version : Nat
  code : Nat
  payload : Bytes
  rawData : Bytes
  deriving DecidableEq, Repr

def ServerResponse.ofCode (code : Nat) : ServerResponse := ⟨supportedVersion, code, [], []⟩

def responseHeader (version code size : Nat) : Bytes :=
  bigEndian 1 version ++ (bigEndian 2 code ++ bigEndian 4 size)

/-- An empty argument keeps the payload; struct.pack refuses a size of 2^32 or more. -/
def ServerResponse.build (r : ServerResponse) (payload : Bytes) :
    Except PyError ServerResponse :=
  let r := if payload ≠ [] then { r with payload } else r
  if r.payload.length < 2 ^ 32 then
    .ok { r with rawData := responseHeader r.version r.code r.payload.length ++ r.payload }
  else .error .structError

theorem build_ok {code : Nat} {payload : Bytes} (small : payload.length < 2 ^ 32) :
    (ServerResponse.ofCode code).build payload =
      .ok ⟨supportedVersion, code, payload,
        responseHeader supportedVersion code payload.length ++ payload⟩ := by
  by_cases nothing : payload = []
  · subst payload
    rfl
  · simp only [ServerResponse.build, ServerResponse.ofCode, nothing, ne_eq, not_false_eq_true,
      ↓reduceIte]
    rw [if_pos small]

theorem build_too_long {code : Nat} {payload : Bytes} (long : 2 ^ 32 ≤ payload.length) :
    (ServerResponse.ofCode code).build payload = .error .structError := by
  have something : payload ≠ [] := List.ne_nil_of_length_pos (by omega)
  simp only [ServerResponse.build, something, ne_eq, not_false_eq_true, ↓reduceIte]
  rw [if_neg (Nat.not_lt.mpr long)]

theorem build_ok_iff {code : Nat} (payload : Bytes) :
    (∃ resp, (ServerResponse.ofCode code).build payload = .ok resp) ↔ payload.length < 2 ^ 32 := by
  constructor
  · rintro ⟨resp, done⟩
    by_contra long
    rw [build_too_long (Nat.not_lt.mp long)] at done
    cases done
  · intro small
    exact ⟨_, build_ok small⟩

theorem build_code {r built : ServerResponse} {payload : Bytes}
    (done : r.build payload = .ok built) : built.code = r.code := by
  simp only [ServerResponse.build] at done
  split at done
  all_goals
    split at done
    · cases done
      rfl
    · cases done

theorem response_header_length (version code size : Nat) :
    (responseHeader version code size).length = 7 := by
  simp [responseHeader]

/-! The client's side. -/

def minResponseSize : Nat := 7

def supportedResponses : List Nat :=
  [codeSuccessfulRegistration, codeClientsList, codePublicKey, codeMsgSent, codeMsgFetch,
    codeError]

structure ClientResponse where
  payload : Bytes
  payloadSize : Option Nat
  version : Option Nat
  responseCode : Option Nat
  isValid : Bool
  deriving DecidableEq, Repr

/-- The loop runs over one index more than the table has. -/
def isResponseCodeValid (beyond : Nat) (code : Nat) : Bool :=
  (List.range (supportedResponses.length + 1)).any fun i =>
    supportedResponses.getD i beyond == code

/-- The constructor; each refusal leaves the later fields as they happen to be. -/
def ClientResponse.ofData (beyond : Nat) (data : Bytes) : ClientResponse :=
  let byte (i : Nat) : Nat := (data.getD i 0).toNat
  if data.length < minResponseSize then ⟨[], none, none, none, false⟩
  else if byte 0 ≠ supportedVersion then ⟨[], none, some (byte 0), none, false⟩
  else
    let code := (byte 1 <<< 8) ||| byte 2
    if !isResponseCodeValid beyond code then ⟨[], none, some (byte 0), some code, false⟩
    else
      let size := (byte 3 <<< 24) ||| (byte 4 <<< 16) ||| (byte 5 <<< 8) ||| byte 6
      if size ≠ data.length - minResponseSize then
        ⟨[], some size, some (byte 0), some code, false⟩
      else ⟨data.drop minResponseSize, some size, some (byte 0), some code, true⟩

theorem table_codes_valid (beyond : Nat) {code : Nat} (supported : code ∈ supportedResponses) :
    isResponseCodeValid beyond code = true := by
  obtain ⟨i, inside, here⟩ := List.mem_iff_getElem.mp supported
  refine List.any_eq_true.mpr ⟨i, List.mem_range.mpr (by omega), ?_⟩
  simp [List.getD, List.getElem?_eq_getElem inside, here]

theorem assembled_half (a b : Byte) : (a.toNat <<< 8) ||| b.toNat = fromBigEndian [a, b] := by
  rw [← Nat.shiftLeft_add_eq_or_of_lt b.toNat_lt]
  simp [fromBigEndian, Nat.shiftLeft_eq]

theorem assembled_word (a b c d : Byte) :
    (a.toNat <<< 24) ||| (b.toNat <<< 16) ||| (c.toNat <<< 8) ||| d.toNat =
      fromBigEndian [a, b, c, d] := by
  have hb := b.toNat_lt
  have hc := c.toNat_lt
  have hd := d.toNat_lt
  have low : c.toNat <<< 8 ||| d.toNat = c.toNat * 256 + d.toNat := by
    rw [← Nat.shiftLeft_add_eq_or_of_lt hd, Nat.shiftLeft_eq]
  have mid : b.toNat <<< 16 ||| (c.toNat * 256 + d.toNat) =
      b.toNat * 65536 + (c.toNat * 256 + d.toNat) := by
    rw [← Nat.shiftLeft_add_eq_or_of_lt (by omega), Nat.shiftLeft_eq]
  rw [Nat.or_assoc, Nat.or_assoc, low, mid, ← Nat.shiftLeft_add_eq_or_of_lt (by omega),
    Nat.shiftLeft_eq]
  simp [fromBigEndian]

theorem response_read (beyond : Nat) {code size : Nat} (supported : code ∈ supportedResponses)
    (fits : size < 2 ^ 32) (rest : Bytes) :
    ClientResponse.ofData beyond (responseHeader supportedVersion code size ++ rest) =
      if size ≠ rest.length then
        ⟨[], some size, some supportedVersion, some code, false⟩
      else ⟨rest, some size, some supportedVersion, some code, true⟩ := by
  have code_fits : ∀ c ∈ supportedResponses, c < 256 ^ 2 := by decide
  have code_read : fromBigEndian (bigEndian 2 code) = code :=
    from_big_endian_of_lt (code_fits code supported)
  have size_read : fromBigEndian (bigEndian 4 size) = size := from_big_endian_of_lt fits
  have version_read : (UInt8.ofNat (supportedVersion / 256 ^ 0)).toNat = supportedVersion := rfl
  have known := table_codes_valid beyond supported
  simp only [bigEndian, ← assembled_half, ← assembled_word] at code_read size_read
  simp only [ClientResponse.ofData, responseHeader, bigEndian, List.cons_append, List.nil_append,
    List.length_cons, List.getD_cons_zero, List.getD_cons_succ, code_read,
    size_read, version_read, known, minResponseSize, List.drop_succ_cons, List.drop_zero]
  simp

structure Parsed (beyond : Nat) (data : Bytes) (code : Nat) (payload : Bytes) : Prop where
  bytes : data = responseHeader supportedVersion code payload.length ++ payload
  known : isResponseCodeValid beyond code = true
  object : ClientResponse.ofData beyond data =
    ⟨payload, some payload.length, some supportedVersion, some code, true⟩

theorem version_byte_read {a : Byte} (version : a.toNat = supportedVersion) :
    bigEndian 1 supportedVersion = [a] := by
  rw [← version]
  simp [bigEndian]

theorem valid_parsed (beyond : Nat) {data : Bytes}
    (valid : (ClientResponse.ofData beyond data).isValid = true) :
    ∃ code payload, Parsed beyond data code payload := by
  match data, valid with
  | a :: b :: c :: d :: e :: f :: g :: payload, valid =>
    have code_bytes : bigEndian 2 (fromBigEndian [b, c]) = [b, c] := big_endian_of_bytes [b, c]
    have size_bytes : bigEndian 4 (fromBigEndian [d, e, f, g]) = [d, e, f, g] :=
      big_endian_of_bytes [d, e, f, g]
    simp only [ClientResponse.ofData, List.getD_cons_zero, List.getD_cons_succ, assembled_half,
      assembled_word, minResponseSize, List.length_cons] at valid
    split at valid
    · cases valid
    · split at valid
      · cases valid
      · split at valid
        · cases valid
        · split at valid
          · cases valid
          · rename_i version known size
            have version_is : a.toNat = supportedVersion := not_not.mp version
            have size_is : fromBigEndian [d, e, f, g] = payload.length := by
              simpa using size
            have known_code : isResponseCodeValid beyond (fromBigEndian [b, c]) = true := by
              simpa using known
            refine ⟨fromBigEndian [b, c], payload, ?_, known_code, ?_⟩
            · rw [responseHeader, code_bytes, ← size_is, size_bytes, version_byte_read version_is]
              rfl
            · simp [ClientResponse.ofData, assembled_half, assembled_word, version_is, size_is,
                known_code, minResponseSize]

theorem valid_code_set {beyond : Nat} {data : Bytes}
    (valid : (ClientResponse.ofData beyond data).isValid = true) :
    (ClientResponse.ofData beyond data).responseCode ≠ none := by
  obtain ⟨code, payload, parsed⟩ := valid_parsed beyond valid
  rw [parsed.object]
  simp

end ResponseFormat
