import MessageU.ClientReception

/- The client between two operations, and the file me.info its name, id and private
   key are kept in. The file is its bytes as a text stream gives them. The pub_key
   and symm_key fields of the source are left out: no operation reads them. -/
namespace ClientCredentials
open ByteFields RequestFormat ClientReception

structure Client where
  name : Bytes
  id : Bytes
  privateKey : Bytes
  contacts : List Contact
  meInfo : Option Bytes
  deriving DecidableEq, Repr

def newline : Byte := 0x0a

def getline (text : Bytes) : Bytes × Bytes :=
  (text.takeWhile (· != newline), (text.dropWhile (· != newline)).drop 1)

theorem line_taken {line : Bytes} (one_line : newline ∉ line) (rest : Bytes) :
    (line ++ newline :: rest).takeWhile (· != newline) = line ∧
      (line ++ newline :: rest).dropWhile (· != newline) = newline :: rest := by
  have free : ∀ b ∈ line, (b != newline) = true := by
    intro b there
    simpa using fun same : b = newline => one_line (same ▸ there)
  rw [List.takeWhile_append_of_pos free, List.dropWhile_append_of_pos free]
  simp

theorem getline_line {line : Bytes} (one_line : newline ∉ line) (rest : Bytes) :
    getline (line ++ newline :: rest) = (line, rest) := by
  obtain ⟨taken, dropped⟩ := line_taken one_line rest
  rw [getline, taken, dropped]
  rfl

def Client.isClientRegistered (meInfo : Option Bytes) : Bool :=
  match meInfo with
  | none => false
  | some text => if fieldClientIdSize ≥ text.length then false else true

/-! The id in the file: two characters for each byte. -/

def isSpace (c : Byte) : Bool := c == 0x20 || (0x09 ≤ c && c ≤ 0x0d)

def hexValue (c : Byte) : Option Nat :=
  if 0x30 ≤ c && c ≤ 0x39 then some (c.toNat - 0x30)
  else if 0x41 ≤ c && c ≤ 0x46 then some (c.toNat - 0x37)
  else if 0x61 ≤ c && c ≤ 0x66 then some (c.toNat - 0x57)
  else none

def digits (acc : Nat) : Bytes → Nat
  | [] => acc
  | c :: cs => match hexValue c with
    | some d => digits (16 * acc + d) cs
    | none => acc

/-- The byte strtoul(_, NULL, 16) gives for two characters: blanks and one sign are
    passed over, and reading stops at the first character that is no digit. A 0x
    with a digit behind it does not fit in two characters. -/
def strtoul (text : Bytes) : Byte :=
  match text.dropWhile isSpace with
  | 0x2d :: rest => -UInt8.ofNat (digits 0 rest)
  | 0x2b :: rest => UInt8.ofNat (digits 0 rest)
  | rest => UInt8.ofNat (digits 0 rest)

/-- The loop over the second line; at() refuses the position behind an odd end. -/
def readId : Bytes → Except Thrown Bytes
  | [] => .ok []
  | [_] => .error (.logicError "invalid string position")
  | a :: b :: rest => do
    let later ← readId rest
    pure (strtoul [a, b] :: later)

/-- _read_client_creds: the runtime_error for a wrong length is made but not thrown. -/
def Client.readClientCreds (c : Client) : Except Thrown Client :=
  if !isClientRegistered c.meInfo then .ok c
  else do
    let (name, rest) := getline (c.meInfo.getD [])
    let (tempClientId, rest) := getline rest
    let id ← readId tempClientId
    let (privateKey, _) := getline rest
    pure { c with name, id, privateKey }

def Client.init (meInfo : Option Bytes) : Except Thrown Client :=
  let c : Client := ⟨[], [], [], [], meInfo⟩
  if isClientRegistered meInfo then c.readClientCreds
  else .ok { c with
    id := List.replicate fieldClientIdSize 1
    privateKey := List.replicate 160 0x41 }

def hexDigit (d : Nat) : Byte := if d < 10 then UInt8.ofNat (0x30 + d) else UInt8.ofNat (0x57 + d)

def hexByte (b : Byte) : Bytes :=
  if b.toNat < 0x10 then [0x30, hexDigit b.toNat]
  else [hexDigit (b.toNat / 16), hexDigit (b.toNat % 16)]

def Client.credentials (c : Client) : Bytes :=
  c.name ++ (newline :: (c.id.flatMap hexByte ++ (newline :: (c.privateKey ++ [newline]))))

/-- save_client_creds where all that is written gets to the file. When the file cannot be
    opened nothing is written or thrown. -/
def Client.saveClientCreds (c : Client) (opens : Bool) : Client :=
  if opens then { c with meInfo := some c.credentials } else c

/-- Opening the file empties it, and writes that fail after that are not noticed: what is
    in it then is the first `count` bytes. -/
inductive Saving where
  | unopened
  | written (count : Nat)
  deriving DecidableEq, Repr

def Client.saveClientCredsUpTo (c : Client) : Saving → Client
  | .unopened => c
  | .written count => { c with meInfo := some (c.credentials.take count) }

theorem save_whole (c : Client) (opens : Bool) :
    c.saveClientCreds opens =
      c.saveClientCredsUpTo (if opens then .written c.credentials.length else .unopened) := by
  cases opens with
  | false => rfl
  | true =>
    rw [if_pos rfl, Client.saveClientCredsUpTo, List.take_length]
    rfl

def Client.getPubKey : Bytes := List.replicate Client.publicKeySize 0x39

def Client.getContactIdByName (contacts : List Contact) (name : Bytes) : Bytes :=
  match contacts.find? (·.name == name) with
  | some contact => contact.id
  | none => []

def Client.getContactFieldById (field : Contact → Bytes) (contacts : List Contact) (id : Bytes) :
    Bytes :=
  match contacts.find? (·.id == id) with
  | some contact => field contact
  | none => []

def Client.getContactNameById : List Contact → Bytes → Bytes := getContactFieldById Contact.name
def Client.getContactSymkeyById : List Contact → Bytes → Bytes :=
  getContactFieldById Contact.symmKey
def Client.getContactPubkeyById : List Contact → Bytes → Bytes :=
  getContactFieldById Contact.pubKey

section Loops
variable {α : Type}

/-- `for(auto x : xs)`: each turn assigns to a copy of the next element. -/
def forCopies (xs : List α) (assign : α → α) : List α :=
  (xs.foldl (fun (stored, _) x => (stored, some (assign x))) (xs, (none : Option α))).1

@[simp] theorem copies_dropped (xs : List α) (assign : α → α) : forCopies xs assign = xs := by
  have kept : ∀ (stored rest : List α) (copy : Option α),
      (rest.foldl (fun (stored, _) x => (stored, some (assign x))) (stored, copy)).1 = stored := by
    intro stored rest
    induction rest with
    | nil => exact fun _ => rfl
    | cons x rest ih => exact fun _ => ih (some (assign x))
  exact kept xs xs none

end Loops

def setSymmKey (id symmKey : Bytes) (contact : Contact) : Contact :=
  if contact.id = id then { contact with symmKey } else contact

def setPubKey (id pubKey : Bytes) (contact : Contact) : Contact :=
  if contact.id = id then { contact with pubKey } else contact

def Client.updateContactSymmKeyById (contacts : List Contact) (id symmKey : Bytes) :
    List Contact :=
  forCopies contacts (setSymmKey id symmKey)

theorem field_by_id (field : Contact → Bytes) {contacts : List Contact}
    (distinct : (contacts.map Contact.id).Nodup) {c : Contact} (listed : c ∈ contacts) :
    Client.getContactFieldById field contacts c.id = field c := by
  unfold Client.getContactFieldById
  split
  · rename_i found here
    have same_id : found.id = c.id := by simpa using List.find?_some here
    have same := List.inj_on_of_nodup_map distinct (List.mem_of_find?_eq_some here) listed same_id
    rw [same]
  · rename_i missing
    have absent := List.find?_eq_none.mp missing c listed
    simp at absent

theorem registered_iff (meInfo : Option Bytes) :
    Client.isClientRegistered meInfo = true ↔ ∃ text, meInfo = some text ∧ 16 < text.length := by
  cases meInfo with
  | none => simp [Client.isClientRegistered]
  | some text => simp [Client.isClientRegistered, fieldClientIdSize]

/-- Two characters make one byte, and an odd number of them throws. -/
theorem read_id_length (text : Bytes) :
    (text.length % 2 = 0 → ∃ id, readId text = .ok id ∧ 2 * id.length = text.length) ∧
      (text.length % 2 = 1 → ∃ e, readId text = .error e) := by
  induction text using readId.induct with
  | case1 => simp [readId]
  | case2 a => simp [readId]
  | case3 a b rest ih =>
    obtain ⟨even, odd⟩ := ih
    constructor
    · intro size
      simp only [List.length_cons] at size
      obtain ⟨id, read, length⟩ := even (by omega)
      refine ⟨strtoul [a, b] :: id, ?_, ?_⟩
      · simp only [readId, read]
        rfl
      · simp only [List.length_cons]
        omega
    · intro size
      simp only [List.length_cons] at size
      obtain ⟨e, raised⟩ := odd (by omega)
      refine ⟨e, ?_⟩
      simp only [readId, raised]
      rfl

end ClientCredentials
