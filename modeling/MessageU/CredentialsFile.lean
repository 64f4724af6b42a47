import MessageU.ClientCredentials

/- me.info written and read again. The id goes through two hex digits for each byte,
   the name and the private key are lines of their own. -/
namespace CredentialsFile
open ByteFields RequestFormat ClientReception ClientCredentials

/-! The id in hex. -/

theorem hex_digit_read : ∀ d < 16, hexValue (hexDigit d) = some d ∧
    isSpace (hexDigit d) = false ∧ hexDigit d ≠ 0x2d ∧ hexDigit d ≠ 0x2b ∧
    hexDigit d ≠ newline := by
  decide

theorem hex_byte_digits (b : Byte) :
    hexByte b = [hexDigit (b.toNat / 16), hexDigit (b.toNat % 16)] := by
  unfold hexByte
  split
  · rename_i small
    rw [Nat.div_eq_of_lt small, Nat.mod_eq_of_lt small]
    rfl
  · rfl

theorem strtoul_digits {high low : Nat} (hh : high < 16) (hl : low < 16) :
    strtoul [hexDigit high, hexDigit low] = UInt8.ofNat (16 * high + low) := by
  obtain ⟨high_value, no_space, no_minus, no_plus, -⟩ := hex_digit_read high hh
  obtain ⟨low_value, -⟩ := hex_digit_read low hl
  have from_start : [hexDigit high, hexDigit low].dropWhile isSpace =
      [hexDigit high, hexDigit low] := by
    rw [List.dropWhile_cons_of_neg (by simp [no_space])]
  have value : digits 0 [hexDigit high, hexDigit low] = 16 * high + low := by
    simp only [digits, high_value, low_value]
    omega
  unfold strtoul
  rw [from_start]
  split
  · rename_i minus
    exact absurd (List.cons.inj minus).1 no_minus
  · rename_i plus
    exact absurd (List.cons.inj plus).1 no_plus
  · rw [value]

theorem hex_byte_read (b : Byte) :
    ∃ high low, hexByte b = [high, low] ∧ strtoul [high, low] = b := by
  have bound := b.toNat_lt
  refine ⟨_, _, hex_byte_digits b, ?_⟩
  rw [strtoul_digits (by omega) (Nat.mod_lt _ (by decide)), Nat.div_add_mod]
  exact UInt8.ofNat_toNat

theorem read_written_id (id : Bytes) : readId (id.flatMap hexByte) = .ok id := by
  induction id with
  | nil => rfl
  | cons b rest ih =>
    obtain ⟨high, low, written, read⟩ := hex_byte_read b
    rw [List.flatMap_cons, written]
    simp only [List.cons_append, List.nil_append, readId, ih, read]
    rfl

theorem written_id_length (id : Bytes) : (id.flatMap hexByte).length = 2 * id.length := by
  induction id with
  | nil => rfl
  | cons b rest ih =>
    rw [List.flatMap_cons, List.length_append, ih, hex_byte_digits]
    simp only [List.length_cons, List.length_nil]
    omega

theorem written_id_line (id : Bytes) : newline ∉ id.flatMap hexByte := by
  intro there
  obtain ⟨b, -, digit⟩ := List.mem_flatMap.mp there
  have bound := b.toNat_lt
  obtain ⟨-, -, -, -, high⟩ := hex_digit_read (b.toNat / 16) (by omega)
  obtain ⟨-, -, -, -, low⟩ := hex_digit_read (b.toNat % 16) (Nat.mod_lt _ (by decide))
  rw [hex_byte_digits, List.mem_cons, List.mem_singleton] at digit
  rcases digit with first | second
  · exact high first.symm
  · exact low second.symm

/-! The file. -/

theorem saved_file (c : Client) :
    c.saveClientCreds true = { c with meInfo := some c.credentials } := rfl

section Saved
variable {c : Client} (id_size : c.id.length = 16)
include id_size

theorem saved_registered : Client.isClientRegistered (some c.credentials) = true := by
  rw [registered_iff]
  refine ⟨_, rfl, ?_⟩
  have hex := written_id_length c.id
  simp only [Client.credentials, List.length_append, List.length_cons, List.length_nil]
  omega

theorem saved_read (name_line : newline ∉ c.name) (key_line : newline ∉ c.privateKey)
    {fresh : Client} (file : fresh.meInfo = some c.credentials) :
    fresh.readClientCreds =
      .ok { fresh with name := c.name, id := c.id, privateKey := c.privateKey } := by
  have registered := saved_registered id_size
  unfold Client.readClientCreds
  rw [file, registered]
  simp only [Bool.not_true, Bool.false_eq_true, ↓reduceIte, Option.getD_some,
    Client.credentials, getline_line name_line, getline_line (written_id_line c.id), getline_line key_line,
    read_written_id]
  rfl

end Saved

/-- What save_client_creds writes, a client that starts anew reads back. -/
theorem credentials_round_trip {c : Client} (name_line : newline ∉ c.name)
    (key_line : newline ∉ c.privateKey) (id_size : c.id.length = 16) :
    let saved := c.saveClientCreds true
    Client.isClientRegistered saved.meInfo = true ∧
      (∀ fresh : Client, fresh.meInfo = saved.meInfo →
        fresh.readClientCreds =
          .ok { fresh with name := c.name, id := c.id, privateKey := c.privateKey }) ∧
      Client.init saved.meInfo = .ok ⟨c.name, c.id, c.privateKey, [], saved.meInfo⟩ := by
  intro saved
  have written : saved.meInfo = some c.credentials := congrArg Client.meInfo (saved_file c)
  have registered := saved_registered id_size
  rw [written]
  refine ⟨registered, fun fresh file => saved_read id_size name_line key_line file, ?_⟩
  unfold Client.init
  dsimp only
  rw [if_pos registered]
  exact saved_read id_size name_line key_line rfl

theorem small_credentials_round_trip :
    let c : Client := ⟨[0], List.replicate 8 0x0a ++ List.replicate 8 0xf0, [0x0d], [], none⟩
    Client.init (c.saveClientCreds true).meInfo =
      .ok ⟨c.name, c.id, c.privateKey, [], (c.saveClientCreds true).meInfo⟩ := by
  intro c
  obtain ⟨-, -, started⟩ := credentials_round_trip (show newline ∉ c.name by decide)
    (show newline ∉ c.privateKey by decide) (by decide)
  exact started

end CredentialsFile
