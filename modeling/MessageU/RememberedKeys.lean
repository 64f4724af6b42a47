import MessageU.ClientOperations

/- The two keys of a contact. Both are written by a loop over the contacts that works
   on copies, so what is written is lost with the copy. The same loop over references
   would keep the last key of each contact. -/
namespace RememberedKeys
open ByteFields SegmentedStream RequestFormat ResponseFormat ClientReception ClientCredentials
open ClientOperations

section Loops
variable {α : Type}

/-- `for(auto & x : xs)`. -/
def forReferences (xs : List α) (assign : α → α) : List α := xs.map assign

end Loops

/-! Symmetric keys. -/

def keysFrom (messages : List Message) (id : Bytes) : List Message :=
  messages.filter fun msg => msg.messageType = messageTypeSendSymKey ∧ msg.clientId = id

def lastKey (messages : List Message) (c : Contact) : Bytes :=
  match (keysFrom messages c.id).getLast? with
  | some msg => msg.messageContent
  | none => c.symmKey

def SymmKeysRemembered (contacts : List Contact) (messages : List Message)
    (after : List Contact) : Prop :=
  (∀ c ∈ contacts, Client.getContactSymkeyById after c.id = lastKey messages c) ∧
    after.map (fun c => (c.name, c.id, c.pubKey)) =
      contacts.map (fun c => (c.name, c.id, c.pubKey))

def handleByReference (contacts : List Contact) (msg : Message) : List Contact :=
  if msg.messageType = messageTypeSendSymKey then
    forReferences contacts (setSymmKey msg.clientId msg.messageContent)
  else contacts

theorem last_key_snoc (messages : List Message) (msg : Message) (c : Contact) :
    lastKey (messages ++ [msg]) c =
      if msg.messageType = messageTypeSendSymKey ∧ c.id = msg.clientId then msg.messageContent
      else lastKey messages c := by
  unfold lastKey keysFrom
  rw [List.filter_append]
  by_cases key : msg.messageType = messageTypeSendSymKey ∧ c.id = msg.clientId
  · simp [key]
  · have other : ¬ (msg.messageType = messageTypeSendSymKey ∧ msg.clientId = c.id) :=
      fun both => key ⟨both.1, both.2.symm⟩
    rw [if_neg key, List.filter_cons_of_neg (by simpa using other), List.filter_nil,
      List.append_nil]

theorem references_keep_last (contacts : List Contact) (messages : List Message) :
    messages.foldl handleByReference contacts =
      contacts.map fun c => { c with symmKey := lastKey messages c } := by
  induction messages using List.reverseRecOn with
  | nil => simp [lastKey, keysFrom]
  | append_singleton messages msg ih =>
    rw [List.foldl_append, ih, List.foldl_cons, List.foldl_nil]
    unfold handleByReference
    by_cases key : msg.messageType = messageTypeSendSymKey
    · rw [if_pos key, forReferences, List.map_map]
      apply List.map_congr_left
      intro c _
      rw [last_key_snoc]
      by_cases from_c : c.id = msg.clientId <;> simp [setSymmKey, key, from_c]
    · rw [if_neg key]
      apply List.map_congr_left
      intro c _
      rw [last_key_snoc, if_neg (fun both => key both.1)]

theorem references_remember {contacts : List Contact}
    (distinct : (contacts.map Contact.id).Nodup) (messages : List Message) :
    SymmKeysRemembered contacts messages (messages.foldl handleByReference contacts) := by
  rw [references_keep_last]
  constructor
  · intro c listed
    have ids : ((contacts.map fun c => { c with symmKey := lastKey messages c }).map
        Contact.id).Nodup := by
      rwa [List.map_map]
    have there := List.mem_map_of_mem (f := fun c => { c with symmKey := lastKey messages c })
      listed
    exact field_by_id Contact.symmKey ids there
  · rw [List.map_map]
    rfl

/-- The keys are remembered if the last one from each contact is the one it had. -/
theorem symm_keys_remembered_iff {contacts : List Contact}
    (distinct : (contacts.map Contact.id).Nodup) (messages : List Message) :
    SymmKeysRemembered contacts messages
        (messages.foldl FetchMsgOperation.handleMsg contacts) ↔
      ∀ c ∈ contacts, ∀ msg, (keysFrom messages c.id).getLast? = some msg →
        msg.messageContent = c.symmKey := by
  rw [handled_messages_keep]
  constructor
  · rintro ⟨remembered, -⟩ c listed msg last
    have kept := remembered c listed
    rw [lastKey, last] at kept
    exact kept.symm.trans (field_by_id Contact.symmKey distinct listed)
  · intro same
    refine ⟨?_, rfl⟩
    intro c listed
    have stored := field_by_id Contact.symmKey distinct listed
    unfold lastKey
    split
    · rename_i msg last
      exact stored.trans (same c listed msg last).symm
    · exact stored

def contactA (pubKey symmKey : Bytes) : Contact := ⟨[0x61], List.replicate 16 1, pubKey, symmKey⟩

theorem repeated_key_remembered :
    let messages : List Message := [⟨List.replicate 16 1, messageTypeSendSymKey, 1, [7]⟩,
      ⟨List.replicate 16 1, messageTypeSendTxt, 1, [8]⟩]
    SymmKeysRemembered [contactA [] [7]] messages
      (messages.foldl FetchMsgOperation.handleMsg [contactA [] [7]]) := by
  intro messages
  refine (symm_keys_remembered_iff (by decide) messages).mpr ?_
  decide

/-- The first key that comes from a contact is not remembered. -/
theorem first_key_lost :
    let messages : List Message := [⟨List.replicate 16 1, messageTypeSendSymKey, 1, [7]⟩]
    ([contactA [] []].map Contact.id).Nodup ∧
      ¬ SymmKeysRemembered [contactA [] []] messages
        (messages.foldl FetchMsgOperation.handleMsg [contactA [] []]) := by
  refine ⟨by decide, ?_⟩
  rintro ⟨remembered, -⟩
  have kept := remembered (contactA [] []) (by decide)
  exact absurd kept (by decide)

/-! The public key. -/

def PubKeyRemembered (contacts : List Contact) (c : Contact) (key : Bytes)
    (after : List Contact) : Prop :=
  Client.getContactPubkeyById after c.id = key ∧
    after.map (setPubKey c.id []) = contacts.map (setPubKey c.id [])

/-- The key is remembered if the contact had it. -/
theorem pub_key_remembered_iff {cl : Client} (some_id : cl.id ≠ [])
    (distinct : (cl.contacts.map Contact.id).Nodup) {c : Contact} (listed : c ∈ cl.contacts)
    (id_size : c.id.length = 16) {destination : Bytes}
    (wanted : Client.getContactIdByName cl.contacts destination = c.id) {key : Bytes}
    (key_size : key.length = 160) {resp : ServerResponse}
    (answer : (ServerResponse.ofCode codePublicKey).build (c.id ++ key) = .ok resp)
    {env : Environment} (sends : env.sends = true) {rest : Socket}
    (read : recv GetPublicKeyOperation.responseSize env.sock = (.data resp.rawData, rest)) :
    let run := GetPublicKeyOperation.doOperation cl destination env
    run.how = .ended .returned ∧
      (PubKeyRemembered cl.contacts c key run.client.contacts ↔ c.pubKey = key) := by
  intro run
  have size : (c.id ++ key).length = 176 := by rw [List.length_append, id_size, key_size]
  constructor
  · have fits : (c.id ++ key).length < 2 ^ 32 := by omega
    rw [build_ok fits] at answer
    cases answer
    have made := payload_request (show codeFetchPublicKey ∈ supportedCodes by decide)
      (fun no_id => absurd no_id some_id) c.id
    have exchanged := exchange_answered "GetPublicKey Operation"
      ⟨cl.id, codeFetchPublicKey, supportedVersion, c.id.length, c.id, []⟩ sends read
      (List.ne_nil_of_length_pos (by simp [response_header_length]))
    have supported : codePublicKey ∈ supportedResponses := by decide
    have ending := whole_response_ending true env.beyond supported
      (by decide) fits
    rw [size] at ending
    have known : ¬ c.id.length ≠ fieldClientIdSize := not_not.mpr id_size
    simp only [run, GetPublicKeyOperation.doOperation, GetPublicKeyOperation.doOperationFinding,
      wanted, if_neg known, made, exchanged, size]
    rw [show GetPublicKeyOperation.responseSize = 7 + 176 from rfl,
      show responseEndingFinding none true (7 + 176) env.beyond _ = _ from ending]
  · rw [show run.client = cl from (pubkey_keeps cl env destination).1]
    have stored := field_by_id Contact.pubKey distinct listed
    constructor
    · intro remembered
      exact stored.symm.trans remembered.1
    · intro same
      exact ⟨stored.trans same, rfl⟩

def keyAnswer (key : Bytes) : Bytes :=
  responseHeader supportedVersion codePublicKey 176 ++ (List.replicate 16 1 ++ key)

def clientWith (c : Contact) : Client := ⟨[], List.replicate 16 2, [], [c], none⟩

theorem key_answer_built {key : Bytes} (size : key.length = 160) (c : Contact)
    (owner : c.id = List.replicate 16 1) :
    (ServerResponse.ofCode codePublicKey).build (c.id ++ key) =
      .ok ⟨supportedVersion, codePublicKey, c.id ++ key, keyAnswer key⟩ := by
  have long : (c.id ++ key).length = 176 := by rw [List.length_append, owner, size]; rfl
  rw [build_ok (by omega), long, keyAnswer, owner]

theorem key_answer_read {key : Bytes} (size : key.length = 160) :
    recv GetPublicKeyOperation.responseSize [.data (keyAnswer key)] =
      (.data (keyAnswer key), []) := by
  apply recv_segment
  simp [keyAnswer, response_header_length, size, GetPublicKeyOperation.responseSize,
    minResponseSize, fieldClientIdSize, Client.publicKeySize]

theorem same_key_remembered :
    let key : Bytes := List.replicate 160 0x39
    let c := contactA key []
    let run := GetPublicKeyOperation.doOperation (clientWith c) [0x61]
      ⟨true, true, 0, [], [.data (keyAnswer key)]⟩
    run.how = .ended .returned ∧ PubKeyRemembered [c] c key run.client.contacts := by
  intro key c run
  have size : key.length = 160 := List.length_replicate
  clear_value key
  have own_id : (clientWith c).id ≠ [] := by simp [clientWith]
  have distinct : ((clientWith c).contacts.map Contact.id).Nodup := by simp [clientWith]
  have listed : c ∈ (clientWith c).contacts := by simp [clientWith]
  have wanted : Client.getContactIdByName (clientWith c).contacts [0x61] = c.id := by
    simp [clientWith, Client.getContactIdByName, c, contactA]
  obtain ⟨returned, remembered⟩ := pub_key_remembered_iff own_id distinct listed
    List.length_replicate wanted size (key_answer_built size c rfl)
    (show (⟨true, true, 0, [], [.data (keyAnswer key)]⟩ : Environment).sends = true from rfl)
    (key_answer_read size)
  exact ⟨returned, remembered.mpr rfl⟩

/-- The key of a contact that had none is not remembered. -/
theorem new_key_lost :
    let key : Bytes := List.replicate 160 0x39
    let c := contactA [] []
    let env : Environment := ⟨true, true, 0, [], [.data (keyAnswer key)]⟩
    let run := GetPublicKeyOperation.doOperation (clientWith c) [0x61] env
    (ServerResponse.ofCode codePublicKey).build (c.id ++ key) =
        .ok ⟨supportedVersion, codePublicKey, c.id ++ key, keyAnswer key⟩ ∧
      recv GetPublicKeyOperation.responseSize env.sock = (.data (keyAnswer key), []) ∧
      run.how = .ended .returned ∧ ¬ PubKeyRemembered [c] c key run.client.contacts := by
  intro key c env run
  have size : key.length = 160 := List.length_replicate
  refine ⟨key_answer_built size c rfl, key_answer_read size, by decide +kernel, ?_⟩
  rintro ⟨remembered, -⟩
  rw [show run.client = clientWith c from (pubkey_keeps _ _ _).1,
    show Client.getContactPubkeyById (clientWith c).contacts c.id = [] from rfl] at remembered
  rw [← remembered] at size
  cases size

end RememberedKeys
