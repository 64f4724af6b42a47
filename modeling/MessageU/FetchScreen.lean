import MessageU.ClientOperations

/- What a fetch writes on the screen: lines of the loop of _fetch_massages, and between
   them what _handle_msg writes for each message. Bytes printed by %s end at a zero byte. -/
namespace FetchScreen
open ByteFields SegmentedStream RequestFormat ClientReception ClientCredentials ClientOperations

def ascii (s : String) : Bytes := s.toList.map fun c => UInt8.ofNat c.toNat

/-- What std::cout writes numbers in. print_payload gives it std::hex and nothing takes that
    back, so that it is hex once a registration has printed a response with a payload. -/
inductive Base where
  | dec
  | hex
  deriving DecidableEq, Repr

def Base.radix : Base → Nat
  | .dec => 10
  | .hex => 16

def number (base : Base) (n : Nat) : Bytes :=
  (Nat.toDigits base.radix n).map fun c => UInt8.ofNat c.toNat

def numberLine (base : Base) (label : String) (n : Nat) : Bytes :=
  ascii label ++ number base n ++ [newline]

def symmKeyRequestMsg : Bytes := ascii "Request for symmetric Key"
def symmKeyRcvdMsg : Bytes := ascii "Symmetric key received"

def messageFormat (contactName content : Bytes) : Bytes :=
  [newline] ++ (ascii "From: " ++ contactName ++ [newline]) ++
    (ascii "Content:" ++ content ++ [newline]) ++ (ascii "-----<EOM>----- " ++ [newline])

def FetchMsgOperation.contactName (contacts : List Contact) (srcId : Bytes) : Bytes :=
  let contactName := untilZero (Client.getContactNameById contacts srcId)
  if contactName.length = 0 then ascii "Unknown Contact" else contactName

def FetchMsgOperation.shownContent (msg : Message) : Option Bytes :=
  if msg.messageType = messageTypeRequestSymKey then some symmKeyRequestMsg
  else if msg.messageType = messageTypeSendSymKey then some symmKeyRcvdMsg
  else if msg.messageType = messageTypeSendTxt then some (untilZero msg.messageContent)
  else none

def FetchMsgOperation.handleMsgPrints (contacts : List Contact) (msg : Message) : Bytes :=
  match shownContent msg with
  | some content => messageFormat (contactName contacts msg.clientId) content
  | none => ascii "Uknown message received" ++ [newline]

def fetchMassagesPrints (base : Base) (contacts : List Contact) (msgsDataSize received : Nat)
    (buffer : Bytes) (sock : Socket) : Bytes :=
  if received < msgsDataSize then
    match recv minMsgResponseSize sock with
    | (.reset, _) => []
    | (.data data, rest) =>
      let result := data.length
      if _ : result = 0 then []
      else
        let buffer := overwrite buffer data
        let clientId := buffer.take fieldClientIdSize
        let msgType := (buffer.getD 20 0).toNat
        let contentSize := byteswapUlong (fromLittleEndian (slice buffer 21 25))
        numberLine base "msg content size: " contentSize ++
          if Client.maxPayloadSize < contentSize then []
          else if 0 < contentSize then
            match recv contentSize rest with
            | (.reset, _) => []
            | (.data content, rest) =>
              if content.length = 0 then []
              else
                numberLine base "result " content.length ++
                  match Message.ofContent clientId msgType content with
                  | .error _ => []
                  | .ok msg =>
                    FetchMsgOperation.handleMsgPrints contacts msg ++
                      (numberLine base "received_data_size " (received + result + content.length) ++
                        fetchMassagesPrints base (FetchMsgOperation.handleMsg contacts msg)
                          msgsDataSize (received + result + content.length) buffer rest)
          else
            match Message.ofType clientId msgType with
            | .error _ => []
            | .ok msg =>
              FetchMsgOperation.handleMsgPrints contacts msg ++
                (numberLine base "received_data_size " (received + result + result) ++
                  fetchMassagesPrints base (FetchMsgOperation.handleMsg contacts msg)
                    msgsDataSize (received + result + result) buffer rest)
  else []
termination_by msgsDataSize - received
decreasing_by
  all_goals omega

def fetchScreen (base : Base) (contacts : List Contact) (msgsDataSize : Nat) (buffer : Bytes)
    (sock : Socket) : Bytes :=
  numberLine base "msgs_data_size " msgsDataSize ++
    fetchMassagesPrints base contacts msgsDataSize 0 buffer sock

/-! Reading the screen. -/

def labelled (label line : Bytes) : Option Bytes :=
  if label <+: line then some (line.drop label.length) else none

def labelledLines (label screen : Bytes) : List Bytes :=
  (screen.splitOn newline).filterMap (labelled label)

/-- The senders and contents that a reader of the screen sees. -/
def readScreen (screen : Bytes) : List (Bytes × Bytes) :=
  (labelledLines (ascii "From: ") screen).zip (labelledLines (ascii "Content:") screen)

theorem read_line (label : Bytes) {line : Bytes} (one_line : newline ∉ line) (rest : Bytes) :
    labelledLines label (line ++ [newline] ++ rest) =
      (labelled label line).toList ++ labelledLines label rest := by
  rw [labelledLines, List.append_assoc, List.singleton_append,
    List.splitOn_append_cons_self_of_not_mem one_line, List.filterMap_cons]
  cases labelled label line <;> rfl

theorem label_read (label more : Bytes) : labelled label (label ++ more) = some more := by
  rw [labelled, if_pos (List.prefix_append label more), List.drop_left]

theorem other_line {a b : Byte} (different : a ≠ b) (label line : Bytes) :
    labelled (a :: label) (b :: line) = none := by
  rw [labelled, if_neg]
  intro begins
  exact different (List.cons_prefix_cons.mp begins).1

theorem digits_written {radix : Nat} (several : 1 < radix) {n : Nat} {c : Char}
    (written : c ∈ Nat.toDigits radix n) : ∃ d < radix, c = Nat.digitChar d := by
  induction n using Nat.strong_induction_on with
  | _ n ih =>
    rw [Nat.toDigits_eq_if several] at written
    split at written
    · rename_i small
      exact ⟨n, small, List.mem_singleton.mp written⟩
    · rcases List.mem_append.mp written with front | last
      · exact ih (n / radix) (Nat.div_lt_self (by omega) several) front
      · exact ⟨n % radix, Nat.mod_lt n (by omega), List.mem_singleton.mp last⟩

theorem number_line (base : Base) (n : Nat) : newline ∉ number base n := by
  have digit : ∀ d < 16, UInt8.ofNat (Nat.digitChar d).toNat ≠ newline := by decide
  have radix : 1 < base.radix ∧ base.radix ≤ 16 := by cases base <;> decide
  intro inside
  obtain ⟨c, written, same⟩ := List.mem_map.mp inside
  obtain ⟨d, small, rfl⟩ := digits_written radix.1 written
  exact digit d (Nat.lt_of_lt_of_le small radix.2) same

theorem number_read (base : Base) {wanted : Bytes} {label : String}
    (one_line : newline ∉ ascii label)
    (other : ∀ more, labelled wanted (ascii label ++ more) = none) (n : Nat) (rest : Bytes) :
    labelledLines wanted (numberLine base label n ++ rest) = labelledLines wanted rest := by
  rw [numberLine, read_line, other]
  · rfl
  · rw [List.mem_append, not_or]
    exact ⟨one_line, number_line base n⟩

section Labels
variable {wanted : Bytes} (wants : wanted = ascii "From: " ∨ wanted = ascii "Content:")
include wants

theorem other_lines (more : Bytes) :
    labelled wanted (ascii "msgs_data_size " ++ more) = none ∧
      labelled wanted (ascii "msg content size: " ++ more) = none ∧
      labelled wanted (ascii "result " ++ more) = none ∧
      labelled wanted (ascii "received_data_size " ++ more) = none ∧
      labelled wanted (ascii "Uknown message received" ++ more) = none ∧
      labelled wanted (ascii "-----<EOM>----- " ++ more) = none ∧
      labelled wanted [] = none := by
  rcases wants with rfl | rfl
  · refine ⟨?_, ?_, ?_, ?_, ?_, ?_, rfl⟩ <;> exact other_line (by decide) _ _
  · refine ⟨?_, ?_, ?_, ?_, ?_, ?_, rfl⟩ <;> exact other_line (by decide) _ _

end Labels

theorem format_read {name content : Bytes} (name_line : newline ∉ name)
    (content_line : newline ∉ content) (rest : Bytes) :
    labelledLines (ascii "From: ") (messageFormat name content ++ rest) =
        name :: labelledLines (ascii "From: ") rest ∧
      labelledLines (ascii "Content:") (messageFormat name content ++ rest) =
        content :: labelledLines (ascii "Content:") rest := by
  have from_line : newline ∉ ascii "From: " ++ name := by
    rw [List.mem_append, not_or]
    exact ⟨by decide, name_line⟩
  have text_line : newline ∉ ascii "Content:" ++ content := by
    rw [List.mem_append, not_or]
    exact ⟨by decide, content_line⟩
  have lines (wanted : Bytes) : labelledLines wanted (messageFormat name content ++ rest) =
      (labelled wanted []).toList ++ ((labelled wanted (ascii "From: " ++ name)).toList ++
        ((labelled wanted (ascii "Content:" ++ content)).toList ++
          ((labelled wanted (ascii "-----<EOM>----- ")).toList ++ labelledLines wanted rest))) := by
    have shape : messageFormat name content ++ rest = [] ++ [newline] ++
        (ascii "From: " ++ name ++ [newline] ++ (ascii "Content:" ++ content ++ [newline] ++
          (ascii "-----<EOM>----- " ++ [newline] ++ rest))) := by
      simp only [messageFormat, List.append_assoc, List.nil_append]
    rw [shape, read_line wanted (by decide), read_line wanted from_line,
      read_line wanted text_line, read_line wanted (by decide)]
  constructor
  · rw [lines, label_read, show labelled (ascii "From: ") (ascii "Content:" ++ content) = none from
      other_line (by decide) _ _]
    rfl
  · rw [lines, label_read, show labelled (ascii "Content:") (ascii "From: " ++ name) = none from
      other_line (by decide) _ _]
    rfl

def entries (contacts : List Contact) (handled : List Message) : List (Bytes × Bytes) :=
  handled.filterMap fun msg => (FetchMsgOperation.shownContent msg).map fun content =>
    (FetchMsgOperation.contactName contacts msg.clientId, content)

def NamesTidy (contacts : List Contact) : Prop := ∀ contact ∈ contacts, newline ∉ contact.name

def ContentsTidy (handled : List Message) : Prop :=
  ∀ msg ∈ handled, ∀ content, FetchMsgOperation.shownContent msg = some content →
    newline ∉ content

theorem until_zero_part {bs : Bytes} (one_line : newline ∉ bs) : newline ∉ untilZero bs :=
  fun inside => one_line (List.takeWhile_subset _ inside)

theorem name_line {contacts : List Contact} (names : NamesTidy contacts)
    (srcId : Bytes) : newline ∉ FetchMsgOperation.contactName contacts srcId := by
  unfold FetchMsgOperation.contactName
  dsimp only
  split
  · decide
  · apply until_zero_part
    unfold Client.getContactNameById Client.getContactFieldById
    split
    · rename_i contact found
      exact names contact (List.mem_of_find?_eq_some found)
    · exact List.not_mem_nil

section Screen
variable (base : Base) {wanted : Bytes} (wants : wanted = ascii "From: " ∨ wanted = ascii "Content:")
variable {field : Bytes × Bytes → Bytes}
variable (reads : ∀ {name content : Bytes}, newline ∉ name → newline ∉ content → ∀ rest,
  labelledLines wanted (messageFormat name content ++ rest) =
    field (name, content) :: labelledLines wanted rest)
include wants reads

theorem message_read {contacts : List Contact} (names : NamesTidy contacts) {msg : Message}
    (contents : ContentsTidy [msg]) (rest : Bytes) :
    labelledLines wanted (FetchMsgOperation.handleMsgPrints contacts msg ++ rest) =
      (entries contacts [msg]).map field ++ labelledLines wanted rest := by
  unfold FetchMsgOperation.handleMsgPrints
  split
  · rename_i content known
    rw [reads (name_line names _) (contents msg List.mem_cons_self content known)]
    simp [entries, known]
  · rename_i unknown
    have skipped := (other_lines wants []).2.2.2.2.1
    rw [List.append_nil] at skipped
    rw [read_line wanted (by decide), skipped]
    simp [entries, unknown]

theorem turn_read {contacts : List Contact} (names : NamesTidy contacts) {msg : Message}
    {run : FetchRun} {prints : Bytes} (later : ContentsTidy run.handled →
      labelledLines wanted prints = (entries contacts run.handled).map field)
    (contents : ContentsTidy (run.handleMsg msg).handled) (received : Nat) :
    labelledLines wanted (FetchMsgOperation.handleMsgPrints contacts msg ++
        (numberLine base "received_data_size " received ++ prints)) =
      (entries contacts (run.handleMsg msg).handled).map field := by
  have first : ContentsTidy [msg] := fun m same => by
    rw [List.mem_singleton.mp same]
    exact contents msg List.mem_cons_self
  have rest : ContentsTidy run.handled := fun m inside => contents m (List.mem_cons_of_mem _ inside)
  rw [message_read wants reads names first,
    number_read base (by decide) (fun more => (other_lines wants more).2.2.2.1), later rest,
    ← List.map_append]
  congr 1
  exact (List.filterMap_append (l := [msg]) ..).symm

omit reads in
theorem nothing_labelled : labelledLines wanted [] = [] := by
  rw [labelledLines, List.splitOn_nil, List.filterMap_cons, (other_lines wants []).2.2.2.2.2.2]
  rfl

theorem loop_read {contacts : List Contact} (names : NamesTidy contacts)
    (msgsDataSize received : Nat) (buffer : Bytes) (sock : Socket) :
    ContentsTidy (fetchMassages msgsDataSize received buffer sock).handled →
      labelledLines wanted (fetchMassagesPrints base contacts msgsDataSize received buffer sock) =
        (entries contacts (fetchMassages msgsDataSize received buffer sock).handled).map field := by
  have nothing := nothing_labelled wants
  induction left : msgsDataSize - received using Nat.strong_induction_on
    generalizing received buffer sock with
  | _ left ih =>
    subst left
    rw [fetchMassagesPrints, fetchMassages]
    by_cases more : received < msgsDataSize
    · rw [if_pos more, if_pos more]
      obtain ⟨arrival, rest⟩ := recv minMsgResponseSize sock
      cases arrival with
      | reset => exact fun _ => nothing
      | data data =>
        dsimp only
        by_cases none_read : data.length = 0
        · rw [dif_pos none_read, dif_pos none_read]
          exact fun _ => nothing
        · rw [dif_neg none_read, dif_neg none_read,
            number_read base (by decide) (fun more => (other_lines wants more).2.1)]
          generalize overwrite buffer data = buffer
          have kept (msg : Message) : FetchMsgOperation.handleMsg contacts msg = contacts :=
            handled_messages_keep contacts [msg]
          have later (n : Nat) (rest : Socket) :=
            ih _ (by omega) (received + data.length + n) buffer rest rfl
          by_cases big : Client.maxPayloadSize <
            byteswapUlong (fromLittleEndian (slice buffer 21 25))
          · rw [if_pos big, if_pos big]
            exact fun _ => nothing
          · rw [if_neg big, if_neg big]
            by_cases full : 0 < byteswapUlong (fromLittleEndian (slice buffer 21 25))
            · rw [if_pos full, if_pos full]
              obtain ⟨arrival, rest⟩ :=
                recv (byteswapUlong (fromLittleEndian (slice buffer 21 25))) rest
              cases arrival with
              | reset => exact fun _ => nothing
              | data content =>
                dsimp only
                by_cases empty : content.length = 0
                · rw [if_pos empty, if_pos empty]
                  exact fun _ => nothing
                · rw [if_neg empty, if_neg empty,
                    number_read base (by decide) (fun more => (other_lines wants more).2.2.1)]
                  cases Message.ofContent (buffer.take fieldClientIdSize)
                    (buffer.getD 20 0).toNat content with
                  | error e => exact fun _ => nothing
                  | ok msg =>
                    dsimp only
                    rw [kept]
                    exact fun contents => turn_read base wants reads names (later _ rest) contents _
            · rw [if_neg full, if_neg full]
              cases Message.ofType (buffer.take fieldClientIdSize) (buffer.getD 20 0).toNat with
              | error e => exact fun _ => nothing
              | ok msg =>
                dsimp only
                rw [kept]
                exact fun contents => turn_read base wants reads names (later _ rest) contents _
    · rw [if_neg more, if_neg more]
      exact fun _ => nothing

end Screen

/-- Who reads the screen sees who each message is from and what it says: no text can
    pass for a message of its own. -/
theorem screen_read (base : Base) {contacts : List Contact} (names : NamesTidy contacts)
    (msgsDataSize : Nat) (buffer : Bytes) (sock : Socket)
    (contents : ContentsTidy (fetchMassages msgsDataSize 0 buffer sock).handled) :
    readScreen (fetchScreen base contacts msgsDataSize buffer sock) =
      entries contacts (fetchMassages msgsDataSize 0 buffer sock).handled := by
  have first (wanted : Bytes) (wants : wanted = ascii "From: " ∨ wanted = ascii "Content:") :
      labelledLines wanted (fetchScreen base contacts msgsDataSize buffer sock) =
        labelledLines wanted (fetchMassagesPrints base contacts msgsDataSize 0 buffer sock) :=
    number_read base (by decide) (fun more => (other_lines wants more).1) _ _
  have senders : labelledLines (ascii "From: ")
      (fetchMassagesPrints base contacts msgsDataSize 0 buffer sock) =
        (entries contacts (fetchMassages msgsDataSize 0 buffer sock).handled).map Prod.fst :=
    loop_read base (Or.inl rfl) (fun name_line content_line rest =>
      (format_read name_line content_line rest).1) names msgsDataSize 0 buffer sock contents
  have texts : labelledLines (ascii "Content:")
      (fetchMassagesPrints base contacts msgsDataSize 0 buffer sock) =
        (entries contacts (fetchMassages msgsDataSize 0 buffer sock).handled).map Prod.snd :=
    loop_read base (Or.inr rfl) (fun name_line content_line rest =>
      (format_read name_line content_line rest).2) names msgsDataSize 0 buffer sock contents
  rw [readScreen, first _ (Or.inl rfl), first _ (Or.inr rfl), senders, texts, List.zip_map']
  exact List.map_id _

end FetchScreen
