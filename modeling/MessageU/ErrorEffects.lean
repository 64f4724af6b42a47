import MessageU.HandlerOutcomes

/- What a failed request leaves behind. A registration and a send make every check
   that can fail before their one write; a fetch deletes its messages while it
   gathers them and packs their total size last. Statements may fail as well. -/
namespace ErrorEffects
open ByteFields GuardedRuns StatementPrograms RequestFormat ServerTables ResponseFormat
open RequestHandling ServerRuns HandlerOutcomes

def Failed : Except PyError ServerResponse → Prop
  | .ok resp => resp.code = codeError
  | .error _ => True

def LeavesStore (t after : Tables) (result : Except PyError ServerResponse) : Prop :=
  Failed result → after.clients = t.clients ∧ after.messages = t.messages

def MailboxPacks (t : Tables) (request : ServerRequest) : Prop :=
  request.requestCode = codeFetchMessages →
    ((t.mailbox request.clientId.bytes).map fun m => 25 + m.content.length).sum < 2 ^ 32

theorem same_store (t : Tables) (result : Except PyError ServerResponse) :
    LeavesStore t t result := fun _ => ⟨rfl, rfl⟩

theorem success_leaves {t after : Tables} {resp : ServerResponse}
    (success : resp.code ≠ codeError) :
    LeavesStore t after (.ok resp) := fun failed => absurd failed success

/-! Statements that may fail. -/

abbrev Faulty : Type := Tables × List (Option DatabaseError)

def Reads : Statement → Prop
  | .insertClient _ | .insertMessage .. | .deleteMessage _ => False
  | _ => True

theorem faulty_cases (q : Statement) (s : Faulty) :
    (executeFaulty q s).1.1 = s.1 ∧ (∃ e, (executeFaulty q s).2 = .error e) ∨
      (executeFaulty q s).1.1 = (execute q s.1).1 ∧ (executeFaulty q s).2 = (execute q s.1).2 := by
  obtain ⟨t, faults⟩ := s
  rcases faults with _ | ⟨_ | error, later⟩
  · exact Or.inr ⟨rfl, rfl⟩
  · exact Or.inr ⟨rfl, rfl⟩
  · exact Or.inl ⟨rfl, error, rfl⟩

theorem read_keeps {q : Statement} (reads : Reads q) (s : Faulty) :
    (executeFaulty q s).1.1 = s.1 := by
  rcases faulty_cases q s with ⟨kept, -⟩ | ⟨executed, -⟩
  · exact kept
  · rw [executed]
    cases q <;> first | rfl | exact reads.elim

theorem refused_insert_keeps {id : Nat} {toClient source content : Bytes} {type : Nat} {s : Faulty}
    {e : DatabaseError}
    (refused : (executeFaulty (.insertMessage id toClient source type content) s).2 = .error e) :
    (executeFaulty (.insertMessage id toClient source type content) s).1.1 = s.1 := by
  rcases faulty_cases (.insertMessage id toClient source type content) s with
    ⟨kept, -⟩ | ⟨executed, answer⟩
  · exact kept
  · rw [answer] at refused
    rw [executed]
    simp only [execute] at refused ⊢
    split
    · rfl
    · rename_i fresh
      rw [if_neg fresh] at refused
      cases refused

theorem reads_keep {p : Sql ServerResponse} (reads : p.Issues Reads) (t : Tables)
    (faults : List (Option DatabaseError)) :
    (run executeFaulty p (t, faults)).1.1 = t := by
  have step : ∀ q (s : Faulty), Reads q → s.1 = t → (executeFaulty q s).1.1 = t := by
    intro q s quiet before
    rw [read_keeps quiet, before]
  exact run_keeps executeFaulty step reads rfl

/-! The handlers. -/

section Handlers
variable (t : Tables) (faults : List (Option DatabaseError))

theorem register_leaves (uuid : ClientId) (paramsRaw : Bytes) :
    LeavesStore t (run executeFaulty (registerUser uuid paramsRaw) (t, faults)).1.1
      (run executeFaulty (registerUser uuid paramsRaw) (t, faults)).2 := by
  cases asks : registrationName paramsRaw with
  | none =>
    rcases register_refused uuid asks with refused | raised
    · rw [refused]
      exact same_store t _
    · rw [raised]
      exact same_store t _
  | some name =>
    have checked := read_keeps (q := .selectClientByName name) trivial (t, faults)
    rw [register_program uuid asks, run_statement]
    generalize executeFaulty (.selectClientByName name) (t, faults) = out at checked ⊢
    obtain ⟨⟨after, later⟩, answer⟩ := out
    obtain rfl : after = t := checked
    cases answer with
    | error e => exact same_store after _
    | ok rows =>
      dsimp only
      split
      · exact same_store after _
      · unfold registerTail
        split
        · have success : codeSuccessfulRegistration ≠ codeError := by decide
          exact success_leaves success
        · exact same_store after _

theorem send_leaves (msgId : Nat) (paramsRaw source : Bytes) :
    LeavesStore t (run executeFaulty (sendMsg msgId paramsRaw source) (t, faults)).1.1
      (run executeFaulty (sendMsg msgId paramsRaw source) (t, faults)).2 := by
  by_cases enough : 21 ≤ paramsRaw.length
  · have checked := read_keeps (q := .selectClientById (paramsRaw.take 16)) trivial (t, faults)
    rw [send_program msgId source enough, run_statement]
    generalize executeFaulty (.selectClientById (paramsRaw.take 16)) (t, faults) = out at checked ⊢
    obtain ⟨⟨after, later⟩, answer⟩ := out
    obtain rfl : after = t := checked
    cases answer with
    | error e => exact same_store after _
    | ok rows =>
      dsimp only
      split
      · unfold sendTail
        split
        · rw [run_statement]
          cases inserted : (executeFaulty (.insertMessage msgId (paramsRaw.take 16) source
              (fromBigEndian (slice paramsRaw 16 17)) (paramsRaw.drop 21)) (after, later)).2 with
          | error e =>
            have kept := refused_insert_keeps inserted
            simp only [run_done, kept]
            exact same_store after _
          | ok inserted_row =>
            have success : codeMsgSent ≠ codeError := by decide
            exact success_leaves success
        · exact same_store after _
      · exact same_store after _
  · rw [send_refused msgId source (by omega)]
    exact same_store t _

/-- What a fetch answers does not depend on whether its DELETEs succeed. -/
theorem fetch_loop_answer {rows : List MessageRow} (packs : ∀ m ∈ rows, Packs m)
    (payload : Bytes) (s : Faulty) :
    (run executeFaulty (fetchLoop rows payload) s).2 =
      (ServerResponse.ofCode codeMsgFetch).build (payload ++ rows.flatMap fetchRecord) := by
  induction rows generalizing payload s with
  | nil =>
    rw [fetchLoop, List.flatMap_nil, List.append_nil]
    cases (ServerResponse.ofCode codeMsgFetch).build payload <;> rfl
  | cons m rest ih =>
    have tail_packs : ∀ x ∈ rest, Packs x := fun x hx => packs x (List.mem_cons_of_mem m hx)
    rw [fetch_loop_cons (packs m List.mem_cons_self), run_statement, ih tail_packs,
      List.flatMap_cons, List.append_assoc]

end Handlers

theorem fetch_leaves {t : Tables} (sound : StoreSound t) {source : Bytes}
    (packs : ((t.mailbox source).map fun m => 25 + m.content.length).sum < 2 ^ 32)
    (faults : List (Option DatabaseError)) :
    LeavesStore t (run executeFaulty (fetchMessages source) (t, faults)).1.1
      (run executeFaulty (fetchMessages source) (t, faults)).2 := by
  have success : codeMsgFetch ≠ codeError := by decide
  rw [fetch_program, run_statement]
  rcases faulty_cases (.selectMessages source) (t, faults) with ⟨-, e, answer⟩ | ⟨-, answer⟩
  · rw [answer, fetch_loop_answer (by simp), List.nil_append, List.flatMap_nil,
      build_ok (by decide)]
    exact success_leaves success
  · have rows : (execute (.selectMessages source) t).2 = .ok (t.mailbox source) := rfl
    rw [← fetch_payload_length (mailbox_sound sound source)] at packs
    rw [answer, rows, fetch_loop_answer (mailbox_packs sound source), List.nil_append,
      build_ok packs]
    exact success_leaves success

theorem long_fetch_empties {t : Tables} (sound : StoreSound t) {source : Bytes}
    (long : 2 ^ 32 ≤ ((t.mailbox source).map fun m => 25 + m.content.length).sum) :
    ¬ LeavesStore t (run execute (fetchMessages source) t).1
      (run execute (fetchMessages source) t).2 := by
  rw [run_fetch sound.keyed (mailbox_packs sound source),
    build_too_long (by rwa [fetch_payload_length (mailbox_sound sound source)])]
  intro leaves
  have kept := (leaves trivial).2
  have nothing : t.mailbox source = [] := by
    unfold Tables.mailbox
    rw [List.filter_eq_nil_iff]
    intro m stored addressed
    rw [← kept] at stored
    have other := of_decide_eq_true (List.mem_filter.mp stored).2
    exact other (of_decide_eq_true addressed)
  rw [nothing] at long
  exact absurd long (by decide)

theorem faulty_leaves {t : Tables} (sound : StoreSound t) (draws : Draws) (request : ServerRequest)
    (packs : MailboxPacks t request) (faults : List (Option DatabaseError)) :
    LeavesStore t (run executeFaulty (handle draws request) (t, faults)).1.1
      (run executeFaulty (handle draws request) (t, faults)).2 := by
  rcases handled_code_cases request with
    unsupported | register | list | send | fetch | pubkey
  · rw [handle_unsupported draws unsupported]
    exact same_store t _
  · rw [handle_register draws register]
    exact register_leaves t faults _ _
  · rw [handle_list draws list, reads_keep (list_issues _ trivial)]
    exact same_store t _
  · rw [handle_send draws send]
    exact send_leaves t faults _ _ _
  · rw [handle_fetch draws fetch]
    exact fetch_leaves sound (packs fetch) faults
  · rw [handle_pubkey draws pubkey, reads_keep (pubkey_issues _ trivial)]
    exact same_store t _

/-- A failed request leaves the tables as they were just when no mailbox is fetched
    whose size does not pack; then it does so whichever statements fail. -/
theorem errors_leave_store_iff {t : Tables} (reached : ReachableTables t) (draws : Draws)
    (request : ServerRequest) :
    (LeavesStore t (run execute (handle draws request) t).1
        (run execute (handle draws request) t).2 ↔ MailboxPacks t request) ∧
      (MailboxPacks t request → ∀ faults,
        LeavesStore t (run executeFaulty (handle draws request) (t, faults)).1.1
          (run executeFaulty (handle draws request) (t, faults)).2) := by
  have sound := reachable_sound reached
  refine ⟨⟨?_, ?_⟩, faulty_leaves sound draws request⟩
  · intro leaves fetch
    by_contra long
    rw [handle_fetch draws fetch] at leaves
    exact long_fetch_empties sound (Nat.not_lt.mp long) leaves
  · intro packs
    have kept := faulty_leaves sound draws request packs []
    rwa [run_faultless] at kept

theorem refused_text_leaves :
    let owner : ClientId := ⟨List.replicate 16 1, rfl⟩
    let draws : Draws := ⟨owner, 9, by decide, by decide⟩
    let request := requestOf owner codeSendMsg
      (messagePayload (List.replicate 16 3) msgTypeSendTxtMsg [0x68, 0x69])
    ∃ t, ReachableTables t ∧ t.clients.map ClientRow.name = [[0x41], [0x42]] ∧
      (t.mailbox owner.bytes).map MessageRow.content = [[0x68, 0x69]] ∧
      Failed (run execute (handle draws request) t).2 ∧
      LeavesStore t (run execute (handle draws request) t).1
        (run execute (handle draws request) t).2 := by
  intro owner draws request
  let other : ClientId := ⟨List.replicate 16 2, rfl⟩
  obtain ⟨history, stored⟩ := other_registered owner (show other.bytes ≠ owner.bytes by decide)
    [(msgTypeSendTxtMsg, [0x68, 0x69])] (by decide) (by decide)
  have reached : ReachableTables _ := .sequential (restricted_reachable stored)
  let t : Tables := ⟨[ownRow owner, otherRow other], ownRows owner [(msgTypeSendTxtMsg,
    [0x68, 0x69])], 1⟩
  have unknown : ¬ MessageAccepted t draws.msgId request.payload := by
    rw [request_payload]
    exact fun accepted => absurd accepted.2.1 (by decide)
  have refused : Failed (run execute (handle draws request) t).2 := by
    rw [handle_send draws rfl, run_send_refused _ unknown]
    exact rfl
  exact ⟨t, reached, rfl, rfl, refused,
    (errors_leave_store_iff reached draws request).1.mpr fun fetch => absurd fetch (by decide)⟩

theorem own_mailbox_size (owner : ClientId) (sent : List (Nat × Bytes)) :
    ((ownRows owner sent).map fun m => 25 + m.content.length).sum =
      (sent.map fun x => 25 + x.2.length).sum := by
  induction sent using List.reverseRecOn with
  | nil => rfl
  | append_singleton sent message ih =>
    obtain ⟨type, content⟩ := message
    rw [own_rows_snoc, List.map_append, List.sum_append, ih, List.map_append, List.sum_append]
    rfl

/-- Five texts of 900000000 bytes each: the fetch deletes them all, and then the
    size of its payload does not fit the header. -/
theorem long_mailbox_lost :
    let owner : ClientId := ⟨List.replicate 16 1, rfl⟩
    let draws : Draws := ⟨owner, 1, by decide, by decide⟩
    let request := requestOf owner codeFetchMessages []
    ∃ s, Reachable (sequential.restrict Decoded) s ∧ ReachableTables s.tables ∧
      Decoded s ⟨draws, request⟩ ∧
      ¬ LeavesStore s.tables (run execute (handle draws request) s.tables).1
        (run execute (handle draws request) s.tables).2 := by
  intro owner draws request
  have decoded : ∀ s, Decoded s ⟨draws, request⟩ := fun s =>
    request_decoded s draws owner (by decide) (by decide)
  obtain ⟨text, size⟩ : ∃ text : Bytes, text.length = 900000000 :=
    ⟨List.replicate 900000000 0x61, List.length_replicate⟩
  have fit : ∀ x ∈ List.replicate 5 (msgTypeSendTxtMsg, text),
      x.1 ∈ supportedMsgTypes ∧ x.2.length ≤ 0x7fffffff - 44 := by
    intro x hx
    rw [List.eq_of_mem_replicate hx]
    show msgTypeSendTxtMsg ∈ supportedMsgTypes ∧ text.length ≤ 0x7fffffff - 44
    exact ⟨by decide, by omega⟩
  obtain ⟨history, reached⟩ := own_messages_stored owner _ fit (by simp)
  have served := ReachableTables.sequential (restricted_reachable reached)
  refine ⟨_, reached, served, decoded _, ?_⟩
  rw [handle_fetch draws rfl]
  apply long_fetch_empties (reachable_sound served)
  show 2 ^ 32 ≤ ((Tables.mailbox _ owner.bytes).map fun m => 25 + m.content.length).sum
  rw [own_mailbox, own_mailbox_size]
  simp [size]

end ErrorEffects
