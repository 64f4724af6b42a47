import MessageU.ClientMenu
import MessageU.EndingRuns

/- Whether Client::start ends. The loops that receive end with every server. The loops of
   the terminal do not look at the state of the input, and one of them is never left if no
   line that is still to come is legal for it. -/
namespace ClientEnding
open ByteFields SegmentedStream RequestFormat ResponseFormat ClientReception ClientCredentials
open ClientOperations ReceiveBuffers TextLimits ClientMenu EndingRuns

def Ended (s : Session) : Prop := s.point.ended = true

/-- A loop of the terminal that holds an illegal line, behind the end of the input. -/
def Stuck (s : Session) : Prop :=
  ∃ question line, s.point = .asking question line ∧ s.stdin.eof = true ∧
    question.refuses line = true

/-! What a loop of the terminal can still read. -/

def linesLeft (stdin : Stdin) (line : Bytes) : List Bytes :=
  if stdin.eof then [line] else stdin.text.splitOn newline

def Answerable (question : Question) (line : Bytes) (stdin : Stdin) : Prop :=
  ∃ answer ∈ linesLeft stdin line, question.refuses answer = false

theorem lines_left {stdin : Stdin} (more : stdin.eof = false) (line : Bytes) :
    linesLeft stdin line = if (stdin.getline line).2.eof then [(stdin.getline line).1]
      else (stdin.getline line).1 :: linesLeft (stdin.getline line).2 (stdin.getline line).1 := by
  rw [line_read more]
  by_cases ended : newline ∈ stdin.text
  · obtain ⟨first, rest, split, one_line⟩ := List.eq_append_cons_of_mem ended
    obtain ⟨taken, dropped⟩ := line_taken one_line rest
    have lines : (first ++ newline :: rest).splitOn newline = first :: rest.splitOn newline :=
      List.splitOn_append_cons_self_of_not_mem one_line rest
    simp [linesLeft, more, split, taken, dropped, lines]
  · have free : ∀ b ∈ stdin.text, (b != newline) = true := by
      intro b there
      simpa using fun same : b = newline => ended (same ▸ there)
    have whole : stdin.text.takeWhile (· != newline) = stdin.text :=
      List.takeWhile_eq_self_iff.mpr free
    simp [linesLeft, more, ended, whole, List.splitOn_eq_singleton]

theorem behind_end {stdin : Stdin} (past : stdin.eof = true) (question : Question)
    (line : Bytes) : Answerable question line stdin ↔ question.refuses line = false := by
  have held : linesLeft stdin line = [line] := if_pos past
  unfold Answerable
  rw [held]
  simp only [List.mem_singleton, exists_eq_left]

theorem asked_again {stdin : Stdin} (more : stdin.eof = false) (question : Question)
    (line : Bytes) :
    Answerable question line stdin ↔ question.refuses (stdin.getline line).1 = false ∨
      Answerable question (stdin.getline line).1 (stdin.getline line).2 := by
  by_cases last : (stdin.getline line).2.eof = true
  · rw [behind_end last, or_self]
    unfold Answerable
    rw [lines_left more line, if_pos last]
    simp only [List.mem_singleton, exists_eq_left]
  · unfold Answerable
    rw [lines_left more line, if_neg last]
    simp only [List.mem_cons, exists_eq_or_imp]

/-- The loop of get_txt_msg ends just when one of the lines is legal. -/
theorem text_answerable (destination line : Bytes) (stdin : Stdin) :
    (∃ text, Terminal.getTxtMsg line stdin = some text) ↔
      Answerable (.txtMsg destination) line stdin := by
  fun_induction Terminal.getTxtMsg line stdin with
  | case1 line stdin read long past =>
    have held : read.1 = line := by simp [read, Stdin.getline, past]
    rw [behind_end past, ← held]
    simp [Question.refuses, long]
  | case2 line stdin read long running ih =>
    have more : stdin.eof = false := by simpa using running
    rw [ih, asked_again more]
    simp [Question.refuses, read, long]
  | case3 line stdin read short =>
    have legal : (Question.txtMsg destination).refuses read.1 = false := decide_eq_false short
    refine iff_of_true ⟨_, rfl⟩ ?_
    by_cases past : stdin.eof = true
    · have held : read.1 = line := by simp [read, Stdin.getline, past]
      rw [behind_end past, ← held]
      exact legal
    · have more : stdin.eof = false := by simpa using past
      exact (asked_again more _ line).mpr (Or.inl legal)

/-! What the operations lead to. -/

theorem performed_ends (v : Visit) (c : Client) (op : Operation) :
    (v.performed c op).2 = .menu ∨ ∃ e, (v.performed c op).2 = .threw e := by
  unfold Visit.performed
  dsimp only
  split
  · exact Or.inr ⟨_, rfl⟩
  · by_cases error : v.unset.code = codeError
    · exact Or.inl (if_pos error)
    · rw [if_neg error]
      split
      · exact Or.inr ⟨_, rfl⟩
      · exact Or.inl rfl
  · exact Or.inl rfl

theorem headed_ends (v : Visit) (name : String) (requestCode : Nat) (clientId : Bytes)
    (loop : Nat → Outcomes → Point) :
    v.headed name requestCode clientId loop = .menu ∨
      (∃ e, v.headed name requestCode clientId loop = .threw e) ∨
      ∃ size server, v.headed name requestCode clientId loop = loop size server := by
  unfold Visit.headed
  dsimp only
  split
  · exact Or.inr (Or.inr ⟨_, _, rfl⟩)
  · exact Or.inr (Or.inl ⟨_, rfl⟩)
  · split
    · exact Or.inl rfl
    · split
      · exact Or.inl rfl
      · exact Or.inr (Or.inr ⟨_, _, rfl⟩)
  · exact Or.inl rfl

theorem answer_leads (v : Visit) (c : Client) {question : Question} (answer : Bytes)
    (no_number : question ≠ .operationNum) :
    (v.answered c question answer).2 = .menu ∨
      (∃ e, (v.answered c question answer).2 = .threw e) ∨
      question = .destinationName .sendText ∧
        (v.answered c question answer).2 = .asking (.txtMsg answer) [] := by
  have ends (op : Operation) := (performed_ends v c op).imp_right
    (Or.inl (b := question = .destinationName .sendText ∧
      (v.performed c op).2 = .asking (.txtMsg answer) []))
  cases question with
  | operationNum => exact absurd rfl no_number
  | clientName => exact ends (.register answer)
  | txtMsg destination => exact ends (.sendText destination answer)
  | destinationName op =>
    cases op with
    | getPublicKey => exact ends (.getPublicKey answer)
    | getSymmKey => exact ends (.getSymmKey answer)
    | sendSymKey => exact ends (.sendSymKey answer)
    | sendText =>
      rw [Visit.answered]
      by_cases unknown : (Client.getContactIdByName c.contacts answer).length ≠ fieldClientIdSize
      · rw [if_pos unknown]
        exact Or.inl rfl
      · rw [if_neg unknown]
        exact Or.inr (Or.inr ⟨rfl, rfl⟩)

/-! The rank. -/

def inputLeft (stdin : Stdin) : Nat := if stdin.eof then 0 else stdin.text.length + 1

/-- How far it is to the next operation number. -/
def ahead : Point → Nat
  | .returned => 0
  | .threw _ => 0
  | .asking .operationNum _ => 1
  | .menu => 2
  | .listing _ _ _ _ => 3
  | .fetching _ _ _ _ => 3
  | .asking (.txtMsg _) _ => 4
  | .asking .clientName _ => 5
  | .asking (.destinationName _) _ => 5

def turnsLeft : Point → Nat
  | .listing payloadSize received _ _ => payloadSize - received + 1
  | .fetching msgsDataSize received _ _ => msgsDataSize - received + 1
  | _ => 0

def rank (s : Session) : Nat ×ₗ Nat ×ₗ Nat :=
  toLex (inputLeft s.stdin, toLex (ahead s.point, turnsLeft s.point))

theorem receives_cases {point : Point} (receives : point.receives = true) :
    (∃ payloadSize received respData server,
        point = .listing payloadSize received respData server) ∨
      ∃ msgsDataSize received buffer server,
        point = .fetching msgsDataSize received buffer server := by
  cases point with
  | listing payloadSize received respData server => exact Or.inl ⟨_, _, _, _, rfl⟩
  | fetching msgsDataSize received buffer server => exact Or.inr ⟨_, _, _, _, rfl⟩
  | menu => cases receives
  | asking question line => cases receives
  | returned => cases receives
  | threw e => cases receives

theorem receives_ahead {point : Point} (receives : point.receives = true) :
    ahead point = 3 ∧ 0 < turnsLeft point := by
  rcases receives_cases receives with ⟨size, received, data, server, rfl⟩ |
    ⟨size, received, buffer, server, rfl⟩
  · exact ⟨rfl, Nat.succ_pos _⟩
  · exact ⟨rfl, Nat.succ_pos _⟩

theorem answer_ahead (v : Visit) (c : Client) {question : Question} (line answer : Bytes)
    (no_number : question ≠ .operationNum) :
    ahead (v.answered c question answer).2 < ahead (.asking question line) := by
  have behind_menu : 2 < ahead (.asking question line) := by
    cases question with
    | operationNum => exact absurd rfl no_number
    | clientName => exact (by decide : 2 < 5)
    | destinationName op => exact (by decide : 2 < 5)
    | txtMsg destination => exact (by decide : 2 < 4)
  rcases answer_leads v c answer no_number with menu | ⟨e, threw⟩ | ⟨text, asks⟩
  · rw [menu]
    exact behind_menu
  · rw [threw]
    exact Nat.zero_lt_of_lt behind_menu
  · rw [asks, text]
    exact (by decide : 4 < 5)

/-! The number is asked for in the menu only, with an empty line. -/

theorem headed_asks_nothing (v : Visit) (name : String) (requestCode : Nat) (clientId : Bytes)
    {loop : Nat → Outcomes → Point} (question : Question) (line : Bytes)
    (loops : ∀ size server, loop size server ≠ .asking question line) :
    v.headed name requestCode clientId loop ≠ .asking question line := by
  intro asks
  rcases headed_ends v name requestCode clientId loop with menu | ⟨e, threw⟩ | ⟨size, server, run⟩
  · cases menu.symm.trans asks
  · cases threw.symm.trans asks
  · exact loops size server (run.symm.trans asks)

theorem created_asks_no_number (v : Visit) (c : Client) (opNum : Nat) (line : Bytes) :
    v.createOperation c opNum ≠ .asking .operationNum line := by
  unfold Visit.createOperation
  split_ifs
  · rintro ⟨⟩
  · rintro ⟨⟩
  · exact headed_asks_nothing _ _ _ _ _ _ (by rintro _ _ ⟨⟩)
  · rintro ⟨⟩
  · rintro ⟨⟩
  · rintro ⟨⟩
  · rintro ⟨⟩
  · exact headed_asks_nothing _ _ _ _ _ _ (by rintro _ _ ⟨⟩)
  · rintro ⟨⟩

theorem answer_asks_no_number (v : Visit) (c : Client) (question : Question)
    (answer line : Bytes) : (v.answered c question answer).2 ≠ .asking .operationNum line := by
  by_cases number : question = .operationNum
  · subst number
    rw [Visit.answered]
    split_ifs
    · rintro ⟨⟩
    · exact created_asks_no_number v c _ line
  · intro asks
    rcases answer_leads v c answer number with menu | ⟨e, threw⟩ | ⟨-, text⟩
    · cases menu.symm.trans asks
    · cases threw.symm.trans asks
    · cases text.symm.trans asks

/-! What a step does. -/

theorem point_cases (s : Session) : s.point = .menu ∨
    (∃ question line, s.point = .asking question line) ∨ s.point.receives = true ∨
      Ended s := by
  unfold Ended
  cases s.point with
  | menu => exact Or.inl rfl
  | asking question line => exact Or.inr (Or.inl ⟨question, line, rfl⟩)
  | listing payloadSize received respData server => exact Or.inr (Or.inr (Or.inl rfl))
  | fetching msgsDataSize received buffer server => exact Or.inr (Or.inr (Or.inl rfl))
  | returned => exact Or.inr (Or.inr (Or.inr rfl))
  | threw e => exact Or.inr (Or.inr (Or.inr rfl))

theorem menu_step {s : Session} (menu : s.point = .menu) :
    (step s).stdin = s.stdin ∧
      ((∃ e, (step s).point = .threw e) ∨ (step s).point = .asking .operationNum []) := by
  unfold step
  rw [menu]
  refine ⟨rfl, ?_⟩
  dsimp only
  split_ifs
  · exact Or.inl ⟨_, rfl⟩
  · exact Or.inl ⟨_, rfl⟩
  · exact Or.inr rfl

theorem asking_step {s : Session} {question : Question} {line : Bytes}
    (asks : s.point = .asking question line) :
    (step s).stdin = (s.stdin.getline line).2 ∧
      (step s).point =
        if question.refuses (s.stdin.getline line).1 then .asking question (s.stdin.getline line).1
        else (s.visit.answered s.client question (s.stdin.getline line).1).2 := by
  simp only [step, asks]
  split_ifs
  · exact ⟨rfl, rfl⟩
  · exact ⟨rfl, rfl⟩

section Turns
variable {Server : Type} {recvFrom : Nat → Server → Arrival × Server} {received next : Nat}

theorem list_turn_grows {respData data : Bytes} {server rest : Server}
    (turned : ListUserOperation.turn recvFrom received respData server =
      (.ok (next, data), rest)) : received < next := by
  unfold ListUserOperation.turn at turned
  split at turned
  · cases turned
  · split at turned
    · cases turned
    · cases turned
      omega

theorem fetch_turn_grows {buffer after : Bytes} {server rest : Server} {msg : Message}
    (turned : FetchMsgOperation.turn recvFrom received buffer server =
      (.ok (msg, next, after), rest)) : received < next := by
  unfold FetchMsgOperation.turn at turned
  split at turned
  · cases turned
  · dsimp only at turned
    split_ifs at turned with nothing big full
    · cases turned
    · cases turned
    · split at turned
      · cases turned
      · split_ifs at turned with empty
        · cases turned
        · split at turned
          · cases turned
          · cases turned
            omega
    · split at turned
      · cases turned
      · cases turned
        omega

end Turns

theorem receiving_step {s : Session} (receives : s.point.receives = true) :
    (step s).stdin = s.stdin ∧
      ((step s).point = .menu ∨ (∃ e, (step s).point = .threw e) ∨
        ahead (step s).point = ahead s.point ∧
          turnsLeft (step s).point < turnsLeft s.point) := by
  unfold step
  rcases receives_cases receives with ⟨payloadSize, received, respData, server, here⟩ |
    ⟨msgsDataSize, received, buffer, server, here⟩
  · rw [here]
    dsimp only
    by_cases more : received < payloadSize
    · rw [if_pos more]
      cases turned : ListUserOperation.turn recvOutcome received respData server with
      | mk result rest =>
        cases result with
        | error e => exact ⟨rfl, Or.inr (Or.inl ⟨e, rfl⟩)⟩
        | ok turn =>
          obtain ⟨next, data⟩ := turn
          have grows := list_turn_grows turned
          refine ⟨rfl, Or.inr (Or.inr ⟨rfl, ?_⟩)⟩
          show payloadSize - next + 1 < payloadSize - received + 1
          omega
    · rw [if_neg more]
      exact ⟨rfl, Or.inl rfl⟩
  · rw [here]
    dsimp only
    by_cases more : received < msgsDataSize
    · rw [if_pos more]
      cases turned : FetchMsgOperation.turn recvOutcome received buffer server with
      | mk result rest =>
        cases result with
        | error e => exact ⟨rfl, Or.inr (Or.inl ⟨e, rfl⟩)⟩
        | ok turn =>
          obtain ⟨msg, next, after⟩ := turn
          have grows := fetch_turn_grows turned
          refine ⟨rfl, Or.inr (Or.inr ⟨rfl, ?_⟩)⟩
          show msgsDataSize - next + 1 < msgsDataSize - received + 1
          omega
    · rw [if_neg more]
      exact ⟨rfl, Or.inl rfl⟩

theorem ended_step {s : Session} (ended : Ended s) : step s = s := by
  unfold Ended at ended
  unfold step
  cases here : s.point with
  | returned => rfl
  | threw e => rfl
  | menu => rw [here] at ended; cases ended
  | asking question line => rw [here] at ended; cases ended
  | listing payloadSize received respData server => rw [here] at ended; cases ended
  | fetching msgsDataSize received buffer server => rw [here] at ended; cases ended

theorem stuck_step {s : Session} (stuck : Stuck s) : step s = s := by
  obtain ⟨question, line, asks, past, refused⟩ := stuck
  have held : s.stdin.getline line = (line, s.stdin) := if_pos past
  unfold step
  rw [asks]
  dsimp only
  rw [held, if_pos refused, ← asks]

theorem stuck_running (s : Session) (stuck : Stuck s) : ¬ Ended s := by
  obtain ⟨question, line, asks, -⟩ := stuck
  unfold Ended
  rw [asks]
  exact Bool.false_ne_true

def AsksAfresh (s : Session) : Prop :=
  ∀ line, s.point = .asking .operationNum line → Question.operationNum.refuses line = true

theorem step_asks_afresh (s : Session) (afresh : AsksAfresh s) : AsksAfresh (step s) := by
  intro line asks
  rcases point_cases s with menu | ⟨question, held, here⟩ | receives | ended
  · rcases (menu_step menu).2 with ⟨e, threw⟩ | asked
    · cases threw.symm.trans asks
    · cases asked.symm.trans asks
      rfl
  · have next := (asking_step here).2.symm.trans asks
    by_cases refused : question.refuses (s.stdin.getline held).1 = true
    · rw [if_pos refused] at next
      cases next
      exact refused
    · rw [if_neg refused] at next
      exact absurd next (answer_asks_no_number _ _ _ _ _)
  · rcases (receiving_step receives).2 with menu | ⟨e, threw⟩ | ⟨same, -⟩
    · cases menu.symm.trans asks
    · cases threw.symm.trans asks
    · rw [asks, (receives_ahead receives).1] at same
      cases same
  · rw [ended_step ended] at asks
    exact afresh line asks

/-! Every step but the stuck ones brings the rank down. -/

theorem input_falls {stdin : Stdin} (more : stdin.eof = false) (line : Bytes) :
    inputLeft (stdin.getline line).2 < inputLeft stdin := by
  unfold inputLeft
  rw [more]
  rcases line_shortens more line with ended | shorter
  · rw [if_pos ended]
    exact Nat.succ_pos _
  · simp only [Bool.false_eq_true, ↓reduceIte]
    split <;> omega

theorem rank_falls_by_point {s t : Session} (same_input : t.stdin = s.stdin)
    (falls : ahead t.point < ahead s.point ∨
      ahead t.point = ahead s.point ∧
        turnsLeft t.point < turnsLeft s.point) : rank t < rank s := by
  unfold rank
  rw [Prod.Lex.toLex_lt_toLex, Prod.Lex.toLex_lt_toLex, same_input]
  exact Or.inr ⟨rfl, falls⟩

theorem step_falls (s : Session) (afresh : AsksAfresh s) (running : ¬ Ended s)
    (free : ¬ Stuck s) : rank (step s) < rank s := by
  rcases point_cases s with menu | ⟨question, line, asks⟩ | receives | ended
  · obtain ⟨same_input, next⟩ := menu_step menu
    refine rank_falls_by_point same_input (Or.inl ?_)
    rw [menu]
    rcases next with ⟨e, threw⟩ | asked
    · rw [threw]
      exact (by decide : 0 < 2)
    · rw [asked]
      exact (by decide : 1 < 2)
  · obtain ⟨input, next⟩ := asking_step asks
    by_cases past : s.stdin.eof = true
    · have held : s.stdin.getline line = (line, s.stdin) := if_pos past
      rw [held] at input next
      have legal : ¬ question.refuses line = true := fun refused =>
        free ⟨question, line, asks, past, refused⟩
      have no_number : question ≠ .operationNum := by
        rintro rfl
        exact legal (afresh line asks)
      refine rank_falls_by_point input (Or.inl ?_)
      rw [next, asks, if_neg legal]
      exact answer_ahead s.visit s.client line line no_number
    · have less := input_falls (by simpa using past) line
      unfold rank
      rw [Prod.Lex.toLex_lt_toLex, input]
      exact Or.inl less
  · obtain ⟨same_input, next⟩ := receiving_step receives
    refine rank_falls_by_point same_input ?_
    rcases next with menu | ⟨e, threw⟩ | falls
    · left
      rw [menu, (receives_ahead receives).1]
      exact (by decide : 2 < 3)
    · left
      rw [threw, (receives_ahead receives).1]
      exact (by decide : 0 < 3)
    · exact Or.inr falls
  · exact absurd ended running

theorem client_ranked : Ranked step Ended Stuck AsksAfresh rank where
  kept := step_asks_afresh
  final_stays _ := ended_step
  stuck_stays _ := stuck_step
  apart := stuck_running
  falls := step_falls

/-! The condition in terms of the input. -/

theorem stuck_unanswerable {s : Session} (stuck : Stuck s) :
    ∃ question line, s.point = .asking question line ∧ ¬ Answerable question line s.stdin := by
  obtain ⟨question, line, asks, past, refused⟩ := stuck
  refine ⟨question, line, asks, ?_⟩
  rw [behind_end past, refused]
  exact Bool.false_ne_true.symm

theorem unanswerable_stuck {s : Session} {question : Question} {line : Bytes}
    (asks : s.point = .asking question line) (none_legal : ¬ Answerable question line s.stdin) :
    ∃ n, Stuck (step^[n] s) := by
  induction left : inputLeft s.stdin using Nat.strong_induction_on generalizing s line with
  | _ left ih =>
    subst left
    by_cases past : s.stdin.eof = true
    · have refused : question.refuses line = true := by
        simpa using fun legal => none_legal ((behind_end past question line).mpr legal)
      exact ⟨0, question, line, asks, past, refused⟩
    · have more : s.stdin.eof = false := by simpa using past
      obtain ⟨input, next⟩ := asking_step asks
      rw [asked_again more, not_or] at none_legal
      obtain ⟨refused, none_later⟩ := none_legal
      rw [if_pos (by simpa using refused)] at next
      rw [← input] at none_later
      have less : inputLeft (step s).stdin < inputLeft s.stdin := by
        rw [input]
        exact input_falls more line
      obtain ⟨n, stuck⟩ := ih _ less next none_later rfl
      exact ⟨n + 1, stuck⟩

theorem receiving_falls (s : Session) (receives : s.point.receives = true) :
    turnsLeft (step s).point < turnsLeft s.point := by
  have turns := (receives_ahead receives).2
  rcases (receiving_step receives).2 with menu | ⟨e, threw⟩ | ⟨-, falls⟩
  · rw [menu]
    exact turns
  · rw [threw]
    exact turns
  · exact falls

/-- Client::start ends if each loop of the terminal that it comes to can still read a legal
    line. The loops that receive are left with every server. -/
theorem client_ends_iff (c : Client) (stdin : Stdin) (visits : Nat → Visit) :
    (Ends step Ended (start c stdin visits) ↔
      ∀ n question line, (step^[n] (start c stdin visits)).point = .asking question line →
        Answerable question line (step^[n] (start c stdin visits)).stdin) ∧
    ∀ n, ∃ k, (step^[k] (step^[n] (start c stdin visits))).point.receives = false := by
  have afresh : AsksAfresh (start c stdin visits) := by rintro line ⟨⟩
  constructor
  · rw [client_ranked.ends_iff afresh]
    constructor
    · intro never n question line asks
      by_contra none_legal
      obtain ⟨k, stuck⟩ := unanswerable_stuck asks none_legal
      rw [← Function.iterate_add_apply] at stuck
      exact never _ stuck
    · intro answerable n stuck
      obtain ⟨question, line, asks, none_legal⟩ := stuck_unanswerable stuck
      exact none_legal (answerable n question line asks)
  · intro n
    obtain ⟨k, left⟩ := leaves step (fun s => s.point.receives = true)
      (fun s => turnsLeft s.point) receiving_falls (step^[n] (start c stdin visits))
    exact ⟨k, Bool.eq_false_of_not_eq_true left⟩

def newcomer : Client := ⟨[], List.replicate 16 1, [], [], none⟩

def quietVisit : Visit := ⟨true, true, false, false, 0, ⟨0, 0⟩, [], fun _ => .reset⟩

example : Ended (step^[2] (start newcomer ⟨[0x30, newline], false⟩ fun _ => quietVisit)) := rfl

theorem long_name_endless {name : Bytes} (one_line : newline ∉ name) (long : 255 < name.length) :
    ¬ Ends step Ended (start newcomer ⟨[0x31, 0x30, newline] ++ name, false⟩
      fun _ => quietVisit) := by
  have asks : (step^[2] (start newcomer ⟨[0x31, 0x30, newline] ++ name, false⟩
      fun _ => quietVisit)).point = .asking .clientName [] := rfl
  have refused : Question.clientName.refuses name = true := decide_eq_true long
  have none_legal : ¬ Answerable .clientName [] ⟨name, false⟩ := by
    unfold Answerable
    simp [linesLeft, List.splitOn_eq_singleton one_line, refused]
  obtain ⟨n, stuck⟩ := unanswerable_stuck asks none_legal
  rw [← Function.iterate_add_apply] at stuck
  exact client_ranked.stuck_endless stuck

/-- There is no end with no input, nor with a name of 256 bytes that no newline ends. -/
theorem end_of_input_endless :
    ¬ Ends step Ended (start newcomer ⟨[], false⟩ fun _ => quietVisit) ∧
      ¬ Ends step Ended (start newcomer
        ⟨[0x31, 0x30, newline] ++ List.replicate 256 0x61, false⟩ fun _ => quietVisit) := by
  constructor
  · have stuck : Stuck (step^[2] (start newcomer ⟨[], false⟩ fun _ => quietVisit)) :=
      ⟨.operationNum, [], rfl, rfl, rfl⟩
    exact client_ranked.stuck_endless stuck
  · refine long_name_endless ?_ ?_
    · intro there
      exact absurd (List.eq_of_mem_replicate there) (by decide)
    · rw [List.length_replicate]
      decide

end ClientEnding
