import MessageU.SegmentedStream
import MessageU.ServerRuns

/- One worker of the server on one connection. Reception is a function of the
   socket alone; only what follows it talks to the tables. How many reads were
   made, which header was accepted, what was handed to the handler and what was
   sent are all part of the result. -/
namespace ServerWorker
open ByteFields SegmentedStream StatementPrograms RequestFormat ServerTables ResponseFormat
open RequestHandling ServerRuns

def maxPacketSize : Nat := 512

structure WorkerRun where
  recvs : Nat
  header : Option Header
  handled : List ServerRequest
  sent : List Bytes
  raised : Option PyError
  deriving DecidableEq, Repr

def WorkerRun.reply (w : WorkerRun) : Except PyError ServerResponse → WorkerRun
  | .ok r => { w with sent := w.sent ++ [r.rawData] }
  | .error e => { w with raised := some e }

/-- The loop: how many reads it makes, and the bytes unless a read is reset. -/
def receivePayload (total messageSize : Nat) (payload : Bytes) (sock : Socket) :
    Nat × Option Bytes :=
  if messageSize < total then
    match recv maxPacketSize sock with
    | (.reset, _) => (1, none)
    | (.data data, rest) =>
      if data.length < maxPacketSize then (1, some (payload ++ data))
      else
        let (more, received) :=
          receivePayload total (messageSize + data.length) (payload ++ data) rest
        (more + 1, received)
  else (0, some payload)
termination_by total - messageSize
decreasing_by
  simp only [maxPacketSize] at *
  omega

/-- After the loop: no request if a read was reset or the sizes disagree. -/
def finishRequest (request : ServerRequest) (recvs : Nat) :
    Option Bytes → WorkerRun × Option ServerRequest
  | none => (⟨recvs, some request.header, [], [], none⟩, none)
  | some payload =>
    let w : WorkerRun := ⟨recvs, some request.header, [], [], none⟩
    let (request, payloadOk) := request.decodePayload payload
    if !payloadOk then (w.reply (getErrResponse.build []), none)
    else ({ w with handled := [request] }, some request)

def receiveRequest (sock : Socket) : WorkerRun × Option ServerRequest :=
  let w : WorkerRun := ⟨1, none, [], [], none⟩
  match recv headerSize sock with
  | (.reset, _) => (w, none)
  | (.data data, rest) =>
    if data.length = 0 then (w, none)
    else
      let (request, headerOk) := ServerRequest.fresh.decodeHeader data
      if !headerOk then (w.reply (getErrResponse.build []), none)
      else
        let (more, received) :=
          receivePayload (request.payloadSize + headerSize) data.length data rest
        finishRequest request (1 + more) received

/-- The response is built once to be printed and once more to be sent. -/
def WorkerRun.answer (w : WorkerRun) : Except PyError ServerResponse → WorkerRun
  | .error e => { w with raised := some e }
  | .ok resp =>
    match resp.build [] with
    | .error e => { w with raised := some e }
    | .ok printed => w.reply (printed.build [])

def workerHandleConnection (draws : Draws) (sock : Socket) : Sql WorkerRun := do
  let _ ← ClientManager.numberOfClients
  match receiveRequest sock with
  | (w, none) => pure w
  | (w, some request) =>
    let result ← (handle draws request).outcome
    pure (w.answer result)

def errorBytes : Bytes := responseHeader supportedVersion codeError 0

theorem error_reply (w : WorkerRun) :
    w.reply (getErrResponse.build []) = { w with sent := w.sent ++ [errorBytes] } := by
  rw [getErrResponse, build_ok (by decide)]
  simp only [WorkerRun.reply, List.length_nil, List.append_nil]
  rfl

/-! The loop. -/

theorem receive_payload_done {total messageSize : Nat} (payload : Bytes) (sock : Socket)
    (enough : total ≤ messageSize) : receivePayload total messageSize payload sock =
      (0, some payload) := by
  rw [receivePayload, if_neg (by omega)]

theorem receive_payload_reset {total messageSize : Nat} {payload : Bytes} {sock rest : Socket}
    (missing : messageSize < total) (read : recv 512 sock = (.reset, rest)) :
    receivePayload total messageSize payload sock = (1, none) := by
  rw [receivePayload, if_pos missing, maxPacketSize, read]

theorem receive_payload_short {total messageSize : Nat} {payload data : Bytes}
    {sock rest : Socket} (missing : messageSize < total)
    (read : recv 512 sock = (.data data, rest)) (short : data.length < 512) :
    receivePayload total messageSize payload sock = (1, some (payload ++ data)) := by
  rw [receivePayload, if_pos missing, maxPacketSize, read]
  exact if_pos short

theorem receive_payload_full {total messageSize : Nat} {payload data : Bytes}
    {sock rest : Socket} (missing : messageSize < total)
    (read : recv 512 sock = (.data data, rest)) (full : data.length = 512) :
    receivePayload total messageSize payload sock =
      ((receivePayload total (messageSize + 512) (payload ++ data) rest).1 + 1,
        (receivePayload total (messageSize + 512) (payload ++ data) rest).2) := by
  rw [receivePayload, if_pos missing, maxPacketSize, read]
  simp only [full, Nat.lt_irrefl, ↓reduceIte]

theorem receive_payload_sound (total messageSize : Nat) (payload : Bytes) (sock : Socket) :
    (receivePayload total messageSize payload sock).1 ≤ (total - messageSize + 511) / 512 ∧
      ∀ received, (receivePayload total messageSize payload sock).2 = some received →
        ∃ read, received = payload ++ read ∧ read <+: contents sock := by
  induction left : total - messageSize using Nat.strong_induction_on
    generalizing messageSize payload sock with
  | _ left_bytes ih =>
    by_cases missing : messageSize < total
    · rcases read : recv 512 sock with ⟨data | -, rest⟩
      · have bounded := recv_bounded read
        have front := recv_contents read
        by_cases short : data.length < 512
        · rw [receive_payload_short missing read short]
          refine ⟨by omega, ?_⟩
          rintro received ⟨⟩
          exact ⟨data, rfl, front ▸ List.prefix_append _ _⟩
        · have full : data.length = 512 := by omega
          obtain ⟨few, sound⟩ := ih (total - (messageSize + 512)) (by omega)
            (messageSize + 512) (payload ++ data) rest rfl
          rw [receive_payload_full missing read full]
          refine ⟨by omega, ?_⟩
          intro received answered
          obtain ⟨later, joined, ahead⟩ := sound received answered
          refine ⟨data ++ later, by rw [joined, List.append_assoc], ?_⟩
          rw [front]
          exact (List.prefix_append_right_inj data).mpr ahead
      · rw [receive_payload_reset missing read]
        exact ⟨by omega, fun received impossible => by cases impossible⟩
    · rw [receive_payload_done payload sock (by omega)]
      refine ⟨by omega, ?_⟩
      rintro received ⟨⟩
      exact ⟨[], by simp, List.nil_prefix⟩

/-! Reception as a whole. -/

theorem finish_accepted {request : ServerRequest} (recvs : Nat) {received : Bytes}
    (accepted : (request.decodePayload received).2 = true) :
    finishRequest request recvs (some received) =
      (⟨recvs, some request.header, [{ request with rawData := received }], [], none⟩,
        some { request with rawData := received }) := by
  have kept := decode_payload_keeps accepted
  simp only [finishRequest, accepted, kept, Bool.not_true, Bool.false_eq_true, ↓reduceIte]

theorem finish_refused {request : ServerRequest} (recvs : Nat) {received : Bytes}
    (refused : ¬ (request.decodePayload received).2 = true) :
    finishRequest request recvs (some received) =
      (⟨recvs, some request.header, [], [errorBytes], none⟩, none) := by
  simp only [finishRequest, refused, Bool.not_false, ↓reduceIte, error_reply, List.nil_append]

theorem receive_request_refused {sock rest : Socket} {data : Bytes}
    (read : recv 23 sock = (.data data, rest)) (refused : ¬ SupportedHeader data) :
    receiveRequest sock = (⟨1, none, [], if data.length = 0 then [] else [errorBytes], none⟩,
      none) := by
  have not_ok := (decode_header_accepts ServerRequest.fresh data).not.mpr refused
  rw [receiveRequest, headerSize, read]
  by_cases nothing : data.length = 0
  · simp only [nothing, ↓reduceIte]
  · simp only [nothing, ↓reduceIte, not_ok, Bool.not_false, error_reply, List.nil_append]

theorem receive_request_accepted {sock rest : Socket} {data : Bytes}
    (read : recv 23 sock = (.data data, rest)) (supported : SupportedHeader data) :
    data.length = 23 ∧ receiveRequest sock =
      finishRequest ⟨parseHeader data supported.1, []⟩
        (1 + (receivePayload ((parseHeader data supported.1).payloadSize + 23) 23 data rest).1)
        (receivePayload ((parseHeader data supported.1).payloadSize + 23) 23 data rest).2 := by
  have bounded := recv_bounded read
  have long : data.length = 23 := Nat.le_antisymm bounded supported.1
  have ok := (decode_header_accepts ServerRequest.fresh data).mpr supported
  have parsed := decode_header_parses ServerRequest.fresh supported.1
  refine ⟨long, ?_⟩
  rw [receiveRequest, headerSize, read]
  simp only [long, OfNat.ofNat_ne_zero, ↓reduceIte, ok, Bool.not_true, Bool.false_eq_true, parsed]
  rfl

structure Reception (sock : Socket) (out : WorkerRun × Option ServerRequest) : Prop where
  unheaded : out.1.header = none → out.1.recvs = 1
  bounded : ∀ h, out.1.header = some h → out.1.recvs ≤ 2 + h.payloadSize / 512
  decoded : ∀ h, out.1.header = some h →
    ServerRequest.fresh.decodeHeader ((contents sock).take 23) = (⟨h, []⟩, true)
  handled : out.1.handled = out.2.toList
  exact_payload : ∀ r, out.2 = some r → out.1.header = some r.header ∧
    r.payload = ((contents sock).drop 23).take r.payloadSize ∧ r.payload.length = r.payloadSize
  raised : out.1.raised = none
  sent : out.1.sent = [] ∨ out.2 = none ∧ out.1.sent = [errorBytes]

theorem reception_unheaded (sock : Socket) {sent : List Bytes}
    (few : sent = [] ∨ sent = [errorBytes]) :
    Reception sock (⟨1, none, [], sent, none⟩, none) where
  unheaded _ := rfl
  bounded h impossible := by cases impossible
  decoded h impossible := by cases impossible
  handled := rfl
  exact_payload r impossible := by cases impossible
  raised := rfl
  sent := few.imp_right fun error => ⟨rfl, error⟩

theorem reception_unhandled {sock : Socket} {header : Header} {recvs : Nat} {sent : List Bytes}
    (few_recvs : recvs ≤ 2 + header.payloadSize / 512)
    (read : ServerRequest.fresh.decodeHeader ((contents sock).take 23) = (⟨header, []⟩, true))
    (few : sent = [] ∨ sent = [errorBytes]) :
    Reception sock (⟨recvs, some header, [], sent, none⟩, none) where
  unheaded impossible := by cases impossible
  bounded h same := by cases same; exact few_recvs
  decoded h same := by cases same; exact read
  handled := rfl
  exact_payload r impossible := by cases impossible
  raised := rfl
  sent := few.imp_right fun error => ⟨rfl, error⟩

theorem finish_reception {sock : Socket} {header : Header} {recvs : Nat} {received : Option Bytes}
    (few_recvs : recvs ≤ 2 + header.payloadSize / 512)
    (read : ServerRequest.fresh.decodeHeader ((contents sock).take 23) = (⟨header, []⟩, true))
    (continued : ∀ payload, received = some payload →
      payload.drop 23 <+: (contents sock).drop 23) :
    Reception sock (finishRequest ⟨header, []⟩ recvs received) := by
  cases received with
  | none => exact reception_unhandled few_recvs read (Or.inl rfl)
  | some payload =>
    by_cases accepted : ((⟨header, []⟩ : ServerRequest).decodePayload payload).2 = true
    · obtain ⟨-, -, exact_size⟩ := (decode_payload_accepts _ _).mp accepted
      have size : (payload.drop 23).length = header.payloadSize := by
        rw [List.length_drop]
        exact exact_size
      rw [finish_accepted _ accepted]
      refine ⟨?_, ?_, ?_, rfl, ?_, rfl, Or.inl rfl⟩
      · rintro ⟨⟩
      · rintro h ⟨⟩
        exact few_recvs
      · rintro h ⟨⟩
        exact read
      · rintro r ⟨⟩
        have ahead := List.prefix_iff_eq_take.mp (continued payload rfl)
        rw [size] at ahead
        exact ⟨rfl, ahead, size⟩
    · rw [finish_refused _ accepted]
      exact reception_unhandled few_recvs read (Or.inr rfl)

theorem receive_request_sound (sock : Socket) : Reception sock (receiveRequest sock) := by
  rcases read : recv 23 sock with ⟨data | -, rest⟩
  · by_cases supported : SupportedHeader data
    · obtain ⟨long, whole⟩ := receive_request_accepted read supported
      have front := recv_contents read
      have taken : (contents sock).take 23 = data := by rw [front, List.take_left' long]
      have dropped : (contents sock).drop 23 = contents rest := by
        rw [front, List.drop_left' long]
      obtain ⟨few, sound⟩ := receive_payload_sound
        ((parseHeader data supported.1).payloadSize + 23) 23 data rest
      rw [whole]
      apply finish_reception
      · omega
      · rw [taken]
        exact Prod.ext (decode_header_parses _ supported.1)
          ((decode_header_accepts _ data).mpr supported)
      · intro payload received
        obtain ⟨later, joined, ahead⟩ := sound payload received
        rw [joined, List.drop_left' long, dropped]
        exact ahead
    · rw [receive_request_refused read supported]
      apply reception_unheaded
      split
      · exact Or.inl rfl
      · exact Or.inr rfl
  · rw [receiveRequest, headerSize, read]
    exact reception_unheaded sock (Or.inl rfl)

/-! The worker over the tables. -/

theorem answer_keeps (w : WorkerRun) (result : Except PyError ServerResponse) :
    (w.answer result).recvs = w.recvs ∧ (w.answer result).header = w.header ∧
      (w.answer result).handled = w.handled := by
  unfold WorkerRun.answer
  split
  · exact ⟨rfl, rfl, rfl⟩
  · split
    · exact ⟨rfl, rfl, rfl⟩
    · unfold WorkerRun.reply
      split <;> exact ⟨rfl, rfl, rfl⟩

theorem number_of_clients_program {α : Type} (next : Option Nat → Sql α) :
    (ClientManager.numberOfClients >>= next) = .statement .selectClients fun
      | .ok rows => next (some rows.length)
      | .error _ => next none :=
  same_answers (fun _ => rfl) fun _ => rfl

/-- The worker alone on a store that may fail: the first SELECT leaves the tables
    as they are, and everything else is the handler's doing. -/
theorem run_worker (draws : Draws) (sock : Socket) (t : Tables)
    (faults : List (Option DatabaseError)) :
    run executeFaulty (workerHandleConnection draws sock) (t, faults) =
      match receiveRequest sock with
      | (w, none) => ((t, faults.tail), .ok w)
      | (w, some request) =>
        ((run executeFaulty (handle draws request) (t, faults.tail)).1,
          .ok (w.answer (run executeFaulty (handle draws request) (t, faults.tail)).2)) := by
  have tables_kept : (executeFaulty .selectClients (t, faults)).1 = (t, faults.tail) := by
    rcases faults with _ | ⟨_ | error, later⟩ <;> rfl
  rw [workerHandleConnection, number_of_clients_program, run_statement, tables_kept]
  rcases receiveRequest sock with ⟨w, _ | request⟩ <;>
    cases (executeFaulty .selectClients (t, faults)).2 <;>
      simp only [pure_done, run_done, run_bind, run_outcome]

/-- Whatever the stream and the reads, and whichever statements fail. -/
theorem request_reception_sound (draws : Draws) (sock : Socket) (t : Tables)
    (faults : List (Option DatabaseError)) :
    ∃ w store, run executeFaulty (workerHandleConnection draws sock) (t, faults) =
        (store, .ok w) ∧
      (w.header = none → w.recvs = 1) ∧
      (∀ h, w.header = some h →
        ServerRequest.fresh.decodeHeader ((contents sock).take 23) = (⟨h, []⟩, true) ∧
          w.recvs ≤ 2 + h.payloadSize / 512) ∧
      w.handled.length ≤ 1 ∧
      (∀ r ∈ w.handled, SupportedHeader ((contents sock).take 23) ∧ w.header = some r.header ∧
        r.payload = ((contents sock).drop 23).take r.payloadSize ∧
          r.payload.length = r.payloadSize) ∧
      (w.handled = [] →
        store.1 = t ∧ w.raised = none ∧ (w.sent = [] ∨ w.sent = [errorBytes])) := by
  have sound := receive_request_sound sock
  rw [run_worker]
  generalize receiveRequest sock = out at sound ⊢
  rcases out with ⟨w, _ | request⟩
  · refine ⟨w, _, rfl, sound.unheaded, fun h headed => ⟨sound.decoded h headed,
      sound.bounded h headed⟩, ?_, ?_, fun _ => ⟨rfl, sound.raised, ?_⟩⟩
    · rw [sound.handled]
      exact Nat.zero_le 1
    · intro r handled
      rw [sound.handled] at handled
      cases handled
    · exact sound.sent.imp_right And.right
  · obtain ⟨recvs, header, handled⟩ := answer_keeps w
      (run executeFaulty (handle draws request) (t, faults.tail)).2
    have one : w.handled = [request] := sound.handled
    obtain ⟨headed, payload, size⟩ := sound.exact_payload request rfl
    have supported : SupportedHeader ((contents sock).take 23) :=
      (decode_header_accepts ServerRequest.fresh _).mp
        (congrArg Prod.snd (sound.decoded _ headed))
    refine ⟨_, _, rfl, ?_, ?_, ?_, ?_, ?_⟩
    · rw [header, recvs]
      exact sound.unheaded
    · rw [header, recvs]
      exact fun h here => ⟨sound.decoded h here, sound.bounded h here⟩
    · rw [handled, one]
      exact Nat.le_refl 1
    · rw [handled, one, header]
      intro r here
      rw [List.mem_singleton] at here
      subst here
      exact ⟨supported, headed, payload, size⟩
    · intro impossible
      rw [handled, one] at impossible
      cases impossible

theorem worker_handled (draws : Draws) (sock : Socket) (t : Tables)
    (faults : List (Option DatabaseError)) :
    ∃ w store, run executeFaulty (workerHandleConnection draws sock) (t, faults) =
      (store, .ok w) ∧ w.handled = (receiveRequest sock).2.toList := by
  have handled := (receive_request_sound sock).handled
  rw [run_worker]
  generalize receiveRequest sock = out at handled ⊢
  rcases out with ⟨w, _ | request⟩
  · exact ⟨w, _, rfl, handled⟩
  · exact ⟨_, _, rfl, (answer_keeps w _).2.2.trans handled⟩

end ServerWorker
