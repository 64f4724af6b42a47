import MessageU.ServerWorker

/- One request that arrives in pieces, each piece what one read returns. The loop
   takes a packet of fewer than 512 bytes for the last one, so the request is
   handled exactly when the header comes whole and every later piece but the last
   is a full packet. -/
namespace RequestFragments
open ByteFields SegmentedStream StatementPrograms RequestFormat ServerTables ResponseFormat
open RequestHandling ServerRuns ServerWorker

theorem receive_segment {c : Bytes} {rest : List Bytes} (something : c ≠ [])
    (small : c.length ≤ 512) (messageSize : Nat) (payload : Bytes) :
    (receivePayload (messageSize + (c :: rest).flatten.length) messageSize payload
      (segments (c :: rest))).2 =
        if c.length = 512 then
          (receivePayload (messageSize + 512 + rest.flatten.length) (messageSize + 512)
            (payload ++ c) (segments rest)).2
        else some (payload ++ c) := by
  have positive := List.length_pos_iff.mpr something
  have missing : messageSize < messageSize + (c :: rest).flatten.length := by
    simp only [List.flatten_cons, List.length_append]
    omega
  have read : recv 512 (segments (c :: rest)) = (.data c, segments rest) :=
    recv_segment small _
  by_cases packet : c.length = 512
  · rw [if_pos packet, receive_payload_full missing read packet]
    simp only [List.flatten_cons, List.length_append, packet, ← Nat.add_assoc]
  · rw [if_neg packet, receive_payload_short missing read (by omega)]

theorem receive_full_segments {later : List Bytes} (fits : ∀ c ∈ later, c ≠ [] ∧ c.length ≤ 512)
    (full : ∀ c ∈ later.dropLast, c.length = 512) (messageSize : Nat) (payload : Bytes) :
    (receivePayload (messageSize + later.flatten.length) messageSize payload
      (segments later)).2 = some (payload ++ later.flatten) := by
  induction later generalizing messageSize payload with
  | nil =>
    rw [receive_payload_done payload _ (by simp)]
    simp
  | cons c rest ih =>
    obtain ⟨something, small⟩ := fits c List.mem_cons_self
    rw [receive_segment something small]
    cases rest with
    | nil =>
      rw [show segments [] = [] from rfl, receive_payload_done _ _ (by simp)]
      simp
    | cons d more =>
      rw [List.dropLast_cons_of_ne_nil (List.cons_ne_nil d more)] at full
      have more_full : ∀ e ∈ (d :: more).dropLast, e.length = 512 :=
        fun e he => full e (List.mem_cons_of_mem c he)
      rw [if_pos (full c List.mem_cons_self),
        ih (fun e he => fits e (List.mem_cons_of_mem c he)) more_full, List.append_assoc]
      rfl

theorem receive_short_segment {later : List Bytes} (fits : ∀ c ∈ later, c ≠ [] ∧ c.length ≤ 512)
    (short : ¬ ∀ c ∈ later.dropLast, c.length = 512) (messageSize : Nat) (payload : Bytes) :
    ∃ received, (receivePayload (messageSize + later.flatten.length) messageSize payload
        (segments later)).2 = some received ∧
      received.length < payload.length + later.flatten.length := by
  induction later generalizing messageSize payload with
  | nil => exact absurd (by simp) short
  | cons c rest ih =>
    obtain ⟨something, small⟩ := fits c List.mem_cons_self
    have rest_fits : ∀ d ∈ rest, d ≠ [] ∧ d.length ≤ 512 :=
      fun d hd => fits d (List.mem_cons_of_mem c hd)
    rw [receive_segment something small, List.flatten_cons, List.length_append]
    cases rest with
    | nil => exact absurd (by simp) short
    | cons d more =>
      rw [List.dropLast_cons_of_ne_nil (List.cons_ne_nil d more)] at short
      by_cases packet : c.length = 512
      · have rest_short : ¬ ∀ e ∈ (d :: more).dropLast, e.length = 512 := by
          intro all_full
          apply short
          intro e he
          rcases List.mem_cons.mp he with rfl | later
          · exact packet
          · exact all_full e later
        obtain ⟨received, answered, fewer⟩ :=
          ih rest_fits rest_short (messageSize + 512) (payload ++ c)
        rw [if_pos packet]
        refine ⟨received, answered, ?_⟩
        rw [List.length_append] at fewer
        omega
      · have next_positive := List.length_pos_iff.mpr (rest_fits d List.mem_cons_self).1
        rw [if_neg packet]
        refine ⟨payload ++ c, rfl, ?_⟩
        simp only [List.flatten_cons, List.length_append]
        omega

theorem layout_split (clientId : Bytes) (version code size : Nat) (payload : Bytes) :
    layout clientId version code size payload =
      layout clientId version code size [] ++ payload := by
  simp only [layout, List.append_assoc, List.append_nil]

theorem header_piece {id : ClientId} {version code size : Nat} {payload first rest : Bytes}
    (joined : first ++ rest = layout id.bytes version code size payload)
    (header : first.length = 23) :
    first = layout id.bytes version code size [] ∧ rest = payload := by
  rw [layout_split] at joined
  exact List.append_inj joined (header.trans (layout_length _ _ _ _ [] id.size).symm)

section Fragments
variable {id : ClientId} {code : Nat} {payload first : Bytes} {later : List Bytes}
  (supported : code ∈ supportedCodes) (small : 23 + payload.length ≤ 0x7fffffff)
  (joined : first ++ later.flatten =
    layout id.bytes supportedVersion code payload.length payload)
  (first_fits : first.length ≤ 23) (later_fit : ∀ c ∈ later, c ≠ [] ∧ c.length ≤ 512)
include supported small joined first_fits

theorem header_piece_received (header : first.length = 23) :
    (receiveRequest (segments (first :: later))).2 =
      (finishRequest ⟨⟨id, supportedVersion, code, payload.length⟩, []⟩ 0
        (receivePayload (23 + later.flatten.length) 23 first (segments later)).2).2 := by
  obtain ⟨first_layout, rest⟩ := header_piece joined header
  have read : recv 23 (segments (first :: later)) = (.data first, segments later) :=
    recv_segment first_fits _
  have headed : SupportedHeader first := by
    rw [first_layout]
    exact layout_supported id [] supported (by omega)
  have parsed : parseHeader first headed.1 = ⟨id, supportedVersion, code, payload.length⟩ := by
    subst first_layout
    exact parse_layout id [] (by decide) (supported_code_bound supported) (by omega) _
  rw [(receive_request_accepted read headed).2, parsed, rest, Nat.add_comm 23]
  generalize receivePayload (payload.length + 23) 23 first (segments later) = loop
  obtain ⟨more, received⟩ := loop
  cases received with
  | none => rfl
  | some received =>
    simp only [finishRequest]
    split <;> rfl

include later_fit in
theorem full_pieces_received (header : first.length = 23)
    (full : ∀ c ∈ later.dropLast, c.length = 512) :
    (receiveRequest (segments (first :: later))).2 = some (requestOf id code payload) := by
  obtain ⟨-, rest⟩ := header_piece joined header
  have gathered := receive_full_segments later_fit full 23 first
  have accepted : ((⟨⟨id, supportedVersion, code, payload.length⟩, []⟩ :
      ServerRequest).decodePayload (first ++ payload)).2 = true := by
    rw [decode_payload_accepts, List.length_append, header]
    exact ⟨by omega, small, Nat.add_sub_cancel_left ..⟩
  rw [header_piece_received supported small joined first_fits header, gathered, rest,
    finish_accepted _ accepted]
  rw [rest] at joined
  simp only [requestOf, joined]

include later_fit in
theorem fragments_received_iff :
    (∃ r, (receiveRequest (segments (first :: later))).2 = some r ∧ r.clientId = id ∧
        r.requestCode = code ∧ r.payload = payload) ↔
      first.length = 23 ∧ ∀ c ∈ later.dropLast, c.length = 512 := by
  constructor
  · rintro ⟨r, received, -⟩
    have header : first.length = 23 := by
      by_contra short
      have read : recv 23 (segments (first :: later)) = (.data first, segments later) :=
        recv_segment first_fits _
      have unheaded : ¬ SupportedHeader first := fun headed =>
        short (Nat.le_antisymm first_fits headed.1)
      rw [receive_request_refused read unheaded] at received
      cases received
    refine ⟨header, ?_⟩
    by_contra short
    obtain ⟨-, rest⟩ := header_piece joined header
    obtain ⟨gathered, answered, fewer⟩ := receive_short_segment later_fit short 23 first
    have refused : ¬ ((⟨⟨id, supportedVersion, code, payload.length⟩, []⟩ :
        ServerRequest).decodePayload gathered).2 = true := by
      rw [decode_payload_accepts]
      rintro ⟨enough, -, exact_size⟩
      rw [rest] at fewer
      simp only at exact_size
      omega
    rw [header_piece_received supported small joined first_fits header, answered,
      finish_refused _ refused] at received
    cases received
  · rintro ⟨header, full⟩
    exact ⟨_, full_pieces_received supported small joined first_fits later_fit header full, rfl,
      rfl, request_payload id code payload⟩

end Fragments

/-- The worker hands on the request it received. -/
theorem handled_iff_received (draws : Draws) (sock : Socket) (t : Tables)
    (faults : List (Option DatabaseError)) (wanted : ServerRequest → Prop) :
    (∃ w store r, run executeFaulty (workerHandleConnection draws sock) (t, faults) =
        (store, .ok w) ∧ w.handled = [r] ∧ wanted r) ↔
      ∃ r, (receiveRequest sock).2 = some r ∧ wanted r := by
  obtain ⟨w, store, ended, handled⟩ := worker_handled draws sock t faults
  rw [ended]
  constructor
  · rintro ⟨_, _, r, ⟨rfl, rfl⟩, one, as_wanted⟩
    rw [one] at handled
    exact ⟨r, Option.toList_eq_singleton_iff.mp handled.symm, as_wanted⟩
  · rintro ⟨r, received, as_wanted⟩
    rw [received] at handled
    exact ⟨w, store, r, rfl, handled, as_wanted⟩

/-- The worker hands on what the client built just when the pieces are right. -/
theorem fragments_handled_iff (draws : Draws) (t : Tables) (faults : List (Option DatabaseError))
    (id : ClientId) {code : Nat} {payload raw first : Bytes} {later : List Bytes}
    (supported : code ∈ supportedCodes) (small : 23 + payload.length ≤ 0x7fffffff)
    (build : freshBuild id.bytes code payload = .ok raw) (joined : first ++ later.flatten = raw)
    (first_fits : first ≠ [] ∧ first.length ≤ 23)
    (later_fit : ∀ c ∈ later, c ≠ [] ∧ c.length ≤ 512) :
    (∃ w store r, run executeFaulty (workerHandleConnection draws (segments (first :: later)))
          (t, faults) = (store, .ok w) ∧
        w.handled = [r] ∧ r.clientId = id ∧ r.requestCode = code ∧ r.payload = payload) ↔
      first.length = 23 ∧ ∀ c ∈ later.dropLast, c.length = 512 := by
  rw [fresh_build_layout payload id.size supported] at build
  cases build
  rw [handled_iff_received]
  exact fragments_received_iff supported small joined first_fits.2 later_fit

theorem payload_piece_handled :
    let owner : ClientId := ⟨List.replicate 16 1, rfl⟩
    let header := layout owner.bytes supportedVersion codeSendMsg 2 []
    ∃ w store r, run executeFaulty (workerHandleConnection ⟨owner, 1, by decide, by decide⟩
          (segments [header, [7, 8]])) (emptyTables, []) = (store, .ok w) ∧
        w.handled = [r] ∧ r.clientId = owner ∧ r.requestCode = codeSendMsg ∧
          r.payload = [7, 8] := by
  intro owner header
  exact (fragments_handled_iff ⟨owner, 1, by decide, by decide⟩ emptyTables [] owner (by decide)
    (by decide) (fresh_build_layout [7, 8] owner.size (by decide)) rfl (by decide)
    (by decide)).mpr ⟨rfl, by decide⟩

/-- The same two bytes in one piece each: the first is taken for the end. -/
theorem split_payload_not_handled :
    let owner : ClientId := ⟨List.replicate 16 1, rfl⟩
    let first := layout owner.bytes supportedVersion codeSendMsg 2 []
    let later : List Bytes := [[7], [8]]
    freshBuild owner.bytes codeSendMsg [7, 8] = .ok (first ++ later.flatten) ∧
      (first ≠ [] ∧ first.length ≤ 23) ∧ (∀ c ∈ later, c ≠ [] ∧ c.length ≤ 512) ∧
      ¬ ∃ w store r, run executeFaulty (workerHandleConnection ⟨owner, 1, by decide, by decide⟩
            (segments (first :: later))) (emptyTables, []) = (store, .ok w) ∧
          w.handled = [r] ∧ r.clientId = owner ∧ r.requestCode = codeSendMsg ∧
            r.payload = [7, 8] := by
  intro owner first later
  refine ⟨fresh_build_layout [7, 8] owner.size (by decide), by decide, by decide, ?_⟩
  rw [handled_iff_received]
  have joined : first ++ later.flatten = layout owner.bytes supportedVersion codeSendMsg
      ([7, 8] : Bytes).length [7, 8] := rfl
  rw [fragments_received_iff (by decide) (by decide) joined (by decide) (by decide)]
  rintro ⟨-, full⟩
  exact absurd (full [7] (by decide)) (by decide)

end RequestFragments
