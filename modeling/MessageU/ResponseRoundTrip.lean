import MessageU.HandlerOutcomes

/- A response from the handler's object to the client's. The worker builds it once
   to print it and once to send it; the client takes the same bytes apart by
   shifts. What the client finds valid is what the server would have built. -/
namespace ResponseRoundTrip
open ByteFields StatementPrograms RequestFormat ServerTables ResponseFormat RequestHandling
open ServerRuns ServerWorker HandlerOutcomes

inductive Returned : ServerResponse → Prop where
  | handled {Store : Type} (exec : (q : Statement) → Store → Store × Answer q) (s : Store)
      (draws : Draws) (request : ServerRequest) {resp : ServerResponse}
      (ended : (run exec (handle draws request) s).2 = .ok resp) : Returned resp
  | error : Returned getErrResponse

theorem returned_sound {resp : ServerResponse} (returned : Returned resp) : ResponseSound resp := by
  cases returned with
  | handled exec s draws request ended => exact run_yields exec (handle_yields draws request) ended
  | error => exact error_sound

def builds : Nat → ServerResponse → Except PyError ServerResponse
  | 0, resp => .ok resp
  | k + 1, resp => builds k resp >>= fun last => last.build []

theorem builds_same {resp : ServerResponse} (sound : ResponseSound resp) (k : Nat) :
    builds (k + 1) resp = .ok { resp with rawData := wireBytes resp } := by
  induction k with
  | zero => exact build_again sound
  | succ k ih =>
    have again : ResponseSound { resp with rawData := wireBytes resp } :=
      ⟨sound.version, sound.code, sound.size⟩
    rw [builds, ih]
    exact build_again again

theorem wire_bytes_read (beyond : Nat) {resp : ServerResponse} (sound : ResponseSound resp) :
    ClientResponse.ofData beyond (wireBytes resp) =
      ⟨resp.payload, some resp.payload.length, some supportedVersion, some resp.code, true⟩ := by
  rw [wireBytes, response_read beyond sound.code sound.size, if_neg (not_not.mpr rfl)]

/-- The payload bound is the one below which no shifted byte turns the client's
    size negative. -/
theorem response_round_trip (beyond : Nat) :
    (∀ resp : ServerResponse, Returned resp → resp.payload.length < 2 ^ 31 →
      (∀ k, ∃ built, builds (k + 1) resp = .ok built ∧ built.rawData = wireBytes resp) ∧
      (∀ w : WorkerRun, w.answer (.ok resp) = { w with sent := w.sent ++ [wireBytes resp] }) ∧
      ClientResponse.ofData beyond (wireBytes resp) =
        ⟨resp.payload, some resp.payload.length, some supportedVersion, some resp.code, true⟩) ∧
    (∀ data : Bytes, (ClientResponse.ofData beyond data).isValid = true →
      ∀ code ∈ supportedResponses, (ClientResponse.ofData beyond data).responseCode = some code →
        (ClientResponse.ofData beyond data).payload.length < 2 ^ 31 →
          ∃ built, (ServerResponse.ofCode code).build (ClientResponse.ofData beyond data).payload =
              .ok built ∧ built.version = 2 ∧ built.rawData = data) := by
  constructor
  · intro resp returned _
    have sound := returned_sound returned
    refine ⟨fun k => ⟨_, builds_same sound k, rfl⟩, fun w => answer_built w sound, ?_⟩
    exact wire_bytes_read beyond sound
  · intro data valid code _ found small
    obtain ⟨code', payload, parsed⟩ := valid_parsed beyond valid
    have object := parsed.object
    rw [object] at found small ⊢
    cases found
    refine ⟨_, build_ok (Nat.lt_trans small (by decide)), rfl, ?_⟩
    exact parsed.bytes.symm

theorem registration_round_trip :
    let draws : Draws := ⟨⟨List.replicate 16 2, rfl⟩, 1, by decide, by decide⟩
    let request := requestOf ⟨List.replicate 16 1, rfl⟩ codeRegister (registrationPayload [0x41])
    let data := responseHeader supportedVersion codeSuccessfulRegistration 16 ++
      List.replicate 16 2
    (run execute (handle draws request) emptyTables).2 = .ok (registered draws.uuid) ∧
      ClientResponse.ofData 0 data =
        ⟨List.replicate 16 2, some 16, some 2, some codeSuccessfulRegistration, true⟩ ∧
      ∃ built, (ServerResponse.ofCode codeSuccessfulRegistration).build (List.replicate 16 2) =
          .ok built ∧ built.version = 2 ∧ built.rawData = data := by
  intro draws request data
  have asks : registrationName (registrationPayload [0x41]) = some [0x41] := by decide +kernel
  have key_ok : validUtf8 ((registrationPayload [0x41]).drop 255) = true := by decide +kernel
  have ended : (run execute (handle draws request) emptyTables).2 =
      .ok (registered draws.uuid) := by
    rw [handle_register _ rfl, request_payload,
      run_register_accepted asks key_ok (by simp [emptyTables]) (by simp [emptyTables])]
  obtain ⟨forth, back⟩ := response_round_trip 0
  obtain ⟨-, -, read⟩ := forth (registered draws.uuid)
    (.handled execute emptyTables draws request ended) (by decide)
  have built := back data (by decide) codeSuccessfulRegistration (by decide) (by decide)
    (by decide)
  rw [show ClientResponse.ofData 0 data = _ from read] at built
  exact ⟨ended, read, built⟩

end ResponseRoundTrip
