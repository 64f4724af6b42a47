import MessageU.SystemMail
import MessageU.SystemContacts

/- What reaches whom. A fetch that comes at once hands on messages that were sent to its
   client, each of them once; and the name above a message is the one its sender
   registered under. -/
namespace SystemDelivery
open ByteFields SegmentedStream GuardedRuns StatementPrograms RequestFormat ServerTables
open ResponseFormat RequestHandling ServerRuns ServerWorker HandlerOutcomes ClientReception
open ClientCredentials ClientOperations MailboxConservation MessagingSystem SystemRuns
open SystemIdentity SystemMail SystemContacts

/-- What the runs are asked for: fresh ids, and no cuts in lists and in fetched messages. -/
def Uncut (w : World) (move : Move) : Prop :=
  FreshIds w move ∧ FetchesWhole w move ∧ ListsHeaded w move

theorem deed_whole {w : World} (replies : ∀ k ∈ w.connections, k.reply.getD [] = [] ∨
      ∃ resp, k.reply.getD [] = wireBytes resp) (deed : Deed) :
    FetchesWhole w (deed.move w) ∧ ListsHeaded w (deed.move w) := by
  have reply {u : Nat} {c : Client} {j : Nat} {k : Connection}
      (waits : w.processes u = .waiting c j) (here : w.connections[j]? = some k) :
      w.replyTo u = k.reply.getD [] := by
    simp [World.replyTo, waits, here]
  cases deed with
  | finish u =>
    constructor
    · intro c j k waits here _
      exact Or.inr (congrArg whole (reply waits here))
    · intro c j k waits here _ data rest read
      replace read : recv 7 (whole (w.replyTo u)) = (.data data, rest) := read
      rw [reply waits here] at read
      rcases replies k (List.mem_of_getElem? here) with nothing | ⟨resp, bytes⟩
      · rw [nothing] at read
        cases read
        exact Or.inl rfl
      · have header := recv_whole (responseHeader supportedVersion resp.code resp.payload.length)
          resp.payload
        rw [response_header_length] at header
        rw [bytes, wireBytes, header] at read
        cases read
        exact Or.inr (response_header_length _ _ _)
  | _ => exact ⟨trivial, trivial⟩

theorem replies_known {w : World} (sound : Sound w) (k : Connection) (listed : k ∈ w.connections) :
    k.reply.getD [] = [] ∨ ∃ resp, k.reply.getD [] = wireBytes resp := by
  rcases (sound.connections k listed).reply with nothing | ⟨resp, -, bytes, -⟩
  · exact Or.inl nothing
  · exact Or.inr ⟨resp, bytes⟩

theorem deed_uncut {w : World} {deed : Deed} (sound : Sound w)
    (fresh : FreshIds w (deed.move w)) : Uncut w (deed.move w) :=
  ⟨fresh, deed_whole (replies_known sound) deed⟩

theorem sent_back {id : Bytes} {k : Connection} {note : Note} (sent : note ∈ sentTo id k) :
    ∃ m, message k.client.contacts k.op = some m ∧ m.clientId = id ∧ note.source = k.client.id ∧
      note.type = m.messageType ∧ note.content = m.messageContent := by
  obtain ⟨m, inside, rfl⟩ := List.mem_map.mp sent
  obtain ⟨carries, addressed⟩ := List.mem_filter.mp inside
  exact ⟨m, Option.mem_toList.mp carries, of_decide_eq_true addressed, rfl, rfl, rfl⟩

structure Known (w : World) : Prop where
  sound : Sound w
  identified : Identified w
  askers : AskersIdentified w
  mailed : Mailed w
  contacts : ContactsSound w

theorem system_known : Invariant (messaging.restrict Uncut) Known := by
  have askers := system_askers.restrict_finer fun w move (uncut : Uncut w move) => uncut.1
  have mailed := system_mailed.restrict_finer fun w move (uncut : Uncut w move) => uncut.2.1
  have contacts := system_contacts.restrict_finer fun w move (uncut : Uncut w move) => uncut.2.2
  have all := (askers.and mailed).and contacts
  constructor
  · intro w first
    obtain ⟨⟨⟨⟨sound, identified⟩, askers⟩, -, mailed⟩, -, contacts⟩ := all.start w first
    exact ⟨sound, identified, askers, mailed, contacts⟩
  · rintro w move after ⟨sound, identified, askers, mailed, contacts⟩ taken
    obtain ⟨⟨⟨⟨sound, identified⟩, askers⟩, -, mailed⟩, -, contacts⟩ := all.step w move after
      ⟨⟨⟨⟨sound, identified⟩, askers⟩, sound, mailed⟩, sound, contacts⟩ taken
    exact ⟨sound, identified, askers, mailed, contacts⟩

/-- Whatever the server gave on a connection was sent there by a client that typed the
    name of the one that asked, and a contact with the sender's id has the sender's name. -/
theorem given_truly {w : World} (known : Known w) {j : Connection} (listed : j ∈ w.connections)
    {note : Note} (given : note ∈ (fetchedOn j.client.id j).map letterNote) :
    ∃ k ∈ w.connections, ∃ sent typed own,
      message k.client.contacts k.op = some sent ∧ sent.messageType = note.type ∧
      sent.messageContent = note.content ∧ destination k.op = some typed ∧
      Registered w.connections j.owner own j.client.id ∧ typed = shownName own j.client.id ∧
      k.client.id = note.source ∧
      (Client.getContactNameById j.client.contacts note.source = [] ∨
        ∃ name, Registered w.connections k.owner name note.source ∧
          Client.getContactNameById j.client.contacts note.source =
            shownName name note.source) := by
  obtain ⟨sound, identified, askers, mailed, contacts⟩ := known
  have was_given : note ∈ (w.connections.flatMap (fetchedOn j.client.id)).map letterNote := by
    rw [List.map_flatMap]
    exact List.mem_flatMap.mpr ⟨j, listed, given⟩
  have was_sent := Multiset.mem_of_le (given_from_sent sound mailed j.client.id) was_given
  obtain ⟨k, inside, sent_note⟩ := List.mem_flatMap.mp (Multiset.mem_coe.mp was_sent)
  obtain ⟨sent, carries, addressed, source, type, content⟩ := sent_back sent_note
  obtain ⟨size, -, typed, named, leads⟩ := message_known (sound.connections k inside) carries
  have unique {u v : Nat} {name other id : Bytes} (first : Registered w.connections u name id)
      (second : Registered w.connections v other id) : u = v :=
    (registered_unique sound identified first second).1
  -- whoever was sent to is a contact of the sender, so it has an id of its own
  obtain ⟨contact, of_sender, is_typed, is_id⟩ := id_by_name (leads ▸ size)
  obtain ⟨real, v, own, registered, is_contact⟩ :=
    contact_registered sound identified (contacts.connections k inside) of_sender
  have id_same : contact.id = j.client.id := by rw [is_id, ← leads, addressed]
  rw [id_same] at real registered is_contact
  obtain ⟨own', registered'⟩ := (askers j listed).resolve_left real
  have owner := unique registered registered'
  refine ⟨k, inside, sent, typed, own, carries, type.symm, content.symm, named, owner ▸ registered,
    ?_, source.symm, ?_⟩
  · rw [← is_typed, is_contact]
  · rcases name_by_id j.client.contacts note.source with
      nobody | ⟨sender, of_reader, has_id, name⟩
    · exact Or.inl nobody
    · right
      obtain ⟨real', v', name', known_name, is_sender⟩ :=
        contact_registered sound identified (contacts.connections j listed) of_reader
      rw [has_id] at real' known_name is_sender
      have asked := askers k inside
      rw [← source] at asked
      obtain ⟨other, registered''⟩ := asked.resolve_left real'
      have same := unique known_name registered''
      refine ⟨name', same ▸ known_name, ?_⟩
      rw [name, is_sender]

def performing (u k : Nat) (op : Operation) (draws : Draws) : List Deed :=
  [.ask u op, .serve k draws, .finish u]

/-- "A" and "B" register and list each other, "A" sends "hi" to "B", and "B" fetches. -/
def conversation (a b other : Draws) : List Deed :=
  registering 0 0 [0x41] a ++ registering 1 1 [0x42] b ++ performing 0 2 .listUsers other ++
    performing 1 3 .listUsers other ++ performing 0 4 (.sendText [0x42] [0x68, 0x69]) other ++
    performing 1 5 .fetchMessages other

/-! What follows. -/

/-- In every run, whatever the clients under an id were shown had been sent to that id:
    nothing is made up, and nothing is shown more often than it was sent. -/
theorem shown_was_sent {w : World} (reached : Reachable (messaging.restrict FetchesWhole) w)
    (id : Bytes) : (w.connections.flatMap (shownTo id) : Multiset Note) ≤
      w.connections.flatMap (sentTo id) := by
  obtain ⟨sound, mailed⟩ := system_mailed.holds reached
  exact shown_from_sent sound mailed id

theorem hi_was_sent :
    let a : Draws := ⟨⟨List.replicate 16 2, rfl⟩, 1, by decide, by decide⟩
    let b : Draws := ⟨⟨List.replicate 16 3, rfl⟩, 2, by decide, by decide⟩
    let other : Draws := ⟨⟨List.replicate 16 4, rfl⟩, 3, by decide, by decide⟩
    let hi : Note := ⟨a.uuid.bytes, messageTypeSendTxt, [0x68, 0x69]⟩
    ∃ w, runFrom World.play World.initial (conversation a b other) = some w ∧
      w.connections.flatMap (shownTo b.uuid.bytes) = [hi] ∧
      hi ∈ w.connections.flatMap (sentTo b.uuid.bytes) := by
  intro a b other hi
  have shown : (runFrom World.play World.initial (conversation a b other)).map (fun w =>
      w.connections.flatMap (shownTo b.uuid.bytes)) = some [hi] := by
    decide +kernel
  obtain ⟨w, run, notes⟩ := Option.map_eq_some_iff.mp shown
  have sent := shown_was_sent
    (played_reachable (fun _ _ sound fresh => (deed_uncut sound fresh).2.1) run) b.uuid.bytes
  refine ⟨w, run, notes, ?_⟩
  rw [notes] at sent
  exact Multiset.mem_coe.mp (Multiset.mem_of_le sent (Multiset.mem_singleton_self hi))

/-- In every run, each contact of a client is a user who registered, under the name that
    this user chose, and no client of another user has its id. -/
theorem contacts_registered {w : World}
    (reached : Reachable (messaging.restrict fun w move => FreshIds w move ∧ ListsHeaded w move) w)
    {u : Nat} {c : Client} (running : (w.processes u).client = some c) {contact : Contact}
    (listed : contact ∈ c.contacts) :
    ∃ v name, Registered w.connections v name contact.id ∧
      contact = ⟨shownName name contact.id, contact.id, [], []⟩ ∧
      ∀ other d, (w.processes other).client = some d → d.id = contact.id → other = v := by
  obtain ⟨sound, identified⟩ :=
    (system_identified.restrict_finer fun _ _ both => both.1).holds reached
  obtain ⟨-, known⟩ := (system_contacts.restrict_finer fun _ _ both => both.2).holds reached
  obtain ⟨own_id, v, name, registered, same⟩ :=
    contact_registered sound identified (known.clients u c running) listed
  refine ⟨v, name, registered, same, ?_⟩
  intro other d runs is_id
  rcases (identified.processes other).id d runs with nobody | ⟨other_name, registered'⟩
  · exact absurd (is_id.symm.trans nobody) own_id
  · rw [is_id] at registered'
    exact (registered_unique sound identified registered' registered).1

theorem other_user_listed :
    let a : Draws := ⟨⟨List.replicate 16 2, rfl⟩, 1, by decide, by decide⟩
    let b : Draws := ⟨⟨List.replicate 16 3, rfl⟩, 2, by decide, by decide⟩
    let other : Draws := ⟨⟨List.replicate 16 4, rfl⟩, 3, by decide, by decide⟩
    ∃ w, runFrom World.play World.initial (conversation a b other) = some w ∧
      (w.processes 0).client.map Client.contacts = some [⟨[0x42], b.uuid.bytes, [], []⟩] ∧
      ∃ v name, Registered w.connections v name b.uuid.bytes ∧
        [0x42] = shownName name b.uuid.bytes := by
  intro a b other
  have contacts : (runFrom World.play World.initial (conversation a b other)).map (fun w =>
      (w.processes 0).client.map Client.contacts) =
      some (some [⟨[0x42], b.uuid.bytes, [], []⟩]) := by
    decide +kernel
  obtain ⟨w, run, known⟩ := Option.map_eq_some_iff.mp contacts
  obtain ⟨c, running, listed⟩ := Option.map_eq_some_iff.mp known
  have reached : Reachable
      (messaging.restrict fun w move => FreshIds w move ∧ ListsHeaded w move) w :=
    played_reachable (fun _ _ sound fresh => ⟨fresh, (deed_uncut sound fresh).2.2⟩) run
  obtain ⟨v, name, registered, same, -⟩ :=
    contacts_registered reached running (by rw [listed]; exact List.mem_singleton_self _)
  exact ⟨w, run, known, v, name, registered, congrArg Contact.name same⟩

/-- In every run, each message that a client was shown was sent, with its type and its
    content, by a client that typed the name of the one that was shown it, and the name
    shown above it, if there is one, is the one the sender registered under. -/
theorem shown_truly {w : World} (reached : Reachable (messaging.restrict Uncut) w)
    {j : Connection} (listed : j ∈ w.connections) {m : Message} (shown : m ∈ j.handled) :
    ∃ k ∈ w.connections, ∃ sent typed own,
      message k.client.contacts k.op = some sent ∧ sent.messageType = m.messageType ∧
      sent.messageContent = m.messageContent ∧ destination k.op = some typed ∧
      Registered w.connections j.owner own j.client.id ∧ typed = shownName own j.client.id ∧
      k.client.id = m.clientId ∧
      (Client.getContactNameById j.client.contacts m.clientId = [] ∨
        ∃ name, Registered w.connections k.owner name m.clientId ∧
          Client.getContactNameById j.client.contacts m.clientId = shownName name m.clientId) := by
  have known := system_known.holds reached
  have given := (known.mailed.handed j listed).subset (List.mem_map_of_mem shown)
  exact given_truly known listed given

theorem hi_shown_truly :
    let a : Draws := ⟨⟨List.replicate 16 2, rfl⟩, 1, by decide, by decide⟩
    let b : Draws := ⟨⟨List.replicate 16 3, rfl⟩, 2, by decide, by decide⟩
    let other : Draws := ⟨⟨List.replicate 16 4, rfl⟩, 3, by decide, by decide⟩
    ∃ w, runFrom World.play World.initial (conversation a b other) = some w ∧
      ∃ k ∈ w.connections, ∃ typed own, destination k.op = some typed ∧
        Registered w.connections 1 own b.uuid.bytes ∧ typed = shownName own b.uuid.bytes ∧
        k.client.id = a.uuid.bytes ∧ ∃ name, Registered w.connections k.owner name a.uuid.bytes ∧
          [0x41] = shownName name a.uuid.bytes := by
  intro a b other
  have shown : (runFrom World.play World.initial (conversation a b other)).map (fun w =>
      w.connections[5]?.map fun k => (k.owner, k.client.id, k.handled,
        Client.getContactNameById k.client.contacts a.uuid.bytes)) =
      some (some (1, b.uuid.bytes, [⟨a.uuid.bytes, messageTypeSendTxt, 2, [0x68, 0x69]⟩],
        [0x41])) := by
    decide +kernel
  obtain ⟨w, run, found⟩ := Option.map_eq_some_iff.mp shown
  obtain ⟨j, here, facts⟩ := Option.map_eq_some_iff.mp found
  simp only [Prod.mk.injEq] at facts
  obtain ⟨owner, reader, handled, sender⟩ := facts
  have reached : Reachable (messaging.restrict Uncut) w :=
    played_reachable (fun _ _ sound fresh => deed_uncut sound fresh) run
  obtain ⟨k, inside, -, typed, own, -, -, -, named, registered, is_own, source, above⟩ :=
    shown_truly reached (List.mem_of_getElem? here)
      (show (⟨a.uuid.bytes, messageTypeSendTxt, 2, [0x68, 0x69]⟩ : Message) ∈ j.handled by
        rw [handled]
        exact List.mem_singleton_self _)
  rw [owner, reader] at registered
  rw [reader] at is_own
  rw [show Client.getContactNameById j.client.contacts a.uuid.bytes = [0x41] from sender] at above
  refine ⟨w, run, k, inside, typed, own, named, registered, is_own, source, ?_⟩
  exact above.resolve_left (by decide)

end SystemDelivery
