import MessageU.DisplayedNames
import MessageU.FetchScreen
import MessageU.SystemDelivery

/- From what a user types to what another one reads. -/
namespace SystemScreen
open ByteFields SegmentedStream GuardedRuns RequestFormat ServerTables ResponseFormat
open RequestHandling ServerRuns HandlerOutcomes ClientReception ClientCredentials ClientOperations
open ContactListing MessagingSystem SystemRuns SystemIdentity SystemMail SystemContacts
open SystemDelivery FetchScreen

def shownText : Operation → Bytes
  | .sendText _ text => untilZero text
  | .getSymmKey _ => symmKeyRequestMsg
  | .sendSymKey _ => symmKeyRcvdMsg
  | _ => []

theorem text_line {op : Operation} (typed : Typed op) : newline ∉ shownText op := by
  cases op with
  | sendText destination text =>
    exact until_zero_part (typed (.txtMsg destination, text) (by simp [answers])).1
  | getSymmKey _ => exact show newline ∉ symmKeyRequestMsg by decide
  | sendSymKey _ => exact show newline ∉ symmKeyRcvdMsg by decide
  | _ => exact List.not_mem_nil

theorem content_shown {contacts : List Contact} {op : Operation} {sent msg : Message}
    (carries : message contacts op = some sent) (type : sent.messageType = msg.messageType)
    (content : sent.messageContent = msg.messageContent) :
    FetchMsgOperation.shownContent msg = some (shownText op) := by
  unfold FetchMsgOperation.shownContent
  rw [← type, ← content]
  cases op with
  | sendText _ _ =>
    cases carries
    rfl
  | getSymmKey _ =>
    cases carries
    rfl
  | sendSymKey _ =>
    cases carries
    rfl
  | _ => cases carries

theorem strip_part (b : Byte) (bs : Bytes) : strip b bs ⊆ bs := by
  intro x inside
  have front := List.dropWhile_subset _ (List.mem_reverse.mp inside)
  exact List.dropWhile_subset _ (List.mem_reverse.mp front)

theorem shown_name_line {name : Bytes} (typed : newline ∉ name) (id : Bytes) :
    newline ∉ shownName name id := by
  apply until_zero_part
  intro inside
  have payload : newline ∈ (registrationPayload name).take 255 := strip_part _ _ inside
  rcases List.mem_append.mp (List.mem_of_mem_take payload) with padded | key
  · rcases List.mem_append.mp padded with there | padding
    · exact typed there
    · exact absurd (List.eq_of_mem_replicate padding) (by decide)
  · exact absurd (List.eq_of_mem_replicate key) (by decide)

theorem names_tidy {w : World} (known : Known w) {contacts : List Contact}
    (listed : ContactsKnown w.tables.clients contacts) : NamesTidy contacts := by
  intro contact inside
  obtain ⟨-, u, name, registered, same⟩ :=
    contact_registered known.sound known.identified listed inside
  obtain ⟨k, opened, -, registers, -⟩ := registered
  rw [same]
  have sizes := typed_sizes (known.sound.connections k opened).typed
  exact shown_name_line (sizes.1 name registers).1 _

/-- Where a message on the screen of a user is from. -/
structure SentBy (w : World) (u : Nat) (id : Bytes) (name text : Bytes) (k : Connection) :
    Prop where
  sent : k ∈ w.connections
  addressed : ∃ own, Registered w.connections u own id ∧
    destination k.op = some (shownName own id)
  said : text = shownText k.op
  named : name = ascii "Unknown Contact" ∨
    ∃ sender, Registered w.connections k.owner sender k.client.id ∧
      name = shownName sender k.client.id

section Fetch
variable {w : World} (known : Known w) {k : Connection} (listed : k ∈ w.connections)
include known listed

theorem message_sent_by {msg : Message}
    (given : noteOf msg ∈ (fetchedOn k.client.id k).map letterNote) :
    ∃ content s, FetchMsgOperation.shownContent msg = some content ∧ newline ∉ content ∧
      SentBy w k.owner k.client.id
        (FetchMsgOperation.contactName k.client.contacts msg.clientId) content s := by
  obtain ⟨s, inside, sent, typed, own, carries, type, content, named, registered, is_own, source,
    above⟩ := given_truly known listed given
  have said : FetchMsgOperation.shownContent msg = some (shownText s.op) :=
    content_shown carries type content
  refine ⟨shownText s.op, s, said, text_line (known.sound.connections s inside).typed, inside,
    ⟨own, registered, is_own ▸ named⟩, rfl, ?_⟩
  rw [show (noteOf msg).source = msg.clientId from rfl] at source above
  unfold FetchMsgOperation.contactName
  dsimp only
  split
  · exact Or.inl rfl
  · rename_i some_name
    right
    rcases above with nobody | ⟨name, is_sender, shown⟩
    · rw [nobody] at some_name
      exact absurd rfl some_name
    · rw [source]
      refine ⟨name, is_sender, ?_⟩
      rw [shown]
      exact until_zero_free (DisplayedNames.until_zero_has_none _)

end Fetch

def awaited : Process → Option (Client × Nat)
  | .waiting c j => some (c, j)
  | .off _ | .idle _ => none

theorem waiting_of {p : Process} {c : Client} {j : Nat} (waits : awaited p = some (c, j)) :
    p = .waiting c j := by
  cases p with
  | waiting c' j' =>
    cases waits
    rfl
  | _ => cases waits

end SystemScreen
