import MessageU.MailRefinement

/- What a client gets does not depend on the messages that others send each other
   and fetch: leaving those requests out changes no other response and no row of
   the client's mailbox, when no message id is drawn twice. -/
namespace MailboxIsolation
open ByteFields GuardedRuns StatementPrograms RequestFormat ServerTables ResponseFormat
open RequestHandling ServerRuns MailboxConservation ConcurrentRequests MailService MailRefinement

/-- Every request but the messages for others, their fetches, and what no handler
    accepts. -/
def OfConcern (owner : Bytes) (call : Call) : Bool := Concerns owner (asked call)

def drawnIds (calls : List Call) : List Nat := marks Letter.id (calls.map asked)

theorem answers_encode {Question : Type} (kind : Question → Bool) (questions : List Question)
    {replies : List MailReply} {results : List (Except PyError ServerResponse)}
    (encode : List.Forall₂ Encodes replies results) :
    List.Forall₂ Encodes (answersTo kind questions replies)
      (answersTo kind questions results) := by
  induction encode generalizing questions with
  | nil =>
    rw [answersTo, answersTo, List.zip_nil_right, List.zip_nil_right]
    exact .nil
  | cons here _ ih =>
    cases questions with
    | nil => exact .nil
    | cons q later =>
      rw [answers_to_cons, answers_to_cons]
      split
      · exact .cons here (ih later)
      · exact ih later

theorem same_encoding {replies : List MailReply} {left right : List (Except PyError ServerResponse)}
    (to_left : List.Forall₂ Encodes replies left) (to_right : List.Forall₂ Encodes replies right)
    (sense : ∀ reply ∈ replies, reply ≠ .ignored) : left = right := by
  induction to_left generalizing right with
  | nil =>
    cases to_right
    rfl
  | @cons reply result replies results here _ ih =>
    cases to_right with
    | cons there rest =>
      have told := sense reply List.mem_cons_self
      have same := ih rest fun x hx => sense x (List.mem_cons_of_mem _ hx)
      rcases here with ⟨-, here⟩ | ⟨ignored, -⟩
      · rcases there with ⟨-, there⟩ | ⟨ignored, -⟩
        · rw [here, there, same]
        · exact absurd ignored told
      · exact absurd ignored told

theorem member_injective : Function.Injective member := by
  rintro ⟨id, name, key⟩ ⟨id', name', key'⟩ same
  cases same
  rfl

theorem asked_of_concern (owner : Bytes) (calls : List Call) :
    (calls.filter (OfConcern owner)).map asked = (calls.map asked).filter (Concerns owner) := by
  rw [List.filter_map]
  rfl

theorem answers_mapped {Answer : Type} (owner : Bytes) (calls : List Call)
    (answers : List Answer) :
    answersTo (Concerns owner) (calls.map asked) answers =
      answersTo (OfConcern owner) calls answers := by
  induction calls generalizing answers with
  | nil => rfl
  | cons call later ih =>
    cases answers with
    | nil => rfl
    | cons answer rest =>
      rw [List.map_cons, answers_to_cons, answers_to_cons, ih]
      rfl

end MailboxIsolation
