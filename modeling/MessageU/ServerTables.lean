import MessageU.ByteFields
import MessageU.RecordLengths
import MessageU.StatementPrograms

/- The two SQLite tables and the manager methods that read and write them.
   Each statement runs and commits as one step. Ids, names, keys and contents
   are bound as byte strings, so `=` on them compares bytes; a scan returns the
   rows in the order they were inserted. The LastSeen column and the logging
   are left out: nothing reads them. An INSERT that is refused leaves nothing
   behind here. In the source it skips the cleanup of do_sql, and until the same
   manager runs its next statement the file stays locked to the other one. -/
namespace ServerTables
open ByteFields StatementPrograms RecordLengths

def ClientManager.clientIdSize : Nat := 16
def ClientManager.publicKeySize : Nat := 160
def ClientManager.nameSize : Nat := 255
def MessageManager.msgIdSize : Nat := 4

inductive DatabaseError where
  | integrityError
  | operationalError
  | programmingError
  | otherError
  deriving DecidableEq, Repr

inductive PyError where
  | database (error : DatabaseError)
  | unicodeDecodeError
  | structError
  | keyError
  deriving DecidableEq, Repr

structure ClientRow where
  id : Bytes
  name : Bytes
  publicKey : Bytes
  deriving DecidableEq, Repr

/-- `serial` is no column of the table. It counts the INSERTs that succeeded and
    so names one accepted message for good, also when its id is used again. -/
structure MessageRow where
  id : Nat
  toClient : Bytes
  fromClient : Bytes
  type : Nat
  content : Bytes
  serial : Nat
  deriving DecidableEq, Repr

structure Tables where
  clients : List ClientRow
  messages : List MessageRow
  accepted : Nat
  deriving DecidableEq, Repr

def emptyTables : Tables := ⟨[], [], 0⟩

inductive Statement where
  | insertClient (row : ClientRow)
  | selectPublicKey (id : Bytes)
  | selectClientByName (name : Bytes)
  | selectClientById (id : Bytes)
  | selectClientsExcept (id : Bytes)
  | selectClients
  | insertMessage (id : Nat) (toClient fromClient : Bytes) (type : Nat) (content : Bytes)
  | deleteMessage (id : Nat)
  | selectMessages (toClient : Bytes)
  deriving DecidableEq

abbrev Rows : Statement → Type
  | .insertClient _ | .insertMessage .. | .deleteMessage _ => Unit
  | .selectPublicKey _ => List Bytes
  | .selectClientByName _ | .selectClientById _ | .selectClientsExcept _ | .selectClients =>
      List ClientRow
  | .selectMessages _ => List MessageRow

abbrev Answer (q : Statement) : Type := Except DatabaseError (Rows q)

/-- Both INSERTs fail on a taken primary key and change nothing then. No row is too long
    for the store, and it fails for no reason of its own. -/
def execute : (q : Statement) → Tables → Tables × Answer q
  | .insertClient row, t =>
      if row.id ∈ t.clients.map ClientRow.id then (t, .error .integrityError)
      else ({ t with clients := t.clients ++ [row] }, .ok ())
  | .selectPublicKey id, t =>
      (t, .ok ((t.clients.filter (·.id = id)).map ClientRow.publicKey))
  | .selectClientByName name, t => (t, .ok (t.clients.filter (·.name = name)))
  | .selectClientById id, t => (t, .ok (t.clients.filter (·.id = id)))
  | .selectClientsExcept id, t => (t, .ok (t.clients.filter (·.id ≠ id)))
  | .selectClients, t => (t, .ok t.clients)
  | .insertMessage id toClient fromClient type content, t =>
      if id ∈ t.messages.map MessageRow.id then (t, .error .integrityError)
      else
        ({ t with
            messages := t.messages ++ [⟨id, toClient, fromClient, type, content, t.accepted⟩]
            accepted := t.accepted + 1 }, .ok ())
  | .deleteMessage id, t => ({ t with messages := t.messages.filter (·.id ≠ id) }, .ok ())
  | .selectMessages toClient, t => (t, .ok (t.messages.filter (·.toClient = toClient)))

/-- A store whose next statements may fail: one entry for each, none once the
    list is used up. A statement that fails leaves the tables as they were. -/
def executeFaulty (q : Statement) : Tables × List (Option DatabaseError) →
    (Tables × List (Option DatabaseError)) × Answer q
  | (t, some error :: faults) => ((t, faults), .error error)
  | (t, faults) => (((execute q t).1, faults.tail), (execute q t).2)

/-- SQLITE_MAX_LENGTH, which a record may not exceed. -/
def sqliteMaxLength : Nat := 1000000000

def Statement.recordLength : Statement → Nat
  | .insertMessage id toClient fromClient type content =>
    RecordLengths.recordLength [.integer id, .blob toClient.length, .blob fromClient.length,
      .integer type, .blob content.length]
  | _ => 0

/-- A faulty store that takes no row longer than SQLite does. -/
def executeLimited (q : Statement) : Tables × List (Option DatabaseError) →
    (Tables × List (Option DatabaseError)) × Answer q
  | (t, some error :: faults) => ((t, faults), .error error)
  | (t, faults) =>
    if sqliteMaxLength < q.recordLength then ((t, faults.tail), .error .otherError)
    else (((execute q t).1, faults.tail), (execute q t).2)

abbrev Sql (α : Type) : Type := Program Statement Answer PyError α

def doSql (q : Statement) : Sql (Rows q) :=
  .statement q fun
    | .ok rows => .done rows
    | .error e => .raise (.database e)

/-- A failed INSERT is logged and forgotten. -/
def ClientManager.addClient (clientId clientName publicKey : Bytes) : Sql Unit :=
  Program.except (do let _ ← doSql (.insertClient ⟨clientId, clientName, publicKey⟩); pure ())
    (pure ())

def ClientManager.getPubKey (clientId : Bytes) : Sql Bytes := do
  let rows ← doSql (.selectPublicKey clientId)
  match rows with
  | key :: _ => pure key
  | [] => pure []

def ClientManager.isClientExist (clientName : Bytes) : Sql Bool := do
  let rows ← doSql (.selectClientByName clientName)
  pure (decide (rows.length > 0))

def ClientManager.isIdValid (clientId : Bytes) : Sql Bool := do
  let rows ← doSql (.selectClientById clientId)
  pure (decide (rows.length > 0))

def ClientManager.fetchAll (exemptClient : Bytes) : Sql (List ClientRow) :=
  Program.except (doSql (.selectClientsExcept exemptClient)) (pure [])

def ClientManager.numberOfClients : Sql (Option Nat) :=
  Program.except (do let rows ← doSql .selectClients; pure (some rows.length)) (pure none)

/-- The id is the random one drawn for this message; a failed INSERT gives none. -/
def MessageManager.addMessage (msgId : Nat) (clientDst clientSrc : Bytes) (msgType : Nat)
    (content : Bytes) : Sql (Option Nat) :=
  Program.except
    (do let _ ← doSql (.insertMessage msgId clientDst clientSrc msgType content)
        pure (some msgId))
    (pure none)

def MessageManager.deleteMessage (msgId : Nat) : Sql Unit :=
  Program.except (do let _ ← doSql (.deleteMessage msgId); pure ()) (pure ())

def MessageManager.fetchMessages (clientId : Bytes) : Sql (List MessageRow) :=
  Program.except (doSql (.selectMessages clientId)) (pure [])

theorem same_answers {α : Type} {q : Statement} {f g : Answer q → Sql α}
    (ok : ∀ rows, f (.ok rows) = g (.ok rows)) (error : ∀ e, f (.error e) = g (.error e)) :
    (Program.statement q f : Sql α) = .statement q g := by
  congr 1
  funext answer
  cases answer with
  | ok rows => exact ok rows
  | error e => exact error e

/-! What one statement does to the tables. -/

def Tables.mailbox (t : Tables) (client : Bytes) : List MessageRow :=
  t.messages.filter (·.toClient = client)

structure Tables.Keyed (t : Tables) : Prop where
  clientIds : (t.clients.map ClientRow.id).Nodup
  messageIds : (t.messages.map MessageRow.id).Nodup
  serials : (t.messages.map MessageRow.serial).Nodup
  issued : ∀ m ∈ t.messages, m.serial < t.accepted

theorem empty_tables_keyed : emptyTables.Keyed where
  clientIds := by simp [emptyTables]
  messageIds := by simp [emptyTables]
  serials := by simp [emptyTables]
  issued := by simp [emptyTables]

theorem nodup_snoc {α : Type} {xs : List α} {x : α} (unique : xs.Nodup) (fresh : x ∉ xs) :
    (xs ++ [x]).Nodup := by
  rw [List.nodup_append]
  refine ⟨unique, List.nodup_singleton x, ?_⟩
  intro a ha b hb same
  rw [List.mem_singleton] at hb
  exact fresh (hb ▸ same ▸ ha)

theorem execute_keyed (q : Statement) {t : Tables} (keyed : t.Keyed) :
    (execute q t).1.Keyed := by
  cases q with
  | insertClient row =>
    simp only [execute]
    split
    · exact keyed
    · rename_i fresh
      refine { keyed with clientIds := ?_ }
      rw [List.map_append]
      exact nodup_snoc keyed.clientIds fresh
  | insertMessage id toClient fromClient type content =>
    simp only [execute]
    split
    · exact keyed
    · rename_i fresh
      refine ⟨keyed.clientIds, ?_, ?_, ?_⟩
      · rw [List.map_append]
        exact nodup_snoc keyed.messageIds fresh
      · rw [List.map_append]
        apply nodup_snoc keyed.serials
        intro used
        obtain ⟨m, hm, same⟩ := List.mem_map.mp used
        exact absurd same (Nat.ne_of_lt (keyed.issued m hm))
      · intro m hm
        rcases List.mem_append.mp hm with old | new
        · exact Nat.lt_succ_of_lt (keyed.issued m old)
        · rw [List.mem_singleton] at new
          subst m
          exact Nat.lt_succ_self _
  | deleteMessage id =>
    have kept := List.filter_sublist (p := fun m : MessageRow => decide (m.id ≠ id))
      (l := t.messages)
    exact ⟨keyed.clientIds, keyed.messageIds.sublist (kept.map _),
      keyed.serials.sublist (kept.map _), fun m hm => keyed.issued m (List.mem_of_mem_filter hm)⟩
  | _ => exact keyed

theorem row_found_iff (field : ClientRow → Bytes) (clients : List ClientRow) (value : Bytes) :
    (clients.filter (field · = value)).length > 0 ↔ value ∈ clients.map field := by
  rw [gt_iff_lt, List.length_pos_iff, ne_eq, List.filter_eq_nil_iff]
  simp

theorem mailbox_emptied (t : Tables) (owner client : Bytes) :
    Tables.mailbox { t with messages := t.messages.filter (·.toClient ≠ owner) } client =
      if client = owner then [] else t.mailbox client := by
  simp only [Tables.mailbox, List.filter_filter]
  split
  · subst client
    simp
  · rename_i other
    apply List.filter_congr
    intro m hm
    by_cases addressed : m.toClient = client <;> simp [addressed, other]

theorem delete_row {t : Tables} (keyed : t.Keyed) {m : MessageRow} (stored : m ∈ t.messages)
    (x : MessageRow) :
    x ∈ (execute (.deleteMessage m.id) t).1.messages ↔ x ∈ t.messages ∧ x ≠ m := by
  simp only [execute, List.mem_filter, decide_eq_true_eq]
  constructor
  · rintro ⟨hx, different⟩
    exact ⟨hx, fun same => different (congrArg MessageRow.id same)⟩
  · rintro ⟨hx, different⟩
    exact ⟨hx, fun same => different (List.inj_on_of_nodup_map keyed.messageIds hx stored same)⟩

end ServerTables
