import Mathlib

/- How long a row is in SQLite's record format: a header, with its own length and the
   type of each column, and behind it the columns. Only lengths are counted. Integers are
   natural numbers below 2^63. -/
namespace RecordLengths

/-- Seven bits to a byte; a number below 2^56 takes eight of them at most. -/
def varintLength (n : Nat) : Nat := Nat.log 128 n + 1

inductive Column where
  | integer (n : Nat)
  | blob (size : Nat)
  deriving DecidableEq, Repr

def Column.typeLength : Column → Nat
  | .integer _ => 1
  | .blob size => varintLength (2 * size + 12)

def Column.dataLength : Column → Nat
  | .integer n =>
    if n < 2 then 0
    else if n < 2 ^ 7 then 1
    else if n < 2 ^ 15 then 2
    else if n < 2 ^ 23 then 3
    else if n < 2 ^ 31 then 4
    else if n < 2 ^ 47 then 6
    else 8
  | .blob size => size

/-- The length of the header counts itself. -/
def headerLength (types : Nat) : Nat :=
  let own := varintLength types
  if types ≤ 126 then types + 1
  else if own < varintLength (types + own) then types + own + 1
  else types + own

def recordLength (row : List Column) : Nat :=
  headerLength (row.map Column.typeLength).sum + (row.map Column.dataLength).sum

theorem header_nonempty (types : Nat) : 0 < headerLength types := by
  unfold headerLength
  dsimp only
  split
  · omega
  · split <;> simp only [varintLength] <;> omega

theorem column_shorter {row : List Column} {column : Column} (inside : column ∈ row) :
    column.dataLength < recordLength row := by
  have within := List.single_le_sum (fun _ _ => Nat.zero_le _) _
    (List.mem_map_of_mem (f := Column.dataLength) inside)
  have header := header_nonempty (row.map Column.typeLength).sum
  unfold recordLength
  omega

end RecordLengths
