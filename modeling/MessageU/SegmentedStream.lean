import MessageU.ByteFields

/- A stream socket as its reader sees it. The peer's bytes arrive in segments;
   one read returns at most the number of bytes asked for and never more than
   what is left of the first segment. Every sequence of short reads, an empty
   read and a reset is one list of arrivals. An exhausted list is a closed
   connection, on which every read is empty. -/
namespace SegmentedStream
open ByteFields

inductive Arrival where
  | data (bytes : Bytes)
  | reset
  deriving DecidableEq, Repr

abbrev Socket := List Arrival

/-- One read of at most `asked` bytes: what it returns and what is left. -/
def recv (asked : Nat) : Socket → Arrival × Socket
  | [] => (.data [], [])
  | .reset :: rest => (.reset, rest)
  | .data bs :: rest =>
      if bs.length ≤ asked then (.data bs, rest)
      else (.data (bs.take asked), .data (bs.drop asked) :: rest)

def contents : Socket → Bytes
  | [] => []
  | .reset :: _ => []
  | .data bs :: rest => bs ++ contents rest

def whole (bs : Bytes) : Socket := if bs = [] then [] else [.data bs]

def segments (chunks : List Bytes) : Socket := chunks.map .data

theorem recv_bounded {asked : Nat} {sock rest : Socket} {bs : Bytes}
    (read : recv asked sock = (.data bs, rest)) : bs.length ≤ asked := by
  cases sock with
  | nil =>
    simp only [recv, Prod.mk.injEq, Arrival.data.injEq] at read
    simp [← read.1]
  | cons a tail =>
    cases a with
    | reset => simp [recv] at read
    | data chunk =>
      simp only [recv] at read
      split at read
      · rename_i fits
        simp only [Prod.mk.injEq, Arrival.data.injEq] at read
        exact read.1 ▸ fits
      · simp only [Prod.mk.injEq, Arrival.data.injEq] at read
        rw [← read.1, List.length_take]
        exact Nat.min_le_left _ _

theorem recv_contents {asked : Nat} {sock rest : Socket} {bs : Bytes}
    (read : recv asked sock = (.data bs, rest)) : contents sock = bs ++ contents rest := by
  cases sock with
  | nil =>
    simp only [recv, Prod.mk.injEq, Arrival.data.injEq] at read
    simp [← read.1, ← read.2, contents]
  | cons a tail =>
    cases a with
    | reset => simp [recv] at read
    | data chunk =>
      simp only [recv] at read
      split at read
      · simp only [Prod.mk.injEq, Arrival.data.injEq] at read
        simp [← read.1, ← read.2, contents]
      · simp only [Prod.mk.injEq, Arrival.data.injEq] at read
        simp [← read.1, ← read.2, contents, ← List.append_assoc]

theorem recv_segment {asked : Nat} {bs : Bytes} (fits : bs.length ≤ asked) (rest : Socket) :
    recv asked (.data bs :: rest) = (.data bs, rest) := by
  simp [recv, fits]

theorem recv_whole (front back : Bytes) :
    recv front.length (whole (front ++ back)) = (.data front, whole back) := by
  unfold whole
  by_cases none_left : back = []
  · subst back
    by_cases nothing : front = [] <;> simp [recv, nothing]
  · have some_left : ¬ back.length = 0 := by simpa using none_left
    simp [recv, none_left, some_left]

def Flowing (sock : Socket) : Prop := ∀ a ∈ sock, ∃ bs, bs ≠ [] ∧ a = .data bs

theorem segments_flowing {chunks : List Bytes} (something : ∀ c ∈ chunks, c ≠ []) :
    Flowing (segments chunks) := by
  intro a ha
  obtain ⟨c, hc, rfl⟩ := List.mem_map.mp ha
  exact ⟨c, something c hc, rfl⟩

theorem segments_contents (chunks : List Bytes) : contents (segments chunks) = chunks.flatten := by
  induction chunks with
  | nil => rfl
  | cons c rest ih =>
    rw [List.flatten_cons, ← ih]
    rfl

theorem whole_flowing (bs : Bytes) : Flowing (whole bs) := by
  unfold whole
  split
  · intro a impossible
    cases impossible
  · rename_i some_bytes
    intro a ha
    exact ⟨bs, some_bytes, List.mem_singleton.mp ha⟩

theorem whole_contents (bs : Bytes) : contents (whole bs) = bs := by
  unfold whole
  split
  · rename_i nothing
    exact nothing.symm
  · simp [contents]

theorem recv_flowing {asked : Nat} (positive : 0 < asked) {sock : Socket} (flowing : Flowing sock) :
    ∃ bs rest, recv asked sock = (.data bs, rest) ∧ Flowing rest ∧
      (bs = [] → contents sock = []) := by
  cases sock with
  | nil =>
    refine ⟨[], [], rfl, ?_, fun _ => rfl⟩
    intro a impossible
    cases impossible
  | cons a tail =>
    obtain ⟨bs, some_bytes, rfl⟩ := flowing a List.mem_cons_self
    have later : Flowing tail := fun x hx => flowing x (List.mem_cons_of_mem _ hx)
    have long := List.length_pos_iff.mpr some_bytes
    simp only [recv]
    split
    · exact ⟨bs, tail, rfl, later, fun nothing => absurd nothing some_bytes⟩
    · rename_i longer
      refine ⟨_, _, rfl, ?_, ?_⟩
      · intro x hx
        rcases List.mem_cons.mp hx with rfl | there
        · refine ⟨bs.drop asked, ?_, rfl⟩
          apply List.ne_nil_of_length_pos
          rw [List.length_drop]
          omega
        · exact later x there
      · intro nothing
        have none_taken := congrArg List.length nothing
        rw [List.length_take, List.length_nil] at none_taken
        omega

end SegmentedStream
