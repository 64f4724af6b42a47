import Mathlib

/- What a mail service with a directory is for. Members join under names of their
   own, look each other up and leave each other letters, which are taken in the
   order in which they came. No two waiting letters bear the same mark. The ids and
   the marks are given from outside: a letter whose mark is in use is refused, but
   a member whose id is in use is told that it has joined. -/
namespace MailService

structure Member (Id Name Card : Type) where
  id : Id
  name : Name
  card : Card

inductive Request (Id Name Card Letter : Type) where
  | join (m : Member Id Name Card)
  | directory (asker : Id)
  | lookUp (id : Id)
  | post (dest : Id) (letter : Letter)
  | take (owner : Id)
  | nonsense

inductive Reply (Id Name Card Letter : Type) where
  | joined (m : Member Id Name Card)
  | members (list : List (Member Id Name Card))
  | card (id : Id) (found : Option Card)
  | posted (dest : Id) (letter : Letter)
  | letters (owner : Id) (list : List Letter)
  | refused
  | ignored

structure Service (Id Name Card Letter : Type) where
  members : List (Member Id Name Card)
  queue : Id → List Letter

variable {Id Name Card Letter Mark : Type}

def Service.empty : Service Id Name Card Letter := ⟨[], fun _ => []⟩

def Service.Waiting (mark : Letter → Mark) (s : Service Id Name Card Letter) (m : Mark) : Prop :=
  ∃ owner, ∃ l ∈ s.queue owner, mark l = m

variable [DecidableEq Id] [DecidableEq Name]

open Classical in
noncomputable def Service.answer (mark : Letter → Mark) (s : Service Id Name Card Letter) :
    Request Id Name Card Letter → Service Id Name Card Letter × Reply Id Name Card Letter
  | .join m =>
    if m.name ∈ s.members.map Member.name then (s, .refused)
    else if m.id ∈ s.members.map Member.id then (s, .joined m)
    else ({ s with members := s.members ++ [m] }, .joined m)
  | .directory asker => (s, .members (s.members.filter (·.id ≠ asker)))
  | .lookUp id => (s, .card id ((s.members.find? (·.id = id)).map Member.card))
  | .post dest letter =>
    if dest ∈ s.members.map Member.id ∧ ¬ s.Waiting mark (mark letter) then
      ({ s with queue := Function.update s.queue dest (s.queue dest ++ [letter]) },
        .posted dest letter)
    else (s, .refused)
  | .take owner =>
    ({ s with queue := Function.update s.queue owner [] }, .letters owner (s.queue owner))
  | .nonsense => (s, .ignored)

noncomputable def Service.serve (mark : Letter → Mark) :
    Service Id Name Card Letter → List (Request Id Name Card Letter) →
      Service Id Name Card Letter × List (Reply Id Name Card Letter)
  | s, [] => (s, [])
  | s, r :: later =>
    (((s.answer mark r).1.serve mark later).1,
      (s.answer mark r).2 :: ((s.answer mark r).1.serve mark later).2)

/-! Letters keep their order. -/

def postedTo (owner : Id) : Reply Id Name Card Letter → List Letter
  | .posted dest letter => if dest = owner then [letter] else []
  | _ => []

def takenBy (owner : Id) : Reply Id Name Card Letter → List Letter
  | .letters taker list => if taker = owner then list else []
  | _ => []

section Order
variable (mark : Letter → Mark)

theorem answer_in_order (s : Service Id Name Card Letter) (r : Request Id Name Card Letter)
    (owner : Id) : s.queue owner ++ postedTo owner (s.answer mark r).2 =
      takenBy owner (s.answer mark r).2 ++ (s.answer mark r).1.queue owner := by
  cases r with
  | join m =>
    simp only [Service.answer]
    split_ifs <;> simp [postedTo, takenBy]
  | directory asker => simp [Service.answer, postedTo, takenBy]
  | lookUp id => simp [Service.answer, postedTo, takenBy]
  | post dest letter =>
    simp only [Service.answer]
    split
    · by_cases here : dest = owner
      · subst here
        simp [postedTo, takenBy]
      · simp [postedTo, takenBy, here, Function.update_of_ne (Ne.symm here)]
    · simp [postedTo, takenBy]
  | take taker =>
    by_cases here : taker = owner
    · subst here
      simp [Service.answer, postedTo, takenBy]
    · simp [Service.answer, postedTo, takenBy, here, Function.update_of_ne (Ne.symm here)]
  | nonsense => simp [Service.answer, postedTo, takenBy]

theorem served_in_order (s : Service Id Name Card Letter)
    (requests : List (Request Id Name Card Letter)) (owner : Id) :
    s.queue owner ++ (s.serve mark requests).2.flatMap (postedTo owner) =
      (s.serve mark requests).2.flatMap (takenBy owner) ++
        (s.serve mark requests).1.queue owner := by
  induction requests generalizing s with
  | nil => simp [Service.serve]
  | cons r later ih =>
    simp only [Service.serve, List.flatMap_cons]
    rw [← List.append_assoc, answer_in_order, List.append_assoc, ih, List.append_assoc]

end Order

/-! What others post and take is of no concern to an owner. -/

def Concerns (owner : Id) : Request Id Name Card Letter → Bool
  | .post dest _ => dest = owner
  | .take taker => taker = owner
  | .nonsense => false
  | _ => true

def answersTo {Question Answer : Type} (kind : Question → Bool) (questions : List Question)
    (answers : List Answer) : List Answer :=
  ((questions.zip answers).filter fun x => kind x.1).map Prod.snd

theorem answers_to_cons {Question Answer : Type} (kind : Question → Bool) (q : Question)
    (questions : List Question) (a : Answer) (answers : List Answer) :
    answersTo kind (q :: questions) (a :: answers) =
      if kind q then a :: answersTo kind questions answers
      else answersTo kind questions answers := by
  rw [answersTo, List.zip_cons_cons, List.filter_cons]
  split <;> rfl

def marks (mark : Letter → Mark) (requests : List (Request Id Name Card Letter)) : List Mark :=
  requests.filterMap fun
    | .post _ letter => some (mark letter)
    | _ => none

/-- Two services that an owner cannot tell apart. -/
structure Alike (owner : Id) (s t : Service Id Name Card Letter) : Prop where
  members : s.members = t.members
  queue : s.queue owner = t.queue owner

section Isolation
variable {mark : Letter → Mark} {owner : Id} {s t : Service Id Name Card Letter}
  {r : Request Id Name Card Letter}

theorem waiting_after {m : Mark} (waiting : (s.answer mark r).1.Waiting mark m) :
    s.Waiting mark m ∨ m ∈ marks mark [r] := by
  obtain ⟨holder, l, listed, same⟩ := waiting
  cases r with
  | join other =>
    left
    simp only [Service.answer] at listed
    split_ifs at listed <;> exact ⟨holder, l, listed, same⟩
  | directory asker => exact Or.inl ⟨holder, l, listed, same⟩
  | lookUp id => exact Or.inl ⟨holder, l, listed, same⟩
  | post dest letter =>
    simp only [Service.answer] at listed
    split at listed
    · dsimp only at listed
      by_cases here : holder = dest
      · subst here
        rw [Function.update_self, List.mem_append, List.mem_singleton] at listed
        rcases listed with old | rfl
        · exact Or.inl ⟨holder, l, old, same⟩
        · exact Or.inr (same ▸ List.mem_singleton_self _)
      · rw [Function.update_of_ne here] at listed
        exact Or.inl ⟨holder, l, listed, same⟩
    · exact Or.inl ⟨holder, l, listed, same⟩
  | take taker =>
    left
    simp only [Service.answer] at listed
    by_cases here : holder = taker
    · subst here
      rw [Function.update_self] at listed
      cases listed
    · rw [Function.update_of_ne here] at listed
      exact ⟨holder, l, listed, same⟩
  | nonsense => exact Or.inl ⟨holder, l, listed, same⟩

theorem others_unheard (other : Concerns owner r = false) : Alike owner (s.answer mark r).1 s := by
  cases r with
  | post dest letter =>
    have not_mine : owner ≠ dest := Ne.symm (of_decide_eq_false other)
    simp only [Service.answer]
    split
    · exact ⟨rfl, Function.update_of_ne not_mine _ _⟩
    · exact ⟨rfl, rfl⟩
  | take taker =>
    have not_mine : owner ≠ taker := Ne.symm (of_decide_eq_false other)
    exact ⟨rfl, Function.update_of_ne not_mine _ _⟩
  | nonsense => exact ⟨rfl, rfl⟩
  | _ => cases other

theorem alike_answer (alike : Alike owner s t) (mine : Concerns owner r = true)
    (new_here : ∀ m ∈ marks mark [r], ¬ s.Waiting mark m)
    (new_there : ∀ m ∈ marks mark [r], ¬ t.Waiting mark m) :
    (s.answer mark r).2 = (t.answer mark r).2 ∧
      Alike owner (s.answer mark r).1 (t.answer mark r).1 := by
  obtain ⟨members, queue⟩ := alike
  cases r with
  | join m =>
    simp only [Service.answer, members]
    split_ifs
    · exact ⟨rfl, members, queue⟩
    · exact ⟨rfl, members, queue⟩
    · exact ⟨rfl, rfl, queue⟩
  | directory asker => exact ⟨by simp only [Service.answer, members], members, queue⟩
  | lookUp id => exact ⟨by simp only [Service.answer, members], members, queue⟩
  | post dest letter =>
    obtain rfl : dest = owner := of_decide_eq_true mine
    have free_here := new_here (mark letter) (List.mem_singleton_self _)
    have free_there := new_there (mark letter) (List.mem_singleton_self _)
    simp only [Service.answer, members, free_here, free_there, not_false_eq_true, and_true]
    split
    · exact ⟨rfl, rfl, by simp [queue]⟩
    · exact ⟨rfl, members, queue⟩
  | take taker =>
    obtain rfl : taker = owner := of_decide_eq_true mine
    exact ⟨by simp only [Service.answer, queue], members, by simp [Service.answer]⟩
  | nonsense => cases mine

theorem never_ignored (mine : Concerns owner r = true) : (s.answer mark r).2 ≠ .ignored := by
  cases r with
  | join m =>
    simp only [Service.answer]
    split_ifs <;> exact fun impossible => by cases impossible
  | post dest letter =>
    simp only [Service.answer]
    split <;> exact fun impossible => by cases impossible
  | nonsense => cases mine
  | _ => exact fun impossible => by cases impossible

theorem none_ignored (s : Service Id Name Card Letter)
    (requests : List (Request Id Name Card Letter)) :
    ∀ reply ∈ (s.serve mark (requests.filter (Concerns owner))).2, reply ≠ .ignored := by
  induction requests generalizing s with
  | nil =>
    intro reply impossible
    cases impossible
  | cons r later ih =>
    by_cases mine : Concerns owner r = true
    · rw [List.filter_cons_of_pos mine]
      intro reply listed
      rcases List.mem_cons.mp listed with rfl | rest
      · exact never_ignored mine
      · exact ih _ reply rest
    · rw [List.filter_cons_of_neg mine]
      exact ih s

/-- The requests that are of no concern can be left out: everything else is
    answered as before. -/
theorem served_alike (requests : List (Request Id Name Card Letter)) (alike : Alike owner s t)
    (distinct : (marks mark requests).Nodup)
    (new_here : ∀ m ∈ marks mark requests, ¬ s.Waiting mark m)
    (new_there : ∀ m ∈ marks mark requests, ¬ t.Waiting mark m) :
    answersTo (Concerns owner) requests (s.serve mark requests).2 =
        (t.serve mark (requests.filter (Concerns owner))).2 ∧
      Alike owner (s.serve mark requests).1
        (t.serve mark (requests.filter (Concerns owner))).1 := by
  induction requests generalizing s t with
  | nil => exact ⟨rfl, alike⟩
  | cons r later ih =>
    have marks_cons : marks mark (r :: later) = marks mark [r] ++ marks mark later := by
      rw [marks, marks, marks, ← List.filterMap_append, List.singleton_append]
    rw [marks_cons] at distinct new_here new_there
    obtain ⟨-, later_distinct, apart⟩ := List.nodup_append.mp distinct
    have later_new {u : Service Id Name Card Letter}
        (new : ∀ m ∈ marks mark [r] ++ marks mark later, ¬ u.Waiting mark m) :
        ∀ m ∈ marks mark later, ¬ (u.answer mark r).1.Waiting mark m := by
      intro m listed waiting
      rcases waiting_after waiting with before | posted
      · exact new m (List.mem_append_right _ listed) before
      · exact apart m posted m listed rfl
    by_cases mine : Concerns owner r = true
    · obtain ⟨same, still_alike⟩ := alike_answer alike mine
        (fun m listed => new_here m (List.mem_append_left _ listed))
        (fun m listed => new_there m (List.mem_append_left _ listed))
      rw [List.filter_cons_of_pos mine]
      simp only [Service.serve, answers_to_cons, mine, ↓reduceIte]
      obtain ⟨replies, rest⟩ := ih still_alike later_distinct (later_new new_here)
        (later_new new_there)
      exact ⟨by rw [same, replies], rest⟩
    · have other : Concerns owner r = false := by simpa using mine
      have unheard : Alike owner (s.answer mark r).1 s := others_unheard other
      have still_alike : Alike owner (s.answer mark r).1 t :=
        ⟨unheard.members.trans alike.members, unheard.queue.trans alike.queue⟩
      rw [List.filter_cons_of_neg mine]
      simp only [Service.serve, answers_to_cons, other, Bool.false_eq_true, ↓reduceIte]
      exact ih still_alike later_distinct (later_new new_here)
        fun m listed => new_there m (List.mem_append_right _ listed)

end Isolation
end MailService
