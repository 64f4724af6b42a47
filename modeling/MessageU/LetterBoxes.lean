import MessageU.GuardedRuns

/- What a store-and-forward mail service is for. Every letter accepted for an
   address either waits in its box or has been delivered to it, once; the letters
   of different addresses never mix. -/
namespace LetterBoxes
open GuardedRuns

structure Boxes (Address Letter : Type) where
  accepted : Address → Multiset Letter
  delivered : Address → Multiset Letter
  waiting : Address → Multiset Letter

inductive Move (Address Letter : Type) where
  | post (owner : Address) (letter : Letter)
  | collect (owner : Address)

variable {Address Letter : Type}

@[ext] theorem Boxes.ext {a b : Boxes Address Letter} (accepted : a.accepted = b.accepted)
    (delivered : a.delivered = b.delivered) (waiting : a.waiting = b.waiting) : a = b := by
  cases a; cases b
  simp_all

variable [DecidableEq Address]

/-- A post adds one letter to one box; a collection empties one box. -/
def Boxes.move (boxes : Boxes Address Letter) : Move Address Letter → Boxes Address Letter
  | .post owner letter =>
      { boxes with
        accepted := Function.update boxes.accepted owner (boxes.accepted owner + {letter})
        waiting := Function.update boxes.waiting owner (boxes.waiting owner + {letter}) }
  | .collect owner =>
      { boxes with
        delivered := Function.update boxes.delivered owner
          (boxes.delivered owner + boxes.waiting owner)
        waiting := Function.update boxes.waiting owner 0 }

def postal : StepSystem (Boxes Address Letter) (Move Address Letter) where
  start boxes := boxes = ⟨0, 0, 0⟩
  step boxes m after := after = boxes.move m

def Boxes.Conserved (boxes : Boxes Address Letter) : Prop :=
  ∀ a, boxes.accepted a = boxes.delivered a + boxes.waiting a

theorem move_conserved {boxes : Boxes Address Letter} (conserved : boxes.Conserved)
    (m : Move Address Letter) : (boxes.move m).Conserved := by
  intro a
  cases m with
  | post owner letter =>
    by_cases here : a = owner
    · subst here
      simp only [Boxes.move, Function.update_self]
      rw [conserved a, add_assoc]
    · simp only [Boxes.move, Function.update_of_ne here]
      exact conserved a
  | collect owner =>
    by_cases here : a = owner
    · subst here
      simp only [Boxes.move, Function.update_self]
      rw [conserved a, add_zero]
    · simp only [Boxes.move, Function.update_of_ne here]
      exact conserved a

theorem postal_conserved :
    Invariant (postal : StepSystem (Boxes Address Letter) (Move Address Letter))
      Boxes.Conserved where
  start boxes first := by
    intro a
    rw [show boxes = ⟨0, 0, 0⟩ from first]
    rfl
  step boxes m after conserved taken := by
    rw [show after = boxes.move m from taken]
    exact move_conserved conserved m

end LetterBoxes
