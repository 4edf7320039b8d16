import Casework.Error
import Casework.HumanInput.Request

/-!
# Who answers requests

* `Handler` : something that answers requests from a supply that does not last forever;
* `Handler.scripted` : answers in the order in which they are listed.
-/

namespace Casework

/-- Something that answers requests.  Every answer uses up part of a supply. -/
structure Handler (σ : Type) where
  answer : Request → σ → Except Error Response × σ
  /-- How many seconds it takes to answer. -/
  pace : Request → σ → Nat := fun _ _ => 0
  /-- How many answers there are at most. -/
  supply : σ → Nat
  supply_lt : ∀ {r : Request} {s s' : σ} {a : Response},
    answer r s = (.ok a, s') → supply s' < supply s

/-- The decision that a listed answer comes to: what it resolves to, else the answer itself. -/
def Request.decisionFor (r : Request) (answer : String) : String :=
  (r.resolve answer).getD answer

namespace Handler

def takeAnswer (r : Request) : List String → Except Error Response × List String
  | [] => (.error (.io (.other ("no scripted answer left for " ++ r.id))), [])
  | a :: rest => (.ok ⟨r.id, r.decisionFor a⟩, rest)

def scripted : Handler (List String) where
  answer := takeAnswer
  supply := List.length
  supply_lt {r s s' a} h := by
    cases s with
    | nil => simp [takeAnswer] at h
    | cons x rest =>
        simp only [takeAnswer, Prod.mk.injEq] at h
        obtain ⟨-, rfl⟩ := h
        simp

end Handler
end Casework
