import Casework.Error
import Casework.Json.Decoder

/-!
# Transitions

The conditional edges of a process, and the choice of the next step.

* `Transition` : an edge, taken on one signal value or, without one, by default;
* `Transition.resolve` : the choice.  The first transition for the signal wins; if there is none,
  the first default one.  The position of a default never matters for a signal with a transition
  of its own.
-/

namespace Casework

/-- A conditional edge to another step. -/
structure Transition where
  /-- The signal value the edge is taken on; none for a default edge. -/
  onSignal : Option String
  /-- The step it leads to. -/
  nextStep : String
deriving DecidableEq, Repr

namespace Transition

def on (signal next : String) : Transition := ⟨some signal, next⟩

def defaultTo (next : String) : Transition := ⟨none, next⟩

def isDefault (t : Transition) : Bool := t.onSignal.isNone

def firesOn (signal : String) (t : Transition) : Bool := t.onSignal == some signal

def exactMatch? (ts : List Transition) (signal : Option String) : Option Transition :=
  signal.bind fun s => ts.find? (firesOn s)

/-- The edge to take: the first one for the signal, else the first default one. -/
def choose? (ts : List Transition) (signal : Option String) : Option Transition :=
  (exactMatch? ts signal).or (ts.find? isDefault)

/-- The next step for a signal at the step `stepId`. -/
def resolve (stepId : String) (ts : List Transition) (signal : Option String) :
    Except Error String :=
  match choose? ts signal with
  | some t => .ok t.nextStep
  | none => .error (.noMatchingTransition stepId signal)

def decoder : Decoder Transition :=
  .record "Transition" <|
    mk <$> Slots.withDefault "on_signal" Decoder.text.option none
      <*> Slots.required "next_step" Decoder.text ["next"]

instance : ToValue Transition :=
  ⟨fun t => .obj [("on_signal", toValue t.onSignal), ("next_step", toValue t.nextStep)]⟩

/-- The choice fails only for want of an edge. -/
theorem resolve_eq_error_iff {stepId : String} {ts : List Transition} {signal : Option String}
    {e : Error} :
    resolve stepId ts signal = .error e ↔
      choose? ts signal = none ∧ e = .noMatchingTransition stepId signal := by
  unfold resolve
  cases h : choose? ts signal <;> simp [eq_comm]

/-- What is chosen is one of the transitions. -/
theorem mem_of_choose? {ts : List Transition} {signal : Option String} {t : Transition}
    (h : choose? ts signal = some t) : t ∈ ts := by
  unfold choose? exactMatch? at h
  rcases Option.or_eq_some_iff.1 h with h | ⟨_, h⟩
  · obtain ⟨s, _, hs⟩ := Option.bind_eq_some_iff.1 h
    exact List.mem_of_find?_eq_some hs
  · exact List.mem_of_find?_eq_some h

end Transition
end Casework
