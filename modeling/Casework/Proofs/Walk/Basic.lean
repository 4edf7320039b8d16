import Casework.Execution.Basic

/-!
# Walks — what a definition prescribes for a list of decisions

A definition, a registry and a limit on dispatches already determine which steps a list of decision
values leads through and how it ends.  No journal, inbox, clock or published case takes part:

* `Walk` : the steps that are run, in order, and the `Verdict` they come to;
* `Walk.edge?` : the way out of a step, for a signal value or by default;
* `Walk.atStep` : one step, with what comes after it left open;
* `Walk.fromStep` : all steps from one on, with a number of dispatches left;
* `Walk.of` : the whole walk of a fresh execution, from the validation of its definition on.
-/

namespace Casework

inductive Verdict where
  /-- A step ended it with this status label. -/
  | completed (status : String)
  | failed (e : Error)
  /-- The decisions are used up and the step with this id waits for another one. -/
  | suspended (stepId : String)

/-- The ids of the steps that are run, in order, and what they come to. -/
structure Walk where
  visited : List String
  verdict : Verdict

namespace Walk

def stop (v : Verdict) : Walk := ⟨[], v⟩

def after (ids : List String) (w : Walk) : Walk := ⟨ids ++ w.visited, w.verdict⟩

@[simp] theorem after_nil (w : Walk) : w.after [] = w := rfl

theorem after_append (ids more : List String) (w : Walk) :
    w.after (ids ++ more) = (w.after more).after ids := by
  simp [after]

/-- The step that the first transition under a signal value leads to, or, without one or with no
such transition, the step that the first default transition leads to. -/
def edge? (ts : List Transition) : Option String → Option String
  | none => (ts.find? fun t => t.onSignal.isNone).map Transition.nextStep
  | some value =>
      match ts.find? fun t => t.onSignal == some value with
      | some t => some t.nextStep
      | none => (ts.find? fun t => t.onSignal.isNone).map Transition.nextStep

def leave (s : StepDefinition) (signal : Option String) (go : String → Walk) : Walk :=
  match edge? s.transitions signal with
  | some next => go next
  | none => stop (.failed (.noMatchingTransition s.stepId signal))

def await (s : StepDefinition) (go : List String → String → Walk) : List String → Walk
  | [] => stop (.suspended s.stepId)
  | value :: values => leave s (some value) (go values)

/-- Runs a step on the data of the case and the decisions still to come. -/
def atStep (x : Executor) (s : StepDefinition) (data : CaseData) (values : List String)
    (go : CaseData → List String → String → Walk) : Walk :=
  match x with
  | .finalCommit =>
      match s.config CommitConfig.decoder with
      | .error e => stop (.failed e)
      | .ok config => stop (.completed config.finalStatus)
  | .humanInTheLoop =>
      match s.config ReviewConfig.decoder with
      | .error e => stop (.failed e)
      | .ok _ => await s (go data) values
  | .caseEnrichment none => leave s none (go data values)
  | .caseEnrichment (some enricher) =>
      match enricher.analyse data with
      | .error e => stop (.failed e)
      | .ok e => leave s none (go { data with enrichment := e } values)

/-- Runs the steps from one on, with so many dispatches left. -/
def fromStep (g : Engine) (d : Definition) :
    Nat → CaseData → List String → String → Walk
  | 0, _, _, _ => stop (.failed (.stepLimitExceeded g.settings.maxSteps))
  | left + 1, data, values, stepId =>
      match d.steps.find? fun s => s.stepId == stepId with
      | none => stop (.failed (.stepNotFound stepId))
      | some s =>
          match g.registry.executor? s.stepType with
          | none => stop (.failed (.unknownStepType s.stepId s.stepType))
          | some x => (atStep x s data values (fromStep g d left)).after [s.stepId]

def openingData (input : CaseInput) : CaseData :=
  ⟨input.amount, input.currency, input.category, .pending⟩

/-- The walk of a fresh execution: the definition is validated if there is one and the settings ask
for it, then the payload is read, then the steps are run from the initial one on. -/
def of (g : Engine) (loaded : Except Error Definition) (payload : Value) (values : List String) :
    Walk :=
  match loaded with
  | .error e => stop (.failed e)
  | .ok d =>
      match if g.settings.validateOnLoad then g.registry.validate d else .ok () with
      | .error e => stop (.failed e)
      | .ok () =>
          match CaseInput.ofPayload payload with
          | .error f => stop (.failed (.json f))
          | .ok input =>
              fromStep g d g.settings.maxSteps (openingData input) values d.initialStep

/-! ## The parts in terms of executions -/

/-- The choice of a transition takes the same way out. -/
theorem next_eq (s : StepDefinition) (signal : Option String) :
    s.next signal =
      match edge? s.transitions signal with
      | some next => .ok next
      | none => .error (.noMatchingTransition s.stepId signal) := by
  have hdefault : (Transition.isDefault : Transition → Bool) = fun t => t.onSignal.isNone := rfl
  unfold StepDefinition.next Transition.resolve Transition.choose? Transition.exactMatch?
  cases signal with
  | none =>
      rw [hdefault]
      cases h : s.transitions.find? fun t => t.onSignal.isNone <;> simp [edge?, h]
  | some value =>
      have hfires : Transition.firesOn value = fun t => t.onSignal == some value := rfl
      rw [hdefault, Option.bind_some, hfires]
      cases hexact : s.transitions.find? fun t => t.onSignal == some value with
      | some t =>
          simp [edge?, hexact]
      | none =>
          cases h : s.transitions.find? fun t => t.onSignal.isNone <;> simp [edge?, hexact, h]

end Walk
end Casework
