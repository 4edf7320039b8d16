import Casework.Proofs.Execution.Steps
import Mathlib.Logic.Relation

/-!
# The outside world — what may change between two atomic steps

An execution reads clocks and fresh ids, shares its ledger with other executions, and asks
collaborators that need not give the same answer twice.  What it relies on to stay the same is the
rest of its engine.

* `Engine.Alike` : engines that differ in what their collaborators answer;
* `Execution.of_deliver`, `Execution.cancel_cases`, `Execution.cancel_eq` : what a host may do to an
  execution;
* `Moves` : one event in the life of an execution, in a world that may have changed;
* `Reaches` : any number of them.
-/

namespace Casework

namespace Executor

def core : Executor → Executor
  | .humanInTheLoop => .humanInTheLoop
  | .finalCommit => .finalCommit
  | .caseEnrichment enricher => .caseEnrichment (enricher.map fun _ => .fixed .pending)

/-- What an executor finds to fit does not depend on its collaborator. -/
theorem validate_of_core {e e' : Executor} (h : e.core = e'.core) (s : StepDefinition) :
    e.validate s = e'.validate s := by
  cases e with
  | humanInTheLoop =>
      cases e' with
      | humanInTheLoop => rfl
      | finalCommit => cases h
      | caseEnrichment _ => cases h
  | finalCommit =>
      cases e' with
      | humanInTheLoop => cases h
      | finalCommit => rfl
      | caseEnrichment _ => cases h
  | caseEnrichment _ =>
      cases e' with
      | humanInTheLoop => cases h
      | finalCommit => cases h
      | caseEnrichment _ => rfl

end Executor

/-- Engines that differ at most in what their collaborators answer. -/
structure Engine.Alike (g g' : Engine) : Prop where
  loader : g'.loader = g.loader
  settings : g'.settings = g.settings
  executors : ∀ tag,
    (g'.registry.executor? tag).map Executor.core = (g.registry.executor? tag).map Executor.core

namespace Engine.Alike

variable {g g' : Engine}

theorem refl (g : Engine) : g.Alike g :=
  ⟨rfl, rfl, fun _ => rfl⟩

/-- A step is run by the same kind of executor, or by none in both. -/
theorem executorOf (h : g.Alike g') (s : StepDefinition) :
    (g'.registry.executorOf s).map Executor.core = (g.registry.executorOf s).map Executor.core := by
  have hcore := h.executors s.stepType
  -- Both registries know the type of the step, or neither does.
  unfold Registry.executorOf
  cases he : g.registry.executor? s.stepType with
  | none =>
      cases he' : g'.registry.executor? s.stepType with
      | none => rfl
      | some e' => simp [he, he'] at hcore
  | some e =>
      cases he' : g'.registry.executor? s.stepType with
      | none => simp [he, he'] at hcore
      | some e' => simpa [he, he', Except.map] using hcore

theorem validateStep (h : g.Alike g') (s : StepDefinition) :
    g'.registry.validateStep s = g.registry.validateStep s := by
  have hcore := h.executorOf s
  unfold Registry.validateStep
  cases he : g.registry.executorOf s with
  | error fault =>
      cases he' : g'.registry.executorOf s with
      | error fault' =>
          have hfault : fault' = fault := by simpa [he, he', Except.map] using hcore
          rw [hfault]
      | ok e' => simp [he, he', Except.map] at hcore
  | ok e =>
      cases he' : g'.registry.executorOf s with
      | error fault' => simp [he, he', Except.map] at hcore
      | ok e' =>
          have hsame : e'.core = e.core := by simpa [he, he', Except.map] using hcore
          exact Executor.validate_of_core hsame s

/-- Engines that differ in their collaborators only find the same processes valid. -/
theorem validate (h : g.Alike g') (d : Definition) :
    g'.registry.validate d = g.registry.validate d := by
  -- Beyond the steps, one by one, a registry has no part in it.
  have hsteps : ∀ steps, g'.registry.validateSteps steps = g.registry.validateSteps steps := by
    intro steps
    induction steps with
    | nil => rfl
    | cons s rest ih => simp [Registry.validateSteps, h.validateStep s, ih]
  simp [Registry.validate, hsteps]

/-- The same definition and the same input are prepared. -/
theorem prepare (h : g.Alike g') (launch : Launch) :
    Execution.prepare g' launch = Execution.prepare g launch := by
  simp only [Execution.prepare, h.loader, h.settings, h.validate]

end Engine.Alike

/-! ## Events -/

namespace Execution

def withInbox (x : Execution) (inbox : Inbox) : Execution :=
  { x with context := { x.context with inbox := inbox } }

variable {x x' : Execution} {s : Signal} {disposition : Disposition}

/-- A delivery changes the inbox of an execution that is not finished. -/
theorem of_deliver (h : x.deliver s = .ok (x', disposition)) :
    x.isFinished = false ∧ ∃ inbox, x' = x.withInbox inbox := by
  unfold deliver at h
  cases hfinished : x.isFinished with
  | true => simp [hfinished] at h
  | false =>
      rw [hfinished] at h
      cases h
      exact ⟨rfl, _, rfl⟩

/-- Its host stops an execution where it stands, if it is not finished. -/
theorem cancel_cases (x : Execution) :
    (x.isFinished = true ∧ x.cancel = x) ∨
      (x.isFinished = false ∧ x.cancel = { x with status := .cancelled }) := by
  unfold cancel
  cases hfinished : x.isFinished with
  | true => exact .inl ⟨rfl, rfl⟩
  | false => exact .inr ⟨rfl, rfl⟩

/-- Stopping an execution touches nothing but its status. -/
theorem cancel_eq (x : Execution) : x.cancel = { x with status := x.cancel.status } := by
  rcases cancel_cases x with ⟨-, hsame⟩ | ⟨-, hstopped⟩
  · rw [hsame]
  · rw [hstopped]

@[simp] theorem context_cancel (x : Execution) : x.cancel.context = x.context := by
  rw [cancel_eq]

@[simp] theorem phase_cancel (x : Execution) : x.cancel.phase = x.phase := by
  rw [cancel_eq]

@[simp] theorem launch_cancel (x : Execution) : x.cancel.launch = x.launch := by
  rw [cancel_eq]

/-- Stopping an execution finishes it, unless it was finished before. -/
theorem isFinished_cancel (x : Execution) : x.cancel.isFinished = true := by
  rcases cancel_cases x with ⟨hfinished, hsame⟩ | ⟨-, hstopped⟩
  · rw [hsame]
    exact hfinished
  · rw [hstopped]
    rfl

end Execution

/-- One event in the life of an execution: an atomic step in whatever world there is at the time, a
delivery, or its end by the host. -/
inductive Moves (g : Engine) : Execution → Execution → Prop
  | step {g' : Engine} {r : Readings} {x x' : Execution} {l l' : Ledger} (alike : g.Alike g')
      (h : x.advance g' r l = some (x', l')) : Moves g x x'
  | deliver {x x' : Execution} {s : Signal} {disposition : Disposition}
      (h : x.deliver s = .ok (x', disposition)) : Moves g x x'
  | cancel (x : Execution) : Moves g x x.cancel

abbrev Reaches (g : Engine) : Execution → Execution → Prop :=
  Relation.ReflTransGen (Moves g)

end Casework
