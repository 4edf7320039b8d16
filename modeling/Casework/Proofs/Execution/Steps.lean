import Casework.Execution.Settle
import Casework.Proofs.Step.Visits

/-!
# Steps — the atomic steps of an execution, phase by phase

`Execution.advance` is one function on all phases.  Here it is taken apart: for an execution that is
running, one equation for each phase and each place in a visit, so that proofs about runs go through
the phases by name.

* `Execution.advance_of_starting` and its siblings : the equations;
* `Execution.Stepping`, `Execution.stepping` : all that an atomic step can be;
* `Execution.running_of_advance` : only a running execution moves;
* `Execution.caseId_of_advance` : it stays with its case;
* `Execution.advance_isSome` : it does so unless it waits or has ended.
-/

namespace Casework
namespace Execution

variable {g : Engine} {r : Readings} {x : Execution} {l : Ledger}
variable {d : Definition} {n : Nat} {s : StepDefinition} {e : Executor}

/-- An execution and the ledger after a step inside a visit. -/
def inVisit (x : Execution) (d : Definition) (n : Nat) (s : StepDefinition) (e : Executor)
    (out : Context × Ledger × Visit) : Execution × Ledger :=
  ({ x with context := out.1, phase := .visiting d n s e out.2.2 }, out.2.1)

/-- An execution and the ledger after a step between visits. -/
def betweenVisits (x : Execution) (out : Phase × Ledger) : Execution × Ledger :=
  ({ x with phase := out.1 }, out.2)

def IsAwaiting (x : Execution) : Prop :=
  ∃ d n s e w, x.phase = .visiting d n s e (.awaiting w)

/-! ## One equation for each phase -/

/-- An execution that is not finished runs. -/
theorem running_iff : x.isFinished = false ↔ x.status = .running := by
  unfold isFinished
  cases x.status <;> simp [ExecutionStatus.isFinished]

/-- Only an execution that runs makes a step. -/
theorem running_of_advance {b : Execution × Ledger} (h : x.advance g r l = some b) :
    x.status = .running := by
  unfold advance at h
  cases hs : x.status <;> simp [isFinished, ExecutionStatus.isFinished, hs] at h ⊢

theorem advance_of_starting (hs : x.status = .running) (hp : x.phase = .starting) :
    x.advance g r l = some (x.start l) := by
  simp [advance, isFinished, ExecutionStatus.isFinished, hs, hp]

theorem advance_of_opening (hs : x.status = .running) (hp : x.phase = .opening) :
    x.advance g r l = some (x.openCase g, l) := by
  simp [advance, isFinished, ExecutionStatus.isFinished, hs, hp]

theorem advance_of_dispatching {stepId : String} (hs : x.status = .running)
    (hp : x.phase = .dispatching d n stepId) :
    x.advance g r l = some ({ x with phase := dispatch g d n stepId }, l) := by
  simp [advance, isFinished, ExecutionStatus.isFinished, hs, hp]

theorem advance_of_entering (hs : x.status = .running)
    (hp : x.phase = .visiting d n s e .entering) :
    x.advance g r l = some (x.inVisit d n s e (Visit.enter g.settings e s r x.context l)) := by
  simp [advance, isFinished, ExecutionStatus.isFinished, hs, hp, Visit.advance, inVisit]

/-- A wait moves when its waiter does. -/
theorem advance_of_awaiting {w : Inbox.Waiter} (hs : x.status = .running)
    (hp : x.phase = .visiting d n s e (.awaiting w)) :
    x.advance g r l = (w.advance x.context.inbox r.time).map fun out =>
      x.inVisit d n s e ({ x.context with inbox := out.1 }, l, Visit.ofWaiter r out.2) := by
  simp [advance, isFinished, ExecutionStatus.isFinished, hs, hp, Visit.advance, inVisit,
    Function.comp_def]

theorem advance_of_decided {signal : Signal} (hs : x.status = .running)
    (hp : x.phase = .visiting d n s e (.decided signal)) :
    x.advance g r l = some (x.inVisit d n s e (Visit.settleDecision s x.context l signal)) := by
  simp [advance, isFinished, ExecutionStatus.isFinished, hs, hp, Visit.advance, inVisit]

theorem advance_of_analysed {a : Option Enrichment} {t : Instant} (hs : x.status = .running)
    (hp : x.phase = .visiting d n s e (.analysed a t)) :
    x.advance g r l = some (x.inVisit d n s e (Visit.settleEnrichment s x.context l a t)) := by
  simp [advance, isFinished, ExecutionStatus.isFinished, hs, hp, Visit.advance, inVisit]

theorem advance_of_left {result : Except Error Outcome} (hs : x.status = .running)
    (hp : x.phase = .visiting d n s e (.left result)) :
    x.advance g r l = some (x.betweenVisits (proceed x.context l d n s result)) := by
  simp [advance, isFinished, ExecutionStatus.isFinished, hs, hp, betweenVisits]

theorem advance_of_closing {result : Except Error Case} (hs : x.status = .running)
    (hp : x.phase = .closing result) : x.advance g r l = some (x.finish l r result) := by
  simp [advance, isFinished, ExecutionStatus.isFinished, hs, hp]

theorem advance_of_ended {result : Except Error Case} (hp : x.phase = .ended result) :
    x.advance g r l = none := by
  unfold advance
  split <;> simp [hp]

/-! ## All of them -/

/-- What an atomic step does, by the phase that it is taken from. -/
inductive Stepping (g : Engine) (r : Readings) (x : Execution) (l : Ledger) :
    Execution × Ledger → Prop
  | starting (hp : x.phase = .starting) : Stepping g r x l (x.start l)
  | opening (hp : x.phase = .opening) : Stepping g r x l (x.openCase g, l)
  | dispatching {d : Definition} {n : Nat} {stepId : String}
      (hp : x.phase = .dispatching d n stepId) :
      Stepping g r x l ({ x with phase := dispatch g d n stepId }, l)
  | entering {d : Definition} {n : Nat} {s : StepDefinition} {e : Executor}
      {out : Context × Ledger × Visit} (hp : x.phase = .visiting d n s e .entering)
      (ways : Visit.Entering g.settings s r x.context l e out) :
      Stepping g r x l (x.inVisit d n s e out)
  | awaiting {d : Definition} {n : Nat} {s : StepDefinition} {e : Executor} {w : Inbox.Waiter}
      {out : Inbox × Inbox.Waiter} (hp : x.phase = .visiting d n s e (.awaiting w))
      (hw : w.advance x.context.inbox r.time = some out) :
      Stepping g r x l
        (x.inVisit d n s e ({ x.context with inbox := out.1 }, l, Visit.ofWaiter r out.2))
  | decided {d : Definition} {n : Nat} {s : StepDefinition} {e : Executor} {signal : Signal}
      (hp : x.phase = .visiting d n s e (.decided signal)) :
      Stepping g r x l (x.inVisit d n s e (Visit.settleDecision s x.context l signal))
  | analysed {d : Definition} {n : Nat} {s : StepDefinition} {e : Executor}
      {a : Option Enrichment} {t : Instant} (hp : x.phase = .visiting d n s e (.analysed a t)) :
      Stepping g r x l (x.inVisit d n s e (Visit.settleEnrichment s x.context l a t))
  | left {d : Definition} {n : Nat} {s : StepDefinition} {e : Executor}
      {result : Except Error Outcome} (hp : x.phase = .visiting d n s e (.left result)) :
      Stepping g r x l (x.betweenVisits (proceed x.context l d n s result))
  | closing {result : Except Error Case} (hp : x.phase = .closing result) :
      Stepping g r x l (x.finish l r result)

/-- Whatever moves an execution is one of these. -/
theorem stepping {b : Execution × Ledger} (h : x.advance g r l = some b) :
    x.Stepping g r l b := by
  have hs := running_of_advance h
  cases hp : x.phase with
  | starting =>
      rw [advance_of_starting hs hp] at h
      cases h
      exact .starting hp
  | opening =>
      rw [advance_of_opening hs hp] at h
      cases h
      exact .opening hp
  | dispatching d n stepId =>
      rw [advance_of_dispatching hs hp] at h
      cases h
      exact .dispatching hp
  | visiting d n s e v =>
      cases v with
      | entering =>
          rw [advance_of_entering hs hp] at h
          cases h
          exact .entering hp (Visit.entering_spec g.settings e s r x.context l)
      | awaiting w =>
          rw [advance_of_awaiting hs hp] at h
          obtain ⟨out, hw, hout⟩ := Option.map_eq_some_iff.1 h
          cases hout
          exact .awaiting hp hw
      | decided signal =>
          rw [advance_of_decided hs hp] at h
          cases h
          exact .decided hp
      | analysed a t =>
          rw [advance_of_analysed hs hp] at h
          cases h
          exact .analysed hp
      | left result =>
          rw [advance_of_left hs hp] at h
          cases h
          exact .left hp
  | closing result =>
      rw [advance_of_closing hs hp] at h
      cases h
      exact .closing hp
  | ended result =>
      rw [advance_of_ended hp] at h
      cases h

/-- A definition is loaded, checked if the settings ask for it, and then the payload is read. -/
theorem prepare_eq (g : Engine) (launch : Launch) :
    prepare g launch =
      match g.loader.load launch.processName launch.processVersion with
      | .error e => .error e
      | .ok d =>
          match if g.settings.validateOnLoad then g.registry.validate d else .ok () with
          | .error e => .error e
          | .ok () =>
              match CaseInput.ofPayload launch.payload with
              | .ok input => .ok (d, input)
              | .error f => .error (.json f) := by
  unfold prepare
  cases hload : g.loader.load launch.processName launch.processVersion with
  | error e =>
      rfl
  | ok d =>
      by_cases hv : g.settings.validateOnLoad = true
      · cases hvalid : g.registry.validate d with
        | error e =>
            simp [hv, hvalid, bind, Except.bind]
        | ok u =>
            cases CaseInput.ofPayload launch.payload <;>
              simp [hv, hvalid, bind, Except.bind, pure, Except.pure, throw, throwThe,
                MonadExceptOf.throw]
      · cases CaseInput.ofPayload launch.payload <;>
          simp [hv, bind, Except.bind, pure, Except.pure, throw, throwThe,
            MonadExceptOf.throw]

theorem payload_of_prepare {launch : Launch} {out : Definition × CaseInput}
    (h : prepare g launch = .ok out) : CaseInput.ofPayload launch.payload = .ok out.2 := by
  rw [prepare_eq] at h
  split at h
  · cases h
  · split at h
    · cases h
    · split at h
      · next hinput =>
          cases h
          exact hinput
      · cases h

/-- A failure is the result, whether it could be recorded or not. -/
theorem close_error (c : Context) (l : Ledger) (r : Readings) (fault : Error) :
    (close c l r (.error fault)).2.2 = .error fault := by
  unfold close
  dsimp only
  cases c.log.fail l.journal fault r.now <;> rfl

theorem published_close (c : Context) (l : Ledger) (r : Readings) (result : Except Error Case) :
    (close c l r result).1.published = c.published := by
  unfold close
  cases result with
  | ok k =>
      dsimp only
      cases c.log.complete l.journal k.status k.details.updatedAt <;> rfl
  | error fault =>
      dsimp only
      cases c.log.fail l.journal fault r.now <;> rfl

theorem caseId_close (c : Context) (l : Ledger) (r : Readings) (result : Except Error Case) :
    (close c l r result).1.caseId = c.caseId := by
  unfold close
  cases result with
  | ok k =>
      dsimp only
      cases c.log.complete l.journal k.status k.details.updatedAt <;> rfl
  | error fault =>
      dsimp only
      cases c.log.fail l.journal fault r.now <;> rfl

/-- No visit changes the case that a context is about. -/
theorem caseId_of_entering {settings : EngineSettings} {c : Context}
    {out : Context × Ledger × Visit} (h : Visit.Entering settings s r c l e out) :
    out.1.caseId = c.caseId := by
  cases h with
  | @analysed enricher output t a rest recorded readable => cases a <;> rfl
  | _ => rfl

theorem caseId_settleEnrichment (c : Context) (a : Option Enrichment) (t : Instant) :
    (Visit.settleEnrichment s c l a t).1.caseId = c.caseId := by
  unfold Visit.settleEnrichment
  split
  · rfl
  · cases a <;> rfl

/-- An execution stays with its case. -/
theorem caseId_of_advance {b : Execution × Ledger} (h : x.advance g r l = some b) :
    b.1.caseId = x.caseId := by
  cases stepping h with
  | starting _ =>
      unfold start
      split <;> rfl
  | opening _ =>
      unfold openCase
      split <;> rfl
  | entering _ ways => exact caseId_of_entering ways
  | decided _ =>
      simp only [inVisit, caseId, Visit.settleDecision]
      split <;> rfl
  | @analysed _ _ _ _ a t _ => exact caseId_settleEnrichment x.context a t
  | @closing result _ => exact caseId_close x.context l r result
  | _ => rfl

/-- A running execution moves, unless it waits or has ended. -/
theorem advance_isSome (hs : x.status = .running) (hawait : ¬ x.IsAwaiting)
    (hended : ∀ result, x.phase ≠ .ended result) : (x.advance g r l).isSome := by
  cases hp : x.phase with
  | starting => simp [advance_of_starting hs hp]
  | opening => simp [advance_of_opening hs hp]
  | dispatching d n stepId => simp [advance_of_dispatching hs hp]
  | visiting d n s e v =>
      cases v with
      | entering => simp [advance_of_entering hs hp]
      | awaiting w => exact absurd ⟨d, n, s, e, w, hp⟩ hawait
      | decided signal => simp [advance_of_decided hs hp]
      | analysed a t => simp [advance_of_analysed hs hp]
      | left result => simp [advance_of_left hs hp]
  | closing result => simp [advance_of_closing hs hp]
  | ended result => exact absurd hp (hended result)

end Execution
end Casework
