import Casework.Proofs.Execution.Approval
import Casework.Proofs.Execution.Writing
import Casework.Proofs.Walk.Session

/-!
# Simulation — sessions of a fresh execution follow the pure walk

The walk takes no part in a run: it is read off the phase of the execution and the values still to
come, and every atomic step uses up as much of it as the execution has done.

* `Expects` : the walk that an execution still has before it;
* `Expects.continues` : one atomic step;
* `Session.expects` : a whole session;
* `fresh_follows_walk` : a fresh execution visits the steps of its walk and comes to its verdict.
-/

namespace Casework

namespace Walk

def verdictOf : Except Error Case → Verdict
  | .ok k => .completed k.status
  | .error e => .failed e

end Walk

/-! ## The walk before an execution -/

/-- The waits of an untimed session: about to look into the slot, asleep, or woken by the decision
that was delivered. -/
inductive Stands : Option Signal → Inbox.Waiter → Inbox → Prop
  | looking (signal : Option Signal) : Stands signal ⟨0, none, .checking⟩ { slot := signal }
  | asleep : Stands none ⟨0, none, .parked⟩ { parked := [0] }
  | woken (signal : Signal) :
      Stands (some signal) ⟨0, none, .parked⟩ { slot := some signal, woken := [0] }

/-- An execution with an open case that is not replaying. -/
structure Walking (g : Engine) (d : Definition) (x : Execution) (k : Case) : Prop where
  untimed : g.Untimed d
  running : x.status = .running
  published : x.context.published = some k
  pending : x.context.log.pending = []

/-- What an execution walks with does not depend on its phase and its inbox. -/
theorem Walking.of_log {g : Engine} {d : Definition} {x y : Execution} {k k' : Case}
    (walking : Walking g d x k) (status : y.status = x.status)
    (log : y.context.log = x.context.log) (published : y.context.published = some k') :
    Walking g d y k' := by
  refine ⟨walking.untimed, status.trans walking.running, published, ?_⟩
  rw [log]
  exact walking.pending

open Walk in
/-- The walk that an execution has before it with the values still to come. -/
inductive Expects (g : Engine) (x : Execution) : List String → Walk → Prop
  | unopened {values : List String}
      (untimed : ∀ d, g.loader.load x.launch.processName x.launch.processVersion = .ok d →
        g.Untimed d)
      (running : x.status = .running) (pending : x.context.log.pending = [])
      (inbox : x.context.inbox = {}) (hp : x.phase = .starting ∨ x.phase = .opening) :
      Expects g x values
        (Walk.of g (g.loader.load x.launch.processName x.launch.processVersion) x.launch.payload
          values)
  | dispatching {values : List String} {d : Definition} {k : Case} {n : Nat} {stepId : String}
      (walking : Walking g d x k) (inbox : x.context.inbox = {})
      (hp : x.phase = .dispatching d n stepId) :
      Expects g x values (fromStep g d (g.settings.maxSteps - n) k.details.data values stepId)
  | entering {values : List String} {d : Definition} {k : Case} {n : Nat}
      {s : StepDefinition} {e : Executor} (walking : Walking g d x k)
      (inbox : x.context.inbox = {}) (mem : s ∈ d.steps)
      (hp : x.phase = .visiting d n s e .entering) :
      Expects g x values
        ((atStep e s k.details.data values (fromStep g d (g.settings.maxSteps - n))).after
          [s.stepId])
  | awaiting {values : List String} {d : Definition} {k : Case} {n : Nat} {s : StepDefinition}
      {e : Executor} (signal : Option Signal) {w : Inbox.Waiter} (walking : Walking g d x k)
      (stands : Stands signal w x.context.inbox)
      (hp : x.phase = .visiting d n s e (.awaiting w)) :
      Expects g x values
        (await s (fromStep g d (g.settings.maxSteps - n) k.details.data)
          ((signal.map Signal.value).toList ++ values))
  | decided {values : List String} {d : Definition} {k : Case} {n : Nat}
      {s : StepDefinition} {e : Executor} {signal : Signal} (walking : Walking g d x k)
      (inbox : x.context.inbox = {})
      (hp : x.phase = .visiting d n s e (.decided signal)) :
      Expects g x values
        (leave s (some signal.value)
          (fromStep g d (g.settings.maxSteps - n) k.details.data values))
  | analysed {values : List String} {d : Definition} {k : Case} {n : Nat}
      {s : StepDefinition} {e : Executor} {a : Option Enrichment} {t : Instant}
      (walking : Walking g d x k) (inbox : x.context.inbox = {})
      (hp : x.phase = .visiting d n s e (.analysed a t)) :
      Expects g x values
        (leave s none (fromStep g d (g.settings.maxSteps - n)
          { k.details.data with enrichment := a.getD k.details.data.enrichment } values))
  | left {values : List String} {d : Definition} {k : Case} {n : Nat}
      {s : StepDefinition} {e : Executor} {stepId : String} (walking : Walking g d x k)
      (inbox : x.context.inbox = {})
      (hp : x.phase = .visiting d n s e (.left (.ok (.next stepId)))) :
      Expects g x values (fromStep g d (g.settings.maxSteps - n) k.details.data values stepId)
  | terminating {values : List String} {d : Definition} {k : Case} {n : Nat}
      {s : StepDefinition} {e : Executor} (walking : Walking g d x k)
      (hp : x.phase = .visiting d n s e (.left (.ok .terminate))) :
      Expects g x values (stop (.completed k.status))
  | failing {values : List String} {d : Definition} {k : Case} {n : Nat}
      {s : StepDefinition} {e : Executor} {fault : Error} (walking : Walking g d x k)
      (hp : x.phase = .visiting d n s e (.left (.error fault))) :
      Expects g x values (stop (.failed fault))
  | closing {values : List String} {result : Except Error Case} (running : x.status = .running)
      (pending : x.context.log.pending = []) (hp : x.phase = .closing result)
      (agree : ∀ k, result = .ok k → x.context.published = some k) :
      Expects g x values (stop (verdictOf result))
  | ended {values : List String} {result : Except Error Case}
      (status : x.status = .ofResult result) (hp : x.phase = .ended result)
      (agree : ∀ k, result = .ok k → x.context.published = some k) :
      Expects g x values (stop (verdictOf result))

/-! ## One atomic step -/

/-- A state reached with a step, from which the walk goes on. -/
def Continues (g : Engine) (x : Execution) (values : List String) (w : Walk)
    (b : Execution × Ledger) : Prop :=
  ∃ w', Expects g b.1 values w' ∧ w = w'.after x.entering ∧
    b.2.journal.Accepts b.1.context.log.caseId

section Step

variable {g : Engine} {d : Definition} {x : Execution} {l : Ledger} {r : Readings}
variable {values : List String} {k : Case} {n : Nat} {s : StepDefinition} {e : Executor}

open Walk Execution

/-- Leaving a visit goes on as the walk leaves the step. -/
theorem continues_leave {values : List String} {signal : Option String} {y : Execution}
    (walking : Walking g d y k) (inbox : y.context.inbox = {})
    (hp : y.phase = .visiting d n s e (Visit.leave s signal)) :
    Expects g y values
      (leave s signal (fromStep g d (g.settings.maxSteps - n) k.details.data values)) := by
  unfold Visit.leave at hp
  rw [Walk.next_eq] at hp
  unfold leave
  cases hedge : edge? s.transitions signal with
  | some next =>
      rw [hedge] at hp
      exact .left walking inbox hp
  | none =>
      rw [hedge] at hp
      exact .failing walking hp

theorem continues_start
    (untimed : ∀ d, g.loader.load x.launch.processName x.launch.processVersion = .ok d →
      g.Untimed d)
    (running : x.status = .running) (pending : x.context.log.pending = [])
    (inbox : x.context.inbox = {}) (accepts : l.journal.Accepts x.context.log.caseId)
    (hp : x.phase = .starting) :
    Continues g x values
      (Walk.of g (g.loader.load x.launch.processName x.launch.processVersion) x.launch.payload
        values) (x.start l) := by
  obtain ⟨j, happend, hj⟩ := Journal.append_of_accepts accepts x.startEntry
  rw [start_of_kept happend]
  refine ⟨_, .unopened untimed running pending inbox (.inr rfl), ?_, hj⟩
  simp [Execution.entering, hp]

theorem continues_open
    (untimed : ∀ d, g.loader.load x.launch.processName x.launch.processVersion = .ok d →
      g.Untimed d)
    (running : x.status = .running) (pending : x.context.log.pending = [])
    (inbox : x.context.inbox = {}) (accepts : l.journal.Accepts x.context.log.caseId)
    (hp : x.phase = .opening) :
    Continues g x values
      (Walk.of g (g.loader.load x.launch.processName x.launch.processVersion) x.launch.payload
        values) (x.openCase g, l) := by
  have hentering : x.entering = [] := by simp [Execution.entering, hp]
  -- Whichever check fails first, it is the same one in both.
  have hstops : ∀ fault, prepare g x.launch = .error fault →
      Walk.of g (g.loader.load x.launch.processName x.launch.processVersion) x.launch.payload
        values = stop (.failed fault) →
      Continues g x values
        (Walk.of g (g.loader.load x.launch.processName x.launch.processVersion) x.launch.payload
          values) (x.openCase g, l) := by
    intro fault hprepare hwalk
    unfold Execution.openCase
    rw [hprepare, hwalk]
    refine ⟨_, .closing running pending rfl (by simp), ?_, accepts⟩
    rw [hentering]
    rfl
  cases hload : g.loader.load x.launch.processName x.launch.processVersion with
  | error fault =>
      rw [hload] at hstops
      exact hstops fault (by simp [prepare_eq, hload]) rfl
  | ok d =>
      rw [hload] at hstops
      cases hvalid : (if g.settings.validateOnLoad then g.registry.validate d else .ok ()) with
      | error fault =>
          exact hstops fault (by simp [prepare_eq, hload, hvalid]) (by simp [Walk.of, hvalid])
      | ok u =>
          cases hinput : CaseInput.ofPayload x.launch.payload with
          | error f =>
              exact hstops (.json f) (by simp [prepare_eq, hload, hvalid, hinput])
                (by simp [Walk.of, hvalid, hinput])
          | ok input =>
              have hprepare : prepare g x.launch = .ok (d, input) := by
                simp [prepare_eq, hload, hvalid, hinput]
              have hwalk : Walk.of g (.ok d) x.launch.payload values =
                  fromStep g d g.settings.maxSteps (openingData input) values d.initialStep := by
                simp [Walk.of, hvalid, hinput]
              unfold Execution.openCase
              rw [hprepare, hwalk]
              refine ⟨_, .dispatching ⟨untimed d hload, running, rfl, pending⟩ inbox rfl, ?_,
                accepts⟩
              rw [hentering]
              rfl

theorem continues_dispatch {stepId : String} (walking : Walking g d x k)
    (inbox : x.context.inbox = {}) (accepts : l.journal.Accepts x.context.log.caseId)
    (hp : x.phase = .dispatching d n stepId) :
    Continues g x values
      (fromStep g d (g.settings.maxSteps - n) k.details.data values stepId)
      ({ x with phase := dispatch g d n stepId }, l) := by
  have hentering : x.entering = [] := by simp [Execution.entering, hp]
  have hstops : ∀ fault, dispatch g d n stepId = .closing (.error fault) →
      fromStep g d (g.settings.maxSteps - n) k.details.data values stepId
        = stop (.failed fault) →
      Continues g x values
        (fromStep g d (g.settings.maxSteps - n) k.details.data values stepId)
        ({ x with phase := dispatch g d n stepId }, l) := by
    intro fault hphase hwalk
    rw [hphase, hwalk]
    refine ⟨_, .closing walking.running walking.pending rfl (by simp), ?_, accepts⟩
    rw [hentering]
    rfl
  -- The walk counts the dispatches that are left, the execution those it has made.
  by_cases hlimit : g.settings.maxSteps ≤ n
  · have hzero : g.settings.maxSteps - n = 0 := by omega
    refine hstops (.stepLimitExceeded g.settings.maxSteps) ?_ ?_
    · simp [dispatch, hlimit]
    · rw [hzero]
      rfl
  · have hsucc : g.settings.maxSteps - n = (g.settings.maxSteps - (n + 1)) + 1 := by omega
    cases hstep : d.steps.find? fun s => s.stepId == stepId with
    | none =>
        refine hstops (.stepNotFound stepId) ?_ ?_
        · simp [dispatch, hlimit, selectStep, Definition.step?, hstep]
        · simp [hsucc, fromStep, hstep]
    | some s =>
        cases hexecutor : g.registry.executor? s.stepType with
        | none =>
            refine hstops (.unknownStepType s.stepId s.stepType) ?_ ?_
            · simp [dispatch, hlimit, selectStep, Definition.step?, hstep, Registry.executorOf,
                hexecutor, Except.map]
            · simp [hsucc, fromStep, hstep, hexecutor]
        | some e =>
            have hmem : s ∈ d.steps := List.mem_of_find?_eq_some hstep
            have hphase : dispatch g d n stepId = .visiting d (n + 1) s e .entering := by
              simp [dispatch, hlimit, selectStep, Definition.step?, hstep, Registry.executorOf,
                hexecutor, Except.map]
            have hwalk : fromStep g d (g.settings.maxSteps - n) k.details.data values stepId =
                (atStep e s k.details.data values
                  (fromStep g d (g.settings.maxSteps - (n + 1)))).after [s.stepId] := by
              simp [hsucc, fromStep, hstep, hexecutor]
            rw [hphase, hwalk]
            refine ⟨_, .entering (walking.of_log rfl rfl walking.published) inbox hmem
              rfl, ?_, accepts⟩
            rw [hentering]
            rfl

/-- What an executor leaves in its first atomic step is what the walk has at the step. -/
theorem continues_enter {out : Context × Ledger × Visit} (walking : Walking g d x k)
    (inbox : x.context.inbox = {}) (accepts : l.journal.Accepts x.context.log.caseId)
    (mem : s ∈ d.steps) (hp : x.phase = .visiting d n s e .entering)
    (ways : Visit.Entering g.settings s r x.context l e out) :
    Continues g x values
      ((atStep e s k.details.data values (fromStep g d (g.settings.maxSteps - n))).after
        [s.stepId])
      (x.inVisit d n s e out) := by
  have hentering : x.entering = [s.stepId] := by simp [Execution.entering, hp]
  have hpublished := walking.published
  have hempty : ∀ entry rest, x.context.log.pending ≠ entry :: rest := by
    intro entry rest
    simp [walking.pending]
  unfold Continues
  rw [hentering]
  cases ways with
  | noQuestion decoded =>
      simp only [atStep, decoded]
      exact ⟨_, .failing (walking.of_log rfl rfl hpublished) rfl, rfl, accepts⟩
  | @asking config decoded _ =>
      -- Without a timeout in the settings or the step, the wait has no deadline.
      have hdeadline : Visit.deadlineOf config g.settings r.time = none := by
        simp [Visit.deadlineOf, walking.untimed.settings,
          walking.untimed.steps s mem config decoded]
      have hstands : Stands none (Visit.ownWaiter none)
          (Visit.asking g.settings s config x.context).inbox := by
        rw [Visit.inbox_asking, inbox]
        exact .looking none
      have hasking : (Visit.asking g.settings s config x.context).published =
          some (k.beginInteraction (Visit.interactionOf s config g.settings x.context.caseId)
            g.settings.reviewStatus x.context.clock) := by
        simp [hpublished]
      simp only [atStep, decoded]
      rw [hdeadline]
      exact ⟨_, .awaiting none (walking.of_log rfl rfl hasking) hstands rfl, rfl, accepts⟩
  | decided _ recorded => exact absurd recorded (hempty _ _)
  | undecided _ recorded _ => exact absurd recorded (hempty _ _)
  | noStatus decoded =>
      simp only [atStep, decoded]
      exact ⟨_, .failing (walking.of_log rfl rfl hpublished) rfl, rfl, accepts⟩
  | @committed config decoded =>
      have hcommitted : (x.context.update fun k =>
          k.setStatus config.finalStatus x.context.clock).published =
            some (k.setStatus config.finalStatus x.context.clock) := by
        simp [hpublished]
      simp only [atStep, decoded]
      exact ⟨_, .terminating (walking.of_log rfl rfl hcommitted) rfl, rfl, accepts⟩
  | alone _ =>
      exact ⟨_, .analysed (walking.of_log rfl rfl hpublished) inbox rfl, rfl, accepts⟩
  | unopened _ unopened =>
      rw [hpublished] at unopened
      cases unopened
  | refused _ published answer =>
      rw [hpublished] at published
      cases published
      simp only [atStep, answer]
      exact ⟨_, .failing (walking.of_log rfl rfl hpublished) rfl, rfl, accepts⟩
  | answered _ published answer =>
      rw [hpublished] at published
      cases published
      simp only [atStep, answer]
      exact ⟨_, .analysed (walking.of_log rfl rfl hpublished) inbox rfl, rfl, accepts⟩
  | analysed recorded _ => exact absurd recorded (hempty _ _)
  | unreadable recorded _ => exact absurd recorded (hempty _ _)
  | unanswered recorded _ => exact absurd recorded (hempty _ _)

theorem continues_await {signal : Option Signal} {w : Inbox.Waiter} {b : Execution × Ledger}
    (walking : Walking g d x k) (stands : Stands signal w x.context.inbox)
    (accepts : l.journal.Accepts x.context.log.caseId)
    (hp : x.phase = .visiting d n s e (.awaiting w)) (h : x.advance g r l = some b) :
    Continues g x values
      (await s (fromStep g d (g.settings.maxSteps - n) k.details.data)
        ((signal.map Signal.value).toList ++ values)) b := by
  have hentering : x.entering = [] := by simp [Execution.entering, hp]
  rw [advance_of_awaiting walking.running hp] at h
  obtain ⟨inbox, hinbox⟩ : ∃ inbox, inbox = x.context.inbox := ⟨_, rfl⟩
  rw [← hinbox] at h stands
  unfold Continues
  rw [hentering]
  cases stands with
  | looking signal =>
      cases signal with
      | none =>
          -- The slot is empty and no permit is left, so the wait falls asleep.
          cases h
          exact ⟨_, .awaiting none (walking.of_log rfl rfl walking.published) .asleep rfl, rfl,
            accepts⟩
      | some signal =>
          cases h
          exact ⟨_, .decided (walking.of_log rfl rfl walking.published) rfl rfl, rfl, accepts⟩
  | asleep =>
      cases h
  | woken signal =>
      cases h
      exact ⟨_, .awaiting (some signal)
        (walking.of_log rfl rfl walking.published) (.looking _) rfl, rfl, accepts⟩

theorem continues_decided {signal : Signal} (walking : Walking g d x k)
    (inbox : x.context.inbox = {}) (accepts : l.journal.Accepts x.context.log.caseId)
    (hp : x.phase = .visiting d n s e (.decided signal)) :
    Continues g x values
      (leave s (some signal.value) (fromStep g d (g.settings.maxSteps - n) k.details.data values))
      (x.inVisit d n s e (Visit.settleDecision s x.context l signal)) := by
  have hentering : x.entering = [] := by simp [Execution.entering, hp]
  have hpublished := walking.published
  obtain ⟨j, happend, hj⟩ := Journal.append_of_accepts accepts (.signalConsumed s.stepId signal)
  unfold Continues
  rw [hentering, settleDecision_of_kept happend]
  have hdecided : (Visit.applyDecision x.context signal).published =
      some (k.decide signal.value (x.context.clock.latest signal.receivedAt)) := by
    simp [Visit.applyDecision, Context.advanceClock, hpublished]
  exact ⟨_, continues_leave (walking.of_log rfl rfl hdecided) inbox rfl, rfl, hj⟩

theorem continues_analysed {a : Option Enrichment} {t : Instant} (walking : Walking g d x k)
    (inbox : x.context.inbox = {}) (accepts : l.journal.Accepts x.context.log.caseId)
    (hp : x.phase = .visiting d n s e (.analysed a t)) :
    Continues g x values
      (leave s none (fromStep g d (g.settings.maxSteps - n)
        { k.details.data with enrichment := a.getD k.details.data.enrichment } values))
      (x.inVisit d n s e (Visit.settleEnrichment s x.context l a t)) := by
  have hentering : x.entering = [] := by simp [Execution.entering, hp]
  have hpublished := walking.published
  obtain ⟨j, happend, hj⟩ := Journal.append_of_accepts accepts
    (.activityCompleted s.stepId (toValue a) t)
  unfold Continues
  rw [hentering, settleEnrichment_of_kept happend]
  cases a with
  | none =>
      exact ⟨_, continues_leave (walking.of_log rfl rfl hpublished) inbox rfl, rfl, hj⟩
  | some answer =>
      have henriched : (Visit.applyEnrichment (x.context.advanceClock t) (some answer)).published =
          some (k.enrich answer (x.context.clock.latest t)) := by
        simp [Visit.applyEnrichment, Context.advanceClock, hpublished]
      exact ⟨_, continues_leave (walking.of_log rfl rfl henriched) inbox rfl, rfl, hj⟩

theorem continues_finish {result : Except Error Case}
    (pending : x.context.log.pending = []) (accepts : l.journal.Accepts x.context.log.caseId)
    (hp : x.phase = .closing result)
    (agree : ∀ k, result = .ok k → x.context.published = some k) :
    Continues g x values (stop (verdictOf result)) (x.finish l r result) := by
  have hentering : x.entering = [] := by simp [Execution.entering, hp]
  have hlive : x.context.log.hasNext (terminal r result).kind = false := by
    simp [Log.hasNext, pending]
  obtain ⟨j, happend, hj⟩ := Journal.append_of_accepts accepts (terminal r result)
  unfold Continues
  rw [hentering, finish_of_kept hlive happend]
  exact ⟨_, .ended rfl rfl agree, rfl, hj⟩

/-- One atomic step uses up the walk as far as it goes. -/
theorem Expects.continues {w : Walk} {b : Execution × Ledger} (h : Expects g x values w)
    --  @terminating|The walk is over, and what it shows is the case as it is published.
    (accepts : l.journal.Accepts x.context.log.caseId)
    (hb : x.advance g r l = some b) : Continues g x values w b := by
  -- How much of the walk a step uses up depends on nothing but where the execution stands.
  cases h with
  | unopened untimed running pending inbox hp =>
      rcases hp with hp | hp
      · rw [advance_of_starting running hp] at hb
        cases hb
        exact continues_start untimed running pending inbox accepts hp
      · rw [advance_of_opening running hp] at hb
        cases hb
        exact continues_open untimed running pending inbox accepts hp
  | dispatching walking inbox hp =>
      rw [advance_of_dispatching walking.running hp] at hb
      cases hb
      exact continues_dispatch walking inbox accepts hp
  | entering walking inbox mem hp =>
      rw [advance_of_entering walking.running hp] at hb
      cases hb
      exact continues_enter walking inbox accepts mem hp
        (Visit.entering_spec g.settings _ _ r x.context l)
  | awaiting signal walking stands hp =>
      exact continues_await walking stands accepts hp hb
  | decided walking inbox hp =>
      rw [advance_of_decided walking.running hp] at hb
      cases hb
      exact continues_decided walking inbox accepts hp
  | analysed walking inbox hp =>
      rw [advance_of_analysed walking.running hp] at hb
      cases hb
      exact continues_analysed walking inbox accepts hp
  | left walking inbox hp =>
      have hentering : x.entering = [] := by simp [Execution.entering, hp]
      rw [advance_of_left walking.running hp] at hb
      cases hb
      refine ⟨_, .dispatching (walking.of_log rfl rfl walking.published) inbox rfl, ?_,
        accepts⟩
      rw [hentering, after_nil]
  | @terminating _ k _ _ _ walking hp =>
      have hentering : x.entering = [] := by simp [Execution.entering, hp]
      have hfinal : finalCase x.context = .ok k := by
        unfold finalCase
        rw [walking.published]
      have hagree : ∀ k', (.ok k : Except Error Case) = .ok k' → x.context.published = some k' := by
        rintro _ ⟨⟩
        exact walking.published
      rw [advance_of_left walking.running hp, proceed, hfinal] at hb
      cases hb
      refine ⟨_, .closing walking.running walking.pending rfl hagree, ?_, accepts⟩
      rw [hentering]
      rfl
  | failing walking hp =>
      have hentering : x.entering = [] := by simp [Execution.entering, hp]
      rw [advance_of_left walking.running hp] at hb
      cases hb
      refine ⟨_, .closing walking.running walking.pending rfl (by simp), ?_, accepts⟩
      rw [hentering]
      rfl
  | closing running pending hp agree =>
      rw [advance_of_closing running hp] at hb
      cases hb
      exact continues_finish pending accepts hp agree
  | ended status hp agree =>
      rw [advance_of_ended hp] at hb
      cases hb

/-! ## Whole sessions -/

/-- An execution that does not move is asleep or has ended. -/
theorem Expects.stuck {w : Walk} (h : Expects g x values w) (hstuck : x.advance g r l = none) :
    (∃ d k n s e, Walking g d x k ∧ Stands none ⟨0, none, .parked⟩ x.context.inbox ∧
      x.phase = .visiting d n s e (.awaiting ⟨0, none, .parked⟩) ∧
      w = await s (fromStep g d (g.settings.maxSteps - n) k.details.data) values) ∨
    (x.status ≠ .running ∧ w.visited = [] ∧ x.Shows w.verdict) := by
  -- Two places have no step to take: a wait that nobody has woken, and the end.
  cases h with
  | unopened untimed running pending inbox hp =>
      rcases hp with hp | hp
      · simp [advance_of_starting running hp] at hstuck
      · simp [advance_of_opening running hp] at hstuck
  | dispatching walking inbox hp =>
      simp [advance_of_dispatching walking.running hp] at hstuck
  | entering walking inbox mem hp =>
      simp [advance_of_entering walking.running hp] at hstuck
  | awaiting signal walking stands hp =>
      rw [advance_of_awaiting walking.running hp] at hstuck
      obtain ⟨inbox, hinbox⟩ : ∃ inbox, inbox = x.context.inbox := ⟨_, rfl⟩
      rw [← hinbox] at hstuck stands
      cases stands with
      | looking =>
          cases signal <;> simp [Inbox.Waiter.advance, Inbox.take] at hstuck
      | woken signal =>
          simp [Inbox.Waiter.advance] at hstuck
      | asleep =>
          left
          exact ⟨_, _, _, _, _, walking, by rw [← hinbox]; exact .asleep, hp, rfl⟩
  | decided walking inbox hp =>
      simp [advance_of_decided walking.running hp] at hstuck
  | analysed walking inbox hp =>
      simp [advance_of_analysed walking.running hp] at hstuck
  | left walking inbox hp =>
      simp [advance_of_left walking.running hp] at hstuck
  | terminating walking hp =>
      simp [advance_of_left walking.running hp] at hstuck
  | failing walking hp =>
      simp [advance_of_left walking.running hp] at hstuck
  | closing running pending hp agree =>
      simp [advance_of_closing running hp] at hstuck
  | @ended result status hp agree =>
      right
      cases result with
      | ok k =>
          refine ⟨by simp [status, ExecutionStatus.ofResult], rfl, status, k, agree k rfl, ?_, rfl⟩
          simp [Execution.result?, hp]
      | error fault =>
          refine ⟨by simp [status, ExecutionStatus.ofResult], rfl, status, ?_⟩
          simp [Execution.result?, hp]

/-- A decision that is delivered to an execution asleep is the next one of its walk. -/
theorem Expects.decide {w : Walk} {v id : String} {now : Instant} {x' : Execution}
    {disposition : Disposition} (h : Expects g x (v :: values) w)
    (hstuck : x.advance g r l = none)
    (hdeliver : x.deliver (.decision v id now) = .ok (x', disposition)) :
    Expects g x' values w ∧ x'.context.log = x.context.log := by
  unfold Execution.deliver at hdeliver
  rcases h.stuck hstuck with ⟨d, k, n, s, e, walking, stands, hp, rfl⟩ | ⟨hstatus, -, -⟩
  · obtain ⟨inbox, hinbox⟩ : ∃ inbox, inbox = x.context.inbox := ⟨_, rfl⟩
    have hrunning : x.isFinished = false := by
      simp [isFinished, ExecutionStatus.isFinished, walking.running]
    rw [← hinbox] at stands hdeliver
    rw [hrunning] at hdeliver
    cases stands with
    | asleep =>
        cases hdeliver
        exact ⟨.awaiting (some (.decision v id now))
          (walking.of_log rfl rfl walking.published) (.woken _) hp,
          rfl⟩
  · cases hs : x.status <;> simp [isFinished, ExecutionStatus.isFinished, hs] at hstatus hdeliver

end Step

/-- A session uses up the walk that was before the execution by the steps it enters. -/
theorem Session.expects {g : Engine} {a b : Execution × Ledger} {used visited : List String}
    (h : Session g a used visited b) {rest : List String} {w : Walk}
    (expects : Expects g a.1 (used ++ rest) w)
    (accepts : a.2.journal.Accepts a.1.context.log.caseId) :
    ∃ w', Expects g b.1 rest w' ∧ w = w'.after visited := by
  -- The walk that remains is the invariant; each step uses up the part that it runs.
  induction h generalizing w with
  | refl a =>
      exact ⟨w, expects, rfl⟩
  | step r hstep _ ih =>
      obtain ⟨w₁, hexpects, rfl, haccepts⟩ := expects.continues accepts hstep
      obtain ⟨w', hrest, rfl⟩ := ih hexpects haccepts
      exact ⟨w', hrest, (Walk.after_append _ _ _).symm⟩
  | decide r waits hdeliver _ ih =>
      obtain ⟨hexpects, hlog⟩ := Expects.decide expects waits hdeliver
      exact ih hexpects (by rw [hlog]; exact accepts)

/-- Every list of decisions that is told to a fresh execution can be played to its end, and each
time it visits the steps of the pure walk and comes to its verdict. -/
theorem fresh_follows_walk (g : Engine) (l : Ledger) (caseId name version : String)
    (payload : Value) (now : Instant) (values : List String)
    (untimed : ∀ d, g.loader.load name version = .ok d → g.Untimed d)
    (accepts : l.journal.Accepts caseId) :
    (∃ visited b, Played g (.fresh caseId name version payload now, l) values visited b) ∧
      ∀ visited b, Played g (.fresh caseId name version payload now, l) values visited b →
        visited = (Walk.of g (g.loader.load name version) payload values).visited ∧
          b.1.Shows (Walk.of g (g.loader.load name version) payload values).verdict := by
  refine ⟨exists_played g values _ l, ?_⟩
  rintro visited b ⟨used, rest, r, rfl, hsession, hstuck, hend⟩
  have hfresh : Expects g (.fresh caseId name version payload now) (used ++ rest)
      (Walk.of g (g.loader.load name version) payload (used ++ rest)) :=
    .unopened untimed rfl rfl rfl (.inl rfl)
  obtain ⟨w, hw, heq⟩ := hsession.expects hfresh accepts
  rw [heq]
  -- Where nothing moves any more, a wait wants a value that is not there, or the end is reached.
  rcases hw.stuck hstuck with ⟨d, k, n, s, e, walking, -, hp, rfl⟩ | ⟨-, hvisited, hshows⟩
  · have hrest : rest = [] := by
      rcases hend with hrest | hfinished
      · exact hrest
      · simp [Execution.isFinished, ExecutionStatus.isFinished, walking.running] at hfinished
    subst hrest
    exact ⟨by simp [Walk.after, Walk.await, Walk.stop], walking.running, d, n, s, e, _, hp, rfl⟩
  · exact ⟨by simp [Walk.after, hvisited], hshows⟩

theorem untimed_approval (enricher : Option Enricher) :
    (Engine.approving enricher).Untimed .approval := by
  refine ⟨rfl, ?_⟩
  intro s hs config hconfig
  simp only [Definition.approval, List.mem_cons, List.not_mem_nil, or_false] at hs
  rcases hs with rfl | rfl | rfl
  · cases hconfig
  · cases hconfig
    rfl
  · cases hconfig

/-- An approval that is given at the second time of asking. -/
theorem fresh_follows_walk_approval :
    (∀ d, (Engine.approving none).loader.load "approval" "1" = .ok d →
        (Engine.approving none).Untimed d) ∧
      Journal.empty.Accepts "case-1" ∧
      ∀ visited b,
        Played (Engine.approving none)
          (.fresh "case-1" "approval" "1" .null ⟨0, 0⟩, ⟨.empty, [], []⟩)
          ["later", "approve"] visited b →
        visited = ["analysis", "review", "review", "approved"] ∧
          b.1.Shows (.completed "Approved") := by
  have hload : ∀ d, (Engine.approving none).loader.load "approval" "1" = .ok d →
      (Engine.approving none).Untimed d := by
    intro d hd
    rw [Engine.load_approval] at hd
    cases hd
    exact untimed_approval none
  have haccepts : Journal.empty.Accepts "case-1" := trivial
  refine ⟨hload, haccepts, ?_⟩
  intro visited b hplayed
  exact (fresh_follows_walk (Engine.approving none) ⟨.empty, [], []⟩ "case-1" "approval" "1" .null
    ⟨0, 0⟩ ["later", "approve"] hload haccepts).2 visited b hplayed

end Casework
