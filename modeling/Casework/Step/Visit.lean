import Casework.Step.Context
import Casework.Step.Registry

/-!
# Visits

The run of one step by its executor, as a machine of atomic steps.  Between two of them other
executions and the callers of this one may act.

* `Visit` : where a run stands;
* `Visit.advance` : the next atomic step, if there is one at this time;
* `Visit.rank_add_wakeups_lt` : a visit ends or waits after finitely many steps, however often it
  is notified meanwhile.

A visit to a step that waits for a decision empties the inbox when it begins, so a signal that was
sent for an earlier step is not mistaken for a decision of this one.
-/

namespace Casework

inductive Outcome where
  /-- Goes on with a step. -/
  | next (stepId : String)
  /-- Ends; the case is final. -/
  | terminate
deriving DecidableEq, Repr

inductive Visit where
  /-- The executor is about to begin. -/
  | entering
  /-- An interaction is published and the step waits for a decision. -/
  | awaiting (waiter : Inbox.Waiter)
  /-- A decision has arrived and is about to be recorded. -/
  | decided (signal : Signal)
  /-- A collaborator has answered, or there is none, which is about to be recorded. -/
  | analysed (enrichment : Option Enrichment) (time : Instant)
  /-- The executor is done. -/
  | left (result : Except Error Outcome)

namespace Visit

def leave (s : StepDefinition) (signal : Option String) : Visit :=
  .left ((s.next signal).map .next)

/-! ## Steps that wait for a decision -/

def interactionOf (s : StepDefinition) (config : ReviewConfig) (settings : EngineSettings)
    (caseId : String) : Interaction where
  id := s.stepId ++ "_" ++ caseId
  kind := config.interactionType
  prompt := config.prompt
  actions := config.actions
  submitUrl :=
    String.ofList (settings.submitUrlBase.toList.reverse.dropWhile (· == '/')).reverse
      ++ "/" ++ caseId ++ "/decision"

/-- When a wait that begins at `time` gives up. -/
def deadlineOf (config : ReviewConfig) (settings : EngineSettings) (time : Nat) : Option Nat :=
  (config.timeout.or settings.signalTimeout).map (time + ·)

def ownWaiter (deadline : Option Nat) : Inbox.Waiter :=
  ⟨0, deadline, .checking⟩

def applyDecision (c : Context) (signal : Signal) : Context :=
  let c := c.advanceClock signal.receivedAt
  c.update fun k => k.decide signal.value c.clock

/-- Begins: empties the inbox, publishes the interaction, and looks for a recorded decision. -/
def enterReview (settings : EngineSettings) (s : StepDefinition) (r : Readings) (c : Context) :
    Context × Visit :=
  match s.config ReviewConfig.decoder with
  | .error e => (c, .left (.error e))
  | .ok config =>
      -- What was sent before the question is no answer to it.
      let c := c.clearInbox
      let c := c.update fun k =>
        k.beginInteraction (interactionOf s config settings c.caseId) settings.reviewStatus c.clock
      match c.log.recallSignal s.stepId with
      | .error e => (c, .left (.error e))
      | .ok (log, some signal) => (applyDecision { c with log := log } signal, leave s signal.value)
      | .ok (log, none) =>
          ({ c with log := log }, .awaiting (ownWaiter (deadlineOf config settings r.time)))

/-- Records a decision, applies it and resolves the next step. -/
def settleDecision (s : StepDefinition) (c : Context) (l : Ledger) (signal : Signal) :
    Context × Ledger × Visit :=
  match l.record c.log (.signalConsumed s.stepId signal) with
  | .error e => (c, l, .left (.error e))
  | .ok l =>
      (applyDecision c signal,
        l.report (.one "case_decisions_total" [("step", s.stepId), ("value", signal.value)]),
        leave s signal.value)

/-! ## Steps that ask a collaborator -/

def applyEnrichment (c : Context) (e : Option Enrichment) : Context :=
  match e with
  | some e => c.update fun k => k.enrich e c.clock
  | none => c

/-- A recorded answer: null if there was no collaborator. -/
def recordedEnrichment : Value → Except Error (Option Enrichment)
  | .null => .ok none
  | v =>
      match Enrichment.decoder.decode v with
      | .ok e => .ok (some e)
      | .error f => .error (.json f)

/-- Begins: looks for a recorded answer, otherwise asks the collaborator, if there is one. -/
def enterEnrichment (enricher : Option Enricher) (s : StepDefinition) (r : Readings) (c : Context)
    (l : Ledger) : Context × Ledger × Visit :=
  match c.log.recallActivity s.stepId with
  | .error e => (c, l, .left (.error e))
  | .ok (log, some (output, t)) =>
      let c := { c with log := log }.advanceClock t
      match recordedEnrichment output with
      | .error e => (c, l, .left (.error e))
      | .ok e => (applyEnrichment c e, l, leave s none)
  | .ok (log, none) =>
      let c := { c with log := log }
      match enricher, c.published with
      -- Without a collaborator no time passes; its absence is recorded all the same.
      | none, _ => (c, l, .analysed none c.clock)
      | some _, none => (c, l, .left (.error (.enrichment "case is not initialised")))
      | some x, some k =>
          let l := l.noteAnalysis k.details.data
          match x.analyse k.details.data with
          | .error e => (c, l, .left (.error e))
          | .ok e => (c, l, .analysed (some e) r.now)

/-- Records an answer, merges it into the case and resolves the next step. -/
def settleEnrichment (s : StepDefinition) (c : Context) (l : Ledger) (e : Option Enrichment)
    (t : Instant) : Context × Ledger × Visit :=
  match l.record c.log (.activityCompleted s.stepId (toValue e) t) with
  | .error e => (c, l, .left (.error e))
  | .ok l => (applyEnrichment (c.advanceClock t) e, l, leave s none)

/-! ## Steps that end the execution -/

def commit (s : StepDefinition) (c : Context) : Context × Visit :=
  match s.config CommitConfig.decoder with
  | .error e => (c, .left (.error e))
  | .ok config =>
      (c.update fun k => k.setStatus config.finalStatus c.clock, .left (.ok .terminate))

/-! ## The machine -/

def enter (settings : EngineSettings) (x : Executor) (s : StepDefinition) (r : Readings)
    (c : Context) (l : Ledger) : Context × Ledger × Visit :=
  match x with
  | .humanInTheLoop =>
      let (c, v) := enterReview settings s r c
      (c, l, v)
  | .finalCommit =>
      let (c, v) := commit s c
      (c, l, v)
  | .caseEnrichment enricher => enterEnrichment enricher s r c l

/-- Where a wait stands after one of its steps.  A wait that ended without a signal stands for the
decision that it timed out. -/
def ofWaiter (r : Readings) (w : Inbox.Waiter) : Visit :=
  match w.state with
  | .ended (some signal) => .decided signal
  | .ended none => .decided (.timeout r.freshId r.now)
  | _ => .awaiting w

/-- The next atomic step of a visit; none if it is over or waits. -/
def advance (settings : EngineSettings) (x : Executor) (s : StepDefinition) (r : Readings)
    (c : Context) (l : Ledger) (v : Visit) : Option (Context × Ledger × Visit) :=
  match v with
  | .entering => some (enter settings x s r c l)
  | .awaiting w =>
      (w.advance c.inbox r.time).map fun (inbox, w) => ({ c with inbox := inbox }, l, ofWaiter r w)
  | .decided signal => some (settleDecision s c l signal)
  | .analysed e t => some (settleEnrichment s c l e t)
  | .left _ => none

def deadline? : Visit → Option Nat
  | .awaiting w => w.deadline
  | _ => none

def writes : Visit → Bool
  | .decided _ | .analysed _ _ => true
  | _ => false

/-! ## Progress -/

/-- How many steps a visit has ahead of it unless its inbox is notified again. -/
def rank : Visit → Nat
  | .entering => 4
  | .awaiting w => w.rank
  | .decided _ | .analysed _ _ => 1
  | .left _ => 0

@[simp] theorem rank_left (result : Except Error Outcome) : (Visit.left result).rank = 0 := rfl

@[simp] theorem rank_decided (signal : Signal) : (Visit.decided signal).rank = 1 := rfl

@[simp] theorem rank_analysed (e : Option Enrichment) (t : Instant) :
    (Visit.analysed e t).rank = 1 := rfl

@[simp] theorem rank_awaiting (w : Inbox.Waiter) : (Visit.awaiting w).rank = w.rank := rfl

@[simp] theorem rank_leave (s : StepDefinition) (signal : Option String) :
    (leave s signal).rank = 0 := rfl

@[simp] theorem inbox_applyDecision (c : Context) (signal : Signal) :
    (applyDecision c signal).inbox = c.inbox := rfl

@[simp] theorem inbox_applyEnrichment (c : Context) (e : Option Enrichment) :
    (applyEnrichment c e).inbox = c.inbox := by
  cases e <;> rfl

@[simp] theorem wakeups_clear (b : Inbox) : b.clear.1.wakeups = b.wakeups := rfl

/-- Beginning a visit leaves at most a wait, and no new notification. -/
theorem rank_enterReview (settings : EngineSettings) (s : StepDefinition) (r : Readings)
    (c : Context) :
    (enterReview settings s r c).2.rank + (enterReview settings s r c).1.inbox.wakeups
      < 4 + c.inbox.wakeups := by
  unfold enterReview
  split
  · simp
  · simp only
    split <;> simp [Context.clearInbox, ownWaiter, Inbox.Waiter.rank]

theorem rank_commit (s : StepDefinition) (c : Context) :
    (commit s c).2.rank + (commit s c).1.inbox.wakeups < 4 + c.inbox.wakeups := by
  unfold commit
  split <;> simp

theorem rank_enterEnrichment (enricher : Option Enricher) (s : StepDefinition) (r : Readings)
    (c : Context) (l : Ledger) :
    (enterEnrichment enricher s r c l).2.2.rank
      + (enterEnrichment enricher s r c l).1.inbox.wakeups < 4 + c.inbox.wakeups := by
  unfold enterEnrichment
  split
  · simp
  · simp only
    split <;> simp
  · simp only
    split
    · simp
    · simp
    · split <;> simp

/-- Every step of a visit brings it nearer to its end or uses up a notification. -/
theorem rank_add_wakeups_lt {settings : EngineSettings} {x : Executor} {s : StepDefinition}
    {r : Readings} {c c' : Context} {l l' : Ledger} {v v' : Visit}
    (h : v.advance settings x s r c l = some (c', l', v')) :
    v'.rank + c'.inbox.wakeups < v.rank + c.inbox.wakeups := by
  -- A wait may go back to an earlier state, but only by using up a notification.
  cases v with
  | entering =>
      simp only [advance, Option.some.injEq, enter] at h
      cases x with
      | humanInTheLoop =>
          simp only [Prod.mk.injEq] at h
          obtain ⟨rfl, -, rfl⟩ := h
          exact rank_enterReview settings s r c
      | finalCommit =>
          simp only [Prod.mk.injEq] at h
          obtain ⟨rfl, -, rfl⟩ := h
          exact rank_commit s c
      | caseEnrichment e =>
          have := rank_enterEnrichment e s r c l
          simp only at h
          rw [h] at this
          exact this
  | awaiting w =>
      simp only [advance, Option.map_eq_some_iff, Prod.mk.injEq] at h
      obtain ⟨⟨b, w'⟩, hw, rfl, -, rfl⟩ := h
      have := Inbox.Waiter.rank_add_wakeups_lt hw
      have hr : (ofWaiter r w').rank ≤ w'.rank := by
        unfold ofWaiter
        split <;> simp [Inbox.Waiter.rank, *]
      simp only [rank_awaiting]
      omega
  | decided signal =>
      simp only [advance, settleDecision, Option.some.injEq] at h
      split at h <;> (simp only [Prod.mk.injEq] at h; obtain ⟨rfl, -, rfl⟩ := h; simp)
  | analysed e t =>
      simp only [advance, settleEnrichment, Option.some.injEq] at h
      split at h <;> (simp only [Prod.mk.injEq] at h; obtain ⟨rfl, -, rfl⟩ := h; simp)
  | left res => simp [advance] at h

end Visit
end Casework
