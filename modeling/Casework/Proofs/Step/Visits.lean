import Casework.Proofs.Journal.Recall
import Casework.Step.Visit

/-!
# Visits — one equation for each way in which a visit begins

The first atomic step of a visit looks at the configuration of the step and at the first entry that
is still to be replayed.

* `Visit.asking` : the context in which a decision is asked for;
* `Visit.enterReview_of_live` and its siblings : steps that wait for a decision;
* `Visit.enterEnrichment_of_alone` and its siblings : steps that ask a collaborator;
* `Visit.Entering`, `Visit.entering_spec` : all ways at once, for a proof by cases.
-/

namespace Casework
namespace Visit

variable {settings : EngineSettings} {s : StepDefinition} {r : Readings} {c : Context} {l : Ledger}
variable {config : ReviewConfig} {entry : JournalEntry} {rest : List JournalEntry}

/-! ## Steps that wait for a decision -/

/-- The context once the inbox is emptied and the question is published. -/
def asking (settings : EngineSettings) (s : StepDefinition) (config : ReviewConfig) (c : Context) :
    Context :=
  c.clearInbox.update fun k =>
    k.beginInteraction (interactionOf s config settings c.caseId) settings.reviewStatus c.clock

@[simp] theorem inbox_asking : (asking settings s config c).inbox = { c.inbox with slot := none } :=
  rfl

/-- The question is shown with what is published. -/
@[simp] theorem published_asking :
    (asking settings s config c).published = c.published.map fun k =>
      k.beginInteraction (interactionOf s config settings c.caseId) settings.reviewStatus
        c.clock := rfl

theorem enterReview_of_fault {fault : Error} (h : s.config ReviewConfig.decoder = .error fault) :
    enterReview settings s r c = (c, .left (.error fault)) := by
  simp [enterReview, h]

theorem enterReview_eq (h : s.config ReviewConfig.decoder = .ok config) :
    enterReview settings s r c =
      match c.log.recallSignal s.stepId with
      | .error e => (asking settings s config c, .left (.error e))
      | .ok (log, some signal) =>
          (applyDecision { asking settings s config c with log := log } signal,
            leave s signal.value)
      | .ok (log, none) =>
          ({ asking settings s config c with log := log },
            .awaiting (ownWaiter (deadlineOf config settings r.time))) := by
  unfold enterReview
  rw [h]
  rfl

/-- A live review waits for a decision. -/
theorem enterReview_of_live (h : s.config ReviewConfig.decoder = .ok config)
    (live : c.log.pending = []) :
    enterReview settings s r c =
      (asking settings s config c, .awaiting (ownWaiter (deadlineOf config settings r.time))) := by
  rw [enterReview_eq h, Log.recallSignal_of_nil live]
  rfl

/-- A review that is replayed takes the decision on record. -/
theorem enterReview_of_recorded {signal : Signal} (h : s.config ReviewConfig.decoder = .ok config)
    (recorded : c.log.pending = .signalConsumed s.stepId signal :: rest) :
    enterReview settings s r c =
      (applyDecision { asking settings s config c with log := { c.log with pending := rest } }
        signal, leave s signal.value) := by
  rw [enterReview_eq h, Log.recallSignal_of_decision recorded]

/-- Anything else on record diverges. -/
theorem enterReview_of_other (h : s.config ReviewConfig.decoder = .ok config)
    (recorded : c.log.pending = entry :: rest) (other : ¬ entry.IsDecisionFor s.stepId) :
    enterReview settings s r c =
      (asking settings s config c,
        .left (.error (Log.divergence s.stepId .signalConsumed entry))) := by
  rw [enterReview_eq h, Log.recallSignal_of_other recorded other]

theorem ofWaiter_cases (r : Readings) (w : Inbox.Waiter) :
    (∃ signal, ofWaiter r w = .decided signal) ∨ ∃ v, ofWaiter r w = .awaiting v := by
  unfold ofWaiter
  split
  · exact .inl ⟨_, rfl⟩
  · exact .inl ⟨_, rfl⟩
  · exact .inr ⟨_, rfl⟩

/-! ## Steps that ask a collaborator -/

@[simp] theorem log_applyEnrichment {a : Option Enrichment} :
    (applyEnrichment c a).log = c.log := by
  cases a <;> rfl

/-- An answer is read back as it was recorded. -/
theorem recordedEnrichment_toValue (a : Option Enrichment) :
    recordedEnrichment (toValue a) = .ok a := by
  cases a <;> rfl

/-- Without a collaborator the absence of an answer is what is to be recorded. -/
theorem enterEnrichment_of_alone (live : c.log.pending = []) :
    enterEnrichment none s r c l = (c, l, .analysed none c.clock) := by
  unfold enterEnrichment
  rw [Log.recallActivity_of_nil live]

theorem enterEnrichment_of_unopened {x : Enricher} (live : c.log.pending = [])
    (unopened : c.published = none) :
    enterEnrichment (some x) s r c l =
      (c, l, .left (.error (.enrichment "case is not initialised"))) := by
  unfold enterEnrichment
  rw [Log.recallActivity_of_nil live]
  cases c
  cases unopened
  rfl

/-- A live analysis is what the collaborator makes of the case as it is published. -/
theorem enterEnrichment_of_live {x : Enricher} {k : Case} (live : c.log.pending = [])
    (published : c.published = some k) :
    enterEnrichment (some x) s r c l =
      match x.analyse k.details.data with
      | .error e => (c, l.noteAnalysis k.details.data, .left (.error e))
      | .ok e => (c, l.noteAnalysis k.details.data, .analysed (some e) r.now) := by
  unfold enterEnrichment
  rw [Log.recallActivity_of_nil live]
  cases c
  cases published
  rfl

theorem enterEnrichment_of_recorded {enricher : Option Enricher} {output : Value} {t : Instant}
    (recorded : c.log.pending = .activityCompleted s.stepId output t :: rest) :
    enterEnrichment enricher s r c l =
      match recordedEnrichment output with
      | .error e =>
          ({ c with log := { c.log with pending := rest } }.advanceClock t, l, .left (.error e))
      | .ok e =>
          (applyEnrichment ({ c with log := { c.log with pending := rest } }.advanceClock t) e, l,
            leave s none) := by
  have hrecall := Log.recallActivity_of_answer recorded
  cases houtput : recordedEnrichment output with
  | error e => simp only [enterEnrichment, hrecall, houtput]
  | ok e => simp only [enterEnrichment, hrecall, houtput]

theorem enterEnrichment_of_other {enricher : Option Enricher}
    (recorded : c.log.pending = entry :: rest) (other : ¬ entry.IsAnswerFor s.stepId) :
    enterEnrichment enricher s r c l =
      (c, l, .left (.error (Log.divergence s.stepId .activityCompleted entry))) := by
  unfold enterEnrichment
  rw [Log.recallActivity_of_other recorded other]

/-! ## All of them -/

inductive Entering (settings : EngineSettings) (s : StepDefinition) (r : Readings) (c : Context)
    (l : Ledger) : Executor → Context × Ledger × Visit → Prop
  | noQuestion {fault : Error} (h : s.config ReviewConfig.decoder = .error fault) :
      Entering settings s r c l .humanInTheLoop (c, l, .left (.error fault))
  | asking {config : ReviewConfig} (h : s.config ReviewConfig.decoder = .ok config)
      (live : c.log.pending = []) :
      Entering settings s r c l .humanInTheLoop
        (Visit.asking settings s config c, l,
          .awaiting (ownWaiter (deadlineOf config settings r.time)))
  | decided {config : ReviewConfig} {signal : Signal} {rest : List JournalEntry}
      (h : s.config ReviewConfig.decoder = .ok config)
      (recorded : c.log.pending = .signalConsumed s.stepId signal :: rest) :
      Entering settings s r c l .humanInTheLoop
        (applyDecision
          { Visit.asking settings s config c with log := { c.log with pending := rest } } signal, l,
          leave s signal.value)
  | undecided {config : ReviewConfig} {entry : JournalEntry} {rest : List JournalEntry}
      (h : s.config ReviewConfig.decoder = .ok config) (recorded : c.log.pending = entry :: rest)
      (other : ¬ entry.IsDecisionFor s.stepId) :
      Entering settings s r c l .humanInTheLoop
        (Visit.asking settings s config c, l,
          .left (.error (Log.divergence s.stepId .signalConsumed entry)))
  | noStatus {fault : Error} (h : s.config CommitConfig.decoder = .error fault) :
      Entering settings s r c l .finalCommit (c, l, .left (.error fault))
  | committed {config : CommitConfig} (h : s.config CommitConfig.decoder = .ok config) :
      Entering settings s r c l .finalCommit
        (c.update fun k => k.setStatus config.finalStatus c.clock, l, .left (.ok .terminate))
  | alone (live : c.log.pending = []) :
      Entering settings s r c l (.caseEnrichment none) (c, l, .analysed none c.clock)
  | unopened {x : Enricher} (live : c.log.pending = []) (unopened : c.published = none) :
      Entering settings s r c l (.caseEnrichment (some x))
        (c, l, .left (.error (.enrichment "case is not initialised")))
  | refused {x : Enricher} {k : Case} {fault : Error} (live : c.log.pending = [])
      (published : c.published = some k) (answer : x.analyse k.details.data = .error fault) :
      Entering settings s r c l (.caseEnrichment (some x))
        (c, l.noteAnalysis k.details.data, .left (.error fault))
  | answered {x : Enricher} {k : Case} {a : Enrichment} (live : c.log.pending = [])
      (published : c.published = some k) (answer : x.analyse k.details.data = .ok a) :
      Entering settings s r c l (.caseEnrichment (some x))
        (c, l.noteAnalysis k.details.data, .analysed (some a) r.now)
  | analysed {enricher : Option Enricher} {output : Value} {t : Instant} {a : Option Enrichment}
      {rest : List JournalEntry}
      (recorded : c.log.pending = .activityCompleted s.stepId output t :: rest)
      (readable : recordedEnrichment output = .ok a) :
      Entering settings s r c l (.caseEnrichment enricher)
        (applyEnrichment ({ c with log := { c.log with pending := rest } }.advanceClock t) a, l,
          leave s none)
  | unreadable {enricher : Option Enricher} {output : Value} {t : Instant} {fault : Error}
      {rest : List JournalEntry}
      (recorded : c.log.pending = .activityCompleted s.stepId output t :: rest)
      (unreadable : recordedEnrichment output = .error fault) :
      Entering settings s r c l (.caseEnrichment enricher)
        ({ c with log := { c.log with pending := rest } }.advanceClock t, l, .left (.error fault))
  | unanswered {enricher : Option Enricher} {entry : JournalEntry} {rest : List JournalEntry}
      (recorded : c.log.pending = entry :: rest) (other : ¬ entry.IsAnswerFor s.stepId) :
      Entering settings s r c l (.caseEnrichment enricher)
        (c, l, .left (.error (Log.divergence s.stepId .activityCompleted entry)))

theorem enter_review (settings : EngineSettings) (s : StepDefinition) (r : Readings) (c : Context)
    (l : Ledger) :
    enter settings .humanInTheLoop s r c l =
      ((enterReview settings s r c).1, l, (enterReview settings s r c).2) := rfl

theorem enter_commit (settings : EngineSettings) (s : StepDefinition) (r : Readings) (c : Context)
    (l : Ledger) :
    enter settings .finalCommit s r c l = ((commit s c).1, l, (commit s c).2) := rfl

theorem enter_enrichment (settings : EngineSettings) (enricher : Option Enricher)
    (s : StepDefinition) (r : Readings) (c : Context) (l : Ledger) :
    enter settings (.caseEnrichment enricher) s r c l = enterEnrichment enricher s r c l := rfl

theorem entering_review (settings : EngineSettings) (s : StepDefinition) (r : Readings)
    (c : Context) (l : Ledger) :
    Entering settings s r c l .humanInTheLoop (enter settings .humanInTheLoop s r c l) := by
  rw [enter_review]
  cases h : s.config ReviewConfig.decoder with
  | error fault =>
      rw [enterReview_of_fault h]
      exact .noQuestion h
  | ok config =>
      cases hpending : c.log.pending with
      | nil =>
          rw [enterReview_of_live h hpending]
          exact .asking h hpending
      | cons entry rest =>
          by_cases hdecision : entry.IsDecisionFor s.stepId
          · obtain ⟨signal, rfl⟩ := hdecision
            rw [enterReview_of_recorded h hpending]
            exact .decided h hpending
          · rw [enterReview_of_other h hpending hdecision]
            exact .undecided h hpending hdecision

theorem entering_commit (settings : EngineSettings) (s : StepDefinition) (r : Readings)
    (c : Context) (l : Ledger) :
    Entering settings s r c l .finalCommit (enter settings .finalCommit s r c l) := by
  rw [enter_commit]
  unfold commit
  cases h : s.config CommitConfig.decoder with
  | error fault => exact .noStatus h
  | ok config => exact .committed h

theorem entering_enrichment (settings : EngineSettings) (enricher : Option Enricher)
    (s : StepDefinition) (r : Readings) (c : Context) (l : Ledger) :
    Entering settings s r c l (.caseEnrichment enricher)
      (enter settings (.caseEnrichment enricher) s r c l) := by
  rw [enter_enrichment]
  -- A live visit asks its collaborator, if it has one; a replayed one takes the answer on record.
  cases hpending : c.log.pending with
  | nil =>
      cases enricher with
      | none =>
          rw [enterEnrichment_of_alone hpending]
          exact .alone hpending
      | some x =>
          cases hpublished : c.published with
          | none =>
              rw [enterEnrichment_of_unopened hpending hpublished]
              exact .unopened hpending hpublished
          | some k =>
              rw [enterEnrichment_of_live hpending hpublished]
              cases hanswer : x.analyse k.details.data with
              | error fault => exact .refused hpending hpublished hanswer
              | ok a => exact .answered hpending hpublished hanswer
  | cons entry rest =>
      by_cases hrecorded : entry.IsAnswerFor s.stepId
      · obtain ⟨output, t, rfl⟩ := hrecorded
        rw [enterEnrichment_of_recorded hpending]
        cases hreadable : recordedEnrichment output with
        | error fault => exact .unreadable hpending hreadable
        | ok a => exact .analysed hpending hreadable
      · rw [enterEnrichment_of_other hpending hrecorded]
        exact .unanswered hpending hrecorded

/-- However a visit begins, it is one of these. -/
theorem entering_spec (settings : EngineSettings) (e : Executor) (s : StepDefinition) (r : Readings)
    (c : Context) (l : Ledger) : Entering settings s r c l e (enter settings e s r c l) := by
  cases e with
  | humanInTheLoop => exact entering_review settings s r c l
  | finalCommit => exact entering_commit settings s r c l
  | caseEnrichment enricher => exact entering_enrichment settings enricher s r c l

end Visit
end Casework
