import Casework.Proofs.Case.History
import Casework.Proofs.HumanInput.Answers
import Mathlib.Data.List.Induction

/-!
# Frames — what a run may change in its case

A case is opened from the payload, and most of it stays as it was then.  What collaborators said
comes from one answer as a whole, the latest one that was taken from the journal or taken by it, and
the status label tells how far the run has come.

* `Case.frame` : what stays;
* `Case.Reflects` : what a case is once some answers were added to it;
* `Execution.answer?`, `Execution.answers` : the answers that acts add;
* `Execution.Accounts` : the invariant of an execution and the answers so far;
* `Execution.Labelled` : where a status label comes from;
* `published_accounted` : every published state is accounted for in this way.
-/

namespace Casework

/-! ## What a case was opened with, and what was added -/

namespace Case

/-- What a case is opened with and no run changes. -/
structure Frame where
  caseId : String
  title : String
  assignee : Participant
  submitter : Participant
  createdAt : Instant
  amount : Binary64
  currency : String
  category : String

def frame (k : Case) : Frame where
  caseId := k.details.caseId
  title := k.details.title
  assignee := k.details.assignee
  submitter := k.details.submitter
  createdAt := k.details.createdAt
  amount := k.details.data.amount
  currency := k.details.data.currency
  category := k.details.data.category

/-- The text of the activity that an answer leaves behind. -/
def reportOf (a : Enrichment) : String :=
  "Analysis complete. Risk Score: " ++ a.riskScore ++ "."

/-- The texts of all analyses in the activity stream, in order. -/
def analyses (k : Case) : List String :=
  (k.activities.filter fun a => a.kind == aiAnalysis).map Activity.text

/-- Whether a case was opened as another one, and some answers were added to it since. -/
structure Reflects (k opened : Case) (answers : List Enrichment) : Prop where
  frame : k.frame = opened.frame
  /-- The latest answer as a whole, or what was there before any. -/
  enrichment : k.details.data.enrichment = answers.getLast?.getD .pending
  analyses : k.analyses = answers.map reportOf

variable {k opened : Case} {answers : List Enrichment}

/-- An activity of another kind is no analysis. -/
theorem analyses_append_of_other {kind : String} (other : kind ≠ aiAnalysis) (k : Case)
    (sender text : String) (t : Instant) : (k.append kind sender text t).analyses = k.analyses := by
  simp [analyses, other]

/-- An analysis is added behind the others. -/
theorem analyses_append_analysis (k : Case) (sender text : String) (t : Instant) :
    (k.append aiAnalysis sender text t).analyses = k.analyses ++ [text] := by
  simp [analyses]

/-- A case that was just opened reflects no answer. -/
theorem reflects_openFrom (caseId : String) (input : CaseInput) (assignee : Participant)
    (t : Instant) :
    (openFrom caseId input assignee t).Reflects (openFrom caseId input assignee t) [] :=
  ⟨rfl, rfl, rfl⟩

theorem Reflects.beginInteraction (h : k.Reflects opened answers) (i : Interaction)
    (status : String) (t : Instant) :
    (k.beginInteraction i status t).Reflects opened answers :=
  ⟨h.frame, h.enrichment, h.analyses⟩

theorem Reflects.setStatus (h : k.Reflects opened answers) (status : String) (t : Instant) :
    (k.setStatus status t).Reflects opened answers :=
  ⟨h.frame, h.enrichment, h.analyses⟩

/-- A decision adds no analysis. -/
theorem Reflects.decide (h : k.Reflects opened answers) (value : String) (t : Instant) :
    (k.decide value t).Reflects opened answers where
  frame := h.frame
  enrichment := h.enrichment
  analyses := by
    have hother : agentDecision ≠ aiAnalysis := by decide
    have hsame := analyses_append_of_other hother k "Agent" ("Case marked as '" ++ value ++ "'.") t
    exact hsame.trans h.analyses

/-- An answer adds one, and replaces the three fields together. -/
theorem Reflects.enrich (h : k.Reflects opened answers) (a : Enrichment) (t : Instant) :
    (k.enrich a t).Reflects opened (answers ++ [a]) where
  frame := h.frame
  enrichment := by simp [Case.enrich, Case.append, setEnrichment, touch]
  analyses := by
    have hmore := analyses_append_analysis (k.setEnrichment a) "AI Agent" (reportOf a) t
    have hbefore : (k.setEnrichment a).analyses = answers.map reportOf := h.analyses
    rw [List.map_append, ← hbefore]
    exact hmore

/-- The three fields of a case were never set, or all of them are those of the answer that was
reported last. -/
theorem Reflects.together (h : k.Reflects opened answers) :
    (k.analyses = [] ∧ k.details.data.enrichment = .pending) ∨
      ∃ a, answers.getLast? = some a ∧ k.analyses.getLast? = some (reportOf a) ∧
        k.details.data.enrichment = a := by
  cases hlast : answers.getLast? with
  | none =>
      have hnil : answers = [] := List.getLast?_eq_none_iff.1 hlast
      exact .inl ⟨by simp [h.analyses, hnil], by simp [h.enrichment, hnil]⟩
  | some a =>
      refine .inr ⟨a, rfl, ?_, by simp [h.enrichment, hlast]⟩
      simp [h.analyses, List.getLast?_map, hlast]

end Case

namespace Context

variable {c : Context} {opened : Case} {given given' : List Enrichment}

/-- Whether the published case was opened as another one, and given some answers since. -/
def Reflects (c : Context) (opened : Case) (given : List Enrichment) : Prop :=
  ∃ k, c.published = some k ∧ k.Reflects opened given

/-- What changes of a case make of it is seen in the context. -/
theorem Reflects.update (h : c.Reflects opened given) {f : Case → Case}
    (hf : ∀ k : Case, k.Reflects opened given → (f k).Reflects opened given') :
    (c.update f).Reflects opened given' := by
  obtain ⟨k, hk, hreflects⟩ := h
  exact ⟨f k, by rw [published_update, hk]; rfl, hf k hreflects⟩

/-- Only the published case is looked at. -/
theorem Reflects.of_published {c' : Context} (h : c.Reflects opened given)
    (published : c'.published = c.published) : c'.Reflects opened given := by
  obtain ⟨k, hk, hreflects⟩ := h
  exact ⟨k, published.trans hk, hreflects⟩

/-- Without an answer nothing is added. -/
theorem Reflects.unanswered {answer : Option Enrichment} (h : c.Reflects opened given)
    (none : answer = none) : c.Reflects opened (given ++ answer.toList) := by
  rw [none]
  simpa using h

theorem Reflects.asking (h : c.Reflects opened given) (settings : EngineSettings)
    (s : StepDefinition) (config : ReviewConfig) :
    (Visit.asking settings s config c).Reflects opened given := by
  have hcleared : c.clearInbox.Reflects opened given := h
  exact hcleared.update fun k hk => hk.beginInteraction _ _ _

theorem Reflects.applyDecision (h : c.Reflects opened given) (signal : Signal) :
    (Visit.applyDecision c signal).Reflects opened given := by
  have hlater : (c.advanceClock signal.receivedAt).Reflects opened given := h
  exact hlater.update fun k hk => hk.decide _ _

/-- An answer of a collaborator is reflected, and one that is missing changes nothing. -/
theorem Reflects.applyEnrichment (h : c.Reflects opened given) (a : Option Enrichment) :
    (Visit.applyEnrichment c a).Reflects opened (given ++ a.toList) := by
  cases a with
  | none => simpa [Visit.applyEnrichment] using h
  | some a => exact h.update fun k hk => hk.enrich a _

end Context

/-! ## Answers -/

namespace JournalEntry

/-- The answer that an entry records; none if there was no collaborator. -/
def answer? : JournalEntry → Option Enrichment
  | .activityCompleted _ output _ => (Visit.recordedEnrichment output).toOption.join
  | _ => none

/-- An answer that was recorded is read back. -/
theorem answer?_completed (stepId : String) (a : Option Enrichment) (t : Instant) :
    (JournalEntry.activityCompleted stepId (toValue a) t).answer? = a := by
  simp [answer?, Visit.recordedEnrichment_toValue, Except.toOption]

end JournalEntry

/-- Whether no other step comes after the one that an execution is in. -/
def Phase.isLast : Phase → Bool
  | .visiting _ _ _ _ (.left (.ok .terminate)) | .visiting _ _ _ _ (.left (.error _)) => true
  | .closing _ | .ended _ => true
  | _ => false

namespace Execution

variable {g g' : Engine} {r : Readings} {x y : Execution} {l l' : Ledger}
variable {p : Execution × Ledger} {b : Execution × Ledger} {given : List Enrichment}
variable {d : Definition} {n : Nat} {s : StepDefinition} {e : Executor}

/-- The answer that the next atomic step adds to the case: the recorded one that it finds, or the
new one that the journal takes. -/
def answer? (r : Readings) (x : Execution) (l : Ledger) : Option Enrichment :=
  match x.phase with
  | .visiting _ _ s (.caseEnrichment _) .entering =>
      match x.context.log.recallActivity s.stepId with
      | .ok (_, some (output, _)) => (Visit.recordedEnrichment output).toOption.join
      | _ => none
  | .visiting _ _ _ _ (.analysed _ _) => (x.accepted? r l).bind JournalEntry.answer?
  | _ => none

def added? (p : Execution × Ledger) : Act → Option Enrichment
  | .task _ r => p.1.answer? r p.2
  | .drop | .request _ | .others _ => none

/-- The answers that some acts add, in order. -/
def answers (p : Execution × Ledger) : List Act → List Enrichment
  | [] => []
  | a :: as => (added? p a).toList ++ answers (act p a) as

theorem answers_concat (p : Execution × Ledger) (as : List Act) (a : Act) :
    answers p (as ++ [a]) = answers p as ++ (added? (acts p as) a).toList := by
  induction as generalizing p with
  | nil => simp [answers]
  | cons b as ih => simp [answers, ih (act p b), List.append_assoc]

/-- An answer of the earlier run is given at once. -/
theorem answer?_of_recorded {enricher : Option Enricher} {output : Value} {t : Instant}
    {rest : List JournalEntry} {a : Option Enrichment}
    (hp : x.phase = .visiting d n s (.caseEnrichment enricher) .entering)
    (recorded : x.context.log.pending = .activityCompleted s.stepId output t :: rest)
    (readable : Visit.recordedEnrichment output = .ok a) : x.answer? r l = a := by
  have hrecall := Log.recallActivity_of_answer recorded
  simp [answer?, hp, hrecall, readable, Except.toOption]

/-- A visit that asks a collaborator adds nothing before the answer is recorded. -/
theorem answer?_of_live {enricher : Option Enricher}
    (hp : x.phase = .visiting d n s (.caseEnrichment enricher) .entering)
    (live : x.context.log.pending = []) : x.answer? r l = none := by
  have hrecall : x.context.log.recallActivity s.stepId = .ok (x.context.log, none) :=
    Log.recallActivity_of_nil live
  simp [answer?, hp, hrecall]

theorem answer?_of_unreadable {enricher : Option Enricher} {output : Value} {t : Instant}
    {rest : List JournalEntry} {fault : Error}
    (hp : x.phase = .visiting d n s (.caseEnrichment enricher) .entering)
    (recorded : x.context.log.pending = .activityCompleted s.stepId output t :: rest)
    (unreadable : Visit.recordedEnrichment output = .error fault) : x.answer? r l = none := by
  have hrecall := Log.recallActivity_of_answer recorded
  simp [answer?, hp, hrecall, unreadable, Except.toOption]

/-- A visit that meets another entry fails, with no answer. -/
theorem answer?_of_other {enricher : Option Enricher} {entry : JournalEntry}
    {rest : List JournalEntry}
    (hp : x.phase = .visiting d n s (.caseEnrichment enricher) .entering)
    (recorded : x.context.log.pending = entry :: rest) (other : ¬ entry.IsAnswerFor s.stepId) :
    x.answer? r l = none := by
  have hrecall := Log.recallActivity_of_other recorded other
  simp [answer?, hp, hrecall]

/-- After the question the answer counts as soon as the journal has it. -/
theorem answer?_of_analysed {a : Option Enrichment} {t : Instant}
    (hp : x.phase = .visiting d n s e (.analysed a t)) :
    x.answer? r l = (x.accepted? r l).bind JournalEntry.answer? := by
  simp [answer?, hp]

theorem answer?_of_taken {a : Option Enrichment} {t : Instant} {j : Journal}
    (hp : x.phase = .visiting d n s e (.analysed a t))
    (happend : l.journal.append x.context.log.caseId (.activityCompleted s.stepId (toValue a) t) =
      .ok j) : x.answer? r l = a := by
  have haccepted := accepted?_of_taken (written?_of_analysed (r := r) hp) happend
  rw [answer?_of_analysed hp, haccepted]
  exact JournalEntry.answer?_completed s.stepId a t

theorem answer?_of_refused {a : Option Enrichment} {t : Instant} {fault : Error}
    (hp : x.phase = .visiting d n s e (.analysed a t))
    (happend : l.journal.append x.context.log.caseId (.activityCompleted s.stepId (toValue a) t) =
      .error fault) : x.answer? r l = none := by
  have hrefused := accepted?_of_refused (written?_of_analysed (r := r) hp) happend
  rw [answer?_of_analysed hp, hrefused]
  rfl

/-! ## One atomic step -/

def openedCase (g : Engine) (x : Execution) (input : CaseInput) : Case :=
  Case.openFrom x.caseId input (assignee g.settings) x.launch.startedAt

/-- How the published case of an execution follows from its payload and from some answers. -/
inductive Accounts (g : Engine) (x : Execution) (given : List Enrichment) : Prop
  /-- The case is not opened yet. -/
  | unopened (hp : x.phase.isPastOpening = false) (unpublished : x.published = none)
      (ungiven : given = [])
  /-- The case will never be opened. -/
  | unborn (last : x.phase.isLast = true) (unpublished : x.published = none) (ungiven : given = [])
  | opened {input : CaseInput} (past : x.phase.isPastOpening = true)
      (readable : CaseInput.ofPayload x.launch.payload = .ok input)
      (reflects : x.context.Reflects (openedCase g x input) given)

/-- Before the case is opened there is nothing to account for. -/
theorem accounts_of_starts (g : Engine) (starts : x.Starts) : x.Accounts g [] := by
  obtain ⟨caseId, launch, entries, rfl⟩ := starts.launching
  refine .unopened ?_ rfl rfl
  unfold launching
  cases launch.isFresh <;> rfl

/-- Only the launch, the case, the phase and what is published are looked at. -/
theorem Accounts.of_same (h : x.Accounts g given) (launch : y.launch = x.launch)
    (caseId : y.caseId = x.caseId) (phase : y.phase = x.phase)
    (published : y.published = x.published) : y.Accounts g given := by
  cases h with
  | unopened hp unpublished ungiven =>
      exact .unopened (by rwa [phase]) (published.trans unpublished) ungiven
  | unborn last unpublished ungiven =>
      exact .unborn (by rwa [phase]) (published.trans unpublished) ungiven
  | opened past readable reflects =>
      refine .opened (by rwa [phase]) (by rwa [launch]) ?_
      simp only [openedCase, launch, caseId]
      exact reflects.of_published published

/-- What the beginning of a visit does to the published case is told by the answer that it finds. -/
theorem reflects_of_entering {settings : EngineSettings} {out : Context × Ledger × Visit}
    {opened : Case} (hp : x.phase = .visiting d n s e .entering)
    (ways : Visit.Entering settings s r x.context l e out)
    (reflects : x.context.Reflects opened given) :
    out.1.Reflects opened (given ++ (x.answer? r l).toList) := by
  cases ways with
  | noQuestion h => exact reflects.unanswered (by simp [answer?, hp])
  | asking h live => exact (reflects.asking settings s _).unanswered (by simp [answer?, hp])
  | @decided config signal rest h recorded =>
      have hasking : Context.Reflects
          { Visit.asking settings s config x.context with
            log := { x.context.log with pending := rest } } opened given :=
        reflects.asking settings s config
      exact (hasking.applyDecision signal).unanswered (by simp [answer?, hp])
  | undecided h recorded other =>
      exact (reflects.asking settings s _).unanswered (by simp [answer?, hp])
  | noStatus h => exact reflects.unanswered (by simp [answer?, hp])
  | @committed config h =>
      have hcommitted := reflects.update fun k hk =>
        hk.setStatus config.finalStatus x.context.clock
      exact hcommitted.unanswered (by simp [answer?, hp])
  | alone live => exact reflects.unanswered (answer?_of_live hp live)
  | unopened live _ => exact reflects.unanswered (answer?_of_live hp live)
  | refused live _ _ => exact reflects.unanswered (answer?_of_live hp live)
  | answered live _ _ => exact reflects.unanswered (answer?_of_live hp live)
  | @analysed _ output t a rest recorded readable =>
      -- The one way to begin that finds an answer.
      rw [answer?_of_recorded hp recorded readable]
      have hlater : Context.Reflects
          ({ x.context with log := { x.context.log with pending := rest } }.advanceClock t)
          opened given := reflects
      exact hlater.applyEnrichment a
  | @unreadable _ output t fault rest recorded unreadable =>
      have hlater : Context.Reflects
          ({ x.context with log := { x.context.log with pending := rest } }.advanceClock t)
          opened given := reflects
      exact hlater.unanswered (answer?_of_unreadable hp recorded unreadable)
  | unanswered recorded other => exact reflects.unanswered (answer?_of_other hp recorded other)

/-- A decision is recorded or refused, and no answer is added in either case. -/
theorem reflects_settleDecision {c : Context} {opened : Case} (reflects : c.Reflects opened given)
    (s : StepDefinition) (l : Ledger) (signal : Signal) :
    (Visit.settleDecision s c l signal).1.Reflects opened given := by
  unfold Visit.settleDecision
  split
  · exact reflects
  · exact reflects.applyDecision signal

/-- The answer of a collaborator is added if the journal takes it. -/
theorem reflects_settleEnrichment {opened : Case} {a : Option Enrichment} {t : Instant}
    (hp : x.phase = .visiting d n s e (.analysed a t))
    (reflects : x.context.Reflects opened given) :
    (Visit.settleEnrichment s x.context l a t).1.Reflects opened
      (given ++ (x.answer? r l).toList) := by
  cases happend : l.journal.append x.context.log.caseId
      (.activityCompleted s.stepId (toValue a) t) with
  | error fault =>
      rw [answer?_of_refused hp happend, settleEnrichment_of_refused happend]
      simpa using reflects
  | ok j =>
      have hlater : (x.context.advanceClock t).Reflects opened given := reflects
      rw [answer?_of_taken hp happend, settleEnrichment_of_kept happend]
      exact hlater.applyEnrichment a

/-- A case that was opened changes as the answers tell. -/
theorem reflects_of_advance {opened : Case} (past : x.phase.isPastOpening = true)
    (hstep : x.advance g r l = some b) (reflects : x.context.Reflects opened given) :
    b.1.context.Reflects opened (given ++ (x.answer? r l).toList) := by
  cases stepping hstep with
  | starting hp => simp [hp, Phase.isPastOpening] at past
  | opening hp => simp [hp, Phase.isPastOpening] at past
  | dispatching hp => exact reflects.unanswered (by simp [answer?, hp])
  | entering hp ways => exact reflects_of_entering hp ways reflects
  | awaiting hp hw => exact reflects.unanswered (by simp [answer?, hp])
  | @decided _ _ s _ signal hp =>
      have hdecided := reflects_settleDecision reflects s l signal
      exact hdecided.unanswered (by simp [answer?, hp])
  | analysed hp => exact reflects_settleEnrichment hp reflects
  | left hp => exact reflects.unanswered (by simp [answer?, hp])
  | @closing result hp =>
      have hsame := reflects.of_published (published_close x.context l r result)
      exact hsame.unanswered (by simp [answer?, hp])

/-- The start is recorded, or nothing comes after it. -/
theorem accounts_start (h : x.Accounts g given) (hp : x.phase = .starting) (l : Ledger) :
    (x.start l).1.Accounts g given := by
  cases h with
  | unopened _ unpublished ungiven =>
      unfold start
      split
      · exact .unopened rfl unpublished ungiven
      · exact .unborn rfl unpublished ungiven
  | unborn last _ _ => simp [hp, Phase.isLast] at last
  | opened past _ _ => simp [hp, Phase.isPastOpening] at past

/-- The case is opened, or nothing comes after it. -/
theorem accounts_openCase (alike : g.Alike g') (h : x.Accounts g given) (hp : x.phase = .opening) :
    (x.openCase g').Accounts g given := by
  cases h with
  | unopened _ unpublished ungiven =>
      unfold openCase
      cases hprepare : prepare g' x.launch with
      | error fault => exact .unborn rfl unpublished ungiven
      | ok out =>
          subst ungiven
          refine .opened rfl (payload_of_prepare hprepare) ⟨_, rfl, ?_⟩
          rw [alike.settings]
          exact Case.reflects_openFrom _ _ _ _
  | unborn last _ _ => simp [hp, Phase.isLast] at last
  | opened past _ _ => simp [hp, Phase.isPastOpening] at past

theorem beginning_of_not_past (h : x.phase.isPastOpening = false) :
    x.phase = .starting ∨ x.phase = .opening := by
  cases hp : x.phase <;> simp [hp, Phase.isPastOpening] at h ⊢

/-- Nothing comes after the last step but the end. -/
theorem isLast_of_advance (last : x.phase.isLast = true) (hstep : x.advance g r l = some b) :
    b.1.phase.isLast = true ∧ b.1.published = x.published := by
  cases stepping hstep with
  | @left d n s e result hp =>
      refine ⟨?_, rfl⟩
      cases result with
      | error fault => rfl
      | ok outcome =>
          cases outcome with
          | next stepId => simp [hp, Phase.isLast] at last
          | terminate => rfl
  | @closing result hp => exact ⟨rfl, published_close x.context l r result⟩
  | starting hp => simp [hp, Phase.isLast] at last
  | opening hp => simp [hp, Phase.isLast] at last
  | dispatching hp => simp [hp, Phase.isLast] at last
  | entering hp _ => simp [hp, Phase.isLast] at last
  | awaiting hp _ => simp [hp, Phase.isLast] at last
  | decided hp => simp [hp, Phase.isLast] at last
  | analysed hp => simp [hp, Phase.isLast] at last

/-- What is about to end adds no answer. -/
theorem answer?_of_isLast (last : x.phase.isLast = true) : x.answer? r l = none := by
  unfold answer?
  split
  · next hp => simp [hp, Phase.isLast] at last
  · next hp => simp [hp, Phase.isLast] at last
  · rfl

/-- Every atomic step keeps the account, with the answer that it adds. -/
theorem Accounts.advance (h : x.Accounts g given) (alike : g.Alike g')
    (hstep : x.advance g' r l = some b) : b.1.Accounts g (given ++ (x.answer? r l).toList) := by
  have hs := running_of_advance hstep
  cases h with
  | unopened hpast unpublished ungiven =>
      -- Two phases stand before the case, and only the second can open it.
      have haccounts : x.Accounts g given := .unopened hpast unpublished ungiven
      rcases beginning_of_not_past hpast with hp | hp
      · rw [advance_of_starting hs hp] at hstep
        cases hstep
        simpa [answer?, hp] using accounts_start haccounts hp l
      · rw [advance_of_opening hs hp] at hstep
        cases hstep
        simpa [answer?, hp] using accounts_openCase alike haccounts hp
  | unborn last unpublished ungiven =>
      obtain ⟨hlast, hsame⟩ := isLast_of_advance last hstep
      have hnone : x.answer? r l = none := answer?_of_isLast last
      exact .unborn hlast (hsame.trans unpublished) (by simp [hnone, ungiven])
  | opened past readable reflects =>
      have hbegun : x.phase ≠ .starting := by
        intro hp
        simp [hp, Phase.isPastOpening] at past
      have hlaunch := launch_of_advance hstep
      refine .opened (isPastOpening_of_advance hstep hbegun) (by rwa [hlaunch]) ?_
      simpa only [openedCase, hlaunch, caseId_of_advance hstep] using
        reflects_of_advance past hstep reflects

/-! ## Status labels -/

/-- Where the status label of a case is from after an atomic step. -/
inductive Relabels (settings : EngineSettings) (x y : Execution) (k : Case) : Prop
  | opened (h : k.status = Case.processingStatus)
  | asked (h : k.status = settings.reviewStatus)
  | committed {d : Definition} {n : Nat} {s : StepDefinition} {config : CommitConfig}
      (hp : y.phase = .visiting d n s .finalCommit (.left (.ok .terminate)))
      (readable : s.config CommitConfig.decoder = .ok config) (h : k.status = config.finalStatus)
  /-- It is what it was, and if the step was the last one, there is none after it. -/
  | kept {k₀ : Case} (published : x.published = some k₀) (h : k.status = k₀.status)
      (last : x.phase.isLast = true → y.phase.isLast = true)

section Labels

variable {settings : EngineSettings} {k : Case}

/-- Changes that do not set the label leave it as it was. -/
theorem relabels_of_map {f : Case → Case} (hk : y.published = some k)
    (map : y.published = x.published.map f) (hf : ∀ k₀ : Case, (f k₀).status = k₀.status)
    (last : x.phase.isLast = true → y.phase.isLast = true) : Relabels settings x y k := by
  obtain ⟨k₀, hk₀, rfl⟩ := Option.map_eq_some_iff.1 (map.symm.trans hk)
  exact .kept hk₀ (hf k₀) last

/-- A state with the same case has the same label, and the same reason for it. -/
theorem relabels_of_same (hk : y.published = some k) (same : y.published = x.published)
    (last : x.phase.isLast = true → y.phase.isLast = true) : Relabels settings x y k :=
  .kept (same.symm.trans hk) rfl last

theorem published_applyEnrichment (c : Context) (a : Option Enrichment) :
    ∃ f : Case → Case, (Visit.applyEnrichment c a).published = c.published.map f ∧
      ∀ k₀ : Case, (f k₀).status = k₀.status := by
  cases a with
  | none => exact ⟨id, by simp [Visit.applyEnrichment], fun _ => rfl⟩
  | some a => exact ⟨fun k => k.enrich a c.clock, rfl, fun _ => rfl⟩

/-- The label is not changed by a decision. -/
theorem published_settleDecision (s : StepDefinition) (c : Context) (l : Ledger)
    (signal : Signal) :
    ∃ f : Case → Case, (Visit.settleDecision s c l signal).1.published = c.published.map f ∧
      ∀ k₀ : Case, (f k₀).status = k₀.status := by
  unfold Visit.settleDecision
  split
  · exact ⟨id, by simp, fun _ => rfl⟩
  · exact ⟨_, rfl, fun _ => rfl⟩

/-- Nor is it by an answer. -/
theorem published_settleEnrichment (s : StepDefinition) (c : Context) (l : Ledger)
    (a : Option Enrichment) (t : Instant) :
    ∃ f : Case → Case, (Visit.settleEnrichment s c l a t).1.published = c.published.map f ∧
      ∀ k₀ : Case, (f k₀).status = k₀.status := by
  unfold Visit.settleEnrichment
  split
  · exact ⟨id, by simp, fun _ => rfl⟩
  · exact published_applyEnrichment (c.advanceClock t) a

/-- Where the label is from once a visit has begun. -/
theorem relabels_of_entering {out : Context × Ledger × Visit}
    (hp : x.phase = .visiting d n s e .entering)
    (ways : Visit.Entering settings s r x.context l e out) (hk : out.1.published = some k) :
    Relabels settings x (x.inVisit d n s e out).1 k := by
  have hmore : x.phase.isLast = true → (x.inVisit d n s e out).1.phase.isLast = true := by
    intro last
    simp [hp, Phase.isLast] at last
  cases ways with
  | noQuestion h => exact relabels_of_same hk rfl hmore
  | asking h live =>
      obtain ⟨k₀, -, rfl⟩ := Option.map_eq_some_iff.1 hk
      exact .asked rfl
  | decided h recorded =>
      -- A recorded decision is applied to the question, which has set the label already.
      obtain ⟨k₁, hk₁, rfl⟩ := Option.map_eq_some_iff.1 hk
      obtain ⟨k₀, -, rfl⟩ := Option.map_eq_some_iff.1 hk₁
      exact .asked rfl
  | undecided h recorded other =>
      obtain ⟨k₀, -, rfl⟩ := Option.map_eq_some_iff.1 hk
      exact .asked rfl
  | noStatus h => exact relabels_of_same hk rfl hmore
  | committed h =>
      obtain ⟨k₀, -, rfl⟩ := Option.map_eq_some_iff.1 hk
      exact .committed rfl h rfl
  | alone live => exact relabels_of_same hk rfl hmore
  | unopened live unopened => exact relabels_of_same hk rfl hmore
  | refused live published answer => exact relabels_of_same hk rfl hmore
  | answered live published answer => exact relabels_of_same hk rfl hmore
  | @analysed _ output t a rest recorded readable =>
      obtain ⟨f, hmap, hf⟩ := published_applyEnrichment
        ({ x.context with log := { x.context.log with pending := rest } }.advanceClock t) a
      exact relabels_of_map hk hmap hf hmore
  | unreadable recorded unreadable => exact relabels_of_same hk rfl hmore
  | unanswered recorded other => exact relabels_of_same hk rfl hmore

/-- Every atomic step leaves the label as it was, or gives it its reason. -/
theorem relabels_of_advance (hstep : x.advance g r l = some b) (hk : b.1.published = some k) :
    Relabels g.settings x b.1 k := by
  have hlast : x.phase.isLast = true → b.1.phase.isLast = true := fun last =>
    (isLast_of_advance last hstep).1
  cases stepping hstep with
  | starting hp =>
      refine relabels_of_same hk ?_ hlast
      rw [published, context_start, published]
  | opening hp =>
      -- A launch that cannot be prepared publishes nothing new.
      unfold openCase at hk hlast ⊢
      cases hprepare : prepare g x.launch with
      | error fault =>
          simp only [hprepare] at hk hlast ⊢
          exact relabels_of_same hk rfl hlast
      | ok out =>
          simp only [hprepare] at hk ⊢
          cases hk
          exact .opened rfl
  | dispatching hp => exact relabels_of_same hk rfl hlast
  | entering hp ways => exact relabels_of_entering hp ways hk
  | awaiting hp hw => exact relabels_of_same hk rfl hlast
  | @decided _ _ s _ signal hp =>
      obtain ⟨f, hmap, hf⟩ := published_settleDecision s x.context l signal
      exact relabels_of_map hk hmap hf hlast
  | @analysed _ _ s _ a t hp =>
      obtain ⟨f, hmap, hf⟩ := published_settleEnrichment s x.context l a t
      exact relabels_of_map hk hmap hf hlast
  | left hp => exact relabels_of_same hk rfl hlast
  | @closing result hp =>
      exact relabels_of_same hk (published_close x.context l r result) hlast

end Labels

/-! ## One act -/

/-- What one act comes to: a step of the task, or nothing that is added to the case. -/
inductive Acting (p : Execution × Ledger) : Act → Execution → Prop
  | step {g : Engine} {r : Readings} {z : Execution} {l : Ledger}
      (h : advance g r { p.1 with status := .running } p.2 = some (z, l))
      (status : ExecutionStatus) : Acting p (.task g r) { z with status := status }
  | still {a : Act} (silent : added? p a = none) (inbox : Inbox) (status : ExecutionStatus) :
      Acting p a { p.1.withInbox inbox with status := status }

/-- A task that cannot go on adds no answer. -/
theorem answer?_of_stuck (stuck : x.toil g r l = none) : x.answer? r l = none := by
  have hnone : advance g r { x with status := .running } l = none := by
    simpa [toil] using stuck
  -- Who is about to find or to record an answer is never stuck.
  unfold answer?
  split
  · next hp =>
      rw [advance_of_entering (x := { x with status := .running }) rfl hp] at hnone
      cases hnone
  · next hp =>
      rw [advance_of_analysed (x := { x with status := .running }) rfl hp] at hnone
      cases hnone
  · rfl

/-- Nothing is added but by a step of the task. -/
theorem added?_of_besides (p : Execution × Ledger) {a : Act} (other : a.isTask = false) :
    added? p a = none := by
  cases a with
  | task g r => cases other
  | _ => rfl

/-- Every act is one of these. -/
theorem acting (p : Execution × Ledger) (a : Act) : Acting p a (act p a).1 := by
  have hacted := acted p a
  generalize Execution.act p a = q at hacted ⊢
  cases hacted with
  | toiled hstep => exact .step hstep _
  | @stuck g r htoil =>
      have hsilent : added? p (.task g r) = none := answer?_of_stuck htoil
      exact .still hsilent p.1.context.inbox p.1.status
  | besides other _ _ => exact .still (added?_of_besides p other) _ _

/-- Along one act the answers that it adds are accounted for. -/
theorem Accounts.act (h : p.1.Accounts g given) {a : Act}
    (alike : ∀ g' r, a = .task g' r → g.Alike g') :
    (act p a).1.Accounts g (given ++ (added? p a).toList) := by
  have hacting := acting p a
  generalize (Execution.act p a).1 = y at hacting ⊢
  cases hacting with
  | @step g' r z l hstep status =>
      have hrunning : Accounts g { p.1 with status := .running } given := h.of_same rfl rfl rfl rfl
      have hz := hrunning.advance (alike g' r rfl) hstep
      exact hz.of_same rfl rfl rfl rfl
  | still silent inbox status =>
      rw [silent, Option.toList_none, List.append_nil]
      exact h.of_same rfl rfl rfl rfl

/-- Where the label is from after an act. -/
theorem relabels_act {a : Act} {k : Case} (alike : ∀ g' r, a = .task g' r → g.Alike g')
    (hk : (act p a).1.published = some k) : Relabels g.settings p.1 (act p a).1 k := by
  have hacting := acting p a
  generalize (Execution.act p a).1 = y at hacting hk ⊢
  cases hacting with
  | @step g' r z l hstep status =>
      have hz := relabels_of_advance hstep hk
      rw [(alike g' r rfl).settings] at hz
      -- The status of the execution, which an act also sets, is no part of a reason.
      cases hz with
      | opened h => exact .opened h
      | asked h => exact .asked h
      | committed hp readable h => exact .committed hp readable h
      | kept published h last => exact .kept published h last
  | still silent inbox status => exact relabels_of_same hk rfl id

/-- Preparation loads the process by the name and version that the execution was launched with. -/
theorem loaded_of_prepare {launch : Launch} {out : Definition × CaseInput}
    (h : prepare g launch = .ok out) :
    g.loader.load launch.processName launch.processVersion = .ok out.1 := by
  cases hload : g.loader.load launch.processName launch.processVersion with
  | error fault => simp [prepare_eq, hload] at h
  | ok d => rw [definition_of_prepare hload h]

/-- Whether a walk goes through the definition that its launch names. -/
def Follows (g : Engine) (launch : Launch) (x : Execution) : Prop :=
  x.launch = launch ∧
    x.phase.Within fun d => g.loader.load launch.processName launch.processVersion = .ok d

/-- What an act does depends on the collaborators only by what they answer. -/
theorem Follows.act {launch : Launch} (h : p.1.Follows g launch) {a : Act}
    (alike : ∀ g' r, a = .task g' r → g.Alike g') : (act p a).1.Follows g launch := by
  obtain ⟨hlaunch, hwithin⟩ := h
  have hacting := acting p a
  generalize (Execution.act p a).1 = y at hacting ⊢
  cases hacting with
  | @step g' r z l hstep status =>
      have hprepared : ∀ out, prepare g' p.1.launch = .ok out →
          g.loader.load launch.processName launch.processVersion = .ok out.1 := by
        intro out hprepare
        rw [(alike g' r rfl).prepare, hlaunch] at hprepare
        exact loaded_of_prepare hprepare
      have hz := within_of_advance (x := { p.1 with status := .running }) hwithin hprepared hstep
      exact ⟨(launch_of_advance hstep).trans hlaunch, hz⟩
  | still silent inbox status => exact ⟨hlaunch, hwithin⟩

/-! ## Any number of acts -/

section Runs

variable {x₀ : Execution} (l₀ : Ledger) {as : List Act}

/-- Whether all steps of the task among some acts are taken in worlds that differ from this one at
most in what collaborators answer. -/
def Likewise (g : Engine) (as : List Act) : Prop :=
  ∀ g' r, Act.task g' r ∈ as → g.Alike g'

theorem Likewise.of_prefix {before : List Act} (h : Likewise g as) (sub : before <+: as) :
    Likewise g before :=
  fun g' r hmem => h g' r (sub.subset hmem)

theorem Likewise.of_last {a : Act} (h : Likewise g (as ++ [a])) :
    ∀ g' r, a = .task g' r → g.Alike g' := by
  rintro g' r rfl
  exact h g' r (by simp)

/-- Every run keeps the account. -/
theorem accounts_acts (starts : x₀.Starts) (likewise : Likewise g as) :
    (acts (x₀, l₀) as).1.Accounts g (answers (x₀, l₀) as) := by
  induction as using List.reverseRecOn with
  | nil => exact accounts_of_starts g starts
  | append_singleton as a ih =>
      have hbefore := ih (likewise.of_prefix (List.prefix_append as [a]))
      rw [acts_append, answers_concat]
      exact hbefore.act likewise.of_last

theorem follows_acts (starts : x₀.Starts) (likewise : Likewise g as) :
    (acts (x₀, l₀) as).1.Follows g x₀.launch := by
  induction as using List.reverseRecOn with
  | nil => exact within_of_reaches starts .refl
  | append_singleton as a ih =>
      have hbefore := ih (likewise.of_prefix (List.prefix_append as [a]))
      rw [acts_append]
      exact hbefore.act likewise.of_last

/-- Where the status label of a published case is from. -/
inductive Labelled (g : Engine) (x₀ : Execution) (l₀ : Ledger) (as : List Act) (k : Case) : Prop
  | processing (h : k.status = Case.processingStatus)
  | inReview (h : k.status = g.settings.reviewStatus)
  /-- A step of the process that commits set it, and no step came after that. -/
  | committed {before : List Act} {d : Definition} {n : Nat} {s : StepDefinition}
      {config : CommitConfig} (sub : before <+: as)
      (hp : (acts (x₀, l₀) before).1.phase = .visiting d n s .finalCommit (.left (.ok .terminate)))
      (loaded : g.loader.load x₀.launch.processName x₀.launch.processVersion = .ok d)
      (known : s ∈ d.steps) (readable : s.config CommitConfig.decoder = .ok config)
      (h : k.status = config.finalStatus) (last : (acts (x₀, l₀) as).1.phase.isLast = true)

/-- Every published case has a label that the process accounts for. -/
theorem labelled_acts (starts : x₀.Starts) (likewise : Likewise g as) {k : Case}
    (hk : (acts (x₀, l₀) as).1.published = some k) : Labelled g x₀ l₀ as k := by
  induction as using List.reverseRecOn generalizing k with
  | nil =>
      obtain ⟨caseId, launch, entries, rfl⟩ := starts.launching
      cases hk
  | append_singleton as a ih =>
      have hprefix : as <+: as ++ [a] := List.prefix_append as [a]
      have hwithin := (follows_acts l₀ starts likewise).2
      have hacts : acts (x₀, l₀) (as ++ [a]) = act (acts (x₀, l₀) as) a := acts_append _ _ _
      rw [hacts] at hk
      cases relabels_act likewise.of_last hk with
      | opened h => exact .processing h
      | asked h => exact .inReview h
      | committed hp readable h =>
          rw [← hacts] at hp
          rw [hp] at hwithin
          have hlast : (acts (x₀, l₀) (as ++ [a])).1.phase.isLast = true := by
            rw [hp]
            rfl
          exact .committed (List.prefix_refl _) hp hwithin.1 hwithin.2 readable h hlast
      | kept published h last =>
          -- The label is that of the state before, which has its reason by then.
          cases ih (likewise.of_prefix hprefix) published with
          | processing h' => exact .processing (h.trans h')
          | inReview h' => exact .inReview (h.trans h')
          | committed sub hp loaded known readable h' last' =>
              refine .committed (sub.trans hprefix) hp loaded known readable (h.trans h') ?_
              rw [hacts]
              exact last last'

/-- What is known of a case that is published after some acts. -/
structure Accounted (g : Engine) (x₀ : Execution) (l₀ : Ledger) (as : List Act) (k : Case) :
    Prop where
  /-- Most of it is as it was opened, and the rest is one answer as a whole. -/
  reflects : ∃ input, CaseInput.ofPayload x₀.launch.payload = .ok input ∧
    k.Reflects (openedCase g x₀ input) (answers (x₀, l₀) as)
  /-- There is no analysis and no answer, or the last analysis tells of the answer that is there. -/
  together : (k.analyses = [] ∧ k.details.data.enrichment = .pending) ∨
    ∃ a, (answers (x₀, l₀) as).getLast? = some a ∧
      k.analyses.getLast? = some (Case.reportOf a) ∧ k.details.data.enrichment = a
  label : Labelled g x₀ l₀ as k

/-- The case that is published after some acts, and the question that is published next. -/
def Publishes (settings : EngineSettings) (x : Execution) (k : Case) : Prop :=
  x.published = some k ∨ x.question? settings = some k

/-- A case that is published in the middle of a step is the former one with a question. -/
theorem exists_of_question? {settings : EngineSettings} {k : Case}
    (h : x.question? settings = some k) :
    ∃ k₀ i t, x.published = some k₀ ∧ k = k₀.beginInteraction i settings.reviewStatus t := by
  unfold question? at h
  split at h
  · split at h
    · obtain ⟨k₀, hk₀, rfl⟩ := Option.map_eq_some_iff.1 h
      exact ⟨k₀, _, _, hk₀, rfl⟩
    · cases h
  · cases h

theorem Accounts.exists_reflects (h : x.Accounts g given) {k : Case} (hk : x.published = some k) :
    ∃ input, CaseInput.ofPayload x.launch.payload = .ok input ∧
      k.Reflects (openedCase g x input) given := by
  cases h with
  | unopened _ unpublished _ => simp [hk] at unpublished
  | unborn _ unpublished _ => simp [hk] at unpublished
  | @opened input _ readable reflects =>
      obtain ⟨k', hk', hreflects⟩ := reflects
      obtain rfl : k = k' := Option.some.inj (hk.symm.trans hk')
      exact ⟨input, readable, hreflects⟩

/-- Whatever is published, at rest or in the middle of a step, is accounted for. -/
theorem accounted_of_publishes (starts : x₀.Starts) (likewise : Likewise g as) {k : Case}
    (h : Publishes g.settings (acts (x₀, l₀) as).1 k) : Accounted g x₀ l₀ as k := by
  have hlaunch := (follows_acts l₀ starts likewise).1
  have hcase := caseId_acts (x₀, l₀) as
  have haccounts := accounts_acts l₀ starts likewise
  have hreflects : ∃ input, CaseInput.ofPayload x₀.launch.payload = .ok input ∧
      k.Reflects (openedCase g x₀ input) (answers (x₀, l₀) as) := by
    have hopened : ∀ input, openedCase g (acts (x₀, l₀) as).1 input = openedCase g x₀ input := by
      intro input
      simp only [openedCase, hlaunch, hcase]
    rw [← hlaunch]
    --  hq|What is published is the case at rest, or the question that is put to it in the middle of
    -- a step.
    rcases h with hk | hq
    · obtain ⟨input, readable, hreflects⟩ := haccounts.exists_reflects hk
      exact ⟨input, readable, hopened input ▸ hreflects⟩
    · obtain ⟨k₀, i, t, hk₀, rfl⟩ := exists_of_question? hq
      obtain ⟨input, readable, hreflects⟩ := haccounts.exists_reflects hk₀
      exact ⟨input, readable, hopened input ▸ hreflects.beginInteraction i _ t⟩
  have hlabel : Labelled g x₀ l₀ as k := by
    rcases h with hk | hq
    · exact labelled_acts l₀ starts likewise hk
    · obtain ⟨k₀, i, t, -, rfl⟩ := exists_of_question? hq
      exact .inReview rfl
  obtain ⟨input, readable, hall⟩ := hreflects
  exact ⟨⟨input, readable, hall⟩, hall.together, hlabel⟩

/-- All that is published along some acts is published after some of them. -/
theorem exists_prefix_of_mem_history (likewise : Likewise g as) {k : Case}
    (h : k ∈ history p as) : ∃ before, before <+: as ∧ Publishes g.settings (acts p before).1 k := by
  induction as generalizing p with
  | nil => exact ⟨[], List.prefix_refl _, .inl (Option.mem_toList.1 h)⟩
  | cons a as ih =>
      rw [history, List.append_assoc, List.mem_append, List.mem_append] at h
      rcases h with hnow | hasked | hlater
      · exact ⟨[], List.nil_prefix, .inl (Option.mem_toList.1 hnow)⟩
      · refine ⟨[], List.nil_prefix, .inr ?_⟩
        have hquestion := Option.mem_toList.1 hasked
        cases a with
        | task g' r =>
            rw [← (likewise g' r List.mem_cons_self).settings]
            exact hquestion
        | _ => cases hquestion
      · obtain ⟨before, hsub, hpublishes⟩ :=
          ih (fun g' r hmem => likewise g' r (List.mem_cons_of_mem a hmem)) hlater
        exact ⟨a :: before, List.cons_prefix_cons.2 ⟨rfl, hsub⟩, hpublishes⟩

end Runs

end Execution

open Execution

/-- Everything that an execution publishes, new or resumed from whatever journal, is what it opened
the case with, apart from one whole answer of a collaborator, the latest that was taken up by then,
and a status label for which there is a reason. -/
theorem published_accounted (g : Engine) (x₀ : Execution) (l₀ : Ledger) (starts : x₀.Starts)
    (as : List Act) (likewise : Likewise g as) :
    ∀ k ∈ history (x₀, l₀) as, ∃ before, before <+: as ∧ Accounted g x₀ l₀ before k := by
  intro k hk
  obtain ⟨before, hsub, hpublishes⟩ := exists_prefix_of_mem_history likewise hk
  exact ⟨before, hsub, accounted_of_publishes l₀ starts (likewise.of_prefix hsub) hpublishes⟩

/-! ## A case that is analysed and approved -/

/-- The approval process with a collaborator that gives the same answer to everything. -/
def Engine.advised : Engine :=
  .approving (some (.fixed ⟨"Routine.", "Within policy.", "Low"⟩))

/-- A run of it, with an approval that is dated before the case was opened. -/
def advisedRun : List Act :=
  List.replicate 9 (.task .advised default) ++
    .request (.signal (.decision "approve" "s-1" ⟨1, 0⟩)) ::
      List.replicate 9 (.task .advised default)

/-- At the end the case has the answer and the final status, and both are accounted for. -/
theorem published_accounted_advised :
    ∃ k ∈ history (.fresh "case-1" "approval" "1" .null ⟨10, 0⟩, ⟨.empty, [], []⟩) advisedRun,
      k.status = "Approved" ∧ k.details.data.enrichment = ⟨"Routine.", "Within policy.", "Low"⟩ ∧
      k.analyses = ["Analysis complete. Risk Score: Low."] ∧
      ∃ before, before <+: advisedRun ∧
        Accounted .advised (.fresh "case-1" "approval" "1" .null ⟨10, 0⟩) ⟨.empty, [], []⟩ before
          k := by
  have hlikewise : Likewise .advised advisedRun := by
    intro g' r hmem
    have hadvised : g' = .advised := by
      rcases List.mem_append.1 hmem with hfirst | hlater
      · exact (Act.task.inj (List.eq_of_mem_replicate hfirst)).1
      · rcases List.mem_cons.1 hlater with hrequest | hlast
        · cases hrequest
        · exact (Act.task.inj (List.eq_of_mem_replicate hlast)).1
    rw [hadvised]
    exact .refl _
  have hall := published_accounted .advised (.fresh "case-1" "approval" "1" .null ⟨10, 0⟩)
    ⟨.empty, [], []⟩ (.fresh _ _ _ _ _) advisedRun hlikewise
  have hlast : ∃ k ∈ history (.fresh "case-1" "approval" "1" .null ⟨10, 0⟩, ⟨.empty, [], []⟩)
        advisedRun, k.status = "Approved" ∧
      k.details.data.enrichment = ⟨"Routine.", "Within policy.", "Low"⟩ ∧
      k.analyses = ["Analysis complete. Risk Score: Low."] :=
    ⟨_, List.mem_of_getLast? rfl, rfl, rfl, rfl⟩
  obtain ⟨k, hk, hstatus, henrichment, hanalyses⟩ := hlast
  exact ⟨k, hk, hstatus, henrichment, hanalyses, hall k hk⟩

end Casework
