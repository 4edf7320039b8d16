import Casework.Proofs.Execution.Approval
import Casework.Proofs.Execution.Trace

/-!
# Questions — what readers of a case see while a step waits

A step that waits for a decision publishes a question before it looks into the log, and takes it
back with the decision.  An execution that fails in between leaves its question open.

* `Case.Asks` : a case shows the question of a step, and the label that goes with it;
* `LeftOpen` : an execution failed before the answer to its question was applied;
* `Displays` : the invariant of what an execution shows;
* `question_while_waiting` : what follows for executions that wait, and for those that have ended;
* `question_left_open` : a failure that leaves a question open.
-/

namespace Casework

namespace Case

/-- Whether a case shows the question of a step, and the label that goes with it. -/
structure Asks (k : Case) (settings : EngineSettings) (caseId : String) (s : StepDefinition)
    (config : ReviewConfig) : Prop where
  interaction : k.interaction = some (Visit.interactionOf s config settings caseId)
  status : k.details.status = settings.reviewStatus

/-- Whether a case, if there is one, shows no question. -/
def Silent (published : Option Case) : Prop :=
  ∀ k, published = some k → k.interaction = none

variable {published : Option Case} {settings : EngineSettings}

/-- Changes that ask nothing keep a case silent. -/
theorem Silent.update (h : Silent published) {f : Case → Case}
    (hf : ∀ k, k.interaction = none → (f k).interaction = none) : Silent (published.map f) := by
  intro k hk
  rcases Option.map_eq_some_iff.1 hk with ⟨k', hk', rfl⟩
  exact hf k' (h k' hk')

/-- Changes that stop asking make it silent. -/
theorem silent_of_forall {f : Case → Case} (hf : ∀ k, (f k).interaction = none) :
    Silent (published.map f) := by
  intro k hk
  rcases Option.map_eq_some_iff.1 hk with ⟨k', -, rfl⟩
  exact hf k'

end Case

def Visit.isAsking : Visit → Bool
  | .awaiting _ | .decided _ => true
  | _ => false

def Phase.isAsking : Phase → Bool
  | .visiting _ _ _ _ v => v.isAsking
  | _ => false

/-- Whether an execution is on its way to a failure, or has failed. -/
def Phase.isFailing : Phase → Bool
  | .visiting _ _ _ _ (.left (.error _)) | .closing (.error _) | .ended (.error _) => true
  | _ => false

/-- An execution failed after it had asked the question of a step: the next recorded entry was no
decision for that step, or the journal refused the decision. -/
inductive LeftOpen (g : Engine) (x₀ : Execution) (s : StepDefinition) (config : ReviewConfig) :
    Execution → Prop
  | undecided {g' : Engine} {r : Readings} {y : Execution} {l : Ledger} {b : Execution × Ledger}
      {d : Definition} {n : Nat} {entry : JournalEntry} {rest : List JournalEntry}
      (before : Reaches g x₀ y) (hp : y.phase = .visiting d n s .humanInTheLoop .entering)
      (readable : s.config ReviewConfig.decoder = .ok config) (recorded : y.pending = entry :: rest)
      (other : ¬ entry.IsDecisionFor s.stepId) (alike : g.Alike g')
      (fails : y.advance g' r l = some b) : LeftOpen g x₀ s config b.1
  | refused {g' : Engine} {r : Readings} {y : Execution} {l : Ledger} {b : Execution × Ledger}
      {d : Definition} {n : Nat} {e : Executor} {signal : Signal} {fault : Error}
      (before : Reaches g x₀ y) (hp : y.phase = .visiting d n s e (.decided signal))
      (readable : s.config ReviewConfig.decoder = .ok config)
      (refusal : l.journal.append y.context.log.caseId (.signalConsumed s.stepId signal) =
        .error fault)
      (alike : g.Alike g') (fails : y.advance g' r l = some b) : LeftOpen g x₀ s config b.1
  | later {x x' : Execution} (h : LeftOpen g x₀ s config x) (moves : Moves g x x') :
      LeftOpen g x₀ s config x'

/-- What an execution shows: no question, the one of the step that it waits in, or one that was left
open. -/
inductive Displays (g : Engine) (x₀ x : Execution) : Prop
  | silent (hp : x.phase.isAsking = false) (quiet : Case.Silent x.published)
  | asking {d : Definition} {n : Nat} {s : StepDefinition} {e : Executor} {v : Visit}
      {config : ReviewConfig} (hp : x.phase = .visiting d n s e v) (waiting : v.isAsking = true)
      (readable : s.config ReviewConfig.decoder = .ok config)
      (asks : ∀ k, x.published = some k → k.Asks g.settings x.caseId s config)
  | forsaken {s : StepDefinition} {config : ReviewConfig} (left : LeftOpen g x₀ s config x)

namespace Execution

variable {g g' : Engine} {r : Readings} {x₀ x x' : Execution} {l : Ledger}
variable {b : Execution × Ledger} {d : Definition} {n : Nat} {s : StepDefinition} {e : Executor}
variable {settings : EngineSettings} {config : ReviewConfig}

/-! ## Phases that ask -/

theorem isAsking_start (x : Execution) (l : Ledger) : (x.start l).1.phase.isAsking = false := by
  unfold start
  split <;> rfl

theorem isAsking_dispatch (g : Engine) (d : Definition) (n : Nat) (stepId : String) :
    (dispatch g d n stepId).isAsking = false := by
  unfold dispatch
  split
  · rfl
  · split <;> rfl

theorem isAsking_proceed (c : Context) (l : Ledger) (d : Definition) (n : Nat)
    (s : StepDefinition) (result : Except Error Outcome) :
    (proceed c l d n s result).1.isAsking = false := by
  unfold proceed
  split <;> rfl

/-! ## One step -/

/-- Whoever shows no question goes on without, unless it asks its own. -/
theorem displays_of_entering {out : Context × Ledger × Visit} (before : Reaches g x₀ x)
    (hp : x.phase = .visiting d n s e .entering) (alike : g.Alike g')
    (quiet : Case.Silent x.published)
    (ways : Visit.Entering g'.settings s r x.context l e out)
    (hstep : x.advance g' r l = some (x.inVisit d n s e out)) :
    Displays g x₀ (x.inVisit d n s e out).1 := by
  cases ways with
  | @asking config readable live =>
      refine .asking rfl rfl readable ?_
      intro k hk
      -- What is published now was asked with the settings that all worlds share.
      have hk' : (x.context.published.map fun k => k.beginInteraction
          (Visit.interactionOf s config g'.settings x.context.caseId) g'.settings.reviewStatus
            x.context.clock) = some k := hk
      rw [alike.settings] at hk'
      rcases Option.map_eq_some_iff.1 hk' with ⟨k', -, rfl⟩
      exact ⟨rfl, rfl⟩
  | undecided readable recorded other =>
      exact .forsaken (.undecided before hp readable recorded other alike hstep)
  | decided readable recorded =>
      refine .silent rfl (Case.silent_of_forall ?_)
      intro k
      rfl
  | committed readable => exact .silent rfl (quiet.update fun k hk => hk)
  | @analysed enricher output t a rest recorded readable =>
      refine .silent rfl ?_
      cases a with
      | none => exact quiet
      | some answer => exact quiet.update fun k hk => hk
  | noQuestion _ => exact .silent rfl quiet
  | noStatus _ => exact .silent rfl quiet
  | alone _ => exact .silent rfl quiet
  | unopened _ _ => exact .silent rfl quiet
  | refused _ _ _ => exact .silent rfl quiet
  | answered _ _ _ => exact .silent rfl quiet
  | unreadable _ _ => exact .silent rfl quiet
  | unanswered _ _ => exact .silent rfl quiet

/-- A decision takes the question back, unless the journal refuses it. -/
theorem displays_of_decided {signal : Signal} (before : Reaches g x₀ x)
    (hp : x.phase = .visiting d n s e (.decided signal)) (alike : g.Alike g')
    (readable : s.config ReviewConfig.decoder = .ok config)
    (hstep : x.advance g' r l =
      some (x.inVisit d n s e (Visit.settleDecision s x.context l signal))) :
    Displays g x₀ (x.inVisit d n s e (Visit.settleDecision s x.context l signal)).1 := by
  cases happend : l.journal.append x.context.log.caseId (.signalConsumed s.stepId signal) with
  | error fault => exact .forsaken (.refused before hp readable happend alike hstep)
  | ok j =>
      rw [settleDecision_of_kept happend]
      refine .silent rfl (Case.silent_of_forall ?_)
      intro k
      rfl

/-- An answer of a collaborator asks nothing. -/
theorem silent_settleEnrichment {c : Context} {a : Option Enrichment} {t : Instant}
    (quiet : Case.Silent c.published) :
    Case.Silent (Visit.settleEnrichment s c l a t).1.published := by
  unfold Visit.settleEnrichment
  split
  · exact quiet
  · cases a with
    | none => exact quiet
    | some answer => exact quiet.update fun k hk => hk

theorem isAsking_settleEnrichment {c : Context} {a : Option Enrichment} {t : Instant} :
    (Visit.settleEnrichment s c l a t).2.2.isAsking = false := by
  unfold Visit.settleEnrichment
  split <;> rfl

/-- What a case displays is settled step by step: a question while a review waits, and none
otherwise, unless a review has failed. -/
theorem displays_of_advance (before : Reaches g x₀ x) (h : Displays g x₀ x) (alike : g.Alike g')
    (hstep : x.advance g' r l = some b) : Displays g x₀ b.1 := by
  cases h with
  | forsaken left => exact .forsaken (left.later (.step alike hstep))
  | @asking d n s e v config hp waiting readable asks =>
      -- A visit that has asked goes on waiting, or settles the decision.
      cases v with
      | awaiting w =>
          rw [advance_of_awaiting (running_of_advance hstep) hp] at hstep
          rcases Option.map_eq_some_iff.1 hstep with ⟨out, -, rfl⟩
          refine .asking rfl ?_ readable asks
          rcases Visit.ofWaiter_cases r out.2 with ⟨signal, hv⟩ | ⟨w', hv⟩
          · rw [hv]
            rfl
          · rw [hv]
            rfl
      | decided signal =>
          have hsame := hstep
          rw [advance_of_decided (running_of_advance hstep) hp] at hsame
          cases hsame
          exact displays_of_decided before hp alike readable hstep
      | entering => cases waiting
      | analysed a t => cases waiting
      | left result => cases waiting
  | silent hp quiet =>
      cases stepping hstep with
      | starting _ =>
          refine .silent (isAsking_start x l) ?_
          unfold Execution.published
          rw [context_start]
          exact quiet
      | opening _ =>
          unfold openCase
          cases prepare g' x.launch with
          | error fault => exact .silent rfl quiet
          | ok out =>
              refine .silent rfl ?_
              intro k hk
              cases hk
              rfl
      | @dispatching d n stepId _ => exact .silent (isAsking_dispatch g' d n stepId) quiet
      | entering hp' ways => exact displays_of_entering before hp' alike quiet ways hstep
      | awaiting hp' _ =>
          rw [hp'] at hp
          cases hp
      | decided hp' =>
          rw [hp'] at hp
          cases hp
      | analysed _ => exact .silent isAsking_settleEnrichment (silent_settleEnrichment quiet)
      | @left d n s e result _ =>
          exact .silent (isAsking_proceed x.context l d n s result) quiet
      | @closing result _ =>
          refine .silent rfl ?_
          have hsame : (x.finish l r result).1.published = x.published :=
            published_close x.context l r result
          rw [hsame]
          exact quiet

/-- Whatever leaves phase and case alone leaves the question alone. -/
theorem displays_of_same (h : Displays g x₀ x) (moves : Moves g x x')
    (phase : x'.phase = x.phase) (published : x'.published = x.published)
    (caseId : x'.caseId = x.caseId) : Displays g x₀ x' := by
  cases h with
  | silent hp quiet => exact .silent (by rw [phase]; exact hp) (by rw [published]; exact quiet)
  | asking hp waiting readable asks =>
      refine .asking (phase.trans hp) waiting readable ?_
      rw [published, caseId]
      exact asks
  | forsaken left => exact .forsaken (left.later moves)

/-- So it is with everything that may happen to an execution. -/
theorem displays_of_moves (before : Reaches g x₀ x) (h : Displays g x₀ x) (moves : Moves g x x') :
    Displays g x₀ x' := by
  -- A delivery or a cancellation leaves the case and the phase alone.
  cases moves with
  | step alike hstep => exact displays_of_advance before h alike hstep
  | deliver hdeliver =>
      rcases of_deliver hdeliver with ⟨-, inbox, hx'⟩
      refine displays_of_same h (.deliver hdeliver) ?_ ?_ ?_
      · rw [hx']
        rfl
      · rw [hx']
        rfl
      · rw [hx']
        rfl
  | cancel =>
      have hcontext := context_cancel x
      exact displays_of_same h (.cancel x) (phase_cancel x) (congrArg (·.published) hcontext)
        (congrArg (·.caseId) hcontext)

/-! ## A whole run -/

theorem displays_of_reaches (starts : x₀.Starts) (run : Reaches g x₀ x) : Displays g x₀ x := by
  induction run with
  | refl =>
      rcases starts.launching with ⟨caseId, launch, entries, rfl⟩
      refine .silent ?_ ?_
      · unfold launching
        cases launch.isFresh <;> rfl
      · intro k hk
        cases hk
  | tail before moves ih => exact displays_of_moves before ih moves

/-- A failure runs its course, and nothing more is published. -/
theorem failing_of_moves (h : x.phase.isFailing = true) (moves : Moves g x x') :
    x'.phase.isFailing = true ∧ x'.published = x.published ∧ x'.caseId = x.caseId := by
  cases moves with
  | @step g' r _ _ l l' _ hstep =>
      have hs := running_of_advance hstep
      -- After the error there are two steps left, to close with it and to end with it.
      cases hp : x.phase with
      | visiting d n s e v =>
          rw [hp] at h
          cases v with
          | left result =>
              rw [advance_of_left hs hp] at hstep
              cases hstep
              cases result with
              | error fault => exact ⟨rfl, rfl, rfl⟩
              | ok outcome => cases h
          | entering => cases h
          | awaiting w => cases h
          | decided signal => cases h
          | analysed a t => cases h
      | closing result =>
          rw [hp] at h
          rw [advance_of_closing hs hp] at hstep
          cases hstep
          cases result with
          | ok k => cases h
          | error fault =>
              have hresult : (x.finish l r (.error fault)).1.phase = .ended (.error fault) :=
                congrArg Phase.ended (close_error x.context l r fault)
              exact ⟨(congrArg Phase.isFailing hresult).trans rfl,
                published_close x.context l r (.error fault),
                caseId_close x.context l r (.error fault)⟩
      | starting => simp [hp, Phase.isFailing] at h
      | opening => simp [hp, Phase.isFailing] at h
      | dispatching d n stepId => simp [hp, Phase.isFailing] at h
      | ended result =>
          rw [advance_of_ended hp] at hstep
          cases hstep
  | deliver hdeliver =>
      rcases of_deliver hdeliver with ⟨-, inbox, rfl⟩
      exact ⟨h, rfl, rfl⟩
  | cancel =>
      rw [cancel_eq]
      exact ⟨h, rfl, rfl⟩

/-- An execution runs, was stopped, or has the status of its result. -/
theorem status_of_reaches (starts : x₀.Starts) (run : Reaches g x₀ x) :
    x.status = .running ∨ x.status = .cancelled ∨
      ∃ result, x.phase = .ended result ∧ x.status = .ofResult result := by
  induction run with
  | refl =>
      rcases starts.launching with ⟨caseId, launch, entries, rfl⟩
      exact .inl rfl
  | @tail y z before moves ih =>
      cases moves with
      | step _ hstep =>
          rcases status_of_advance hstep with hrunning | hended
          · exact .inl hrunning
          · exact .inr (.inr hended)
      | deliver hdeliver =>
          rcases of_deliver hdeliver with ⟨-, inbox, rfl⟩
          exact ih
      | cancel =>
          rcases cancel_cases y with ⟨-, hsame⟩ | ⟨-, hstopped⟩
          · rw [hsame]
            exact ih
          · rw [hstopped]
            exact .inr (.inl rfl)

/-- Nothing moves an execution that is finished. -/
theorem eq_of_finished (finished : x.isFinished = true) (moves : Moves g x x') : x' = x := by
  cases moves with
  | step _ hstep =>
      have hs := running_of_advance hstep
      simp [isFinished, ExecutionStatus.isFinished, hs] at finished
  | deliver hdeliver =>
      rcases of_deliver hdeliver with ⟨hrunning, -⟩
      rw [hrunning] at finished
      cases finished
  | cancel =>
      rcases cancel_cases x with ⟨-, hsame⟩ | ⟨hrunning, -⟩
      · exact hsame
      · rw [hrunning] at finished
        cases finished

/-- A cancelled execution publishes nothing any more. -/
theorem published_of_cancelled (run : Reaches g x.cancel x') : x'.published = x.published := by
  have hsame : x' = x.cancel := by
    induction run with
    | refl => rfl
    | tail _ moves ih =>
        rw [ih] at moves
        exact eq_of_finished (isFinished_cancel x) moves
  rw [hsame]
  exact congrArg (·.published) (context_cancel x)

end Execution

section LeftOpen

open Execution

variable {g : Engine} {x₀ x : Execution} {s : StepDefinition} {config : ReviewConfig}

/-- A question is left open only on the way to a failure. -/
theorem LeftOpen.failing (h : LeftOpen g x₀ s config x) : x.phase.isFailing = true := by
  induction h with
  | undecided _ hp readable recorded other _ fails =>
      rw [advance_of_entering (running_of_advance fails) hp, Visit.enter_review,
        Visit.enterReview_of_other readable recorded other] at fails
      cases fails
      rfl
  | refused _ hp _ refusal _ fails =>
      rw [advance_of_decided (running_of_advance fails) hp, settleDecision_of_refused refusal]
        at fails
      cases fails
      rfl
  | later _ moves ih => exact (failing_of_moves ih moves).1

/-- An execution in a visit that has asked shows the question. -/
theorem Displays.asks_of_asking {d : Definition} {n : Nat} {e : Executor} {v : Visit}
    (h : Displays g x₀ x) (hp : x.phase = .visiting d n s e v) (waiting : v.isAsking = true) :
    ∃ config, s.config ReviewConfig.decoder = .ok config ∧
      ∀ k, x.published = some k → k.Asks g.settings x.caseId s config := by
  cases h with
  | silent hp' _ =>
      rw [hp] at hp'
      cases waiting.symm.trans hp'
  | asking hp' _ readable asks =>
      cases hp.symm.trans hp'
      exact ⟨_, readable, asks⟩
  | forsaken left =>
      have hfailing := left.failing
      rw [hp] at hfailing
      cases v with
      | left result => cases waiting
      | _ => cases hfailing

/-- An execution that has ended shows no question unless it failed and left one open. -/
theorem Displays.silent_of_ended {result : Except Error Case} (h : Displays g x₀ x)
    (hp : x.phase = .ended result)
    (closed : (∃ fault, result = .error fault) → ∀ s config, ¬ LeftOpen g x₀ s config x) :
    Case.Silent x.published := by
  cases h with
  | silent _ quiet => exact quiet
  | asking hp' _ _ _ => simp [hp] at hp'
  | forsaken left =>
      have hfailing := left.failing
      rw [hp] at hfailing
      cases result with
      | ok k => cases hfailing
      | error fault => exact absurd left (closed ⟨fault, rfl⟩ _ _)

/-- A question that was left open is still shown. -/
theorem LeftOpen.asks (starts : x₀.Starts) (h : LeftOpen g x₀ s config x) :
    ∀ k, x.published = some k → k.Asks g.settings x.caseId s config := by
  induction h with
  | @undecided g' r y l b d n entry rest _ hp readable recorded other alike fails =>
      rw [advance_of_entering (running_of_advance fails) hp, Visit.enter_review,
        Visit.enterReview_of_other readable recorded other, alike.settings] at fails
      cases fails
      intro k hk
      rcases Option.map_eq_some_iff.1 hk with ⟨k', -, rfl⟩
      exact ⟨rfl, rfl⟩
  | @refused g' r y l b d n e signal fault before hp readable refusal _ fails =>
      rw [advance_of_decided (running_of_advance fails) hp, settleDecision_of_refused refusal]
        at fails
      cases fails
      -- The question was there when the decision arrived.
      rcases (displays_of_reaches starts before).asks_of_asking hp rfl with ⟨_, readable', asks⟩
      cases readable.symm.trans readable'
      exact asks
  | later h moves ih =>
      rcases failing_of_moves h.failing moves with ⟨-, hpublished, hcase⟩
      rw [hpublished, hcase]
      exact ih

end LeftOpen

/-- An execution that waits shows the question of the step it waits in.  One that has completed
shows none, and one that has failed shows exactly the question that it left open.  What is shown
when an execution is stopped stays. -/
theorem question_while_waiting (g : Engine) (x₀ x : Execution) (k : Case) (starts : x₀.Starts)
    (run : Reaches g x₀ x) (published : x.published = some k) :
    (∀ g' r l, x.status = .running → x.advance g' r l = none → ∃ d n s e w config,
      x.phase = .visiting d n s e (.awaiting w) ∧ s.config ReviewConfig.decoder = .ok config ∧
        k.Asks g.settings x.caseId s config) ∧
    (x.status = .completed → k.interaction = none) ∧
    (∀ text, x.status = .failed text →
      (∀ s config, LeftOpen g x₀ s config x → k.Asks g.settings x.caseId s config) ∧
        ((∀ s config, ¬ LeftOpen g x₀ s config x) → k.interaction = none)) ∧
    ∀ x', Reaches g x.cancel x' → x'.published = some k := by
  have hdisplays : Displays g x₀ x := Execution.displays_of_reaches starts run
  have hstatus := Execution.status_of_reaches starts run
  refine ⟨?_, ?_, ?_, ?_⟩
  · intro g' r l running stuck
    have hwaits : x.IsAwaiting := by
      rcases starts.launching with ⟨caseId, launch, entries, rfl⟩
      exact Execution.awaits_of_reaches run (by simp [Execution.isFinished, running,
        ExecutionStatus.isFinished]) stuck
    rcases hwaits with ⟨d, n, s, e, w, hp⟩
    rcases hdisplays.asks_of_asking hp rfl with ⟨config, readable, asks⟩
    exact ⟨d, n, s, e, w, config, hp, readable, asks k published⟩
  · intro completed
    rcases hstatus with hrunning | hcancelled | ⟨result, hp, hresult⟩
    · simp [completed] at hrunning
    · simp [completed] at hcancelled
    · refine hdisplays.silent_of_ended hp ?_ k published
      rintro ⟨fault, rfl⟩
      simp [completed, ExecutionStatus.ofResult] at hresult
  · intro text failed
    refine ⟨fun s config left => left.asks starts k published, ?_⟩
    intro hclosed
    rcases hstatus with hrunning | hcancelled | ⟨result, hp, -⟩
    · simp [failed] at hrunning
    · simp [failed] at hcancelled
    · exact hdisplays.silent_of_ended hp (fun _ => hclosed) k published
  · intro x' hreaches
    exact (Execution.published_of_cancelled hreaches).trans published

/-! ## An approval -/

/-- A reviewer is asked, and the case says so. -/
theorem question_while_waiting_approval :
    ∃ x k s config, Reaches (Engine.approving none)
        (.fresh "case-1" "approval" "1" .null ⟨0, 0⟩) x ∧ x.published = some k ∧
      k.details.status = "Pending Human Review" ∧
      k.interaction = some (Visit.interactionOf s config {} "case-1") := by
  have run : ∃ os x k, Trace (Engine.approving none) "case-1"
        (.fresh "case-1" "approval" "1" .null ⟨0, 0⟩, ⟨.empty, [], []⟩) os x ∧
      x.1.published = some k ∧ x.1.status = .running ∧ x.1.caseId = "case-1" ∧
      x.1.advance (Engine.approving none) default x.2 = none := by
    exact ⟨_, _, _, Trace.refl.steps 9, rfl, rfl, rfl, rfl⟩
  rcases run with ⟨os, x, k, htrace, hpublished, hrunning, hcase, hstuck⟩
  rcases (question_while_waiting (Engine.approving none) _ x.1 k (.fresh _ _ _ _ _)
    htrace.reaches hpublished).1 (Engine.approving none) default x.2 hrunning hstuck with
    ⟨d, n, s, e, w, config, -, -, hasks⟩
  exact ⟨x.1, k, s, config, htrace.reaches, hpublished, hasks.status, hcase ▸ hasks.interaction⟩

/-- A journal that ends where the decision of the review is due. -/
def Journal.cutShort : Journal :=
  .memory [("case-1", [
    .started "case-1" "approval" "1" .null ⟨0, 0⟩,
    .activityCompleted "analysis" .null ⟨0, 0⟩,
    .completed "Approved" ⟨1, 0⟩])]

/-- A replay that finds no decision at the review fails, and the case goes on asking. -/
theorem question_left_open :
    ∃ x₀ x k text, Execution.resume .cutShort "case-1" = .ok x₀ ∧
      Reaches (Engine.approving none) x₀ x ∧ x.published = some k ∧ x.status = .failed text ∧
      k.interaction.isSome = true := by
  have run : ∃ x₀ os x k text, Execution.resume .cutShort "case-1" = .ok x₀ ∧
      Trace (Engine.approving none) "case-1" (x₀, ⟨.empty, [], []⟩) os x ∧
      x.1.published = some k ∧ x.1.status = .failed text ∧ k.interaction.isSome = true := by
    exact ⟨_, _, _, _, _, rfl, Trace.refl.steps 8, rfl, rfl, rfl⟩
  rcases run with ⟨x₀, os, x, k, text, hresume, htrace, hpublished, hstatus, hasked⟩
  exact ⟨x₀, x.1, k, text, hresume, htrace.reaches, hpublished, hstatus, hasked⟩

end Casework
