import Casework.Proofs.Execution.Writing

/-!
# Cores — what the course of an execution depends on

Two executions with one core differ in the signals that lie in their inboxes, in how long they have
waited, in whether they were resumed and in what their collaborators will answer.  None of this
matters but for what an atomic step sees of it.

* `Execution.core` : an execution without these parts;
* `Observation`, `Execution.sees` : what an atomic step takes in from outside;
* `Execution.lockstep` : executions with one core that see the same go on with one core and append
  the same entry.
-/

namespace Casework

/-! ## Cores -/

def Visit.core : Visit → Visit
  | .awaiting _ => .awaiting ⟨0, none, .checking⟩
  | v => v

def Phase.core : Phase → Phase
  | .visiting d n s e v => .visiting d n s e.core v.core
  | p => p

def Context.core (c : Context) : Context := { c with inbox := {} }

def Launch.core (launch : Launch) : Launch := { launch with isFresh := false }

/-- An execution without what its course does not depend on. -/
def Execution.core (x : Execution) : Execution :=
  ⟨x.launch.core, x.context.core, x.phase.core, x.status⟩

inductive Executor.Twin : Executor → Executor → Prop
  | review : Twin .humanInTheLoop .humanInTheLoop
  | commit : Twin .finalCommit .finalCommit
  | alone : Twin (.caseEnrichment none) (.caseEnrichment none)
  | assisted (a b : Enricher) : Twin (.caseEnrichment (some a)) (.caseEnrichment (some b))

/-- Executors with one core differ in their collaborators only. -/
theorem Executor.twin_of_core {e e' : Executor} (h : e.core = e'.core) : Twin e e' := by
  cases e with
  | humanInTheLoop =>
      cases e' with
      | humanInTheLoop => exact .review
      | finalCommit => cases h
      | caseEnrichment _ => cases h
  | finalCommit =>
      cases e' with
      | humanInTheLoop => cases h
      | finalCommit => exact .commit
      | caseEnrichment _ => cases h
  | caseEnrichment a =>
      cases e' with
      | humanInTheLoop => cases h
      | finalCommit => cases h
      | caseEnrichment b =>
          cases a with
          | none =>
              cases b with
              | none => exact .alone
              | some b => cases h
          | some a =>
              cases b with
              | none => cases h
              | some b => exact .assisted a b

inductive Phase.Twin : Phase → Phase → Prop
  | starting : Twin .starting .starting
  | opening : Twin .opening .opening
  | dispatching (d : Definition) (n : Nat) (stepId : String) :
      Twin (.dispatching d n stepId) (.dispatching d n stepId)
  | entering {d : Definition} {n : Nat} {s : StepDefinition} {e e' : Executor}
      (h : e.core = e'.core) : Twin (.visiting d n s e .entering) (.visiting d n s e' .entering)
  | awaiting {d : Definition} {n : Nat} {s : StepDefinition} {e e' : Executor}
      (h : e.core = e'.core) (w w' : Inbox.Waiter) :
      Twin (.visiting d n s e (.awaiting w)) (.visiting d n s e' (.awaiting w'))
  | decided {d : Definition} {n : Nat} {s : StepDefinition} {e e' : Executor}
      (h : e.core = e'.core) (signal : Signal) :
      Twin (.visiting d n s e (.decided signal)) (.visiting d n s e' (.decided signal))
  | analysed {d : Definition} {n : Nat} {s : StepDefinition} {e e' : Executor}
      (h : e.core = e'.core) (a : Option Enrichment) (t : Instant) :
      Twin (.visiting d n s e (.analysed a t)) (.visiting d n s e' (.analysed a t))
  | left {d : Definition} {n : Nat} {s : StepDefinition} {e e' : Executor}
      (h : e.core = e'.core) (result : Except Error Outcome) :
      Twin (.visiting d n s e (.left result)) (.visiting d n s e' (.left result))
  | closing (result : Except Error Case) : Twin (.closing result) (.closing result)
  | ended (result : Except Error Case) : Twin (.ended result) (.ended result)

/-- Phases with one core are at one place of the walk. -/
theorem Phase.twin_of_core {p p' : Phase} (h : p.core = p'.core) : Twin p p' := by
  cases p with
  | starting => cases p' <;> cases h; exact .starting
  | opening => cases p' <;> cases h; exact .opening
  | dispatching d n stepId => cases p' <;> cases h; exact .dispatching _ _ _
  | visiting d n s e v =>
      cases p' with
      | visiting d' n' s' e' v' =>
          simp only [core, Phase.visiting.injEq] at h
          obtain ⟨rfl, rfl, rfl, he, hv⟩ := h
          cases v with
          | entering => cases v' <;> cases hv; exact .entering he
          | awaiting w => cases v' <;> cases hv; exact .awaiting he _ _
          | decided signal => cases v' <;> cases hv; exact .decided he _
          | analysed a t => cases v' <;> cases hv; exact .analysed he _ _
          | left result => cases v' <;> cases hv; exact .left he _
      | _ => cases h
  | closing result => cases p' <;> cases h; exact .closing _
  | ended result => cases p' <;> cases h; exact .ended _

theorem Phase.core_visiting {d : Definition} {n : Nat} {s : StepDefinition} {e e' : Executor}
    {v : Visit} (h : e.core = e'.core) :
    (visiting d n s e v).core = (visiting d n s e' v).core := by
  simp [core, h]

/-- A context is told by its core and its inbox. -/
theorem Context.eq_of_core {c c' : Context} (h : c.core = c'.core) :
    c' = { c with inbox := c'.inbox } := by
  cases c
  cases c'
  cases h
  rfl

/-! ## What is seen -/

def Visit.signal? : Visit → Option Signal
  | .decided signal => some signal
  | _ => none

inductive Observation where
  | decision (signal : Signal)
  | answer (a : Enrichment) (t : Instant)
  | refusal (e : Error)
  /-- The real time at which a failure is recorded. -/
  | failure (t : Instant)
deriving DecidableEq

def Visit.answer? : Visit → Option Observation
  | .analysed (some a) t => some (.answer a t)
  | .left (.error e) => some (.refusal e)
  | _ => none

namespace Execution

def sees (r : Readings) (x x' : Execution) : Option Observation :=
  match x.phase, x'.phase with
  | .visiting _ _ _ _ (.awaiting _), .visiting _ _ _ _ v => v.signal?.map .decision
  | .visiting _ _ _ _ .entering, .visiting _ _ _ _ v => if x.asks then v.answer? else none
  | .closing (.error _), _ => (x.written? r).map fun _ => .failure r.now
  | _, _ => none

variable {g g₁ g₂ : Engine} {r r₁ r₂ : Readings} {x y x' y' : Execution}
variable {l l₁ l₂ l₁' l₂' : Ledger}

/-! ## Steps and cores -/

theorem core_ext (launch : x.launch.core = y.launch.core)
    (context : x.context.core = y.context.core) (phase : x.phase.core = y.phase.core)
    (status : x.status = y.status) : x.core = y.core := by
  unfold core
  rw [launch, context, phase, status]

theorem launch_of_core (h : x.core = y.core) : x.launch.core = y.launch.core :=
  congrArg launch h

theorem context_of_core (h : x.core = y.core) : x.context.core = y.context.core :=
  congrArg context h

theorem phase_of_core (h : x.core = y.core) : x.phase.core = y.phase.core :=
  congrArg phase h

theorem status_of_core (h : x.core = y.core) : x.status = y.status :=
  congrArg (fun z => z.status) h

theorem log_of_core (h : x.core = y.core) : x.context.log = y.context.log :=
  congrArg (fun z => z.context.log) h

theorem published_of_core (h : x.core = y.core) : x.published = y.published :=
  congrArg (fun z => z.context.published) h

theorem isFinished_of_core (h : x.core = y.core) : x.isFinished = y.isFinished := by
  unfold isFinished
  rw [status_of_core h]

/-- A wait that is forgotten does not change the result. -/
theorem result?_core (x : Execution) : x.core.result? = x.result? := by
  unfold result? core
  cases x.phase <;> cases x.status <;> rfl

theorem result?_of_core (h : x.core = y.core) : x.result? = y.result? := by
  have hresult : x.core.result? = y.core.result? := congrArg (fun z => z.result?) h
  rw [result?_core, result?_core] at hresult
  exact hresult

/-- What is delivered is not seen before it is taken. -/
theorem core_of_deliver {s : Signal} {disposition : Disposition}
    (h : x.deliver s = .ok (x', disposition)) : x.core = x'.core := by
  obtain ⟨-, inbox, rfl⟩ := of_deliver h
  rfl

/-- Opening the case is the same for twins. -/
theorem core_openCase (alike : g.Alike g₁) (x : Execution) :
    (x.openCase g₁).core = (x.core.openCase g).core := by
  have hprepare : prepare g₁ x.launch = prepare g x.core.launch := alike.prepare x.launch
  unfold openCase
  rw [hprepare, alike.settings]
  cases prepare g x.core.launch with
  | error e => rfl
  | ok out => rfl

/-- So is a dispatch, since the executors have one core. -/
theorem core_dispatch (alike : g.Alike g₁) (d : Definition) (n : Nat) (stepId : String) :
    (dispatch g₁ d n stepId).core = (dispatch g d n stepId).core := by
  unfold dispatch selectStep
  rw [alike.settings]
  by_cases hlimit : g.settings.maxSteps ≤ n
  · rw [if_pos hlimit, if_pos hlimit]
  · rw [if_neg hlimit, if_neg hlimit]
    cases d.step? stepId with
    | none => rfl
    | some s =>
        -- Both registries have an executor for the step or neither has, and one of the same core.
        have hexecutor := alike.executorOf s
        dsimp only
        cases h₁ : g₁.registry.executorOf s with
        | error e₁ =>
            cases h : g.registry.executorOf s with
            | error e =>
                rw [h₁, h] at hexecutor
                cases hexecutor
                rfl
            | ok e =>
                rw [h₁, h] at hexecutor
                cases hexecutor
        | ok e₁ =>
            cases h : g.registry.executorOf s with
            | error e =>
                rw [h₁, h] at hexecutor
                cases hexecutor
            | ok e =>
                rw [h₁, h] at hexecutor
                simp only [Except.map, Except.ok.injEq] at hexecutor
                simp [Except.map, Phase.core, hexecutor]

/-- What follows a visit does not look at the inbox. -/
theorem core_proceed (c : Context) (l₁ l₂ : Ledger) (d : Definition) (n : Nat)
    (s : StepDefinition) (result : Except Error Outcome) (inbox : Inbox) :
    (proceed { c with inbox := inbox } l₁ d n s result).1 = (proceed c l₂ d n s result).1 := by
  cases result with
  | error e => rfl
  | ok out =>
      cases out with
      | next stepId => rfl
      | terminate => rfl

/-- A review begins alike, whatever is in the inbox: it is cleared. -/
theorem core_enterReview (settings : EngineSettings) (s : StepDefinition) (r₁ r₂ : Readings)
    (c : Context) (inbox : Inbox) :
    (Visit.enterReview settings s r₁ { c with inbox := inbox }).1.core
        = (Visit.enterReview settings s r₂ c).1.core ∧
      (Visit.enterReview settings s r₁ { c with inbox := inbox }).2.core
        = (Visit.enterReview settings s r₂ c).2.core := by
  cases h : s.config ReviewConfig.decoder with
  | error fault =>
      rw [Visit.enterReview_of_fault h, Visit.enterReview_of_fault h]
      exact ⟨rfl, rfl⟩
  | ok config =>
      rw [Visit.enterReview_eq h, Visit.enterReview_eq h]
      dsimp only
      cases c.log.recallSignal s.stepId with
      | error e => exact ⟨rfl, rfl⟩
      | ok out =>
          obtain ⟨log, signal⟩ := out
          cases signal with
          | none => exact ⟨rfl, rfl⟩
          | some signal => exact ⟨rfl, rfl⟩

/-- The final status is written alike. -/
theorem core_commit (s : StepDefinition) (c : Context) (inbox : Inbox) :
    (Visit.commit s { c with inbox := inbox }).1.core = (Visit.commit s c).1.core ∧
      (Visit.commit s { c with inbox := inbox }).2 = (Visit.commit s c).2 := by
  unfold Visit.commit
  cases s.config CommitConfig.decoder with
  | error fault => exact ⟨rfl, rfl⟩
  | ok config => exact ⟨rfl, rfl⟩

/-- An analysis that is answered from the earlier run does not look at the collaborator. -/
theorem core_enterEnrichment {entry : JournalEntry} {rest : List JournalEntry}
    (e₁ e₂ : Option Enricher) (s : StepDefinition) (r₁ r₂ : Readings) (c : Context)
    (l₁ l₂ : Ledger) (inbox : Inbox) (recorded : c.log.pending = entry :: rest) :
    (Visit.enterEnrichment e₁ s r₁ { c with inbox := inbox } l₁).1.core
        = (Visit.enterEnrichment e₂ s r₂ c l₂).1.core ∧
      (Visit.enterEnrichment e₁ s r₁ { c with inbox := inbox } l₁).2.2
        = (Visit.enterEnrichment e₂ s r₂ c l₂).2.2 := by
  have recorded' : ({ c with inbox := inbox } : Context).log.pending = entry :: rest := recorded
  -- With an entry before them neither asks anyone, whatever the entry is.
  by_cases hanswer : entry.IsAnswerFor s.stepId
  · obtain ⟨output, t, rfl⟩ := hanswer
    rw [Visit.enterEnrichment_of_recorded recorded', Visit.enterEnrichment_of_recorded recorded]
    cases Visit.recordedEnrichment output with
    | error fault => exact ⟨rfl, rfl⟩
    | ok a =>
        cases a with
        | none => exact ⟨rfl, rfl⟩
        | some a => exact ⟨rfl, rfl⟩
  · rw [Visit.enterEnrichment_of_other recorded' hanswer,
      Visit.enterEnrichment_of_other recorded hanswer]
    exact ⟨rfl, rfl⟩

/-! ## Lockstep -/

/-- What two visits come to. -/
theorem core_inVisit {d : Definition} {n : Nat} {s : StepDefinition} {e₁ e₂ : Executor}
    {out₁ out₂ : Context × Ledger × Visit} (h : x.core = y.core) (he : e₁.core = e₂.core)
    (hcontext : out₁.1.core = out₂.1.core) (hvisit : out₁.2.2.core = out₂.2.2.core) :
    (x.inVisit d n s e₁ out₁).1.core = (y.inVisit d n s e₂ out₂).1.core := by
  have hlaunch := launch_of_core h
  have hstatus := status_of_core h
  refine core_ext hlaunch hcontext ?_ hstatus
  simp only [inVisit, Phase.core, he, hvisit]

section Entering

variable {d : Definition} {n : Nat} {s : StepDefinition}

/-- Twins begin a review in lockstep. -/
theorem lockstep_review (h : x.core = y.core) :
    (x.inVisit d n s .humanInTheLoop
        (Visit.enter g.settings .humanInTheLoop s r₁ x.context l₁)).1.core
      = (y.inVisit d n s .humanInTheLoop
        (Visit.enter g.settings .humanInTheLoop s r₂ y.context l₂)).1.core := by
  have hy := Context.eq_of_core (context_of_core h)
  have hcores := core_enterReview g.settings s r₂ r₁ x.context y.context.inbox
  rw [← hy] at hcores
  exact core_inVisit h rfl hcores.1.symm hcores.2.symm

/-- They write the final status in lockstep. -/
theorem lockstep_commit (h : x.core = y.core) :
    (x.inVisit d n s .finalCommit
        (Visit.enter g.settings .finalCommit s r₁ x.context l₁)).1.core
      = (y.inVisit d n s .finalCommit
        (Visit.enter g.settings .finalCommit s r₂ y.context l₂)).1.core := by
  have hy := Context.eq_of_core (context_of_core h)
  have hcores := core_commit s x.context y.context.inbox
  rw [← hy] at hcores
  exact core_inVisit h rfl hcores.1.symm (congrArg Visit.core hcores.2.symm)

/-- They take an answer from the earlier run in lockstep. -/
theorem lockstep_recorded {e₁ e₂ : Option Enricher} (h : x.core = y.core)
    (he : (Executor.caseEnrichment e₁).core = (Executor.caseEnrichment e₂).core)
    {entry : JournalEntry} {rest : List JournalEntry} (recorded : x.pending = entry :: rest) :
    (x.inVisit d n s (.caseEnrichment e₁)
        (Visit.enter g.settings (.caseEnrichment e₁) s r₁ x.context l₁)).1.core
      = (y.inVisit d n s (.caseEnrichment e₂)
        (Visit.enter g.settings (.caseEnrichment e₂) s r₂ y.context l₂)).1.core := by
  have hy := Context.eq_of_core (context_of_core h)
  have hcores := core_enterEnrichment e₂ e₁ s r₂ r₁ x.context l₂ l₁
    y.context.inbox recorded
  rw [← hy] at hcores
  exact core_inVisit h he hcores.1.symm (congrArg Visit.core hcores.2.symm)

/-- Without a collaborator they go on in lockstep. -/
theorem lockstep_alone (h : x.core = y.core) (live : x.pending = []) :
    (x.inVisit d n s (.caseEnrichment none)
        (Visit.enter g.settings (.caseEnrichment none) s r₁ x.context l₁)).1.core
      = (y.inVisit d n s (.caseEnrichment none)
        (Visit.enter g.settings (.caseEnrichment none) s r₂ y.context l₂)).1.core := by
  have hlive : y.context.log.pending = [] := by
    rw [← log_of_core h]
    exact live
  have hclock : x.context.clock = y.context.clock := congrArg (fun z => z.context.clock) h
  rw [Visit.enter_enrichment, Visit.enter_enrichment, Visit.enterEnrichment_of_alone live,
    Visit.enterEnrichment_of_alone hlive, hclock]
  exact core_inVisit h rfl (context_of_core h) rfl

/-- What the collaborators answer is seen, so it is the same. -/
theorem lockstep_assisted {a b : Enricher} (h : x.core = y.core) (live : x.pending = [])
    (hp : x.phase = .visiting d n s (.caseEnrichment (some a)) .entering)
    (hq : y.phase = .visiting d n s (.caseEnrichment (some b)) .entering)
    (same : x.sees r₁ (x.inVisit d n s (.caseEnrichment (some a))
        (Visit.enter g.settings (.caseEnrichment (some a)) s r₁ x.context l₁)).1
      = y.sees r₂ (y.inVisit d n s (.caseEnrichment (some b))
        (Visit.enter g.settings (.caseEnrichment (some b)) s r₂ y.context l₂)).1) :
    (x.inVisit d n s (.caseEnrichment (some a))
        (Visit.enter g.settings (.caseEnrichment (some a)) s r₁ x.context l₁)).1.core
      = (y.inVisit d n s (.caseEnrichment (some b))
        (Visit.enter g.settings (.caseEnrichment (some b)) s r₂ y.context l₂)).1.core := by
  have hlive : y.pending = [] := by
    unfold pending at live ⊢
    rw [← log_of_core h]
    exact live
  have hasks : x.asks = true := by simp [asks, hp, live]
  have hasks' : y.asks = true := by simp [asks, hq, hlive]
  have hpublished : x.context.published = y.context.published := published_of_core h
  rw [Visit.enter_enrichment, Visit.enter_enrichment] at same ⊢
  -- Both collaborators are asked about the same case, and what is seen of them is their answer.
  cases hk : x.context.published with
  | none =>
      rw [hk] at hpublished
      rw [Visit.enterEnrichment_of_unopened live hk,
        Visit.enterEnrichment_of_unopened hlive hpublished.symm]
      exact core_inVisit h rfl (context_of_core h) rfl
  | some k =>
      rw [hk] at hpublished
      rw [Visit.enterEnrichment_of_live live hk,
        Visit.enterEnrichment_of_live hlive hpublished.symm] at same ⊢
      simp only [sees, hp, hq, hasks, hasks', inVisit, if_true] at same
      cases ha : a.analyse k.details.data with
      | error f =>
          rw [ha] at same
          cases hb : b.analyse k.details.data with
          | error f' =>
              rw [hb] at same
              cases same
              exact core_inVisit h rfl (context_of_core h) rfl
          | ok e' =>
              rw [hb] at same
              cases same
      | ok e =>
          rw [ha] at same
          cases hb : b.analyse k.details.data with
          | error f' =>
              rw [hb] at same
              cases same
          | ok e' =>
              rw [hb] at same
              simp only [Visit.answer?, Option.some.injEq, Observation.answer.injEq] at same
              rw [same.1, same.2]
              exact core_inVisit h rfl (context_of_core h) rfl

end Entering

theorem startEntry_of_core (h : x.core = y.core) : x.startEntry = y.startEntry :=
  congrArg (fun z => z.startEntry) h

/-- The kind of the last entry does not depend on the clock. -/
theorem kind_terminal (r₁ r₂ : Readings) (result : Except Error Case) :
    (terminal r₁ result).kind = (terminal r₂ result).kind := by
  cases result <;> rfl

/-- Executions with one core append the same entry. -/
theorem written?_of_core (r₁ r₂ : Readings) (h : x.core = y.core)
    (time : ∀ e, x.phase = .closing (.error e) →
      x.context.log.hasNext .failed = false → r₁.now = r₂.now) :
    x.written? r₁ = y.written? r₂ := by
  have hlog := log_of_core h
  have htwin := Phase.twin_of_core (phase_of_core h)
  generalize hp : x.phase = p at htwin
  generalize hq : y.phase = q at htwin
  cases htwin with
  | starting => simp [written?, hp, hq, startEntry_of_core h]
  | closing result =>
      have hkind : (terminal r₂ result).kind = (terminal r₁ result).kind :=
        kind_terminal r₂ r₁ result
      cases hnext : x.context.log.hasNext (terminal r₁ result).kind with
      | true =>
          rw [written?_of_next hp hnext, written?_of_next hq (by rw [← hlog, hkind]; exact hnext)]
      | false =>
          rw [written?_of_other hp hnext, written?_of_other hq (by rw [← hlog, hkind]; exact hnext)]
          cases result with
          | ok k => rfl
          | error e =>
              have hnow : r₁.now = r₂.now := time e hp hnext
              simp [terminal, hnow]
  | _ => simp [written?, hp, hq]

/-- The time of a failure is seen when the failure is recorded. -/
theorem now_of_sees {e : Error} (hp : x.phase = .closing (.error e))
    (hq : y.phase = .closing (.error e)) (hlog : x.context.log = y.context.log)
    (live : x.context.log.hasNext .failed = false) (same : x.sees r₁ x' = y.sees r₂ y') :
    r₁.now = r₂.now := by
  have live' : y.context.log.hasNext .failed = false := by
    rw [← hlog]
    exact live
  simpa [sees, written?, hp, hq, terminal, JournalEntry.kind, live, live'] using same

/-- A wait goes on or brings the decision that is seen. -/
theorem core_ofWaiter {w w' : Inbox.Waiter}
    (same : (Visit.ofWaiter r₁ w).signal? = (Visit.ofWaiter r₂ w').signal?) :
    (Visit.ofWaiter r₁ w).core = (Visit.ofWaiter r₂ w').core := by
  rcases Visit.ofWaiter_cases r₁ w with ⟨signal, h⟩ | ⟨v, h⟩
  · rcases Visit.ofWaiter_cases r₂ w' with ⟨signal', h'⟩ | ⟨v', h'⟩
    · rw [h, h'] at same
      cases same
      rw [h, h']
    · rw [h, h'] at same
      cases same
  · rcases Visit.ofWaiter_cases r₂ w' with ⟨signal', h'⟩ | ⟨v', h'⟩
    · rw [h, h'] at same
      cases same
    · rw [h, h']
      rfl

/-- Twins that see the same begin a visit in lockstep. -/
theorem lockstep_entering {d : Definition} {n : Nat} {s : StepDefinition} {e e' : Executor}
    (h : x.core = y.core) (he : e.core = e'.core)
    (hp : x.phase = .visiting d n s e .entering) (hq : y.phase = .visiting d n s e' .entering)
    (same : x.sees r₁ (x.inVisit d n s e (Visit.enter g.settings e s r₁ x.context l₁)).1 =
      y.sees r₂ (y.inVisit d n s e' (Visit.enter g.settings e' s r₂ y.context l₂)).1) :
    (x.inVisit d n s e (Visit.enter g.settings e s r₁ x.context l₁)).1.core =
      (y.inVisit d n s e' (Visit.enter g.settings e' s r₂ y.context l₂)).1.core := by
  cases Executor.twin_of_core he with
  | review => exact lockstep_review h
  | commit => exact lockstep_commit h
  | alone =>
      cases hpending : x.pending with
      | nil => exact lockstep_alone h hpending
      | cons entry rest => exact lockstep_recorded h rfl hpending
  | assisted a b =>
      -- What is recorded answers for both; otherwise they are told the same.
      cases hpending : x.pending with
      | nil => exact lockstep_assisted h hpending hp hq same
      | cons entry rest => exact lockstep_recorded h rfl hpending

/-- Twins whose answers are kept go on in lockstep. -/
theorem lockstep_analysed {d : Definition} {n : Nat} {s : StepDefinition} {e e' : Executor}
    {a : Option Enrichment} {t : Instant} (h : x.core = y.core) (he : e.core = e'.core)
    (hp : x.phase = .visiting d n s e (.analysed a t))
    (hq : y.phase = .visiting d n s e' (.analysed a t)) (kept₁ : x.Kept r₁ l₁)
    (kept₂ : y.Kept r₂ l₂) :
    (x.inVisit d n s e (Visit.settleEnrichment s x.context l₁ a t)).1.core =
      (y.inVisit d n s e' (Visit.settleEnrichment s y.context l₂ a t)).1.core := by
  have hcontext := Context.eq_of_core (context_of_core h)
  obtain ⟨j₁, hj₁, -⟩ := kept₁ _ (written?_of_analysed hp)
  obtain ⟨j₂, hj₂, -⟩ := kept₂ _ (written?_of_analysed hq)
  rw [settleEnrichment_of_kept hj₁, settleEnrichment_of_kept hj₂]
  refine core_inVisit h he ?_ rfl
  rw [hcontext]
  cases a with
  | none => rfl
  | some a => rfl

/-- Twins whose decisions are kept go on in lockstep. -/
theorem lockstep_decided {d : Definition} {n : Nat} {s : StepDefinition} {e e' : Executor}
    {signal : Signal} (h : x.core = y.core) (he : e.core = e'.core)
    (hp : x.phase = .visiting d n s e (.decided signal))
    (hq : y.phase = .visiting d n s e' (.decided signal)) (kept₁ : x.Kept r₁ l₁)
    (kept₂ : y.Kept r₂ l₂) :
    (x.inVisit d n s e (Visit.settleDecision s x.context l₁ signal)).1.core =
      (y.inVisit d n s e' (Visit.settleDecision s y.context l₂ signal)).1.core := by
  have hcontext := Context.eq_of_core (context_of_core h)
  obtain ⟨j₁, hj₁, -⟩ := kept₁ _ (written?_of_decided hp)
  obtain ⟨j₂, hj₂, -⟩ := kept₂ _ (written?_of_decided hq)
  rw [settleDecision_of_kept hj₁, settleDecision_of_kept hj₂]
  refine core_inVisit h he ?_ rfl
  rw [hcontext]
  rfl

/-- Twins whose ends are kept end in lockstep. -/
theorem lockstep_closing {result : Except Error Case} (h : x.core = y.core)
    (hp : x.phase = .closing result) (hq : y.phase = .closing result) (kept₁ : x.Kept r₁ l₁)
    (kept₂ : y.Kept r₂ l₂) :
    (x.finish l₁ r₁ result).1.core = (y.finish l₂ r₂ result).1.core := by
  have hlog := log_of_core h
  have hlaunch := launch_of_core h
  have hcore := context_of_core h
  have hcontext := Context.eq_of_core hcore
  have hnexts : y.context.log.hasNext (terminal r₂ result).kind =
      x.context.log.hasNext (terminal r₁ result).kind := by
    rw [← hlog, kind_terminal r₂ r₁]
  -- Either both find their end in the log, or both append it.
  cases hnext : x.context.log.hasNext (terminal r₁ result).kind with
  | true =>
      have hnext' := hnexts.trans hnext
      rw [finish_of_next hnext, finish_of_next hnext']
      refine core_ext hlaunch ?_ rfl rfl
      rw [hcontext]
      rfl
  | false =>
      have hnext' := hnexts.trans hnext
      obtain ⟨j₁, hj₁, -⟩ := kept₁ _ (written?_of_other hp hnext)
      obtain ⟨j₂, hj₂, -⟩ := kept₂ _ (written?_of_other hq hnext')
      rw [finish_of_kept hnext hj₁, finish_of_kept hnext' hj₂]
      exact core_ext hlaunch hcore rfl rfl

/-- Executions with one core that see the same append the same entry. -/
theorem written?_of_seen (h : x.core = y.core) (same : x.sees r₁ x' = y.sees r₂ y') :
    x.written? r₁ = y.written? r₂ := by
  refine written?_of_core r₁ r₂ h ?_
  intro e hp live
  have hlog := log_of_core h
  have htwin := Phase.twin_of_core (phase_of_core h)
  generalize hq : y.phase = q at htwin
  rw [hp] at htwin
  cases htwin with
  | closing result => exact now_of_sees hp hq hlog live same

/-- Executions with one core go on with one core, if they see the same and their entries are
kept. -/
theorem lockstep (h : x.core = y.core) (alike₁ : g.Alike g₁) (alike₂ : g.Alike g₂)
    (hx : x.advance g₁ r₁ l₁ = some (x', l₁')) (hy : y.advance g₂ r₂ l₂ = some (y', l₂'))
    (kept₁ : x.Kept r₁ l₁) (kept₂ : y.Kept r₂ l₂) (same : x.sees r₁ x' = y.sees r₂ y') :
    x'.core = y'.core ∧ x.written? r₁ = y.written? r₂ := by
  refine ⟨?_, written?_of_seen h same⟩
  have hs := running_of_advance hx
  have hs' := running_of_advance hy
  have hlaunch := launch_of_core h
  have hcore := context_of_core h
  have hstatus := status_of_core h
  have htwin := Phase.twin_of_core (phase_of_core h)
  generalize hp : x.phase = p at htwin
  generalize hq : y.phase = q at htwin
  cases htwin with
  | starting =>
      obtain ⟨j₁, hj₁, -⟩ := kept₁ _ (written?_of_starting hp)
      obtain ⟨j₂, hj₂, -⟩ := kept₂ _ (written?_of_starting hq)
      rw [advance_of_starting hs hp, start_of_kept hj₁] at hx
      rw [advance_of_starting hs' hq, start_of_kept hj₂] at hy
      cases hx
      cases hy
      exact core_ext hlaunch hcore rfl hstatus
  | opening =>
      rw [advance_of_opening hs hp] at hx
      rw [advance_of_opening hs' hq] at hy
      cases hx
      cases hy
      -- Both open what their common core would open.
      rw [core_openCase alike₁ x, core_openCase alike₂ y, h]
  | dispatching d n stepId =>
      rw [advance_of_dispatching hs hp] at hx
      rw [advance_of_dispatching hs' hq] at hy
      cases hx
      cases hy
      have hphase := (core_dispatch alike₁ d n stepId).trans (core_dispatch alike₂ d n stepId).symm
      exact core_ext hlaunch hcore hphase hstatus
  | entering he =>
      rw [advance_of_entering hs hp, alike₁.settings] at hx
      rw [advance_of_entering hs' hq, alike₂.settings] at hy
      cases hx
      cases hy
      exact lockstep_entering h he hp hq same
  | awaiting he w w' =>
      rw [advance_of_awaiting hs hp] at hx
      rw [advance_of_awaiting hs' hq] at hy
      obtain ⟨out₁, -, hout₁⟩ := Option.map_eq_some_iff.1 hx
      obtain ⟨out₂, -, hout₂⟩ := Option.map_eq_some_iff.1 hy
      cases hout₁
      cases hout₂
      simp only [sees, hp, hq] at same
      have hsignal := Option.map_injective (fun _ _ => Observation.decision.inj) same
      exact core_inVisit h he hcore (core_ofWaiter hsignal)
  | decided he signal =>
      rw [advance_of_decided hs hp] at hx
      rw [advance_of_decided hs' hq] at hy
      cases hx
      cases hy
      exact lockstep_decided h he hp hq kept₁ kept₂
  | analysed he a t =>
      rw [advance_of_analysed hs hp] at hx
      rw [advance_of_analysed hs' hq] at hy
      cases hx
      cases hy
      exact lockstep_analysed h he hp hq kept₁ kept₂
  | @left d n s e e' he result =>
      rw [advance_of_left hs hp] at hx
      rw [advance_of_left hs' hq] at hy
      cases hx
      cases hy
      have hproceed := core_proceed x.context l₂ l₁ d n s result y.context.inbox
      rw [← Context.eq_of_core hcore] at hproceed
      exact core_ext hlaunch hcore (congrArg Phase.core hproceed.symm) hstatus
  | closing result =>
      rw [advance_of_closing hs hp] at hx
      rw [advance_of_closing hs' hq] at hy
      cases hx
      cases hy
      exact lockstep_closing h hp hq kept₁ kept₂
  | ended result =>
      rw [advance_of_ended hp] at hx
      cases hx

end Execution
end Casework
