import Casework.Proofs.Case.Chronicle
import Casework.Proofs.Execution.Finality

/-!
# Histories — the states of a case in the order in which they are published

Whoever follows a case sees its activities grow at the end, and its times increase.  The times of
decisions and analyses come from outside, in no particular order; the logical clock keeps them in
order.

* `Case.Orderly` : the activities are numbered and dated in order;
* `Case.Extends` : what a later state of a case may add to an earlier one;
* `Case.ChangedAt` : what all changes of a case have in common;
* `Context.Evolves` : what happens to a published case between two publications;
* `Execution.question?` : the question that is published for as long as a recorded decision is
  looked up;
* `Execution.history` : all that is published along some acts, in order;
* `history_ordered` : published states are orderly, and every one extends those before it.
-/

namespace Casework

/-! ## What a state of a case looks like -/

namespace Case

/-- Whether the activities of a case are numbered from 1 on, begin when the case was created, and
are dated in order up to the last update. -/
structure Orderly (k : Case) : Prop where
  numbered : k.activities.map Activity.id = List.range' 1 k.activities.length
  created : k.activities.head?.map Activity.timestamp = some k.details.createdAt
  ascending : (k.activities.map Activity.timestamp).Pairwise (· ≤ ·)
  updated : ∀ a ∈ k.activities, a.timestamp ≤ k.details.updatedAt

/-- Whether a state of a case keeps all activities of an earlier one and is not older. -/
structure Extends (k k' : Case) : Prop where
  activities : k.activities <+: k'.activities
  updatedAt : k.details.updatedAt ≤ k'.details.updatedAt

/-- Whether a case was changed at a time: with one more activity, which bears that time, or none. -/
structure ChangedAt (t : Instant) (k k' : Case) : Prop where
  createdAt : k'.details.createdAt = k.details.createdAt
  updatedAt : k'.details.updatedAt = t
  activities : k'.activities = k.activities ∨
    ∃ kind sender text, k'.activities = k.activities ++ [k.nextActivity kind sender text t]

variable {k k' k'' : Case} {t u : Instant}

theorem Extends.refl (k : Case) : k.Extends k :=
  ⟨List.prefix_refl _, Instant.le_refl _⟩

theorem Extends.trans (h : k.Extends k') (h' : k'.Extends k'') : k.Extends k'' :=
  ⟨h.activities.trans h'.activities, Instant.le_trans h.updatedAt h'.updatedAt⟩

/-! ## Changes -/

theorem changedAt_beginInteraction (k : Case) (i : Interaction) (status : String) (t : Instant) :
    k.ChangedAt t (k.beginInteraction i status t) :=
  ⟨rfl, rfl, .inl rfl⟩

theorem changedAt_setStatus (k : Case) (status : String) (t : Instant) :
    k.ChangedAt t (k.setStatus status t) :=
  ⟨rfl, rfl, .inl rfl⟩

/-- A decision clears the question, adds an activity and touches the case, all at one time. -/
theorem changedAt_decide (k : Case) (value : String) (t : Instant) :
    k.ChangedAt t (k.decide value t) :=
  ⟨rfl, rfl, .inr ⟨_, _, _, rfl⟩⟩

/-- An analysis changes the case at one time. -/
theorem changedAt_enrich (k : Case) (e : Enrichment) (t : Instant) :
    k.ChangedAt t (k.enrich e t) :=
  ⟨rfl, rfl, .inr ⟨_, _, _, rfl⟩⟩

/-- A change at a time that is not before the last update extends the case. -/
theorem ChangedAt.extends (h : k.ChangedAt t k') (late : k.details.updatedAt ≤ t) :
    k.Extends k' where
  activities := by
    rcases h.activities with hsame | ⟨kind, sender, text, hmore⟩
    · exact ⟨[], by rw [hsame, List.append_nil]⟩
    · rw [hmore]
      exact List.prefix_append _ _
  updatedAt := by rwa [h.updatedAt]

/-- An activity gets the next number and the latest time. -/
theorem Orderly.append (h : k.Orderly) (kind sender text : String)
    (late : k.details.updatedAt ≤ t) : (k.append kind sender text t).Orderly where
  numbered := by
    rw [activities_append, List.map_append, h.numbered, List.length_append, List.length_singleton,
      List.range'_1_concat, Nat.add_comm 1]
    rfl
  created := by
    have hstream := h.created
    cases hactivities : k.activities with
    | nil => simp [hactivities] at hstream
    | cons a rest =>
        rw [activities_append, hactivities]
        rwa [hactivities] at hstream
  ascending := by
    rw [activities_append, List.map_append, List.pairwise_append]
    refine ⟨h.ascending, List.pairwise_singleton _ _, ?_⟩
    intro before hbefore new hnew
    obtain ⟨a, ha, rfl⟩ := List.mem_map.1 hbefore
    obtain rfl : new = t := by simpa using hnew
    exact Instant.le_trans (h.updated a ha) late
  updated := by
    intro a ha
    rw [activities_append, List.mem_append, List.mem_singleton] at ha
    rcases ha with hold | rfl
    · exact Instant.le_trans (h.updated a hold) late
    · exact Instant.le_refl t

/-- Only the activities, the creation and the last update of a case are looked at. -/
theorem Orderly.of_same (h : k.Orderly) (activities : k'.activities = k.activities)
    (createdAt : k'.details.createdAt = k.details.createdAt)
    (late : k.details.updatedAt ≤ k'.details.updatedAt) : k'.Orderly where
  numbered := by rw [activities, h.numbered]
  created := by rw [activities, createdAt, h.created]
  ascending := by
    rw [activities]
    exact h.ascending
  updated := by
    intro a ha
    rw [activities] at ha
    exact Instant.le_trans (h.updated a ha) late

/-- A case stays orderly if it is changed no earlier than it was changed last. -/
theorem ChangedAt.orderly (h : k.ChangedAt t k') (orderly : k.Orderly)
    (late : k.details.updatedAt ≤ t) : k'.Orderly := by
  rcases h.activities with hsame | ⟨kind, sender, text, hmore⟩
  · exact orderly.of_same hsame h.createdAt (by rwa [h.updatedAt])
  · have hlate : t ≤ k'.details.updatedAt := by
      rw [h.updatedAt]
      exact Instant.le_refl t
    exact (orderly.append kind sender text late).of_same hmore h.createdAt hlate

/-- A new case has one activity, with the number 1. -/
theorem orderly_openFrom (caseId : String) (input : CaseInput) (assignee : Participant)
    (t : Instant) : (Case.openFrom caseId input assignee t).Orderly where
  numbered := rfl
  created := rfl
  ascending := List.pairwise_singleton _ _
  updated := by
    intro a ha
    obtain rfl := List.mem_singleton.1 ha
    exact Instant.le_refl t

end Case

/-! ## From one publication to the next -/

namespace Context

variable {c c' : Context}

/-- What happens to the published case between two publications: at most one change, at the logical
clock, which does not go back. -/
structure Evolves (c c' : Context) : Prop where
  clock : c.clock ≤ c'.clock
  published : c'.published = c.published ∨
    ∃ f : Case → Case, c'.published = c.published.map f ∧ ∀ k : Case, k.ChangedAt c'.clock (f k)

/-- Whether the published case is orderly and was last changed at the logical clock or earlier. -/
def Orderly (c : Context) : Prop :=
  ∀ k, c.published = some k → k.Orderly ∧ k.details.updatedAt ≤ c.clock

theorem Evolves.refl (c : Context) : c.Evolves c :=
  ⟨Instant.le_refl _, .inl rfl⟩

/-- A change at the time of the clock lets a context evolve. -/
theorem evolves_update (c : Context) {f : Case → Case} (hf : ∀ k : Case, k.ChangedAt c.clock (f k)) :
    c.Evolves (c.update f) :=
  ⟨Instant.le_refl _, .inr ⟨f, rfl, hf⟩⟩

/-- So does a clock that moves, because the case is kept. -/
theorem evolves_advanceClock (c : Context) (t : Instant) : c.Evolves (c.advanceClock t) :=
  ⟨c.clock_le_advanceClock t, .inl rfl⟩

theorem evolves_asking (settings : EngineSettings) (s : StepDefinition) (config : ReviewConfig)
    (c : Context) : c.Evolves (Visit.asking settings s config c) :=
  ⟨Instant.le_refl _, .inr ⟨_, rfl, fun k => k.changedAt_beginInteraction _ _ _⟩⟩

/-- A decision moves the clock to its time before it changes the case. -/
theorem evolves_applyDecision (c : Context) (signal : Signal) :
    c.Evolves (Visit.applyDecision c signal) where
  clock := c.clock_le_advanceClock signal.receivedAt
  published := .inr ⟨_, rfl, fun k => k.changedAt_decide _ _⟩

theorem evolves_applyEnrichment (c : Context) (t : Instant) (a : Option Enrichment) :
    c.Evolves (Visit.applyEnrichment (c.advanceClock t) a) := by
  cases a with
  | none => exact c.evolves_advanceClock t
  | some answer =>
      exact ⟨c.clock_le_advanceClock t, .inr ⟨_, rfl, fun k => k.changedAt_enrich _ _⟩⟩

/-- A context that evolves keeps its case orderly. -/
theorem Evolves.orderly (h : c.Evolves c') (orderly : c.Orderly) : c'.Orderly := by
  intro k' hk'
  rcases h.published with hsame | ⟨f, hmap, hchanged⟩
  · obtain ⟨hk, hlate⟩ := orderly k' (hsame.symm.trans hk')
    exact ⟨hk, Instant.le_trans hlate h.clock⟩
  · obtain ⟨k, hk, rfl⟩ := Option.map_eq_some_iff.1 (hmap.symm.trans hk')
    obtain ⟨horderly, hlate⟩ := orderly k hk
    have hlater := Instant.le_trans hlate h.clock
    refine ⟨(hchanged k).orderly horderly hlater, ?_⟩
    rw [(hchanged k).updatedAt]
    exact Instant.le_refl _

/-- A published case stays published, and is extended. -/
theorem Evolves.extends (h : c.Evolves c') (orderly : c.Orderly) {k : Case}
    (published : c.published = some k) : ∃ k', c'.published = some k' ∧ k.Extends k' := by
  rcases h.published with hsame | ⟨f, hmap, hchanged⟩
  · exact ⟨k, hsame.trans published, .refl k⟩
  · have hlater := Instant.le_trans (orderly k published).2 h.clock
    exact ⟨f k, by simp [hmap, published], (hchanged k).extends hlater⟩

end Context

/-! ## One atomic step -/

namespace Execution

/-- The question that the next atomic step publishes.  If a decision is recorded for it, the same
step goes on to publish that. -/
def question? (settings : EngineSettings) (x : Execution) : Option Case :=
  match x.phase with
  | .visiting _ _ s .humanInTheLoop .entering =>
      match s.config ReviewConfig.decoder with
      | .ok config => (Visit.asking settings s config x.context).published
      | .error _ => none
  | _ => none

/-- What is published in the course of one act, before what stands after it. -/
def asked (p : Execution × Ledger) : Act → Option Case
  | .task g _ => p.1.question? g.settings
  | .drop | .request _ | .others _ => none

/-- All that is published from some act on, in order.  What an act leaves as it was is told again. -/
def history (p : Execution × Ledger) : List Act → List Case
  | [] => p.1.published.toList
  | a :: as => p.1.published.toList ++ (asked p a).toList ++ history (act p a) as

variable {g : Engine} {r : Readings} {x y : Execution} {l l' : Ledger} {p : Execution × Ledger}
variable {d : Definition} {n : Nat} {s : StepDefinition} {e : Executor}
variable {settings : EngineSettings} {c c' : Context}

/-- The question that is asked in a visit is published in the middle of its first step. -/
theorem question?_of_asking (settings : EngineSettings) {config : ReviewConfig}
    (hp : x.phase = .visiting d n s .humanInTheLoop .entering)
    (h : s.config ReviewConfig.decoder = .ok config) :
    x.question? settings = (Visit.asking settings s config x.context).published := by
  simp [question?, hp, h]

/-- A configuration that cannot be read asks no question. -/
theorem question?_of_fault {fault : Error}
    (hp : x.phase = .visiting d n s .humanInTheLoop .entering)
    (h : s.config ReviewConfig.decoder = .error fault) : x.question? settings = none := by
  simp [question?, hp, h]

/-- Whether a context becomes another, by way of a question if one is asked. -/
def Passes (question : Option Case) (c c' : Context) : Prop :=
  ∃ mid, c.Evolves mid ∧ mid.Evolves c' ∧ ∀ k, question = some k → mid.published = some k

/-- A step that asks nothing passes straight on. -/
theorem passes_of_silent {question : Option Case} (silent : question = none) (h : c.Evolves c') :
    Passes question c c' :=
  ⟨c, .refl c, h, by simp [silent]⟩

theorem evolves_of_same (hclock : c'.clock = c.clock) (hpublished : c'.published = c.published) :
    c.Evolves c' :=
  ⟨hclock ▸ Instant.le_refl _, .inl hpublished⟩

/-- The first step of a visit may publish twice: the question, and what was decided about it. -/
theorem passes_of_entering {out : Context × Ledger × Visit}
    (hp : x.phase = .visiting d n s e .entering)
    (ways : Visit.Entering settings s r x.context l e out) :
    Passes (x.question? settings) x.context out.1 := by
  cases ways with
  | noQuestion h => exact passes_of_silent (question?_of_fault hp h) (.refl _)
  | asking h live =>
      have hasked := question?_of_asking settings hp h
      exact ⟨_, Context.evolves_asking settings s _ _, .refl _, fun k hk => hasked.symm.trans hk⟩
  | @decided config signal rest h recorded =>
      -- The only step that publishes twice: the question, and the decision that it finds.
      have hasked := question?_of_asking settings hp h
      refine ⟨{ Visit.asking settings s config x.context with
          log := { x.context.log with pending := rest } }, ?_, ?_, fun k hk => hasked.symm.trans hk⟩
      · have hask := Context.evolves_asking settings s config x.context
        exact ⟨hask.clock, hask.published⟩
      · exact Context.evolves_applyDecision _ signal
  | undecided h recorded other =>
      have hasked := question?_of_asking settings hp h
      exact ⟨_, Context.evolves_asking settings s _ _, .refl _, fun k hk => hasked.symm.trans hk⟩
  | noStatus h => exact passes_of_silent (by simp [question?, hp]) (.refl _)
  | committed h =>
      exact passes_of_silent (by simp [question?, hp])
        (Context.evolves_update _ fun k => k.changedAt_setStatus _ _)
  | alone live => exact passes_of_silent (by simp [question?, hp]) (.refl _)
  | unopened live unopened => exact passes_of_silent (by simp [question?, hp]) (.refl _)
  | refused live published answer => exact passes_of_silent (by simp [question?, hp]) (.refl _)
  | answered live published answer => exact passes_of_silent (by simp [question?, hp]) (.refl _)
  | @analysed _ output t a rest recorded readable =>
      have happlied := Context.evolves_applyEnrichment
        { x.context with log := { x.context.log with pending := rest } } t a
      exact passes_of_silent (by simp [question?, hp]) ⟨happlied.clock, happlied.published⟩
  | @unreadable _ output t fault rest recorded unreadable =>
      exact passes_of_silent (by simp [question?, hp])
        ⟨x.context.clock_le_advanceClock t, .inl rfl⟩
  | unanswered recorded other => exact passes_of_silent (by simp [question?, hp]) (.refl _)

/-- A decision that is refused changes nothing. -/
theorem evolves_settleDecision (s : StepDefinition) (c : Context) (l : Ledger) (signal : Signal) :
    c.Evolves (Visit.settleDecision s c l signal).1 := by
  unfold Visit.settleDecision
  split
  · exact .refl c
  · exact c.evolves_applyDecision signal

theorem evolves_settleEnrichment (s : StepDefinition) (c : Context) (l : Ledger)
    (a : Option Enrichment) (t : Instant) :
    c.Evolves (Visit.settleEnrichment s c l a t).1 := by
  unfold Visit.settleEnrichment
  split
  · exact .refl c
  · exact c.evolves_applyEnrichment t a

theorem clock_close (c : Context) (l : Ledger) (r : Readings) (result : Except Error Case) :
    (close c l r result).1.clock = c.clock := by
  unfold close
  cases result with
  | ok k =>
      dsimp only
      cases c.log.complete l.journal k.status k.details.updatedAt <;> rfl
  | error fault =>
      dsimp only
      cases c.log.fail l.journal fault r.now <;> rfl

/-- Every atomic step but the one that opens the case changes the published case at the logical
clock only. -/
theorem passes_of_advance {b : Execution × Ledger} (h : x.advance g r l = some b)
    (opened : x.phase ≠ .opening) :
    Passes (x.question? g.settings) x.context b.1.context := by
  cases stepping h with
  | starting hp =>
      rw [context_start]
      exact passes_of_silent (by simp [question?, hp]) (.refl _)
  | opening hp => exact absurd hp opened
  | dispatching hp => exact passes_of_silent (by simp [question?, hp]) (.refl _)
  | entering hp ways => exact passes_of_entering hp ways
  | @awaiting _ _ _ _ _ out hp hw =>
      have hsame : x.context.Evolves { x.context with inbox := out.1 } := evolves_of_same rfl rfl
      exact passes_of_silent (by simp [question?, hp]) hsame
  | decided hp =>
      exact passes_of_silent (by simp [question?, hp]) (evolves_settleDecision _ _ _ _)
  | analysed hp =>
      exact passes_of_silent (by simp [question?, hp]) (evolves_settleEnrichment _ _ _ _ _)
  | left hp => exact passes_of_silent (by simp [question?, hp]) (.refl _)
  | @closing result hp =>
      exact passes_of_silent (by simp [question?, hp])
        (evolves_of_same (clock_close x.context l r result) (published_close x.context l r result))

/-! ## One act -/

/-- What holds of an execution whose history is in order so far. -/
structure InOrder (x : Execution) : Prop where
  orderly : x.context.Orderly
  begun : x.launch.startedAt ≤ x.context.clock
  unpublished : x.phase.isPastOpening = false → x.published = none

/-- An execution that starts has nothing that could be out of order. -/
theorem inOrder_of_starts (starts : x.Starts) : x.InOrder := by
  obtain ⟨caseId, launch, entries, rfl⟩ := starts.launching
  refine ⟨?_, Instant.le_refl _, fun _ => rfl⟩
  intro k hk
  cases hk

/-- No step changes what an execution was launched with. -/
theorem launch_of_advance {b : Execution × Ledger} (h : x.advance g r l = some b) :
    b.1.launch = x.launch := by
  cases stepping h with
  | starting _ =>
      unfold start
      split <;> rfl
  | opening _ =>
      unfold openCase
      split <;> rfl
  | _ => rfl

/-- Nothing leads back behind the opening of the case. -/
theorem isPastOpening_proceed (c : Context) (l : Ledger) (d : Definition) (n : Nat)
    (s : StepDefinition) (result : Except Error Outcome) :
    (proceed c l d n s result).1.isPastOpening = true := by
  unfold proceed
  split <;> rfl

theorem isPastOpening_dispatch (g : Engine) (d : Definition) (n : Nat) (stepId : String) :
    (dispatch g d n stepId).isPastOpening = true := by
  unfold dispatch
  split
  · rfl
  · split <;> rfl

theorem isPastOpening_of_advance {b : Execution × Ledger} (h : x.advance g r l = some b)
    (begun : x.phase ≠ .starting) : b.1.phase.isPastOpening = true := by
  cases stepping h with
  | starting hp => exact absurd hp begun
  | opening hp =>
      unfold openCase
      split <;> rfl
  | dispatching hp => exact isPastOpening_dispatch _ _ _ _
  | left hp => exact isPastOpening_proceed _ _ _ _ _ _
  | _ => rfl

/-- What an act does to the history of an execution. -/
structure Continues (question : Option Case) (x y : Execution) : Prop where
  inOrder : y.InOrder
  extended : ∀ k, x.published = some k → ∃ k', y.published = some k' ∧ k.Extends k'
  asked : ∀ q, question = some q → q.Orderly ∧ (∀ k, x.published = some k → k.Extends q) ∧
    ∃ k', y.published = some k' ∧ q.Extends k'

/-- A step that passes from one context to another continues the history of the case. -/
theorem continues_of_passes {question : Option Case} (hx : x.InOrder)
    (hpasses : Passes question x.context y.context) (hlaunch : y.launch = x.launch)
    (hunpublished : y.phase.isPastOpening = false → y.published = none) :
    Continues question x y := by
  obtain ⟨mid, hfirst, hsecond, hasked⟩ := hpasses
  have hmid : mid.Orderly := hfirst.orderly hx.orderly
  constructor
  · refine ⟨hsecond.orderly hmid, ?_, hunpublished⟩
    rw [hlaunch]
    exact Instant.le_trans hx.begun (Instant.le_trans hfirst.clock hsecond.clock)
  · intro k hk
    obtain ⟨k₁, hk₁, hextends₁⟩ := hfirst.extends hx.orderly hk
    obtain ⟨k₂, hk₂, hextends₂⟩ := hsecond.extends hmid hk₁
    exact ⟨k₂, hk₂, hextends₁.trans hextends₂⟩
  · intro q hq
    have hqmid := hasked q hq
    refine ⟨(hmid q hqmid).1, ?_, hsecond.extends hmid hqmid⟩
    intro k hk
    obtain ⟨k₁, hk₁, hextends⟩ := hfirst.extends hx.orderly hk
    obtain rfl : k₁ = q := Option.some.inj (hk₁.symm.trans hqmid)
    exact hextends

/-- The opening publishes the first case of the history. -/
theorem continues_openCase (hx : x.InOrder) (hp : x.phase = .opening) :
    Continues (x.question? g.settings) x (x.openCase g) := by
  have hunpublished : x.published = none := hx.unpublished (by rw [hp]; rfl)
  constructor
  · unfold openCase
    split
    · exact ⟨hx.orderly, hx.begun, fun _ => hunpublished⟩
    · refine ⟨?_, hx.begun, by simp [Phase.isPastOpening]⟩
      intro k hk
      obtain rfl := Option.some.inj hk
      exact ⟨Case.orderly_openFrom _ _ _ _, hx.begun⟩
  · intro k hk
    simp [hunpublished] at hk
  · simp [question?, hp]

/-- Every atomic step continues the history. -/
theorem continues_of_advance {b : Execution × Ledger} (hx : x.InOrder)
    (h : x.advance g r l = some b) : Continues (x.question? g.settings) x b.1 := by
  by_cases hopening : x.phase = .opening
  · rw [advance_of_opening (running_of_advance h) hopening] at h
    cases h
    exact continues_openCase hx hopening
  · refine continues_of_passes hx (passes_of_advance h hopening) (launch_of_advance h) ?_
    intro hpast
    by_cases hstarting : x.phase = .starting
    · rw [advance_of_starting (running_of_advance h) hstarting] at h
      cases h
      rw [published, context_start]
      exact hx.unpublished (by rw [hstarting]; rfl)
    · simp [isPastOpening_of_advance h hstarting] at hpast

/-- An execution that has another inbox or another status has the same history. -/
theorem continues_of_alike (hx : x.InOrder) (hclock : y.context.clock = x.context.clock)
    (hpublished : y.published = x.published) (hlaunch : y.launch = x.launch)
    (hphase : y.phase = x.phase) : Continues none x y := by
  refine continues_of_passes hx (passes_of_silent rfl (evolves_of_same hclock hpublished)) hlaunch ?_
  rw [hphase, hpublished]
  exact hx.unpublished

/-- A task that cannot go on publishes nothing in between. -/
theorem question?_of_stuck (stuck : x.toil g r l = none) : x.question? settings = none := by
  have hnone : advance g r { x with status := .running } l = none := by
    simpa [toil] using stuck
  unfold question?
  split
  · next hp =>
      -- Who is about to begin a step is never stuck.
      rw [advance_of_entering (x := { x with status := .running }) rfl hp] at hnone
      cases hnone
  · rfl

/-- The task goes on with the history, also after it was stopped. -/
theorem continues_of_step (hx : x.InOrder) {z : Execution}
    (h : advance g r { x with status := .running } l = some (z, l')) (status : ExecutionStatus) :
    Continues (x.question? g.settings) x { z with status := status } := by
  have hrunning : InOrder { x with status := .running } := ⟨hx.orderly, hx.begun, hx.unpublished⟩
  have hz := continues_of_advance hrunning h
  exact ⟨⟨hz.inOrder.orderly, hz.inOrder.begun, hz.inOrder.unpublished⟩, hz.extended, hz.asked⟩

/-- Nothing is asked but by a step of the task. -/
theorem asked_of_besides (p : Execution × Ledger) {a : Act} (other : a.isTask = false) :
    asked p a = none := by
  cases a with
  | task g r => cases other
  | _ => rfl

/-- Every act continues the history. -/
theorem continues_act (hp : p.1.InOrder) (a : Act) : Continues (asked p a) p.1 (act p a).1 := by
  -- Only a step of the task publishes anything.
  have hacted := acted p a
  generalize act p a = q at hacted ⊢
  cases hacted with
  | toiled hstep => exact continues_of_step hp hstep _
  | stuck htoil =>
      rw [asked, question?_of_stuck htoil]
      exact continues_of_alike hp rfl rfl rfl rfl
  | besides other _ _ =>
      rw [asked_of_besides p other]
      exact continues_of_alike hp rfl rfl rfl rfl

/-! ## Any number of acts -/

/-- What was published is extended by everything that is published later. -/
theorem extends_of_mem_history (hp : p.1.InOrder) (as : List Act) :
    ∀ k, p.1.published = some k → ∀ k' ∈ history p as, k.Extends k' := by
  induction as generalizing p with
  | nil =>
      intro k hk k' hk'
      obtain rfl : k' = k := by simpa [history, hk] using hk'
      exact .refl k'
  | cons a as ih =>
      intro k hk k' hk'
      have hact := continues_act hp a
      rw [history, hk, List.append_assoc, List.mem_append, List.mem_append] at hk'
      rcases hk' with hnow | hasked | hlater
      · obtain rfl : k' = k := by simpa using hnow
        exact .refl k'
      · exact (hact.asked k' (Option.mem_toList.1 hasked)).2.1 k hk
      · obtain ⟨k₁, hk₁, hextends⟩ := hact.extended k hk
        exact hextends.trans (ih hact.inOrder k₁ hk₁ k' hlater)

theorem orderly_of_mem_history (hp : p.1.InOrder) (as : List Act) :
    ∀ k ∈ history p as, k.Orderly := by
  induction as generalizing p with
  | nil =>
      intro k hk
      exact (hp.orderly k (Option.mem_toList.1 hk)).1
  | cons a as ih =>
      intro k hk
      have hact := continues_act hp a
      rw [history, List.append_assoc, List.mem_append, List.mem_append] at hk
      rcases hk with hnow | hasked | hlater
      · exact (hp.orderly k (Option.mem_toList.1 hnow)).1
      · exact (hact.asked k (Option.mem_toList.1 hasked)).1
      · exact ih hact.inOrder k hlater

theorem pairwise_option {R : Case → Case → Prop} (o : Option Case) : o.toList.Pairwise R := by
  cases o <;> simp

/-- What was published before, what an act asks and what is published later stand in this order. -/
theorem pairwise_history (hp : p.1.InOrder) (as : List Act) :
    (history p as).Pairwise Case.Extends := by
  induction as generalizing p with
  | nil => exact pairwise_option _
  | cons a as ih =>
      have hact := continues_act hp a
      rw [history, List.append_assoc, List.pairwise_append, List.pairwise_append]
      refine ⟨pairwise_option _, ⟨pairwise_option _, ih hact.inOrder, ?_⟩, ?_⟩
      · intro q hq k' hk'
        obtain ⟨-, -, k₁, hk₁, hextends⟩ := hact.asked q (Option.mem_toList.1 hq)
        exact hextends.trans (extends_of_mem_history hact.inOrder as k₁ hk₁ k' hk')
      · intro k hk k' hk'
        have hpublished := Option.mem_toList.1 hk
        rcases List.mem_append.1 hk' with hasked | hlater
        · exact (hact.asked k' (Option.mem_toList.1 hasked)).2.1 k hpublished
        · obtain ⟨k₁, hk₁, hextends⟩ := hact.extended k hpublished
          exact hextends.trans (extends_of_mem_history hact.inOrder as k₁ hk₁ k' hlater)

end Execution

open Execution

/-- Everything that an execution publishes, new or resumed from whatever journal, whatever it is
sent and whoever stops it, is orderly and extends all that was published before. -/
theorem history_ordered (x₀ : Execution) (l₀ : Ledger) (starts : x₀.Starts) (as : List Act) :
    (∀ k ∈ history (x₀, l₀) as, k.Orderly) ∧
    (history (x₀, l₀) as).Pairwise Case.Extends :=
  ⟨orderly_of_mem_history (inOrder_of_starts starts) as,
    pairwise_history (inOrder_of_starts starts) as⟩

/-- A decision that is dated before the case was opened counts as made at the latest time so far. -/
theorem history_ordered_predated :
    ∃ k ∈ history (.fresh "case-1" "approval" "1" .null ⟨10, 0⟩, ⟨.empty, [], []⟩)
        (List.replicate 9 (.task (Engine.approving none) default) ++
          .request (.signal (.decision "refuse" "s-1" ⟨1, 0⟩)) ::
            List.replicate 7 (.task (Engine.approving none) default)),
      k.activities.map Activity.id = [1, 2] ∧
      k.activities.map Activity.timestamp = [⟨10, 0⟩, ⟨10, 0⟩] ∧ k.Orderly := by
  have hordered := (history_ordered (.fresh "case-1" "approval" "1" .null ⟨10, 0⟩)
    ⟨.empty, [], []⟩ (.fresh _ _ _ _ _)
    (List.replicate 9 (.task (Engine.approving none) default) ++
      .request (.signal (.decision "refuse" "s-1" ⟨1, 0⟩)) ::
        List.replicate 7 (.task (Engine.approving none) default))).1
  have hmem : ∃ k ∈ history (.fresh "case-1" "approval" "1" .null ⟨10, 0⟩, ⟨.empty, [], []⟩)
        (List.replicate 9 (.task (Engine.approving none) default) ++
          .request (.signal (.decision "refuse" "s-1" ⟨1, 0⟩)) ::
            List.replicate 7 (.task (Engine.approving none) default)),
      k.activities.map Activity.id = [1, 2] ∧
      k.activities.map Activity.timestamp = [⟨10, 0⟩, ⟨10, 0⟩] := by
    exact ⟨_, List.mem_of_getLast? rfl, rfl, rfl⟩
  obtain ⟨k, hk, hids, htimes⟩ := hmem
  exact ⟨k, hk, hids, htimes, hordered k hk⟩

end Casework
