import Casework.Proofs.Case.History
import Casework.Proofs.Case.Question
import Casework.Proofs.Definition.Blame
import Casework.Proofs.HumanInput.Attending
import Casework.Proofs.Replay.Discipline
import Casework.Proofs.Signal.Isolation
import Casework.Proofs.Walk.Simulation

/-!
# Answers — a list of answers and the visits that wait for them

Without deadlines, and with nobody else to deliver signals, every visit that waits gets the next
answer of the list.  A question is told from the one before by the number of activities: it grows
with every decision, so a question that was answered counts no more activities than there were at
the answer, and the next question counts more, even if it is the same in all else.

* `Exchange`, `Minutes` : what is asked and what is told, and how the two belong together;
* `Execution.Rests` : an execution that has no question to be answered;
* `Execution.Awaits` : an execution that waits for an answer;
* `Attends` : the invariant of an execution and whoever answers from a list;
* `attend_answers_each` : every visit gets one answer, in order, until either comes to its end.
-/

namespace Casework

/-! ## What is asked and what is told -/

/-- The request of a visit that is about to begin and to wait.  A visit that finds its decision
recorded makes none. -/
def Execution.request? (settings : EngineSettings) (x : Execution) : Option Casework.Request :=
  match x.phase with
  | .visiting _ _ s .humanInTheLoop .entering =>
      match x.pending, s.config ReviewConfig.decoder with
      | [], .ok config =>
          some (.ofInteraction x.caseId (Visit.interactionOf s config settings x.caseId))
      | _, _ => none
  | _ => none

/-- Something that passes between an execution and whoever attends to it. -/
inductive Exchange where
  | asked (r : Request)
  | told (value : String) (disposition : Disposition)
deriving DecidableEq, Repr

namespace Scene

def Event.exchange? (settings : EngineSettings) : Event → Option Exchange
  | .around (.step x _ _) => (x.request? settings).map .asked
  | .tell signal disposition => some (.told signal.value disposition)
  | _ => none

/-- All that passes between the two, in order. -/
def exchanges (settings : EngineSettings) (es : List Event) : List Exchange :=
  es.filterMap (Event.exchange? settings)

/-- What passes between the two grows with each event by at most one exchange. -/
theorem exchanges_concat (settings : EngineSettings) (es : List Event) (e : Event) :
    exchanges settings (es ++ [e]) = exchanges settings es ++ (e.exchange? settings).toList := by
  cases h : e.exchange? settings <;> simp [exchanges, h]

end Scene

/-- Requests with the answers that they got, and the one that has got none. -/
structure Minutes where
  answered : List (Request × String) := []
  open? : Option Request := none

namespace Minutes

/-- What was asked and told: each request was followed by what its answer comes to, and this was
accepted. -/
def exchanges (m : Minutes) : List Exchange :=
  m.answered.flatMap (fun p => [.asked p.1, .told (p.1.decisionFor p.2) .accepted])
    ++ (m.open?.map .asked).toList

def used (m : Minutes) : List String := m.answered.map Prod.snd

def ask (m : Minutes) (r : Request) : Minutes := { m with open? := some r }

def answer (m : Minutes) (r : Request) (a : String) : Minutes := ⟨m.answered ++ [(r, a)], none⟩

variable {m : Minutes} {r : Request}

/-- To put a request adds a question. -/
theorem exchanges_ask (h : m.open? = none) (r : Request) :
    (m.ask r).exchanges = m.exchanges ++ [.asked r] := by
  simp [exchanges, ask, h]

/-- To answer it adds the decision it stands for, and closes it. -/
theorem exchanges_answer (h : m.open? = some r) (a : String) :
    (m.answer r a).exchanges = m.exchanges ++ [.told (r.decisionFor a) .accepted] := by
  simp [exchanges, answer, h]

@[simp] theorem used_ask (m : Minutes) (r : Request) : (m.ask r).used = m.used := rfl

@[simp] theorem used_answer (m : Minutes) (r : Request) (a : String) :
    (m.answer r a).used = m.used ++ [a] := by
  simp [used, answer]

end Minutes

/-! ## An execution that has no question to be answered -/

namespace Context

/-- Whether a case is published that shows no question, with more activities than so many. -/
def Shows (n : Nat) (c : Context) : Prop :=
  ∃ k, c.published = some k ∧ k.caseId = c.caseId ∧ k.interaction = none ∧ n < k.activityCount

variable {c : Context} {n : Nat}

/-- Changes that ask nothing and take no activity away keep what is shown. -/
theorem Shows.update (h : c.Shows n) {f : Case → Case} (caseId : ∀ k, (f k).caseId = k.caseId)
    (quiet : ∀ k, k.interaction = none → (f k).interaction = none)
    (more : ∀ k, k.activityCount ≤ (f k).activityCount) : (c.update f).Shows n := by
  rcases h with ⟨k, hk, hcase, hsilent, hcount⟩
  exact ⟨f k, by simp [hk], (caseId k).trans hcase, quiet k hsilent,
    Nat.lt_of_lt_of_le hcount (more k)⟩

/-- An answer of a collaborator keeps what is shown. -/
theorem Shows.applyEnrichment (h : c.Shows n) (a : Option Enrichment) :
    (Visit.applyEnrichment c a).Shows n := by
  cases a with
  | none => exact h
  | some e =>
      refine h.update (fun _ => rfl) (fun _ hk => hk) ?_
      intro k
      simp [Case.activityCount, Case.enrich, Case.setEnrichment]

/-- A decision takes the question back and adds an activity. -/
theorem shows_applyDecision {k : Case} (published : c.published = some k)
    (caseId : k.caseId = c.caseId) (count : n ≤ k.activityCount) (signal : Signal) :
    (Visit.applyDecision c signal).Shows n := by
  refine ⟨k.decide signal.value (c.advanceClock signal.receivedAt).clock, ?_, caseId, rfl, ?_⟩
  · simp [Visit.applyDecision, published]
  · have hmore : (k.decide signal.value (c.advanceClock signal.receivedAt).clock).activityCount =
        k.activityCount + 1 := by
      simp [Case.activityCount, Case.decide]
    omega

end Context

namespace Execution

/-- An execution that has no question to be answered, there being so many activities at the last
answer. -/
inductive Rests (n : Nat) (x : Execution) : Prop
  /-- The case is not opened yet, or never will be. -/
  | unopened (unpublished : x.published = none) (zero : n = 0)
      (hp : x.phase.isPastOpening = true → x.phase.isOver = true)
  | silent (past : x.phase.isPastOpening = true) (shows : x.context.Shows n)
  /-- The answer could not be recorded, so its question stays. -/
  | failing {k : Case} (failing : x.phase.isFailing = true) (published : x.published = some k)
      (same : k.activityCount = n)

/-- An execution that rests has nothing to be answered. -/
theorem Rests.unanswered? {x : Execution} {n : Nat} (h : x.Rests n) : x.unanswered? n = none := by
  cases h with
  | unopened unpublished _ _ =>
      unfold Execution.unanswered?
      rw [unpublished]
  | silent _ shows =>
      rcases shows with ⟨k, hk, -, hsilent, -⟩
      have hpublished : x.published = some k := hk
      simp [Execution.unanswered?, hpublished, hsilent]
  | failing _ published same => simp [Execution.unanswered?, published, same]

section Step

variable {g g' : Engine} {r : Readings} {x : Execution} {l : Ledger} {b : Execution × Ledger}
variable {n m : Nat} {d : Definition} {s : StepDefinition} {e : Executor}
variable {settings : EngineSettings}

/-- A review that begins with nothing to replay puts its request. -/
theorem request?_of_asking {config : ReviewConfig}
    (hp : x.phase = .visiting d m s .humanInTheLoop .entering)
    (readable : s.config ReviewConfig.decoder = .ok config) (live : x.pending = []) :
    x.request? settings =
      some (.ofInteraction x.caseId (Visit.interactionOf s config settings x.caseId)) := by
  simp [request?, hp, live, readable]

/-- Only such a review puts one. -/
theorem of_request? {request : Casework.Request} (h : x.request? settings = some request) :
    ∃ d m s config, x.phase = .visiting d m s .humanInTheLoop .entering ∧ x.pending = [] ∧
      s.config ReviewConfig.decoder = .ok config ∧
      request = .ofInteraction x.caseId (Visit.interactionOf s config settings x.caseId) := by
  unfold request? at h
  split at h
  · next d m s hp =>
      split at h
      · next config live readable =>
          cases h
          exact ⟨d, m, s, config, hp, live, readable, rfl⟩
      · cases h
  · cases h

/-- Whoever begins a visit without a request, and does not find another entry than it looks for,
leaves no question. -/
theorem shows_of_entering {out : Context × Ledger × Visit}
    (hp : x.phase = .visiting d m s e .entering) (h : x.context.Shows n)
    (ways : Visit.Entering settings s r x.context l e out) (unasked : x.request? settings = none)
    (straight : ∀ stepId fault, ¬ Astray x stepId fault) : out.1.Shows n := by
  cases ways with
  | asking readable live => simp [request?_of_asking hp readable live] at unasked
  | undecided readable recorded other =>
      exact absurd (.undecided hp readable recorded other) (straight _ _)
  | @decided config signal rest _ _ =>
      rcases h with ⟨k, hk, hcase, -, hcount⟩
      have hasked : ({ Visit.asking settings s config x.context with
          log := { x.context.log with pending := rest } } : Context).published =
          some (k.beginInteraction (Visit.interactionOf s config settings x.context.caseId)
            settings.reviewStatus x.context.clock) := by
        simp [hk]
      exact Context.shows_applyDecision hasked hcase (Nat.le_of_lt hcount) signal
  | committed _ => exact h.update (fun _ => rfl) (fun _ hk => hk) (fun _ => Nat.le_refl _)
  | @analysed enricher output t a rest _ _ =>
      have hread : (({ x.context with log := { x.context.log with pending := rest } } :
          Context).advanceClock t).Shows n := h
      exact hread.applyEnrichment a
  | _ => exact h

theorem shows_settleEnrichment {c : Context} (h : c.Shows n) (s : StepDefinition) (l : Ledger)
    (a : Option Enrichment) (t : Instant) : (Visit.settleEnrichment s c l a t).1.Shows n := by
  unfold Visit.settleEnrichment
  split
  · exact h
  · have hpassed : (c.advanceClock t).Shows n := h
    exact hpassed.applyEnrichment a

theorem shows_close {c : Context} (h : c.Shows n) (l : Ledger) (r : Readings)
    (result : Except Error Case) : (close c l r result).1.Shows n := by
  unfold Context.Shows
  rw [published_close, caseId_close]
  exact h

/-- A case that is not opened is opened, or the execution comes to its end. -/
theorem rests_of_unopened (unpublished : x.published = none)
    (hover : x.phase.isPastOpening = true → x.phase.isOver = true)
    (hstep : x.advance g r l = some b) : b.1.Rests 0 := by
  -- Without a case the execution is before its opening or on its way to its end.
  cases stepping hstep with
  | starting hp =>
      refine .unopened ?_ rfl ?_
      · unfold Execution.published
        rw [context_start]
        exact unpublished
      · unfold start
        split <;> simp [Phase.isPastOpening, Phase.isOver]
  | opening hp =>
      unfold openCase
      cases prepare g x.launch with
      | error fault => exact .unopened unpublished rfl (by simp [Phase.isOver])
      | ok out => exact .silent rfl ⟨_, rfl, rfl, rfl, Nat.zero_lt_one⟩
  | @left d m s e result hp =>
      cases result with
      | error fault =>
          exact .unopened unpublished rfl (by simp [betweenVisits, proceed, Phase.isOver])
      | ok outcome => simp [hp, Phase.isPastOpening, Phase.isOver] at hover
  | @closing result hp =>
      refine .unopened ?_ rfl (by simp [finish, Phase.isOver])
      exact (published_close x.context l r result).trans unpublished
  | dispatching hp => simp [hp, Phase.isPastOpening, Phase.isOver] at hover
  | entering hp _ => simp [hp, Phase.isPastOpening, Phase.isOver] at hover
  | awaiting hp _ => simp [hp, Phase.isPastOpening, Phase.isOver] at hover
  | decided hp => simp [hp, Phase.isPastOpening, Phase.isOver] at hover
  | analysed hp => simp [hp, Phase.isPastOpening, Phase.isOver] at hover

/-- A step that leaves no review open leads to a state that rests. -/
theorem rests_of_silent (past : x.phase.isPastOpening = true) (shows : x.context.Shows n)
    (quiet : x.phase.isReviewing = false) (unasked : x.request? g.settings = none)
    (straight : ∀ stepId fault, ¬ Astray x stepId fault) (hstep : x.advance g r l = some b) :
    b.1.Rests n := by
  cases stepping hstep with
  | starting hp => simp [hp, Phase.isPastOpening] at past
  | opening hp => simp [hp, Phase.isPastOpening] at past
  | dispatching hp => exact .silent (isPastOpening_dispatch _ _ _ _) shows
  | entering hp ways => exact .silent rfl (shows_of_entering hp shows ways unasked straight)
  | awaiting hp _ => simp [hp, Phase.isReviewing] at quiet
  | decided hp => simp [hp, Phase.isReviewing] at quiet
  | analysed hp => exact .silent rfl (shows_settleEnrichment shows _ _ _ _)
  | left hp => exact .silent (isPastOpening_proceed _ _ _ _ _ _) shows
  | closing hp => exact .silent rfl (shows_close shows _ _ _)

/-- Nothing that happens without a new question makes one to be answered. -/
theorem Rests.advance (h : x.Rests n) (quiet : x.phase.isReviewing = false)
    (unasked : x.request? g.settings = none) (straight : ∀ stepId fault, ¬ Astray x stepId fault)
    (hstep : x.advance g r l = some b) : b.1.Rests n := by
  cases h with
  | unopened unpublished zero hover =>
      subst zero
      exact rests_of_unopened unpublished hover hstep
  | silent past shows => exact rests_of_silent past shows quiet unasked straight hstep
  | failing failing published same =>
      rcases failing_of_moves failing (.step (.refl g) hstep) with ⟨hfailing, hpublished, -⟩
      exact .failing hfailing (hpublished.trans published) same

theorem isReviewing_of_advance (quiet : x.phase.isReviewing = false)
    (unasked : x.request? g.settings = none) (hstep : x.advance g r l = some b) :
    b.1.phase.isReviewing = false := by
  cases stepping hstep with
  | starting hp => exact isReviewing_of_closed (phase_start x l)
  | opening hp => exact isReviewing_of_closed (phase_openCase g x)
  | dispatching hp => exact isReviewing_of_closed (phase_dispatch g _ _ _)
  | entering hp ways =>
      cases ways with
      | asking readable live => simp [request?_of_asking hp readable live] at unasked
      | _ => rfl
  | awaiting hp _ => simp [hp, Phase.isReviewing] at quiet
  | decided hp => simp [hp, Phase.isReviewing] at quiet
  | analysed hp => exact isReviewing_of_closed (inbox_settleEnrichment _ _ _ _ _).2
  | left hp => exact isReviewing_of_closed (phase_proceed _ _ _ _ _ _)
  | closing hp => rfl

end Step

end Execution

/-! ## Waits without a deadline -/

/-- Whether a walk is about such a definition, and in one of its steps. -/
def Phase.Within (p : Definition → Prop) : Phase → Prop
  | .dispatching d _ _ => p d
  | .visiting d _ s _ _ => p d ∧ s ∈ d.steps
  | _ => True

namespace Execution

variable {g g' : Engine} {p : Definition → Prop} {r : Readings} {x x₀ : Execution} {l : Ledger}
variable {b : Execution × Ledger}

/-- A dispatch stays within the process. -/
theorem within_dispatch {d : Definition} (hd : p d) (n : Nat) (stepId : String) :
    (dispatch g d n stepId).Within p := by
  unfold dispatch
  split
  · trivial
  · cases hselect : selectStep g d stepId with
    | error fault => trivial
    | ok out =>
        refine ⟨hd, ?_⟩
        unfold selectStep at hselect
        cases hstep : d.step? stepId with
        | none => simp [hstep] at hselect
        | some s =>
            rw [hstep] at hselect
            cases hexecutor : g.registry.executorOf s with
            | error fault => simp [hexecutor, Except.map] at hselect
            | ok e =>
                simp only [hexecutor, Except.map, Except.ok.injEq] at hselect
                subst hselect
                exact Definition.mem_of_step? hstep

/-- A walk stays with its definition. -/
theorem within_of_advance (h : x.phase.Within p)
    (opens : ∀ out, prepare g x.launch = .ok out → p out.1) (hstep : x.advance g r l = some b) :
    b.1.phase.Within p := by
  cases stepping hstep with
  | starting hp =>
      unfold start
      split <;> trivial
  | opening hp =>
      unfold openCase
      cases hprepare : prepare g x.launch with
      | error fault => trivial
      | ok out => exact opens out hprepare
  | dispatching hp =>
      rw [hp] at h
      exact within_dispatch h _ _
  | @left d n s e result hp =>
      rw [hp] at h
      cases result with
      | error fault => trivial
      | ok outcome =>
          cases outcome with
          | next stepId => exact h.1
          | terminate => trivial
  | closing hp => trivial
  | entering hp _ =>
      rw [hp] at h
      exact h
  | awaiting hp _ =>
      rw [hp] at h
      exact h
  | decided hp =>
      rw [hp] at h
      exact h
  | analysed hp =>
      rw [hp] at h
      exact h

/-- A walk is about the definition that its launch names. -/
theorem within_of_reaches (starts : x₀.Starts) (run : Reaches g x₀ x) :
    x.launch = x₀.launch ∧ x.phase.Within fun d =>
      g.loader.load x₀.launch.processName x₀.launch.processVersion = .ok d := by
  induction run with
  | refl =>
      rcases starts.launching with ⟨caseId, launch, entries, rfl⟩
      refine ⟨rfl, ?_⟩
      unfold launching
      cases launch.isFresh <;> trivial
  | tail before moves ih =>
      rcases ih with ⟨hlaunch, hwithin⟩
      cases moves with
      | step alike hstep =>
          refine ⟨(launch_of_advance hstep).trans hlaunch, within_of_advance hwithin ?_ hstep⟩
          -- The definition is loaded once, and the loader is the same all along.
          intro out hprepare
          rw [alike.prepare, hlaunch] at hprepare
          cases hload : g.loader.load x₀.launch.processName x₀.launch.processVersion with
          | error fault => simp [prepare_eq, hload] at hprepare
          | ok d => rw [definition_of_prepare hload hprepare]
      | deliver hdeliver =>
          rcases of_deliver hdeliver with ⟨-, inbox, rfl⟩
          exact ⟨hlaunch, hwithin⟩
      | cancel =>
          rw [cancel_eq]
          exact ⟨hlaunch, hwithin⟩

/-- Whether a wait that an execution begins now has no deadline. -/
def Unhurried (g : Engine) (x : Execution) : Prop :=
  ∀ d n s e config, x.phase = .visiting d n s e .entering →
    s.config ReviewConfig.decoder = .ok config → config.timeout.or g.settings.signalTimeout = none

/-- Without deadlines an execution never times out. -/
theorem unhurried_of_reaches (starts : x₀.Starts)
    (untimed : ∀ d, g.loader.load x₀.launch.processName x₀.launch.processVersion = .ok d →
      g.Untimed d) (run : Reaches g x₀ x) : x.Unhurried g := by
  intro d n s e config hp readable
  have hwithin := (within_of_reaches starts run).2
  rw [hp] at hwithin
  have huntimed := untimed d hwithin.1
  simp [huntimed.steps s hwithin.2 config readable, huntimed.settings]

/-! ## An execution that waits for an answer -/

/-- Whether an execution waits for an answer to its request, and no time is set to it. -/
structure Awaits (g : Engine) (x : Execution) (r : Casework.Request) (k : Case) : Prop where
  running : x.status = .running
  published : x.published = some k
  caseId : k.caseId = x.caseId
  asks : ∃ d n s config w, x.phase = .visiting d n s .humanInTheLoop (.awaiting w) ∧
    s.config ReviewConfig.decoder = .ok config ∧
    k.interaction = some (Visit.interactionOf s config g.settings x.caseId) ∧
    r = .ofInteraction x.caseId (Visit.interactionOf s config g.settings x.caseId) ∧
    w.deadline = none ∧ w.Sound x.context.inbox

/-- Whether an execution is about to record the decision on a question. -/
structure Settles (x : Execution) (k : Case) : Prop where
  running : x.status = .running
  published : x.published = some k
  caseId : k.caseId = x.caseId
  decided : ∃ d n s e signal, x.phase = .visiting d n s e (.decided signal)
  idle : x.context.inbox.Idle

variable {n : Nat} {request : Casework.Request} {k : Case}

/-- A visit that makes a request begins to wait for its answer. -/
theorem awaits_of_request (rests : x.Rests n) (idle : x.context.inbox.Idle)
    (asked : x.request? g.settings = some request) (unhurried : x.Unhurried g) (alike : g.Alike g')
    (hstep : x.advance g' r l = some b) :
    ∃ k, Awaits g b.1 request k ∧ n < k.activityCount ∧ b.1.context.inbox.slot = none := by
  rcases of_request? asked with ⟨d, m, s, config, hp, live, readable, rfl⟩
  cases rests with
  | unopened _ _ hover => simp [hp, Phase.isPastOpening, Phase.isOver] at hover
  | failing failing _ _ => simp [hp, Phase.isFailing] at failing
  | silent _ shows =>
      rcases shows with ⟨k, hk, hcase, -, hcount⟩
      have hrunning := running_of_advance hstep
      rw [advance_of_entering hrunning hp, Visit.enter_review,
        Visit.enterReview_of_live readable live, alike.settings] at hstep
      cases hstep
      refine ⟨k.beginInteraction (Visit.interactionOf s config g.settings x.caseId)
        g.settings.reviewStatus x.context.clock, ⟨hrunning, ?_, hcase, ?_⟩, hcount, rfl⟩
      · simp [inVisit, published, hk]
        rfl
      · refine ⟨d, m, s, config, _, rfl, readable, rfl, rfl, ?_, ?_⟩
        · have hnever := unhurried d m s _ config hp readable
          simp [Visit.ownWaiter, Visit.deadlineOf, hnever]
        · exact Inbox.idle_clear idle

/-- A wait goes on until something is in the inbox, and then it is decided. -/
theorem Awaits.advance (h : Awaits g x request k) (hstep : x.advance g' r l = some b) :
    (Awaits g b.1 request k ∧ b.1.context.inbox.slot = x.context.inbox.slot) ∨
      (x.context.inbox.slot ≠ none ∧ Settles b.1 k) := by
  rcases h.asks with ⟨d, m, s, config, w, hp, readable, hinteraction, hrequest, hdeadline, hsound⟩
  rw [advance_of_awaiting h.running hp] at hstep
  rcases Option.map_eq_some_iff.1 hstep with ⟨⟨inbox, w'⟩, hw, rfl⟩
  cases Inbox.Waiter.progress hsound hw with
  | waiting sound slot deadline =>
      left
      have hstays := Visit.ofWaiter_of_sound r sound
      refine ⟨⟨h.running, h.published, h.caseId, d, m, s, config, w', ?_, readable, hinteraction,
        hrequest, deadline.trans hdeadline, sound⟩, slot⟩
      simp [inVisit, hstays]
  | @served signal slot state idle =>
      right
      refine ⟨by simp [slot], h.running, h.published, h.caseId, ?_, idle⟩
      refine ⟨d, m, s, .humanInTheLoop, signal, ?_⟩
      simp [inVisit, Visit.ofWaiter, state]
  | expired _ due _ _ => simp [Inbox.Waiter.isDue, hdeadline] at due

/-- What is delivered to a wait is stored, if nothing was before. -/
theorem Awaits.deliver {x' : Execution} {signal : Signal} {disposition : Disposition}
    (h : Awaits g x request k) (slot : x.context.inbox.slot = none)
    (hdeliver : x.deliver signal = .ok (x', disposition)) :
    disposition = .accepted ∧ Awaits g x' request k ∧ x'.context.inbox.slot = some signal := by
  rcases h.asks with ⟨d, m, s, config, w, hp, readable, hinteraction, hrequest, hdeadline, hsound⟩
  rcases (deliver_cases hdeliver).2 slot with ⟨haccepted, hslot⟩
  rcases deliver_eq hdeliver with ⟨rfl, -⟩
  exact ⟨haccepted, ⟨h.running, h.published, h.caseId, d, m, s, config, w, hp, readable,
    hinteraction, hrequest, hdeadline, Inbox.Waiter.sound_deliver hsound signal⟩, hslot⟩

/-- A decision that is recorded leaves no question, one that is refused leaves it behind. -/
theorem Settles.advance (h : x.Settles k) (hstep : x.advance g r l = some b) :
    b.1.Rests k.activityCount ∧ b.1.phase.isReviewing = false ∧ b.1.context.inbox.Idle := by
  rcases h.decided with ⟨d, m, s, e, signal, hp⟩
  rw [advance_of_decided h.running hp] at hstep
  cases hstep
  cases happend : l.journal.append x.context.log.caseId (.signalConsumed s.stepId signal) with
  | error fault =>
      rw [settleDecision_of_refused happend]
      exact ⟨.failing rfl h.published rfl, rfl, h.idle⟩
  | ok j =>
      rw [settleDecision_of_kept happend]
      exact ⟨.silent rfl (Context.shows_applyDecision h.published h.caseId (Nat.le_refl _) signal),
        rfl, h.idle⟩

end Execution

/-! ## The two together -/

/-- Where somebody with a list of answers stands while a request is open. -/
inductive Attendant.Minds (r : Request) (k : Case) (rest : List String) :
    Attendant (List String) → Prop
  | looking {n : Nat} (new : n < k.activityCount) : Minds r k rest (.looking n rest)
  | thinking {i : Interaction} (asks : k.interaction = some i) : Minds r k rest (.thinking k i rest)
  /-- No answer is left. -/
  | done (spent : rest = []) :
      Minds r k rest (.done [] (.failed (.io (.other ("no scripted answer left for " ++ r.id)))))

open Execution Scene

/-- What the minutes and the answers that are left tell of an execution and whoever attends to
it. -/
inductive Attends (g : Engine) (m : Minutes) (rest : List String) : Scene (List String) → Prop
  /-- There is no question. -/
  | away {x : Execution} {l : Ledger} {n : Nat} (settled : m.open? = none) (rests : x.Rests n)
      (quiet : x.phase.isReviewing = false) (idle : x.context.inbox.Idle) :
      Attends g m rest ⟨x, l, .looking n rest⟩
  | asked {x : Execution} {l : Ledger} {a : Attendant (List String)} {r : Request} {k : Case}
      (unanswered : m.open? = some r) (awaits : Awaits g x r k)
      (slot : x.context.inbox.slot = none) (minds : a.Minds r k rest) :
      Attends g m rest ⟨x, l, a⟩
  /-- The answer is in the inbox. -/
  | answered {x : Execution} {l : Ledger} {r : Request} {k : Case} (settled : m.open? = none)
      (awaits : Awaits g x r k) (slot : x.context.inbox.slot ≠ none) :
      Attends g m rest ⟨x, l, .looking k.activityCount rest⟩
  | decided {x : Execution} {l : Ledger} {k : Case} (settled : m.open? = none)
      (settles : x.Settles k) : Attends g m rest ⟨x, l, .looking k.activityCount rest⟩
  | left {x : Execution} {l : Ledger} (settled : m.open? = none) (finished : x.isFinished = true) :
      Attends g m rest ⟨x, l, .done rest (.finished x.status)⟩

/-- Others may write to the ledger without any difference to who attends. -/
theorem Attends.elsewhere {g : Engine} {m : Minutes} {rest : List String} {x : Execution}
    {l : Ledger} {a : Attendant (List String)} (h : Attends g m rest ⟨x, l, a⟩) (l' : Ledger) :
    Attends g m rest ⟨x, l', a⟩ := by
  cases h with
  | away settled rests quiet idle => exact .away settled rests quiet idle
  | asked unanswered awaits slot minds => exact .asked unanswered awaits slot minds
  | answered settled awaits slot => exact .answered settled awaits slot
  | decided settled settles => exact .decided settled settles
  | left settled finished => exact .left settled finished

/-- The minutes of all that has happened, and the answers that are left. -/
structure Minuted (g : Engine) (answers : List String) (es : List Scene.Event)
    (c : Scene (List String)) (m : Minutes) (rest : List String) : Prop where
  exchanges : Scene.exchanges g.settings es = m.exchanges
  answers : answers = m.used ++ rest
  attends : Attends g m rest c

namespace Minuted

variable {g g' : Engine} {m : Minutes} {answers rest s s' : List String} {c : Scene (List String)}
variable {es : List Scene.Event} {e : Scene.Event} {x x' : Execution} {l l' : Ledger} {r : Readings}
variable {b : Execution × Ledger} {a : Attendant (List String)} {n : Nat} {k : Case}
variable {i : Interaction} {request : Request}

/-- Something happens of which the minutes tell nothing. -/
theorem quietly (h : Minuted g answers es c m rest) (silent : e.exchange? g.settings = none)
    {c' : Scene (List String)} (attends : Attends g m rest c') :
    Minuted g answers (es ++ [e]) c' m rest := by
  refine ⟨?_, h.answers, attends⟩
  rw [exchanges_concat, silent, h.exchanges]
  simp

/-- A review that has begun does not put its request again. -/
theorem request?_of_reviewing {settings : EngineSettings} (hp : x.phase.isReviewing = true) :
    x.request? settings = none := by
  cases hrequest : x.request? settings with
  | none => rfl
  | some request =>
      rcases of_request? hrequest with ⟨d, n, s, config, hentering, -⟩
      simp [hentering, Phase.isReviewing] at hp

/-- The execution takes a step. -/
theorem step (h : Minuted g answers es ⟨x, l, a⟩ m rest) (alike : g.Alike g')
    (straight : ∀ stepId fault, ¬ Astray x stepId fault) (unhurried : x.Unhurried g)
    (hstep : x.advance g' r l = some b) :
    ∃ m', Minuted g answers (es ++ [.around (.step x r l)]) ⟨b.1, b.2, a⟩ m' rest := by
  have hsilent : x.phase.isReviewing = true →
      (Scene.Event.around (.step x r l)).exchange? g.settings = none := by
    intro hp
    simp [Scene.Event.exchange?, request?_of_reviewing hp]
  -- A step asks, notices an answer or leaves the minutes as they are.
  cases h.attends with
  | away settled rests quiet idle =>
      cases hrequest : x.request? g.settings with
      | none =>
          have hunasked : x.request? g'.settings = none := by rw [alike.settings, hrequest]
          have hquiet := isReviewing_of_advance quiet hunasked hstep
          have hattended : Attended g' [] x := .away quiet idle
          have hidle := (hattended.advance (.refl g') hstep).idle hquiet
          refine ⟨m, h.quietly (by simp [Scene.Event.exchange?, hrequest]) ?_⟩
          exact .away settled (rests.advance quiet hunasked straight hstep) hquiet hidle
      | some request =>
          rcases awaits_of_request rests idle hrequest unhurried alike hstep with
            ⟨k, hawaits, hnew, hslot⟩
          refine ⟨m.ask request, ?_, h.answers, .asked rfl hawaits hslot (.looking hnew)⟩
          rw [exchanges_concat, h.exchanges, Minutes.exchanges_ask settled]
          simp [Scene.Event.exchange?, hrequest]
  | asked unanswered awaits slot minds =>
      rcases awaits.asks with ⟨d, n, s, config, w, hp, -⟩
      have hnothing := hsilent (by simp [hp, Phase.isReviewing])
      rcases awaits.advance hstep with ⟨hawaits, hslot⟩ | ⟨hfull, -⟩
      · exact ⟨m, h.quietly hnothing (.asked unanswered hawaits (hslot.trans slot) minds)⟩
      · exact absurd slot hfull
  | answered settled awaits slot =>
      rcases awaits.asks with ⟨d, n, s, config, w, hp, -⟩
      have hnothing := hsilent (by simp [hp, Phase.isReviewing])
      rcases awaits.advance hstep with ⟨hawaits, hslot⟩ | ⟨-, hsettles⟩
      · exact ⟨m, h.quietly hnothing (.answered settled hawaits (hslot ▸ slot))⟩
      · exact ⟨m, h.quietly hnothing (.decided settled hsettles)⟩
  | decided settled settles =>
      rcases settles.decided with ⟨d, n, s, e, signal, hp⟩
      have hnothing := hsilent (by simp [hp, Phase.isReviewing])
      rcases settles.advance hstep with ⟨hrests, hquiet, hidle⟩
      exact ⟨m, h.quietly hnothing (.away settled hrests hquiet hidle)⟩
  | left _ finished =>
      rw [running_iff.2 (running_of_advance hstep)] at finished
      cases finished

/-- An interaction that is seen is published, and new. -/
theorem of_unanswered? (hlook : x.unanswered? n = some (k, i)) :
    x.published = some k ∧ k.interaction = some i ∧ n < k.activityCount := by
  unfold Execution.unanswered? at hlook
  split at hlook
  · cases hlook
  · next k' hpublished =>
      split at hlook
      · next hnew =>
          rcases Option.map_eq_some_iff.1 hlook with ⟨i', hi, hpair⟩
          cases hpair
          exact ⟨hpublished, hi, hnew⟩
      · cases hlook

/-- An interaction is seen only if its request is open. -/
theorem look (h : Minuted g answers es ⟨x, l, .looking n s⟩ m rest)
    (hlook : x.unanswered? n = some (k, i)) :
    Minuted g answers (es ++ [.look]) ⟨x, l, .thinking k i s⟩ m rest := by
  rcases of_unanswered? hlook with ⟨hpublished, hi, hnew⟩
  refine h.quietly rfl ?_
  cases h.attends with
  | away _ rests _ _ => simp [rests.unanswered?] at hlook
  | asked unanswered awaits slot minds =>
      cases minds with
      | looking _ =>
          cases hpublished.symm.trans awaits.published
          exact .asked unanswered awaits slot (.thinking hi)
  | answered _ awaits _ =>
      cases hpublished.symm.trans awaits.published
      exact absurd hnew (Nat.lt_irrefl _)
  | decided _ settles =>
      cases hpublished.symm.trans settles.published
      exact absurd hnew (Nat.lt_irrefl _)

/-- The minutes end with the execution. -/
theorem leave (h : Minuted g answers es ⟨x, l, .looking n s⟩ m rest)
    (finished : x.isFinished = true) :
    Minuted g answers (es ++ [.leave]) ⟨x, l, .done s (.finished x.status)⟩ m rest := by
  have hended : x.status ≠ .running := by
    intro hrunning
    rw [running_iff.2 hrunning] at finished
    cases finished
  refine h.quietly rfl ?_
  cases h.attends with
  | away settled _ _ _ => exact .left settled finished
  | asked _ awaits _ minds => exact absurd awaits.running hended
  | answered _ awaits _ => exact absurd awaits.running hended
  | decided _ settles => exact absurd settles.running hended

/-- Whoever thinks about an answer thinks about the request that is open. -/
theorem of_thinking (h : Minuted g answers es ⟨x, l, .thinking k i s⟩ m rest) :
    s = rest ∧ x.context.inbox.slot = none ∧ m.open? = some (.ofInteraction k.caseId i) ∧
      Awaits g x (.ofInteraction k.caseId i) k := by
  cases h.attends with
  | asked unanswered awaits slot minds =>
      cases minds with
      | thinking hi =>
          rcases awaits.asks with ⟨d, n, s, config, w, hp, -, hinteraction, hrequest, -⟩
          cases hi.symm.trans hinteraction
          rw [awaits.caseId, ← hrequest]
          exact ⟨rfl, slot, unanswered, awaits⟩

/-- Without an answer left the request stays open. -/
theorem baffled {fault : Error} (h : Minuted g answers es ⟨x, l, .thinking k i s⟩ m rest)
    (hanswer : Handler.scripted.answer (.ofInteraction k.caseId i) s = (.error fault, s')) :
    Minuted g answers (es ++ [.leave]) ⟨x, l, .done s' (.failed fault)⟩ m rest := by
  rcases h.of_thinking with ⟨rfl, hslot, hopen, hawaits⟩
  refine h.quietly rfl ?_
  cases s with
  | nil =>
      cases hanswer
      exact .asked hopen hawaits hslot (.done rfl)
  | cons answer rest => cases hanswer

/-- The next answer of the list is delivered. -/
theorem tell {response : Response} {id : String} {t : Instant} {disposition : Disposition}
    (h : Minuted g answers es ⟨x, l, .thinking k i s⟩ m rest)
    (hanswer : Handler.scripted.answer (.ofInteraction k.caseId i) s = (.ok response, s'))
    (taken : x.deliver (.decision response.value id t) = .ok (x', disposition)) :
    ∃ m', Minuted g answers (es ++ [.tell (.decision response.value id t) disposition])
      ⟨x', l', .looking k.activityCount s'⟩ m' s' := by
  rcases h.of_thinking with ⟨rfl, hslot, hopen, hawaits⟩
  cases s with
  | nil => cases hanswer
  | cons answer rest =>
      cases hanswer
      rcases hawaits.deliver hslot taken with ⟨rfl, hawaits', hslot'⟩
      refine ⟨m.answer (.ofInteraction k.caseId i) answer, ?_, ?_,
        .answered rfl hawaits' (by simp [hslot'])⟩
      · rw [exchanges_concat, h.exchanges, Minutes.exchanges_answer hopen]
        rfl
      · simp [h.answers]

/-- One thing that happens, of which nobody else is the cause. -/
theorem shifts {c' : Scene (List String)} (h : Minuted g answers es c m rest)
    (straight : ∀ stepId fault, ¬ Astray c.execution stepId fault)
    (unhurried : c.execution.Unhurried g) (shift : Shifts g Handler.scripted c e c')
    (own : e.isForeign = false) : ∃ m' rest', Minuted g answers (es ++ [e]) c' m' rest' := by
  cases shift with
  | step alike hstep =>
      rcases h.step alike straight unhurried hstep with ⟨m', hm'⟩
      exact ⟨m', rest, hm'⟩
  | delivery _ => cases own
  | stop _ _ _ => cases own
  | elsewhere x l l' a => exact ⟨m, rest, h.quietly rfl (h.attends.elsewhere l')⟩
  | look hlook => exact ⟨m, rest, h.look hlook⟩
  | leave finished => exact ⟨m, rest, h.leave finished⟩
  | baffled hanswer => exact ⟨m, rest, h.baffled hanswer⟩
  | @tell x x' l k i s s' response id t disposition hanswer taken =>
      rcases h.tell hanswer taken with ⟨m', hm'⟩
      exact ⟨m', s', hm'⟩
  | @refused x l k i s s' response id t fault hanswer refusal =>
      -- Only an execution that is finished refuses.
      have hrunning := running_iff.2 h.of_thinking.2.2.2.running
      simp [Execution.deliver, hrunning] at refusal

/-! ## A whole run -/

theorem of_starts (starts : x.Starts) (l : Ledger) (answers : List String) :
    Minuted g answers [] ⟨x, l, .looking 0 answers⟩ {} answers := by
  refine ⟨rfl, rfl, ?_⟩
  rcases starts.launching with ⟨caseId, launch, entries, rfl⟩
  have hphase : (launching caseId launch entries).phase.isPastOpening = false ∧
      (launching caseId launch entries).phase.isReviewing = false := by
    unfold launching
    cases launch.isFresh <;> exact ⟨rfl, rfl⟩
  exact .away rfl (.unopened rfl rfl (by simp [hphase.1])) hphase.2 ⟨rfl, rfl⟩

/-- Whatever unfolds undisturbed is minuted. -/
theorem of_unfolds {x₀ : Execution} {l₀ : Ledger} (starts : x₀.Starts)
    (untimed : ∀ d, g.loader.load x₀.launch.processName x₀.launch.processVersion = .ok d →
      g.Untimed d)
    (straight : ∀ y, Reaches g x₀ y → ∀ stepId fault, ¬ Astray y stepId fault)
    (run : Unfolds g Handler.scripted ⟨x₀, l₀, .looking 0 answers⟩ es c)
    (undisturbed : Undisturbed es) : ∃ m rest, Minuted g answers es c m rest := by
  induction run with
  | refl => exact ⟨{}, answers, of_starts starts l₀ answers⟩
  | next before hshift ih =>
      rcases undisturbed_append.1 undisturbed with ⟨hbefore, hlast⟩
      rcases ih hbefore with ⟨m, rest, hm⟩
      have hreached := before.reaches
      exact hm.shifts (straight _ hreached) (unhurried_of_reaches starts untimed hreached) hshift
        (hlast _ (by simp))

end Minuted

/-- Nobody waits for the other in vain. -/
theorem Attends.moves {g g' : Engine} {m : Minutes} {rest s : List String} {x : Execution}
    {l l' : Ledger} {n : Nat} {r : Readings} (h : Attends g m rest ⟨x, l, .looking n s⟩)
    (closes : x.Closes) (seen : x.unanswered? n = none) (running : x.isFinished = false)
    (stuck : x.advance g' r l' = none) : False := by
  cases h with
  | away _ _ quiet _ =>
      have hawaiting : ¬ x.IsAwaiting := by
        rintro ⟨d, n, s, e, w, hp⟩
        simp [hp, Phase.isReviewing] at quiet
      have hunended : ∀ result, x.phase ≠ .ended result := by
        intro result hp
        simp [closes result hp] at running
      have hmoves := advance_isSome (g := g') (r := r) (l := l') (running_iff.1 running) hawaiting
        hunended
      simp [stuck] at hmoves
  | asked _ awaits _ minds =>
      cases minds with
      | looking new =>
          rcases awaits.asks with ⟨d, n, s, config, w, -, -, hinteraction, -⟩
          simp [Execution.unanswered?, awaits.published, new, hinteraction] at seen
  | answered _ awaits slot =>
      rcases awaits.asks with ⟨d, n, s, config, w, hp, -, -, -, -, hsound⟩
      rw [advance_of_awaiting awaits.running hp] at stuck
      exact Inbox.Waiter.advance_ne_none hsound slot r.time (by simpa using stuck)
  | decided _ settles =>
      rcases settles.decided with ⟨d, n, s, e, signal, hp⟩
      rw [advance_of_decided settles.running hp] at stuck
      cases stuck

def Host.approving : Host :=
  ((Host.new (.approving none) .empty default).start "case-1" "approval" "1" .null).1

def Request.approving : Request :=
  { id := "review_case-1"
    caseId := "case-1"
    prompt := "Approve?"
    submitUrl := some "/api/v1/cases/case-1/decision" }

end Casework
