import Casework.Proofs.Replay.Heads

/-!
# Shadows — where a replay stands while the first run goes on

A replay has the entries before it that the first run has yet to append.  It takes the same steps,
but not at the same time: what the first run waits for, asks for or records in several steps it
finds in the journal in one, so it stays at the beginning of a visit until the entry of the visit is
there.

* `Entered` : the first run is in a visit and has recorded nothing there;
* `Shadow` : where its replay stands;
* `level_advance`, `behind_advance` : from the same place, and from the beginning of a visit, the
  replay gets to the same place again, unless it stays behind;
* `Shadow.advance` : one step of the first run is followed by the replay.
-/

namespace Casework

namespace Execution

/-- An execution with these entries still to be replayed. -/
def withPending (x : Execution) (entries : List JournalEntry) : Execution :=
  { x with context := { x.context with log := { x.context.log with pending := entries } } }

end Execution

/-- Whether an execution stands at the same place, with these entries still to be replayed. -/
def AtLevel (x : Execution) (entries : List JournalEntry) (z : Execution) : Prop :=
  z = (x.withPending entries).core

/-- The second execution is in the visit that the first is about to begin, and nothing of the visit
has been recorded. -/
inductive Entered (g : Engine) (w x : Execution) : Prop
  | reviewing {d : Definition} {n : Nat} {s : StepDefinition} {config : ReviewConfig} {v : Visit}
      (hw : w.phase = .visiting d n s .humanInTheLoop .entering)
      (decodable : s.config ReviewConfig.decoder = .ok config)
      (context : x.context.core = (Visit.asking g.settings s config w.context).core)
      (hx : x.phase.core = (Phase.visiting d n s .humanInTheLoop v).core)
      (hv : (∃ waiter, v = .awaiting waiter) ∨ ∃ signal, v = .decided signal)
  | analysing {d : Definition} {n : Nat} {s : StepDefinition} {e : Option Enricher}
      {a : Option Enrichment} {t : Instant}
      (hw : w.phase = .visiting d n s (.caseEnrichment e) .entering)
      (context : x.context.core = w.context.core)
      (hx : x.phase.core = (Phase.visiting d n s (.caseEnrichment e) (.analysed a t)).core)
  | refused {d : Definition} {n : Nat} {s : StepDefinition} {e : Option Enricher} {fault : Error}
      (hw : w.phase = .visiting d n s (.caseEnrichment e) .entering)
      (context : x.context.core = w.context.core)
      (hx : x.phase.core =
          (Phase.visiting d n s (.caseEnrichment e) (.left (.error fault))).core ∨
        x.phase = .closing (.error fault))

/-- Where the replay of an execution stands that has these entries still before it. -/
inductive Shadow (g : Engine) (x : Execution) (entries : List JournalEntry) : Execution → Prop
  /-- At the same place. -/
  | level {z : Execution} (closed : x.phase.isOpen = false) (h : AtLevel x entries z) :
      Shadow g x entries z
  /-- At the beginning of the visit. -/
  | behind {z w : Execution} (running : w.status = .running)
      (launch : w.launch.core = x.launch.core) (entered : Entered g w x)
      (h : z = (w.withPending entries).core) : Shadow g x entries z
  /-- At the end, with an error of its own. -/
  | failed {z : Execution} {fault other : Error} (hx : x.phase = .ended (.error fault))
      (status : z.status = .failed other.message) (hz : z.phase = .ended (.error other))
      (context : z.context = (x.withPending entries).context.core) : Shadow g x entries z

section Step

open Execution

variable {g g₁ : Engine} {r : Readings} {x x' y z w : Execution} {l l' l₁ : Ledger}
variable {entries : List JournalEntry}

theorem Phase.isOpen_of_core {p p' : Phase} (h : p.core = p'.core) : p.isOpen = p'.isOpen := by
  cases Phase.twin_of_core h <;> rfl

theorem isOpen_of_core (h : x.core = y.core) : x.phase.isOpen = y.phase.isOpen :=
  Phase.isOpen_of_core (phase_of_core h)

theorem withPending_of_core (h : x.core = y.core) (entries : List JournalEntry) :
    (x.withPending entries).core = (y.withPending entries).core :=
  congrArg (fun z => z.withPending entries) h

/-- After a refusal nothing is open. -/
theorem isOpen_of_refused {d : Definition} {n : Nat} {s : StepDefinition} {e : Executor}
    {fault : Error}
    (hx : x.phase.core = (Phase.visiting d n s e (.left (.error fault))).core ∨
      x.phase = .closing (.error fault)) : x.phase.isOpen = false := by
  rcases hx with hx | hp
  · exact Phase.isOpen_of_core hx
  · rw [hp]
    rfl

/-- Shadows are of cores. -/
theorem Entered.of_core (h : Entered g w x) (hcore : x.core = y.core) : Entered g w y := by
  have hcontext := context_of_core hcore
  have hphase := phase_of_core hcore
  cases h with
  | reviewing hw decodable context hx hv =>
      exact .reviewing hw decodable (hcontext.symm.trans context) (hphase.symm.trans hx) hv
  | analysing hw context hx =>
      exact .analysing hw (hcontext.symm.trans context) (hphase.symm.trans hx)
  | refused hw context hx =>
      rcases hx with hx | hx
      · exact .refused hw (hcontext.symm.trans context) (.inl (hphase.symm.trans hx))
      · have htwin := Phase.twin_of_core hphase
        generalize hq : y.phase = q at htwin
        rw [hx] at htwin
        cases htwin
        exact .refused hw (hcontext.symm.trans context) (.inr hq)

/-- Only the core of an execution casts a shadow. -/
theorem Shadow.of_core (h : Shadow g x entries z) (hcore : x.core = y.core) :
    Shadow g y entries z := by
  cases h with
  | level closed hz =>
      exact .level ((isOpen_of_core hcore).symm.trans closed)
        (hz.trans (withPending_of_core hcore entries))
  | behind running launch entered hz =>
      exact .behind running (launch.trans (launch_of_core hcore)) (entered.of_core hcore) hz
  | failed hx status hz context =>
      have hcontext := context_of_core (withPending_of_core hcore entries)
      have htwin := Phase.twin_of_core (phase_of_core hcore)
      generalize hq : y.phase = q at htwin
      rw [hx] at htwin
      cases htwin
      exact .failed hq status hz (context.trans hcontext)

/-- While a visit is open, its shadow is where the visit begins. -/
theorem Shadow.behind_of_open (h : Shadow g x entries z) (hopen : x.phase.isOpen = true) :
    ∃ w, w.status = .running ∧ w.launch.core = x.launch.core ∧ Entered g w x ∧
      z = (w.withPending entries).core := by
  cases h with
  | level closed _ => cases closed.symm.trans hopen
  | @behind w running launch entered hz => exact ⟨w, running, launch, entered, hz⟩
  | failed hx _ _ _ =>
      rw [hx] at hopen
      cases hopen

/-- Without entries no entry is next. -/
theorem hasNext_of_live (live : x.pending = []) (kind : JournalEntry.Kind) :
    x.context.log.hasNext kind = false := by
  unfold pending at live
  simp [Log.hasNext, live]

/-! ## Inner steps by phase -/

def Phase.isInner : Phase → Bool
  | .opening | .dispatching _ _ _ => true
  | .visiting _ _ _ _ (.left _) => true
  | _ => false

/-- Some phases have inner steps only. -/
theorem inner_of_phase (h : x.phase.isInner = true) : x.Inner := by
  refine ⟨?_, ?_, ?_⟩
  · rintro ⟨d, n, s, e, v, hp⟩
    rw [hp] at h
    cases h
  · unfold asks
    split
    · next hp =>
        rw [hp] at h
        cases h
    · rfl
  · intro r
    unfold written?
    split <;> first | rfl | (next hp => rw [hp] at h; cases h)

/-- A visit that begins without asking is an inner step. -/
theorem inner_of_entering {d : Definition} {n : Nat} {s : StepDefinition} {e : Executor}
    (hp : x.phase = .visiting d n s e .entering) (hasks : x.asks = false) : x.Inner := by
  refine ⟨?_, hasks, ?_⟩
  · rintro ⟨d', n', s', e', v, hp'⟩
    rw [hp] at hp'
    cases hp'
  · intro r
    simp [written?, hp]

/-- The end that an earlier run has recorded is one, too. -/
theorem inner_of_next {result : Except Error Case} (hp : x.phase = .closing result)
    (h : ∀ r, x.context.log.hasNext (terminal r result).kind = true) : x.Inner := by
  refine ⟨?_, ?_, ?_⟩
  · rintro ⟨d, n, s, e, v, hp'⟩
    rw [hp] at hp'
    cases hp'
  · simp [asks, hp]
  · intro r
    exact written?_of_next hp (h r)

/-- The replay takes one step, to the same place. -/
theorem heads_level {before : List JournalEntry} (hy : y.core = (x.withPending before).core)
    (inner : (x.withPending before).Inner)
    (h : (x.withPending before).advance g r l = some (z, l₁))
    (hz : z.core = (x'.withPending entries).core) : Heads g (AtLevel x' entries) y := by
  have hheads : Heads g (AtLevel x' entries) (x.withPending before) := .step inner h (.here hz)
  exact hheads.of_core hy.symm

/-! ## Steps that the replay takes at once -/

/-- Opening the case keeps the replay at level. -/
theorem level_opening (r : Readings) (l : Ledger) (alike : g.Alike g₁)
    (hs : x.status = .running) (hp : x.phase = .opening)
    (hy : y.core = (x.withPending entries).core) :
    Heads g (AtLevel (x.openCase g₁) entries) y := by
  have hstep : (x.withPending entries).advance g r l =
      some ((x.withPending entries).openCase g, l) := advance_of_opening hs hp
  have hsame : (x.withPending entries).openCase g = (x.openCase g).withPending entries := by
    have hprepare : prepare g (x.withPending entries).launch = prepare g x.launch := rfl
    unfold openCase
    rw [hprepare]
    cases prepare g x.launch <;> rfl
  have hcore : (x.openCase g).core = (x.openCase g₁).core :=
    (core_openCase (.refl g) x).trans (core_openCase alike x).symm
  refine heads_level hy (inner_of_phase (by simp [withPending, hp, Phase.isInner])) hstep ?_
  rw [hsame]
  exact withPending_of_core hcore entries

/-- So does a dispatch. -/
theorem level_dispatching {d : Definition} {n : Nat} {stepId : String} (r : Readings)
    (l : Ledger) (alike : g.Alike g₁) (hs : x.status = .running)
    (hp : x.phase = .dispatching d n stepId)
    (hy : y.core = (x.withPending entries).core) :
    Heads g (AtLevel { x with phase := dispatch g₁ d n stepId } entries) y := by
  have hstep : (x.withPending entries).advance g r l =
      some ({ x.withPending entries with phase := dispatch g d n stepId }, l) :=
    advance_of_dispatching hs hp
  refine heads_level hy (inner_of_phase (by simp [withPending, hp, Phase.isInner])) hstep ?_
  exact core_ext rfl rfl (core_dispatch alike d n stepId).symm rfl

/-- So does what follows a visit. -/
theorem level_left {d : Definition} {n : Nat} {s : StepDefinition} {e : Executor}
    {result : Except Error Outcome} (r : Readings) (hs : x.status = .running)
    (hp : x.phase = .visiting d n s e (.left result))
    (hy : y.core = (x.withPending entries).core) :
    Heads g (AtLevel (x.betweenVisits (proceed x.context l d n s result)).1 entries) y := by
  have hstep : (x.withPending entries).advance g r l =
      some ((x.withPending entries).betweenVisits
        (proceed (x.withPending entries).context l d n s result)) := advance_of_left hs hp
  have hphase : (proceed (x.withPending entries).context l d n s result).1 =
      (proceed x.context l d n s result).1 := by
    cases result with
    | error fault => rfl
    | ok out => cases out <;> rfl
  refine heads_level hy (inner_of_phase (by simp [withPending, hp, Phase.isInner])) hstep ?_
  exact core_ext rfl rfl (congrArg Phase.core hphase) rfl

/-- The end that is recorded now is found by the replay, and taken. -/
theorem level_closing {result : Except Error Case} (l : Ledger) (hs : x.status = .running)
    (hp : x.phase = .closing result)
    (hy : y.core = (x.withPending (terminal r result :: entries)).core) :
    Heads g (AtLevel { x with phase := .ended result, status := .ofResult result } entries)
      y := by
  have hnext : ∀ r', (x.withPending (terminal r result :: entries)).context.log.hasNext
      (terminal r' result).kind = true := by
    intro r'
    rw [kind_terminal r' r]
    simp [withPending, Log.hasNext]
  have hstep := advance_of_closing (g := g) (r := r) (l := l)
    (x := x.withPending (terminal r result :: entries)) hs hp
  rw [finish_of_next (hnext r)] at hstep
  exact heads_level hy (inner_of_next hp hnext) hstep rfl

/-! ## Steps that the replay is behind -/

/-- A visit that asks nobody is the same for the replay.  Otherwise the replay stays where the visit
begins; if the visit is over even so, the collaborator has refused. -/
theorem level_entering {d : Definition} {n : Nat} {s : StepDefinition} {e : Executor}
    (hs : x.status = .running) (live : x.pending = [])
    (hp : x.phase = .visiting d n s e .entering) {out : Context × Ledger × Visit}
    (ways : Visit.Entering g.settings s r x.context l e out)
    (hy : y.core = (x.withPending entries).core) :
    ((x.inVisit d n s e out).1.phase.isOpen = false ∧
        Heads g (AtLevel (x.inVisit d n s e out).1 entries) y) ∨
      (Entered g x (x.inVisit d n s e out).1 ∧
        ((x.inVisit d n s e out).1.phase.isOpen = true ∨
          ∃ fault, x.sees r (x.inVisit d n s e out).1 = some (.refusal fault))) := by
  have hstep := advance_of_entering (g := g) (r := r) (l := l) (x := x.withPending entries) hs hp
  have hinner : (∀ enricher, e ≠ .caseEnrichment enricher) → (x.withPending entries).Inner := by
    intro he
    refine inner_of_entering hp ?_
    unfold asks
    split
    · next hq =>
        rw [show (x.withPending entries).phase = x.phase from rfl, hp] at hq
        cases hq
        exact absurd rfl (he _)
    · rfl
  -- The first run is live, so it takes nothing from a queue.
  have hempty : ∀ entry rest, x.context.log.pending ≠ entry :: rest := by
    intro entry rest hpending
    rw [pending, hpending] at live
    cases live
  -- Where nobody is asked there is one course, and the replay takes it too.  Where somebody is, the
  -- replay has to wait for the entry, unless the answer is refused and no entry comes.
  cases ways with
  | noQuestion decoded =>
      rw [Visit.enter_review, Visit.enterReview_of_fault decoded] at hstep
      exact .inl ⟨rfl, heads_level hy (hinner (by simp)) hstep rfl⟩
  | asking decoded _ =>
      exact .inr ⟨.reviewing hp decoded rfl rfl (.inl ⟨_, rfl⟩), .inl rfl⟩
  | decided _ recorded => exact absurd recorded (hempty _ _)
  | undecided _ recorded _ => exact absurd recorded (hempty _ _)
  | noStatus decoded =>
      rw [Visit.enter_commit] at hstep
      unfold Visit.commit at hstep
      rw [decoded] at hstep
      exact .inl ⟨rfl, heads_level hy (hinner (by simp)) hstep rfl⟩
  | committed decoded =>
      rw [Visit.enter_commit] at hstep
      unfold Visit.commit at hstep
      rw [decoded] at hstep
      exact .inl ⟨rfl, heads_level hy (hinner (by simp)) hstep rfl⟩
  | alone _ => exact .inr ⟨.analysing hp rfl rfl, .inl rfl⟩
  | answered _ _ _ => exact .inr ⟨.analysing hp rfl rfl, .inl rfl⟩
  | unopened _ _ =>
      have hseen : x.asks = true := by simp [asks, hp, live]
      exact .inr ⟨.refused hp rfl (.inl rfl), .inr ⟨_, by simp [sees, hp, inVisit, hseen]; rfl⟩⟩
  | refused _ _ _ =>
      have hseen : x.asks = true := by simp [asks, hp, live]
      exact .inr ⟨.refused hp rfl (.inl rfl), .inr ⟨_, by simp [sees, hp, inVisit, hseen]; rfl⟩⟩
  | analysed recorded _ => exact absurd recorded (hempty _ _)
  | unreadable recorded _ => exact absurd recorded (hempty _ _)
  | unanswered recorded _ => exact absurd recorded (hempty _ _)

/-- The decision that is recorded now is found by the replay, and applied. -/
theorem level_decided {d : Definition} {n : Nat} {s : StepDefinition} {e : Executor}
    {config : ReviewConfig} {signal : Signal} (r : Readings) (l l₁ : Ledger)
    (hs : w.status = .running)
    (launch : w.launch.core = x.launch.core) (running : x.status = .running)
    (hw : w.phase = .visiting d n s .humanInTheLoop .entering)
    (decodable : s.config ReviewConfig.decoder = .ok config)
    (context : x.context.core = (Visit.asking g.settings s config w.context).core)
    (he : e.core = Executor.humanInTheLoop.core)
    (hy : y.core = (w.withPending (.signalConsumed s.stepId signal :: entries)).core) :
    Heads g (AtLevel (x.inVisit d n s e
      (Visit.applyDecision x.context signal, l₁, Visit.leave s signal.value)).1 entries) y := by
  have hstep := advance_of_entering (g := g) (r := r) (l := l)
    (x := w.withPending (.signalConsumed s.stepId signal :: entries)) hs hw
  rw [Visit.enter_review, Visit.enterReview_of_recorded decodable rfl] at hstep
  have hinner : (w.withPending (.signalConsumed s.stepId signal :: entries)).Inner :=
    inner_of_entering hw (by simp [asks, withPending, hw])
  have hcontext := congrArg (fun c => ({ Visit.applyDecision c signal with
    log := { c.log with pending := entries } } : Context)) context.symm
  refine (Heads.step hinner hstep (.here ?_)).of_core hy.symm
  exact core_ext launch hcontext
    (Phase.core_visiting he.symm)
    (hs.trans running.symm)

/-- The answer that is recorded now is found by the replay, and merged. -/
theorem level_analysed {d : Definition} {n : Nat} {s : StepDefinition} {e : Option Enricher}
    {e' : Executor} {a : Option Enrichment} {t : Instant} (r : Readings) (l l₁ : Ledger)
    (hs : w.status = .running) (launch : w.launch.core = x.launch.core)
    (running : x.status = .running)
    (hw : w.phase = .visiting d n s (.caseEnrichment e) .entering)
    (context : x.context.core = w.context.core)
    (he : e'.core = (Executor.caseEnrichment e).core)
    (hy : y.core =
      (w.withPending (.activityCompleted s.stepId (toValue a) t :: entries)).core) :
    Heads g (AtLevel (x.inVisit d n s e'
      (Visit.applyEnrichment (x.context.advanceClock t) a, l₁, Visit.leave s none)).1 entries)
      y := by
  have hstep := advance_of_entering (g := g) (r := r) (l := l)
    (x := w.withPending (.activityCompleted s.stepId (toValue a) t :: entries)) hs hw
  rw [Visit.enter_enrichment, Visit.enterEnrichment_of_recorded rfl,
    Visit.recordedEnrichment_toValue] at hstep
  have hinner : (w.withPending (.activityCompleted s.stepId (toValue a) t :: entries)).Inner := by
    refine inner_of_entering hw ?_
    cases e <;> simp [asks, withPending, pending, hw]
  have hcontext := congrArg (fun c => Visit.applyEnrichment
    (({ c with log := { c.log with pending := entries } } : Context).advanceClock t) a)
    context.symm
  refine (Heads.step hinner hstep (.here ?_)).of_core hy.symm
  refine core_ext launch ?_
    (Phase.core_visiting he.symm)
    (hs.trans running.symm)
  -- An answer that is missing is recorded too, as null, and merges nothing.
  cases a with
  | none => exact hcontext
  | some a => exact hcontext

/-- An execution that fails while a failure is the next entry takes it and ends. -/
theorem heads_failed {other : Error} {text : String} {t : Instant} {P : Execution → Prop}
    (r : Readings) (l : Ledger) (hs : y.status = .running)
    (hp : y.phase = .closing (.error other)) (hpending : y.pending = .failed text t :: entries)
    (h : P ({ y.withPending entries with
      phase := .ended (.error other), status := .failed other.message } : Execution).core) :
    Heads g P y := by
  have hnext : ∀ r, y.context.log.hasNext (terminal r (.error other)).kind = true := by
    intro r
    unfold pending at hpending
    simp [Log.hasNext, hpending, terminal, JournalEntry.kind]
  have hstep := advance_of_closing (g := g) (r := r) (l := l) hs hp
  rw [finish_of_next (hnext r)] at hstep
  refine .step (inner_of_next hp hnext) hstep (.here ?_)
  have htail : y.context.log.tail = { y.context.log with pending := entries } := by
    unfold pending at hpending
    simp [Log.tail, hpending]
  rw [htail]
  exact h

/-- A step that was left with a fault heads for the failure that is recorded next. -/
theorem heads_failed_of_left {d : Definition} {n : Nat} {s : StepDefinition} {e : Executor}
    {other : Error} {text : String} {t : Instant} {P : Execution → Prop}
    (r : Readings) (l : Ledger) (hs : y.status = .running)
    (hp : y.phase = .visiting d n s e (.left (.error other)))
    (hpending : y.pending = .failed text t :: entries)
    (h : P ({ y.withPending entries with
      phase := .ended (.error other), status := .failed other.message } : Execution).core) :
    Heads g P y := by
  have hstep := advance_of_left (g := g) (r := r) (l := l) hs hp
  exact .step (inner_of_phase (by rw [hp]; rfl)) hstep (heads_failed r l hs rfl hpending h)

/-- Where an answer is due and a failure is recorded, the look-up fails, and takes the failure for
its own. -/
theorem heads_unanswered {d : Definition} {n : Nat} {s : StepDefinition} {e : Option Enricher}
    {text : String} {t : Instant} {P : Execution → Prop} (r : Readings) (l : Ledger)
    (hs : w.status = .running)
    (hw : w.phase = .visiting d n s (.caseEnrichment e) .entering)
    (hy : y.core = (w.withPending (.failed text t :: entries)).core)
    (h : P ({ w.withPending entries with
      phase := .ended (.error (Log.divergence s.stepId .activityCompleted (.failed text t)))
      status := .failed
        (Log.divergence s.stepId .activityCompleted (.failed text t)).message } : Execution).core) :
    Heads g P y := by
  -- The look-up for an answer diverges on the failure and leaves it where it is, so that the
  -- replay finds it next when it closes.
  have hother : ¬ (JournalEntry.failed text t).IsAnswerFor s.stepId := by
    rintro ⟨output, t', h⟩
    cases h
  have hinner : (w.withPending (.failed text t :: entries)).Inner := by
    refine inner_of_entering hw ?_
    cases e <;> simp [asks, withPending, pending, hw]
  have henter := advance_of_entering (g := g) (r := r) (l := l)
    (x := w.withPending (.failed text t :: entries)) hs hw
  rw [Visit.enter_enrichment, Visit.enterEnrichment_of_other rfl hother] at henter
  have hfailed : Heads g P (w.withPending (.failed text t :: entries)) :=
    .step hinner henter (heads_failed_of_left r l hs rfl rfl h)
  exact hfailed.of_core hy.symm

/-- The refusal that is recorded now is no answer, so the replay fails too, with another error. -/
theorem shadow_refused {d : Definition} {n : Nat} {s : StepDefinition} {e : Option Enricher}
    {fault : Error} {t : Instant} (r : Readings) (l : Ledger) (hs : w.status = .running)
    (hw : w.phase = .visiting d n s (.caseEnrichment e) .entering)
    (context : x.context.core = w.context.core) (hx : x.phase = .ended (.error fault))
    (hy : y.core = (w.withPending (.failed fault.message t :: entries)).core) :
    Heads g (Shadow g x entries) y := by
  have hcontext := congrArg (fun c => ({ c with
    log := { c.log with pending := entries } } : Context)) context.symm
  exact heads_unanswered r l hs hw hy (.failed hx rfl rfl hcontext)

/-! ## One step -/

/-- From the same place the replay takes the same step, or stays at the beginning of the visit. -/
theorem level_advance {b : Execution × Ledger} (closed : x.phase.isOpen = false)
    (hy : y.core = (x.withPending ((x.written? r).toList ++ entries)).core)
    (live : x.pending = []) (begun : x.phase ≠ .starting) (alike : g.Alike g₁)
    (kept : x.Kept r l) (h : x.advance g₁ r l = some b) :
    (b.1.phase.isOpen = false ∧ Heads g (AtLevel b.1 entries) y) ∨
      (x.written? r = none ∧ b.1.launch = x.launch ∧ Entered g x b.1 ∧
        (b.1.phase.isOpen = true ∨ ∃ fault, x.sees r b.1 = some (.refusal fault))) := by
  have hs := running_of_advance h
  -- A visit may begin with something that only its entry will tell the replay; all other steps are
  -- the same for both, the last one included, whose entry the replay finds in its queue.
  cases stepping h with
  | starting hp => exact absurd hp begun
  | opening hp =>
      have hquiet : x.written? r = none := by simp [written?, hp]
      rw [hquiet] at hy
      exact .inl ⟨phase_openCase g₁ x, level_opening r l alike hs hp hy⟩
  | @dispatching d n stepId hp =>
      have hquiet : x.written? r = none := by simp [written?, hp]
      rw [hquiet] at hy
      exact .inl ⟨phase_dispatch g₁ d n stepId, level_dispatching r l alike hs hp hy⟩
  | entering hp ways =>
      have hquiet : x.written? r = none := by simp [written?, hp]
      rw [hquiet] at hy
      rw [alike.settings] at ways
      rcases level_entering hs live hp ways hy with hlevel | hbehind
      · exact .inl hlevel
      · exact .inr ⟨hquiet, rfl, hbehind⟩
  | @left d n s e result hp =>
      have hquiet : x.written? r = none := by simp [written?, hp]
      rw [hquiet] at hy
      exact .inl ⟨phase_proceed x.context l d n s result, level_left r hs hp hy⟩
  | awaiting hp hw => simp [hp, Phase.isOpen, Visit.isOpen] at closed
  | decided hp => simp [hp, Phase.isOpen, Visit.isOpen] at closed
  | analysed hp => simp [hp, Phase.isOpen, Visit.isOpen] at closed
  | closing hp =>
      have hentry := written?_of_other (r := r) hp (hasNext_of_live live _)
      obtain ⟨j, happend, -⟩ := kept _ hentry
      rw [hentry] at hy
      rw [finish_of_kept (hasNext_of_live live _) happend]
      exact .inl ⟨rfl, level_closing l hs hp hy⟩

/-- A refusal leaves the visit without an entry; the replay learns of it by the failure. -/
theorem shadow_of_refused {b : Execution × Ledger} {d : Definition} {n : Nat}
    {s : StepDefinition} {e : Option Enricher} {fault : Error} (running : w.status = .running)
    (launch : w.launch.core = x.launch.core)
    (hw : w.phase = .visiting d n s (.caseEnrichment e) .entering)
    (context : x.context.core = w.context.core)
    (hx : x.phase.core =
        (Phase.visiting d n s (.caseEnrichment e) (.left (.error fault))).core ∨
      x.phase = .closing (.error fault))
    (hy : y.core = (w.withPending ((x.written? r).toList ++ entries)).core)
    (live : x.pending = []) (kept : x.Kept r l) (h : x.advance g₁ r l = some b) :
    Heads g (Shadow g b.1 entries) y := by
  have hs := running_of_advance h
  --  hp|The error is carried out of the visit first, and recorded with the step after that.
  rcases hx with hx | hp
  · have htwin := Phase.twin_of_core hx
    generalize hp : x.phase = p at htwin
    cases htwin with
    | left he _ =>
        have hquiet : x.written? r = none := by simp [written?, hp]
        rw [hquiet] at hy
        rw [advance_of_left hs hp] at h
        cases h
        exact .here (.behind running launch (.refused hw context (.inr rfl)) hy)
  · have hentry := written?_of_other (r := r) hp (hasNext_of_live live _)
    obtain ⟨j, happend, -⟩ := kept _ hentry
    rw [hentry] at hy
    rw [advance_of_closing hs hp, finish_of_kept (hasNext_of_live live _) happend] at h
    cases h
    exact shadow_refused r l running hw context rfl hy

/-- While a visit is open, the replay stays where it is until the entry of the visit is recorded,
and takes it then. -/
theorem behind_advance {b : Execution × Ledger} (running : w.status = .running)
    (launch : w.launch.core = x.launch.core) (entered : Entered g w x)
    (hopen : x.phase.isOpen = true)
    (hy : y.core = (w.withPending ((x.written? r).toList ++ entries)).core)
    (kept : x.Kept r l) (h : x.advance g₁ r l = some b) :
    (b.1.phase.isOpen = false ∧ Heads g (AtLevel b.1 entries) y) ∨
      (b.1.phase.isOpen = true ∧ x.written? r = none ∧ b.1.launch = x.launch ∧
        Entered g w b.1) := by
  have hs := running_of_advance h
  -- A visit appends at most once, with the step that closes it, and that is when the replay catches
  -- up.
  cases entered with
  | reviewing hw decodable context hx hv =>
      have htwin := Phase.twin_of_core hx
      generalize hp : x.phase = p at htwin
      rcases hv with ⟨waiter, rfl⟩ | ⟨signal, rfl⟩
      · cases htwin with
        | awaiting he v _ =>
            have hquiet : x.written? r = none := by simp [written?, hp]
            rw [advance_of_awaiting hs hp] at h
            obtain ⟨out, -, hout⟩ := Option.map_eq_some_iff.1 h
            cases hout
            have hways := (Visit.ofWaiter_cases r out.2).symm
            refine .inr ⟨?_, hquiet, rfl,
              .reviewing hw decodable context (Phase.core_visiting he) hways⟩
            rcases hways with ⟨w', hw'⟩ | ⟨signal, hsignal⟩
            · simp [inVisit, hw', Phase.isOpen, Visit.isOpen]
            · simp [inVisit, hsignal, Phase.isOpen, Visit.isOpen]
      · cases htwin with
        | decided he _ =>
            have hentry := written?_of_decided (r := r) hp
            obtain ⟨j, happend, -⟩ := kept _ hentry
            rw [hentry] at hy
            rw [advance_of_decided hs hp, settleDecision_of_kept happend] at h
            cases h
            exact .inl ⟨rfl, level_decided r l _ running launch hs hw decodable context he hy⟩
  | analysing hw context hx =>
      have htwin := Phase.twin_of_core hx
      generalize hp : x.phase = p at htwin
      cases htwin with
      | analysed he _ _ =>
          have hentry := written?_of_analysed (r := r) hp
          obtain ⟨j, happend, -⟩ := kept _ hentry
          rw [hentry] at hy
          rw [advance_of_analysed hs hp, settleEnrichment_of_kept happend] at h
          cases h
          exact .inl ⟨rfl, level_analysed r l _ running launch hs hw context he hy⟩
  | refused hw context hx => cases hopen.symm.trans (isOpen_of_refused hx)

/-- One step of the first run is followed by the replay, which does not notice what it takes. -/
theorem Shadow.advance {b : Execution × Ledger}
    (shadow : Shadow g x ((x.written? r).toList ++ entries) y.core)
    (live : x.pending = []) (begun : x.phase ≠ .starting) (alike : g.Alike g₁)
    (kept : x.Kept r l) (h : x.advance g₁ r l = some b) :
    Heads g (Shadow g b.1 entries) y := by
  -- The replay moves along, falls behind where a visit opens, and catches up where it closes.
  cases shadow with
  | level closed hy =>
      rcases level_advance closed hy live begun alike kept h with
        ⟨hclosed, hlevel⟩ | ⟨hquiet, hlaunch, hentered, -⟩
      · exact hlevel.mono fun _ hz => .level hclosed hz
      · rw [hquiet] at hy
        exact .here (.behind (running_of_advance h) (by rw [hlaunch]) hentered hy)
  | behind running launch entered hy =>
      cases hopen : x.phase.isOpen with
      | true =>
          rcases behind_advance running launch entered hopen hy kept h with
            ⟨hclosed, hlevel⟩ | ⟨-, hquiet, hlaunch, hentered⟩
          · exact hlevel.mono fun _ hz => .level hclosed hz
          · rw [hquiet] at hy
            exact .here (.behind running (hlaunch ▸ launch) hentered hy)
      | false =>
          cases entered with
          | refused hw context hx =>
              exact shadow_of_refused running launch hw context hx hy live kept h
          | reviewing _ _ _ hx hv =>
              rcases hv with ⟨waiter, rfl⟩ | ⟨signal, rfl⟩
              · cases hopen.symm.trans (Phase.isOpen_of_core hx)
              · cases hopen.symm.trans (Phase.isOpen_of_core hx)
          | analysing _ _ hx => cases hopen.symm.trans (Phase.isOpen_of_core hx)
  | failed hx status hz context =>
      rw [advance_of_ended hx] at h
      cases h

end Step

end Casework
