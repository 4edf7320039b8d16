import Casework.Proofs.Execution.Trace
import Casework.Proofs.Walk.Session
import Mathlib.Data.List.Induction

/-!
# The limit on dispatches — runs with a limit and runs without one

Whether and how far an execution gets depends on what comes from outside.  Here this is fixed in
advance, so that the same execution can be run with one limit, with another, and with none.

* `Engine.withLimit`, `Execution.advanceWithin` : another limit, or none;
* `Stimulus`, `Journey`, `Journey.run` : what comes from outside, and what comes of it;
* `Execution.AsksFor` : having dispatched so many steps, it is about to dispatch one more;
* `Journey.lockstep` : two runs are the same until one of them asks for more than its limit;
* `Halting` : what becomes of it then.
-/

namespace Casework

/-! ## Engines that differ in their limit or in the answers they get -/

namespace Engine

def withLimit (g : Engine) (n : Nat) : Engine :=
  { g with settings := { g.settings with maxSteps := n } }

end Engine

/-- The executor with somebody else in the place of its collaborator, if it has one. -/
def Executor.answering (collaborator : Enricher) : Executor → Executor
  | .caseEnrichment (some _) => .caseEnrichment (some collaborator)
  | e => e

/-- The engine with somebody else in the place of its collaborators. -/
def Engine.answering (g : Engine) (collaborator : Enricher) : Engine :=
  { g with registry := g.registry.map fun entry => (entry.1, entry.2.answering collaborator) }

/-- Who answers does not count for what an executor is. -/
theorem Executor.core_answering (collaborator : Enricher) (e : Executor) :
    (e.answering collaborator).core = e.core := by
  cases e with
  | caseEnrichment enricher => cases enricher <;> rfl
  | _ => rfl

/-- Another collaborator makes another engine that is alike. -/
theorem Engine.alike_answering (g : Engine) (collaborator : Enricher) :
    g.Alike (g.answering collaborator) := by
  refine ⟨rfl, rfl, ?_⟩
  intro tag
  simp only [answering, Registry.executor?, Table.get?, List.find?_map, Option.map_map]
  congr 1
  funext entry
  exact Executor.core_answering collaborator entry.2

/-! ## Atomic steps without a limit -/

namespace Execution

/-- Dispatches a step, however many were dispatched before. -/
def attempt (g : Engine) (d : Definition) (dispatched : Nat) (stepId : String) : Phase :=
  match selectStep g d stepId with
  | .error e => .closing (.error e)
  | .ok (s, e) => .visiting d (dispatched + 1) s e .entering

/-- The next atomic step under a limit on dispatches, or under none. -/
def advanceWithin (limit : Option Nat) (g : Engine) (r : Readings) (x : Execution) (l : Ledger) :
    Option (Execution × Ledger) :=
  match limit, x.phase with
  | some n, _ => x.advance (g.withLimit n) r l
  | none, .dispatching d k stepId =>
      if x.isFinished then none else some ({ x with phase := attempt g d k stepId }, l)
  | none, _ => x.advance g r l

/-- Whether an execution is about to dispatch a step after this number of dispatches. -/
def AsksFor (x : Execution) (n : Nat) : Prop :=
  ∃ d stepId, x.phase = .dispatching d n stepId

instance (x : Execution) (n : Nat) : Decidable (x.AsksFor n) :=
  match h : x.phase with
  | .dispatching d k stepId =>
      if hk : k = n then .isTrue ⟨d, stepId, by rw [h, hk]⟩
      else .isFalse fun ⟨_, _, h'⟩ => hk (by rw [h] at h'; cases h'; rfl)
  | .starting | .opening | .visiting _ _ _ _ _ | .closing _ | .ended _ =>
      .isFalse fun ⟨_, _, h'⟩ => by rw [h] at h'; cases h'

def Overruns (x : Execution) (n : Nat) : Prop :=
  x.phase = .closing (.error (.stepLimitExceeded n)) ∨
    x.phase = .ended (.error (.stepLimitExceeded n))

end Execution

/-- How many steps were dispatched before, as long as it matters. -/
def Phase.dispatched : Phase → Nat
  | .dispatching _ k _ | .visiting _ k _ _ _ => k
  | _ => 0

namespace Execution

variable {g : Engine} {r : Readings} {x x' : Execution} {l l' : Ledger} {b : Execution × Ledger}
variable {n m k : Nat}

/-- The limit on dispatches is looked at between visits, not in them. -/
theorem advance_visit_withLimit (settings : EngineSettings) (n : Nat) (e : Executor)
    (s : StepDefinition) (r : Readings) (c : Context) (l : Ledger) (v : Visit) :
    v.advance { settings with maxSteps := n } e s r c l = v.advance settings e s r c l := by
  cases v with
  | entering => cases e <;> rfl
  | _ => rfl

/-- A limit matters only where it is reached. -/
theorem advance_withLimit (g : Engine) (r : Readings) (l : Ledger)
    (h : ∀ k, x.AsksFor k → k < n ∧ k < m) :
    x.advance (g.withLimit n) r l = x.advance (g.withLimit m) r l := by
  have hvisit : ∀ e s c v, Visit.advance (g.withLimit n).settings e s r c l v =
      Visit.advance (g.withLimit m).settings e s r c l v := by
    intro e s c v
    exact (advance_visit_withLimit g.settings n e s r c l v).trans
      (advance_visit_withLimit g.settings m e s r c l v).symm
  unfold advance
  cases hp : x.phase with
  | dispatching d k stepId =>
      obtain ⟨hn, hm⟩ := h k ⟨d, stepId, hp⟩
      have hdispatch : dispatch (g.withLimit n) d k stepId = dispatch (g.withLimit m) d k stepId :=
        (if_neg (Nat.not_le.2 hn)).trans (if_neg (Nat.not_le.2 hm)).symm
      simp only [hdispatch]
  | visiting d k s e v =>
      cases v with
      | left result => rfl
      | _ => simp only [hvisit]
  | _ => rfl

/-- Without a limit a step is taken as under one that is not reached. -/
theorem advanceWithin_none (g : Engine) (r : Readings) (x : Execution) (l : Ledger) :
    x.advanceWithin none g r l = x.advance (g.withLimit (x.phase.dispatched + 1)) r l := by
  unfold advanceWithin
  split
  · next h => cases h
  · next d k stepId _ hp =>
      have hdispatch : dispatch (g.withLimit (k + 1)) d k stepId = attempt g d k stepId :=
        if_neg (by simp [Engine.withLimit])
      simp only [advance, hp, Phase.dispatched, hdispatch]
  · next hdispatching =>
      refine advance_withLimit (n := g.settings.maxSteps) g r l ?_
      rintro k ⟨d, stepId, hp⟩
      exact (hdispatching d k stepId hp).elim

/-- Under whatever limit, a step is taken as under some number. -/
theorem exists_withLimit (limit : Option Nat) (g : Engine) (r : Readings) (x : Execution)
    (l : Ledger) : ∃ n, x.advanceWithin limit g r l = x.advance (g.withLimit n) r l := by
  cases limit with
  | none => exact ⟨_, advanceWithin_none g r x l⟩
  | some n => exact ⟨n, rfl⟩

def Allows (limit : Option Nat) (k : Nat) : Prop :=
  ∀ n, limit = some n → k < n

/-- A step that stays within the limit is the same as under a limit that lets just one more through.
-/
theorem advanceWithin_eq {limit : Option Nat} (g : Engine) (r : Readings) (l : Ledger)
    (h : ∀ k, x.AsksFor k → Allows limit k) :
    x.advanceWithin limit g r l = x.advance (g.withLimit (x.phase.dispatched + 1)) r l := by
  cases limit with
  | none => exact advanceWithin_none g r x l
  | some n =>
      refine advance_withLimit g r l ?_
      intro k hasks
      refine ⟨h k hasks n rfl, ?_⟩
      obtain ⟨d, stepId, hp⟩ := hasks
      simp [hp, Phase.dispatched]

/-- Where one limit and another let the next step be dispatched, they are the same. -/
theorem advanceWithin_congr {limit limit' : Option Nat} (g : Engine) (r : Readings) (l : Ledger)
    (h : ∀ k, x.AsksFor k → Allows limit k ∧ Allows limit' k) :
    x.advanceWithin limit g r l = x.advanceWithin limit' g r l := by
  rw [advanceWithin_eq g r l fun k hk => (h k hk).1, advanceWithin_eq g r l fun k hk => (h k hk).2]

end Execution

/-! ## Journeys -/

inductive Stimulus where
  /-- Time for an atomic step, with the collaborator to ask and what the outside world shows. -/
  | tick (collaborator : Enricher) (r : Readings)
  | signal (s : Signal)

def Stimulus.isTick : Stimulus → Bool
  | .tick _ _ => true
  | .signal _ => false

/-- An execution on its way, with the steps whose executors it has called. -/
structure Journey where
  execution : Execution
  ledger : Ledger
  calls : List String := []

namespace Journey

/-- What comes of one stimulus.  A step that cannot be taken and a signal that is refused leave
everything as it is. -/
def next (limit : Option Nat) (g : Engine) (c : Journey) : Stimulus → Journey
  | .tick collaborator r =>
      match c.execution.advanceWithin limit (g.answering collaborator) r c.ledger with
      | some (x, l) => ⟨x, l, c.calls ++ c.execution.entering⟩
      | none => c
  | .signal s =>
      match c.execution.deliver s with
      | .ok (x, _) => { c with execution := x }
      | .error _ => c

def run (limit : Option Nat) (g : Engine) (c : Journey) (ss : List Stimulus) : Journey :=
  ss.foldl (next limit g) c

variable {g : Engine} {c c' : Journey} {limit limit' : Option Nat} {s : Stimulus}
variable {ss : List Stimulus} {n m k t : Nat}

theorem run_append (ss₁ ss₂ : List Stimulus) :
    c.run limit g (ss₁ ++ ss₂) = (c.run limit g ss₁).run limit g ss₂ :=
  List.foldl_append

theorem run_concat (ss : List Stimulus) (s : Stimulus) :
    c.run limit g (ss ++ [s]) = (c.run limit g ss).next limit g s := by
  simp [run]

inductive Goes (limit : Option Nat) (g : Engine) (c : Journey) : Stimulus → Journey → Prop
  | step {collaborator : Enricher} {r : Readings} {b : Execution × Ledger}
      (h : c.execution.advanceWithin limit (g.answering collaborator) r c.ledger = some b) :
      Goes limit g c (.tick collaborator r) ⟨b.1, b.2, c.calls ++ c.execution.entering⟩
  | rest {collaborator : Enricher} {r : Readings}
      (h : c.execution.advanceWithin limit (g.answering collaborator) r c.ledger = none) :
      Goes limit g c (.tick collaborator r) c
  | delivery {s : Signal} {x : Execution} {disposition : Disposition}
      (h : c.execution.deliver s = .ok (x, disposition)) :
      Goes limit g c (.signal s) { c with execution := x }
  | refusal {s : Signal} {fault : Error} (h : c.execution.deliver s = .error fault) :
      Goes limit g c (.signal s) c

theorem goes (limit : Option Nat) (g : Engine) (c : Journey) (s : Stimulus) :
    Goes limit g c s (c.next limit g s) := by
  cases s with
  | tick collaborator r =>
      cases h : c.execution.advanceWithin limit (g.answering collaborator) r c.ledger with
      | none => simpa [next, h] using Goes.rest h
      | some b => simpa [next, h] using Goes.step h
  | signal s =>
      cases h : c.execution.deliver s with
      | ok out => simpa [next, h] using Goes.delivery h
      | error fault => simpa [next, h] using Goes.refusal h

end Journey

/-! ## Counting -/

/-- How many executors have been called where an execution stands. -/
inductive Counts : Nat → Phase → Prop
  | starting : Counts 0 .starting
  | opening : Counts 0 .opening
  | dispatching (d : Definition) (k : Nat) (stepId : String) : Counts k (.dispatching d k stepId)
  | entering (d : Definition) (k : Nat) (s : StepDefinition) (e : Executor) :
      Counts k (.visiting d (k + 1) s e .entering)
  | inside (d : Definition) (k : Nat) (s : StepDefinition) (e : Executor) {v : Visit}
      (begun : v ≠ .entering) : Counts k (.visiting d k s e v)
  | closing (k : Nat) (result : Except Error Case) : Counts k (.closing result)
  | ended (k : Nat) (result : Except Error Case) : Counts k (.ended result)

/-- A visit that has begun does not begin again. -/
theorem Visit.begun_of_entering {settings : EngineSettings} {e : Executor} {s : StepDefinition}
    {r : Readings} {c : Context} {l : Ledger} {out : Context × Ledger × Visit}
    (h : Visit.Entering settings s r c l e out) : out.2.2 ≠ .entering := by
  cases h <;> simp [leave]

theorem Visit.begun_ofWaiter (r : Readings) (w : Inbox.Waiter) : ofWaiter r w ≠ .entering := by
  rcases ofWaiter_cases r w with ⟨signal, h⟩ | ⟨w', h⟩ <;> simp [h]

theorem Visit.begun_settleDecision (s : StepDefinition) (c : Context) (l : Ledger)
    (signal : Signal) : (settleDecision s c l signal).2.2 ≠ .entering := by
  unfold settleDecision
  split <;> simp [leave]

theorem Visit.begun_settleEnrichment (s : StepDefinition) (c : Context) (l : Ledger)
    (a : Option Enrichment) (t : Instant) : (settleEnrichment s c l a t).2.2 ≠ .entering := by
  unfold settleEnrichment
  split <;> simp [leave]

section Counts

open Execution

variable {g : Engine} {r : Readings} {x x' : Execution} {l l' : Ledger} {b : Execution × Ledger}
variable {d : Definition} {s : StepDefinition} {e : Executor} {v : Visit} {n k j : Nat}

/-- The count is told by the dispatch that is asked for. -/
theorem Counts.eq_of_asksFor (h : Counts k x.phase) (hasks : x.AsksFor n) : k = n := by
  obtain ⟨d, stepId, hp⟩ := hasks
  rw [hp] at h
  cases h
  rfl

/-- In a visit the count is kept in the phase. -/
theorem Counts.eq_of_begun (h : Counts k (.visiting d j s e v)) (begun : v ≠ .entering) :
    k = j := by
  cases h with
  | entering => exact absurd rfl begun
  | inside => rfl

/-- An executor is called where a visit begins, and nowhere else. -/
theorem Counts.advance (counts : Counts k x.phase) (h : x.advance g r l = some b) :
    Counts (k + x.entering.length) b.1.phase := by
  -- Only where a visit is entered is one more counted than was before.
  cases stepping h with
  | starting hp =>
      rw [hp] at counts
      cases counts
      simp only [Execution.entering, hp, start]
      split
      · exact .opening
      · exact .closing _ _
  | opening hp =>
      rw [hp] at counts
      cases counts
      simp only [Execution.entering, hp, openCase]
      split
      · exact .closing _ _
      · exact .dispatching _ 0 _
  | dispatching hp =>
      rw [hp] at counts
      cases counts
      simp only [Execution.entering, hp, dispatch]
      split
      · exact .closing _ _
      · split
        · exact .closing _ _
        · exact .entering _ _ _ _
  | entering hp ways =>
      rw [hp] at counts
      cases counts with
      | inside _ _ _ _ begun => exact absurd rfl begun
      | entering =>
          simp only [Execution.entering, hp]
          exact .inside _ _ _ _ (Visit.begun_of_entering ways)
  | awaiting hp hw =>
      rw [hp] at counts
      obtain rfl := counts.eq_of_begun (by simp)
      simp only [Execution.entering, hp]
      exact .inside _ _ _ _ (Visit.begun_ofWaiter _ _)
  | decided hp =>
      rw [hp] at counts
      obtain rfl := counts.eq_of_begun (by simp)
      simp only [Execution.entering, hp]
      exact .inside _ _ _ _ (Visit.begun_settleDecision _ _ _ _)
  | analysed hp =>
      rw [hp] at counts
      obtain rfl := counts.eq_of_begun (by simp)
      simp only [Execution.entering, hp]
      exact .inside _ _ _ _ (Visit.begun_settleEnrichment _ _ _ _ _)
  | left hp =>
      rw [hp] at counts
      obtain rfl := counts.eq_of_begun (by simp)
      simp only [Execution.entering, hp, betweenVisits, proceed]
      split
      · exact .closing _ _
      · exact .dispatching _ _ _
      · exact .closing _ _
  | closing hp =>
      simp only [Execution.entering, hp]
      exact .ended _ _

/-- What is called is what was dispatched last. -/
theorem Counts.called (h : Counts k x.phase) :
    x.entering.length = 0 ∨ k + x.entering.length = x.phase.dispatched := by
  cases hp : x.phase with
  | visiting d j s e v =>
      cases v with
      | entering =>
          rw [hp] at h
          cases h with
          | entering => simp [Execution.entering, hp, Phase.dispatched]
          | inside _ _ _ _ begun => exact absurd rfl begun
      | _ => simp [Execution.entering, hp]
  | _ => simp [Execution.entering, hp]

/-- With a limit no more steps are dispatched. -/
theorem Execution.dispatched_le_of_advance (few : x.phase.dispatched ≤ g.settings.maxSteps)
    (h : x.advance g r l = some b) : b.1.phase.dispatched ≤ g.settings.maxSteps := by
  cases stepping h with
  | starting hp =>
      unfold start
      split <;> simp [Phase.dispatched]
  | opening hp =>
      unfold openCase
      split <;> simp [Phase.dispatched]
  | dispatching hp =>
      simp only [dispatch]
      split
      · simp [Phase.dispatched]
      · split
        · simp [Phase.dispatched]
        · simp only [Phase.dispatched]
          omega
  | left hp =>
      simp only [hp, Phase.dispatched] at few
      simp only [betweenVisits, proceed]
      split <;> simp [Phase.dispatched, few]
  | closing hp => exact Nat.zero_le _
  | entering hp _ | awaiting hp _ | decided hp | analysed hp =>
      simpa [hp, inVisit, Phase.dispatched] using few

/-- Whether an execution will never again dispatch a step after this number of dispatches. -/
def Phase.IsPast (n : Nat) : Phase → Prop
  | .closing _ | .ended _ => True
  | p => n < p.dispatched

/-- An execution that went past a limit stays past it. -/
theorem Execution.isPast_of_advance (past : x.phase.IsPast n) (h : x.advance g r l = some b) :
    b.1.phase.IsPast n := by
  cases stepping h with
  | starting hp => simp [hp, Phase.IsPast, Phase.dispatched] at past
  | opening hp => simp [hp, Phase.IsPast, Phase.dispatched] at past
  | dispatching hp =>
      simp only [hp, Phase.IsPast, Phase.dispatched] at past
      simp only [dispatch]
      split
      · trivial
      · split
        · trivial
        · simp only [Phase.IsPast, Phase.dispatched]
          omega
  | left hp =>
      simp only [hp, Phase.IsPast, Phase.dispatched] at past
      simp only [betweenVisits, proceed]
      split <;> simp [Phase.IsPast, Phase.dispatched, past]
  | closing hp => trivial
  | entering hp _ | awaiting hp _ | decided hp | analysed hp =>
      simpa [hp, inVisit, Phase.IsPast, Phase.dispatched] using past

end Counts

namespace Journey

open Execution

variable {g : Engine} {c c' : Journey} {limit limit' : Option Nat} {s : Stimulus}
variable {ss : List Stimulus} {n m k t : Nat}

/-- What is kept whatever comes from outside holds in the end. -/
theorem run_keeps {P : Journey → Prop} (keeps : ∀ c s c', P c → Goes limit g c s c' → P c')
    (h : P c) (ss : List Stimulus) : P (c.run limit g ss) := by
  induction ss generalizing c with
  | nil => exact h
  | cons s ss ih => exact ih (keeps c s _ h (c.goes limit g s))

/-- What the phase of an execution tells of its calls and of its status. -/
structure Counted (c : Journey) : Prop where
  calls : Counts c.calls.length c.execution.phase
  status : c.execution.status = .running ∨
    ∃ result, c.execution.phase = .ended result ∧ c.execution.status = .ofResult result

/-- A journey begins with nothing called. -/
theorem counted_of_starts {x : Execution} (starts : x.Starts) (l : Ledger) :
    Counted ⟨x, l, []⟩ := by
  obtain ⟨caseId, launch, entries, rfl⟩ := starts.launching
  refine ⟨?_, .inl rfl⟩
  unfold launching
  cases launch.isFresh
  · exact .opening
  · exact .starting

/-- The count goes up with every call and with nothing else. -/
theorem Counted.goes (h : c.Counted) (goes : Goes limit g c s c') : c'.Counted := by
  cases goes with
  | @step collaborator r b hstep =>
      obtain ⟨m, hlimit⟩ :=
        exists_withLimit limit (g.answering collaborator) r c.execution c.ledger
      rw [hlimit] at hstep
      refine ⟨?_, status_of_advance hstep⟩
      rw [List.length_append]
      exact h.calls.advance hstep
  | rest _ => exact h
  | delivery hdeliver =>
      obtain ⟨-, inbox, rfl⟩ := of_deliver hdeliver
      exact ⟨h.calls, h.status⟩
  | refusal _ => exact h

/-- Until it has ended an execution of a journey runs. -/
theorem Counted.running (h : c.Counted) (unended : ∀ result, c.execution.phase ≠ .ended result) :
    c.execution.status = .running := by
  rcases h.status with hrunning | ⟨result, hended, -⟩
  · exact hrunning
  · exact absurd hended (unended result)

/-- The count is kept along a journey. -/
theorem Counted.run (h : c.Counted) (ss : List Stimulus) : (c.run limit g ss).Counted :=
  run_keeps (fun _ _ _ hc goes => hc.goes goes) h ss

theorem unended_of_asksFor (h : c.execution.AsksFor n) (result : Except Error Case) :
    c.execution.phase ≠ .ended result := by
  obtain ⟨d, stepId, hp⟩ := h
  simp [hp]

/-- What a limit does to a journey that it has been with from the start. -/
structure Within (n : Nat) (c : Journey) : Prop where
  counted : c.Counted
  dispatched : c.execution.phase.dispatched ≤ n
  calls : c.calls.length ≤ n

/-- A journey begins within every limit. -/
theorem within_of_starts {x : Execution} (starts : x.Starts) (l : Ledger) (n : Nat) :
    Within n ⟨x, l, []⟩ := by
  refine ⟨counted_of_starts starts l, ?_, Nat.zero_le n⟩
  obtain ⟨caseId, launch, entries, rfl⟩ := starts.launching
  unfold launching
  cases launch.isFresh <;> exact Nat.zero_le n

/-- With a limit no journey leaves it. -/
theorem Within.goes (h : c.Within n) (goes : Goes (some n) g c s c') : c'.Within n := by
  have hcounted := h.counted.goes goes
  cases goes with
  | @step collaborator r b hstep =>
      have hadvance : c.execution.advance ((g.answering collaborator).withLimit n) r c.ledger =
        some b := hstep
      refine ⟨hcounted, dispatched_le_of_advance h.dispatched hadvance, ?_⟩
      rw [List.length_append]
      -- Whoever is called was dispatched, and the limit has let it be.
      rcases h.counted.calls.called with hnone | hlast
      · rw [hnone]
        exact h.calls
      · rw [hlast]
        exact h.dispatched
  | rest _ => exact h
  | delivery hdeliver =>
      obtain ⟨-, inbox, rfl⟩ := of_deliver hdeliver
      exact ⟨hcounted, h.dispatched, h.calls⟩
  | refusal _ => exact h

theorem Within.run (h : c.Within n) (ss : List Stimulus) : (c.run (some n) g ss).Within n :=
  run_keeps (fun _ _ _ hc goes => hc.goes goes) h ss

/-- What is past a limit stays past it, whatever comes. -/
theorem isPast_of_goes (past : c.execution.phase.IsPast n) (goes : Goes limit g c s c') :
    c'.execution.phase.IsPast n := by
  cases goes with
  | @step collaborator r b hstep =>
      obtain ⟨m, hlimit⟩ :=
        exists_withLimit limit (g.answering collaborator) r c.execution c.ledger
      rw [hlimit] at hstep
      exact isPast_of_advance past hstep
  | rest _ => exact past
  | delivery hdeliver =>
      obtain ⟨-, inbox, rfl⟩ := of_deliver hdeliver
      exact past
  | refusal _ => exact past

theorem isPast_run (past : c.execution.phase.IsPast n) (ss : List Stimulus) :
    (c.run limit g ss).execution.phase.IsPast n :=
  run_keeps (P := fun c => c.execution.phase.IsPast n)
    (fun _ _ _ hc goes => isPast_of_goes hc goes) past ss

/-! ## Two limits -/

/-- Whether two limits let the same steps be dispatched, up to a number. -/
theorem next_congr (within : c.Within n) (h : ∀ k < n, Allows limit k)
    (other : s.isTick = true → ¬ c.execution.AsksFor n) :
    c.next (some n) g s = c.next limit g s := by
  cases s with
  | signal s => rfl
  | tick collaborator r =>
      -- A limit is looked at only where a step is to be dispatched.
      have hallows : ∀ k, c.execution.AsksFor k → Allows (some n) k ∧ Allows limit k := by
        intro k hasks
        have hle : k ≤ n := by
          obtain ⟨d, stepId, hp⟩ := hasks
          simpa [hp, Phase.dispatched] using within.dispatched
        have hne : k ≠ n := by
          rintro rfl
          exact other rfl hasks
        have hlt : k < n := Nat.lt_of_le_of_ne hle hne
        refine ⟨?_, h k hlt⟩
        intro n' hn'
        cases hn'
        exact hlt
      simp only [next, advanceWithin_congr (g.answering collaborator) r c.ledger hallows]

/-- A run with a limit is like one with a higher limit, or with none, until a step is to be
dispatched that the limit does not let be dispatched. -/
theorem lockstep (within : c.Within n) (limit : Option Nat) (h : ∀ k < n, Allows limit k)
    (ss : List Stimulus) :
    c.run (some n) g ss = c.run limit g ss ∨
      ∃ first s rest, ss = first ++ s :: rest ∧ s.isTick = true ∧
        c.run (some n) g first = c.run limit g first ∧
        (c.run limit g first).execution.AsksFor n := by
  -- The runs are looked at from their ends: they agree so far, or they have parted before.
  induction ss using List.reverseRecOn with
  | nil => exact .inl rfl
  | append_singleton ss s ih =>
      rcases ih with hsame | ⟨first, s', rest, rfl, hasked⟩
      · by_cases hasks : s.isTick = true ∧ (c.run limit g ss).execution.AsksFor n
        · exact .inr ⟨ss, s, [], rfl, hasks.1, hsame, hasks.2⟩
        · left
          have hother : s.isTick = true → ¬ (c.run (some n) g ss).execution.AsksFor n := by
            rw [hsame]
            exact fun htick hasks' => hasks ⟨htick, hasks'⟩
          rw [run_concat, run_concat, next_congr (within.run ss) h hother, hsame]
      · exact .inr ⟨first, s', rest ++ [s], by simp, hasked⟩

/-! ## At the limit -/

/-- An execution that was stopped by its limit, so many ticks ago. -/
inductive Halting (n : Nat) : Nat → Execution → Prop
  | asking {x : Execution} {d : Definition} {stepId : String} (running : x.status = .running)
      (hp : x.phase = .dispatching d n stepId) : Halting n 0 x
  | closing {x : Execution} (running : x.status = .running)
      (hp : x.phase = .closing (.error (.stepLimitExceeded n))) : Halting n 1 x
  | ended {x : Execution} (t : Nat) (hp : x.phase = .ended (.error (.stepLimitExceeded n)))
      (failed : x.status = .failed (Error.stepLimitExceeded n).message) : Halting n (t + 2) x

theorem Halting.withInbox {x : Execution} (h : Halting n t x) (inbox : Inbox) :
    Halting n t (x.withInbox inbox) := by
  cases h with
  | asking running hp => exact .asking running hp
  | closing running hp => exact .closing running hp
  | ended t hp failed => exact .ended t hp failed

/-- A tick brings the end nearer and calls nobody. -/
theorem Halting.advance {x : Execution} {r : Readings} {l : Ledger} {b : Execution × Ledger}
    (h : Halting n t x) (hstep : x.advance (g.withLimit n) r l = some b) :
    Halting n (t + 1) b.1 ∧ x.entering = [] ∧ b.1.published = x.published := by
  -- Three ticks are left: to be asked for one call too many, to close with that, and to have ended.
  cases h with
  | @asking _ d stepId running hp =>
      rw [advance_of_dispatching running hp] at hstep
      cases hstep
      have hclosing : dispatch (g.withLimit n) d n stepId =
          .closing (.error (.stepLimitExceeded n)) := if_pos (Nat.le_refl n)
      exact ⟨.closing running hclosing, by simp [entering, hp], rfl⟩
  | closing running hp =>
      rw [advance_of_closing running hp] at hstep
      cases hstep
      have hresult := close_error x.context l r (.stepLimitExceeded n)
      have hpublished : (x.finish l r (.error (.stepLimitExceeded n))).1.published = x.published :=
        published_close x.context l r (.error (.stepLimitExceeded n))
      refine ⟨.ended 0 ?_ ?_, by simp [entering, hp], hpublished⟩
      · simp [finish, hresult]
      · simp [finish, hresult, ExecutionStatus.ofResult]
  | ended t hp failed =>
      rw [advance_of_ended hp] at hstep
      cases hstep

/-- Nothing but its end keeps it from moving. -/
theorem Halting.rests {x : Execution} {r : Readings} {l : Ledger} (h : Halting n t x)
    (stuck : x.advance g r l = none) : Halting n (t + 1) x := by
  cases h with
  | asking running hp => simp [advance_of_dispatching running hp] at stuck
  | closing running hp => simp [advance_of_closing running hp] at stuck
  | ended t hp failed => exact .ended (t + 1) hp failed

/-- An execution that is halting does nothing but come to its end. -/
theorem Halting.goes (h : Halting n t c.execution) (goes : Goes (some n) g c s c') :
    Halting n (t + s.isTick.toNat) c'.execution ∧ c'.calls = c.calls ∧
      c'.execution.published = c.execution.published := by
  cases goes with
  | @step collaborator r b hstep =>
      have hadvance : c.execution.advance ((g.answering collaborator).withLimit n) r c.ledger =
        some b := hstep
      obtain ⟨hhalting, hentering, hpublished⟩ := h.advance hadvance
      exact ⟨hhalting, by simp [hentering], hpublished⟩
  | @rest collaborator r hstuck =>
      have hnone : c.execution.advance ((g.answering collaborator).withLimit n) r c.ledger =
        none := hstuck
      exact ⟨h.rests hnone, rfl, rfl⟩
  | delivery hdeliver =>
      obtain ⟨-, inbox, rfl⟩ := of_deliver hdeliver
      exact ⟨h.withInbox inbox, rfl, rfl⟩
  | refusal _ => exact ⟨h, rfl, rfl⟩

/-- Once stopped by its limit, an execution calls nobody and publishes nothing. -/
theorem Halting.run (h : Halting n t c.execution) (ss : List Stimulus) :
    Halting n (t + ss.countP Stimulus.isTick) (c.run (some n) g ss).execution ∧
      (c.run (some n) g ss).calls = c.calls ∧
      (c.run (some n) g ss).execution.published = c.execution.published := by
  induction ss generalizing c t with
  | nil => exact ⟨h, rfl, rfl⟩
  | cons s ss ih =>
      obtain ⟨hnext, hcalls, hpublished⟩ := h.goes (c.goes (some n) g s)
      obtain ⟨hrun, hcalls', hpublished'⟩ := ih hnext
      refine ⟨?_, hcalls'.trans hcalls, hpublished'.trans hpublished⟩
      have hticks : t + (s :: ss).countP Stimulus.isTick =
          t + s.isTick.toNat + ss.countP Stimulus.isTick := by
        rw [List.countP_cons]
        cases s.isTick
        · rfl
        · simp only [Bool.toNat_true, if_true]
          omega
      rw [hticks]
      exact hrun

/-- The tick after the refused dispatch ends the walk. -/
theorem Halting.overruns {x : Execution} (h : Halting n (t + 1) x) : x.Overruns n := by
  generalize ht : t + 1 = t' at h
  cases h with
  | asking running hp => cases ht
  | closing running hp => exact .inl hp
  | ended t hp failed => exact .inr hp

/-- Two more ticks record the failure and tell of it. -/
theorem Halting.failed {x : Execution} (h : Halting n (t + 2) x) :
    x.status = .failed (Error.stepLimitExceeded n).message ∧
      x.result? = some (.error (.stepLimitExceeded n)) := by
  generalize ht : t + 2 = t' at h
  cases h with
  | asking running hp => cases ht
  | closing running hp => cases ht
  | ended t hp failed => exact ⟨failed, by simp [result?, hp]⟩

/-- Nobody asks for the same again. -/
theorem isPast_of_asksFor (counted : c.Counted) (hasks : c.execution.AsksFor n)
    (htick : s.isTick = true) : (c.next none g s).execution.phase.IsPast n := by
  have hrunning := counted.running (unended_of_asksFor hasks)
  obtain ⟨d, stepId, hp⟩ := hasks
  cases s with
  | signal s => cases htick
  | tick collaborator r =>
      have hstep : c.execution.advanceWithin none (g.answering collaborator) r c.ledger =
          some ({ c.execution with phase := attempt (g.answering collaborator) d n stepId },
            c.ledger) := by
        simp [advanceWithin, hp, running_iff.2 hrunning]
      simp only [next, hstep, attempt]
      split
      · trivial
      · simp [Phase.IsPast, Phase.dispatched]

/-- Who asks for the last dispatch is not past it. -/
theorem not_isPast {x : Execution} (hasks : x.AsksFor n) : ¬ x.phase.IsPast n := by
  obtain ⟨d, stepId, hp⟩ := hasks
  simp [hp, Phase.IsPast, Phase.dispatched]

/-- A run that never asks for more than the limit allows is the same with it. -/
theorem run_eq_of_never (within : c.Within n)
    (never : ∀ first rest, ss = first ++ rest → ¬ (c.run none g first).execution.AsksFor n) :
    c.run (some n) g ss = c.run none g ss := by
  rcases lockstep (g := g) within none (by simp [Allows]) ss with
    hsame | ⟨first, s, rest, hss, -, -, hasks⟩
  · exact hsame
  · exact absurd hasks (never first (s :: rest) hss)

/-- Where a run without a limit asks for one step more than the limit allows, a run with it has
come the same way. -/
theorem run_eq_of_asksFor (within : c.Within n)
    (hasks : (c.run none g ss).execution.AsksFor n) : c.run (some n) g ss = c.run none g ss := by
  rcases lockstep (g := g) within none (by simp [Allows]) ss with
    hsame | ⟨first, s, rest, rfl, htick, hfirst, hasked⟩
  · exact hsame
  · -- It would have asked for that step before, and nobody asks for the same again.
    have hcounted : (c.run none g first).Counted := within.counted.run first
    have hpast : ((c.run none g first).next none g s).execution.phase.IsPast n :=
      isPast_of_asksFor hcounted hasked htick
    rw [run_append] at hasks
    exact absurd (isPast_run hpast rest) (not_isPast hasks)

/-- A run that asks for more than the limit allows is on its way to its end. -/
theorem halting_of_asksFor (within : c.Within n)
    (hasks : (c.run (some n) g ss).execution.AsksFor n) :
    Halting n 0 (c.run (some n) g ss).execution := by
  have hrunning := (within.run ss).counted.running (unended_of_asksFor hasks)
  obtain ⟨d, stepId, hp⟩ := hasks
  exact .asking hrunning hp

/-- A higher limit makes no difference to a run that was not stopped. -/
theorem run_eq_of_le (within : c.Within n) (hle : n ≤ m)
    (stays : ¬ (c.run (some n) g ss).execution.Overruns n) :
    c.run (some m) g ss = c.run (some n) g ss := by
  have hallows : ∀ k < n, Allows (some m) k := by
    intro k hk m' hm'
    cases hm'
    omega
  rcases lockstep (g := g) within (some m) hallows ss with
    hsame | ⟨first, s, rest, rfl, htick, hfirst, hasks⟩
  · exact hsame.symm
  · -- Where the runs part, the lower limit stops its own.
    rw [← hfirst] at hasks
    have hhalting := ((halting_of_asksFor within hasks).run (g := g) (s :: rest)).1
    rw [← run_append, List.countP_cons_of_pos htick, Nat.zero_add] at hhalting
    exact absurd hhalting.overruns stays

end Journey
end Casework
