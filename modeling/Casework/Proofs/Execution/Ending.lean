import Casework.Proofs.Execution.Approval
import Casework.Proofs.Execution.Core
import Casework.Proofs.Execution.Limit
import Casework.Proofs.Signal.Isolation
import Mathlib.Data.Prod.Lex
import Mathlib.Order.WellFounded

/-!
# Endings — what a limit on dispatches is good for

With a limit every execution ends, if time goes on and whoever waits gets a signal: each atomic step
and each signal that is stored lessens what is ahead.  A wait may be notified again and again, so
what is ahead is no number; but the signal it waits for is stored only once.

* `Execution.ahead`, `Execution.ahead_lt_of_advance` : what is ahead, and that steps lessen it;
* `Journey.after`, `Journey.Supplied` : a journey in a flow of stimuli that never ends;
* `Journey.exists_still` : after some time nothing changes any more;
* `Journey.exact_limit` : what a limit makes of an execution, next to higher ones and to none.
-/

namespace Casework

/-! ## What is ahead -/

namespace Execution

variable {g g' : Engine} {r : Readings} {x x' : Execution} {l : Ledger} {b : Execution × Ledger}
variable {os : List Occurrence}

/-- What is ahead of an execution: the atomic steps when every wait is one of them, then whether a
signal can be stored, then what a wait does before it sleeps. -/
def ahead (g : Engine) (x : Execution) : ℕ ×ₗ ℕ ×ₗ ℕ :=
  toLex (x.phase.core.rank g.settings.maxSteps,
    toLex (if x.context.inbox.slot = none then 1 else 0, x.work g))

/-- A phase of lesser rank is closer to the end, whatever the inbox holds. -/
theorem ahead_lt_of_rank
    (h : x'.phase.core.rank g.settings.maxSteps < x.phase.core.rank g.settings.maxSteps) :
    x'.ahead g < x.ahead g :=
  Prod.Lex.toLex_lt_toLex.2 (.inl h)

/-- In one phase, a signal that has come is closer to the end than none. -/
theorem ahead_lt_of_slot (phase : x'.phase.core = x.phase.core)
    (empty : x.context.inbox.slot = none) (full : x'.context.inbox.slot ≠ none) :
    x'.ahead g < x.ahead g := by
  refine Prod.Lex.toLex_lt_toLex.2 (.inr ⟨by rw [phase], Prod.Lex.toLex_lt_toLex.2 (.inl ?_)⟩)
  simp [empty, full]

/-- With one phase and one slot the work decides. -/
theorem ahead_lt_of_work (phase : x'.phase.core = x.phase.core)
    (slot : x'.context.inbox.slot = x.context.inbox.slot) (h : x'.work g < x.work g) :
    x'.ahead g < x.ahead g :=
  Prod.Lex.toLex_lt_toLex.2
    (.inr ⟨by rw [phase], Prod.Lex.toLex_lt_toLex.2 (.inr ⟨by simp [slot], h⟩)⟩)

theorem rank_core_visiting (limit : Nat) (d : Definition) (n : Nat) (s : StepDefinition)
    (e : Executor) (v : Visit) :
    (Phase.visiting d n s e v).core.rank limit = 8 * (limit - n) + 3 + v.core.rank := rfl

/-- A dispatch is closer to the end. -/
theorem rank_core_dispatch_lt (g : Engine) (d : Definition) (n : Nat) (stepId : String) :
    (dispatch g d n stepId).core.rank g.settings.maxSteps < 8 * (g.settings.maxSteps - n) + 2 := by
  unfold dispatch
  split
  · simp only [Phase.core, Phase.rank]
    omega
  · split
    · simp only [Phase.core, Phase.rank]
      omega
    · simp only [rank_core_visiting, Visit.core, Visit.rank]
      omega

/-- So is what follows a visit. -/
theorem rank_core_proceed_lt (c : Context) (l : Ledger) (d : Definition) (n : Nat)
    (s : StepDefinition) (result : Except Error Outcome) (limit : Nat) :
    (proceed c l d n s result).1.core.rank limit < 8 * (limit - n) + 3 := by
  unfold proceed
  split <;> simp only [Phase.core, Phase.rank] <;> omega

/-- A visit that has begun has less ahead than one that has not. -/
theorem rank_core_of_entering {settings : EngineSettings} {s : StepDefinition} {c : Context}
    {e : Executor} {out : Context × Ledger × Visit} (h : Visit.Entering settings s r c l e out) :
    out.2.2.core.rank < 4 := by
  cases h <;> simp [Visit.core, Visit.rank, Visit.leave, Inbox.Waiter.rank]

/-- A decision that is recorded leaves nothing of the visit ahead. -/
theorem rank_core_settleDecision (s : StepDefinition) (c : Context) (l : Ledger)
    (signal : Signal) : (Visit.settleDecision s c l signal).2.2.core.rank = 0 := by
  unfold Visit.settleDecision
  split <;> rfl

/-- Nor does an answer. -/
theorem rank_core_settleEnrichment (s : StepDefinition) (c : Context) (l : Ledger)
    (a : Option Enrichment) (t : Instant) :
    (Visit.settleEnrichment s c l a t).2.2.core.rank = 0 := by
  unfold Visit.settleEnrichment
  split <;> rfl

/-- An atomic step lessens what is ahead. -/
theorem ahead_lt_of_advance (attended : Attended g' os x) (h : x.advance g r l = some b) :
    b.1.ahead g < x.ahead g := by
  have hwork : b.1.work g < x.work g := work_lt_of_advance h
  -- Only a wait can take steps in one phase; every other step leads to a phase nearer to the end.
  cases stepping h with
  | awaiting hp hw =>
      have hsound := attended.sound hp
      cases Inbox.Waiter.progress hsound hw with
      | waiting sound slot deadline =>
          -- The wait has only come nearer to its sleep.
          have hstays := Visit.ofWaiter_of_sound r sound
          refine ahead_lt_of_work ?_ slot hwork
          simp [inVisit, hstays, hp, Phase.core, Visit.core]
      | served slot state idle =>
          apply ahead_lt_of_rank
          simp [inVisit, hp, Phase.core, Visit.core, Visit.ofWaiter, state, Inbox.Waiter.rank]
      | expired slot due state idle =>
          apply ahead_lt_of_rank
          simp [inVisit, hp, Phase.core, Visit.core, Visit.ofWaiter, state, Inbox.Waiter.rank]
  | starting hp =>
      apply ahead_lt_of_rank
      unfold start
      split <;> simp [hp, Phase.core, Phase.rank]
  | opening hp =>
      apply ahead_lt_of_rank
      unfold openCase
      split <;> simp [hp, Phase.core, Phase.rank]
  | dispatching hp =>
      apply ahead_lt_of_rank
      rw [hp]
      exact rank_core_dispatch_lt _ _ _ _
  | entering hp ways =>
      apply ahead_lt_of_rank
      have hrank := rank_core_of_entering ways
      simp only [inVisit, hp, rank_core_visiting, Visit.core, Visit.rank] at hrank ⊢
      omega
  | decided hp =>
      apply ahead_lt_of_rank
      simp only [inVisit, hp, rank_core_visiting, rank_core_settleDecision]
      simp [Visit.core]
  | analysed hp =>
      apply ahead_lt_of_rank
      simp only [inVisit, hp, rank_core_visiting, rank_core_settleEnrichment]
      simp [Visit.core]
  | left hp =>
      apply ahead_lt_of_rank
      rw [hp]
      exact rank_core_proceed_lt _ _ _ _ _ _ _
  | closing hp =>
      apply ahead_lt_of_rank
      simp [finish, hp, Phase.core, Phase.rank]

/-- A signal changes nothing, or it is stored and lessens what is ahead. -/
theorem ahead_lt_of_deliver {s : Signal} {disposition : Disposition}
    (h : x.deliver s = .ok (x', disposition)) : x' = x ∨ x'.ahead g < x.ahead g := by
  obtain ⟨-, inbox, hinbox⟩ := of_deliver h
  by_cases hslot : x.context.inbox.slot = none
  · right
    obtain ⟨-, hfull⟩ := (deliver_cases h).2 hslot
    refine ahead_lt_of_slot ?_ hslot (by simp [hfull])
    rw [hinbox]
    rfl
  · exact .inl ((deliver_cases h).1 hslot).2

/-- A wait that cannot go on has nothing in its inbox. -/
theorem empty_of_stuck (attended : Attended g' os x) (running : x.isFinished = false)
    (awaiting : x.IsAwaiting) (stuck : x.advance g r l = none) : x.context.inbox.slot = none := by
  obtain ⟨d, n, s, e, w, hp⟩ := awaiting
  rw [advance_of_awaiting (running_iff.1 running) hp, Option.map_eq_none_iff] at stuck
  by_contra hfull
  exact Inbox.Waiter.advance_ne_none (attended.sound hp) hfull r.time stuck

end Execution

/-! ## Flows -/

namespace Journey

open Execution

variable {g : Engine} {c c' : Journey} {limit : Option Nat} {s : Stimulus}
variable {ss : List Stimulus} {n i j : Nat} {flow : Nat → Stimulus}

/-- The journey after so many stimuli of a flow that never ends. -/
def after (limit : Option Nat) (g : Engine) (c : Journey) (flow : Nat → Stimulus) (i : Nat) :
    Journey :=
  c.run limit g ((List.range i).map flow)

theorem after_succ (flow : Nat → Stimulus) (i : Nat) :
    c.after limit g flow (i + 1) = (c.after limit g flow i).next limit g (flow i) := by
  rw [after, after, List.range_succ, List.map_append]
  exact run_concat _ _

/-- A flow in which time goes on, and in which whoever waits for ever is sent a signal meanwhile. -/
structure Supplied (limit : Option Nat) (g : Engine) (c : Journey) (flow : Nat → Stimulus) :
    Prop where
  ticks : ∀ i, ∃ j ≥ i, (flow j).isTick = true
  signals : ∀ i, (∀ j ≥ i, (c.after limit g flow j).execution.IsAwaiting) →
    ∃ k, (∀ j ≥ k, (c.after limit g flow j).execution.IsAwaiting) ∧ (flow k).isTick = false

/-- A journey under a limit is the trace of an execution. -/
theorem traced (n : Nat) (g : Engine) (c : Journey) (ss : List Stimulus) :
    ∃ os, Trace (g.withLimit n) c.execution.caseId (c.execution, c.ledger) os
      ((c.run (some n) g ss).execution, (c.run (some n) g ss).ledger) := by
  refine run_keeps (P := fun c' => ∃ os, Trace (g.withLimit n) c.execution.caseId
    (c.execution, c.ledger) os (c'.execution, c'.ledger)) ?_ ⟨[], .refl⟩ ss
  rintro c₁ s c₂ ⟨os, htrace⟩ goes
  cases goes with
  | @step collaborator r b hstep =>
      exact ⟨_, htrace.next (.step ((g.withLimit n).alike_answering collaborator) hstep)⟩
  | rest _ => exact ⟨os, htrace⟩
  | delivery hdeliver => exact ⟨_, htrace.next (.delivery hdeliver)⟩
  | refusal _ => exact ⟨os, htrace⟩

/-- What comes to a journey comes to its execution while it is attended to. -/
theorem attended_after (starts : c.execution.Starts) (flow : Nat → Stimulus) (i : Nat) :
    ∃ os, Attended (g.withLimit n) os (c.after (some n) g flow i).execution := by
  obtain ⟨os, htrace⟩ := traced n g c ((List.range i).map flow)
  obtain ⟨caseId, launch, entries, hx⟩ := starts.launching
  have hattended : Attended (g.withLimit n) [] c.execution := by
    rw [hx]
    exact attended_launching _ _ _ _
  exact ⟨os, htrace.attended hattended⟩

/-- Whatever changes a journey lessens what is ahead of it. -/
theorem ahead_lt_of_next {os : List Occurrence}
    (attended : Attended (g.withLimit n) os c.execution) (s : Stimulus) :
    c.next (some n) g s = c ∨
      (c.next (some n) g s).execution.ahead (g.withLimit n) <
        c.execution.ahead (g.withLimit n) := by
  have hgoes := c.goes (some n) g s
  generalize c.next (some n) g s = c' at hgoes ⊢
  cases hgoes with
  | @step collaborator r b hstep =>
      have hlt : b.1.ahead ((g.withLimit n).answering collaborator) <
          c.execution.ahead ((g.withLimit n).answering collaborator) :=
        ahead_lt_of_advance attended hstep
      exact .inr hlt
  | rest _ => exact .inl rfl
  | @delivery s x' disposition hdeliver =>
      rcases ahead_lt_of_deliver (g := g.withLimit n) hdeliver with hsame | hlt
      · exact .inl (by rw [hsame])
      · exact .inr hlt
  | refusal _ => exact .inl rfl

/-- A tick that changes nothing finds an execution that does not move. -/
theorem stuck_of_next {os : List Occurrence} {collaborator : Enricher} {r : Readings}
    (attended : Attended (g.withLimit n) os c.execution)
    (same : c.next (some n) g (.tick collaborator r) = c) :
    c.execution.advance ((g.withLimit n).answering collaborator) r c.ledger = none := by
  cases hstep : c.execution.advance ((g.withLimit n).answering collaborator) r c.ledger with
  | none => rfl
  | some b =>
      have hwithin : c.execution.advanceWithin (some n) (g.answering collaborator) r c.ledger =
        some b := hstep
      have hb : b.1 = c.execution := by
        simp only [next, hwithin] at same
        exact congrArg execution same
      have hlt := ahead_lt_of_advance attended hstep
      rw [hb] at hlt
      exact absurd hlt (lt_irrefl _)

/-- After a signal there is one in the inbox. -/
theorem full_of_signal (running : c.execution.isFinished = false) (s : Signal) :
    (c.next limit g (.signal s)).execution.context.inbox.slot ≠ none := by
  simp [next, deliver, running, Inbox.slot_deliver]

/-- It stays there as long as the wait goes on. -/
theorem full_of_next {os : List Occurrence} (attended : Attended (g.withLimit n) os c.execution)
    (awaiting : c.execution.IsAwaiting) (full : c.execution.context.inbox.slot ≠ none)
    (s : Stimulus) (waits : (c.next (some n) g s).execution.IsAwaiting) :
    (c.next (some n) g s).execution.context.inbox.slot ≠ none := by
  have hgoes := c.goes (some n) g s
  generalize c.next (some n) g s = c' at hgoes waits ⊢
  cases hgoes with
  | @step collaborator r b hstep =>
      have hadvance : c.execution.advance ((g.withLimit n).answering collaborator) r c.ledger =
        some b := hstep
      obtain ⟨d, m, s, e, w, hp⟩ := awaiting
      rw [advance_of_awaiting (running_of_advance hadvance) hp] at hadvance
      obtain ⟨out, hw, rfl⟩ := Option.map_eq_some_iff.1 hadvance
      -- A step that takes the signal also ends the wait, and nothing is given up before a full
      -- slot.
      cases Inbox.Waiter.progress (attended.sound hp) hw with
      | waiting _ slot _ =>
          have hslot : out.1.slot ≠ none := by
            rw [slot]
            exact full
          exact hslot
      | served _ state _ =>
          obtain ⟨d', m', s', e', w', hp'⟩ := waits
          simp [inVisit, Visit.ofWaiter, state] at hp'
      | expired slot _ _ _ => exact absurd slot full
  | rest _ => exact full
  | @delivery s x' disposition hdeliver =>
      obtain ⟨rfl, -⟩ := deliver_eq hdeliver
      simp [withInbox, Inbox.slot_deliver]
  | refusal _ => exact full

/-- A flow brings a journey to a point from which on nothing changes. -/
theorem exists_still (starts : c.execution.Starts) (flow : Nat → Stimulus) :
    ∃ i, ∀ j ≥ i, c.after (some n) g flow j = c.after (some n) g flow i := by
  -- It is still where the least is ahead of it.
  obtain ⟨-, ⟨i, rfl⟩, hleast⟩ := wellFounded_lt.has_min
    (Set.range fun i => (c.after (some n) g flow i).execution.ahead (g.withLimit n))
    (Set.range_nonempty _)
  refine ⟨i, ?_⟩
  intro j hj
  induction j, hj using Nat.le_induction with
  | base => rfl
  | succ j hj ih =>
      obtain ⟨os, hattended⟩ := attended_after (g := g) (n := n) starts flow j
      rw [after_succ]
      rcases ahead_lt_of_next hattended (flow j) with hsame | hlt
      · exact hsame.trans ih
      · rw [← after_succ, ih] at hlt
        exact absurd hlt (hleast _ ⟨j + 1, rfl⟩)

/-- Where nothing changes although time goes on, an execution is finished or sleeps in a wait. -/
theorem sleeps_of_still (starts : c.execution.Starts) (ticks : ∀ i, ∃ j ≥ i, (flow j).isTick = true)
    (still : ∀ j ≥ i, c.after (some n) g flow j = c.after (some n) g flow i)
    (running : (c.after (some n) g flow i).execution.isFinished = false) :
    (c.after (some n) g flow i).execution.IsAwaiting ∧
      (c.after (some n) g flow i).execution.context.inbox.slot = none := by
  obtain ⟨os, hattended⟩ := attended_after (g := g) (n := n) starts flow i
  obtain ⟨j, hj, htick⟩ := ticks i
  cases hstimulus : flow j with
  | signal s => simp [hstimulus, Stimulus.isTick] at htick
  | tick collaborator r =>
      have hsame : (c.after (some n) g flow i).next (some n) g (.tick collaborator r) =
          c.after (some n) g flow i := by
        calc (c.after (some n) g flow i).next (some n) g (.tick collaborator r)
            = (c.after (some n) g flow j).next (some n) g (flow j) := by
                rw [still j hj, hstimulus]
          _ = c.after (some n) g flow (j + 1) := (after_succ flow j).symm
          _ = c.after (some n) g flow i := still (j + 1) (by omega)
      have hstuck := stuck_of_next hattended hsame
      have hawaiting : (c.after (some n) g flow i).execution.IsAwaiting := by
        obtain ⟨os, htrace⟩ := traced n g c ((List.range i).map flow)
        obtain ⟨caseId, launch, entries, hx⟩ := starts.launching
        have hreaches := htrace.reaches
        rw [hx] at hreaches
        exact awaits_of_reaches hreaches running hstuck
      exact ⟨hawaiting, empty_of_stuck hattended running hawaiting hstuck⟩

/-- Whoever waits for ever from a signal on has it in the inbox. -/
theorem full_after (starts : c.execution.Starts) (counted : c.Counted) {k : Nat}
    (waits : ∀ j ≥ k, (c.after (some n) g flow j).execution.IsAwaiting)
    (signal : (flow k).isTick = false) :
    ∀ j ≥ k + 1, (c.after (some n) g flow j).execution.context.inbox.slot ≠ none := by
  intro j hj
  induction j, hj using Nat.le_induction with
  | base =>
      have hcounted : (c.after (some n) g flow k).Counted := counted.run _
      have hunended : ∀ result, (c.after (some n) g flow k).execution.phase ≠ .ended result := by
        obtain ⟨d, m, s, e, w, hp⟩ := waits k (Nat.le_refl k)
        simp [hp]
      rw [after_succ]
      cases hlast : flow k with
      | tick collaborator r => simp [hlast, Stimulus.isTick] at signal
      | signal s => exact full_of_signal (running_iff.2 (hcounted.running hunended)) s
  | succ j hj ih =>
      obtain ⟨os, hattended⟩ := attended_after (g := g) (n := n) starts flow j
      have hwaits := waits (j + 1) (by omega)
      rw [after_succ] at hwaits ⊢
      exact full_of_next hattended (waits j (by omega)) ih (flow j) hwaits

/-- With a limit, every execution whose waits get a signal ends. -/
theorem ends_of_supplied (starts : c.execution.Starts) (counted : c.Counted)
    (supplied : Supplied (some n) g c flow) :
    ∃ i, (c.after (some n) g flow i).execution.isFinished = true := by
  obtain ⟨i, hstill⟩ := exists_still (g := g) (n := n) starts flow
  refine ⟨i, ?_⟩
  by_contra hgoes
  obtain ⟨hawaiting, hempty⟩ :=
    sleeps_of_still starts supplied.ticks hstill (by simpa using hgoes)
  -- It has been sent a signal since it waits, so it cannot have gone to sleep.
  have hforever : ∀ j ≥ i, (c.after (some n) g flow j).execution.IsAwaiting := by
    intro j hj
    rw [hstill j hj]
    exact hawaiting
  obtain ⟨k, hwaits, hsignal⟩ := supplied.signals i hforever
  have hfull := full_after starts counted hwaits hsignal (max i (k + 1)) (le_max_right _ _)
  rw [hstill _ (le_max_left _ _)] at hfull
  exact hfull hempty

/-! ## The limit -/

/-- What a limit on dispatches makes of an execution, whatever comes to it from outside. -/
structure ExactLimit (g : Engine) (n : Nat) (c : Journey) : Prop where
  /-- No more executors are called than it allows. -/
  few : ∀ ss, (c.run (some n) g ss).calls.length ≤ n
  /-- A run that asks for no more dispatches without a limit is the same with it. -/
  same : ∀ ss, (∀ first rest, ss = first ++ rest → ¬ (c.run none g first).execution.AsksFor n) →
    c.run (some n) g ss = c.run none g ss
  /-- One that does so has come the same way and called as many executors as the limit allows.  It
  calls no more of them, publishes nothing more, and fails. -/
  stopped : ∀ first, (c.run none g first).execution.AsksFor n →
    c.run (some n) g first = c.run none g first ∧ (c.run none g first).calls.length = n ∧
      ∀ rest, (c.run (some n) g (first ++ rest)).calls = (c.run none g first).calls ∧
        (c.run (some n) g (first ++ rest)).execution.published =
          (c.run none g first).execution.published ∧
        (2 ≤ rest.countP Stimulus.isTick →
          (c.run (some n) g (first ++ rest)).execution.status =
              .failed (Error.stepLimitExceeded n).message ∧
            (c.run (some n) g (first ++ rest)).execution.result? =
              some (.error (.stepLimitExceeded n)))
  /-- A higher limit makes no difference to a run that was not stopped. -/
  raised : ∀ m ss, n ≤ m → ¬ (c.run (some n) g ss).execution.Overruns n →
    c.run (some m) g ss = c.run (some n) g ss
  /-- A run ends if time goes on and all waits get a signal. -/
  ends : ∀ flow, Supplied (some n) g c flow →
    ∃ i, (c.after (some n) g flow i).execution.isFinished = true

/-- With a limit an execution goes as far as without one, up to the dispatch that the limit does not
allow, and there it fails. -/
theorem exact_limit (g : Engine) (n : Nat) (x : Execution) (l : Ledger) (starts : x.Starts) :
    ExactLimit g n ⟨x, l, []⟩ := by
  have hwithin : Within n ⟨x, l, []⟩ := within_of_starts starts l n
  refine ⟨?_, ?_, ?_, ?_, ?_⟩
  · intro ss
    exact (hwithin.run ss).calls
  · intro ss never
    exact run_eq_of_never hwithin never
  · intro first hasks
    have hsame := run_eq_of_asksFor hwithin hasks
    have hhalting : Halting n 0 (run none g ⟨x, l, []⟩ first).execution := by
      rw [← hsame] at hasks ⊢
      exact halting_of_asksFor hwithin hasks
    refine ⟨hsame, (hwithin.counted.run first).calls.eq_of_asksFor hasks, ?_⟩
    intro rest
    obtain ⟨hlater, hcalls, hpublished⟩ := hhalting.run (g := g) rest
    rw [run_append, hsame]
    refine ⟨hcalls, hpublished, ?_⟩
    intro hticks
    -- One tick to see that the limit is reached, and one to end.
    obtain ⟨t, ht⟩ := Nat.exists_eq_add_of_le' hticks
    rw [Nat.zero_add, ht] at hlater
    exact hlater.failed
  · intro m ss hle stays
    exact run_eq_of_le hwithin hle stays
  · intro flow supplied
    exact ends_of_supplied starts hwithin.counted supplied

/-! ### An approval that is refused again and again -/

def refusals (i : Nat) : Stimulus :=
  if i % 2 = 0 then .tick (.fixed .pending) default
  else .signal (.decision "refuse" "s-1" ⟨1, 0⟩)

def unapproved : Journey :=
  ⟨.fresh "case-1" "approval" "1" .null ⟨0, 0⟩, ⟨.empty, [], []⟩, []⟩

theorem supplied_refusals (limit : Option Nat) (g : Engine) (c : Journey) :
    Supplied limit g c refusals := by
  constructor
  · intro i
    exact ⟨2 * i, by omega, by simp [refusals, Stimulus.isTick]⟩
  · intro i hwaits
    refine ⟨2 * i + 1, fun j hj => hwaits j (by omega), ?_⟩
    simp [refusals, Stimulus.isTick]

/-- With a limit of two an approval is asked for once. -/
theorem exact_limit_approval :
    (unapproved.after none (.approving none) refusals 21).execution.AsksFor 2 ∧
      (unapproved.after none (.approving none) refusals 21).calls = ["analysis", "review"] ∧
      (∀ rest, 2 ≤ rest.countP Stimulus.isTick →
        (unapproved.run (some 2) (.approving none)
          ((List.range 21).map refusals ++ rest)).execution.result? =
            some (.error (.stepLimitExceeded 2))) ∧
      ∃ i,
        (unapproved.after (some 2) (.approving none) refusals i).execution.isFinished = true := by
  have hstarts : unapproved.execution.Starts := .fresh _ _ _ _ _
  have hlimit := exact_limit (.approving none) 2 unapproved.execution unapproved.ledger hstarts
  have hasks : (unapproved.after none (.approving none) refusals 21).execution.AsksFor 2 := by
    decide +kernel
  obtain ⟨-, -, hstopped⟩ := hlimit.stopped _ hasks
  refine ⟨hasks, by decide +kernel, ?_, ?_⟩
  · intro rest hticks
    exact ((hstopped rest).2.2 hticks).2
  · exact hlimit.ends refusals (supplied_refusals _ _ _)

end Journey
end Casework
