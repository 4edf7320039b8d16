import Casework.Proofs.Execution.Approval
import Casework.Proofs.Replay.Story

/-!
# Courses — runs that are interrupted

A course goes on with another execution when the first is interrupted while it waits.  What it sees
is counted once, since the execution that is resumed sees nothing until it has caught up.

* `Interrupted` : what is left of an execution, in its process, when it is interrupted;
* `Course` : runs with their number of interruptions and what they see;
* `Course.turns` : they are uninterrupted runs, but for executions that have yet to catch up;
* `interrupted_transparent` : interruptions leave no trace.
-/

namespace Casework

namespace Execution

/-- What an interruption makes of an execution: it is lost as it is, or stopped by its host. -/
inductive Interrupted (x : Execution) : Execution → Prop
  | lost : Interrupted x x
  | cancelled : Interrupted x x.cancel

/-- Whether an execution is suspended where another was, and publishes what it published. -/
structure SuspendedLike (x z : Execution) : Prop where
  running : z.status = .running
  awaits : ∃ d n s e w e' w', x.phase = .visiting d n s e (.awaiting w) ∧
    z.phase = .visiting d n s e' (.awaiting w')
  published : z.published = x.published

end Execution

/-- A run of one case from one state to another, with the number of its interruptions and what it
sees.  Each step is taken in a world of its own, over a journal that gives back what is appended.
Between two steps signals are delivered, and the ledger changes but for what was recorded of the
case. -/
inductive Course (g : Engine) (caseId : String) :
    Nat → Execution × Ledger → List Observation → Execution × Ledger → Prop
  | refl (c : Execution × Ledger) : Course g caseId 0 c [] c
  | step {g' : Engine} {r : Readings} {x : Execution} {l : Ledger} {b c : Execution × Ledger}
      {k : Nat} {seen : List Observation} (alike : g.Alike g') (h : x.advance g' r l = some b)
      (kept : x.Kept r l) (rest : Course g caseId k b seen c) :
      Course g caseId k (x, l) ((x.sees r b.1).toList ++ seen) c
  | deliver {x x' : Execution} {l : Ledger} {c : Execution × Ledger} {k : Nat}
      {seen : List Observation} {s : Signal} {disposition : Disposition}
      (h : x.deliver s = .ok (x', disposition)) (rest : Course g caseId k (x', l) seen c) :
      Course g caseId k (x, l) seen c
  | others {x : Execution} {l l' : Ledger} {c : Execution × Ledger} {k : Nat}
      {seen : List Observation} (same : l'.journal.load caseId = l.journal.load caseId)
      (rest : Course g caseId k (x, l') seen c) : Course g caseId k (x, l) seen c
  | interrupt {x gone y : Execution} {l : Ledger} {c : Execution × Ledger} {k : Nat}
      {seen : List Observation} (waits : x.IsAwaiting) (how : x.Interrupted gone)
      (h : Execution.resume l.journal caseId = .ok y) (rest : Course g caseId k (y, l) seen c) :
      Course g caseId (k + 1) (x, l) seen c

section Run

open Execution

variable {g : Engine} {caseId : String} {launch : Launch} {x x' y : Execution} {l l' : Ledger}
variable {a : Snapshot} {k : Nat} {seen : List Observation}

/-- What waits or is finished has arrived where it heads for. -/
theorem Heads.arrived {P : Execution → Prop} (h : Heads g P y) (hy : y.AtRest) : P y.core := by
  cases h with
  | here hP => exact hP
  | step inner hstep _ =>
      rcases hy with hawait | hfinished
      · exact absurd hawait inner.awaits
      · have hs := running_of_advance hstep
        simp [isFinished, hs, ExecutionStatus.isFinished] at hfinished

/-- An execution that waits runs. -/
theorem Execution.Standing.running (h : x.Standing) (hawait : x.IsAwaiting) :
    x.status = .running := by
  obtain ⟨d, n, s, e, w, hp⟩ := hawait
  cases h with
  | underway running _ => exact running
  | ended hp' _ =>
      rw [hp] at hp'
      cases hp'

theorem Story.running (ha : Story g caseId launch a) (hawait : a.execution.IsAwaiting) :
    a.execution.status = .running := by
  rcases ha with hfresh | hreplayable
  · exact status_of_core hfresh.1
  · exact hreplayable.standing.running hawait

/-- The execution that is resumed while the run waits heads for the same wait. -/
theorem Story.resume (ha : Story g caseId launch a) (hload : l.journal.load caseId = .ok a.entries)
    (hawait : a.execution.IsAwaiting) :
    ∃ y, Execution.resume l.journal caseId = .ok y ∧ Heads g (fun z => z = a.execution.core) y := by
  rcases ha with hfresh | hreplayable
  · -- Nobody waits before the start is recorded.
    obtain ⟨d, n, s, e, w, hp⟩ := awaiting_of_core hfresh.1 hawait
    cases hp
  · obtain ⟨y, hresume, hheads⟩ := hreplayable.resume hload
    refine ⟨y, hresume, hheads.trans ?_⟩
    intro z hz
    exact hz.catchesUp default l (hreplayable.standing.running hawait) hreplayable.live hawait

/-- A course is an uninterrupted run, but for an execution that has yet to catch up. -/
theorem Course.turns {b c : Execution × Ledger} (h : Course g caseId k b seen c)
    (ha : Story g caseId launch a) (hheads : Heads g (fun z => z = a.execution.core) b.1)
    (hload : b.2.journal.load caseId = .ok a.entries) :
    ∃ a', Turns g a seen a' ∧ Heads g (fun z => z = a'.execution.core) c.1 ∧
      c.2.journal.load caseId = .ok a'.entries ∧ Story g caseId launch a' := by
  induction h generalizing a with
  | refl c => exact ⟨a, .refl a, hheads, hload, ha⟩
  | @step g' r x l b c k seen alike hstep kept rest ih =>
      rcases hheads.advance alike hstep with hcore | ⟨hinner, hheads'⟩
      · have t : Turn g a (x.sees r b.1) ⟨b.1, a.entries ++ (x.written? r).toList⟩ :=
          .of alike hstep kept hcore rfl rfl rfl
        have hcase : x.context.log.caseId = caseId := by
          rw [log_of_core hcore]
          exact ha.case
        obtain ⟨a', hturns, hend⟩ :=
          ih (.inr (ha.turn t)) (.here rfl) (load_of_advance hstep hcase kept hload)
        exact ⟨a', .turn t hturns, hend⟩
      · -- The execution has yet to catch up: nothing is seen and nothing appended.
        rw [hinner.sees hstep]
        refine ih ha hheads' ?_
        rw [(hinner.quiet hstep).1]
        exact hload
  | deliver hdeliver _ ih => exact ih ha (hheads.of_core (core_of_deliver hdeliver)) hload
  | others same _ ih => exact ih ha hheads (same.trans hload)
  | @interrupt x gone y l c k seen waits how hresume rest ih =>
      -- Whoever waits has caught up, and the one that is resumed heads for the same wait.
      have hcore : x.core = a.execution.core := hheads.arrived (.inl waits)
      obtain ⟨y', hresume', hheads'⟩ := ha.resume hload (awaiting_of_core hcore waits)
      rw [hresume] at hresume'
      cases hresume'
      exact ih ha hheads' hload

/-- An interruption changes neither where an execution stands nor what it published. -/
theorem Execution.Interrupted.keeps {gone : Execution} (how : x.Interrupted gone) :
    gone.phase = x.phase ∧ gone.published = x.published := by
  cases how with
  | lost => exact ⟨rfl, rfl⟩
  | cancelled =>
      exact ⟨phase_cancel x, congrArg (·.published) (context_cancel x)⟩

/-- An execution that was interrupted while it waited shows the same as one that waits with the same
core. -/
theorem suspendedLike_of_core {gone z : Execution} (waits : x.IsAwaiting)
    (running : x.status = .running) (how : x.Interrupted gone) (h : z.core = x.core) :
    gone.SuspendedLike z := by
  obtain ⟨hphase, hpublished⟩ := how.keeps
  have hz : z.IsAwaiting := awaiting_of_core h.symm waits
  obtain ⟨d, n, s, e, w, hp⟩ := waits
  obtain ⟨d', n', s', e', w', hq⟩ := hz
  have hcores := phase_of_core h
  rw [hp, hq] at hcores
  cases Phase.twin_of_core hcores with
  | awaiting _ _ _ =>
      refine ⟨(status_of_core h).trans running, ?_, ?_⟩
      · exact ⟨_, _, _, e, w, e', w', hphase.trans hp, hq⟩
      · exact (published_of_core h).trans hpublished.symm

end Run

/-- A run that is interrupted while it waits, however often, is found again each time where it was,
and comes to the same case, status, result and journal as the run that is not. -/
theorem interrupted_transparent (g : Engine) (caseId name version : String) (payload : Value)
    (now : Instant) (l₁ l₂ : Ledger) (empty₁ : l₁.journal.load caseId = .ok [])
    (empty₂ : l₂.journal.load caseId = .ok []) :
    (∀ k seen x l, Course g caseId k (.fresh caseId name version payload now, l₁) seen (x, l) →
      x.IsAwaiting → ∀ gone, x.Interrupted gone →
        ∃ y, Execution.resume l.journal caseId = .ok y ∧ ReplaysTo g gone.SuspendedLike y) ∧
    ∀ k seen x l z l',
      Course g caseId k (.fresh caseId name version payload now, l₁) seen (x, l) →
      Course g caseId 0 (.fresh caseId name version payload now, l₂) seen (z, l') →
      x.AtRest → z.AtRest →
        x.published = z.published ∧ x.status = z.status ∧ x.result? = z.result? ∧
          l.journal.load caseId = l'.journal.load caseId := by
  have hstory : Story g caseId ⟨name, version, payload, now, true⟩
      ⟨.fresh caseId name version payload now, []⟩ := .inl ⟨rfl, rfl⟩
  constructor
  · intro k seen x l hcourse waits gone how
    obtain ⟨a, -, hheads, hload, ha⟩ := hcourse.turns hstory (.here rfl) empty₁
    have hcore : x.core = a.execution.core := hheads.arrived (.inl waits)
    have hwaits : a.execution.IsAwaiting := Execution.awaiting_of_core hcore waits
    have hrunning : x.status = .running :=
      (Execution.status_of_core hcore).trans (ha.running hwaits)
    obtain ⟨y, hresume, hback⟩ := ha.resume hload hwaits
    refine ⟨y, hresume, (hback.replaysTo rfl).mono ?_⟩
    intro z hz
    exact suspendedLike_of_core waits hrunning how (hz.trans hcore.symm)
  · intro k seen x l z l' hcourse huninterrupted hx hz
    obtain ⟨a, hturns, hheads, hload, -⟩ := hcourse.turns hstory (.here rfl) empty₁
    obtain ⟨b, hturns', hheads', hload', -⟩ := huninterrupted.turns hstory (.here rfl) empty₂
    have hxa : x.core = a.execution.core := hheads.arrived hx
    have hzb : z.core = b.execution.core := hheads'.arrived hz
    -- From the same beginning the turns come to rest in the same place, whichever way they took.
    have hsame : a.Same b :=
      hturns.confluent (Execution.rest_of_core hxa hx) hturns' rfl
        (Execution.rest_of_core hzb hz) ⟨rfl, rfl⟩
    have hcore : x.core = z.core := hxa.trans (hsame.1.trans hzb.symm)
    refine ⟨Execution.published_of_core hcore, Execution.status_of_core hcore,
      Execution.result?_of_core hcore, ?_⟩
    rw [hload, hload', hsame.2]

/-! ## An approval that is interrupted -/

/-- A step in a world as it was, over a journal in memory. -/
theorem Course.own {g : Engine} {caseId : String} {k : Nat} {seen : List Observation}
    {x : Execution} {l : Ledger} {b c : Execution × Ledger} {cases : Table (List JournalEntry)}
    (h : x.advance g default l = some b) (memory : l.journal = .memory cases)
    (rest : Course g caseId k b seen c) :
    Course g caseId k (x, l) ((x.sees default b.1).toList ++ seen) c :=
  .step (.refl g) h (Execution.kept_of_memory memory) rest

/-- The approval up to its question. -/
theorem course_waiting :
    ∃ x l seen, Course (Engine.approving none) "case-1" 0
        (.fresh "case-1" "approval" "1" .null ⟨0, 0⟩, ⟨.empty, [], []⟩) seen (x, l) ∧
      seen = [] ∧ x.IsAwaiting := by
  refine ⟨_, _, _, .own rfl rfl <| .own rfl rfl <| .own rfl rfl <| .own rfl rfl <|
    .own rfl rfl <| .own rfl rfl <| .own rfl rfl <| .own rfl rfl <| .refl _, rfl, ?_⟩
  exact ⟨_, _, _, _, _, rfl⟩

/-- The approval with its answer. -/
theorem course_approved :
    ∃ x l seen, Course (Engine.approving none) "case-1" 0
        (.fresh "case-1" "approval" "1" .null ⟨0, 0⟩, ⟨.empty, [], []⟩) seen (x, l) ∧
      seen = [.decision (.decision "approve" "s-1" ⟨1, 0⟩)] ∧ x.status = .completed := by
  refine ⟨_, _, _, .own rfl rfl <| .own rfl rfl <| .own rfl rfl <| .own rfl rfl <|
    .own rfl rfl <| .own rfl rfl <| .own rfl rfl <| .own rfl rfl <|
    -- The decision arrives, is recorded, and leads to the commit.
    .deliver (s := .decision "approve" "s-1" ⟨1, 0⟩) rfl <|
    .own rfl rfl <| .own rfl rfl <| .own rfl rfl <| .own rfl rfl <|
    .own rfl rfl <| .own rfl rfl <| .own rfl rfl <| .refl _, rfl, rfl⟩

/-- The same with one interruption. -/
theorem course_interrupted :
    ∃ x l seen, Course (Engine.approving none) "case-1" 1
        (.fresh "case-1" "approval" "1" .null ⟨0, 0⟩, ⟨.empty, [], []⟩) seen (x, l) ∧
      seen = [.decision (.decision "approve" "s-1" ⟨1, 0⟩)] ∧ x.status = .completed := by
  refine ⟨_, _, _, .own rfl rfl <| .own rfl rfl <| .own rfl rfl <| .own rfl rfl <|
    .own rfl rfl <| .own rfl rfl <| .own rfl rfl <| .own rfl rfl <|
    -- The execution that is resumed takes the analysis from the journal and waits again.
    .interrupt ⟨_, _, _, _, _, rfl⟩ .cancelled rfl <|
    .own rfl rfl <| .own rfl rfl <| .own rfl rfl <| .own rfl rfl <| .own rfl rfl <|
    .own rfl rfl <|
    .deliver (s := .decision "approve" "s-1" ⟨1, 0⟩) rfl <|
    .own rfl rfl <| .own rfl rfl <| .own rfl rfl <| .own rfl rfl <|
    .own rfl rfl <| .own rfl rfl <| .own rfl rfl <| .refl _, rfl, rfl⟩

/-- An approval that is cancelled while it waits, resumed, and then approved. -/
theorem interrupted_transparent_approval :
    (∃ x l y, Course (Engine.approving none) "case-1" 0
        (.fresh "case-1" "approval" "1" .null ⟨0, 0⟩, ⟨.empty, [], []⟩) [] (x, l) ∧
      x.IsAwaiting ∧ Execution.resume l.journal "case-1" = .ok y ∧
      ReplaysTo (Engine.approving none) x.cancel.SuspendedLike y) ∧
    ∃ x l z l',
      Course (Engine.approving none) "case-1" 1
        (.fresh "case-1" "approval" "1" .null ⟨0, 0⟩, ⟨.empty, [], []⟩)
        [.decision (.decision "approve" "s-1" ⟨1, 0⟩)] (x, l) ∧
      Course (Engine.approving none) "case-1" 0
        (.fresh "case-1" "approval" "1" .null ⟨0, 0⟩, ⟨.empty, [], []⟩)
        [.decision (.decision "approve" "s-1" ⟨1, 0⟩)] (z, l') ∧
      x.AtRest ∧ z.AtRest ∧ x.status = .completed ∧
      x.published = z.published ∧ x.status = z.status ∧ x.result? = z.result? ∧
      l.journal.load "case-1" = l'.journal.load "case-1" := by
  have htransparent := interrupted_transparent (Engine.approving none) "case-1" "approval" "1"
    .null ⟨0, 0⟩ ⟨.empty, [], []⟩ ⟨.empty, [], []⟩ rfl rfl
  constructor
  · obtain ⟨x, l, seen, hcourse, rfl, waits⟩ := course_waiting
    obtain ⟨y, hresume, hreplays⟩ := htransparent.1 0 [] x l hcourse waits _ .cancelled
    exact ⟨x, l, y, hcourse, waits, hresume, hreplays⟩
  · obtain ⟨x, l, seen, hcourse, rfl, hx⟩ := course_interrupted
    obtain ⟨z, l', seen, hcourse', rfl, hz⟩ := course_approved
    have hxrest : x.AtRest := .inr (by simp [Execution.isFinished, ExecutionStatus.isFinished, hx])
    have hzrest : z.AtRest := .inr (by simp [Execution.isFinished, ExecutionStatus.isFinished, hz])
    exact ⟨x, l, z, l', hcourse, hcourse', hxrest, hzrest, hx,
      htransparent.2 1 _ x l z l' hcourse hcourse' hxrest hzrest⟩

end Casework
