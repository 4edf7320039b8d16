import Casework.Proofs.Replay.Course

/-!
# Finished runs — what comes of resuming them

The journal of a finished run leads to its end, so whoever resumes the run has nothing left to
append.

* `Execution.EndedLike` : how a replay ends;
* `Shadow.endedLike` : a shadow of a finished execution with nothing to come has ended so;
* `Event`, `Revisit` : an execution that is resumed is taken on, as far as one likes;
* `finished_replays` : however often this is done, the next one ends so and the journal is the same.
-/

namespace Casework

/-- Whether an execution came to an end of its own, with the case that another ended with, and
completed if and only if that one did. -/
structure Execution.EndedLike (x z : Execution) : Prop where
  finished : z.isFinished = true
  uncancelled : z.status ≠ .cancelled
  completed : z.status = .completed ↔ x.status = .completed
  published : z.published = x.published

/-- Whatever may happen to an execution and to the ledger, but for what was recorded of the case. -/
inductive Event (g : Engine) (caseId : String) : Execution × Ledger → Execution × Ledger → Prop
  | step {g' : Engine} {r : Readings} {x : Execution} {l : Ledger} {b : Execution × Ledger}
      (alike : g.Alike g') (h : x.advance g' r l = some b) : Event g caseId (x, l) b
  | deliver {x x' : Execution} {l : Ledger} {s : Signal} {disposition : Disposition}
      (h : x.deliver s = .ok (x', disposition)) : Event g caseId (x, l) (x', l)
  | cancel (x : Execution) (l : Ledger) : Event g caseId (x, l) (x.cancel, l)
  | others {x : Execution} {l l' : Ledger}
      (same : l'.journal.load caseId = l.journal.load caseId) : Event g caseId (x, l) (x, l')

/-- A case is resumed and the execution taken on for a while. -/
inductive Revisit (g : Engine) (caseId : String) (l l' : Ledger) : Prop
  | of {y z : Execution} (h : Execution.resume l.journal caseId = .ok y)
      (run : Relation.ReflTransGen (Event g caseId) (y, l) (z, l'))

section Finished

open Execution

variable {g : Engine} {caseId : String} {x y z : Execution} {l l' : Ledger}
variable {b c : Execution × Ledger} {P : Execution → Prop}

/-- At the end of the entries a replay has ended like the run that wrote them. -/
theorem Shadow.endedLike (shadow : Shadow g x [] z) (standing : x.Standing)
    (finished : x.isFinished = true) : x.EndedLike z := by
  cases standing with
  | underway running _ =>
      simp [isFinished, running, ExecutionStatus.isFinished] at finished
  | @ended result hp hs =>
      cases shadow with
      | level _ hz =>
          subst hz
          refine ⟨finished, ?_, Iff.rfl, rfl⟩
          intro hcancelled
          have hstatus : x.status = .cancelled := hcancelled
          rw [hs] at hstatus
          cases result <;> cases hstatus
      | behind _ _ entered _ =>
          -- Whoever is in a visit, or about to close, has not ended.
          cases entered with
          | reviewing _ _ _ hx _ =>
              rw [hp] at hx
              cases Phase.twin_of_core hx
          | analysing _ _ hx =>
              rw [hp] at hx
              cases Phase.twin_of_core hx
          | refused _ _ hx =>
              rw [hp] at hx
              rcases hx with hx | hx
              · cases Phase.twin_of_core hx
              · cases hx
      | failed hx status _ context =>
          -- The replay failed with an error of its own, at the same place.
          rw [hp] at hx
          cases hx
          refine ⟨?_, ?_, ?_, ?_⟩
          · simp [isFinished, status, ExecutionStatus.isFinished]
          · rw [status]
            simp
          · rw [status, hs]
            simp [ExecutionStatus.ofResult]
          · have hpublished := congrArg Context.published context
            exact hpublished

/-- What heads for an end has nothing to append, whatever happens to it. -/
theorem Event.quiet (h : Event g caseId b c) (hP : ∀ z, P z → z.isFinished = true)
    (hb : Heads g P b.1 ∨ b.1.isFinished = true) :
    (Heads g P c.1 ∨ c.1.isFinished = true) ∧
      c.2.journal.load caseId = b.2.journal.load caseId := by
  cases h with
  | @step g' r x l b alike hstep =>
      have hrunning : x.isFinished = false := by
        simp [isFinished, running_of_advance hstep, ExecutionStatus.isFinished]
      rcases hb with hheads | hfinished
      · rcases hheads.advance alike hstep with hended | ⟨hinner, hheads'⟩
        · have hfinished : x.core.isFinished = true := hP x.core hended
          have hrunning' : x.core.isFinished = false := hrunning
          rw [hrunning'] at hfinished
          cases hfinished
        · exact ⟨.inl hheads', by rw [(hinner.quiet hstep).1]⟩
      · rw [hrunning] at hfinished
        cases hfinished
  | deliver hdeliver =>
      have hcore := core_of_deliver hdeliver
      refine ⟨?_, rfl⟩
      rcases hb with hheads | hfinished
      · exact .inl (hheads.of_core hcore)
      · exact .inr ((isFinished_of_core hcore).symm.trans hfinished)
  | cancel x l => exact ⟨.inr (isFinished_cancel x), rfl⟩
  | others same => exact ⟨hb, same⟩

/-- What heads for its end leaves the journal as it is. -/
theorem load_of_events (h : Relation.ReflTransGen (Event g caseId) b c)
    (hP : ∀ z, P z → z.isFinished = true) (hb : Heads g P b.1) :
    c.2.journal.load caseId = b.2.journal.load caseId := by
  have hall : (Heads g P c.1 ∨ c.1.isFinished = true) ∧
      c.2.journal.load caseId = b.2.journal.load caseId := by
    induction h with
    | refl => exact ⟨.inl hb, rfl⟩
    | tail _ hevent ih =>
        have hquiet := hevent.quiet hP ih.1
        exact ⟨hquiet.1, hquiet.2.trans ih.2⟩
  exact hall.2

/-- The journal of a finished run leads to its end. -/
theorem Replayable.ends {launch : Launch} {a : Snapshot} (ha : Replayable g caseId launch a)
    (finished : a.execution.isFinished = true) (hload : l.journal.load caseId = .ok a.entries) :
    ∃ y, Execution.resume l.journal caseId = .ok y ∧ Heads g a.execution.EndedLike y := by
  obtain ⟨y, hresume, hheads⟩ := ha.resume hload
  exact ⟨y, hresume, hheads.mono fun z hz => hz.endedLike ha.standing finished⟩

end Finished

/-- Whoever resumes a finished run, however often, finds its end in the journal, without waiting or
asking, and leaves the journal as it was. -/
theorem finished_replays (g : Engine) (caseId name version : String) (payload : Value)
    (now : Instant) (l₀ : Ledger) (empty : l₀.journal.load caseId = .ok []) {k : Nat}
    {seen : List Observation} {x : Execution} {l : Ledger}
    (run : Course g caseId k (.fresh caseId name version payload now, l₀) seen (x, l))
    (finished : x.isFinished = true) {l' : Ledger}
    (revisits : Relation.ReflTransGen (Revisit g caseId) l l') :
    l'.journal.load caseId = l.journal.load caseId ∧
      ∃ y, Execution.resume l'.journal caseId = .ok y ∧ ReplaysTo g x.EndedLike y := by
  have hstory : Story g caseId ⟨name, version, payload, now, true⟩
      ⟨.fresh caseId name version payload now, []⟩ := .inl ⟨rfl, rfl⟩
  obtain ⟨a, -, hheads, hload, ha⟩ := run.turns hstory (.here rfl) empty
  have hcore : x.core = a.execution.core := hheads.arrived (.inr finished)
  have hfinished : a.execution.isFinished = true :=
    (Execution.isFinished_of_core hcore).symm.trans finished
  have hreplayable : Replayable g caseId ⟨name, version, payload, now, true⟩ a := by
    rcases ha with hfresh | hreplayable
    · rw [Execution.isFinished_of_core hfresh.1] at hfinished
      cases hfinished
    · exact hreplayable
  -- Each execution that is resumed heads for the end, so it leaves the journal to the next one.
  have hsame : l'.journal.load caseId = l.journal.load caseId := by
    induction revisits with
    | refl => rfl
    | @tail l₁ l₂ _ hrevisit ih =>
        obtain ⟨hresume, hrun⟩ := hrevisit
        obtain ⟨y, hresume', hends⟩ := hreplayable.ends hfinished (ih.trans hload)
        rw [hresume] at hresume'
        cases hresume'
        exact (load_of_events hrun (fun z hz => hz.finished) hends).trans ih
  obtain ⟨y, hresume, hends⟩ := hreplayable.ends hfinished (hsame.trans hload)
  refine ⟨hsame, y, hresume, (hends.replaysTo rfl).mono ?_⟩
  intro z hz
  have hstatus := Execution.status_of_core hcore
  have hpublished := Execution.published_of_core hcore
  refine ⟨hz.finished, hz.uncancelled, ?_, hz.published.trans hpublished.symm⟩
  rw [hstatus]
  exact hz.completed

/-! ## An approval that is replayed -/

theorem Event.own {g : Engine} {caseId : String} {x : Execution} {l : Ledger}
    {b : Execution × Ledger} (h : x.advance g default l = some b) : Event g caseId (x, l) b :=
  .step (.refl g) h

/-- The approval is visited again after its end. -/
theorem course_revisited :
    ∃ x l seen y z l', Course (Engine.approving none) "case-1" 0
        (.fresh "case-1" "approval" "1" .null ⟨0, 0⟩, ⟨.empty, [], []⟩) seen (x, l) ∧
      seen = [.decision (.decision "approve" "s-1" ⟨1, 0⟩)] ∧ x.status = .completed ∧
      Execution.resume l.journal "case-1" = .ok y ∧
      Relation.ReflTransGen (Event (Engine.approving none) "case-1") (y, l) (z, l') ∧
      z.status = .completed := by
  refine ⟨_, _, _, _, _, _, .own rfl rfl <| .own rfl rfl <| .own rfl rfl <| .own rfl rfl <|
    .own rfl rfl <| .own rfl rfl <| .own rfl rfl <| .own rfl rfl <|
    .deliver (s := .decision "approve" "s-1" ⟨1, 0⟩) rfl <|
    .own rfl rfl <| .own rfl rfl <| .own rfl rfl <| .own rfl rfl <|
    .own rfl rfl <| .own rfl rfl <| .own rfl rfl <| .refl _, rfl, rfl, rfl,
    -- The replay takes the analysis and the decision from the journal.
    .head (.own rfl) <| .head (.own rfl) <| .head (.own rfl) <| .head (.own rfl) <|
    .head (.own rfl) <| .head (.own rfl) <| .head (.own rfl) <| .head (.own rfl) <|
    .head (.own rfl) <| .head (.own rfl) <| .head (.own rfl) <| .refl, rfl⟩

/-- An approval that is given, and afterwards replayed to its end. -/
theorem finished_replays_approval :
    ∃ x l y z l', Course (Engine.approving none) "case-1" 0
        (.fresh "case-1" "approval" "1" .null ⟨0, 0⟩, ⟨.empty, [], []⟩)
        [.decision (.decision "approve" "s-1" ⟨1, 0⟩)] (x, l) ∧
      x.status = .completed ∧ Execution.resume l.journal "case-1" = .ok y ∧
      Relation.ReflTransGen (Event (Engine.approving none) "case-1") (y, l) (z, l') ∧
      z.status = .completed ∧ l'.journal.load "case-1" = l.journal.load "case-1" ∧
      ∃ y', Execution.resume l'.journal "case-1" = .ok y' ∧
        ReplaysTo (Engine.approving none) x.EndedLike y' := by
  obtain ⟨x, l, seen, y, z, l', hcourse, rfl, hx, hresume, hrun, hz⟩ := course_revisited
  have hfinished : x.isFinished = true := by
    simp [Execution.isFinished, ExecutionStatus.isFinished, hx]
  have hrevisits : Relation.ReflTransGen (Revisit (Engine.approving none) "case-1") l l' :=
    .single (.of hresume hrun)
  exact ⟨x, l, y, z, l', hcourse, hx, hresume, hrun, hz,
    finished_replays (Engine.approving none) "case-1" "approval" "1" .null ⟨0, 0⟩ ⟨.empty, [], []⟩
      rfl hcourse hfinished hrevisits⟩

end Casework
