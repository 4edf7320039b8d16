import Casework.Proofs.Execution.Approval
import Casework.Proofs.Execution.Queue

/-!
# Replay discipline — executions built from arbitrary recorded entries

Nothing is assumed of the entries: no run may have produced them.

* `Astray` : an execution that is about to look up an entry and has another one before it;
* `Doomed` : an execution that can only end with one error, unless its host stops it;
* `Disciplined` : what holds of every execution reached from recorded entries;
* `resume_disciplined` : it does.

The invariant on the queue is `Execution.Caught`; the one on failures is `Doomed`.
-/

namespace Casework

/-- An execution that is about to look up an entry for the step with this id while another entry
comes first.  The error is the one that the look-up will report. -/
inductive Astray (x : Execution) : String → Error → Prop
  | undecided {d : Definition} {n : Nat} {s : StepDefinition} {config : ReviewConfig}
      {entry : JournalEntry} {rest : List JournalEntry}
      (hp : x.phase = .visiting d n s .humanInTheLoop .entering)
      (decodable : s.config ReviewConfig.decoder = .ok config) (first : x.pending = entry :: rest)
      (other : ¬ entry.IsDecisionFor s.stepId) :
      Astray x s.stepId (Log.divergence s.stepId .signalConsumed entry)
  | unanswered {d : Definition} {n : Nat} {s : StepDefinition} {enricher : Option Enricher}
      {entry : JournalEntry} {rest : List JournalEntry}
      (hp : x.phase = .visiting d n s (.caseEnrichment enricher) .entering)
      (first : x.pending = entry :: rest) (other : ¬ entry.IsAnswerFor s.stepId) :
      Astray x s.stepId (Log.divergence s.stepId .activityCompleted entry)

/-- An execution that can only end with one error, unless its host stops it. -/
inductive Doomed (fault : Error) (x : Execution) : Prop
  | astray {stepId : String} (running : x.status = .running) (h : Astray x stepId fault)
  | left {d : Definition} {n : Nat} {s : StepDefinition} {e : Executor}
      (running : x.status = .running) (hp : x.phase = .visiting d n s e (.left (.error fault)))
  | closing (running : x.status = .running) (hp : x.phase = .closing (.error fault))
  | ended (status : x.status = .failed fault.message) (hp : x.phase = .ended (.error fault))

/-- Whether an execution goes on by itself, wherever it is taken, until it fails with this error. -/
structure Fails (g : Engine) (x : Execution) (fault : Error) : Prop where
  reached : ∀ z, Reaches g x z →
    z.status = .cancelled ∨
      (z.status = .running ∧ ∀ r l, (z.advance g r l).isSome = true) ∨
      (z.status = .failed fault.message ∧ z.result? = some (.error fault))
  settled : ∀ r l,
    (x.settle g r l).1.status = .failed fault.message ∧
      (x.settle g r l).1.result? = some (.error fault)

/-- What holds of every execution that is reached from recorded entries. -/
structure Disciplined (g : Engine) (entries : List JournalEntry) (x : Execution) : Prop where
  /-- What was taken is the beginning of what was recorded. -/
  inOrder : ∃ taken, entries = taken ++ x.pending
  oneByOne : ∀ x', Moves g x x' → x'.pending = x.pending ∨ ∃ e, x.pending = e :: x'.pending
  /-- While entries remain nobody is waited for or asked. -/
  quiet : x.pending ≠ [] → ¬ x.IsAwaiting ∧
    ∀ g' r l x' l', g.Alike g' → x.advance g' r l = some (x', l') →
      ¬ x'.IsAwaiting ∧ l'.analysed = l.analysed
  /-- Another entry than the one looked up stays where it is and fails the execution. -/
  strict : ∀ stepId fault, x.status = .running → Astray x stepId fault →
    (∀ g' r l x' l', g.Alike g' → x.advance g' r l = some (x', l') → x'.pending = x.pending) ∧
      Fails g x fault ∧ ∃ reason, fault = .replayDivergence stepId reason

section Step

variable {g : Engine} {r : Readings} {x x' : Execution} {l l' : Ledger} {fault : Error}

open Execution

namespace Astray

variable {stepId : String}

/-- Who goes astray complains of a divergence. -/
theorem divergence (h : Astray x stepId fault) :
    ∃ reason, fault = .replayDivergence stepId reason := by
  cases h with
  | undecided _ _ _ _ => exact ⟨_, rfl⟩
  | unanswered _ _ _ => exact ⟨_, rfl⟩

/-- The look-up takes no entry and leaves the visit with its error. -/
theorem advance (h : Astray x stepId fault) (hadvance : x.advance g r l = some (x', l')) :
    x'.status = x.status ∧ x'.pending = x.pending ∧
      ∃ d n s e, x'.phase = .visiting d n s e (.left (.error fault)) := by
  have hs := running_of_advance hadvance
  cases h with
  | undecided hp decodable first other =>
      -- The question is published, but the queue stays as it is.
      rw [advance_of_entering hs hp, Visit.enter_review,
        Visit.enterReview_of_other decodable first other] at hadvance
      cases hadvance
      exact ⟨rfl, rfl, _, _, _, _, rfl⟩
  | unanswered hp first other =>
      rw [advance_of_entering hs hp, Visit.enter_enrichment,
        Visit.enterEnrichment_of_other first other] at hadvance
      cases hadvance
      exact ⟨rfl, rfl, _, _, _, _, rfl⟩

/-- What is delivered meanwhile makes no difference. -/
theorem withInbox (h : Astray x stepId fault) (inbox : Inbox) :
    Astray (x.withInbox inbox) stepId fault := by
  cases h with
  | undecided hp decodable first other => exact .undecided hp decodable first other
  | unanswered hp first other => exact .unanswered hp first other

end Astray

namespace Doomed

/-- A doomed execution moves unless it has failed. -/
theorem shows (h : Doomed fault x) :
    (x.status = .running ∧ ∀ g r l, (x.advance g r l).isSome = true) ∨
      (x.status = .failed fault.message ∧ x.result? = some (.error fault)) := by
  cases h with
  | astray running h =>
      left
      refine ⟨running, ?_⟩
      intro g r l
      cases h with
      | undecided hp _ _ _ => simp [advance_of_entering running hp]
      | unanswered hp _ _ => simp [advance_of_entering running hp]
  | left running hp =>
      left
      refine ⟨running, ?_⟩
      intro g r l
      simp [advance_of_left running hp]
  | closing running hp =>
      left
      refine ⟨running, ?_⟩
      intro g r l
      simp [advance_of_closing running hp]
  | ended status hp =>
      right
      refine ⟨status, ?_⟩
      simp [Execution.result?, hp]

/-- A doomed execution goes on to its failure and nowhere else. -/
theorem advance (h : Doomed fault x) (hadvance : x.advance g r l = some (x', l')) :
    Doomed fault x' := by
  cases h with
  | astray running h =>
      obtain ⟨hstatus, -, d, n, s, e, hp⟩ := h.advance hadvance
      exact .left (hstatus.trans running) hp
  | left running hp =>
      rw [advance_of_left running hp] at hadvance
      cases hadvance
      exact .closing running rfl
  | closing running hp =>
      rw [advance_of_closing running hp] at hadvance
      -- The journal may refuse the entry; the failure stays the result.
      have hresult := close_error x.context l r fault
      have hout : x' = (x.finish l r (.error fault)).1 :=
        (congrArg Prod.fst (Option.some.inj hadvance)).symm
      have hphase : x'.phase = .ended (close x.context l r (.error fault)).2.2 := by
        rw [hout]
        rfl
      have hstatus : x'.status = .ofResult (close x.context l r (.error fault)).2.2 := by
        rw [hout]
        rfl
      rw [hresult] at hphase hstatus
      exact .ended hstatus hphase
  | ended status hp =>
      rw [advance_of_ended hp] at hadvance
      cases hadvance

/-- Nothing but an end that a host puts to it saves it from that. -/
theorem moves (h : Doomed fault x) (hmoves : Moves g x x') :
    x'.status = .cancelled ∨ Doomed fault x' := by
  cases hmoves with
  | step _ hadvance =>
      exact .inr (h.advance hadvance)
  | deliver hdeliver =>
      right
      obtain ⟨-, inbox, rfl⟩ := of_deliver hdeliver
      cases h with
      | astray running h => exact .astray running (h.withInbox inbox)
      | left running hp => exact .left running hp
      | closing running hp => exact .closing running hp
      | ended status hp => exact .ended status hp
  | cancel =>
      rcases cancel_cases x with ⟨-, hsame⟩ | ⟨-, hcancelled⟩
      · rw [hsame]
        exact .inr h
      · rw [hcancelled]
        exact .inl rfl

/-- What is cancelled stays so. -/
theorem cancelled_of_moves (h : x.status = .cancelled) (hmoves : Moves g x x') :
    x'.status = .cancelled := by
  have hfinished : x.isFinished = true := by
    simp [isFinished, ExecutionStatus.isFinished, h]
  cases hmoves with
  | step _ hadvance =>
      have hrunning := running_of_advance hadvance
      rw [h] at hrunning
      cases hrunning
  | deliver hdeliver =>
      rw [(of_deliver hdeliver).1] at hfinished
      cases hfinished
  | cancel =>
      rcases cancel_cases x with ⟨-, hsame⟩ | ⟨-, hcancelled⟩
      · rw [hsame]
        exact h
      · rw [hcancelled]

theorem reaches (h : Doomed fault x) (hreaches : Reaches g x x') :
    x'.status = .cancelled ∨ Doomed fault x' := by
  induction hreaches with
  | refl => exact .inr h
  | tail _ hmoves ih =>
      rcases ih with hcancelled | hdoomed
      · exact .inl (cancelled_of_moves hcancelled hmoves)
      · exact hdoomed.moves hmoves

/-- Left alone it fails. -/
theorem settle (h : Doomed fault x) (r : Readings) (l : Ledger) :
    Doomed fault (x.settle g r l).1 := by
  fun_induction Execution.settle g r x l with
  | case1 x l x' l' hadvance ih => exact ih (h.advance hadvance)
  | case2 x l hstuck => exact h

/-- So it fails with this very fault. -/
theorem fails (h : Doomed fault x) : Fails g x fault := by
  constructor
  · intro z hreaches
    rcases h.reaches hreaches with hcancelled | hdoomed
    · exact .inl hcancelled
    · rcases hdoomed.shows with ⟨hrunning, hmoves⟩ | hfailed
      · exact .inr (.inl ⟨hrunning, hmoves g⟩)
      · exact .inr (.inr hfailed)
  · intro r l
    have hstuck := advance_settle g r x l
    rcases (h.settle (g := g) r l).shows with ⟨-, hmoves⟩ | hfailed
    · have hsome := hmoves g r (x.settle g r l).2
      rw [hstuck] at hsome
      cases hsome
    · exact hfailed

end Doomed

/-! ## The whole queue -/

/-- What was taken so far is a prefix of the entries. -/
theorem suffix_of_moves {entries : List JournalEntry}
    (h : ∃ taken, entries = taken ++ x.pending) (hmoves : Moves g x x') :
    ∃ taken, entries = taken ++ x'.pending := by
  obtain ⟨taken, htaken⟩ := h
  rcases (moves_onward hmoves).2 with hsame | ⟨e, hfirst⟩
  · exact ⟨taken, by rw [htaken, pending, pending, hsame]⟩
  · refine ⟨taken ++ [e], ?_⟩
    rw [htaken, pending, hfirst, List.append_assoc]
    rfl

/-- An execution that is caught keeps the discipline. -/
theorem disciplined_of_caught {entries : List JournalEntry} (hcaught : x.Caught)
    (hsuffix : ∃ taken, entries = taken ++ x.pending) : Disciplined g entries x := by
  constructor
  · exact hsuffix
  · intro x' hmoves
    exact (moves_onward hmoves).2
  · intro hpending
    refine ⟨fun hawaiting => hpending (hcaught (isOpen_of_awaiting hawaiting)), ?_⟩
    intro g' r l x' l' _ hadvance
    refine ⟨fun hawaiting => ?_, ?_⟩
    · exact hpending (live_of_advance hcaught hadvance (isOpen_of_awaiting hawaiting))
    · refine analysed_of_advance hadvance ?_
      unfold asks
      split
      · simp [hpending]
      · rfl
  · intro stepId fault running hastray
    refine ⟨?_, (Doomed.astray running hastray).fails, hastray.divergence⟩
    intro g' r l x' l' _ hadvance
    exact (hastray.advance hadvance).2.1

end Step

/-- Whatever was recorded after the start of a case, it is replayed in order and without waiting or
asking, and an entry that is not the one looked up fails the execution. -/
theorem resume_disciplined (g : Engine) (j : Journal) (caseId c name version : String)
    (payload : Value) (t : Instant) (entries : List JournalEntry)
    (loaded : j.load caseId = .ok (.started c name version payload t :: entries)) :
    ∃ y, Execution.resume j caseId = .ok y ∧ y.pending = entries ∧
      ∀ x, Reaches g y x → Disciplined g entries x := by
  refine ⟨.launching caseId ⟨name, version, payload, t, false⟩ entries, ?_, rfl, ?_⟩
  · simp [Execution.resume, loaded, Execution.ofEntries, bind, Except.bind]
  · intro x hreaches
    -- Two invariants: what is open has nothing before it, and what was taken is a beginning.
    have hall : x.Caught ∧ ∃ taken, entries = taken ++ x.pending := by
      induction hreaches with
      | refl => exact ⟨caught_launching _ _ _, [], rfl⟩
      | tail _ hmoves ih =>
          exact ⟨Execution.caught_of_moves ih.1 hmoves, suffix_of_moves ih.2 hmoves⟩
    exact disciplined_of_caught hall.1 hall.2

/-- A decision that was recorded for no step of the process. -/
theorem resume_disciplined_approval :
    ∃ y, Execution.resume
          (.memory [("case-1", [.started "case-1" "approval" "1" .null ⟨0, 0⟩,
            .signalConsumed "elsewhere" (.decision "approve" "s-1" ⟨1, 0⟩)])]) "case-1" = .ok y ∧
      y.pending = [.signalConsumed "elsewhere" (.decision "approve" "s-1" ⟨1, 0⟩)] ∧
      ∀ x, Reaches (Engine.approving none) y x →
        Disciplined (Engine.approving none)
          [.signalConsumed "elsewhere" (.decision "approve" "s-1" ⟨1, 0⟩)] x := by
  exact resume_disciplined (Engine.approving none) _ "case-1" "case-1" "approval" "1" .null ⟨0, 0⟩ _
    rfl

end Casework
