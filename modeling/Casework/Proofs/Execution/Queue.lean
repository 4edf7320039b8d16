import Casework.Proofs.Execution.World
import Casework.Proofs.Step.Visits

/-!
# The replay queue — what atomic steps do to recorded entries

* `Log.Onward` : a log with the same entries still to be replayed, or without the first of them;
* `Execution.advance_onward` : no atomic step does more to the log;
* `Execution.Caught` : what waits or is about to be recorded has no entry before it;
* `Execution.caught_of_moves` : this is so in every state that is reached;
* `Execution.analysed_of_advance` : which step asks a collaborator.
-/

namespace Casework

namespace Log

/-- The same entries still to be replayed, or all but the first. -/
def Onward (log log' : Log) : Prop :=
  log'.caseId = log.caseId ∧
    (log'.pending = log.pending ∨ ∃ e, log.pending = e :: log'.pending)

theorem Onward.refl (log : Log) : log.Onward log :=
  ⟨rfl, .inl rfl⟩

/-- Taking the first entry leads onward. -/
theorem onward_of_cons {log : Log} {e : JournalEntry} {rest : List JournalEntry}
    (h : log.pending = e :: rest) : log.Onward { log with pending := rest } :=
  ⟨rfl, .inr ⟨e, h⟩⟩

/-- Completion takes the first entry or none. -/
theorem complete_onward {log log' : Log} {j j' : Journal} {status : String} {t : Instant}
    (h : log.complete j status t = .ok (log', j')) : log.Onward log' := by
  unfold complete at h
  split at h
  · next hpending =>
      cases h
      exact onward_of_cons hpending
  · cases hrecord : log.record j (.completed status t) with
    | error fault =>
        rw [hrecord] at h
        cases h
    | ok j₁ =>
        rw [hrecord] at h
        cases h
        exact .refl log

/-- So does failure. -/
theorem fail_onward {log log' : Log} {j j' : Journal} {e : Error} {t : Instant}
    (h : log.fail j e t = .ok (log', j')) : log.Onward log' := by
  unfold fail at h
  split at h
  · next hpending =>
      cases h
      exact onward_of_cons hpending
  · cases hrecord : log.record j (.failed e.message t) with
    | error fault =>
        rw [hrecord] at h
        cases h
    | ok j₁ =>
        rw [hrecord] at h
        cases h
        exact .refl log

end Log

namespace Execution

variable {g : Engine} {r : Readings} {x x' : Execution} {l l' : Ledger}

def pending (x : Execution) : List JournalEntry := x.context.log.pending

/-! ## The log -/

/-- So does the end of an execution. -/
theorem close_onward (c : Context) (l : Ledger) (r : Readings) (result : Except Error Case) :
    c.log.Onward (close c l r result).1.log := by
  unfold close
  cases result with
  | ok k =>
      dsimp only
      cases h : c.log.complete l.journal k.status k.details.updatedAt with
      | error fault => exact .refl c.log
      | ok out => exact Log.complete_onward h
  | error e =>
      dsimp only
      cases h : c.log.fail l.journal e r.now with
      | error fault => exact .refl c.log
      | ok out => exact Log.fail_onward h

/-- A visit that begins takes at most the entry that is next. -/
theorem onward_of_entering {settings : EngineSettings} {s : StepDefinition} {c : Context}
    {e : Executor} {out : Context × Ledger × Visit} (h : Visit.Entering settings s r c l e out) :
    c.log.Onward out.1.log := by
  cases h with
  | noQuestion _ => exact .refl c.log
  | asking _ _ => exact .refl c.log
  | decided _ hpending => exact Log.onward_of_cons hpending
  | undecided _ _ _ => exact .refl c.log
  | noStatus _ => exact .refl c.log
  | committed _ => exact .refl c.log
  | alone _ => exact .refl c.log
  | unopened _ _ => exact .refl c.log
  | refused _ _ _ => exact .refl c.log
  | answered _ _ _ => exact .refl c.log
  | analysed hpending _ =>
      rw [Visit.log_applyEnrichment]
      exact Log.onward_of_cons hpending
  | unreadable hpending _ => exact Log.onward_of_cons hpending
  | unanswered _ _ => exact .refl c.log

theorem log_openCase (g : Engine) (x : Execution) :
    (x.openCase g).context.log = x.context.log := by
  unfold openCase
  split <;> rfl

theorem context_start (x : Execution) (l : Ledger) : (x.start l).1.context = x.context := by
  unfold start
  split <;> rfl

theorem log_settleDecision (s : StepDefinition) (c : Context) (l : Ledger) (signal : Signal) :
    (Visit.settleDecision s c l signal).1.log = c.log := by
  unfold Visit.settleDecision
  split <;> rfl

theorem log_settleEnrichment (s : StepDefinition) (c : Context) (l : Ledger)
    (a : Option Enrichment) (t : Instant) :
    (Visit.settleEnrichment s c l a t).1.log = c.log := by
  unfold Visit.settleEnrichment
  split
  · rfl
  · rw [Visit.log_applyEnrichment]
    rfl

/-- An atomic step leaves the log as it is or takes its first entry. -/
theorem advance_onward {b : Execution × Ledger} (h : x.advance g r l = some b) :
    x.context.log.Onward b.1.context.log := by
  cases stepping h with
  | starting hp =>
      rw [context_start]
      exact .refl _
  | opening hp =>
      rw [log_openCase]
      exact .refl _
  | dispatching hp => exact .refl _
  | entering hp ways => exact onward_of_entering ways
  | awaiting hp hw => exact .refl _
  | @decided d n s e signal hp =>
      have hlog := log_settleDecision s x.context l signal
      rw [inVisit, hlog]
      exact .refl _
  | @analysed d n s e a t hp =>
      have hlog := log_settleEnrichment s x.context l a t
      rw [inVisit, hlog]
      exact .refl _
  | left hp => exact .refl _
  | @closing result hp => exact close_onward x.context l r result

/-- A delivery and an end by the host leave the log as it is. -/
theorem moves_onward (h : Moves g x x') : x.context.log.Onward x'.context.log := by
  cases h with
  | step _ h => exact advance_onward h
  | deliver h =>
      obtain ⟨-, inbox, rfl⟩ := of_deliver h
      exact .refl _
  | cancel =>
      rw [context_cancel]
      exact .refl _

end Execution

/-! ## Waiting -/

/-- Whether a visit waits, or holds something that is about to be recorded. -/
def Visit.isOpen : Visit → Bool
  | .awaiting _ | .decided _ | .analysed _ _ => true
  | _ => false

def Phase.isOpen : Phase → Bool
  | .visiting _ _ _ _ v => v.isOpen
  | _ => false

namespace Execution

variable {g : Engine} {r : Readings} {x x' : Execution} {l l' : Ledger}

/-- What waits or is about to be recorded has no entry before it. -/
def Caught (x : Execution) : Prop :=
  x.phase.isOpen = true → x.pending = []

/-- A visit waits or records only if nothing is left to be replayed. -/
theorem live_of_entering {settings : EngineSettings} {s : StepDefinition} {c : Context}
    {e : Executor} {out : Context × Ledger × Visit} (h : Visit.Entering settings s r c l e out)
    (hopen : out.2.2.isOpen = true) : c.log.pending = [] := by
  cases h with
  | noQuestion _ => cases hopen
  | asking _ live => exact live
  | decided _ _ => cases hopen
  | undecided _ _ _ => cases hopen
  | noStatus _ => cases hopen
  | committed _ => cases hopen
  | alone live => exact live
  | unopened _ _ => cases hopen
  | refused _ _ _ => cases hopen
  | answered live _ _ => exact live
  | analysed _ _ => cases hopen
  | unreadable _ _ => cases hopen
  | unanswered _ _ => cases hopen

theorem phase_start (x : Execution) (l : Ledger) : (x.start l).1.phase.isOpen = false := by
  unfold start
  split <;> rfl

theorem phase_openCase (g : Engine) (x : Execution) : (x.openCase g).phase.isOpen = false := by
  unfold openCase
  split <;> rfl

theorem phase_dispatch (g : Engine) (d : Definition) (n : Nat) (stepId : String) :
    (dispatch g d n stepId).isOpen = false := by
  unfold dispatch
  split
  · rfl
  · split <;> rfl

theorem phase_proceed (c : Context) (l : Ledger) (d : Definition) (n : Nat) (s : StepDefinition)
    (result : Except Error Outcome) : (proceed c l d n s result).1.isOpen = false := by
  unfold proceed
  split <;> rfl

/-- A visit is opened, or stays open, only when no entry remains. -/
theorem live_of_advance {b : Execution × Ledger} (hx : x.Caught)
    (h : x.advance g r l = some b) (hopen : b.1.phase.isOpen = true) : x.pending = [] := by
  cases stepping h with
  | starting hp => simp [phase_start] at hopen
  | opening hp => simp [phase_openCase] at hopen
  | dispatching hp => simp [phase_dispatch] at hopen
  | entering hp ways => exact live_of_entering ways hopen
  | awaiting hp hw => exact hx (by rw [hp]; rfl)
  | decided hp => exact hx (by rw [hp]; rfl)
  | analysed hp => exact hx (by rw [hp]; rfl)
  | left hp => simp [betweenVisits, phase_proceed] at hopen
  | closing hp => cases hopen

/-- Every atomic step keeps an execution caught. -/
theorem caught_of_advance {b : Execution × Ledger} (hx : x.Caught)
    (h : x.advance g r l = some b) : b.1.Caught := by
  intro hopen
  have hlive := live_of_advance hx h hopen
  -- No entry was there before the step, so the step has taken none.
  rcases (advance_onward h).2 with hsame | ⟨e, hfirst⟩
  · exact hsame.trans hlive
  · rw [pending, hfirst] at hlive
    cases hlive

/-- So does everything else. -/
theorem caught_of_moves (hx : x.Caught) (h : Moves g x x') : x'.Caught := by
  cases h with
  | step _ h => exact caught_of_advance hx h
  | deliver h =>
      obtain ⟨-, inbox, rfl⟩ := of_deliver h
      exact hx
  | cancel =>
      rw [cancel_eq]
      exact hx

/-- Who waits has an open visit. -/
theorem isOpen_of_awaiting (h : x.IsAwaiting) : x.phase.isOpen = true := by
  obtain ⟨d, n, s, e, w, hp⟩ := h
  rw [hp]
  rfl

/-! ## Asking -/

def asks (x : Execution) : Bool :=
  match x.phase with
  | .visiting _ _ _ (.caseEnrichment (some _)) .entering => x.pending.isEmpty
  | _ => false

/-- Recording asks nobody. -/
theorem analysed_of_record {log : Log} {entry : JournalEntry} (h : l.record log entry = .ok l') :
    l'.analysed = l.analysed := by
  unfold Ledger.record at h
  cases hrecord : log.record l.journal entry with
  | error fault =>
      rw [hrecord] at h
      cases h
  | ok j =>
      rw [hrecord] at h
      cases h
      rfl

/-- A visit asks a collaborator only if nothing is left to be replayed. -/
theorem analysed_of_entering {settings : EngineSettings} {s : StepDefinition} {c : Context}
    {e : Executor} {out : Context × Ledger × Visit} (h : Visit.Entering settings s r c l e out)
    (quiet : c.log.pending = [] → ∀ x, e ≠ .caseEnrichment (some x)) :
    out.2.1.analysed = l.analysed := by
  cases h with
  | refused live _ _ => exact absurd rfl (quiet live _)
  | answered live _ _ => exact absurd rfl (quiet live _)
  | _ => rfl

theorem analysed_start (x : Execution) (l : Ledger) : (x.start l).2.analysed = l.analysed := by
  unfold start
  cases h : l.record x.context.log x.startEntry with
  | ok l₁ => exact analysed_of_record h
  | error fault => rfl

theorem analysed_settleDecision (s : StepDefinition) (c : Context) (l : Ledger)
    (signal : Signal) : (Visit.settleDecision s c l signal).2.1.analysed = l.analysed := by
  unfold Visit.settleDecision
  cases h : l.record c.log (.signalConsumed s.stepId signal) with
  | ok l₁ =>
      have hsame : l₁.analysed = l.analysed := analysed_of_record h
      exact hsame
  | error fault => rfl

theorem analysed_settleEnrichment (s : StepDefinition) (c : Context) (l : Ledger)
    (a : Option Enrichment) (t : Instant) :
    (Visit.settleEnrichment s c l a t).2.1.analysed = l.analysed := by
  unfold Visit.settleEnrichment
  cases h : l.record c.log (.activityCompleted s.stepId (toValue a) t) with
  | ok l₁ => exact analysed_of_record h
  | error fault => rfl

theorem analysed_close (c : Context) (l : Ledger) (r : Readings) (result : Except Error Case) :
    (close c l r result).2.1.analysed = l.analysed := by
  unfold close
  split <;> split <;> rfl

theorem analysed_proceed (c : Context) (l : Ledger) (d : Definition) (n : Nat)
    (s : StepDefinition) (result : Except Error Outcome) :
    (proceed c l d n s result).2.analysed = l.analysed := by
  unfold proceed
  split <;> rfl

/-- A collaborator is asked by no other step. -/
theorem analysed_of_advance {b : Execution × Ledger} (h : x.advance g r l = some b)
    (hasks : x.asks = false) : b.2.analysed = l.analysed := by
  cases stepping h with
  | starting hp => exact analysed_start x l
  | opening hp => rfl
  | dispatching hp => rfl
  | entering hp ways =>
      -- A collaborator is asked only where no entry remains.
      refine analysed_of_entering ways ?_
      rintro live enricher rfl
      simp [asks, hp, pending, live] at hasks
  | awaiting hp hw => rfl
  | decided hp => exact analysed_settleDecision _ x.context l _
  | analysed hp => exact analysed_settleEnrichment _ x.context l _ _
  | left hp => exact analysed_proceed x.context l _ _ _ _
  | @closing result hp => exact analysed_close x.context l r result

end Execution

/-- At its beginning an execution is in no visit. -/
theorem caught_launching (caseId : String) (launch : Launch) (entries : List JournalEntry) :
    (Execution.launching caseId launch entries).Caught := by
  intro hopen
  unfold Execution.launching at hopen
  dsimp only at hopen
  split at hopen <;> cases hopen

end Casework
