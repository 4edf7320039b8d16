import Casework.Journal.Log

/-!
# Look-ups and terminal operations of a log

What each operation of a log does with the entries of an earlier run, by the first of them.

* `JournalEntry.IsDecisionFor`, `JournalEntry.IsAnswerFor` : the entry that a look-up is after;
* `Log.recallSignal_of_nil` and its siblings : one equation for each kind of queue;
* `Log.recallSignal_of_other`, `Log.recallActivity_of_other` : any other entry is a divergence and
  is left where it is;
* `Log.complete_of_next`, `Log.fail_of_next` and their siblings : an end that was recorded is taken
  and not recorded again.
-/

namespace Casework

namespace JournalEntry

def IsDecisionFor (stepId : String) (e : JournalEntry) : Prop :=
  ∃ signal, e = .signalConsumed stepId signal

/-- An answer of a collaborator, or its absence, that was recorded for this very step. -/
def IsAnswerFor (stepId : String) (e : JournalEntry) : Prop :=
  ∃ output t, e = .activityCompleted stepId output t

end JournalEntry

namespace Log

variable {log : Log} {stepId : String} {rest : List JournalEntry} {e : JournalEntry}

/-! ## Look-ups -/

/-- After the replay there is no decision to be found. -/
theorem recallSignal_of_nil (h : log.pending = []) :
    log.recallSignal stepId = .ok (log, none) := by
  simp [recallSignal, h]

/-- After the replay there is no answer to be found. -/
theorem recallActivity_of_nil (h : log.pending = []) :
    log.recallActivity stepId = .ok (log, none) := by
  simp [recallActivity, h]

/-- The decision that comes next is taken, if it is for this step. -/
theorem recallSignal_of_decision {signal : Signal}
    (h : log.pending = .signalConsumed stepId signal :: rest) :
    log.recallSignal stepId = .ok ({ log with pending := rest }, some signal) := by
  simp [recallSignal, h]

/-- So is the answer. -/
theorem recallActivity_of_answer {output : Value} {t : Instant}
    (h : log.pending = .activityCompleted stepId output t :: rest) :
    log.recallActivity stepId = .ok ({ log with pending := rest }, some (output, t)) := by
  simp [recallActivity, h]

/-- A look-up that meets another entry diverges, and takes nothing. -/
theorem recallSignal_of_other (h : log.pending = e :: rest) (other : ¬ e.IsDecisionFor stepId) :
    log.recallSignal stepId = .error (divergence stepId .signalConsumed e) := by
  unfold recallSignal
  rw [h]
  cases e with
  | signalConsumed recorded signal =>
      have hne : recorded ≠ stepId := by
        intro heq
        exact other ⟨signal, by rw [heq]⟩
      simp [hne]
  | started _ _ _ _ _ => rfl
  | activityCompleted _ _ _ => rfl
  | completed _ _ => rfl
  | failed _ _ => rfl

/-- So does one for an answer. -/
theorem recallActivity_of_other (h : log.pending = e :: rest) (other : ¬ e.IsAnswerFor stepId) :
    log.recallActivity stepId = .error (divergence stepId .activityCompleted e) := by
  unfold recallActivity
  rw [h]
  cases e with
  | activityCompleted recorded output t =>
      have hne : recorded ≠ stepId := by
        intro heq
        exact other ⟨output, t, by rw [heq]⟩
      simp [hne]
  | started _ _ _ _ _ => rfl
  | signalConsumed _ _ => rfl
  | completed _ _ => rfl
  | failed _ _ => rfl

/-! ## Terminal operations -/

variable {j j' : Journal} {t : Instant}

/-- A completion that comes next is taken, and nothing is recorded. -/
theorem complete_of_next {status : String} (h : log.hasNext .completed = true) :
    log.complete j status t = .ok (log.tail, j) := by
  unfold hasNext at h
  unfold complete tail
  cases hpending : log.pending with
  | nil => simp [hpending] at h
  | cons e rest =>
      cases e <;> simp [hpending, JournalEntry.kind] at h ⊢

/-- Any other head leads to a record, which stands behind what is left. -/
theorem complete_of_other {status : String} (h : log.hasNext .completed = false)
    (happend : j.append log.caseId (.completed status t) = .ok j') :
    log.complete j status t = .ok (log, j') := by
  unfold hasNext at h
  unfold complete
  cases hpending : log.pending with
  | nil => simp [record, happend, Except.map]
  | cons e rest =>
      cases e <;> simp [hpending, JournalEntry.kind, record, happend, Except.map] at h ⊢

/-- A completion that is refused fails with the refusal. -/
theorem complete_of_refused {status : String} {fault : Error} (h : log.hasNext .completed = false)
    (happend : j.append log.caseId (.completed status t) = .error fault) :
    log.complete j status t = .error fault := by
  unfold hasNext at h
  unfold complete
  cases hpending : log.pending with
  | nil => simp [record, happend, Except.map]
  | cons e rest =>
      cases e <;> simp [hpending, JournalEntry.kind, record, happend, Except.map] at h ⊢

/-- A failure that comes next is taken, whatever its text. -/
theorem fail_of_next {fault : Error} (h : log.hasNext .failed = true) :
    log.fail j fault t = .ok (log.tail, j) := by
  unfold hasNext at h
  unfold fail tail
  cases hpending : log.pending with
  | nil => simp [hpending] at h
  | cons e rest =>
      cases e <;> simp [hpending, JournalEntry.kind] at h ⊢

/-- Any other head leads to a record of the failure. -/
theorem fail_of_other {fault : Error} (h : log.hasNext .failed = false)
    (happend : j.append log.caseId (.failed fault.message t) = .ok j') :
    log.fail j fault t = .ok (log, j') := by
  unfold hasNext at h
  unfold fail
  cases hpending : log.pending with
  | nil => simp [record, happend, Except.map]
  | cons e rest =>
      cases e <;> simp [hpending, JournalEntry.kind, record, happend, Except.map] at h ⊢

/-- A failure that is refused is refused with the fault of the journal. -/
theorem fail_of_refused {fault refusal : Error} (h : log.hasNext .failed = false)
    (happend : j.append log.caseId (.failed fault.message t) = .error refusal) :
    log.fail j fault t = .error refusal := by
  unfold hasNext at h
  unfold fail
  cases hpending : log.pending with
  | nil => simp [record, happend, Except.map]
  | cons e rest =>
      cases e <;> simp [hpending, JournalEntry.kind, record, happend, Except.map] at h ⊢

end Log
end Casework
