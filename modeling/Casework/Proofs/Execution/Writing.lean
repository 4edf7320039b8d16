import Casework.Execution.Append
import Casework.Proofs.Execution.Queue
import Casework.Proofs.Journal.Keeping

/-!
# Writing — which entry an atomic step hands to the journal

* `Execution.Writes`, `Execution.writes_of_written` : all that such an entry can be;
* `Execution.Kept` : the journal takes it and gives it back;
* `Execution.start_of_kept` and its siblings : what a step leaves when its entry is kept;
* `Execution.advance_of_land` : a step whose entry is taken, as its two halves;
* `Execution.load_of_advance` : what the journal of the case holds afterwards;
* `Execution.accepted?` : the entry of the next atomic step, if the journal takes it;
* `Execution.start_of_refused` and its siblings : what a step leaves when its entry is not taken.
-/

namespace Casework

namespace Execution

variable {g : Engine} {r : Readings} {x x' : Execution} {l l' : Ledger} {j : Journal}

theorem written?_of_starting (hp : x.phase = .starting) : x.written? r = some x.startEntry := by
  simp [written?, hp]

theorem written?_of_decided {d : Definition} {n : Nat} {s : StepDefinition} {e : Executor}
    {signal : Signal} (hp : x.phase = .visiting d n s e (.decided signal)) :
    x.written? r = some (.signalConsumed s.stepId signal) := by
  simp [written?, hp]

theorem written?_of_analysed {d : Definition} {n : Nat} {s : StepDefinition} {e : Executor}
    {a : Option Enrichment} {t : Instant} (hp : x.phase = .visiting d n s e (.analysed a t)) :
    x.written? r = some (.activityCompleted s.stepId (toValue a) t) := by
  simp [written?, hp]

/-- The last step writes nothing if an earlier run has recorded the end. -/
theorem written?_of_next {result : Except Error Case} (hp : x.phase = .closing result)
    (h : x.context.log.hasNext (terminal r result).kind = true) : x.written? r = none := by
  simp [written?, hp, h]

theorem written?_of_other {result : Except Error Case} (hp : x.phase = .closing result)
    (h : x.context.log.hasNext (terminal r result).kind = false) :
    x.written? r = some (terminal r result) := by
  simp [written?, hp, h]

/-- All that an atomic step can be about to append. -/
inductive Writes (r : Readings) (x : Execution) : JournalEntry → Prop
  | start (hp : x.phase = .starting) : Writes r x x.startEntry
  | decision {d : Definition} {n : Nat} {s : StepDefinition} {e : Executor} {signal : Signal}
      (hp : x.phase = .visiting d n s e (.decided signal)) :
      Writes r x (.signalConsumed s.stepId signal)
  | answer {d : Definition} {n : Nat} {s : StepDefinition} {e : Executor} {a : Option Enrichment}
      {t : Instant} (hp : x.phase = .visiting d n s e (.analysed a t)) :
      Writes r x (.activityCompleted s.stepId (toValue a) t)
  | ending {result : Except Error Case} (hp : x.phase = .closing result)
      (other : x.context.log.hasNext (terminal r result).kind = false) :
      Writes r x (terminal r result)

/-- A step that writes is one of four, with its entry. -/
theorem writes_of_written {entry : JournalEntry} (h : x.written? r = some entry) :
    x.Writes r entry := by
  cases hp : x.phase with
  | starting =>
      have hentry := (written?_of_starting hp).symm.trans h
      cases hentry
      exact .start hp
  | opening => simp [written?, hp] at h
  | dispatching d n stepId => simp [written?, hp] at h
  | ended result => simp [written?, hp] at h
  | closing result =>
      cases hnext : x.context.log.hasNext (terminal r result).kind with
      | true => simp [written?_of_next hp hnext] at h
      | false =>
          have hentry := (written?_of_other hp hnext).symm.trans h
          cases hentry
          exact .ending hp hnext
  | visiting d n s e v =>
      cases v with
      | decided signal =>
          have hentry := (written?_of_decided hp).symm.trans h
          cases hentry
          exact .decision hp
      | analysed a t =>
          have hentry := (written?_of_analysed hp).symm.trans h
          cases hentry
          exact .answer hp
      | _ => simp [written?, hp] at h

/-- The journal takes the entry of the next atomic step and gives it back. -/
def Kept (r : Readings) (x : Execution) (l : Ledger) : Prop :=
  ∀ e, x.written? r = some e → l.journal.Keeps x.context.log.caseId e

/-- A journal in memory keeps whatever an execution appends. -/
theorem kept_of_memory {cases : Table (List JournalEntry)} (h : l.journal = .memory cases) :
    x.Kept r l := by
  intro e _
  rw [h]
  exact Journal.keeps_memory cases x.context.log.caseId e

/-! ## Steps that append -/

/-- A ledger whose journal takes an entry takes it. -/
theorem record_eq {log : Log} {e : JournalEntry} (h : l.journal.append log.caseId e = .ok j) :
    l.record log e = .ok { l with journal := j } := by
  simp [Ledger.record, Log.record, h, Except.map]

/-- The start that is taken leads to the opening of the case. -/
theorem start_of_kept (h : l.journal.append x.context.log.caseId x.startEntry = .ok j) :
    x.start l = ({ x with phase := .opening }, { l with journal := j }) := by
  unfold start
  rw [record_eq h]

/-- A decision that is taken is applied and leaves the visit. -/
theorem settleDecision_of_kept {s : StepDefinition} {c : Context} {signal : Signal}
    (h : l.journal.append c.log.caseId (.signalConsumed s.stepId signal) = .ok j) :
    Visit.settleDecision s c l signal =
      (Visit.applyDecision c signal,
        { l with journal := j }.report
          (.one "case_decisions_total" [("step", s.stepId), ("value", signal.value)]),
        Visit.leave s signal.value) := by
  unfold Visit.settleDecision
  rw [record_eq h]

/-- An answer that is taken is applied and leaves the visit. -/
theorem settleEnrichment_of_kept {s : StepDefinition} {c : Context} {a : Option Enrichment}
    {t : Instant} (h : l.journal.append c.log.caseId (.activityCompleted s.stepId (toValue a) t) =
      .ok j) :
    Visit.settleEnrichment s c l a t =
      (Visit.applyEnrichment (c.advanceClock t) a, { l with journal := j },
        Visit.leave s none) := by
  unfold Visit.settleEnrichment
  rw [record_eq h]

/-! ## The end of an execution -/

/-- An end that an earlier run has recorded is passed over. -/
theorem finish_of_next {result : Except Error Case}
    (h : x.context.log.hasNext (terminal r result).kind = true) :
    x.finish l r result =
      ({ x with context := { x.context with log := x.context.log.tail }, phase := .ended result,
                status := .ofResult result }, l.report (executionMetric result.isOk)) := by
  cases result with
  | ok k =>
      have hcomplete : x.context.log.complete l.journal k.status k.details.updatedAt =
          .ok (x.context.log.tail, l.journal) := Log.complete_of_next h
      unfold finish close
      dsimp only
      rw [hcomplete]
      rfl
  | error fault =>
      have hfail : x.context.log.fail l.journal fault r.now =
          .ok (x.context.log.tail, l.journal) := Log.fail_of_next h
      unfold finish close
      dsimp only
      rw [hfail]
      rfl

/-- An end that is taken ends the execution with its result. -/
theorem finish_of_kept {result : Except Error Case}
    (h : x.context.log.hasNext (terminal r result).kind = false)
    (happend : l.journal.append x.context.log.caseId (terminal r result) = .ok j) :
    x.finish l r result =
      ({ x with phase := .ended result, status := .ofResult result },
        { l with journal := j }.report (executionMetric result.isOk)) := by
  cases result with
  | ok k =>
      have hcomplete : x.context.log.complete l.journal k.status k.details.updatedAt =
          .ok (x.context.log, j) := Log.complete_of_other h happend
      unfold finish close
      dsimp only
      rw [hcomplete]
      rfl
  | error fault =>
      have hfail : x.context.log.fail l.journal fault r.now = .ok (x.context.log, j) :=
        Log.fail_of_other h happend
      unfold finish close
      dsimp only
      rw [hfail]
      rfl

/-! ## Appends in two halves -/

/-- The first half of a step succeeds exactly if its entry is taken. -/
theorem land_eq_some_iff : x.land r l = some l' ↔
    ∃ e j, x.written? r = some e ∧ l.journal.append x.context.log.caseId e = .ok j ∧
      l' = { l with journal := j } := by
  unfold land
  rw [Option.bind_eq_some_iff]
  constructor
  · rintro ⟨e, hwritten, hrecord⟩
    cases happend : l.journal.append x.context.log.caseId e with
    | ok j =>
        rw [record_eq happend] at hrecord
        cases hrecord
        exact ⟨e, j, hwritten, happend, rfl⟩
    | error fault => simp [Ledger.record, Log.record, happend, Except.map, Except.toOption] at hrecord
  · rintro ⟨e, j, hwritten, happend, rfl⟩
    exact ⟨e, hwritten, by rw [record_eq happend]; rfl⟩

/-- A step whose entry is taken is its two halves, one after the other. -/
theorem advance_of_land (hs : x.status = .running) (h : x.land r l = some l') :
    x.advance g r l = some (x.conclude l') := by
  obtain ⟨e, j, hwritten, happend, rfl⟩ := land_eq_some_iff.1 h
  cases writes_of_written hwritten with
  | start hp =>
      rw [advance_of_starting hs hp, start_of_kept happend]
      simp [conclude, hp]
  | decision hp =>
      rw [advance_of_decided hs hp, settleDecision_of_kept happend]
      simp [conclude, hp, inVisit]
  | answer hp =>
      rw [advance_of_analysed hs hp, settleEnrichment_of_kept happend]
      simp [conclude, hp, inVisit]
  | ending hp other =>
      have hrunning : x.isFinished = false := running_iff.2 hs
      rw [advance_of_closing hs hp, finish_of_kept other happend]
      simp [conclude, hp, hrunning]

/-! ## The journal -/

theorem journal_proceed (c : Context) (l : Ledger) (d : Definition) (n : Nat)
    (s : StepDefinition) (result : Except Error Outcome) :
    (proceed c l d n s result).2.journal = l.journal := by
  unfold proceed
  split <;> rfl

/-- A visit that begins writes nothing. -/
theorem journal_of_entering {settings : EngineSettings} {s : StepDefinition} {c : Context}
    {e : Executor} {out : Context × Ledger × Visit} (h : Visit.Entering settings s r c l e out) :
    out.2.1.journal = l.journal := by
  cases h <;> rfl

/-- A step that appends nothing leaves the journal as it is. -/
theorem journal_of_advance {b : Execution × Ledger} (h : x.advance g r l = some b)
    (hentry : x.written? r = none) : b.2.journal = l.journal := by
  cases stepping h with
  | starting hp => simp [written?, hp] at hentry
  | opening hp => rfl
  | dispatching hp => rfl
  | entering hp ways => exact journal_of_entering ways
  | awaiting hp hw => rfl
  | decided hp => simp [written?, hp] at hentry
  | analysed hp => simp [written?, hp] at hentry
  | left hp => exact journal_proceed x.context l _ _ _ _
  | @closing result hp =>
      have hnext : x.context.log.hasNext (terminal r result).kind = true := by
        simpa [written?, hp] using hentry
      rw [finish_of_next hnext]
      rfl

/-- A step whose entry is taken leaves the journal with that entry. -/
theorem journal_of_append {b : Execution × Ledger} {e : JournalEntry}
    (h : x.advance g r l = some b) (hentry : x.written? r = some e)
    (happend : l.journal.append x.context.log.caseId e = .ok j) : b.2.journal = j := by
  cases stepping h with
  | starting hp =>
      rw [written?_of_starting hp] at hentry
      cases hentry
      rw [start_of_kept happend]
  | opening hp => simp [written?, hp] at hentry
  | dispatching hp => simp [written?, hp] at hentry
  | entering hp ways => simp [written?, hp] at hentry
  | awaiting hp hw => simp [written?, hp] at hentry
  | decided hp =>
      rw [written?_of_decided hp] at hentry
      cases hentry
      rw [settleDecision_of_kept happend]
      rfl
  | analysed hp =>
      rw [written?_of_analysed hp] at hentry
      cases hentry
      rw [settleEnrichment_of_kept happend]
      rfl
  | left hp => simp [written?, hp] at hentry
  | @closing result hp =>
      -- Had the entry been next in the log, nothing would be appended.
      cases hnext : x.context.log.hasNext (terminal r result).kind with
      | true =>
          rw [written?_of_next hp hnext] at hentry
          cases hentry
      | false =>
          rw [written?_of_other hp hnext] at hentry
          cases hentry
          rw [finish_of_kept hnext happend]
          rfl

/-- The second half of a step leaves the journal as the first half left it. -/
theorem journal_conclude (x : Execution) (l : Ledger) : (x.conclude l).2.journal = l.journal := by
  unfold conclude
  split <;> rfl

/-- The journal of the case holds what it held, and the entry of the step. -/
theorem load_of_advance {caseId : String} {es : List JournalEntry}
    (h : x.advance g r l = some (x', l')) (hcase : x.context.log.caseId = caseId)
    (kept : x.Kept r l) (hload : l.journal.load caseId = .ok es) :
    l'.journal.load caseId = .ok (es ++ (x.written? r).toList) := by
  subst hcase
  cases hentry : x.written? r with
  | none =>
      rw [journal_of_advance h hentry, hload]
      simp
  | some e =>
      obtain ⟨j, happend, hkeeps⟩ := kept e hentry
      rw [journal_of_append h hentry happend]
      exact hkeeps es hload

/-! ## Entries that are not taken -/

/-- The entry of the next atomic step, if the journal takes it. -/
def accepted? (r : Readings) (x : Execution) (l : Ledger) : Option JournalEntry :=
  (x.written? r).filter fun e => (l.journal.append x.context.log.caseId e).isOk

theorem accepted?_of_unwritten (h : x.written? r = none) : x.accepted? r l = none := by
  simp [accepted?, h]

theorem accepted?_of_taken {e : JournalEntry} (h : x.written? r = some e)
    (happend : l.journal.append x.context.log.caseId e = .ok j) : x.accepted? r l = some e := by
  simp [accepted?, h, happend, Except.isOk, Except.toBool]

theorem accepted?_of_refused {e : JournalEntry} {fault : Error} (h : x.written? r = some e)
    (happend : l.journal.append x.context.log.caseId e = .error fault) :
    x.accepted? r l = none := by
  simp [accepted?, h, happend, Except.isOk, Except.toBool]

/-- What was accepted was written, and the journal took it. -/
theorem of_accepted? {e : JournalEntry} (h : x.accepted? r l = some e) :
    x.written? r = some e ∧ ∃ j, l.journal.append x.context.log.caseId e = .ok j := by
  obtain ⟨hwritten, hok⟩ := Option.filter_eq_some_iff.1 h
  refine ⟨hwritten, ?_⟩
  cases happend : l.journal.append x.context.log.caseId e with
  | ok j => exact ⟨j, rfl⟩
  | error fault => simp [happend, Except.isOk, Except.toBool] at hok

variable {fault : Error}

theorem record_of_refused {log : Log} {e : JournalEntry}
    (h : l.journal.append log.caseId e = .error fault) : l.record log e = .error fault := by
  simp [Ledger.record, Log.record, h, Except.map]

/-- If its start is refused, an execution fails without a case. -/
theorem start_of_refused (h : l.journal.append x.context.log.caseId x.startEntry = .error fault) :
    x.start l = ({ x with phase := .closing (.error fault) }, l) := by
  unfold start
  rw [record_of_refused h]

/-- A decision that is refused leaves the case alone, and the visit with the fault. -/
theorem settleDecision_of_refused {s : StepDefinition} {c : Context} {signal : Signal}
    (h : l.journal.append c.log.caseId (.signalConsumed s.stepId signal) = .error fault) :
    Visit.settleDecision s c l signal = (c, l, .left (.error fault)) := by
  unfold Visit.settleDecision
  rw [record_of_refused h]

/-- So does an answer that is refused. -/
theorem settleEnrichment_of_refused {s : StepDefinition} {c : Context} {a : Option Enrichment}
    {t : Instant} (h : l.journal.append c.log.caseId (.activityCompleted s.stepId (toValue a) t) =
      .error fault) :
    Visit.settleEnrichment s c l a t = (c, l, .left (.error fault)) := by
  unfold Visit.settleEnrichment
  rw [record_of_refused h]

/-- An end that could not be recorded is an end all the same, if not the same one. -/
theorem finish_of_refused {result : Except Error Case}
    (h : x.context.log.hasNext (terminal r result).kind = false)
    (happend : l.journal.append x.context.log.caseId (terminal r result) = .error fault) :
    ∃ result', (x.finish l r result).1 =
        { x with phase := .ended result', status := .ofResult result' } ∧
      (x.finish l r result).2.journal = l.journal := by
  -- A completion that is refused becomes a failure; a failure is kept and only warned about.
  cases result with
  | ok k =>
      have hclose : close x.context l r (.ok k) = (x.context, l, .error fault) := by
        have hcomplete : x.context.log.complete l.journal k.status k.details.updatedAt =
            .error fault := Log.complete_of_refused h happend
        unfold close
        dsimp only
        rw [hcomplete]
      refine ⟨.error fault, ?_, ?_⟩
      · simp only [finish, hclose]
      · simp only [finish, hclose]
  | error e =>
      have hclose : close x.context l r (.error e) =
          (x.context, l.report (executionMetric false), .error e) := by
        have hfail : x.context.log.fail l.journal e r.now = .error fault :=
          Log.fail_of_refused h happend
        unfold close
        dsimp only
        rw [hfail]
      refine ⟨.error e, ?_, ?_⟩
      · simp only [finish, hclose]
      · simp only [finish, hclose]
        rfl

/-- A step whose entry is not taken leaves the journal as it is. -/
theorem journal_of_refused {b : Execution × Ledger} {e : JournalEntry}
    (h : x.advance g r l = some b) (hentry : x.written? r = some e)
    (happend : l.journal.append x.context.log.caseId e = .error fault) :
    b.2.journal = l.journal := by
  -- Four steps have an entry, and each goes on, if it was not taken, with the journal it had.
  cases stepping h with
  | starting hp =>
      rw [written?_of_starting hp] at hentry
      cases hentry
      rw [start_of_refused happend]
  | opening hp => simp [written?, hp] at hentry
  | dispatching hp => simp [written?, hp] at hentry
  | entering hp ways => simp [written?, hp] at hentry
  | awaiting hp hw => simp [written?, hp] at hentry
  | decided hp =>
      rw [written?_of_decided hp] at hentry
      cases hentry
      rw [settleDecision_of_refused happend]
      rfl
  | analysed hp =>
      rw [written?_of_analysed hp] at hentry
      cases hentry
      rw [settleEnrichment_of_refused happend]
      rfl
  | left hp => simp [written?, hp] at hentry
  | @closing result hp =>
      cases hnext : x.context.log.hasNext (terminal r result).kind with
      | true =>
          rw [written?_of_next hp hnext] at hentry
          cases hentry
      | false =>
          rw [written?_of_other hp hnext] at hentry
          cases hentry
          obtain ⟨-, -, hjournal⟩ := finish_of_refused hnext happend
          exact hjournal

/-- Nothing that the journal does not take changes it. -/
theorem journal_of_unaccepted {b : Execution × Ledger} (h : x.advance g r l = some b)
    (hnone : x.accepted? r l = none) : b.2.journal = l.journal := by
  cases hentry : x.written? r with
  | none => exact journal_of_advance h hentry
  | some e =>
      cases happend : l.journal.append x.context.log.caseId e with
      | ok j =>
          rw [accepted?_of_taken hentry happend] at hnone
          cases hnone
      | error fault => exact journal_of_refused h hentry happend

end Execution
end Casework
