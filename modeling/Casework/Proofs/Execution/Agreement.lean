import Casework.Proofs.Execution.Task

/-!
# Agreement — status, result, published case and journal tell the same

Four places say how an execution ended: its status, its result, the case as last published and the
last entry that it journaled.  They are written at different points.  The entry is in the journal
first and the status comes last, so whoever stops the execution in between leaves it stopped, with a
journal that tells of its end.  Nothing else makes them disagree, if the journal takes what the
execution writes.

* `Execution.Agreement` : what the four places have to do with each other;
* `Execution.Overtaken` : what is left of it for an execution that was stopped awake;
* `Task.Sound` : the invariant, on the way to the end, amid its append, and after it;
* `agreement_unless_overtaken` : between two appends they agree, unless the execution was stopped
  awake;
* `completion_overtaken` : one that is stopped while it records its completion.
-/

namespace Casework
namespace Execution

/-- What status, result and published case have to do with the entries that were journaled. -/
structure Agreement (x : Execution) (es : List JournalEntry) : Prop where
  completed : x.status = .completed ↔ ∃ label t, es.getLast? = some (.completed label t)
  published : ∀ label t, es.getLast? = some (.completed label t) →
    ∃ k, x.published = some k ∧ k.status = label ∧ k.details.updatedAt = t ∧
      x.result? = some (.ok k)
  failed : ∀ text, x.status = .failed text ↔ ∃ t, es.getLast? = some (.failed text t)
  error : ∀ text, x.status = .failed text →
    ∃ e, x.result? = some (.error e) ∧ e.message = text
  unfinished : x.status = .running ∨ x.status = .cancelled → ∀ e ∈ es, e.isFinal = false

/-- What is known of an execution that was stopped awake: it may have journaled its end, as the last
of its entries, and then with the case as it is published. -/
structure Overtaken (x : Execution) (es : List JournalEntry) : Prop where
  unfinished : ∀ e ∈ es.dropLast, e.isFinal = false
  published : ∀ label t, es.getLast? = some (.completed label t) →
    ∃ k, x.published = some k ∧ k.status = label ∧ k.details.updatedAt = t

variable {g : Engine} {r : Readings} {x x' : Execution} {l : Ledger} {b : Execution × Ledger}
variable {es : List JournalEntry} {entry : JournalEntry} {result : Except Error Case}

/-! ## One atomic step -/

/-- Only the last step of an execution writes an entry that ends a journal. -/
theorem isFinal_of_writes (h : x.Writes r entry) (unclosed : ∀ result, x.phase ≠ .closing result) :
    entry.isFinal = false := by
  cases h with
  | start hp => rfl
  | decision hp => rfl
  | answer hp => rfl
  | ending hp other => exact absurd hp (unclosed _)

/-- An execution that replays nothing never replays anything. -/
theorem pending_of_advance (h : x.advance g r l = some b) (live : x.pending = []) :
    b.1.pending = [] := by
  rcases (advance_onward h).2 with hsame | ⟨e, hfirst⟩
  · exact hsame.trans live
  · rw [pending, hfirst] at live
    cases live

/-- A walk ends with the case as it is published. -/
theorem published_of_finalCase {c : Context} {k : Case} (h : finalCase c = .ok k) :
    c.published = some k := by
  unfold finalCase at h
  split at h
  · next hpublished =>
      cases h
      exact hpublished
  · cases h

/-- A visit after which the execution closes with a case leaves that case published. -/
theorem of_proceed_closing {c : Context} {d : Definition} {n : Nat} {s : StepDefinition}
    {outcome : Except Error Outcome} {k : Case}
    (h : (proceed c l d n s outcome).1 = .closing (.ok k)) : c.published = some k := by
  unfold proceed at h
  split at h
  · cases h
  · cases h
  · injection h with hfinal
    exact published_of_finalCase hfinal

/-- No dispatch ends with a case. -/
theorem dispatch_ne_closing (g : Engine) (d : Definition) (n : Nat) (stepId : String) (k : Case) :
    dispatch g d n stepId ≠ .closing (.ok k) := by
  unfold dispatch
  split
  · intro h
    cases h
  · split <;> (intro h; cases h)

/-- Whoever is about to complete does so with the case as it is published. -/
theorem published_of_closing {k : Case} (h : x.advance g r l = some b)
    (hp : b.1.phase = .closing (.ok k)) : b.1.published = some k := by
  cases stepping h with
  | starting _ =>
      unfold start at hp
      split at hp <;> cases hp
  | opening _ =>
      unfold openCase at hp
      split at hp <;> cases hp
  | dispatching _ => exact absurd hp (dispatch_ne_closing _ _ _ _ _)
  | left _ => exact of_proceed_closing hp
  | _ => cases hp

/-- Nothing but the last step ends an execution. -/
theorem unended_of_unclosed (h : x.advance g r l = some b)
    (unclosed : ∀ result, x.phase ≠ .closing result) :
    b.1.status = .running ∧ ∀ result, b.1.phase ≠ .ended result := by
  have hrunning : b.1.status = .running := by
    cases hfinished : b.1.isFinished with
    | false => exact running_iff.1 hfinished
    | true =>
        obtain ⟨result, hp⟩ := closing_of_finished h hfinished
        exact absurd hp (unclosed result)
  refine ⟨hrunning, ?_⟩
  intro result hp
  rcases underway_or_ended h with ⟨-, hunended⟩ | ⟨result', -, hstatus⟩
  · exact hunended result hp
  · rw [hrunning] at hstatus
    cases result' <;> cases hstatus

/-- Before its end an execution goes on after an append without coming to it. -/
theorem conclude_unclosed (l : Ledger) (unclosed : ∀ result, x.phase ≠ .closing result)
    (unended : ∀ result, x.phase ≠ .ended result) :
    (x.conclude l).1.status = x.status ∧ (x.conclude l).1.pending = x.pending ∧
      (∀ result, (x.conclude l).1.phase ≠ .closing result) ∧
      ∀ result, (x.conclude l).1.phase ≠ .ended result := by
  unfold conclude
  split
  · exact ⟨rfl, rfl, by simp, by simp⟩
  · exact ⟨rfl, rfl, by simp, by simp⟩
  · refine ⟨rfl, ?_, by simp, by simp⟩
    simp [pending, Visit.log_applyEnrichment, Context.advanceClock]
  · next result hp => exact absurd hp (unclosed result)
  · exact ⟨rfl, rfl, unclosed, unended⟩

/-! ## What they agree on -/

theorem not_final_getLast? (unfinished : ∀ e ∈ es, e.isFinal = false)
    (hlast : es.getLast? = some entry) : entry.isFinal = false :=
  unfinished entry (List.mem_of_getLast? hlast)

/-- Whoever runs or was stopped has journaled nothing that tells of an end. -/
theorem agreement_of_unfinished (status : x.status = .running ∨ x.status = .cancelled)
    (unfinished : ∀ e ∈ es, e.isFinal = false) : x.Agreement es := by
  have hcompleted : x.status ≠ .completed := by
    intro h
    rcases status with hs | hs <;> cases hs.symm.trans h
  have hfailed : ∀ text, x.status ≠ .failed text := by
    intro text h
    rcases status with hs | hs <;> cases hs.symm.trans h
  exact {
    completed := ⟨fun h => absurd h hcompleted,
      fun ⟨_, _, hlast⟩ => by cases not_final_getLast? unfinished hlast⟩
    published := fun _ _ hlast => by cases not_final_getLast? unfinished hlast
    failed := fun text => ⟨fun h => absurd h (hfailed text),
      fun ⟨_, hlast⟩ => by cases not_final_getLast? unfinished hlast⟩
    error := fun text h => absurd h (hfailed text)
    unfinished := fun _ => unfinished }

/-- After a completion the four places agree. -/
theorem agreement_of_completed {k : Case} (hp : x.phase = .ended (.ok k))
    (status : x.status = .completed) (final : x.published = some k)
    (last : es.getLast? = some (terminal r (.ok k))) : x.Agreement es where
  completed := ⟨fun _ => ⟨_, _, last⟩, fun _ => status⟩
  published := by
    intro label t hlast
    cases Option.some.inj (last.symm.trans hlast)
    exact ⟨k, final, rfl, rfl, by rw [result?, hp]⟩
  failed := by
    intro text
    constructor
    · intro hfailed
      cases status.symm.trans hfailed
    · rintro ⟨t, hlast⟩
      cases Option.some.inj (last.symm.trans hlast)
  error := by
    intro text hfailed
    cases status.symm.trans hfailed
  unfinished := by
    rintro (hs | hs) <;> cases status.symm.trans hs

/-- After a failure they agree as well. -/
theorem agreement_of_failed {e : Error} (hp : x.phase = .ended (.error e))
    (status : x.status = .failed e.message)
    (last : es.getLast? = some (terminal r (.error e))) : x.Agreement es where
  completed := by
    constructor
    · intro hcompleted
      cases status.symm.trans hcompleted
    · rintro ⟨label, t, hlast⟩
      cases Option.some.inj (last.symm.trans hlast)
  published := by
    intro label t hlast
    cases Option.some.inj (last.symm.trans hlast)
  failed := by
    intro text
    constructor
    · intro hfailed
      cases status.symm.trans hfailed
      exact ⟨_, last⟩
    · rintro ⟨t, hlast⟩
      cases Option.some.inj (last.symm.trans hlast)
      exact status
  error := by
    intro text hfailed
    cases status.symm.trans hfailed
    exact ⟨e, by rw [result?, hp], rfl⟩
  unfinished := by
    rintro (hs | hs) <;> cases status.symm.trans hs

/-- Before its end an execution that was stopped has nothing to be blamed for. -/
theorem overtaken_of_unfinished (unfinished : ∀ e ∈ es, e.isFinal = false) : x.Overtaken es where
  unfinished e he := unfinished e (List.dropLast_subset es he)
  published := fun _ _ hlast => by cases not_final_getLast? unfinished hlast

/-- The end may be the last entry of one that was stopped. -/
theorem overtaken_of_terminal (final : ∀ k, result = .ok k → x.published = some k)
    (unfinished : ∀ e ∈ es, e.isFinal = false) : x.Overtaken (es ++ [terminal r result]) where
  unfinished := by simpa using unfinished
  published := by
    intro label t hlast
    rw [List.getLast?_concat, Option.some.injEq] at hlast
    cases result with
    | ok k =>
        cases hlast
        exact ⟨k, final k rfl, rfl, rfl⟩
    | error e => cases hlast

end Execution

/-! ## The invariant -/

namespace Task

open Execution

/-- Whether the journal takes the entry of a deed, if it has one. -/
def Succeeds (t : Task) : Deed → Prop
  | .act (.task _ r) | .land r =>
      ∀ e, t.execution.written? r = some e →
        ∃ j, t.ledger.journal.append t.execution.context.log.caseId e = .ok j
  | _ => True

def IsSettled (t : Task) : Prop := t.isAmid = true → t.isHalted = true

/-- Whether some deeds stop the execution while it is running and awake. -/
def StoppedAwake (t : Task) (ds : List Deed) : Prop :=
  ∃ before after, ds = before ++ .act (.request .cancel) :: after ∧
    (t.run before).execution.status = .running ∧ (t.run before).execution.isAsleep = false

/-- What holds all along, if nothing was to be replayed.  The last parameter tells whether the
execution was stopped awake. -/
inductive Sound (t : Task) (es : List JournalEntry) (late : Prop) : Prop
  /-- Nothing in the journal tells of an end. -/
  | underway (status : t.execution.status = .running ∨ t.execution.status = .cancelled)
      (stopped : t.execution.status = .cancelled → late ∨ t.isHalted = true)
      (unended : ∀ result, t.execution.phase ≠ .ended result) (live : t.execution.pending = [])
      (final : ∀ k, t.execution.phase = .closing (.ok k) → t.execution.published = some k)
      (ahead : t.isAmid = true → ∀ result, t.execution.phase ≠ .closing result)
      (unfinished : ∀ e ∈ es, e.isFinal = false)
  /-- The last entry tells of the end, and the execution does not know yet. -/
  | ending {before : List JournalEntry} {r : Readings} {result : Except Error Case}
      (status : t.execution.status = .running ∨ t.execution.status = .cancelled)
      (stopped : t.execution.status = .cancelled → late)
      (halted : t.isHalted = true → t.execution.status = .cancelled)
      (hp : t.execution.phase = .closing result) (amid : t.isAmid = true)
      (final : ∀ k, result = .ok k → t.execution.published = some k)
      (entries : es = before ++ [terminal r result])
      (unfinished : ∀ e ∈ before, e.isFinal = false)
  /-- The last entry tells of the result. -/
  | concluded {before : List JournalEntry} {r : Readings} {result : Except Error Case}
      (status : t.execution.status = .ofResult result ∨ t.execution.status = .cancelled)
      (stopped : t.execution.status = .cancelled → late)
      (hp : t.execution.phase = .ended result)
      (final : ∀ k, result = .ok k → t.execution.published = some k)
      (entries : es = before ++ [terminal r result])
      (unfinished : ∀ e ∈ before, e.isFinal = false)

variable {t : Task} {es : List JournalEntry} {late late' : Prop}
variable {g : Engine} {r : Readings} {l : Ledger} {z : Execution}

/-- At its beginning an execution has journaled nothing. -/
theorem sound_fresh (caseId name version : String) (payload : Value) (now : Instant) (l : Ledger) :
    (Task.of (.fresh caseId name version payload now) l).Sound [] late := by
  have hp : (Execution.fresh caseId name version payload now).phase = .starting := rfl
  have hs : (Execution.fresh caseId name version payload now).status = .running := rfl
  exact .underway (.inl hs) (by simp [of, hs]) (by simp [of, hp]) rfl (by simp [of, hp])
    (by simp [of]) (by simp)

theorem Sound.mono (h : t.Sound es late) (more : late → late') : t.Sound es late' := by
  cases h with
  | underway status stopped unended live final ahead unfinished =>
      exact .underway status (fun hs => (stopped hs).imp_left more) unended live final ahead
        unfinished
  | ending status stopped halted hp amid final entries unfinished =>
      exact .ending status (fun hs => more (stopped hs)) halted hp amid final entries unfinished
  | concluded status stopped hp final entries unfinished =>
      exact .concluded status (fun hs => more (stopped hs)) hp final entries unfinished

/-- Whoever comes to its end has the status of its result, or was stopped before. -/
theorem status_at_end {x : Execution} (result : Except Error Case)
    (status : x.status = .running ∨ x.status = .cancelled) :
    ((if x.isFinished then x.status else .ofResult result) = .ofResult result ∨
        (if x.isFinished then x.status else .ofResult result) = .cancelled) ∧
      ((if x.isFinished then x.status else .ofResult result) = .cancelled →
        x.status = .cancelled) := by
  rcases status with hs | hs
  · have hunfinished : x.isFinished = false := running_iff.2 hs
    refine ⟨.inl (by simp [hunfinished]), ?_⟩
    intro hcancelled
    cases result <;> simp [hunfinished, ExecutionStatus.ofResult] at hcancelled
  · have hfinished : x.isFinished = true := isFinished_iff.2 (.inr (.inr hs))
    exact ⟨.inr (by simp [hfinished, hs]), fun _ => hs⟩

/-- Whoever is not stopped keeps its status. -/
theorem kept_or_stopped {x : Execution} {a : Act} {s status : ExecutionStatus}
    (changes : status = x.status ∨
      a = .request .cancel ∧ x.status = .running ∧ status = .cancelled)
    (h : x.status = s ∨ x.status = .cancelled) : status = s ∨ status = .cancelled := by
  rcases changes with rfl | ⟨-, -, rfl⟩
  · exact h
  · exact .inr rfl

/-- Whoever takes its last step at once ends with its entry. -/
theorem Sound.close {result : Except Error Case}
    (h : advance g r { t.execution with status := .running } t.ledger = some (z, l))
    (status : t.execution.status = .running ∨ t.execution.status = .cancelled)
    (stopped : t.execution.status = .cancelled → late) (live : t.execution.pending = [])
    (final : ∀ k, t.execution.phase = .closing (.ok k) → t.execution.published = some k)
    (unfinished : ∀ e ∈ es, e.isFinal = false)
    (succeeds : t.Succeeds (.act (.task g r))) (hp : t.execution.phase = .closing result) :
    Sound
      { t with
        execution := { z with
          status := if t.execution.isFinished then t.execution.status else z.status }
        ledger := l }
      (es ++ (t.execution.accepted? r t.ledger).toList) late := by
  have hnext : t.execution.context.log.hasNext (terminal r result).kind = false := by
    have hlog : t.execution.context.log.pending = [] := live
    simp [Log.hasNext, hlog]
  have hwritten : t.execution.written? r = some (terminal r result) := written?_of_other hp hnext
  obtain ⟨j, happend⟩ := succeeds _ hwritten
  have hfinish := finish_of_kept (x := { t.execution with status := .running }) hnext happend
  rw [advance_of_closing (x := { t.execution with status := .running }) rfl hp, hfinish] at h
  cases h
  rw [accepted?_of_taken hwritten happend]
  obtain ⟨hends, hbefore⟩ := status_at_end result status
  refine .concluded hends (fun hcancelled => stopped (hbefore hcancelled)) rfl ?_ rfl unfinished
  rintro k rfl
  exact final k hp

/-- Whoever takes another step at once is still on its way. -/
theorem Sound.proceed (free : t.isFree = true)
    (h : advance g r { t.execution with status := .running } t.ledger = some (z, l))
    (status : t.execution.status = .running ∨ t.execution.status = .cancelled)
    (stopped : t.execution.status = .cancelled → late) (live : t.execution.pending = [])
    (unfinished : ∀ e ∈ es, e.isFinal = false)
    (unclosed : ∀ result, t.execution.phase ≠ .closing result) :
    Sound
      { t with
        execution := { z with
          status := if t.execution.isFinished then t.execution.status else z.status }
        ledger := l }
      (es ++ (t.execution.accepted? r t.ledger).toList) late := by
  obtain ⟨hrunning, hunended⟩ := unended_of_unclosed h unclosed
  have hamid : t.isAmid = false := (isFree_iff.1 free).1
  have hstatus : (if t.execution.isFinished then t.execution.status else z.status) =
      t.execution.status := by
    cases hfinished : t.execution.isFinished with
    | true => rfl
    | false => exact hrunning.trans (running_iff.1 hfinished).symm
  refine .underway ?_ ?_ hunended (pending_of_advance h live) (fun k => published_of_closing h)
    (by simp [hamid]) ?_
  · simpa [hstatus] using status
  · intro hcancelled
    exact .inl (stopped (hstatus.symm.trans hcancelled))
  · intro e he
    rcases List.mem_append.1 he with hbefore | hnew
    · exact unfinished e hbefore
    · obtain ⟨hwritten, -⟩ := of_accepted? (Option.mem_toList.1 hnew)
      exact isFinal_of_writes (writes_of_written hwritten) unclosed

/-- An atomic step is sound: it stays underway, gets to its end, or ends. -/
theorem Sound.step (h : t.Sound es late) (free : t.isFree = true)
    (hstep : advance g r { t.execution with status := .running } t.ledger = some (z, l))
    (succeeds : t.Succeeds (.act (.task g r))) :
    Sound
      { t with
        execution := { z with
          status := if t.execution.isFinished then t.execution.status else z.status }
        ledger := l }
      (es ++ (t.execution.accepted? r t.ledger).toList) late := by
  have hfree := isFree_iff.1 free
  cases h with
  | underway status stopped unended live final ahead unfinished =>
      have hstopped : t.execution.status = .cancelled → late := by
        intro hs
        rcases stopped hs with hlate | hhalted
        · exact hlate
        · simp [hfree.2] at hhalted
      -- The last step is the only one that ends; all others stay on the way.
      by_cases hclosing : ∃ result, t.execution.phase = .closing result
      · obtain ⟨result, hp⟩ := hclosing
        exact .close hstep status hstopped live final unfinished succeeds hp
      · exact .proceed free hstep status hstopped live unfinished
          (fun result hp => hclosing ⟨result, hp⟩)
  | ending status stopped halted hp amid final entries unfinished =>
      simp [hfree.1] at amid
  | concluded status stopped hp final entries unfinished =>
      rw [advance_of_ended (x := { t.execution with status := .running }) hp] at hstep
      cases hstep

/-- What others do leaves the execution on its way, amid its last append, or at its end. -/
theorem Sound.besides (h : t.Sound es late) {a : Act} {inbox : Inbox} {status : ExecutionStatus}
    (changes : status = t.execution.status ∨
      a = .request .cancel ∧ t.execution.status = .running ∧ status = .cancelled)
    (more : late → late')
    (stops : a = .request .cancel → t.execution.status = .running →
      t.execution.isAsleep = false → late') :
    Sound
      { t with
        execution := { t.execution.withInbox inbox with status := status }
        ledger := l
        isHalted := t.isHalted || t.execution.isHaltedBy a } es late' := by
  -- Whoever is stopped asleep is halted by it at once, and whoever is stopped awake is `late`.
  cases h with
  | underway hstatus stopped unended live final ahead unfinished =>
      refine .underway (kept_or_stopped changes hstatus) ?_ unended live final ahead unfinished
      intro hcancelled
      rcases changes with rfl | ⟨rfl, hrunning, rfl⟩
      · rcases stopped hcancelled with hlate | hhalted
        · exact .inl (more hlate)
        · exact .inr (by simp [hhalted])
      · cases hasleep : t.execution.isAsleep with
        | false => exact .inl (stops rfl hrunning hasleep)
        | true =>
            have hunfinished : t.execution.isFinished = false := running_iff.2 hrunning
            exact .inr (by simp [isHaltedBy, hunfinished, hasleep])
  | ending hstatus stopped halted hp amid final entries unfinished =>
      have hawake : t.execution.isAsleep = false := by simp [isAsleep, visit?, hp]
      refine .ending (kept_or_stopped changes hstatus) ?_ ?_ hp amid final entries unfinished
      · intro hcancelled
        rcases changes with rfl | ⟨rfl, hrunning, -⟩
        · exact more (stopped hcancelled)
        · exact stops rfl hrunning hawake
      · intro hhalted
        rcases changes with rfl | ⟨-, -, rfl⟩
        · rcases Bool.or_eq_true_iff.1 hhalted with hbefore | hact
          · exact halted hbefore
          · unfold isHaltedBy at hact
            split at hact
            · simpa using hact
            · simp [hawake] at hact
            · cases hact
        · rfl
  | @concluded before r result hstatus stopped hp final entries unfinished =>
      refine .concluded (kept_or_stopped changes hstatus) ?_ hp final entries unfinished
      intro hcancelled
      rcases changes with rfl | ⟨-, hrunning, -⟩
      · exact more (stopped hcancelled)
      · rcases hstatus with hs | hs
        · rw [hrunning] at hs
          cases result <;> cases hs
        · rw [hrunning] at hs
          cases hs

/-- The end that gets into the journal is the last entry, with the case as it is published. -/
theorem Sound.land (h : t.Sound es late) (free : t.isFree = true) {e : JournalEntry}
    (written : t.execution.written? r = some e) :
    Sound { t with ledger := l, isAmid := true } (es ++ [e]) late := by
  have hfree := isFree_iff.1 free
  cases h with
  | underway status stopped unended live final ahead unfinished =>
      by_cases hclosing : ∃ result, t.execution.phase = .closing result
      · obtain ⟨result, hp⟩ := hclosing
        have hnext : t.execution.context.log.hasNext (terminal r result).kind = false := by
          have hlog : t.execution.context.log.pending = [] := live
          simp [Log.hasNext, hlog]
        have he : e = terminal r result :=
          Option.some.inj (written.symm.trans (written?_of_other hp hnext))
        refine .ending status ?_ ?_ hp rfl ?_ (by rw [he]) unfinished
        · intro hs
          rcases stopped hs with hlate | hhalted
          · exact hlate
          · simp [hfree.2] at hhalted
        · intro hhalted
          simp [hfree.2] at hhalted
        · rintro k rfl
          exact final k hp
      · have hunclosed : ∀ result, t.execution.phase ≠ .closing result :=
          fun result hp => hclosing ⟨result, hp⟩
        refine .underway status stopped unended live final (fun _ => hunclosed) ?_
        intro e' he'
        rcases List.mem_append.1 he' with hbefore | hnew
        · exact unfinished e' hbefore
        · rw [List.mem_singleton.1 hnew]
          exact isFinal_of_writes (writes_of_written written) hunclosed
  | ending status stopped halted hp amid final entries unfinished =>
      simp [hfree.1] at amid
  | concluded status stopped hp final entries unfinished =>
      simp [written?, hp] at written

/-- If nobody stops the execution, status and result follow the entry. -/
theorem Sound.conclude (h : t.Sound es late) (amid : t.isAmid = true) :
    Sound
      { t with
        execution := (t.execution.conclude t.ledger).1
        ledger := (t.execution.conclude t.ledger).2
        isAmid := false } es late := by
  cases h with
  | underway status stopped unended live final ahead unfinished =>
      obtain ⟨hstatus, hpending, hunclosed, hunended⟩ :=
        conclude_unclosed t.ledger (ahead amid) unended
      refine .underway ?_ ?_ hunended (hpending.trans live) ?_ (by simp) unfinished
      · simpa [hstatus] using status
      · intro hs
        exact stopped (hstatus.symm.trans hs)
      · intro k hp
        exact absurd hp (hunclosed _)
  | @ending before r result status stopped halted hp amid final entries unfinished =>
      have hended : (t.execution.conclude t.ledger).1 =
          { t.execution with
            phase := .ended result
            status := if t.execution.isFinished then t.execution.status
              else .ofResult result } := by
        simp [Execution.conclude, hp]
      obtain ⟨hends, hbefore⟩ := status_at_end result status
      rw [hended]
      exact .concluded hends (fun hcancelled => stopped (hbefore hcancelled)) rfl final entries
        unfinished
  | concluded status stopped hp final entries unfinished =>
      have hsame : t.execution.conclude t.ledger = (t.execution, t.ledger) := by
        simp [Execution.conclude, hp]
      rw [hsame]
      exact .concluded status stopped hp final entries unfinished

/-- One deed keeps the invariant, with the entry that it brings into the journal. -/
theorem Sound.does (h : t.Sound es late) {d : Deed} (succeeds : t.Succeeds d)
    (more : late → late')
    (stops : d = .act (.request .cancel) → t.execution.status = .running →
      t.execution.isAsleep = false → late') :
    (t.does d).Sound (es ++ (t.taken? d).toList) late' := by
  have hdoing := doing t d
  generalize t.taken? d = taken at hdoing ⊢
  generalize t.does d = u at hdoing ⊢
  cases hdoing with
  | idle => simpa using h.mono more
  | step free hstep => exact (h.step free hstep succeeds).mono more
  | besides changes journal =>
      simp only [Option.toList_none, List.append_nil]
      refine h.besides changes more ?_
      rintro rfl
      exact stops rfl
  | land free written happend => exact (h.land free written).mono more
  | conclude amid unhalted => simpa using (h.conclude amid).mono more

/-- Every run of deeds that succeed is sound. -/
theorem Sound.run {t₀ : Task} (h₀ : t₀.Sound [] False) {ds : List Deed}
    (succeeds : t₀.Along Succeeds ds) :
    (t₀.run ds).Sound (t₀.journaled ds) (t₀.StoppedAwake ds) := by
  induction ds using List.reverseRecOn with
  | nil => exact h₀.mono False.elim
  | append_singleton ds d ih =>
      obtain ⟨hbefore, hlast⟩ := along_concat.1 succeeds
      rw [run_concat, journaled_concat]
      refine (ih hbefore).does hlast ?_ ?_
      · rintro ⟨before, after, rfl, hrunning, hawake⟩
        exact ⟨before, after ++ [d], by simp, hrunning, hawake⟩
      · rintro rfl hrunning hawake
        exact ⟨ds, [], rfl, hrunning, hawake⟩

/-- A sound task that is settled agrees, unless it was stopped awake. -/
theorem Sound.agreement (h : t.Sound es late) (settled : t.IsSettled)
    (intime : ¬ (t.execution.status = .cancelled ∧ late)) : t.execution.Agreement es := by
  cases h with
  | underway status stopped unended live final ahead unfinished =>
      exact agreement_of_unfinished status unfinished
  | ending status stopped halted hp amid final entries unfinished =>
      have hcancelled : t.execution.status = .cancelled := halted (settled amid)
      exact absurd ⟨hcancelled, stopped hcancelled⟩ intime
  | @concluded before r result status stopped hp final entries unfinished =>
      have hlast : es.getLast? = some (terminal r result) := by simp [entries]
      rcases status with hs | hs
      · cases result with
        | ok k => exact agreement_of_completed hp hs (final k rfl) hlast
        | error e => exact agreement_of_failed hp hs hlast
      · exact absurd ⟨hs, stopped hs⟩ intime

/-- One that was stopped awake has at most its end in the journal before its time. -/
theorem Sound.overtaken (h : t.Sound es late) : t.execution.Overtaken es := by
  cases h with
  | underway status stopped unended live final ahead unfinished =>
      exact overtaken_of_unfinished unfinished
  | ending status stopped halted hp amid final entries unfinished =>
      rw [entries]
      exact overtaken_of_terminal final unfinished
  | concluded status stopped hp final entries unfinished =>
      rw [entries]
      exact overtaken_of_terminal final unfinished

end Task

open Execution

/-- The status of a new execution, its result, the case as last published and the last entry that it
has journaled agree whenever no append is under way, if its entries are taken; unless it was stopped
awake, when it may have journaled its end before. -/
theorem agreement_unless_overtaken (caseId name version : String) (payload : Value) (now : Instant)
    (l : Ledger) (ds : List Task.Deed)
    (succeeds : (Task.of (.fresh caseId name version payload now) l).Along Task.Succeeds ds)
    (settled : ((Task.of (.fresh caseId name version payload now) l).run ds).IsSettled) :
    let t := Task.of (.fresh caseId name version payload now) l
    let x := (t.run ds).execution
    (¬ (x.status = .cancelled ∧ t.StoppedAwake ds) → x.Agreement (t.journaled ds)) ∧
      (x.status = .cancelled → t.StoppedAwake ds → x.Overtaken (t.journaled ds)) := by
  have hsound := (Task.sound_fresh caseId name version payload now l).run succeeds
  exact ⟨hsound.agreement settled, fun _ _ => hsound.overtaken⟩

/-! ## An approval -/

def approvedRun : List Task.Deed :=
  List.replicate 9 (.act (.task (Engine.approving none) default)) ++
    .act (.request (.signal (.decision "approve" "s-1" ⟨7, 0⟩))) ::
      List.replicate 7 (.act (.task (Engine.approving none) default))

/-- The completion is recorded, and then the execution goes on. -/
def completedRun : List Task.Deed :=
  approvedRun ++ [.land default, .conclude]

/-- The completion is recorded, and then the execution is stopped. -/
def overtakenRun : List Task.Deed :=
  approvedRun ++ [.land default, .act (.request .cancel), .act .drop]

/-- A case that is going to be approved, with its journal in a directory. -/
def approvedTask : Task :=
  .of (.fresh "case-1" "approval" "1" .null ⟨0, 0⟩) ⟨.files [], [], []⟩

/-- An execution that is undisturbed succeeds with its appends where every append succeeds. -/
theorem along_succeeds {t : Task} {ds : List Task.Deed}
    (accepts : t.ledger.journal.Accepts t.execution.context.log.caseId)
    (undisturbed : ∀ l, .act (.others l) ∉ ds) : t.Along Task.Succeeds ds := by
  refine Task.along_of_journal (fun j e hj => Journal.append_of_accepts hj e) ?_ rfl accepts
    undisturbed
  intro t d own hj _
  have htaken : ∀ r e, t.execution.written? r = some e →
      ∃ j, t.ledger.journal.append t.execution.context.log.caseId e = .ok j := by
    intro r e _
    obtain ⟨j', happend, -⟩ := Journal.append_of_accepts hj e
    exact ⟨j', by rw [own]; exact happend⟩
  cases d with
  | act a =>
      cases a with
      | task g r => exact htaken r
      | _ => trivial
  | land r => exact htaken r
  | conclude => trivial

/-- The directory of the journal is empty, and the case has a name that a file can have. -/
theorem along_succeeds_approved {ds : List Task.Deed} (undisturbed : ∀ l, .act (.others l) ∉ ds) :
    approvedTask.Along Task.Succeeds ds :=
  along_succeeds ⟨by decide, by decide, fun _ h => by cases h⟩ undisturbed

/-- A case that is stopped while its completion is being recorded.  The journal tells of it, but the
execution counts as cancelled. -/
theorem completion_overtaken :
    let x := (approvedTask.run overtakenRun).execution
    approvedTask.Along Task.Succeeds overtakenRun ∧ (approvedTask.run overtakenRun).IsSettled ∧
      x.status = .cancelled ∧ x.result? = some (.error .cancelled) ∧
      (approvedTask.journaled overtakenRun).getLast? = some (.completed "Approved" ⟨7, 0⟩) ∧
      ¬ x.Agreement (approvedTask.journaled overtakenRun) := by
  refine ⟨along_succeeds_approved (by simp [overtakenRun, approvedRun]), fun _ => rfl, rfl, rfl,
    rfl, ?_⟩
  intro hagree
  have hcompleted := hagree.completed.2 ⟨"Approved", ⟨7, 0⟩, rfl⟩
  cases hcompleted

set_option maxRecDepth 1024 in
/-- A case that is approved, and one that is stopped when its completion was recorded. -/
theorem agreement_unless_overtaken_approved :
    (∃ k, (approvedTask.run completedRun).execution.result? = some (.ok k) ∧
        k.status = "Approved" ∧ k.details.updatedAt = ⟨7, 0⟩) ∧
      ∃ k, (approvedTask.run overtakenRun).execution.published = some k ∧
        k.status = "Approved" ∧ k.details.updatedAt = ⟨7, 0⟩ := by
  have hall : ∀ ds, approvedTask.Along Task.Succeeds ds → (approvedTask.run ds).IsSettled →
      (¬ ((approvedTask.run ds).execution.status = .cancelled ∧ approvedTask.StoppedAwake ds) →
        (approvedTask.run ds).execution.Agreement (approvedTask.journaled ds)) ∧
      ((approvedTask.run ds).execution.status = .cancelled → approvedTask.StoppedAwake ds →
        (approvedTask.run ds).execution.Overtaken (approvedTask.journaled ds)) :=
    agreement_unless_overtaken "case-1" "approval" "1" .null ⟨0, 0⟩ ⟨.files [], [], []⟩
  constructor
  · have hstatus : (approvedTask.run completedRun).execution.status = .completed := rfl
    have hamid : (approvedTask.run completedRun).isAmid = false := rfl
    have hlast : (approvedTask.journaled completedRun).getLast? =
        some (.completed "Approved" ⟨7, 0⟩) := rfl
    have hagree := (hall completedRun
      (along_succeeds_approved (by simp [completedRun, approvedRun]))
      (fun h => absurd (hamid.symm.trans h) Bool.false_ne_true)).1
        (fun h => by cases hstatus.symm.trans h.1)
    obtain ⟨k, -, hlabel, htime, hresult⟩ := hagree.published "Approved" ⟨7, 0⟩ hlast
    exact ⟨k, hresult, hlabel, htime⟩
  · have hlast : (approvedTask.journaled overtakenRun).getLast? =
        some (.completed "Approved" ⟨7, 0⟩) := rfl
    have hawake : approvedTask.StoppedAwake overtakenRun :=
      ⟨approvedRun ++ [.land default], [.act .drop], by simp [overtakenRun], rfl, rfl⟩
    have hovertaken := (hall overtakenRun
      (along_succeeds_approved (by simp [overtakenRun, approvedRun])) (fun _ => rfl)).2 rfl hawake
    exact hovertaken.published "Approved" ⟨7, 0⟩ hlast

end Casework
