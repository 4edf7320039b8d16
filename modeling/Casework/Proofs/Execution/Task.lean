import Casework.Proofs.Execution.Finality
import Mathlib.Data.List.Induction

/-!
# Tasks — an execution whose appends take time

Among the acts of an execution, a step that appends to the journal is one act.  Here it may also be
two deeds: its entry gets into the journal, and later the execution goes on from there.  In between
anything may happen.  Others read the entry before anybody else can tell that it was made, and an
execution that is stopped may never come back to it.

* `Task` : an execution and its ledger, and whether it is amid an append or will never go on;
* `Task.Deed`, `Task.does`, `Task.run` : one thing that happens, and any number of them;
* `Task.Doing`, `Task.doing` : all that one deed can be;
* `Task.journaled` : the entries that the deeds of a run bring into the journal;
* `Task.Along` : a condition on every deed of a run and on the task that it meets;
* `Task.exists_acts` : an execution gets nowhere by deeds where it does not get by acts.

A task that is stopped while it is asleep is never woken again.  One that is stopped anywhere else
goes on for a while, and is dropped at some point that nothing is assumed about.
-/

namespace Casework

/-- An execution, the ledger that it writes to, and how its task fares. -/
structure Task where
  execution : Execution
  ledger : Ledger
  /-- Whether the entry of the next step is in the journal and the rest of that step is ahead. -/
  isAmid : Bool := false
  /-- Whether the task was stopped and will never go on. -/
  isHalted : Bool := false

inductive Task.Deed where
  /-- One act; a step that appends does so at once. -/
  | act (a : Execution.Act)
  /-- The entry of the next step gets into the journal. -/
  | land (r : Readings)
  /-- The task goes on after that. -/
  | conclude

namespace Execution

/-- Whether an execution sleeps until a signal or its deadline wakes it. -/
def isAsleep (x : Execution) : Bool :=
  match x.visit? with
  | some (.awaiting w) => w.state = .parked && !x.context.inbox.woken.contains w.id
  | _ => false

/-- Whether the task of an execution never goes on after an act. -/
def isHaltedBy (x : Execution) : Act → Bool
  | .drop => x.status = .cancelled
  | .request .cancel => !x.isFinished && x.isAsleep
  | _ => false

end Execution

namespace Task

open Execution

def of (x : Execution) (l : Ledger) : Task where
  execution := x
  ledger := l

def isFree (t : Task) : Bool := !t.isAmid && !t.isHalted

def after (t : Task) (a : Act) : Task :=
  let p := act (t.execution, t.ledger) a
  { t with execution := p.1
           ledger := p.2
           isHalted := t.isHalted || t.execution.isHaltedBy a }

def does (t : Task) : Deed → Task
  | .act a => if a.isTask && !t.isFree then t else t.after a
  | .land r =>
      if t.isFree then
        match t.execution.land r t.ledger with
        | some l => { t with ledger := l, isAmid := true }
        | none => t
      else t
  | .conclude =>
      if t.isAmid && !t.isHalted then
        let p := t.execution.conclude t.ledger
        { t with execution := p.1, ledger := p.2, isAmid := false }
      else t

def run (t : Task) (ds : List Deed) : Task := ds.foldl does t

def taken? (t : Task) : Deed → Option JournalEntry
  | .act (.task _ r) | .land r => if t.isFree then t.execution.accepted? r t.ledger else none
  | _ => none

def journaled (t : Task) : List Deed → List JournalEntry
  | [] => []
  | d :: ds => (t.taken? d).toList ++ (t.does d).journaled ds

def Along (P : Task → Deed → Prop) (t : Task) : List Deed → Prop
  | [] => True
  | d :: ds => P t d ∧ (t.does d).Along P ds

variable {P : Task → Deed → Prop} {t : Task} {d : Deed} {ds : List Deed}

/-- A step may begin where none is under way and none is barred. -/
theorem isFree_iff : t.isFree = true ↔ t.isAmid = false ∧ t.isHalted = false := by
  simp [isFree]

@[simp] theorem run_nil (t : Task) : t.run [] = t := rfl

@[simp] theorem run_concat (t : Task) (ds : List Deed) (d : Deed) :
    t.run (ds ++ [d]) = (t.run ds).does d := by
  simp [run]

@[simp] theorem journaled_nil (t : Task) : t.journaled [] = [] := rfl

/-- The entry of the last deed comes last. -/
@[simp] theorem journaled_concat (t : Task) (ds : List Deed) (d : Deed) :
    t.journaled (ds ++ [d]) = t.journaled ds ++ ((t.run ds).taken? d).toList := by
  induction ds generalizing t with
  | nil => simp [journaled]
  | cons c ds ih => simp [journaled, ih (t.does c), run, List.append_assoc]

/-- A condition on every deed holds of the last one and of those before. -/
theorem along_concat : t.Along P (ds ++ [d]) ↔ t.Along P ds ∧ P (t.run ds) d := by
  induction ds generalizing t with
  | nil => simp [Along]
  | cons c ds ih => simp [Along, ih, run, and_assoc]

/-! ## One deed -/

/-- Whoever is about to append never fails to take a step. -/
theorem accepted?_of_stuck {g : Engine} {r : Readings} {x : Execution} {l : Ledger}
    (stuck : x.toil g r l = none) : x.accepted? r l = none := by
  apply accepted?_of_unwritten
  cases hwritten : x.written? r with
  | none => rfl
  | some e =>
      have hnone : advance g r { x with status := .running } l = none := by
        simpa [toil] using stuck
      cases writes_of_written hwritten with
      | start hp =>
          rw [advance_of_starting (x := { x with status := .running }) rfl hp] at hnone
          cases hnone
      | decision hp =>
          rw [advance_of_decided (x := { x with status := .running }) rfl hp] at hnone
          cases hnone
      | answer hp =>
          rw [advance_of_analysed (x := { x with status := .running }) rfl hp] at hnone
          cases hnone
      | ending hp other =>
          rw [advance_of_closing (x := { x with status := .running }) rfl hp] at hnone
          cases hnone

/-- What one deed does, and the entry that it brings into the journal. -/
inductive Doing (t : Task) : Deed → Option JournalEntry → Task → Prop
  | idle {d : Deed} : Doing t d none t
  | step {g : Engine} {r : Readings} {z : Execution} {l : Ledger} (free : t.isFree = true)
      (h : advance g r { t.execution with status := .running } t.ledger = some (z, l)) :
      Doing t (.act (.task g r)) (t.execution.accepted? r t.ledger)
        { t with
          execution := { z with
            status := if t.execution.isFinished then t.execution.status else z.status }
          ledger := l }
  | besides {a : Act} {inbox : Inbox} {status : ExecutionStatus} {l : Ledger}
      (changes : status = t.execution.status ∨
        a = .request .cancel ∧ t.execution.status = .running ∧ status = .cancelled)
      (journal : l.journal = t.ledger.journal ∨ a = .others l) :
      Doing t (.act a) none
        { t with
          execution := { t.execution.withInbox inbox with status := status }
          ledger := l
          isHalted := t.isHalted || t.execution.isHaltedBy a }
  | land {r : Readings} {e : JournalEntry} {j : Journal} (free : t.isFree = true)
      (written : t.execution.written? r = some e)
      (happend : t.ledger.journal.append t.execution.context.log.caseId e = .ok j) :
      Doing t (.land r) (some e)
        { t with ledger := { t.ledger with journal := j }, isAmid := true }
  | conclude (amid : t.isAmid = true) (unhalted : t.isHalted = false) :
      Doing t .conclude none
        { t with
          execution := (t.execution.conclude t.ledger).1
          ledger := (t.execution.conclude t.ledger).2
          isAmid := false }

/-- The task makes a step, if it may and can. -/
theorem doing_step (t : Task) (g : Engine) (r : Readings) :
    t.Doing (.act (.task g r)) (t.taken? (.act (.task g r))) (t.does (.act (.task g r))) := by
  cases hfree : t.isFree with
  | false =>
      simp only [does, taken?, Act.isTask, hfree]
      exact .idle
  | true =>
      simp only [does, taken?, after, isHaltedBy, Act.isTask, hfree, act]
      rcases htoil : t.execution.toil g r t.ledger with - | ⟨y, l⟩
      · rw [accepted?_of_stuck htoil]
        simpa using (Doing.idle : t.Doing (.act (.task g r)) none t)
      · obtain ⟨z, hstep, hy⟩ := of_toil htoil
        simpa [hy] using Doing.step hfree hstep

/-- Any other act leaves the task where it is. -/
theorem doing_besides (t : Task) {a : Act} (other : a.isTask = false) :
    t.Doing (.act a) (t.taken? (.act a)) (t.does (.act a)) := by
  obtain ⟨inbox, status, hsame, changes, journal⟩ := act_besides (t.execution, t.ledger) other
  have hnone : t.taken? (.act a) = none := by
    cases a with
    | task g r => cases other
    | _ => rfl
  have hdoing : t.Doing (.act a) none
      { t with
        execution := { t.execution.withInbox inbox with status := status }
        ledger := (act (t.execution, t.ledger) a).2
        isHalted := t.isHalted || t.execution.isHaltedBy a } := .besides changes journal
  rw [hnone]
  simpa [does, after, other, hsame] using hdoing

/-- The entry of the next step gets into the journal, if the task may begin one. -/
theorem doing_land (t : Task) (r : Readings) :
    t.Doing (.land r) (t.taken? (.land r)) (t.does (.land r)) := by
  cases hfree : t.isFree with
  | false =>
      simp only [does, taken?, hfree]
      exact .idle
  | true =>
      simp only [does, taken?, hfree, if_true]
      cases hland : t.execution.land r t.ledger with
      | some l =>
          obtain ⟨e, j, hwritten, happend, rfl⟩ := land_eq_some_iff.1 hland
          rw [accepted?_of_taken hwritten happend]
          exact .land hfree hwritten happend
      | none =>
          have hnone : t.execution.accepted? r t.ledger = none := by
            cases haccepted : t.execution.accepted? r t.ledger with
            | none => rfl
            | some e =>
                obtain ⟨hwritten, j, happend⟩ := of_accepted? haccepted
                rw [land_eq_some_iff.2 ⟨e, j, hwritten, happend, rfl⟩] at hland
                cases hland
          rw [hnone]
          exact .idle

/-- Every deed is one of these. -/
theorem doing (t : Task) (d : Deed) : t.Doing d (t.taken? d) (t.does d) := by
  cases d with
  | act a =>
      cases hkind : a.isTask with
      | false => exact doing_besides t hkind
      | true =>
          cases a with
          | task g r => exact doing_step t g r
          | _ => cases hkind
  | land r => exact doing_land t r
  | conclude =>
      simp only [does, taken?]
      split
      · next hready =>
          simp only [Bool.and_eq_true, Bool.not_eq_true'] at hready
          exact .conclude hready.1 hready.2
      · exact .idle

/-! ## Journals that take everything -/

/-- An append leaves what is still to be replayed alone. -/
theorem log_conclude (x : Execution) (l : Ledger) :
    (x.conclude l).1.context.log = x.context.log := by
  unfold conclude
  split
  · rfl
  · exact Context.log_update _ _
  · exact Visit.log_applyEnrichment
  · rfl
  · rfl

/-- A journal that takes whatever comes for a case does so after a deed of its execution. -/
theorem journal_does {caseId : String} {Q : Journal → Prop}
    (takes : ∀ j e, Q j → ∃ j', j.append caseId e = .ok j' ∧ Q j')
    (own : t.execution.context.log.caseId = caseId) (hQ : Q t.ledger.journal)
    (undisturbed : ∀ l, d ≠ .act (.others l)) :
    (t.does d).execution.context.log.caseId = caseId ∧ Q (t.does d).ledger.journal := by
  have hdoing := doing t d
  generalize t.taken? d = taken at hdoing
  generalize t.does d = u at hdoing ⊢
  cases hdoing with
  | idle => exact ⟨own, hQ⟩
  | step free hstep =>
      refine ⟨(advance_onward hstep).1.trans own, ?_⟩
      cases hentry : t.execution.written? _ with
      | none => rwa [journal_of_advance hstep hentry]
      | some e =>
          obtain ⟨j, happend, hj⟩ := takes _ e hQ
          rw [← own] at happend
          rwa [journal_of_append hstep hentry happend]
  | besides changes journal =>
      refine ⟨own, ?_⟩
      rcases journal with hsame | rfl
      · rwa [hsame]
      · exact absurd rfl (undisturbed _)
  | @land r e j free written happend =>
      refine ⟨own, ?_⟩
      obtain ⟨j', happend', hj⟩ := takes _ e hQ
      rw [own, happend'] at happend
      cases happend
      exact hj
  | conclude amid unhalted =>
      exact ⟨by rw [log_conclude]; exact own, by rw [journal_conclude]; exact hQ⟩

/-- What holds of all deeds over a journal that takes whatever comes holds along a run over one, as
long as others do not put another journal in its place. -/
theorem along_of_journal {caseId : String} {Q : Journal → Prop}
    (takes : ∀ j e, Q j → ∃ j', j.append caseId e = .ok j' ∧ Q j')
    (hP : ∀ (t : Task) (d : Deed), t.execution.context.log.caseId = caseId →
      Q t.ledger.journal → (∀ l, d ≠ .act (.others l)) → P t d)
    (own : t.execution.context.log.caseId = caseId) (hQ : Q t.ledger.journal)
    (undisturbed : ∀ l, .act (.others l) ∉ ds) : t.Along P ds := by
  induction ds generalizing t with
  | nil => trivial
  | cons d ds ih =>
      have hfirst : ∀ l, d ≠ .act (.others l) :=
        fun l hd => undisturbed l (hd ▸ List.mem_cons_self)
      obtain ⟨hown, hnext⟩ := journal_does takes own hQ hfirst
      exact ⟨hP t d own hQ hfirst,
        ih hown hnext fun l hl => undisturbed l (List.mem_cons_of_mem d hl)⟩

/-! ## Deeds and acts -/

section Halves

variable {g : Engine} {r : Readings} {x : Execution} {l l' : Ledger} {e : JournalEntry}

/-- Going on after an append does not depend on the ledger. -/
theorem conclude_congr (x : Execution) (l l' : Ledger) :
    (x.conclude l).1 = (x.conclude l').1 := by
  unfold conclude
  split <;> rfl

/-- Whoever was stopped goes on after an append as it would have, except for its status. -/
theorem conclude_of_running (x : Execution) (l : Ledger) :
    x.conclude l =
      ({ (conclude { x with status := .running } l).1 with
          status := if x.isFinished then x.status
            else (conclude { x with status := .running } l).1.status },
        (conclude { x with status := .running } l).2) := by
  cases hfinished : x.isFinished with
  | false =>
      have hsame : { x with status := .running } = x := by rw [← running_iff.1 hfinished]
      rw [hsame]
      rfl
  | true =>
      unfold conclude
      cases hp : x.phase with
      | visiting d n s e v => cases v <;> simp [← hp]
      | closing result => simp [hfinished]
      | _ => simp [← hp]

/-- The step of a task whose entry is taken is its two halves, one after the other. -/
theorem toil_of_land (h : x.land r l = some l') : x.toil g r l = some (x.conclude l') := by
  have hland : land r { x with status := .running } l = some l' := h
  have hstep := advance_of_land (g := g) (x := { x with status := .running }) rfl hland
  rw [toil, hstep, conclude_of_running x l']
  rfl

/-- A journal in memory takes the entry. -/
theorem exists_land_of_written (h : x.written? r = some e) : ∃ l l', x.land r l = some l' := by
  refine ⟨⟨.empty, [], []⟩, _, land_eq_some_iff.2 ⟨e, _, h, rfl, rfl⟩⟩

/-- Going on after an append is the step itself, taken where the journal takes the entry. -/
theorem exists_step_of_conclude (g : Engine) (h : x.written? r = some e) (l₀ : Ledger) :
    ∃ l l' z, advance g r { x with status := .running } l = some (z, l') ∧
      x.accepted? r l = some e ∧
      (x.conclude l₀).1 =
        { z with status := if x.isFinished then x.status else z.status } := by
  obtain ⟨l, l', hland⟩ := exists_land_of_written h
  obtain ⟨z, hstep, hz⟩ := of_toil (toil_of_land (g := g) hland)
  obtain ⟨e', j, hwritten, happend, -⟩ := land_eq_some_iff.1 hland
  cases h.symm.trans hwritten
  exact ⟨l, _, z, hstep, accepted?_of_taken h happend, (conclude_congr x l₀ l').trans hz⟩

end Halves

/-- Whether a task that is amid an append has an entry to append. -/
def Pends (t : Task) : Prop :=
  t.isAmid = true → ∃ r e, t.execution.written? r = some e

/-- While an append is under way its entry stays the one that was written. -/
theorem pends_does (h : t.Pends) (d : Deed) : (t.does d).Pends := by
  have hdoing := doing t d
  generalize t.taken? d = taken at hdoing
  generalize t.does d = u at hdoing ⊢
  cases hdoing with
  | idle => exact h
  | step free hstep =>
      intro hamid
      cases (isFree_iff.1 free).1.symm.trans hamid
  | besides changes journal => exact h
  | land free written happend => exact fun _ => ⟨_, _, written⟩
  | conclude amid unhalted =>
      intro hamid
      cases hamid

/-- A task that is amid an append has landed its entry. -/
theorem pends_run (h : t.isAmid = false) (ds : List Deed) : (t.run ds).Pends := by
  induction ds using List.reverseRecOn with
  | nil => simp [Pends, h]
  | append_singleton ds d ih =>
      rw [run_concat]
      exact pends_does ih d

/-- The entry gets into the journal behind the back of the execution. -/
theorem execution_does_land (t : Task) (r : Readings) :
    (t.does (.land r)).execution = t.execution := by
  simp only [does]
  split
  · split <;> rfl
  · rfl

/-- An execution gets nowhere by a deed where it would not get by acts. -/
theorem exists_acts_does (h : t.Pends) (d : Deed) :
    ∃ as, acts (t.execution, t.ledger) as = ((t.does d).execution, (t.does d).ledger) := by
  cases d with
  | act a =>
      simp only [does]
      split
      · exact ⟨[], rfl⟩
      · exact ⟨[a], rfl⟩
  | land r =>
      refine ⟨[.others (t.does (.land r)).ledger], ?_⟩
      rw [execution_does_land]
      rfl
  | conclude =>
      simp only [does]
      split
      · next hready =>
          simp only [Bool.and_eq_true, Bool.not_eq_true'] at hready
          obtain ⟨r, e, hwritten⟩ := h hready.1
          -- The step is taken at once, in a world that others make for it and undo afterwards.
          obtain ⟨l, l', hland⟩ := exists_land_of_written hwritten
          refine ⟨[.others l, .task ⟨.memory [], .builtin, {}⟩ r,
            .others (t.execution.conclude t.ledger).2], ?_⟩
          simp [act, toil_of_land hland, conclude_congr t.execution l' t.ledger]
      · exact ⟨[], rfl⟩

/-- Whatever an execution comes to by deeds, it comes to by acts. -/
theorem exists_acts (free : t.isAmid = false) (ds : List Deed) :
    ∃ as, acts (t.execution, t.ledger) as = ((t.run ds).execution, (t.run ds).ledger) := by
  induction ds using List.reverseRecOn with
  | nil => exact ⟨[], rfl⟩
  | append_singleton ds d ih =>
      obtain ⟨as, has⟩ := ih
      obtain ⟨more, hmore⟩ := exists_acts_does (pends_run free ds) d
      refine ⟨as ++ more, ?_⟩
      rw [acts_append, has, hmore, run_concat]

/-! ## Ends -/

/-- An act keeps the promise that whoever has ended is finished. -/
theorem closes_act {p : Execution × Ledger} (h : p.1.Closes) (a : Act) : (act p a).1.Closes := by
  have hacted := acted p a
  generalize act p a = q at hacted ⊢
  cases hacted with
  | toiled hstep =>
      intro result hp
      have hfinished := closes_of_advance hstep result hp
      cases hbefore : p.1.isFinished with
      | true => exact isFinished_of_status (x := p.1) (by simp) hbefore
      | false => simpa [hbefore] using hfinished
  | stuck _ => exact h
  | besides _ changes _ =>
      rcases changes with rfl | ⟨-, -, rfl⟩
      · exact h
      · exact fun _ _ => rfl

theorem closes_acts {p : Execution × Ledger} (h : p.1.Closes) (as : List Act) :
    (acts p as).1.Closes := by
  induction as generalizing p with
  | nil => exact h
  | cons a as ih => exact ih (closes_act h a)

/-- Whoever has ended counts as finished, whatever was done to it. -/
theorem closes_run (h : t.execution.Closes) (free : t.isAmid = false) (ds : List Deed) :
    (t.run ds).execution.Closes := by
  obtain ⟨as, has⟩ := exists_acts free ds
  have hacts : (acts (t.execution, t.ledger) as).1.Closes := closes_acts h as
  rwa [has] at hacts

end Task
end Casework
