import Casework.Proofs.Execution.Approval
import Casework.Proofs.Execution.Trace

/-!
# Finality — an execution finishes once

The status of an execution is written by its task and by whoever stops it.  A task that is stopped
goes on until it next waits, and may come to its own end meanwhile.

* `Execution.toil` : the next atomic step of a task, whether it was stopped or not;
* `Execution.Request`, `Execution.handle` : what callers ask and what they are answered;
* `Execution.Act`, `Execution.act` : one thing that the task, a caller or somebody else does;
* `Execution.Acted`, `Execution.acted` : all that one of these can come to;
* `Execution.statuses` : the status before, between and after some acts;
* `Execution.Shut` : what callers meet after the end;
* `finished_is_final` : the status changes at most once, and callers change nothing afterwards.
-/

namespace Casework
namespace Execution

/-- The next atomic step of the task of an execution.  The task does not look at the status before
its end, and leaves it alone if it is final already. -/
def toil (g : Engine) (r : Readings) (x : Execution) (l : Ledger) : Option (Execution × Ledger) :=
  (advance g r { x with status := .running } l).map fun (y, l) =>
    ({ y with status := if x.isFinished then x.status else y.status }, l)

inductive Request where
  | signal (s : Signal)
  /-- A decision, which becomes a signal when it is made. -/
  | decide (value : String) (r : Readings)
  | cancel
  | look

inductive Reply where
  | delivery (outcome : Except Error Disposition)
  | done
  | view (published : Option Case) (status : ExecutionStatus) (result : Option (Except Error Case))

/-- Delivers a signal, and reports it unless it is refused. -/
def receive (s : Signal) (p : Execution × Ledger) : (Execution × Ledger) × Reply :=
  -- One act: the slot is never locked by somebody who is suspended, so the delivery does not wait.
  match p.1.deliver s with
  | .ok (x, d) => ((x, p.2.report (deliveryMetric x.caseId d)), .delivery (.ok d))
  | .error e => (p, .delivery (.error e))

def handle (p : Execution × Ledger) : Request → (Execution × Ledger) × Reply
  | .signal s => receive s p
  | .decide value r => receive (.decision value r.freshId r.now) p
  | .cancel => ((p.1.cancel, p.2), .done)
  | .look => (p, .view p.1.published p.1.status p.1.result?)

inductive Act where
  /-- The task takes its next atomic step, if it can, in whatever world there is. -/
  | task (g : Engine) (r : Readings)
  /-- The task of an execution that was stopped is dropped, and its wait with it. -/
  | drop
  | request (q : Request)
  /-- Others write to the ledger. -/
  | others (l : Ledger)

def act (p : Execution × Ledger) : Act → Execution × Ledger
  | .task g r => (p.1.toil g r p.2).getD p
  | .drop =>
      if p.1.status = .cancelled then (p.1.withInbox (p.1.context.inbox.abandon 0), p.2) else p
  | .request q => (handle p q).1
  | .others l => (p.1, l)

def acts (p : Execution × Ledger) (as : List Act) : Execution × Ledger :=
  as.foldl act p

def statuses (p : Execution × Ledger) : List Act → List ExecutionStatus
  | [] => [p.1.status]
  | a :: as => p.1.status :: statuses (act p a) as

variable {g : Engine} {r : Readings} {x y : Execution} {l l' : Ledger} {p : Execution × Ledger}

@[simp] theorem acts_nil (p : Execution × Ledger) : acts p [] = p := rfl

@[simp] theorem acts_cons (p : Execution × Ledger) (a : Act) (as : List Act) :
    acts p (a :: as) = acts (act p a) as := rfl

/-- Acts come one after the other. -/
@[simp] theorem acts_append (p : Execution × Ledger) (as bs : List Act) :
    acts p (as ++ bs) = acts (acts p as) bs :=
  List.foldl_append

/-! ## One act -/

/-- There are three ways to be finished. -/
theorem isFinished_iff : x.isFinished = true ↔
    x.status = .completed ∨ (∃ text, x.status = .failed text) ∨ x.status = .cancelled := by
  unfold isFinished
  cases x.status <;> simp [ExecutionStatus.isFinished]

/-- While it runs, the steps of a task are those of its execution. -/
theorem toil_of_running (hs : x.status = .running) : x.toil g r l = x.advance g r l := by
  have hsame : { x with status := .running } = x := by rw [← hs]
  have hrunning : x.isFinished = false := running_iff.2 hs
  simp [toil, hsame, hrunning]

/-- What the step of an execution leads to is what its task does. -/
theorem act_of_advance {b : Execution × Ledger} (h : x.advance g r l = some b) :
    act (x, l) (.task g r) = b := by
  simp [act, toil_of_running (running_of_advance h), h]

/-- The task of an execution that has ended makes no step. -/
theorem toil_of_ended {result : Except Error Case} (hp : x.phase = .ended result) :
    x.toil g r l = none := by
  have hstuck : advance g r { x with status := .running } l = none := advance_of_ended hp
  rw [toil, hstuck]
  rfl

/-- A task that was stopped walks on as it would have, except for the status. -/
theorem of_toil (h : x.toil g r l = some (y, l')) :
    ∃ z, advance g r { x with status := .running } l = some (z, l') ∧
      y = { z with status := if x.isFinished then x.status else z.status } := by
  obtain ⟨⟨z, lz⟩, hstep, hy⟩ := Option.map_eq_some_iff.1 h
  cases hy
  exact ⟨z, hstep, rfl⟩

/-- A finished execution refuses signals, with its status as the reason. -/
theorem receive_of_finished (finished : p.1.isFinished = true) (s : Signal) :
    receive s p = (p, .delivery (.error
      (.notRunning (p.1.caseId ++ " (" ++ p.1.status.text ++ ")")))) := by
  simp [receive, deliver, finished]

/-- One that is finished cannot be stopped any more. -/
theorem cancel_of_finished (finished : x.isFinished = true) : x.cancel = x := by
  simp [cancel, finished]

/-- No request changes a finished execution. -/
theorem handle_of_finished (finished : p.1.isFinished = true) (q : Request) :
    (handle p q).1 = p := by
  cases q with
  | signal s => simp [handle, receive_of_finished finished]
  | decide value r => simp [handle, receive_of_finished finished]
  | cancel => simp [handle, cancel_of_finished finished]
  | look => rfl

def Act.isTask : Act → Bool
  | .task _ _ => true
  | _ => false

/-- A delivery changes at most the inbox and the reports. -/
theorem receive_besides (s : Signal) (p : Execution × Ledger) :
    ∃ inbox, (receive s p).1.1 = p.1.withInbox inbox ∧
      (receive s p).1.2.journal = p.2.journal := by
  unfold receive
  split
  · next hdeliver =>
      obtain ⟨-, inbox, rfl⟩ := of_deliver hdeliver
      exact ⟨inbox, rfl, rfl⟩
  · exact ⟨p.1.context.inbox, rfl, rfl⟩

/-- All that an act changes which is no step of the task: the inbox, the status of an execution that
is stopped, and what others write. -/
theorem act_besides (p : Execution × Ledger) {a : Act} (other : a.isTask = false) :
    ∃ inbox status, (act p a).1 = { p.1.withInbox inbox with status := status } ∧
      (status = p.1.status ∨
        a = .request .cancel ∧ p.1.status = .running ∧ status = .cancelled) ∧
      ((act p a).2.journal = p.2.journal ∨ a = .others (act p a).2) := by
  -- A delivery reaches the inbox, a cancellation the status, and the journal is the others' affair.
  cases a with
  | task g r => cases other
  | drop =>
      simp only [act]
      split
      · exact ⟨p.1.context.inbox.abandon 0, p.1.status, rfl, .inl rfl, .inl rfl⟩
      · exact ⟨p.1.context.inbox, p.1.status, rfl, .inl rfl, .inl rfl⟩
  | request q =>
      cases q with
      | signal s =>
          obtain ⟨inbox, hsame, hjournal⟩ := receive_besides s p
          exact ⟨inbox, p.1.status, hsame, .inl rfl, .inl hjournal⟩
      | decide value r =>
          obtain ⟨inbox, hsame, hjournal⟩ :=
            receive_besides (.decision value r.freshId r.now) p
          exact ⟨inbox, p.1.status, hsame, .inl rfl, .inl hjournal⟩
      | cancel =>
          refine ⟨p.1.context.inbox, p.1.cancel.status, ?_, ?_, .inl rfl⟩
          · exact cancel_eq p.1
          · rcases cancel_cases p.1 with ⟨-, hsame⟩ | ⟨hunfinished, hstopped⟩
            · exact .inl (by rw [hsame])
            · exact .inr ⟨rfl, running_iff.1 hunfinished, by rw [hstopped]⟩
      | look => exact ⟨p.1.context.inbox, p.1.status, rfl, .inl rfl, .inl rfl⟩
  | others l => exact ⟨p.1.context.inbox, p.1.status, rfl, .inl rfl, .inr rfl⟩

/-- All that an act can come to: the task takes a step, it cannot take one, or something happens
besides. -/
inductive Acted (p : Execution × Ledger) : Act → Execution × Ledger → Prop
  | toiled {g : Engine} {r : Readings} {z : Execution} {l : Ledger}
      (h : advance g r { p.1 with status := .running } p.2 = some (z, l)) :
      Acted p (.task g r)
        ({ z with status := if p.1.isFinished then p.1.status else z.status }, l)
  | stuck {g : Engine} {r : Readings} (h : p.1.toil g r p.2 = none) : Acted p (.task g r) p
  | besides {a : Act} {inbox : Inbox} {status : ExecutionStatus} {l : Ledger}
      (other : a.isTask = false)
      (changes : status = p.1.status ∨
        a = .request .cancel ∧ p.1.status = .running ∧ status = .cancelled)
      (journal : l.journal = p.2.journal ∨ a = .others l) :
      Acted p a ({ p.1.withInbox inbox with status := status }, l)

/-- Every act comes to one of these. -/
theorem acted (p : Execution × Ledger) (a : Act) : Acted p a (act p a) := by
  cases hkind : a.isTask with
  | false =>
      obtain ⟨inbox, status, hsame, changes, journal⟩ := act_besides p hkind
      rw [show act p a = ({ p.1.withInbox inbox with status := status }, (act p a).2) from
        Prod.ext hsame rfl]
      exact .besides hkind changes journal
  | true =>
      cases a with
      | task g r =>
          simp only [act]
          cases htoil : p.1.toil g r p.2 with
          | none => exact .stuck htoil
          | some b =>
              obtain ⟨y, l⟩ := b
              obtain ⟨z, hstep, rfl⟩ := of_toil htoil
              exact .toiled hstep
      | _ => cases hkind

/-- No act changes the case that an execution is about. -/
theorem caseId_act (p : Execution × Ledger) (a : Act) : (act p a).1.caseId = p.1.caseId := by
  have hacted := acted p a
  generalize act p a = q at hacted ⊢
  cases hacted with
  | toiled hstep =>
      have hcase := caseId_of_advance hstep
      exact hcase
  | stuck _ => rfl
  | besides _ _ _ => rfl

/-- Nothing changes the status of an execution that is finished, not even its own task. -/
theorem status_act (finished : p.1.isFinished = true) (a : Act) :
    (act p a).1.status = p.1.status := by
  have hacted := acted p a
  generalize act p a = q at hacted ⊢
  cases hacted with
  | toiled _ => simp [finished]
  | stuck _ => rfl
  | besides _ changes _ =>
      rcases changes with rfl | ⟨-, hrunning, -⟩
      · rfl
      · rw [running_iff.2 hrunning] at finished
        cases finished

/-- Where an execution stands whose status is final: at its end, unless it was stopped. -/
def Settled (x : Execution) : Prop :=
  x.isFinished = true → x.status ≠ .cancelled → ∃ result, x.phase = .ended result

/-- An execution that runs may still change. -/
theorem settled_of_running (hs : x.status = .running) : x.Settled := by
  intro hfinished
  rw [running_iff.2 hs] at hfinished
  cases hfinished

/-- One that is cancelled has settled what it will be. -/
theorem settled_of_cancelled (hs : x.status = .cancelled) : x.Settled :=
  fun _ hother => absurd hs hother

/-- Nothing changes an execution whose task has ended. -/
theorem act_of_ended {result : Except Error Case} (finished : p.1.isFinished = true)
    (uncancelled : p.1.status ≠ .cancelled) (hp : p.1.phase = .ended result) (a : Act) :
    (act p a).1 = p.1 := by
  cases a with
  | task g r => simp [act, toil_of_ended hp]
  -- Only the task of an execution that was stopped is dropped.
  | drop => simp [act, uncancelled]
  | request q => rw [act, handle_of_finished finished]
  | others l => rfl

/-- Whatever is settled stays so. -/
theorem settled_act (h : p.1.Settled) (a : Act) : (act p a).1.Settled := by
  by_cases hfinished : p.1.isFinished = true
  · by_cases hcancelled : p.1.status = .cancelled
    · exact settled_of_cancelled ((status_act hfinished a).trans hcancelled)
    · obtain ⟨result, hp⟩ := h hfinished hcancelled
      rw [act_of_ended hfinished hcancelled hp a]
      exact h
  · -- It runs, so only its own step or a cancellation can finish it.
    have hunfinished : p.1.isFinished = false := Bool.eq_false_iff.2 hfinished
    have hacted := acted p a
    generalize act p a = q at hacted ⊢
    cases hacted with
    | toiled hstep =>
        rcases status_of_advance hstep with hrunning | ⟨result, hp, -⟩
        · exact settled_of_running (by simpa [hunfinished] using hrunning)
        · exact fun _ _ => ⟨result, hp⟩
    | stuck _ => exact h
    | besides _ changes _ =>
        rcases changes with rfl | ⟨-, -, rfl⟩
        · exact settled_of_running (running_iff.1 hunfinished)
        · exact settled_of_cancelled rfl

/-! ## Any number of acts -/

theorem caseId_acts (p : Execution × Ledger) (as : List Act) :
    (acts p as).1.caseId = p.1.caseId := by
  induction as generalizing p with
  | nil => rfl
  | cons a as ih => exact (ih (act p a)).trans (caseId_act p a)

/-- Along acts it stays so, too. -/
theorem settled_acts (h : p.1.Settled) (as : List Act) : (acts p as).1.Settled := by
  induction as generalizing p with
  | nil => exact h
  | cons a as ih => exact ih (settled_act h a)

/-- A run up to the next wait is some steps of the task. -/
theorem exists_acts_settle (g : Engine) (r : Readings) (x : Execution) (l : Ledger) :
    ∃ n, acts (x, l) (List.replicate n (.task g r)) = x.settle g r l := by
  fun_induction settle g r x l with
  | case1 x l x' l' hstep ih =>
      obtain ⟨n, hn⟩ := ih
      exact ⟨n + 1, by rw [List.replicate_succ, acts_cons, act_of_advance hstep, hn]⟩
  | case2 x l hstuck => exact ⟨0, rfl⟩

/-- A slice of a run is some steps of the task. -/
theorem exists_acts_runSlice (g : Engine) (r : Readings) (x : Execution) (l : Ledger) :
    ∃ n, acts (x, l) (List.replicate n (.task g r)) = x.runSlice g r l := by
  fun_induction runSlice g r x l with
  | case1 x l x' l' hstep hfiles => exact ⟨1, act_of_advance hstep⟩
  | case2 x l x' l' hstep hfiles ih =>
      obtain ⟨n, hn⟩ := ih
      exact ⟨n + 1, by rw [List.replicate_succ, acts_cons, act_of_advance hstep, hn]⟩
  | case3 x l hstuck => exact ⟨0, rfl⟩

theorem isFinished_of_status (h : y.status = x.status) (finished : x.isFinished = true) :
    y.isFinished = true := by
  rw [isFinished, h]
  exact finished

/-- Once an execution is finished its status is the same for ever. -/
theorem status_acts (finished : p.1.isFinished = true) (as : List Act) :
    (acts p as).1.status = p.1.status := by
  induction as generalizing p with
  | nil => rfl
  | cons a as ih =>
      have hsame := status_act finished a
      exact (ih (isFinished_of_status hsame finished)).trans hsame

/-- Once its task has ended it is the same altogether. -/
theorem acts_of_ended {result : Except Error Case} (finished : p.1.isFinished = true)
    (uncancelled : p.1.status ≠ .cancelled) (hp : p.1.phase = .ended result) (as : List Act) :
    (acts p as).1 = p.1 := by
  induction as generalizing p with
  | nil => rfl
  | cons a as ih =>
      have hsame := act_of_ended finished uncancelled hp a
      have hrest : (acts (act p a) as).1 = (act p a).1 :=
        ih (by rwa [hsame]) (by rwa [hsame]) (by rwa [hsame])
      exact hrest.trans hsame

/-- After the end every status in the history is the last one. -/
theorem statuses_of_finished (finished : p.1.isFinished = true) (as : List Act) :
    statuses p as = List.replicate (as.length + 1) p.1.status := by
  induction as generalizing p with
  | nil => rfl
  | cons a as ih =>
      have hsame := status_act finished a
      rw [statuses, ih (isFinished_of_status hsame finished), hsame]
      rfl

/-- An execution that runs goes on running, until one act finishes it for good. -/
theorem statuses_of_running (hs : p.1.status = .running) (as : List Act) :
    ∃ n m s, statuses p as = List.replicate (n + 1) .running ++ List.replicate m s ∧
      (s = .completed ∨ (∃ text, s = .failed text) ∨ s = .cancelled) := by
  induction as generalizing p with
  | nil => exact ⟨0, 0, .completed, by simp [statuses, hs], .inl rfl⟩
  | cons a as ih =>
      by_cases hfinished : (act p a).1.isFinished = true
      · refine ⟨0, as.length + 1, (act p a).1.status, ?_, isFinished_iff.1 hfinished⟩
        rw [statuses, statuses_of_finished hfinished, hs]
        rfl
      · obtain ⟨n, m, s, hstatuses, hfinal⟩ := ih (running_iff.1 (Bool.eq_false_iff.2 hfinished))
        refine ⟨n + 1, m, s, ?_, hfinal⟩
        rw [statuses, hstatuses, hs]
        rfl

theorem Starts.running (h : x.Starts) : x.status = .running := by
  obtain ⟨caseId, launch, entries, rfl⟩ := h.launching
  rfl

/-- What callers meet who come after the end of an execution: they change nothing, neither the
execution nor the ledger, and no signal is taken. -/
structure Shut (p : Execution × Ledger) (caseId : String) (status : ExecutionStatus) : Prop where
  final : p.1.status = status
  unmoved : ∀ q, (handle p q).1 = p
  refuses_signal : ∀ s, (handle p (.signal s)).2 =
    .delivery (.error (.notRunning (caseId ++ " (" ++ status.text ++ ")")))
  refuses_decision : ∀ value r, (handle p (.decide value r)).2 =
    .delivery (.error (.notRunning (caseId ++ " (" ++ status.text ++ ")")))
  cancel : p.1.cancel = p.1

/-- A finished execution is shut, for every request and every reader. -/
theorem shut_of_finished (finished : p.1.isFinished = true) :
    Shut p p.1.caseId p.1.status where
  final := rfl
  unmoved := handle_of_finished finished
  refuses_signal s := by rw [handle, receive_of_finished finished]
  refuses_decision value r := by rw [handle, receive_of_finished finished]
  cancel := cancel_of_finished finished

end Execution

open Execution

/-- The status of an execution changes at most once, when it finishes.  From then on it is shut,
whatever its task still does, and one that was not stopped stays as it is altogether. -/
theorem finished_is_final (x₀ : Execution) (l₀ : Ledger) (starts : x₀.Starts) (as : List Act) :
    (∃ n m s, statuses (x₀, l₀) as = List.replicate (n + 1) .running ++ List.replicate m s ∧
      (s = .completed ∨ (∃ text, s = .failed text) ∨ s = .cancelled)) ∧
    ((acts (x₀, l₀) as).1.isFinished = true → ∀ later,
      Shut (acts (x₀, l₀) (as ++ later)) x₀.caseId (acts (x₀, l₀) as).1.status ∧
      ((acts (x₀, l₀) as).1.status ≠ .cancelled →
        (acts (x₀, l₀) (as ++ later)).1 = (acts (x₀, l₀) as).1)) := by
  have hs : x₀.status = .running := starts.running
  refine ⟨statuses_of_running hs as, ?_⟩
  intro hfinished later
  have hstatus : (acts (x₀, l₀) (as ++ later)).1.status = (acts (x₀, l₀) as).1.status := by
    rw [acts_append]
    exact status_acts hfinished later
  have hcase : (acts (x₀, l₀) (as ++ later)).1.caseId = x₀.caseId := caseId_acts _ _
  constructor
  · have hshut := shut_of_finished (isFinished_of_status hstatus hfinished)
    rwa [hcase, hstatus] at hshut
  · intro huncancelled
    -- Whoever finished and was not stopped has ended, and nothing moves it any more.
    obtain ⟨result, hp⟩ := settled_acts (settled_of_running hs) as hfinished huncancelled
    rw [acts_append]
    exact acts_of_ended hfinished huncancelled hp later

/-- A case that is stopped before it was opened stays so, although its task still records the
start. -/
theorem finished_is_final_stopped :
    statuses (.fresh "case-1" "approval" "1" .null ⟨0, 0⟩, ⟨.empty, [], []⟩)
        [.request .cancel, .task (Engine.approving none) default] =
      [.running, .cancelled, .cancelled] ∧
    (handle (acts (.fresh "case-1" "approval" "1" .null ⟨0, 0⟩, ⟨.empty, [], []⟩)
        [.request .cancel, .task (Engine.approving none) default]) (.decide "approve" default)).2 =
      .delivery (.error (.notRunning "case-1 (cancelled)")) := by
  have hfinal := finished_is_final (.fresh "case-1" "approval" "1" .null ⟨0, 0⟩) ⟨.empty, [], []⟩
    (.fresh _ _ _ _ _) [.request .cancel]
  have hshut := (hfinal.2 rfl [.task (Engine.approving none) default]).1
  exact ⟨rfl, hshut.refuses_decision "approve" default⟩

end Casework
