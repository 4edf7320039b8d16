import Casework.Execution.Settle
import Casework.Proofs.Walk.Basic

/-!
# Sessions — an execution that is told a list of decisions

A session runs an execution and delivers a decision whenever it waits.  What the outside world shows
may change from one atomic step to the next.

* `Session` : runs with the values delivered and the steps entered on the way;
* `Played` : sessions that cannot go on;
* `exists_played` : every list of values can be played to its end.
-/

namespace Casework

/-- Whether no wait of a process has a deadline. -/
structure Engine.Untimed (g : Engine) (d : Definition) : Prop where
  settings : g.settings.signalTimeout = none
  steps : ∀ s ∈ d.steps, ∀ config, s.config ReviewConfig.decoder = .ok config →
    config.timeout = none

namespace Execution

/-- The id of the step whose executor the next atomic step calls. -/
def entering (x : Execution) : List String :=
  match x.phase with
  | .visiting _ _ s _ .entering => [s.stepId]
  | _ => []

def Shows (x : Execution) : Verdict → Prop
  | .completed status =>
      x.status = .completed ∧
        ∃ k, x.published = some k ∧ x.result? = some (.ok k) ∧ k.status = status
  | .failed e => x.status = .failed e.message ∧ x.result? = some (.error e)
  | .suspended stepId =>
      x.status = .running ∧ ∃ d n s e w,
        x.phase = .visiting d n s e (.awaiting w) ∧ s.stepId = stepId

end Execution

/-- A run from one state to another, with the decision values delivered and the ids of the steps
entered on the way.  A decision is delivered only when the execution waits. -/
inductive Session (g : Engine) :
    Execution × Ledger → List String → List String → Execution × Ledger → Prop
  | refl (a : Execution × Ledger) : Session g a [] [] a
  | step {x : Execution} {l : Ledger} {b c : Execution × Ledger} {values visited : List String}
      (r : Readings) (h : x.advance g r l = some b) :
      Session g b values visited c → Session g (x, l) values (x.entering ++ visited) c
  | decide {x x' : Execution} {l : Ledger} {c : Execution × Ledger} {v : String}
      {values visited : List String} {disposition : Disposition} (r : Readings)
      (waits : x.advance g r l = none)
      (h : x.deliver (.decision v r.freshId r.now) = .ok (x', disposition)) :
      Session g (x', l) values visited c → Session g (x, l) (v :: values) visited c

/-- A session that goes on until the execution is finished, or the values are used up and it
waits. -/
def Played (g : Engine) (a : Execution × Ledger) (values visited : List String)
    (b : Execution × Ledger) : Prop :=
  ∃ used rest r, values = used ++ rest ∧ Session g a used visited b ∧
    b.1.advance g r b.2 = none ∧ (rest = [] ∨ b.1.isFinished = true)

namespace Session

variable {g : Engine}

theorem trans {a b c : Execution × Ledger} {values more visited further : List String}
    (h : Session g a values visited b) (h' : Session g b more further c) :
    Session g a (values ++ more) (visited ++ further) c := by
  induction h with
  | refl a =>
      exact h'
  | step r hstep _ ih =>
      rw [List.append_assoc]
      exact .step r hstep (ih h')
  | decide r waits hdeliver _ ih =>
      exact .decide r waits hdeliver (ih h')

/-- All atomic steps up to the next wait or the end are a session without a decision. -/
theorem settled (r : Readings) (x : Execution) (l : Ledger) :
    ∃ visited, Session g (x, l) [] visited (x.settle g r l) := by
  fun_induction Execution.settle g r x l with
  | case1 x l x' l' h ih =>
      obtain ⟨visited, hsession⟩ := ih
      exact ⟨_, .step r h hsession⟩
  | case2 x l h =>
      exact ⟨_, .refl _⟩

end Session

/-- Every list of values can be played to its end. -/
theorem exists_played (g : Engine) (values : List String) (x : Execution) (l : Ledger) :
    ∃ visited b, Played g (x, l) values visited b := by
  induction values generalizing x l with
  | nil =>
      obtain ⟨visited, hsettled⟩ := Session.settled (g := g) default x l
      exact ⟨visited, _, [], [], default, rfl, hsettled, Execution.advance_settle _ _ _ _,
        .inl rfl⟩
  | cons v values ih =>
      obtain ⟨visited, hsettled⟩ := Session.settled (g := g) default x l
      have hstuck := Execution.advance_settle g default x l
      -- Whoever has come to its end takes no more of the values.
      cases hfinished : (x.settle g default l).1.isFinished with
      | true =>
          exact ⟨visited, _, [], v :: values, default, rfl, hsettled, hstuck, .inr hfinished⟩
      | false =>
          obtain ⟨⟨x', disposition⟩, hdeliver⟩ :
              ∃ out, (x.settle g default l).1.deliver (.decision v default default) = .ok out := by
            simp [Execution.deliver, hfinished]
          obtain ⟨further, b, used, rest, r, hvalues, hsession, hend⟩ :=
            ih x' (x.settle g default l).2
          have hwhole : Session g (x, l) (v :: used) (visited ++ further) b :=
            hsettled.trans (.decide default hstuck hdeliver hsession)
          exact ⟨_, b, v :: used, rest, r, by simp [hvalues], hwhole, hend⟩

end Casework
