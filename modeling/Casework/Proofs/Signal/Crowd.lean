import Casework.Signal.Inbox
import Mathlib.Logic.Function.Basic

/-!
# Crowds — one inbox that many tasks use at once

A delivery fills the slot and notifies afterwards, and a wait looks into the slot before it falls
asleep.  In between other tasks may act.  Here these operations are taken apart, so that everything
that tasks can do to one inbox is a sequence of small steps.

* `Stage`, `Crowd` : where each wait stands, and the inbox with all of them;
* `Crowd.Works` : a step of a task that is underway;
* `Crowd.Step`, `Crowd.Run` : these, and calls that tasks make;
* `Crowd.run_of_deliver`, `Crowd.run_of_advance` : what the inbox does in one go is done by such
  steps.
-/

namespace Casework

inductive Stage where
  /-- Not begun. -/
  | absent
  /-- About to look into the slot. -/
  | looking
  /-- Has found nothing, and is about to use a permit or to fall asleep. -/
  | resting
  /-- Asleep until a notification or the deadline. -/
  | asleep
  /-- Past its deadline, and about to leave the queue. -/
  | leaving
  /-- About to look into the slot a last time. -/
  | relenting
  | ended (result : Option Signal)
  /-- Given up by its task before it ended. -/
  | forgotten
deriving DecidableEq

structure Call where
  deadline : Option Nat := none
  stage : Stage := .absent

structure Crowd where
  inbox : Inbox := {}
  /-- Deliveries that have filled the slot and are about to notify. -/
  owed : Nat := 0
  calls : Nat → Call := fun _ => {}
  time : Nat := 0

namespace Crowd

inductive Taker where
  | clear
  | tryTake
  | wait (id : Nat)
deriving DecidableEq

inductive Label where
  | delivered (s : Signal) (disposition : Disposition)
  | returned (taker : Taker) (s : Signal)
  | quiet
deriving DecidableEq

def looked (taker : Taker) : Option Signal → Label
  | some s => .returned taker s
  | none => .quiet

def put (c : Crowd) (id : Nat) (stage : Stage) : Crowd :=
  { c with calls := Function.update c.calls id { c.calls id with stage := stage } }

def withInbox (c : Crowd) (b : Inbox) : Crowd :=
  { c with inbox := b }

/-- A step of a task that is underway: the second half of a delivery, or a part of a wait. -/
inductive Works (c : Crowd) : Label → Crowd → Prop
  | notify {n : Nat} (owed : c.owed = n + 1) :
      Works c .quiet { c with inbox := c.inbox.notify, owed := n }
  | find {id : Nat} {s : Signal} (stage : (c.calls id).stage = .looking)
      (slot : c.inbox.slot = some s) :
      Works c (.returned (.wait id) s) ((c.withInbox c.inbox.take.1).put id (.ended (some s)))
  | miss {id : Nat} (stage : (c.calls id).stage = .looking) (slot : c.inbox.slot = none) :
      Works c .quiet (c.put id .resting)
  | spend {id : Nat} (stage : (c.calls id).stage = .resting) (permit : c.inbox.permit = true) :
      Works c .quiet ((c.withInbox { c.inbox with permit := false }).put id .looking)
  | sleep {id : Nat} (stage : (c.calls id).stage = .resting) (permit : c.inbox.permit = false) :
      Works c .quiet
        ((c.withInbox { c.inbox with parked := c.inbox.parked ++ [id] }).put id .asleep)
  | wake {id : Nat} (stage : (c.calls id).stage = .asleep) (woken : id ∈ c.inbox.woken) :
      Works c .quiet
        ((c.withInbox { c.inbox with woken := c.inbox.woken.erase id }).put id .looking)
  | expire {id d : Nat} (stage : (c.calls id).stage = .asleep) (unwoken : id ∉ c.inbox.woken)
      (deadline : (c.calls id).deadline = some d) (due : d ≤ c.time) :
      Works c .quiet (c.put id .leaving)
  | leave {id : Nat} (stage : (c.calls id).stage = .leaving) :
      Works c .quiet ((c.withInbox (c.inbox.abandon id)).put id .relenting)
  | relent {id : Nat} (stage : (c.calls id).stage = .relenting) :
      Works c (looked (.wait id) c.inbox.slot)
        ((c.withInbox c.inbox.take.1).put id (.ended c.inbox.slot))

/-- A step of a task that is underway, a call that a task makes, the end of a wait that its task no
longer needs, or time that passes. -/
inductive Step (c : Crowd) : Label → Crowd → Prop
  | work {o : Label} {c' : Crowd} (h : c.Works o c') : Step c o c'
  | store {s : Signal} (slot : c.inbox.slot = none) :
      Step c (.delivered s .accepted)
        { c with inbox := { c.inbox with slot := some s }, owed := c.owed + 1 }
  | refuse {s t : Signal} (slot : c.inbox.slot = some t) : Step c (.delivered s .dropped) c
  | clear : Step c (looked .clear c.inbox.clear.2) (c.withInbox c.inbox.clear.1)
  | tryTake : Step c (looked .tryTake c.inbox.take.2) (c.withInbox c.inbox.take.1)
  | call {id : Nat} (deadline : Option Nat) (stage : (c.calls id).stage = .absent) :
      Step c .quiet { c with calls := Function.update c.calls id ⟨deadline, .looking⟩ }
  | forget {id : Nat} (stage : (c.calls id).stage = .asleep) :
      Step c .quiet ((c.withInbox (c.inbox.abandon id)).put id .forgotten)
  | pass {t : Nat} (later : c.time ≤ t) : Step c .quiet { c with time := t }

inductive Run (c₀ : Crowd) : List Label → Crowd → Prop
  | refl : Run c₀ [] c₀
  | next {os : List Label} {o : Label} {c c' : Crowd} (before : Run c₀ os c) (h : c.Step o c') :
      Run c₀ (os ++ [o]) c'

def Settled (c : Crowd) : Prop :=
  ∀ o c', ¬ c.Works o c'

/-- The signals that were accepted, in order. -/
def accepted (os : List Label) : List Signal :=
  os.filterMap fun
    | .delivered s .accepted => some s
    | _ => none

/-- The signals that were returned, in order. -/
def returned (os : List Label) : List Signal :=
  os.filterMap fun
    | .returned _ s => some s
    | _ => none

/-! ## Changes to a crowd -/

variable {c c' : Crowd} {os : List Label} {o : Label} {b : Inbox}

@[simp]
theorem inbox_withInbox (c : Crowd) (b : Inbox) : (c.withInbox b).inbox = b :=
  rfl

@[simp]
theorem calls_withInbox (c : Crowd) (b : Inbox) : (c.withInbox b).calls = c.calls :=
  rfl

@[simp]
theorem inbox_put (c : Crowd) (id : Nat) (stage : Stage) : (c.put id stage).inbox = c.inbox :=
  rfl

@[simp]
theorem calls_put_self (c : Crowd) (id : Nat) (stage : Stage) :
    (c.put id stage).calls id = { c.calls id with stage := stage } := by
  simp [put]

/-- Only one call has another stage afterwards. -/
theorem stage_call (c : Crowd) (id x : Nat) (call : Call) :
    (Function.update c.calls id call x).stage =
      if x = id then call.stage else (c.calls x).stage := by
  by_cases hx : x = id
  · subst hx
    simp
  · simp [hx]

theorem stage_put (c : Crowd) (id x : Nat) (stage : Stage) :
    ((c.put id stage).calls x).stage = if x = id then stage else (c.calls x).stage :=
  stage_call c id x _

/-- The later stage is the one that counts. -/
@[simp]
theorem put_put (c : Crowd) (id : Nat) (first second : Stage) :
    (c.put id first).put id second = c.put id second := by
  simp [put]

@[simp]
theorem withInbox_withInbox (c : Crowd) (b b' : Inbox) :
    (c.withInbox b).withInbox b' = c.withInbox b' :=
  rfl

theorem put_withInbox (c : Crowd) (b : Inbox) (id : Nat) (stage : Stage) :
    (c.put id stage).withInbox b = (c.withInbox b).put id stage :=
  rfl

/-! ## Operations in one go -/

theorem Run.work (before : Run c os c') {c'' : Crowd} (h : c'.Works o c'') :
    Run c (os ++ [o]) c'' :=
  before.next (.work h)

/-- A delivery in one go. -/
theorem run_of_deliver (c : Crowd) (s : Signal) :
    ∃ os, Run c os (c.withInbox (c.inbox.deliver s).1) ∧
      .delivered s (c.inbox.deliver s).2 ∈ os := by
  have hstart : Run c [] c := .refl
  cases hslot : c.inbox.slot with
  | some t =>
      refine ⟨[.delivered s .dropped], ?_, ?_⟩
      · have hrun := hstart.next (.refuse (s := s) hslot)
        simpa [withInbox, Inbox.deliver, hslot] using hrun
      · simp [Inbox.deliver, hslot]
  | none =>
      refine ⟨[.delivered s .accepted, .quiet], ?_, ?_⟩
      · have hrun := (hstart.next (.store (s := s) hslot)).work (.notify (n := c.owed) rfl)
        simpa [withInbox, Inbox.deliver, hslot] using hrun
      · simp [Inbox.deliver, hslot]

/-- The stage at which a wait stands that is taken one step at a time. -/
def stageOf : Inbox.WaitState → Stage
  | .checking => .looking
  | .parked => .asleep
  | .ended result => .ended result

/-- A step of a wait in one go. -/
theorem run_of_advance {w w' : Inbox.Waiter} (hcall : c.calls w.id = ⟨w.deadline, stageOf w.state⟩)
    (h : w.advance c.inbox c.time = some (b, w')) :
    ∃ os, Run c os ((c.withInbox b).put w.id (stageOf w'.state)) := by
  have hstart : Run c [] c := .refl
  have hstage : (c.calls w.id).stage = stageOf w.state := by rw [hcall]
  -- One step of a waiter is up to three steps of its call, which is told in smaller pieces.
  cases hstate : w.state with
  | ended result => simp [Inbox.Waiter.advance, hstate] at h
  | checking =>
      simp only [hstate, stageOf] at hstage
      cases hslot : c.inbox.slot with
      | some s =>
          simp only [Inbox.Waiter.advance, hstate, Inbox.take, hslot, Option.some.injEq,
            Prod.mk.injEq] at h
          rcases h with ⟨rfl, rfl⟩
          exact ⟨_, hstart.work (.find hstage hslot)⟩
      | none =>
          have hmissed := hstart.work (.miss hstage hslot)
          have hresting : ((c.put w.id .resting).calls w.id).stage = .resting := by simp
          cases hpermit : c.inbox.permit with
          | true =>
              simp only [Inbox.Waiter.advance, hstate, Inbox.take, hslot, hpermit, if_true,
                Option.some.injEq, Prod.mk.injEq] at h
              rcases h with ⟨rfl, rfl⟩
              have hrun := hmissed.work (.spend hresting hpermit)
              exact ⟨_, by simpa [stageOf, hstate, put_withInbox, hslot] using hrun⟩
          | false =>
              simp only [Inbox.Waiter.advance, hstate, Inbox.take, hslot, hpermit,
                Bool.false_eq_true, if_false, Option.some.injEq, Prod.mk.injEq] at h
              rcases h with ⟨rfl, rfl⟩
              have hrun := hmissed.work (.sleep hresting hpermit)
              exact ⟨_, by simpa [stageOf, put_withInbox, hslot, hpermit] using hrun⟩
  | parked =>
      simp only [hstate, stageOf] at hstage
      by_cases hwoken : w.id ∈ c.inbox.woken
      · simp only [Inbox.Waiter.advance, hstate, hwoken, if_true, Option.some.injEq,
          Prod.mk.injEq] at h
        rcases h with ⟨rfl, rfl⟩
        exact ⟨_, hstart.work (.wake hstage hwoken)⟩
      · cases hdue : w.isDue c.time with
        | false => simp [Inbox.Waiter.advance, hstate, hwoken, hdue] at h
        | true =>
            simp only [Inbox.Waiter.advance, hstate, hwoken, hdue, if_true, if_false,
              Option.some.injEq, Prod.mk.injEq] at h
            rcases h with ⟨rfl, rfl⟩
            have hdeadline : ∃ d, w.deadline = some d ∧ d ≤ c.time := by
              simpa [Inbox.Waiter.isDue, Option.any_eq_true] using hdue
            rcases hdeadline with ⟨d, hd, hle⟩
            have hexpired := hstart.work (.expire hstage hwoken (by rw [hcall]; exact hd) hle)
            have hleft := hexpired.work (@Works.leave _ w.id (by simp))
            have hrun := hleft.work (@Works.relent _ w.id (by simp))
            exact ⟨_, by
              simpa [stageOf, put_withInbox, Inbox.abandon, Inbox.take, hwoken] using hrun⟩

end Crowd
end Casework
