import Casework.Signal.Basic

/-!
# The inbox

A slot for one signal, and the notification by which a delivery wakes a waiter.

* `Inbox` : the slot, a stored permit, the waiters that are parked and those that were woken and
  have not run since;
* `Inbox.deliver`, `Inbox.clear`, `Inbox.take` : the operations of the sender and the owner;
* `Inbox.Waiter`, `Inbox.Waiter.advance` : a wait, one atomic step at a time.

A delivery into the empty slot wakes the waiter that has been parked longest, or leaves a permit
when none is.  Permits do not add up, and one may be stale, so a waiter that is woken looks into
the slot and parks again if it finds nothing.  A deadline is fixed when the wait begins.
-/

namespace Casework

/-- A slot for one signal, with its waiters. -/
structure Inbox where
  slot : Option Signal := none
  /-- A notification that no waiter has consumed. -/
  permit : Bool := false
  /-- Waiters asleep, the longest first. -/
  parked : List Nat := []
  /-- Waiters that were notified and have not run since. -/
  woken : List Nat := []
deriving DecidableEq, Repr

namespace Inbox

def empty : Inbox := {}

/-- Passes a notification to the waiter parked longest, or stores it. -/
def notify (b : Inbox) : Inbox :=
  match b.parked with
  | w :: rest => { b with parked := rest, woken := b.woken ++ [w] }
  | [] => { b with permit := true }

/-- Delivers a signal: into the empty slot, otherwise nowhere. -/
def deliver (b : Inbox) (s : Signal) : Inbox × Disposition :=
  match b.slot with
  | some _ => (b, .dropped)
  | none => ({ b with slot := some s }.notify, .accepted)

def take (b : Inbox) : Inbox × Option Signal :=
  ({ b with slot := none }, b.slot)

def clear (b : Inbox) : Inbox × Option Signal :=
  b.take

/-- Forgets a waiter.  A notification it was given and has not acted on is passed on. -/
def abandon (b : Inbox) (waiter : Nat) : Inbox :=
  if waiter ∈ b.woken then { b with woken := b.woken.erase waiter }.notify
  else { b with parked := b.parked.erase waiter }

/-- A measure of the notifications that waiters have not acted on. -/
def wakeups (b : Inbox) : Nat :=
  2 * b.permit.toNat + 2 * b.woken.length

/-! ## Waiting -/

inductive WaitState where
  /-- About to look into the slot. -/
  | checking
  /-- Asleep until a notification or the deadline. -/
  | parked
  /-- Ended with a signal, or without one at the deadline. -/
  | ended (result : Option Signal)
deriving DecidableEq, Repr

structure Waiter where
  id : Nat
  /-- The time at which the wait gives up; never if missing. -/
  deadline : Option Nat
  state : WaitState := .checking
deriving DecidableEq, Repr

namespace Waiter

def isDue (w : Waiter) (time : Nat) : Bool :=
  w.deadline.any fun d => d ≤ time

def isReady (w : Waiter) (b : Inbox) (time : Nat) : Bool :=
  match w.state with
  | .checking => true
  | .parked => w.id ∈ b.woken || w.isDue time
  | .ended _ => false

/-- One atomic step of a wait; none if it cannot move at this time.

Looking into the slot takes the signal if there is one, else a stored permit, else parks.  A
notified waiter looks again; one that is due looks a last time. -/
def advance (w : Waiter) (b : Inbox) (time : Nat) : Option (Inbox × Waiter) :=
  match w.state with
  | .ended _ => none
  | .checking =>
      match b.take with
      | (b, some s) => some (b, { w with state := .ended (some s) })
      | (b, none) =>
          -- The permit may be stale: its signal was taken or cleared.  So the wait looks again.
          if b.permit then some ({ b with permit := false }, w)
          else some ({ b with parked := b.parked ++ [w.id] }, { w with state := .parked })
  | .parked =>
      if w.id ∈ b.woken then
        some ({ b with woken := b.woken.erase w.id }, { w with state := .checking })
      else if w.isDue time then
        -- A signal may have come together with the deadline; it wins.
        let (b, s) := { b with parked := b.parked.erase w.id }.take
        some (b, { w with state := .ended s })
      else none

/-- How many steps a wait has ahead of it unless it is notified again. -/
def rank (w : Waiter) : Nat :=
  match w.state with
  | .checking => 3
  | .parked => 2
  | .ended _ => 1

/-- Every step of a wait uses up a notification or brings the wait nearer to its end. -/
theorem rank_add_wakeups_lt {w w' : Waiter} {b b' : Inbox} {time : Nat}
    (h : w.advance b time = some (b', w')) : w'.rank + b'.wakeups < w.rank + b.wakeups := by
  unfold advance at h
  -- A wait that is woken looks again, and that is paid for by the notification it used up.
  cases hs : w.state with
  | ended r => simp [hs] at h
  | checking =>
      cases hb : b.slot with
      | some s =>
          simp only [hs, take, hb, Option.some.injEq, Prod.mk.injEq] at h
          obtain ⟨rfl, rfl⟩ := h
          simp [rank, wakeups, hs]
      | none =>
          cases hp : b.permit <;>
            simp only [hs, take, hb, hp, Option.some.injEq, Prod.mk.injEq, if_true,
              Bool.false_eq_true, if_false] at h <;>
            obtain ⟨rfl, rfl⟩ := h <;> simp [rank, wakeups, hs, hp]
  | parked =>
      by_cases hw : w.id ∈ b.woken
      · simp only [hs, hw, if_true, Option.some.injEq, Prod.mk.injEq] at h
        obtain ⟨rfl, rfl⟩ := h
        have := List.length_pos_of_mem hw
        simp only [rank, wakeups, hs, List.length_erase_of_mem hw]
        omega
      · by_cases hd : w.isDue time
        · simp only [hs, hw, hd, if_true, if_false, take, Option.some.injEq, Prod.mk.injEq] at h
          obtain ⟨rfl, rfl⟩ := h
          simp [rank, wakeups, hs]
        · simp [hs, hw, hd] at h

end Waiter

theorem deliver_slot_some {b : Inbox} {s t : Signal} (h : b.slot = some t) :
    b.deliver s = (b, .dropped) := by
  simp [deliver, h]

@[simp]
theorem slot_notify (b : Inbox) : b.notify.slot = b.slot := by
  unfold notify; split <;> rfl

end Inbox
end Casework
