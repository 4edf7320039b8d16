import Casework.Proofs.Signal.Crowd
import Mathlib.Data.List.Perm.Basic

/-!
# Conservation — no signal is lost or returned twice, and no wait sleeps through one

However many tasks use an inbox at once, what it accepted is what it returned, in the same order,
followed by what is in the slot.

* `Crowd.accepted_append_slot` : what one step does to that, and `Crowd.Run.accepted_eq` for a run;
* `Crowd.Lined` : the queue of an inbox is made of the waits that sleep, and there is a permit only
  while it is empty;
* `Crowd.Awake` : while the slot is occupied, somebody has been notified, is about to notify, or is
  about to look;
* `signals_conserved` : all of it for the runs of a new inbox.
-/

namespace Casework
namespace Inbox

variable {b : Inbox} {id : Nat}

/-- Everyone who has fallen asleep and has not gone on since. -/
def queue (b : Inbox) : List Nat :=
  b.parked ++ b.woken

/-- A notification has been given that nobody has acted on. -/
def Notified (b : Inbox) : Prop :=
  b.permit = true ∨ b.woken ≠ []

theorem perm_queue_notify (b : Inbox) : b.notify.queue.Perm b.queue := by
  cases hparked : b.parked with
  | nil => simp [notify, queue, hparked]
  | cons first rest =>
      have hperm : (rest ++ (b.woken ++ [first])).Perm (first :: (rest ++ b.woken)) := by
        rw [← List.append_assoc]
        exact List.perm_append_singleton first (rest ++ b.woken)
      simpa [notify, queue, hparked] using hperm

theorem notified_notify (b : Inbox) : b.notify.Notified := by
  cases hparked : b.parked with
  | nil => simp [notify, Notified, hparked]
  | cons first rest => simp [notify, Notified, hparked]

theorem parked_notify (h : b.permit = true → b.parked = []) (hpermit : b.notify.permit = true) :
    b.notify.parked = [] := by
  cases hparked : b.parked with
  | nil => simp [notify, hparked]
  | cons first rest =>
      -- The notification goes to a waiter, so there was a permit before.
      have hbefore : b.permit = true := by simpa [notify, hparked] using hpermit
      simp [hparked] at h
      simp [h] at hbefore

/-- Who is woken leaves the queue. -/
theorem perm_queue_wake (hwoken : id ∈ b.woken) :
    (b.parked ++ b.woken.erase id).Perm (b.queue.erase id) := by
  calc
    (b.parked ++ b.woken.erase id).Perm (b.woken.erase id ++ b.parked) := List.perm_append_comm
    _ = (b.woken ++ b.parked).erase id := (List.erase_append_left _ hwoken).symm
    List.Perm _ (b.queue.erase id) := List.perm_append_comm.erase id

/-- Whoever gives up leaves it as well, wherever it stood. -/
theorem perm_queue_abandon (b : Inbox) (id : Nat) :
    (b.abandon id).queue.Perm (b.queue.erase id) := by
  by_cases hwoken : id ∈ b.woken
  · have hnotify := perm_queue_notify { b with woken := b.woken.erase id }
    simpa [abandon, hwoken] using hnotify.trans (perm_queue_wake hwoken)
  · by_cases hparked : id ∈ b.parked
    · simp [abandon, hwoken, queue, List.erase_append_left _ hparked]
    · simp [abandon, hwoken, queue, List.erase_append_right _ hparked,
        List.erase_of_not_mem hparked, List.erase_of_not_mem hwoken]

theorem parked_abandon (h : b.permit = true → b.parked = [])
    (hpermit : (b.abandon id).permit = true) : (b.abandon id).parked = [] := by
  by_cases hwoken : id ∈ b.woken
  · simp only [abandon, hwoken, if_true] at hpermit ⊢
    exact parked_notify h hpermit
  · simp only [abandon, hwoken, if_false] at hpermit ⊢
    simp [h hpermit]

theorem notified_abandon (h : b.Notified) : (b.abandon id).Notified := by
  by_cases hwoken : id ∈ b.woken
  · -- The notification is passed on.
    simpa [abandon, hwoken] using notified_notify { b with woken := b.woken.erase id }
  · simpa [abandon, hwoken, Notified] using h

/-- Giving up leaves the signal for others. -/
@[simp]
theorem slot_abandon (b : Inbox) (id : Nat) : (b.abandon id).slot = b.slot := by
  by_cases hwoken : id ∈ b.woken <;> simp [abandon, hwoken]

end Inbox

def Stage.IsQueued (stage : Stage) : Prop :=
  stage = .asleep ∨ stage = .leaving

namespace Crowd

variable {c c' : Crowd} {o : Label} {os : List Label} {b : Inbox} {id : Nat} {stage : Stage}
  {s : Signal}

/-! ## What is accepted, and what is returned -/

theorem accepted_append (os os' : List Label) :
    accepted (os ++ os') = accepted os ++ accepted os' :=
  List.filterMap_append

theorem returned_append (os os' : List Label) :
    returned (os ++ os') = returned os ++ returned os' :=
  List.filterMap_append

theorem mem_accepted : s ∈ accepted os ↔ .delivered s .accepted ∈ os := by
  simp only [accepted, List.mem_filterMap]
  constructor
  · rintro ⟨o, ho, hs⟩
    split at hs
    · simp only [Option.some.injEq] at hs
      exact hs ▸ ho
    · simp at hs
  · intro h
    exact ⟨_, h, rfl⟩

theorem mem_returned : s ∈ returned os ↔ ∃ taker, .returned taker s ∈ os := by
  simp only [returned, List.mem_filterMap]
  constructor
  · rintro ⟨o, ho, hs⟩
    split at hs
    · rename_i taker t
      simp only [Option.some.injEq] at hs
      exact ⟨taker, hs ▸ ho⟩
    · simp at hs
  · rintro ⟨taker, h⟩
    exact ⟨_, h, rfl⟩

@[simp]
theorem accepted_looked (taker : Taker) (found : Option Signal) :
    accepted [looked taker found] = [] := by
  cases found <;> rfl

@[simp]
theorem returned_looked (taker : Taker) (found : Option Signal) :
    returned [looked taker found] = found.toList := by
  cases found <;> rfl

theorem accepted_of_works (h : c.Works o c') : accepted [o] = [] := by
  cases h with
  | relent stage => exact accepted_looked _ _
  | _ => rfl

/-- What was in the slot is there still, or was returned. -/
theorem slot_of_works (h : c.Works o c') :
    c.inbox.slot.toList = returned [o] ++ c'.inbox.slot.toList := by
  cases h with
  | find stage slot => simp [slot, Inbox.take, returned]
  | relent stage => simp [Inbox.take]
  | _ => simp [returned]

/-- A step puts what it accepts behind the signal in the slot, and returns from the front. -/
theorem accepted_append_slot (h : c.Step o c') :
    c.inbox.slot.toList ++ accepted [o] = returned [o] ++ c'.inbox.slot.toList := by
  cases h with
  | work h => rw [accepted_of_works h, List.append_nil, slot_of_works h]
  | store slot => simp [slot, accepted, returned]
  | refuse slot => simp [accepted, returned]
  | clear => simp [Inbox.clear, Inbox.take]
  | tryTake => simp [Inbox.take]
  | _ => simp [accepted, returned]

/-- What was accepted is what was returned, in the same order, and what is in the slot. -/
theorem Run.accepted_eq (run : Run {} os c) :
    accepted os = returned os ++ c.inbox.slot.toList := by
  induction run with
  | refl => rfl
  | @next os o c c' before h ih =>
      calc
        accepted (os ++ [o]) = accepted os ++ accepted [o] := accepted_append os [o]
        _ = returned os ++ (c.inbox.slot.toList ++ accepted [o]) := by
              rw [ih, List.append_assoc]
        _ = returned os ++ (returned [o] ++ c'.inbox.slot.toList) := by
              rw [accepted_append_slot h]
        _ = returned (os ++ [o]) ++ c'.inbox.slot.toList := by
              rw [returned_append, List.append_assoc]

/-! ## What a wait answers -/

theorem looked_eq_returned {taker taker' : Taker} {found : Option Signal} :
    looked taker found = .returned taker' s ↔ taker = taker' ∧ found = some s := by
  cases found <;> simp [looked]

theorem ended_put (hid : ∀ result, (c.calls id).stage ≠ .ended result) (x : Nat) :
    ((c.put id stage).calls x).stage = .ended (some s) ↔
      (c.calls x).stage = .ended (some s) ∨ (id = x ∧ stage = .ended (some s)) := by
  rw [stage_put]
  by_cases hx : x = id
  · subst hx
    simp [hid]
  · simp [hx, Ne.symm hx]

/-- A wait ends with a signal when the signal is returned to it. -/
theorem ended_of_works (h : c.Works o c') (x : Nat) :
    (c'.calls x).stage = .ended (some s) ↔
      (c.calls x).stage = .ended (some s) ∨ o = .returned (.wait x) s := by
  cases h with
  | notify owed => simp
  | relent stage => simp [ended_put, stage, looked_eq_returned]
  | _ => simp [ended_put, *]

theorem ended_of_step (h : c.Step o c') (x : Nat) :
    (c'.calls x).stage = .ended (some s) ↔
      (c.calls x).stage = .ended (some s) ∨ o = .returned (.wait x) s := by
  cases h with
  | work h => exact ended_of_works h x
  | clear => simp [looked_eq_returned]
  | tryTake => simp [looked_eq_returned]
  | @call id deadline stage =>
      rw [stage_call]
      by_cases hx : x = id
      · subst hx
        simp [stage]
      · simp [hx]
  | forget stage => simp [ended_put, stage]
  | _ => simp

/-- A wait ends with a signal exactly if the signal is returned to it. -/
theorem Run.ended_iff (run : Run {} os c) :
    (c.calls id).stage = .ended (some s) ↔ .returned (.wait id) s ∈ os := by
  induction run with
  | refl => simp
  | next before h ih => rw [ended_of_step h, ih, List.mem_append, List.mem_singleton, eq_comm]

/-! ## What a delivery answers -/

theorem looked_ne_delivered {taker : Taker} {found : Option Signal} {d : Disposition} :
    looked taker found ≠ .delivered s d := by
  cases found <;> simp [looked]

/-- A delivery is dropped exactly if the slot is occupied, and then nothing happens. -/
theorem dropped_iff {d : Disposition} (h : c.Step (.delivered s d) c') :
    (d = .dropped ↔ c.inbox.slot ≠ none) ∧ (d = .dropped → c' = c) := by
  generalize ho : Label.delivered s d = o at h
  cases h with
  | work h =>
      cases h with
      | relent stage => exact absurd ho.symm looked_ne_delivered
      | _ => simp at ho
  | store slot =>
      simp only [Label.delivered.injEq] at ho
      simp [ho, slot]
  | refuse slot =>
      simp only [Label.delivered.injEq] at ho
      simp [ho, slot]
  | clear => exact absurd ho.symm looked_ne_delivered
  | tryTake => exact absurd ho.symm looked_ne_delivered
  | _ => simp at ho

/-- An inbox answers every delivery. -/
theorem delivers (c : Crowd) (s : Signal) : ∃ d c', c.Step (.delivered s d) c' := by
  cases hslot : c.inbox.slot with
  | none => exact ⟨.accepted, _, .store hslot⟩
  | some t => exact ⟨.dropped, _, .refuse hslot⟩

/-! ## The queue -/

/-- The queue is made of the waits that sleep, and there is a permit only while it is empty. -/
structure Lined (c : Crowd) : Prop where
  nodup : c.inbox.queue.Nodup
  mem_queue : ∀ id, id ∈ c.inbox.queue ↔ (c.calls id).stage.IsQueued
  parked : c.inbox.permit = true → c.inbox.parked = []

theorem Lined.keeps (h : c.Lined) (hperm : c'.inbox.queue.Perm c.inbox.queue)
    (hstage : ∀ x, (c'.calls x).stage.IsQueued ↔ (c.calls x).stage.IsQueued)
    (hparked : c'.inbox.permit = true → c'.inbox.parked = []) : c'.Lined where
  nodup := hperm.nodup_iff.2 h.nodup
  mem_queue x := by rw [hperm.mem_iff, h.mem_queue, hstage]
  parked := hparked

/-- A wait goes on that stays outside the queue, or in it. -/
theorem Lined.turns (h : c.Lined) (hperm : b.queue.Perm c.inbox.queue)
    (hid : stage.IsQueued ↔ (c.calls id).stage.IsQueued)
    (hparked : b.permit = true → b.parked = []) : ((c.withInbox b).put id stage).Lined := by
  refine h.keeps hperm ?_ hparked
  intro x
  rw [stage_put]
  by_cases hx : x = id
  · subst hx
    simpa using hid
  · simp [hx]

theorem Lined.joins (h : c.Lined) (hperm : b.queue.Perm (id :: c.inbox.queue))
    (hid : ¬ (c.calls id).stage.IsQueued) (hstage : stage.IsQueued)
    (hparked : b.permit = true → b.parked = []) : ((c.withInbox b).put id stage).Lined where
  nodup := by
    have hnew : id ∉ c.inbox.queue := by rwa [h.mem_queue]
    exact hperm.nodup_iff.2 (List.nodup_cons.2 ⟨hnew, h.nodup⟩)
  mem_queue x := by
    rw [inbox_put, inbox_withInbox, hperm.mem_iff, List.mem_cons, h.mem_queue, stage_put]
    by_cases hx : x = id
    · simp [hx, hstage]
    · simp [hx]
  parked := hparked

theorem Lined.parts (h : c.Lined) (hperm : b.queue.Perm (c.inbox.queue.erase id))
    (hstage : ¬ stage.IsQueued) (hparked : b.permit = true → b.parked = []) :
    ((c.withInbox b).put id stage).Lined where
  nodup := hperm.nodup_iff.2 (h.nodup.erase id)
  mem_queue x := by
    rw [inbox_put, inbox_withInbox, hperm.mem_iff, h.nodup.mem_erase_iff, h.mem_queue, stage_put]
    by_cases hx : x = id
    · simp [hx, hstage]
    · simp [hx]
  parked := hparked

theorem lined_of_works (h : c.Works o c') (lined : c.Lined) : c'.Lined := by
  -- Who is queued is told by the stages of the calls; a step changes the stage of one of them.
  cases h with
  | notify owed =>
      refine lined.keeps (Inbox.perm_queue_notify c.inbox) ?_ (Inbox.parked_notify lined.parked)
      exact fun x => Iff.rfl
  | find stage slot => exact lined.turns (.refl _) (by simp [Stage.IsQueued, stage]) lined.parked
  | miss stage slot => exact lined.turns (.refl _) (by simp [Stage.IsQueued, stage]) lined.parked
  | spend stage permit => exact lined.turns (.refl _) (by simp [Stage.IsQueued, stage]) (by simp)
  | @sleep id stage permit =>
      have hperm : (c.inbox.parked ++ [id] ++ c.inbox.woken).Perm (id :: c.inbox.queue) :=
        (List.perm_append_singleton id c.inbox.parked).append_right c.inbox.woken
      refine lined.joins hperm ?_ (.inl rfl) ?_
      · simp [Stage.IsQueued, stage]
      · simp [permit]
  | wake stage woken =>
      exact lined.parts (Inbox.perm_queue_wake woken) (by simp [Stage.IsQueued]) lined.parked
  | expire stage unwoken deadline due =>
      exact lined.turns (.refl _) (by simp [Stage.IsQueued, stage]) lined.parked
  | leave stage =>
      exact lined.parts (Inbox.perm_queue_abandon _ _) (by simp [Stage.IsQueued])
        (Inbox.parked_abandon lined.parked)
  | relent stage => exact lined.turns (.refl _) (by simp [Stage.IsQueued, stage]) lined.parked

/-- No step of the crowd muddles the queue. -/
theorem lined_of_step (h : c.Step o c') (lined : c.Lined) : c'.Lined := by
  cases h with
  | work h => exact lined_of_works h lined
  | store slot => exact ⟨lined.nodup, lined.mem_queue, lined.parked⟩
  | refuse slot => exact lined
  | clear => exact ⟨lined.nodup, lined.mem_queue, lined.parked⟩
  | tryTake => exact ⟨lined.nodup, lined.mem_queue, lined.parked⟩
  | @call id deadline stage =>
      refine lined.keeps (.refl _) ?_ lined.parked
      intro x
      rw [stage_call]
      by_cases hx : x = id
      · simp [hx, Stage.IsQueued, stage]
      · simp [hx]
  | forget stage =>
      exact lined.parts (Inbox.perm_queue_abandon _ _) (by simp [Stage.IsQueued])
        (Inbox.parked_abandon lined.parked)
  | pass later => exact ⟨lined.nodup, lined.mem_queue, lined.parked⟩

/-! ## Who looks after a signal -/

/-- While the slot is occupied, somebody has been notified, is about to notify, or is about to
look. -/
def Awake (c : Crowd) : Prop :=
  c.inbox.slot ≠ none →
    c.inbox.Notified ∨ 0 < c.owed ∨ ∃ id, (c.calls id).stage = .looking

/-- A wait goes on that was not about to look, and takes no notification. -/
theorem Awake.turns (h : c.Awake) (hslot : b.slot = c.inbox.slot)
    (hnotified : c.inbox.Notified → b.Notified) (hid : (c.calls id).stage ≠ .looking) :
    ((c.withInbox b).put id stage).Awake := by
  intro hoccupied
  rw [inbox_put, inbox_withInbox, hslot] at hoccupied
  rcases h hoccupied with hbefore | howed | ⟨x, hx⟩
  · exact .inl (hnotified hbefore)
  · exact .inr (.inl howed)
  · refine .inr (.inr ⟨x, ?_⟩)
    have hne : x ≠ id := fun heq => hid (heq ▸ hx)
    simpa [stage_put, hne] using hx

theorem awake_of_looking (id : Nat) (hid : (c.calls id).stage = .looking) : c.Awake :=
  fun _ => .inr (.inr ⟨id, hid⟩)

theorem awake_of_empty (h : c.inbox.slot = none) : c.Awake :=
  fun hoccupied => absurd h hoccupied

theorem awake_of_works (h : c.Works o c') (awake : c.Awake) : c'.Awake := by
  cases h with
  | notify owed => exact fun _ => .inl (Inbox.notified_notify _)
  | find stage slot => exact awake_of_empty rfl
  | miss stage slot => exact awake_of_empty slot
  -- A permit is used up, perhaps the only one, by somebody who looks again.
  | @spend id stage permit => exact awake_of_looking id (by simp)
  -- There was no permit, so somebody else looks after a signal that has come since.
  | sleep stage permit => exact awake.turns rfl id (by simp [stage])
  | @wake id stage woken => exact awake_of_looking id (by simp)
  | expire stage unwoken deadline due => exact awake.turns rfl id (by simp [stage])
  | leave stage =>
      exact awake.turns (Inbox.slot_abandon _ _) Inbox.notified_abandon (by simp [stage])
  | relent stage => exact awake_of_empty rfl

/-- A signal in the slot always has somebody awake, whatever is done. -/
theorem awake_of_step (h : c.Step o c') (awake : c.Awake) : c'.Awake := by
  cases h with
  | work h => exact awake_of_works h awake
  | store slot => exact fun _ => .inr (.inl (Nat.succ_pos _))
  | refuse slot => exact awake
  | clear => exact awake_of_empty rfl
  | tryTake => exact awake_of_empty rfl
  | @call id deadline stage => exact awake_of_looking id (by simp)
  | forget stage =>
      exact awake.turns (Inbox.slot_abandon _ _) Inbox.notified_abandon (by simp [stage])
  | pass later => exact awake

/-- The queue is in order all along. -/
theorem Run.lined (run : Run {} os c) : c.Lined := by
  induction run with
  | refl => exact ⟨List.nodup_nil, fun id => by simp [Inbox.queue, Stage.IsQueued], fun _ => rfl⟩
  | next before h ih => exact lined_of_step h ih

/-- Somebody is awake for the signal all along. -/
theorem Run.awake (run : Run {} os c) : c.Awake := by
  induction run with
  | refl => exact awake_of_empty rfl
  | next before h ih => exact awake_of_step h ih

/-! ## What is left when nothing can go on -/

namespace Settled

variable (settled : c.Settled)

include settled

theorem owed_eq : c.owed = 0 := by
  by_contra howed
  rcases Nat.exists_eq_succ_of_ne_zero howed with ⟨n, hn⟩
  exact settled _ _ (.notify hn)

/-- Where nothing can go on nobody looks into the inbox. -/
theorem not_looking (id : Nat) : (c.calls id).stage ≠ .looking := by
  intro hstage
  cases hslot : c.inbox.slot with
  | none => exact settled _ _ (.miss hstage hslot)
  | some s => exact settled _ _ (.find hstage hslot)

theorem woken_eq (lined : c.Lined) : c.inbox.woken = [] := by
  by_contra hwoken
  rcases List.exists_mem_of_ne_nil _ hwoken with ⟨id, hid⟩
  have hqueued := (lined.mem_queue id).1 (List.mem_append_right _ hid)
  rcases hqueued with hasleep | hleaving
  · exact settled _ _ (.wake hasleep hid)
  · exact settled _ _ (.leave hleaving)

/-- Where nothing can go on a signal in the slot has no one waiting for it. -/
theorem nobody_sleeps (lined : c.Lined) (awake : c.Awake) (hslot : c.inbox.slot ≠ none) :
    c.inbox.parked = [] ∧ ∀ id, (c.calls id).stage ≠ .asleep := by
  have hwoken := settled.woken_eq lined
  -- Of all who could look after the signal only a permit is left, and it needs an empty queue.
  have hparked : c.inbox.parked = [] := by
    rcases awake hslot with (hpermit | hnotified) | howed | ⟨id, hlooking⟩
    · exact lined.parked hpermit
    · exact absurd hwoken hnotified
    · exact absurd settled.owed_eq (Nat.ne_of_gt howed)
    · exact absurd hlooking (settled.not_looking id)
  refine ⟨hparked, ?_⟩
  intro id hasleep
  have hqueue := (lined.mem_queue id).2 (.inl hasleep)
  simp [Inbox.queue, hparked, hwoken] at hqueue

end Settled

/-- Waits that have ended do not go on. -/
theorem settled_of_ended (howed : c.owed = 0)
    (hended : ∀ id, (c.calls id).stage = .absent ∨ ∃ r, (c.calls id).stage = .ended r) :
    c.Settled := by
  intro o c' h
  have hstage : ∀ id, (c.calls id).stage ≠ .looking ∧ (c.calls id).stage ≠ .resting ∧
      (c.calls id).stage ≠ .asleep ∧ (c.calls id).stage ≠ .leaving ∧
      (c.calls id).stage ≠ .relenting := by
    intro id
    rcases hended id with h | ⟨r, h⟩ <;> simp [h]
  cases h with
  | notify owed => simp [howed] at owed
  | find stage slot => exact (hstage _).1 stage
  | miss stage slot => exact (hstage _).1 stage
  | spend stage permit => exact (hstage _).2.1 stage
  | sleep stage permit => exact (hstage _).2.1 stage
  | wake stage woken => exact (hstage _).2.2.1 stage
  | expire stage unwoken deadline due => exact (hstage _).2.2.1 stage
  | leave stage => exact (hstage _).2.2.2.1 stage
  | relent stage => exact (hstage _).2.2.2.2 stage

end Crowd

open Crowd in
/-- However the tasks that use an inbox interleave: what it accepted is what it returned, in the
same order, and then what is in the slot; a wait ends with what was returned to it; a delivery is
dropped exactly while the slot is occupied, and what was dropped is never returned; and once no task
can go on, nobody sleeps while there is a signal. -/
theorem signals_conserved {os : List Label} {c : Crowd} (run : Run {} os c) :
    accepted os = returned os ++ c.inbox.slot.toList ∧
      (∀ id s, (c.calls id).stage = .ended (some s) ↔ .returned (.wait id) s ∈ os) ∧
      (∀ s, ∃ d c', c.Step (.delivered s d) c') ∧
      (∀ s d c', c.Step (.delivered s d) c' →
        (d = .dropped ↔ c.inbox.slot ≠ none) ∧ (d = .dropped → c' = c)) ∧
      (∀ s, .delivered s .accepted ∉ os → ∀ taker, .returned taker s ∉ os) ∧
      (c.Settled → c.inbox.slot ≠ none →
        c.inbox.parked = [] ∧ ∀ id, (c.calls id).stage ≠ .asleep) := by
  refine ⟨run.accepted_eq, ?_, c.delivers, ?_, ?_, ?_⟩
  · exact fun id s => run.ended_iff
  · exact fun s d c' h => dropped_iff h
  · intro s hnot taker hreturned
    have hmem : s ∈ accepted os := by
      rw [run.accepted_eq]
      exact List.mem_append_left _ (mem_returned.2 ⟨taker, hreturned⟩)
    exact hnot (mem_accepted.1 hmem)
  · exact fun settled hslot => settled.nobody_sleeps run.lined run.awake hslot

open Crowd in
/-- A wait is woken for the first of two signals, and a third one finds nobody. -/
theorem signals_conserved_three :
    ∃ os c, Run {} os c ∧ c.Settled ∧
      accepted os = [.decision "approve" "s-1" ⟨0, 0⟩, .decision "refuse" "s-3" ⟨2, 0⟩] ∧
      .delivered (.decision "refuse" "s-2" ⟨1, 0⟩) .dropped ∈ os ∧
      accepted os = returned os ++ [.decision "refuse" "s-3" ⟨2, 0⟩] ∧
      (c.calls 0).stage = .ended (some (.decision "approve" "s-1" ⟨0, 0⟩)) ∧
      c.inbox.parked = [] := by
  have run : ∃ os c, Run {} os c ∧ c.owed = 0 ∧
      c.inbox.slot = some (.decision "refuse" "s-3" ⟨2, 0⟩) ∧
      (∀ id, (c.calls id).stage = .absent ∨ ∃ r, (c.calls id).stage = .ended r) ∧
      accepted os = [.decision "approve" "s-1" ⟨0, 0⟩, .decision "refuse" "s-3" ⟨2, 0⟩] ∧
      .delivered (.decision "refuse" "s-2" ⟨1, 0⟩) .dropped ∈ os ∧
      .returned (.wait 0) (.decision "approve" "s-1" ⟨0, 0⟩) ∈ os := by
    have hstart : Run {} [] {} := .refl
    have hasleep := hstart.next (@Step.call _ 0 none rfl)
      |>.work (@Works.miss _ 0 rfl rfl)
      |>.work (@Works.sleep _ 0 rfl rfl)
    have hanswered := hasleep.next (.store (s := .decision "approve" "s-1" ⟨0, 0⟩) rfl)
      |>.next (.refuse (s := .decision "refuse" "s-2" ⟨1, 0⟩) rfl)
      |>.work (.notify rfl)
      |>.work (@Works.wake _ 0 rfl (.head _))
      |>.work (@Works.find _ 0 _ rfl rfl)
    have hlate := hanswered.next (.store (s := .decision "refuse" "s-3" ⟨2, 0⟩) rfl)
      |>.work (.notify rfl)
    refine ⟨_, _, hlate, rfl, rfl, ?_, rfl, by simp, by simp⟩
    intro id
    cases id with
    | zero => exact .inr ⟨_, rfl⟩
    | succ n => exact .inl rfl
  rcases run with ⟨os, c, hrun, howed, hslot, hended, haccepted, hdropped, hreturned⟩
  have hsettled := settled_of_ended howed hended
  rcases signals_conserved hrun with ⟨hconserved, hanswers, -, -, -, hsleepers⟩
  have hnobody := (hsleepers hsettled (by simp [hslot])).1
  rw [hslot] at hconserved
  exact ⟨os, c, hrun, hsettled, haccepted, hdropped, hconserved, (hanswers 0 _).2 hreturned,
    hnobody⟩

end Casework
