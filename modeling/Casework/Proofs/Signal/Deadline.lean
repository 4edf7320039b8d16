import Casework.Proofs.Signal.Conservation

/-!
# Deadlines — a wait that gives up after some time

The time at which a wait gives up is fixed when it begins.  Afterwards it may be woken any number of
times for nothing: by a permit that was left over, or for a signal that was cleared or that somebody
else took.

* `Crowd.Strides` : runs in which the steps of one wait are counted;
* `Crowd.ahead` : how many steps a wait has ahead of it, at most, once its time is over and unless
  another signal is accepted;
* `Crowd.Strides.add_ahead_le`, `Crowd.exists_stride` : each of its steps brings it nearer to its
  end, nobody else brings it away from there, and it is never held up;
* `Crowd.Strides.late` : it gives up in time only;
* `Crowd.Keeps` : a signal in the slot is there until it is returned;
* `deadline_kept` : all of it for the waits of any run.
-/

namespace Casework
namespace Inbox

variable {b : Inbox}

/-- How many notifications have been given that nobody has acted on. -/
def notifications (b : Inbox) : Nat :=
  b.permit.toNat + b.woken.length

/-- A notification makes one more at most. -/
theorem notifications_notify_le (b : Inbox) : b.notify.notifications ≤ b.notifications + 1 := by
  cases hparked : b.parked with
  | nil => cases hpermit : b.permit <;> simp [notify, notifications, hparked, hpermit, Nat.add_comm]
  | cons first rest => simp [notify, notifications, hparked, Nat.add_assoc]

/-- A wait that is given up passes on what it was notified of, and adds nothing to it. -/
theorem notifications_abandon_le (b : Inbox) (id : Nat) :
    (b.abandon id).notifications ≤ b.notifications := by
  by_cases hwoken : id ∈ b.woken
  · have hpositive : 0 < b.woken.length := List.length_pos_of_mem hwoken
    calc
      (b.abandon id).notifications
          = ({ b with woken := b.woken.erase id } : Inbox).notify.notifications := by
            simp [abandon, hwoken]
      _ ≤ ({ b with woken := b.woken.erase id } : Inbox).notifications + 1 :=
            notifications_notify_le _
      _ = b.permit.toNat + (b.woken.length - 1) + 1 := by
            simp [notifications, List.length_erase_of_mem hwoken]
      _ = b.notifications := by
            rw [Nat.add_assoc, Nat.sub_add_cancel hpositive]
            rfl
  · simp [abandon, hwoken, notifications]

end Inbox

namespace Stage

variable {stage : Stage}

def IsEnded (stage : Stage) : Prop :=
  ∃ result, stage = .ended result

/-- Whether a wait has begun, and has neither returned nor been given up by its task. -/
def IsUnderway : Stage → Prop
  | .looking | .resting | .asleep | .leaving | .relenting => True
  | .absent | .ended _ | .forgotten => False

def IsLate : Stage → Prop
  | .leaving | .relenting | .ended none => True
  | .absent | .looking | .resting | .asleep | .ended (some _) | .forgotten => False

/-- How many steps a wait has ahead of it once its time is over, if nobody notifies it. -/
def distance : Stage → Nat
  | .looking => 5
  | .resting => 4
  | .asleep => 3
  | .leaving => 2
  | .relenting => 1
  | .absent | .ended _ | .forgotten => 0

theorem IsUnderway.not_isEnded (h : stage.IsUnderway) : ¬ stage.IsEnded := by
  rintro ⟨result, rfl⟩
  exact h

/-- Whoever has begun, has not ended and is not forgotten is underway. -/
theorem isUnderway_of (begun : stage ≠ .absent) (unended : ¬ stage.IsEnded)
    (kept : stage ≠ .forgotten) : stage.IsUnderway := by
  cases stage with
  | absent => exact absurd rfl begun
  | ended result => exact absurd ⟨result, rfl⟩ unended
  | forgotten => exact absurd rfl kept
  | _ => trivial

end Stage

namespace Crowd

variable {c c' c₀ : Crowd} {o : Label} {os os' : List Label} {id n : Nat} {stage : Stage}
  {s : Signal}

def startWait (c : Crowd) (id d : Nat) : Crowd :=
  { c with calls := Function.update c.calls id ⟨some (c.time + d), .looking⟩ }

/-- A wait begins by looking, with its deadline ahead of it. -/
@[simp]
theorem calls_startWait (c : Crowd) (id d : Nat) :
    (c.startWait id d).calls id = ⟨some (c.time + d), .looking⟩ := by
  simp [startWait]

/-- A run in which so many steps are those of one wait, and its task does not give it up. -/
inductive Strides (id : Nat) (c₀ : Crowd) : Nat → List Label → Crowd → Prop
  | refl : Strides id c₀ 0 [] c₀
  | own {n : Nat} {os : List Label} {o : Label} {c c' : Crowd} (before : Strides id c₀ n os c)
      (h : c.Works o c') (moves : c'.calls id ≠ c.calls id) : Strides id c₀ (n + 1) (os ++ [o]) c'
  | other {n : Nat} {os : List Label} {o : Label} {c c' : Crowd} (before : Strides id c₀ n os c)
      (h : c.Step o c') (stays : c'.calls id = c.calls id) : Strides id c₀ n (os ++ [o]) c'

/-- The strides of a wait are a run of the crowd. -/
theorem Strides.run (before : Run c₀ os c) (strides : Strides id c n os' c') :
    Run c₀ (os ++ os') c' := by
  induction strides with
  | refl => simpa using before
  | own _ h _ ih => simpa using ih.next (.work h)
  | other _ h _ ih => simpa using ih.next h

/-- Strides can be continued. -/
theorem Strides.trans (first : Strides id c₀ n os c) {m : Nat} (second : Strides id c m os' c') :
    Strides id c₀ (n + m) (os ++ os') c' := by
  induction second with
  | refl => simpa using first
  | own _ h moves ih => simpa [Nat.add_assoc] using ih.own h moves
  | other _ h stays ih => simpa using ih.other h stays

/-! ## One step of a wait -/

theorem put_ne (h : (c.calls id).stage ≠ stage) : (c.put id stage).calls id ≠ c.calls id := by
  intro heq
  rw [calls_put_self] at heq
  exact h (congrArg Call.stage heq).symm

/-- Only the wait that goes on stands elsewhere afterwards. -/
theorem eq_of_put {x : Nat} (moves : (c.put x stage).calls id ≠ c.calls id) : x = id := by
  by_contra hne
  exact moves (by simp [put, Function.update_of_ne (Ne.symm hne)])

inductive Stride (id : Nat) (c : Crowd) (o : Label) (c' : Crowd) : Prop
  | find {s : Signal} (stage : (c.calls id).stage = .looking) (slot : c.inbox.slot = some s)
      (after : (c'.calls id).stage = .ended (some s))
      (notifications : c'.inbox.notifications = c.inbox.notifications)
  | miss (stage : (c.calls id).stage = .looking) (after : (c'.calls id).stage = .resting)
      (notifications : c'.inbox.notifications = c.inbox.notifications)
  | spend (stage : (c.calls id).stage = .resting) (after : (c'.calls id).stage = .looking)
      (notifications : c'.inbox.notifications + 1 = c.inbox.notifications)
  | sleep (stage : (c.calls id).stage = .resting) (after : (c'.calls id).stage = .asleep)
      (notifications : c'.inbox.notifications = c.inbox.notifications)
  | wake (stage : (c.calls id).stage = .asleep) (after : (c'.calls id).stage = .looking)
      (notifications : c'.inbox.notifications + 1 = c.inbox.notifications)
  | expire {t : Nat} (stage : (c.calls id).stage = .asleep)
      (after : (c'.calls id).stage = .leaving) (deadline : (c.calls id).deadline = some t)
      (due : t ≤ c.time) (notifications : c'.inbox.notifications = c.inbox.notifications)
  | leave (stage : (c.calls id).stage = .leaving) (after : (c'.calls id).stage = .relenting)
      (notifications : c'.inbox.notifications ≤ c.inbox.notifications)
  | relent (stage : (c.calls id).stage = .relenting)
      (after : (c'.calls id).stage = .ended c.inbox.slot)
      (notifications : c'.inbox.notifications = c.inbox.notifications)

theorem stride_of_works (h : c.Works o c') (moves : c'.calls id ≠ c.calls id) :
    Stride id c o c' := by
  -- The call that moved is the one whose stage was put.
  cases h with
  | notify owed => exact absurd rfl moves
  | find stage slot =>
      cases eq_of_put moves
      exact .find stage slot (by simp) rfl
  | miss stage slot =>
      cases eq_of_put moves
      exact .miss stage (by simp) rfl
  | spend stage permit =>
      cases eq_of_put moves
      exact .spend stage (by simp) (by simp [Inbox.notifications, permit, Nat.add_comm])
  | sleep stage permit =>
      cases eq_of_put moves
      exact .sleep stage (by simp) rfl
  | wake stage woken =>
      cases eq_of_put moves
      refine .wake stage (by simp) ?_
      have hpositive := List.length_pos_of_mem woken
      simp only [Inbox.notifications, inbox_put, inbox_withInbox, List.length_erase_of_mem woken]
      rw [Nat.add_assoc, Nat.sub_add_cancel hpositive]
  | expire stage unwoken deadline due =>
      cases eq_of_put moves
      exact .expire stage (by simp) deadline due rfl
  | leave stage =>
      cases eq_of_put moves
      exact .leave stage (by simp) (Inbox.notifications_abandon_le _ _)
  | relent stage =>
      cases eq_of_put moves
      exact .relent stage (by simp) rfl

theorem owed_of_works (h : c.Works o c') (moves : c'.calls id ≠ c.calls id) : c'.owed = c.owed := by
  cases h with
  | notify owed => exact absurd rfl moves
  | _ => rfl

/-- Nothing that a task does takes time. -/
theorem time_of_works (h : c.Works o c') : c'.time = c.time := by
  cases h <;> rfl

theorem time_le_of_step (h : c.Step o c') : c.time ≤ c'.time := by
  cases h with
  | work h => exact Nat.le_of_eq (time_of_works h).symm
  | pass later => exact later
  | _ => exact Nat.le_refl _

theorem deadline_of_works (h : c.Works o c') (id : Nat) :
    (c'.calls id).deadline = (c.calls id).deadline := by
  have hput : ∀ (b : Inbox) (x : Nat) (stage : Stage),
      (((c.withInbox b).put x stage).calls id).deadline = (c.calls id).deadline := by
    intro b x stage
    by_cases hx : id = x
    · subst hx
      simp
    · simp [put, hx]
  cases h with
  | notify owed => rfl
  | miss stage slot => exact hput c.inbox _ _
  | expire stage unwoken deadline due => exact hput c.inbox _ _
  | _ => exact hput _ _ _

/-- A wait that goes on is underway, and is so still unless it returns. -/
theorem Stride.underway (h : Stride id c o c') :
    (c.calls id).stage.IsUnderway ∧
      ((c'.calls id).stage.IsUnderway ∨ (c'.calls id).stage.IsEnded) := by
  cases h with
  | find stage slot after notifications => simp [stage, after, Stage.IsUnderway, Stage.IsEnded]
  | relent stage after notifications => simp [stage, after, Stage.IsUnderway, Stage.IsEnded]
  | _ => simp [Stage.IsUnderway, *]

/-- What a task does whose wait is underway, or else somebody else: the wait is underway still, has
returned, or has been given up. -/
theorem step_cases (h : c.Step o c') (begun : (c.calls id).stage ≠ .absent) :
    c'.calls id = c.calls id ∨ (c.Works o c' ∧ c'.calls id ≠ c.calls id) ∨
      (c'.calls id).stage = .forgotten := by
  by_cases hsame : c'.calls id = c.calls id
  · exact .inl hsame
  · cases h with
    | work h => exact .inr (.inl ⟨h, hsame⟩)
    | @call x deadline stage =>
        have hx : x ≠ id := fun heq => begun (heq ▸ stage)
        exact absurd (Function.update_of_ne hx.symm _ _) hsame
    | @forget x stage =>
        cases eq_of_put (c := c.withInbox _) hsame
        exact .inr (.inr (by simp))
    | _ => exact absurd rfl hsame

/-- A wait that was given up does not go on. -/
theorem forgotten_of_step (h : c.Step o c') (hid : (c.calls id).stage = .forgotten) :
    (c'.calls id).stage = .forgotten := by
  have hbegun : (c.calls id).stage ≠ .absent := by simp [hid]
  rcases step_cases h hbegun with hsame | ⟨hworks, hmoves⟩ | hforgotten
  · rw [hsame, hid]
  · have hunderway := (stride_of_works hworks hmoves).underway.1
    rw [hid] at hunderway
    exact hunderway.elim
  · exact hforgotten

/-- Unless its task gives it up, any run that a wait is in can be counted. -/
theorem exists_strides (run : Run c₀ os c) (begun : (c₀.calls id).stage ≠ .absent)
    (kept : (c.calls id).stage ≠ .forgotten) :
    (∃ n, Strides id c₀ n os c) ∧ (c.calls id).stage ≠ .absent := by
  induction run with
  | refl => exact ⟨⟨0, .refl⟩, begun⟩
  | @next os o c c' before h ih =>
      -- A wait that is given up stays so, hence this one was not given up earlier.
      have hkept : (c.calls id).stage ≠ .forgotten := fun hid => kept (forgotten_of_step h hid)
      rcases ih hkept with ⟨⟨n, strides⟩, hbegun⟩
      rcases step_cases h hbegun with hsame | ⟨hworks, hmoves⟩ | hforgotten
      · exact ⟨⟨n, strides.other h hsame⟩, hsame ▸ hbegun⟩
      · refine ⟨⟨n + 1, strides.own hworks hmoves⟩, ?_⟩
        intro habsent
        rcases (stride_of_works hworks hmoves).underway.2 with hunderway | ⟨result, hended⟩
        · rw [habsent] at hunderway
          exact hunderway
        · rw [habsent] at hended
          cases hended
      · exact absurd hforgotten kept

/-! ## How far a wait is from its end -/

/-- How many steps a wait has ahead of it, at most, once its time is over and unless another signal
is accepted.  A notification makes it look once more. -/
def ahead (c : Crowd) (id : Nat) : Nat :=
  3 * (c.owed + c.inbox.notifications) + (c.calls id).stage.distance

theorem Stride.ahead_lt (h : Stride id c o c') (howed : c'.owed = c.owed) :
    c'.ahead id < c.ahead id := by
  unfold ahead
  rw [howed]
  -- Where the stage goes back, at a permit and at a notification, one of them is used up.
  cases h <;> simp only [Stage.distance, *] <;> omega

/-- Nobody adds to the notifications but a delivery that is accepted. -/
theorem notifications_le_of_step (h : c.Step o c') (quiet : accepted [o] = []) :
    c'.owed + c'.inbox.notifications ≤ c.owed + c.inbox.notifications := by
  cases h with
  | work h =>
      cases h with
      | @notify k owed =>
          calc
            k + c.inbox.notify.notifications ≤ k + (c.inbox.notifications + 1) :=
              Nat.add_le_add_left (Inbox.notifications_notify_le _) k
            _ = c.owed + c.inbox.notifications := by
              rw [owed, Nat.add_right_comm, Nat.add_assoc]
      | spend stage permit =>
          exact Nat.add_le_add_left (Nat.add_le_add_right (Nat.zero_le c.inbox.permit.toNat) _) _
      | wake stage woken =>
          exact Nat.add_le_add_left (Nat.add_le_add_left List.length_erase_le _) _
      | leave stage => exact Nat.add_le_add_left (Inbox.notifications_abandon_le _ _) _
      | _ => exact Nat.le_refl _
  | store slot => simp [accepted] at quiet
  | forget stage => exact Nat.add_le_add_left (Inbox.notifications_abandon_le _ _) _
  | _ => exact Nat.le_refl _

/-- Each of its steps brings a wait nearer to its end, and nobody else brings it away from there. -/
theorem Strides.add_ahead_le (h : Strides id c n os c') (quiet : accepted os = []) :
    n + c'.ahead id ≤ c.ahead id := by
  -- By the last label: its own steps lessen what is ahead, those of others leave it or lessen it.
  induction h with
  | refl => exact Nat.le_of_eq (Nat.zero_add _)
  | @own n os o c₁ c₂ before h moves ih =>
      rw [accepted_append, List.append_eq_nil_iff] at quiet
      have hcloser := (stride_of_works h moves).ahead_lt (owed_of_works h moves)
      have hbefore := ih quiet.1
      calc
        n + 1 + c₂.ahead id = n + (c₂.ahead id + 1) := by rw [Nat.add_right_comm, Nat.add_assoc]
        _ ≤ n + c₁.ahead id := Nat.add_le_add_left hcloser n
        _ ≤ c.ahead id := hbefore
  | @other n os o c₁ c₂ before h stays ih =>
      rw [accepted_append, List.append_eq_nil_iff] at quiet
      have hfewer := notifications_le_of_step h quiet.2
      have hbefore := ih quiet.1
      calc
        n + c₂.ahead id ≤ n + c₁.ahead id := by
          unfold ahead
          rw [stays]
          exact Nat.add_le_add_left (Nat.add_le_add_right (Nat.mul_le_mul_left 3 hfewer) _) n
        _ ≤ c.ahead id := hbefore

/-- A wait whose time is over is never held up. -/
theorem exists_stride {t : Nat} (hid : (c.calls id).stage.IsUnderway)
    (deadline : (c.calls id).deadline = some t) (due : t ≤ c.time) :
    ∃ o c', c.Works o c' ∧ c'.calls id ≠ c.calls id := by
  cases hstage : (c.calls id).stage with
  | looking =>
      cases hslot : c.inbox.slot with
      | none => exact ⟨_, _, .miss hstage hslot, put_ne (by simp [hstage])⟩
      | some s => exact ⟨_, _, .find hstage hslot, put_ne (c := c.withInbox _) (by simp [hstage])⟩
  | resting =>
      cases hpermit : c.inbox.permit with
      | true => exact ⟨_, _, .spend hstage hpermit, put_ne (c := c.withInbox _) (by simp [hstage])⟩
      | false => exact ⟨_, _, .sleep hstage hpermit, put_ne (c := c.withInbox _) (by simp [hstage])⟩
  | asleep =>
      by_cases hwoken : id ∈ c.inbox.woken
      · exact ⟨_, _, .wake hstage hwoken, put_ne (c := c.withInbox _) (by simp [hstage])⟩
      · exact ⟨_, _, .expire hstage hwoken deadline due, put_ne (by simp [hstage])⟩
  | leaving => exact ⟨_, _, .leave hstage, put_ne (c := c.withInbox _) (by simp [hstage])⟩
  | relenting => exact ⟨_, _, .relent hstage, put_ne (c := c.withInbox _) (by simp [hstage])⟩
  | _ =>
      rw [hstage] at hid
      exact hid.elim

/-! ## When a wait returns nothing -/

/-- The deadline of a wait does not move. -/
theorem Strides.deadline (h : Strides id c n os c') :
    (c'.calls id).deadline = (c.calls id).deadline := by
  induction h with
  | refl => rfl
  | own _ h _ ih => rw [deadline_of_works h, ih]
  | other _ _ stays ih => rw [stays, ih]

/-- A wait that is underway ends or goes on. -/
theorem Strides.underway (h : Strides id c n os c') (hid : (c.calls id).stage.IsUnderway) :
    (c'.calls id).stage.IsUnderway ∨ (c'.calls id).stage.IsEnded := by
  induction h with
  | refl => exact .inl hid
  | own _ h moves _ => exact (stride_of_works h moves).underway.2
  | other _ _ stays ih => rwa [stays]

theorem Strides.time_le (h : Strides id c n os c') : c.time ≤ c'.time := by
  induction h with
  | refl => exact Nat.le_refl _
  | own _ h _ ih => exact Nat.le_trans ih (Nat.le_of_eq (time_of_works h).symm)
  | other _ h _ ih => exact Nat.le_trans ih (time_le_of_step h)

/-- A wait whose time is over has ended or can go on. -/
theorem Strides.isEnded_or_stride {d : Nat} (h : Strides id (c.startWait id d) n os c')
    (due : c.time + d ≤ c'.time) :
    (c'.calls id).stage.IsEnded ∨ ∃ o next, c'.Works o next ∧ next.calls id ≠ c'.calls id := by
  have hdeadline : (c'.calls id).deadline = some (c.time + d) := by
    rw [h.deadline]
    simp
  rcases h.underway (by simp [Stage.IsUnderway]) with hunderway | hended
  · exact .inr (exists_stride hunderway hdeadline due)
  · exact .inl hended

/-- A wait gives up in time only. -/
theorem Strides.late {d : Nat} (h : Strides id (c.startWait id d) n os c')
    (hid : (c'.calls id).stage.IsLate) : c.time + d ≤ c'.time := by
  induction h with
  | refl => simp [Stage.IsLate] at hid
  | @own n os o c₁ c₂ before h moves ih =>
      rw [time_of_works h]
      cases stride_of_works h moves with
      | @expire t stage after deadline due notifications =>
          -- Here the wait reads the clock, and the time is the one it was given at the start.
          have hdeadline := before.deadline
          simp only [deadline, calls_startWait, Option.some.injEq] at hdeadline
          exact hdeadline ▸ due
      | leave stage after notifications => exact ih (by simp [stage, Stage.IsLate])
      | relent stage after notifications => exact ih (by simp [stage, Stage.IsLate])
      | _ => simp [Stage.IsLate, *] at hid
  | other _ h stays ih =>
      rw [stays] at hid
      exact Nat.le_trans (ih hid) (time_le_of_step h)

/-- A wait that returns nothing has found the slot empty in this very step. -/
theorem Stride.slot_of_nothing (h : Stride id c o c') (hid : (c'.calls id).stage = .ended none) :
    (c.calls id).stage.IsLate ∧ c.inbox.slot = none := by
  cases h with
  | relent stage after notifications =>
      rw [after] at hid
      exact ⟨by simp [stage, Stage.IsLate], Stage.ended.inj hid⟩
  | _ => simp [*] at hid

/-! ## What becomes of a signal -/

/-- A signal stays in the slot until it is returned. -/
theorem slot_of_step (h : c.Step o c') (hslot : c.inbox.slot = some s) :
    c'.inbox.slot = some s ∨ ∃ taker, o = .returned taker s := by
  have hlined := accepted_append_slot h
  rw [hslot] at hlined
  -- What was accepted is what was returned and what is in the slot, in this order.
  cases hreturned : returned [o] with
  | nil =>
      rw [hreturned] at hlined
      left
      cases hslot' : c'.inbox.slot with
      | none => simp [hslot'] at hlined
      | some t =>
          simp only [hslot', Option.toList_some, List.cons_append, List.nil_append,
            List.cons.injEq] at hlined
          rw [hlined.1]
  | cons t rest =>
      rw [hreturned] at hlined
      right
      have hmem : s ∈ returned [o] := by
        simp only [Option.toList_some, List.cons_append, List.cons.injEq] at hlined
        rw [hreturned, hlined.1]
        exact List.mem_cons_self
      rcases mem_returned.1 hmem with ⟨taker, htaker⟩
      exact ⟨taker, (List.mem_singleton.1 htaker).symm⟩

/-- A delivery that is accepted leaves its signal in the slot, and every wait where it stands. -/
theorem eq_of_accepted (h : c.Step (.delivered s .accepted) c') :
    c' = { c with inbox := { c.inbox with slot := some s }, owed := c.owed + 1 } := by
  generalize ho : Label.delivered s .accepted = o at h
  cases h with
  | work h =>
      cases h with
      | relent stage => exact absurd ho.symm looked_ne_delivered
      | _ => simp at ho
  | @store t slot =>
      cases ho
      rfl
  | clear => exact absurd ho.symm looked_ne_delivered
  | tryTake => exact absurd ho.symm looked_ne_delivered
  | _ => simp at ho

/-- A wait has returned a signal, or is underway while the signal is in the slot. -/
def Keeps (c : Crowd) (id : Nat) (s : Signal) : Prop :=
  (c.calls id).stage = .ended (some s) ∨
    ((c.calls id).stage.IsUnderway ∧ c.inbox.slot = some s)

/-- Whoever looks into the slot empties it, so a wait that leaves a signal there goes on. -/
theorem underway_of_works (h : c.Works o c') (moves : c'.calls id ≠ c.calls id)
    (hslot : c'.inbox.slot = some s) : (c'.calls id).stage.IsUnderway := by
  cases h with
  | find stage slot => simp [Inbox.take] at hslot
  | relent stage => simp [Inbox.take] at hslot
  | notify owed => exact absurd rfl moves
  | _ =>
      cases eq_of_put moves
      simp [Stage.IsUnderway]

theorem Keeps.step (keeps : c.Keeps id s) (h : c.Step o c')
    (goes : c'.calls id = c.calls id ∨ (c.Works o c' ∧ c'.calls id ≠ c.calls id))
    (alone : ∀ taker, o = .returned taker s → taker = .wait id) : c'.Keeps id s := by
  rcases keeps with hended | ⟨hunderway, hslot⟩
  · exact .inl ((ended_of_step h id).2 (.inl hended))
  · rcases slot_of_step h hslot with hslot' | ⟨taker, ho⟩
    · rcases goes with stays | ⟨hworks, hmoves⟩
      · exact .inr ⟨stays ▸ hunderway, hslot'⟩
      · exact .inr ⟨underway_of_works hworks hmoves hslot', hslot'⟩
    · cases alone taker ho
      exact .inl ((ended_of_step h id).2 (.inr ho))

/-- A signal that nobody else takes is kept for a wait that is underway. -/
theorem Strides.keeps (h : Strides id c n os c') (keeps : c.Keeps id s)
    (alone : ∀ taker, .returned taker s ∈ os → taker = .wait id) : c'.Keeps id s := by
  induction h with
  | refl => exact keeps
  | own before h moves ih =>
      have hbefore := ih fun taker hmem => alone taker (List.mem_append_left _ hmem)
      exact hbefore.step (.work h) (.inr ⟨h, moves⟩) fun taker ho => alone taker (by simp [ho])
  | other before h stays ih =>
      have hbefore := ih fun taker hmem => alone taker (List.mem_append_left _ hmem)
      exact hbefore.step h (.inl stays) fun taker ho => alone taker (by simp [ho])

/-- Once no task can go on, no wait is underway while there is a signal. -/
theorem Settled.not_underway (settled : c.Settled) (lined : c.Lined) (awake : c.Awake)
    (hslot : c.inbox.slot ≠ none) : ¬ (c.calls id).stage.IsUnderway := by
  intro hid
  cases hstage : (c.calls id).stage with
  | looking => exact settled.not_looking id hstage
  | resting =>
      cases hpermit : c.inbox.permit with
      | true => exact settled _ _ (.spend hstage hpermit)
      | false => exact settled _ _ (.sleep hstage hpermit)
  | asleep => exact (settled.nobody_sleeps lined awake hslot).2 id hstage
  | leaving => exact settled _ _ (.leave hstage)
  | relenting => exact settled _ _ (.relent hstage)
  | _ =>
      rw [hstage] at hid
      exact hid

/-- A wait that is underway returns the signal in the slot, unless somebody else takes it. -/
theorem returns_signal (run : Run {} os c) (hslot : c.inbox.slot = some s)
    (hid : (c.calls id).stage.IsUnderway) (later : Run c os' c')
    (kept : (c'.calls id).stage ≠ .forgotten)
    (alone : ∀ taker, .returned taker s ∈ os' → taker = .wait id) :
    ((c'.calls id).stage.IsEnded → (c'.calls id).stage = .ended (some s)) ∧
      (c'.Settled → (c'.calls id).stage = .ended (some s)) := by
  have hbegun : (c.calls id).stage ≠ .absent := by
    intro habsent
    rw [habsent] at hid
    exact hid
  rcases exists_strides later hbegun kept with ⟨⟨n, strides⟩, -⟩
  have hrun := strides.run run
  rcases strides.keeps (.inr ⟨hid, hslot⟩) alone with hended | ⟨hstill, hslot'⟩
  · exact ⟨fun _ => hended, fun _ => hended⟩
  · constructor
    · intro hended
      exact absurd hended hstill.not_isEnded
    · intro settled
      exact absurd hstill (settled.not_underway hrun.lined hrun.awake (by simp [hslot']))

end Crowd

open Crowd in
/-- However a wait with a deadline interleaves with deliveries, clears, other waits and time:

* once its time is over it is never held up, and ends within a bounded number of steps of its own
  unless another signal is accepted meanwhile; so it has ended when no task can go on;
* it returns nothing only when its time is over, in a step in which the slot is empty;
* a signal that is accepted while it is underway, or is in the slot already, is the only one it can
  return unless somebody else takes it, and it has returned it when no task can go on. -/
theorem deadline_kept {before after : List Label} {c c' : Crowd} {id d : Nat}
    (run : Run {} before c) (fresh : (c.calls id).stage = .absent)
    (waiting : Run (c.startWait id d) after c') (kept : (c'.calls id).stage ≠ .forgotten) :
    (c.time + d ≤ c'.time →
      (∀ n later c'', Strides id c' n later c'' → accepted later = [] →
        n ≤ c'.ahead id ∧ ((c''.calls id).stage.IsEnded ∨
          ∃ o next, c''.Works o next ∧ next.calls id ≠ c''.calls id)) ∧
      (c'.Settled → (c'.calls id).stage.IsEnded)) ∧
    (∀ o next, c'.Step o next → (next.calls id).stage = .ended none →
      (c'.calls id).stage ≠ .ended none → c.time + d ≤ c'.time ∧ c'.inbox.slot = none) ∧
    (∀ s next, c'.Step (.delivered s .accepted) next ∨ (next = c' ∧ c'.inbox.slot = some s) →
      ¬ (c'.calls id).stage.IsEnded →
      ∀ later c'', Run next later c'' → (c''.calls id).stage ≠ .forgotten →
        (∀ taker, .returned taker s ∈ later → taker = .wait id) →
        ((c''.calls id).stage.IsEnded → (c''.calls id).stage = .ended (some s)) ∧
        (c''.Settled → (c''.calls id).stage = .ended (some s))) := by
  rcases exists_strides waiting (by simp) kept with ⟨⟨n, strides⟩, hbegun⟩
  have hrun : Run {} (before ++ [.quiet] ++ after) c' :=
    strides.run (run.next (.call (some (c.time + d)) fresh))
  -- The strides of the wait are bounded once it is late, and show at which of them it ends.
  refine ⟨?_, ?_, ?_⟩
  · intro due
    constructor
    · intro m later c'' hlater quiet
      have hdue : c.time + d ≤ c''.time := Nat.le_trans due hlater.time_le
      exact ⟨Nat.le_of_add_right_le (hlater.add_ahead_le quiet),
        (strides.trans hlater).isEnded_or_stride hdue⟩
    · intro settled
      rcases strides.isEnded_or_stride due with hended | ⟨o, next, h, -⟩
      · exact hended
      · exact absurd h (settled o next)
  · intro o next h hnothing hbefore
    rcases step_cases h hbegun with hsame | ⟨hworks, hmoves⟩ | hforgotten
    · exact absurd (hsame ▸ hnothing) hbefore
    · have hfound := (stride_of_works hworks hmoves).slot_of_nothing hnothing
      exact ⟨strides.late hfound.1, hfound.2⟩
    · rw [hforgotten] at hnothing
      cases hnothing
  · intro s next hnext hunended later c'' hlater hkept alone
    have hunderway : (c'.calls id).stage.IsUnderway := Stage.isUnderway_of hbegun hunended kept
    rcases hnext with haccepted | ⟨rfl, hslot⟩
    · cases eq_of_accepted haccepted
      exact returns_signal (hrun.next haccepted) rfl hunderway hlater hkept alone
    · exact returns_signal hrun hslot hunderway hlater hkept alone

open Crowd in
/-- A wait for five seconds is woken for nothing after two, and returns what comes in the fourth. -/
theorem deadline_kept_woken_twice :
    ∃ after c' next later c'', Run (startWait {} 0 5) after c' ∧
      .returned .clear (.decision "refuse" "s-1" ⟨2, 0⟩) ∈ after ∧ c'.time = 4 ∧
      c'.Step (.delivered (.decision "approve" "s-2" ⟨4, 0⟩) .accepted) next ∧
      Run next later c'' ∧ c''.time = 5 ∧
      (c''.calls 0).stage = .ended (some (.decision "approve" "s-2" ⟨4, 0⟩)) := by
  have hstart : Run (startWait {} 0 5) [] (startWait {} 0 5) := .refl
  have hcleared := hstart.work (@Works.miss _ 0 rfl rfl)
    |>.work (@Works.sleep _ 0 rfl rfl)
    |>.next (.pass (t := 2) (by decide))
    |>.next (.store (s := .decision "refuse" "s-1" ⟨2, 0⟩) rfl)
    |>.next .clear
  have hasleep := hcleared.work (.notify rfl)
    |>.work (@Works.wake _ 0 rfl (.head _))
    |>.work (@Works.miss _ 0 rfl rfl)
    |>.work (@Works.sleep _ 0 rfl rfl)
    |>.next (.pass (t := 4) (by decide))
  have hhere : ∀ {os : List Label} {c : Crowd}, Run (startWait {} 0 5) os c → Run c [] c :=
    fun _ => .refl
  have hlater := hhere (hasleep.next (.store (s := .decision "approve" "s-2" ⟨4, 0⟩) rfl))
    |>.work (.notify rfl)
    |>.next (.pass (t := 5) (by decide))
    |>.work (@Works.wake _ 0 rfl (.head _))
    |>.work (@Works.find _ 0 _ rfl rfl)
  rcases deadline_kept (d := 5) .refl rfl hasleep (by decide) with ⟨-, -, hreturns⟩
  have hanswer := hreturns (.decision "approve" "s-2" ⟨4, 0⟩) _ (.inl (.store rfl))
    (Stage.IsUnderway.not_isEnded trivial) _ _ hlater (by decide) (by simp)
  exact ⟨_, _, _, _, _, hasleep, by simp [looked, Inbox.clear, Inbox.take], rfl, .store rfl, hlater,
    rfl, hanswer.1 ⟨_, rfl⟩⟩

end Casework
