import Casework.Signal.Inbox
import Casework.Step.Context
import Mathlib.Logic.Relation

/-!
# Waiting — one waiter and its inbox

The inbox of an execution has at most one waiter, which is asleep only while the slot is empty.

* `Inbox.Idle`, `Inbox.Waiter.Sound` : the inbox while nobody waits, and while somebody does;
* `Inbox.Waiter.sound_deliver` : a delivery keeps it so;
* `Inbox.Waiter.Progress`, `Inbox.Waiter.progress` : all that an atomic step of a wait can be;
* `Inbox.Waiter.takes`, `Inbox.Waiter.gives_up` : a wait ends by itself once there is a signal, and
  when it is due.
-/

namespace Casework
namespace Inbox

variable {b b' : Inbox} {s : Signal}

structure Idle (b : Inbox) : Prop where
  parked : b.parked = []
  woken : b.woken = []

theorem idle_deliver (h : b.Idle) (s : Signal) : (b.deliver s).1.Idle := by
  unfold deliver
  cases hslot : b.slot with
  | some t => exact h
  | none =>
      simp only [notify, h.parked]
      exact ⟨rfl, h.woken⟩

/-- Clearing the inbox wakes nobody. -/
theorem idle_clear (h : b.Idle) : b.clear.1.Idle :=
  ⟨h.parked, h.woken⟩

/-- What a delivery leaves in the slot is what was there, or else the signal. -/
theorem slot_deliver (b : Inbox) (s : Signal) :
    (b.deliver s).1.slot = some (b.slot.getD s) ∧
      ((b.deliver s).2 = .accepted ↔ b.slot = none) := by
  cases hslot : b.slot with
  | none => simp [deliver, hslot]
  | some t => simp [deliver, hslot]

namespace Waiter

variable {w w' : Waiter} {time : Nat}

/-- The inbox while this waiter is the only one: asleep it has either not been woken, and then the
slot is empty, or it has, and then there is something in it. -/
def Sound (w : Waiter) (b : Inbox) : Prop :=
  match w.state with
  | .checking => b.Idle
  | .parked =>
      (b.parked = [w.id] ∧ b.woken = [] ∧ b.slot = none) ∨
        (b.parked = [] ∧ b.woken = [w.id] ∧ b.slot ≠ none)
  | .ended _ => False

/-- A delivery fits to what the wait has noticed. -/
theorem sound_deliver (h : w.Sound b) (s : Signal) : w.Sound (b.deliver s).1 := by
  cases hstate : w.state with
  | checking =>
      have hidle : b.Idle := by simpa [Sound, hstate] using h
      simpa [Sound, hstate] using idle_deliver hidle s
  | ended result => simp [Sound, hstate] at h
  | parked =>
      simp only [Sound, hstate] at h ⊢
      rcases h with ⟨hparked, hwoken, hslot⟩ | ⟨hparked, hwoken, hslot⟩
      · -- The delivery wakes the waiter.
        right
        simp [deliver, notify, hslot, hparked, hwoken]
      · right
        rcases Option.ne_none_iff_exists'.1 hslot with ⟨t, ht⟩
        simpa [deliver, ht] using ⟨hparked, hwoken⟩

theorem isDue_iff : w.isDue time = true ↔ ∃ t, w.deadline = some t ∧ t ≤ time := by
  cases hdeadline : w.deadline with
  | none => simp [isDue, hdeadline]
  | some t => simp [isDue, hdeadline]

inductive Progress (w : Waiter) (b : Inbox) (time : Nat) (b' : Inbox) (w' : Waiter) : Prop
  | waiting (sound : w'.Sound b') (slot : b'.slot = b.slot) (deadline : w'.deadline = w.deadline)
  | served {s : Signal} (slot : b.slot = some s) (state : w'.state = .ended (some s))
      (idle : b'.Idle)
  | expired (slot : b.slot = none) (due : w.isDue time = true) (state : w'.state = .ended none)
      (idle : b'.Idle)

/-- A look into the slot. -/
theorem progress_of_checking (hstate : w.state = .checking) (idle : b.Idle)
    (h : w.advance b time = some (b', w')) : Progress w b time b' w' := by
  cases hslot : b.slot with
  | some s =>
      simp only [advance, hstate, take, hslot, Option.some.injEq, Prod.mk.injEq] at h
      rcases h with ⟨rfl, rfl⟩
      exact .served hslot rfl ⟨idle.parked, idle.woken⟩
  | none =>
      cases hpermit : b.permit with
      | true =>
          simp only [advance, hstate, take, hslot, hpermit, if_true, Option.some.injEq,
            Prod.mk.injEq] at h
          rcases h with ⟨rfl, rfl⟩
          have hidle : ({ b with slot := none, permit := false } : Inbox).Idle :=
            ⟨idle.parked, idle.woken⟩
          exact .waiting (by simpa [Sound, hstate] using hidle) hslot.symm rfl
      | false =>
          simp only [advance, hstate, take, hslot, hpermit, Bool.false_eq_true, if_false,
            Option.some.injEq, Prod.mk.injEq] at h
          rcases h with ⟨rfl, rfl⟩
          refine .waiting ?_ hslot.symm rfl
          left
          simp [idle.parked, idle.woken]

/-- A step of a waiter that was asleep. -/
theorem progress_of_parked (hstate : w.state = .parked) (sound : w.Sound b)
    (h : w.advance b time = some (b', w')) : Progress w b time b' w' := by
  have hcases := sound
  simp only [Sound, hstate] at hcases
  rcases hcases with ⟨hparked, hwoken, hslot⟩ | ⟨hparked, hwoken, hslot⟩
  · cases hdue : w.isDue time with
    | false => simp [advance, hstate, hwoken, hdue] at h
    | true =>
        simp only [advance, hstate, hwoken, hdue, take, List.not_mem_nil, if_false, if_true,
          Option.some.injEq, Prod.mk.injEq] at h
        rcases h with ⟨rfl, rfl⟩
        exact .expired hslot hdue (by simp [hslot]) ⟨by simp [hparked], rfl⟩
  · simp only [advance, hstate, hwoken, List.mem_singleton, if_true, Option.some.injEq,
      Prod.mk.injEq] at h
    rcases h with ⟨rfl, rfl⟩
    refine .waiting ?_ rfl rfl
    exact ⟨hparked, by simp⟩

/-- A wait goes on with the same slot, ends with what is in it, or ends with nothing when it is
due. -/
theorem progress (sound : w.Sound b) (h : w.advance b time = some (b', w')) :
    Progress w b time b' w' := by
  cases hstate : w.state with
  | checking => exact progress_of_checking hstate (by simpa [Sound, hstate] using sound) h
  | parked => exact progress_of_parked hstate sound h
  | ended result => simp [Sound, hstate] at sound

/-! ## How a wait ends by itself -/

abbrev Steps (time : Nat) : Inbox × Waiter → Inbox × Waiter → Prop :=
  Relation.ReflTransGen fun p q => p.2.advance p.1 time = some q

/-- With a signal in the slot a wait ends with it. -/
theorem takes (sound : w.Sound b) (hslot : b.slot = some s) (time : Nat) :
    ∃ b' w', Steps time (b, w) (b', w') ∧ w'.state = .ended (some s) := by
  have hlook : ∀ b₁ : Inbox, ∀ w₁ : Waiter, b₁.slot = some s → w₁.state = .checking →
      ∃ b' w', Steps time (b₁, w₁) (b', w') ∧ w'.state = .ended (some s) := by
    intro b₁ w₁ hslot₁ hstate₁
    refine ⟨{ b₁ with slot := none }, { w₁ with state := .ended (some s) }, .single ?_, rfl⟩
    simp [advance, hstate₁, take, hslot₁]
  cases hstate : w.state with
  | checking => exact hlook b w hslot hstate
  | ended result => simp [Sound, hstate] at sound
  | parked =>
      simp only [Sound, hstate] at sound
      rcases sound with ⟨-, -, hempty⟩ | ⟨-, hwoken, -⟩
      · simp [hslot] at hempty
      · have hwake : w.advance b time =
            some ({ b with woken := b.woken.erase w.id }, { w with state := .checking }) := by
          simp [advance, hstate, hwoken]
        rcases hlook { b with woken := b.woken.erase w.id } { w with state := .checking } hslot rfl
          with ⟨b', w', hsteps, hended⟩
        exact ⟨b', w', .head hwake hsteps, hended⟩

/-- A wait with something in its inbox can go on. -/
theorem advance_ne_none (sound : w.Sound b) (full : b.slot ≠ none) (time : Nat) :
    w.advance b time ≠ none := by
  rcases Option.ne_none_iff_exists'.1 full with ⟨signal, hslot⟩
  rcases takes sound hslot time with ⟨b', w', hsteps, hended⟩
  rcases hsteps.cases_head with hsame | ⟨next, hnext, -⟩
  · cases hsame
    simp [Sound, hended] at sound
  · rw [hnext]
    simp

/-- With nothing in the slot a wait that is due ends with nothing. -/
theorem gives_up (sound : w.Sound b) (hslot : b.slot = none) (hdue : w.isDue time = true) :
    ∃ b' w', Steps time (b, w) (b', w') ∧ w'.state = .ended none := by
  have hasleep : ∀ b₁ : Inbox, ∀ w₁ : Waiter, b₁.slot = none → b₁.woken = [] →
      w₁.state = .parked → w₁.isDue time = true →
      ∃ b' w', Steps time (b₁, w₁) (b', w') ∧ w'.state = .ended none := by
    intro b₁ w₁ hslot₁ hwoken₁ hstate₁ hdue₁
    refine ⟨{ b₁ with parked := b₁.parked.erase w₁.id, slot := none },
      { w₁ with state := .ended none }, .single ?_, rfl⟩
    simp [advance, hstate₁, hwoken₁, hdue₁, take, hslot₁]
  have hpark : ∀ b₁ : Inbox, b₁.slot = none → b₁.permit = false → b₁.woken = [] →
      w.state = .checking →
      ∃ b' w', Steps time (b₁, w) (b', w') ∧ w'.state = .ended none := by
    intro b₁ hslot₁ hpermit₁ hwoken₁ hstate
    have hstep : w.advance b₁ time =
        some ({ b₁ with parked := b₁.parked ++ [w.id] }, { w with state := .parked }) := by
      simp [advance, hstate, take, hslot₁, hpermit₁]
    rcases hasleep { b₁ with parked := b₁.parked ++ [w.id] } { w with state := .parked } hslot₁
      hwoken₁ rfl hdue with ⟨b', w', hsteps, hended⟩
    exact ⟨b', w', .head hstep hsteps, hended⟩
  cases hstate : w.state with
  | ended result => simp [Sound, hstate] at sound
  | parked =>
      simp only [Sound, hstate] at sound
      rcases sound with ⟨-, hwoken, -⟩ | ⟨-, -, hfull⟩
      · exact hasleep b w hslot hwoken hstate hdue
      · exact absurd hslot hfull
  | checking =>
      have hidle : b.Idle := by simpa [Sound, hstate] using sound
      cases hpermit : b.permit with
      | false => exact hpark b hslot hpermit hidle.woken hstate
      | true =>
          -- The permit is stale: it is used up and the wait looks once more.
          have hstep : w.advance b time = some ({ b with permit := false }, w) := by
            simp [advance, hstate, take, hslot, hpermit]
          rcases hpark { b with permit := false } hslot rfl hidle.woken hstate with
            ⟨b', w', hsteps, hended⟩
          exact ⟨b', w', .head hstep hsteps, hended⟩

end Waiter
end Inbox
end Casework
