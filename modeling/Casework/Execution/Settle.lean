import Casework.Execution.Basic

/-!
# Running an execution

* `Execution.settle` : all atomic steps up to the next wait or the end, as one uninterrupted run;
* `Execution.runSlice` : the same, but no further than the next access to a file, since others run
  meanwhile.

Both end because every atomic step lessens `Execution.work`.
-/

namespace Casework

/-- How many steps are ahead at most with a limit on dispatches, unless an inbox is notified. -/
def Phase.rank (limit : Nat) : Phase → Nat
  | .starting => 8 * limit + 4
  | .opening => 8 * limit + 3
  | .dispatching _ n _ => 8 * (limit - n) + 2
  | .visiting _ n _ _ v => 8 * (limit - n) + 3 + v.rank
  | .closing _ => 1
  | .ended _ => 0

@[simp] theorem Phase.rank_dispatching (limit : Nat) (d : Definition) (n : Nat) (stepId : String) :
    (Phase.dispatching d n stepId).rank limit = 8 * (limit - n) + 2 := rfl

@[simp] theorem Phase.rank_visiting (limit : Nat) (d : Definition) (n : Nat) (s : StepDefinition)
    (e : Executor) (v : Visit) :
    (Phase.visiting d n s e v).rank limit = 8 * (limit - n) + 3 + v.rank := rfl

namespace Execution

/-- What is ahead of an execution, notifications in its inbox included. -/
def work (g : Engine) (x : Execution) : Nat :=
  x.phase.rank g.settings.maxSteps + x.context.inbox.wakeups

theorem work_start_lt (g : Engine) (x : Execution) (l : Ledger) (h : x.phase = .starting) :
    (x.start l).1.work g < x.work g := by
  unfold start
  split <;> simp [work, h, Phase.rank]

theorem work_openCase_lt (g : Engine) (x : Execution) (h : x.phase = .opening) :
    (x.openCase g).work g < x.work g := by
  unfold openCase
  split <;> simp [work, h, Phase.rank, Context.publish]

theorem rank_dispatch_lt (g : Engine) (d : Definition) (n : Nat) (stepId : String) :
    (dispatch g d n stepId).rank g.settings.maxSteps < 8 * (g.settings.maxSteps - n) + 2 := by
  unfold dispatch
  split
  · simp only [Phase.rank]; omega
  · split <;> simp only [Phase.rank, Visit.rank] <;> omega

/-- What follows a visit is below it, because the visit was counted when it was dispatched. -/
theorem rank_proceed_lt (c : Context) (l : Ledger) (d : Definition) (n : Nat) (s : StepDefinition)
    (result : Except Error Outcome) (limit : Nat) :
    (proceed c l d n s result).1.rank limit < 8 * (limit - n) + 3 := by
  unfold proceed
  split <;> simp only [Phase.rank] <;> omega

/-- Recording the end leaves the inbox alone, so that nobody is notified by it. -/
theorem inbox_close (c : Context) (l : Ledger) (r : Readings) (result : Except Error Case) :
    (close c l r result).1.inbox = c.inbox := by
  unfold close
  split <;> split <;> rfl

/-- Every atomic step lessens what is ahead. -/
theorem work_lt_of_advance {g : Engine} {r : Readings} {x x' : Execution} {l l' : Ledger}
    (h : x.advance g r l = some (x', l')) : x'.work g < x.work g := by
  -- Each phase has a bound of its own, and the phases are bounded by what may follow them.
  unfold advance at h
  split at h
  · simp at h
  · split at h
    · next hp =>
        have := work_start_lt g x l hp
        simp only [Option.some.injEq] at h
        rwa [h] at this
    · next hp =>
        have := work_openCase_lt g x hp
        simp only [Option.some.injEq, Prod.mk.injEq] at h
        rwa [h.1] at this
    · next d n stepId hp =>
        simp only [Option.some.injEq, Prod.mk.injEq] at h
        obtain ⟨rfl, -⟩ := h
        have := rank_dispatch_lt g d n stepId
        simp only [work, hp, Phase.rank_dispatching]
        omega
    · next d n s _ result hp =>
        have := rank_proceed_lt x.context l d n s result g.settings.maxSteps
        simp only [Option.some.injEq, Prod.mk.injEq] at h
        obtain ⟨rfl, -⟩ := h
        simp only [work, hp, Phase.rank_visiting]
        omega
    · next d n s e v _ hp =>
        simp only [Option.map_eq_some_iff, Prod.mk.injEq] at h
        obtain ⟨⟨c, l'', v'⟩, hv, rfl, -⟩ := h
        have := Visit.rank_add_wakeups_lt hv
        simp only [work, hp, Phase.rank_visiting]
        omega
    · next result hp =>
        simp only [Option.some.injEq, finish, Prod.mk.injEq] at h
        obtain ⟨rfl, -⟩ := h
        simp [work, hp, Phase.rank, inbox_close]
    · simp at h

def settle (g : Engine) (r : Readings) (x : Execution) (l : Ledger) : Execution × Ledger :=
  match _h : x.advance g r l with
  | some (x', l') => settle g r x' l'
  | none => (x, l)
termination_by x.work g
decreasing_by exact work_lt_of_advance (by assumption)

def usesFiles (g : Engine) (j : Journal) (x : Execution) : Bool :=
  match x.phase with
  | .starting | .closing _ => j.isFiles
  | .opening => g.loader.isDirectory
  | .visiting _ _ _ _ v => j.isFiles && v.writes
  | _ => false

/-- Runs an execution that is about to use a file, or is anywhere else, until it is about to use
one again, waits or is finished. -/
def runSlice (g : Engine) (r : Readings) (x : Execution) (l : Ledger) : Execution × Ledger :=
  match _h : x.advance g r l with
  | some (x', l') => if x'.usesFiles g l'.journal then (x', l') else runSlice g r x' l'
  | none => (x, l)
termination_by x.work g
decreasing_by exact work_lt_of_advance (by assumption)

def isReady (g : Engine) (r : Readings) (x : Execution) (l : Ledger) : Bool :=
  (x.advance g r l).isSome

/-- A settled execution does not move before something else happens. -/
theorem advance_settle (g : Engine) (r : Readings) (x : Execution) (l : Ledger) :
    (x.settle g r l).1.advance g r (x.settle g r l).2 = none := by
  fun_induction settle g r x l with
  | case1 _ _ _ _ _ ih => exact ih
  | case2 x l h => exact h

/-- A slice leaves less ahead, if the execution moved. -/
theorem work_runSlice_le (g : Engine) (r : Readings) (x : Execution) (l : Ledger) :
    (x.runSlice g r l).1.work g ≤ x.work g := by
  fun_induction runSlice g r x l with
  | case1 x l x' l' h _ => exact Nat.le_of_lt (work_lt_of_advance h)
  | case2 x l x' l' h _ ih => exact Nat.le_trans ih (Nat.le_of_lt (work_lt_of_advance h))
  | case3 x l h => exact Nat.le_refl _

/-- An execution that can move at all gets further in a slice. -/
theorem work_runSlice_lt {g : Engine} {r : Readings} {x : Execution} {l : Ledger}
    (h : x.isReady g r l = true) : (x.runSlice g r l).1.work g < x.work g := by
  obtain ⟨⟨x', l'⟩, ha⟩ := Option.isSome_iff_exists.1 h
  rw [runSlice]
  split
  · next h' =>
      have hlt := work_lt_of_advance h'
      split
      · exact hlt
      · exact Nat.lt_of_le_of_lt (work_runSlice_le _ _ _ _) hlt
  · next h' => simp [ha] at h'

end Execution
end Casework
