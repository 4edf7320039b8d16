import Casework.Step.Registry

/-!
# Valid definitions — what the checks of a definition establish

A definition is checked rule by rule, and the first rule that is broken is reported.  Here the
checks are read as what holds of a definition that passes them, so that proofs about walks need not
follow the order of the checks.

* `firstRepeated_eq_none_iff`, `StepDefinition.transitionFault?_eq_none_iff` : single checks;
* `Transition.choose?_eq_none_iff` : when no transition can be taken;
* `Definition.IsValid`, `Definition.validate_eq_ok_iff` : the structural rules;
* `Executor.Fits`, `Registry.validate_eq_ok_iff` : the rules for the types of step.
-/

namespace Casework

/-- Ids are distinct and unseen if the first is unseen and the others are once it is seen. -/
theorem unseen_cons_iff {seen rest : List String} {first : String} :
    ((first :: rest).Nodup ∧ ∀ id ∈ first :: rest, id ∉ seen) ↔
      first ∉ seen ∧ rest.Nodup ∧ ∀ id ∈ rest, id ∉ first :: seen := by
  simp only [List.nodup_cons, List.mem_cons, not_or]
  constructor
  · rintro ⟨⟨hfirst, hnodup⟩, hunseen⟩
    refine ⟨hunseen first (.inl rfl), hnodup, ?_⟩
    intro other hmem
    refine ⟨?_, hunseen other (.inr hmem)⟩
    rintro rfl
    exact hfirst hmem
  · rintro ⟨hfirst, hnodup, hunseen⟩
    refine ⟨⟨?_, hnodup⟩, ?_⟩
    · intro hmem
      exact (hunseen first hmem).1 rfl
    · rintro other (rfl | hmem)
      · exact hfirst
      · exact (hunseen other hmem).2

/-- The search for a repeated id finds none if no id occurs twice or among those already seen. -/
theorem firstRepeated_eq_none_iff {seen ids : List String} :
    firstRepeated seen ids = none ↔ ids.Nodup ∧ ∀ id ∈ ids, id ∉ seen := by
  induction ids generalizing seen with
  | nil => simp [firstRepeated]
  | cons first rest ih =>
      rw [unseen_cons_iff]
      by_cases hseen : first ∈ seen
      · simp [firstRepeated, hseen]
      · simp only [firstRepeated, List.contains_iff_mem, hseen, if_false, ih, not_false_eq_true,
          true_and]

/-- No transition is taken if none is for the signal and none is a default one. -/
theorem Transition.choose?_eq_none_iff {ts : List Transition} {signal : Option String} :
    Transition.choose? ts signal = none ↔
      (∀ value, signal = some value → ∀ t ∈ ts, t.onSignal ≠ some value) ∧
        ts.filter Transition.isDefault = [] := by
  unfold choose? exactMatch?
  cases signal with
  | none => simp
  | some value => simp [firesOn]

namespace StepDefinition

variable {s : StepDefinition} {ids : List String}

/-- Nothing dangles exactly if every transition goes to a step of the process. -/
theorem dangling?_eq_none_iff : s.dangling? ids = none ↔ ∀ t ∈ s.transitions, t.nextStep ∈ ids := by
  simp [dangling?]

/-- A step has no fault exactly if it keeps its two rules. -/
theorem transitionFault?_eq_none_iff :
    s.transitionFault? ids = none ↔
      s.defaults.length ≤ 1 ∧ ∀ t ∈ s.transitions, t.nextStep ∈ ids := by
  unfold transitionFault?
  split
  · next hmany => simp [Nat.not_le.2 hmany]
  · next hfew => simp [Nat.not_lt.1 hfew, dangling?_eq_none_iff]

end StepDefinition

namespace Definition

structure IsValid (d : Definition) : Prop where
  nonempty : d.steps ≠ []
  distinct : d.stepIds.Nodup
  initial : d.initialStep ∈ d.stepIds
  unambiguous : ∀ s ∈ d.steps, s.defaults.length ≤ 1
  closed : ∀ s ∈ d.steps, ∀ t ∈ s.transitions, t.nextStep ∈ d.stepIds

variable {d : Definition}

/-- A process has no fault exactly if it keeps the structural rules. -/
theorem fault?_eq_none_iff : d.fault? = none ↔ d.IsValid := by
  have hnodup : firstRepeated [] d.stepIds = none ↔ d.stepIds.Nodup := by
    simp [firstRepeated_eq_none_iff]
  have hedges : (d.steps.findSome? fun s => s.transitionFault? d.stepIds) = none ↔
      ∀ s ∈ d.steps, s.defaults.length ≤ 1 ∧ ∀ t ∈ s.transitions, t.nextStep ∈ d.stepIds := by
    simp [List.findSome?_eq_none_iff, StepDefinition.transitionFault?_eq_none_iff]
  -- One check for each rule; the last goes over all steps.
  unfold fault?
  constructor
  · intro h
    split at h
    · cases h
    · next hsteps =>
        split at h
        · cases h
        · next hrepeated =>
            split at h
            · next hinitial =>
                have hall := hedges.1 h
                exact
                  { nonempty := by simpa using hsteps
                    distinct := hnodup.1 hrepeated
                    initial := by simpa using hinitial
                    unambiguous := fun s hs => (hall s hs).1
                    closed := fun s hs => (hall s hs).2 }
            · cases h
  · intro valid
    have hinitial : d.stepIds.contains d.initialStep = true := by simpa using valid.initial
    rw [if_neg (by simpa using valid.nonempty), hnodup.2 valid.distinct]
    simp only [hinitial, if_true]
    exact hedges.2 fun s hs => ⟨valid.unambiguous s hs, valid.closed s hs⟩

theorem validate_eq_ok_iff : d.validate = .ok () ↔ d.IsValid := by
  rw [← fault?_eq_none_iff]
  unfold validate
  cases d.fault? <;> simp

/-- An id of a step is looked up successfully. -/
theorem step?_of_mem {stepId : String} (h : stepId ∈ d.stepIds) :
    ∃ s ∈ d.steps, d.step? stepId = some s := by
  obtain ⟨s, hs⟩ := Option.isSome_iff_exists.1 (step?_isSome_iff.2 h)
  exact ⟨s, mem_of_step? hs, hs⟩

end Definition

/-- Whether an executor accepts the configuration of a step. -/
def Executor.Fits (e : Executor) (s : StepDefinition) : Prop :=
  e.validate s = .ok ()

namespace Executor

variable {s : StepDefinition}

/-- A reviewer's step that is found to fit has a configuration that can be read. -/
theorem config_of_fits_review (h : Executor.humanInTheLoop.Fits s) :
    ∃ config, s.config ReviewConfig.decoder = .ok config := by
  unfold Fits validate at h
  cases hconfig : s.config ReviewConfig.decoder with
  | ok config => exact ⟨config, rfl⟩
  | error fault => simp [hconfig, Except.map] at h

/-- So has a step that ends the execution. -/
theorem config_of_fits_commit (h : Executor.finalCommit.Fits s) :
    ∃ config, s.config CommitConfig.decoder = .ok config := by
  unfold Fits validate at h
  cases hconfig : s.config CommitConfig.decoder with
  | ok config => exact ⟨config, rfl⟩
  | error fault => simp [hconfig, Except.map] at h

end Executor

namespace Registry

variable {registry : Registry} {d : Definition} {s : StepDefinition}

/-- The executor of a step is the one that is registered for its type. -/
theorem executorOf_eq_ok_iff {e : Executor} :
    registry.executorOf s = .ok e ↔ registry.executor? s.stepType = some e := by
  unfold executorOf
  cases registry.executor? s.stepType <;> simp

/-- A step passes if somebody runs it and finds its configuration to fit. -/
theorem validateStep_eq_ok_iff :
    registry.validateStep s = .ok () ↔ ∃ e, registry.executorOf s = .ok e ∧ e.Fits s := by
  unfold validateStep
  cases registry.executorOf s <;> simp [bind, Except.bind, Executor.Fits]

/-- A process passes if every step does. -/
theorem validateSteps_eq_ok_iff {steps : List StepDefinition} :
    registry.validateSteps steps = .ok () ↔ ∀ s ∈ steps, registry.validateStep s = .ok () := by
  induction steps with
  | nil => simp [validateSteps]
  | cons s rest ih =>
      cases hs : registry.validateStep s <;>
        simp [validateSteps, hs, ih, bind, Except.bind]

/-- A definition is accepted if it keeps the structural rules and every step has an executor that
accepts its configuration. -/
theorem validate_eq_ok_iff :
    registry.validate d = .ok () ↔
      d.IsValid ∧ ∀ s ∈ d.steps, ∃ e, registry.executorOf s = .ok e ∧ e.Fits s := by
  unfold validate
  have hsteps : registry.validateSteps d.steps = .ok () ↔
      ∀ s ∈ d.steps, ∃ e, registry.executorOf s = .ok e ∧ e.Fits s := by
    simp only [validateSteps_eq_ok_iff, validateStep_eq_ok_iff]
  rw [← Definition.validate_eq_ok_iff, ← hsteps]
  cases d.validate <;> simp [bind, Except.bind]

end Registry
end Casework
