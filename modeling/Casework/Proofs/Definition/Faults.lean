import Casework.Proofs.Definition.Validity

/-!
# Faults — which of the broken rules is reported

A definition may break several of the structural rules.  The checks go through them in order, and
within a rule through the steps and their transitions in order, and report what they meet first.

* `Definition.Reports` : the fault that is reported, read off the definition;
* `firstRepeated_eq_some_iff`, `StepDefinition.transitionFault?_eq_some_iff` : single checks;
* `Definition.validate_exact` : the checks accept what keeps all rules, and otherwise report this
  fault and no other.
-/

namespace Casework

/-- The search for a repeated id finds the first one that occurs before itself or among those
already seen. -/
theorem firstRepeated_eq_some_iff {seen ids : List String} {id : String} :
    firstRepeated seen ids = some id ↔
      ∃ before after, ids = before ++ id :: after ∧
        (before.Nodup ∧ ∀ other ∈ before, other ∉ seen) ∧ (id ∈ seen ∨ id ∈ before) := by
  induction ids generalizing seen with
  | nil => simp [firstRepeated]
  | cons first rest ih =>
      by_cases hseen : first ∈ seen
      · simp only [firstRepeated, List.contains_iff_mem, hseen, if_true, Option.some.injEq]
        constructor
        · rintro rfl
          exact ⟨[], rest, rfl, ⟨List.nodup_nil, by simp⟩, .inl hseen⟩
        · rintro ⟨before, after, hsplit, ⟨-, hfresh⟩, -⟩
          -- Whatever stands before the first repeated id is not among those seen.
          cases before with
          | nil => exact (List.cons.inj hsplit).1
          | cons other before =>
              obtain ⟨rfl, -⟩ := List.cons.inj hsplit
              exact absurd hseen (hfresh first (by simp))
      · simp only [firstRepeated, List.contains_iff_mem, hseen, if_false, ih]
        constructor
        · rintro ⟨before, after, rfl, hunseen, hid⟩
          refine ⟨first :: before, after, rfl, unseen_cons_iff.2 ⟨hseen, hunseen⟩, ?_⟩
          simpa [or_comm, or_assoc, or_left_comm] using hid
        · rintro ⟨before, after, hsplit, hunseen, hid⟩
          cases before with
          | nil =>
              obtain ⟨rfl, -⟩ := List.cons.inj hsplit
              simp [hseen] at hid
          | cons other before =>
              obtain ⟨rfl, rfl⟩ := List.cons.inj hsplit
              refine ⟨before, after, rfl, (unseen_cons_iff.1 hunseen).2, ?_⟩
              simpa [or_comm, or_assoc, or_left_comm] using hid

namespace StepDefinition

/-- Whether the transitions of a step keep the rules. -/
structure Orderly (s : StepDefinition) (ids : List String) : Prop where
  unambiguous : s.defaults.length ≤ 1
  closed : ∀ t ∈ s.transitions, t.nextStep ∈ ids

/-- What is reported of a step whose transitions break a rule. -/
inductive Reports (s : StepDefinition) (ids : List String) : Error → Prop
  | ambiguous (many : 2 ≤ s.defaults.length) :
      Reports s ids (.ambiguousDefaultTransition s.stepId)
  | dangling {before after : List Transition} {t : Transition} (few : s.defaults.length ≤ 1)
      (split : s.transitions = before ++ t :: after)
      (closed : ∀ u ∈ before, u.nextStep ∈ ids) (outside : t.nextStep ∉ ids) :
      Reports s ids (.danglingTransition s.stepId t.nextStep)

variable {s : StepDefinition} {ids : List String} {e : Error}

/-- A step has no fault exactly if its transitions keep the rules. -/
theorem orderly_iff : s.transitionFault? ids = none ↔ s.Orderly ids := by
  rw [transitionFault?_eq_none_iff]
  exact ⟨fun h => ⟨h.1, h.2⟩, fun h => ⟨h.unambiguous, h.closed⟩⟩

/-- The dangling transition that is reported is the first one. -/
theorem dangling?_eq_some_iff {t : Transition} :
    s.dangling? ids = some t ↔
      t.nextStep ∉ ids ∧ ∃ before after, s.transitions = before ++ t :: after ∧
        ∀ u ∈ before, u.nextStep ∈ ids := by
  unfold dangling?
  rw [List.find?_eq_some_iff_append]
  simp

/-- Ambiguity is reported before anything that dangles. -/
theorem transitionFault?_eq_some_iff : s.transitionFault? ids = some e ↔ s.Reports ids e := by
  unfold transitionFault?
  constructor
  · intro h
    split at h
    · next hmany =>
        cases h
        exact .ambiguous hmany
    · next hfew =>
        obtain ⟨t, hdangling, rfl⟩ := Option.map_eq_some_iff.1 h
        obtain ⟨houtside, before, after, hsplit, hclosed⟩ := dangling?_eq_some_iff.1 hdangling
        exact .dangling (Nat.not_lt.1 hfew) hsplit hclosed houtside
  · intro h
    cases h with
    | ambiguous many => exact if_pos many
    | dangling few split closed outside =>
        rw [if_neg (Nat.not_lt.2 few), dangling?_eq_some_iff.2 ⟨outside, _, _, split, closed⟩]
        rfl

end StepDefinition

namespace Definition

/-- What is reported of a definition that breaks a rule. -/
inductive Reports (d : Definition) : Error → Prop
  | empty (h : d.steps = []) : Reports d (.emptyDefinition d.name)
  | repeated {before after : List String} {id : String}
      (split : d.stepIds = before ++ id :: after) (distinct : before.Nodup)
      (earlier : id ∈ before) : Reports d (.duplicateStep id)
  | uninitial (nonempty : d.steps ≠ []) (distinct : d.stepIds.Nodup)
      (missing : d.initialStep ∉ d.stepIds) : Reports d (.stepNotFound d.initialStep)
  | disorderly {before after : List StepDefinition} {s : StepDefinition} {e : Error}
      (distinct : d.stepIds.Nodup) (initial : d.initialStep ∈ d.stepIds)
      (split : d.steps = before ++ s :: after) (orderly : ∀ b ∈ before, b.Orderly d.stepIds)
      (reports : s.Reports d.stepIds e) : Reports d e

variable {d : Definition} {e : Error}

/-- The step that is reported is the first one with a fault. -/
theorem firstDisorder_eq_some_iff :
    (d.steps.findSome? fun s => s.transitionFault? d.stepIds) = some e ↔
      ∃ before s after, d.steps = before ++ s :: after ∧ s.Reports d.stepIds e ∧
        ∀ b ∈ before, b.Orderly d.stepIds := by
  simp only [List.findSome?_eq_some_iff, StepDefinition.transitionFault?_eq_some_iff,
    StepDefinition.orderly_iff]

/-- The checker reports what the rules say, for every process. -/
theorem fault?_eq_some_iff : d.fault? = some e ↔ d.Reports e := by
  have hunique : firstRepeated [] d.stepIds = none ↔ d.stepIds.Nodup := by
    simp [firstRepeated_eq_none_iff]
  -- The checks are made in this order, and each assumes that those before it have passed.
  unfold fault?
  constructor
  · intro h
    split at h
    · next hsteps =>
        cases h
        exact .empty (List.isEmpty_iff.1 hsteps)
    · next hsteps =>
        split at h
        · next hrepeated =>
            cases h
            obtain ⟨before, after, hsplit, ⟨hdistinct, -⟩, hearlier⟩ :=
              firstRepeated_eq_some_iff.1 hrepeated
            exact .repeated hsplit hdistinct (by simpa using hearlier)
        · next hrepeated =>
            have hdistinct := hunique.1 hrepeated
            split at h
            · next hinitial =>
                obtain ⟨before, s, after, hsplit, hreports, horderly⟩ :=
                  firstDisorder_eq_some_iff.1 h
                exact .disorderly hdistinct (by simpa using hinitial) hsplit horderly hreports
            · next hinitial =>
                cases h
                exact .uninitial (by simpa using hsteps) hdistinct (by simpa using hinitial)
  · intro h
    cases h with
    | empty h => simp [h]
    | repeated split distinct earlier =>
        have hsome : firstRepeated [] d.stepIds = some _ :=
          firstRepeated_eq_some_iff.2 ⟨_, _, split, ⟨distinct, by simp⟩, .inr earlier⟩
        have hnonempty : d.steps ≠ [] := by
          intro hnone
          simp [stepIds, hnone] at split
        simp [hnonempty, hsome]
    | uninitial nonempty distinct missing =>
        simp [nonempty, hunique.2 distinct, missing]
    | disorderly distinct initial split orderly reports =>
        have hsome := firstDisorder_eq_some_iff.2 ⟨_, _, _, split, reports, orderly⟩
        have hnonempty : d.steps ≠ [] := by simp [split]
        simp [hnonempty, hunique.2 distinct, initial, hsome]

/-- The checks accept exactly the definitions that keep all rules.  Otherwise what they report is
true of the definition, and it is the first thing that there is to report. -/
theorem validate_exact (d : Definition) :
    (d.validate = .ok () ↔ d.IsValid) ∧ ∀ e, d.validate = .error e ↔ d.Reports e := by
  refine ⟨validate_eq_ok_iff, ?_⟩
  intro e
  rw [← fault?_eq_some_iff]
  unfold validate
  cases d.fault? <;> simp

end Definition
end Casework
