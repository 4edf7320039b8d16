import Casework.Proofs.Definition.Validity
import Casework.Proofs.Execution.World

/-!
# Blame — failures that have nothing to do with the definition

Most of what can go wrong with an execution is the fault of its journal or of its payload.

* `Engine.Staffs` : an executor that accepts the configuration of a step;
* `Journal.blameless_of_append` and its siblings : errors that do not blame the definition;
* `Visit.leave_cases` : the only one that does when a step is left.
-/

namespace Casework

/-! ## Executors -/

/-- An executor of the registry that accepts the configuration of a step. -/
structure Engine.Staffs (g : Engine) (s : StepDefinition) (e : Executor) : Prop where
  kind : (g.registry.executor? s.stepType).map Executor.core = some e.core
  fits : e.Fits s

section Staff

variable {g g' : Engine} {d : Definition} {s : StepDefinition} {e : Executor}

/-- An accepted step finds its executor in every world. -/
theorem Engine.Alike.staffs (alike : g.Alike g')
    (accepted : ∃ e, g.registry.executorOf s = .ok e ∧ e.Fits s) :
    ∃ e, g'.registry.executorOf s = .ok e ∧ g.Staffs s e := by
  rcases accepted with ⟨e, hexecutor, hfits⟩
  have hkind := alike.executorOf s
  cases hexecutor' : g'.registry.executorOf s with
  | error fault => simp [hexecutor, hexecutor', Except.map] at hkind
  | ok e' =>
      have hcore : e'.core = e.core := by
        simpa [hexecutor, hexecutor', Except.map] using hkind
      have htag : g.registry.executor? s.stepType = some e :=
        Registry.executorOf_eq_ok_iff.1 hexecutor
      refine ⟨e', rfl, ?_⟩
      constructor
      · simp [htag, hcore]
      · exact (Executor.validate_of_core hcore s).trans hfits

/-- A step that is staffed with a reviewer is registered so. -/
theorem Engine.Staffs.review (h : g.Staffs s .humanInTheLoop) :
    g.registry.executor? s.stepType = some .humanInTheLoop := by
  rcases Option.map_eq_some_iff.1 h.kind with ⟨e, htag, hcore⟩
  cases e with
  | humanInTheLoop => exact htag
  | finalCommit => cases hcore
  | caseEnrichment enricher => cases hcore

theorem Engine.Staffs.enrichment {enricher : Option Enricher}
    (h : g.Staffs s (.caseEnrichment enricher)) :
    ∃ enricher', g.registry.executor? s.stepType = some (.caseEnrichment enricher') := by
  rcases Option.map_eq_some_iff.1 h.kind with ⟨e, htag, hcore⟩
  cases e with
  | humanInTheLoop => cases hcore
  | finalCommit => cases hcore
  | caseEnrichment enricher' => exact ⟨enricher', htag⟩

/-- Where a collaborator is asked, the registry has one. -/
theorem Engine.Staffs.assisted {enricher : Enricher}
    (h : g.Staffs s (.caseEnrichment (some enricher))) :
    ∃ enricher', g.registry.executor? s.stepType = some (.caseEnrichment (some enricher')) := by
  rcases h.enrichment with ⟨enricher', htag⟩
  cases enricher' with
  | some enricher' => exact ⟨enricher', htag⟩
  | none =>
      have hkind := h.kind
      rw [htag] at hkind
      cases hkind

end Staff

/-! ## Failures that are nobody's or the definition's -/

section Blame

variable {g : Engine} {j : Journal} {l : Ledger} {c : Context} {r : Readings} {fault : Error}

/-- A journal that refuses an entry does not blame the process. -/
theorem Journal.blameless_of_append {caseId : String} {e : JournalEntry}
    (h : j.append caseId e = .error fault) : fault.isDefinitionError = false := by
  cases j with
  | memory cases => cases h
  | files folder =>
      unfold append fileName? at h
      by_cases hname : isFileId caseId = true
      · simp only [hname, if_true, bind, Except.bind] at h
        split at h
        · cases h
        · cases h
          rfl
      · simp only [hname, bind, Except.bind] at h
        cases h
        rfl

/-- Nor does the ledger. -/
theorem Ledger.blameless_of_record {log : Log} {e : JournalEntry}
    (h : l.record log e = .error fault) : fault.isDefinitionError = false := by
  cases happend : l.journal.append log.caseId e with
  | ok j' => simp [record, Log.record, happend, Except.map] at h
  | error cause =>
      have hcause : cause = fault := by simpa [record, Log.record, happend, Except.map] using h
      exact hcause ▸ Journal.blameless_of_append happend

/-- An answer of the earlier run that cannot be read does not blame the process either. -/
theorem Visit.blameless_of_unreadable {output : Value}
    (h : recordedEnrichment output = .error fault) : fault.isDefinitionError = false := by
  unfold recordedEnrichment at h
  split at h
  · cases h
  · split at h
    · cases h
    · cases h
      rfl

/-- An accepted definition that is found can be walked, unless the payload does not fit. -/
theorem Execution.blameless_of_prepare {launch : Launch} {d : Definition}
    (loaded : g.loader.load launch.processName launch.processVersion = .ok d)
    (valid : g.registry.validate d = .ok ()) (h : prepare g launch = .error fault) :
    fault.isDefinitionError = false := by
  rw [prepare_eq, loaded] at h
  simp only [valid, ite_self] at h
  split at h
  · cases h
  · cases h
    rfl

/-- Preparation walks with the process that was loaded. -/
theorem Execution.definition_of_prepare {launch : Launch} {d : Definition}
    {out : Definition × CaseInput}
    (loaded : g.loader.load launch.processName launch.processVersion = .ok d)
    (h : prepare g launch = .ok out) : out.1 = d := by
  rw [prepare_eq, loaded] at h
  dsimp only at h
  split at h
  · cases h
  · split at h
    · cases h
      rfl
    · cases h

/-- What becomes the result of an execution was its failure already, or the journal refused the
end. -/
theorem Execution.blame_of_close {result : Except Error Case}
    (h : (close c l r result).2.2 = .error fault) :
    result = .error fault ∨ fault.isDefinitionError = false := by
  cases result with
  | error cause =>
      rw [close_error] at h
      cases h
      exact .inl rfl
  | ok k =>
      right
      unfold close Log.complete at h
      dsimp only at h
      split at h
      · cases h
      · next hcomplete =>
          cases h
          split at hcomplete
          · cases hcomplete
          · next hpending =>
              cases happend : c.log.record l.journal (.completed k.status k.details.updatedAt) with
              | ok j' => simp [happend, Except.map] at hcomplete
              | error cause =>
                  have hcause : cause = fault := by
                    simpa [happend, Except.map] using hcomplete
                  exact hcause ▸ Journal.blameless_of_append happend

/-- A step is left along one of its transitions, or none can be taken. -/
theorem Visit.leave_cases (s : StepDefinition) (signal : Option String) :
    (∃ t ∈ s.transitions, leave s signal = .left (.ok (.next t.nextStep))) ∨
      Transition.choose? s.transitions signal = none ∧
        leave s signal = .left (.error (.noMatchingTransition s.stepId signal)) := by
  unfold leave StepDefinition.next Transition.resolve
  cases hchoose : Transition.choose? s.transitions signal with
  | some t => exact .inl ⟨t, Transition.mem_of_choose? hchoose, rfl⟩
  | none => exact .inr ⟨rfl, rfl⟩

end Blame

end Casework
