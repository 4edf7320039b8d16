import Casework.Proofs.Execution.World
import Casework.Service.Basic

/-!
# Operations — what a service has done when an operation succeeds

* `Service.join`, `Service.withExecution` : the two ways in which an operation changes a service;
* `Service.of_start`, `Service.of_resume` : an execution joins, and is registered;
* `Service.of_submit`, `Service.of_cancel` : the registered execution is replaced.
-/

namespace Casework

namespace Table

variable {α : Type}

/-- What was just registered is found. -/
theorem contains_insert_self (t : Table α) (key : String) (a : α) :
    (t.insert key a).contains key = true := by
  simp [contains_eq_isSome, get?_insert_self]

theorem contains_insert {t : Table α} {key other : String} (a : α)
    (h : t.contains other = true) : (t.insert key a).contains other = true := by
  by_cases hkey : other = key
  · simp [hkey, contains_insert_self]
  · have hsame := get?_insert_of_ne t a hkey
    simpa [contains_eq_isSome, hsame] using h

end Table

namespace Service

variable {v v' : Service} {caseId : String}

def join (v : Service) (caseId : String) (x : Execution) : Service where
  host := (v.host.spawn x).1
  registered := v.registered.insert caseId (v.host.spawn x).2

/-- An execution that joins has the last place. -/
theorem place?_join_self (v : Service) (caseId : String) (x : Execution) :
    (v.join caseId x).place? caseId = some v.host.executions.length :=
  Table.get?_insert_self _ _ _

/-- The places of other cases stay as they are. -/
theorem place?_join_of_ne {id : String} (h : id ≠ caseId) (x : Execution) :
    (v.join caseId x).place? id = v.place? id :=
  Table.get?_insert_of_ne _ _ h

def withExecution (v : Service) (i : Nat) (x : Execution) : Service :=
  { v with host := v.host.put i x }

/-- Whoever starts a case starts a new execution of a case that was not registered. -/
theorem of_start {asked : Option String} {name version : String} {payload : Value}
    (h : v.start asked name version payload = .ok (v', caseId)) :
    caseId = asked.getD (generatedId v.host.readings.freshId) ∧
      v.registered.contains caseId = false ∧
      v' = v.join caseId (.fresh caseId name version payload v.host.readings.now) := by
  unfold start at h
  cases hknown : v.registered.contains (asked.getD (generatedId v.host.readings.freshId)) with
  | true => simp [hknown] at h
  | false =>
      simp only [hknown, Bool.false_eq_true, if_false, Except.ok.injEq, Prod.mk.injEq] at h
      rcases h with ⟨rfl, rfl⟩
      exact ⟨rfl, hknown, rfl⟩

/-- Whoever resumes a case rebuilds it from the journal, unless it has an execution that is not
finished. -/
theorem of_resume (h : v.resume caseId = .ok v') :
    v.isRunning caseId = false ∧ ∃ x, Execution.resume v.host.ledger.journal caseId = .ok x ∧
      v' = v.join caseId x := by
  unfold resume at h
  cases hrunning : v.isRunning caseId with
  | true => simp [hrunning] at h
  | false =>
      cases hrebuilt : Execution.resume v.host.ledger.journal caseId with
      | error fault => simp [hrunning, Host.resume, hrebuilt, Except.map, bind, Except.bind] at h
      | ok x =>
          refine ⟨rfl, x, rfl, ?_⟩
          simpa [hrunning, join, Host.resume, hrebuilt, Except.map, bind, Except.bind, pure,
            Except.pure] using h.symm

/-- Whoever submits a decision delivers it, and gets a receipt for what became of it. -/
theorem of_submit {decision : String} {receipt : Receipt}
    (h : v.submit caseId decision = .ok (v', receipt)) :
    ∃ i x x' disposition, v.place? caseId = some i ∧ v.host.execution? i = some x ∧
      x.deliver (v.host.decisionNow decision) = .ok (x', disposition) ∧
      receipt = .of caseId decision disposition ∧
      v' = { v.withExecution i x' with
        host := (v.withExecution i x').host.report
          (Execution.deliveryMetric x'.caseId disposition) } := by
  unfold submit place at h
  cases hplace : v.place? caseId with
  | none => simp [hplace, bind, Except.bind] at h
  | some i =>
      cases hexecution : v.host.execution? i with
      | none => simp [hplace, hexecution, bind, Except.bind, Host.decide, Host.signal] at h
      | some x =>
          cases hdeliver : x.deliver (v.host.decisionNow decision) with
          | error fault =>
              simp [hplace, hexecution, hdeliver, bind, Except.bind, Host.decide, Host.signal,
                Except.map] at h
          | ok out =>
              rcases out with ⟨x', disposition⟩
              simp only [hplace, hexecution, hdeliver, bind, Except.bind, Host.decide, Host.signal,
                Except.map, pure, Except.pure, Except.ok.injEq, Prod.mk.injEq] at h
              rcases h with ⟨rfl, rfl⟩
              exact ⟨i, x, x', disposition, rfl, hexecution, hdeliver, rfl, rfl⟩

/-- Whoever cancels a case stops its execution. -/
theorem of_cancel (h : v.cancel caseId = .ok v') :
    ∃ i, v.place? caseId = some i ∧
      ((v.host.execution? i = none ∧ v' = v) ∨
        ∃ x, v.host.execution? i = some x ∧ v' = v.withExecution i x.cancel) := by
  unfold cancel place at h
  cases hplace : v.place? caseId with
  | none => simp [hplace, bind, Except.bind] at h
  | some i =>
      refine ⟨i, rfl, ?_⟩
      have hv' : v' = { v with host := v.host.cancel i } := by
        simpa [hplace, bind, Except.bind, pure, Except.pure] using h.symm
      cases hexecution : v.host.execution? i with
      | none => exact .inl ⟨rfl, by simp [hv', Host.cancel, hexecution]⟩
      | some x => exact .inr ⟨x, rfl, by simp [hv', Host.cancel, hexecution, withExecution]⟩

end Service
end Casework
