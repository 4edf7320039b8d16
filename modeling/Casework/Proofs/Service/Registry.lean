import Casework.Proofs.Execution.Finality
import Casework.Proofs.Service.Resumption

/-!
# The registry — operations while executions go on

An operation of a service that waits, for the registry or for the journal, is interrupted by
whatever goes on among the executions.  So it is taken apart into the steps between two waits.

* `Service.Stir`, `Service.stir`, `Service.after` : what goes on among the executions, the runs of a
  host included;
* `Service.Call`, `Service.Operation`, `Service.goOn` : operations, step by step;
* `Service.Situation`, `Service.Situation.run` : operations one after the other, and stirs at any
  time;
* `Service.Coherent` : the invariant of the registry;
* `registry_safe` : what it means for the cases, whatever happens in which order.
-/

namespace Casework
namespace Service

/-! ## What goes on meanwhile -/

inductive Stir where
  /-- Something happens around one of the executions, registered or not. -/
  | act (i : Nat) (a : Execution.Act)
  /-- The outside world shows something else. -/
  | readings (r : Readings)

def stir (v : Service) : Stir → Service
  | .act i a =>
      match v.host.execution? i with
      | none => v
      | some x =>
          let (x, l) := Execution.act (x, v.host.ledger) a
          { v with host := { v.host.put i x with ledger := l } }
  | .readings r => { v with host := { v.host with readings := r } }

def after (v : Service) (os : List Stir) : Service :=
  os.foldl stir v

/-- A signal that a host delivers is one of these. -/
theorem stir_signal {v : Service} {i : Nat} {signal : Signal} {host : Host}
    {disposition : Disposition} (h : v.host.signal i signal = .ok (host, disposition)) :
    v.stir (.act i (.request (.signal signal))) = { v with host := host } := by
  unfold Host.signal at h
  cases hx : v.host.execution? i with
  | none => simp [hx] at h
  | some x =>
      cases hdeliver : x.deliver signal with
      | error fault => simp [hx, hdeliver, Except.map] at h
      | ok out =>
          simp only [hx, hdeliver, Except.map, Except.ok.injEq, Prod.mk.injEq] at h
          rw [← h.1]
          simp [stir, hx, Execution.act, Execution.handle, Execution.receive, hdeliver, Host.put,
            Host.report]

/-- So is the end that it puts to an execution. -/
theorem stir_cancel (v : Service) (i : Nat) :
    v.stir (.act i (.request .cancel)) = { v with host := v.host.cancel i } := by
  unfold Host.cancel
  cases hx : v.host.execution? i with
  | none => simp [stir, hx]
  | some x => simp [stir, hx, Execution.act, Execution.handle, Host.put]

/-- What happens around one execution, as the service sees it. -/
theorem after_acts {v : Service} {i : Nat} {x : Execution} (hx : v.host.execution? i = some x)
    (as : List Execution.Act) :
    v.after (as.map (.act i)) = { v with
      host := { v.host.put i (Execution.acts (x, v.host.ledger) as).1 with
        ledger := (Execution.acts (x, v.host.ledger) as).2 } } := by
  have hlisted : v.host.executions[i]? = some x := hx
  induction as generalizing v x with
  | nil =>
      have hset : v.host.executions.set i x = v.host.executions := by
        rw [List.getElem?_eq_some_iff] at hlisted
        rcases hlisted with ⟨hlt, rfl⟩
        exact List.set_getElem_self hlt
      simp [after, Host.put, hset]
  | cons a as ih =>
      have hlt : i < v.host.executions.length := (List.getElem?_eq_some_iff.1 hlisted).1
      have hnext : (v.stir (.act i a)).host.executions[i]? =
          some (Execution.act (x, v.host.ledger) a).1 := by
        simp [stir, hx, Host.put, hlt]
      have hrest := ih hnext hnext
      simp only [stir, hx] at hrest
      simpa [after, stir, hx, Host.put] using hrest

/-- A slice of one execution leaves the others in their places. -/
theorem sliceAt_eq {g : Engine} {r : Readings} {xs : List Execution} {i : Nat} {x : Execution}
    (hx : xs[i]? = some x) (l : Ledger) :
    Host.sliceAt g r xs i l = (xs.set i (x.runSlice g r l).1, (x.runSlice g r l).2) := by
  induction xs generalizing i with
  | nil => simp at hx
  | cons y ys ih =>
      cases i with
      | zero =>
          cases hx
          rfl
      | succ i => simp [Host.sliceAt, ih (by simpa using hx)]

/-- The runs of executions are made up of these, too. -/
theorem exists_after_runSlice {v : Service} {i : Nat} {x : Execution}
    (hx : v.host.execution? i = some x) :
    ∃ os, v.after os = { v with host := v.host.runSlice i } := by
  rcases Execution.exists_acts_runSlice v.host.engine v.host.readings x v.host.ledger with ⟨n, hn⟩
  have hacts := after_acts hx (List.replicate n (.task v.host.engine v.host.readings))
  rw [hn] at hacts
  refine ⟨_, hacts.trans ?_⟩
  simp [Host.runSlice, sliceAt_eq hx, Host.put]

/-! ## Operations -/

/-- What a service is asked to do.  Queries are left out, since they change nothing. -/
inductive Call where
  | start (asked : Option String) (name version : String) (payload : Value)
  | submit (caseId decision : String)
  | cancel (caseId : String)
  | resume (caseId : String)
  | resumeAll

inductive Resuming where
  /-- About to look whether the case runs. -/
  | checking
  /-- About to read the journal. -/
  | loading
  /-- The execution is rebuilt, and about to be registered. -/
  | joining (x : Execution)
  | ended (outcome : Except Error Unit)

def resumeOn (v : Service) (caseId : String) : Resuming → Service × Resuming
  | .checking =>
      (v, if v.isRunning caseId then .ended (.error (.caseAlreadyExists caseId)) else .loading)
  | .loading =>
      match Execution.resume v.host.ledger.journal caseId with
      | .error e => (v, .ended (.error e))
      | .ok x => (v, .joining x)
  | .joining x => (v.join caseId x, .ended (.ok ()))
  | .ended outcome => (v, .ended outcome)

/-- Where an operation stands.  What it answers are the cases that have got an execution. -/
inductive Operation where
  | called (c : Call)
  | resuming (caseId : String) (stage : Resuming)
  /-- All cases are resumed, and this many are still to be looked at. -/
  | sweeping (ids resumed : List String)
  /-- A case among them is not registered, and its entries are about to be read. -/
  | reading (caseId : String) (ids resumed : List String)
  /-- It has not come to its end, and is resumed. -/
  | retaking (caseId : String) (stage : Resuming) (ids resumed : List String)
  | ended (answer : Except Error (List String))

/-- How an operation goes on with the resumption of its case. -/
def Operation.ofResuming (caseId : String) : Resuming → Operation
  | .ended outcome => .ended (outcome.map fun _ => [caseId])
  | stage => .resuming caseId stage

/-- How an operation goes on with the resumption of one case among many. -/
def Operation.ofRetaking (caseId : String) (ids resumed : List String) : Resuming → Operation
  | .ended (.ok ()) => .sweeping ids (resumed ++ [caseId])
  | .ended (.error _) => .sweeping ids resumed
  | stage => .retaking caseId stage ids resumed

def reportSweep (v : Service) : Service :=
  { v with host := v.host.report (.span "case_service_resume_all") }

def settled (v : Service) (ids : List String) : Except Error Service → Service × Operation
  | .ok v' => (v', .ended (.ok ids))
  | .error e => (v, .ended (.error e))

def goOn (v : Service) : Operation → Service × Operation
  | .called (.start asked name version payload) =>
      match v.start asked name version payload with
      | .ok (v', caseId) => (v', .ended (.ok [caseId]))
      | .error e => (v, .ended (.error e))
  | .called (.submit caseId decision) => v.settled [] ((v.submit caseId decision).map (·.1))
  | .called (.cancel caseId) => v.settled [] (v.cancel caseId)
  | .called (.resume caseId) =>
      let (v, stage) := v.resumeOn caseId .checking
      (v, .ofResuming caseId stage)
  | .called .resumeAll => (v, .sweeping v.host.ledger.journal.caseIds [])
  | .resuming caseId stage =>
      let (v, stage) := v.resumeOn caseId stage
      (v, .ofResuming caseId stage)
  | .sweeping [] resumed => (v.reportSweep, .ended (.ok resumed))
  | .sweeping (caseId :: ids) resumed =>
      (v, if v.registered.contains caseId then .sweeping ids resumed
        else .reading caseId ids resumed)
  | .reading caseId ids resumed =>
      match v.host.ledger.journal.load caseId with
      | .error e => (v.reportSweep, .ended (.error e))
      | .ok entries =>
          (v, if isClosed entries then .sweeping ids resumed
            else .retaking caseId .checking ids resumed)
  | .retaking caseId stage ids resumed =>
      let (v, stage) := v.resumeOn caseId stage
      (v, .ofRetaking caseId ids resumed stage)
  | .ended answer => (v, .ended answer)

/-! ## One operation after the other -/

/-- A service and where its last operation stands. -/
structure Situation where
  service : Service
  operation : Operation := .ended (.ok [])

inductive Beat where
  | call (c : Call)
  | goOn
  | stir (o : Stir)

def Beat.stir? : Beat → Option Stir
  | .stir o => some o
  | _ => none

/-- Whether it leaves the service to the operation that is underway. -/
def Beat.isInner : Beat → Bool
  | .call _ => false
  | _ => true

namespace Situation

/-- What comes of it.  The next operation begins when the last one is over. -/
def react (s : Situation) : Beat → Situation
  | .call c =>
      match s.operation with
      | .ended _ => { s with operation := .called c }
      | _ => s
  | .goOn => ⟨(s.service.goOn s.operation).1, (s.service.goOn s.operation).2⟩
  | .stir o => { s with service := s.service.stir o }

def run (s : Situation) (es : List Beat) : Situation :=
  es.foldl react s

@[simp] theorem run_nil (s : Situation) : s.run [] = s := rfl

@[simp] theorem run_cons (s : Situation) (e : Beat) (es : List Beat) :
    s.run (e :: es) = (s.react e).run es := rfl

end Situation

/-! ## Operations that nobody interrupts -/

/-- A resumption that nobody interrupts is what the service does in one go. -/
theorem Situation.run_resume (v : Service) (caseId : String) :
    (Situation.mk v (.called (.resume caseId))).run [.goOn, .goOn, .goOn] =
      match v.resume caseId with
      | .ok v' => ⟨v', .ended (.ok [caseId])⟩
      | .error e => ⟨v, .ended (.error e)⟩ := by
  unfold resume
  cases hrunning : v.isRunning caseId with
  | true =>
      simp [react, goOn, resumeOn, hrunning, Operation.ofResuming, Except.map]
  | false =>
      cases hrebuilt : Execution.resume v.host.ledger.journal caseId with
      | error fault =>
          simp [react, goOn, resumeOn, hrunning, hrebuilt, Operation.ofResuming, Except.map,
            Host.resume, bind, Except.bind]
      | ok x =>
          simp [react, goOn, resumeOn, hrunning, hrebuilt, Operation.ofResuming, Except.map,
            Host.resume, bind, Except.bind, pure, Except.pure, join]

/-- Whether an operation leads from one situation to another if nobody interrupts it. -/
def Situation.Leads (s s' : Situation) : Prop :=
  ∃ n, s.run (List.replicate n .goOn) = s'

theorem Situation.Leads.step {s s' : Situation} (h : Leads (s.react .goOn) s') : Leads s s' := by
  rcases h with ⟨n, hn⟩
  exact ⟨n + 1, hn⟩

/-- The resumption of one case among many, if nobody interrupts it. -/
theorem Situation.leads_retaking (v : Service) (caseId : String) (ids resumed : List String)
    {s : Situation} (h : Leads (match v.resume caseId with
      | .ok v' => ⟨v', .sweeping ids (resumed ++ [caseId])⟩
      | .error _ => ⟨v, .sweeping ids resumed⟩) s) :
    Leads ⟨v, .retaking caseId .checking ids resumed⟩ s := by
  unfold resume at h
  cases hrunning : v.isRunning caseId with
  | true =>
      apply Leads.step
      simpa [react, goOn, resumeOn, hrunning, Operation.ofRetaking] using h
  | false =>
      apply Leads.step
      simp only [react, goOn, resumeOn, hrunning, Operation.ofRetaking]
      apply Leads.step
      cases hrebuilt : Execution.resume v.host.ledger.journal caseId with
      | error fault =>
          simpa [react, goOn, resumeOn, hrunning, hrebuilt, Operation.ofRetaking, Except.map,
            Host.resume, bind, Except.bind] using h
      | ok x =>
          simp only [react, goOn, resumeOn, Operation.ofRetaking]
          apply Leads.step
          simpa [react, goOn, resumeOn, hrunning, hrebuilt, Operation.ofRetaking, Except.map,
            Host.resume, bind, Except.bind, pure, Except.pure, join] using h

/-- A sweep that nobody interrupts resumes each case as the service does. -/
theorem Situation.leads_sweeping (v : Service) (ids resumed : List String) :
    Leads ⟨v, .sweeping ids resumed⟩
      ⟨(v.resumeEach ids).1.reportSweep, .ended ((v.resumeEach ids).2.map (resumed ++ ·))⟩ := by
  -- Along the ids, as `resumeEach` goes; every case takes the sweep through its own stages.
  induction ids generalizing v resumed with
  | nil => exact ⟨1, by simp [react, goOn, resumeEach, Except.map]⟩
  | cons caseId ids ih =>
      apply Leads.step
      cases hknown : v.registered.contains caseId with
      | true => simpa [react, goOn, resumeEach, hknown] using ih v resumed
      | false =>
          simp only [react, goOn, hknown, Bool.false_eq_true, if_false]
          cases hload : v.host.ledger.journal.load caseId with
          | error fault => exact ⟨1, by simp [react, goOn, resumeEach, hknown, hload, Except.map]⟩
          | ok entries =>
              apply Leads.step
              cases hclosed : isClosed entries with
              | true => simpa [react, goOn, resumeEach, hknown, hload, hclosed] using ih v resumed
              | false =>
                  simp only [react, goOn, hload, hclosed, Bool.false_eq_true, if_false]
                  apply leads_retaking
                  cases hresume : v.resume caseId with
                  | error fault =>
                      simpa [resumeEach, hknown, hload, hclosed, hresume] using ih v resumed
                  | ok v' =>
                      have hrest := ih v' (resumed ++ [caseId])
                      cases hanswer : (v'.resumeEach ids).2 with
                      | error fault =>
                          simpa [resumeEach, hknown, hload, hclosed, hresume, hanswer, Except.map]
                            using hrest
                      | ok more =>
                          simpa [resumeEach, hknown, hload, hclosed, hresume, hanswer, Except.map]
                            using hrest

/-- The resumption of all cases, if nobody interrupts it, is what the service does in one go. -/
theorem Situation.leads_resumeAll (v : Service) :
    Leads ⟨v, .called .resumeAll⟩ ⟨v.resumeAll.1, .ended v.resumeAll.2⟩ := by
  apply Leads.step
  have hsweep := leads_sweeping v v.host.ledger.journal.caseIds []
  cases hanswer : (v.resumeEach v.host.ledger.journal.caseIds).2 with
  | error fault => simpa [react, goOn, resumeAll, reportSweep, hanswer, Except.map] using hsweep
  | ok ids => simpa [react, goOn, resumeAll, reportSweep, hanswer, Except.map] using hsweep

/-! ## What may change -/

/-- What may become of an execution: it is about the same case, and finished if it was. -/
structure Onward (x y : Execution) : Prop where
  caseId : y.caseId = x.caseId
  finished : x.isFinished = true → y.isFinished = true

/-- Executions go on, and the registry stays as it is. -/
structure Stirred (v v' : Service) : Prop where
  registered : v'.registered = v.registered
  length : v'.host.executions.length = v.host.executions.length
  onward : ∀ i x, v.host.execution? i = some x →
    ∃ y, v'.host.execution? i = some y ∧ Onward x y

/-- What may become of a service: its executions go on, or one joins for a case that does not
run. -/
inductive Changes (v : Service) : Service → Prop
  | stirred {v' : Service} (h : Stirred v v') : Changes v v'
  | joined {caseId : String} {x : Execution} (free : v.isRunning caseId = false)
      (own : x.caseId = caseId) : Changes v (v.join caseId x)

variable {v v' v₀ : Service} {caseId id : String} {x y : Execution} {i j : Nat}
variable {s : Situation} {es : List Beat} {os : List Stir}

theorem Onward.refl (x : Execution) : Onward x x :=
  ⟨rfl, id⟩

/-- No act changes the case of an execution or brings a finished one back. -/
theorem Onward.act (p : Execution × Ledger) (a : Execution.Act) :
    Onward p.1 (Execution.act p a).1 where
  caseId := Execution.caseId_act p a
  finished h := Execution.isFinished_of_status (Execution.status_act h a) h

theorem Stirred.of_same (registered : v'.registered = v.registered)
    (executions : v'.host.executions = v.host.executions) : Stirred v v' where
  registered := registered
  length := by rw [executions]
  onward i x hx := ⟨x, by rw [Host.execution?, executions]; exact hx, .refl x⟩

/-- A change of one execution is a stir. -/
theorem Stirred.of_set (registered : v'.registered = v.registered)
    (hx : v.host.execution? i = some x) (hxy : Onward x y)
    (executions : v'.host.executions = v.host.executions.set i y) : Stirred v v' where
  registered := registered
  length := by rw [executions, List.length_set]
  onward j z hz := by
    have hx' : v.host.executions[i]? = some x := hx
    have hz' : v.host.executions[j]? = some z := hz
    by_cases hij : i = j
    · subst hij
      have hlt : i < v.host.executions.length := (List.getElem?_eq_some_iff.1 hx').1
      cases hx'.symm.trans hz'
      exact ⟨y, by rw [Host.execution?, executions, List.getElem?_set_self hlt], hxy⟩
    · exact ⟨z, by rw [Host.execution?, executions, List.getElem?_set_ne hij, hz'], .refl z⟩

/-- Nothing that goes on without the service changes its registry. -/
theorem stirred_stir (v : Service) (o : Stir) : Stirred v (v.stir o) := by
  cases o with
  | act i a =>
      cases hx : v.host.execution? i with
      | none =>
          simp only [stir, hx]
          exact .of_same rfl rfl
      | some x =>
          simp only [stir, hx]
          exact .of_set rfl hx (.act (x, v.host.ledger) a) rfl
  | readings r => exact .of_same rfl rfl

theorem onward_of_deliver {signal : Signal} {disposition : Disposition}
    (h : x.deliver signal = .ok (y, disposition)) : Onward x y := by
  rcases Execution.of_deliver h with ⟨-, inbox, rfl⟩
  exact ⟨rfl, id⟩

theorem onward_cancel (x : Execution) : Onward x x.cancel where
  caseId := congrArg (·.caseId) (Execution.context_cancel x)
  finished _ := Execution.isFinished_cancel x

/-- A decision that is submitted is a stir. -/
theorem stirred_submit {decision : String} {receipt : Receipt}
    (h : v.submit caseId decision = .ok (v', receipt)) : Stirred v v' := by
  rcases of_submit h with ⟨i, x, x', disposition, -, hx, hdeliver, -, rfl⟩
  exact .of_set rfl hx (onward_of_deliver hdeliver) rfl

/-- So is a cancellation. -/
theorem stirred_cancel (h : v.cancel caseId = .ok v') : Stirred v v' := by
  rcases of_cancel h with ⟨i, -, ⟨-, rfl⟩ | ⟨x, hx, rfl⟩⟩
  · exact .of_same rfl rfl
  · exact .of_set rfl hx (onward_cancel x) rfl

/-- After a stir every execution comes from the one at its place. -/
theorem Stirred.back (h : Stirred v v') (hy : v'.host.execution? i = some y) :
    ∃ x, v.host.execution? i = some x ∧ Onward x y := by
  have hy' : v'.host.executions[i]? = some y := hy
  have hlt : i < v.host.executions.length :=
    h.length ▸ (List.getElem?_eq_some_iff.1 hy').1
  have hx : v.host.execution? i = some v.host.executions[i] := List.getElem?_eq_getElem hlt
  rcases h.onward i _ hx with ⟨z, hz, honward⟩
  cases hy.symm.trans hz
  exact ⟨_, hx, honward⟩

/-- The places stay as they are. -/
theorem Stirred.place (h : Stirred v v') (id : String) : v'.place? id = v.place? id := by
  rw [place?, place?, h.registered]

/-- A case that does not run does not begin to by itself. -/
theorem Stirred.idle (h : Stirred v v') (idle : v.isRunning id = false) :
    v'.isRunning id = false := by
  cases hplace : v.place? id with
  | none => simp [isRunning, execution?, h.place, hplace]
  | some i =>
      cases hy : v'.host.execution? i with
      | none => simp [isRunning, execution?, h.place, hplace, hy]
      | some y =>
          rcases h.back hy with ⟨x, hx, honward⟩
          have hfinished : x.isFinished = true := by
            simpa [isRunning, execution?, hplace, hx] using idle
          simp [isRunning, execution?, h.place, hplace, hy, honward.finished hfinished]

/-! ## The invariant -/

/-- What holds of the registry at any time: every case is registered with an execution of its own,
and every execution that is not finished is registered. -/
structure Coherent (v : Service) : Prop where
  own : ∀ id i, v.place? id = some i → ∃ x, v.host.execution? i = some x ∧ x.caseId = id
  found : ∀ i x, v.host.execution? i = some x → x.isFinished = false →
    v.place? x.caseId = some i

/-- A new service is coherent. -/
theorem coherent_new (engine : Engine) (journal : Journal) (readings : Readings) :
    Coherent (.new (.new engine journal readings)) where
  own id i h := by cases h
  found i x h := by cases h

/-- A stir keeps a service coherent. -/
theorem Coherent.stirred (h : Coherent v) (hv : Stirred v v') : Coherent v' where
  own id i hplace := by
    rcases h.own id i (hv.place id ▸ hplace) with ⟨x, hx, hcase⟩
    rcases hv.onward i x hx with ⟨y, hy, honward⟩
    exact ⟨y, hy, honward.caseId.trans hcase⟩
  found i y hy hunfinished := by
    rcases hv.back hy with ⟨x, hx, honward⟩
    have hrunning : x.isFinished = false := by
      apply Bool.eq_false_iff.2
      intro hfinished
      rw [honward.finished hfinished] at hunfinished
      cases hunfinished
    rw [hv.place, honward.caseId]
    exact h.found i x hx hrunning

/-- The executions there are stay, and the one that joins comes last. -/
theorem execution?_join_cases (hy : (v.join caseId x).host.execution? i = some y) :
    v.host.execution? i = some y ∨ (i = v.host.executions.length ∧ y = x) := by
  have hy' : (v.host.executions ++ [x])[i]? = some y := hy
  by_cases hlt : i < v.host.executions.length
  · exact .inl ((List.getElem?_append_left hlt).symm.trans hy')
  · have hlength := (List.getElem?_eq_some_iff.1 hy').1
    simp only [List.length_append, List.length_singleton] at hlength
    have hi : i = v.host.executions.length := by omega
    subst hi
    simp only [List.getElem?_concat_length, Option.some.injEq] at hy'
    exact .inr ⟨rfl, hy'.symm⟩

/-- Who joins pushes nobody out of place. -/
theorem execution?_join (hy : v.host.execution? i = some y) (caseId : String) (x : Execution) :
    (v.join caseId x).host.execution? i = some y := by
  have hy' : v.host.executions[i]? = some y := hy
  have hlt : i < v.host.executions.length := (List.getElem?_eq_some_iff.1 hy').1
  exact (List.getElem?_append_left hlt).trans hy'

/-- A service stays coherent when an execution joins for a case that nobody runs for. -/
theorem Coherent.joined (h : Coherent v) (free : v.isRunning caseId = false)
    (own : x.caseId = caseId) : Coherent (v.join caseId x) where
  own id i hplace := by
    by_cases hid : id = caseId
    · subst hid
      rw [place?_join_self] at hplace
      cases hplace
      exact ⟨x, List.getElem?_concat_length, own⟩
    · rw [place?_join_of_ne hid] at hplace
      rcases h.own id i hplace with ⟨y, hy, hcase⟩
      exact ⟨y, execution?_join hy caseId x, hcase⟩
  found i y hy hunfinished := by
    -- The execution was there before, or is the one that joins.
    rcases execution?_join_cases hy with hold | ⟨rfl, rfl⟩
    · have hplace := h.found i y hold hunfinished
      have hne : y.caseId ≠ caseId := by
        -- Otherwise the case would still be running.
        rintro rfl
        simp [isRunning, execution?, hplace, hold, hunfinished] at free
      rw [place?_join_of_ne hne]
      exact hplace
    · rw [own]
      exact place?_join_self v caseId y

/-- Every change of a service keeps it coherent. -/
theorem Coherent.changes (h : Coherent v) (hv : Changes v v') : Coherent v' := by
  cases hv with
  | stirred hstirred => exact h.stirred hstirred
  | joined free own => exact h.joined free own

/-- What a resumption relies on where it stands: the case did not run when it was looked at, and so
does not since. -/
def Resuming.Sound (v : Service) (caseId : String) : Resuming → Prop
  | .loading => v.isRunning caseId = false
  | .joining x => v.isRunning caseId = false ∧ x.caseId = caseId
  | _ => True

def Operation.Sound (v : Service) : Operation → Prop
  | .resuming caseId stage => stage.Sound v caseId
  | .retaking caseId stage _ _ => stage.Sound v caseId
  | _ => True

/-- A resumption relies on no more than it has found out, and does no more than it may. -/
theorem Resuming.Sound.resumeOn {stage : Resuming} (h : stage.Sound v caseId) :
    Changes v (v.resumeOn caseId stage).1 ∧
      (v.resumeOn caseId stage).2.Sound (v.resumeOn caseId stage).1 caseId := by
  have hsame : Changes v v := .stirred (.of_same rfl rfl)
  cases stage with
  | checking =>
      refine ⟨hsame, ?_⟩
      cases hrunning : v.isRunning caseId with
      | true => simp [Service.resumeOn, hrunning, Sound]
      | false => simp [Service.resumeOn, hrunning, Sound]
  | loading =>
      cases hrebuilt : Execution.resume v.host.ledger.journal caseId with
      | error fault =>
          simp only [Service.resumeOn, hrebuilt]
          exact ⟨hsame, trivial⟩
      | ok x =>
          simp only [Service.resumeOn, hrebuilt]
          exact ⟨hsame, h, Execution.caseId_of_resume hrebuilt⟩
  | joining x => exact ⟨.joined h.1 h.2, trivial⟩
  | ended outcome => exact ⟨hsame, trivial⟩

/-- What a resumption has found out stays true while others go on. -/
theorem Resuming.Sound.stirred {stage : Resuming} (h : stage.Sound v caseId)
    (hv : Stirred v v') : stage.Sound v' caseId := by
  cases stage with
  | checking => trivial
  | loading => exact hv.idle h
  | joining x => exact ⟨hv.idle h.1, h.2⟩
  | ended outcome => trivial

theorem Operation.Sound.stirred {op : Operation} (h : op.Sound v) (hv : Stirred v v') :
    op.Sound v' := by
  cases op with
  | resuming caseId stage => exact Resuming.Sound.stirred h hv
  | retaking caseId stage ids resumed => exact Resuming.Sound.stirred h hv
  | _ => trivial

theorem Resuming.Sound.ofResuming {stage : Resuming} (h : stage.Sound v caseId) :
    (Operation.ofResuming caseId stage).Sound v := by
  cases stage with
  | ended outcome => trivial
  | _ => exact h

theorem Resuming.Sound.ofRetaking {stage : Resuming} {ids resumed : List String}
    (h : stage.Sound v caseId) : (Operation.ofRetaking caseId ids resumed stage).Sound v := by
  cases stage with
  | ended outcome => cases outcome <;> trivial
  | _ => exact h

/-- A step of an operation does no more than it may, and leaves it with what it relies on. -/
theorem Operation.Sound.goOn {op : Operation} (h : op.Sound v) :
    Changes v (v.goOn op).1 ∧ (v.goOn op).2.Sound (v.goOn op).1 := by
  have hsame : Changes v v := .stirred (.of_same rfl rfl)
  have hreport : Changes v v.reportSweep := .stirred (.of_same rfl rfl)
  -- A start and a resumption may join a case to the registry; all else only stirs what is there.
  cases op with
  | called c =>
      cases c with
      | start asked name version payload =>
          simp only [Service.goOn]
          cases hstart : v.start asked name version payload with
          | error fault => exact ⟨hsame, trivial⟩
          | ok out =>
              rcases out with ⟨v', caseId⟩
              rcases of_start hstart with ⟨-, hnew, rfl⟩
              exact ⟨.joined (isRunning_of_unregistered hnew) rfl, trivial⟩
      | submit caseId decision =>
          simp only [Service.goOn]
          cases hsubmit : v.submit caseId decision with
          | error fault => exact ⟨hsame, trivial⟩
          | ok out => exact ⟨.stirred (stirred_submit hsubmit), trivial⟩
      | cancel caseId =>
          simp only [Service.goOn]
          cases hcancel : v.cancel caseId with
          | error fault => exact ⟨hsame, trivial⟩
          | ok v' => exact ⟨.stirred (stirred_cancel hcancel), trivial⟩
      | resume caseId =>
          have hchecking : Resuming.checking.Sound v caseId := trivial
          exact ⟨hchecking.resumeOn.1, hchecking.resumeOn.2.ofResuming⟩
      | resumeAll => exact ⟨hsame, trivial⟩
  | resuming caseId stage =>
      have hstage := Resuming.Sound.resumeOn h
      exact ⟨hstage.1, hstage.2.ofResuming⟩
  | sweeping ids resumed =>
      cases ids with
      | nil => exact ⟨hreport, trivial⟩
      | cons id ids =>
          simp only [Service.goOn]
          split
          · exact ⟨hsame, trivial⟩
          · exact ⟨hsame, trivial⟩
  | reading caseId ids resumed =>
      simp only [Service.goOn]
      cases hload : v.host.ledger.journal.load caseId with
      | error fault => exact ⟨hreport, trivial⟩
      | ok entries =>
          dsimp only
          split
          · exact ⟨hsame, trivial⟩
          · exact ⟨hsame, trivial⟩
  | retaking caseId stage ids resumed =>
      have hstage := Resuming.Sound.resumeOn h
      exact ⟨hstage.1, hstage.2.ofRetaking⟩
  | ended answer => exact ⟨hsame, trivial⟩

namespace Situation

/-- What holds at any time, in the midst of operations as well. -/
structure Coherent (s : Situation) : Prop where
  service : s.service.Coherent
  operation : s.operation.Sound s.service

/-- Each beat changes the service within its rules and keeps it coherent. -/
theorem Coherent.react (h : s.Coherent) (e : Beat) :
    Changes s.service (s.react e).service ∧ (s.react e).Coherent := by
  cases e with
  | call c =>
      have hsame : Changes s.service s.service := .stirred (.of_same rfl rfl)
      simp only [Situation.react]
      split
      · exact ⟨hsame, h.service, trivial⟩
      · exact ⟨hsame, h⟩
  | goOn =>
      have hchanges := h.operation.goOn
      exact ⟨hchanges.1, h.service.changes hchanges.1, hchanges.2⟩
  | stir o =>
      have hstirred := stirred_stir s.service o
      exact ⟨.stirred hstirred, h.service.stirred hstirred, h.operation.stirred hstirred⟩

/-- So does any number of beats. -/
theorem Coherent.run (h : s.Coherent) (es : List Beat) : (s.run es).Coherent := by
  induction es generalizing s with
  | nil => exact h
  | cons e es ih => exact ih (h.react e).2

end Situation

/-! ## Staying registered -/

/-- A finished execution stays finished. -/
theorem Changes.finished (h : Changes v v') (hx : v.host.execution? i = some x)
    (finished : x.isFinished = true) :
    ∃ y, v'.host.execution? i = some y ∧ y.isFinished = true := by
  cases h with
  | stirred hstirred =>
      rcases hstirred.onward i x hx with ⟨y, hy, honward⟩
      exact ⟨y, hy, honward.finished finished⟩
  | joined free own => exact ⟨x, execution?_join hx _ _, finished⟩

/-- A case keeps its place, unless its execution is finished. -/
theorem Changes.place (h : Changes v v') (coherent : v.Coherent) (hplace : v.place? id = some i) :
    ∃ j, v'.place? id = some j ∧
      (j = i ∨ ∃ x, v'.host.execution? i = some x ∧ x.isFinished = true) := by
  cases h with
  | stirred hstirred => exact ⟨i, (hstirred.place id).trans hplace, .inl rfl⟩
  | @joined caseId x free own =>
      by_cases hid : id = caseId
      · subst hid
        rcases coherent.own id i hplace with ⟨y, hy, -⟩
        have hfinished : y.isFinished = true := by
          simpa [isRunning, execution?, hplace, hy] using free
        exact ⟨_, place?_join_self v id x, .inr ⟨y, execution?_join hy id x, hfinished⟩⟩
      · exact ⟨i, (place?_join_of_ne hid x).trans hplace, .inl rfl⟩

theorem Situation.Coherent.finished (h : s.Coherent) (es : List Beat)
    (hx : s.service.host.execution? i = some x) (finished : x.isFinished = true) :
    ∃ y, (s.run es).service.host.execution? i = some y ∧ y.isFinished = true := by
  induction es generalizing s x with
  | nil => exact ⟨x, hx, finished⟩
  | cons e es ih =>
      have hreact := h.react e
      rcases hreact.1.finished hx finished with ⟨y, hy, hyfinished⟩
      exact ih hreact.2 hy hyfinished

/-- A case keeps its place until its execution is finished. -/
theorem Situation.Coherent.place (h : s.Coherent) (es : List Beat)
    (hplace : s.service.place? id = some i) :
    ∃ j, (s.run es).service.place? id = some j ∧
      (j = i ∨ ∃ x, (s.run es).service.host.execution? i = some x ∧ x.isFinished = true) := by
  induction es generalizing s i with
  | nil => exact ⟨i, hplace, .inl rfl⟩
  | cons e es ih =>
      have hreact := h.react e
      rcases hreact.1.place h.service hplace with ⟨j, hj, rfl | ⟨x, hx, hfinished⟩⟩
      · exact ih hreact.2 hj
      · -- Whoever replaces it later, the execution of before stays finished.
        rcases ih hreact.2 hj with ⟨k, hk, -⟩
        exact ⟨k, hk, .inr (hreact.2.finished es hx hfinished)⟩

/-! ## Operations on one case -/

/-- Whether an operation is about one case and has not succeeded. -/
def Operation.isAttempt : Operation → Bool
  | .called .resumeAll => false
  | .called _ | .resuming _ _ | .ended (.error _) => true
  | _ => false

def Operation.HasSucceeded (op : Operation) : Prop :=
  ∃ ids, op = .ended (.ok ids)

/-- A resumption succeeds, or leaves the service as it was. -/
theorem attempt_resumeOn (v : Service) (caseId : String) (stage : Resuming) :
    (Operation.ofResuming caseId (v.resumeOn caseId stage).2).HasSucceeded ∨
      (v.resumeOn caseId stage).1 = v ∧
        (Operation.ofResuming caseId (v.resumeOn caseId stage).2).isAttempt = true := by
  cases stage with
  | checking =>
      refine .inr ⟨rfl, ?_⟩
      simp only [resumeOn]
      split <;> rfl
  | loading =>
      -- The execution is rebuilt, but not yet registered.
      right
      simp only [resumeOn]
      split
      · exact ⟨rfl, rfl⟩
      · exact ⟨rfl, rfl⟩
  | joining x => exact .inl ⟨_, rfl⟩
  | ended outcome =>
      cases outcome with
      | ok u => exact .inl ⟨_, rfl⟩
      | error fault => exact .inr ⟨rfl, rfl⟩

/-- A step on one case succeeds, or changes nothing. -/
theorem attempt_goOn {op : Operation} (h : op.isAttempt = true) :
    (v.goOn op).2.HasSucceeded ∨ (v.goOn op).1 = v ∧ (v.goOn op).2.isAttempt = true := by
  -- A sweep is no attempt: some cases may have been resumed when it fails.
  cases op with
  | called c =>
      cases c with
      | start asked name version payload =>
          simp only [goOn]
          split
          · exact .inl ⟨_, rfl⟩
          · exact .inr ⟨rfl, rfl⟩
      | submit caseId decision =>
          simp only [goOn]
          cases v.submit caseId decision with
          | ok out => exact .inl ⟨_, rfl⟩
          | error fault => exact .inr ⟨rfl, rfl⟩
      | cancel caseId =>
          simp only [goOn]
          cases v.cancel caseId with
          | ok v' => exact .inl ⟨_, rfl⟩
          | error fault => exact .inr ⟨rfl, rfl⟩
      | resume caseId => exact attempt_resumeOn v caseId .checking
      | resumeAll => cases h
  | resuming caseId stage => exact attempt_resumeOn v caseId stage
  | ended answer =>
      cases answer with
      | ok ids => cases h
      | error fault => exact .inr ⟨rfl, rfl⟩
  | sweeping ids resumed => cases h
  | reading caseId ids resumed => cases h
  | retaking caseId stage ids resumed => cases h

namespace Situation

/-- An operation that has succeeded does nothing more. -/
theorem succeeded_run (h : s.operation.HasSucceeded) (inner : ∀ e ∈ es, e.isInner = true) :
    (s.run es).operation = s.operation := by
  induction es generalizing s with
  | nil => rfl
  | cons e es ih =>
      have hrest : ∀ e ∈ es, e.isInner = true :=
        fun e he => inner e (List.mem_cons_of_mem _ he)
      have hsame : (s.react e).operation = s.operation := by
        rcases h with ⟨ids, hids⟩
        cases e with
        | call c => cases inner _ List.mem_cons_self
        | goOn => simp [react, hids, goOn]
        | stir o => rfl
      exact (ih (hsame ▸ h) hrest).trans hsame

/-- An operation on one case that does not succeed changes nothing in the meantime. -/
theorem attempt_run (h : s.operation.isAttempt = true) (inner : ∀ e ∈ es, e.isInner = true) :
    (s.run es).operation.HasSucceeded ∨
      (s.run es).service = s.service.after (es.filterMap Beat.stir?) := by
  -- Along the beats until the operation has succeeded, after which it does not move.
  induction es generalizing s with
  | nil => exact .inr rfl
  | cons e es ih =>
      have hrest : ∀ e ∈ es, e.isInner = true :=
        fun e he => inner e (List.mem_cons_of_mem _ he)
      cases e with
      | call c => cases inner _ List.mem_cons_self
      | stir o => exact ih (s := s.react (.stir o)) h hrest
      | goOn =>
          rcases attempt_goOn (v := s.service) h with hdone | ⟨hsame, hattempt⟩
          · left
            have hreact : (s.react .goOn).operation.HasSucceeded := hdone
            rw [run_cons, succeeded_run hreact hrest]
            exact hreact
          · rcases ih (s := s.react .goOn) hattempt hrest with hdone | hstill
            · exact .inl hdone
            · right
              have hservice : (s.react .goOn).service = s.service := hsame
              rw [run_cons, hstill, hservice]
              rfl

end Situation

theorem registered_after (v : Service) (os : List Stir) :
    (v.after os).registered = v.registered := by
  induction os generalizing v with
  | nil => rfl
  | cons o os ih => exact (ih (v.stir o)).trans (stirred_stir v o).registered

/-! ## All cases -/

/-- The cases that an operation on all of them has resumed. -/
def Operation.resumed : Operation → List String
  | .sweeping _ resumed | .reading _ _ resumed | .retaking _ _ _ resumed | .ended (.ok resumed) =>
      resumed
  | _ => []

def Operation.current? : Operation → Option String
  | .reading caseId _ _ | .retaking caseId _ _ _ => some caseId
  | _ => none

def Operation.isSweep : Operation → Bool
  | .called .resumeAll | .sweeping _ _ | .reading _ _ _ | .retaking _ _ _ _ | .ended _ => true
  | _ => false

/-- What was registered when the resumption of all cases began is left alone by it. -/
structure Spares (v₀ v : Service) (op : Operation) : Prop where
  sweep : op.isSweep = true
  place : ∀ id, v₀.registered.contains id = true → v.place? id = v₀.place? id
  resumed : ∀ id, v₀.registered.contains id = true → id ∉ op.resumed
  current : ∀ id, op.current? = some id → v₀.registered.contains id = false

theorem contains_eq_isSome_place (v : Service) (id : String) :
    v.registered.contains id = (v.place? id).isSome :=
  Table.contains_eq_isSome v.registered id

/-- A case that a sweep finds new was new when the sweep began. -/
theorem Spares.unregistered {op : Operation} (h : Spares v₀ v op)
    (new : v.registered.contains id = false) : v₀.registered.contains id = false := by
  apply Bool.eq_false_iff.2
  intro hknown
  rw [contains_eq_isSome_place, h.place id hknown, ← contains_eq_isSome_place, hknown] at new
  cases new

theorem Spares.stirred {op : Operation} (h : Spares v₀ v op) (hv : Stirred v v') :
    Spares v₀ v' op where
  sweep := h.sweep
  place id hid := (hv.place id).trans (h.place id hid)
  resumed := h.resumed
  current := h.current

/-- The resumption of a case that was not registered concerns no other. -/
theorem Spares.retake {ids resumed : List String} {stage : Resuming}
    (h : Spares v₀ v (.retaking caseId stage ids resumed)) :
    Spares v₀ (v.resumeOn caseId stage).1
      (.ofRetaking caseId ids resumed (v.resumeOn caseId stage).2) := by
  have hnew : v₀.registered.contains caseId = false := h.current caseId rfl
  have hstage : ∀ next, Spares v₀ v (.retaking caseId next ids resumed) :=
    fun next => ⟨rfl, h.place, h.resumed, h.current⟩
  have hover : Spares v₀ v (.sweeping ids resumed) := by
    refine ⟨rfl, h.place, h.resumed, ?_⟩
    intro id hid
    cases hid
  -- Only `joining` sets a place, and that of a case which had none.
  cases stage with
  | checking =>
      simp only [resumeOn]
      split
      · exact hover
      · exact hstage .loading
  | loading =>
      simp only [resumeOn]
      split
      · exact hover
      · exact hstage (.joining _)
  | joining x =>
      constructor
      · rfl
      · intro id hid
        have hne : id ≠ caseId := by
          rintro rfl
          rw [hid] at hnew
          cases hnew
        exact (place?_join_of_ne hne x).trans (h.place id hid)
      · intro id hid hmem
        rcases List.mem_append.1 hmem with hold | hlast
        · exact h.resumed id hid hold
        · cases List.mem_singleton.1 hlast
          rw [hid] at hnew
          cases hnew
      · intro id hid
        cases hid
  | ended outcome =>
      cases outcome with
      | ok u =>
          refine ⟨rfl, h.place, ?_, ?_⟩
          · intro id hid hmem
            rcases List.mem_append.1 hmem with hold | hlast
            · exact h.resumed id hid hold
            · cases List.mem_singleton.1 hlast
              rw [hid] at hnew
              cases hnew
          · intro id hid
            cases hid
      | error fault => exact hover

/-- The sweep spares what was registered before it. -/
theorem Spares.goOn {op : Operation} (h : Spares v₀ v op) :
    Spares v₀ (v.goOn op).1 (v.goOn op).2 := by
  have hreport : Stirred v v.reportSweep := .of_same rfl rfl
  cases op with
  | called c =>
      cases c with
      | resumeAll =>
          refine ⟨rfl, h.place, fun id _ => List.not_mem_nil, ?_⟩
          intro id hid
          cases hid
      | _ => cases h.sweep
  | resuming caseId stage => cases h.sweep
  | sweeping ids resumed =>
      cases ids with
      | nil => exact ⟨rfl, (h.stirred hreport).place, h.resumed, h.current⟩
      | cons caseId ids =>
          cases hknown : v.registered.contains caseId with
          | true =>
              simp only [Service.goOn, hknown, if_true]
              exact ⟨rfl, h.place, h.resumed, h.current⟩
          | false =>
              -- What is not registered now was not registered before the sweep.
              simp only [Service.goOn, hknown, Bool.false_eq_true, if_false]
              refine ⟨rfl, h.place, h.resumed, ?_⟩
              intro id hid
              cases hid
              exact h.unregistered hknown
  | reading caseId ids resumed =>
      simp only [Service.goOn]
      cases hload : v.host.ledger.journal.load caseId with
      | error fault =>
          refine ⟨rfl, (h.stirred hreport).place, fun id _ => List.not_mem_nil, ?_⟩
          intro id hid
          cases hid
      | ok entries =>
          dsimp only
          split
          · refine ⟨rfl, h.place, h.resumed, ?_⟩
            intro id hid
            cases hid
          · exact ⟨rfl, h.place, h.resumed, h.current⟩
  | retaking caseId stage ids resumed => exact h.retake
  | ended answer => exact h

theorem Spares.run (h : Spares v₀ s.service s.operation) (inner : ∀ e ∈ es, e.isInner = true) :
    Spares v₀ (s.run es).service (s.run es).operation := by
  induction es generalizing s with
  | nil => exact h
  | cons e es ih =>
      have hrest : ∀ e ∈ es, e.isInner = true :=
        fun e he => inner e (List.mem_cons_of_mem _ he)
      cases e with
      | call c => cases inner _ List.mem_cons_self
      | goOn => exact ih (s := s.react .goOn) h.goOn hrest
      | stir o => exact ih (s := s.react (.stir o)) (h.stirred (stirred_stir s.service o)) hrest

/-! ## Safety -/

/-- What can be relied on at any time, however operations and executions have gone on before. -/
structure Situation.Safe (s : Situation) : Prop where
  /-- Of the executions of one case at most one is not finished. -/
  alone : ∀ i j x y, s.service.host.execution? i = some x → s.service.host.execution? j = some y →
    x.caseId = y.caseId → x.isFinished = false → y.isFinished = false → i = j
  /-- A case stays registered, and with the same execution until that is finished. -/
  stays : ∀ es id i, s.service.place? id = some i → ∃ j, (s.run es).service.place? id = some j ∧
    (j = i ∨ ∃ x, (s.run es).service.host.execution? i = some x ∧ x.isFinished = true)
  /-- A case that runs is not resumed. -/
  resume_running : ∀ id, s.operation = .called (.resume id) → s.service.isRunning id = true →
    s.react .goOn = ⟨s.service, .ended (.error (.caseAlreadyExists id))⟩
  /-- A case that is registered is passed over when all are resumed. -/
  resumeAll_registered : s.operation = .called .resumeAll → ∀ es, (∀ e ∈ es, e.isInner = true) →
    ∀ id, s.service.registered.contains id = true →
      (s.run es).service.place? id = s.service.place? id ∧
        ∀ ids, (s.run es).operation = .ended (.ok ids) → id ∉ ids
  /-- A case that is registered is not started, whatever has become of it. -/
  start_registered : ∀ asked name version payload,
    s.operation = .called (.start asked name version payload) →
      s.service.registered.contains
          (asked.getD (generatedId s.service.host.readings.freshId)) = true →
        s.react .goOn = ⟨s.service, .ended (.error (.caseAlreadyExists
          (asked.getD (generatedId s.service.host.readings.freshId))))⟩
  /-- An operation on one case that fails leaves nothing behind but what went on without it. -/
  harmless : ∀ c, s.operation = .called c → c ≠ .resumeAll → ∀ es,
    (∀ e ∈ es, e.isInner = true) → ∀ fault, (s.run es).operation = .ended (.error fault) →
      (s.run es).service = s.service.after (es.filterMap Beat.stir?) ∧
        (s.run es).service.registered = s.service.registered

/-- A coherent service is safe. -/
theorem Situation.Coherent.safe (h : s.Coherent) : s.Safe where
  alone i j x y hx hy hcase hxrunning hyrunning := by
    have hi := h.service.found i x hx hxrunning
    have hj := h.service.found j y hy hyrunning
    rw [hcase] at hi
    exact Option.some.inj (hi.symm.trans hj)
  stays es id i hplace := h.place es hplace
  resume_running id hcalled hrunning := by
    simp [Situation.react, hcalled, goOn, resumeOn, hrunning, Operation.ofResuming, Except.map]
  resumeAll_registered hcalled es inner id hknown := by
    have hbegun : Spares s.service s.service s.operation := by
      rw [hcalled]
      refine ⟨rfl, fun id _ => rfl, fun id _ => List.not_mem_nil, ?_⟩
      intro id hid
      cases hid
    have hspares := hbegun.run inner
    refine ⟨hspares.place id hknown, ?_⟩
    intro ids hids
    have hresumed := hspares.resumed id hknown
    rwa [hids] at hresumed
  start_registered asked name version payload hcalled hknown := by
    simp [Situation.react, hcalled, goOn, start, hknown]
  harmless c hcalled hone es inner fault hfailed := by
    -- All calls but a sweep are attempts: they succeed, or nothing has changed.
    have hattempt : s.operation.isAttempt = true := by
      rw [hcalled]
      cases c with
      | resumeAll => exact absurd rfl hone
      | _ => rfl
    rcases Situation.attempt_run hattempt inner with ⟨ids, hdone⟩ | hsame
    · rw [hfailed] at hdone
      cases hdone
    · exact ⟨hsame, hsame ▸ registered_after s.service _⟩

end Service

open Service

def Service.Situation.opening (engine : Engine) (journal : Journal) (readings : Readings) :
    Situation where
  service := .new (.new engine journal readings)

/-- The registry is safe whatever operations there were, and whatever their executions, those who
hold on to one and the outside world did before, after and in the midst of them. -/
theorem registry_safe (engine : Engine) (journal : Journal) (readings : Readings)
    (es : List Service.Beat) : ((Situation.opening engine journal readings).run es).Safe := by
  have hopening : (Situation.opening engine journal readings).Coherent :=
    ⟨coherent_new engine journal readings, trivial⟩
  exact (hopening.run es).safe

example : ((Situation.opening (.approving none) .empty default).run
    [.call (.start (some "case-1") "approval" "1" .null), .goOn,
      .stir (.act 0 (.request .cancel)),
      .call (.start (some "case-1") "approval" "1" .null), .goOn]).operation =
    .ended (.error (.caseAlreadyExists "case-1")) := rfl

end Casework
