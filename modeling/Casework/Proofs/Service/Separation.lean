import Casework.Proofs.Execution.Locality
import Casework.Proofs.Service.Registry
import Mathlib.Data.List.Count

/-!
# Separation — cases do not notice each other

All cases of a service share its registry, its engine and its journal.  Each event below is about one
case, and comes with what the outside world shows at that time.

* `Service.Event`, `Service.Answer`, `Service.respond` : what is asked about a case and what happens
  to its executions, with what comes of it;
* `Affairs`, `Affairs.run` : events one after the other, resumptions step by step;
* `Service.Proper` : the invariant, by which no execution is found or writes where it does not belong;
* `Service.Touches` : all that an event does to a service;
* `Service.Alike` : services that are the same to those who ask about one case;
* `cases_separate` : without all that is about another case, a case would have been the same, and its
  answers, too.
-/

namespace Casework

/-! ## Chosen entries of a list -/

section Chosen

variable {α : Type} {p : α → Bool} {xs : List α} {x y : α} {i j n : Nat}

/-- An entry that is chosen comes after as many as are chosen before it. -/
theorem filter_countPBefore (hx : xs[i]? = some x) (chosen : p x = true) :
    (xs.filter p)[xs.countPBefore p i]? = some x := by
  induction xs generalizing i with
  | nil => simp at hx
  | cons z zs ih =>
      cases i with
      | zero =>
          cases hx
          simp [chosen]
      | succ i =>
          have hrest := ih (i := i) (by simpa using hx)
          by_cases hz : p z = true
          · simpa [hz] using hrest
          · simpa [hz] using hrest

/-- What stands at the place of the nth element is the nth of those that are chosen. -/
theorem getElem?_findIdxNth (p : α → Bool) (xs : List α) (n : Nat) :
    xs[xs.findIdxNth p n]? = (xs.filter p)[n]? := by
  induction xs generalizing n with
  | nil => simp
  | cons z zs ih =>
      by_cases hz : p z = true
      · cases n with
        | zero => simp [hz]
        | succ n => simpa [hz] using ih n
      · simpa [List.findIdxNth_cons_of_neg (Bool.eq_false_iff.2 hz), hz] using ih n

theorem filter_set_chosen (hx : xs[i]? = some x) (before : p x = true) (after : p y = true) :
    (xs.set i y).filter p = (xs.filter p).set (xs.countPBefore p i) y := by
  induction xs generalizing i with
  | nil => simp at hx
  | cons z zs ih =>
      cases i with
      | zero =>
          cases hx
          simp [before, after]
      | succ i =>
          have hrest := ih (i := i) (by simpa using hx)
          by_cases hz : p z = true
          · simp [hz, hrest]
          · simp [hz, hrest]

/-- A change among those that are not chosen is not seen. -/
theorem filter_set_other (hx : xs[i]? = some x) (before : p x = false) (after : p y = false) :
    (xs.set i y).filter p = xs.filter p := by
  induction xs generalizing i with
  | nil => simp at hx
  | cons z zs ih =>
      cases i with
      | zero =>
          cases hx
          simp [before, after]
      | succ i =>
          have hrest := ih (i := i) (by simpa using hx)
          by_cases hz : p z = true
          · simp [hz, hrest]
          · simp [hz, hrest]

theorem countPBefore_set (hx : xs[i]? = some x) (same : p y = p x) :
    (xs.set i y).countPBefore p j = xs.countPBefore p j := by
  induction xs generalizing i j with
  | nil => simp at hx
  | cons z zs ih =>
      cases j with
      | zero => simp
      | succ j =>
          cases i with
          | zero =>
              cases hx
              simp [same]
          | succ i =>
              have hrest := ih (i := i) (j := j) (by simpa using hx)
              simp [hrest]

/-- What comes later is not counted. -/
theorem countPBefore_append (h : j ≤ xs.length) (ys : List α) :
    (xs ++ ys).countPBefore p j = xs.countPBefore p j := by
  rw [List.countPBefore_eq_countP_take, List.countPBefore_eq_countP_take,
    List.take_append_of_le_length h]

end Chosen

namespace Service

/-! ## Events -/

/-- What happens around one of the executions of a case. -/
inductive Incident where
  /-- Its task takes its next atomic step, if it can. -/
  | task
  /-- Its task, which was stopped, is dropped. -/
  | drop
  /-- Somebody who holds on to it asks something. -/
  | request (q : Execution.Request)

def Incident.act (g : Engine) (r : Readings) : Incident → Execution.Act
  | .task => .task g r
  | .drop => .drop
  | .request q => .request q

/-- What a service is asked about one case, and what goes on around the executions of the case. -/
inductive Event where
  | start (asked : Option String) (name version : String) (payload : Value)
  | submit (caseId decision : String)
  | cancel (caseId : String)
  /-- The resumption of a case takes its next step, the first one if none is underway. -/
  | resume (caseId : String)
  | look (caseId : String)
  | status (caseId : String)
  /-- Somebody who waits for the end of a case looks whether it has come. -/
  | await (caseId : String)
  /-- Something happens around one of the executions of a case, counted as they were started. -/
  | around (caseId : String) (n : Nat) (incident : Incident)

def Event.caseId (r : Readings) : Event → String
  | .start asked _ _ _ => asked.getD (generatedId r.freshId)
  | .submit caseId _ | .cancel caseId | .resume caseId | .look caseId | .status caseId
  | .await caseId | .around caseId _ _ => caseId

inductive Answer where
  | started (outcome : Except Error String)
  | submitted (outcome : Except Error Receipt)
  | cancelled (outcome : Except Error Unit)
  /-- How far the resumption has come. -/
  | resuming (stage : Resuming)
  | published (outcome : Except Error (Option Case))
  | status (outcome : Except Error ExecutionStatus)
  /-- What the case came to, once it has ended. -/
  | completion (outcome : Except Error (Option (Except Error Case)))
  /-- What an execution answered, if it was asked. -/
  | around (reply : Option Execution.Reply)

def Incident.reply (p : Execution × Ledger) : Incident → Option Execution.Reply
  | .request q => some (Execution.handle p q).2
  | _ => none

/-- The execution of a case that was started after so many others of it. -/
def nth (v : Service) (caseId : String) (n : Nat) : Nat :=
  v.host.executions.findIdxNth (fun x => x.caseId == caseId) n

def became (v : Service) (i : Nat) (p : Execution × Ledger) : Service :=
  { v with host := { v.host.put i p.1 with ledger := p.2 } }

def showing (v : Service) (r : Readings) : Service :=
  { v with host := { v.host with readings := r } }

def Resuming.begun : Resuming → Resuming
  | .ended _ => .checking
  | stage => stage

/-- What comes of an event, for the service and for the resumption of the case, and the answer. -/
def respond (v : Service) (stage : Resuming) : Event → Service × Resuming × Answer
  | .start asked name version payload =>
      match v.start asked name version payload with
      | .ok (v', caseId) => (v', stage, .started (.ok caseId))
      | .error e => (v, stage, .started (.error e))
  | .submit caseId decision =>
      match v.submit caseId decision with
      | .ok (v', receipt) => (v', stage, .submitted (.ok receipt))
      | .error e => (v, stage, .submitted (.error e))
  | .cancel caseId =>
      match v.cancel caseId with
      | .ok v' => (v', stage, .cancelled (.ok ()))
      | .error e => (v, stage, .cancelled (.error e))
  | .resume caseId =>
      -- A resumption goes one stage on; other events may come before the next.
      let (v', stage') := v.resumeOn caseId stage.begun
      (v', stage', .resuming stage')
  | .look caseId => (v, stage, .published (v.caseById caseId))
  | .status caseId => (v, stage, .status (v.status caseId))
  | .await caseId =>
      (v, stage, .completion ((v.execution caseId).map fun x =>
        if x.isFinished then some (completionOf caseId x) else none))
  | .around caseId n incident =>
      match v.host.execution? (v.nth caseId n) with
      | none => (v, stage, .around none)
      | some x =>
          (v.became (v.nth caseId n)
              (Execution.act (x, v.host.ledger) (incident.act v.host.engine v.host.readings)),
            stage, .around (incident.reply (x, v.host.ledger)))

/-! ## The invariant -/

/-- What holds of a service at any time: every case is registered with an execution of its own, and
every execution writes to the journal of its case. -/
structure Proper (v : Service) : Prop where
  own : ∀ id i, v.place? id = some i → ∃ x, v.host.execution? i = some x ∧ x.caseId = id
  writes : ∀ x ∈ v.host.executions, x.context.log.caseId = x.caseId

/-- Whether an execution is about a case, and writes to its journal. -/
def Belongs (caseId : String) (x : Execution) : Prop :=
  x.caseId = caseId ∧ x.context.log.caseId = caseId

/-- What is about to be registered for a case is about it. -/
def Resuming.Belongs (caseId : String) (stage : Resuming) : Prop :=
  ∀ x, stage = .joining x → Service.Belongs caseId x

/-- All that an event about a case does to a service. -/
inductive Touches (caseId : String) (v : Service) : Service → Prop
  | nothing : Touches caseId v v
  | joined {x : Execution} (own : Belongs caseId x) : Touches caseId v (v.join caseId x)
  | became {i : Nat} {x : Execution} {p : Execution × Ledger} (hx : v.host.execution? i = some x)
      (own : x.caseId = caseId) (belongs : Belongs caseId p.1)
      (others : ∀ other, other ≠ caseId →
        p.2.journal.cell other = v.host.ledger.journal.cell other) :
      Touches caseId v (v.became i p)

variable {v v' w : Service} {a caseId : String} {x y : Execution} {i j n : Nat}
variable {r : Readings} {e : Event} {stage : Resuming}

theorem belongs_fresh (caseId name version : String) (payload : Value) (now : Instant) :
    Belongs caseId (.fresh caseId name version payload now) :=
  ⟨rfl, rfl⟩

theorem belongs_of_resume {j : Journal} (h : Execution.resume j caseId = .ok x) :
    Belongs caseId x := by
  rcases Execution.of_resume h with ⟨c, name, version, payload, t, entries, -, rfl⟩
  exact ⟨rfl, rfl⟩

/-- Whoever is registered under a case writes to its journal. -/
theorem Proper.belongs (h : Proper v) (hx : v.host.execution? i = some x)
    (own : x.caseId = caseId) : Belongs caseId x :=
  ⟨own, (h.writes x (List.mem_of_getElem? hx)).trans own⟩

/-- A new service has nothing that could be out of place. -/
theorem proper_new (engine : Engine) (journal : Journal) (readings : Readings) :
    Proper (.new (.new engine journal readings)) where
  own id i h := by cases h
  writes x hx := by cases hx

theorem Proper.showing (h : Proper v) (r : Readings) : Proper (v.showing r) :=
  ⟨h.own, h.writes⟩

/-- What was done about one case leaves everything in its place. -/
theorem Proper.touched (h : Proper v) (ht : Touches caseId v v') : Proper v' := by
  -- What was joined or has changed belongs to the case that was touched; the places of others stay.
  cases ht with
  | nothing => exact h
  | @joined x own =>
      constructor
      · intro id i hplace
        by_cases hid : id = caseId
        · subst hid
          rw [place?_join_self] at hplace
          cases hplace
          exact ⟨x, List.getElem?_concat_length, own.1⟩
        · rw [place?_join_of_ne hid] at hplace
          rcases h.own id i hplace with ⟨y, hy, hcase⟩
          exact ⟨y, execution?_join hy caseId x, hcase⟩
      · intro y hy
        rcases List.mem_append.1 hy with hold | hlast
        · exact h.writes y hold
        · rw [List.mem_singleton.1 hlast]
          exact own.2.trans own.1.symm
  | @became i x p hx own belongs others =>
      have hget : v.host.executions[i]? = some x := hx
      have hlt : i < v.host.executions.length := (List.getElem?_eq_some_iff.1 hget).1
      constructor
      · intro id j hplace
        rcases h.own id j hplace with ⟨y, hy, hcase⟩
        by_cases hij : i = j
        · subst hij
          cases hx.symm.trans hy
          exact ⟨p.1, List.getElem?_set_self hlt, belongs.1.trans (own.symm.trans hcase)⟩
        · exact ⟨y, (List.getElem?_set_ne hij).trans hy, hcase⟩
      · intro y hy
        rcases List.mem_or_eq_of_mem_set hy with hold | rfl
        · exact h.writes y hold
        · exact belongs.2.trans belongs.1.symm

/-! ## What events do -/

/-- A resumption does no more than it may, stage by stage. -/
theorem touches_resumeOn (belongs : stage.Belongs caseId) :
    Touches caseId v (v.resumeOn caseId stage).1 ∧
      (v.resumeOn caseId stage).2.Belongs caseId := by
  cases stage with
  | checking =>
      refine ⟨.nothing, ?_⟩
      intro x hx
      simp only [resumeOn] at hx
      split at hx <;> cases hx
  | loading =>
      cases hrebuilt : Execution.resume v.host.ledger.journal caseId with
      | error fault =>
          simp only [resumeOn, hrebuilt]
          exact ⟨.nothing, fun x hx => by cases hx⟩
      | ok y =>
          simp only [resumeOn, hrebuilt]
          refine ⟨.nothing, ?_⟩
          intro x hx
          cases hx
          exact belongs_of_resume hrebuilt
  | joining x => exact ⟨.joined (belongs x rfl), fun y hy => by cases hy⟩
  | ended outcome => exact ⟨.nothing, belongs⟩

theorem belongs_begun (belongs : stage.Belongs caseId) : stage.begun.Belongs caseId := by
  cases stage with
  | ended outcome =>
      intro x hx
      cases hx
  | _ => exact belongs

theorem foreign_act (g : Engine) (r : Readings) (incident : Incident) :
    (incident.act g r).isForeign = false := by
  cases incident <;> rfl

/-- What one execution does by itself touches its case only. -/
theorem touches_act (proper : Proper v) (hx : v.host.execution? i = some x)
    (own : x.caseId = caseId) {act : Execution.Act} (ownAct : act.isForeign = false) :
    Touches caseId v (v.became i (Execution.act (x, v.host.ledger) act)) := by
  have hbelongs := proper.belongs hx own
  refine .became hx own ⟨?_, ?_⟩ ?_
  · exact (Execution.caseId_act _ _).trans own
  · exact (Execution.log_caseId_act _ _).trans hbelongs.2
  · intro other hne
    exact Execution.cell_act _ ownAct (by rwa [hbelongs.2])

/-- What the case of an entry is told by its place among all. -/
theorem caseId_of_nth (hx : v.host.execution? (v.nth caseId n) = some x) : x.caseId = caseId := by
  have hget : v.host.executions[v.nth caseId n]? = some x := hx
  rw [nth, getElem?_findIdxNth] at hget
  have hmem : x ∈ v.host.executions.filter fun x => x.caseId == caseId := List.mem_of_getElem? hget
  simpa using (List.mem_filter.1 hmem).2

theorem touches_submit {decision : String} {receipt : Receipt} (proper : Proper v)
    (h : v.submit caseId decision = .ok (v', receipt)) : Touches caseId v v' := by
  rcases of_submit h with ⟨i, x, x', disposition, hplace, hx, hdeliver, -, rfl⟩
  rcases proper.own caseId i hplace with ⟨y, hy, hcase⟩
  cases hx.symm.trans hy
  have hbelongs := proper.belongs hx hcase
  rcases Execution.of_deliver hdeliver with ⟨-, inbox, rfl⟩
  exact .became (p := (x.withInbox inbox, v.host.ledger.report _)) hx hcase hbelongs
    (fun other _ => rfl)

theorem touches_cancel (proper : Proper v) (h : v.cancel caseId = .ok v') :
    Touches caseId v v' := by
  rcases of_cancel h with ⟨i, hplace, ⟨-, rfl⟩ | ⟨x, hx, rfl⟩⟩
  · exact .nothing
  · rcases proper.own caseId i hplace with ⟨y, hy, hcase⟩
    cases hx.symm.trans hy
    have hbelongs := proper.belongs hx hcase
    refine .became (p := (x.cancel, v.host.ledger)) hx hcase ?_ (fun other _ => rfl)
    rw [Execution.cancel_eq]
    exact hbelongs

/-- An event does no more than it may, and what is about to be registered belongs to its case. -/
theorem touches_respond (proper : Proper v) (hcase : e.caseId v.host.readings = caseId)
    (belongs : stage.Belongs caseId) :
    Touches caseId v (v.respond stage e).1 ∧ (v.respond stage e).2.1.Belongs caseId := by
  -- A start and a resumption bring an execution of the case, all else changes one that is there.
  cases e with
  | start asked name version payload =>
      simp only [respond]
      cases hstart : v.start asked name version payload with
      | error fault => exact ⟨.nothing, belongs⟩
      | ok out =>
          rcases out with ⟨v', id⟩
          rcases of_start hstart with ⟨hid, -, rfl⟩
          have hsame : id = caseId := hid.trans hcase
          subst hsame
          exact ⟨.joined (belongs_fresh _ _ _ _ _), belongs⟩
  | submit id decision =>
      cases hcase
      simp only [respond]
      cases hsubmit : v.submit id decision with
      | error fault => exact ⟨.nothing, belongs⟩
      | ok out => exact ⟨touches_submit proper hsubmit, belongs⟩
  | cancel id =>
      cases hcase
      simp only [respond]
      cases hcancel : v.cancel id with
      | error fault => exact ⟨.nothing, belongs⟩
      | ok v' => exact ⟨touches_cancel proper hcancel, belongs⟩
  | resume id =>
      cases hcase
      exact touches_resumeOn (belongs_begun belongs)
  | look id => exact ⟨.nothing, belongs⟩
  | status id => exact ⟨.nothing, belongs⟩
  | await id => exact ⟨.nothing, belongs⟩
  | around id n incident =>
      cases hcase
      simp only [respond]
      cases hx : v.host.execution? (v.nth id n) with
      | none => exact ⟨.nothing, belongs⟩
      | some x => exact ⟨touches_act proper hx (caseId_of_nth hx) (foreign_act _ _ _), belongs⟩

/-- Resumptions of many cases keep the invariant as well. -/
theorem Proper.resumeEach (h : Proper v) (ids : List String) : Proper (v.resumeEach ids).1 := by
  induction ids generalizing v with
  | nil => exact h
  | cons id ids ih =>
      unfold Service.resumeEach
      split
      · exact ih h
      · split
        · exact h
        · split
          · exact ih h
          · split
            · exact ih h
            · next v₁ hresume =>
                rcases of_resume hresume with ⟨-, x, hrebuilt, rfl⟩
                have htouched : Touches id v (v.join id x) := .joined (belongs_of_resume hrebuilt)
                exact ih (h.touched htouched)

theorem Proper.resumeAll (h : Proper v) : Proper v.resumeAll.1 :=
  ⟨(h.resumeEach v.host.ledger.journal.caseIds).own,
    (h.resumeEach v.host.ledger.journal.caseIds).writes⟩

/-! ## What is seen of a case -/

/-- The executions of a case, in the order in which they were started. -/
def executionsOf (v : Service) (caseId : String) : List Execution :=
  v.host.executions.filter fun x => x.caseId == caseId

/-- How many executions of a case come before the one that stands at this place. -/
def rankOf (v : Service) (caseId : String) (i : Nat) : Nat :=
  v.host.executions.countPBefore (fun x => x.caseId == caseId) i

/-- Services that are the same to those who ask about a case.  Where its executions stand among
those of other cases does not matter. -/
structure Alike (caseId : String) (v w : Service) : Prop where
  engine : v.host.engine = w.host.engine
  executions : v.executionsOf caseId = w.executionsOf caseId
  registered : (v.place? caseId).map (v.rankOf caseId) = (w.place? caseId).map (w.rankOf caseId)
  cell : v.host.ledger.journal.cell caseId = w.host.ledger.journal.cell caseId

theorem Alike.refl (caseId : String) (v : Service) : Alike caseId v v :=
  ⟨rfl, rfl, rfl, rfl⟩

/-- Being alike is handed on. -/
theorem Alike.trans {u : Service} (h : Alike a v w) (h' : Alike a w u) : Alike a v u :=
  ⟨h.engine.trans h'.engine, h.executions.trans h'.executions,
    h.registered.trans h'.registered, h.cell.trans h'.cell⟩

theorem Alike.symm (h : Alike a v w) : Alike a w v :=
  ⟨h.engine.symm, h.executions.symm, h.registered.symm, h.cell.symm⟩

theorem Alike.showing (h : Alike a v w) (r : Readings) : Alike a (v.showing r) (w.showing r) :=
  ⟨h.engine, h.executions, h.registered, h.cell⟩

/-- What an event about another case does is not seen. -/
theorem alike_of_touches (proper : Proper v) (ht : Touches caseId v v') (hne : a ≠ caseId) :
    Alike a v v' := by
  -- Places shift by executions of another case, so they are counted among those of the case itself.
  cases ht with
  | nothing => exact .refl a v
  | @joined x own =>
      have hother : (x.caseId == a) = false := by simp [own.1, hne.symm]
      constructor
      · rfl
      · simp [executionsOf, Service.join, Host.spawn, List.filter_append, hother]
      · rw [place?_join_of_ne hne]
        cases hplace : v.place? a with
        | none => rfl
        | some i =>
            rcases proper.own a i hplace with ⟨y, hy, -⟩
            have hget : v.host.executions[i]? = some y := hy
            have hle : i ≤ v.host.executions.length :=
              Nat.le_of_lt (List.getElem?_eq_some_iff.1 hget).1
            exact congrArg some (countPBefore_append hle [x]).symm
      · rfl
  | @became i x p hx own belongs others =>
      have hget : v.host.executions[i]? = some x := hx
      have hbefore : (x.caseId == a) = false := by simp [own, hne.symm]
      have hafter : (p.1.caseId == a) = false := by simp [belongs.1, hne.symm]
      refine ⟨rfl, (filter_set_other hget hbefore hafter).symm, ?_, (others a hne).symm⟩
      refine congrFun (congrArg Option.map ?_) (v.place? a)
      funext j
      exact (countPBefore_set hget (hafter.trans hbefore.symm)).symm

/-! ## What is asked about a case -/

/-- The execution of a case is the same in both services, or there is none in either. -/
theorem Alike.located (h : Alike a v w) (hv : Proper v) (hw : Proper w) :
    (v.place? a = none ∧ w.place? a = none) ∨
      ∃ i j x, v.place? a = some i ∧ w.place? a = some j ∧ v.host.execution? i = some x ∧
        w.host.execution? j = some x ∧ x.caseId = a ∧ v.rankOf a i = w.rankOf a j := by
  have hregistered := h.registered
  cases hi : v.place? a with
  | none =>
      cases hj : w.place? a with
      | none => exact .inl ⟨rfl, rfl⟩
      | some j => simp [hi, hj] at hregistered
  | some i =>
      cases hj : w.place? a with
      | none => simp [hi, hj] at hregistered
      | some j =>
          have hrank : v.rankOf a i = w.rankOf a j := by simpa [hi, hj] using hregistered
          rcases hv.own a i hi with ⟨x, hx, hxcase⟩
          rcases hw.own a j hj with ⟨y, hy, hycase⟩
          have hxget : (v.executionsOf a)[v.rankOf a i]? = some x :=
            filter_countPBefore hx (by simpa using hxcase)
          have hyget : (w.executionsOf a)[w.rankOf a j]? = some y :=
            filter_countPBefore hy (by simpa using hycase)
          rw [h.executions, hrank, hyget] at hxget
          cases hxget
          exact .inr ⟨i, j, x, rfl, rfl, hx, hy, hxcase, hrank⟩

/-- The execution that is found is the same. -/
theorem Alike.execution? (h : Alike a v w) (hv : Proper v) (hw : Proper w) :
    v.execution? a = w.execution? a := by
  rcases h.located hv hw with ⟨hi, hj⟩ | ⟨i, j, x, hi, hj, hx, hy, -, -⟩
  · simp [Service.execution?, hi, hj]
  · simp [Service.execution?, hi, hj, hx, hy]

theorem Alike.contains (h : Alike a v w) : v.registered.contains a = w.registered.contains a := by
  have hsome := congrArg Option.isSome h.registered
  simpa [contains_eq_isSome_place] using hsome

/-- So many executions of a case later there is the same one in both services, or none. -/
theorem Alike.nth (h : Alike a v w) (n : Nat) :
    (v.host.execution? (v.nth a n) = none ∧ w.host.execution? (w.nth a n) = none) ∨
      ∃ x, v.host.execution? (v.nth a n) = some x ∧ w.host.execution? (w.nth a n) = some x ∧
        v.rankOf a (v.nth a n) = w.rankOf a (w.nth a n) := by
  have hv : v.host.execution? (v.nth a n) = (v.executionsOf a)[n]? := getElem?_findIdxNth _ _ _
  have hw : w.host.execution? (w.nth a n) = (w.executionsOf a)[n]? := getElem?_findIdxNth _ _ _
  rw [hv, hw, ← h.executions]
  cases hn : (v.executionsOf a)[n]? with
  | none => exact .inl ⟨rfl, rfl⟩
  | some x =>
      have hlt : n < (v.executionsOf a).length := (List.getElem?_eq_some_iff.1 hn).1
      have hcountv : n < v.host.executions.countP fun x => x.caseId == a := by
        rwa [executionsOf, ← List.countP_eq_length_filter] at hlt
      have hcountw : n < w.host.executions.countP fun x => x.caseId == a := by
        rwa [h.executions, executionsOf, ← List.countP_eq_length_filter] at hlt
      refine .inr ⟨x, rfl, rfl, ?_⟩
      exact (List.countPBefore_findIdxNth_of_lt_countP hcountv).trans
        (List.countPBefore_findIdxNth_of_lt_countP hcountw).symm

/-- Whatever joins the case joins it on both sides. -/
theorem Alike.join (h : Alike a v w) (x : Execution) : Alike a (v.join a x) (w.join a x) where
  engine := h.engine
  executions := by
    have hsame := h.executions
    simp only [executionsOf] at hsame
    simp [executionsOf, Service.join, Host.spawn, List.filter_append, hsame]
  registered := by
    -- The execution that joins comes after all others of its case.
    have hlast : ∀ u : Service, ((u.join a x).place? a).map ((u.join a x).rankOf a) =
        some (u.executionsOf a).length := by
      intro u
      rw [place?_join_self]
      have hcount : (u.join a x).rankOf a u.host.executions.length =
          u.rankOf a u.host.executions.length := countPBefore_append (Nat.le_refl _) [x]
      rw [Option.map_some, hcount, rankOf, List.countPBefore_length, List.countP_eq_length_filter]
      rfl
    rw [hlast v, hlast w, h.executions]
  cell := h.cell

/-- So does a change of the execution of the case, if it is seen in the same way. -/
theorem Alike.became (h : Alike a v w) {p q : Execution × Ledger}
    (hx : v.host.execution? i = some x) (hy : w.host.execution? j = some x)
    (own : x.caseId = a) (rank : v.rankOf a i = w.rankOf a j)
    (seen : Execution.seen a p = Execution.seen a q) (belongs : p.1.caseId = a) :
    Alike a (v.became i p) (w.became j q) := by
  have hxget : v.host.executions[i]? = some x := hx
  have hyget : w.host.executions[j]? = some x := hy
  have hq : p.1 = q.1 := (Prod.mk.inj seen).1
  have hbefore : (x.caseId == a) = true := by simpa using own
  have hafter : (p.1.caseId == a) = true := by simpa using belongs
  have hrank : ∀ (u : Service) (k : Nat) (s : Execution × Ledger),
      u.host.executions[k]? = some x → (s.1.caseId == a) = true →
        ((u.became k s).place? a).map ((u.became k s).rankOf a) =
          (u.place? a).map (u.rankOf a) := by
    intro u k s hk hs
    refine congrFun (congrArg Option.map ?_) (u.place? a)
    funext m
    exact countPBefore_set hk (hs.trans hbefore.symm)
  constructor
  · exact h.engine
  · have hexecutions := h.executions
    have hv : (v.became i p).executionsOf a = (v.executionsOf a).set (v.rankOf a i) p.1 :=
      filter_set_chosen hxget hbefore hafter
    have hw : (w.became j q).executionsOf a = (w.executionsOf a).set (w.rankOf a j) q.1 :=
      filter_set_chosen hyget hbefore (hq ▸ hafter)
    rw [hv, hw, hexecutions, rank, hq]
  · rw [hrank v i p hxget hafter, hrank w j q hyget (hq ▸ hafter)]
    exact h.registered
  · exact (Prod.mk.inj seen).2

theorem isRunning_of_alike (h : Alike a v w) (hv : Proper v) (hw : Proper w) :
    v.isRunning a = w.isRunning a := by
  rw [isRunning, isRunning, h.execution? hv hw]

/-- Whoever asks for the execution is told the same. -/
theorem execution_of_alike (h : Alike a v w) (hv : Proper v) (hw : Proper w) :
    v.execution a = w.execution a := by
  rw [execution, execution, h.execution? hv hw]

theorem resume_of_alike (h : Alike a v w) :
    Execution.resume v.host.ledger.journal a = Execution.resume w.host.ledger.journal a := by
  rw [Execution.resume, Execution.resume, Journal.load_of_cell h.cell]

/-! ## One event in two services -/

/-- A stage of a resumption comes to the same. -/
theorem Alike.resumeOn (h : Alike a v w) (hv : Proper v) (hw : Proper w)
    (belongs : stage.Belongs a) :
    Alike a (v.resumeOn a stage).1 (w.resumeOn a stage).1 ∧
      (v.resumeOn a stage).2 = (w.resumeOn a stage).2 := by
  cases stage with
  | checking =>
      refine ⟨h, ?_⟩
      simp only [Service.resumeOn, isRunning_of_alike h hv hw]
  | loading =>
      simp only [Service.resumeOn, resume_of_alike h]
      cases Execution.resume w.host.ledger.journal a with
      | error fault => exact ⟨h, rfl⟩
      | ok x => exact ⟨h, rfl⟩
  | joining x => exact ⟨h.join x, rfl⟩
  | ended outcome => exact ⟨h, rfl⟩

/-- So does a start, which is refused on both sides or on neither. -/
theorem Alike.start (h : Alike a v w) (readings : v.host.readings = w.host.readings)
    {asked : Option String} {name version : String} {payload : Value}
    (hcase : asked.getD (generatedId v.host.readings.freshId) = a) :
    Alike a (v.respond stage (.start asked name version payload)).1
        (w.respond stage (.start asked name version payload)).1 ∧
      (v.respond stage (.start asked name version payload)).2 =
        (w.respond stage (.start asked name version payload)).2 := by
  have hjoin : ∀ u : Service, u.host.readings = v.host.readings →
      u.start asked name version payload =
        if u.registered.contains a then .error (.caseAlreadyExists a)
        else .ok (u.join a (.fresh a name version payload v.host.readings.now), a) := by
    intro u hu
    simp only [Service.start, hu, hcase]
    split
    · rfl
    · simp [Service.join, Host.start, hu]
  have hv := hjoin v rfl
  have hw := hjoin w readings.symm
  simp only [respond, hv, hw, h.contains]
  cases w.registered.contains a with
  | true => exact ⟨h, rfl⟩
  | false => exact ⟨h.join _, rfl⟩

/-- A decision reaches the same execution, and finds it in the same state. -/
theorem Alike.submit (h : Alike a v w) (hv : Proper v) (hw : Proper w)
    (readings : v.host.readings = w.host.readings) (decision : String) :
    Alike a (v.respond stage (.submit a decision)).1 (w.respond stage (.submit a decision)).1 ∧
      (v.respond stage (.submit a decision)).2 = (w.respond stage (.submit a decision)).2 := by
  have hsignal : w.host.decisionNow decision = v.host.decisionNow decision := by
    simp only [Host.decisionNow, readings]
  rcases h.located hv hw with ⟨hi, hj⟩ | ⟨i, j, x, hi, hj, hx, hy, hcase, hrank⟩
  · simp only [respond, Service.submit, place, hi, hj, bind, Except.bind]
    exact ⟨h, trivial⟩
  · simp only [respond, Service.submit, place, hi, hj, bind, Except.bind, Host.decide, Host.signal,
      hx, hy, hsignal]
    cases hdeliver : x.deliver (v.host.decisionNow decision) with
    | error fault => exact ⟨h, rfl⟩
    | ok out =>
        rcases out with ⟨x', disposition⟩
        rcases Execution.of_deliver hdeliver with ⟨-, inbox, rfl⟩
        refine ⟨?_, rfl⟩
        exact h.became (p := (x.withInbox inbox, v.host.ledger.report _))
          (q := (x.withInbox inbox, w.host.ledger.report _)) hx hy hcase hrank
          (Prod.ext rfl h.cell) hcase

theorem Alike.cancel (h : Alike a v w) (hv : Proper v) (hw : Proper w) :
    Alike a (v.respond stage (.cancel a)).1 (w.respond stage (.cancel a)).1 ∧
      (v.respond stage (.cancel a)).2 = (w.respond stage (.cancel a)).2 := by
  rcases h.located hv hw with ⟨hi, hj⟩ | ⟨i, j, x, hi, hj, hx, hy, hcase, hrank⟩
  · simp only [respond, Service.cancel, place, hi, hj, bind, Except.bind]
    exact ⟨h, trivial⟩
  · simp only [respond, Service.cancel, place, hi, hj, bind, Except.bind, Host.cancel, hx, hy]
    refine ⟨?_, rfl⟩
    have hcancelled : x.cancel.caseId = a := (onward_cancel x).caseId.trans hcase
    exact h.became (p := (x.cancel, v.host.ledger)) (q := (x.cancel, w.host.ledger)) hx hy hcase
      hrank (Prod.ext rfl h.cell) hcancelled

theorem Alike.around (h : Alike a v w) (hv : Proper v) (readings : v.host.readings = w.host.readings)
    (n : Nat) (incident : Incident) :
    Alike a (v.respond stage (.around a n incident)).1
        (w.respond stage (.around a n incident)).1 ∧
      (v.respond stage (.around a n incident)).2 = (w.respond stage (.around a n incident)).2 := by
  rcases h.nth n with ⟨hx, hy⟩ | ⟨x, hx, hy, hrank⟩
  · simp only [respond, hx, hy]
    exact ⟨h, trivial⟩
  · have hcase : x.caseId = a := caseId_of_nth hx
    have hbelongs := hv.belongs hx hcase
    simp only [respond, hx, hy, ← readings, ← h.engine]
    constructor
    · have hseen := Execution.act_of_cell hbelongs.2 h.cell
        (foreign_act v.host.engine v.host.readings incident)
      exact h.became hx hy hcase hrank hseen ((Execution.caseId_act _ _).trans hcase)
    · cases incident with
      | request q => simp only [Incident.reply, (Execution.handle_of_cell h.cell q).2]
      | _ => rfl

/-- An event about a case comes to the same, and is answered in the same way, in services that are
the same to those who ask about it. -/
theorem Alike.respond (h : Alike a v w) (hv : Proper v) (hw : Proper w)
    (readings : v.host.readings = w.host.readings) (hcase : e.caseId v.host.readings = a)
    (belongs : stage.Belongs a) :
    Alike a (v.respond stage e).1 (w.respond stage e).1 ∧
      (v.respond stage e).2 = (w.respond stage e).2 := by
  -- An event reads of the service what belongs to its case, and that is what is alike.
  cases e with
  | start asked name version payload => exact h.start readings hcase
  | submit id decision =>
      have hid : id = a := hcase
      subst hid
      exact h.submit hv hw readings decision
  | cancel id =>
      have hid : id = a := hcase
      subst hid
      exact h.cancel hv hw
  | resume id =>
      have hid : id = a := hcase
      subst hid
      have hstage := h.resumeOn hv hw (belongs_begun belongs)
      refine ⟨hstage.1, ?_⟩
      simp only [Service.respond, hstage.2]
  | look id =>
      have hid : id = a := hcase
      subst hid
      refine ⟨h, ?_⟩
      simp only [Service.respond, caseById, execution_of_alike h hv hw]
  | status id =>
      have hid : id = a := hcase
      subst hid
      refine ⟨h, ?_⟩
      simp only [Service.respond, Service.status, execution_of_alike h hv hw]
  | await id =>
      have hid : id = a := hcase
      subst hid
      refine ⟨h, ?_⟩
      simp only [Service.respond, execution_of_alike h hv hw]
  | around id n incident =>
      have hid : id = a := hcase
      subst hid
      exact h.around hv readings n incident

end Service

open Service

/-! ## Many events -/

/-- An event and what the outside world shows meanwhile. -/
structure Service.Moment where
  readings : Readings
  event : Event

def Service.Moment.caseId (m : Moment) : String :=
  m.event.caseId m.readings

/-- A service and where the resumption of each case stands. -/
structure Affairs where
  service : Service
  resumptions : String → Resuming := fun _ => .ended (.ok ())

namespace Affairs

def opening (engine : Engine) (journal : Journal) : Affairs where
  service := .new (.new engine journal default)

def respond (s : Affairs) (m : Moment) : Service × Resuming × Answer :=
  (s.service.showing m.readings).respond (s.resumptions m.caseId) m.event

def react (s : Affairs) (m : Moment) : Affairs where
  service := (s.respond m).1
  resumptions id := if id = m.caseId then (s.respond m).2.1 else s.resumptions id

def run (s : Affairs) (ms : List Moment) : Affairs :=
  ms.foldl react s

/-- What is answered to those who ask about a case, one after the other. -/
def answers (caseId : String) (s : Affairs) : List Moment → List Answer
  | [] => []
  | m :: ms =>
      if m.caseId = caseId then (s.respond m).2.2 :: answers caseId (s.react m) ms
      else answers caseId (s.react m) ms

/-- The invariant of a service and of what is about to be registered. -/
structure Proper (s : Affairs) : Prop where
  service : s.service.Proper
  belongs : ∀ id, (s.resumptions id).Belongs id

/-- Affairs that are the same to those who ask about a case. -/
structure Alike (caseId : String) (s t : Affairs) : Prop where
  service : s.service.Alike caseId t.service
  resumption : s.resumptions caseId = t.resumptions caseId

variable {s t : Affairs} {a b : String} {m : Moment} {ms : List Moment}

theorem proper_opening (engine : Engine) (journal : Journal) : (opening engine journal).Proper where
  service := proper_new engine journal default
  belongs id x hx := by cases hx

/-- Every moment touches the case it is about, and no other. -/
theorem Proper.respond (h : s.Proper) (m : Moment) :
    Touches m.caseId (s.service.showing m.readings) (s.respond m).1 ∧
      (s.respond m).2.1.Belongs m.caseId :=
  touches_respond (h.service.showing m.readings) rfl (h.belongs m.caseId)

theorem Proper.react (h : s.Proper) (m : Moment) : (s.react m).Proper where
  service := (h.service.showing m.readings).touched (h.respond m).1
  belongs id := by
    by_cases hid : id = m.caseId
    · subst hid
      simp only [Affairs.react, if_true]
      exact (h.respond m).2
    · simp only [Affairs.react, hid, if_false]
      exact h.belongs id

/-- Everything stays in its place, whatever happens. -/
theorem Proper.run (h : s.Proper) (ms : List Moment) : (s.run ms).Proper := by
  induction ms generalizing s with
  | nil => exact h
  | cons m ms ih => exact ih (h.react m)

/-- An event about another case is not seen. -/
theorem Proper.alike_react (h : s.Proper) (hne : a ≠ m.caseId) : Alike a (s.react m) s where
  service := by
    have hshowing : (s.service.showing m.readings).Alike a s.service := ⟨rfl, rfl, rfl, rfl⟩
    have htouched := alike_of_touches (h.service.showing m.readings) (h.respond m).1 hne
    exact htouched.symm.trans hshowing
  resumption := by simp only [Affairs.react, hne, if_false]

/-- An event about the case comes to the same in both. -/
theorem Alike.react (h : Alike a s t) (hs : s.Proper) (ht : t.Proper) (hcase : m.caseId = a) :
    Alike a (s.react m) (t.react m) ∧ (s.respond m).2.2 = (t.respond m).2.2 := by
  subst hcase
  have hrespond := (h.service.showing m.readings).respond (hs.service.showing m.readings)
    (ht.service.showing m.readings) rfl rfl (hs.belongs m.caseId)
  have hsame : (t.service.showing m.readings).respond (s.resumptions m.caseId) m.event =
      t.respond m := by rw [h.resumption]; rfl
  rw [hsame] at hrespond
  have hboth : (s.respond m).2 = (t.respond m).2 := hrespond.2
  refine ⟨⟨hrespond.1, ?_⟩, congrArg Prod.snd hboth⟩
  simp only [Affairs.react, if_true, hboth]

/-- Without the events about another case, nobody who asks about a case would be told anything
else. -/
theorem Alike.run (h : Alike a s t) (hs : s.Proper) (ht : t.Proper) (hne : a ≠ b)
    (ms : List Moment) :
    Alike a (s.run ms) (t.run (ms.filter fun m => m.caseId ≠ b)) ∧
      s.answers a ms = t.answers a (ms.filter fun m => m.caseId ≠ b) := by
  induction ms generalizing s t with
  | nil => exact ⟨h, rfl⟩
  | cons m ms ih =>
      by_cases hb : m.caseId = b
      · -- The event is left out on one side.
        have hother : a ≠ m.caseId := hb ▸ hne
        have hskip : Alike a (s.react m) t :=
          ⟨(hs.alike_react hother).service.trans h.service,
            (hs.alike_react hother).resumption.trans h.resumption⟩
        have hrest := ih hskip (hs.react m) ht
        simpa [Affairs.run, answers, hb, hne.symm] using hrest
      · by_cases ha : m.caseId = a
        · have hreact := h.react hs ht ha
          have hrest := ih hreact.1 (hs.react m) (ht.react m)
          simpa [Affairs.run, answers, ha, hne, hreact.2] using hrest
        · -- A third case: neither side notices.
          have hother : a ≠ m.caseId := Ne.symm ha
          have hleft := hs.alike_react hother
          have hright := ht.alike_react hother
          have hboth : Alike a (s.react m) (t.react m) :=
            ⟨hleft.service.trans (h.service.trans hright.service.symm),
              hleft.resumption.trans (h.resumption.trans hright.resumption.symm)⟩
          have hrest := ih hboth (hs.react m) (ht.react m)
          simpa [Affairs.run, answers, ha, hb] using hrest

/-- Whoever cannot tell affairs apart now will never be answered in another way. -/
theorem Alike.answers (h : Alike a s t) (hs : s.Proper) (ht : t.Proper) (hne : a ≠ b)
    (later : List Moment) : s.answers a later = t.answers a later := by
  have hsame : Alike a t t := ⟨.refl a t.service, rfl⟩
  exact (h.run hs ht hne later).2.trans (hsame.run ht ht hne later).2.symm

end Affairs

structure Service.Face where
  execution : Option Execution
  status : Except Error ExecutionStatus
  published : Except Error (Option Case)
  inbox : Option Inbox
  journal : Except Error (List JournalEntry)

def Service.face (v : Service) (caseId : String) : Face where
  execution := v.execution? caseId
  status := v.status caseId
  published := v.caseById caseId
  inbox := (v.execution? caseId).map fun x => x.context.inbox
  journal := v.host.ledger.journal.load caseId

/-- What can be seen of a case is the same on both sides. -/
theorem Service.Alike.face {v w : Service} {a : String} (h : Service.Alike a v w)
    (hv : Service.Proper v) (hw : Service.Proper w) : v.face a = w.face a := by
  simp only [Service.face, Service.status, caseById, execution_of_alike h hv hw,
    h.execution? hv hw, Journal.load_of_cell h.cell]

/-- Whatever is asked about other cases, and whatever their executions do: without all that is about
one of them, each case would show the same, those who ask about it would have been told the same,
and so would those who come later. -/
theorem cases_separate (s : Affairs) (proper : s.Proper) {a b : String} (hne : a ≠ b)
    (ms : List Moment) :
    (s.run ms).service.face a = (s.run (ms.filter fun m => m.caseId ≠ b)).service.face a ∧
      s.answers a ms = s.answers a (ms.filter fun m => m.caseId ≠ b) ∧
      ∀ later, (s.run ms).answers a later =
        (s.run (ms.filter fun m => m.caseId ≠ b)).answers a later := by
  have hsame : Affairs.Alike a s s := ⟨.refl a s.service, rfl⟩
  have hfull := proper.run ms
  have hless := proper.run (ms.filter fun m => m.caseId ≠ b)
  rcases hsame.run proper proper hne ms with ⟨halike, hanswers⟩
  exact ⟨halike.service.face hfull.service hless.service, hanswers,
    halike.answers hfull hless hne⟩

/-- Two cases of which one is stopped, while the other records its start. -/
theorem cases_separate_stopped :
    ((Affairs.opening (.approving none) .empty).answers "case-1"
        [⟨default, .start (some "case-2") "approval" "1" .null⟩,
          ⟨default, .start (some "case-1") "approval" "1" .null⟩,
          ⟨default, .cancel "case-2"⟩, ⟨default, .around "case-2" 0 .task⟩,
          ⟨default, .around "case-1" 0 .task⟩, ⟨default, .resume "case-2"⟩,
          ⟨default, .status "case-1"⟩]) =
      [.started (.ok "case-1"), .around none, .status (.ok .running)] := by
  have hseparate := cases_separate (.opening (.approving none) .empty)
    (Affairs.proper_opening (.approving none) .empty) (a := "case-1") (b := "case-2") (by decide)
    [⟨default, .start (some "case-2") "approval" "1" .null⟩,
      ⟨default, .start (some "case-1") "approval" "1" .null⟩,
      ⟨default, .cancel "case-2"⟩, ⟨default, .around "case-2" 0 .task⟩,
      ⟨default, .around "case-1" 0 .task⟩, ⟨default, .resume "case-2"⟩,
      ⟨default, .status "case-1"⟩]
  exact hseparate.2.1.trans rfl

end Casework
