import Casework.Proofs.Execution.Approval
import Casework.Proofs.Execution.Trace
import Casework.Proofs.Journal.Contents
import Casework.Proofs.Service.Operations

/-!
# Starts — how often a case is begun over one journal

A service knows the cases that were started while it existed, but not what its journal holds of
others.  So a case is started once in the life of a service, and again in the next one.

* `Deed`, `Happens`, `Life` : what happens to a service, its re-creation over the same journal
  included;
* `Ledgered` : the invariant of a service and of what its journal holds of one case;
* `starts_bounded` : the journal of a case is empty or begins with a start, and holds no more of
  them than the case was started, which is at most once for each service;
* `started_twice` : once for each service it can be.
-/

namespace Casework

/-! ## What happens to a service -/

/-- What happens to a service, as far as starts are concerned. -/
inductive Deed where
  /-- A case is started. -/
  | started (caseId : String)
  /-- The service is made anew over the same journal. -/
  | recreated
  | other
deriving DecidableEq

/-- One thing happens.  Executions take their steps in any order, in worlds of their own.  With a
new service some executions of the old one may be left. -/
inductive Happens : Service → Deed → Service → Prop
  | start {v v' : Service} {asked : Option String} {name version caseId : String}
      {payload : Value} (h : v.start asked name version payload = .ok (v', caseId)) :
      Happens v (.started caseId) v'
  | submit {v v' : Service} {caseId decision : String} {receipt : Receipt}
      (h : v.submit caseId decision = .ok (v', receipt)) : Happens v .other v'
  | cancel {v v' : Service} {caseId : String} (h : v.cancel caseId = .ok v') :
      Happens v .other v'
  | resume {v v' : Service} {caseId : String} (h : v.resume caseId = .ok v') :
      Happens v .other v'
  | resumeAll (v : Service) : Happens v .other v.resumeAll.1
  | step {v : Service} {i : Nat} {x x' : Execution} {g : Engine} {r : Readings} {l : Ledger}
      (hx : v.host.execution? i = some x) (h : x.advance g r v.host.ledger = some (x', l)) :
      Happens v .other { v with host := { v.host.put i x' with ledger := l } }
  | readings (v : Service) (r : Readings) :
      Happens v .other { v with host := { v.host with readings := r } }
  | recreate {v : Service} {host : Host} (journal : host.ledger.journal = v.host.ledger.journal)
      (left : host.executions.Sublist v.host.executions) : Happens v .recreated (.new host)

inductive Life (v : Service) : List Deed → Service → Prop
  | refl : Life v [] v
  | next {ds : List Deed} {o : Deed} {v₁ v₂ : Service} (before : Life v ds v₁)
      (h : Happens v₁ o v₂) : Life v (ds ++ [o]) v₂

/-! ## The invariant -/

def startsIn (es : List JournalEntry) : Nat :=
  es.countP fun e => e.kind == .started

namespace Execution

def writesTo (x : Execution) : String := x.context.log.caseId

/-- Whether an execution is about to record the start of a case. -/
def isStarting (caseId : String) (x : Execution) : Bool :=
  match x.phase with
  | .starting => x.writesTo == caseId
  | _ => false

end Execution

/-- What the journal holds of a case, in relation to the executions and the registry. -/
structure Ledgered (ds : List Deed) (v : Service) (caseId : String) (es : List JournalEntry) :
    Prop where
  holds : v.host.ledger.journal.Holds caseId es
  first : ∀ e, es.head? = some e → e.kind = .started
  /-- Executions that are about to record the start count as if they had. -/
  counted : startsIn es + v.host.executions.countP (Execution.isStarting caseId) ≤
    ds.count (.started caseId)
  bounded : ds.count (.started caseId) ≤
    ds.count .recreated + if v.registered.contains caseId then 1 else 0
  /-- Nobody appends before the start, unless nothing can be appended at all. -/
  begun : ∀ x ∈ v.host.executions, x.writesTo = caseId → x.phase ≠ .starting →
    es ≠ [] ∨ ¬ v.host.ledger.journal.Accepts caseId

section Invariant

open Execution

variable {ds : List Deed} {v v' : Service} {caseId : String} {es : List JournalEntry}
variable {g : Engine} {r : Readings} {x x' : Execution} {l : Ledger}

/-- Whoever is starting has a start to record, and a case to record it for. -/
theorem isStarting_iff : x.isStarting caseId = true ↔ x.phase = .starting ∧ x.writesTo = caseId := by
  unfold isStarting
  cases x.phase <;> simp

theorem isStarting_of_begun (h : x.phase ≠ .starting) : x.isStarting caseId = false := by
  apply Bool.eq_false_iff.2
  intro hstarting
  exact h (isStarting_iff.1 hstarting).1

theorem isStarting_of_ne (h : caseId ≠ x.writesTo) : x.isStarting caseId = false := by
  apply Bool.eq_false_iff.2
  intro hstarting
  exact h (isStarting_iff.1 hstarting).2.symm

/-- Only starts of the case and re-creations count. -/
theorem Ledgered.of_deeds {ds' : List Deed} (h : Ledgered ds v caseId es)
    (started : ds'.count (.started caseId) = ds.count (.started caseId))
    (recreated : ds'.count .recreated = ds.count .recreated) : Ledgered ds' v caseId es :=
  ⟨h.holds, h.first, by rw [started]; exact h.counted,
    by rw [started, recreated]; exact h.bounded, h.begun⟩

theorem Ledgered.other (h : Ledgered ds v caseId es) : Ledgered (ds ++ [.other]) v caseId es :=
  h.of_deeds (by simp) (by simp)

/-- Executions that are at most as many, and no nearer to their start than before. -/
theorem Ledgered.of_executions (h : Ledgered ds v caseId es)
    (journal : v'.host.ledger.journal = v.host.ledger.journal)
    (registered : v.registered.contains caseId = true → v'.registered.contains caseId = true)
    (fewer : v'.host.executions.countP (isStarting caseId) ≤
      v.host.executions.countP (isStarting caseId))
    (begun : ∀ x ∈ v'.host.executions, x.writesTo = caseId → x.phase ≠ .starting →
      (∃ y ∈ v.host.executions, y.writesTo = caseId ∧ y.phase ≠ .starting) ∨
        es ≠ [] ∨ ¬ v.host.ledger.journal.Accepts caseId) :
    Ledgered ds v' caseId es := by
  constructor
  · rw [journal]
    exact h.holds
  · exact h.first
  · exact Nat.le_trans (Nat.add_le_add_left fewer _) h.counted
  · have hbounded := h.bounded
    by_cases hold : v.registered.contains caseId = true
    · simpa [hold, registered hold] using hbounded
    · have hle : ds.count (.started caseId) ≤ ds.count .recreated := by simpa [hold] using hbounded
      omega
  · intro x hx hwrites hphase
    rw [journal]
    rcases begun x hx hwrites hphase with ⟨y, hy, hywrites, hyphase⟩ | hheld
    · exact h.begun y hy hywrites hyphase
    · exact hheld

/-- An execution is replaced by itself at a later time. -/
theorem countP_put {p : Execution → Bool} {xs : List Execution} {i : Nat} {x y : Execution}
    (hx : xs[i]? = some x) :
    (xs.set i y).countP p + (if p x then 1 else 0) = xs.countP p + (if p y then 1 else 0) := by
  induction xs generalizing i with
  | nil => simp at hx
  | cons z zs ih =>
      cases i with
      | zero =>
          have hz : z = x := by simpa using hx
          subst hz
          simp only [List.set_cons_zero, List.countP_cons]
          omega
      | succ i =>
          have hrest := ih (i := i) (by simpa using hx)
          simp only [List.set_cons_succ, List.countP_cons]
          omega

/-- Whatever changes neither the executions nor the journal nor the registry. -/
theorem Ledgered.of_same (h : Ledgered ds v caseId es)
    (executions : v'.host.executions = v.host.executions)
    (journal : v'.host.ledger.journal = v.host.ledger.journal)
    (registered : v'.registered = v.registered) : Ledgered ds v' caseId es := by
  apply h.of_executions journal
  · rw [registered]
    exact id
  · exact Nat.le_of_eq (by rw [executions])
  · intro x hx hwrites hphase
    rw [executions] at hx
    exact .inl ⟨x, hx, hwrites, hphase⟩

/-- An execution to which its host does something. -/
theorem Ledgered.replaced {i : Nat} (h : Ledgered ds v caseId es)
    (hx : v.host.execution? i = some x) (phase : x'.phase = x.phase)
    (writes : x'.writesTo = x.writesTo) : Ledgered ds (v.withExecution i x') caseId es := by
  have hget : v.host.executions[i]? = some x := hx
  have hsame : x'.isStarting caseId = x.isStarting caseId := by
    simp [isStarting, phase, writes]
  refine h.of_executions rfl id ?_ ?_
  · have hcount := countP_put (y := x') (p := isStarting caseId) hget
    rw [hsame] at hcount
    exact Nat.le_of_eq (Nat.add_right_cancel hcount)
  · intro y hy hywrites hyphase
    rcases List.mem_or_eq_of_mem_set hy with hold | rfl
    · exact .inl ⟨y, hold, hywrites, hyphase⟩
    · exact .inl ⟨x, List.mem_of_getElem? hget, writes ▸ hywrites, phase ▸ hyphase⟩

/-- An execution joins that is not about to record a start of the case. -/
theorem Ledgered.join (h : Ledgered ds v caseId es) (id : String)
    (old : x.isStarting caseId = false)
    (begun : x.writesTo = caseId → x.phase ≠ .starting → es ≠ []) :
    Ledgered ds (v.join id x) caseId es := by
  refine h.of_executions rfl (Table.contains_insert _) ?_ ?_
  · simp [Service.join, Host.spawn, List.countP_append, old]
  · intro y hy hwrites hphase
    rcases List.mem_append.1 hy with hold | hnew
    · exact .inl ⟨y, hold, hwrites, hphase⟩
    · have hyx : y = x := List.mem_singleton.1 hnew
      exact .inr (.inl (begun (hyx ▸ hwrites) (hyx ▸ hphase)))

/-! ## Operations -/

/-- An execution is rebuilt from the journal, which therefore holds something of its case. -/
theorem Ledgered.resume {id : String} (h : Ledgered ds v caseId es)
    (hresume : v.resume id = .ok v') : Ledgered ds v' caseId es := by
  rcases Service.of_resume hresume with ⟨-, y, hrebuilt, rfl⟩
  rcases of_resume hrebuilt with ⟨c, name, version, payload, t, entries, hload, rfl⟩
  apply h.join id
  · exact isStarting_of_begun (by simp [launching])
  · intro hcase _ hnil
    have hid : id = caseId := hcase
    have hempty : v.host.ledger.journal.Holds id [] := by
      rw [hid, ← hnil]
      exact h.holds
    have hloaded := Journal.load_of_holds_nil hempty hload
    cases hloaded

theorem Ledgered.resumeEach (ids : List String) (h : Ledgered ds v caseId es) :
    Ledgered ds (v.resumeEach ids).1 caseId es := by
  induction ids generalizing v with
  | nil => exact h
  | cons id rest ih =>
      unfold Service.resumeEach
      split
      · exact ih h
      · split
        · exact h
        · split
          · exact ih h
          · split
            · exact ih h
            · next v₁ hresume => exact ih (h.resume hresume)

theorem Ledgered.resumeAll (h : Ledgered ds v caseId es) :
    Ledgered ds v.resumeAll.1 caseId es :=
  (h.resumeEach v.host.ledger.journal.caseIds).of_same rfl rfl rfl

/-- The case is started, which the service does not know yet. -/
theorem Ledgered.started (h : Ledgered ds v caseId es) (hp : x.phase = .starting)
    (hwrites : x.writesTo = caseId) (unknown : v.registered.contains caseId = false) :
    Ledgered (ds ++ [.started caseId]) (v.join caseId x) caseId es := by
  have hstarted : (ds ++ [Deed.started caseId]).count (.started caseId) =
      ds.count (.started caseId) + 1 := by
    simp
  have hrecreated : (ds ++ [Deed.started caseId]).count .recreated = ds.count .recreated := by
    simp
  constructor
  · exact h.holds
  · exact h.first
  · have hcounted := h.counted
    have hnew : x.isStarting caseId = true := isStarting_iff.2 ⟨hp, hwrites⟩
    have hexecutions : (v.join caseId x).host.executions = v.host.executions ++ [x] := rfl
    rw [hexecutions, hstarted, List.countP_append, List.countP_singleton, if_pos hnew]
    omega
  · have hbounded : ds.count (.started caseId) ≤ ds.count .recreated := by
      simpa [unknown] using h.bounded
    have hknown : (v.join caseId x).registered.contains caseId = true :=
      Table.contains_insert_self _ _ _
    rw [hstarted, hrecreated, hknown, if_pos rfl]
    omega
  · intro y hy hcase hbegun
    rcases List.mem_append.1 hy with hold | hlast
    · exact h.begun y hold hcase hbegun
    · rw [List.mem_singleton.1 hlast] at hbegun
      exact absurd hp hbegun

/-- Another case is started. -/
theorem Ledgered.started_of_ne {id : String} (h : Ledgered ds v caseId es)
    (hwrites : x.writesTo = id) (hp : x.phase = .starting) (hother : caseId ≠ id) :
    Ledgered (ds ++ [.started id]) (v.join id x) caseId es := by
  have hjoined : Ledgered ds (v.join id x) caseId es := by
    apply h.join id
    · exact isStarting_of_ne (hwrites ▸ hother)
    · intro _ hbegun
      exact absurd hp hbegun
  exact hjoined.of_deeds (by simp [Ne.symm hother]) (by simp)

/-- A start makes room for one entry more. -/
theorem Ledgered.start {asked : Option String} {name version id : String} {payload : Value}
    (h : Ledgered ds v caseId es) (hstart : v.start asked name version payload = .ok (v', id)) :
    Ledgered (ds ++ [.started id]) v' caseId es := by
  rcases Service.of_start hstart with ⟨-, unknown, rfl⟩
  by_cases hid : caseId = id
  · rw [← hid] at unknown ⊢
    exact h.started rfl rfl unknown
  · exact h.started_of_ne rfl rfl hid

/-- A new service knows no case. -/
theorem Ledgered.recreate {host : Host} (h : Ledgered ds v caseId es)
    (journal : host.ledger.journal = v.host.ledger.journal)
    (left : host.executions.Sublist v.host.executions) :
    Ledgered (ds ++ [.recreated]) (.new host) caseId es := by
  have hstarted : (ds ++ [Deed.recreated]).count (.started caseId) = ds.count (.started caseId) := by
    simp
  have hrecreated : (ds ++ [Deed.recreated]).count .recreated = ds.count .recreated + 1 := by
    simp
  have hfewer := left.countP_le (p := isStarting caseId)
  have hcounted := h.counted
  have hbounded := h.bounded
  constructor
  · simpa [Service.new, journal] using h.holds
  · exact h.first
  · simp only [Service.new, hstarted]
    omega
  · have hle : ds.count (.started caseId) ≤ ds.count .recreated + 1 := by
      split at hbounded <;> omega
    simpa [Service.new, hstarted, hrecreated] using Nat.le_trans hle (Nat.le_add_right _ _)
  · intro x hx hwrites hphase
    have hmem : x ∈ v.host.executions := left.subset hx
    simpa [Service.new, journal] using h.begun x hmem hwrites hphase

/-! ## Atomic steps -/

/-- Whoever is about to record a start records one, and nobody else does. -/
theorem started_iff_of_written {e : JournalEntry} (h : x.written? r = some e) :
    e.kind = .started ↔ x.phase = .starting := by
  cases writes_of_written h with
  | start hp => simp [hp, startEntry, JournalEntry.kind]
  | decision hp => simp [hp, JournalEntry.kind]
  | answer hp => simp [hp, JournalEntry.kind]
  | @ending result hp other => cases result <;> simp [hp, terminal, JournalEntry.kind]

/-- Another entry counts if it is a start. -/
theorem startsIn_append (es : List JournalEntry) (e : JournalEntry) :
    startsIn (es ++ [e]) = startsIn es + if e.kind = .started then 1 else 0 := by
  simp [startsIn, List.countP_append, List.countP_singleton]

section Step

variable {i : Nat} {b : Execution × Ledger}

/-- Nothing that is not appended changes what is held, and a start that could not be recorded is
not tried again. -/
theorem Ledgered.unaccepted (h : Ledgered ds v caseId es) (hx : v.host.execution? i = some x)
    (hstep : x.advance g r v.host.ledger = some b)
    (hnone : x.accepted? r v.host.ledger = none) :
    Ledgered ds { v with host := { v.host.put i b.1 with ledger := b.2 } } caseId es := by
  have hget : v.host.executions[i]? = some x := hx
  have hwrites : b.1.writesTo = x.writesTo := (advance_onward hstep).1
  have hlater : b.1.isStarting caseId = false := isStarting_of_begun (begun_of_advance hstep)
  refine h.of_executions (journal_of_unaccepted hstep hnone) id ?_ ?_
  · have hcount := countP_put (y := b.1) (p := isStarting caseId) hget
    simp only [hlater, Bool.false_eq_true, if_false] at hcount
    exact Nat.le_of_add_right_le (Nat.le_of_eq hcount)
  · intro y hy hcase hbegun
    rcases List.mem_or_eq_of_mem_set hy with hold | rfl
    · exact .inl ⟨y, hold, hcase, hbegun⟩
    · by_cases hp : x.phase = .starting
      · -- The start was refused, so the journal takes nothing of the case.
        right
        right
        intro accepts
        have hown : x.context.log.caseId = caseId := hwrites.symm.trans hcase
        obtain ⟨j, happend, -⟩ := Journal.append_of_accepts (hown ▸ accepts) x.startEntry
        rw [accepted?_of_taken (written?_of_starting hp) happend] at hnone
        cases hnone
      · exact .inl ⟨x, List.mem_of_getElem? hget, hwrites.symm.trans hcase, hp⟩

/-- What is appended to the journal of the case is its start, or comes after it. -/
theorem Ledgered.accepted {e : JournalEntry} (h : Ledgered ds v caseId es)
    (hx : v.host.execution? i = some x) (hstep : x.advance g r v.host.ledger = some b)
    (haccepted : x.accepted? r v.host.ledger = some e) (hown : x.writesTo = caseId) :
    Ledgered ds { v with host := { v.host.put i b.1 with ledger := b.2 } } caseId (es ++ [e]) := by
  have hget : v.host.executions[i]? = some x := hx
  have hmem : x ∈ v.host.executions := List.mem_of_getElem? hget
  obtain ⟨hwritten, j, happend⟩ := of_accepted? haccepted
  have hcaseId : x.context.log.caseId = caseId := hown
  rw [hcaseId] at happend
  have hjournal : b.2.journal = j := journal_of_append hstep hwritten (hcaseId ▸ happend)
  have hkind := started_iff_of_written hwritten
  -- Only an execution that is starting records a start, and it has the journal to itself until
  -- then.
  constructor
  · simpa [hjournal] using Journal.holds_append h.holds happend
  · intro first hfirst
    cases es with
    | cons e' rest => exact h.first first (by simpa using hfirst)
    | nil =>
        have he : e = first := by simpa using hfirst
        rw [← he, hkind]
        apply Classical.byContradiction
        intro hp
        rcases h.begun x hmem hown hp with hheld | hrefused
        · exact hheld rfl
        · exact hrefused (Journal.accepts_of_append happend)
  · -- Whoever is about to record the start has recorded it now.
    have hcount := countP_put (y := b.1) (p := isStarting caseId) hget
    have hlater : b.1.isStarting caseId = false := isStarting_of_begun (begun_of_advance hstep)
    have hnow : x.isStarting caseId = true ↔ e.kind = .started := by
      rw [isStarting_iff, hkind]
      exact and_iff_left hown
    have hcounted := h.counted
    simp only [hlater, hnow, Bool.false_eq_true, if_false] at hcount
    have hexecutions : startsIn (es ++ [e]) +
        (v.host.executions.set i b.1).countP (isStarting caseId) =
          startsIn es + v.host.executions.countP (isStarting caseId) := by
      rw [startsIn_append]
      omega
    simpa [Host.put, hexecutions] using hcounted
  · exact h.bounded
  · intro y _ _ _
    exact .inl (by simp)

/-- What is appended elsewhere is neither here nor there. -/
theorem Ledgered.elsewhere {e : JournalEntry} (h : Ledgered ds v caseId es)
    (hx : v.host.execution? i = some x) (hstep : x.advance g r v.host.ledger = some b)
    (haccepted : x.accepted? r v.host.ledger = some e) (hother : caseId ≠ x.writesTo) :
    Ledgered ds { v with host := { v.host.put i b.1 with ledger := b.2 } } caseId es := by
  have hget : v.host.executions[i]? = some x := hx
  obtain ⟨hwritten, j, happend⟩ := of_accepted? haccepted
  have hjournal : b.2.journal = j := journal_of_append hstep hwritten happend
  have hwrites : b.1.writesTo = x.writesTo := (advance_onward hstep).1
  have hbefore : x.isStarting caseId = false := isStarting_of_ne hother
  have hafter : b.1.isStarting caseId = false := isStarting_of_begun (begun_of_advance hstep)
  constructor
  · simpa [hjournal] using Journal.holds_append_of_ne h.holds hother happend
  · exact h.first
  · have hcount := countP_put (y := b.1) (p := isStarting caseId) hget
    simp only [hbefore, hafter, Bool.false_eq_true, if_false, Nat.add_zero] at hcount
    have hcounted := h.counted
    simpa [Host.put, hcount] using hcounted
  · exact h.bounded
  · intro y hy hcase hbegun
    rcases List.mem_or_eq_of_mem_set hy with hold | rfl
    · rcases h.begun y hold hcase hbegun with hheld | hrefused
      · exact .inl hheld
      · right
        intro accepts
        have haccepts : j.Accepts caseId := by simpa [hjournal] using accepts
        exact hrefused (Journal.accepts_of_append_of_ne haccepts hother happend)
    · exact absurd (hcase.symm.trans hwrites) hother

/-- An execution takes an atomic step. -/
theorem Ledgered.step (h : Ledgered ds v caseId es) (hx : v.host.execution? i = some x)
    (hstep : x.advance g r v.host.ledger = some b) :
    ∃ es', Ledgered ds { v with host := { v.host.put i b.1 with ledger := b.2 } } caseId es' := by
  cases haccepted : x.accepted? r v.host.ledger with
  | none => exact ⟨es, h.unaccepted hx hstep haccepted⟩
  | some e =>
      by_cases hown : x.writesTo = caseId
      · exact ⟨es ++ [e], h.accepted hx hstep haccepted hown⟩
      · exact ⟨es, h.elsewhere hx hstep haccepted (Ne.symm hown)⟩

end Step

/-! ## All that happens -/

theorem Ledgered.submit {id decision : String} {receipt : Receipt} (h : Ledgered ds v caseId es)
    (hsubmit : v.submit id decision = .ok (v', receipt)) : Ledgered ds v' caseId es := by
  rcases Service.of_submit hsubmit with ⟨i, y, y', disposition, -, hy, hdeliver, -, rfl⟩
  rcases of_deliver hdeliver with ⟨-, inbox, rfl⟩
  have hreplaced : Ledgered ds (v.withExecution i (y.withInbox inbox)) caseId es :=
    h.replaced hy rfl rfl
  exact hreplaced.of_same rfl rfl rfl

theorem Ledgered.cancel {id : String} (h : Ledgered ds v caseId es)
    (hcancel : v.cancel id = .ok v') : Ledgered ds v' caseId es := by
  rcases Service.of_cancel hcancel with ⟨i, -, ⟨-, rfl⟩ | ⟨y, hy, rfl⟩⟩
  · exact h
  · rw [cancel_eq]
    exact h.replaced hy rfl rfl

/-- Whatever happens to a service keeps the account. -/
theorem Ledgered.happens {o : Deed} (h : Ledgered ds v caseId es) (hdone : Happens v o v') :
    ∃ es', Ledgered (ds ++ [o]) v' caseId es' := by
  cases hdone with
  | start hstart => exact ⟨es, h.start hstart⟩
  | submit hsubmit => exact ⟨es, (h.submit hsubmit).other⟩
  | cancel hcancel => exact ⟨es, (h.cancel hcancel).other⟩
  | resume hresume => exact ⟨es, (h.resume hresume).other⟩
  | resumeAll => exact ⟨es, h.resumeAll.other⟩
  | readings r =>
      have hsame : Ledgered ds { v with host := { v.host with readings := r } } caseId es :=
        h.of_same rfl rfl rfl
      exact ⟨es, hsame.other⟩
  | recreate journal left => exact ⟨es, h.recreate journal left⟩
  | step hx hstep =>
      rcases h.step hx hstep with ⟨es', hledgered⟩
      exact ⟨es', hledgered.other⟩

/-- So does a whole life. -/
theorem Life.ledgered {v₀ : Service} (life : Life v₀ ds v) (h : Ledgered [] v₀ caseId []) :
    ∃ es, Ledgered ds v caseId es := by
  induction life with
  | refl => exact ⟨[], h⟩
  | next before hdone ih =>
      rcases ih with ⟨es, hledgered⟩
      exact hledgered.happens hdone

end Invariant

/-- The journal of a case is empty, or begins with a start.  Every further start in it comes from
a further time that the case was started, and a service starts a case once. -/
theorem starts_bounded (engine : Engine) (journal : Journal) (readings : Readings)
    (empty : ∀ caseId, journal.Holds caseId []) (ds : List Deed) (v : Service)
    (life : Life (.new (.new engine journal readings)) ds v) (caseId : String) :
    ∃ es, v.host.ledger.journal.Holds caseId es ∧
      (es = [] ∨ ∃ e rest, es = e :: rest ∧ e.kind = .started ∧
        startsIn rest + 1 ≤ ds.count (.started caseId)) ∧
      ds.count (.started caseId) ≤ ds.count .recreated + 1 := by
  have hnew : Ledgered [] (.new (.new engine journal readings)) caseId [] := by
    constructor
    · exact empty caseId
    · intro e he
      cases he
    · simp [startsIn, Service.new, Host.new]
    · simp
    · intro x hx
      cases hx
  -- The bounds are parts of an invariant that counts those about to record a start as well.
  rcases life.ledgered hnew with ⟨es, hledgered⟩
  refine ⟨es, hledgered.holds, ?_, ?_⟩
  · cases es with
    | nil => exact .inl rfl
    | cons e rest =>
        right
        have hfirst : e.kind = .started := hledgered.first e rfl
        have hcounted := hledgered.counted
        have hstarts : startsIn (e :: rest) = startsIn rest + 1 := by
          simp [startsIn, hfirst]
        exact ⟨e, rest, rfl, hfirst, by omega⟩
  · have hbounded := hledgered.bounded
    split at hbounded <;> omega

/-! ## An approval that is started twice -/

def approvalStarted : JournalEntry := .started "case-1" "approval" "1" .null ⟨0, 0⟩

def Service.approving (j : Journal) : Service := .new (.new (.approving none) j default)

/-- An approval is started, and its start recorded. -/
theorem Life.approval {v₀ v v₁ : Service} {ds : List Deed} {x : Execution} {b : Execution × Ledger}
    (before : Life v₀ ds v) (i : Nat)
    (hstart : v.start (some "case-1") "approval" "1" .null = .ok (v₁, "case-1"))
    (hx : v₁.host.execution? i = some x)
    (hstep : x.advance (.approving none) default v₁.host.ledger = some b) :
    Life v₀ (ds ++ [.started "case-1"] ++ [.other])
      { v₁ with host := { v₁.host.put i b.1 with ledger := b.2 } } :=
  .next (.next before (.start hstart)) (.step hx hstep)

/-- A case that was started once has one start in its journal, and it comes first. -/
theorem starts_bounded_approval :
    ∃ v es, Life (.approving .empty) [.started "case-1", .other] v ∧
      v.host.ledger.journal = .memory [("case-1", [approvalStarted])] ∧
      v.host.ledger.journal.Holds "case-1" es ∧
      ∃ e rest, es = e :: rest ∧ e.kind = .started ∧ startsIn rest = 0 := by
  have run : ∃ v, Life (.approving .empty) [.started "case-1", .other] v ∧
      v.host.ledger.journal = .memory [("case-1", [approvalStarted])] :=
    ⟨_, Life.refl.approval 0 rfl rfl rfl, rfl⟩
  rcases run with ⟨v, life, hjournal⟩
  rcases starts_bounded (.approving none) .empty default (fun _ => rfl) _ v life "case-1" with
    ⟨es, holds, hstarts, -⟩
  refine ⟨v, es, life, hjournal, holds, ?_⟩
  rcases hstarts with rfl | ⟨e, rest, hcons, hfirst, hcount⟩
  · rw [hjournal] at holds
    have hlist : [approvalStarted] = [] := holds
    cases hlist
  · have hone : startsIn rest + 1 ≤ 1 := hcount
    exact ⟨e, rest, hcons, hfirst, by omega⟩

/-- A case that a service starts, and the next one starts again, has two starts in its journal.  What
is rebuilt from this journal takes the second for what came after the first, and fails. -/
theorem started_twice :
    ∃ v, Life (.approving .empty)
        [.started "case-1", .other, .recreated, .started "case-1", .other] v ∧
      v.host.ledger.journal.load "case-1" = .ok [approvalStarted, approvalStarted] ∧
      ∃ y os x l, Execution.resume v.host.ledger.journal "case-1" = .ok y ∧
        Trace (.approving none) "case-1" (y, v.host.ledger) os (x, l) ∧
        x.result? = some (.error (.replayDivergence "analysis"
          "expected activity_completed, journal has started")) := by
  have first : ∃ v, Life (.approving .empty) [.started "case-1", .other] v ∧
      v.host.ledger.journal = .memory [("case-1", [approvalStarted])] :=
    ⟨_, Life.refl.approval 0 rfl rfl rfl, rfl⟩
  rcases first with ⟨v, life, hjournal⟩
  have anew : Life (.approving .empty) [.started "case-1", .other, .recreated]
      (.approving v.host.ledger.journal) :=
    .next life (.recreate rfl (List.nil_sublist _))
  rw [hjournal] at anew
  exact ⟨_, anew.approval 0 rfl rfl rfl, rfl, _, _, _, _, rfl, Trace.refl.steps 5, rfl⟩

end Casework
