import Casework.Proofs.Execution.Trace
import Casework.Proofs.Service.Resumption

/-!
# Sweeps — what the resumption of all cases has done

If all entries can be read, the cases of a journal are gone through to the end.

* `Journal.IsOpen` : entries that tell of a case which was started and has not come to its end;
* `Service.resumeEach_of_open`, `Service.resumeEach_of_passed` : what is done about one case;
* `Service.PickedUp`, `Service.pickedUp` : what is done about some of them, by induction;
* `resumeAll_picks_up` : what that means for the cases of a journal, and that once is enough.
-/

namespace Casework

/-- Whether entries tell of a case that was started and has not come to its end. -/
structure Journal.IsOpen (es : List JournalEntry) : Prop where
  started : ∃ first, es.head? = some first ∧ first.kind = .started
  unfinished : ∀ last, es.getLast? = some last → last.kind ≠ .completed ∧ last.kind ≠ .failed

namespace Service

variable {v v' : Service} {caseId id : String} {ids picked : List String} {x : Execution}
variable {es : List JournalEntry}

/-- Whether a case is picked up: it is not registered, and the journal tells of it. -/
def IsLost (v : Service) (id : String) : Prop :=
  v.registered.contains id = false ∧
    ∃ es, v.host.ledger.journal.load id = .ok es ∧ Journal.IsOpen es

/-- Whether a case is passed over: it is registered, or there is nothing to pick up. -/
def IsPassed (v : Service) (id : String) : Prop :=
  v.registered.contains id = true ∨
    ∃ es, v.host.ledger.journal.load id = .ok es ∧ ¬ Journal.IsOpen es

/-- A case is open as long as its last entry does not tell of an end. -/
theorem isClosed_eq_false_iff : isClosed es = false ↔
    ∀ last, es.getLast? = some last → last.kind ≠ .completed ∧ last.kind ≠ .failed := by
  unfold isClosed
  cases es.getLast? <;> simp [JournalEntry.isFinal]

/-- Entries that begin with a start can be resumed. -/
theorem ofEntries_of_started {first : JournalEntry} (caseId : String) (rest : List JournalEntry)
    (h : first.kind = .started) : ∃ x, Execution.ofEntries caseId (first :: rest) = .ok x := by
  cases first with
  | started c name version payload t => exact ⟨_, rfl⟩
  | _ => cases h

/-- Entries that do not cannot. -/
theorem ofEntries_of_other (caseId : String)
    (h : ¬ ∃ first, es.head? = some first ∧ first.kind = .started) :
    ∃ fault, Execution.ofEntries caseId es = .error fault := by
  cases es with
  | nil => exact ⟨_, rfl⟩
  | cons first rest =>
      cases first with
      | started c name version payload t => exact absurd ⟨_, rfl, rfl⟩ h
      | _ => exact ⟨_, rfl⟩

/-- A case that is not registered and that the journal tells of is resumed. -/
theorem resumeEach_of_open (h : v.IsLost caseId) (rest : List String) :
    ∃ x, Execution.resume v.host.ledger.journal caseId = .ok x ∧
      v.resumeEach (caseId :: rest) =
        (((v.join caseId x).resumeEach rest).1,
          ((v.join caseId x).resumeEach rest).2.map (caseId :: ·)) := by
  rcases h with ⟨hnew, es, hload, ⟨first, hfirst, hstarted⟩, hunfinished⟩
  cases es with
  | nil => cases hfirst
  | cons e es =>
      cases hfirst
      rcases ofEntries_of_started caseId es hstarted with ⟨x, hx⟩
      have hrebuilt : Execution.resume v.host.ledger.journal caseId = .ok x := by
        simpa [Execution.resume, hload, bind, Except.bind] using hx
      have hclosed := isClosed_eq_false_iff.2 hunfinished
      have hresume := resume_of_unregistered hnew hrebuilt
      exact ⟨x, hrebuilt, by simp [resumeEach, hnew, hload, hclosed, hresume]⟩

/-- Every other case with entries that can be read is passed over. -/
theorem resumeEach_of_passed (h : v.IsPassed caseId) (rest : List String) :
    v.resumeEach (caseId :: rest) = v.resumeEach rest := by
  cases hknown : v.registered.contains caseId with
  | true => simp [resumeEach, hknown]
  | false =>
      rcases h with hregistered | ⟨es, hload, hnot⟩
      · rw [hregistered] at hknown
        cases hknown
      · cases hclosed : isClosed es with
        | true => simp [resumeEach, hknown, hload, hclosed]
        | false =>
            -- It has not come to its end, so it was not started either.
            have hother : ¬ ∃ first, es.head? = some first ∧ first.kind = .started :=
              fun hstarted => hnot ⟨hstarted, isClosed_eq_false_iff.1 hclosed⟩
            rcases ofEntries_of_other caseId hother with ⟨fault, hfault⟩
            have hresume : v.resume caseId = .error fault := by
              simp [resume, isRunning_of_unregistered hknown, Host.resume, Execution.resume, hload,
                hfault, Except.map, bind, Except.bind]
            simp [resumeEach, hknown, hload, hclosed, hresume]

/-- With readable entries a case is lost or passed over. -/
theorem isLost_or_isPassed (loads : v.registered.contains id = false →
    ∃ es, v.host.ledger.journal.load id = .ok es) : v.IsLost id ∨ v.IsPassed id := by
  cases hknown : v.registered.contains id with
  | true => exact .inr (.inl hknown)
  | false =>
      rcases loads hknown with ⟨es, hload⟩
      by_cases hopen : Journal.IsOpen es
      · exact .inl ⟨hknown, es, hload, hopen⟩
      · exact .inr (.inr ⟨es, hload, hopen⟩)

theorem not_isLost (h : v.IsPassed id) : ¬ v.IsLost id := by
  rintro ⟨hnew, es, hload, hopen⟩
  rcases h with hknown | ⟨es', hload', hnot⟩
  · rw [hknown] at hnew
    cases hnew
  · cases hload.symm.trans hload'
    exact hnot hopen

/-- A sweep over what is passed over does nothing. -/
theorem resumeEach_of_all_passed (h : ∀ id ∈ ids, v.IsPassed id) :
    v.resumeEach ids = (v, .ok []) := by
  induction ids with
  | nil => rfl
  | cons id rest ih =>
      rw [resumeEach_of_passed (h id List.mem_cons_self)]
      exact ih fun other hother => h other (List.mem_cons_of_mem _ hother)

/-! ## Some cases, one after the other -/

/-- What has been done when cases were picked up. -/
structure PickedUp (v : Service) (picked : List String) (v' : Service) : Prop where
  registered : ∀ id, v'.registered.contains id = true ↔
    v.registered.contains id = true ∨ id ∈ picked
  /-- What was registered keeps its place. -/
  place : ∀ id, v.registered.contains id = true → v'.place? id = v.place? id
  /-- One execution has joined for each of the cases, in this order. -/
  joined : ∃ xs, v'.host.executions = v.host.executions ++ xs ∧ xs.map Execution.caseId = picked
  rebuilt : ∀ id ∈ picked, ∃ x, Execution.resume v.host.ledger.journal id = .ok x ∧
    v'.execution? id = some x
  ledger : v'.host.ledger = v.host.ledger

theorem PickedUp.refl (v : Service) : PickedUp v [] v where
  registered id := by simp
  place id _ := rfl
  joined := ⟨[], by simp, rfl⟩
  rebuilt id h := by cases h
  ledger := rfl

theorem contains_join (v : Service) (caseId : String) (x : Execution) (id : String) :
    (v.join caseId x).registered.contains id = true ↔
      v.registered.contains id = true ∨ id = caseId := by
  by_cases hid : id = caseId
  · simp [hid, join, Table.contains_insert_self]
  · simp [hid, contains_join_of_ne hid]

theorem PickedUp.execution (h : PickedUp v picked v') (hknown : v.registered.contains id = true)
    (hx : v.execution? id = some x) : v'.execution? id = some x := by
  rcases Option.bind_eq_some_iff.1 hx with ⟨i, hplace, hexecution⟩
  have hlisted : v.host.executions[i]? = some x := hexecution
  have hlt : i < v.host.executions.length := (List.getElem?_eq_some_iff.1 hlisted).1
  rcases h.joined with ⟨xs, hexecutions, -⟩
  have hstill : v'.host.execution? i = some x := by
    rw [Host.execution?, hexecutions]
    exact (List.getElem?_append_left hlt).trans hlisted
  simp [execution?, h.place id hknown, hplace, hstill]

/-- One case more is picked up. -/
theorem PickedUp.cons (rebuilt : Execution.resume v.host.ledger.journal caseId = .ok x)
    (hnew : v.registered.contains caseId = false) (h : PickedUp (v.join caseId x) picked v') :
    PickedUp v (caseId :: picked) v' where
  registered id := by
    rw [h.registered, contains_join, List.mem_cons, or_assoc]
  place id hid := by
    have hne : id ≠ caseId := by
      rintro rfl
      rw [hid] at hnew
      cases hnew
    have hjoined : (v.join caseId x).registered.contains id = true :=
      (contains_join v caseId x id).2 (.inl hid)
    exact (h.place id hjoined).trans (place?_join_of_ne hne x)
  joined := by
    rcases h.joined with ⟨xs, hexecutions, hcases⟩
    refine ⟨x :: xs, ?_, ?_⟩
    · rw [hexecutions]
      exact List.append_assoc _ [x] xs
    · rw [List.map_cons, Execution.caseId_of_resume rebuilt, hcases]
  rebuilt id hid := by
    rcases List.mem_cons.1 hid with rfl | hlater
    · have hself := execution?_join_self v id x
      exact ⟨x, rebuilt, h.execution ((contains_join v id x id).2 (.inr rfl)) hself⟩
    · exact h.rebuilt id hlater
  ledger := h.ledger

/-- If all entries can be read, exactly the cases among these are picked up that are lost, in the
order of their ids. -/
theorem pickedUp (ids : List String) (sorted : ids.Pairwise (· ≤ ·))
    (loads : ∀ id ∈ ids, v.registered.contains id = false →
      ∃ es, v.host.ledger.journal.load id = .ok es) :
    ∃ picked, (v.resumeEach ids).2 = .ok picked ∧ picked.Pairwise (· < ·) ∧
      (∀ id, id ∈ picked ↔ id ∈ ids ∧ v.IsLost id) ∧ PickedUp v picked (v.resumeEach ids).1 := by
  induction ids generalizing v with
  | nil => exact ⟨[], rfl, .nil, by simp, .refl v⟩
  | cons first rest ih =>
      -- The first is picked up or passed over; what was lost of the rest is so still.
      have hsorted := List.pairwise_cons.1 sorted
      rcases isLost_or_isPassed (loads first List.mem_cons_self) with hlost | hpassed
      · rcases resumeEach_of_open hlost rest with ⟨x, hrebuilt, hresumed⟩
        have hlater : ∀ id, (v.join first x).IsLost id ↔ v.IsLost id ∧ id ≠ first := by
          intro id
          have hcontains := contains_join v first x id
          constructor
          · rintro ⟨hnew, htold⟩
            have hneither : ¬ (v.registered.contains id = true ∨ id = first) := by
              rw [← hcontains, hnew]
              exact Bool.false_ne_true
            rw [not_or] at hneither
            exact ⟨⟨Bool.eq_false_iff.2 hneither.1, htold⟩, hneither.2⟩
          · rintro ⟨⟨hnew, htold⟩, hne⟩
            exact ⟨(contains_join_of_ne hne x).trans hnew, htold⟩
        have hloads : ∀ id ∈ rest, (v.join first x).registered.contains id = false →
            ∃ es, v.host.ledger.journal.load id = .ok es :=
          fun id hid hnew => loads id (List.mem_cons_of_mem _ hid) (contains_of_join hnew)
        rcases ih (v := v.join first x) hsorted.2 hloads with
          ⟨picked, hanswer, hascending, hmem, hpicked⟩
        refine ⟨first :: picked, ?_, ?_, ?_, ?_⟩
        · rw [hresumed, hanswer]
          rfl
        · refine List.pairwise_cons.2 ⟨?_, hascending⟩
          intro id hid
          -- It stands later in the listing, and is not the same once more.
          rcases (hmem id).1 hid with ⟨hrest, hlost'⟩
          have hle : first ≤ id := hsorted.1 id hrest
          have hne : id ≠ first := ((hlater id).1 hlost').2
          exact String.not_le.1 fun hge => hne (String.le_antisymm hge hle)
        · intro id
          rw [List.mem_cons, List.mem_cons, hmem, hlater]
          constructor
          · rintro (rfl | ⟨hrest, hlost', -⟩)
            · exact ⟨.inl rfl, hlost⟩
            · exact ⟨.inr hrest, hlost'⟩
          · rintro ⟨rfl | hrest, hlost'⟩
            · exact .inl rfl
            · by_cases hid : id = first
              · exact .inl hid
              · exact .inr ⟨hrest, hlost', hid⟩
        · rw [hresumed]
          exact .cons hrebuilt hlost.1 hpicked
      · rw [resumeEach_of_passed hpassed]
        rcases ih hsorted.2 fun id hid => loads id (List.mem_cons_of_mem _ hid) with
          ⟨picked, hanswer, hascending, hmem, hpicked⟩
        refine ⟨picked, hanswer, hascending, ?_, hpicked⟩
        intro id
        rw [hmem, List.mem_cons]
        constructor
        · rintro ⟨hrest, hlost⟩
          exact ⟨.inr hrest, hlost⟩
        · rintro ⟨rfl | hrest, hlost⟩
          · exact absurd hlost (not_isLost hpassed)
          · exact ⟨hrest, hlost⟩

/-- What is registered afterwards, or was not lost, is passed over the next time. -/
theorem PickedUp.passed (h : PickedUp v picked v')
    (hmem : ∀ id, id ∈ picked ↔ id ∈ ids ∧ v.IsLost id)
    (loads : ∀ id ∈ ids, v.registered.contains id = false →
      ∃ es, v.host.ledger.journal.load id = .ok es) :
    ∀ id ∈ ids, v'.IsPassed id := by
  intro id hid
  rcases isLost_or_isPassed (loads id hid) with hlost | hknown | hread
  · exact .inl ((h.registered id).2 (.inr ((hmem id).2 ⟨hid, hlost⟩)))
  · exact .inl ((h.registered id).2 (.inl hknown))
  · right
    rwa [h.ledger]

end Service

open Service

/-- If the entries of all cases that are not registered can be read, then exactly those are picked
up, in ascending order, that were started and have not come to their end.  Others stay as they are,
and another time there is nothing left to be done. -/
theorem resumeAll_picks_up (v : Service)
    (loads : ∀ id ∈ v.host.ledger.journal.caseIds, v.registered.contains id = false →
      ∃ es, v.host.ledger.journal.load id = .ok es) :
    ∃ ids, v.resumeAll.2 = .ok ids ∧ ids.Pairwise (· < ·) ∧
      (∀ id, id ∈ ids ↔ id ∈ v.host.ledger.journal.caseIds ∧ v.registered.contains id = false ∧
        ∃ es, v.host.ledger.journal.load id = .ok es ∧ Journal.IsOpen es) ∧
      (∀ id, v.resumeAll.1.registered.contains id = true ↔
        v.registered.contains id = true ∨ id ∈ ids) ∧
      (∀ id, v.registered.contains id = true → v.resumeAll.1.place? id = v.place? id) ∧
      (∃ xs, v.resumeAll.1.host.executions = v.host.executions ++ xs ∧
        xs.map Execution.caseId = ids) ∧
      (∀ id ∈ ids, ∃ x, Execution.resume v.host.ledger.journal id = .ok x ∧
        v.resumeAll.1.execution? id = some x) ∧
      v.resumeAll.1.host.ledger.journal = v.host.ledger.journal ∧
      v.resumeAll.1.resumeAll = ({ v.resumeAll.1 with
        host := v.resumeAll.1.host.report (.span "case_service_resume_all") }, .ok []) := by
  have hsorted := Journal.pairwise_caseIds v.host.ledger.journal
  rcases pickedUp v.host.ledger.journal.caseIds hsorted loads with
    ⟨ids, hanswer, hascending, hmem, hpicked⟩
  have hledger : (v.resumeEach v.host.ledger.journal.caseIds).1.host.ledger = v.host.ledger :=
    hpicked.ledger
  have hjournal : v.resumeAll.1.host.ledger.journal = v.host.ledger.journal :=
    congrArg (·.journal) hledger
  refine ⟨ids, hanswer, hascending, hmem, hpicked.registered, hpicked.place, hpicked.joined,
    hpicked.rebuilt, hjournal, ?_⟩
  -- After the sweep every id is one that it passes over.
  have hpassed : ∀ id ∈ v.resumeAll.1.host.ledger.journal.caseIds, v.resumeAll.1.IsPassed id := by
    rw [hjournal]
    exact hpicked.passed hmem loads
  have hagain := resumeEach_of_all_passed hpassed
  rw [resumeAll, hagain]

/-! ## A journal of three cases -/

/-- A journal of a case that goes on, one that is completed, and one that was never started. -/
def Journal.mixed : Journal :=
  .memory [
    ("c", [.activityCompleted "analysis" .null ⟨0, 0⟩]),
    ("b", [.started "b" "approval" "1" .null ⟨0, 0⟩, .completed "Approved" ⟨1, 0⟩]),
    ("a", [.started "a" "approval" "1" .null ⟨0, 0⟩])]

/-- Only the first of them is picked up. -/
theorem resumeAll_picks_up_mixed :
    ∃ ids, (Service.onto .mixed).resumeAll.2 = .ok ids ∧ "a" ∈ ids ∧ "b" ∉ ids ∧ "c" ∉ ids := by
  have hloads : ∀ id ∈ Journal.mixed.caseIds, (Service.onto .mixed).registered.contains id = false →
      ∃ es, Journal.mixed.load id = .ok es := fun id _ _ => ⟨_, rfl⟩
  rcases resumeAll_picks_up (.onto .mixed) hloads with ⟨ids, hanswer, -, hmem, -⟩
  refine ⟨ids, hanswer, (hmem "a").2 ?_, ?_, ?_⟩
  · refine ⟨Journal.mem_caseIds_of_loads rfl, rfl, _, rfl, ⟨_, rfl, rfl⟩, ?_⟩
    intro last hlast
    cases hlast
    exact ⟨nofun, nofun⟩
  · intro hb
    rcases (hmem "b").1 hb with ⟨-, -, es, hload, hopen⟩
    cases hload
    exact (hopen.unfinished _ rfl).1 rfl
  · intro hc
    rcases (hmem "c").1 hc with ⟨-, -, es, hload, ⟨first, hfirst, hstarted⟩, -⟩
    cases hload
    cases hfirst
    cases hstarted

end Casework
