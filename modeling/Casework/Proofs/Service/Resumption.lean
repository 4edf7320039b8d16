import Casework.Proofs.Execution.Approval
import Casework.Proofs.Journal.Contents
import Casework.Proofs.Service.Operations

/-!
# Resumption — which cases a service picks up again

All cases of a journal are resumed one after the other, in the order of their ids.  A case that
cannot be resumed is passed over, but entries that cannot be read end the attempt.

* `Service.resumeEach_of_registered` : what is registered is left as it is;
* `Service.resumeEach_of_loads` : a case before which everything can be read is resumed;
* `Service.resumeEach_of_unreadable` : no case after entries that cannot be read is resumed;
* `resumes_up_to_unreadable` : what that means for the cases of a journal.
-/

namespace Casework
namespace Service

variable {v : Service} {caseId : String} {ids : List String} {x : Execution} {fault : Error}

theorem contains_join_of_ne {id : String} (h : caseId ≠ id) (x : Execution) :
    (v.join id x).registered.contains caseId = v.registered.contains caseId := by
  have hsame := Table.get?_insert_of_ne v.registered (v.host.spawn x).2 h
  simp [join, Table.contains_eq_isSome, hsame]

theorem contains_of_join {id : String} (h : (v.join id x).registered.contains caseId = false) :
    v.registered.contains caseId = false := by
  cases hbefore : v.registered.contains caseId with
  | false => rfl
  | true =>
      have hafter : (v.join id x).registered.contains caseId = true :=
        Table.contains_insert (v.host.spawn x).2 hbefore
      rw [hafter] at h
      cases h

theorem execution?_join_self (v : Service) (caseId : String) (x : Execution) :
    (v.join caseId x).execution? caseId = some x := by
  simp [execution?, place?, join, Table.get?_insert_self, Host.execution?, Host.spawn]

/-- The executions there are stay where they are. -/
theorem execution?_join_of_ne {id : String} {y : Execution} (h : caseId ≠ id)
    (hy : v.execution? caseId = some y) (x : Execution) :
    (v.join id x).execution? caseId = some y := by
  rcases Option.bind_eq_some_iff.1 hy with ⟨i, hplace, hexecution⟩
  have hplace' : (v.join id x).place? caseId = some i := by
    have hsame := Table.get?_insert_of_ne v.registered (v.host.spawn x).2 h
    exact hsame.trans hplace
  have hlisted : v.host.executions[i]? = some y := hexecution
  have hlength : i < v.host.executions.length := (List.getElem?_eq_some_iff.1 hlisted).1
  have hexecution' : (v.join id x).host.execution? i = some y :=
    (List.getElem?_append_left hlength).trans hlisted
  simp [execution?, hplace', hexecution']

/-- A case that is not registered has no execution. -/
theorem isRunning_of_unregistered (h : v.registered.contains caseId = false) :
    v.isRunning caseId = false := by
  have hplace : v.registered.get? caseId = none := by
    simpa [Table.contains_eq_isSome] using h
  simp [isRunning, execution?, place?, hplace]

/-- A case that is not registered is resumed if the journal tells of it. -/
theorem resume_of_unregistered (h : v.registered.contains caseId = false)
    (rebuilt : Execution.resume v.host.ledger.journal caseId = .ok x) :
    v.resume caseId = .ok (v.join caseId x) := by
  simp [resume, isRunning_of_unregistered h, Host.resume, rebuilt, Except.map, bind, Except.bind,
    pure, Except.pure, join]

/-- What one case does to the attempt: it is passed over, it ends the attempt, or it is resumed. -/
theorem resumeEach_cases (v : Service) (id : String) (rest : List String) :
    v.resumeEach (id :: rest) = v.resumeEach rest ∨
      (∃ fault, v.registered.contains id = false ∧ v.host.ledger.journal.load id = .error fault ∧
        v.resumeEach (id :: rest) = (v, .error fault)) ∨
      ∃ x, v.registered.contains id = false ∧ v.resumeEach (id :: rest) =
        (((v.join id x).resumeEach rest).1, ((v.join id x).resumeEach rest).2.map (id :: ·)) := by
  cases hknown : v.registered.contains id with
  | true =>
      left
      simp [resumeEach, hknown]
  | false =>
      cases hload : v.host.ledger.journal.load id with
      | error fault =>
          right
          left
          exact ⟨fault, rfl, rfl, by simp [resumeEach, hknown, hload]⟩
      | ok entries =>
          cases hclosed : isClosed entries with
          | true =>
              left
              simp [resumeEach, hknown, hload, hclosed]
          | false =>
              cases hresume : v.resume id with
              | error fault =>
                  left
                  simp [resumeEach, hknown, hload, hclosed, hresume]
              | ok v' =>
                  rcases of_resume hresume with ⟨-, x, -, rfl⟩
                  right
                  right
                  exact ⟨x, rfl, by simp [resumeEach, hknown, hload, hclosed, hresume]⟩

/-- A registered execution is left as it is. -/
theorem resumeEach_of_registered (ids : List String)
    (hknown : v.registered.contains caseId = true) (hx : v.execution? caseId = some x) :
    (v.resumeEach ids).1.execution? caseId = some x := by
  induction ids generalizing v with
  | nil => exact hx
  | cons id rest ih =>
      rcases resumeEach_cases v id rest with hpassed | ⟨fault, -, -, hended⟩ | ⟨y, hnew, hresumed⟩
      · rw [hpassed]
        exact ih hknown hx
      · rw [hended]
        exact hx
      · have hne : caseId ≠ id := by
          rintro rfl
          rw [hknown] at hnew
          cases hnew
        rw [hresumed]
        apply ih
        · rw [contains_join_of_ne hne]
          exact hknown
        · exact execution?_join_of_ne hne hx y

/-- A case is resumed if everything before it can be read. -/
theorem resumeEach_of_loads (before after : List String) {entries : List JournalEntry}
    (hnew : v.registered.contains caseId = false) (hbefore : caseId ∉ before)
    (readable : ∀ id ∈ before, v.registered.contains id = false →
      ∃ es, v.host.ledger.journal.load id = .ok es)
    (hload : v.host.ledger.journal.load caseId = .ok entries)
    (unfinished : isClosed entries = false)
    (rebuilt : Execution.resume v.host.ledger.journal caseId = .ok x) :
    (v.resumeEach (before ++ caseId :: after)).1.execution? caseId = some x := by
  -- Along the ids before the case, with the service that the earlier ones left.
  induction before generalizing v with
  | nil =>
      have hresume := resume_of_unregistered hnew rebuilt
      have hself := execution?_join_self v caseId x
      have hknown : (v.join caseId x).registered.contains caseId = true :=
        Table.contains_insert_self _ _ _
      simp only [List.nil_append, resumeEach, hnew, Bool.false_eq_true, if_false, hload, unfinished,
        hresume]
      exact resumeEach_of_registered after hknown hself
  | cons id rest ih =>
      have hne : caseId ≠ id := List.ne_of_not_mem_cons hbefore
      have hrest : caseId ∉ rest := List.not_mem_of_not_mem_cons hbefore
      rcases resumeEach_cases v id (rest ++ caseId :: after) with
        hpassed | ⟨fault, hid, hfault, -⟩ | ⟨y, hid, hresumed⟩
      · rw [List.cons_append, hpassed]
        apply ih hnew hrest _ hload rebuilt
        intro other hother
        exact readable other (List.mem_cons_of_mem _ hother)
      · rcases readable id List.mem_cons_self hid with ⟨es, hes⟩
        rw [hes] at hfault
        cases hfault
      · have hnew' : (v.join id y).registered.contains caseId = false := by
          rw [contains_join_of_ne hne]
          exact hnew
        have hreadable : ∀ other ∈ rest, (v.join id y).registered.contains other = false →
            ∃ es, v.host.ledger.journal.load other = .ok es := by
          intro other hother hunknown
          exact readable other (List.mem_cons_of_mem _ hother) (contains_of_join hunknown)
        rw [List.cons_append, hresumed]
        exact ih hnew' hrest hreadable hload rebuilt

/-- Entries that cannot be read end the attempt, and so do others before them.  What comes after is
not resumed. -/
theorem resumeEach_of_unreadable (before after : List String) {id : String}
    (hid : v.registered.contains id = false) (unread : id ∉ before)
    (hload : v.host.ledger.journal.load id = .error fault)
    (hnew : v.registered.contains caseId = false) (hbefore : caseId ∉ before) :
    (v.resumeEach (before ++ id :: after)).1.registered.contains caseId = false ∧
      ∃ id' fault', id' ∈ before ++ [id] ∧ v.host.ledger.journal.load id' = .error fault' ∧
        (v.resumeEach (before ++ id :: after)).2 = .error fault' := by
  -- Along the ids before it; if one of them cannot be read either, the attempt ends there.
  induction before generalizing v with
  | nil =>
      refine ⟨?_, id, fault, by simp, hload, ?_⟩
      · simpa [resumeEach, hid, hload] using hnew
      · simp [resumeEach, hid, hload]
  | cons first rest ih =>
      have hrest : caseId ∉ rest := List.not_mem_of_not_mem_cons hbefore
      have hrest' : id ∉ rest := List.not_mem_of_not_mem_cons unread
      rcases resumeEach_cases v first (rest ++ id :: after) with
        hpassed | ⟨cause, -, hcause, hended⟩ | ⟨y, -, hresumed⟩
      · rcases ih hid hrest' hload hnew hrest with ⟨hout, id', fault', hmem, hfault, herror⟩
        rw [List.cons_append, hpassed]
        exact ⟨hout, id', fault', List.mem_cons_of_mem _ hmem, hfault, herror⟩
      · rw [List.cons_append, hended]
        exact ⟨hnew, first, cause, List.mem_cons_self, hcause, rfl⟩
      · have hid' : (v.join first y).registered.contains id = false := by
          rw [contains_join_of_ne (List.ne_of_not_mem_cons unread)]
          exact hid
        have hnew' : (v.join first y).registered.contains caseId = false := by
          rw [contains_join_of_ne (List.ne_of_not_mem_cons hbefore)]
          exact hnew
        rcases ih hid' hrest' hload hnew' hrest with ⟨hout, id', fault', hmem, hfault, herror⟩
        rw [List.cons_append, hresumed]
        refine ⟨hout, id', fault', List.mem_cons_of_mem _ hmem, hfault, ?_⟩
        rw [herror]
        rfl

/-! ## All cases of a journal -/

/-- A case that loads, and before which all others load, is resumed. -/
theorem resumeAll_of_loads {c name version : String} {payload : Value} {t : Instant}
    {rest : List JournalEntry} (hnew : v.registered.contains caseId = false)
    (hload : v.host.ledger.journal.load caseId = .ok (.started c name version payload t :: rest))
    (unfinished : isClosed (.started c name version payload t :: rest) = false)
    (readable : ∀ id ∈ v.host.ledger.journal.caseIds, id < caseId →
      v.registered.contains id = false → ∃ es, v.host.ledger.journal.load id = .ok es) :
    v.resumeAll.1.execution? caseId =
      some (.launching caseId ⟨name, version, payload, t, false⟩ rest) := by
  have hlisted : caseId ∈ v.host.ledger.journal.caseIds := Journal.mem_caseIds_of_loads hload
  rcases List.eq_append_cons_of_mem hlisted with ⟨before, after, hids, hbefore⟩
  have hsorted := Journal.pairwise_caseIds v.host.ledger.journal
  rw [hids] at hsorted
  have hrebuilt : Execution.resume v.host.ledger.journal caseId =
      .ok (.launching caseId ⟨name, version, payload, t, false⟩ rest) := by
    simp [Execution.resume, hload, Execution.ofEntries, bind, Except.bind]
  have hreadable : ∀ id ∈ before, v.registered.contains id = false →
      ∃ es, v.host.ledger.journal.load id = .ok es := by
    intro id hid hunknown
    apply readable id _ _ hunknown
    · rw [hids]
      exact List.mem_append_left _ hid
    · -- It stands before the case and is another one.
      apply String.not_le.1
      intro hge
      have hle : id ≤ caseId :=
        (List.pairwise_append.1 hsorted).2.2 id hid caseId List.mem_cons_self
      exact hbefore (String.le_antisymm hle hge ▸ hid)
  have hresumed := resumeEach_of_loads before after hnew hbefore hreadable hload unfinished hrebuilt
  rw [← hids] at hresumed
  exact hresumed

/-- A case behind one that does not load is not. -/
theorem resumeAll_of_unreadable {id : String} (hlisted : id ∈ v.host.ledger.journal.caseIds)
    (hlt : id < caseId) (hid : v.registered.contains id = false)
    (hload : v.host.ledger.journal.load id = .error fault)
    (hnew : v.registered.contains caseId = false) :
    v.resumeAll.1.registered.contains caseId = false ∧
      ∃ id' fault', id' ≤ id ∧ v.host.ledger.journal.load id' = .error fault' ∧
        v.resumeAll.2 = .error fault' := by
  rcases List.eq_append_cons_of_mem hlisted with ⟨before, after, hids, hfirst⟩
  have hsorted := Journal.pairwise_caseIds v.host.ledger.journal
  rw [hids] at hsorted
  have hordered : ∀ other ∈ before, other ≤ id := by
    intro other hother
    exact (List.pairwise_append.1 hsorted).2.2 other hother id List.mem_cons_self
  have hbefore : caseId ∉ before := by
    intro hmem
    exact String.not_le.2 hlt (hordered caseId hmem)
  rcases resumeEach_of_unreadable before after hid hfirst hload hnew hbefore with
    ⟨hout, id', fault', hmem, hfault, herror⟩
  rw [← hids] at hout herror
  refine ⟨hout, id', fault', ?_, hfault, herror⟩
  rcases List.mem_append.1 hmem with hmem | hmem
  · exact hordered id' hmem
  · cases List.mem_singleton.1 hmem
    exact String.le_refl id

end Service

/-- A case of the journal that was not registered and has not come to its end is picked up where
its entries leave it, if all cases before it that were not registered can be read.  Otherwise the
attempt ends with the error of one of these, and the case stays unregistered. -/
theorem resumes_up_to_unreadable (v : Service) (caseId c name version : String) (payload : Value)
    (t : Instant) (rest : List JournalEntry)
    (unregistered : v.registered.contains caseId = false)
    (loads : v.host.ledger.journal.load caseId =
      .ok (.started c name version payload t :: rest))
    (unfinished : Service.isClosed (.started c name version payload t :: rest) = false) :
    ((∀ id ∈ v.host.ledger.journal.caseIds, id < caseId → v.registered.contains id = false →
        ∃ es, v.host.ledger.journal.load id = .ok es) →
      v.resumeAll.1.execution? caseId =
        some (.launching caseId ⟨name, version, payload, t, false⟩ rest)) ∧
    ∀ id ∈ v.host.ledger.journal.caseIds, id < caseId → v.registered.contains id = false →
      ∀ fault, v.host.ledger.journal.load id = .error fault →
        v.resumeAll.1.registered.contains caseId = false ∧
          ∃ id' fault', id' ≤ id ∧ v.host.ledger.journal.load id' = .error fault' ∧
            v.resumeAll.2 = .error fault' := by
  constructor
  · intro readable
    exact Service.resumeAll_of_loads unregistered loads unfinished readable
  · intro id hlisted hlt hid fault hfault
    exact Service.resumeAll_of_unreadable hlisted hlt hid hfault unregistered

/-! ## A damaged directory -/

namespace Journal

def startText : String :=
  "\x7b\"event\":\"started\",\"case_id\":\"b\",\"process_name\":\"approval\"," ++
    "\"process_version\":\"1\",\"payload\":null,\"at\":\"1970-01-01T00:00:00Z\"\x7d"

def startValue : Value :=
  .obj [("event", .str "started"), ("case_id", .str "b"), ("process_name", .str "approval"),
    ("process_version", .str "1"), ("payload", .null), ("at", .str "1970-01-01T00:00:00Z")]

theorem read_startText : Value.read? startText = some startValue := by
  cbv

theorem decode_startValue :
    JournalEntry.decoder.decode startValue = .ok (.started "b" "approval" "1" .null ⟨0, 0⟩) := by
  rfl

theorem lines_startText :
    ((Text.lines startText.toList).filter fun l => !l.all Text.isBlank) = [startText.toList] := by
  decide +kernel

theorem entryOfLine?_startText :
    entryOfLine? startText.toList = some (.started "b" "approval" "1" .null ⟨0, 0⟩) := by
  unfold entryOfLine?
  rw [String.ofList_toList, read_startText, Option.bind_eq_bind, Option.bind_some,
    decode_startValue]
  rfl

theorem entriesOfLines_singleton {file : String} {n : Nat} {cs : List Char} {e : JournalEntry}
    (h : entryOfLine? cs = some e) : entriesOfLines file n [cs] = .ok [e] := by
  simp [entriesOfLines, h, Except.map]

theorem entriesOfText_startText (file : String) :
    entriesOfText file startText = .ok [.started "b" "approval" "1" .null ⟨0, 0⟩] := by
  unfold entriesOfText
  rw [lines_startText]
  exact entriesOfLines_singleton entryOfLine?_startText

def damaged (name : String) : Journal :=
  .files [(name, .file .undecodable), ("b.jsonl", .file (.text startText))]

/-- The file of the other case is untouched by the damage. -/
theorem load_damaged (name : String) (h : name ≠ "b.jsonl") :
    (damaged name).load "b" = .ok [.started "b" "approval" "1" .null ⟨0, 0⟩] := by
  have hread : Folder.readText [(name, .file .undecodable), ("b.jsonl", .file (.text startText))]
      "b.jsonl" = .ok startText := by
    have hfault : nameFault? "b.jsonl" = none := by decide
    simp [Folder.readText, Folder.lookup, Folder.get?, hfault, h]
  have hname : fileName? "b" = .ok "b.jsonl" := by rfl
  unfold damaged load
  simp only [hname, bind, Except.bind, hread]
  exact entriesOfText_startText "b.jsonl"

/-- The damaged file does not load. -/
theorem load_damaged_self {caseId : String} (hid : isFileId caseId = true)
    (hfault : nameFault? (fileName caseId) = none) :
    (damaged (fileName caseId)).load caseId = .error (.io .notText) := by
  simp [damaged, load, fileName?, hid, Folder.readText, Folder.lookup, Folder.get?, hfault, bind,
    Except.bind]

end Journal

/-- A service over a journal that tells of cases it does not know. -/
def Service.onto (journal : Journal) : Service :=
  .new (.new (Engine.approving none) journal ⟨⟨0, 0⟩, "s-1", 0⟩)

/-- A file that is no text does no harm to the cases before it. -/
theorem resumes_up_to_unreadable_damaged :
    ((Service.onto (.damaged "c.jsonl")).resumeAll.1.execution? "b") =
      some (.launching "b" ⟨"approval", "1", .null, ⟨0, 0⟩, false⟩ []) := by
  have hload := Journal.load_damaged "c.jsonl" (by decide)
  refine (resumes_up_to_unreadable (.onto (.damaged "c.jsonl")) "b" "b" "approval" "1" .null ⟨0, 0⟩
    [] rfl hload rfl).1 ?_
  intro id hid hlt
  -- Neither of the two cases comes before this one.
  have hcases : id = "c" ∨ id = "b" := by
    have hmem := List.mem_mergeSort.1 hid
    simpa [Journal.caseIdOfFile?] using hmem
  rcases hcases with rfl | rfl
  · exact absurd hlt (by decide)
  · exact absurd hlt (by decide)

/-- A file that is no text keeps the cases after it from being resumed. -/
theorem unreadable_ends_attempt :
    (Journal.damaged "a.jsonl").load "b" = .ok [.started "b" "approval" "1" .null ⟨0, 0⟩] ∧
      (Service.onto (.damaged "a.jsonl")).resumeAll.1.registered.contains "b" = false := by
  have hload := Journal.load_damaged "a.jsonl" (by decide)
  have hunread : (Journal.damaged (Journal.fileName "a")).load "a" = .error (.io .notText) :=
    Journal.load_damaged_self rfl rfl
  have hlisted : "a" ∈ (Journal.damaged "a.jsonl").caseIds := by
    apply List.mem_mergeSort.2
    simp [Journal.caseIdOfFile?]
  exact ⟨hload, (Service.resumeAll_of_unreadable (v := .onto (.damaged "a.jsonl")) hlisted
    (by decide) rfl hunread rfl).1⟩

end Casework
