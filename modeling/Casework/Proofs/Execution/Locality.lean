import Casework.Proofs.Execution.Finality
import Casework.Proofs.Journal.Contents

/-!
# Locality — all that an execution reads and writes of a journal

Executions share one journal, and each of them uses no more of it than what is kept of its own case:
one key of a map, or one file of a directory.

* `Journal.Cell`, `Journal.cell` : what a journal keeps of a case;
* `Journal.load_of_cell`, `Journal.append_of_cell`, `Journal.cell_append_of_ne` : loading depends on
  the cell of the case, and so does appending, which leaves the others as they are;
* `Execution.cell_act` : what happens around an execution leaves the cells of other cases alone;
* `Execution.act_of_cell` : over two ledgers that keep the same of its case, the same happens.
-/

namespace Casework

namespace Journal

inductive Cell where
  | entries (held : Option (List JournalEntry))
  | node (held : Option FileNode)

def cell (caseId : String) : Journal → Cell
  | .memory cases => .entries (cases.get? caseId)
  | .files folder => .node (folder.get? (fileName caseId))

variable {j j' k : Journal} {caseId other : String} {e : JournalEntry}

/-- Journals that keep the same of a case are of one kind. -/
theorem cell_cases (h : j.cell caseId = k.cell caseId) :
    (∃ held held', j = .memory held ∧ k = .memory held' ∧ held.get? caseId = held'.get? caseId) ∨
      ∃ f f', j = .files f ∧ k = .files f' ∧
        Folder.get? f (fileName caseId) = Folder.get? f' (fileName caseId) := by
  cases j with
  | memory held =>
      cases k with
      | memory held' => exact .inl ⟨held, held', rfl, rfl, by simpa [cell] using h⟩
      | files f' => cases h
  | files f =>
      cases k with
      | memory held' => cases h
      | files f' => exact .inr ⟨f, f', rfl, rfl, by simpa [cell] using h⟩

/-- A case is loaded from its own cell. -/
theorem load_of_cell (h : j.cell caseId = k.cell caseId) : j.load caseId = k.load caseId := by
  rcases cell_cases h with ⟨held, held', rfl, rfl, hsame⟩ | ⟨f, f', rfl, rfl, hsame⟩
  · simp [load, hsame]
  · have hread : Folder.readText f (fileName caseId) = Folder.readText f' (fileName caseId) := by
      simp only [Folder.readText, Folder.lookup, hsame]
    cases hid : isFileId caseId with
    | true => rw [load_files hid, load_files hid, hread]
    | false => simp [load, fileName?, hid, bind, Except.bind]

/-- An append goes the same way in both, and leaves the same. -/
theorem append_of_cell (h : j.cell caseId = k.cell caseId) (e : JournalEntry) :
    (∃ fault, j.append caseId e = .error fault ∧ k.append caseId e = .error fault) ∨
      ∃ j' k', j.append caseId e = .ok j' ∧ k.append caseId e = .ok k' ∧
        j'.cell caseId = k'.cell caseId := by
  rcases cell_cases h with ⟨held, held', rfl, rfl, hsame⟩ | ⟨f, f', rfl, rfl, hsame⟩
  · exact .inr ⟨_, _, rfl, rfl, by simp [cell, Table.get?_insert_self, hsame]⟩
  · unfold append fileName?
    cases hid : isFileId caseId with
    | false => exact .inl ⟨_, rfl, rfl⟩
    | true =>
        simp only [if_true, bind, Except.bind, Folder.appendText, Folder.lookup, ← hsame]
        -- What is at the name decides, and it is the same in both directories.
        cases nameFault? (fileName caseId) with
        | some cause =>
            cases cause with
            | notFound => exact .inr ⟨_, _, rfl, rfl, by simp [cell, Folder.get?_put_self]⟩
            | _ => exact .inl ⟨_, rfl, rfl⟩
        | none =>
            cases hnode : Folder.get? f (fileName caseId) with
            | none => exact .inr ⟨_, _, rfl, rfl, by simp [cell, Folder.get?_put_self]⟩
            | some node =>
                cases node with
                | directory inner => exact .inl ⟨_, rfl, rfl⟩
                | file content =>
                    cases content with
                    | undecodable => exact .inr ⟨_, _, rfl, rfl, h⟩
                    | text s => exact .inr ⟨_, _, rfl, rfl, by simp [cell, Folder.get?_put_self]⟩

/-- What is appended to one case is no part of another. -/
theorem cell_append_of_ne (h : j.append caseId e = .ok j') (hne : other ≠ caseId) :
    j'.cell other = j.cell other := by
  cases j with
  | memory held =>
      rw [append_memory h]
      simp [cell, Table.get?_insert_of_ne _ _ hne]
  | files f =>
      rcases append_files h with ⟨-, f', htext, rfl⟩
      have hname : fileName other ≠ fileName caseId := fun heq => hne (fileName_injective heq)
      simp [cell, Folder.get?_of_appendText htext hname]

end Journal

namespace Execution

variable {g : Engine} {r : Readings} {x : Execution} {l m : Ledger} {other : String}

/-- What can be seen of an execution and of the ledger by those who ask about a case. -/
def seen (caseId : String) (p : Execution × Ledger) : Execution × Journal.Cell :=
  (p.1, p.2.journal.cell caseId)

/-! ## Other cases -/

/-- No step changes the case that a log is about. -/
theorem log_caseId_of_advance {b : Execution × Ledger} (h : x.advance g r l = some b) :
    b.1.context.log.caseId = x.context.log.caseId :=
  (advance_onward h).1

/-- A step leaves the cells of all other cases alone. -/
theorem cell_advance {b : Execution × Ledger} (h : x.advance g r l = some b)
    (hne : other ≠ x.context.log.caseId) : b.2.journal.cell other = l.journal.cell other := by
  cases haccepted : x.accepted? r l with
  | none => rw [journal_of_unaccepted h haccepted]
  | some e =>
      obtain ⟨hwritten, j, happend⟩ := of_accepted? haccepted
      rw [journal_of_append h hwritten happend]
      exact Journal.cell_append_of_ne happend hne

def Act.isForeign : Act → Bool
  | .others _ => true
  | _ => false

/-- What happens around an execution is not seen by those who ask about another case. -/
theorem cell_act (p : Execution × Ledger) {a : Act} (own : a.isForeign = false)
    (hne : other ≠ p.1.context.log.caseId) :
    (act p a).2.journal.cell other = p.2.journal.cell other := by
  have hacted := acted p a
  generalize act p a = q at hacted ⊢
  cases hacted with
  | toiled hstep =>
      have hcell := cell_advance hstep hne
      exact hcell
  | stuck _ => rfl
  | besides _ _ journal =>
      rcases journal with hsame | rfl
      · rw [hsame]
      · cases own

/-- It goes on writing to the journal of its case. -/
theorem log_caseId_act (p : Execution × Ledger) (a : Act) :
    (act p a).1.context.log.caseId = p.1.context.log.caseId := by
  have hacted := acted p a
  generalize act p a = q at hacted ⊢
  cases hacted with
  | toiled hstep =>
      have hcase := log_caseId_of_advance hstep
      exact hcase
  | stuck _ => rfl
  | besides _ _ _ => rfl

/-! ## The own case -/

section Own

variable {caseId : String}

theorem seen_inVisit {d : Definition} {n : Nat} {s : StepDefinition} {e : Executor}
    {a b : Context × Ledger × Visit} (context : a.1 = b.1) (visit : a.2.2 = b.2.2)
    (cell : a.2.1.journal.cell caseId = b.2.1.journal.cell caseId) :
    seen caseId (x.inVisit d n s e a) = seen caseId (x.inVisit d n s e b) := by
  simp only [seen, inVisit, context, visit, cell]

/-- Recording the start depends on the cell of the case only. -/
theorem seen_start (own : x.context.log.caseId = caseId)
    (h : l.journal.cell caseId = m.journal.cell caseId) :
    seen caseId (x.start l) = seen caseId (x.start m) := by
  subst own
  rcases Journal.append_of_cell h x.startEntry with
    ⟨fault, hl, hm⟩ | ⟨j, k, hl, hm, hcell⟩
  · rw [start_of_refused hl, start_of_refused hm]
    simp only [seen, h]
  · rw [start_of_kept hl, start_of_kept hm]
    simp only [seen, hcell]

/-- Whoever enters a step writes nothing, and sees nothing of the ledger. -/
theorem seen_enter {settings : EngineSettings} {e : Executor} {s : StepDefinition} {c : Context}
    {d : Definition} {n : Nat} (h : l.journal.cell caseId = m.journal.cell caseId) :
    seen caseId (x.inVisit d n s e (Visit.enter settings e s r c l)) =
      seen caseId (x.inVisit d n s e (Visit.enter settings e s r c m)) := by
  cases e with
  | humanInTheLoop => exact seen_inVisit rfl rfl h
  | finalCommit => exact seen_inVisit rfl rfl h
  | caseEnrichment enricher =>
      simp only [Visit.enter, Visit.enterEnrichment]
      split
      · exact seen_inVisit rfl rfl h
      · split <;> exact seen_inVisit rfl rfl h
      · split
        · exact seen_inVisit rfl rfl h
        · exact seen_inVisit rfl rfl h
        · split <;> exact seen_inVisit rfl rfl h

/-- So does recording a decision. -/
theorem seen_settleDecision {d : Definition} {n : Nat} {s : StepDefinition} {e : Executor}
    {signal : Signal} (own : x.context.log.caseId = caseId)
    (h : l.journal.cell caseId = m.journal.cell caseId) :
    seen caseId (x.inVisit d n s e (Visit.settleDecision s x.context l signal)) =
      seen caseId (x.inVisit d n s e (Visit.settleDecision s x.context m signal)) := by
  subst own
  rcases Journal.append_of_cell h (.signalConsumed s.stepId signal) with
    ⟨fault, hl, hm⟩ | ⟨j, k, hl, hm, hcell⟩
  · rw [settleDecision_of_refused hl, settleDecision_of_refused hm]
    exact seen_inVisit rfl rfl h
  · rw [settleDecision_of_kept hl, settleDecision_of_kept hm]
    exact seen_inVisit rfl rfl hcell

/-- So does recording an answer. -/
theorem seen_settleEnrichment {d : Definition} {n : Nat} {s : StepDefinition} {e : Executor}
    {a : Option Enrichment} {t : Instant} (own : x.context.log.caseId = caseId)
    (h : l.journal.cell caseId = m.journal.cell caseId) :
    seen caseId (x.inVisit d n s e (Visit.settleEnrichment s x.context l a t)) =
      seen caseId (x.inVisit d n s e (Visit.settleEnrichment s x.context m a t)) := by
  subst own
  rcases Journal.append_of_cell h (.activityCompleted s.stepId (toValue a) t) with
    ⟨fault, hl, hm⟩ | ⟨j, k, hl, hm, hcell⟩
  · rw [settleEnrichment_of_refused hl, settleEnrichment_of_refused hm]
    exact seen_inVisit rfl rfl h
  · rw [settleEnrichment_of_kept hl, settleEnrichment_of_kept hm]
    exact seen_inVisit rfl rfl hcell

/-- So does recording the end. -/
theorem seen_finish {result : Except Error Case} (own : x.context.log.caseId = caseId)
    (h : l.journal.cell caseId = m.journal.cell caseId) :
    seen caseId (x.finish l r result) = seen caseId (x.finish m r result) := by
  subst own
  cases hnext : x.context.log.hasNext (terminal r result).kind with
  | true =>
      rw [finish_of_next hnext, finish_of_next hnext]
      exact Prod.ext rfl h
  | false =>
      rcases Journal.append_of_cell h (terminal r result) with
        ⟨fault, hl, hm⟩ | ⟨j, k, hl, hm, hcell⟩
      · cases result with
        | ok done =>
            have hcompletel := Log.complete_of_refused hnext hl
            have hcompletem := Log.complete_of_refused hnext hm
            simp only [seen, finish, close, hcompletel, hcompletem, h]
        | error e =>
            have hfaill := Log.fail_of_refused hnext hl
            have hfailm := Log.fail_of_refused hnext hm
            simp only [seen, finish, close, hfaill, hfailm]
            exact Prod.ext rfl h
      · rw [finish_of_kept hnext hl, finish_of_kept hnext hm]
        exact Prod.ext rfl hcell

/-- An execution moves in the same way over ledgers that keep the same of its case. -/
theorem advance_of_cell (own : x.context.log.caseId = caseId)
    (h : l.journal.cell caseId = m.journal.cell caseId) :
    (x.advance g r l).map (seen caseId) = (x.advance g r m).map (seen caseId) := by
  -- A step reads of the ledger what the journal keeps of its case, and only where it appends.
  by_cases hs : x.status = .running
  · cases hp : x.phase with
    | starting =>
        rw [advance_of_starting hs hp, advance_of_starting hs hp]
        exact congrArg some (seen_start own h)
    | opening =>
        rw [advance_of_opening hs hp, advance_of_opening hs hp]
        exact congrArg some (Prod.ext rfl h)
    | dispatching d n stepId =>
        rw [advance_of_dispatching hs hp, advance_of_dispatching hs hp]
        exact congrArg some (Prod.ext rfl h)
    | visiting d n s e v =>
        cases v with
        | entering =>
            rw [advance_of_entering hs hp, advance_of_entering hs hp]
            exact congrArg some (seen_enter h)
        | awaiting w =>
            rw [advance_of_awaiting hs hp, advance_of_awaiting hs hp]
            cases w.advance x.context.inbox r.time with
            | none => rfl
            | some out => exact congrArg some (seen_inVisit rfl rfl h)
        | decided signal =>
            rw [advance_of_decided hs hp, advance_of_decided hs hp]
            exact congrArg some (seen_settleDecision own h)
        | analysed a t =>
            rw [advance_of_analysed hs hp, advance_of_analysed hs hp]
            exact congrArg some (seen_settleEnrichment own h)
        | left result =>
            rw [advance_of_left hs hp, advance_of_left hs hp]
            refine congrArg some (Prod.ext ?_ ?_)
            · simp only [seen, betweenVisits, proceed]
              split <;> rfl
            · simp only [seen, betweenVisits, journal_proceed, h]
    | closing result =>
        rw [advance_of_closing hs hp, advance_of_closing hs hp]
        exact congrArg some (seen_finish own h)
    | ended result =>
        rw [advance_of_ended hp, advance_of_ended hp]
  · have hstuck : ∀ n, x.advance g r n = none := by
      intro n
      cases hstep : x.advance g r n with
      | none => rfl
      | some b => exact absurd (running_of_advance hstep) hs
    rw [hstuck l, hstuck m]

/-- All steps of a task depend on the cell of the case only. -/
theorem toil_of_cell (own : x.context.log.caseId = caseId)
    (h : l.journal.cell caseId = m.journal.cell caseId) :
    (x.toil g r l).map (seen caseId) = (x.toil g r m).map (seen caseId) := by
  have hstep := advance_of_cell (g := g) (r := r) (x := { x with status := .running }) own h
  unfold toil
  cases hl : advance g r { x with status := .running } l with
  | none =>
      cases hm : advance g r { x with status := .running } m with
      | none => rfl
      | some b => simp [hl, hm] at hstep
  | some a =>
      cases hm : advance g r { x with status := .running } m with
      | none => simp [hl, hm] at hstep
      | some b =>
          have hsame : seen caseId a = seen caseId b := by simpa [hl, hm] using hstep
          simp only [seen, Prod.mk.injEq] at hsame
          simp [seen, hsame.1, hsame.2]

/-- Callers are answered without a look at the journal. -/
theorem handle_of_cell (h : l.journal.cell caseId = m.journal.cell caseId) (q : Request) :
    seen caseId (handle (x, l) q).1 = seen caseId (handle (x, m) q).1 ∧
      (handle (x, l) q).2 = (handle (x, m) q).2 := by
  have hreceive : ∀ s, seen caseId (receive s (x, l)).1 = seen caseId (receive s (x, m)).1 ∧
      (receive s (x, l)).2 = (receive s (x, m)).2 := by
    intro s
    unfold receive
    cases x.deliver s with
    | ok out => exact ⟨Prod.ext rfl h, rfl⟩
    | error fault => exact ⟨Prod.ext rfl h, rfl⟩
  cases q with
  | signal s => exact hreceive s
  | decide value r => exact hreceive _
  | cancel => exact ⟨Prod.ext rfl h, rfl⟩
  | look => exact ⟨Prod.ext rfl h, rfl⟩

/-- The same comes of an act over ledgers that keep the same of the case. -/
theorem act_of_cell (own : x.context.log.caseId = caseId)
    (h : l.journal.cell caseId = m.journal.cell caseId) {a : Act} (ownAct : a.isForeign = false) :
    seen caseId (act (x, l) a) = seen caseId (act (x, m) a) := by
  cases a with
  | task g r =>
      have htoil := toil_of_cell (g := g) (r := r) own h
      simp only [act]
      cases hl : x.toil g r l with
      | none =>
          cases hm : x.toil g r m with
          | none => exact Prod.ext rfl h
          | some b => simp [hl, hm] at htoil
      | some p =>
          cases hm : x.toil g r m with
          | none => simp [hl, hm] at htoil
          | some q => simpa [hl, hm] using htoil
  | drop =>
      simp only [act]
      split <;> exact Prod.ext rfl h
  | request q => exact (handle_of_cell h q).1
  | others l => cases ownAct

end Own

end Execution
end Casework
