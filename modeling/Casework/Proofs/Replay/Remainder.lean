import Casework.Proofs.Execution.Approval
import Casework.Proofs.Execution.Trace
import Casework.Proofs.Replay.Discipline

/-!
# Remainders — what is appended while recorded entries remain

An execution that is rebuilt from its journal answers look-ups from the recorded entries and appends
nothing meanwhile, with one exception: it may end before it has taken all of them, and then its end
is appended unless the entry that comes first is of the same kind.

* `Execution.written?_iff_of_remaining` : the entry of an atomic step while entries remain;
* `Trace.untouched` : the journal of the case until the execution ends;
* `remainder_kept` : both, and the journal afterwards;
* `end_recorded_amid_replay` : an attempt that fails for want of the definition is recorded in the
  midst of the replay, and leads the next one astray.
-/

namespace Casework

namespace Execution

variable {g : Engine} {r : Readings} {x : Execution} {l : Ledger} {b : Execution × Ledger}

/-- The last step ends an execution, whatever it records. -/
theorem ended_of_closing {result : Except Error Case} (hp : x.phase = .closing result)
    (h : x.advance g r l = some b) : ∃ result', b.1.phase = .ended result' := by
  have hrunning := running_of_advance h
  have hfinish := advance_of_closing (g := g) (r := r) (l := l) hrunning hp
  have hb : b = x.finish l r result := Option.some.inj (h.symm.trans hfinish)
  exact ⟨(close x.context l r result).2.2, by simp [hb, finish]⟩

/-- While entries remain, a step appends an entry just if it ends the execution and the entry that
comes first is of another kind. -/
theorem written?_iff_of_remaining (begun : x.phase ≠ .starting) (caught : x.Caught)
    (remain : x.pending ≠ []) {e : JournalEntry} :
    x.written? r = some e ↔ ∃ result, x.phase = .closing result ∧ e = terminal r result ∧
      x.context.log.hasNext e.kind = false := by
  have hclosed : x.phase.isOpen = false := by
    rcases hopen : x.phase.isOpen with _ | _
    · rfl
    · exact absurd (caught hopen) remain
  constructor
  · intro hwritten
    cases writes_of_written hwritten with
    | start hp => exact absurd hp begun
    -- Whoever is about to record something in a visit has no entry before it.
    | decision hp => simp [hp, Phase.isOpen, Visit.isOpen] at hclosed
    | answer hp => simp [hp, Phase.isOpen, Visit.isOpen] at hclosed
    | @ending result hp other => exact ⟨result, hp, rfl, other⟩
  · rintro ⟨result, hp, rfl, hnext⟩
    exact written?_of_other hp hnext

/-- Entries that remain after a step remained before it. -/
theorem remaining_of_advance (h : x.advance g r l = some b) (remain : b.1.pending ≠ []) :
    x.pending ≠ [] := by
  rcases (advance_onward h).2 with hsame | ⟨e, hfirst⟩
  · intro hnil
    exact remain (hsame.trans hnil)
  · intro hnil
    have hcons : e :: b.1.context.log.pending = [] := hfirst.symm.trans hnil
    cases hcons

end Execution

open Execution

/-! ## The journal of the case -/

/-- Until the execution ends, and while entries remain, nothing is appended. -/
theorem Trace.untouched {g : Engine} {caseId : String} {a b : Execution × Ledger}
    {os : List Occurrence} (run : Trace g caseId a os b) (begun : a.1.phase ≠ .starting)
    (caught : a.1.Caught) (remain : b.1.pending ≠ []) (unended : ∀ z, b.1.phase ≠ .ended z) :
    Trace.entries os = [] ∧ b.2.journal.load caseId = a.2.journal.load caseId := by
  -- By the last occurrence: entries that remain after it remained before it.
  induction run with
  | refl => exact ⟨rfl, rfl⟩
  | @next os o b c before h ih =>
      have hbegun : b.1.phase ≠ .starting := begun_of_reaches begun before.reaches
      have hcaught : b.1.Caught := before.caught caught
      cases h with
      | @step g' r x l c alike hstep =>
          have hremain : x.pending ≠ [] := remaining_of_advance hstep remain
          have hunended : ∀ z, x.phase ≠ .ended z := by
            intro z hp
            have hnone := advance_of_ended (g := g') (r := r) (l := l) hp
            simp [hnone] at hstep
          have hunwritten : x.written? r = none := by
            rcases hwritten : x.written? r with _ | e
            · rfl
            · -- The only step that appends is the one that ends the execution.
              obtain ⟨result, hp, -, -⟩ :=
                (written?_iff_of_remaining hbegun hcaught hremain).1 hwritten
              obtain ⟨z, hended⟩ := ended_of_closing hp hstep
              exact absurd hended (unended z)
          have hjournal := journal_of_advance hstep hunwritten
          obtain ⟨hentries, hload⟩ := ih hremain hunended
          refine ⟨?_, ?_⟩
          · simp [hentries, Occurrence.taken?, accepted?_of_unwritten hunwritten]
          · simpa [hjournal] using hload
      | delivery hdeliver =>
          obtain ⟨-, inbox, rfl⟩ := of_deliver hdeliver
          simpa [Occurrence.taken?] using ih remain unended
      | stop x l =>
          have hpending : x.cancel.pending = x.pending :=
            congrArg (·.log.pending) (context_cancel x)
          have hbefore := ih (by simpa [hpending] using remain) (by simpa using unended)
          simpa [Occurrence.taken?] using hbefore
      | elsewhere same =>
          obtain ⟨hentries, hload⟩ := ih remain unended
          exact ⟨by simp [hentries, Occurrence.taken?], same.trans hload⟩

/-- While recorded entries remain, an execution that was rebuilt from its journal appends nothing
before it ends.  What it appends then is its end, just if the entry that comes first is of another
kind. -/
theorem remainder_kept (g : Engine) (caseId : String) (l₀ : Ledger) (y : Execution)
    (resumed : Execution.resume l₀.journal caseId = .ok y) (os : List Occurrence) (x : Execution)
    (l : Ledger) (run : Trace g caseId (y, l₀) os (x, l)) (remain : x.pending ≠ []) :
    ((∀ z, x.phase ≠ .ended z) →
      Trace.entries os = [] ∧ l.journal.load caseId = l₀.journal.load caseId) ∧
    (∀ r e, x.written? r = some e ↔ ∃ result, x.phase = .closing result ∧
      e = terminal r result ∧ x.context.log.hasNext e.kind = false) ∧
    ∀ g' r result b held, x.phase = .closing result → x.advance g' r l = some b → x.Kept r l →
      l₀.journal.load caseId = .ok held →
        b.2.journal.load caseId = .ok
          (if x.context.log.hasNext (terminal r result).kind then held
            else held ++ [terminal r result]) := by
  obtain ⟨c, name, version, payload, t, entries, -, rfl⟩ := of_resume resumed
  have hbegun : ∀ z, Reaches g (.launching caseId ⟨name, version, payload, t, false⟩ entries) z →
      z.phase ≠ .starting := by
    intro z hreaches
    exact begun_of_reaches (by simp [launching]) hreaches
  have hcaught := caught_launching caseId ⟨name, version, payload, t, false⟩ entries
  have huntouched := run.untouched (hbegun _ .refl) hcaught remain
  refine ⟨huntouched, ?_, ?_⟩
  · intro r e
    exact written?_iff_of_remaining (hbegun x run.reaches) (run.caught hcaught) remain
  · intro g' r result b held hp hstep kept hheld
    have hcase : x.context.log.caseId = caseId := run.case
    have hload : l.journal.load caseId = .ok held := by
      have hunended : ∀ z, x.phase ≠ .ended z := by simp [hp]
      exact (huntouched hunended).2.trans hheld
    have hafter := load_of_advance hstep hcase kept hload
    -- An entry of the same kind at the head of the queue stands for the one to be written.
    cases hnext : x.context.log.hasNext (terminal r result).kind with
    | true => simpa [written?_of_next hp hnext] using hafter
    | false => simpa [written?_of_other hp hnext] using hafter

/-! ## An approval that is resumed too early -/

/-- The engine of approvals while their definition cannot be found. -/
def Engine.misplaced : Engine := { Engine.approving none with loader := .memory [] }

/-- What was recorded of an approval whose reviewer is being asked. -/
def analysisRecorded : List JournalEntry :=
  [.started "case-1" "approval" "1" .null ⟨0, 0⟩, .activityCompleted "analysis" .null ⟨0, 0⟩]

def Ledger.ofAnalysis : Ledger := ⟨.memory [("case-1", analysisRecorded)], [], []⟩

/-- The replay of an approval without its process records its failure with an entry still ahead. -/
theorem remainder_kept_approval :
    ∃ y os x l, Execution.resume Ledger.ofAnalysis.journal "case-1" = .ok y ∧
      Trace Engine.misplaced "case-1" (y, .ofAnalysis) os (x, l) ∧ x.pending ≠ [] ∧
      Trace.entries os = [] ∧ l.journal.load "case-1" = .ok analysisRecorded ∧
      x.written? default =
        some (.failed "Process definition not found: approval v1" ⟨0, 0⟩) := by
  have run : ∃ y os x l, Execution.resume Ledger.ofAnalysis.journal "case-1" = .ok y ∧
      Trace Engine.misplaced "case-1" (y, .ofAnalysis) os (x, l) ∧
      x.pending = [.activityCompleted "analysis" .null ⟨0, 0⟩] ∧
      x.phase = .closing (.error (.definitionNotFound "approval" "1")) :=
    ⟨_, _, _, _, rfl, Trace.refl.steps 1, rfl, rfl⟩
  obtain ⟨y, os, x, l, hresume, htrace, hpending, hp⟩ := run
  have hremain : x.pending ≠ [] := by simp [hpending]
  obtain ⟨huntouched, hwritten, -⟩ :=
    remainder_kept Engine.misplaced "case-1" .ofAnalysis y hresume os x l htrace hremain
  obtain ⟨hentries, hload⟩ := huntouched (by simp [hp])
  refine ⟨y, os, x, l, hresume, htrace, hremain, hentries, hload, ?_⟩
  apply (hwritten default _).2
  refine ⟨_, hp, rfl, ?_⟩
  have hnext : x.context.log.pending = [.activityCompleted "analysis" .null ⟨0, 0⟩] := hpending
  simp [Log.hasNext, hnext, JournalEntry.kind]

/-- An attempt to resume an approval while its definition cannot be found appends a failure before
any recorded entry is taken.  A later attempt with the definition takes that failure for what came
after the analysis, and fails as well, where the first would have waited for the reviewer. -/
theorem end_recorded_amid_replay :
    ∃ y, Execution.resume Ledger.ofAnalysis.journal "case-1" = .ok y ∧
      (∃ os x l, Trace Engine.misplaced "case-1" (y, .ofAnalysis) os (x, l) ∧
        x.pending = analysisRecorded.tail ∧
        x.result? = some (.error (.definitionNotFound "approval" "1")) ∧
        l.journal.load "case-1" = .ok (analysisRecorded ++
          [.failed "Process definition not found: approval v1" ⟨0, 0⟩]) ∧
        ∃ y' os' x' l', Execution.resume l.journal "case-1" = .ok y' ∧
          Trace (Engine.approving none) "case-1" (y', l) os' (x', l') ∧
          x'.result? = some (.error (.replayDivergence "review"
            "expected signal_consumed, journal has failed"))) ∧
      ∃ os x l, Trace (Engine.approving none) "case-1" (y, .ofAnalysis) os (x, l) ∧
        x.IsAwaiting ∧ x.pending = [] := by
  refine ⟨_, rfl, ⟨_, _, _, Trace.refl.steps 2, rfl, rfl, rfl, ?_⟩, ?_⟩
  · exact ⟨_, _, _, _, rfl, Trace.refl.steps 8, rfl⟩
  · exact ⟨_, _, _, Trace.refl.steps 6, ⟨_, _, _, _, _, rfl⟩, rfl⟩

end Casework
