import Casework.Proofs.Execution.Writing

/-!
# Traces — what happens to an execution, in order

A trace tells of everything that happens to one execution while nobody else writes to the journal
of its case.

* `Occurrence` : an atomic step with what it finds, a delivery, the end by the host, or something
  that others do to the ledger;
* `Occurs`, `Trace` : one of them and any number of them;
* `Trace.entries` : the entries that the journal took;
* `Execution.Starts`, `Begins` : how executions begin.
-/

namespace Casework

/-- One thing that happens in the course of an execution. -/
inductive Occurrence where
  /-- The execution takes an atomic step, with these readings and over this ledger. -/
  | step (x : Execution) (r : Readings) (l : Ledger)
  /-- A signal is delivered. -/
  | delivery (signal : Signal) (disposition : Disposition)
  /-- The host stops the execution, unless it is finished. -/
  | stop
  /-- Others write to the ledger, but not to the journal of the case. -/
  | elsewhere

namespace Occurrence

def taken? : Occurrence → Option JournalEntry
  | .step x r l => x.accepted? r l
  | _ => none

end Occurrence

/-- One thing happens.  Each step is taken in a world of its own. -/
inductive Occurs (g : Engine) (caseId : String) :
    Execution × Ledger → Occurrence → Execution × Ledger → Prop
  | step {g' : Engine} {r : Readings} {x : Execution} {l : Ledger} {b : Execution × Ledger}
      (alike : g.Alike g') (h : x.advance g' r l = some b) :
      Occurs g caseId (x, l) (.step x r l) b
  | delivery {x x' : Execution} {l : Ledger} {s : Signal} {disposition : Disposition}
      (h : x.deliver s = .ok (x', disposition)) :
      Occurs g caseId (x, l) (.delivery s disposition) (x', l)
  | stop (x : Execution) (l : Ledger) : Occurs g caseId (x, l) .stop (x.cancel, l)
  | elsewhere {x : Execution} {l l' : Ledger}
      (same : l'.journal.load caseId = l.journal.load caseId) :
      Occurs g caseId (x, l) .elsewhere (x, l')

inductive Trace (g : Engine) (caseId : String) (a : Execution × Ledger) :
    List Occurrence → Execution × Ledger → Prop
  | refl : Trace g caseId a [] a
  | next {os : List Occurrence} {o : Occurrence} {b c : Execution × Ledger}
      (before : Trace g caseId a os b) (h : Occurs g caseId b o c) :
      Trace g caseId a (os ++ [o]) c

namespace Trace

def entries (os : List Occurrence) : List JournalEntry :=
  os.filterMap Occurrence.taken?

@[simp] theorem entries_nil : entries [] = [] := rfl

@[simp] theorem entries_concat (os : List Occurrence) (o : Occurrence) :
    entries (os ++ [o]) = entries os ++ o.taken?.toList := by
  cases h : o.taken? <;> simp [entries, h]

end Trace

/-- What happens when an execution takes its next steps in a world as it is: so many of them, or as
many as it can take. -/
def Execution.stepsOf (g : Engine) :
    Nat → Execution × Ledger → List Occurrence × (Execution × Ledger)
  | 0, a => ([], a)
  | n + 1, (x, l) =>
      match x.advance g default l with
      | none => ([], (x, l))
      | some b =>
          let (os, c) := stepsOf g n b
          (.step x default l :: os, c)

/-- Atomic steps that nobody disturbs go on from a trace. -/
theorem Trace.steps {g : Engine} {caseId : String} {a b : Execution × Ledger}
    {os : List Occurrence} (before : Trace g caseId a os b) (n : Nat) :
    Trace g caseId a (os ++ (Execution.stepsOf g n b).1) (Execution.stepsOf g n b).2 := by
  induction n generalizing os b with
  | zero => simpa [Execution.stepsOf] using before
  | succ n ih =>
      rcases b with ⟨x, l⟩
      cases hstep : x.advance g default l with
      | none => simpa [Execution.stepsOf, hstep] using before
      | some b =>
          have hnext : Trace g caseId a (os ++ [.step x default l]) b :=
            before.next (.step (.refl g) hstep)
          simpa [Execution.stepsOf, hstep] using ih hnext

namespace Execution

variable {g : Engine} {x x' : Execution}

variable {r : Readings} {l : Ledger} {b : Execution × Ledger}

/-- An atomic step leads to what comes between the start and the end, or it ends the execution. -/
theorem underway_or_ended (h : x.advance g r l = some b) :
    (b.1.phase ≠ .starting ∧ ∀ result, b.1.phase ≠ .ended result) ∨
      ∃ result, b.1.phase = .ended result ∧ b.1.status = .ofResult result := by
  -- No step leads back to the start, and one alone to the end.
  cases stepping h with
  | @closing result hp => exact .inr ⟨_, rfl, rfl⟩
  | starting hp =>
      left
      unfold start
      split <;> simp
  | opening hp =>
      left
      unfold openCase
      split <;> simp
  | dispatching hp =>
      left
      simp only [dispatch]
      split
      · simp
      · split <;> simp
  | left hp =>
      left
      simp only [betweenVisits, proceed]
      split <;> simp
  | _ => exact .inl (by simp [inVisit])

/-- Only the last step finishes an execution. -/
theorem closing_of_finished (h : x.advance g r l = some b) (finished : b.1.isFinished = true) :
    ∃ result, x.phase = .closing result := by
  have hs := running_of_advance h
  have hcontrary : b.1.status ≠ .running := by
    intro hrunning
    rw [running_iff.2 hrunning] at finished
    cases finished
  cases stepping h with
  | closing hp => exact ⟨_, hp⟩
  | starting hp =>
      refine absurd ?_ hcontrary
      unfold start
      split <;> exact hs
  | opening hp =>
      refine absurd ?_ hcontrary
      unfold openCase
      split <;> exact hs
  | _ => exact absurd hs hcontrary

/-- An execution goes on running, or has the status of its result. -/
theorem status_of_advance (h : x.advance g r l = some b) :
    b.1.status = .running ∨
      ∃ result, b.1.phase = .ended result ∧ b.1.status = .ofResult result := by
  cases hfinished : b.1.isFinished with
  | false => exact .inl (running_iff.1 hfinished)
  | true =>
      obtain ⟨result, hp⟩ := closing_of_finished h hfinished
      rw [advance_of_closing (running_of_advance h) hp] at h
      cases h
      exact .inr ⟨_, rfl, rfl⟩

/-- Whatever moves an execution without a step of its own leaves it where it is. -/
theorem stepped_or_same_phase (h : Moves g x x') :
    (∃ g' r l b, x.advance g' r l = some b ∧ b.1 = x') ∨
      (x'.phase = x.phase ∧ (x.isFinished = true → x'.isFinished = true)) := by
  cases h with
  | step _ hstep => exact .inl ⟨_, _, _, _, hstep, rfl⟩
  | deliver hdeliver =>
      obtain ⟨-, inbox, rfl⟩ := of_deliver hdeliver
      exact .inr ⟨rfl, id⟩
  | cancel => exact .inr ⟨phase_cancel x, fun _ => isFinished_cancel x⟩

/-- Nobody is about to record a start after an atomic step. -/
theorem begun_of_advance (h : x.advance g r l = some b) : b.1.phase ≠ .starting := by
  rcases underway_or_ended h with ⟨hbegun, -⟩ | ⟨result, hended, -⟩
  · exact hbegun
  · simp [hended]

/-- An execution that has left its start does not come back to it. -/
theorem begun_of_reaches (begun : x.phase ≠ .starting) (h : Reaches g x x') :
    x'.phase ≠ .starting := by
  induction h with
  | refl => exact begun
  | tail _ hmoves ih =>
      rcases stepped_or_same_phase hmoves with ⟨g', r, l, b, hstep, rfl⟩ | ⟨hsame, -⟩
      · exact begun_of_advance hstep
      · rw [hsame]
        exact ih

/-- Whether an execution that has ended counts as finished. -/
def Closes (x : Execution) : Prop :=
  ∀ result, x.phase = .ended result → x.isFinished = true

/-- A step that ends an execution finishes it. -/
theorem closes_of_advance (h : x.advance g r l = some b) : b.1.Closes := by
  intro result hp
  rcases underway_or_ended h with ⟨-, hunended⟩ | ⟨result', -, hstatus⟩
  · exact absurd hp (hunended result)
  · cases result' <;> simp [isFinished, hstatus, ExecutionStatus.ofResult,
      ExecutionStatus.isFinished]

/-- So whoever has ended is finished, in every state that is reached. -/
theorem closes_of_reaches (hx : x.Closes) (h : Reaches g x x') : x'.Closes := by
  induction h with
  | refl => exact hx
  | tail _ hmoves ih =>
      rcases stepped_or_same_phase hmoves with ⟨g', r, l, b, hstep, rfl⟩ | ⟨hsame, hfinished⟩
      · exact closes_of_advance hstep
      · intro result hp
        exact hfinished (ih result (hsame.symm.trans hp))

end Execution

section Run

open Execution

variable {g : Engine} {caseId : String} {a b c : Execution × Ledger} {o : Occurrence}
variable {os : List Occurrence} {held : List JournalEntry}

/-- What happens moves the execution, or leaves it alone. -/
theorem Occurs.moves (h : Occurs g caseId a o b) : b.1 = a.1 ∨ Moves g a.1 b.1 := by
  cases h with
  | step alike hstep => exact .inr (.step alike hstep)
  | delivery hdeliver => exact .inr (.deliver hdeliver)
  | stop x l => exact .inr (.cancel x)
  | elsewhere same => exact .inl rfl

/-- What happens along a trace is among what may happen at all. -/
theorem Trace.reaches (h : Trace g caseId a os b) : Reaches g a.1 b.1 := by
  induction h with
  | refl => exact .refl
  | next before h ih =>
      rcases h.moves with hsame | hmoves
      · rw [hsame]
        exact ih
      · exact ih.tail hmoves

theorem Occurs.case (h : Occurs g caseId a o b) :
    b.1.context.log.caseId = a.1.context.log.caseId := by
  rcases h.moves with hsame | hmoves
  · rw [hsame]
  · exact (moves_onward hmoves).1

/-- A trace is about one case from its beginning to its end. -/
theorem Trace.case (h : Trace g caseId a os b) :
    b.1.context.log.caseId = a.1.context.log.caseId := by
  induction h with
  | refl => rfl
  | next before h ih => exact h.case.trans ih

theorem Occurs.caught (h : Occurs g caseId a o b) (ha : a.1.Caught) : b.1.Caught := by
  rcases h.moves with hsame | hmoves
  · rw [hsame]
    exact ha
  · exact caught_of_moves ha hmoves

/-- What is caught at the beginning of a trace is caught at its end. -/
theorem Trace.caught (h : Trace g caseId a os b) (ha : a.1.Caught) : b.1.Caught := by
  induction h with
  | refl => exact ha
  | next before h ih => exact h.caught ih

end Run

/-- Whoever is rebuilt from a journal has the entries after the first before it. -/
theorem Execution.of_resume {j : Journal} {caseId : String} {y : Execution}
    (h : Execution.resume j caseId = .ok y) :
    ∃ c name version payload t entries,
      j.load caseId = .ok (.started c name version payload t :: entries) ∧
        y = .launching caseId ⟨name, version, payload, t, false⟩ entries := by
  unfold Execution.resume at h
  cases hload : j.load caseId with
  | error fault => simp [hload, bind, Except.bind] at h
  | ok held =>
      have hentries : Execution.ofEntries caseId held = .ok y := by
        simpa [hload, bind, Except.bind] using h
      cases held with
      | nil => simp [Execution.ofEntries] at hentries
      | cons e rest =>
          cases e with
          | started c name version payload t =>
              have hy : y = .launching caseId ⟨name, version, payload, t, false⟩ rest := by
                simpa [Execution.ofEntries] using hentries.symm
              exact ⟨c, name, version, payload, t, rest, rfl, hy⟩
          | _ => simp [Execution.ofEntries] at hentries

/-- What is rebuilt is about the case that was asked for. -/
theorem Execution.caseId_of_resume {j : Journal} {caseId : String} {x : Execution}
    (h : Execution.resume j caseId = .ok x) : x.caseId = caseId := by
  obtain ⟨c, name, version, payload, t, entries, -, rfl⟩ := of_resume h
  rfl

theorem Execution.closes_launching (caseId : String) (launch : Launch)
    (entries : List JournalEntry) : (launching caseId launch entries).Closes := by
  intro result hp
  unfold launching at hp
  dsimp only at hp
  split at hp <;> cases hp

/-- Whoever does not move, and is not finished, waits for a decision. -/
theorem Execution.awaits_of_stuck {g : Engine} {x : Execution} {r : Readings} {l : Ledger}
    (closes : x.Closes) (running : x.isFinished = false) (stuck : x.advance g r l = none) :
    x.IsAwaiting := by
  have hs : x.status = .running := running_iff.1 running
  by_cases hawait : x.IsAwaiting
  · exact hawait
  · have hunended : ∀ result, x.phase ≠ .ended result := by
      intro result hp
      have hfinished := closes result hp
      simp [hfinished] at running
    have hmoves := advance_isSome (g := g) (r := r) (l := l) hs hawait hunended
    simp [stuck] at hmoves

/-- An execution that runs and cannot move waits for a decision. -/
theorem Execution.awaits_of_reaches {g g' : Engine} {caseId : String} {launch : Launch}
    {entries : List JournalEntry} {x : Execution} {r : Readings} {l : Ledger}
    (run : Reaches g (launching caseId launch entries) x) (running : x.isFinished = false)
    (stuck : x.advance g' r l = none) : x.IsAwaiting :=
  awaits_of_stuck (closes_of_reaches (closes_launching caseId launch entries) run) running stuck

/-- Executions that have done nothing yet: new ones, and those rebuilt from any journal. -/
inductive Execution.Starts : Execution → Prop
  | fresh (caseId name version : String) (payload : Value) (now : Instant) :
      Starts (.fresh caseId name version payload now)
  | resumed {j : Journal} {caseId : String} {x : Execution}
      (h : Execution.resume j caseId = .ok x) : Starts x

/-- Whatever starts is fresh or resumed. -/
theorem Execution.Starts.launching {x : Execution} (h : x.Starts) :
    ∃ caseId launch entries, x = .launching caseId launch entries := by
  cases h with
  | fresh caseId name version payload now => exact ⟨_, _, _, rfl⟩
  | resumed hresume =>
      obtain ⟨c, name, version, payload, t, entries, -, rfl⟩ := of_resume hresume
      exact ⟨_, _, _, rfl⟩

/-- How an execution of a case begins, and what the journal of the case holds then: it is new and
the journal empty, or it is rebuilt from the journal. -/
inductive Begins (caseId : String) (l : Ledger) : Execution → List JournalEntry → Prop
  | fresh (name version : String) (payload : Value) (now : Instant)
      (empty : l.journal.load caseId = .ok []) :
      Begins caseId l (.fresh caseId name version payload now) []
  | resumed {x : Execution} {held : List JournalEntry} (loaded : l.journal.load caseId = .ok held)
      (h : Execution.resume l.journal caseId = .ok x) : Begins caseId l x held

section Begins

open Execution

variable {g : Engine} {caseId : String} {l : Ledger} {x : Execution} {held : List JournalEntry}

theorem Begins.launching (h : Begins caseId l x held) :
    ∃ launch entries, x = .launching caseId launch entries := by
  cases h with
  | fresh name version payload now empty => exact ⟨_, _, rfl⟩
  | resumed loaded hresume =>
      obtain ⟨c, name, version, payload, t, entries, -, rfl⟩ := of_resume hresume
      exact ⟨_, _, rfl⟩

/-- A run begins with what the journal holds of its case. -/
theorem Begins.load (h : Begins caseId l x held) : l.journal.load caseId = .ok held := by
  cases h with
  | fresh name version payload now empty => exact empty
  | resumed loaded hresume => exact loaded

theorem Begins.case (h : Begins caseId l x held) : x.context.log.caseId = caseId := by
  obtain ⟨launch, entries, rfl⟩ := h.launching
  rfl

theorem Begins.caught (h : Begins caseId l x held) : x.Caught := by
  obtain ⟨launch, entries, rfl⟩ := h.launching
  exact caught_launching caseId launch entries

theorem Begins.closes (h : Begins caseId l x held) : x.Closes := by
  obtain ⟨launch, entries, rfl⟩ := h.launching
  exact closes_launching caseId launch entries

end Begins

end Casework
