import Casework.Proofs.Replay.Turns

/-!
# Stories — what the journal of a run says about it

The invariant of a run that began fresh: whatever is appended later, an execution that is built from
what was appended so far and later heads for a shadow of the run.

* `Replayable` : the invariant;
* `Story`, `Story.turns` : it holds from the first step on;
* `Replayable.resume` : an execution that is resumed now heads for a shadow with nothing to come;
* `Shadow.catchesUp` : while the run waits, the shadow catches up with it.
-/

namespace Casework

open Execution

def Launch.entry (launch : Launch) (caseId : String) : JournalEntry :=
  .started caseId launch.processName launch.processVersion launch.payload launch.startedAt

def Phase.isUnderway : Phase → Bool
  | .starting | .ended _ => false
  | _ => true

/-- An execution that has begun is running until it ends, and shows how it ended. -/
inductive Execution.Standing (x : Execution) : Prop
  | underway (running : x.status = .running) (hp : x.phase.isUnderway = true)
  | ended {result : Except Error Case} (hp : x.phase = .ended result)
      (hs : x.status = .ofResult result)

/-- What was appended replays to a shadow of the execution, whatever is appended later. -/
structure Replayable (g : Engine) (caseId : String) (launch : Launch) (a : Snapshot) : Prop where
  standing : a.execution.Standing
  live : a.execution.pending = []
  case : a.execution.context.log.caseId = caseId
  recorded : ∃ recorded, a.entries = launch.entry caseId :: recorded ∧
    ∀ entries y, y.core = (launching caseId launch.core (recorded ++ entries)).core →
      Heads g (Shadow g a.execution entries) y

def Story (g : Engine) (caseId : String) (launch : Launch) (a : Snapshot) : Prop :=
  a.Same ⟨launching caseId { launch with isFresh := true } [], []⟩ ∨ Replayable g caseId launch a

section Invariant

variable {g g' : Engine} {r : Readings} {x x' y : Execution} {l l' : Ledger}
variable {entries : List JournalEntry}
variable {caseId : String} {launch : Launch} {a b : Snapshot} {o : Option Observation}
variable {seen : List Observation}

theorem Execution.Standing.begun (h : x.Standing) : x.phase ≠ .starting := by
  intro hp
  cases h with
  | underway _ hp' =>
      rw [hp] at hp'
      cases hp'
  | ended hp' _ =>
      rw [hp] at hp'
      cases hp'

theorem Execution.Standing.of_core (h : x.Standing) (hcore : x.core = x'.core) : x'.Standing := by
  have hstatus := status_of_core hcore
  have htwin := Phase.twin_of_core (phase_of_core hcore)
  cases h with
  | underway running hp =>
      have hp' : x'.phase.isUnderway = true := by
        rw [← hp]
        generalize x.phase = p at htwin
        generalize x'.phase = p' at htwin
        cases htwin <;> rfl
      exact .underway (hstatus.symm.trans running) hp'
  | ended hp hs =>
      generalize hp' : x'.phase = p' at htwin
      rw [hp] at htwin
      cases htwin
      exact .ended hp' (hstatus.symm.trans hs)

/-- The beginning is left with the first step and not come back to, and the end shows. -/
theorem standing_of_advance {b : Execution × Ledger} (h : x.advance g r l = some b) :
    b.1.Standing := by
  have hs := running_of_advance h
  -- No step but the last touches the status.
  cases stepping h with
  | starting hp =>
      unfold start
      split
      · exact .underway hs rfl
      · exact .underway hs rfl
  | opening hp =>
      unfold openCase
      split
      · exact .underway hs rfl
      · exact .underway hs rfl
  | dispatching hp =>
      unfold dispatch
      split
      · exact .underway hs rfl
      · split
        · exact .underway hs rfl
        · exact .underway hs rfl
  | entering hp ways => exact .underway hs rfl
  | awaiting hp hw => exact .underway hs rfl
  | decided hp => exact .underway hs rfl
  | analysed hp => exact .underway hs rfl
  | left hp =>
      unfold proceed
      split
      · exact .underway hs rfl
      · exact .underway hs rfl
      · exact .underway hs rfl
  | closing hp => exact .ended rfl rfl

/-- The first step records the start, if that is kept. -/
theorem core_of_start
    (hx : x.core = (launching caseId { launch with isFresh := true } []).core)
    (h : x.advance g' r l = some (x', l')) (kept : x.Kept r l) :
    x'.core = (launching caseId launch.core []).core ∧
      x.written? r = some (launch.entry caseId) := by
  have hs := running_of_advance h
  have hp : x.phase = .starting := by
    have htwin := Phase.twin_of_core (phase_of_core hx)
    generalize x.phase = p at htwin
    cases htwin
    rfl
  have hlaunch : x.launch.core = launch.core := launch_of_core hx
  have hcontext := context_of_core hx
  have hstatus := status_of_core hx
  have hentry : x.written? r = some (launch.entry caseId) := by
    rw [written?_of_starting hp]
    have hstart := startEntry_of_core hx
    exact congrArg some hstart
  obtain ⟨j, happend, -⟩ := kept _ (written?_of_starting hp)
  rw [advance_of_starting hs hp, start_of_kept happend] at h
  cases h
  exact ⟨core_ext hlaunch hcontext rfl hstatus, hentry⟩

/-- Once the start is recorded, the journal replays to the same place. -/
theorem replayable_of_start
    (hx : x.core = (launching caseId { launch with isFresh := true } []).core)
    (h : x.advance g' r l = some (x', l')) (kept : x.Kept r l)
    (after : b.execution.core = x'.core) (journal : b.entries = (x.written? r).toList) :
    Replayable g caseId launch b := by
  obtain ⟨hstarted, hentry⟩ := core_of_start hx h kept
  have hopened : b.execution.core = (launching caseId launch.core []).core := after.trans hstarted
  refine ⟨(standing_of_advance h).of_core after.symm, ?_, ?_, [], by rw [journal, hentry]; rfl, ?_⟩
  · exact congrArg Log.pending (log_of_core hopened)
  · exact congrArg Log.caseId (log_of_core hopened)
  · intro entries y hy
    have hlevel : y.core = (b.execution.withPending entries).core :=
      hy.trans (withPending_of_core hopened entries).symm
    exact .here (.level (by rw [isOpen_of_core hopened]; rfl) hlevel)

/-- Whoever stands at the same place has nothing left to be replayed either. -/
theorem Replayable.live_of_core (ha : Replayable g caseId launch a)
    (before : x.core = a.execution.core) : x.pending = [] := by
  unfold pending
  rw [log_of_core before]
  exact ha.live

/-- A turn of what can be replayed can be replayed. -/
theorem Replayable.turn (ha : Replayable g caseId launch a) (t : Turn g a o b) :
    Replayable g caseId launch b := by
  obtain ⟨recorded, hentries, hreplay⟩ := ha.recorded
  cases t with
  | @of g' r x x' l l' alike h kept before seen after journal =>
      have hlog := log_of_core before
      have honward := advance_onward h
      have hlive : x.pending = [] := ha.live_of_core before
      have hlog' := log_of_core after
      refine ⟨(standing_of_advance h).of_core after.symm, ?_, ?_, ?_⟩
      · -- Nothing is left to be replayed, so nothing is taken.
        unfold pending at hlive ⊢
        rw [hlog']
        rcases honward.2 with hsame | ⟨e, hfirst⟩
        · exact hsame.trans hlive
        · rw [hfirst] at hlive
          cases hlive
      · rw [hlog', honward.1, hlog]
        exact ha.case
      · refine ⟨recorded ++ (x.written? r).toList, by rw [journal, hentries]; rfl, ?_⟩
        intro entries y hy
        rw [List.append_assoc] at hy
        -- The entry of this step is the first of those to come.
        refine (hreplay _ y hy).trans ?_
        intro z hz
        have hshadow := (hz.of_core before.symm).advance hlive
          (ha.standing.of_core before.symm).begun alike kept h
        exact hshadow.mono fun _ hw => hw.of_core after.symm

/-- A turn of a story leads to what can be replayed. -/
theorem Story.turn (ha : Story g caseId launch a) (t : Turn g a o b) :
    Replayable g caseId launch b := by
  rcases ha with hfresh | hreplayable
  · cases t.of_same hfresh with
    | of alike h kept before seen after journal =>
        exact replayable_of_start before h kept after (by simpa using journal)
  · exact hreplayable.turn t

/-- Turns that end at rest go on with the story. -/
theorem Story.turns (ha : Story g caseId launch a) (h : Turns g a seen b) :
    Story g caseId launch b := by
  induction h with
  | refl a => exact ha
  | turn t _ ih => exact ih (.inr (ha.turn t))

/-! ## Resuming -/

/-- What is rebuilt from the entries of a run that began fresh. -/
theorem resume_of_entries {j : Journal} {recorded : List JournalEntry}
    (hload : j.load caseId = .ok (launch.entry caseId :: recorded)) :
    Execution.resume j caseId = .ok (launching caseId launch.core recorded) := by
  unfold Execution.resume
  rw [hload]
  rfl

/-- An execution that is resumed now heads for a shadow with nothing to come. -/
theorem Replayable.resume (ha : Replayable g caseId launch a)
    (hload : l.journal.load caseId = .ok a.entries) :
    ∃ y, Execution.resume l.journal caseId = .ok y ∧ Heads g (Shadow g a.execution []) y := by
  obtain ⟨recorded, hentries, hreplay⟩ := ha.recorded
  rw [hentries] at hload
  refine ⟨launching caseId launch.core recorded, resume_of_entries hload, hreplay [] _ ?_⟩
  rw [List.append_nil]

theorem withPending_self (h : x.pending = entries) : x.withPending entries = x := by
  subst h
  rfl

/-- While the run waits, its shadow finds no entry and comes to wait for the same decision. -/
theorem Shadow.catchesUp (shadow : Shadow g x [] y.core) (r : Readings) (l : Ledger)
    (running : x.status = .running) (live : x.pending = []) (hawait : x.IsAwaiting) :
    Heads g (fun z => z = x.core) y := by
  have hopen := isOpen_of_awaiting hawait
  obtain ⟨w, hs, launch, entered, hy⟩ := shadow.behind_of_open hopen
  obtain ⟨d, n, s, e, waiter, hp⟩ := hawait
  -- Of the visits that are open only a review waits for somebody.
  cases entered with
  | @reviewing d' n' s' config v hw decodable context hx _ =>
      have hlog : x.context.log = w.context.log := congrArg (fun c => c.log) context
      have hlive : w.pending = [] := by
        unfold pending at live ⊢
        rw [← hlog]
        exact live
      rw [withPending_self hlive] at hy
      have hstep := advance_of_entering (g := g) (r := r) (l := l) hs hw
      rw [Visit.enter_review, Visit.enterReview_of_live decodable hlive] at hstep
      have hinner : w.Inner := inner_of_entering hw (by simp [asks, hw])
      refine (Heads.step hinner hstep (.here ?_)).of_core hy.symm
      rw [hp] at hx
      cases Phase.twin_of_core hx with
      | awaiting he _ _ =>
          refine core_ext launch context.symm ?_ (hs.trans running.symm)
          rw [hp, hx]
          rfl
  | analysing _ _ hx =>
      rw [hp] at hx
      cases Phase.twin_of_core hx
  | refused _ _ hx => cases hopen.symm.trans (isOpen_of_refused hx)

theorem Story.case (ha : Story g caseId launch a) :
    a.execution.context.log.caseId = caseId := by
  rcases ha with hfresh | hreplayable
  · rw [log_of_core hfresh.1]
    rfl
  · exact hreplayable.case

end Invariant

end Casework
