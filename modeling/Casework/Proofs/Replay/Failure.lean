import Casework.Proofs.Execution.Trace
import Casework.Proofs.Replay.Course

/-!
# Failures — what comes of resuming a run that failed

A failure that follows from the definition, the payload or the settings is met again by the replay,
at the same place.  A refusal is not: whoever looks for the entry that it kept from being recorded
finds the failure, and takes it for a divergence.

* `Refusal`, `Execution.Refused` : what may be refused, and by whom;
* `Passage` : runs that are interrupted and meet with refusals;
* `Abreast` : the invariant of a run to which nothing was refused, a replay of which stands at the
  same place as soon as a visit is over;
* `Sinking` : what remains of a run to which something was refused;
* `Passage.outcome` : a run is one or the other;
* `failure_replays` : a failure is found again, unless something was refused;
* `refusal_misread` : a refusal that is not.
-/

namespace Casework

open Execution

/-- What a run asks for and does not get, with the error that it fails with instead. -/
inductive Refusal where
  /-- The journal does not take the start. -/
  | start (fault : Error)
  /-- A visit remains without its entry of this kind. -/
  | visit (stepId : String) (kind : JournalEntry.Kind) (fault : Error)

def Refusal.fault : Refusal → Error
  | .start fault | .visit _ _ fault => fault

/-- Whether something is refused in an atomic step: the journal does not take the entry, or a
collaborator gives no answer. -/
inductive Execution.Refused (r : Readings) (x : Execution) (l : Ledger) (x' : Execution) :
    Refusal → Prop
  | start {fault : Error} (hp : x.phase = .starting)
      (h : l.journal.append x.context.log.caseId x.startEntry = .error fault) :
      Refused r x l x' (.start fault)
  | decision {d : Definition} {n : Nat} {s : StepDefinition} {e : Executor} {signal : Signal}
      {fault : Error} (hp : x.phase = .visiting d n s e (.decided signal))
      (h : l.journal.append x.context.log.caseId (.signalConsumed s.stepId signal) =
        .error fault) :
      Refused r x l x' (.visit s.stepId .signalConsumed fault)
  | answer {d : Definition} {n : Nat} {s : StepDefinition} {e : Executor} {a : Option Enrichment}
      {t : Instant} {fault : Error} (hp : x.phase = .visiting d n s e (.analysed a t))
      (h : l.journal.append x.context.log.caseId (.activityCompleted s.stepId (toValue a) t) =
        .error fault) :
      Refused r x l x' (.visit s.stepId .activityCompleted fault)
  | collaborator {d : Definition} {n : Nat} {s : StepDefinition} {e : Executor} {fault : Error}
      (hp : x.phase = .visiting d n s e .entering) (h : x.sees r x' = some (.refusal fault)) :
      Refused r x l x' (.visit s.stepId .activityCompleted fault)

/-- A run of one case from one state to another, with what is refused to it.  Each step is taken in
a world of its own, over a journal that gives back what it takes and takes the end.  Between two
steps signals are delivered, and the ledger changes but for what was recorded of the case; a run
that waits may be interrupted and resumed. -/
inductive Passage (g : Engine) (caseId : String) :
    Execution × Ledger → List Refusal → Execution × Ledger → Prop
  | refl (c : Execution × Ledger) : Passage g caseId c [] c
  | step {g' : Engine} {r : Readings} {x : Execution} {l : Ledger} {b c : Execution × Ledger}
      {refusals : List Refusal} (alike : g.Alike g') (h : x.advance g' r l = some b)
      (kept : x.Kept r l) (answered : ∀ fault, x.sees r b.1 ≠ some (.refusal fault))
      (rest : Passage g caseId b refusals c) : Passage g caseId (x, l) refusals c
  | refusal {g' : Engine} {r : Readings} {x : Execution} {l : Ledger} {b c : Execution × Ledger}
      {refusal : Refusal} {refusals : List Refusal} (alike : g.Alike g')
      (h : x.advance g' r l = some b) (refused : x.Refused r l b.1 refusal)
      (rest : Passage g caseId b refusals c) : Passage g caseId (x, l) (refusal :: refusals) c
  | deliver {x x' : Execution} {l : Ledger} {c : Execution × Ledger} {refusals : List Refusal}
      {s : Signal} {disposition : Disposition} (h : x.deliver s = .ok (x', disposition))
      (rest : Passage g caseId (x', l) refusals c) : Passage g caseId (x, l) refusals c
  | others {x : Execution} {l l' : Ledger} {c : Execution × Ledger} {refusals : List Refusal}
      (same : l'.journal.load caseId = l.journal.load caseId)
      (rest : Passage g caseId (x, l') refusals c) : Passage g caseId (x, l) refusals c
  | interrupt {x gone y : Execution} {l : Ledger} {c : Execution × Ledger}
      {refusals : List Refusal} (waits : x.IsAwaiting) (how : x.Interrupted gone)
      (h : Execution.resume l.journal caseId = .ok y) (rest : Passage g caseId (y, l) refusals c) :
      Passage g caseId (x, l) refusals c

/-- What comes of resuming a run that recorded its failure after a refusal: without the start nobody
is resumed, and without the entry of a visit the replay fails there, with another error. -/
def Refusal.ResumesTo (g : Engine) (j : Journal) (caseId text : String) (t : Instant) :
    Refusal → Prop
  | .start _ => Execution.resume j caseId =
      .error (.journal (.wrongStart caseId JournalEntry.Kind.failed.name))
  | .visit stepId kind _ => ∃ y, Execution.resume j caseId = .ok y ∧
      ReplaysTo g
        (fun z => z.status = .failed (Log.divergence stepId kind (.failed text t)).message) y

/-- Whether a refusal after these entries has this consequence, if a failure follows them. -/
def Refusal.Spoils (g : Engine) (caseId : String) (es : List JournalEntry) (refusal : Refusal) :
    Prop :=
  ∀ j text t, j.load caseId = .ok (es ++ [.failed text t]) → refusal.ResumesTo g j caseId text t

/-- Nothing was refused, and a replay of what was appended stands at the same place, unless a visit
has yet to append its entry. -/
structure Abreast (g : Engine) (caseId : String) (launch : Launch) (a : Snapshot) : Prop where
  replayable : Replayable g caseId launch a
  level : a.execution.phase.isOpen = false →
    ∀ recorded entries y, a.entries = launch.entry caseId :: recorded →
      y.core = (launching caseId launch.core (recorded ++ entries)).core →
        Heads g (AtLevel a.execution entries) y
  told : ∀ text, a.execution.status = .failed text →
    ∃ es t, a.entries = es ++ [.failed text t]

/-- A snapshot of a run that began fresh and to which nothing was refused. -/
def Unharmed (g : Engine) (caseId : String) (launch : Launch) (a : Snapshot) : Prop :=
  a.Same ⟨launching caseId { launch with isFresh := true } [], []⟩ ∨ Abreast g caseId launch a

/-- After a refusal an execution goes on to its end and appends nothing but its failure to what had
been recorded. -/
inductive Sinking (fault : Error) (es : List JournalEntry) (x : Execution) :
    List JournalEntry → Prop
  | left {d : Definition} {n : Nat} {s : StepDefinition} {e : Executor}
      (running : x.status = .running) (live : x.pending = [])
      (hp : x.phase = .visiting d n s e (.left (.error fault))) : Sinking fault es x es
  | closing (running : x.status = .running) (live : x.pending = [])
      (hp : x.phase = .closing (.error fault)) : Sinking fault es x es
  | ended {t : Instant} (status : x.status = .failed fault.message)
      (hp : x.phase = .ended (.error fault)) :
      Sinking fault es x (es ++ [.failed fault.message t])

section Failure

variable {g g' : Engine} {r : Readings} {x x' y z w : Execution} {l l' : Ledger} {j : Journal}
variable {b c : Execution × Ledger} {caseId text stepId : String} {launch : Launch}
variable {a a' : Snapshot} {o : Option Observation} {t : Instant} {fault : Error}
variable {entries es held : List JournalEntry} {refusal : Refusal} {refusals : List Refusal}

/-! ## Refusals -/

/-- A collaborator that is asked and gives no answer makes the execution leave its visit. -/
theorem of_refusal_seen (h : x.sees r x' = some (.refusal fault)) :
    (∃ d n s enricher, x.phase = .visiting d n s (.caseEnrichment (some enricher)) .entering) ∧
      ∃ d n s e, x'.phase = .visiting d n s e (.left (.error fault)) := by
  unfold sees at h
  split at h
  · obtain ⟨signal, -, hsignal⟩ := Option.map_eq_some_iff.1 h
    cases hsignal
  · next d n s e d' n' s' e' v hp hp' =>
      split at h
      · next hasks =>
          refine ⟨?_, d', n', s', e', ?_⟩
          · unfold asks at hasks
            split at hasks
            · next hp => exact ⟨_, _, _, _, hp⟩
            · cases hasks
          · unfold Visit.answer? at h
            split at h
            · cases h
            · cases h
              exact hp'
            · cases h
      · cases h
  · obtain ⟨e, -, hfailure⟩ := Option.map_eq_some_iff.1 h
    cases hfailure
  · cases h

/-- Over a journal that gives back what it takes, and takes the end, nothing else can happen. -/
theorem kept_or_refused {b : Execution × Ledger}
    (honest : ∀ e, x.written? r = some e → l.journal.Keeps x.context.log.caseId e ∨
      ∃ fault, l.journal.append x.context.log.caseId e = .error fault)
    (last : ∀ result, x.phase = .closing result → x.Kept r l) :
    (x.Kept r l ∧ ∀ fault, x.sees r b.1 ≠ some (.refusal fault)) ∨
      ∃ refusal, x.Refused r l b.1 refusal := by
  -- The collaborator is asked first, and only what it answers is written.
  by_cases hseen : ∃ fault, x.sees r b.1 = some (.refusal fault)
  · obtain ⟨fault, hseen⟩ := hseen
    obtain ⟨⟨d, n, s, enricher, hp⟩, -⟩ := of_refusal_seen hseen
    exact .inr ⟨_, .collaborator hp hseen⟩
  · have answered : ∀ fault, x.sees r b.1 ≠ some (.refusal fault) :=
      fun fault h => hseen ⟨fault, h⟩
    cases hentry : x.written? r with
    | none => exact .inl ⟨fun e he => by simp [hentry] at he, answered⟩
    | some e =>
        rcases honest e hentry with hkeeps | ⟨fault, hrefused⟩
        · refine .inl ⟨fun e' he' => ?_, answered⟩
          cases hentry.symm.trans he'
          exact hkeeps
        · cases writes_of_written hentry with
          | start hp => exact .inr ⟨_, .start hp hrefused⟩
          | decision hp => exact .inr ⟨_, .decision hp hrefused⟩
          | answer hp => exact .inr ⟨_, .answer hp hrefused⟩
          | ending hp _ => exact .inl ⟨last _ hp, answered⟩

/-- A run to which no collaborator refuses an answer, over a journal that refuses nothing. -/
theorem Course.passage {k : Nat} {seen : List Observation} (h : Course g caseId k b seen c)
    (answered : ∀ fault, .refusal fault ∉ seen) : Passage g caseId b [] c := by
  induction h with
  | refl c => exact .refl c
  | @step g' r x l b c k seen alike hstep kept rest ih =>
      simp only [List.mem_append, Option.mem_toList, not_or] at answered
      have hstill : ∀ fault, .refusal fault ∉ seen := fun fault => (answered fault).2
      exact .step alike hstep kept (fun fault => (answered fault).1) (ih hstill)
  | deliver hdeliver _ ih => exact .deliver hdeliver (ih answered)
  | others same _ ih => exact .others same (ih answered)
  | interrupt waits how hresume _ ih => exact .interrupt waits how hresume (ih answered)

/-- A step that is refused is no inner step. -/
theorem Execution.Refused.not_inner (refused : x.Refused r l b.1 refusal)
    (h : x.advance g r l = some b) : ¬ x.Inner := by
  intro hinner
  cases refused with
  | start hp _ => cases (hinner.writes r).symm.trans (written?_of_starting hp)
  | decision hp _ => cases (hinner.writes r).symm.trans (written?_of_decided hp)
  | answer hp _ => cases (hinner.writes r).symm.trans (written?_of_analysed hp)
  | collaborator hp hseen => cases (hinner.sees h).symm.trans hseen

/-! ## A failure where an entry is due -/

/-- Where a decision is due and a failure is recorded, the look-up fails, and takes the failure for
its own. -/
theorem heads_undecided {d : Definition} {n : Nat} {s : StepDefinition} {config : ReviewConfig}
    (hs : w.status = .running) (hw : w.phase = .visiting d n s .humanInTheLoop .entering)
    (decodable : s.config ReviewConfig.decoder = .ok config)
    (hy : y.core = (w.withPending (.failed text t :: entries)).core) :
    Heads g (fun z => z.status =
      .failed (Log.divergence s.stepId .signalConsumed (.failed text t)).message) y := by
  -- The question is published, and the failure stays where it is.
  have hother : ¬ (JournalEntry.failed text t).IsDecisionFor s.stepId := by
    rintro ⟨signal, h⟩
    cases h
  have hinner : (w.withPending (.failed text t :: entries)).Inner :=
    inner_of_entering hw (by simp [asks, withPending, hw])
  have henter := advance_of_entering (g := g) (r := default) (l := ⟨.empty, [], []⟩)
    (x := w.withPending (.failed text t :: entries)) hs hw
  rw [Visit.enter_review, Visit.enterReview_of_other decodable rfl hother] at henter
  have hfailed : Heads g (fun z => z.status =
      .failed (Log.divergence s.stepId .signalConsumed (.failed text t)).message)
      (w.withPending (.failed text t :: entries)) :=
    .step hinner henter (heads_failed_of_left default ⟨.empty, [], []⟩ hs rfl rfl rfl)
  exact hfailed.of_core hy.symm

/-- In place of the decision that was refused, the replay meets the failure and diverges. -/
theorem Shadow.undecided {d : Definition} {n : Nat} {s : StepDefinition} {e : Executor}
    {signal : Signal} (h : Shadow g x (.failed text t :: entries) z.core)
    (hp : x.phase = .visiting d n s e (.decided signal)) :
    Heads g (fun z => z.status =
      .failed (Log.divergence s.stepId .signalConsumed (.failed text t)).message) z := by
  have hopen : x.phase.isOpen = true := by
    rw [hp]
    rfl
  obtain ⟨w, hs, -, entered, hz⟩ := h.behind_of_open hopen
  cases entered with
  | reviewing hw decodable _ hx _ =>
      rw [hp] at hx
      cases Phase.twin_of_core hx with
      | decided _ _ => exact heads_undecided hs hw decodable hz
  | analysing _ _ hx =>
      rw [hp] at hx
      cases Phase.twin_of_core hx
  | refused _ _ hx => cases hopen.symm.trans (isOpen_of_refused hx)

/-- In place of the answer that was refused it does the same. -/
theorem Shadow.unanswered {d : Definition} {n : Nat} {s : StepDefinition} {e : Executor}
    {answer : Option Enrichment} {time : Instant}
    (h : Shadow g x (.failed text t :: entries) z.core)
    (hp : x.phase = .visiting d n s e (.analysed answer time)) :
    Heads g (fun z => z.status =
      .failed (Log.divergence s.stepId .activityCompleted (.failed text t)).message) z := by
  have hopen : x.phase.isOpen = true := by
    rw [hp]
    rfl
  obtain ⟨w, hs, -, entered, hz⟩ := h.behind_of_open hopen
  cases entered with
  | analysing hw _ hx =>
      rw [hp] at hx
      cases Phase.twin_of_core hx with
      | analysed _ _ _ => exact heads_unanswered default ⟨.empty, [], []⟩ hs hw hz rfl
  | reviewing _ _ _ hx hv =>
      rw [hp] at hx
      rcases hv with ⟨waiter, rfl⟩ | ⟨signal, rfl⟩
      · cases Phase.twin_of_core hx
      · cases Phase.twin_of_core hx
  | refused _ _ hx => cases hopen.symm.trans (isOpen_of_refused hx)

/-! ## To whom nothing was refused -/

/-- A resumed execution is abreast of a fresh one right after its start. -/
theorem abreast_of_start
    (hx : x.core = (launching caseId { launch with isFresh := true } []).core)
    (h : x.advance g' r l = some (x', l')) (kept : x.Kept r l)
    (after : a.execution.core = x'.core) (journal : a.entries = (x.written? r).toList) :
    Abreast g caseId launch a := by
  obtain ⟨hstarted, hentry⟩ := core_of_start hx h kept
  have hopened : a.execution.core = (launching caseId launch.core []).core := after.trans hstarted
  refine ⟨replayable_of_start hx h kept after journal, ?_, ?_⟩
  · intro _ recorded entries y hrecorded hy
    rw [journal, hentry] at hrecorded
    cases hrecorded
    have hlevel : y.core = (a.execution.withPending entries).core :=
      hy.trans (withPending_of_core hopened entries).symm
    exact .here hlevel
  · intro text hfailed
    cases hfailed.symm.trans (status_of_core hopened)

/-- One step of the run is followed by the replay, to the same place. -/
theorem Abreast.level_turn (ha : Abreast g caseId launch a) (alike : g.Alike g')
    (h : x.advance g' r l = some b) (kept : x.Kept r l) (before : x.core = a.execution.core)
    (answered : ∀ fault, x.sees r b.1 ≠ some (.refusal fault))
    (closed : b.1.phase.isOpen = false) {recorded : List JournalEntry}
    (hrecorded : a.entries = launch.entry caseId :: recorded)
    (hy : y.core =
      (launching caseId launch.core (recorded ++ ((x.written? r).toList ++ entries))).core) :
    Heads g (AtLevel b.1 entries) y := by
  have hlive : x.pending = [] := ha.replayable.live_of_core before
  have hbegun : x.phase ≠ .starting := (ha.replayable.standing.of_core before.symm).begun
  obtain ⟨recorded', hrecorded', hreplay⟩ := ha.replayable.recorded
  cases hrecorded.symm.trans hrecorded'
  -- Before the visit the replay is at the same place; while it is open, the replay waits for the
  -- entry that this step may append.
  cases hopen : x.phase.isOpen with
  | false =>
      have hclosed : a.execution.phase.isOpen = false := (isOpen_of_core before).symm.trans hopen
      refine (ha.level hclosed recorded _ y hrecorded hy).trans ?_
      intro z hz
      have hlevel := hz.trans (withPending_of_core before.symm _)
      rcases level_advance hopen hlevel hlive hbegun alike kept h with
        ⟨-, hheads⟩ | ⟨-, -, -, hopen' | ⟨fault, hseen⟩⟩
      · exact hheads
      · cases closed.symm.trans hopen'
      · exact absurd hseen (answered fault)
  | true =>
      refine (hreplay _ y hy).trans ?_
      intro z hz
      obtain ⟨w, running, launch, entered, hz⟩ := (hz.of_core before.symm).behind_of_open hopen
      rcases behind_advance running launch entered hopen hz kept h with
        ⟨-, hheads⟩ | ⟨hopen', -⟩
      · exact hheads
      · cases closed.symm.trans hopen'

/-- The failure that an execution ends with is the one that it records. -/
theorem failed_of_advance (h : x.advance g r l = some b) (live : x.pending = [])
    (kept : x.Kept r l) (failed : b.1.status = .failed text) :
    x.written? r = some (.failed text r.now) := by
  have hfinished : b.1.isFinished = true := by
    simp [isFinished, failed, ExecutionStatus.isFinished]
  obtain ⟨result, hp⟩ := closing_of_finished h hfinished
  have hentry := written?_of_other (r := r) hp (hasNext_of_live live _)
  obtain ⟨j, happend, -⟩ := kept _ hentry
  rw [advance_of_closing (running_of_advance h) hp,
    finish_of_kept (hasNext_of_live live _) happend] at h
  cases h
  cases result with
  | ok k => cases failed
  | error fault =>
      cases failed
      exact hentry

/-- A turn that is answered keeps the two abreast. -/
theorem Abreast.turn (ha : Abreast g caseId launch a) (t : Turn g a o a')
    (answered : ∀ fault, o ≠ some (.refusal fault)) : Abreast g caseId launch a' := by
  refine ⟨ha.replayable.turn t, ?_, ?_⟩
  · intro closed recorded entries y hrecorded hy
    cases t with
    | @of g' r x x' l l' alike h kept before seen after journal =>
        obtain ⟨recorded', hrecorded', -⟩ := ha.replayable.recorded
        have hall : recorded = recorded' ++ (x.written? r).toList := by
          rw [journal, hrecorded', List.cons_append] at hrecorded
          exact (List.cons.inj hrecorded).2.symm
        rw [hall, List.append_assoc] at hy
        have hheads := ha.level_turn alike h kept before (fun fault => seen ▸ answered fault)
          ((isOpen_of_core after).symm.trans closed) hrecorded' hy
        exact hheads.mono fun z hz => hz.trans (withPending_of_core after.symm entries)
  · intro text hfailed
    cases t with
    | @of g' r x x' l l' alike h kept before seen after journal =>
        have hentry := failed_of_advance h (ha.replayable.live_of_core before) kept
          ((status_of_core after).symm.trans hfailed)
        exact ⟨a.entries, r.now, by rw [journal, hentry]; rfl⟩

/-- From the start on they are abreast as long as nothing is refused. -/
theorem Unharmed.turn (ha : Unharmed g caseId launch a) (t : Turn g a o a')
    (answered : ∀ fault, o ≠ some (.refusal fault)) : Abreast g caseId launch a' := by
  rcases ha with hfresh | habreast
  · cases t.of_same hfresh with
    | of alike h kept before seen after journal =>
        exact abreast_of_start before h kept after (by simpa using journal)
  · exact habreast.turn t answered

/-- While nothing is refused there is a story to be told. -/
theorem Unharmed.story (ha : Unharmed g caseId launch a) : Story g caseId launch a := by
  rcases ha with hfresh | habreast
  · exact .inl hfresh
  · exact .inr habreast.replayable

/-! ## After a refusal -/

/-- A replay that lacks the entry of a visit finds the failure there. -/
theorem Abreast.spoiled {kind : JournalEntry.Kind} (ha : Abreast g caseId launch a)
    (before : x.core = a.execution.core) (h : x.advance g' r l = some b)
    (refused : x.Refused r l b.1 (.visit stepId kind fault)) :
    (Refusal.visit stepId kind fault).Spoils g caseId a.entries := by
  intro j text t hload
  obtain ⟨recorded, hrecorded, hreplay⟩ := ha.replayable.recorded
  rw [hrecorded, List.cons_append] at hload
  refine ⟨_, resume_of_entries hload, ?_⟩
  have hheads : Heads g
      (fun z => z.status = .failed (Log.divergence stepId kind (.failed text t)).message)
      (launching caseId launch.core (recorded ++ [.failed text t])) := by
    cases refused with
    | decision hp _ =>
        -- The replay waits at the beginning of the visit.
        refine (hreplay _ _ rfl).trans ?_
        intro z hz
        exact (hz.of_core before.symm).undecided hp
    | answer hp _ =>
        refine (hreplay _ _ rfl).trans ?_
        intro z hz
        exact (hz.of_core before.symm).unanswered hp
    | collaborator hp hseen =>
        -- The run itself is at the beginning of the visit.
        obtain ⟨⟨d, n, s, enricher, hp'⟩, -⟩ := of_refusal_seen hseen
        cases hp.symm.trans hp'
        have hclosed : a.execution.phase.isOpen = false := by
          rw [← isOpen_of_core before, hp]
          rfl
        refine (ha.level hclosed recorded _ _ hrecorded rfl).trans ?_
        intro z hz
        have hlevel := hz.trans (withPending_of_core before.symm _)
        exact heads_unanswered default ⟨.empty, [], []⟩ (running_of_advance h) hp hlevel rfl
  exact hheads.replaysTo rfl

/-- What was refused to a run keeps it from being resumed as it was. -/
theorem Unharmed.spoiled (ha : Unharmed g caseId launch a) (before : x.core = a.execution.core)
    (h : x.advance g' r l = some b) (refused : x.Refused r l b.1 refusal) :
    refusal.Spoils g caseId a.entries := by
  rcases ha with hfresh | habreast
  · -- Nothing but the start can be refused at first.
    have htwin := Phase.twin_of_core (phase_of_core (before.trans hfresh.1))
    generalize hq : x.phase = q at htwin
    cases htwin
    cases refused with
    | start hp hrefused =>
        intro j text t hload
        rw [hfresh.2] at hload
        unfold Refusal.ResumesTo Execution.resume
        rw [hload]
        rfl
    | decision hp _ => cases hp.symm.trans hq
    | answer hp _ => cases hp.symm.trans hq
    | collaborator hp _ => cases hp.symm.trans hq
  · cases refused with
    | start hp _ => exact absurd hp (habreast.replayable.standing.of_core before.symm).begun
    | decision hp hrefused => exact habreast.spoiled before h (.decision hp hrefused)
    | answer hp hrefused => exact habreast.spoiled before h (.answer hp hrefused)
    | collaborator hp hseen => exact habreast.spoiled before h (.collaborator hp hseen)

theorem Unharmed.live_of_core (ha : Unharmed g caseId launch a)
    (before : x.core = a.execution.core) : x.pending = [] := by
  rcases ha with hfresh | habreast
  · exact congrArg Log.pending (log_of_core (before.trans hfresh.1))
  · exact habreast.replayable.live_of_core before

/-- A refusal leaves the journal as it is, and the execution fails with its error. -/
theorem Execution.Refused.sinking (refused : x.Refused r l b.1 refusal)
    (h : x.advance g r l = some b) (live : x.pending = []) (es : List JournalEntry) :
    Sinking refusal.fault es b.1 es ∧ b.2.journal = l.journal := by
  have hs := running_of_advance h
  cases refused with
  | start hp hrefused =>
      rw [advance_of_starting hs hp, start_of_refused hrefused] at h
      cases h
      exact ⟨.closing hs live rfl, rfl⟩
  | decision hp hrefused =>
      rw [advance_of_decided hs hp, settleDecision_of_refused hrefused] at h
      cases h
      exact ⟨.left hs live rfl, rfl⟩
  | answer hp hrefused =>
      rw [advance_of_analysed hs hp, settleEnrichment_of_refused hrefused] at h
      cases h
      exact ⟨.left hs live rfl, rfl⟩
  | collaborator hp hseen =>
      obtain ⟨-, d, n, s, e, hleft⟩ := of_refusal_seen hseen
      have hunwritten : x.written? r = none := by simp [written?, hp]
      refine ⟨.left ?_ ?_ hleft, journal_of_advance h hunwritten⟩
      · rcases status_of_advance h with hrunning | ⟨result, hended, -⟩
        · exact hrunning
        · cases hleft.symm.trans hended
      · rcases (advance_onward h).2 with hsame | ⟨entry, hfirst⟩
        · exact hsame.trans live
        · unfold pending at live
          rw [live] at hfirst
          cases hfirst

/-! ## To the end -/

/-- An execution that sinks waits for nobody. -/
theorem Sinking.awaits_not (hx : Sinking fault es x held) : ¬ x.IsAwaiting := by
  rintro ⟨d, n, s, e, w, hp⟩
  cases hx with
  | left _ _ hq => cases hp.symm.trans hq
  | closing _ _ hq => cases hp.symm.trans hq
  | ended _ hq => cases hp.symm.trans hq

/-- Nothing is refused on the way down. -/
theorem Sinking.refused_not (hx : Sinking fault es x held) : ¬ x.Refused r l x' refusal := by
  intro refused
  cases refused with
  | start hp _ | decision hp _ | answer hp _ | collaborator hp _ =>
      cases hx with
      | left _ _ hq => cases hp.symm.trans hq
      | closing _ _ hq => cases hp.symm.trans hq
      | ended _ hq => cases hp.symm.trans hq

theorem Sinking.withInbox (hx : Sinking fault es x held) (inbox : Inbox) :
    Sinking fault es (x.withInbox inbox) held := by
  cases hx with
  | left running live hp => exact .left running live hp
  | closing running live hp => exact .closing running live hp
  | ended status hp => exact .ended status hp

/-- On its way to the end it appends its failure and nothing else. -/
theorem Sinking.advance (hx : Sinking fault es x held) (h : x.advance g r l = some b)
    (kept : x.Kept r l) : Sinking fault es b.1 (held ++ (x.written? r).toList) := by
  have hs := running_of_advance h
  cases hx with
  | left _ live hp =>
      have hunwritten : x.written? r = none := by simp [written?, hp]
      rw [advance_of_left hs hp] at h
      cases h
      rw [hunwritten, Option.toList_none, List.append_nil]
      exact .closing hs live rfl
  | closing _ live hp =>
      have hentry := written?_of_other (r := r) hp (hasNext_of_live live _)
      obtain ⟨j, happend, -⟩ := kept _ hentry
      rw [advance_of_closing hs hp, finish_of_kept (hasNext_of_live live _) happend] at h
      cases h
      rw [hentry]
      exact .ended rfl rfl
  | ended _ hp =>
      rw [advance_of_ended hp] at h
      cases h

/-- Along its passage a sinking execution keeps its entries. -/
theorem Passage.sinking (run : Passage g caseId b refusals c) (hb : Sinking fault es b.1 held)
    (hcase : b.1.context.log.caseId = caseId) (hload : b.2.journal.load caseId = .ok held) :
    refusals = [] ∧ ∃ held', Sinking fault es c.1 held' ∧ c.2.journal.load caseId = .ok held' := by
  induction run generalizing held with
  | refl c => exact ⟨rfl, held, hb, hload⟩
  | step alike h kept answered rest ih =>
      exact ih (hb.advance h kept) ((advance_onward h).1.trans hcase)
        (load_of_advance h hcase kept hload)
  | refusal alike h refused rest ih => exact absurd refused hb.refused_not
  | deliver h rest ih =>
      obtain ⟨-, inbox, rfl⟩ := of_deliver h
      exact ih (hb.withInbox inbox) hcase hload
  | others same rest ih => exact ih hb hcase (same.trans hload)
  | interrupt waits how h rest ih => exact absurd waits hb.awaits_not

/-- A run has been refused nothing, or fails for the one thing that it was refused. -/
theorem Passage.outcome (run : Passage g caseId b refusals c) (ha : Unharmed g caseId launch a)
    (hheads : Heads g (fun z => z = a.execution.core) b.1)
    (hload : b.2.journal.load caseId = .ok a.entries) :
    (refusals = [] ∧ ∃ a', Unharmed g caseId launch a' ∧
        Heads g (fun z => z = a'.execution.core) c.1 ∧
        c.2.journal.load caseId = .ok a'.entries) ∨
      ∃ refusal es held, refusals = [refusal] ∧ refusal.Spoils g caseId es ∧
        Sinking refusal.fault es c.1 held ∧ c.2.journal.load caseId = .ok held := by
  -- The run is followed by an uninterrupted one, as far as nothing is refused.
  induction run generalizing a with
  | refl c => exact .inl ⟨rfl, a, ha, hheads, hload⟩
  | @step g' r x l b c refusals alike h kept answered rest ih =>
      rcases hheads.advance alike h with hcore | ⟨hinner, hheads'⟩
      · have t : Turn g a (x.sees r b.1) ⟨b.1, a.entries ++ (x.written? r).toList⟩ :=
          .of alike h kept hcore rfl rfl rfl
        have hcase : x.context.log.caseId = caseId := by
          rw [log_of_core hcore]
          exact ha.story.case
        exact ih (.inr (ha.turn t answered)) (.here rfl) (load_of_advance h hcase kept hload)
      · -- The execution has yet to catch up, and appends nothing.
        refine ih ha hheads' ?_
        rw [(hinner.quiet h).1]
        exact hload
  | @refusal g' r x l b c refusal refusals alike h refused rest ih =>
      rcases hheads.advance alike h with hcore | ⟨hinner, -⟩
      · -- What the rest may still append is the failure.
        obtain ⟨hsinking, hjournal⟩ :=
          refused.sinking h (ha.live_of_core hcore) a.entries
        have hcase : b.1.context.log.caseId = caseId := by
          rw [(advance_onward h).1, log_of_core hcore]
          exact ha.story.case
        obtain ⟨rfl, held, hend, hload'⟩ :=
          rest.sinking hsinking hcase (by rw [hjournal]; exact hload)
        exact .inr ⟨refusal, a.entries, held, rfl, ha.spoiled hcore h refused, hend, hload'⟩
      · exact absurd hinner (refused.not_inner h)
  | deliver h rest ih => exact ih ha (hheads.of_core (core_of_deliver h)) hload
  | others same rest ih => exact ih ha hheads (same.trans hload)
  | @interrupt x gone y l c refusals waits how hresume rest ih =>
      -- Whoever waits has caught up, and so will the one that is resumed.
      have hcore : x.core = a.execution.core := hheads.arrived (.inl waits)
      obtain ⟨y', hresume', hheads'⟩ := ha.story.resume hload (awaiting_of_core hcore waits)
      cases hresume.symm.trans hresume'
      exact ih ha hheads' hload

end Failure

/-- A run that failed is resumed to the failure that its journal ends with, unless the start, a
decision or an answer was refused to it.  Then it is not resumed at all, or fails with another error
where the decision or the answer is missing. -/
theorem failure_replays (g : Engine) (caseId name version : String) (payload : Value)
    (now : Instant) (l₀ : Ledger) (empty : l₀.journal.load caseId = .ok [])
    {refusals : List Refusal} {x : Execution} {l : Ledger}
    (run : Passage g caseId (.fresh caseId name version payload now, l₀) refusals (x, l))
    {text : String} (failed : x.status = .failed text) :
    ∃ es t, l.journal.load caseId = .ok (es ++ [.failed text t]) ∧
      (refusals = [] → ∃ y, Execution.resume l.journal caseId = .ok y ∧
        ReplaysTo g (fun z => z.status = .failed text) y) ∧
      ∀ refusal ∈ refusals, refusal.fault.message = text ∧
        refusal.ResumesTo g l.journal caseId text t := by
  have hunharmed : Unharmed g caseId ⟨name, version, payload, now, true⟩
      ⟨.fresh caseId name version payload now, []⟩ := .inl ⟨rfl, rfl⟩
  have hfinished : x.isFinished = true := by
    simp [isFinished, failed, ExecutionStatus.isFinished]
  -- Either nothing was refused and the last turn stands in for the execution, or it has been
  -- sinking since the one refusal there was.
  rcases run.outcome hunharmed (.here rfl) empty with
    ⟨rfl, a, ha, hheads, hload⟩ | ⟨refusal, es, held, rfl, hspoils, hsinking, hload⟩
  · have hcore : x.core = a.execution.core := hheads.arrived (.inr hfinished)
    have hstatus : a.execution.status = .failed text := (status_of_core hcore).symm.trans failed
    rcases ha with hfresh | habreast
    · cases hstatus.symm.trans (status_of_core hfresh.1)
    · obtain ⟨es, t, htold⟩ := habreast.told text hstatus
      obtain ⟨recorded, hrecorded, -⟩ := habreast.replayable.recorded
      have hclosed : a.execution.phase.isOpen = false := by
        cases habreast.replayable.standing with
        | underway running _ => cases hstatus.symm.trans running
        | ended hp _ =>
            rw [hp]
            rfl
      have hlevel := habreast.level hclosed recorded [] _ hrecorded rfl
      rw [List.append_nil] at hlevel
      refine ⟨es, t, htold ▸ hload, fun _ => ?_, by simp⟩
      refine ⟨_, resume_of_entries (hload.trans (congrArg _ hrecorded)), ?_⟩
      refine (hlevel.replaysTo rfl).mono ?_
      intro z hz
      have hsame := congrArg Execution.status hz
      exact hsame.trans hstatus
  · cases hsinking with
    | left running _ _ => cases failed.symm.trans running
    | closing running _ _ => cases failed.symm.trans running
    | @ended t status hp =>
        have htext : refusal.fault.message = text := by
          cases failed.symm.trans status
          rfl
        subst htext
        refine ⟨es, t, hload, by simp, ?_⟩
        intro refusal' h
        cases List.mem_singleton.1 h
        exact ⟨rfl, hspoils _ _ _ hload⟩

/-! ## Failures that are resumed -/

/-- An approval of an unknown process fails at once. -/
theorem course_undefined :
    ∃ x l seen, Course (Engine.approving none) "case-1" 0
        (.fresh "case-1" "refund" "1" .null ⟨0, 0⟩, ⟨.empty, [], []⟩) seen (x, l) ∧
      seen = [.failure ⟨0, 0⟩] ∧ x.status = .failed "Process definition not found: refund v1" := by
  exact ⟨_, _, _, .own rfl rfl <| .own rfl rfl <| .own rfl rfl <| .refl _, rfl, rfl⟩

/-- A process that nobody defined is not found again. -/
theorem failure_replays_undefined :
    ∃ x l es t y, Passage (Engine.approving none) "case-1"
        (.fresh "case-1" "refund" "1" .null ⟨0, 0⟩, ⟨.empty, [], []⟩) [] (x, l) ∧
      x.status = .failed "Process definition not found: refund v1" ∧
      l.journal.load "case-1" =
        .ok (es ++ [.failed "Process definition not found: refund v1" t]) ∧
      Execution.resume l.journal "case-1" = .ok y ∧
      ReplaysTo (Engine.approving none)
        (fun z => z.status = .failed "Process definition not found: refund v1") y := by
  obtain ⟨x, l, seen, hcourse, rfl, hfailed⟩ := course_undefined
  have hrun := hcourse.passage (by simp)
  obtain ⟨es, t, hload, hreplays, -⟩ := failure_replays (Engine.approving none) "case-1" "refund"
    "1" .null ⟨0, 0⟩ ⟨.empty, [], []⟩ rfl hrun hfailed
  obtain ⟨y, hresume, hback⟩ := hreplays rfl
  exact ⟨x, l, es, t, y, hrun, hfailed, hload, hresume, hback⟩

def Enricher.unavailable : Enricher where
  analyse _ := .error (.enrichment "model unavailable")

/-- A refusal is recorded as the failure of the run, but whoever resumes the run fails with another
error. -/
theorem refusal_misread :
    ∃ x l seen y os z l', Course (Engine.approving (some .unavailable)) "case-1" 0
        (.fresh "case-1" "approval" "1" .null ⟨0, 0⟩, ⟨.empty, [], []⟩) seen (x, l) ∧
      x.status = .failed "Enrichment failed: model unavailable" ∧
      l.journal.load "case-1" = .ok [.started "case-1" "approval" "1" .null ⟨0, 0⟩,
        .failed "Enrichment failed: model unavailable" ⟨0, 0⟩] ∧
      Execution.resume l.journal "case-1" = .ok y ∧
      Trace (Engine.approving (some .unavailable)) "case-1" (y, l) os (z, l') ∧
      z.status = .failed ("Replay diverged at step 'analysis': " ++
        "expected activity_completed, journal has failed") := by
  refine ⟨_, _, _, _, _, _, _, .own rfl rfl <| .own rfl rfl <| .own rfl rfl <| .own rfl rfl <|
    .own rfl rfl <| .own rfl rfl <| .refl _, rfl, rfl, rfl, Trace.refl.steps 5, rfl⟩

end Casework
