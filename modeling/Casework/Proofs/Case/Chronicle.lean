import Casework.Proofs.Execution.Task

/-!
# Chronicles — the activities of a case as its journal tells them

What an execution publishes is the image of what was recorded before, also between the record of an
entry and its publication.

* `Chronicle` : the latest time and the activities that entries tell of;
* `Chronicle.tell`, `Chronicle.tellAll` : what one entry adds, and what several do;
* `Chronicle.dated` : every activity bears the latest of the times up to its entry;
* `Chronicle.Matches` : a published case and a logical clock are what entries tell;
* `Faithful` : the invariant of an execution and the entries of its case, between two appends;
* `Task.Chronicled` : the invariant of its task and its journal, at all times;
* `published_of_journal` : what is published is the image of a prefix of the journal, and of all of
  it once the execution waits.
-/

namespace Casework

/-! ## What entries tell -/

/-- The latest time so far, and the activities up to then. -/
structure Chronicle where
  clock : Instant
  activities : List Activity
deriving DecidableEq, Repr

def latestOf (t : Instant) (es : List JournalEntry) : Instant :=
  es.foldl (fun u e => u.latest e.time) t

namespace Chronicle

def opening (input : CaseInput) (t : Instant) : Chronicle where
  clock := t
  activities :=
    [⟨1, Case.systemEvent, "System", "Case created by " ++ input.submitterDisplayName ++ ".", t⟩]

def pass (h : Chronicle) (t : Instant) : Chronicle :=
  { h with clock := h.clock.latest t }

def note (h : Chronicle) (kind sender text : String) : Chronicle :=
  { h with activities :=
      h.activities ++ [⟨h.activities.length + 1, kind, sender, text, h.clock⟩] }

/-- What an entry tells of; none if it is not told in the activities of a case. -/
def tell (h : Chronicle) : JournalEntry → Option Chronicle
  | .signalConsumed _ signal =>
      some ((h.pass signal.receivedAt).note Case.agentDecision "Agent"
        ("Case marked as '" ++ signal.value ++ "'."))
  | .activityCompleted _ output t =>
      match Visit.recordedEnrichment output with
      | .ok none => some (h.pass t)
      | .ok (some answer) =>
          some ((h.pass t).note Case.aiAnalysis "AI Agent"
            ("Analysis complete. Risk Score: " ++ answer.riskScore ++ "."))
      | .error _ => none
  | .started .. | .completed .. | .failed .. => none

def tellAll (h : Chronicle) (es : List JournalEntry) : Option Chronicle :=
  es.foldlM tell h

variable {h h' : Chronicle} {e : JournalEntry} {es : List JournalEntry}

@[simp] theorem tellAll_nil (h : Chronicle) : h.tellAll [] = some h := rfl

/-- Entries can be told in two parts. -/
theorem tellAll_append (h : Chronicle) (es es' : List JournalEntry) :
    h.tellAll (es ++ es') = (h.tellAll es).bind fun h' => h'.tellAll es' := by
  simp [tellAll, List.foldlM_append, bind]

/-- The last entry is told after all others. -/
theorem tellAll_concat (h : Chronicle) (es : List JournalEntry) (e : JournalEntry) :
    h.tellAll (es ++ [e]) = (h.tellAll es).bind fun h' => h'.tell e := by
  simp [tellAll, bind]

/-- An entry takes the time on to its own, and adds at most one activity, which bears that time. -/
theorem dated_of_tell (htell : h.tell e = some h') :
    h'.clock = h.clock.latest e.time ∧ ∃ added, h'.activities = h.activities ++ added ∧
      added.length ≤ 1 ∧ ∀ a ∈ added, a.timestamp = h'.clock := by
  cases e with
  | signalConsumed stepId signal =>
      cases htell
      exact ⟨rfl, _, rfl, by simp, by simp [note]⟩
  | activityCompleted stepId output t =>
      simp only [tell] at htell
      split at htell
      · cases htell
        exact ⟨rfl, [], by simp [pass], by simp, by simp⟩
      · cases htell
        exact ⟨rfl, _, rfl, by simp, by simp [note]⟩
      · cases htell
  | started _ _ _ _ _ => cases htell
  | completed _ _ => cases htell
  | failed _ _ => cases htell

/-- The clock of what was told is the latest time of all that was told. -/
theorem clock_of_tellAll (htell : h.tellAll es = some h') : h'.clock = latestOf h.clock es := by
  induction es generalizing h with
  | nil =>
      have hsame : h = h' := Option.some.inj htell
      simp [latestOf, hsame]
  | cons e rest ih =>
      have hsplit : (h.tell e).bind (fun h₁ => h₁.tellAll rest) = some h' := htell
      obtain ⟨h₁, hfirst, hrest⟩ := Option.bind_eq_some_iff.1 hsplit
      have hclock := (dated_of_tell hfirst).1
      calc
        h'.clock = latestOf h₁.clock rest := ih hrest
        _ = latestOf (h.clock.latest e.time) rest := by rw [hclock]
        _ = latestOf h.clock (e :: rest) := rfl

/-- Every activity that entries tell of bears the latest of the times up to its entry. -/
theorem dated (htell : h.tellAll es = some h') :
    ∀ before e, before ++ [e] <+: es → ∃ h₁ h₂ added, h.tellAll before = some h₁ ∧
      h₁.tell e = some h₂ ∧ h₂.activities = h₁.activities ++ added ∧ added.length ≤ 1 ∧
        ∀ a ∈ added, a.timestamp = latestOf h.clock (before ++ [e]) := by
  intro before e hprefix
  obtain ⟨after, rfl⟩ := hprefix
  rw [tellAll_append] at htell
  obtain ⟨h₂, hupto, -⟩ := Option.bind_eq_some_iff.1 htell
  have hclock : h₂.clock = latestOf h.clock (before ++ [e]) := clock_of_tellAll hupto
  rw [tellAll_concat] at hupto
  obtain ⟨h₁, hbefore, hlast⟩ := Option.bind_eq_some_iff.1 hupto
  obtain ⟨-, added, hadded, hlength, htimes⟩ := dated_of_tell hlast
  refine ⟨h₁, h₂, added, hbefore, hlast, hadded, hlength, ?_⟩
  intro a ha
  exact (htimes a ha).trans hclock

/-- Whether a case is published whose activities are what these entries tell, at a logical clock
that is where they leave it. -/
def Matches (h : Chronicle) (taken : List JournalEntry) (c : Context) : Prop :=
  ∃ k, c.published = some k ∧ h.tellAll taken = some ⟨c.clock, k.activities⟩

variable {c : Context} {taken : List JournalEntry}

/-- Changes that leave the activities alone leave what is told alone. -/
theorem Matches.update (hmatches : h.Matches taken c) {f : Case → Case}
    (hf : ∀ k, (f k).activities = k.activities) : h.Matches taken (c.update f) := by
  obtain ⟨k, hpublished, htell⟩ := hmatches
  refine ⟨f k, by simp [hpublished], ?_⟩
  simpa [hf, Context.update] using htell

/-- To ask a reviewer is such a change. -/
theorem Matches.asking (hmatches : h.Matches taken c) (settings : EngineSettings)
    (s : StepDefinition) (config : ReviewConfig) :
    h.Matches taken (Visit.asking settings s config c) := by
  have hcleared : h.Matches taken c.clearInbox := hmatches
  exact hcleared.update (by simp)

/-- A decision that is applied is told by its entry. -/
theorem Matches.decided (hmatches : h.Matches taken c) (stepId : String) (signal : Signal) :
    h.Matches (taken ++ [.signalConsumed stepId signal]) (Visit.applyDecision c signal) := by
  obtain ⟨k, hpublished, htell⟩ := hmatches
  refine ⟨k.decide signal.value (c.clock.latest signal.receivedAt), ?_, ?_⟩
  · simp [Visit.applyDecision, Context.advanceClock, Context.update, hpublished]
  · rw [tellAll_concat, htell]
    rfl

/-- An answer that is merged is told by its entry, and so is its absence. -/
theorem Matches.analysed (hmatches : h.Matches taken c) (stepId : String) {output : Value}
    {t : Instant} {a : Option Enrichment} (readable : Visit.recordedEnrichment output = .ok a) :
    h.Matches (taken ++ [.activityCompleted stepId output t])
      (Visit.applyEnrichment (c.advanceClock t) a) := by
  obtain ⟨k, hpublished, htell⟩ := hmatches
  cases a with
  | none =>
      refine ⟨k, hpublished, ?_⟩
      rw [tellAll_concat, htell]
      simp [tell, readable, pass, Visit.applyEnrichment, Context.advanceClock]
  | some answer =>
      refine ⟨k.enrich answer (c.clock.latest t), ?_, ?_⟩
      · simp [Visit.applyEnrichment, Context.advanceClock, Context.update, hpublished]
      · rw [tellAll_concat, htell]
        simp only [Option.bind_some, tell, readable]
        rfl

end Chronicle

/-! ## The invariant -/

/-- Whether an execution is on its way to its end and publishes nothing more. -/
def Phase.isOver : Phase → Bool
  | .visiting _ _ _ _ (.left (.error _)) | .closing _ | .ended _ => true
  | _ => false

/-- Whether an execution has opened its case, or failed to. -/
def Phase.isPastOpening : Phase → Bool
  | .starting | .opening => false
  | _ => true

/-- The start of a case, as it is recorded under some id. -/
def Launch.startedAs (launch : Launch) (caseId : String) : JournalEntry :=
  .started caseId launch.processName launch.processVersion launch.payload launch.startedAt

/-- How the published case of an execution follows from all entries of the case, those first that
are recorded and then those still to be replayed. -/
inductive Faithful (x : Execution) (all : List JournalEntry) : Prop
  /-- The start is not recorded yet. -/
  | unbegun (hp : x.phase = .starting) (unpublished : x.published = none) (empty : all = [])
      (live : x.pending = []) (clock : x.context.clock = x.launch.startedAt)
  /-- The case is not opened yet. -/
  | unopened {c : String} (hp : x.phase = .opening) (unpublished : x.published = none)
      (started : all = x.launch.startedAs c :: x.pending)
      (clock : x.context.clock = x.launch.startedAt)
  /-- The case will never be opened. -/
  | unborn (closed : x.phase.isOver = true) (unpublished : x.published = none)
  /-- Everything was published that is recorded, apart from what is still to be replayed. -/
  | abreast {c : String} {input : CaseInput} {taken : List JournalEntry}
      (past : x.phase.isPastOpening = true)
      (readable : CaseInput.ofPayload x.launch.payload = .ok input)
      (started : all = x.launch.startedAs c :: (taken ++ x.pending))
      (told : (Chronicle.opening input x.launch.startedAt).Matches taken x.context)
  /-- No more will be published, whatever is recorded. -/
  | done {c : String} {input : CaseInput} {taken rest : List JournalEntry} {clock : Instant}
      {k : Case} (closed : x.phase.isOver = true)
      (readable : CaseInput.ofPayload x.launch.payload = .ok input)
      (started : all = x.launch.startedAs c :: rest) (beginning : taken <+: rest)
      (published : x.published = some k)
      (told : (Chronicle.opening input x.launch.startedAt).tellAll taken =
        some ⟨clock, k.activities⟩)

section Invariant

open Execution

variable {g : Engine} {r : Readings} {x x' : Execution} {l : Ledger} {b : Execution × Ledger}
variable {all : List JournalEntry} {d : Definition} {n : Nat} {s : StepDefinition} {e : Executor}

/-- What the host does changes nothing of it. -/
theorem Faithful.of_same (h : Faithful x all) (launch : x'.launch = x.launch)
    (phase : x'.phase = x.phase) (published : x'.published = x.published)
    (pending : x'.pending = x.pending) (clock : x'.context.clock = x.context.clock) :
    Faithful x' all := by
  have hcontext : x'.context.published = x.context.published := published
  cases h with
  | unbegun hp unpublished empty live hclock =>
      exact .unbegun (phase.trans hp) (published.trans unpublished) empty (pending.trans live)
        (by rw [clock, launch]; exact hclock)
  | unopened hp unpublished started hclock =>
      exact .unopened (phase.trans hp) (published.trans unpublished)
        (by rw [launch, pending]; exact started) (by rw [clock, launch]; exact hclock)
  | unborn closed unpublished =>
      exact .unborn (by rw [phase]; exact closed) (published.trans unpublished)
  | abreast past readable started told =>
      refine .abreast (by rw [phase]; exact past) (by rw [launch]; exact readable)
        (by rw [launch, pending]; exact started) ?_
      rw [launch]
      obtain ⟨k, hk, htell⟩ := told
      exact ⟨k, hcontext.trans hk, by rw [clock]; exact htell⟩
  | done closed readable started beginning hpublished told =>
      exact .done (by rw [phase]; exact closed) (by rw [launch]; exact readable)
        (by rw [launch]; exact started) beginning (published.trans hpublished)
        (by rw [launch]; exact told)

/-- From where everything was published, a step of a visit goes on so, with the entry it took from
the queue or from the outside. -/
theorem Faithful.inVisit {c : String} {input : CaseInput} {taken : List JournalEntry}
    {out : Context × Ledger × Visit}
    (readable : CaseInput.ofPayload x.launch.payload = .ok input)
    (started : all = x.launch.startedAs c :: (taken ++ out.1.log.pending))
    (told : (Chronicle.opening input x.launch.startedAt).Matches taken out.1) :
    Faithful (x.inVisit d n s e out).1 all :=
  .abreast rfl readable started told

/-- A visit that ends with an error may have taken an entry that tells nothing. -/
theorem Faithful.failed {c : String} {input : CaseInput} {taken rest : List JournalEntry}
    {context : Context} {l' : Ledger} {fault : Error}
    (readable : CaseInput.ofPayload x.launch.payload = .ok input)
    (started : all = x.launch.startedAs c :: rest) (beginning : taken <+: rest)
    (told : (Chronicle.opening input x.launch.startedAt).Matches taken x.context)
    (published : context.published = x.context.published) :
    Faithful (x.inVisit d n s e (context, l', .left (.error fault))).1 all := by
  obtain ⟨k, hk, htell⟩ := told
  exact .done rfl readable started beginning (published.trans hk) htell

/-- A visit that begins tells what it takes from the earlier run, and nothing else. -/
theorem Faithful.enter {c : String} {input : CaseInput} {taken : List JournalEntry}
    {settings : EngineSettings} {out : Context × Ledger × Visit}
    (ways : Visit.Entering settings s r x.context l e out)
    (readable : CaseInput.ofPayload x.launch.payload = .ok input)
    (started : all = x.launch.startedAs c :: (taken ++ x.pending))
    (told : (Chronicle.opening input x.launch.startedAt).Matches taken x.context) :
    Faithful (x.inVisit d n s e out).1 all := by
  -- An entry that is taken from the queue goes over from what remains to what is told.
  cases ways with
  | noQuestion _ => exact .inVisit readable started told
  | @asking config _ _ => exact .inVisit readable started (told.asking settings s config)
  | @decided config signal rest _ recorded =>
      have hstarted : all =
          x.launch.startedAs c :: ((taken ++ [.signalConsumed s.stepId signal]) ++ rest) := by
        have hpending : x.pending = .signalConsumed s.stepId signal :: rest := recorded
        simpa [hpending] using started
      have hasked : (Chronicle.opening input x.launch.startedAt).Matches taken
          { Visit.asking settings s config x.context with
            log := { x.context.log with pending := rest } } :=
        told.asking settings s config
      exact .inVisit readable hstarted (hasked.decided s.stepId signal)
  | @undecided config entry rest _ _ _ =>
      exact .inVisit readable started (told.asking settings s config)
  | noStatus _ => exact .inVisit readable started told
  | committed _ => exact .inVisit readable started (told.update (by simp))
  | alone _ => exact .inVisit readable started told
  | unopened _ _ => exact .inVisit readable started told
  | refused _ _ _ => exact .inVisit readable started told
  | answered _ _ _ => exact .inVisit readable started told
  | @analysed enricher output t a rest recorded hreadable =>
      have hstarted : all = x.launch.startedAs c ::
          ((taken ++ [.activityCompleted s.stepId output t]) ++ rest) := by
        have hpending : x.pending = .activityCompleted s.stepId output t :: rest := recorded
        simpa [hpending] using started
      have htaken : (Chronicle.opening input x.launch.startedAt).Matches taken
          { x.context with log := { x.context.log with pending := rest } } := told
      refine .inVisit (c := c) readable ?_ (htaken.analysed s.stepId hreadable)
      simpa [Visit.log_applyEnrichment, Context.advanceClock] using hstarted
  | unreadable recorded _ =>
      exact .failed readable started (List.prefix_append taken x.pending) told rfl
  | unanswered _ _ => exact .inVisit readable started told

/-! ### One step -/

/-- Before its start an execution has told nothing. -/
theorem Faithful.of_starting (h : Faithful x all) (hp : x.phase = .starting) :
    x.published = none ∧ all = [] ∧ x.pending = [] ∧ x.context.clock = x.launch.startedAt := by
  cases h with
  | unbegun _ unpublished empty live clock => exact ⟨unpublished, empty, live, clock⟩
  | unopened hp' _ _ _ => simp [hp] at hp'
  | unborn closed _ => simp [hp, Phase.isOver] at closed
  | abreast past _ _ _ => simp [hp, Phase.isPastOpening] at past
  | done closed _ _ _ _ _ => simp [hp, Phase.isOver] at closed

/-- Before its case is opened an execution has the start behind it and all other entries ahead. -/
theorem Faithful.of_opening (h : Faithful x all) (hp : x.phase = .opening) :
    x.published = none ∧ (∃ c, all = x.launch.startedAs c :: x.pending) ∧
      x.context.clock = x.launch.startedAt := by
  cases h with
  | unbegun hp' _ _ _ _ => simp [hp] at hp'
  | unopened _ unpublished started clock => exact ⟨unpublished, ⟨_, started⟩, clock⟩
  | unborn closed _ => simp [hp, Phase.isOver] at closed
  | abreast past _ _ _ => simp [hp, Phase.isPastOpening] at past
  | done closed _ _ _ _ _ => simp [hp, Phase.isOver] at closed

/-- Between the opening and the end everything was published. -/
theorem Faithful.of_going (h : Faithful x all) (past : x.phase.isPastOpening = true)
    (going : x.phase.isOver = false) :
    ∃ c input taken, CaseInput.ofPayload x.launch.payload = .ok input ∧
      all = x.launch.startedAs c :: (taken ++ x.pending) ∧
        (Chronicle.opening input x.launch.startedAt).Matches taken x.context := by
  cases h with
  | unbegun hp _ _ _ _ => simp [hp, Phase.isPastOpening] at past
  | unopened hp _ _ _ => simp [hp, Phase.isPastOpening] at past
  | unborn closed _ => simp [closed] at going
  | abreast _ readable started told => exact ⟨_, _, _, readable, started, told⟩
  | done closed _ _ _ _ _ => simp [closed] at going

/-- Once an execution is on its way to its end, more entries make no difference. -/
theorem Faithful.of_over (h : Faithful x all) (closed : x.phase.isOver = true)
    (launch : x'.launch = x.launch) (published : x'.published = x.published)
    (closed' : x'.phase.isOver = true) (more : List JournalEntry) : Faithful x' (all ++ more) := by
  cases h with
  | unbegun hp _ _ _ _ => simp [hp, Phase.isOver] at closed
  | unopened hp _ _ _ => simp [hp, Phase.isOver] at closed
  | unborn _ unpublished => exact .unborn closed' (published.trans unpublished)
  | @abreast c input taken past readable started told =>
      obtain ⟨k, hk, htell⟩ := told
      have hreadable : CaseInput.ofPayload x'.launch.payload = .ok input := by
        simpa [launch] using readable
      have hstarted : all ++ more =
          x'.launch.startedAs c :: (taken ++ (x.pending ++ more)) := by
        simp [launch, started]
      have htold : (Chronicle.opening input x'.launch.startedAt).tellAll taken =
          some ⟨x.context.clock, k.activities⟩ := by
        simpa [launch] using htell
      exact .done closed' hreadable hstarted (List.prefix_append taken _) (published.trans hk) htold
  | @done c input taken rest clock k _ readable started beginning hk told =>
      have hreadable : CaseInput.ofPayload x'.launch.payload = .ok input := by
        simpa [launch] using readable
      have hstarted : all ++ more = x'.launch.startedAs c :: (rest ++ more) := by
        simp [launch, started]
      have hbeginning : taken <+: rest ++ more := beginning.trans (List.prefix_append rest more)
      have htold : (Chronicle.opening input x'.launch.startedAt).tellAll taken =
          some ⟨clock, k.activities⟩ := by
        simpa [launch] using told
      exact .done closed' hreadable hstarted hbeginning (published.trans hk) htold

/-- The start gets into the journal. -/
theorem Faithful.start (h : Faithful x all) (hp : x.phase = .starting) :
    Faithful (x.start l).1 (all ++ (x.accepted? r l).toList) := by
  obtain ⟨unpublished, hempty, hlive, hclock⟩ := h.of_starting hp
  have hwritten : x.written? r = some x.startEntry := written?_of_starting hp
  cases happend : l.journal.append x.context.log.caseId x.startEntry with
  | ok j =>
      have hstarted : all ++ [x.startEntry] = x.launch.startedAs x.caseId :: x.pending := by
        simp [hempty, hlive, startEntry, Launch.startedAs]
      simp only [start_of_kept happend, accepted?_of_taken hwritten happend, Option.toList_some]
      exact .unopened rfl unpublished hstarted hclock
  | error fault =>
      simp only [start_of_refused happend]
      exact .unborn rfl unpublished

/-- Once the case is opened, the start is told. -/
theorem Faithful.open (h : Faithful x all) (hp : x.phase = .opening) :
    Faithful (x.openCase g) all := by
  obtain ⟨unpublished, ⟨c, hstarted⟩, hclock⟩ := h.of_opening hp
  unfold openCase
  cases hprepare : prepare g x.launch with
  | error fault => exact .unborn rfl unpublished
  | ok out =>
      have hreadable : CaseInput.ofPayload x.launch.payload = .ok out.2 := by
        exact payload_of_prepare hprepare
      have hnothing : all = x.launch.startedAs c :: ([] ++ x.pending) := hstarted
      refine .abreast rfl hreadable hnothing ⟨_, rfl, ?_⟩
      simp [Context.publish, hclock, Chronicle.opening]
      rfl

/-- A decision that is recorded is told in the same step. -/
theorem Faithful.decide (h : Faithful x all) (caught : x.Caught) {signal : Signal}
    (hp : x.phase = .visiting d n s e (.decided signal)) :
    Faithful (x.inVisit d n s e (Visit.settleDecision s x.context l signal)).1
      (all ++ (x.accepted? r l).toList) := by
  obtain ⟨c, input, taken, hreadable, hstarted, htold⟩ :=
    h.of_going (by rw [hp]; rfl) (by rw [hp]; rfl)
  have hlive : x.pending = [] := caught (by rw [hp]; rfl)
  have hwritten : x.written? r = some (.signalConsumed s.stepId signal) := written?_of_decided hp
  cases happend : l.journal.append x.context.log.caseId (.signalConsumed s.stepId signal) with
  | ok j =>
      have hlog : (Visit.applyDecision x.context signal).log.pending = [] := hlive
      rw [settleDecision_of_kept happend, accepted?_of_taken hwritten happend]
      refine .inVisit (c := c) hreadable ?_ (htold.decided s.stepId signal)
      simp [hstarted, hlive, hlog]
  | error fault =>
      rw [settleDecision_of_refused happend, accepted?_of_refused hwritten happend]
      have hsame : all ++ (none : Option JournalEntry).toList = all := List.append_nil all
      rw [hsame]
      exact .inVisit hreadable hstarted htold

/-- So is an answer. -/
theorem Faithful.analyse (h : Faithful x all) (caught : x.Caught) {a : Option Enrichment}
    {t : Instant} (hp : x.phase = .visiting d n s e (.analysed a t)) :
    Faithful (x.inVisit d n s e (Visit.settleEnrichment s x.context l a t)).1
      (all ++ (x.accepted? r l).toList) := by
  obtain ⟨c, input, taken, hreadable, hstarted, htold⟩ :=
    h.of_going (by rw [hp]; rfl) (by rw [hp]; rfl)
  have hlive : x.pending = [] := caught (by rw [hp]; rfl)
  have hwritten : x.written? r = some (.activityCompleted s.stepId (toValue a) t) :=
    written?_of_analysed hp
  cases happend :
      l.journal.append x.context.log.caseId (.activityCompleted s.stepId (toValue a) t) with
  | ok j =>
      have hlog : (Visit.applyEnrichment (x.context.advanceClock t) a).log.pending = [] := by
        rw [Visit.log_applyEnrichment]
        exact hlive
      have hall : all ++ [.activityCompleted s.stepId (toValue a) t] = x.launch.startedAs c ::
          ((taken ++ [.activityCompleted s.stepId (toValue a) t]) ++
            (Visit.applyEnrichment (x.context.advanceClock t) a).log.pending) := by
        rw [hlog]
        simp [hstarted, hlive]
      rw [settleEnrichment_of_kept happend, accepted?_of_taken hwritten happend]
      exact .inVisit hreadable hall
        (htold.analysed s.stepId (Visit.recordedEnrichment_toValue a))
  | error fault =>
      rw [settleEnrichment_of_refused happend, accepted?_of_refused hwritten happend]
      have hsame : all ++ (none : Option JournalEntry).toList = all := List.append_nil all
      rw [hsame]
      exact .inVisit hreadable hstarted htold

/-- What is published and what is recorded stay in step. -/
theorem Faithful.advance (h : Faithful x all) (caught : x.Caught)
    (hstep : x.advance g r l = some b) :
    Faithful b.1 (all ++ (x.accepted? r l).toList) := by
  have hquiet : x.written? r = none → all ++ (x.accepted? r l).toList = all := by
    intro hwritten
    simp [accepted?_of_unwritten hwritten]
  -- Four steps append: the first, the last, and the two that close a visit with somebody's word.
  cases stepping hstep with
  | starting hp => exact h.start hp
  | opening hp =>
      rw [hquiet (by simp [written?, hp])]
      exact h.open hp
  | @dispatching d n stepId hp =>
      rw [hquiet (by simp [written?, hp])]
      obtain ⟨c, input, taken, hreadable, hstarted, htold⟩ :=
        h.of_going (by rw [hp]; rfl) (by rw [hp]; rfl)
      have hpast : (dispatch g d n stepId).isPastOpening = true := by
        unfold dispatch
        split
        · rfl
        · split <;> rfl
      exact .abreast hpast hreadable hstarted htold
  | entering hp ways =>
      rw [hquiet (by simp [written?, hp])]
      obtain ⟨c, input, taken, hreadable, hstarted, htold⟩ :=
        h.of_going (by rw [hp]; rfl) (by rw [hp]; rfl)
      exact .enter ways hreadable hstarted htold
  | awaiting hp hw =>
      rw [hquiet (by simp [written?, hp])]
      obtain ⟨c, input, taken, hreadable, hstarted, htold⟩ :=
        h.of_going (by rw [hp]; rfl) (by rw [hp]; rfl)
      exact .inVisit hreadable hstarted htold
  | decided hp => exact h.decide caught hp
  | analysed hp => exact h.analyse caught hp
  | @left d n s e result hp =>
      rw [hquiet (by simp [written?, hp])]
      cases result with
      | error fault =>
          have hover : x.phase.isOver = true := by rw [hp]; rfl
          have hdone : Faithful (x.betweenVisits (proceed x.context l d n s (.error fault))).1
              (all ++ []) := h.of_over hover (by rfl) (by rfl) (by rfl) []
          simpa using hdone
      | ok outcome =>
          obtain ⟨c, input, taken, hreadable, hstarted, htold⟩ :=
            h.of_going (by rw [hp]; rfl) (by rw [hp]; rfl)
          have hpast : (proceed x.context l d n s (.ok outcome)).1.isPastOpening = true := by
            cases outcome <;> rfl
          exact .abreast hpast hreadable hstarted htold
  | @closing result hp =>
      have hover : x.phase.isOver = true := by rw [hp]; rfl
      have hpublished : (x.finish l r result).1.published = x.published :=
        published_close x.context l r result
      exact h.of_over hover (by rfl) hpublished (by rfl) _

/-- Whoever has published a case has published what some of the first entries tell. -/
theorem Faithful.told (h : Faithful x all) {k : Case} (published : x.published = some k) :
    ∃ c input taken rest clock, all = x.launch.startedAs c :: rest ∧
      CaseInput.ofPayload x.launch.payload = .ok input ∧ taken <+: rest ∧
      (Chronicle.opening input x.launch.startedAt).tellAll taken = some ⟨clock, k.activities⟩ ∧
      (x.phase.isOver = false → rest = taken ++ x.pending) := by
  have hunopened : x.published ≠ none := by simp [published]
  cases h with
  | unbegun _ unpublished _ _ _ => exact absurd unpublished hunopened
  | unopened _ unpublished _ _ => exact absurd unpublished hunopened
  | unborn _ unpublished => exact absurd unpublished hunopened
  | @abreast c input taken past readable started told =>
      obtain ⟨k', hk', htell⟩ := told
      cases hk'.symm.trans published
      exact ⟨c, input, taken, _, _, started, readable, List.prefix_append taken x.pending, htell,
        fun _ => rfl⟩
  | @done c input taken rest clock k' closed readable started beginning hk' told =>
      cases hk'.symm.trans published
      refine ⟨c, input, taken, rest, clock, started, readable, beginning, told, ?_⟩
      intro going
      rw [closed] at going
      cases going

/-- At the beginning of a run nothing is told. -/
theorem Begins.faithful {caseId : String} {held : List JournalEntry} (h : Begins caseId l x held) :
    Faithful x held := by
  cases h with
  | fresh name version payload now empty => exact .unbegun rfl rfl rfl rfl rfl
  | resumed loaded hresume =>
      obtain ⟨c, name, version, payload, t, entries, hload, rfl⟩ := of_resume hresume
      have hheld : held = .started c name version payload t :: entries :=
        Except.ok.inj (loaded.symm.trans hload)
      exact .unopened rfl rfl hheld rfl

end Invariant

/-! ## A whole run -/

namespace Task

open Execution

/-- Whether a deed leaves the journal of a case to the execution: what the execution writes is found
again, if it is taken, and others do not change it. -/
def Alone (caseId : String) (t : Task) : Deed → Prop
  | .act (.task _ r) | .land r =>
      ∀ e, t.execution.written? r = some e → t.ledger.journal.Restores caseId e
  | .act (.others l) => l.journal.load caseId = t.ledger.journal.load caseId
  | _ => True

/-- What the journal of the case holds, and what of it the execution has published.  Amid an append
the last entry is still to be published. -/
structure Chronicled (caseId : String) (t : Task) (all : List JournalEntry) : Prop where
  case : t.execution.context.log.caseId = caseId
  load : t.ledger.journal.load caseId = .ok all
  caught : t.execution.Caught
  between : t.isAmid = false → Faithful t.execution all
  amid : t.isAmid = true → ∃ before e r, all = before ++ [e] ∧
    t.execution.written? r = some e ∧ Faithful t.execution before

variable {caseId : String} {t : Task} {all : List JournalEntry} {g : Engine} {r : Readings}
variable {l : Ledger} {z : Execution} {e : JournalEntry} {j : Journal}

/-- Where a task comes to by a step, whatever its status. -/
theorem faithful_of_step {x : Execution} {l' : Ledger}
    (h : advance g r { x with status := .running } l = some (z, l')) (caught : x.Caught)
    (faithful : Faithful x all) (status : ExecutionStatus) :
    Faithful { z with status := status } (all ++ (x.accepted? r l).toList) := by
  have hrunning : Faithful { x with status := .running } all := faithful.of_same rfl rfl rfl rfl rfl
  have hz := hrunning.advance caught h
  exact hz.of_same rfl rfl rfl rfl rfl

theorem caught_of_step {x : Execution} {l' : Ledger}
    (h : advance g r { x with status := .running } l = some (z, l')) (caught : x.Caught)
    (status : ExecutionStatus) : Execution.Caught { z with status := status } := by
  have hrunning : Execution.Caught { x with status := .running } := caught
  have hz : z.Caught := caught_of_advance hrunning h
  exact hz

/-- A step leaves the journal of the case with its entry. -/
theorem load_of_step {x : Execution} {l' : Ledger}
    (h : advance g r { x with status := .running } l = some (z, l'))
    (case : x.context.log.caseId = caseId) (load : l.journal.load caseId = .ok all)
    (restores : ∀ e, x.written? r = some e → l.journal.Restores caseId e) :
    l'.journal.load caseId = .ok (all ++ (x.accepted? r l).toList) := by
  cases hentry : x.accepted? r l with
  | none =>
      have hjournal := journal_of_unaccepted (x := { x with status := .running }) h hentry
      rw [show l'.journal = l.journal from hjournal, load]
      simp
  | some e =>
      obtain ⟨hwritten, j, happend⟩ := of_accepted? hentry
      have hjournal := journal_of_append (x := { x with status := .running }) h hwritten happend
      rw [show l'.journal = j from hjournal]
      exact restores e hwritten j (case ▸ happend) all load

/-- A step that is not interrupted tells what it appends. -/
theorem Chronicled.step (h : t.Chronicled caseId all) (free : t.isFree = true)
    (hstep : advance g r { t.execution with status := .running } t.ledger = some (z, l))
    (alone : t.Alone caseId (.act (.task g r))) (status : ExecutionStatus) :
    Chronicled caseId { t with execution := { z with status := status }, ledger := l }
      (all ++ (t.execution.accepted? r t.ledger).toList) := by
  have hbetween : t.isAmid = false := (isFree_iff.1 free).1
  exact {
    case := (advance_onward hstep).1.trans h.case
    load := load_of_step hstep h.case h.load alone
    caught := caught_of_step hstep h.caught status
    between := fun _ => faithful_of_step hstep h.caught (h.between hbetween) status
    amid := fun hamid => by simp [hbetween] at hamid }

/-- What happens besides the steps leaves both the journal and what is told alone. -/
theorem Chronicled.besides (h : t.Chronicled caseId all) {a : Execution.Act} {inbox : Inbox}
    (journal : l.journal = t.ledger.journal ∨ a = .others l) (alone : t.Alone caseId (.act a))
    (status : ExecutionStatus) (halted : Bool) :
    Chronicled caseId
      { t with
        execution := { t.execution.withInbox inbox with status := status }
        ledger := l
        isHalted := halted } all where
  case := h.case
  load := by
    rcases journal with hsame | rfl
    · exact (congrArg (Journal.load · caseId) hsame).trans h.load
    · exact Eq.trans alone h.load
  caught := h.caught
  between hbetween := (h.between hbetween).of_same rfl rfl rfl rfl rfl
  amid hamid := by
    obtain ⟨before, e, r, hall, hwritten, hfaithful⟩ := h.amid hamid
    exact ⟨before, e, r, hall, hwritten, hfaithful.of_same rfl rfl rfl rfl rfl⟩

/-- An entry that got into the journal is not told yet. -/
theorem Chronicled.land (h : t.Chronicled caseId all) (free : t.isFree = true)
    (written : t.execution.written? r = some e)
    (happend : t.ledger.journal.append t.execution.context.log.caseId e = .ok j)
    (alone : t.Alone caseId (.land r)) :
    Chronicled caseId { t with ledger := { t.ledger with journal := j }, isAmid := true }
      (all ++ [e]) where
  case := h.case
  load := alone e written j (h.case ▸ happend) all h.load
  caught := h.caught
  between hbetween := by cases hbetween
  amid _ := ⟨all, e, r, rfl, written, h.between (isFree_iff.1 free).1⟩

/-- It is told when the execution goes on. -/
theorem Chronicled.conclude (h : t.Chronicled caseId all) (amid : t.isAmid = true) :
    Chronicled caseId
      { t with
        execution := (t.execution.conclude t.ledger).1
        ledger := (t.execution.conclude t.ledger).2
        isAmid := false } all := by
  obtain ⟨before, e, r, rfl, hwritten, hfaithful⟩ := h.amid amid
  obtain ⟨l, l', z, hstep, haccepted, hsame⟩ :=
    exists_step_of_conclude ⟨.memory [], .builtin, {}⟩ hwritten t.ledger
  -- The two halves are one step over a journal that takes the entry, and that step is faithful.
  have hnext := faithful_of_step hstep h.caught hfaithful
    (if t.execution.isFinished then t.execution.status else z.status)
  rw [haccepted] at hnext
  refine ⟨?_, ?_, ?_, ?_, ?_⟩
  · rw [hsame]
    exact (advance_onward hstep).1.trans h.case
  · exact (congrArg (Journal.load · caseId) (journal_conclude _ _)).trans h.load
  · rw [hsame]
    exact caught_of_step hstep h.caught _
  · intro _
    rw [hsame]
    exact hnext
  · intro hamid
    cases hamid

/-- One deed leaves the journal with the entry that it brings there, and the execution with what it
has published of it. -/
theorem Chronicled.does (h : t.Chronicled caseId all) {d : Deed} (alone : t.Alone caseId d) :
    (t.does d).Chronicled caseId (all ++ (t.taken? d).toList) := by
  have hdoing := doing t d
  generalize t.taken? d = taken at hdoing ⊢
  generalize t.does d = u at hdoing ⊢
  cases hdoing with
  | idle => simpa using h
  | step free hstep => exact h.step free hstep alone _
  | besides changes journal => simpa using h.besides journal alone _ _
  | land free written happend => exact h.land free written happend alone
  | conclude amid unhalted => simpa using h.conclude amid

/-- Along a run the entries of its deeds come after those that were there. -/
theorem Chronicled.run {t₀ : Task} {held : List JournalEntry} (h₀ : t₀.Chronicled caseId held)
    {ds : List Deed} (alone : t₀.Along (Alone caseId) ds) :
    (t₀.run ds).Chronicled caseId (held ++ t₀.journaled ds) := by
  induction ds using List.reverseRecOn with
  | nil => simpa using h₀
  | append_singleton ds d ih =>
      obtain ⟨hbefore, hlast⟩ := along_concat.1 alone
      rw [run_concat, journaled_concat, ← List.append_assoc]
      exact (ih hbefore).does hlast

theorem chronicled_of_begins {x : Execution} {held : List JournalEntry}
    (begins : Begins caseId l x held) : (Task.of x l).Chronicled caseId held where
  case := begins.case
  load := begins.load
  caught := begins.caught
  between _ := begins.faithful
  amid hamid := by cases hamid

/-- Whoever has published a case has published what some of the first entries tell that the journal
holds, and between two appends what all of them tell that it has come to. -/
theorem Chronicled.told (h : t.Chronicled caseId all) {k : Case}
    (published : t.execution.published = some k) :
    ∃ c input taken rest clock, all = t.execution.launch.startedAs c :: rest ∧
      CaseInput.ofPayload t.execution.launch.payload = .ok input ∧ taken <+: rest ∧
      (Chronicle.opening input t.execution.launch.startedAt).tellAll taken =
        some ⟨clock, k.activities⟩ ∧
      (t.isAmid = false → t.execution.phase.isOver = false →
        rest = taken ++ t.execution.pending) := by
  cases hamid : t.isAmid with
  | false =>
      obtain ⟨c, input, taken, rest, clock, hall, hreadable, hprefix, htell, hrest⟩ :=
        (h.between hamid).told published
      exact ⟨c, input, taken, rest, clock, hall, hreadable, hprefix, htell, fun _ => hrest⟩
  | true =>
      obtain ⟨before, e, r, rfl, -, hfaithful⟩ := h.amid hamid
      obtain ⟨c, input, taken, rest, clock, rfl, hreadable, hprefix, htell, -⟩ :=
        hfaithful.told published
      exact ⟨c, input, taken, rest ++ [e], clock, rfl, hreadable,
        hprefix.trans (List.prefix_append rest [e]), htell, by simp⟩

end Task

open Execution

/-- What an execution has published is the image of the entries that come first in the journal of
its case, each dated by the latest time up to it; once the execution waits, of all of them. -/
theorem published_of_journal (caseId : String) (l₀ : Ledger) (x₀ : Execution)
    (held : List JournalEntry) (begins : Begins caseId l₀ x₀ held) (ds : List Task.Deed)
    (alone : (Task.of x₀ l₀).Along (Task.Alone caseId) ds) (k : Case)
    (published : ((Task.of x₀ l₀).run ds).execution.published = some k) :
    let t := (Task.of x₀ l₀).run ds
    ∃ c name version payload time input rest taken clock,
      t.ledger.journal.load caseId = .ok (.started c name version payload time :: rest) ∧
      held ++ (Task.of x₀ l₀).journaled ds = .started c name version payload time :: rest ∧
      CaseInput.ofPayload payload = .ok input ∧ taken <+: rest ∧
      (Chronicle.opening input time).tellAll taken = some ⟨clock, k.activities⟩ ∧
      (∀ before e, before ++ [e] <+: taken → ∃ h h' added,
        (Chronicle.opening input time).tellAll before = some h ∧ h.tell e = some h' ∧
          h'.activities = h.activities ++ added ∧ added.length ≤ 1 ∧
            ∀ a ∈ added, a.timestamp = latestOf time (before ++ [e])) ∧
      ∀ g r, t.isAmid = false → t.execution.isFinished = false →
        t.execution.advance g r t.ledger = none → taken = rest := by
  have hchronicled := (Task.chronicled_of_begins begins).run alone
  have hcloses : ((Task.of x₀ l₀).run ds).execution.Closes :=
    Task.closes_run (t := Task.of x₀ l₀) begins.closes rfl ds
  obtain ⟨c, input, taken, rest, clock, hall, hreadable, hprefix, htell, hrest⟩ :=
    hchronicled.told published
  refine ⟨c, _, _, _, _, input, rest, taken, clock, ?_, hall, hreadable, hprefix, htell,
    Chronicle.dated htell, ?_⟩
  · rw [hchronicled.load, hall]
    rfl
  · intro g r between running stuck
    -- Whoever waits has no entry before it, so everything that was recorded was published.
    have hawait := awaits_of_stuck hcloses running stuck
    have hlive := hchronicled.caught (isOpen_of_awaiting hawait)
    obtain ⟨d, n, s, e, w, hp⟩ := hawait
    have hgoing := hrest between (by simp [hp, Phase.isOver])
    simpa [hlive] using hgoing.symm

/-! ## An approval that is refused once -/

/-- The approval of a case up to the point where a refusal is in the journal and nowhere else. -/
def refusedRun : List Task.Deed :=
  List.replicate 9 (.act (.task (Engine.approving none) default)) ++
    .act (.request (.signal (.decision "refuse" "s-1" ⟨1, 0⟩))) ::
      List.replicate 2 (.act (.task (Engine.approving none) default)) ++ [.land default]

/-- Over a journal in memory an execution that is undisturbed has its journal to itself. -/
theorem along_alone {caseId : String} {t : Task} {ds : List Task.Deed}
    (own : t.execution.context.log.caseId = caseId)
    (memory : ∃ cases, t.ledger.journal = .memory cases)
    (undisturbed : ∀ l, .act (.others l) ∉ ds) : t.Along (Task.Alone caseId) ds := by
  refine Task.along_of_journal (Q := fun j => ∃ cases, j = .memory cases) ?_ ?_ own memory
    undisturbed
  · rintro _ e ⟨cases, rfl⟩
    exact ⟨_, rfl, _, rfl⟩
  · rintro t d - ⟨cases, hmemory⟩ hothers
    have hrestores : ∀ e, t.ledger.journal.Restores caseId e := by
      intro e
      rw [hmemory]
      exact (Journal.keeps_memory cases caseId e).restores
    cases d with
    | act a =>
        cases a with
        | task g r => exact fun e _ => hrestores e
        | others l => exact absurd rfl (hothers l)
        | _ => trivial
    | land r => exact fun e _ => hrestores e
    | conclude => trivial

/-- A reviewer who does not approve is asked again.  When the refusal has just been recorded the
journal is ahead of the case; when the execution waits again, they tell the same. -/
theorem published_of_journal_approval :
    ∃ c name version payload time input rest k clock,
      ((Task.of (.fresh "case-1" "approval" "1" .null ⟨0, 0⟩) ⟨.empty, [], []⟩).run
        (refusedRun ++ .conclude ::
          List.replicate 5 (.act (.task (Engine.approving none) default)))).ledger.journal.load
            "case-1" = .ok (.started c name version payload time :: rest) ∧ rest.length = 2 ∧
      ((Task.of (.fresh "case-1" "approval" "1" .null ⟨0, 0⟩) ⟨.empty, [], []⟩).run
        (refusedRun ++ .conclude ::
          List.replicate 5 (.act (.task (Engine.approving none) default)))).execution.published =
            some k ∧ k.activities.length = 2 ∧
      (Chronicle.opening input time).tellAll rest = some ⟨clock, k.activities⟩ ∧
      ∃ k' taken clock',
        ((Task.of (.fresh "case-1" "approval" "1" .null ⟨0, 0⟩) ⟨.empty, [], []⟩).run
          refusedRun).execution.published = some k' ∧ k'.activities.length = 1 ∧
        taken <+: rest ∧
        (Chronicle.opening input time).tellAll taken = some ⟨clock', k'.activities⟩ := by
  obtain ⟨c, name, version, payload, time, input, rest, taken, clock, hload, -, hreadable, -,
      htell, -, hsettled⟩ :=
    published_of_journal "case-1" ⟨.empty, [], []⟩ _ [] (.fresh "approval" "1" .null ⟨0, 0⟩ rfl)
      (refusedRun ++ .conclude :: List.replicate 5 (.act (.task (Engine.approving none) default)))
      (along_alone rfl ⟨_, rfl⟩ (by simp [refusedRun])) _ rfl
  obtain ⟨c', name', version', payload', time', input', rest', taken', clock', hload', -,
      hreadable', hprefix', htell', -, -⟩ :=
    published_of_journal "case-1" ⟨.empty, [], []⟩ _ [] (.fresh "approval" "1" .null ⟨0, 0⟩ rfl)
      refusedRun (along_alone rfl ⟨_, rfl⟩ (by simp [refusedRun])) _ rfl
  -- The journal is the same at both points.
  have hsame := hload'.symm.trans hload
  cases hsame
  cases hreadable'.symm.trans hreadable
  have hall : taken = rest := hsettled (Engine.approving none) default rfl rfl rfl
  cases hload
  exact ⟨_, _, _, _, _, input, _, _, clock, rfl, rfl, rfl, rfl, hall ▸ htell, _, taken', clock',
    rfl, rfl, hprefix', htell'⟩

end Casework
