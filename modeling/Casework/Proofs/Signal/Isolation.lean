import Casework.Proofs.Execution.Approval
import Casework.Proofs.Execution.Trace
import Casework.Proofs.Service.Operations
import Casework.Proofs.Signal.Waiting

/-!
# Isolation — which signal decides a visit

A visit that waits for a decision empties the inbox when it begins, so it is decided by what is
delivered from then on and by nothing else.

* `AskedSince` : all that has happened since a visit emptied the inbox;
* `Decides` : the signal that was delivered first, or the one that stands in when nothing came in
  time;
* `Attended` : the invariant of an execution and its trace;
* `Visit.enterReviewAmid_eq` : deliveries in the midst of the beginning of a visit count as if they
  came right after it;
* `signals_isolated` : every decision that is recorded live is such a signal, and no other visit
  has used it.
-/

namespace Casework

/-! ## What has happened since -/

/-- The signal that was delivered first, and what became of it. -/
def Trace.firstDelivery? (os : List Occurrence) : Option (Signal × Disposition) :=
  os.findSome? fun
    | .delivery signal disposition => some (signal, disposition)
    | _ => none

open Trace

/-- All that has happened since a visit emptied the inbox and asked for a decision, and the time at
which it gives up.  Nothing but its wait has taken a step since. -/
structure AskedSince (g : Engine) (os : List Occurrence) (d : Definition) (n : Nat)
    (s : StepDefinition) (before : List Occurrence) (deadline : Option Nat)
    (since : List Occurrence) : Prop where
  cleared : ∃ y r l config, os = before ++ .step y r l :: since ∧
    y.phase = .visiting d n s .humanInTheLoop .entering ∧
    s.config ReviewConfig.decoder = .ok config ∧ y.pending = [] ∧
    (Visit.enter g.settings .humanInTheLoop s r y.context l).1.inbox.slot = none ∧
    deadline = (config.timeout.or g.settings.signalTimeout).map (r.time + ·)
  waits : ∀ z r l, .step z r l ∈ since →
    ∃ w, z.phase = .visiting d n s .humanInTheLoop (.awaiting w)

inductive Decides (deadline : Option Nat) (since : List Occurrence) (signal : Signal) : Prop
  /-- It was the first to be delivered. -/
  | answered (h : firstDelivery? since = some (signal, .accepted))
  /-- Nothing was delivered up to a step of the wait at which the time had come. -/
  | expired {first rest : List Occurrence} {z : Execution} {r : Readings} {l : Ledger} {t : Nat}
      (h : since = first ++ .step z r l :: rest) (quiet : firstDelivery? first = none)
      (due : deadline = some t) (late : t ≤ r.time) (timeout : signal = .timeout r.freshId r.now)

section Since

variable {g : Engine} {os before since : List Occurrence} {d : Definition} {n : Nat}
variable {s : StepDefinition} {deadline : Option Nat} {signal : Signal} {o : Occurrence}

/-- The first delivery is an earlier one, if there is any. -/
theorem firstDelivery?_concat (os : List Occurrence) (o : Occurrence) :
    firstDelivery? (os ++ [o]) = (firstDelivery? os).or (firstDelivery? [o]) := by
  simp [firstDelivery?, List.findSome?_append]

theorem AskedSince.next (h : AskedSince g os d n s before deadline since)
    (ho : ∀ z r l, o = .step z r l → ∃ w, z.phase = .visiting d n s .humanInTheLoop (.awaiting w)) :
    AskedSince g (os ++ [o]) d n s before deadline (since ++ [o]) := by
  rcases h with ⟨⟨y, r, l, config, hos, hrest⟩, hwaits⟩
  constructor
  · exact ⟨y, r, l, config, by simp [hos], hrest⟩
  · intro z r' l' hmem
    rcases List.mem_append.1 hmem with hsince | hlast
    · exact hwaits z r' l' hsince
    · exact ho z r' l' (List.mem_singleton.1 hlast).symm

/-- What is decided is not changed by what happens later. -/
theorem Decides.next (h : Decides deadline since signal) (o : Occurrence) :
    Decides deadline (since ++ [o]) signal := by
  cases h with
  | answered hfirst => exact .answered (by simp [firstDelivery?_concat, hfirst])
  | @expired first rest z r l t hsince quiet due late timeout =>
      have hsince' : since ++ [o] = first ++ .step z r l :: (rest ++ [o]) := by simp [hsince]
      exact .expired hsince' quiet due late timeout

/-- What an earlier visit used was used before the inbox was emptied. -/
theorem AskedSince.apart (h : AskedSince g os d n s before deadline since)
    {os₁ os₂ : List Occurrence} {u : Execution} {r : Readings} {l : Ledger}
    (hos : os = os₁ ++ .step u r l :: os₂)
    (uses : ∃ d n s e signal, u.phase = .visiting d n s e (.decided signal)) :
    ∃ between, before = os₁ ++ .step u r l :: between := by
  rcases h with ⟨⟨y, r', l', config, hos', hentering, -⟩, hwaits⟩
  rcases uses with ⟨d', n', s', e', signal, hdecided⟩
  have heq : os₁ ++ .step u r l :: os₂ = before ++ .step y r' l' :: since := hos.symm.trans hos'
  rcases List.append_eq_append_iff.1 heq with ⟨middle, hbefore, hmiddle⟩ | ⟨middle, hos₁, hmiddle⟩
  · -- The use is what follows the first part, so it is inside the second or at its clear.
    cases middle with
    | nil =>
        have hsame : Occurrence.step u r l = .step y r' l' := (List.cons.inj hmiddle).1
        cases hsame
        simp [hentering] at hdecided
    | cons first rest =>
        have hfirst : Occurrence.step u r l = first := (List.cons.inj hmiddle).1
        exact ⟨rest, by rw [hbefore, hfirst]⟩
  · cases middle with
    | nil =>
        have hsame : Occurrence.step y r' l' = .step u r l := (List.cons.inj hmiddle).1
        cases hsame
        simp [hentering] at hdecided
    | cons first rest =>
        -- A use after the clear would be a step that is not one of the wait.
        have hsince : since = rest ++ .step u r l :: os₂ := (List.cons.inj hmiddle).2
        rcases hwaits u r l (by simp [hsince]) with ⟨w, hwaiting⟩
        simp [hwaiting] at hdecided

end Since

/-! ## The invariant -/

/-- Whether an execution waits for a decision or is about to record one. -/
def Phase.isReviewing : Phase → Bool
  | .visiting _ _ _ _ (.awaiting _) | .visiting _ _ _ _ (.decided _) => true
  | _ => false

/-- What the inbox of an execution has to do with what has happened. -/
inductive Attended (g : Engine) (os : List Occurrence) (x : Execution) : Prop
  | away (hp : x.phase.isReviewing = false) (idle : x.context.inbox.Idle)
  | waiting {d : Definition} {n : Nat} {s : StepDefinition} {w : Inbox.Waiter}
      {before since : List Occurrence}
      (hp : x.phase = .visiting d n s .humanInTheLoop (.awaiting w))
      (asked : AskedSince g os d n s before w.deadline since)
      (slot : x.context.inbox.slot = (firstDelivery? since).map Prod.fst)
      (accepted : ∀ p, firstDelivery? since = some p → p.2 = .accepted)
      (sound : w.Sound x.context.inbox)
  | decided {d : Definition} {n : Nat} {s : StepDefinition} {signal : Signal}
      {before since : List Occurrence} {deadline : Option Nat}
      (hp : x.phase = .visiting d n s .humanInTheLoop (.decided signal))
      (asked : AskedSince g os d n s before deadline since)
      (decides : Decides deadline since signal) (idle : x.context.inbox.Idle)

section Invariant

open Execution

variable {g g' : Engine} {os : List Occurrence} {r : Readings} {x x' : Execution} {l : Ledger}
variable {b : Execution × Ledger} {d : Definition} {n : Nat} {s : StepDefinition} {e : Executor}

/-- Outside a review nobody is queued at the inbox. -/
theorem Attended.idle (h : Attended g os x) (hp : x.phase.isReviewing = false) :
    x.context.inbox.Idle := by
  cases h with
  | away _ idle => exact idle
  | waiting hp' _ _ _ _ => simp [hp', Phase.isReviewing] at hp
  | decided hp' _ _ _ => simp [hp', Phase.isReviewing] at hp

theorem Attended.sound {w : Inbox.Waiter} (h : Attended g os x)
    (hp : x.phase = .visiting d n s e (.awaiting w)) : w.Sound x.context.inbox := by
  cases h with
  | away hp' _ => simp [hp, Phase.isReviewing] at hp'
  | decided hp' _ _ _ => simp [hp] at hp'
  | waiting hp' _ _ _ sound =>
      rw [hp] at hp'
      cases hp'
      exact sound

/-- A wait that is not over goes on. -/
theorem Visit.ofWaiter_of_sound {w : Inbox.Waiter} {inbox : Inbox} (r : Readings)
    (sound : w.Sound inbox) : ofWaiter r w = .awaiting w := by
  unfold ofWaiter
  cases hstate : w.state <;> simp [Inbox.Waiter.Sound, hstate] at sound ⊢

/-- A visit begins with an empty slot, or does not wait. -/
theorem Attended.enter {out : Context × Ledger × Visit} (alike : g.Alike g')
    (hp : x.phase = .visiting d n s e .entering) (idle : x.context.inbox.Idle)
    (ways : Visit.Entering g'.settings s r x.context l e out) :
    Attended g (os ++ [.step x r l]) (x.inVisit d n s e out).1 := by
  have hcleared : x.context.inbox.clear.1.Idle := Inbox.idle_clear idle
  cases ways with
  | @asking config decodable live =>
      have hasked : AskedSince g (os ++ [.step x r l]) d n s os
          (Visit.ownWaiter (Visit.deadlineOf config g'.settings r.time)).deadline [] := by
        refine ⟨⟨x, r, l, config, rfl, hp, decodable, live, ?_, ?_⟩, by simp⟩
        · rw [Visit.enter_review, Visit.enterReview_of_live decodable live]
          rfl
        · simp [Visit.ownWaiter, Visit.deadlineOf, alike.settings]
      exact .waiting rfl hasked rfl (by simp [firstDelivery?]) hcleared
  | noQuestion _ => exact .away rfl idle
  | decided _ _ => exact .away rfl hcleared
  | undecided _ _ _ => exact .away rfl hcleared
  | noStatus _ => exact .away rfl idle
  | committed _ => exact .away rfl idle
  | alone _ => exact .away rfl idle
  | unopened _ _ => exact .away rfl idle
  | refused _ _ _ => exact .away rfl idle
  | answered _ _ _ => exact .away rfl idle
  | @analysed enricher output t a rest _ _ =>
      refine .away rfl ?_
      simpa [inVisit, Visit.inbox_applyEnrichment] using idle
  | unreadable _ _ => exact .away rfl idle
  | unanswered _ _ => exact .away rfl idle

/-- A step of a wait leaves it waiting, or decides the visit. -/
theorem Attended.wait {w : Inbox.Waiter} {out : Inbox × Inbox.Waiter} (h : Attended g os x)
    (hp : x.phase = .visiting d n s e (.awaiting w))
    (hw : w.advance x.context.inbox r.time = some out) :
    Attended g (os ++ [.step x r l])
      (x.inVisit d n s e ({ x.context with inbox := out.1 }, l, Visit.ofWaiter r out.2)).1 := by
  cases h with
  | away hp' _ => simp [hp, Phase.isReviewing] at hp'
  | decided hp' _ _ _ => simp [hp] at hp'
  | @waiting d' n' s' w' before since hp' asked slot accepted sound =>
      rw [hp] at hp'
      cases hp'
      have hasked : AskedSince g (os ++ [.step x r l]) d n s before w.deadline
          (since ++ [.step x r l]) := by
        apply asked.next
        intro z r' l' hstep
        cases hstep
        exact ⟨w, hp⟩
      have hfirst : firstDelivery? (since ++ [.step x r l]) = firstDelivery? since := by
        simp [firstDelivery?]
      rcases out with ⟨inbox, w₁⟩
      -- A wait goes on, is served what the slot holds, or gives up before an empty slot.
      cases Inbox.Waiter.progress sound hw with
      | waiting sound' slot' deadline =>
          have hstays := Visit.ofWaiter_of_sound r sound'
          have hphase : (x.inVisit d n s .humanInTheLoop ({ x.context with inbox := inbox }, l,
              Visit.ofWaiter r w₁)).1.phase = .visiting d n s .humanInTheLoop (.awaiting w₁) := by
            simp [inVisit, hstays]
          refine .waiting hphase (deadline ▸ hasked) ?_ ?_ sound'
          · rw [hfirst]
            exact slot'.trans slot
          · rw [hfirst]
            exact accepted
      | @served signal hslot state idle =>
          have hdecided : Visit.ofWaiter r w₁ = .decided signal := by
            simp [Visit.ofWaiter, state]
          have hsignal : firstDelivery? since = some (signal, .accepted) := by
            rw [slot] at hslot
            rcases Option.map_eq_some_iff.1 hslot with ⟨p, hp, rfl⟩
            rw [hp, ← accepted p hp]
          refine .decided ?_ hasked (.answered (hfirst.trans hsignal)) idle
          simp [inVisit, hdecided]
      | expired hslot due state idle =>
          have hdecided : Visit.ofWaiter r w₁ = .decided (.timeout r.freshId r.now) := by
            simp [Visit.ofWaiter, state]
          have hquiet : firstDelivery? since = none := by
            rw [slot] at hslot
            simpa using hslot
          rcases Inbox.Waiter.isDue_iff.1 due with ⟨t, hdeadline, hle⟩
          refine .decided ?_ hasked (.expired rfl hquiet hdeadline hle rfl) idle
          simp [inVisit, hdecided]

/-- A visit that is decided leaves with its decision, and nobody waits meanwhile. -/
theorem Attended.settle {signal : Signal} (h : Attended g os x)
    (hp : x.phase = .visiting d n s e (.decided signal)) :
    Attended g (os ++ [.step x r l])
      (x.inVisit d n s e (Visit.settleDecision s x.context l signal)).1 := by
  have hidle : x.context.inbox.Idle := by
    cases h with
    | away _ idle => exact idle
    | waiting hp' _ _ _ _ => simp [hp] at hp'
    | decided _ _ _ idle => exact idle
  unfold Visit.settleDecision
  split
  · exact .away rfl hidle
  · exact .away rfl hidle

theorem inbox_settleEnrichment (s : StepDefinition) (c : Context) (l : Ledger)
    (a : Option Enrichment) (t : Instant) :
    (Visit.settleEnrichment s c l a t).1.inbox = c.inbox ∧
      (Visit.settleEnrichment s c l a t).2.2.isOpen = false := by
  unfold Visit.settleEnrichment
  split
  · exact ⟨rfl, rfl⟩
  · exact ⟨Visit.inbox_applyEnrichment _ a, rfl⟩

theorem isReviewing_of_closed {p : Phase} (h : p.isOpen = false) : p.isReviewing = false := by
  cases p with
  | visiting d n s e v => cases v <;> first | rfl | cases h
  | _ => rfl

/-- Every atomic step keeps the invariant. -/
theorem Attended.advance (h : Attended g os x) (alike : g.Alike g')
    (hstep : x.advance g' r l = some b) : Attended g (os ++ [.step x r l]) b.1 := by
  -- Outside a review nobody waits at the inbox, and no step changes that.
  cases stepping hstep with
  | starting hp =>
      have hidle := h.idle (by simp [hp, Phase.isReviewing])
      refine .away (isReviewing_of_closed (phase_start x l)) ?_
      rw [context_start]
      exact hidle
  | opening hp =>
      have hidle := h.idle (by simp [hp, Phase.isReviewing])
      refine .away (isReviewing_of_closed (phase_openCase g' x)) ?_
      unfold openCase
      split <;> exact hidle
  | @dispatching d n stepId hp =>
      have hidle := h.idle (by simp [hp, Phase.isReviewing])
      exact .away (isReviewing_of_closed (phase_dispatch g' d n stepId)) hidle
  | entering hp ways =>
      exact .enter alike hp (h.idle (by simp [hp, Phase.isReviewing])) ways
  | awaiting hp hw => exact h.wait hp hw
  | decided hp => exact h.settle hp
  | @analysed d n s e a t hp =>
      have hidle := h.idle (by simp [hp, Phase.isReviewing])
      rcases inbox_settleEnrichment s x.context l a t with ⟨hinbox, hclosed⟩
      refine .away (isReviewing_of_closed hclosed) ?_
      simpa [inVisit, hinbox] using hidle
  | @left d n s e result hp =>
      have hidle := h.idle (by simp [hp, Phase.isReviewing])
      exact .away (isReviewing_of_closed (phase_proceed x.context l d n s result)) hidle
  | @closing result hp =>
      have hidle := h.idle (by simp [hp, Phase.isReviewing])
      refine .away rfl ?_
      have hinbox := inbox_close x.context l r result
      simpa [finish, hinbox] using hidle

theorem deliver_eq {signal : Signal} {disposition : Disposition}
    (h : x.deliver signal = .ok (x', disposition)) :
    x' = x.withInbox (x.context.inbox.deliver signal).1 ∧
      disposition = (x.context.inbox.deliver signal).2 := by
  unfold deliver at h
  cases hfinished : x.isFinished with
  | true => simp [hfinished] at h
  | false =>
      rw [hfinished] at h
      cases h
      exact ⟨rfl, rfl⟩

/-- A delivery is the first since the inbox was emptied, and then it is stored, or it is dropped. -/
theorem Attended.deliver {signal : Signal} {disposition : Disposition} (h : Attended g os x)
    (hdeliver : x.deliver signal = .ok (x', disposition)) :
    Attended g (os ++ [.delivery signal disposition]) x' := by
  rcases deliver_eq hdeliver with ⟨rfl, hdisposition⟩
  have hslot := Inbox.slot_deliver x.context.inbox signal
  have hdelivered : ∀ since : List Occurrence,
      firstDelivery? (since ++ [.delivery signal disposition]) =
        (firstDelivery? since).or (some (signal, disposition)) := by
    intro since
    exact firstDelivery?_concat since _
  cases h with
  | away hp idle => exact .away hp (Inbox.idle_deliver idle signal)
  | @waiting d n s w before since hp asked slot accepted sound =>
      -- The slot keeps what came first, and so does `firstDelivery?`.
      refine .waiting hp (asked.next (by simp)) ?_ ?_ (Inbox.Waiter.sound_deliver sound signal)
      · rw [hdelivered]
        have hafter : (x.withInbox (x.context.inbox.deliver signal).1).context.inbox.slot =
            some (x.context.inbox.slot.getD signal) := hslot.1
        rw [hafter, slot]
        cases firstDelivery? since <;> rfl
      · intro p hfirst
        rw [hdelivered] at hfirst
        cases hsince : firstDelivery? since with
        | some q =>
            rw [hsince] at hfirst
            cases hfirst
            exact accepted _ hsince
        | none =>
            rw [hsince] at hfirst
            cases hfirst
            have hempty : x.context.inbox.slot = none := by simp [slot, hsince]
            exact hdisposition.trans (hslot.2.2 hempty)
  | decided hp asked decides idle =>
      exact .decided hp (asked.next (by simp)) (decides.next _) (Inbox.idle_deliver idle signal)

/-- What neither steps nor delivers makes no difference. -/
theorem Attended.of_same {o : Occurrence} (h : Attended g os x) (phase : x'.phase = x.phase)
    (inbox : x'.context.inbox = x.context.inbox) (hstep : ∀ z r l, o ≠ .step z r l)
    (hdelivery : firstDelivery? [o] = none) : Attended g (os ++ [o]) x' := by
  cases h with
  | away hp idle => exact .away (by rw [phase]; exact hp) (by rw [inbox]; exact idle)
  | @waiting d n s w before since hp asked slot accepted sound =>
      have hfirst : firstDelivery? (since ++ [o]) = firstDelivery? since := by
        simp [firstDelivery?_concat, hdelivery]
      refine .waiting (phase.trans hp) (asked.next ?_) ?_ ?_ (by rw [inbox]; exact sound)
      · intro z r l ho
        exact absurd ho (hstep z r l)
      · rw [inbox, hfirst]
        exact slot
      · rw [hfirst]
        exact accepted
  | decided hp asked decides idle =>
      refine .decided (phase.trans hp) (asked.next ?_) (decides.next o) (by rw [inbox]; exact idle)
      intro z r l ho
      exact absurd ho (hstep z r l)

/-- Whatever occurs keeps the invariant. -/
theorem Attended.occurs {caseId : String} {a c : Execution × Ledger} {o : Occurrence}
    (h : Attended g os a.1) (occurs : Occurs g caseId a o c) : Attended g (os ++ [o]) c.1 := by
  cases occurs with
  | step alike hstep => exact h.advance alike hstep
  | delivery hdeliver => exact h.deliver hdeliver
  | stop x l =>
      exact h.of_same (phase_cancel x) (congrArg (·.inbox) (context_cancel x)) (by simp) rfl
  | elsewhere same => exact h.of_same rfl rfl (by simp) rfl

/-- So does a whole run. -/
theorem Trace.attended {caseId : String} {a c : Execution × Ledger} {os : List Occurrence}
    (run : Trace g caseId a os c) (h : Attended g [] a.1) : Attended g os c.1 := by
  induction run with
  | refl => exact h
  | next before occurs ih => exact ih.occurs occurs

theorem attended_launching (g : Engine) (caseId : String) (launch : Launch)
    (entries : List JournalEntry) : Attended g [] (launching caseId launch entries) := by
  refine .away ?_ ⟨rfl, rfl⟩
  unfold launching
  cases launch.isFresh <;> rfl

/-- It holds at the beginning, of a fresh execution and of one that was rebuilt. -/
theorem Begins.attended {caseId : String} {held : List JournalEntry} (h : Begins caseId l x held) :
    Attended g [] x := by
  rcases h.launching with ⟨launch, entries, rfl⟩
  exact attended_launching g caseId launch entries

/-! ## How a visit is decided by itself -/

/-- Atomic steps of an execution at one time, with nothing in between. -/
abbrev Execution.Alone (g : Engine) (r : Readings) (l : Ledger) : Execution → Execution → Prop :=
  Relation.ReflTransGen fun y z => y.advance g r l = some (z, l)

/-- The steps of a wait are steps of the execution, taken by itself. -/
theorem alone_of_steps {w w' : Inbox.Waiter} {inbox : Inbox} {result : Option Signal}
    (steps : Inbox.Waiter.Steps r.time (x.context.inbox, w) (inbox, w'))
    (hended : w'.state = .ended result) (unended : ∀ result, w.state ≠ .ended result)
    (running : x.status = .running) (hp : x.phase = .visiting d n s e (.awaiting w)) :
    ∃ x', x.Alone g r l x' ∧ x'.phase = .visiting d n s e (Visit.ofWaiter r w') := by
  generalize hfrom : (x.context.inbox, w) = start at steps
  generalize hto : (inbox, w') = finish at steps
  -- From the front, with the execution generalized to where the first step leads.
  induction steps using Relation.ReflTransGen.head_induction_on generalizing x w with
  | refl =>
      have hsame : w = w' := (Prod.mk.inj (hfrom.trans hto.symm)).2
      rw [hsame] at unended
      exact absurd hended (unended result)
  | @head first second hfirst hrest ih =>
      subst hfrom
      have hstep := advance_of_awaiting (g := g) (r := r) (l := l) running hp
      rw [hfirst] at hstep
      rcases second with ⟨inbox₁, w₁⟩
      by_cases hends : ∃ result₁, w₁.state = .ended result₁
      · -- Nothing comes after the end of a wait.
        rcases hends with ⟨result₁, hstate⟩
        have hlast : (inbox₁, w₁) = finish := by
          rcases Relation.ReflTransGen.cases_head hrest with hsame | ⟨third, hthird, -⟩
          · exact hsame
          · simp [Inbox.Waiter.advance, hstate] at hthird
        have hw : w₁ = w' := (Prod.mk.inj (hlast.trans hto.symm)).2
        subst hw
        exact ⟨_, .single hstep, rfl⟩
      · have hgoes : ∀ result, w₁.state ≠ .ended result := by
          intro result₁ hstate
          exact hends ⟨result₁, hstate⟩
        have hphase : Visit.ofWaiter r w₁ = .awaiting w₁ := by
          unfold Visit.ofWaiter
          split
          · next signal hstate => exact absurd hstate (hgoes _)
          · next hstate => exact absurd hstate (hgoes _)
          · rfl
        rcases ih (w := w₁) (x := (x.inVisit d n s e ({ x.context with inbox := inbox₁ }, l,
          Visit.ofWaiter r w₁)).1) hgoes running (by simp [inVisit, hphase]) rfl
          with ⟨x', halone, hx'⟩
        exact ⟨x', .head hstep halone, hx'⟩

end Invariant

/-! ## Deliveries in the midst of the beginning of a visit -/

def Inbox.deliverAll (b : Inbox) : List Signal → Inbox × List Disposition
  | [] => (b, [])
  | signal :: rest =>
      let (b, disposition) := b.deliver signal
      let (b, dispositions) := b.deliverAll rest
      (b, disposition :: dispositions)

theorem Inbox.deliverAll_append (b : Inbox) (first second : List Signal) :
    b.deliverAll (first ++ second) =
      (((b.deliverAll first).1.deliverAll second).1,
        (b.deliverAll first).2 ++ ((b.deliverAll first).1.deliverAll second).2) := by
  induction first generalizing b with
  | nil => rfl
  | cons signal rest ih => simp [deliverAll, ih]

/-- Several deliveries to an execution, and what becomes of them. -/
def Context.receive (c : Context) (signals : List Signal) : Context × List Disposition :=
  ({ c with inbox := (c.inbox.deliverAll signals).1 }, (c.inbox.deliverAll signals).2)

namespace Visit

/-- The beginning of a visit in its pieces, with deliveries after the inbox is emptied and after
the question is published. -/
def enterReviewAmid (settings : EngineSettings) (s : StepDefinition) (config : ReviewConfig)
    (r : Readings) (c : Context) (unasked asked : List Signal) :
    (Context × Visit) × List Disposition :=
  let (c, first) := c.clearInbox.receive unasked
  let c := c.update fun k =>
    k.beginInteraction (interactionOf s config settings c.caseId) settings.reviewStatus c.clock
  let (c, second) := c.receive asked
  match c.log.recallSignal s.stepId with
  | .error e => ((c, .left (.error e)), first ++ second)
  | .ok (log, some signal) =>
      ((applyDecision { c with log := log } signal, leave s signal.value), first ++ second)
  | .ok (log, none) =>
      (({ c with log := log }, .awaiting (ownWaiter (deadlineOf config settings r.time))),
        first ++ second)

/-- Such deliveries count as if they came right after the beginning. -/
theorem enterReviewAmid_eq {settings : EngineSettings} {s : StepDefinition}
    {config : ReviewConfig} (h : s.config ReviewConfig.decoder = .ok config) (r : Readings)
    (c : Context) (unasked asked : List Signal) :
    enterReviewAmid settings s config r c unasked asked =
      ((((enterReview settings s r c).1.receive (unasked ++ asked)).1,
          (enterReview settings s r c).2),
        ((enterReview settings s r c).1.receive (unasked ++ asked)).2) := by
  rw [enterReview_eq h]
  unfold enterReviewAmid
  simp only [Context.receive, Inbox.deliverAll_append, asking, Context.clearInbox, Context.update]
  cases hrecall : c.log.recallSignal s.stepId with
  | error fault => rfl
  | ok out =>
      rcases out with ⟨log, recorded⟩
      cases recorded with
      | none => rfl
      | some signal => rfl

end Visit

/-! ## All of it -/

/-- Only a visit that is decided is about to record a signal. -/
theorem Execution.decided_of_written {x : Execution} {r : Readings} {stepId : String}
    {signal : Signal} (h : x.written? r = some (.signalConsumed stepId signal)) :
    ∃ d n s e, s.stepId = stepId ∧ x.phase = .visiting d n s e (.decided signal) := by
  generalize hentry : JournalEntry.signalConsumed stepId signal = entry at h
  cases writes_of_written h with
  | start hp => cases hentry
  | @decision d n s e signal' hp =>
      cases hentry
      exact ⟨d, n, s, e, rfl, hp⟩
  | answer hp => cases hentry
  | @ending result hp other => cases result <;> cases hentry

/-- A decision that is recorded is applied, and leads to the next step. -/
theorem Execution.applied_of_accepted {g : Engine} {x : Execution} {r : Readings} {l : Ledger}
    {b : Execution × Ledger} {d : Definition} {n : Nat} {s : StepDefinition} {e : Executor}
    {signal : Signal} (hp : x.phase = .visiting d n s e (.decided signal))
    (hstep : x.advance g r l = some b) (haccepted : x.accepted? r l ≠ none) :
    b.1.context = Visit.applyDecision x.context signal ∧
      b.1.phase = .visiting d n s e (Visit.leave s signal.value) := by
  have hrunning := running_of_advance hstep
  have hb := Option.some.inj
    (hstep.symm.trans (advance_of_decided (g := g) (r := r) (l := l) hrunning hp))
  rcases Option.ne_none_iff_exists'.1 haccepted with ⟨entry, hentry⟩
  rcases of_accepted? hentry with ⟨hwritten, j, happend⟩
  have hsame : entry = .signalConsumed s.stepId signal :=
    Option.some.inj (hwritten.symm.trans (written?_of_decided hp))
  rw [hsame] at happend
  rw [hb, settleDecision_of_kept happend]
  exact ⟨rfl, rfl⟩

section Invariant

open Execution

variable {g : Engine} {os : List Occurrence} {r : Readings} {x x' : Execution} {l : Ledger}
variable {d : Definition} {n : Nat} {s : StepDefinition} {e : Executor} {signal : Signal}

/-- A signal is recorded for a visit that it decides. -/
theorem Attended.recorded {stepId : String} (h : Attended g os x)
    (hwritten : x.written? r = some (.signalConsumed stepId signal)) :
    ∃ d n s before deadline since, s.stepId = stepId ∧
      x.phase = .visiting d n s .humanInTheLoop (.decided signal) ∧
      AskedSince g os d n s before deadline since ∧ Decides deadline since signal := by
  rcases decided_of_written hwritten with ⟨d, n, s, e, hstepId, hp⟩
  cases h with
  | away hp' _ => simp [hp, Phase.isReviewing] at hp'
  | waiting hp' _ _ _ _ => simp [hp] at hp'
  | @decided d' n' s' signal' before since deadline hp' asked decides idle =>
      rw [hp] at hp'
      cases hp'
      exact ⟨d, n, s, before, deadline, since, hstepId, hp, asked, decides⟩

/-- A visit that waits goes on by itself once there is a signal, and when it is due. -/
theorem Attended.resolves {w : Inbox.Waiter} (h : Attended g os x) (running : x.status = .running)
    (hp : x.phase = .visiting d n s e (.awaiting w)) (l : Ledger) (r : Readings) :
    ∃ before since, AskedSince g os d n s before w.deadline since ∧
      ∀ signal, (firstDelivery? since).map Prod.fst = some signal ∨
          (firstDelivery? since = none ∧ (∃ t, w.deadline = some t ∧ t ≤ r.time) ∧
            signal = .timeout r.freshId r.now) →
        ∃ x', x.Alone g r l x' ∧ x'.phase = .visiting d n s e (.decided signal) := by
  cases h with
  | away hp' _ => simp [hp, Phase.isReviewing] at hp'
  | decided hp' _ _ _ => simp [hp] at hp'
  | @waiting d' n' s' w' before since hp' asked slot accepted sound =>
      rw [hp] at hp'
      cases hp'
      refine ⟨before, since, asked, ?_⟩
      have hunended : ∀ result, w.state ≠ .ended result := by
        intro result hstate
        simp [Inbox.Waiter.Sound, hstate] at sound
      intro signal hsignal
      -- The slot holds the first delivery, if there was one, and the wait finds what the slot
      -- holds.
      rcases hsignal with hfirst | ⟨hnone, hlate, hsynthetic⟩
      · have hfull : x.context.inbox.slot = some signal := slot.trans hfirst
        rcases Inbox.Waiter.takes sound hfull r.time with ⟨inbox, w', hsteps, hended⟩
        rcases alone_of_steps (g := g) (l := l) hsteps hended hunended running hp with
          ⟨x', halone, hx'⟩
        exact ⟨x', halone, by simpa [Visit.ofWaiter, hended] using hx'⟩
      · have hempty : x.context.inbox.slot = none := by simp [slot, hnone]
        have hdue : w.isDue r.time = true := Inbox.Waiter.isDue_iff.2 hlate
        rcases Inbox.Waiter.gives_up sound hempty hdue with ⟨inbox, w', hsteps, hended⟩
        rcases alone_of_steps (g := g) (l := l) hsteps hended hunended running hp with
          ⟨x', halone, hx'⟩
        exact ⟨x', halone, by simpa [Visit.ofWaiter, hended, hsynthetic] using hx'⟩

/-- What is delivered while the slot is full is dropped, and otherwise it is stored. -/
theorem Execution.deliver_cases {disposition : Disposition}
    (hdeliver : x.deliver signal = .ok (x', disposition)) :
    (x.context.inbox.slot ≠ none → disposition = .dropped ∧ x' = x) ∧
      (x.context.inbox.slot = none →
        disposition = .accepted ∧ x'.context.inbox.slot = some signal) := by
  rcases deliver_eq hdeliver with ⟨rfl, rfl⟩
  constructor
  · intro hfull
    rcases Option.ne_none_iff_exists'.1 hfull with ⟨t, ht⟩
    have hdropped := Inbox.deliver_slot_some (s := signal) ht
    rw [hdropped]
    exact ⟨rfl, rfl⟩
  · intro hempty
    rcases Inbox.slot_deliver x.context.inbox signal with ⟨hslot, haccepted⟩
    refine ⟨haccepted.2 hempty, ?_⟩
    simpa [Execution.withInbox, hempty] using hslot

/-- A receipt tells whether the decision was stored. -/
theorem Service.receipt_of_submit {v v' : Service} {caseId decision : String} {receipt : Receipt}
    (h : v.submit caseId decision = .ok (v', receipt)) :
    ∃ i z, v.place? caseId = some i ∧ v.host.execution? i = some z ∧
      (z.context.inbox.slot ≠ none →
        receipt.status = "Signal Dropped" ∧ v'.host.executions = v.host.executions) ∧
      (z.context.inbox.slot = none → receipt.status = "Signal Sent") := by
  rcases Service.of_submit h with ⟨i, z, z', disposition, hplace, hz, hdeliver, rfl, rfl⟩
  rcases Execution.deliver_cases hdeliver with ⟨hdropped, haccepted⟩
  refine ⟨i, z, hplace, hz, ?_, ?_⟩
  · intro hfull
    rcases hdropped hfull with ⟨rfl, rfl⟩
    have hat : v.host.executions[i]? = some z' := hz
    rcases List.getElem?_eq_some_iff.1 hat with ⟨hi, hget⟩
    refine ⟨rfl, ?_⟩
    have hput : v.host.executions.set i z' = v.host.executions := by
      rw [← hget]
      exact List.set_getElem_self hi
    exact hput
  · intro hempty
    rcases haccepted hempty with ⟨rfl, -⟩
    rfl

end Invariant

/-- The signal that a live visit records and uses is the first that was delivered since the visit
emptied the inbox, or stands in for it when nothing was delivered in time; what other visits used
was delivered before.  What is delivered while the slot is full is dropped. -/
theorem signals_isolated (g : Engine) (caseId : String) (l₀ : Ledger) (x₀ : Execution)
    (held : List JournalEntry) (begins : Begins caseId l₀ x₀ held) (os : List Occurrence)
    (x : Execution) (l : Ledger) (run : Trace g caseId (x₀, l₀) os (x, l)) :
    (∀ r stepId signal, x.written? r = some (.signalConsumed stepId signal) →
      ∃ d n s before deadline since, s.stepId = stepId ∧
        x.phase = .visiting d n s .humanInTheLoop (.decided signal) ∧
        AskedSince g os d n s before deadline since ∧ Decides deadline since signal ∧
        (∀ os₁ u r₁ l₁ os₂ stepId₁ earlier, os = os₁ ++ .step u r₁ l₁ :: os₂ →
          u.written? r₁ = some (.signalConsumed stepId₁ earlier) →
            ∃ between, before = os₁ ++ .step u r₁ l₁ :: between) ∧
        ∀ g' b, x.advance g' r l = some b → x.accepted? r l ≠ none →
          b.1.context = Visit.applyDecision x.context signal ∧
            b.1.phase = .visiting d n s .humanInTheLoop (Visit.leave s signal.value)) ∧
    (∀ d n s e w r, x.status = .running → x.phase = .visiting d n s e (.awaiting w) →
      ∃ before since, AskedSince g os d n s before w.deadline since ∧
        ∀ signal, (firstDelivery? since).map Prod.fst = some signal ∨
            (firstDelivery? since = none ∧ (∃ t, w.deadline = some t ∧ t ≤ r.time) ∧
              signal = .timeout r.freshId r.now) →
          ∃ x', x.Alone g r l x' ∧ x'.phase = .visiting d n s e (.decided signal)) ∧
    (∀ signal x' disposition, x.deliver signal = .ok (x', disposition) →
      (x.context.inbox.slot ≠ none → disposition = .dropped ∧ x' = x) ∧
      (x.context.inbox.slot = none →
        disposition = .accepted ∧ x'.context.inbox.slot = some signal)) ∧
    (∀ v v' decision receipt, Service.submit v caseId decision = .ok (v', receipt) →
      ∃ i z, v.place? caseId = some i ∧ v.host.execution? i = some z ∧
        (z.context.inbox.slot ≠ none →
          receipt.status = "Signal Dropped" ∧ v'.host.executions = v.host.executions) ∧
        (z.context.inbox.slot = none → receipt.status = "Signal Sent")) ∧
    ∀ s config r c unasked asked, s.config ReviewConfig.decoder = .ok config →
      Visit.enterReviewAmid g.settings s config r c unasked asked =
        ((((Visit.enterReview g.settings s r c).1.receive (unasked ++ asked)).1,
            (Visit.enterReview g.settings s r c).2),
          ((Visit.enterReview g.settings s r c).1.receive (unasked ++ asked)).2) := by
  have hattended : Attended g os x := run.attended begins.attended
  -- The first two are read off the invariant, the others hold of any delivery.
  refine ⟨?_, ?_, ?_, ?_, ?_⟩
  · intro r stepId signal hwritten
    rcases hattended.recorded hwritten with
      ⟨d, n, s, before, deadline, since, hstepId, hp, asked, decides⟩
    refine ⟨d, n, s, before, deadline, since, hstepId, hp, asked, decides, ?_, ?_⟩
    · intro os₁ u r₁ l₁ os₂ stepId₁ earlier hos huse
      rcases Execution.decided_of_written huse with ⟨d₁, n₁, s₁, e₁, -, hu⟩
      exact asked.apart hos ⟨d₁, n₁, s₁, e₁, earlier, hu⟩
    · intro g' b hstep haccepted
      exact Execution.applied_of_accepted hp hstep haccepted
  · intro d n s e w r running hp
    exact hattended.resolves running hp l r
  · intro signal x' disposition hdeliver
    exact Execution.deliver_cases hdeliver
  · intro v v' decision receipt hsubmit
    exact Service.receipt_of_submit hsubmit
  · intro s config r c unasked asked hconfig
    exact Visit.enterReviewAmid_eq hconfig r c unasked asked

/-! ## An approval with three decisions -/

/-- A decision that comes too early, the one that counts, and one that comes too late. -/
theorem signals_isolated_approval :
    ∃ os x l d n s before deadline since, Trace (Engine.approving none) "case-1"
        (.fresh "case-1" "approval" "1" .null ⟨0, 0⟩, ⟨.empty, [], []⟩) os (x, l) ∧
      x.written? default =
        some (.signalConsumed "review" (.decision "approve" "s-2" ⟨2, 0⟩)) ∧
      os.filterMap (fun | .delivery t disposition => some (t.value, disposition) | _ => none) =
        [("refuse", .accepted), ("approve", .accepted), ("refuse", .dropped)] ∧
      AskedSince (Engine.approving none) os d n s before deadline since ∧
      Decides deadline since (.decision "approve" "s-2" ⟨2, 0⟩) := by
  have run : ∃ os x l, Trace (Engine.approving none) "case-1"
        (.fresh "case-1" "approval" "1" .null ⟨0, 0⟩, ⟨.empty, [], []⟩) os (x, l) ∧
      x.written? default =
        some (.signalConsumed "review" (.decision "approve" "s-2" ⟨2, 0⟩)) ∧
      os.filterMap (fun | .delivery t disposition => some (t.value, disposition) | _ => none) =
        [("refuse", .accepted), ("approve", .accepted), ("refuse", .dropped)] := by
    -- The first comes before the question.
    exact ⟨_, _, _, (Trace.refl.steps 7).next (.delivery (s := .decision "refuse" "s-1" ⟨1, 0⟩) rfl)
      |>.steps 2
      |>.next (.delivery (s := .decision "approve" "s-2" ⟨2, 0⟩) rfl)
      |>.next (.delivery (s := .decision "refuse" "s-3" ⟨3, 0⟩) rfl)
      |>.steps 1, rfl, rfl⟩
  rcases run with ⟨os, x, l, htrace, hwritten, hdeliveries⟩
  rcases (signals_isolated (Engine.approving none) "case-1" ⟨.empty, [], []⟩ _ []
    (.fresh "approval" "1" .null ⟨0, 0⟩ rfl) os x l htrace).1 default "review" _ hwritten with
    ⟨d, n, s, before, deadline, since, -, -, asked, decides, -, -⟩
  exact ⟨os, x, l, d, n, s, before, deadline, since, htrace, hwritten, hdeliveries, asked, decides⟩

end Casework
