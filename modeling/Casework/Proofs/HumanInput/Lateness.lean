import Casework.Proofs.HumanInput.Answers

/-!
# Lateness — answers that take their time

An answer goes to the execution and not to the question that it was found for.  While it is thought
about the visit may end, by its deadline or by somebody else, so the answer decides the visit that
waits when it is delivered, or none; and an execution that is finished by then takes no more
answers.

* `Scene.Asked` : when the visit that an execution is in asked;
* `Scene.Found` : how an answer was found;
* `answers_reach_who_waits` : which visit an answer decides, and how attending ends;
* `late_answer_misdirected` : an answer that comes too late.
-/

namespace Casework
namespace Scene

variable {σ : Type} {g : Engine} {handler : Handler σ} {c c' c₁ c₂ : Scene σ}
variable {es es' : List Event} {e : Event}

/-! ## What happens to the execution -/

def Event.occurrence? : Event → Option Occurrence
  | .around o => some o
  | .tell signal disposition => some (.delivery signal disposition)
  | _ => none

def occurrences (es : List Event) : List Occurrence :=
  es.filterMap Event.occurrence?

def Event.asks (settings : EngineSettings) : Event → Bool
  | .around (.step x _ _) => (x.request? settings).isSome
  | _ => false

def Event.isAround : Event → Bool
  | .around _ => true
  | _ => false

@[simp] theorem occurrences_append (es es' : List Event) :
    occurrences (es ++ es') = occurrences es ++ occurrences es' :=
  List.filterMap_append

/-- Occurrences are added in the order of the events. -/
theorem occurrences_concat (es : List Event) (e : Event) :
    occurrences (es ++ [e]) = occurrences es ++ e.occurrence?.toList := by
  cases h : e.occurrence? <;> simp [occurrences, h]

/-- A run up to a point and the run from there. -/
theorem Unfolds.split (h : Unfolds g handler c (es ++ es') c') :
    ∃ c₁, Unfolds g handler c es c₁ ∧ Unfolds g handler c₁ es' c' := by
  generalize hall : es ++ es' = all at h
  induction h generalizing es' with
  | refl =>
      rcases List.append_eq_nil_iff.1 hall with ⟨rfl, rfl⟩
      exact ⟨c, .refl, .refl⟩
  | @next all e c₁ c₂ before hshift ih =>
      rcases List.eq_nil_or_concat es' with rfl | ⟨es₁, e₁, rfl⟩
      · refine ⟨c₂, ?_, .refl⟩
        rw [List.append_nil] at hall
        rw [hall]
        exact before.next hshift
      · rw [List.concat_eq_append, ← List.append_assoc] at hall
        rcases List.append_inj' hall rfl with ⟨hbefore, hlast⟩
        cases hlast
        rcases ih hbefore with ⟨c', hfirst, hsecond⟩
        refine ⟨c', hfirst, ?_⟩
        rw [List.concat_eq_append]
        exact hsecond.next hshift

theorem Unfolds.cons_inv (h : Unfolds g handler c (e :: es) c') :
    ∃ c₁, Shifts g handler c e c₁ ∧ Unfolds g handler c₁ es c' := by
  have happend : Unfolds g handler c ([e] ++ es) c' := h
  rcases happend.split with ⟨c₁, hfirst, hrest⟩
  refine ⟨c₁, ?_, hrest⟩
  generalize hsingle : [e] = one at hfirst
  cases hfirst with
  | refl => cases hsingle
  | @next es e' c₂ _ before hshift =>
      rcases List.append_eq_singleton_iff.1 hsingle.symm with ⟨rfl, hlast⟩ | ⟨-, hnil⟩
      · cases hlast
        generalize hnone : ([] : List Event) = none at before
        cases before with
        | refl => exact hshift
        | next _ _ => simp at hnone
      · cases hnil

open Execution

/-- The inbox of an execution has to do with what has happened. -/
theorem Shifts.attended (hshift : Shifts g handler c e c')
    (h : Attended g (occurrences es) c.execution) :
    Attended g (occurrences (es ++ [e])) c'.execution := by
  rw [occurrences_concat]
  cases hshift with
  | step alike hstep => exact h.advance alike hstep
  | delivery hdeliver => exact h.deliver hdeliver
  | tell _ taken => exact h.deliver taken
  | stop x l a =>
      have hstop : Occurs g x.caseId (x, l) .stop (x.cancel, l) := .stop x l
      exact h.occurs hstop
  | elsewhere x l l' a => exact h.of_same rfl rfl (by simp) rfl
  | look _ => simpa [Event.occurrence?] using h
  | leave _ => simpa [Event.occurrence?] using h
  | baffled _ => simpa [Event.occurrence?] using h
  | refused _ _ => simpa [Event.occurrence?] using h

/-- Whatever unfolds attends the execution. -/
theorem Unfolds.attended (run : Unfolds g handler c es c') (h : Attended g [] c.execution) :
    Attended g (occurrences es) c'.execution := by
  induction run with
  | refl => exact h
  | next before hshift ih => exact hshift.attended ih

/-- The execution takes a step, or is left where it is. -/
theorem Shifts.step_or_same (hshift : Shifts g handler c e c') :
    (∃ g' r b, e = .around (.step c.execution r c.ledger) ∧ g.Alike g' ∧
        c.execution.advance g' r c.ledger = some b ∧ c'.execution = b.1) ∨
      (c'.execution.phase = c.execution.phase ∧ c'.execution.caseId = c.execution.caseId) := by
  cases hshift with
  | @step g' r x l b a alike hstep => exact .inl ⟨g', r, b, rfl, alike, hstep, rfl⟩
  | delivery hdeliver =>
      rcases of_deliver hdeliver with ⟨-, inbox, rfl⟩
      exact .inr ⟨rfl, rfl⟩
  | tell _ taken =>
      rcases of_deliver taken with ⟨-, inbox, rfl⟩
      exact .inr ⟨rfl, rfl⟩
  | stop x l a =>
      exact .inr ⟨phase_cancel x, congrArg (·.caseId) (context_cancel x)⟩
  | _ => exact .inr ⟨rfl, rfl⟩

/-! ## When a visit asked -/

/-- The visit that an execution is in asked when this happened, and has only waited since. -/
structure Asked (g : Engine) (es : List Event) (d : Definition) (n : Nat) (s : StepDefinition)
    (i : Interaction) (deadline : Option Nat) (front : List Event) (asking : Event)
    (back : List Event) : Prop where
  split : es = front ++ asking :: back
  asks : ∃ y r l config, asking = .around (.step y r l) ∧
    y.phase = .visiting d n s .humanInTheLoop .entering ∧ y.pending = [] ∧
    s.config ReviewConfig.decoder = .ok config ∧
    i = Visit.interactionOf s config g.settings y.caseId ∧
    deadline = Visit.deadlineOf config g.settings r.time
  waits : ∀ z r l, .around (.step z r l) ∈ back →
    ∃ w, z.phase = .visiting d n s .humanInTheLoop (.awaiting w)

section Visit

variable {d : Definition} {n : Nat} {s : StepDefinition} {i : Interaction} {deadline : Option Nat}
variable {before since : List Occurrence} {front back : List Event} {asking : Event}

/-- A visit that was asked for was asked for by an event, after which the rest came. -/
theorem asked_of_askedSince (h : AskedSince g (occurrences es) d n s before deadline since) :
    ∃ i front asking back, Asked g es d n s i deadline front asking back ∧
      occurrences back = since := by
  rcases h with ⟨⟨y, r, l, config, hos, hp, readable, live, -, hdeadline⟩, hwaits⟩
  rcases List.filterMap_eq_append_iff.1 hos with ⟨first, rest, rfl, -, hrest⟩
  rcases List.filterMap_eq_cons_iff.1 hrest with ⟨quiet, asking, back, rfl, -, hasking, hback⟩
  have hevent : asking = .around (.step y r l) := by
    cases asking with
    | around o => exact congrArg Event.around (Option.some.inj hasking)
    | look => cases hasking
    | tell _ _ => cases hasking
    | leave => cases hasking
  refine ⟨Visit.interactionOf s config g.settings y.caseId, first ++ quiet, asking, back,
    ⟨by simp, ?_, ?_⟩, hback⟩
  · exact ⟨y, r, l, config, hevent, hp, live, readable, rfl, hdeadline⟩
  · intro z r' l' hmem
    have hstep : Occurrence.step z r' l' ∈ since := by
      rw [← hback]
      exact List.mem_filterMap.2 ⟨_, hmem, rfl⟩
    exact hwaits z r' l' hstep

/-- It asked, and no other visit has asked since. -/
theorem Asked.only (h : Asked g es d n s i deadline front asking back) :
    asking.asks g.settings = true ∧ ∀ e ∈ back, e.asks g.settings = false := by
  constructor
  · rcases h.asks with ⟨y, r, l, config, rfl, hp, live, readable, -⟩
    simp [Event.asks, request?_of_asking hp readable live]
  · intro e he
    cases e with
    | around o =>
        cases o with
        | step z r l =>
            rcases h.waits z r l he with ⟨w, hp⟩
            have reviewing : z.phase.isReviewing = true := by
              simp [hp, Phase.isReviewing]
            simp [Event.asks, Minuted.request?_of_reviewing reviewing]
        | _ => rfl
    | _ => rfl

/-- While only its wait takes steps an execution stays in its visit. -/
theorem asking_of_waits {v : Visit} (run : Unfolds g handler c es c')
    (hp : c.execution.phase = .visiting d n s .humanInTheLoop v) (asking : v.isAsking = true)
    (waits : ∀ z r l, .around (.step z r l) ∈ es →
      ∃ w, z.phase = .visiting d n s .humanInTheLoop (.awaiting w)) :
    c'.execution.caseId = c.execution.caseId ∧
      ∃ v, c'.execution.phase = .visiting d n s .humanInTheLoop v ∧ v.isAsking = true := by
  induction run with
  | refl => exact ⟨rfl, v, hp, asking⟩
  | @next es e c₁ c₂ before hshift ih =>
      rcases ih fun z r l hmem => waits z r l (List.mem_append_left _ hmem) with
        ⟨hcase, v', hp', hasking⟩
      -- Only a step changes the phase, and the only steps are those of the wait.
      rcases hshift.step_or_same with ⟨g', r, b, rfl, -, hstep, hb⟩ | ⟨hphase, hcase'⟩
      · rcases waits c₁.execution r c₁.ledger (by simp) with ⟨w, hwaiting⟩
        have hcase' := caseId_of_advance hstep
        rw [advance_of_awaiting (running_of_advance hstep) hwaiting] at hstep
        rcases Option.map_eq_some_iff.1 hstep with ⟨out, -, rfl⟩
        rw [hb]
        refine ⟨hcase'.trans hcase, _, rfl, ?_⟩
        rcases Visit.ofWaiter_cases r out.2 with ⟨signal, hv⟩ | ⟨w', hv⟩
        · rw [hv]
          rfl
        · rw [hv]
          rfl
      · exact ⟨hcase'.trans hcase, v', hphase.trans hp', hasking⟩

/-- What is seen while the execution is in its visit is the question of this visit. -/
theorem Asked.seen {x₀ : Execution} {l₀ : Ledger} {a₀ : Attendant σ} {k : Case} {i' : Interaction}
    (h : Asked g es d n s i deadline front asking back) (starts : x₀.Starts)
    (run : Unfolds g handler ⟨x₀, l₀, a₀⟩ (front ++ asking :: es') c) (early : es' ⊆ back)
    (published : c.execution.published = some k) (interaction : k.interaction = some i') :
    i' = i := by
  rcases h.asks with ⟨y, r, l, config, rfl, hp, live, readable, rfl, -⟩
  rcases run.split with ⟨c₁, hbefore, hrest⟩
  rcases hrest.cons_inv with ⟨c₂, hshift, hafter⟩
  -- Right after the question the execution waits, and then only the wait takes steps.
  have hasked : c₂.execution.caseId = y.caseId ∧
      ∃ v, c₂.execution.phase = .visiting d n s .humanInTheLoop v ∧ v.isAsking = true := by
    cases hshift with
    | step alike hstep =>
        have hcase := caseId_of_advance hstep
        rw [advance_of_entering (running_of_advance hstep) hp, Visit.enter_review,
          Visit.enterReview_of_live readable live] at hstep
        cases hstep
        exact ⟨hcase, _, rfl, rfl⟩
  rcases hasked with ⟨hcase₂, v, hp₂, hasking⟩
  rcases asking_of_waits hafter hp₂ hasking fun z r l hmem => h.waits z r l (early hmem) with
    ⟨hcase, v', hp', hasking'⟩
  rcases (displays_of_reaches starts run.reaches).asks_of_asking hp' hasking' with
    ⟨config', readable', hasks⟩
  cases readable.symm.trans readable'
  have hshown := (hasks k published).interaction
  rw [interaction, hcase, hcase₂] at hshown
  exact Option.some.inj hshown

end Visit

/-! ## How an answer was found -/

/-- After all this an answer is delivered: an interaction was seen, and thought about since. -/
structure Found (handler : Handler σ) (es : List Event) (value : String) (i : Interaction)
    (before meanwhile : List Event) : Prop where
  split : es = before ++ .look :: meanwhile
  around : ∀ e ∈ meanwhile, e.isAround = true
  answer : ∃ caseId s response s', handler.answer (.ofInteraction caseId i) s = (.ok response, s') ∧
    response.value = value

/-- Whoever thinks about an interaction has seen it. -/
theorem Unfolds.looked {k : Case} {i : Interaction} {s : σ} (run : Unfolds g handler c es c')
    (unseen : ∀ k i s, c.attendant ≠ .thinking k i s) (thinks : c'.attendant = .thinking k i s) :
    ∃ before meanwhile c₁ n, es = before ++ .look :: meanwhile ∧
      (∀ e ∈ meanwhile, e.isAround = true) ∧ Unfolds g handler c before c₁ ∧
      c₁.execution.unanswered? n = some (k, i) := by
  induction run with
  | refl => exact absurd thinks (unseen k i s)
  | @next es e c₁ c₂ before hshift ih =>
      -- What happens around the attendant leaves it thinking about what it has seen.
      have hlater : e.isAround = true → c₁.attendant = .thinking k i s →
          ∃ first meanwhile c₀ n, es ++ [e] = first ++ .look :: meanwhile ∧
            (∀ e ∈ meanwhile, e.isAround = true) ∧ Unfolds g handler c first c₀ ∧
            c₀.execution.unanswered? n = some (k, i) := by
        intro haround hthinks
        rcases ih hthinks with ⟨first, meanwhile, c₀, n, rfl, hmeanwhile, hfirst, hseen⟩
        refine ⟨first, meanwhile ++ [e], c₀, n, by simp, ?_, hfirst, hseen⟩
        intro e' he'
        rcases List.mem_append.1 he' with hold | hnew
        · exact hmeanwhile e' hold
        · rw [List.mem_singleton.1 hnew]
          exact haround
      cases hshift with
      | step _ _ => exact hlater rfl thinks
      | delivery _ => exact hlater rfl thinks
      | stop _ _ _ => exact hlater rfl thinks
      | elsewhere _ _ _ _ => exact hlater rfl thinks
      | look hseen =>
          cases thinks
          exact ⟨es, [], _, _, rfl, by simp, before, hseen⟩
      | leave _ => cases thinks
      | baffled _ => cases thinks
      | tell _ _ => cases thinks
      | refused _ _ => cases thinks

section Answer

variable {d : Definition} {n : Nat} {s : StepDefinition} {i : Interaction} {deadline : Option Nat}
variable {front back : List Event} {asking : Event}
variable {x₀ : Execution} {l₀ : Ledger} {n₀ : Nat} {s₀ : σ}

/-- The interaction that an answer was found for is seen while the visit waits that it decides, or
this visit asks while the answer is thought about. -/
theorem Asked.found {first last : List Event} {signal : Signal} {disposition : Disposition}
    (h : Asked g es d n s i deadline front asking back) (starts : x₀.Starts)
    (run : Unfolds g handler ⟨x₀, l₀, .looking n₀ s₀⟩ es c)
    (told : back = first ++ .tell signal disposition :: last) :
    ∃ i' before meanwhile,
      Found handler (front ++ asking :: first) signal.value i' before meanwhile ∧
      ((front.length < before.length ∧ i' = i) ∨ asking ∈ meanwhile) := by
  have hes : es = (front ++ asking :: first) ++ .tell signal disposition :: last := by
    rw [h.split, told]
    simp
  rw [hes] at run
  rcases run.split with ⟨c₁, hbefore, hrest⟩
  rcases hrest.cons_inv with ⟨c₂, hshift, -⟩
  cases hshift with
  | @tell x x' l k i' s₁ s₂ response id t _ hanswer taken =>
      rcases hbefore.looked (by simp) rfl with
        ⟨before, meanwhile, c₀, n', hsplit, haround, hlook, hseen⟩
      refine ⟨i', before, meanwhile,
        ⟨hsplit, haround, k.caseId, s₁, response, s₂, hanswer, rfl⟩, ?_⟩
      rcases h.asks with ⟨y, r, l', config, hasking, -⟩
      rcases List.append_eq_append_iff.1 hsplit with ⟨mid, hmid, htail⟩ | ⟨mid, hmid, htail⟩
      · cases mid with
        | nil =>
            have hclash : asking = .look := (List.cons.inj htail).1
            rw [hasking] at hclash
            cases hclash
        | cons e mid =>
            left
            obtain ⟨rfl, hfirst⟩ := List.cons.inj htail
            rw [hmid] at hlook
            refine ⟨by simp [hmid], ?_⟩
            have hearly : mid ⊆ back := by
              intro e he
              rw [told, hfirst]
              simp [he]
            rcases Minuted.of_unanswered? hseen with ⟨hpublished, hinteraction, -⟩
            exact h.seen starts hlook hearly hpublished hinteraction
      · right
        cases mid with
        | nil =>
            have hclash : asking = .look := (List.cons.inj htail).1.symm
            rw [hasking] at hclash
            cases hclash
        | cons e mid =>
            obtain ⟨-, hmeanwhile⟩ := List.cons.inj htail
            simp [hmeanwhile]

end Answer

/-! ## An execution that is finished -/

/-- Whoever thinks about an answer when the execution is finished ends with an error: its own, or
that of the delivery. -/
theorem Unfolds.late {k : Case} {i : Interaction} {s : σ} (run : Unfolds g handler c es c')
    (thinks : c.attendant = .thinking k i s) (finished : c.execution.isFinished = true) :
    c'.execution = c.execution ∧
      (c'.attendant = .thinking k i s ∨
        ∃ s' fault, c'.attendant = .done s' (.failed fault) ∧
          ((handler.answer (.ofInteraction k.caseId i) s).1 = .error fault ∨
            fault = .notRunning
              (c.execution.caseId ++ " (" ++ c.execution.status.text ++ ")"))) := by
  -- By the last shift: a finished execution does nothing more, so only the attendant can move.
  induction run with
  | refl => exact ⟨rfl, .inl thinks⟩
  | @next es e c₁ c₂ before hshift ih =>
      rcases ih with ⟨hsame, hends⟩
      have hfinished : c₁.execution.isFinished = true := by
        rw [hsame]
        exact finished
      cases hshift with
      | step _ hstep => simp [running_iff.2 (running_of_advance hstep)] at hfinished
      | delivery hdeliver => simp [(of_deliver hdeliver).1] at hfinished
      | tell _ taken => simp [(of_deliver taken).1] at hfinished
      | stop x l a =>
          have hstopped : x.cancel = x := cancel_of_finished hfinished
          exact ⟨hstopped.trans hsame, hends⟩
      | elsewhere x l l' a => exact ⟨hsame, hends⟩
      | look _ => rcases hends with hclash | ⟨_, _, hclash, -⟩ <;> cases hclash
      | leave _ => rcases hends with hclash | ⟨_, _, hclash, -⟩ <;> cases hclash
      | baffled hanswer =>
          rcases hends with hthinks | ⟨_, _, hclash, -⟩
          · cases hthinks
            exact ⟨hsame, .inr ⟨_, _, rfl, .inl (by rw [hanswer])⟩⟩
          · cases hclash
      | @refused x l k' i' s₁ s₂ response id t fault hanswer refusal =>
          rcases hends with hthinks | ⟨_, _, hclash, -⟩
          · cases hthinks
            have hfinished' : x.isFinished = true := hfinished
            simp only [Execution.deliver, hfinished', if_true, Except.error.injEq] at refusal
            refine ⟨hsame, .inr ⟨_, _, rfl, .inr ?_⟩⟩
            rw [← refusal, ← hsame]
          · cases hclash

/-- The status that is returned is the one that the execution keeps. -/
theorem Unfolds.final {s : σ} {status : ExecutionStatus} (run : Unfolds g handler c es c')
    (undone : ∀ s outcome, c.attendant ≠ .done s outcome)
    (done : c'.attendant = .done s (.finished status)) :
    c'.execution.isFinished = true ∧ c'.execution.status = status := by
  induction run with
  | refl => exact absurd done (undone _ _)
  | @next es e c₁ c₂ before hshift ih =>
      cases hshift with
      | step _ hstep =>
          have hfinished := (ih done).1
          simp [running_iff.2 (running_of_advance hstep)] at hfinished
      | delivery hdeliver =>
          have hfinished := (ih done).1
          simp [(of_deliver hdeliver).1] at hfinished
      | stop x l a =>
          have hstopped : x.cancel = x := cancel_of_finished (ih done).1
          rw [show (⟨x.cancel, l, a⟩ : Scene σ).execution = x from hstopped]
          exact ih done
      | elsewhere x l l' a => exact ih done
      | look _ => cases done
      | leave finished =>
          cases done
          exact ⟨finished, rfl⟩
      | baffled _ => cases done
      | tell _ _ => cases done
      | refused _ _ => cases done

end Scene

open Scene

/-- A visit is decided by what is delivered first after it asked.  If that is an answer, it was
found for the question of this visit, or the visit asked while it was thought about.  Whoever thinks
about an answer when the execution is finished gets no status, and every status that is returned is
final. -/
theorem answers_reach_who_waits {σ : Type} (g : Engine) (handler : Handler σ) (x₀ : Execution)
    (l₀ : Ledger) (n₀ : Nat) (s₀ : σ) (starts : x₀.Starts) :
    (∀ es c, Unfolds g handler ⟨x₀, l₀, .looking n₀ s₀⟩ es c →
      (∀ d n s e signal, c.execution.phase = .visiting d n s e (.decided signal) →
        ∃ i deadline front asking back, Asked g es d n s i deadline front asking back ∧
          Decides deadline (occurrences back) signal ∧
          (asking.asks g.settings = true ∧ ∀ e ∈ back, e.asks g.settings = false) ∧
          ∀ first last, back = first ++ .tell signal .accepted :: last →
            ∃ i' before meanwhile,
              Found handler (front ++ asking :: first) signal.value i' before meanwhile ∧
              ((front.length < before.length ∧ i' = i) ∨ asking ∈ meanwhile)) ∧
      (∀ k i s, c.attendant = .thinking k i s → c.execution.isFinished = true →
        ∀ es' c', Unfolds g handler c es' c' → c'.attendant = .thinking k i s ∨
          ∃ s' fault, c'.attendant = .done s' (.failed fault) ∧
            ((handler.answer (.ofInteraction k.caseId i) s).1 = .error fault ∨
              fault = .notRunning
                (c.execution.caseId ++ " (" ++ c.execution.status.text ++ ")"))) ∧
      ∀ s status, c.attendant = .done s (.finished status) →
        c.execution.isFinished = true ∧ c.execution.status = status) ∧
    ∀ h limit i x s, h.engine = g → h.execution? i = some x →
      Host.Comes h i handler x (.looking 0 s) (h.attend limit i handler s) := by
  constructor
  · intro es c run
    refine ⟨?_, ?_, ?_⟩
    · intro d n s e signal hp
      have hfresh : Attended g [] x₀ := by
        rcases starts.launching with ⟨caseId, launch, entries, rfl⟩
        refine .away ?_ ⟨rfl, rfl⟩
        unfold Execution.launching
        cases launch.isFresh <;> rfl
      -- What decided the visit is known from the isolation of signals; what is left is who told it.
      cases run.attended hfresh with
      | away quiet _ => simp [hp, Phase.isReviewing] at quiet
      | waiting hp' _ _ _ _ => simp [hp] at hp'
      | decided hp' asked decides _ =>
          cases hp.symm.trans hp'
          rcases asked_of_askedSince asked with ⟨i, front, asking, back, hasked, hback⟩
          refine ⟨i, _, front, asking, back, hasked, by rw [hback]; exact decides, hasked.only, ?_⟩
          intro first last htold
          exact hasked.found starts run htold
    · intro k i s thinks finished es' c' after
      exact (after.late thinks finished).2
    · intro s status done
      exact run.final (by simp) done
  · intro h limit i x s _ hx
    exact Host.comes_attendFrom limit 0 s h hx

/-! ## Two reviews, the first with a deadline -/

/-- A review that is passed on to another when it takes too long. -/
def Definition.relay : Definition where
  name := "relay"
  version := "1"
  initialStep := "first"
  steps := [
    { stepId := "first", stepType := StepType.humanInTheLoop
      configuration := [("prompt", .str "Approve?"), ("timeout_seconds", .int 1)]
      transitions := [.on "timeout" "second", .defaultTo "approved"] },
    { stepId := "second", stepType := StepType.humanInTheLoop
      configuration := [("prompt", .str "Approve, in the end?")]
      transitions := [.defaultTo "approved"] },
    { stepId := "approved", stepType := StepType.finalCommit
      configuration := [("final_status", .str "Approved")] }]

def Host.relaying : Host :=
  ((Host.new ⟨.memory [.relay], .builtin, {}⟩ .empty default).start "case-1" "relay" "1" .null).1

/-- Answers in the order in which they are listed, after some seconds. -/
def Handler.slow (seconds : Nat) : Handler (List String) :=
  { Handler.scripted with pace := fun _ _ => seconds }

/-- An answer that comes too late for the first review decides the second one. -/
theorem answers_reach_who_waits_relay :
    ∃ x es c d n s e i deadline front asking back signal,
      x.Starts ∧
      Unfolds Host.relaying.engine (.slow 2) ⟨x, Host.relaying.ledger, .looking 0 ["approve"]⟩ es
        c ∧
      c.execution.phase = .visiting d n s e (.decided signal) ∧ s.stepId = "second" ∧
      Asked Host.relaying.engine es d n s i deadline front asking back ∧
      Decides deadline (occurrences back) signal := by
  have starts : (Execution.fresh "case-1" "relay" "1" .null default).Starts := .fresh _ _ _ _ _
  obtain ⟨es, c, run, d, n, s, e, hp, hsecond⟩ :
      ∃ es c, Unfolds Host.relaying.engine (.slow 2) ⟨.fresh "case-1" "relay" "1" .null default,
          Host.relaying.ledger, .looking 0 ["approve"]⟩ es c ∧
        ∃ d n s e, c.execution.phase = .visiting d n s e
          (.decided (.decision "approve" "s-1" default)) ∧ s.stepId = "second" := by
    refine ⟨_, _, Unfolds.refl.steps 5 |>.next (.look rfl)
      |>.next (.step (r := { (default : Readings) with time := 1 }) (.refl _) rfl) |>.steps 5
      |>.next (.tell (u := "s-1") (t := default) rfl rfl) |>.steps 2, ?_⟩
    exact ⟨_, _, _, _, rfl, rfl⟩
  rcases ((answers_reach_who_waits _ _ _ _ _ _ starts).1 es c run).1 d n s e _ hp with
    ⟨i, deadline, front, asking, back, asked, decides, -⟩
  exact ⟨_, es, c, d, n, s, e, i, deadline, front, asking, back, _, starts, run, hp, hsecond,
    asked, decides⟩

/-- The first review is seen, and has timed out when its answer is delivered: the answer decides the
second one.  Who attends is then asked for another answer, and learns of no status. -/
theorem late_answer_misdirected :
    (∃ x es₁ es₂ es₃ c₁ c₂ c₃ k i s,
      x.Starts ∧ Host.relaying.execution? 0 = some x ∧
      Unfolds Host.relaying.engine (.slow 2) ⟨x, Host.relaying.ledger, .looking 0 ["approve"]⟩ es₁
        c₁ ∧
      c₁.attendant = .thinking k i s ∧ i.id = "first_case-1" ∧
      Unfolds Host.relaying.engine (.slow 2) c₁ es₂ c₂ ∧ c₂.attendant = .thinking k i s ∧
      es₂.any (Scene.Event.asks Host.relaying.engine.settings) = true ∧
      Unfolds Host.relaying.engine (.slow 2) c₂ es₃ c₃ ∧
      es₃.head? = some (.tell (.decision "approve" "s-1" default) .accepted) ∧
      ∃ d n t e,
        c₃.execution.phase = .visiting d n t e (.decided (.decision "approve" "s-1" default)) ∧
        t.stepId = "second") ∧
    ((Host.relaying.attend 10 0 (.slow 2) ["approve"]).1.ledger.journal.load "case-1").toOption =
      some [.started "case-1" "relay" "1" .null default,
        .signalConsumed "first" (.decision "timeout" "" default),
        .signalConsumed "second" (.decision "approve" "" default), .completed "Approved" default] ∧
    ((Host.relaying.attend 10 0 (.slow 2) ["approve"]).1.execution? 0).map (·.status) =
      some .completed ∧
    (Host.relaying.attend 10 0 (.slow 2) ["approve"]).2.2 =
      .failed (.io (.other "no scripted answer left for second_case-1")) ∧
    (Host.relaying.attend 10 0 (.slow 2) ["approve", "reject"]).2.2 =
      .failed (.notRunning "case-1 (completed)") := by
  refine ⟨?_, by decide +kernel, by decide +kernel, by decide +kernel, by decide +kernel⟩
  refine ⟨_, _, _, _, _, _, _, _, _, _, .fresh "case-1" "relay" "1" .null default, rfl,
    Unfolds.refl.steps 5 |>.next (.look rfl), rfl, rfl,
    -- A second has passed, and so has the deadline of the first review.
    (Unfolds.single (.step (r := { (default : Readings) with time := 1 }) (.refl _) rfl)).steps 5,
    rfl, rfl, (Unfolds.single (.tell (u := "s-1") (t := default) rfl rfl)).steps 2, rfl, ?_⟩
  exact ⟨_, _, _, _, rfl, rfl⟩

end Casework
