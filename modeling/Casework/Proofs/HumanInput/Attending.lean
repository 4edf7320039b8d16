import Casework.HumanInput.Attend
import Casework.Proofs.Service.Registry

/-!
# Attending — an execution and somebody who answers its interactions

Whoever attends to an execution looks for an interaction, thinks about an answer, and delivers it.
The execution does not stand still meanwhile, and others may deliver signals to it or stop it.  The
two take turns, and nobody looks in the midst of an atomic step.

* `Attendant`, `Scene` : where the one stands, and both;
* `Scene.Event`, `Scene.Shifts`, `Scene.Unfolds` : what may happen next, and in any order;
* `Host.unfolds_runUntil`, `Host.stuck_of_runUntil` : a host that lets executions run;
* `Host.comes_attendFrom` : attending to one of the executions of a host is one of these ways.
-/

namespace Casework

/-- Where somebody who attends to an execution stands. -/
inductive Attendant (σ : Type) where
  /-- Looks for an interaction, there being so many activities at the last answer. -/
  | looking (answered : Nat) (s : σ)
  /-- Has seen an interaction, and thinks about the answer. -/
  | thinking (k : Case) (i : Interaction) (s : σ)
  | done (s : σ) (outcome : Attendance)

/-- An execution and somebody who attends to it. -/
structure Scene (σ : Type) where
  execution : Execution
  ledger : Ledger
  attendant : Attendant σ

namespace Scene

inductive Event where
  /-- It happens without the attendant. -/
  | around (o : Occurrence)
  /-- The attendant sees an interaction. -/
  | look
  /-- The attendant delivers an answer. -/
  | tell (signal : Signal) (disposition : Disposition)
  /-- The attendant is done. -/
  | leave

/-- Whether somebody else delivers a signal or stops the execution. -/
def Event.isForeign : Event → Bool
  | .around (.delivery _ _) | .around .stop => true
  | _ => false

/-- Whether it happens without the attendant and without others. -/
def Event.isOwn : Event → Bool
  | .around (.step _ _ _) | .around .elsewhere => true
  | _ => false

variable {σ : Type}

/-- One thing happens.  Each step is taken in a world of its own. -/
inductive Shifts (g : Engine) (handler : Handler σ) : Scene σ → Event → Scene σ → Prop
  | step {g' : Engine} {r : Readings} {x : Execution} {l : Ledger} {b : Execution × Ledger}
      {a : Attendant σ} (alike : g.Alike g') (h : x.advance g' r l = some b) :
      Shifts g handler ⟨x, l, a⟩ (.around (.step x r l)) ⟨b.1, b.2, a⟩
  | delivery {x x' : Execution} {l : Ledger} {a : Attendant σ} {signal : Signal}
      {disposition : Disposition} (h : x.deliver signal = .ok (x', disposition)) :
      Shifts g handler ⟨x, l, a⟩ (.around (.delivery signal disposition)) ⟨x', l, a⟩
  | stop (x : Execution) (l : Ledger) (a : Attendant σ) :
      Shifts g handler ⟨x, l, a⟩ (.around .stop) ⟨x.cancel, l, a⟩
  | elsewhere (x : Execution) (l l' : Ledger) (a : Attendant σ) :
      Shifts g handler ⟨x, l, a⟩ (.around .elsewhere) ⟨x, l', a⟩
  | look {x : Execution} {l : Ledger} {n : Nat} {s : σ} {k : Case} {i : Interaction}
      (h : x.unanswered? n = some (k, i)) :
      Shifts g handler ⟨x, l, .looking n s⟩ .look ⟨x, l, .thinking k i s⟩
  | leave {x : Execution} {l : Ledger} {n : Nat} {s : σ} (finished : x.isFinished = true) :
      Shifts g handler ⟨x, l, .looking n s⟩ .leave ⟨x, l, .done s (.finished x.status)⟩
  | baffled {x : Execution} {l : Ledger} {k : Case} {i : Interaction} {s s' : σ} {e : Error}
      (h : handler.answer (.ofInteraction k.caseId i) s = (.error e, s')) :
      Shifts g handler ⟨x, l, .thinking k i s⟩ .leave ⟨x, l, .done s' (.failed e)⟩
  | tell {x x' : Execution} {l : Ledger} {k : Case} {i : Interaction} {s s' : σ}
      {response : Response} {u : String} {t : Instant} {disposition : Disposition}
      (h : handler.answer (.ofInteraction k.caseId i) s = (.ok response, s'))
      (taken : x.deliver (.decision response.value u t) = .ok (x', disposition)) :
      Shifts g handler ⟨x, l, .thinking k i s⟩ (.tell (.decision response.value u t) disposition)
        ⟨x', l.report (Execution.deliveryMetric x'.caseId disposition),
          .looking k.activityCount s'⟩
  | refused {x : Execution} {l : Ledger} {k : Case} {i : Interaction} {s s' : σ}
      {response : Response} {u : String} {t : Instant} {e : Error}
      (h : handler.answer (.ofInteraction k.caseId i) s = (.ok response, s'))
      (refusal : x.deliver (.decision response.value u t) = .error e) :
      Shifts g handler ⟨x, l, .thinking k i s⟩ .leave ⟨x, l, .done s' (.failed e)⟩

inductive Unfolds (g : Engine) (handler : Handler σ) (c : Scene σ) :
    List Event → Scene σ → Prop
  | refl : Unfolds g handler c [] c
  | next {es : List Event} {e : Event} {c₁ c₂ : Scene σ} (before : Unfolds g handler c es c₁)
      (h : Shifts g handler c₁ e c₂) : Unfolds g handler c (es ++ [e]) c₂

variable {g : Engine} {handler : Handler σ} {c c' c₁ c₂ : Scene σ} {es es' : List Event}

theorem Unfolds.single {e : Event} (h : Shifts g handler c e c₁) : Unfolds g handler c [e] c₁ :=
  Unfolds.refl.next h

theorem Unfolds.trans (h : Unfolds g handler c es c₁) (h' : Unfolds g handler c₁ es' c₂) :
    Unfolds g handler c (es ++ es') c₂ := by
  induction h' with
  | refl => simpa using h
  | next before hshift ih =>
      rw [← List.append_assoc]
      exact ih.next hshift

/-- The execution goes on by itself, and nothing else happens to it. -/
def Goes (g : Engine) (handler : Handler σ) (c c' : Scene σ) : Prop :=
  ∃ es, Unfolds g handler c es c' ∧ ∀ e ∈ es, e.isOwn = true

theorem Goes.refl (c : Scene σ) : Goes g handler c c :=
  ⟨[], .refl, by simp⟩

theorem Goes.trans (h : Goes g handler c c₁) (h' : Goes g handler c₁ c₂) : Goes g handler c c₂ := by
  rcases h with ⟨es, hes, hown⟩
  rcases h' with ⟨es', hes', hown'⟩
  refine ⟨es ++ es', hes.trans hes', ?_⟩
  intro e he
  rcases List.mem_append.1 he with hfirst | hsecond
  · exact hown e hfirst
  · exact hown' e hsecond

/-- Others may write to the ledger at any time. -/
theorem goes_elsewhere (x : Execution) (l l' : Ledger) (a : Attendant σ) :
    Goes g handler ⟨x, l, a⟩ ⟨x, l', a⟩ :=
  ⟨_, .single (.elsewhere x l l' a), by simp [Event.isOwn]⟩

/-- A step of the execution is one event. -/
theorem goes_step {x : Execution} {l : Ledger} {r : Readings} {b : Execution × Ledger}
    (h : x.advance g r l = some b) (a : Attendant σ) :
    Goes g handler ⟨x, l, a⟩ ⟨b.1, b.2, a⟩ :=
  ⟨_, .single (.step (.refl g) h), by simp [Event.isOwn]⟩

/-- A slice of its run is several. -/
theorem goes_runSlice (r : Readings) (x : Execution) (l : Ledger) (a : Attendant σ) :
    Goes g handler ⟨x, l, a⟩ ⟨(x.runSlice g r l).1, (x.runSlice g r l).2, a⟩ := by
  fun_induction Execution.runSlice g r x l with
  | case1 x l x' l' hstep hfiles => exact goes_step hstep a
  | case2 x l x' l' hstep hfiles ih => exact (goes_step hstep a).trans ih
  | case3 x l hstuck => exact .refl _

/-- The execution takes its next steps in a world as it is. -/
theorem Unfolds.steps (before : Unfolds g handler c es c₁) (n : Nat) :
    Unfolds g handler c
      (es ++ (Execution.stepsOf g n (c₁.execution, c₁.ledger)).1.map .around)
      ⟨(Execution.stepsOf g n (c₁.execution, c₁.ledger)).2.1,
        (Execution.stepsOf g n (c₁.execution, c₁.ledger)).2.2, c₁.attendant⟩ := by
  induction n generalizing es c₁ with
  | zero => simpa [Execution.stepsOf] using before
  | succ n ih =>
      cases hstep : c₁.execution.advance g default c₁.ledger with
      | none => simpa [Execution.stepsOf, hstep] using before
      | some b =>
          have hnext := before.next (.step (.refl g) hstep)
          simpa [Execution.stepsOf, hstep] using ih hnext

theorem Event.isForeign_of_isOwn {e : Event} (h : e.isOwn = true) : e.isForeign = false := by
  cases e with
  | around o => cases o <;> first | rfl | cases h
  | _ => rfl

/-- What happens moves the execution, or leaves it alone. -/
theorem Shifts.moves {e : Event} (h : Shifts g handler c e c') :
    c'.execution = c.execution ∨ Moves g c.execution c'.execution := by
  cases h with
  | step alike hstep => exact .inr (.step alike hstep)
  | delivery hdeliver => exact .inr (.deliver hdeliver)
  | stop x l a => exact .inr (.cancel x)
  | tell _ taken => exact .inr (.deliver taken)
  | _ => exact .inl rfl

/-- What unfolds leads an execution to a state that it reaches by itself. -/
theorem Unfolds.reaches (h : Unfolds g handler c es c') : Reaches g c.execution c'.execution := by
  induction h with
  | refl => exact .refl
  | next before hshift ih =>
      rcases hshift.moves with hsame | hmoves
      · rw [hsame]
        exact ih
      · exact ih.tail hmoves

/-- Nobody else delivers a signal or stops the execution. -/
def Undisturbed (es : List Event) : Prop :=
  ∀ e ∈ es, e.isForeign = false

theorem undisturbed_append : Undisturbed (es ++ es') ↔ Undisturbed es ∧ Undisturbed es' :=
  List.forall_mem_append

theorem undisturbed_singleton {e : Event} (h : e.isForeign = false) : Undisturbed [e] := by
  simpa [Undisturbed] using h

theorem Goes.unfolds (h : Goes g handler c c') :
    ∃ es, Unfolds g handler c es c' ∧ Undisturbed es := by
  rcases h with ⟨es, hes, hown⟩
  exact ⟨es, hes, fun e he => Event.isForeign_of_isOwn (hown e he)⟩

end Scene

open Scene

/-! ## A host that lets executions run -/

namespace Host

variable {σ : Type} {handler : Handler σ} {h : Host} {i j : Nat} {x : Execution}

theorem sliceAt_of_none {g : Engine} {r : Readings} {xs : List Execution} (hj : xs[j]? = none)
    (l : Ledger) : sliceAt g r xs j l = (xs, l) := by
  induction xs generalizing j with
  | nil => rfl
  | cons y ys ih =>
      cases j with
      | zero => simp at hj
      | succ j => simp [sliceAt, ih (by simpa using hj)]

/-- An execution goes on when it is its turn, and stays as it is otherwise. -/
theorem goes_slice (handler : Handler σ) (hx : h.execution? i = some x) (j : Nat)
    (a : Attendant σ) :
    ∃ x', (h.runSlice j).execution? i = some x' ∧
      Goes h.engine handler ⟨x, h.ledger, a⟩ ⟨x', (h.runSlice j).ledger, a⟩ := by
  have hget : h.executions[i]? = some x := hx
  have hlt : i < h.executions.length := (List.getElem?_eq_some_iff.1 hget).1
  cases hy : h.executions[j]? with
  | none =>
      have hsame := sliceAt_of_none (g := h.engine) (r := h.readings) hy h.ledger
      refine ⟨x, ?_, ?_⟩
      · simpa [runSlice, hsame] using hx
      · simp only [runSlice, hsame]
        exact .refl _
  | some y =>
      have hslice := Service.sliceAt_eq (g := h.engine) (r := h.readings) hy h.ledger
      -- It is its own turn, or that of another execution with the same ledger.
      by_cases hij : j = i
      · subst hij
        cases hget.symm.trans hy
        refine ⟨(x.runSlice h.engine h.readings h.ledger).1, ?_, ?_⟩
        · simp [runSlice, hslice, execution?, hlt]
        · simp only [runSlice, hslice]
          exact goes_runSlice h.readings x h.ledger a
      · refine ⟨x, ?_, goes_elsewhere _ _ _ _⟩
        simpa [runSlice, hslice, execution?, List.getElem?_set_ne hij] using hget

/-- Whatever a host lets run, for one of its executions it is some steps of its own. -/
theorem unfolds_runUntil (handler : Handler σ) (limit : Nat) (p : Host → Bool)
    (hx : h.execution? i = some x) (a : Attendant σ) :
    (h.runUntil limit p).1.engine = h.engine ∧
      ∃ x', (h.runUntil limit p).1.execution? i = some x' ∧
        Goes h.engine handler ⟨x, h.ledger, a⟩ ⟨x', (h.runUntil limit p).1.ledger, a⟩ := by
  fun_induction runUntil limit p h generalizing x with
  | case1 h hp => exact ⟨rfl, x, hx, .refl _⟩
  | case2 h hp hmove => exact ⟨rfl, x, hx, .refl _⟩
  | case3 h hp j time hmove hready ih =>
      have hat : (h.atTime time).execution? i = some x := hx
      rcases goes_slice handler hat j a with ⟨x₁, hx₁, hgoes⟩
      rcases ih hx₁ with ⟨hengine, x', hx', hrest⟩
      exact ⟨hengine, x', hx', hgoes.trans hrest⟩
  | case4 h hp j time hmove hready => exact ⟨rfl, x, hx, .refl _⟩

theorem reached_of_runUntil {limit : Nat} {p : Host → Bool}
    (hreached : (h.runUntil limit p).2 = true) :
    p (h.runUntil limit p).1 = true := by
  fun_induction runUntil limit p h with
  | case1 h hp => exact hp
  | case2 h hp hmove => cases hreached
  | case3 h hp j time hmove hready ih => exact ih hreached
  | case4 h hp j time hmove hready => cases hreached

/-- Whoever is said to move next can move then. -/
theorem isReady_of_nextMove {limit time : Nat} (hmove : h.nextMove? limit = some (j, time)) :
    (h.atTime time).isReady j = true := by
  unfold nextMove? at hmove
  cases hready : h.ready? with
  | some k =>
      rw [hready] at hmove
      cases hmove
      exact List.find?_some hready
  | none =>
      rw [hready] at hmove
      cases hdeadline : h.nextDeadline? limit with
      | none => simp [hdeadline] at hmove
      | some d =>
          simp only [hdeadline] at hmove
          rcases Option.map_eq_some_iff.1 hmove with ⟨k, hk, hsame⟩
          cases hsame
          exact List.find?_some hk

/-- A host that stops too early has nobody left that can move. -/
theorem stuck_of_runUntil {limit : Nat} {p : Host → Bool} (clockless : ∀ h t, p (atTime h t) = p h)
    (hreached : (h.runUntil limit p).2 = false)
    (hx : (h.runUntil limit p).1.execution? i = some x) :
    p (h.runUntil limit p).1 = false ∧
      ∃ r, x.advance h.engine r (h.runUntil limit p).1.ledger = none := by
  fun_induction runUntil limit p h with
  | case1 h hp => cases hreached
  | case2 h hp hmove =>
      refine ⟨(clockless h _).trans (Bool.eq_false_iff.2 hp), h.readings, ?_⟩
      have hget : h.executions[i]? = some x := hx
      have hlt : i < h.executions.length := (List.getElem?_eq_some_iff.1 hget).1
      cases hready : h.ready? with
      | some k => simp [nextMove?, hready] at hmove
      | none =>
          have hidle := List.find?_eq_none.1 hready i (List.mem_range.2 hlt)
          have hstuck : x.advance h.engine h.readings h.ledger = none := by
            simpa [isReady, hget, Execution.isReady] using hidle
          exact hstuck
  | case3 h hp j time hmove hready ih => exact ih hreached hx
  | case4 h hp j time hmove hready => exact absurd (isReady_of_nextMove hmove) hready

/-! ## Attending -/

/-- What the outcome of attending says of the attendant, and of the host that is left. -/
def Ends (h : Host) (i : Nat) (x : Execution) (a : Attendant σ) (s : σ) : Attendance → Prop
  | .pending =>
      ∃ n r, a = .looking n s ∧ h.needsAttention i n = false ∧
        x.advance h.engine r h.ledger = none
  | outcome => a = .done s outcome

/-- What is left of a host and of whoever attends to one of its executions comes about by what the
two do, and nobody else has a hand in it. -/
def Comes (h : Host) (i : Nat) (handler : Handler σ) (x : Execution) (a : Attendant σ)
    (out : Host × σ × Attendance) : Prop :=
  ∃ es x' a', Unfolds h.engine handler ⟨x, h.ledger, a⟩ es ⟨x', out.1.ledger, a'⟩ ∧
    Undisturbed es ∧ out.1.execution? i = some x' ∧ out.1.Ends i x' a' out.2.1 out.2.2

theorem Comes.of_unfolds {h₁ : Host} {x₁ : Execution} {a a₁ : Attendant σ}
    {out : Host × σ × Attendance} {es : List Scene.Event} (engine : h₁.engine = h.engine)
    (before : Unfolds h.engine handler ⟨x, h.ledger, a⟩ es ⟨x₁, h₁.ledger, a₁⟩)
    (undisturbed : Undisturbed es) (after : Comes h₁ i handler x₁ a₁ out) :
    Comes h i handler x a out := by
  rcases after with ⟨es', x', a', hes', hundisturbed, hx', hends⟩
  rw [engine] at hes'
  exact ⟨es ++ es', x', a', before.trans hes', undisturbed_append.2 ⟨undisturbed, hundisturbed⟩,
    hx', hends⟩

section Equations

variable {limit n : Nat} {s s' : σ} {k : Case} {interaction : Interaction} {e : Error}
variable {response : Response} {disposition : Disposition}

/-- If there is nothing to attend to in time, attending is pending. -/
theorem attendFrom_of_unreached (hrun : (h.runUntil limit (needsAttention i n)).2 = false) :
    h.attendFrom limit i handler n s =
      ((h.runUntil limit (needsAttention i n)).1, s, .pending) := by
  rw [attendFrom]
  simp [hrun]

/-- If the execution needs no answer any more, attending is over. -/
theorem attendFrom_of_answered (hrun : (h.runUntil limit (needsAttention i n)).2 = true)
    (hx : (h.runUntil limit (needsAttention i n)).1.execution? i = some x)
    (hanswered : x.unanswered? n = none) :
    h.attendFrom limit i handler n s =
      ((h.runUntil limit (needsAttention i n)).1, s, .finished x.status) := by
  rw [attendFrom]
  simp [hrun, hx, hanswered]

/-- Otherwise the handler is asked, and its answer is put to the execution. -/
theorem attendFrom_of_asked (hrun : (h.runUntil limit (needsAttention i n)).2 = true)
    (hx : (h.runUntil limit (needsAttention i n)).1.execution? i = some x)
    (hasked : x.unanswered? n = some (k, interaction)) :
    h.attendFrom limit i handler n s =
      let request := Request.ofInteraction k.caseId interaction
      let h₂ := (h.runUntil limit (needsAttention i n)).1.pause (handler.pace request s)
      match handler.answer request s with
      | (.error e, s') => (h₂, s', .failed e)
      | (.ok response, s') =>
          match h₂.decide i response.value with
          | .error e => (h₂, s', .failed e)
          | .ok (h₃, _) => h₃.attendFrom limit i handler k.activityCount s' := by
  rw [attendFrom]
  simp only [hrun, hx, hasked, Bool.not_true, Bool.false_eq_true, if_false]
  split
  · next e s' hanswer => simp only [hanswer]
  · next response s' hanswer =>
      cases hdecide : ((h.runUntil limit (needsAttention i n)).1.pause
          (handler.pace (.ofInteraction k.caseId interaction) s)).decide i response.value with
      | error e => simp only [hanswer, hdecide]
      | ok out => simp only [hanswer, hdecide]

end Equations

theorem goes_pause (handler : Handler σ) (h : Host) (seconds : Nat)
    (hx : h.execution? i = some x) (a : Attendant σ) :
    (h.pause seconds).engine = h.engine ∧
      ∃ x', (h.pause seconds).execution? i = some x' ∧
        Goes h.engine handler ⟨x, h.ledger, a⟩ ⟨x', (h.pause seconds).ledger, a⟩ := by
  cases seconds with
  | zero => exact ⟨rfl, x, hx, .refl _⟩
  | succ seconds => exact unfolds_runUntil handler _ _ hx a

/-- A decision is delivered to the execution, or refused by it. -/
theorem decide_eq (hx : h.execution? i = some x) (value : String) :
    h.decide i value =
      (x.deliver (h.decisionNow value)).map fun out =>
        ((h.put i out.1).report (Execution.deliveryMetric out.1.caseId out.2), out.2) := by
  simp only [decide, signal, hx]

/-- Whether attention is needed does not depend on the clock. -/
theorem clockless_needsAttention (i n : Nat) (h : Host) (t : Nat) :
    needsAttention i n (h.atTime t) = needsAttention i n h := rfl

/-- What follows an answer: it is missing, it is refused, or the attendant looks again. -/
theorem comes_of_thinking {limit : Nat} {s : σ} {k : Case} {interaction : Interaction}
    (hx : h.execution? i = some x)
    (again : ∀ response s' h' x', handler.answer (.ofInteraction k.caseId interaction) s =
      (.ok response, s') → h'.execution? i = some x' →
      Comes h' i handler x' (.looking k.activityCount s')
        (h'.attendFrom limit i handler k.activityCount s')) :
    Comes h i handler x (.thinking k interaction s)
      (match handler.answer (.ofInteraction k.caseId interaction) s with
      | (.error e, s') => (h, s', .failed e)
      | (.ok response, s') =>
          match h.decide i response.value with
          | .error e => (h, s', .failed e)
          | .ok (h', _) => h'.attendFrom limit i handler k.activityCount s') := by
  have hlt : i < h.executions.length := (List.getElem?_eq_some_iff.1 hx).1
  rcases hanswer : handler.answer (.ofInteraction k.caseId interaction) s with ⟨answer, s'⟩
  -- Each way on is one shift, and only the last of them is followed by others.
  cases answer with
  | error e => exact ⟨_, x, _, .single (.baffled hanswer), undisturbed_singleton rfl, hx, rfl⟩
  | ok response =>
      simp only [decide_eq hx]
      cases hdeliver : x.deliver (h.decisionNow response.value) with
      | error e =>
          exact ⟨_, x, _, .single (.refused hanswer hdeliver), undisturbed_singleton rfl, hx, rfl⟩
      | ok out =>
          rcases out with ⟨x', disposition⟩
          have hx' : ((h.put i x').report
              (Execution.deliveryMetric x'.caseId disposition)).execution? i = some x' := by
            simp [report, put, execution?, hlt]
          refine Comes.of_unfolds ?_ (.single (.tell hanswer hdeliver)) (undisturbed_singleton rfl)
            (again response s' _ x' hanswer hx')
          rfl

/-- Whoever attends, looks once something is there to be seen, thinks while the execution goes on,
and looks again after the answer. -/
theorem comes_attendFrom (limit n : Nat) (s : σ) (h : Host) (hx : h.execution? i = some x) :
    Comes h i handler x (.looking n s) (h.attendFrom limit i handler n s) := by
  -- Every answer uses up part of the supply.
  induction hsupply : handler.supply s using Nat.strongRecOn generalizing n s h x with
  | ind m ih =>
      subst hsupply
      rcases unfolds_runUntil handler limit (needsAttention i n) hx (.looking n s) with
        ⟨hengine, x₁, hx₁, hgoes⟩
      rcases hgoes.unfolds with ⟨es, hes, hundisturbed⟩
      refine .of_unfolds hengine hes hundisturbed ?_
      cases hreached : (h.runUntil limit (needsAttention i n)).2 with
      | false =>
          rw [attendFrom_of_unreached hreached]
          rcases stuck_of_runUntil (clockless_needsAttention i n) hreached hx₁ with
            ⟨hneeds, r, hstuck⟩
          rw [← hengine] at hstuck
          exact ⟨[], x₁, _, .refl, by simp [Undisturbed], hx₁, n, r, rfl, hneeds, hstuck⟩
      | true =>
          have hneeds := reached_of_runUntil hreached
          cases hasked : x₁.unanswered? n with
          | none =>
              rw [attendFrom_of_answered hreached hx₁ hasked]
              have hfinished : x₁.isFinished = true := by
                simpa [needsAttention, hx₁, hasked] using hneeds
              exact ⟨_, x₁, _, .single (.leave hfinished), undisturbed_singleton rfl, hx₁, rfl⟩
          | some seen =>
              rcases seen with ⟨k, interaction⟩
              rw [attendFrom_of_asked hreached hx₁ hasked]
              rcases goes_pause handler _
                (handler.pace (.ofInteraction k.caseId interaction) s) hx₁
                (.thinking k interaction s) with ⟨hengine₂, x₂, hx₂, hgoes₂⟩
              rcases hgoes₂.unfolds with ⟨es₂, hes₂, hundisturbed₂⟩
              refine .of_unfolds rfl (.single (.look hasked)) (undisturbed_singleton rfl) ?_
              refine .of_unfolds hengine₂ hes₂ hundisturbed₂ ?_
              refine comes_of_thinking hx₂ ?_
              intro response s' h' x' hanswer hx'
              exact ih _ (handler.supply_lt hanswer) k.activityCount s' h' hx' rfl

end Host
end Casework
