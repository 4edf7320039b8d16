import Casework.Proofs.Replay.Shadow

/-!
# Turns — uninterrupted runs, journal and core only

A snapshot is an execution together with the entries that were appended for its case.  Up to the
core, nothing else has a say in the run but what is seen on the way.

* `Snapshot.Same` : snapshots with one core and the same entries;
* `Turn`, `Turns` : one atomic step and any number of them, with what they see;
* `Turns.confluent` : runs that see the same come to rest in one state.
-/

namespace Casework

/-- An execution and what was appended for its case. -/
structure Snapshot where
  execution : Execution
  entries : List JournalEntry

def Snapshot.Same (a b : Snapshot) : Prop :=
  a.execution.core = b.execution.core ∧ a.entries = b.entries

/-- One atomic step, in some world that keeps its entry, with what it sees. -/
inductive Turn (g : Engine) (a : Snapshot) (o : Option Observation) (b : Snapshot) : Prop
  | of {g' : Engine} {r : Readings} {x x' : Execution} {l l' : Ledger} (alike : g.Alike g')
      (h : x.advance g' r l = some (x', l')) (kept : x.Kept r l)
      (before : x.core = a.execution.core) (seen : o = x.sees r x')
      (after : b.execution.core = x'.core)
      (journal : b.entries = a.entries ++ (x.written? r).toList)

/-- Any number of atomic steps, with what they see. -/
inductive Turns (g : Engine) : Snapshot → List Observation → Snapshot → Prop
  | refl (a : Snapshot) : Turns g a [] a
  | turn {a b c : Snapshot} {o : Option Observation} {seen : List Observation}
      (t : Turn g a o b) (rest : Turns g b seen c) : Turns g a (o.toList ++ seen) c

def Execution.AtRest (x : Execution) : Prop :=
  x.IsAwaiting ∨ x.isFinished = true

open Execution

/-! ## What is noticed -/

namespace Execution

variable {g : Engine} {r : Readings} {x y x' : Execution} {l l' : Ledger}

/-- Whether the next atomic step sees something; a wait does if it brings a decision. -/
def notices (x : Execution) : Bool :=
  x.asks ||
    match x.phase with
    | .closing (.error _) => !x.context.log.hasNext .failed
    | _ => false

/-- What an execution notices is seen in its core. -/
theorem notices_of_core (h : x.core = y.core) : x.notices = y.notices := by
  have hlog := log_of_core h
  have htwin := Phase.twin_of_core (phase_of_core h)
  unfold notices
  rw [asks_of_core h, hlog]
  generalize x.phase = p at htwin
  generalize y.phase = q at htwin
  cases htwin with
  | closing result => rfl
  | _ => rfl

/-- A collaborator that was asked has answered. -/
theorem answer_of_asked {s : StepDefinition} {settings : EngineSettings} {c : Context}
    {enricher : Enricher} {out : Context × Ledger × Visit}
    (h : Visit.Entering settings s r c l (.caseEnrichment (some enricher)) out)
    (live : c.log.pending = []) : out.2.2.answer?.isSome = true := by
  cases h with
  | unopened _ _ => rfl
  | refused _ _ _ => rfl
  | answered _ _ _ => rfl
  | analysed recorded _ =>
      rw [recorded] at live
      cases live
  | unreadable recorded _ =>
      rw [recorded] at live
      cases live
  | unanswered recorded _ =>
      rw [recorded] at live
      cases live

/-- A step that does not wait sees something just if it is one that notices. -/
theorem sees_isSome {b : Execution × Ledger} (hawait : ¬ x.IsAwaiting)
    (h : x.advance g r l = some b) : (x.sees r b.1).isSome = x.notices := by
  cases stepping h with
  | starting hp => simp [sees, notices, asks, hp]
  | opening hp => simp [sees, notices, asks, hp]
  | dispatching hp => simp [sees, notices, asks, hp]
  | @entering d n s e out hp ways =>
      cases hasks : x.asks with
      | false => simp [sees, notices, hp, inVisit, hasks]
      | true =>
          have hanswer : out.2.2.answer?.isSome = true := by
            unfold asks at hasks
            rw [hp] at hasks
            cases e with
            | humanInTheLoop => cases hasks
            | finalCommit => cases hasks
            | caseEnrichment enricher =>
                cases enricher with
                | none => cases hasks
                | some enricher => exact answer_of_asked ways (by simpa [pending] using hasks)
          simp [sees, notices, hp, inVisit, hasks, hanswer]
  | awaiting hp hw => exact absurd ⟨_, _, _, _, _, hp⟩ hawait
  | decided hp => simp [sees, notices, asks, hp]
  | analysed hp => simp [sees, notices, asks, hp]
  | left hp => simp [sees, notices, asks, hp]
  | @closing result hp =>
      have hasks : x.asks = false := by simp [asks, hp]
      cases result with
      | ok k => simp [sees, notices, hasks, hp]
      | error e =>
          -- The real time is seen only if the failure is not in the log already.
          cases hnext : x.context.log.hasNext .failed with
          | true =>
              have hwritten : x.written? r = none := written?_of_next hp hnext
              simp [sees, notices, hasks, hp, hnext, hwritten]
          | false =>
              have hwritten : x.written? r = some (terminal r (.error e)) :=
                written?_of_other hp hnext
              simp [sees, notices, hasks, hp, hnext, hwritten]

/-- Rest is seen in the core. -/
theorem rest_of_core (h : x.core = y.core) (hx : x.AtRest) : y.AtRest := by
  rcases hx with hawait | hfinished
  · exact .inl (awaiting_of_core h hawait)
  · exact .inr ((isFinished_of_core h).symm.trans hfinished)

/-- A wait that brings no decision goes on. -/
theorem core_of_waiting (hawait : x.IsAwaiting) (h : x.advance g r l = some (x', l'))
    (unseen : x.sees r x' = none) : x'.core = x.core ∧ x.written? r = none := by
  obtain ⟨d, n, s, e, w, hp⟩ := hawait
  have hs := running_of_advance h
  rw [advance_of_awaiting hs hp] at h
  obtain ⟨out, -, hout⟩ := Option.map_eq_some_iff.1 h
  cases hout
  refine ⟨?_, by simp [written?, hp]⟩
  rcases Visit.ofWaiter_cases r out.2 with ⟨signal, hsignal⟩ | ⟨v, hv⟩
  · simp [sees, hp, hsignal, Visit.signal?] at unseen
  · refine core_ext rfl rfl ?_ rfl
    simp [Phase.core, hp, hv, Visit.core]

end Execution

/-! ## Confluence -/

section Confluence

variable {g : Engine} {a a' b b' c : Snapshot} {o o' : Option Observation}
variable {seen : List Observation}

theorem Snapshot.Same.symm (h : a.Same b) : b.Same a :=
  ⟨h.1.symm, h.2.symm⟩

theorem Snapshot.Same.trans (h : a.Same b) (h' : b.Same c) : a.Same c :=
  ⟨h.1.trans h'.1, h.2.trans h'.2⟩

/-- A turn starts from any snapshot that is the same. -/
theorem Turn.of_same (t : Turn g a o b) (h : a.Same a') : Turn g a' o b := by
  cases t with
  | of alike hstep kept before seen after journal =>
      exact .of alike hstep kept (before.trans h.1) seen after (by rw [← h.2]; exact journal)

/-- What is seen decides where a step leads. -/
theorem Turn.deterministic (t : Turn g a o b) (t' : Turn g a o b') : b.Same b' := by
  cases t with
  | of alike h kept before seen after journal =>
      cases t' with
      | of alike' h' kept' before' seen' after' journal' =>
          have hcore := before.trans before'.symm
          obtain ⟨hnext, hentry⟩ :=
            lockstep hcore alike alike' h h' kept kept' (seen.symm.trans seen')
          refine ⟨?_, ?_⟩
          · rw [after, after', hnext]
          · rw [journal, journal', hentry]

/-- Where nobody waits, whether something is seen does not depend on the world. -/
theorem Turn.isSome_eq (t : Turn g a o b) (t' : Turn g a o' b')
    (hawait : ¬ a.execution.IsAwaiting) : o.isSome = o'.isSome := by
  cases t with
  | of alike h kept before seen after journal =>
      cases t' with
      | of alike' h' kept' before' seen' after' journal' =>
          have hx := sees_isSome (fun hx => hawait (awaiting_of_core before hx)) h
          have hx' := sees_isSome (fun hx => hawait (awaiting_of_core before' hx)) h'
          rw [seen, seen', hx, hx', notices_of_core (before.trans before'.symm)]

/-- A finished execution takes no step. -/
theorem Turn.running (t : Turn g a o b) : a.execution.isFinished = false := by
  cases t with
  | of alike h kept before seen after journal =>
      have hs := running_of_advance h
      rw [status_of_core before] at hs
      simp [isFinished, hs, ExecutionStatus.isFinished]

/-- A wait that brings no decision is at the same place. -/
theorem Turn.stutter (t : Turn g a none b) (hawait : a.execution.IsAwaiting) : b.Same a := by
  cases t with
  | of alike h kept before seen after journal =>
      obtain ⟨hcore, hentry⟩ := core_of_waiting (awaiting_of_core before.symm hawait) h seen.symm
      refine ⟨after.trans (hcore.trans before), ?_⟩
      rw [journal, hentry]
      simp

/-- So do any number of turns. -/
theorem Turns.of_same (h : Turns g a seen b) (hsame : a.Same a') :
    ∃ b', Turns g a' seen b' ∧ b.Same b' := by
  cases h with
  | refl => exact ⟨a', .refl a', hsame⟩
  | turn t rest => exact ⟨b, .turn (t.of_same hsame) rest, rfl, rfl⟩

/-- Turns are none, or one and then others. -/
theorem Turns.cases_head (h : Turns g a seen b) :
    (b = a ∧ seen = []) ∨
      ∃ c o rest, seen = o.toList ++ rest ∧ Turn g a o c ∧ Turns g c rest b := by
  cases h with
  | refl => exact .inl ⟨rfl, rfl⟩
  | turn t rest => exact .inr ⟨_, _, _, rfl, t, rest⟩

theorem awaiting_of_same (h : a.Same b) (hawait : a.execution.IsAwaiting) :
    b.execution.IsAwaiting :=
  awaiting_of_core h.1 hawait

/-- While a decision is awaited nothing happens that is not seen. -/
theorem Turns.next_of_awaiting {ob : Observation} {all : List Observation}
    (h : Turns g a all b) (hall : all = ob :: seen) (hawait : a.execution.IsAwaiting) :
    ∃ c, Turn g a (some ob) c ∧ Turns g c seen b := by
  induction h with
  | refl a => cases hall
  | @turn a c b o rest t hrest ih =>
      cases o with
      | none =>
          -- A wait that is looked at in vain is where it was.
          have hsame := t.stutter hawait
          obtain ⟨c', t', hrest'⟩ := ih hall (awaiting_of_same hsame.symm hawait)
          exact ⟨c', t'.of_same hsame, hrest'⟩
      | some ob' =>
          simp only [Option.toList_some, List.singleton_append, List.cons.injEq] at hall
          obtain ⟨rfl, rfl⟩ := hall
          exact ⟨c, t, hrest⟩

/-- At rest nothing happens that is not seen. -/
theorem Turns.same_of_rest {all : List Observation} (h : Turns g a all b) (hall : all = [])
    (hrest : a.execution.AtRest) : b.Same a := by
  induction h with
  | refl a => exact ⟨rfl, rfl⟩
  | @turn a c b o rest t _ ih =>
      cases o with
      | some ob => cases hall
      | none =>
          rcases hrest with hawait | hfinished
          · have hsame := t.stutter hawait
            exact (ih hall (.inl (awaiting_of_same hsame.symm hawait))).trans hsame
          · have hrunning := t.running
            rw [hfinished] at hrunning
            cases hrunning

/-- Runs that see the same come to rest in one state. -/
theorem Turns.confluent (h : Turns g a seen b) (hb : b.execution.AtRest) {all : List Observation}
    (h' : Turns g a' all b') (hall : all = seen) (hb' : b'.execution.AtRest) (hsame : a.Same a') :
    b.Same b' := by
  -- The induction is on one run; the other is read off step by step, and may pause in waits.
  induction h generalizing a' all with
  | refl a =>
      have hrest : a'.execution.AtRest := rest_of_core hsame.1 hb
      exact hsame.trans (h'.same_of_rest hall hrest).symm
  | @turn a c b o seen t hrest ih =>
      by_cases hawait : a.execution.IsAwaiting
      · cases o with
        | none =>
            exact ih hb h' hall ((t.stutter hawait).trans hsame)
        | some ob =>
            obtain ⟨c', t', hrest'⟩ := h'.next_of_awaiting hall (awaiting_of_same hsame hawait)
            exact ih hb hrest' rfl (t.deterministic (t'.of_same hsame.symm))
      · rcases h'.cases_head with ⟨rfl, -⟩ | ⟨c', o', seen', hseen, t', hrest'⟩
        · -- The other run has not gone on, so this one could not either.
          have hrunning := (t.of_same hsame).running
          rcases hb' with hwaits | hfinished
          · exact absurd (awaiting_of_same hsame.symm hwaits) hawait
          · rw [hfinished] at hrunning
            cases hrunning
        · have ht' := t'.of_same hsame.symm
          have hsome := t.isSome_eq ht' hawait
          rw [hseen] at hall
          cases o with
          | none =>
              cases o' with
              | none => exact ih hb hrest' hall (t.deterministic ht')
              | some ob' => cases hsome
          | some ob =>
              cases o' with
              | none => cases hsome
              | some ob' =>
                  simp only [Option.toList_some, List.singleton_append, List.cons.injEq] at hall
                  obtain ⟨rfl, hall⟩ := hall
                  exact ih hb hrest' hall (t.deterministic ht')

end Confluence

end Casework
