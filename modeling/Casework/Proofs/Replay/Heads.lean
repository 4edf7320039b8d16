import Casework.Proofs.Execution.Core

/-!
# Heading for a state — runs that need nothing from outside

Some atomic steps wait for nobody, ask nobody and append nothing.  What they lead to is the same in
every world, up to the core.

* `Execution.Inner` : the next atomic step is of this kind;
* `ReplaysTo` : wherever an execution is taken, it takes only such steps until it has a property;
* `Heads` : one run of such steps leads to a state with the property;
* `Heads.replaysTo` : then all runs do.
-/

namespace Casework

namespace Execution

/-- Whether the next atomic step waits for nobody, asks nobody and appends nothing. -/
structure Inner (x : Execution) : Prop where
  awaits : ¬ x.IsAwaiting
  asks : x.asks = false
  writes : ∀ r, x.written? r = none

end Execution

/-- In whatever world an execution is taken on, and whatever is delivered to it meanwhile, it waits
for nobody, asks nobody and leaves the journal alone until it has the property. -/
inductive ReplaysTo (g : Engine) (P : Execution → Prop) : Execution → Prop
  | here {y : Execution} (h : P y) : ReplaysTo g P y
  | step {y : Execution} (running : y.status = .running) (awaits : ¬ y.IsAwaiting)
      (moves : ∀ g' r inbox l, ((y.withInbox inbox).advance g' r l).isSome = true)
      (quiet : ∀ g' r inbox l z l', g.Alike g' →
        (y.withInbox inbox).advance g' r l = some (z, l') →
          l'.journal = l.journal ∧ l'.analysed = l.analysed)
      (next : ∀ g' r inbox l z l', g.Alike g' →
        (y.withInbox inbox).advance g' r l = some (z, l') → ReplaysTo g P z) : ReplaysTo g P y

/-- One run of inner steps leads to a state whose core has the property. -/
inductive Heads (g : Engine) (P : Execution → Prop) : Execution → Prop
  | here {y : Execution} (h : P y.core) : Heads g P y
  | step {y z : Execution} {r : Readings} {l l' : Ledger} (inner : y.Inner)
      (h : y.advance g r l = some (z, l')) (rest : Heads g P z) : Heads g P y

namespace Execution

variable {g g' : Engine} {r r' : Readings} {x y z z' : Execution} {l l' l₁ l₁' : Ledger}

/-- Waiting is seen in the core. -/
theorem awaiting_of_core (h : x.core = y.core) (hx : x.IsAwaiting) : y.IsAwaiting := by
  obtain ⟨d, n, s, e, w, hp⟩ := hx
  have htwin := Phase.twin_of_core (phase_of_core h)
  generalize hq : y.phase = q at htwin
  rw [hp] at htwin
  cases htwin with
  | awaiting he w w' => exact ⟨_, _, _, _, _, hq⟩

theorem asks_of_core (h : x.core = y.core) : x.asks = y.asks := by
  have hpending : x.pending = y.pending := congrArg Log.pending (log_of_core h)
  have htwin := Phase.twin_of_core (phase_of_core h)
  generalize hp : x.phase = p at htwin
  generalize hq : y.phase = q at htwin
  cases htwin with
  | entering he =>
      cases Executor.twin_of_core he <;> simp [asks, hp, hq, hpending]
  | _ => simp [asks, hp, hq]

namespace Inner

/-- So is an inner step. -/
theorem of_core (h : x.core = y.core) (hx : x.Inner) : y.Inner := by
  refine ⟨fun hy => hx.awaits (awaiting_of_core h.symm hy), ?_, ?_⟩
  · rw [← asks_of_core h]
    exact hx.asks
  · intro r
    rw [← written?_of_core r r h (fun _ _ _ => rfl)]
    exact hx.writes r

/-- An inner step writes nothing that could be refused. -/
theorem kept (hx : x.Inner) : x.Kept r l := by
  intro e he
  rw [hx.writes r] at he
  cases he

/-- An inner step sees nothing. -/
theorem sees {b : Execution × Ledger} (hx : x.Inner) (h : x.advance g r l = some b) :
    x.sees r b.1 = none := by
  cases stepping h with
  | starting hp => simp [Execution.sees, hp]
  | opening hp => simp [Execution.sees, hp]
  | dispatching hp => simp [Execution.sees, hp]
  | entering hp ways => simp [Execution.sees, hp, inVisit, hx.asks]
  | awaiting hp hw => exact absurd ⟨_, _, _, _, _, hp⟩ hx.awaits
  | decided hp => simp [Execution.sees, hp]
  | analysed hp => simp [Execution.sees, hp]
  | left hp => simp [Execution.sees, hp]
  | @closing result hp =>
      cases result with
      | ok k => simp [Execution.sees, hp]
      | error e => simp [Execution.sees, hp, hx.writes r]

/-- Inner steps of executions with one core lead to executions with one core. -/
theorem lockstep (hx : x.Inner) (h : x.core = y.core) (alike : g.Alike g')
    (hxz : x.advance g r l = some (z, l')) (hyz : y.advance g' r' l₁ = some (z', l₁')) :
    z.core = z'.core := by
  have hy := hx.of_core h
  -- Nothing is seen on either side, so the same is.
  have same : x.sees r z = y.sees r' z' := by
    rw [hx.sees hxz, hy.sees hyz]
  exact (Execution.lockstep h (.refl g) alike hxz hyz hx.kept hy.kept same).1

/-- An inner step neither writes nor asks. -/
theorem quiet (hx : x.Inner) (h : x.advance g r l = some (z, l')) :
    l'.journal = l.journal ∧ l'.analysed = l.analysed :=
  ⟨journal_of_advance h (hx.writes r), analysed_of_advance h hx.asks⟩

/-- What takes an inner step in one world takes it in every world. -/
theorem moves (hx : x.Inner) (h : x.core = y.core) (hxz : x.advance g r l = some (z, l'))
    (g' : Engine) (r' : Readings) (l₁ : Ledger) : (y.advance g' r' l₁).isSome = true := by
  have hy := hx.of_core h
  have hs := running_of_advance hxz
  refine advance_isSome ((status_of_core h).symm.trans hs) hy.awaits ?_
  intro result hq
  have htwin := Phase.twin_of_core (phase_of_core h)
  generalize hp : x.phase = p at htwin
  rw [hq] at htwin
  cases htwin with
  | ended =>
      rw [advance_of_ended hp] at hxz
      cases hxz

end Inner

end Execution

namespace Heads

open Execution

variable {g g' : Engine} {P Q : Execution → Prop} {x y z : Execution} {r : Readings}
variable {l l' : Ledger}

/-- Where an execution heads for is seen in its core. -/
theorem of_core (h : Heads g P x) (hcore : x.core = y.core) : Heads g P y := by
  induction h generalizing y with
  | here hP =>
      rw [hcore] at hP
      exact .here hP
  | @step x z r l l' inner hxz _ ih =>
      have hy := inner.of_core hcore
      obtain ⟨⟨z', l₁⟩, hyz⟩ := Option.isSome_iff_exists.1 (inner.moves hcore hxz g r l)
      exact .step hy hyz (ih (inner.lockstep hcore (.refl g) hxz hyz))

theorem mono (h : Heads g P x) (hPQ : ∀ z, P z → Q z) : Heads g Q x := by
  induction h with
  | here hP => exact .here (hPQ _ hP)
  | step inner hxz _ ih => exact .step inner hxz ih

/-- What heads for a state that heads on heads for what follows. -/
theorem trans (h : Heads g P x) (hPQ : ∀ z, P z.core → Heads g Q z) : Heads g Q x := by
  induction h with
  | here hP => exact hPQ _ hP
  | step inner hxz _ ih => exact .step inner hxz ih

/-- An actual step, in any world, stays on the way. -/
theorem advance (h : Heads g P y) (alike : g.Alike g') (hyz : y.advance g' r l = some (z, l')) :
    P y.core ∨ (y.Inner ∧ Heads g P z) := by
  cases h with
  | here hP => exact .inl hP
  | step inner hstep rest =>
      exact .inr ⟨inner, rest.of_core (inner.lockstep rfl alike hstep hyz)⟩

/-- However it is taken on, an execution replays to the state it heads for. -/
theorem replaysTo (h : Heads g P x) (hcore : x.core = y.core) :
    ReplaysTo g (fun z => P z.core) y := by
  -- The inbox of `y` and the world differ at each step, so the induction is on cores.
  induction h generalizing y with
  | here hP =>
      rw [hcore] at hP
      exact .here hP
  | @step x z r l l' inner hxz _ ih =>
      have hy := inner.of_core hcore
      have hs : y.status = .running := (status_of_core hcore).symm.trans (running_of_advance hxz)
      have hinbox : ∀ inbox, x.core = (y.withInbox inbox).core := fun _ => hcore
      refine .step hs hy.awaits ?_ ?_ ?_
      · intro g' r' inbox l₁
        exact inner.moves (hinbox inbox) hxz g' r' l₁
      · intro g' r' inbox l₁ z' l₁' _ hyz
        exact (inner.of_core (hinbox inbox)).quiet hyz
      · intro g' r' inbox l₁ z' l₁' alike hyz
        exact ih (inner.lockstep (hinbox inbox) alike hxz hyz)

end Heads

theorem ReplaysTo.mono {g : Engine} {P Q : Execution → Prop} {y : Execution}
    (h : ReplaysTo g P y) (hPQ : ∀ z, P z → Q z) : ReplaysTo g Q y := by
  induction h with
  | here hP => exact .here (hPQ _ hP)
  | step running awaits moves quiet _ ih => exact .step running awaits moves quiet ih

end Casework
