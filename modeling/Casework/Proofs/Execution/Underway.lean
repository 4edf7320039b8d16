import Casework.Execution.Underway
import Casework.Proofs.Execution.World
import Casework.Proofs.Execution.Writing
import Casework.Proofs.Journal.Contents

/-!
# Appends in pieces

Others may look into files while a line goes to its file piece by piece.  If nobody stops the
execution, this comes to one atomic step of it; if somebody does, what is missing stays missing.

* `Journal.write_write` : two pieces written one after the other are written as one;
* `Underway.Begun` : the state of an append of which any part is in the file;
* `Underway.conclude_glances` : an append that is brought to its end is an atomic step;
* `Underway.conclude_cancel` : an append whose execution is stopped is not brought to its end.
-/

namespace Casework

/-- What is put under a name replaces what was put there before. -/
theorem Folder.put_put (f : Folder) (name : String) (first second : FileNode) :
    (f.put name first).put name second = f.put name second := by
  induction f with
  | nil => simp [put]
  | cons entry rest ih =>
      rcases entry with ⟨n, old⟩
      by_cases hn : n = name
      · simp [put, hn]
      · have hrest : Folder.put (Folder.put rest name first) name second =
            Folder.put rest name second := ih
        simp [put, hn, hrest]

/-- Two texts appended one after the other are appended as one. -/
theorem Folder.appendText_appendText {f f' : Folder} {name : String} (first second : String)
    (h : f.appendText name first = .ok f') :
    f'.appendText name second = f.appendText name (first ++ second) := by
  obtain ⟨named, hnode⟩ := of_appendText h
  rcases hnode with ⟨hnone, rfl⟩ | ⟨s, hfile, rfl⟩ | ⟨hbytes, rfl⟩
  · simp [appendText, lookup, named, hnone, get?_put_self, put_put]
  · simp [appendText, lookup, named, hfile, get?_put_self, put_put, String.append_assoc]
  · simp [appendText, lookup, named, hbytes]

namespace Journal

/-- Nothing is lost where a text is cut. -/
theorem cut_append (text : String) : (cut text).1 ++ (cut text).2 = text := by
  simp [cut, ← String.ofList_append]

/-- Two pieces written one after the other are written as one. -/
theorem write_write {j j' : Journal} {caseId : String} (first second : String)
    (h : j.write caseId first = .ok j') :
    j'.write caseId second = j.write caseId (first ++ second) := by
  cases j with
  | memory cases => cases h; rfl
  | files folder =>
      cases hname : fileName? caseId with
      | error e => simp [write, hname, bind, Except.bind] at h
      | ok name =>
          cases htext : folder.appendText name first with
          | error cause => simp [write, hname, htext, bind, Except.bind] at h
          | ok folder' =>
              have hj : files folder' = j' := by
                simpa [write, hname, htext, bind, Except.bind, pure, Except.pure] using h
              rw [← hj]
              simp only [write, hname, bind, Except.bind]
              rw [Folder.appendText_appendText first second htext]

/-- An entry that goes to a file goes there as one line. -/
theorem append_eq_write {j : Journal} (h : j.isFiles = true) (caseId : String) (e : JournalEntry) :
    j.append caseId e = j.write caseId (line e) := by
  cases j with
  | memory cases => cases h
  | files folder => rfl

end Journal

namespace Underway

variable {h : Host} {i : Nat} {x : Execution} {j : Journal} {u : Underway}

/-- An append of which any part is in the file: what is left of it leads to the journal in which
its entry is. -/
structure Begun (h : Host) (i : Nat) (x : Execution) (j : Journal) (u : Underway) : Prop where
  host : ∃ part, u.host = h.withJournal part
  rest : ∃ text, u.append? = some (i, text) ∧
    u.host.ledger.journal.write x.context.log.caseId text = .ok j

theorem live?_of_some {text : String} (hx : u.host.execution? i = some x)
    (hrun : x.isFinished = false) (happend : u.append? = some (i, text)) :
    u.live? = some (x, i, text) := by
  simp [live?, happend, hx, hrun]

/-- The append that gets the files is that of an execution that is about to write. -/
theorem next?_eq_some {text : String} (hnext : next? h = some (i, text)) :
    ∃ y, h.execution? i = some y ∧ y.line? h.readings h.ledger = some text := by
  obtain ⟨k, -, hk⟩ := List.exists_of_findSome?_eq_some hnext
  simp only [Option.bind_eq_bind, Option.bind_eq_some_iff, Option.pure_def, Option.some.injEq,
    Prod.mk.injEq] at hk
  obtain ⟨y, hy, line, hline, rfl, rfl⟩ := hk
  exact ⟨y, hy, hline⟩

/-- What is to be written leads to where the first half of the atomic step leads. -/
theorem of_line? {r : Readings} {l : Ledger} {text : String} (hline : x.line? r l = some text) :
    x.isFinished = false ∧
      ∃ l', x.land r l = some l' ∧ l' = { l with journal := l'.journal } ∧
        l.journal.write x.context.log.caseId text = .ok l'.journal := by
  unfold Execution.line? at hline
  split at hline
  · cases hline
  · next hguard =>
      simp only [Bool.or_eq_true, Bool.not_eq_true', Option.isNone_iff_eq_none, not_or,
        Bool.not_eq_true, Bool.not_eq_false] at hguard
      obtain ⟨⟨hrun, hfiles⟩, hland⟩ := hguard
      obtain ⟨l', hl'⟩ := Option.ne_none_iff_exists'.1 hland
      obtain ⟨e, j', hwritten, happend, rfl⟩ := Execution.land_eq_some_iff.1 hl'
      rw [hwritten] at hline
      cases hline
      exact ⟨hrun, _, hl', rfl, by rw [← Journal.append_eq_write hfiles]; exact happend⟩

/-- A look into a file brings an append further, and to no other end. -/
theorem Begun.glance (hu : Begun h i x j u) (hx : h.execution? i = some x)
    (hrun : x.isFinished = false) : Begun h i x j u.glance := by
  obtain ⟨part, hhost⟩ := hu.host
  obtain ⟨text, happend, hwrite⟩ := hu.rest
  have hlive : u.live? = some (x, i, text) := live?_of_some (by rw [hhost]; exact hx) hrun happend
  unfold Underway.glance
  simp only [hlive]
  cases hpiece : u.host.ledger.journal.write x.context.log.caseId (Journal.cut text).1 with
  | error fault => exact hu
  | ok written =>
      have hleft : written.write x.context.log.caseId (Journal.cut text).2 = .ok j := by
        rw [Journal.write_write _ _ hpiece, Journal.cut_append]
        exact hwrite
      exact ⟨⟨written, by rw [hhost]; rfl⟩, _, rfl, hleft⟩

/-- So do any number of looks. -/
theorem Begun.glances (hu : Begun h i x j u) (hx : h.execution? i = some x)
    (hrun : x.isFinished = false) (n : Nat) : Begun h i x j (Nat.repeat Underway.glance n u) := by
  induction n with
  | zero => exact hu
  | succ n ih => exact ih.glance hx hrun

/-- What is left is written, and the execution goes on as it does after its entry is kept. -/
theorem Begun.conclude (hu : Begun h i x j u) (hx : h.execution? i = some x)
    (hrun : x.isFinished = false) :
    u.conclude =
      { h with ledger := (x.conclude { h.ledger with journal := j }).2 }.put i
        (x.conclude { h.ledger with journal := j }).1 := by
  obtain ⟨part, hhost⟩ := hu.host
  obtain ⟨text, happend, hwrite⟩ := hu.rest
  have hlive : u.live? = some (x, i, text) := live?_of_some (by rw [hhost]; exact hx) hrun happend
  unfold Underway.conclude
  simp only [hlive, hwrite]
  rw [hhost]
  rfl

/-- However often others look into files meanwhile, an append that is brought to its end is one
atomic step of its execution. -/
theorem conclude_glances {text : String} {x' : Execution} {l' : Ledger}
    (hnext : next? h = some (i, text)) (hx : h.execution? i = some x)
    (hstep : x.advance h.engine h.readings h.ledger = some (x', l')) (n : Nat) :
    (Nat.repeat glance (n + 1) { host := h }).conclude = { h with ledger := l' }.put i x' := by
  obtain ⟨y, hy, hline⟩ := next?_eq_some hnext
  obtain rfl : x = y := Option.some.inj (hx.symm.trans hy)
  obtain ⟨hrun, l, hland, hl, hwrite⟩ := of_line? hline
  -- The first look opens the file.
  have hopened : Begun h i x l.journal { host := h, append? := some (i, text) } :=
    ⟨⟨h.ledger.journal, rfl⟩, text, rfl, hwrite⟩
  have hfirst : ∀ n, Nat.repeat glance (n + 1) { host := h } =
      Nat.repeat glance n { host := h, append? := some (i, text) } := by
    intro n
    induction n with
    | zero => simp [Nat.repeat, glance, live?, hnext]
    | succ n ih =>
        rw [show Nat.repeat glance (n + 1 + 1) { host := h } =
          (Nat.repeat glance (n + 1) { host := h }).glance from rfl, ih]
        rfl
  rw [hfirst, (hopened.glances hx hrun n).conclude hx hrun, ← hl]
  have hconclude : x.conclude l = (x', l') :=
    Option.some.inj ((Execution.advance_of_land (Execution.running_iff.1 hrun) hland).symm.trans hstep)
  rw [hconclude]

/-- An append whose execution is stopped is not brought to its end. -/
theorem conclude_cancel {text : String} (happend : u.append? = some (i, text))
    (hx : u.host.execution? i = some x) :
    Underway.conclude { u with host := u.host.cancel i } = u.host.cancel i := by
  have hstopped : (u.host.cancel i).execution? i = some x.cancel := by
    obtain ⟨hlt, -⟩ := List.getElem?_eq_some_iff.1 hx
    have hcancel : u.host.cancel i = u.host.put i x.cancel := by simp only [Host.cancel, hx]
    rw [hcancel]
    exact List.getElem?_set_self hlt
  have hlive : live? { u with host := u.host.cancel i } = none := by
    simp [live?, happend, hstopped, Execution.isFinished_cancel]
  simp only [Underway.conclude, hlive]

end Underway
end Casework
