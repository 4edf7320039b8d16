import Casework.Proofs.Journal.Lines
import Casework.Proofs.Json.RoundTrips

/-!
# Documents — records are read back from their text

A text gives back the document that was written, unless a number in it is not read back or it is
nested too deeply for the reader.  So a record is read back from its text if what is free in it fits.

* `Decoder.ofText?` : what a decoder makes of a text;
* `Value.FitsIn` : values that are read back as written, nested no more deeply than given;
* `Case.fitsIn_toValue`, `Request.fitsIn_toValue`, `JournalEntry.fitsIn_toValue`,
  `Definition.fitsIn_toValue` : the documents of records;
* `Decoder.Faithful` : a decoder that inverts the encoding, and accepts nothing else;
* `JournalEntry.readsBack` : a sound entry is read back from its line;
* `records_read_back` : cases, journal entries, processes and requests.
-/

namespace Casework

namespace Decoder

def ofText? {α : Type} (d : Decoder α) (text : String) : Option α :=
  (Value.read? text).bind fun v => (d.decode v).toOption

end Decoder

namespace Value

variable {depth : Nat} {items : List Value} {fields : Casework.Fields} {v : Value}

/-! ## Values that fit below a depth -/

/-- Whether a value is read back as written, nested no more deeply than given. -/
structure FitsIn (v : Value) (depth : Nat) : Prop where
  legible : v.Legible
  shallow : v.nesting ≤ depth

/-- A value that fits below the limit is read back from its text. -/
theorem FitsIn.read?_compact (h : v.FitsIn nestingLimit) : read? v.compact = some v :=
  Value.read?_compact h.legible h.shallow

@[simp]
theorem fitsIn_null : null.FitsIn depth :=
  ⟨trivial, Nat.zero_le _⟩

@[simp]
theorem fitsIn_str (s : String) : (str s).FitsIn depth :=
  ⟨trivial, Nat.zero_le _⟩

theorem fitsIn_float {x : Binary64} (h : x.ReadsBack) : (float x).FitsIn depth :=
  ⟨h, Nat.zero_le _⟩

theorem fitsIn_count {n : Nat} (h : n < Nat.pow 2 64) : (toValue n).FitsIn depth := by
  refine ⟨⟨?_, ?_⟩, Nat.zero_le _⟩
  · exact Int.le_trans (by decide) (Int.natCast_nonneg n)
  · exact Int.ofNat_lt.2 h

/-- A sequence fits if each element does. -/
theorem fitsIn_items (h : ∀ v ∈ items, v.FitsIn depth) :
    LegibleItems items ∧ nestingItems items ≤ depth := by
  induction items with
  | nil => exact ⟨trivial, Nat.zero_le _⟩
  | cons v items ih =>
      obtain ⟨hv, hitems⟩ := List.forall_mem_cons.1 h
      obtain ⟨hlegible, hshallow⟩ := ih hitems
      exact ⟨⟨hv.legible, hlegible⟩, Nat.max_le.2 ⟨hv.shallow, hshallow⟩⟩

theorem fitsIn_fields (h : ∀ f ∈ fields, f.2.FitsIn depth) :
    LegibleFields fields ∧ nestingFields fields ≤ depth := by
  induction fields with
  | nil => exact ⟨trivial, Nat.zero_le _⟩
  | cons f fields ih =>
      obtain ⟨hf, hfields⟩ := List.forall_mem_cons.1 h
      obtain ⟨hlegible, hshallow⟩ := ih hfields
      exact ⟨⟨hf.legible, hlegible⟩, Nat.max_le.2 ⟨hf.shallow, hshallow⟩⟩

/-- A sequence takes one level more than its elements. -/
theorem fitsIn_arr (h : ∀ v ∈ items, v.FitsIn depth) : (arr items).FitsIn (depth + 1) :=
  ⟨(fitsIn_items h).1, Nat.succ_le_succ (fitsIn_items h).2⟩

/-- So does a map. -/
theorem fitsIn_obj (h : ∀ f ∈ fields, f.2.FitsIn depth) : (obj fields).FitsIn (depth + 1) :=
  ⟨(fitsIn_fields h).1, Nat.succ_le_succ (fitsIn_fields h).2⟩

variable {α : Type} [ToValue α]

/-- A list of records is a sequence of them. -/
theorem fitsIn_list {xs : List α} (h : ∀ a ∈ xs, (toValue a).FitsIn depth) :
    (toValue xs).FitsIn (depth + 1) :=
  fitsIn_arr (List.forall_mem_map.2 h)

theorem fitsIn_option {o : Option α} (h : ∀ a ∈ o, (toValue a).FitsIn depth) :
    (toValue o).FitsIn depth := by
  cases o with
  | none => exact fitsIn_null
  | some a => exact h a rfl

end Value

open Value

variable {depth : Nat}

@[simp]
theorem fitsIn_text (s : String) : (toValue s).FitsIn depth :=
  fitsIn_str s

@[simp]
theorem fitsIn_optional_text (o : Option String) : (toValue o).FitsIn depth :=
  fitsIn_option fun s _ => fitsIn_str s

@[simp]
theorem Instant.fitsIn_toValue (t : Instant) : (toValue t).FitsIn depth :=
  fitsIn_str _

theorem Participant.fitsIn_toValue (p : Participant) : (toValue p).FitsIn (depth + 1) :=
  fitsIn_obj (by simp)

/-- Only the amount of a case can fail to be read back. -/
theorem CaseData.fitsIn_toValue {d : CaseData} (amount : d.amount.ReadsBack) :
    (toValue d).FitsIn (depth + 1) := by
  have hamount : (toValue d.amount).FitsIn depth := fitsIn_float amount
  exact fitsIn_obj (by simp [hamount])

theorem CaseDetails.fitsIn_toValue {d : CaseDetails} (amount : d.data.amount.ReadsBack) :
    (toValue d).FitsIn (depth + 2) := by
  have hdata : (toValue d.data).FitsIn (depth + 1) := CaseData.fitsIn_toValue amount
  exact fitsIn_obj (by simp [hdata, Participant.fitsIn_toValue])

theorem Activity.fitsIn_toValue {a : Activity} (id : a.id < Nat.pow 2 64) :
    (toValue a).FitsIn (depth + 1) := by
  have hid : (toValue a.id).FitsIn depth := fitsIn_count id
  exact fitsIn_obj (by simp [hid])

theorem Action.fitsIn_toValue (a : Action) : (toValue a).FitsIn (depth + 1) :=
  fitsIn_obj (by simp)

/-- The choices of an interaction are nested deepest. -/
theorem Interaction.fitsIn_toValue (i : Interaction) : (toValue i).FitsIn (depth + 4) := by
  have hactions : (toValue i.actions).FitsIn (depth + 2) :=
    fitsIn_list fun a _ => a.fitsIn_toValue
  have hpayload : (obj [("actions", toValue i.actions)]).FitsIn (depth + 3) :=
    fitsIn_obj (by simp [hactions])
  exact fitsIn_obj (by simp [hpayload])

/-! ## Records that fit -/

/-- Whether the numbers of a case are read back as written. -/
structure Case.Readable (k : Case) : Prop where
  amount : k.details.data.amount.ReadsBack
  ids : ∀ a ∈ k.activities, a.id < Nat.pow 2 64

theorem Case.fitsIn_toValue {k : Case} (h : k.Readable) : (toValue k).FitsIn (depth + 5) := by
  have hdetails : (toValue k.details).FitsIn (depth + 4) := CaseDetails.fitsIn_toValue h.amount
  have hactivities : (toValue k.activities).FitsIn (depth + 4) :=
    fitsIn_list fun a ha => Activity.fitsIn_toValue (h.ids a ha)
  have hinteraction : (toValue k.interaction).FitsIn (depth + 4) :=
    fitsIn_option fun i _ => i.fitsIn_toValue
  exact fitsIn_obj (by simp [hdetails, hactivities, hinteraction])

def Request.Readable (r : Request) : Prop :=
  ∀ n ∈ r.timeout, n < Nat.pow 2 64

theorem Request.fitsIn_toValue {r : Request} (h : r.Readable) :
    (toValue r).FitsIn (depth + 3) := by
  have hactions : (toValue r.actions).FitsIn (depth + 2) :=
    fitsIn_list fun a _ => a.fitsIn_toValue
  have hurl : ∀ f ∈ entryFor "submit_url" r.submitUrl, f.2.FitsIn (depth + 2) := by
    cases r.submitUrl <;> simp [entryFor]
  have htimeout : ∀ f ∈ entryFor "timeout_seconds" r.timeout, f.2.FitsIn (depth + 2) := by
    cases hnone : r.timeout with
    | none => simp [entryFor]
    | some n => simpa [entryFor] using fitsIn_count (h n hnone)
  refine fitsIn_obj ?_
  simp only [List.forall_mem_append]
  exact ⟨⟨by simp [hactions], hurl⟩, htimeout⟩

theorem Signal.fitsIn_toValue (s : Signal) : (toValue s).FitsIn (depth + 1) :=
  fitsIn_obj (by simp)

/-- Whether the free-form value of an entry is read back as written, one level inside the entry. -/
def JournalEntry.Readable (e : JournalEntry) : Prop :=
  ∀ v ∈ e.free?, v.FitsIn (nestingLimit - 1)

/-- What an entry holds freely decides how deep it is. -/
theorem JournalEntry.fitsIn_toValue {e : JournalEntry} (h : ∀ v ∈ e.free?, v.FitsIn (depth + 1)) :
    (toValue e).FitsIn (depth + 2) := by
  refine fitsIn_obj ?_
  cases e with
  | started caseId name version payload t => simp [h payload rfl]
  | signalConsumed stepId signal => simp [signal.fitsIn_toValue]
  | activityCompleted stepId output t => simp [h output rfl]
  | completed status t => simp
  | failed error t => simp

theorem Transition.fitsIn_toValue (t : Transition) : (toValue t).FitsIn (depth + 1) :=
  fitsIn_obj (by simp)

/-- Whether the configurations of a process are read back as written, three levels inside it. -/
def Definition.Readable (d : Definition) : Prop :=
  ∀ s ∈ d.steps, (obj s.configuration).FitsIn (nestingLimit - 3)

/-- So does the configuration of a step. -/
theorem StepDefinition.fitsIn_toValue {s : StepDefinition}
    (h : (obj s.configuration).FitsIn (depth + 2)) : (toValue s).FitsIn (depth + 3) := by
  have htransitions : (toValue s.transitions).FitsIn (depth + 2) :=
    fitsIn_list fun t _ => t.fitsIn_toValue
  exact fitsIn_obj (by simp [h, htransitions])

/-- A process is nested as deep as the deepest configuration, and five levels more. -/
theorem Definition.fitsIn_toValue {d : Definition}
    (h : ∀ s ∈ d.steps, (obj s.configuration).FitsIn (depth + 2)) :
    (toValue d).FitsIn (depth + 5) := by
  have hsteps : (toValue d.steps).FitsIn (depth + 4) :=
    fitsIn_list fun s hs => StepDefinition.fitsIn_toValue (h s hs)
  exact fitsIn_obj (by simp [hsteps])

/-! ## Reading records back -/

namespace Decoder

variable {α : Type} [ToValue α] {d : Decoder α} {Sound Readable : α → Prop} {a : α} {v : Value}

/-- Whether a decoder inverts the encoding: of sound values in documents, and of those that are
readable as well in texts.  What it accepts at all is sound, and accepted again in its encoding. -/
structure Faithful (d : Decoder α) (Sound Readable : α → Prop) : Prop where
  encoded : ∀ a, Sound a → d.decode (toValue a) = .ok a
  accepted : ∀ v a, d.decode v = .ok a → Sound a
  again : ∀ v a, d.decode v = .ok a → d.decode (toValue a) = .ok a
  text : ∀ a, Sound a → Readable a → d.ofText? (toValue a).compact = some a

/-- What fits is read back from the line that is written for it. -/
theorem ofText?_compact (fits : (toValue a).FitsIn nestingLimit)
    (h : d.decode (toValue a) = .ok a) : d.ofText? (toValue a).compact = some a := by
  rw [ofText?, fits.read?_compact, Option.bind_some, h]
  rfl

/-- Three facts about a decoder make it faithful. -/
theorem faithful_of (encoded : ∀ a, Sound a → d.decode (toValue a) = .ok a)
    (accepted : ∀ v a, d.decode v = .ok a → Sound a)
    (fits : ∀ a, Readable a → (toValue a).FitsIn nestingLimit) : d.Faithful Sound Readable where
  encoded := encoded
  accepted := accepted
  again v a h := encoded a (accepted v a h)
  text a sound readable := ofText?_compact (fits a readable) (encoded a sound)

end Decoder

/-- Cases are read back. -/
theorem Case.faithful : decoder.Faithful Dated Readable :=
  Decoder.faithful_of (fun _ => decode_toValue) (fun _ _ => dated_of_decode)
    fun _ => fitsIn_toValue

/-- Journal entries are read back. -/
theorem JournalEntry.faithful : decoder.Faithful Sound Readable :=
  Decoder.faithful_of (fun _ => decode_toValue) (fun _ _ => sound_of_decode)
    fun _ => fitsIn_toValue

/-- Processes are read back. -/
theorem Definition.faithful : decoder.Faithful Canonical Readable :=
  Decoder.faithful_of (fun _ => decode_toValue) (fun _ _ => canonical_of_decode)
    fun _ => fitsIn_toValue

/-- Requests are read back. -/
theorem Request.faithful : decoder.Faithful (fun _ => True) Readable :=
  Decoder.faithful_of (fun r _ => r.decode_toValue) (fun _ _ _ => trivial)
    fun _ => fitsIn_toValue

/-- A sound entry is read back from the line that is written for it. -/
theorem JournalEntry.readsBack {e : JournalEntry} (sound : e.Sound) (readable : e.Readable) :
    e.ReadsBack := by
  have hread := faithful.text e sound readable
  rw [ReadsBack, Journal.entryOfLine?, Journal.lineText, String.ofList_toList]
  exact hread

/-- Cases, journal entries, processes and requests are read back from what they are encoded as,
whatever stands in the free-form values of an entry or a configuration. -/
theorem records_read_back :
    Case.decoder.Faithful Case.Dated Case.Readable ∧
    JournalEntry.decoder.Faithful JournalEntry.Sound JournalEntry.Readable ∧
    Definition.decoder.Faithful Definition.Canonical Definition.Readable ∧
    Request.decoder.Faithful (fun _ => True) Request.Readable :=
  ⟨Case.faithful, JournalEntry.faithful, Definition.faithful, Request.faithful⟩

/-- An entry is read back whose payload has a number and a tag of its own. -/
theorem records_read_back_of_tagged_payload :
    let e := JournalEntry.started "c1" "p" "1"
      (.obj [("amount", .float ⟨0x4087700000000000⟩), ("event", .str "completed")]) ⟨0, 0⟩
    e.Sound ∧ e.Readable ∧ JournalEntry.decoder.ofText? (toValue e).compact = some e := by
  intro e
  have hamount : Binary64.ReadsBack ⟨0x4087700000000000⟩ := by decide +kernel
  have sound : e.Sound := ⟨⟨by decide, by decide⟩, by rintro _ ⟨⟩; decide⟩
  have readable : e.Readable := by
    rintro _ ⟨⟩
    exact fitsIn_obj (by simp [fitsIn_float hamount])
  exact ⟨sound, readable, records_read_back.2.1.text e sound readable⟩

end Casework
