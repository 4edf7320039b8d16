import Casework.Definition.Basic
import Casework.HumanInput.Request
import Casework.Journal.Entry
import Casework.Proofs.Json.Canonical
import Casework.Proofs.Json.Readback
import Casework.Proofs.Json.Records
import Casework.Proofs.Time.Stamps

/-!
# Round trips — records are read back from their documents

A record is read back if its instants have a date and the free-form values in it are in canonical
form; and what its decoder accepts is of that kind, whatever it was read from.

* `Instant.decode_toValue`, `Instant.inCalendar_of_decode` : instants;
* `Case.Dated`, `Case.decode_toValue`, `Case.dated_of_decode` : cases;
* `JournalEntry.Sound`, `JournalEntry.decode_toValue`, `JournalEntry.sound_of_decode` : entries of
  journals, whatever stands in their free-form values;
* `Definition.Canonical`, `Definition.decode_toValue`, `Definition.canonical_of_decode` : processes;
* `Request.decode_toValue` : requests for a decision.
-/

namespace Casework

open Decoder Slots

/-! ## Parts of cases -/

/-- An instant within the calendar is read back from its stamp. -/
theorem Instant.decode_toValue {t : Instant} (h : t.InCalendar) :
    Instant.decoder.decode (toValue t) = .ok t := by
  simp only [decoder, toValue, ofStamp?_stamp h]

/-- A stamp that is read lies within the calendar. -/
theorem Instant.inCalendar_of_decode {v : Value} {t : Instant}
    (h : Instant.decoder.decode v = .ok t) : t.InCalendar := by
  cases v with
  | str s =>
      simp only [decoder] at h
      split at h
      · next t' hread =>
          cases h
          exact inCalendar_of_ofStamp? hread
      · cases h
  | _ => cases h

theorem decode_optional_text (o : Option String) : text.option.decode (toValue o) = .ok o := by
  refine decode_option ?_
  intro s _
  exact ⟨Value.noConfusion, rfl⟩

/-- A participant is read back. -/
theorem Participant.decode_toValue (p : Participant) : decoder.decode (toValue p) = .ok p := by
  obtain ⟨name, email⟩ := p
  exact decode_record (reads_field rfl rfl |>.map mk
    |>.seq (reads_field rfl (decode_optional_text email)))

/-- The data of a case are read back. -/
theorem CaseData.decode_toValue (d : CaseData) : decoder.decode (toValue d) = .ok d := by
  obtain ⟨amount, currency, category, summary, policyCheck, riskScore⟩ := d
  exact decode_record (reads_field rfl rfl
    |>.map (fun amount currency category summary policyCheck riskScore =>
      CaseData.mk amount currency category ⟨summary, policyCheck, riskScore⟩)
    |>.seq (reads_field rfl rfl) |>.seq (reads_field rfl rfl) |>.seq (reads_field rfl rfl)
    |>.seq (reads_field rfl rfl) |>.seq (reads_field rfl rfl))

/-- The details of a case are read back if both times have a date. -/
theorem CaseDetails.decode_toValue {d : CaseDetails} (created : d.createdAt.InCalendar)
    (updated : d.updatedAt.InCalendar) : decoder.decode (toValue d) = .ok d := by
  obtain ⟨caseId, title, status, assignee, submitter, createdAt, updatedAt, data⟩ := d
  exact decode_record (reads_field rfl rfl |>.map mk |>.seq (reads_field rfl rfl)
    |>.seq (reads_field rfl rfl) |>.seq (reads_field rfl assignee.decode_toValue)
    |>.seq (reads_field rfl submitter.decode_toValue)
    |>.seq (reads_field rfl (Instant.decode_toValue created))
    |>.seq (reads_field rfl (Instant.decode_toValue updated))
    |>.seq (reads_field rfl data.decode_toValue))

/-- The details that are read have dates. -/
theorem CaseDetails.dated_of_decode {v : Value} {d : CaseDetails}
    (h : decoder.decode v = .ok d) : d.createdAt.InCalendar ∧ d.updatedAt.InCalendar := by
  rcases exists_of_decode_record h with ⟨src, -, hall⟩
  -- The fields, from the last one back to the first.
  rcases found_seq hall with ⟨_, data, h₇, -, rfl⟩
  rcases found_seq h₇ with ⟨_, updatedAt, h₆, hupdated, rfl⟩
  rcases found_seq h₆ with ⟨_, createdAt, h₅, hcreated, rfl⟩
  rcases found_seq h₅ with ⟨_, submitter, h₄, -, rfl⟩
  rcases found_seq h₄ with ⟨_, assignee, h₃, -, rfl⟩
  rcases found_seq h₃ with ⟨_, status, h₂, -, rfl⟩
  rcases found_seq h₂ with ⟨_, title, h₁, -, rfl⟩
  rcases found_map h₁ with ⟨caseId, -, rfl⟩
  rcases found_required hcreated with ⟨w, -, hw⟩
  rcases found_required hupdated with ⟨w', -, hw'⟩
  exact ⟨Instant.inCalendar_of_decode hw, Instant.inCalendar_of_decode hw'⟩

/-- An activity is read back if its time has a date. -/
theorem Activity.decode_toValue {a : Activity} (dated : a.timestamp.InCalendar) :
    decoder.decode (toValue a) = .ok a := by
  obtain ⟨id, kind, sender, text, timestamp⟩ := a
  exact decode_record (reads_field rfl (decode_count "u64" id) |>.map mk
    |>.seq (reads_field rfl rfl) |>.seq (reads_field rfl rfl) |>.seq (reads_field rfl rfl)
    |>.seq (reads_field rfl (Instant.decode_toValue dated)))

/-- An activity that is read has a date. -/
theorem Activity.dated_of_decode {v : Value} {a : Activity} (h : decoder.decode v = .ok a) :
    a.timestamp.InCalendar := by
  rcases exists_of_decode_record h with ⟨src, -, hall⟩
  rcases found_seq hall with ⟨_, timestamp, h₄, htimestamp, rfl⟩
  rcases found_seq h₄ with ⟨_, text, h₃, -, rfl⟩
  rcases found_seq h₃ with ⟨_, sender, h₂, -, rfl⟩
  rcases found_seq h₂ with ⟨_, kind, h₁, -, rfl⟩
  rcases found_map h₁ with ⟨id, -, rfl⟩
  rcases found_required htimestamp with ⟨w, -, hw⟩
  exact Instant.inCalendar_of_decode hw

/-- A choice is read back. -/
theorem Action.decode_toValue (a : Action) : decoder.decode (toValue a) = .ok a := by
  obtain ⟨label, value, style⟩ := a
  exact decode_record (reads_field rfl rfl |>.map mk |>.seq (reads_field rfl rfl)
    |>.seq (reads_field rfl rfl))

/-- An interaction is read back. -/
theorem Interaction.decode_toValue (i : Interaction) : decoder.decode (toValue i) = .ok i := by
  obtain ⟨id, kind, prompt, actions, submitUrl⟩ := i
  have hactions : Action.decoder.list.decode (toValue actions) = .ok actions :=
    decode_list fun a _ => a.decode_toValue
  have hpayload : payloadDecoder.decode (.obj [("actions", toValue actions)]) = .ok actions :=
    decode_record (reads_field rfl hactions)
  exact decode_record (reads_field rfl rfl |>.map mk |>.seq (reads_field rfl rfl)
    |>.seq (reads_field rfl rfl) |>.seq (reads_field rfl hpayload) |>.seq (reads_field rfl rfl))

/-! ## Cases -/

structure Case.Dated (k : Case) : Prop where
  created : k.details.createdAt.InCalendar
  updated : k.details.updatedAt.InCalendar
  activities : ∀ a ∈ k.activities, a.timestamp.InCalendar

/-- A case is read back if all its times have dates. -/
theorem Case.decode_toValue {k : Case} (dated : k.Dated) : decoder.decode (toValue k) = .ok k := by
  obtain ⟨details, activities, interaction⟩ := k
  have hactivities : Activity.decoder.list.decode (toValue activities) = .ok activities :=
    decode_list fun a ha => Activity.decode_toValue (dated.activities a ha)
  have hinteraction : Interaction.decoder.option.decode (toValue interaction) = .ok interaction :=
    decode_option fun i _ => ⟨Value.noConfusion, i.decode_toValue⟩
  exact decode_record
    (reads_field rfl (CaseDetails.decode_toValue dated.created dated.updated) |>.map mk
      |>.seq (reads_field rfl hactivities)
      |>.seq (reads_field rfl hinteraction))

/-- A case that is read has dates throughout. -/
theorem Case.dated_of_decode {v : Value} {k : Case} (h : decoder.decode v = .ok k) : k.Dated := by
  rcases exists_of_decode_record h with ⟨src, -, hall⟩
  rcases found_seq hall with ⟨_, interaction, h₂, -, rfl⟩
  rcases found_seq h₂ with ⟨_, activities, h₁, hactivities, rfl⟩
  rcases found_map h₁ with ⟨details, hdetails, rfl⟩
  rcases found_required hdetails with ⟨w, -, hw⟩
  rcases found_required hactivities with ⟨ws, -, hws⟩
  obtain ⟨created, updated⟩ := CaseDetails.dated_of_decode hw
  refine ⟨created, updated, ?_⟩
  intro a ha
  rcases exists_of_decode_list hws a ha with ⟨w', -, hw'⟩
  exact Activity.dated_of_decode hw'

/-! ## Journal entries -/

/-- A signal is read back if its time has a date. -/
theorem Signal.decode_toValue {s : Signal} (dated : s.receivedAt.InCalendar) :
    decoder.decode (toValue s) = .ok s := by
  obtain ⟨id, name, value, receivedAt⟩ := s
  exact decode_record (reads_field rfl rfl |>.map mk |>.seq (reads_field rfl rfl)
    |>.seq (reads_field rfl rfl) |>.seq (reads_field rfl (Instant.decode_toValue dated)))

theorem Signal.dated_of_decode {v : Value} {s : Signal} (h : decoder.decode v = .ok s) :
    s.receivedAt.InCalendar := by
  rcases exists_of_decode_record h with ⟨src, -, hall⟩
  rcases found_seq hall with ⟨_, receivedAt, h₃, hreceived, rfl⟩
  rcases found_seq h₃ with ⟨_, value, h₂, -, rfl⟩
  rcases found_seq h₂ with ⟨_, name, h₁, -, rfl⟩
  rcases found_map h₁ with ⟨id, -, rfl⟩
  rcases found_required hreceived with ⟨w, -, hw⟩
  exact Instant.inCalendar_of_decode hw

namespace JournalEntry

/-- The value that a caller or a collaborator handed over. -/
def free? : JournalEntry → Option Value
  | .started _ _ _ payload _ => some payload
  | .activityCompleted _ output _ => some output
  | _ => none

/-- Whether the instant of an entry has a date and its free-form value is in canonical form. -/
structure Sound (e : JournalEntry) : Prop where
  dated : e.time.InCalendar
  canonical : ∀ v ∈ e.free?, v.canonical = v

/-- The other entries of a map stay as they are, whatever they are. -/
theorem splitTag_of_absent {tag : Option Kind} {fields : Fields}
    (h : fields.hasKey "event" = false) : splitTag tag fields = .ok (tag, fields) := by
  induction fields with
  | nil => rfl
  | cons f rest ih =>
      obtain ⟨key, v⟩ := f
      simp only [Fields.hasKey, List.any_cons, Bool.or_eq_false_iff, beq_eq_false_iff_ne] at h
      rw [splitTag, if_neg h.1, ih h.2]
      rfl

/-- An entry is read from the fields behind its tag. -/
theorem decode_tagged {k : Kind} {fields : Fields} (h : fields.hasKey "event" = false) :
    decoder.decode (.obj (("event", .str k.name) :: fields)) =
      (bodyDecoder k).decode (.obj fields) := by
  have htag : decodeKind (.str k.name) = .ok k := by
    rw [decodeKind, Kind.ofName?_name]
  have hsplit : splitTag none (("event", .str k.name) :: fields) = .ok (some k, fields) := by
    rw [splitTag, if_pos rfl, htag]
    exact splitTag_of_absent h
  simp only [decoder, hsplit]
  rfl

/-- Free values are read back in canonical form. -/
theorem decode_free {v : Value} (h : v.canonical = v) : Decoder.free.decode v = .ok v :=
  congrArg Except.ok h

/-- A sound entry of any kind is read back. -/
theorem decode_toValue {e : JournalEntry} (sound : e.Sound) :
    decoder.decode (toValue e) = .ok e := by
  have hdated : ∀ {t : Instant}, e.time = t → Instant.decoder.decode (toValue t) = .ok t := by
    rintro t rfl
    exact Instant.decode_toValue sound.dated
  -- No field behind the tag is called `event`; what is called so inside a free-form value is not
  -- looked at.
  cases e with
  | started caseId name version payload t =>
      have hpayload := decode_free (sound.canonical payload rfl)
      refine (decode_tagged (k := .started) rfl).trans ?_
      exact decode_recordWith (reads_field rfl rfl |>.map started |>.seq (reads_field rfl rfl)
        |>.seq (reads_field rfl rfl) |>.seq (reads_field rfl hpayload)
        |>.seq (reads_field rfl (hdated rfl)))
  | signalConsumed stepId signal =>
      refine (decode_tagged (k := .signalConsumed) rfl).trans ?_
      exact decode_recordWith (reads_field rfl rfl |>.map signalConsumed
        |>.seq (reads_field rfl (Signal.decode_toValue sound.dated)))
  | activityCompleted stepId output t =>
      have houtput := decode_free (sound.canonical output rfl)
      refine (decode_tagged (k := .activityCompleted) rfl).trans ?_
      exact decode_recordWith (reads_field rfl rfl |>.map activityCompleted
        |>.seq (reads_field rfl houtput) |>.seq (reads_field rfl (hdated rfl)))
  | completed status t =>
      refine (decode_tagged (k := .completed) rfl).trans ?_
      exact decode_recordWith (reads_field rfl rfl |>.map completed
        |>.seq (reads_field rfl (hdated rfl)))
  | failed error t =>
      refine (decode_tagged (k := .failed) rfl).trans ?_
      exact decode_recordWith (reads_field rfl rfl |>.map failed
        |>.seq (reads_field rfl (hdated rfl)))

/-- A free value that is read is canonical. -/
theorem canonical_of_decode_free {v w : Value} (h : Decoder.free.decode v = .ok w) :
    w.canonical = w := by
  obtain rfl := Except.ok.inj h
  exact v.canonical_canonical

/-- What the decoder of a kind accepts is sound. -/
theorem sound_of_decode_body {k : Kind} {v : Value} {e : JournalEntry}
    (h : (bodyDecoder k).decode v = .ok e) : e.Sound := by
  -- Of all fields only the instant and the free-form value are restricted.
  cases k with
  | started =>
      rcases exists_of_decode_recordWith h with ⟨src, -, hall⟩
      rcases found_seq hall with ⟨_, t, h₄, ht, rfl⟩
      rcases found_seq h₄ with ⟨_, payload, h₃, hpayload, rfl⟩
      rcases found_seq h₃ with ⟨_, version, h₂, -, rfl⟩
      rcases found_seq h₂ with ⟨_, name, h₁, -, rfl⟩
      rcases found_map h₁ with ⟨caseId, -, rfl⟩
      rcases found_required ht with ⟨w, -, hw⟩
      rcases found_required hpayload with ⟨w', -, hw'⟩
      exact ⟨Instant.inCalendar_of_decode hw, by rintro _ ⟨⟩; exact canonical_of_decode_free hw'⟩
  | signalConsumed =>
      rcases exists_of_decode_recordWith h with ⟨src, -, hall⟩
      rcases found_seq hall with ⟨_, signal, h₁, hsignal, rfl⟩
      rcases found_map h₁ with ⟨stepId, -, rfl⟩
      rcases found_required hsignal with ⟨w, -, hw⟩
      exact ⟨Signal.dated_of_decode hw, nofun⟩
  | activityCompleted =>
      rcases exists_of_decode_recordWith h with ⟨src, -, hall⟩
      rcases found_seq hall with ⟨_, t, h₂, ht, rfl⟩
      rcases found_seq h₂ with ⟨_, output, h₁, houtput, rfl⟩
      rcases found_map h₁ with ⟨stepId, -, rfl⟩
      rcases found_required ht with ⟨w, -, hw⟩
      rcases found_required houtput with ⟨w', -, hw'⟩
      exact ⟨Instant.inCalendar_of_decode hw, by rintro _ ⟨⟩; exact canonical_of_decode_free hw'⟩
  | completed | failed =>
      rcases exists_of_decode_recordWith h with ⟨src, -, hall⟩
      rcases found_seq hall with ⟨_, t, h₁, ht, rfl⟩
      rcases found_map h₁ with ⟨text, -, rfl⟩
      rcases found_required ht with ⟨w, -, hw⟩
      exact ⟨Instant.inCalendar_of_decode hw, nofun⟩

/-- An entry that was accepted was read behind some tag. -/
theorem exists_body_of_decode {v : Value} {e : JournalEntry} (h : decoder.decode v = .ok e) :
    ∃ k w, (bodyDecoder k).decode w = .ok e := by
  cases v with
  | obj fields =>
      cases hsplit : splitTag none fields with
      | error f => simp [decoder, hsplit, bind, Except.bind] at h
      | ok split =>
          obtain ⟨tag, others⟩ := split
          cases tag with
          | none => simp [decoder, hsplit, bind, Except.bind] at h
          | some k => exact ⟨k, .obj others, by simpa [decoder, hsplit, bind, Except.bind] using h⟩
  | arr vs =>
      cases vs with
      | nil => cases h
      | cons v others =>
          cases hkind : decodeKind v with
          | error f => simp [decoder, hkind, bind, Except.bind] at h
          | ok k => exact ⟨k, .arr others, by simpa [decoder, hkind, bind, Except.bind] using h⟩
  | _ => cases h

/-- An entry that is read is sound. -/
theorem sound_of_decode {v : Value} {e : JournalEntry} (h : decoder.decode v = .ok e) :
    e.Sound := by
  rcases exists_body_of_decode h with ⟨k, w, hbody⟩
  exact sound_of_decode_body hbody

end JournalEntry

/-! ## Definitions -/

/-- A transition is read back. -/
theorem Transition.decode_toValue (t : Transition) : decoder.decode (toValue t) = .ok t := by
  obtain ⟨onSignal, nextStep⟩ := t
  exact decode_record (reads_field rfl (decode_optional_text onSignal) |>.map mk
    |>.seq (reads_field rfl rfl))

/-- A step is read back if its configuration is canonical. -/
theorem StepDefinition.decode_toValue {s : StepDefinition}
    (canonical : Value.canonicalFields s.configuration = s.configuration) :
    decoder.decode (toValue s) = .ok s := by
  obtain ⟨stepId, stepType, configuration, transitions⟩ := s
  have htable : Decoder.table.decode (.obj configuration) = .ok configuration :=
    congrArg Except.ok canonical
  exact decode_record (reads_field rfl rfl |>.map mk |>.seq (reads_field rfl rfl)
    |>.seq (reads_field rfl htable)
    |>.seq (reads_field rfl (decode_list fun t _ => t.decode_toValue)))

theorem StepDefinition.canonical_of_decode {v : Value} {s : StepDefinition}
    (h : decoder.decode v = .ok s) :
    Value.canonicalFields s.configuration = s.configuration := by
  rcases exists_of_decode_record h with ⟨src, -, hall⟩
  rcases found_seq hall with ⟨_, transitions, h₃, -, rfl⟩
  rcases found_seq h₃ with ⟨_, configuration, h₂, hconfiguration, rfl⟩
  rcases found_seq h₂ with ⟨_, stepType, h₁, -, rfl⟩
  rcases found_map h₁ with ⟨stepId, -, rfl⟩
  rcases found_withDefault hconfiguration with ⟨w, -, hw⟩ | rfl
  · cases w with
    | obj fields =>
        obtain rfl := Except.ok.inj hw
        exact Value.canonicalFields_canonicalFields fields
    | _ => cases hw
  · rfl

/-- Whether the configurations of a process are in canonical form. -/
def Definition.Canonical (d : Definition) : Prop :=
  ∀ s ∈ d.steps, Value.canonicalFields s.configuration = s.configuration

/-- A process is read back if all its configurations are canonical. -/
theorem Definition.decode_toValue {d : Definition} (canonical : d.Canonical) :
    decoder.decode (toValue d) = .ok d := by
  obtain ⟨name, version, initialStep, steps⟩ := d
  have hsteps : StepDefinition.decoder.list.decode (toValue steps) = .ok steps :=
    decode_list fun s hs => StepDefinition.decode_toValue (canonical s hs)
  exact decode_record (reads_field rfl rfl |>.map mk |>.seq (reads_field rfl rfl)
    |>.seq (reads_field rfl rfl) |>.seq (reads_field rfl hsteps))

/-- A process that is read has canonical configurations. -/
theorem Definition.canonical_of_decode {v : Value} {d : Definition}
    (h : decoder.decode v = .ok d) : d.Canonical := by
  rcases exists_of_decode_record h with ⟨src, -, hall⟩
  rcases found_seq hall with ⟨_, steps, h₃, hsteps, rfl⟩
  rcases found_seq h₃ with ⟨_, initialStep, h₂, -, rfl⟩
  rcases found_seq h₂ with ⟨_, version, h₁, -, rfl⟩
  rcases found_map h₁ with ⟨name, -, rfl⟩
  rcases found_required hsteps with ⟨w, -, hw⟩
  intro s hs
  rcases exists_of_decode_list hw s hs with ⟨w', -, hw'⟩
  exact StepDefinition.canonical_of_decode hw'

/-! ## Requests -/

/-- An entry that is left out for none is read back. -/
theorem reads_optional {α : Type} [ToValue α] {name : String} {d : Decoder α} {fields : Fields}
    {o : Option α}
    (entry : (entriesUnder [name] 0 fields).map (·.2) = (o.map toValue).toList)
    (h : d.option.decode (toValue o) = .ok o) : (optional name d).Reads fields o := by
  cases o with
  | none => exact reads_absent (List.map_eq_nil_iff.1 entry)
  | some a =>
      rcases List.map_eq_singleton_iff.1 entry with ⟨⟨n, v⟩, hentry, rfl⟩
      exact reads_field hentry h

/-- A request is read back. -/
theorem Request.decode_toValue (r : Request) : decoder.decode (toValue r) = .ok r := by
  obtain ⟨id, caseId, prompt, actions, submitUrl, timeout⟩ := r
  have hactions : Action.decoder.list.decode (toValue actions) = .ok actions :=
    decode_list fun a _ => a.decode_toValue
  have htimeout : (count "u64").option.decode (toValue timeout) = .ok timeout :=
    decode_option fun n _ => ⟨Value.noConfusion, decode_count "u64" n⟩
  have hurl := decode_optional_text submitUrl
  -- Which entries there are depends on the two fields that may be left out.
  cases submitUrl <;> cases timeout <;>
    exact decode_record (reads_field rfl rfl |>.map mk |>.seq (reads_field rfl rfl)
      |>.seq (reads_field rfl rfl) |>.seq (reads_field rfl hactions)
      |>.seq (reads_optional rfl hurl) |>.seq (reads_optional rfl htimeout))

end Casework
