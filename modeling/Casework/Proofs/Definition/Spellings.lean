import Casework.Proofs.Json.RoundTrips
import Mathlib.Data.List.Forall2
import Mathlib.Data.List.Pairwise

/-!
# Spellings — the documents that a process can be read from

Some fields of a process have two spellings, and some may be left out where they say nothing.  Every
object of a document chooses for itself, and what it gives beyond the fields is not looked at.

* `Fields.under` : what stands under any of some keys;
* `FieldFormat`, `Format.Spells`, `Format.Object` : what may stand for the entries of an object;
* `Format.GivesTwice` : objects that give one field twice;
* `Transition.format`, `StepDefinition.format`, `Definition.format` : the objects of a process;
* `Definition.decode_of_object` : every spelling of a process is read as that process;
* `Definition.single_of_decode` : what is read as a process gives each field once at most;
* `Definition.decode_spellings` : both together.
-/

namespace Casework

open Decoder Slots

/-! ## Entries under some keys -/

namespace Fields

variable {fields fields' : Fields} {names : List String}

def entriesAt (names : List String) (fields : Fields) : Fields :=
  fields.filter fun e => names.contains e.1

def under (names : List String) (fields : Fields) : List Value :=
  (entriesAt names fields).map (·.2)

theorem entriesAt_cons_of_mem {e : String × Value} (h : e.1 ∈ names) (fields : Fields) :
    entriesAt names (e :: fields) = e :: entriesAt names fields :=
  List.filter_cons_of_pos (by simpa using h)

theorem entriesAt_cons_of_not_mem {e : String × Value} (h : e.1 ∉ names) (fields : Fields) :
    entriesAt names (e :: fields) = entriesAt names fields :=
  List.filter_cons_of_neg (by simpa using h)

/-- A reader finds what stands under the keys, with the places. -/
theorem map_entriesUnder (names : List String) (n : Nat) (fields : Fields) :
    (entriesUnder names n fields).map (·.2) = under names fields := by
  induction fields generalizing n with
  | nil => rfl
  | cons e rest ih =>
      obtain ⟨key, v⟩ := e
      by_cases h : key ∈ names
      · have hrest := ih (n + 1)
        simpa [entriesUnder, under, entriesAt, h] using hrest
      · have hrest := ih (n + 1)
        simpa [entriesUnder, under, entriesAt, h] using hrest

/-- The order of the entries does not matter for what stands alone under some keys. -/
theorem under_eq_singleton_of_perm {v : Value} (h : fields.Perm fields')
    (hv : under names fields = [v]) : under names fields' = [v] := by
  have hperm : (under names fields).Perm (under names fields') := (h.filter _).map _
  rw [hv] at hperm
  exact hperm.singleton_eq.symm

/-- Nor does it matter for keys under which there is nothing. -/
theorem under_eq_nil_of_perm (h : fields.Perm fields') (hnone : under names fields = []) :
    under names fields' = [] := by
  have hperm : (under names fields).Perm (under names fields') := (h.filter _).map _
  rw [hnone] at hperm
  exact hperm.nil_eq.symm

end Fields

/-! ## Fields with several spellings -/

structure FieldFormat where
  /-- The name and the other spellings. -/
  names : List String
  /-- What may be left out. -/
  blank : Option Value := none
  /-- What may stand in place of a value. -/
  Stands : Value → Value → Prop := Eq

abbrev Format := List FieldFormat

namespace Format

variable {f : Format} {field : FieldFormat} {encoded fields : Fields} {key : String} {v : Value}

def Separate (f : Format) : Prop :=
  f.Pairwise fun a b => ∀ key ∈ a.names, key ∉ b.names

/-- Entries with the keys of others in any spelling, without those that say nothing, and with more
under keys that belong to no field. -/
inductive Respelled (f : Format) : Fields → Fields → Prop
  | nil : Respelled f [] []
  | entry {field : FieldFormat} {key key' : String} {v v' : Value} {encoded fields : Fields}
      (known : field ∈ f) (name : key ∈ field.names) (name' : key' ∈ field.names)
      (stands : field.Stands v v') (rest : Respelled f encoded fields) :
      Respelled f ((key, v) :: encoded) ((key', v') :: fields)
  | leftOut {field : FieldFormat} {key : String} {v : Value} {encoded fields : Fields}
      (known : field ∈ f) (name : key ∈ field.names) (blank : field.blank = some v)
      (rest : Respelled f encoded fields) : Respelled f ((key, v) :: encoded) fields
  | added {key : String} {v : Value} {encoded fields : Fields}
      (unknown : ∀ field ∈ f, key ∉ field.names) (rest : Respelled f encoded fields) :
      Respelled f encoded ((key, v) :: fields)

def Spells (f : Format) (encoded fields : Fields) : Prop :=
  ∃ respelled, f.Respelled encoded respelled ∧ respelled.Perm fields

def Object (f : Format) (v w : Value) : Prop :=
  ∃ encoded fields, v = .obj encoded ∧ w = .obj fields ∧ f.Spells encoded fields

def Objects (f : Format) (v w : Value) : Prop :=
  ∃ vs ws, v = .arr vs ∧ w = .arr ws ∧ List.Forall₂ f.Object vs ws

/-- Whether a value is an object with two entries under spellings of one field. -/
def GivesTwice (f : Format) (v : Value) : Prop :=
  ∃ fields, v = .obj fields ∧ ∃ field ∈ f, ∃ e e' : String × Value,
    [e, e'].Sublist fields ∧ e.1 ∈ field.names ∧ e'.1 ∈ field.names

/-- A sequence of objects that stand for themselves stands for itself. -/
theorem objects_toValue {α : Type} [ToValue α] {xs : List α}
    (each : ∀ a ∈ xs, f.Object (toValue a) (toValue a)) : f.Objects (toValue xs) (toValue xs) := by
  refine ⟨_, _, rfl, rfl, ?_⟩
  rw [List.forall₂_same]
  intro v hv
  obtain ⟨a, ha, rfl⟩ := List.mem_map.1 hv
  exact each a ha

/-- A key belongs to one field only. -/
theorem Separate.eq_of_mem (separate : f.Separate) {a b : FieldFormat} (ha : a ∈ f) (hb : b ∈ f)
    (hkey : key ∈ a.names) (hkey' : key ∈ b.names) : a = b := by
  have hsymm : Std.Symm fun a b : FieldFormat => ∀ key ∈ a.names, key ∉ b.names :=
    ⟨fun a b h key hb ha => h key ha hb⟩
  by_contra hne
  exact separate.forall ha hb hne key hkey hkey'

/-- A field that was not given is not given. -/
theorem Respelled.under_eq_nil (separate : f.Separate) (h : f.Respelled encoded fields)
    (known : field ∈ f) (none : Fields.entriesAt field.names encoded = []) :
    Fields.under field.names fields = [] := by
  induction h with
  | nil => rfl
  | @entry other key key' v v' encoded fields known' name name' _ _ ih =>
      have hkey : key ∉ field.names := by
        intro hmem
        simp [Fields.entriesAt_cons_of_mem (e := (key, v)) hmem] at none
      have hkey' : key' ∉ field.names := by
        intro hmem
        exact hkey (separate.eq_of_mem known' known name' hmem ▸ name)
      rw [Fields.entriesAt_cons_of_not_mem hkey] at none
      rw [Fields.under, Fields.entriesAt_cons_of_not_mem hkey']
      exact ih none
  | @leftOut other key v encoded fields _ _ _ _ ih =>
      have hkey : key ∉ field.names := by
        intro hmem
        simp [Fields.entriesAt_cons_of_mem (e := (key, v)) hmem] at none
      rw [Fields.entriesAt_cons_of_not_mem hkey] at none
      exact ih none
  | added unknown _ ih =>
      rw [Fields.under, Fields.entriesAt_cons_of_not_mem (unknown field known)]
      exact ih none

/-- A field that was given once is given once, or left out. -/
theorem Respelled.under_of_single (separate : f.Separate) (h : f.Respelled encoded fields)
    (known : field ∈ f) (single : Fields.entriesAt field.names encoded = [(key, v)]) :
    (∃ w, Fields.under field.names fields = [w] ∧ field.Stands v w) ∨
      Fields.under field.names fields = [] ∧ field.blank = some v := by
  -- By the entries as they were written, each of which is spelled anew, left out or followed by
  -- others that are not known.
  induction h with
  | nil => cases single
  | @entry other key' key'' v' w encoded fields known' name name' stands rest ih =>
      by_cases hmem : key' ∈ field.names
      · -- This is the entry of the field; there is no other.
        obtain rfl := separate.eq_of_mem known' known name hmem
        rw [Fields.entriesAt_cons_of_mem hmem] at single
        obtain ⟨hentry, hrest⟩ := List.cons.inj single
        obtain ⟨-, rfl⟩ := Prod.mk.inj hentry
        have hnone := rest.under_eq_nil separate known hrest
        refine .inl ⟨w, ?_, stands⟩
        rw [Fields.under, Fields.entriesAt_cons_of_mem name', List.map_cons]
        exact congrArg (List.cons w) hnone
      · have hother : key'' ∉ field.names := by
          intro hmem'
          exact hmem (separate.eq_of_mem known' known name' hmem' ▸ name)
        rw [Fields.entriesAt_cons_of_not_mem hmem] at single
        rw [Fields.under, Fields.entriesAt_cons_of_not_mem hother]
        exact ih single
  | @leftOut other key' v' encoded fields known' name blank rest ih =>
      by_cases hmem : key' ∈ field.names
      · obtain rfl := separate.eq_of_mem known' known name hmem
        rw [Fields.entriesAt_cons_of_mem hmem] at single
        obtain ⟨hentry, hrest⟩ := List.cons.inj single
        obtain ⟨-, rfl⟩ := Prod.mk.inj hentry
        exact .inr ⟨rest.under_eq_nil separate known hrest, blank⟩
      · rw [Fields.entriesAt_cons_of_not_mem hmem] at single
        exact ih single
  | added unknown rest ih =>
      rw [Fields.under, Fields.entriesAt_cons_of_not_mem (unknown field known)]
      exact ih single

/-- Respelled entries have one entry for a field, or leave it out if it may be left out. -/
theorem Spells.under_of_single (separate : f.Separate) (h : f.Spells encoded fields)
    (known : field ∈ f) (single : Fields.entriesAt field.names encoded = [(key, v)]) :
    (∃ w, Fields.under field.names fields = [w] ∧ field.Stands v w) ∨
      Fields.under field.names fields = [] ∧ field.blank = some v := by
  obtain ⟨respelled, hrespelled, hperm⟩ := h
  rcases hrespelled.under_of_single separate known single with ⟨w, hw, stands⟩ | ⟨hnone, blank⟩
  · exact .inl ⟨w, Fields.under_eq_singleton_of_perm hperm hw, stands⟩
  · exact .inr ⟨Fields.under_eq_nil_of_perm hperm hnone, blank⟩

/-- An object that gives a field twice has two values for it. -/
theorem GivesTwice.two_le (h : f.GivesTwice (.obj fields)) :
    ∃ field ∈ f, 2 ≤ (Fields.under field.names fields).length := by
  obtain ⟨fields', heq, field, known, e, e', hsub, hname, hname'⟩ := h
  obtain rfl := Value.obj.inj heq
  refine ⟨field, known, ?_⟩
  have hboth : Fields.entriesAt field.names [e, e'] = [e, e'] := by
    rw [Fields.entriesAt_cons_of_mem hname, Fields.entriesAt_cons_of_mem hname']
    rfl
  have hlength := (hsub.filter fun e => field.names.contains e.1).length_le
  change (Fields.entriesAt field.names [e, e']).length ≤ _ at hlength
  rw [hboth] at hlength
  rw [Fields.under, List.length_map]
  exact hlength

end Format

/-! ## Reading fields with several spellings -/

namespace Slots

variable {α : Type} {fields : Fields} {a : α} {name : String} {aliases : List String}
variable {d : Decoder α} {absent : Findings α} {short : Option α} {i : Nat} {v : Value}

/-- A field is read from the only value under its spellings. -/
theorem reads_of_under (h : Fields.under (name :: aliases) fields = [v]) (hv : d.decode v = .ok a) :
    (field name aliases d absent short).Reads fields a := by
  rw [← Fields.map_entriesUnder _ 0] at h
  obtain ⟨⟨n, w⟩, hentry, rfl⟩ := List.map_eq_singleton_iff.1 h
  exact reads_field hentry hv

/-- A field that is left out reads as its default. -/
theorem reads_of_under_nil (h : Fields.under (name :: aliases) fields = []) :
    (field name aliases d (.of a) short).Reads fields a := by
  rw [← Fields.map_entriesUnder _ 0] at h
  exact reads_absent (List.map_eq_nil_iff.1 h)

/-- A field is read from any spelling of the entries that give it, if all that may stand for it is
read alike. -/
theorem reads_of_spells {f : Format} {encoded : Fields} {key : String} {blank : Option Value}
    {Stands : Value → Value → Prop} (separate : f.Separate) (spells : f.Spells encoded fields)
    (known : { names := name :: aliases, blank := blank, Stands := Stands } ∈ f)
    (single : Fields.entriesAt (name :: aliases) encoded = [(key, v)])
    (given : ∀ w, Stands v w → d.decode w = .ok a) (leftOut : blank = some v → absent = .of a) :
    (field name aliases d absent short).Reads fields a := by
  rcases spells.under_of_single separate known single with ⟨w, hw, hstands⟩ | ⟨hnone, hblank⟩
  · exact reads_of_under hw (given w hstands)
  · rw [leftOut hblank]
    exact reads_of_under_nil hnone

/-- A text is read from any spelling of the entries that give it. -/
theorem reads_text_of_spells {f : Format} {encoded : Fields} {key s : String}
    (separate : f.Separate) (spells : f.Spells encoded fields)
    (known : { names := name :: aliases } ∈ f)
    (single : Fields.entriesAt (name :: aliases) encoded = [(key, .str s)]) :
    (required name text aliases).Reads fields s := by
  refine reads_of_spells separate spells known single ?_ nofun
  rintro _ rfl
  rfl

end Slots

/-! ## Fields that were given once -/

def Value.elements : Value → List Value
  | .arr vs => vs
  | _ => []

/-- The elements of the sequence that a record has under a key, or at a place. -/
def Value.elementsAt (name : String) (i : Nat) : Value → List Value
  | .obj fields => (Fields.under [name] fields).flatMap elements
  | .arr vs => vs[i]?.toList.flatMap elements
  | _ => []

/-- What the fields of a record are read from, if they are read from this value. -/
inductive Source.Of : Value → Source → Prop
  | entries (fields : Fields) : Of (.obj fields) (.entries fields)
  | elements (vs : List Value) (expected : String) : Of (.arr vs) (.elements vs expected)

def Source.GivesOnce (names : List String) : Source → Prop
  | .entries fields => (Fields.under names fields).length ≤ 1
  | .elements _ _ => True

/-- A value that gives every field once gives none of them twice. -/
theorem Format.not_givesTwice {f : Format} {v : Value} {src : Source} (of : Source.Of v src)
    (once : ∀ field ∈ f, src.GivesOnce field.names) : ¬f.GivesTwice v := by
  intro htwice
  cases of with
  | entries fields =>
      obtain ⟨field, known, htwo⟩ := htwice.two_le
      have hone : (Fields.under field.names fields).length ≤ 1 := once field known
      omega
  | elements vs expected =>
      obtain ⟨fields, hobject, -⟩ := htwice
      cases hobject

namespace Decoder

variable {α : Type} {v : Value} {a : α} {s : Slots α} {d : Decoder α}

/-- The fields of a record were found in the map or in the sequence that the value is. -/
theorem source_of_decode_record {name : String} (h : (record name s).decode v = .ok a) :
    ∃ src, Source.Of v src ∧ (s.read src 0).found = some a := by
  cases v with
  | obj fields => exact ⟨_, .entries fields, found_of_toExcept h⟩
  | arr vs =>
      simp only [record, recordWith] at h
      cases hread : (s.read (.elements vs
          (expectedSequence ("struct " ++ name) s.shapes.length)) 0).toExcept
          (.wrongType (.arr vs) ("struct " ++ name)) with
      | error f => simp [hread, bind, Except.bind] at h
      | ok b =>
          simp only [hread, bind, Except.bind] at h
          split at h
          · cases h
          · cases h
            exact ⟨_, .elements vs _, found_of_toExcept hread⟩
  | _ => cases h

/-- What stands for a list of objects is read as that list. -/
theorem decode_list_of_objects [ToValue α] {f : Format} {xs : List α} {w : Value}
    (each : ∀ a ∈ xs, ∀ v, f.Object (toValue a) v → d.decode v = .ok a)
    (h : f.Objects (toValue xs) w) : d.list.decode w = .ok xs := by
  obtain ⟨vs, ws, hvs, rfl, hall⟩ := h
  obtain rfl := Value.arr.inj hvs
  rw [List.forall₂_map_left_iff] at hall
  clear hvs
  show d.items ws = .ok xs
  induction hall with
  | nil => rfl
  | @cons a v xs ws hobject _ ih =>
      have hrest := ih fun b hb => each b (List.mem_cons_of_mem a hb)
      rw [items, each a List.mem_cons_self v hobject, hrest]
      rfl

/-- What was decoded as a sequence has elements that decode. -/
theorem exists_of_mem_items {vs : List Value} {xs : List α} (h : d.items vs = .ok xs) :
    ∀ w ∈ vs, ∃ a, d.decode w = .ok a := by
  induction vs generalizing xs with
  | nil => simp
  | cons w vs ih =>
      rw [items] at h
      cases hw : d.decode w with
      | error f => simp [hw, bind, Except.bind] at h
      | ok b =>
          cases hrest : d.items vs with
          | error f => simp [hw, hrest, bind, Except.bind] at h
          | ok ys => exact List.forall_mem_cons.2 ⟨⟨b, hw⟩, ih hrest⟩

end Decoder

theorem Decoder.exists_of_mem_elements {α : Type} {d : Decoder α} {v w : Value} {xs : List α}
    (h : d.list.decode v = .ok xs) (hw : w ∈ v.elements) : ∃ a, d.decode w = .ok a := by
  cases v with
  | arr vs => exact exists_of_mem_items h w hw
  | _ => cases h

namespace Slots

variable {α : Type} {src : Source} {a : α} {name : String} {aliases : List String}
variable {d : Decoder α} {i : Nat}

/-- A field that was read from a map was given once at most. -/
theorem under_of_found {absent : Findings α} {short : Option α} {fields : Fields}
    (h : ((field name aliases d absent short).read (.entries fields) i).found = some a) :
    Fields.under (name :: aliases) fields = [] ∨
      ∃ v, Fields.under (name :: aliases) fields = [v] ∧ d.decode v = .ok a := by
  rw [← Fields.map_entriesUnder _ 0]
  simp only [field] at h
  split at h
  · next hentries => exact .inl (by rw [hentries]; rfl)
  · next n v more hentries =>
      rw [hentries]
      split at h
      · exact .inr ⟨v, rfl, found_decodeAt h⟩
      · cases h

/-- A field that was found stands there once, under one of its keys. -/
theorem givesOnce_of_found {absent : Findings α} {short : Option α}
    (h : ((field name aliases d absent short).read src i).found = some a) :
    src.GivesOnce (name :: aliases) := by
  cases src with
  | entries fields =>
      unfold Source.GivesOnce
      rcases under_of_found h with hnone | ⟨v, hone, -⟩
      · simp [hnone]
      · simp [hone]
  | elements items expected => trivial

/-- The elements of a list that was read were read. -/
theorem exists_of_mem_elementsAt {absent : Findings (List α)} {short : Option (List α)}
    {xs : List α} {v w : Value} (of : Source.Of v src)
    (h : ((field name [] d.list absent short).read src i).found = some xs)
    (hw : w ∈ v.elementsAt name i) : ∃ a, d.decode w = .ok a := by
  obtain ⟨part, hpart, hmem⟩ : ∃ part, d.list.decode part = .ok xs ∧ w ∈ part.elements := by
    cases of with
    | entries fields =>
        unfold Value.elementsAt at hw
        rcases under_of_found h with hnone | ⟨part, hone, hpart⟩
        · simp [hnone] at hw
        · exact ⟨part, hpart, by simpa [hone] using hw⟩
    | elements vs expected =>
        unfold Value.elementsAt at hw
        simp only [field] at h
        cases hat : vs[i]? with
        | none => simp [hat] at hw
        | some part =>
            simp only [hat] at h
            exact ⟨part, found_decodeAt h, by simpa [hat] using hw⟩
  exact exists_of_mem_elements hpart hmem

end Slots

/-! ## Transitions -/

namespace Transition

def format : Format :=
  [{ names := ["on_signal"], blank := some .null },
   { names := ["next_step", "next"] }]

theorem separate_format : format.Separate := by
  simp [Format.Separate, format]

/-- A transition as it is written is one of its spellings. -/
theorem object_toValue (t : Transition) : format.Object (toValue t) (toValue t) := by
  refine ⟨_, _, rfl, rfl, _, ?_, .refl _⟩
  exact .entry (.head _) (.head _) (.head _) rfl
    (.entry (.tail _ (.head _)) (.head _) (.head _) rfl .nil)

/-- Every spelling of a transition is read as that transition. -/
theorem decode_of_object {t : Transition} {w : Value} (h : format.Object (toValue t) w) :
    decoder.decode w = .ok t := by
  obtain ⟨encoded, fields, hencoded, rfl, hspells⟩ := h
  obtain rfl := Value.obj.inj hencoded
  obtain ⟨onSignal, nextStep⟩ := t
  have hsignal : (withDefault "on_signal" text.option none).Reads fields onSignal := by
    refine reads_of_spells separate_format hspells (.head _) rfl ?_ ?_
    · rintro _ rfl
      exact decode_optional_text onSignal
    · intro hblank
      cases onSignal with
      | none => rfl
      | some s => cases hblank
  have hnext : (required "next_step" text ["next"]).Reads fields nextStep :=
    reads_text_of_spells separate_format hspells (.tail _ (.head _)) rfl
  exact decode_record (hsignal.map mk |>.seq hnext)

/-- What is read as a transition gives each of its fields once at most. -/
theorem single_of_decode {v : Value} {t : Transition} (h : decoder.decode v = .ok t) :
    ¬format.GivesTwice v := by
  obtain ⟨src, hsrc, hall⟩ := source_of_decode_record h
  obtain ⟨_, _, h₁, hnext, -⟩ := found_seq hall
  obtain ⟨_, hsignal, -⟩ := found_map h₁
  apply Format.not_givesTwice hsrc
  simpa [format] using ⟨givesOnce_of_found hsignal, givesOnce_of_found hnext⟩

end Transition

/-! ## Steps -/

namespace StepDefinition

/-- The fields of a step; the entries of a configuration may be in any order. -/
def format : Format :=
  [{ names := ["step_id", "id"] },
   { names := ["step_type", "type"] },
   { names := ["configuration", "config"], blank := some (.obj []),
     Stands := fun v w => w.canonical = v.canonical },
   { names := ["transitions"], blank := some (.arr []), Stands := Transition.format.Objects }]

theorem separate_format : format.Separate := by
  simp [Format.Separate, format]

/-- A step as it is written is one of its spellings. -/
theorem object_toValue (s : StepDefinition) : format.Object (toValue s) (toValue s) := by
  refine ⟨_, _, rfl, rfl, _, ?_, .refl _⟩
  have htransitions := Format.objects_toValue fun t (_ : t ∈ s.transitions) => t.object_toValue
  exact .entry (.head _) (.head _) (.head _) rfl
    (.entry (.tail _ (.head _)) (.head _) (.head _) rfl
      (.entry (.tail _ (.tail _ (.head _))) (.head _) (.head _) rfl
        (.entry (.tail _ (.tail _ (.tail _ (.head _)))) (.head _) (.head _) htransitions .nil)))

/-- What has the canonical form of a configuration is read as that configuration. -/
theorem decode_table_of_canonical {configuration : Fields} {w : Value}
    (canonical : Value.canonicalFields configuration = configuration)
    (h : w.canonical = (Value.obj configuration).canonical) :
    table.decode w = .ok configuration := by
  rw [Value.canonical, canonical] at h
  cases w with
  | obj fields => exact congrArg Except.ok (Value.obj.inj h)
  | _ => cases h

/-- Every spelling of a step is read as that step. -/
theorem decode_of_object {s : StepDefinition} {w : Value}
    (canonical : Value.canonicalFields s.configuration = s.configuration)
    (h : format.Object (toValue s) w) : decoder.decode w = .ok s := by
  obtain ⟨encoded, fields, hencoded, rfl, hspells⟩ := h
  obtain rfl := Value.obj.inj hencoded
  obtain ⟨stepId, stepType, configuration, transitions⟩ := s
  have hid : (required "step_id" text ["id"]).Reads fields stepId :=
    reads_text_of_spells separate_format hspells (.head _) rfl
  have htype : (required "step_type" text ["type"]).Reads fields stepType :=
    reads_text_of_spells separate_format hspells (.tail _ (.head _)) rfl
  have hconfiguration :
      (withDefault "configuration" table [] ["config"]).Reads fields configuration := by
    refine reads_of_spells separate_format hspells (.tail _ (.tail _ (.head _))) rfl ?_ ?_
    · intro w hstands
      exact decode_table_of_canonical canonical hstands
    · intro hblank
      rw [Value.obj.inj (Option.some.inj hblank)]
  have htransitions :
      (withDefault "transitions" Transition.decoder.list []).Reads fields transitions := by
    refine reads_of_spells separate_format hspells (.tail _ (.tail _ (.tail _ (.head _)))) rfl ?_ ?_
    · intro w hstands
      exact decode_list_of_objects (fun t _ v => Transition.decode_of_object) hstands
    · intro hblank
      have hempty : transitions = [] :=
        List.map_eq_nil_iff.1 (Value.arr.inj (Option.some.inj hblank)).symm
      rw [hempty]
  exact decode_record (hid.map mk |>.seq htype |>.seq hconfiguration |>.seq htransitions)

/-- What is read as a step gives each of its fields once at most, and its transitions are read. -/
theorem single_of_decode {v : Value} {s : StepDefinition} (h : decoder.decode v = .ok s) :
    ¬format.GivesTwice v ∧
      ∀ w ∈ v.elementsAt "transitions" 3, ∃ t, Transition.decoder.decode w = .ok t := by
  obtain ⟨src, hsrc, hall⟩ := source_of_decode_record h
  obtain ⟨_, _, h₃, htransitions, -⟩ := found_seq hall
  obtain ⟨_, _, h₂, hconfiguration, -⟩ := found_seq h₃
  obtain ⟨_, _, h₁, htype, -⟩ := found_seq h₂
  obtain ⟨_, hid, -⟩ := found_map h₁
  refine ⟨Format.not_givesTwice hsrc ?_, fun w hw => exists_of_mem_elementsAt hsrc htransitions hw⟩
  simpa [format] using ⟨givesOnce_of_found hid, givesOnce_of_found htype,
    givesOnce_of_found hconfiguration, givesOnce_of_found htransitions⟩

end StepDefinition

/-! ## Processes -/

namespace Definition

def format : Format :=
  [{ names := ["name", "process_name"] },
   { names := ["version", "process_version"] },
   { names := ["initial_step"] },
   { names := ["steps"], Stands := StepDefinition.format.Objects }]

theorem separate_format : format.Separate := by
  simp [Format.Separate, format]

/-- A process as it is written is one of its spellings. -/
theorem object_toValue (d : Definition) : format.Object (toValue d) (toValue d) := by
  refine ⟨_, _, rfl, rfl, _, ?_, .refl _⟩
  have hsteps := Format.objects_toValue fun s (_ : s ∈ d.steps) => s.object_toValue
  exact .entry (.head _) (.head _) (.head _) rfl
    (.entry (.tail _ (.head _)) (.head _) (.head _) rfl
      (.entry (.tail _ (.tail _ (.head _))) (.head _) (.head _) rfl
        (.entry (.tail _ (.tail _ (.tail _ (.head _)))) (.head _) (.head _) hsteps .nil)))

/-- Every spelling of a process is read as that process. -/
theorem decode_of_object {d : Definition} {w : Value} (canonical : d.Canonical)
    (h : format.Object (toValue d) w) : decoder.decode w = .ok d := by
  obtain ⟨encoded, fields, hencoded, rfl, hspells⟩ := h
  obtain rfl := Value.obj.inj hencoded
  obtain ⟨name, version, initialStep, steps⟩ := d
  have hname : (required "name" text ["process_name"]).Reads fields name :=
    reads_text_of_spells separate_format hspells (.head _) rfl
  have hversion : (required "version" text ["process_version"]).Reads fields version :=
    reads_text_of_spells separate_format hspells (.tail _ (.head _)) rfl
  have hinitial : (required "initial_step" text).Reads fields initialStep :=
    reads_text_of_spells separate_format hspells (.tail _ (.tail _ (.head _))) rfl
  have hsteps : (required "steps" StepDefinition.decoder.list).Reads fields steps := by
    refine reads_of_spells separate_format hspells (.tail _ (.tail _ (.tail _ (.head _)))) rfl ?_
      nofun
    intro w hstands
    refine decode_list_of_objects ?_ hstands
    intro s hs v hobject
    exact StepDefinition.decode_of_object (canonical s hs) hobject
  exact decode_record (hname.map mk |>.seq hversion |>.seq hinitial |>.seq hsteps)

/-- What is read as a process gives each of its fields once at most, and its steps are read. -/
theorem single_of_decode {v : Value} {d : Definition} (h : decoder.decode v = .ok d) :
    ¬format.GivesTwice v ∧
      ∀ w ∈ v.elementsAt "steps" 3, ∃ s, StepDefinition.decoder.decode w = .ok s := by
  obtain ⟨src, hsrc, hall⟩ := source_of_decode_record h
  obtain ⟨_, _, h₃, hsteps, -⟩ := found_seq hall
  obtain ⟨_, _, h₂, hinitial, -⟩ := found_seq h₃
  obtain ⟨_, _, h₁, hversion, -⟩ := found_seq h₂
  obtain ⟨_, hname, -⟩ := found_map h₁
  refine ⟨Format.not_givesTwice hsrc ?_, fun w hw => exists_of_mem_elementsAt hsrc hsteps hw⟩
  simpa [format] using ⟨givesOnce_of_found hname, givesOnce_of_found hversion,
    givesOnce_of_found hinitial, givesOnce_of_found hsteps⟩

/-- Documents in which the process, one of its steps or one of their transitions gives a field
twice. -/
inductive Doubled (v : Value) : Prop
  | process (h : format.GivesTwice v)
  | step {s : Value} (hs : s ∈ v.elementsAt "steps" 3) (h : StepDefinition.format.GivesTwice s)
  | transition {s t : Value} (hs : s ∈ v.elementsAt "steps" 3)
      (ht : t ∈ s.elementsAt "transitions" 3) (h : Transition.format.GivesTwice t)

/-- What decodes as a process gives nothing twice, at any depth. -/
theorem not_doubled_of_decode {v : Value} {d : Definition} (h : decoder.decode v = .ok d) :
    ¬Doubled v := by
  obtain ⟨honce, hsteps⟩ := single_of_decode h
  intro hdoubled
  cases hdoubled with
  | process htwice => exact honce htwice
  | step hs htwice =>
      obtain ⟨s, hdecode⟩ := hsteps _ hs
      exact (StepDefinition.single_of_decode hdecode).1 htwice
  | transition hs ht htwice =>
      obtain ⟨s, hdecode⟩ := hsteps _ hs
      obtain ⟨t, hdecode'⟩ := (StepDefinition.single_of_decode hdecode).2 _ ht
      exact Transition.single_of_decode hdecode' htwice

/-- Every object of a document may choose the spelling of each of its fields, leave out what is
empty, and give more than the fields: the document is read as the same process.  A document in which
an object gives a field in two spellings is not read as any. -/
theorem decode_spellings :
    (∀ d : Definition, d.Canonical → ∀ w, format.Object (toValue d) w → decoder.decode w = .ok d) ∧
      ∀ v, Doubled v → ∃ fault, decoder.decode v = .error fault := by
  refine ⟨fun d canonical w h => decode_of_object canonical h, ?_⟩
  intro v hdoubled
  cases hdecode : decoder.decode v with
  | error fault => exact ⟨fault, rfl⟩
  | ok d => exact absurd hdoubled (not_doubled_of_decode hdecode)

/-! ## A process in other words -/

def twoSteps : Definition where
  name := "p"
  version := "1"
  initialStep := "review"
  steps := [
    ⟨"review", "human_in_the_loop", [("prompt", .str "Go")], [⟨some "approved", "done"⟩]⟩,
    ⟨"done", "final_commit", [], []⟩]

/-- The process with the other spelling of some of its keys, with notes, and without what is
empty. -/
def twoStepsRespelled : Value :=
  .obj [("owner", .null), ("process_name", .str "p"), ("version", .str "1"),
    ("initial_step", .str "review"),
    ("steps", .arr [
      .obj [("id", .str "review"), ("step_type", .str "human_in_the_loop"),
        ("config", .obj [("prompt", .str "Go")]),
        ("transitions", .arr [
          .obj [("on_signal", .str "approved"), ("next", .str "done"), ("id", .null)]])],
      .obj [("step_id", .str "done"), ("type", .str "final_commit"), ("name", .str "Done")]])]

theorem object_twoStepsRespelled : format.Object (toValue twoSteps) twoStepsRespelled := by
  -- From the transition outward; what has no field at its own level may be one at another.
  have htransition : Transition.format.Object (toValue (Transition.mk (some "approved") "done"))
      (.obj [("on_signal", .str "approved"), ("next", .str "done"), ("id", .null)]) :=
    ⟨_, _, rfl, rfl, _, .entry (.head _) (.head _) (.head _) rfl
      (.entry (.tail _ (.head _)) (.head _) (.tail _ (.head _)) rfl
        (.added (by simp [Transition.format]) .nil)), .refl _⟩
  have hreview : StepDefinition.format.Object
      (toValue (StepDefinition.mk "review" "human_in_the_loop" [("prompt", .str "Go")]
        [⟨some "approved", "done"⟩]))
      (.obj [("id", .str "review"), ("step_type", .str "human_in_the_loop"),
        ("config", .obj [("prompt", .str "Go")]),
        ("transitions", .arr [
          .obj [("on_signal", .str "approved"), ("next", .str "done"), ("id", .null)]])]) :=
    ⟨_, _, rfl, rfl, _, .entry (.head _) (.head _) (.tail _ (.head _)) rfl
      (.entry (.tail _ (.head _)) (.head _) (.head _) rfl
        (.entry (.tail _ (.tail _ (.head _))) (.head _) (.tail _ (.head _)) rfl
          (.entry (.tail _ (.tail _ (.tail _ (.head _)))) (.head _) (.head _)
            ⟨_, _, rfl, rfl, .cons htransition .nil⟩ .nil))), .refl _⟩
  have hdone : StepDefinition.format.Object
      (toValue (StepDefinition.mk "done" "final_commit" [] []))
      (.obj [("step_id", .str "done"), ("type", .str "final_commit"), ("name", .str "Done")]) :=
    ⟨_, _, rfl, rfl, _, .entry (.head _) (.head _) (.head _) rfl
      (.entry (.tail _ (.head _)) (.head _) (.tail _ (.head _)) rfl
        (.leftOut (.tail _ (.tail _ (.head _))) (.head _) rfl
          (.leftOut (.tail _ (.tail _ (.tail _ (.head _)))) (.head _) rfl
            (.added (by simp [StepDefinition.format]) .nil)))), .refl _⟩
  exact ⟨_, _, rfl, rfl, _, .added (by simp [format])
    (.entry (.head _) (.head _) (.tail _ (.head _)) rfl
      (.entry (.tail _ (.head _)) (.head _) (.head _) rfl
        (.entry (.tail _ (.tail _ (.head _))) (.head _) (.head _) rfl
          (.entry (.tail _ (.tail _ (.tail _ (.head _)))) (.head _) (.head _)
            ⟨_, _, rfl, rfl, .cons hreview (.cons hdone .nil)⟩ .nil)))), .refl _⟩

/-- The process in other words is read as the process; with a second name it is not read. -/
theorem decode_spellings_twoSteps :
    twoSteps.Canonical ∧ format.Object (toValue twoSteps) twoStepsRespelled ∧
      decoder.decode twoStepsRespelled = .ok twoSteps ∧
      ∃ fault, decoder.decode (.obj [("name", .str "p"), ("process_name", .str "p"),
        ("version", .str "1"), ("initial_step", .str "done"), ("steps", .arr [])]) =
          .error fault := by
  have hcanonical : twoSteps.Canonical := by
    unfold Definition.Canonical
    decide
  obtain ⟨hread, hrefused⟩ := decode_spellings
  -- The two spellings of the name are the first two entries.
  refine ⟨hcanonical, object_twoStepsRespelled,
    hread twoSteps hcanonical _ object_twoStepsRespelled, hrefused _ (.process ?_)⟩
  exact ⟨_, rfl, _, .head _, ("name", .str "p"), ("process_name", .str "p"), by simp, .head _,
    .tail _ (.head _)⟩

end Definition
end Casework
