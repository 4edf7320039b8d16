import Casework.Json.Decoder

/-!
# Records — what their decoders read

* `Slots.Reads` : fields that are all found in the entries of a map;
* `Decoder.decode_record` : a record is read from a map in which its fields are found;
* `Value.parts`, `Slots.found_field`, `Decoder.exists_of_decode_record` : what the fields of a
  record were read from;
* `Decoder.decode_list`, `Decoder.decode_option` : sequences and optional values.
-/

namespace Casework

/-! ## Reading what is there -/

namespace Slots

variable {α β : Type} {fields : Fields} {a : α} {g : α → β} {s : Slots α} {f : Slots (α → β)}

/-- Whether the fields are found in the entries of a map, without any fault. -/
def Reads (s : Slots α) (fields : Fields) (a : α) : Prop :=
  ∀ i, s.read (.entries fields) i = .of a

/-- What is read of fields may be changed by a function. -/
theorem Reads.map (g : α → β) (h : s.Reads fields a) : (g <$> s).Reads fields (g a) := by
  intro i
  show Findings.mk (s.read _ i).fault (s.read _ i).missing ((s.read _ i).found.map g) = _
  rw [h i]
  rfl

/-- Fields are read one after the other. -/
theorem Reads.seq (hf : f.Reads fields g) (h : s.Reads fields a) :
    (f <*> s).Reads fields (g a) := by
  intro i
  show (f.read _ i).combine (s.read _ (i + f.shapes.length)) = _
  rw [hf, h]
  rfl

/-- A field is read from its only entry. -/
theorem reads_field {name : String} {aliases : List String} {d : Decoder α} {absent : Findings α}
    {short : Option α} {n : Nat} {v : Value}
    (entry : entriesUnder (name :: aliases) 0 fields = [(n, v)]) (h : d.decode v = .ok a) :
    (field name aliases d absent short).Reads fields a := by
  intro i
  simp only [field, entry, decodeAt, h]

/-- A field without an entry is what its absence comes to. -/
theorem reads_absent {name : String} {aliases : List String} {d : Decoder α} {short : Option α}
    (entry : entriesUnder (name :: aliases) 0 fields = []) :
    (field name aliases d (.of a) short).Reads fields a := by
  intro i
  simp only [field, entry]

end Slots

namespace Decoder

variable {α : Type} {fields : Fields} {a : α} {s : Slots α} {d : Decoder α}

/-- A record whose fields are read is decoded. -/
theorem decode_recordWith {title surplus : String} (h : s.Reads fields a) :
    (recordWith title surplus s).decode (.obj fields) = .ok a := by
  simp only [recordWith, h 0]
  rfl

theorem decode_record {name : String} (h : s.Reads fields a) :
    (record name s).decode (.obj fields) = .ok a :=
  decode_recordWith h

theorem decode_count (typeName : String) (n : Nat) :
    (count typeName).decode (toValue n) = .ok n := by
  simp [count, toValue]

/-- A sequence is read if its elements are. -/
theorem decode_list [ToValue α] {xs : List α} (h : ∀ a ∈ xs, d.decode (toValue a) = .ok a) :
    d.list.decode (toValue xs) = .ok xs := by
  show d.items (xs.map toValue) = .ok xs
  induction xs with
  | nil => rfl
  | cons a xs ih =>
      rw [List.map_cons, items, h a List.mem_cons_self,
        ih fun b hb => h b (List.mem_cons_of_mem _ hb)]
      rfl

/-- An option decodes as what it holds, unless it is null. -/
theorem decode_option_of_ne_null {v : Value} (h : v ≠ .null) :
    d.option.decode v = (d.decode v).map some := by
  cases v with
  | null => exact absurd rfl h
  | _ => rfl

/-- An optional value is read if it is, and is not null. -/
theorem decode_option [ToValue α] {o : Option α}
    (h : ∀ a ∈ o, toValue a ≠ .null ∧ d.decode (toValue a) = .ok a) :
    d.option.decode (toValue o) = .ok o := by
  cases o with
  | none => rfl
  | some a =>
      obtain ⟨hne, hdecode⟩ := h a rfl
      show d.option.decode (toValue a) = _
      rw [decode_option_of_ne_null hne, hdecode]
      rfl

end Decoder

/-! ## What was read -/

def Value.parts : Value → List Value
  | .arr items => items
  | .obj fields => fields.map (·.2)
  | _ => []

def Source.values : Source → List Value
  | .entries fields => fields.map (·.2)
  | .elements items _ => items

namespace Slots

variable {α β : Type} {src : Source} {i : Nat} {a : α} {b : β} {s : Slots α} {f : Slots (α → β)}
variable {name : String} {aliases : List String} {d : Decoder α}

theorem found_map {g : α → β} (h : ((g <$> s).read src i).found = some b) :
    ∃ a, (s.read src i).found = some a ∧ g a = b :=
  Option.map_eq_some_iff.1 h

/-- What was found of two parts was found of each. -/
theorem found_seq (h : ((f <*> s).read src i).found = some b) :
    ∃ g a, (f.read src i).found = some g ∧
      (s.read src (i + f.shapes.length)).found = some a ∧ g a = b := by
  rcases Option.bind_eq_some_iff.1 h with ⟨g, hg, hmap⟩
  rcases Option.map_eq_some_iff.1 hmap with ⟨a, ha, hb⟩
  exact ⟨g, a, hg, ha, hb⟩

/-- A value under some keys is a value of the map. -/
theorem mem_of_entriesUnder {names : List String} {k n : Nat} {fields : Fields} {v : Value}
    (h : (n, v) ∈ entriesUnder names k fields) : v ∈ fields.map (·.2) := by
  induction fields generalizing k with
  | nil => cases h
  | cons entry rest ih =>
      obtain ⟨key, w⟩ := entry
      rw [entriesUnder] at h
      split at h
      · rcases List.mem_cons.1 h with hhere | hlater
        · cases hhere
          exact List.mem_cons_self
        · exact List.mem_cons_of_mem _ (ih hlater)
      · exact List.mem_cons_of_mem _ (ih h)

theorem found_decodeAt {n : Nat} {v : Value} (h : (decodeAt d n v).found = some a) :
    d.decode v = .ok a := by
  unfold decodeAt at h
  split at h
  · next heq =>
      rw [heq, Option.some.inj h]
  · cases h

/-- A field was decoded, or is what its absence comes to. -/
theorem found_field {absent : Findings α} {short : Option α}
    (h : ((field name aliases d absent short).read src i).found = some a) :
    (∃ v ∈ src.values, d.decode v = .ok a) ∨ absent.found = some a ∨ short = some a := by
  cases src with
  | entries fields =>
      simp only [field] at h
      split at h
      · exact .inr (.inl h)
      · next n v more hentries =>
          split at h
          · have hmem : (n, v) ∈ entriesUnder (name :: aliases) 0 fields := by
              rw [hentries]
              exact List.mem_cons_self
            exact .inl ⟨v, mem_of_entriesUnder hmem, found_decodeAt h⟩
          · cases h
  | elements items expected =>
      simp only [field] at h
      split at h
      · next v hv =>
          exact .inl ⟨v, List.mem_of_getElem? hv, found_decodeAt h⟩
      · exact .inr (.inr h)
      · cases h

/-- A field that must be there was found among the values of the record. -/
theorem found_required (h : ((required name d aliases).read src i).found = some a) :
    ∃ v ∈ src.values, d.decode v = .ok a := by
  rcases found_field h with hread | habsent | hshort
  · exact hread
  · cases habsent
  · cases hshort

/-- A field that may be left out was found there, or is the default. -/
theorem found_withDefault {default : α}
    (h : ((withDefault name d default aliases).read src i).found = some a) :
    (∃ v ∈ src.values, d.decode v = .ok a) ∨ a = default := by
  rcases found_field h with hread | habsent | hshort
  · exact .inl hread
  · exact .inr (Option.some.inj habsent).symm
  · exact .inr (Option.some.inj hshort).symm

end Slots

namespace Decoder

variable {α : Type} {v : Value} {a : α} {s : Slots α} {d : Decoder α}

theorem found_of_toExcept {r : Findings α} {f : Fault} (h : r.toExcept f = .ok a) :
    r.found = some a := by
  unfold Findings.toExcept at h
  split at h <;> cases h
  assumption

/-- The fields of a record were found in the value. -/
theorem exists_of_decode_recordWith {title surplus : String}
    (h : (recordWith title surplus s).decode v = .ok a) :
    ∃ src : Source, src.values = v.parts ∧ (s.read src 0).found = some a := by
  unfold recordWith at h
  dsimp only at h
  split at h
  · next fields => exact ⟨.entries fields, rfl, found_of_toExcept h⟩
  · next vs =>
      refine ⟨.elements vs (expectedSequence title s.shapes.length), rfl, ?_⟩
      cases hread : (s.read (.elements vs (expectedSequence title s.shapes.length)) 0).toExcept
          (.wrongType (.arr vs) title) with
      | error f => simp [hread, bind, Except.bind] at h
      | ok b =>
          simp only [hread, bind, Except.bind] at h
          split at h
          · cases h
          · cases h
            exact found_of_toExcept hread
  · cases h

/-- A record that was decoded was read from the parts of a value. -/
theorem exists_of_decode_record {name : String} (h : (record name s).decode v = .ok a) :
    ∃ src : Source, src.values = v.parts ∧ (s.read src 0).found = some a :=
  exists_of_decode_recordWith h

/-- Every element of a decoded sequence was decoded from one. -/
theorem exists_of_items {vs : List Value} {xs : List α} (h : d.items vs = .ok xs) :
    ∀ a ∈ xs, ∃ w ∈ vs, d.decode w = .ok a := by
  induction vs generalizing xs with
  | nil =>
      cases h
      simp
  | cons w vs ih =>
      rw [items] at h
      cases hw : d.decode w with
      | error f => simp [hw, bind, Except.bind] at h
      | ok b =>
          cases hrest : d.items vs with
          | error f => simp [hw, hrest, bind, Except.bind] at h
          | ok ys =>
              simp only [hw, hrest, bind, Except.bind, pure, Except.pure] at h
              cases h
              intro a ha
              rcases List.mem_cons.1 ha with rfl | hmem
              · exact ⟨w, List.mem_cons_self, hw⟩
              · rcases ih hrest a hmem with ⟨w', hw', hdecode⟩
                exact ⟨w', List.mem_cons_of_mem _ hw', hdecode⟩

/-- The elements of a sequence were read from those of the value. -/
theorem exists_of_decode_list {xs : List α} (h : d.list.decode v = .ok xs) :
    ∀ a ∈ xs, ∃ w ∈ v.parts, d.decode w = .ok a := by
  cases v with
  | arr vs => exact exists_of_items h
  | _ => cases h

end Decoder
end Casework
