/-!
# Tables

Finite maps from texts, kept as lists of entries with one entry a key.

* `Table.get?`, `Table.insert`, `Table.keys` : look-up, replacement and the sorted keys.

A new key goes to the end and a present one keeps its place.
-/

namespace Casework

abbrev Table (α : Type) := List (String × α)

namespace Table

variable {α : Type}

def get? (t : Table α) (key : String) : Option α :=
  (t.find? fun e => e.1 == key).map (·.2)

def contains (t : Table α) (key : String) : Bool :=
  t.any fun e => e.1 == key

def insert : Table α → String → α → Table α
  | [], key, a => [(key, a)]
  | (k, b) :: rest, key, a => if k = key then (key, a) :: rest else (k, b) :: insert rest key a

/-- The keys in ascending order of their code points. -/
def keys (t : Table α) : List String :=
  (t.map (·.1)).mergeSort fun a b => decide (a ≤ b)

@[simp]
theorem get?_nil (key : String) : get? ([] : Table α) key = none := rfl

theorem get?_cons (k key : String) (a : α) (t : Table α) :
    get? ((k, a) :: t) key = if k = key then some a else get? t key := by
  by_cases h : k = key <;> simp [get?, h]

/-- The value put in place is found. -/
theorem get?_insert_self (t : Table α) (key : String) (a : α) :
    (t.insert key a).get? key = some a := by
  induction t with
  | nil => simp [insert, get?_cons]
  | cons e t ih =>
      obtain ⟨k, b⟩ := e
      by_cases h : k = key
      · simp [insert, get?_cons, h]
      · simp [insert, get?_cons, h, ih]

/-- Other keys keep their values. -/
theorem get?_insert_of_ne (t : Table α) {key other : String} (a : α) (h : other ≠ key) :
    (t.insert key a).get? other = t.get? other := by
  induction t with
  | nil => simp [insert, get?_cons, h.symm]
  | cons e t ih =>
      obtain ⟨k, b⟩ := e
      by_cases hk : k = key
      · subst hk; simp [insert, get?_cons, h.symm]
      · rw [insert, if_neg hk, get?_cons, get?_cons, ih]

theorem contains_eq_isSome (t : Table α) (key : String) :
    t.contains key = (t.get? key).isSome := by
  induction t with
  | nil => rfl
  | cons e t ih =>
      obtain ⟨k, b⟩ := e
      by_cases h : k = key
      · simp [contains, get?_cons, h]
      · simp only [contains] at ih
        simp [contains, get?_cons, h, ih]

end Table
end Casework
