import Casework.Definition.Transition
import Mathlib.Data.List.FinRange
import Mathlib.Data.Fintype.Basic

/-!
# Choice — what the order of transitions has to do with the one that is taken

The transitions of a step fall into groups: one for each signal value, and the default ones.  Only
the first of a group is ever taken, so the order matters inside the groups and nowhere else.

* `Transition.group` : the transitions of one group, in order;
* `Transition.choose?_eq` : the choice in terms of groups;
* `Transition.Rearranged` : another order in which no group is stirred;
* `Transition.resolve_order_insensitive` : the next step is the same in every such order.
-/

namespace Casework
namespace Transition

/-- The transitions that are taken on one signal value, or by default, in order. -/
def group (ts : List Transition) (key : Option String) : List Transition :=
  ts.filter fun t => t.onSignal == key

/-- Whether two lists hold the same transitions, at places that may differ, such that of two
transitions of one group the same comes first. -/
def Rearranged (ts ts' : List Transition) : Prop :=
  ∃ place : Fin ts.length ≃ Fin ts'.length,
    (∀ i, ts'.get (place i) = ts.get i) ∧
      ∀ i j, i < j → (ts.get i).onSignal = (ts.get j).onSignal → place i < place j

variable {ts ts' : List Transition} {key : Option String} {t : Transition}

/-! ## Groups -/

theorem mem_group : t ∈ group ts key ↔ t ∈ ts ∧ t.onSignal = key := by
  simp [group]

/-- A group of two sequences together is the two groups together. -/
theorem group_append (ts₁ ts₂ : List Transition) (key : Option String) :
    group (ts₁ ++ ts₂) key = group ts₁ key ++ group ts₂ key :=
  List.filter_append ts₁ ts₂

/-- A group of a list is what stands at its places. -/
theorem group_eq_map (ts : List Transition) (key : Option String) :
    group ts key =
      ((List.finRange ts.length).filter fun i => (ts.get i).onSignal == key).map ts.get := by
  have hplaces : (List.finRange ts.length).map ts.get = ts := List.map_get_finRange ts
  calc
    group ts key = ((List.finRange ts.length).map ts.get).filter (fun t => t.onSignal == key) := by
      rw [hplaces, group]
    _ = ((List.finRange ts.length).filter fun i => (ts.get i).onSignal == key).map ts.get :=
      List.filter_map

/-- The places of a group, in ascending order, are moved to those of the same group. -/
theorem places_of_rearranged {place : Fin ts.length ≃ Fin ts'.length}
    (same : ∀ i, ts'.get (place i) = ts.get i)
    (orderly : ∀ i j, i < j → (ts.get i).onSignal = (ts.get j).onSignal → place i < place j)
    (key : Option String) :
    (List.finRange ts'.length).filter (fun i => (ts'.get i).onSignal == key) =
      ((List.finRange ts.length).filter fun i => (ts.get i).onSignal == key).map place := by
  have hascending : ∀ n, (List.finRange n).Pairwise (· < ·) := List.pairwise_lt_finRange
  have hmoved : (((List.finRange ts.length).filter fun i =>
      (ts.get i).onSignal == key).map place).Pairwise (· < ·) := by
    rw [List.pairwise_map]
    refine ((hascending ts.length).filter _).imp_of_mem ?_
    intro i j hi hj hlt
    have hi' : (ts.get i).onSignal = key := by simpa using hi
    have hj' : (ts.get j).onSignal = key := by simpa using hj
    exact orderly i j hlt (hi'.trans hj'.symm)
  -- Two ascending lists with the same elements are equal.
  refine List.Perm.eq_of_pairwise ?_ ((hascending ts'.length).filter _) hmoved ?_
  · intro i j _ _ hij hji
    exact absurd hij (lt_asymm hji)
  · refine (List.perm_ext_iff_of_nodup ?_ ?_).2 ?_
    · exact (List.nodup_finRange _).filter _
    · exact ((List.nodup_finRange _).filter _).map place.injective
    · intro i
      have hback : ts.get (place.symm i) = ts'.get i := by
        rw [← same, place.apply_symm_apply]
      simp only [List.mem_filter, List.mem_finRange, true_and, List.mem_map, beq_iff_eq]
      constructor
      · intro hi
        exact ⟨place.symm i, by rw [hback, hi], place.apply_symm_apply i⟩
      · rintro ⟨j, hj, rfl⟩
        rw [same, hj]

/-- No group is stirred. -/
theorem group_of_rearranged (h : Rearranged ts ts') (key : Option String) :
    group ts' key = group ts key := by
  obtain ⟨place, same, orderly⟩ := h
  rw [group_eq_map, group_eq_map, places_of_rearranged same orderly, List.map_map]
  exact List.map_congr_left fun i _ => same i

/-- Where no two transitions are of one group, no order stirs a group. -/
theorem group_of_perm (distinct : (ts.map onSignal).Nodup) (h : ts.Perm ts')
    (key : Option String) : group ts' key = group ts key := by
  have hperm : (group ts key).Perm (group ts' key) := h.filter _
  -- All of a group have the same key, so it has one member at most.
  have hfew : (group ts key).length ≤ 1 := by
    have hkeys : ((group ts key).map onSignal).Nodup := distinct.sublist (List.filter_sublist.map _)
    have hsame : (group ts key).map onSignal = List.replicate (group ts key).length key := by
      rw [List.eq_replicate_iff]
      refine ⟨List.length_map _, ?_⟩
      intro key' hkey'
      obtain ⟨t, ht, rfl⟩ := List.mem_map.1 hkey'
      exact (mem_group.1 ht).2
    rw [hsame] at hkeys
    exact List.nodup_replicate.1 hkeys
  cases hgroup : group ts key with
  | nil =>
      rw [hgroup] at hperm
      exact hperm.nil_eq.symm
  | cons t rest =>
      have hrest : rest = [] := by
        rw [hgroup] at hfew
        simpa using hfew
      rw [hgroup, hrest] at hperm
      rw [hrest]
      exact List.perm_singleton.1 hperm.symm

/-! ## The choice -/

/-- What is taken is the first of the group of the signal, or else the first default one. -/
theorem choose?_eq (ts : List Transition) (signal : Option String) :
    choose? ts signal = (group ts signal).head?.or (group ts none).head? := by
  have hdefault : ts.find? isDefault = (group ts none).head? := by
    have hkind : (isDefault : Transition → Bool) = fun t => t.onSignal == none := by
      funext t
      cases h : t.onSignal <;> simp [isDefault, h]
    rw [group, List.head?_filter, hkind]
  have hexact : ∀ value, ts.find? (firesOn value) = (group ts (some value)).head? := by
    intro value
    rw [group, List.head?_filter]
    rfl
  unfold choose? exactMatch?
  cases signal with
  | none => simp [hdefault]
  | some value => rw [Option.bind_some, hexact, hdefault]

/-- The next step depends on the groups alone. -/
theorem resolve_of_groups (h : ∀ key, group ts' key = group ts key) (stepId : String)
    (signal : Option String) : resolve stepId ts' signal = resolve stepId ts signal := by
  unfold resolve
  rw [choose?_eq, choose?_eq, h signal, h none]

/-- The first transition for the signal is taken. -/
theorem resolve_of_first {rest : List Transition} {signal : Option String}
    (h : group ts signal = t :: rest) (stepId : String) :
    resolve stepId ts signal = .ok t.nextStep := by
  simp [resolve, choose?_eq, h]

/-- If none is for the signal, the first default one is. -/
theorem resolve_of_first_default {rest : List Transition} {signal : Option String}
    (unnamed : group ts signal = []) (h : group ts none = t :: rest) (stepId : String) :
    resolve stepId ts signal = .ok t.nextStep := by
  simp [resolve, choose?_eq, unnamed, h]

/-- If there is neither, the choice fails. -/
theorem resolve_fails_iff {signal : Option String} {stepId : String} {e : Error} :
    resolve stepId ts signal = .error e ↔
      group ts signal = [] ∧ group ts none = [] ∧ e = .noMatchingTransition stepId signal := by
  rw [resolve_eq_error_iff, choose?_eq, Option.or_eq_none_iff, List.head?_eq_none_iff,
    List.head?_eq_none_iff, and_assoc]

/-- A default transition says nothing about a signal with a transition of its own. -/
theorem resolve_insert_default {before after : List Transition} {value : String}
    (named : ∃ t ∈ before ++ after, t.onSignal = some value) (next stepId : String) :
    resolve stepId (before ++ defaultTo next :: after) (some value) =
      resolve stepId (before ++ after) (some value) := by
  have hsame : group (before ++ defaultTo next :: after) (some value) =
      group (before ++ after) (some value) := by
    rw [group_append, group_append]
    rfl
  obtain ⟨t, ht, hvalue⟩ := named
  cases hgroup : group (before ++ after) (some value) with
  | nil =>
      have hmem : t ∈ group (before ++ after) (some value) := mem_group.2 ⟨ht, hvalue⟩
      simp [hgroup] at hmem
  | cons first rest =>
      rw [resolve_of_first hgroup, resolve_of_first (hsame.trans hgroup)]

/-- The next step is that of the first transition for the signal; if there is none, that of the
first default one; and only if there is neither, an error.  So it is the same in every order that
keeps the order inside the groups, in every order at all if no group has two transitions, and
wherever a default one stands. -/
theorem resolve_order_insensitive (stepId : String) (ts : List Transition)
    (signal : Option String) :
    (∀ ts', Rearranged ts ts' → resolve stepId ts' signal = resolve stepId ts signal) ∧
      (∀ t rest, group ts signal = t :: rest → resolve stepId ts signal = .ok t.nextStep) ∧
      (∀ t rest, group ts signal = [] → group ts none = t :: rest →
        resolve stepId ts signal = .ok t.nextStep) ∧
      (∀ e, resolve stepId ts signal = .error e ↔
        group ts signal = [] ∧ group ts none = [] ∧ e = .noMatchingTransition stepId signal) ∧
      ((ts.map onSignal).Nodup → ∀ ts', ts.Perm ts' →
        resolve stepId ts' signal = resolve stepId ts signal) ∧
      ∀ before after value next, ts = before ++ after → signal = some value →
        (∃ t ∈ ts, t.onSignal = some value) →
        resolve stepId (before ++ defaultTo next :: after) signal = resolve stepId ts signal := by
  -- A choice depends on the two groups only: those for the signal, and the default ones.
  refine ⟨?_, ?_, ?_, ?_, ?_, ?_⟩
  · intro ts' h
    exact resolve_of_groups (group_of_rearranged h) stepId signal
  · intro t rest h
    exact resolve_of_first h stepId
  · intro t rest unnamed h
    exact resolve_of_first_default unnamed h stepId
  · intro e
    exact resolve_fails_iff
  · intro distinct ts' h
    exact resolve_of_groups (group_of_perm distinct h) stepId signal
  · rintro before after value next rfl rfl named
    exact resolve_insert_default named next stepId

/-- Two ways out for an approval, with a default in front of both or between them. -/
theorem resolve_order_insensitive_approvals :
    Rearranged [.defaultTo "later", .on "approve" "first", .on "approve" "second"]
        [.on "approve" "first", .defaultTo "later", .on "approve" "second"] ∧
      resolve "review" [.on "approve" "first", .defaultTo "later", .on "approve" "second"]
          (some "approve") =
        resolve "review" [.defaultTo "later", .on "approve" "first", .on "approve" "second"]
          (some "approve") ∧
      resolve "review" [.defaultTo "later", .on "approve" "first", .on "approve" "second"]
          (some "approve") = .ok "first" := by
  have hrearranged :
      Rearranged [.defaultTo "later", .on "approve" "first", .on "approve" "second"]
        [.on "approve" "first", .defaultTo "later", .on "approve" "second"] :=
    ⟨(Equiv.swap 0 1 : Equiv.Perm (Fin 3)), by decide, by decide⟩
  have hchoice := resolve_order_insensitive "review"
    [.defaultTo "later", .on "approve" "first", .on "approve" "second"] (some "approve")
  exact ⟨hrearranged, hchoice.1 _ hrearranged, hchoice.2.1 _ _ rfl⟩

end Transition
end Casework
