import HiddenClass.Shape.Transitions
import Mathlib.Data.List.Induction

/-!
In whatever form the children of a shape are held, a name leads to the child that was entered last
under it.
-/

namespace HiddenClass.Transitions

variable {transitions : Transitions} {children : List (Key × Handle)} {entry : Key × Handle}

theorem lookup_enter (children : List (Key × Handle)) (key other : Key) (child : Handle) :
    (enter key child children).lookup other =
      if other = key then some child else children.lookup other := by
  induction children with
  | nil =>
    rw [enter, List.lookup_cons]
    by_cases same : other = key
    · rw [if_pos same, same, beq_self_eq_true]
    · rw [if_neg same, beq_false_of_ne same]
  | cons first rest ih =>
    obtain ⟨name, old⟩ := first
    unfold enter
    by_cases here : name = key
    · rw [if_pos here, here, List.lookup_cons, List.lookup_cons]
      by_cases same : other = key
      · rw [if_pos same, same, beq_self_eq_true]
      · rw [if_neg same, beq_false_of_ne same]
    · rw [if_neg here, List.lookup_cons, List.lookup_cons, ih]
      by_cases same : other = name
      · rw [same, beq_self_eq_true, if_neg here, if_neg here]
      · rw [beq_false_of_ne same]

theorem mem_enter {key : Key} {child : Handle} (member : entry ∈ enter key child children) :
    entry = (key, child) ∨ entry ∈ children := by
  induction children with
  | nil => exact Or.inl (List.mem_singleton.mp member)
  | cons first rest ih =>
    unfold enter at member
    split at member
    · exact (List.mem_cons.mp member).imp_right (List.mem_cons_of_mem _)
    · rcases List.mem_cons.mp member with rfl | later
      · exact Or.inr List.mem_cons_self
      · exact (ih later).imp_right (List.mem_cons_of_mem _)

theorem length_enter (children : List (Key × Handle)) (key : Key) (child : Handle) :
    (enter key child children).length =
      if (children.lookup key).isSome then children.length else children.length + 1 := by
  induction children with
  | nil => rfl
  | cons first rest ih =>
    obtain ⟨name, old⟩ := first
    unfold enter
    rw [List.lookup_cons]
    by_cases here : name = key
    · rw [if_pos here, here, beq_self_eq_true]
      rfl
    · rw [if_neg here, beq_false_of_ne (Ne.symm here), List.length_cons, ih]
      dsimp only
      split <;> rfl

theorem lookup_entries (transitions : Transitions) (key : Key) :
    transitions.entries.lookup key = transitions.find? key := by
  cases transitions with
  | none => rfl
  | pair name child =>
    rw [entries, find?, List.lookup_cons]
    by_cases same : name = key
    · rw [if_pos same, same, beq_self_eq_true]
    · rw [if_neg same, beq_false_of_ne (Ne.symm same)]
      rfl
  | table children => rfl

theorem length_entries (transitions : Transitions) :
    transitions.entries.length = transitions.length := by
  cases transitions <;> rfl

/-- A new child is entered the same way whatever form the others are held in. -/
theorem entries_insert (transitions : Transitions) (key : Key) (child : Handle) :
    (transitions.insert key child).entries = enter key child transitions.entries := by
  cases transitions <;> rfl

theorem mem_of_find? {key : Key} {child : Handle} (known : transitions.find? key = some child) :
    (key, child) ∈ transitions.entries := by
  rw [← lookup_entries] at known
  obtain ⟨front, back, split, _⟩ := List.lookup_eq_some_iff.mp known
  rw [split]
  exact List.mem_append_right _ List.mem_cons_self

theorem mem_insert {key : Key} {child : Handle}
    (member : entry ∈ (transitions.insert key child).entries) :
    entry = (key, child) ∨ entry ∈ transitions.entries := by
  rw [entries_insert] at member
  exact mem_enter member

theorem find?_insert (transitions : Transitions) (key other : Key) (child : Handle) :
    (transitions.insert key child).find? other =
      if other = key then some child else transitions.find? other := by
  rw [← lookup_entries, entries_insert, lookup_enter, lookup_entries]

theorem length_insert (transitions : Transitions) (key : Key) (child : Handle) :
    (transitions.insert key child).length =
      if (transitions.find? key).isSome then transitions.length else transitions.length + 1 := by
  rw [← length_entries, entries_insert, length_enter, lookup_entries, length_entries]

/-- The children after some were entered one after the other. -/
def ofEntries (entered : List (Key × Handle)) : Transitions :=
  entered.foldl (fun transitions entry => transitions.insert entry.1 entry.2) .none

/-- After any children were entered, a name leads to the one entered last under it. -/
theorem find?_ofEntries (entered : List (Key × Handle)) (key : Key) :
    (ofEntries entered).find? key = entered.reverse.lookup key := by
  induction entered using List.reverseRecOn with
  | nil => rfl
  | append_singleton earlier last ih =>
    obtain ⟨name, child⟩ := last
    rw [ofEntries, List.foldl_append, List.foldl_cons, List.foldl_nil, ← ofEntries, find?_insert, ih,
      List.reverse_append, List.reverse_singleton, List.singleton_append, List.lookup_cons]
    by_cases same : key = name
    · rw [if_pos same, same, beq_self_eq_true]
    · rw [if_neg same, beq_false_of_ne same]

end HiddenClass.Transitions
