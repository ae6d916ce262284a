import HiddenClass.Proofs.Elements.Basic
import HiddenClass.Proofs.Tunables

/-!
What an array holds after any operations on its elements: at each index the value that was put there
last, unless the index was emptied since. The bound between the two containers plays no part in it.
-/

namespace HiddenClass.Elements

inductive Operation where
  | store (index : Nat) (value : Value)
  | take (index : Nat)
  | makeSparse
  | compact (length : Nat)
deriving DecidableEq, Repr

namespace Operation

/-- No hole is put in. -/
def Solid : Operation → Prop
  | .store _ value => value.Solid
  | _ => True

instance : DecidablePred Solid
  | .store _ value => inferInstanceAs (Decidable value.Solid)
  | .take _ | .makeSparse | .compact _ => isTrue trivial

/-- Whether what an index holds afterwards depends on the operation alone. -/
def settles (index : Nat) : Operation → Bool
  | .store place _ | .take place => place = index
  | .makeSparse => false
  | .compact length => length ≤ index

/-- What an operation leaves at the indices that it settles. -/
def left? : Operation → Option Value
  | .store _ value => some value
  | _ => none

end Operation

def perform (elements : Elements) : Operation → Elements
  | .store index value => elements.store index value
  | .take index => (elements.take index).2
  | .makeSparse => elements.makeSparse
  | .compact length => elements.compact length

/-- The elements of a new array after operations in turn. -/
def ofOperations (length : Nat) (config : Config) (operations : List Operation) : Elements :=
  operations.foldl perform (ofLength length config)

/-- The value is the last one put in at the index, and the index was neither taken out nor cut off
since. -/
def LastStored (operations : List Operation) (index : Nat) (value : Value) : Prop :=
  ∃ earlier later, operations = earlier ++ .store index value :: later ∧
    ∀ operation ∈ later, operation.settles index = false

section Histories

variable {operations : List Operation} {operation : Operation} {index : Nat} {value : Value}

theorem Operation.eq_store (settles : operation.settles index = true)
    (left : operation.left? = some value) : operation = .store index value := by
  cases operation with
  | store place stored =>
    rw [of_decide_eq_true settles, Option.some.inj left]
  | take | makeSparse | compact => cases left

theorem not_lastStored_nil : ¬LastStored [] index value := by
  rintro ⟨earlier, later, split, _⟩
  simp at split

theorem LastStored.mem (stored : LastStored operations index value) :
    .store index value ∈ operations := by
  obtain ⟨earlier, later, split, _⟩ := stored
  simp [split]

theorem lastStored_concat :
    LastStored (operations ++ [operation]) index value ↔
      if operation.settles index then operation.left? = some value
      else LastStored operations index value := by
  constructor
  · rintro ⟨earlier, later, split, unsettled⟩
    -- the last operation is the store itself, or one of those that left the index alone since
    rcases later.eq_nil_or_concat with none | ⟨between, last, some⟩
    · subst none
      have same := (List.append_inj' split rfl).2
      rw [List.singleton_inj.mp same, if_pos (by simp [Operation.settles])]
      rfl
    · rw [some, List.concat_eq_append, ← List.cons_append, ← List.append_assoc] at split
      obtain ⟨before, same⟩ := List.append_inj' split rfl
      have kept : operation.settles index = false := by
        apply unsettled operation
        simp [some, List.singleton_inj.mp same]
      rw [if_neg (by simp [kept])]
      refine ⟨earlier, between, before, fun other member => unsettled other ?_⟩
      simp [some, member]
  · intro last
    cases settles : operation.settles index with
    | true =>
      rw [settles, if_pos rfl] at last
      rw [Operation.eq_store settles last]
      exact ⟨operations, [], rfl, fun _ member => nomatch member⟩
    | false =>
      rw [settles, if_neg Bool.false_ne_true] at last
      obtain ⟨earlier, later, split, unsettled⟩ := last
      refine ⟨earlier, later ++ [operation], by simp [split], fun other member => ?_⟩
      rcases List.mem_append.mp member with old | new
      · exact unsettled other old
      · rw [List.mem_singleton.mp new, settles]

end Histories

/-! ### One operation -/

variable {elements : Elements} {operation : Operation} {index : Nat}

theorem sound_perform (sound : elements.Sound) (operation : Operation) :
    (elements.perform operation).Sound := by
  cases operation with
  | store index value => exact sound_store sound index value
  | take index => exact sound_take sound index
  | makeSparse => exact ⟨sound.vector, sound.ascending, sound.above⟩
  | compact length => exact sound_compact sound length

/-- An operation decides alone what an index holds, or leaves it as it was. -/
theorem element_perform (sound : elements.Sound) (solid : operation.Solid) (index : Nat) :
    (elements.perform operation).element index =
      if operation.settles index then operation.left? else elements.element index := by
  cases operation with
  | store place value =>
    have kept : (value.isHole && place < elements.maxVectorSize) = false := by
      rw [Value.isHole_eq_false solid, Bool.false_and]
    rw [perform, element_store sound, if_neg (Bool.eq_false_iff.mp kept)]
    simp [Operation.settles, Operation.left?, eq_comm]
  | take place =>
    rw [perform, element_take]
    simp [Operation.settles, Operation.left?, eq_comm]
  | makeSparse => exact element_congr elements.makeSparse elements rfl rfl rfl index
  | compact length =>
    rw [perform, element_compact]
    by_cases below : index < length
    · simp [Operation.settles, below]
    · simp [Operation.settles, Operation.left?, below]

theorem dense_take (elements : Elements) (index : Nat) :
    (elements.take index).2.dense = elements.dense := by
  obtain ⟨_, _, same, _⟩ := take_snd elements index
  rw [same]

theorem dense_perform (elements : Elements) (operation : Operation) :
    (elements.perform operation).dense = (elements.dense && operation ≠ .makeSparse) := by
  cases operation with
  | store index value =>
    obtain ⟨_, _, same⟩ := store_eq elements index value
    simp [perform, same]
  | take index => simp [perform, dense_take]
  | makeSparse => simp [perform, makeSparse]
  | compact length =>
    obtain ⟨_, _, same⟩ := compact_eq elements length
    simp [perform, same]

/-! ### All operations -/

section Runs

variable {operations : List Operation}

theorem ofOperations_concat (length : Nat) (config : Config) (operations : List Operation)
    (operation : Operation) :
    ofOperations length config (operations ++ [operation]) =
      (ofOperations length config operations).perform operation := by
  simp [ofOperations]

theorem sound_ofOperations (length : Nat) (config : Config) (operations : List Operation) :
    (ofOperations length config operations).Sound := by
  induction operations using List.reverseRecOn with
  | nil => exact sound_ofLength length config
  | append_singleton operations operation ih =>
    rw [ofOperations_concat]
    exact sound_perform ih operation

theorem dense_ofOperations (length : Nat) (config : Config) (operations : List Operation) :
    (ofOperations length config operations).dense = (.makeSparse ∉ operations : Bool) := by
  induction operations using List.reverseRecOn with
  | nil => rfl
  | append_singleton operations operation ih =>
    rw [ofOperations_concat, dense_perform, ih]
    simp [eq_comm]

/-- What an index holds after a run is what was stored there last. -/
theorem element_ofOperations (length : Nat) (config : Config)
    (solid : ∀ operation ∈ operations, operation.Solid) (index : Nat) (value : Value) :
    (ofOperations length config operations).element index = some value ↔
      LastStored operations index value := by
  induction operations using List.reverseRecOn with
  | nil =>
    have nothing := element_ofLength length config index
    exact iff_of_false (by simp [ofOperations, nothing]) not_lastStored_nil
  | append_singleton operations operation ih =>
    have earlier := ih fun other member => solid other (List.mem_append_left _ member)
    have last : operation.Solid := solid operation (by simp)
    have sound := sound_ofOperations length config operations
    rw [ofOperations_concat, element_perform sound last, lastStored_concat]
    cases operation.settles index with
    | true => exact Iff.rfl
    | false => exact earlier

/-- No hole is taken out of an array into which none was put. -/
theorem peek_ofOperations (length : Nat) (config : Config)
    (solid : ∀ operation ∈ operations, operation.Solid) (index : Nat) :
    (ofOperations length config operations).peek index =
      (ofOperations length config operations).element index := by
  rw [peek_eq]
  cases found : (ofOperations length config operations).element index with
  | none => rfl
  | some value =>
    have stored := (element_ofOperations length config solid index value).mp found
    have whole : value.Solid := solid _ stored.mem
    rw [Option.filter_some, Value.isHole_eq_false whole]
    rfl

end Runs

/-! ### Listing -/

/-- The indices of the vector come first, each below the bound, and those of the map after them. -/
theorem indices_ascending (sound : elements.Sound) : elements.indices.Pairwise (· < ·) := by
  unfold indices
  apply List.pairwise_append.mpr
  refine ⟨?vector, List.pairwise_map.mpr sound.ascending, ?across⟩
  case vector =>
    rw [List.pairwise_filterMap]
    apply (zipIdx_ascending elements.vector.toList).imp
    intro first second before index listed other listedOther
    simp only [Option.ite_none_left_eq_some, Option.some.injEq] at listed listedOther
    rw [← listed.2, ← listedOther.2]
    exact before
  case across =>
    intro index near other far
    obtain ⟨⟨value, place⟩, member, listed⟩ := List.mem_filterMap.mp near
    obtain ⟨entry, present, same⟩ := List.mem_map.mp far
    simp only [Option.ite_none_left_eq_some, Option.some.injEq] at listed
    have inside := (List.getElem?_eq_some_iff.mp (List.mk_mem_zipIdx_iff_getElem?.mp member)).1
    calc index = place := listed.2.symm
      _ < elements.vector.size := inside
      _ ≤ elements.maxVectorSize := sound.vector
      _ ≤ entry.1 := sound.above entry present
      _ = other := same

/-! ### The partial map -/

/-- Nothing is read at the index. In a sparse array the stored properties have to be asked then. -/
def Vacant (elements : Elements) (index : Nat) (sparse : Bool) : Prop :=
  elements.peek index = none ∧ elements.lookup index = if sparse then .fallback else .absent

/-- The elements read as the partial map that the operations describe. -/
structure Reflects (elements : Elements) (operations : List Operation) : Prop where
  stored : ∀ index value, LastStored operations index value →
    elements.peek index = some value ∧ elements.lookup index = .present value
  missing : ∀ index, (∀ value, ¬LastStored operations index value) →
    elements.Vacant index (.makeSparse ∈ operations)
  taken : ∀ index, (elements.take index).1 = elements.peek index
  emptied : ∀ index, (elements.take index).2.Vacant index (.makeSparse ∈ operations)
  /-- Taking out at one index is not seen at another. -/
  others : ∀ index other, other ≠ index →
    (elements.take index).2.peek other = elements.peek other ∧
      (elements.take index).2.lookup other = elements.lookup other
  ascending : elements.indices.Pairwise (· < ·)
  listed : ∀ index, index ∈ elements.indices ↔ (elements.peek index).isSome = true

theorem lookup_of_peek {value : Value} (held : elements.peek index = some value) :
    elements.lookup index = .present value := by
  rw [lookup, held]

theorem vacant_of_element (absent : elements.element index = none) :
    elements.Vacant index (!elements.dense) := by
  have nothing : elements.peek index = none := by
    rw [peek_eq, absent]
    rfl
  refine ⟨nothing, ?_⟩
  rw [lookup, nothing]
  cases elements.dense <;> rfl

/-- This is so whatever the bound between the containers, and whatever length the array starts with. -/
theorem reflects_ofOperations (length : Nat) (config : Config) {operations : List Operation}
    (solid : ∀ operation ∈ operations, operation.Solid) :
    (ofOperations length config operations).Reflects operations := by
  have sound := sound_ofOperations length config operations
  have sparse : (!(ofOperations length config operations).dense) =
      (.makeSparse ∈ operations : Bool) := by
    rw [dense_ofOperations, decide_not, Bool.not_not]
  have peeked := peek_ofOperations length config solid
  have held := element_ofOperations length config solid
  generalize ofOperations length config operations = elements at sound sparse peeked held
  constructor
  case stored =>
    intro index value stored
    have found : elements.peek index = some value :=
      (peeked index).trans ((held index value).mpr stored)
    exact ⟨found, lookup_of_peek found⟩
  case missing =>
    intro index missing
    rw [← sparse]
    apply vacant_of_element
    apply Option.eq_none_iff_forall_ne_some.mpr
    exact fun value found => missing value ((held index value).mp found)
  case taken => exact fun index => (peeked index).symm
  case emptied =>
    intro index
    have absent : (elements.take index).2.element index = none := by rw [element_take, if_pos rfl]
    rw [← sparse, ← dense_take elements index]
    exact vacant_of_element absent
  case others =>
    intro index other different
    have same : (elements.take index).2.element other = elements.element other := by
      rw [element_take, if_neg different]
    have peek : (elements.take index).2.peek other = elements.peek other := by
      rw [peek_eq, peek_eq, same]
    exact ⟨peek, by rw [lookup, lookup, peek, dense_take]⟩
  case ascending => exact indices_ascending sound
  case listed => exact fun index => by rw [mem_indices sound, peeked]

/-- With a bound of four: an index below it that is taken out and filled again, one at it that is cut
off and filled again, and one above it that is cut off. -/
theorem reflects_around_bound :
    let config : Config := { maxVectorSize := 4 }
    let operations : List Elements.Operation :=
      [.store 3 (.int 1), .store 4 (.int 2), .store 9 (.int 3), .compact 9, .take 3, .makeSparse,
        .store 3 (.int 4), .store 4 (.int 5), .compact 5, .store 0 .null]
    let elements := ofOperations 2 config operations
    (∀ operation ∈ operations, operation.Solid) ∧ elements.Reflects operations ∧
      elements.indices = [0, 3, 4] ∧ elements.peek 4 = some (.int 5) ∧
      elements.lookup 9 = .fallback := by
  refine ⟨by decide, reflects_ofOperations 2 _ (by decide), ?_⟩
  decide

end HiddenClass.Elements
