import HiddenClass.Proofs.Elements.Own
import HiddenClass.Proofs.Identity
import HiddenClass.Proofs.Realm.Sight
import HiddenClass.Proofs.Settled

/-!
The keys that an array lists. They are the keys of its properties, each of them once: its length first,
then its indices as they ascend, wherever they are kept, and its names last, in the order of their slots.
-/

namespace HiddenClass

variable {filter : KeyFilter} {key : Key}

/-- Whether a property is listed. -/
def KeyFilter.admits (filter : KeyFilter) (desc : Descriptor) : Bool :=
  filter = .all || desc.isEnumerable

theorem KeyFilter.admits_toDescriptor (filter : KeyFilter) (slot : Slot) :
    filter.admits slot.toDescriptor = filter.includes slot := by
  unfold admits includes Slot.toDescriptor
  split <;> rfl

/-- The order in which an array lists keys, where names are placed at offsets. -/
structure Key.Arranged (place : Key → Option Nat) (keys : List Key) (indices : List Nat)
    (names : List Key) (offsets : List Nat) : Prop where
  parts : keys = (if Key.length ∈ keys then [Key.length] else []) ++ indices.map Key.index ++ names
  ascending : indices.Pairwise (· < ·)
  bounded : ∀ index ∈ indices, index < Key.indexBound
  named : ∀ name ∈ names, name.role = .name
  placed : names.map place = offsets.map some
  increasing : offsets.Pairwise (· < ·)

namespace Record

variable {record : Record}

/-- Keys are listed in the order of their offsets, however they are picked. -/
theorem Sound.offsets_increase (sound : record.Sound) (filter : KeyFilter) (picked : Key → Bool) :
    ∃ offsets : List Nat,
      ((record.keys filter).filter picked).map record.layout.offset? = offsets.map some ∧
        offsets.Pairwise (· < ·) := by
  let entries := (record.layout.table.filter fun entry => filter.includes (record.slot entry.2)).filter
    fun entry => picked entry.1
  have within : entries.Sublist record.layout.table :=
    List.filter_sublist.trans List.filter_sublist
  have listed : (record.keys filter).filter picked = entries.map Prod.fst := List.filter_map ..
  refine ⟨entries.map Prod.snd, ?_, ?_⟩
  · rw [listed, List.map_map, List.map_map]
    refine List.map_congr_left fun entry member => ?_
    exact sound.layout.mem_table.mpr (within.subset member)
  · exact List.pairwise_map.mpr (sound.layout.ordered.sublist within)

end Record

namespace Elements.View

variable {view : View} {index : Nat} {keys : List Key}

/-- The indices of elements and those that are stored are the indices of properties. -/
theorem listed_iff (sound : view.Sound) :
    (view.element index).isSome = true ∨ Key.index index ∈ view.record.keys filter ↔
      ∃ slot, view.property index = some slot ∧ filter.includes slot = true := by
  cases held : view.element index with
  | some value =>
    have included : filter.includes (.plain value) = true := Bool.or_true _
    exact ⟨fun _ => ⟨.plain value, property_of_element held, included⟩, fun _ => Or.inl rfl⟩
  | none =>
    rw [property_of_stored held, sound.record.mem_keys]
    exact ⟨fun listed => listed.resolve_left Bool.false_ne_true, Or.inr⟩

/-- The length of an array is not a property in its store. -/
theorem length_not_stored (sound : view.Sound) (filter : KeyFilter) :
    Key.length ∉ view.record.keys filter := by
  intro listed
  obtain ⟨slot, found, _⟩ := sound.record.mem_keys.mp listed
  rw [sound.length] at found
  cases found

/-- A key is listed if there is a property that is to be listed. -/
theorem Lists.mem_iff (lists : view.Lists filter keys) (sound : view.Sound) (settled : view.Settled) :
    key ∈ keys ↔
      ∃ desc, (Object.Content.array view).getOwn key = some desc ∧ filter.admits desc = true := by
  obtain ⟨indices, _, members, rfl⟩ := lists
  have shown : ∀ current : Option Slot,
      (∃ desc, current.map Slot.toDescriptor = some desc ∧ filter.admits desc = true) ↔
        ∃ slot, current = some slot ∧ filter.includes slot = true := by
    intro current
    cases current with
    | none => simp
    | some slot => simp [KeyFilter.admits_toDescriptor]
  cases key with
  -- an index past all array indices has no element, and is listed from the store with the names
  | index n =>
    have whole : view.element n ≠ some .hole := fun held => settled.solid.element n .hole held rfl
    rw [Object.Content.getOwn_index sound whole, shown, ← listed_iff sound, ← members]
    simp [index_ne_length, Key.index?]
  | named id =>
    by_cases same : Key.named id = Key.length
    · have missing := length_not_stored sound filter
      have included : filter.admits view.lengthSlot.toDescriptor =
          (filter = .all || view.lengthSlot.flags.enumerable) := KeyFilter.admits_toDescriptor ..
      rw [same, Object.Content.getOwn_length (by rfl)]
      simp [included, missing, index_ne_length]
    · rw [Object.Content.getOwn_named same, shown, ← sound.record.mem_keys]
      simp [same, Key.index?]

/-- The names that are listed, in the order of their slots. -/
def names (view : View) (filter : KeyFilter) : List Key :=
  (view.record.keys filter).filter fun key => key.index?.isNone

theorem role_of_mem_names (sound : view.Sound) {name : Key} (member : name ∈ view.names filter) :
    name.role = .name := by
  obtain ⟨listed, isName⟩ := List.mem_filter.mp member
  cases name with
  | index n => cases isName
  | named id =>
    rw [Key.role_named, if_neg]
    exact fun same => length_not_stored sound filter (same ▸ listed)

/-- Indices and names are apart from each other and from the length. -/
theorem indices_names_nodup (sound : view.Sound) {indices : List Nat}
    (ascending : indices.Pairwise (· < ·)) (filter : KeyFilter) :
    Key.length ∉ indices.map Key.index ++ view.names filter ∧
      (indices.map Key.index ++ view.names filter).Nodup := by
  have once : (indices.map Key.index).Nodup :=
    (ascending.imp Nat.ne_of_lt).map Key.index fun _ _ different same =>
      different (Key.index.inj same)
  have apart : ∀ key ∈ indices.map Key.index, ∀ name ∈ view.names filter, key ≠ name := by
    rintro key isIndex name isName rfl
    obtain ⟨index, _, rfl⟩ := List.mem_map.mp isIndex
    cases (List.mem_filter.mp isName).2
  refine ⟨fun member => ?_, List.nodup_append.mpr
    ⟨once, (sound.record.keys_nodup filter).filter _, apart⟩⟩
  rcases List.mem_append.mp member with isIndex | isName
  · obtain ⟨index, _, same⟩ := List.mem_map.mp isIndex
    exact index_ne_length index same
  · exact length_not_stored sound filter (List.mem_filter.mp isName).1

/-- No key is listed twice, and all of them come in the order of an array. -/
theorem Lists.arranged (lists : view.Lists filter keys) (sound : view.Sound)
    (settled : view.Settled) :
    keys.Nodup ∧ ∃ indices names offsets,
      Key.Arranged view.record.layout.offset? keys indices names offsets := by
  obtain ⟨indices, ascending, members, parts⟩ := lists
  obtain ⟨offsets, placed, increasing⟩ :=
    sound.record.offsets_increase filter fun key => key.index?.isNone
  have bounded : ∀ index ∈ indices, index < Key.indexBound := by
    intro index member
    obtain ⟨slot, present, _⟩ := (listed_iff sound).mp ((members index).mp member)
    exact settled.bounded.small (owns_of_property present)
  have named : ∀ name ∈ view.names filter, name.role = .name := fun _ => role_of_mem_names sound
  obtain ⟨others, rest⟩ := indices_names_nodup sound ascending filter
  rw [List.append_assoc] at parts
  change keys = _ ++ (indices.map Key.index ++ view.names filter) at parts
  -- the length is listed exactly when the filter lets it pass
  have shape : keys.Nodup ∧ keys = (if Key.length ∈ keys then [Key.length] else []) ++
      (indices.map Key.index ++ view.names filter) := by
    by_cases headed : (filter = .all || view.lengthSlot.flags.enumerable) = true
    · rw [if_pos headed] at parts
      rw [if_pos (parts ▸ List.mem_cons_self ..), parts]
      exact ⟨List.nodup_cons.mpr ⟨others, rest⟩, rfl⟩
    · rw [if_neg headed, List.nil_append] at parts
      rw [if_neg (parts ▸ others), parts]
      exact ⟨rest, rfl⟩
  rw [← List.append_assoc] at shape
  exact ⟨shape.1, indices, view.names filter, offsets,
    ⟨shape.2, ascending, bounded, named, placed, increasing⟩⟩

end Elements.View

namespace Realm

variable {host : Host} {realm : Realm} {chart : Chart} {views : Views} {array : Handle}
  {turns : List Turn} {traits : Object.Traits} {elements : Elements.Traits}

/-- The offset of a name is that in the view of the object. -/
theorem Holds.resolve_array (holds : realm.Holds chart views) {content : Elements.View}
    {extensible : Bool} {prototype : Option Handle}
    (shown : views array = some { content := .array content, extensible, prototype }) :
    realm.resolve array = content.record.layout.offset? := by
  obtain ⟨holder, found, held⟩ := holds.find shown
  obtain ⟨elements, _, heldElements⟩ := held.content
  funext key
  exact holds.resolve_stored found heldElements.store key

/-- What an array lists and what it answers agree: in every state that plain requests with live handles
lead to, a key is listed once if there is a property for it that is to be listed, and not otherwise. The
length comes first, then the indices as they ascend, then the names as their offsets do. -/
theorem keys_agree {config : Config} (lawful : (ofConfig config).lawful host turns = true)
    (plain : ∀ turn ∈ turns, turn.request.Plain)
    (seen : ((ofConfig config).course host turns).sight.traits array = some traits)
    (kind : traits.array = some elements) (filter : KeyFilter) :
    let realm := (ofConfig config).course host turns
    ∃ listed, realm.sight.keys array filter = some listed ∧ listed.Nodup ∧
      (∀ key, key ∈ listed ↔
        ∃ desc, realm.sight.own array key = some (some desc) ∧ filter.admits desc = true) ∧
      ∃ indices names offsets, Key.Arranged (realm.resolve array) listed indices names offsets := by
  intro realm
  obtain ⟨chart, views, holds, valid, settled⟩ := settled_course lawful plain
  obtain ⟨content, extensible, prototype, shown, _⟩ := holds.array_of_traits seen kind
  obtain ⟨listed, lists, answer⟩ := holds.sight_keys shown filter
  have sound : content.Sound := valid.sound array _ shown
  have tidy : content.Settled := settled array _ shown
  obtain ⟨once, arranged⟩ := Elements.View.Lists.arranged lists sound tidy
  rw [← holds.resolve_array shown] at arranged
  refine ⟨listed, answer, once, fun key => ?_, arranged⟩
  rw [Elements.View.Lists.mem_iff lists sound tidy, holds.sight_own shown]
  simp only [Option.some.injEq, Object.View.getOwn]

/-- An array gets indices on both sides of the bound between vector and map, one in the store that is
not to be listed, and names, one of which takes the slot of a name that is deleted. -/
def mingling : List Turn :=
  let array : Handle := ⟨0, 0⟩
  [.make (.intern "x"), .make (.intern "y"), .make (.intern "z"), .make (.newArray 3),
    .make (.put array (.index 9) .null true), .make (.put array (.named 1) (.int 1) true),
    .make (.put array (.named 2) (.int 2) true),
    .make (.define array (.index 5) (.data (.text "hidden") { configurable := true }) true),
    .make (.put array (.index 1) .null true), .make (.delete array (.named 1) true),
    .make (.put array (.named 3) (.int 3) true), .make (.delete array (.index 9) true),
    .make (.put array (.index 9) (.text "again") true)]

theorem keys_agree_mingled :
    let realm := (ofConfig { maxVectorSize := 4 }).course Host.none mingling
    (ofConfig { maxVectorSize := 4 }).lawful Host.none mingling = true ∧
      (∀ turn ∈ mingling, turn.request.Plain) ∧
      realm.sight.traits ⟨0, 0⟩ =
        some ⟨true, none, some { length := 10, lengthWritable := true, dense := false }⟩ ∧
      ∃ listed, realm.sight.keys ⟨0, 0⟩ .enumerable = some listed ∧ listed.Nodup ∧
        (∀ key, key ∈ listed ↔ ∃ desc, realm.sight.own ⟨0, 0⟩ key = some (some desc) ∧
          KeyFilter.admits .enumerable desc = true) ∧
        ∃ indices names offsets,
          Key.Arranged (realm.resolve ⟨0, 0⟩) listed indices names offsets :=
  have lawful : (ofConfig { maxVectorSize := 4 }).lawful Host.none mingling = true := by
    decide +kernel
  have plain : ∀ turn ∈ mingling, turn.request.Plain := by decide
  have seen : ((ofConfig { maxVectorSize := 4 }).course Host.none mingling).sight.traits ⟨0, 0⟩ =
      some ⟨true, none, some { length := 10, lengthWritable := true, dense := false }⟩ := by
    decide +kernel
  ⟨lawful, plain, seen, keys_agree lawful plain seen rfl .enumerable⟩

/-- The name that was added last comes first, and the hidden index is left out of the second list. -/
example :
    let realm := (ofConfig { maxVectorSize := 4 }).course Host.none mingling
    realm.sight.keys ⟨0, 0⟩ .all =
        some [.length, .index 1, .index 5, .index 9, .named 3, .named 2] ∧
      realm.sight.keys ⟨0, 0⟩ .enumerable = some [.index 1, .index 9, .named 3, .named 2] := by
  decide +kernel

end Realm

end HiddenClass
