import HiddenClass.Proofs.Arena
import Mathlib.Data.List.Nodup

/-!
An arena beside the record of all that was done to it. No handle is issued twice, and what a handle
resolves to can be read off the record: nothing unless it was issued and not freed since, and
otherwise what was written through it last.
-/

namespace HiddenClass

variable {α σ : Type}

/-- How many handles of the slot were issued: one for each time it was freed, and one for its
cell. -/
def Entry.uses (entry : Entry α) : Nat := entry.recycled + if entry.cell.isSome then 1 else 0

namespace Arena

variable {arena : Arena α} {handle other : Handle} {cell : α}

/-- How many handles of a slot were issued; none of a slot that there is not yet. -/
def uses (arena : Arena α) (index : Nat) : Nat := (arena.entries[index]?).elim 0 Entry.uses

/-- Allocation uses one slot once more, and the handle says how often it was used before. -/
theorem alloc_uses (sound : arena.Sound) (cell : α) : ∃ index,
    (arena.alloc cell).1 = ⟨index, UInt32.ofNat (arena.uses index)⟩ ∧
    ∀ place, (arena.alloc cell).2.uses place = arena.uses place + if place = index then 1 else 0 := by
  unfold alloc
  cases vacancy : arena.vacant with
  | nil =>
    refine ⟨arena.entries.size, by simp [uses, Entry.handle], ?_⟩
    intro place
    dsimp only [uses]
    rw [Array.getElem?_push]
    by_cases last : place = arena.entries.size
    · simp [last, Entry.uses]
    · rw [if_neg last, if_neg last, Nat.add_zero]
  | cons index rest =>
    have member : index ∈ arena.vacant := by simp [vacancy]
    obtain ⟨entry, present, empty⟩ := (sound.empty index).mp member
    have bound := (Array.getElem?_eq_some_iff.mp present).1
    have before : arena.uses index = entry.recycled := by simp [uses, present, Entry.uses, empty]
    refine ⟨index, ?_, ?_⟩
    · rw [before]
      dsimp only
      rw [present]
      rfl
    · intro place
      dsimp only
      by_cases here : place = index
      · rw [if_pos here, here, before, present]
        simp [uses, bound, Entry.uses]
      · rw [if_neg here, uses, Array.getElem?_setIfInBounds, if_neg (Ne.symm here)]
        rfl

theorem uses_set (arena : Arena α) (handle : Handle) (cell : α) (index : Nat) :
    (arena.set handle cell).uses index = arena.uses index := by
  by_cases live : arena.contains handle = true
  · obtain ⟨former, found⟩ := contains_iff.mp live
    obtain ⟨entry, occupied, _, filled⟩ := get?_eq_some_iff.mp found
    simp only [set, live, if_true, uses, Array.getElem?_modify]
    by_cases here : handle.index = index
    · subst here
      simp [occupied, Entry.uses, filled]
    · rw [if_neg here]
  · rw [set, if_neg live]

theorem uses_release (live : arena.contains handle = true) (index : Nat) :
    (arena.release handle).uses index = arena.uses index := by
  obtain ⟨former, found⟩ := contains_iff.mp live
  obtain ⟨entry, occupied, _, filled⟩ := get?_eq_some_iff.mp found
  simp only [release, uses, Array.getElem?_modify]
  by_cases here : handle.index = index
  · subst here
    simp [occupied, Entry.uses, filled]
  · rw [if_neg here]

theorem uses_foldl_release (dropped : List Handle) (distinct : dropped.Nodup)
    (live : ∀ handle ∈ dropped, arena.contains handle = true) (index : Nat) :
    (dropped.foldl release arena).uses index = arena.uses index := by
  induction dropped generalizing arena with
  | nil => rfl
  | cons first rest ih =>
    obtain ⟨absent, restDistinct⟩ := List.nodup_cons.mp distinct
    obtain ⟨firstLive, restLive⟩ := List.forall_mem_cons.mp live
    rw [List.foldl_cons, ih restDistinct, uses_release firstLive]
    intro handle member
    exact contains_release firstLive (fun same => absent (same ▸ member)) (restLive handle member)

theorem uses_retain (arena : Arena α) (keep : Handle → Bool) (index : Nat) :
    (arena.retain keep).2.uses index = arena.uses index :=
  uses_foldl_release _ (arena.handles_nodup.filter _)
    (fun handle member => ((mem_dropped keep handle).mp member).2) index

/-! ### The walk over the slots -/

section Sweep

variable (keep : Handle → StateM σ Bool)

/-- Asks whether a cell is to be kept, and frees and counts it otherwise. -/
def judge (walk : Nat × Arena α) (handle : Handle) : StateM σ (Nat × Arena α) := do
  if ← keep handle then return walk
  return (walk.1 + 1, walk.2.release handle)

def sweepSlot (walk : Nat × Arena α) (slot : Entry α × Nat) : StateM σ (Nat × Arena α) :=
  if slot.1.cell.isSome then judge keep walk (slot.1.handle slot.2) else return walk

/-- A walk over all slots, the empty ones left out, with a predicate that may remember what it was
asked before. -/
def sweep (arena : Arena α) : StateM σ (Nat × Arena α) :=
  arena.entries.toList.zipIdx.foldlM (sweepSlot keep) (0, arena)

theorem sweep_eq_foldlM_handles : arena.sweep keep = arena.handles.foldlM (judge keep) (0, arena) := by
  unfold sweep handles
  generalize arena.entries.toList.zipIdx = slots
  generalize (0, arena) = walk
  induction slots generalizing walk with
  | nil => rfl
  | cons slot rest ih =>
    obtain ⟨⟨recycled, cell⟩, index⟩ := slot
    rw [List.foldlM_cons, List.filterMap_cons]
    cases cell with
    | none => exact (pure_bind ..).trans (ih walk)
    | some cell => exact bind_congr ih

/-- The handles of a list that are not among those with a verdict for them. -/
def rejected (handles : List Handle) (verdicts : List Bool) : List Handle :=
  handles.filter fun handle => !decide ((handle, true) ∈ handles.zip verdicts)

theorem rejected_cons {rest : List Handle} (absent : handle ∉ rest) (verdict : Bool)
    (verdicts : List Bool) :
    rejected (handle :: rest) (verdict :: verdicts) =
      if verdict then rejected rest verdicts else handle :: rejected rest verdicts := by
  have others : (rest.filter fun other =>
      !decide ((other, true) ∈ (handle, verdict) :: rest.zip verdicts)) = rejected rest verdicts := by
    refine List.filter_congr fun other member => ?_
    have different : other ≠ handle := fun same => absent (same ▸ member)
    simp [different]
  have unlisted : (handle, true) ∉ rest.zip verdicts := fun member => absent (List.of_mem_zip member).1
  rw [rejected, List.zip_cons_cons, List.filter_cons, others]
  cases verdict <;> simp [unlisted]

theorem foldlM_judge {handles : List Handle} (distinct : handles.Nodup) (walk : Nat × Arena α) :
    handles.foldlM (judge keep) walk = do
      let verdicts ← handles.mapM keep
      let dropped := rejected handles verdicts
      return (walk.1 + dropped.length, dropped.foldl release walk.2) := by
  induction handles generalizing walk with
  | nil => rfl
  | cons first rest ih =>
    obtain ⟨absent, restDistinct⟩ := List.nodup_cons.mp distinct
    rw [List.foldlM_cons, List.mapM_cons, judge]
    simp only [bind_assoc, pure_bind]
    refine bind_congr fun verdict => ?_
    cases verdict with
    | true =>
      simp only [if_true, pure_bind, ih restDistinct]
      refine bind_congr fun verdicts => ?_
      rw [rejected_cons absent, if_pos rfl]
    | false =>
      simp only [Bool.false_eq_true, if_false, pure_bind, ih restDistinct]
      refine bind_congr fun verdicts => ?_
      rw [rejected_cons absent, if_neg Bool.false_ne_true, List.length_cons, List.foldl_cons,
        Nat.add_assoc, Nat.add_comm 1]

/-- The walk asks once for each live handle, by ascending slot, and frees those that are
rejected. -/
theorem sweep_eq_retain : arena.sweep keep = do
    let verdicts ← arena.handles.mapM keep
    return arena.retain fun handle => (handle, true) ∈ arena.handles.zip verdicts := by
  rw [sweep_eq_foldlM_handles, foldlM_judge keep arena.handles_nodup]
  simp only [Nat.zero_add]
  rfl

end Sweep

/-! ### The record -/

inductive Operation (α : Type) where
  | alloc (cell : α)
  | set (handle : Handle) (cell : α)
  | retain (keep : Handle → Bool)

inductive Event (α : Type) where
  | issued (handle : Handle) (cell : α)
  | written (handle : Handle) (cell : α)
  | swept (keep : Handle → Bool)

namespace Event

def issue? : Event α → Option Handle
  | .issued handle _ => some handle
  | _ => none

/-- What the event puts behind the handle. -/
def cell? (handle : Handle) : Event α → Option α
  | .issued target cell => if target = handle then some cell else none
  | .written target cell => if target = handle then some cell else none
  | .swept _ => none

def frees (handle : Handle) : Event α → Bool
  | .swept keep => !keep handle
  | _ => false

end Event

/-- An arena and all that was done to it, the last in front. -/
structure Ledger (α : Type) where
  arena : Arena α := {}
  events : List (Event α) := []

namespace Ledger

variable {ledger : Ledger α} {event : Event α} {events : List (Event α)}

def record (ledger : Ledger α) : Operation α → Ledger α
  | .alloc cell =>
    let (handle, arena) := ledger.arena.alloc cell
    { arena, events := .issued handle cell :: ledger.events }
  | .set handle cell =>
    { arena := ledger.arena.set handle cell, events := .written handle cell :: ledger.events }
  | .retain keep =>
    { arena := (ledger.arena.retain keep).2, events := .swept keep :: ledger.events }

def ofOperations (operations : List (Operation α)) : Ledger α := operations.foldl record {}

/-- The handles that were issued, the last in front. -/
def issues (events : List (Event α)) : List Handle := events.filterMap Event.issue?

/-- The handle was issued and not freed since. -/
def Stands (events : List (Event α)) (handle : Handle) : Prop :=
  ∃ later cell earlier, events = later ++ .issued handle cell :: earlier ∧
    ∀ event ∈ later, event.frees handle = false

/-- What was put behind the handle last. -/
def last? (events : List (Event α)) (handle : Handle) : Option α :=
  events.findSome? (Event.cell? handle)

theorem not_stands_nil : ¬Stands ([] : List (Event α)) handle := by
  rintro ⟨later, cell, earlier, same, _⟩
  exact absurd (List.append_eq_nil_iff.mp same.symm).2 (List.cons_ne_nil _ _)

theorem stands_cons : Stands (event :: events) handle ↔
    (∃ cell, event = .issued handle cell) ∨ (event.frees handle = false ∧ Stands events handle) := by
  constructor
  · rintro ⟨later, cell, earlier, same, kept⟩
    cases later with
    | nil => exact .inl ⟨cell, (List.cons.inj same).1⟩
    | cons first later =>
      obtain ⟨rfl, rest⟩ := List.cons.inj same
      obtain ⟨here, others⟩ := List.forall_mem_cons.mp kept
      exact .inr ⟨here, later, cell, earlier, rest, others⟩
  · rintro (⟨cell, rfl⟩ | ⟨here, later, cell, earlier, rfl, kept⟩)
    · exact ⟨[], cell, events, rfl, nofun⟩
    · exact ⟨event :: later, cell, earlier, rfl, List.forall_mem_cons.mpr ⟨here, kept⟩⟩

/-- Of handles issued once each, one that was freed does not stand any more. -/
theorem not_stands_of_freed {later earlier : List (Event α)} {keep : Handle → Bool}
    (distinct : (issues (later ++ .swept keep :: earlier)).Nodup)
    (issued : handle ∈ issues earlier) (freed : keep handle = false) :
    ¬Stands (later ++ .swept keep :: earlier) handle := by
  induction later with
  | nil =>
    rw [List.nil_append, stands_cons]
    rintro (⟨cell, same⟩ | ⟨kept, _⟩)
    · cases same
    · rw [Event.frees, freed] at kept
      cases kept
  | cons event later ih =>
    rw [List.cons_append, stands_cons]
    rintro (⟨cell, rfl⟩ | ⟨_, stands⟩)
    · have again : handle ∈ issues (later ++ .swept keep :: earlier) := by
        rw [issues, List.filterMap_append]
        exact List.mem_append_right _ issued
      exact (List.nodup_cons.mp distinct).1 again
    · refine ih ?_ stands
      exact distinct.sublist ((List.sublist_cons_self ..).filterMap _)

theorem last?_cons : last? (event :: events) handle =
    (event.cell? handle).or (last? events handle) := by
  unfold last?
  rw [List.findSome?_cons]
  cases event.cell? handle <;> rfl

theorem exists_last?_of_stands (stands : Stands events handle) :
    ∃ cell, last? events handle = some cell := by
  obtain ⟨later, cell, earlier, rfl, _⟩ := stands
  refine Option.isSome_iff_exists.mp (List.findSome?_isSome_iff.mpr ⟨.issued handle cell, ?_, ?_⟩)
  · exact List.mem_append_right _ (List.mem_cons_self ..)
  · rw [Event.cell?, if_pos rfl]
    rfl

theorem sound_record (sound : ledger.arena.Sound) (operation : Operation α) :
    (ledger.record operation).arena.Sound := by
  cases operation with
  | alloc cell => exact sound_alloc sound cell
  | set handle cell => exact sound_set sound handle cell
  | retain keep => exact sound_retain keep sound

theorem uses_le_record (sound : ledger.arena.Sound) (operation : Operation α) (index : Nat) :
    ledger.arena.uses index ≤ (ledger.record operation).arena.uses index := by
  cases operation with
  | alloc cell =>
    obtain ⟨place, _, uses⟩ := alloc_uses sound cell
    exact (Nat.le_add_right ..).trans_eq (uses index).symm
  | set handle cell => exact (uses_set ..).ge
  | retain keep => exact (uses_retain ..).ge

/-- What is true of an arena beside its record. -/
structure Kept (ledger : Ledger α) : Prop where
  sound : ledger.arena.Sound
  distinct : (issues ledger.events).Nodup
  mem_issues : ∀ handle, handle ∈ issues ledger.events ↔
    ∃ use < ledger.arena.uses handle.index, handle.generation = UInt32.ofNat use
  get? : ∀ handle cell, ledger.arena.get? handle = some cell ↔
    Stands ledger.events handle ∧ last? ledger.events handle = some cell

theorem kept_empty : Kept ({} : Ledger α) where
  sound := sound_empty
  distinct := List.nodup_nil
  mem_issues := by simp [issues, uses]
  get? := by
    intro handle cell
    have absent : ({} : Arena α).get? handle = none := rfl
    simp [absent, not_stands_nil]

namespace Kept

theorem contains_iff (kept : ledger.Kept) :
    ledger.arena.contains handle = true ↔ Stands ledger.events handle := by
  rw [Arena.contains_iff]
  constructor
  · rintro ⟨cell, found⟩
    exact ((kept.get? handle cell).mp found).1
  · intro stands
    obtain ⟨cell, last⟩ := exists_last?_of_stands stands
    exact ⟨cell, (kept.get? handle cell).mpr ⟨stands, last⟩⟩

/-- As long as its slot was not used too often, a new handle was never issued before. -/
theorem fresh (kept : ledger.Kept) {index : Nat}
    (small : ledger.arena.uses index < 4294967296) :
    ⟨index, UInt32.ofNat (ledger.arena.uses index)⟩ ∉ issues ledger.events := by
  intro issued
  obtain ⟨use, before, same⟩ := (kept.mem_issues _).mp issued
  have numbers := congrArg UInt32.toNat same
  rw [UInt32.toNat_ofNat_of_lt' small, UInt32.toNat_ofNat_of_lt' (before.trans small)] at numbers
  exact absurd numbers (Nat.ne_of_gt before)

theorem alloc (kept : ledger.Kept) (cell : α)
    (fits : ∀ index, (ledger.record (.alloc cell)).arena.uses index ≤ 4294967296) :
    (ledger.record (.alloc cell)).Kept := by
  obtain ⟨index, made, uses⟩ := alloc_uses kept.sound cell
  have small : ledger.arena.uses index < 4294967296 := by
    have bound := fits index
    rw [record, uses, if_pos rfl] at bound
    exact bound
  have absent := kept.fresh small
  rw [← made] at absent
  refine ⟨sound_alloc kept.sound cell, List.nodup_cons.mpr ⟨absent, kept.distinct⟩, ?_, ?_⟩
  · intro handle
    have member : handle ∈ issues (ledger.record (.alloc cell)).events ↔
        handle = (ledger.arena.alloc cell).1 ∨ handle ∈ issues ledger.events := List.mem_cons
    rw [member, kept.mem_issues, made, record, uses]
    constructor
    · rintro (rfl | ⟨use, before, same⟩)
      · exact ⟨ledger.arena.uses index, by simp, rfl⟩
      · exact ⟨use, Nat.lt_add_right _ before, same⟩
    · rintro ⟨use, before, same⟩
      by_cases earlier : use < ledger.arena.uses handle.index
      · exact .inr ⟨use, earlier, same⟩
      · split at before
        case isTrue here =>
          have last : use = ledger.arena.uses handle.index := by omega
          rw [last] at same
          refine .inl ?_
          rw [← here, ← same]
        case isFalse => exact absurd before earlier
  · intro handle former
    have events : (ledger.record (.alloc cell)).events =
      .issued (ledger.arena.alloc cell).1 cell :: ledger.events := rfl
    rw [events, stands_cons, last?_cons, record, get?_alloc kept.sound, Event.cell?]
    by_cases same : handle = (ledger.arena.alloc cell).1
    · rw [if_pos same, if_pos same.symm, Option.some_or]
      exact ⟨fun found => ⟨.inl ⟨cell, by rw [same]⟩, found⟩, And.right⟩
    · rw [if_neg same, if_neg (Ne.symm same), Option.none_or, kept.get?]
      have other : ¬∃ cell', Event.issued (ledger.arena.alloc cell).1 cell = .issued handle cell' := by
        rintro ⟨_, issued⟩
        exact same (Event.issued.inj issued).1.symm
      simp only [other, Event.frees, true_and, false_or]

theorem set (kept : ledger.Kept) (handle : Handle) (cell : α) :
    (ledger.record (.set handle cell)).Kept := by
  refine ⟨sound_set kept.sound handle cell, kept.distinct, ?_, ?_⟩
  · intro other
    rw [record, uses_set]
    exact kept.mem_issues other
  · intro other former
    have events : (ledger.record (.set handle cell)).events =
      .written handle cell :: ledger.events := rfl
    have stands : Stands (ledger.record (.set handle cell)).events other ↔
        Stands ledger.events other := by
      rw [events, stands_cons]
      simp [Event.frees]
    rw [stands, events, last?_cons, record, get?_set, Event.cell?]
    by_cases same : other = handle
    · subst same
      rw [if_pos rfl, Option.some_or, ← kept.contains_iff]
      by_cases live : ledger.arena.contains other = true
      · simp [live]
      · simp [live, get?_eq_none_iff.mpr live]
    · rw [if_neg fun both => same both.1, if_neg (Ne.symm same), Option.none_or]
      exact kept.get? other former

theorem retain (kept : ledger.Kept) (keep : Handle → Bool) :
    (ledger.record (.retain keep)).Kept := by
  refine ⟨sound_retain keep kept.sound, kept.distinct, ?_, ?_⟩
  · intro handle
    rw [record, uses_retain]
    exact kept.mem_issues handle
  · intro handle cell
    have events : (ledger.record (.retain keep)).events = .swept keep :: ledger.events := rfl
    rw [events, stands_cons, last?_cons, record, get?_retain, Event.cell?, Option.none_or]
    have found := kept.get? handle cell
    cases keeps : keep handle with
    | true => simp [Event.frees, keeps, found]
    | false => simp [Event.frees, keeps]

end Kept

theorem ofOperations_concat (operations : List (Operation α)) (operation : Operation α) :
    ofOperations (operations ++ [operation]) = (ofOperations operations).record operation :=
  List.foldl_concat ..

theorem sound_ofOperations (operations : List (Operation α)) :
    (ofOperations operations).arena.Sound := by
  induction operations using List.reverseRecOn with
  | nil => exact sound_empty
  | append_singleton operations operation ih =>
    rw [ofOperations_concat]
    exact sound_record ih operation

theorem kept_ofOperations (operations : List (Operation α))
    (fits : ∀ index, (ofOperations operations).arena.uses index ≤ 4294967296) :
    (ofOperations operations).Kept := by
  induction operations using List.reverseRecOn with
  | nil => exact kept_empty
  | append_singleton operations operation ih =>
    rw [ofOperations_concat] at fits ⊢
    have before : (ofOperations operations).Kept := ih fun index =>
      (uses_le_record (sound_ofOperations operations) operation index).trans (fits index)
    cases operation with
    | alloc cell => exact before.alloc cell fits
    | set handle cell => exact before.set handle cell
    | retain keep => exact before.retain keep

/-- What can be said of an arena after any operations. -/
structure Faithful (ledger : Ledger α) : Prop where
  /-- No handle was issued twice. -/
  distinct : (issues ledger.events).Nodup
  get? : ∀ handle cell, ledger.arena.get? handle = some cell ↔
    Stands ledger.events handle ∧ last? ledger.events handle = some cell
  /-- A handle that was freed never resolves again, whatever its slot holds. -/
  stale : ∀ later keep earlier handle, ledger.events = later ++ .swept keep :: earlier →
    handle ∈ issues earlier → keep handle = false → ledger.arena.get? handle = none
  mem_handles : ∀ handle, handle ∈ ledger.arena.handles ↔ Stands ledger.events handle
  ascending : ledger.arena.handles.Pairwise fun first second => first.index < second.index
  size : ledger.arena.size = ledger.arena.handles.length
  /-- What is rejected is freed and counted, and the rest is left as it is. -/
  retain : ∀ keep : Handle → Bool,
    (∀ handle, (ledger.arena.retain keep).2.get? handle =
      if keep handle then ledger.arena.get? handle else none) ∧
    (ledger.arena.retain keep).1 = (ledger.arena.handles.filter fun handle => !keep handle).length
  /-- A predicate with a memory is asked once for each live handle, in their order. -/
  sweep : ∀ (σ : Type) (keep : Handle → StateM σ Bool), ledger.arena.sweep keep = do
    let verdicts ← ledger.arena.handles.mapM keep
    return ledger.arena.retain fun handle => (handle, true) ∈ ledger.arena.handles.zip verdicts

theorem uses_le_of_recycled_lt {arena : Arena α}
    (fits : ∀ entry ∈ arena.entries, entry.recycled < 4294967296) (index : Nat) :
    arena.uses index ≤ 4294967296 := by
  unfold uses
  cases present : arena.entries[index]? with
  | none => exact Nat.zero_le _
  | some entry =>
    have small := fits entry (Array.mem_of_getElem? present)
    simp only [Option.elim_some, Entry.uses]
    split <;> omega

/-- An arena is a map with handles that are never reused, as long as no slot is recycled as often as
there are generations. -/
theorem faithful_ofOperations (operations : List (Operation α))
    (fits : ∀ entry ∈ (ofOperations operations).arena.entries, entry.recycled < 4294967296) :
    (ofOperations operations).Faithful := by
  have kept := kept_ofOperations operations (uses_le_of_recycled_lt fits)
  refine ⟨kept.distinct, kept.get?, ?_, ?_, handles_pairwise _, (length_handles kept.sound).symm,
    fun keep => ⟨get?_retain keep, rfl⟩, fun _ keep => sweep_eq_retain keep⟩
  · intro later keep earlier handle events issued freed
    rw [get?_eq_none_iff, kept.contains_iff]
    have distinct := kept.distinct
    rw [events] at distinct ⊢
    exact not_stands_of_freed distinct issued freed
  · intro handle
    rw [Arena.mem_handles, kept.contains_iff]

/-- A slot that is used again; its former handle stays stale, and its write is lost. -/
def reuse : List (Operation Nat) :=
  [.alloc 1, .alloc 2, .set ⟨1, 0⟩ 5, .retain (· ≠ ⟨0, 0⟩), .alloc 3, .set ⟨0, 0⟩ 7]

theorem faithful_reuse :
    (∀ entry ∈ (ofOperations reuse).arena.entries, entry.recycled < 4294967296) ∧
    (ofOperations reuse).Faithful ∧
    issues (ofOperations reuse).events = [⟨0, 1⟩, ⟨1, 0⟩, ⟨0, 0⟩] ∧
    (issues (ofOperations reuse).events).map (ofOperations reuse).arena.get? =
      [some 3, some 5, none] := by
  have fits : ∀ entry ∈ (ofOperations reuse).arena.entries, entry.recycled < 4294967296 := by
    decide +kernel
  exact ⟨fits, faithful_ofOperations reuse fits, by decide +kernel, by decide +kernel⟩

end Ledger

end Arena

end HiddenClass
