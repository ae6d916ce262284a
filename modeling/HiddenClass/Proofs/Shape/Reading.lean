import HiddenClass.Proofs.Shape.Chronicle

/-!
What can be asked of a shape is what its history makes of the slots, however the shape was obtained:
made anew or copied, edited in place, forked or reached over a known transition, with or without a
table, and whatever was asked before.
-/

namespace HiddenClass

/-- All that can be asked of a shape; what gets no answer is missing. -/
structure Reading where
  offset? : Key → Option (Option Nat)
  size : Option Nat
  freed : Option (List Nat)
  names : Option (List (Key × Nat))

def Shapes.reading (shapes : Shapes) (handle : Handle) : Reading where
  offset? := fun key => (lookup handle key).answer? shapes
  size := (shapes.arena.get? handle).map Shape.size
  freed := (shapes.arena.get? handle).map Shape.freed
  names := (Shapes.names handle).answer? shapes

def Allotment.reading (allotment : Allotment) : Reading where
  offset? := fun key => some (allotment.offset? key)
  size := some allotment.size
  freed := some allotment.freed
  names := some allotment.names

def Layout.reading (layout : Layout) : Reading where
  offset? := fun key => some (layout.offset? key)
  size := some layout.size
  freed := some layout.freed
  names := some layout.table

theorem Layout.Arises.reading_eq {layout : Layout} {history : List Edit}
    (arises : layout.Arises history) : layout.reading = (Allotment.ofHistory history).reading := by
  have fills := arises.fills
  unfold Layout.reading Allotment.reading
  rw [fills.names_eq arises.sound, fills.freed, ← fills.size_eq]
  simp only [fills.offset?_eq]
  rfl

namespace Chart

variable {chart later : Chart} {handle : Handle}

/-- No answer tells whether there is a table. -/
theorem reading_eq (live : chart.Live handle) :
    chart.shapes.reading handle = (chart.layouts handle).reading := by
  obtain ⟨shape, found⟩ := live_iff.mp live
  obtain ⟨_, _, listed⟩ := names_ok live
  have offsets : (fun key => (Shapes.lookup handle key).answer? chart.shapes) =
      fun key => some ((chart.layouts handle).offset? key) := by
    funext key
    obtain ⟨_, _, ran⟩ := lookup_ok live key
    exact Action.answer?_ok ran
  have cell : chart.shapes.arena.get? handle = some shape := found
  unfold Shapes.reading Layout.reading
  rw [offsets, Action.answer?_ok listed, cell, Option.map_some, Option.map_some,
    (fits found).size_eq, (fits found).freed]

theorem Agrees.reading_eq (agrees : Agrees chart later) (live : chart.Live handle) :
    later.shapes.reading handle = chart.shapes.reading handle := by
  rw [Chart.reading_eq live, Chart.reading_eq ((agrees.live handle).mpr live), agrees.layouts]

end Chart

namespace Chronicle

variable {slotCapacity : Nat} {requests : List Shapes.Request}

/-- After any run that keeps to the rules, every shape that was obtained answers as its history says.
So shapes with one history answer alike, no further request fails, and building the table of one shape
changes no answer of any. -/
theorem reading_eq_history (lawful : (start slotCapacity).lawful requests = true) :
    let chronicle := (start slotCapacity).after requests
    (∀ handle, chronicle.shapes.live handle = true ↔ chronicle.annals handle ≠ []) ∧
    (∀ handle, ∀ history ∈ chronicle.annals handle,
      chronicle.shapes.reading handle = (Allotment.ofHistory history).reading) ∧
    (∀ handle other history, history ∈ chronicle.annals handle →
      history ∈ chronicle.annals other →
      chronicle.shapes.reading handle = chronicle.shapes.reading other) ∧
    (∀ request : Shapes.Request, request.isLawful chronicle.shapes = true →
      ∃ own later, request.perform chronicle.shapes = .ok own later) ∧
    ∀ handle, chronicle.shapes.live handle = true →
      ∃ later, Shapes.materialize handle chronicle.shapes = .ok () later ∧
        ∀ other, chronicle.shapes.live other = true →
          later.reading other = chronicle.shapes.reading other := by
  intro chronicle
  obtain ⟨first, begun⟩ := told_start slotCapacity
  obtain ⟨chart, told⟩ := begun.after lawful
  have read : ∀ handle, ∀ history ∈ chronicle.annals handle,
      chronicle.shapes.reading handle = (Allotment.ofHistory history).reading := by
    intro handle history member
    calc chronicle.shapes.reading handle
        = chart.shapes.reading handle := by rw [told.shapes]
      _ = (chart.layouts handle).reading := Chart.reading_eq (told.live_of_mem member)
      _ = (Allotment.ofHistory history).reading := (told.arises handle history member).reading_eq
  have live_iff : ∀ handle, chronicle.shapes.live handle = true ↔ chart.Live handle := by
    intro handle
    rw [← told.shapes]
    rfl
  refine ⟨?_, read, ?_, ?_, ?_⟩
  · intro handle
    exact (live_iff handle).trans (told.obtained handle)
  · intro handle other history member memberOther
    exact (read handle history member).trans (read other history memberOther).symm
  · intro request permitted
    obtain ⟨own, later, ran, _⟩ := told.perform permitted
    exact ⟨own, later.shapes, ran⟩
  · intro handle live
    obtain ⟨shape, found⟩ := Chart.live_iff.mp ((live_iff handle).mp live)
    obtain ⟨later, _, built, agrees, _⟩ := Chart.materialize_ok found
    refine ⟨later.shapes, ?_, fun other present => ?_⟩
    · rw [← told.shapes]
      exact built
    · rw [agrees.reading_eq ((live_iff other).mp present), told.shapes]

/-- Two ways to one layout. A shape loses a name and is copied; the copy is edited in place and then
opened to sharing, while the shape itself goes on by a transition and a fork. Both then gain a name. -/
def detours : List Shapes.Request :=
  let shape (index : Nat) : Handle := ⟨index, 0⟩
  [.newRoot, .add (shape 0) (.named 1), .add (shape 1) (.named 2), .add (shape 2) (.named 3),
    .remove (shape 3) (.named 1), .newUniqueFrom (shape 4), .add (shape 5) (.index 4),
    .remove (shape 5) (.named 2), .share (shape 5), .add (shape 4) (.index 4),
    .remove (shape 6) (.named 2), .names (shape 2), .add (shape 5) (.index 5),
    .lookup (shape 3) (.index 5), .add (shape 7) (.index 5), .add (shape 7) (.index 5)]

def detour : List Edit :=
  [.add (.named 1), .add (.named 2), .add (.named 3), .remove (.named 1), .add (.index 4),
    .remove (.named 2), .add (.index 5)]

theorem reading_eq_history_detours :
    (start 8).lawful detours = true ∧
      detour ∈ ((start 8).after detours).annals ⟨8, 0⟩ ∧
      detour ∈ ((start 8).after detours).annals ⟨9, 0⟩ ∧
      ((start 8).after detours).shapes.reading ⟨8, 0⟩ =
        ((start 8).after detours).shapes.reading ⟨9, 0⟩ ∧
      (((start 8).after detours).shapes.reading ⟨8, 0⟩).names =
        some [(.index 4, 0), (.index 5, 1), (.named 3, 2)] :=
  have lawful : (start 8).lawful detours = true := by decide +kernel
  have led : detour ∈ ((start 8).after detours).annals ⟨8, 0⟩ := by decide +kernel
  have ledOther : detour ∈ ((start 8).after detours).annals ⟨9, 0⟩ := by decide +kernel
  have ⟨_, read, alike, _⟩ := reading_eq_history lawful
  ⟨lawful, led, ledOther, alike _ _ detour led ledOther,
    (congrArg Reading.names (read _ detour led)).trans (by decide +kernel)⟩

end Chronicle

end HiddenClass
