import HiddenClass.Proofs.Collect.Marking

/-!
What a collection keeps. A mark belongs to a place, so a root that is gone can take the place of a
live cell, which is then kept without being traced. Where that does not happen, exactly the cells that
the live roots lead to are kept.
-/

namespace HiddenClass.Realm

variable {realm : Realm} {roots : List Cell} {cell other next source : Cell} {listed : List Handle}

def Alive (realm : Realm) : Cell → Prop
  | .object handle => realm.objects.contains handle = true
  | .shape handle => realm.shapes.arena.contains handle = true

/-- What live cells hold is live. -/
def Tight (realm : Realm) : Prop := ∀ cell, ∀ next ∈ realm.edges cell, realm.Alive next

instance (realm : Realm) (cell : Cell) : Decidable (realm.Alive cell) :=
  match cell with
  | .object handle => inferInstanceAs (Decidable (realm.objects.contains handle = true))
  | .shape handle => inferInstanceAs (Decidable (realm.shapes.arena.contains handle = true))

def cells (realm : Realm) : List Cell :=
  realm.objects.handles.map .object ++ realm.shapes.arena.handles.map .shape

/-- Another root comes first at the place of the cell. -/
def Shadowed (roots : List Cell) (cell : Cell) : Prop :=
  ∃ first, roots.find? (fun root => root.place = cell.place) = some first ∧ first ≠ cell

/-- The cells that lie at the place of a root or are led to by a kept cell that is not shadowed. -/
inductive Kept (realm : Realm) (roots : List Cell) : Cell → Prop where
  | root {root cell : Cell} (member : root ∈ roots) (same : root.place = cell.place)
      (alive : realm.Alive cell) : Kept realm roots cell
  | edge {source next : Cell} (kept : Kept realm roots source) (clear : ¬Shadowed roots source)
      (member : next ∈ realm.edges source) : Kept realm roots next

/-- The cells that the live roots lead to. -/
inductive Reached (realm : Realm) (roots : List Cell) : Cell → Prop where
  | root {root : Cell} (member : root ∈ roots) (alive : realm.Alive root) : Reached realm roots root
  | edge {source next : Cell} (reached : Reached realm roots source)
      (member : next ∈ realm.edges source) : Reached realm roots next

theorem alive_of_edge (member : next ∈ realm.edges source) : realm.Alive source := by
  cases source with
  | object handle =>
    cases found : realm.objects.get? handle with
    | none =>
      rw [edges, found] at member
      cases member
    | some object => exact Arena.contains_of_get? found
  | shape handle =>
    cases found : realm.shapes.arena.get? handle with
    | none =>
      rw [edges, found] at member
      cases member
    | some shape => exact Arena.contains_of_get? found

theorem mem_cells : cell ∈ realm.cells ↔ realm.Alive cell := by
  cases cell with
  | object handle => simp [cells, Alive, Arena.mem_handles]
  | shape handle => simp [cells, Alive, Arena.mem_handles]

theorem tight_iff : realm.Tight ↔ ∀ cell ∈ realm.cells, ∀ next ∈ realm.edges cell, realm.Alive next :=
  ⟨fun tight cell _ => tight cell,
    fun listed cell next member => listed cell (mem_cells.mpr (alive_of_edge member)) next member⟩

instance (realm : Realm) : Decidable realm.Tight := decidable_of_iff _ tight_iff.symm

theorem Alive.eq_of_place_eq (alive : realm.Alive cell) (present : realm.Alive other)
    (same : cell.place = other.place) : cell = other := by
  cases cell with
  | object handle =>
    cases other with
    | object second => rw [Arena.eq_of_index_eq alive present (Sum.inl.inj same)]
    | shape second => cases same
  | shape handle =>
    cases other with
    | object second => cases same
    | shape second => rw [Arena.eq_of_index_eq alive present (Sum.inr.inj same)]

theorem Alive.place_mem (alive : realm.Alive cell) : cell.place ∈ realm.places := by
  cases cell with
  | object handle =>
    exact Finset.inl_mem_disjSum.mpr (Finset.mem_range.mpr (Arena.index_lt_capacity alive))
  | shape handle =>
    exact Finset.inr_mem_disjSum.mpr (Finset.mem_range.mpr (Arena.index_lt_capacity alive))

theorem Kept.alive (tight : realm.Tight) (kept : Kept realm roots cell) : realm.Alive cell := by
  cases kept with
  | root member same alive => exact alive
  | edge kept clear member => exact tight _ _ member

theorem Reached.alive (tight : realm.Tight) (reached : Reached realm roots cell) :
    realm.Alive cell := by
  cases reached with
  | root member alive => exact alive
  | edge reached member => exact tight _ _ member

/-! ### Marks -/

theorem exists_first (member : other ∈ roots) (same : other.place = cell.place) :
    ∃ first, roots.find? (fun root => root.place = cell.place) = some first := by
  rw [← Option.isSome_iff_exists, List.find?_isSome]
  exact ⟨other, member, decide_eq_true same⟩

theorem Pushed.unique (tight : realm.Tight) (first : Pushed realm roots cell)
    (second : Pushed realm roots other) (same : cell.place = other.place) : cell = other := by
  cases first with
  | root found =>
    cases second with
    | root foundOther =>
      rw [same] at found
      exact Option.some.inj (found.symm.trans foundOther)
    | edge pushed member free => exact absurd same (free cell (List.mem_of_find?_eq_some found))
  | edge pushed member free =>
    cases second with
    | root found => exact absurd same.symm (free other (List.mem_of_find?_eq_some found))
    | edge pushedOther memberOther freeOther =>
      exact (tight _ _ member).eq_of_place_eq (tight _ _ memberOther) same

/-- Every live cell that is pushed is traced. -/
theorem Progress.traced (tight : realm.Tight) {marks : Marks} {traced : List Cell}
    (progress : Progress realm roots marks traced) (ended : marks.pending = [])
    (pushed : Pushed realm roots cell) (inside : cell.place ∈ realm.places) : cell ∈ traced := by
  have here : ∀ other, Pushed realm roots other → other.place ∈ traced.map Cell.place →
      other ∈ traced := by
    intro other pushedOther member
    obtain ⟨found, present, same⟩ := List.mem_map.mp member
    have origin := progress.origin found (List.mem_append_left _ present)
    exact pushedOther.unique tight origin same.symm ▸ present
  have seen : ∀ {place}, place ∈ realm.places → marks.marked place ≠ some false →
      place ∈ traced.map Cell.place := by
    intro place within unmarked
    have member := progress.seen within unmarked
    rwa [ended, List.append_nil] at member
  induction pushed with
  | @root cell found =>
    refine here cell (.root found) (seen inside ?_)
    exact progress.rooted cell (List.mem_of_find?_eq_some found)
  | @edge source cell pushed member free ih =>
    refine here cell (.edge pushed member free) (seen inside ?_)
    exact progress.closed source (ih (alive_of_edge member).place_mem) cell member

theorem kept_of_pushed (pushed : Pushed realm roots cell) (alive : realm.Alive cell) :
    Kept realm roots cell ∧ ¬Shadowed roots cell := by
  induction pushed with
  | root found =>
    refine ⟨.root (List.mem_of_find?_eq_some found) rfl alive, ?_⟩
    rintro ⟨first, foundFirst, different⟩
    exact different (Option.some.inj (foundFirst.symm.trans found))
  | edge pushed member free ih =>
    obtain ⟨kept, clear⟩ := ih (alive_of_edge member)
    refine ⟨.edge kept clear member, ?_⟩
    rintro ⟨first, foundFirst, _⟩
    exact free first (List.mem_of_find?_eq_some foundFirst)
      (by simpa using List.find?_some foundFirst)

theorem pushed_of_kept (kept : Kept realm roots cell) (clear : ¬Shadowed roots cell) :
    Pushed realm roots cell := by
  have rooted : ∀ {cell root}, root ∈ roots → root.place = cell.place → ¬Shadowed roots cell →
      Pushed realm roots cell := by
    intro cell root member same clear
    obtain ⟨first, found⟩ := exists_first member same
    by_cases equal : first = cell
    · exact .root (equal ▸ found)
    · exact absurd ⟨first, found, equal⟩ clear
  induction kept with
  | root member same alive => exact rooted member same clear
  | @edge source next kept clearSource member ih =>
    -- places of roots are marked before anything is traced, so no edge leads to a push there
    by_cases taken : ∃ root ∈ roots, root.place = next.place
    · obtain ⟨root, present, same⟩ := taken
      exact rooted present same clear
    · exact .edge (ih clearSource) member fun root present same => taken ⟨root, present, same⟩

/-- The places that are marked in the end are those of the cells to be kept. -/
theorem marked_iff (tight : realm.Tight) (alive : realm.Alive cell) :
    (realm.mark listed).marked cell.place = some true ↔ Kept realm (realm.rootCells listed) cell := by
  obtain ⟨traced, progress, ended⟩ := realm.mark_progress listed
  have marked : ∀ place, (realm.mark listed).marked place = some true ↔
      place ∈ traced.map Cell.place := by
    intro place
    rw [progress.marked, ended, List.append_nil]
  rw [marked]
  constructor
  · intro member
    obtain ⟨found, present, same⟩ := List.mem_map.mp member
    cases progress.origin found (List.mem_append_left _ present) with
    | root first => exact .root (List.mem_of_find?_eq_some first) same alive
    | edge pushed led free =>
      have equal := (tight _ _ led).eq_of_place_eq alive same
      exact equal ▸ (kept_of_pushed (.edge pushed led free) (tight _ _ led)).1
  · intro kept
    cases kept with
    | root member same _ =>
      have seen := progress.seen (same ▸ alive.place_mem) (progress.rooted _ member)
      rwa [ended, List.append_nil, same] at seen
    | edge kept clear member =>
      have source := progress.traced tight ended (pushed_of_kept kept clear)
        (alive_of_edge member).place_mem
      have seen := progress.seen alive.place_mem (progress.closed _ source _ member)
      rwa [ended, List.append_nil] at seen

/-- An object is shadowed if the first root at its place is another one. -/
theorem shadowed_object {handle : Handle} : Shadowed (realm.rootCells listed) (.object handle) ↔
    ∃ first, listed.find? (fun root => root.index = handle.index) = some first ∧ first ≠ handle := by
  have found : (realm.rootCells listed).find? (fun root => root.place = (Cell.object handle).place) =
      (listed.find? fun root => root.index = handle.index).map .object := by
    simp only [rootCells, List.find?_append, List.find?_map, Function.comp_def, Cell.place,
      Sum.inl.injEq, reduceCtorEq, decide_false, Bool.false_eq_true, not_false_eq_true,
      List.find?_cons_of_neg, List.find?_nil, Option.or_none]
  rw [Shadowed, found]
  cases listed.find? fun root => root.index = handle.index with
  | none => simp
  | some first => simp

/-! ### The realm after a collection -/

def swept (realm : Realm) (listed : List Handle) : Realm :=
  { realm with
    objects := (realm.objects.retain (realm.mark listed).hasObject).2
    shapes := { realm.shapes with
      arena := (realm.shapes.arena.retain (realm.mark listed).hasShape).2 } }

def census (realm : Realm) (listed : List Handle) : Census :=
  { liveObjects := (realm.swept listed).objects.size
    freedObjects := (realm.objects.retain (realm.mark listed).hasObject).1
    liveShapes := (realm.swept listed).shapes.arena.size
    freedShapes := (realm.shapes.arena.retain (realm.mark listed).hasShape).1 }

theorem collect_ok (realm : Realm) (listed : List Handle) :
    collect listed realm = .ok (realm.census listed) (realm.swept listed) := rfl

theorem alive_swept_iff_marked : (realm.swept listed).Alive cell ↔
    (realm.mark listed).marked cell.place = some true ∧ realm.Alive cell := by
  cases cell with
  | object handle =>
    rw [← Marks.hasObject_iff]
    exact Arena.contains_retain _ handle
  | shape handle =>
    rw [← Marks.hasShape_iff]
    exact Arena.contains_retain _ handle

/-- Exactly the cells to be kept are live after a collection. -/
theorem alive_swept (tight : realm.Tight) :
    (realm.swept listed).Alive cell ↔ Kept realm (realm.rootCells listed) cell := by
  rw [alive_swept_iff_marked]
  constructor
  · exact fun both => (marked_iff tight both.2).mp both.1
  · exact fun kept => ⟨(marked_iff tight (kept.alive tight)).mpr kept, kept.alive tight⟩

theorem alive_of_swept (survives : (realm.swept listed).Alive cell) : realm.Alive cell :=
  (alive_swept_iff_marked.mp survives).2

/-- An object that survives is unchanged. -/
theorem object_swept {handle : Handle} (survives : (realm.swept listed).Alive (.object handle)) :
    (realm.swept listed).objects.get? handle = realm.objects.get? handle := by
  have marked := Marks.hasObject_iff.mpr (alive_swept_iff_marked.mp survives).1
  exact (Arena.get?_retain _ handle).trans (if_pos marked)

/-- A shape that survives is unchanged. -/
theorem shape_swept {handle : Handle} (survives : (realm.swept listed).Alive (.shape handle)) :
    (realm.swept listed).shapes.arena.get? handle = realm.shapes.arena.get? handle := by
  have marked := Marks.hasShape_iff.mpr (alive_swept_iff_marked.mp survives).1
  exact (Arena.get?_retain _ handle).trans (if_pos marked)

theorem edges_swept (survives : (realm.swept listed).Alive cell) :
    (realm.swept listed).edges cell = realm.edges cell := by
  cases cell with
  | object handle => rw [edges, edges, object_swept survives]
  | shape handle => rw [edges, edges, shape_swept survives]

/-! ### Roots that shadow nothing -/

theorem not_shadowed (live : ∀ root ∈ roots, realm.Alive root) (alive : realm.Alive cell) :
    ¬Shadowed roots cell := by
  rintro ⟨first, found, different⟩
  have same : first.place = cell.place := by simpa using List.find?_some found
  exact different ((live first (List.mem_of_find?_eq_some found)).eq_of_place_eq alive same)

/-- No live cell is shadowed: a root that is gone takes no place of a live cell before it is marked on
its own account. -/
def Clear (realm : Realm) (roots : List Cell) : Prop :=
  ∀ cell, realm.Alive cell → ¬Shadowed roots cell

theorem clear_of_live (live : ∀ root ∈ roots, realm.Alive root) : realm.Clear roots :=
  fun _ alive => not_shadowed live alive

theorem kept_iff_reached (tight : realm.Tight) (clear : realm.Clear roots) :
    Kept realm roots cell ↔ Reached realm roots cell := by
  constructor
  · intro kept
    induction kept with
    | @root root cell member same alive =>
      obtain ⟨first, found⟩ := exists_first member same
      have equal : first = cell := by
        by_contra different
        exact clear cell alive ⟨first, found, different⟩
      exact .root (equal ▸ List.mem_of_find?_eq_some found) alive
    | edge kept clear member ih => exact .edge ih member
  · intro reached
    induction reached with
    | root member alive => exact .root member rfl alive
    | edge reached member ih => exact .edge ih (clear _ (reached.alive tight)) member

theorem clear_swept (clear : realm.Clear (realm.rootCells listed)) :
    (realm.swept listed).Clear ((realm.swept listed).rootCells listed) :=
  fun cell survives => clear cell (alive_of_swept survives)

section Clear

variable (tight : realm.Tight) (clear : realm.Clear (realm.rootCells listed))

include tight clear

/-- From roots that shadow nothing a collection keeps exactly what the live ones lead to. -/
theorem alive_swept_iff_reached :
    (realm.swept listed).Alive cell ↔ Reached realm (realm.rootCells listed) cell :=
  (alive_swept tight).trans (kept_iff_reached tight clear)

theorem tight_swept : (realm.swept listed).Tight := by
  intro cell next member
  have survives := alive_of_edge member
  rw [edges_swept survives] at member
  exact (alive_swept_iff_reached tight clear).mpr
    (.edge ((alive_swept_iff_reached tight clear).mp survives) member)

/-- What is reached before a collection is reached after it. -/
theorem reached_swept (reached : Reached realm (realm.rootCells listed) cell) :
    Reached (realm.swept listed) ((realm.swept listed).rootCells listed) cell := by
  induction reached with
  | root member alive =>
    exact .root member ((alive_swept_iff_reached tight clear).mpr (.root member alive))
  | edge reached member ih =>
    have survives := (alive_swept_iff_reached tight clear).mpr reached
    exact .edge ih ((edges_swept survives).symm ▸ member)

/-- A second collection from the same roots frees nothing. -/
theorem collect_again : collect listed (realm.swept listed) = .ok
    { realm.census listed with freedObjects := 0, freedShapes := 0 } (realm.swept listed) := by
  have marked : ∀ cell, (realm.swept listed).Alive cell →
      ((realm.swept listed).mark listed).marked cell.place = some true := by
    intro cell survives
    have reached := reached_swept tight clear ((alive_swept_iff_reached tight clear).mp survives)
    rw [marked_iff (tight_swept tight clear) survives,
      kept_iff_reached (tight_swept tight clear) (clear_swept clear)]
    exact reached
  have objects := Arena.retain_all ((realm.swept listed).mark listed).hasObject
    fun handle contained => Marks.hasObject_iff.mpr (marked (.object handle) contained)
  have shapes := Arena.retain_all ((realm.swept listed).mark listed).hasShape
    fun handle contained => Marks.hasShape_iff.mpr (marked (.shape handle) contained)
  have still : (realm.swept listed).swept listed = realm.swept listed := by
    rw [swept, objects, shapes]
  rw [collect_ok, still, census, objects, shapes, still]
  rfl

end Clear

end HiddenClass.Realm
