import HiddenClass.Proofs.Collect.Sweep
import HiddenClass.Realm.Request

/-!
Collections whose roots may be gone. A root that is gone still marks its place, so a live root is
kept wherever it stands among the others; but if it comes after one that is gone at the same place,
nothing is kept on its behalf.
-/

namespace HiddenClass.Realm

variable {realm : Realm}

/-- Whatever roots are gone, the live ones are kept, and what they lead to is lost exactly where a
shadowed cell is the only way to it. -/
theorem collect_stale (tight : realm.Tight) (listed : List Handle) :
    ∃ census after, collect listed realm = .ok census after ∧
      (∀ cell, after.Alive cell ↔ Kept realm (realm.rootCells listed) cell) ∧
      (∀ root ∈ listed, realm.Alive (.object root) → after.Alive (.object root)) ∧
      ((∀ cell, Reached realm (listed.map .object) cell → after.Alive cell) ↔
        ∀ cell, Reached realm (listed.map .object) cell →
          Shadowed (realm.rootCells listed) cell →
          ∀ next ∈ realm.edges cell, Kept realm (realm.rootCells listed) next) := by
  have survives : ∀ cell, (realm.swept listed).Alive cell ↔ Kept realm (realm.rootCells listed) cell :=
    fun cell => alive_swept tight
  have rooted : ∀ root ∈ listed.map Cell.object, root ∈ realm.rootCells listed :=
    fun root member => List.mem_append_left _ member
  refine ⟨_, _, collect_ok realm listed, survives, fun root member alive => ?_, ?_, ?_⟩
  · exact (survives _).mpr (.root (rooted _ (List.mem_map_of_mem member)) rfl alive)
  · intro kept cell reached _ next member
    exact (survives next).mp (kept next (.edge reached member))
  · intro compensated cell reached
    rw [survives]
    induction reached with
    | root member alive => exact .root (rooted _ member) rfl alive
    | @edge source next reached member ih =>
      by_cases shadowed : Shadowed (realm.rootCells listed) source
      · exact compensated source reached shadowed next member
      · exact .edge ih shadowed member

/-! ### A live root behind one that is gone -/

def freedPlace : Handle := ⟨0, 0⟩

def reusedPlace : Handle := ⟨0, 1⟩

def heldObject : Handle := ⟨1, 0⟩

/-- An object is freed, another takes its place and holds a third. -/
def shadowing : Realm :=
  (ofConfig {}).after Host.none
    [.newObject none, .collect [], .newObject none, .newObject none, .intern "x",
      .put reusedPlace (.named 1) (.object heldObject) true]

theorem collect_stale_shadowing : shadowing.Tight ∧
    ∃ census after, collect [freedPlace, reusedPlace] shadowing = .ok census after ∧
      (∀ cell, after.Alive cell ↔
        Kept shadowing (shadowing.rootCells [freedPlace, reusedPlace]) cell) ∧
      (∀ root ∈ [freedPlace, reusedPlace],
        shadowing.Alive (.object root) → after.Alive (.object root)) ∧
      ((∀ cell, Reached shadowing ([freedPlace, reusedPlace].map .object) cell → after.Alive cell) ↔
        ∀ cell, Reached shadowing ([freedPlace, reusedPlace].map .object) cell →
          Shadowed (shadowing.rootCells [freedPlace, reusedPlace]) cell →
          ∀ next ∈ shadowing.edges cell,
            Kept shadowing (shadowing.rootCells [freedPlace, reusedPlace]) next) :=
  have tight : shadowing.Tight := by decide +kernel
  ⟨tight, collect_stale tight [freedPlace, reusedPlace]⟩

/-- The object that a live root holds is freed. -/
theorem collect_stale_loses :
    ∃ census after, collect [freedPlace, reusedPlace] shadowing = .ok census after ∧
      shadowing.Alive (.object reusedPlace) ∧
      Reached shadowing ([freedPlace, reusedPlace].map .object) (.object heldObject) ∧
      ¬after.Alive (.object heldObject) := by
  refine ⟨_, _, collect_ok _ _, by decide +kernel, ?_, by decide +kernel⟩
  refine .edge (.root (List.mem_cons_of_mem _ (List.mem_singleton_self _)) ?_) ?_
  · decide +kernel
  · decide +kernel

end HiddenClass.Realm
