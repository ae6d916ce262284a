import HiddenClass.Arena
import HiddenClass.Key

/-!
The children that a shared shape leads to, by added name. The first one is held on its own, and the
second one brings a table.
-/

namespace HiddenClass

inductive Transitions where
  | none
  | pair (key : Key) (child : Handle)
  /-- The oldest first. -/
  | table (children : List (Key × Handle))
deriving DecidableEq, Repr

namespace Transitions

/-- Puts a child in the place of the one with the same name, or else behind the others. -/
def enter (key : Key) (child : Handle) : List (Key × Handle) → List (Key × Handle)
  | [] => [(key, child)]
  | first :: rest =>
    if first.1 = key then (key, child) :: rest else first :: enter key child rest

def find? (transitions : Transitions) (key : Key) : Option Handle :=
  match transitions with
  | .none => Option.none
  | .pair name child => if name = key then some child else Option.none
  | .table children => children.lookup key

def insert (transitions : Transitions) (key : Key) (child : Handle) : Transitions :=
  match transitions with
  | .none => .pair key child
  | .pair name existing => .table (enter key child [(name, existing)])
  | .table children => .table (enter key child children)

def length : Transitions → Nat
  | .none => 0
  | .pair .. => 1
  | .table children => children.length

def entries : Transitions → List (Key × Handle)
  | .none => []
  | .pair key child => [(key, child)]
  | .table children => children

end Transitions

end HiddenClass
