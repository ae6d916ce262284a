import HiddenClass.Key

/-!
Slot offsets by name. A name has at most one entry, and the entries stand by ascending offset.
-/

namespace HiddenClass

abbrev Table := List (Key × Nat)

namespace Table

def find? (table : Table) (key : Key) : Option Nat := table.lookup key

def erase (table : Table) (key : Key) : Table := table.filter fun entry => entry.1 ≠ key

/-- Puts an entry before the first one whose offset is not smaller. -/
def place (key : Key) (offset : Nat) : Table → Table
  | [] => [(key, offset)]
  | first :: rest =>
    if first.2 < offset then first :: place key offset rest else (key, offset) :: first :: rest

def insert (table : Table) (key : Key) (offset : Nat) : Table := place key offset (table.erase key)

end Table

end HiddenClass
