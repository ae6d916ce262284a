import HiddenClass.Key

/-!
The table of interned names. A text that is a canonical array index is its own key and takes no
place in the table.
-/

namespace HiddenClass

/-- A name is identified by its place in the table. -/
structure Names where
  entries : Array String := #["length"]
  /-- The place of each name. -/
  ids : List (String × Nat) := [("length", 0)]
deriving Repr

namespace Names

def size (names : Names) : Nat := names.entries.size

/-- A name that the table lacks goes behind the others. -/
def push (names : Names) (text : String) : Names :=
  { entries := names.entries.push text
    ids := (text, names.size) :: names.ids }

def intern (names : Names) (text : String) : Names × Key :=
  match Key.readIndex text.toList with
  | some n => (names, .index n)
  | none =>
    match names.ids.lookup text with
    | some id => (names, .named id)
    | none => (names.push text, .named names.size)

/-- The text that a key was interned from; empty for a name that is not in the table. -/
def describe (names : Names) : Key → String
  | .index n => toString n
  | .named id => names.entries[id]?.getD ""

end Names

end HiddenClass
