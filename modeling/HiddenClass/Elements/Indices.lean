/-!
Ascending lists of naturals without repetitions.
-/

namespace HiddenClass.Indices

def insert (n : Nat) : List Nat → List Nat
  | [] => [n]
  | first :: rest =>
    if n < first then n :: first :: rest
    else if n = first then first :: rest
    else first :: insert n rest

/-- Sorts and drops repetitions. -/
def ascending (numbers : List Nat) : List Nat := numbers.foldr insert []

end HiddenClass.Indices
