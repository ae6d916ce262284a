/-!
Sets of code points given by the ascending points at which membership switches.
-/

namespace HiddenClass.Text

/-- Membership starts outside and switches at every bound that is not above the number. -/
def inside : List Nat → Nat → Bool
  | [], _ => false
  | bound :: rest, n => bound ≤ n && !inside rest n

end HiddenClass.Text
