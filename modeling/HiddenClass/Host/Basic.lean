import HiddenClass.Realm.Basic

/-!
Hosts give the native functions their meaning. A native function may do anything to a realm.
-/

namespace HiddenClass

/-- What a native function does with a receiver and arguments. -/
abbrev Host := Native → Value → List Value → Realm.Action Value

/-- A host without native functions. -/
def Host.none : Host := fun function _ _ => throw (.error (.notCallable (.native function)))

end HiddenClass
