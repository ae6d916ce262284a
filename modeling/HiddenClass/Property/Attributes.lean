/-!
Property attributes. A stored property has five flags; a descriptor carries in addition, for each
field, whether the field was left out, which is not the same as being supplied as false.
-/

namespace HiddenClass

/-- The flags of a stored property. A property in use is either a data or an accessor property. -/
structure Flags where
  writable : Bool := false
  enumerable : Bool := false
  configurable : Bool := false
  data : Bool := false
  accessor : Bool := false
deriving DecidableEq, Repr, Inhabited

namespace Flags

/-- A writable, enumerable, configurable data property. -/
def plain : Flags :=
  { writable := true, enumerable := true, configurable := true, data := true }

/-- The `length` of an array is neither enumerable nor configurable. -/
def ofLength (writable : Bool) : Flags := { writable, data := true }

/-- The type alone. -/
def typeFlags (flags : Flags) : Flags := { data := flags.data, accessor := flags.accessor }

@[simp, grind =]
theorem typeFlags_eq_iff {flags other : Flags} : flags.typeFlags = other.typeFlags ↔
    flags.data = other.data ∧ flags.accessor = other.accessor := by
  simp only [typeFlags, Flags.mk.injEq, true_and]

def toBits (flags : Flags) : Nat :=
  flags.writable.toNat + 2 * flags.enumerable.toNat + 4 * flags.configurable.toNat
    + 8 * flags.data.toNat + 16 * flags.accessor.toNat

end Flags

structure Attributes extends Flags where
  writableAbsent : Bool := false
  enumerableAbsent : Bool := false
  configurableAbsent : Bool := false
  valueAbsent : Bool := false
  getterAbsent : Bool := false
  setterAbsent : Bool := false
  /-- Bits without a meaning, carried along unchanged. -/
  unassigned : Nat := 0
deriving DecidableEq, Repr, Inhabited

namespace Attributes

/-- A descriptor is generic when it is neither a data nor an accessor descriptor. -/
def isGeneric (attributes : Attributes) : Bool := !attributes.data && !attributes.accessor

/-- The attributes of an assignment to an existing property, which keeps all flags. -/
def valueOnly : Attributes :=
  { writableAbsent := true, enumerableAbsent := true, configurableAbsent := true }

def ofBits (bits : Nat) : Attributes :=
  { writable := bits.testBit 0
    enumerable := bits.testBit 1
    configurable := bits.testBit 2
    data := bits.testBit 3
    accessor := bits.testBit 4
    writableAbsent := bits.testBit 5
    enumerableAbsent := bits.testBit 6
    configurableAbsent := bits.testBit 7
    valueAbsent := bits.testBit 8
    getterAbsent := bits.testBit 9
    setterAbsent := bits.testBit 10
    unassigned := bits / 2048 }

def toBits (attributes : Attributes) : Nat :=
  attributes.toFlags.toBits + 32 * attributes.writableAbsent.toNat
    + 64 * attributes.enumerableAbsent.toNat + 128 * attributes.configurableAbsent.toNat
    + 256 * attributes.valueAbsent.toNat + 512 * attributes.getterAbsent.toNat
    + 1024 * attributes.setterAbsent.toNat + 2048 * attributes.unassigned

end Attributes

end HiddenClass
