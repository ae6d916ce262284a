import HiddenClass.Property.Attributes
import HiddenClass.Value

/-!
Property descriptors: what a definition asks for and what a lookup answers.
-/

namespace HiddenClass

structure Descriptor where
  attributes : Attributes
  value : Value := .undefined
  getter : Value := .undefined
  setter : Value := .undefined
deriving DecidableEq, Repr, Inhabited

namespace Descriptor

def data (value : Value) (attributes : Attributes) : Descriptor :=
  { attributes := { attributes with data := true, accessor := false, valueAbsent := false }
    value }

/-- A data descriptor without a value. -/
def dataAttributes (attributes : Attributes) : Descriptor :=
  { attributes := { attributes with data := true, accessor := false, valueAbsent := true } }

/-- A getter or setter that is not given counts as absent. -/
def accessor (getter setter : Option Value) (attributes : Attributes) : Descriptor :=
  { attributes :=
      { attributes with
        writable := false
        data := false
        accessor := true
        getterAbsent := attributes.getterAbsent || getter.isNone
        setterAbsent := attributes.setterAbsent || setter.isNone }
    getter := getter.getD .undefined
    setter := setter.getD .undefined }

def generic (attributes : Attributes) : Descriptor :=
  { attributes := { attributes with writable := false, data := false, accessor := false } }

/-- A writable, enumerable, configurable data property. -/
def plain (value : Value) : Descriptor :=
  data value { writable := true, enumerable := true, configurable := true }

/-- The descriptor of an assignment to an existing data property. -/
def assignment (value : Value) : Descriptor := data value .valueOnly

def withValue (desc : Descriptor) (value : Value) : Descriptor :=
  { desc with attributes := { desc.attributes with valueAbsent := false }, value }

def withWritable (desc : Descriptor) (writable : Bool) : Descriptor :=
  { desc with attributes := { desc.attributes with writableAbsent := false, writable } }

def isData (desc : Descriptor) : Bool := desc.attributes.data

def isAccessor (desc : Descriptor) : Bool := desc.attributes.accessor

def isGeneric (desc : Descriptor) : Bool := desc.attributes.isGeneric

def isWritable (desc : Descriptor) : Bool := desc.attributes.writable

def isEnumerable (desc : Descriptor) : Bool := desc.attributes.enumerable

def isConfigurable (desc : Descriptor) : Bool := desc.attributes.configurable

def lacksValue (desc : Descriptor) : Bool := !desc.isData || desc.attributes.valueAbsent

/-- A generic descriptor with no field at all. -/
def isAbsent (desc : Descriptor) : Bool :=
  desc.isGeneric && desc.attributes.enumerableAbsent && desc.attributes.configurableAbsent

/-- Whether a property made from this descriptor has all flags of a plain data property. The
writable flag of a generic descriptor is not looked at. -/
def isPlain (desc : Descriptor) : Bool :=
  desc.isEnumerable && desc.isConfigurable && !desc.isAccessor && (!desc.isData || desc.isWritable)

end Descriptor

end HiddenClass
