import HiddenClass.Host.Builtin
import HiddenClass.Main
import HiddenClass.Proofs.Collect.Exact
import HiddenClass.Proofs.Collect.Stale
import HiddenClass.Proofs.Reference
import HiddenClass.Proofs.Tunables
import HiddenClass.Realm.Request
import HiddenClass.Proofs.Realm.LookUp
import HiddenClass.Proofs.Realm.Course
import HiddenClass.Proofs.Evolution
import HiddenClass.Proofs.Permanence
import HiddenClass.Proofs.Closed
import HiddenClass.Proofs.Identity
import HiddenClass.Proofs.Lineage
import HiddenClass.Proofs.Shape.Allotment
import HiddenClass.Proofs.Shape.Occupancy
import HiddenClass.Proofs.Refusal
import HiddenClass.Proofs.Representation
import HiddenClass.Proofs.Ownership
import HiddenClass.Proofs.Raising
import HiddenClass.Proofs.Extensibility
import HiddenClass.Proofs.Safety
import HiddenClass.Proofs.Enumeration
import HiddenClass.Proofs.Holes
import HiddenClass.Proofs.Lengths
import HiddenClass.Proofs.Creation
import HiddenClass.Proofs.Assignment
import HiddenClass.Proofs.Unindexed
import HiddenClass.Proofs.Ledger
import HiddenClass.Proofs.RoundTrip
import HiddenClass.Proofs.Elements.Contents
import HiddenClass.Proofs.Slots
