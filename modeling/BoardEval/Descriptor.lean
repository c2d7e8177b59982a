import BoardEval.Error
import BoardEval.FeatureTable

/-!
# Network descriptors

A descriptor names a network, its version and the number of channels of each
tensor. A valid descriptor agrees with the feature table of its version; the
checks are made in a fixed order, and the first count that disagrees is the
one that is reported.
-/

namespace BoardEval

/-- What a model declares about itself: the version of its features and the number
of channels of each input and head. A descriptor may contradict its version;
`validate` tells. -/
structure Descriptor where
  name : String
  version : Int
  spatial : Nat
  globals : Nat
  policy : Nat
  value : Nat
  ownership : Nat
  deriving DecidableEq, Repr

namespace Descriptor

/-- The descriptor that the feature table gives for a version. -/
def ofVersion (name : String) (version : Int) : Except SetupError Descriptor :=
  match FeatureTable.ofVersion? version with
  | none => .error (.unsupportedVersion version)
  | some table =>
    .ok ⟨name, version, table.spatial, table.globals, policyChannelsOf version, valueSlots, 1⟩

/-- The first count that does not fit the feature table of the version. -/
def flaw? (d : Descriptor) (table : FeatureTable) : Option ModelFlaw :=
  if d.spatial ≠ table.spatial then
    some (.spatialChannels d.version table.spatial d.spatial)
  else if d.globals ≠ table.globals then
    some (.globalChannels d.version table.globals d.globals)
  else if d.policy ≠ policyChannelsOf d.version then
    some (.policyChannels d.version (policyChannelsOf d.version) d.policy)
  else if d.value ≠ valueSlots then some (.valueChannels valueSlots d.value)
  else if d.ownership = 0 then some .noOwnership
  else none

/-- A supported version whose counts all agree. -/
def validate (d : Descriptor) : Except SetupError Unit :=
  match FeatureTable.ofVersion? d.version with
  | none => .error (.unsupportedVersion d.version)
  | some table =>
    match d.flaw? table with
    | some flaw => .error (.invalidModel d.name flaw)
    | none => .ok ()

/-- Whether the policy head has an optimistic plane beside the base plane. -/
def hasOptimisticPolicy (d : Descriptor) : Bool := d.policy == 2

end Descriptor

end BoardEval
