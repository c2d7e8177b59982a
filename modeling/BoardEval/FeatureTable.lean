/-!
# Features by network version

Each network version fixes the generation of its input features, how many
spatial planes and global values that generation has, and how many policy
planes the network returns. The table ends at both sides: other versions are
unsupported, while the number of policy planes is a threshold and defined for
every version.
-/

namespace BoardEval

/-- Input generation and counts of spatial planes and global values. -/
structure FeatureTable where
  generation : Nat
  spatial : Nat
  globals : Nat
  deriving DecidableEq, Repr

namespace FeatureTable

/-- The features of a supported version. -/
def ofVersion? (version : Int) : Option FeatureTable :=
  if version = 3 then some ⟨3, 22, 14⟩
  else if version = 4 then some ⟨4, 22, 14⟩
  else if version = 5 then some ⟨5, 13, 12⟩
  else if version = 6 then some ⟨6, 22, 16⟩
  else if 7 ≤ version ∧ version ≤ 16 then some ⟨7, 22, 19⟩
  else none

end FeatureTable

/-- Networks have a second, optimistic policy plane from version 12 on. -/
def policyChannelsOf (version : Int) : Nat := if 12 ≤ version then 2 else 1

/-- Win, loss and no result. -/
def valueSlots : Nat := 3

/-- Slots of one row of the score head. -/
def scoreSlots : Nat := 10

end BoardEval
