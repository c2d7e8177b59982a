import BoardEval.Descriptor
import BoardEval.Exchange.Basic
import BoardEval.Symmetry

/-!
# Exchanged descriptions of networks

Engine kinds are exchanged by name, symmetries by code and descriptors with all
their fields. What is read need not be valid: whether a descriptor fits its
version is checked where it is used.
-/

namespace BoardEval

open Text (Tree)

/-- Kinds of engines go by their names. -/
instance : Exchange EngineKind where
  read := Exchange.named? ([EngineKind.accelerated, .secondary].map fun k => (k.name, k))
  write k := .text k.name

/-- Symmetries go by their codes, which fit into a byte; only the first eight stand
for one. -/
instance : Exchange Symmetry where
  read _ t := do Symmetry.ofCode? (← t.natural? 256)
  write s := .natural s.code

/-- Descriptors by the names of their fields, all of which have to be there. Nothing
is compared with the version. -/
instance : Exchange Descriptor where
  read d t := do
    let f ← t.fields? d ["name", "version", "num_input_channels", "num_input_global_channels",
      "num_policy_channels", "num_value_channels", "num_ownership_channels"]
    return {
      name := ← f.get? "name" Tree.text?
      version := ← f.get? "version" Tree.signed?
      spatial := ← f.get? "num_input_channels" Tree.word?
      globals := ← f.get? "num_input_global_channels" Tree.word?
      policy := ← f.get? "num_policy_channels" Tree.word?
      value := ← f.get? "num_value_channels" Tree.word?
      ownership := ← f.get? "num_ownership_channels" Tree.word? }
  write m := .record [("name", .text m.name), ("version", .integer m.version),
    ("num_input_channels", .natural m.spatial), ("num_input_global_channels", .natural m.globals),
    ("num_policy_channels", .natural m.policy), ("num_value_channels", .natural m.value),
    ("num_ownership_channels", .natural m.ownership)]

end BoardEval
