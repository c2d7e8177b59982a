import BoardEval.Config
import BoardEval.Exchange.Basic
import BoardEval.Text.Toml.Reader

/-!
# Exchanged settings

Settings have a default for every field, so an empty record stands for the
default settings. Evaluator settings are also read from TOML; there they have to
be valid, and a file has to be readable.
-/

namespace BoardEval

open Text (Tree)
open Text.Json (Block)

/-- Settings go by their names, in one spelling only. -/
instance : Exchange Choice where
  read := Exchange.named? ([Choice.auto, .on, .off].map fun c => (c.name, c))
  write c := .text c.name

/-- An extent needs both lengths and is not checked for its range. -/
instance : Exchange Extent where
  read d t := do
    let f ← t.fields? d ["x_len", "y_len"]
    return ⟨← f.get? "x_len" Tree.word?, ← f.get? "y_len" Tree.word?⟩
  write e := .record [("x_len", .natural e.width), ("y_len", .natural e.height)]

/-- Fields that are left out have their default values. -/
instance : Exchange ContextConfig where
  read d t := do
    let f ← t.fields? d ["extent", "fp16_mode", "nhwc_mode", "device_indices"]
    let base := ContextConfig.default
    return {
      extent := ← f.getD? "extent" base.extent (Exchange.read d)
      half := ← f.getD? "fp16_mode" base.half (Exchange.read d)
      channelLast := ← f.getD? "nhwc_mode" base.channelLast (Exchange.read d)
      devices := ← f.getD? "device_indices" base.devices (Tree.list? Tree.signed?) }
  write c := .record [("extent", Exchange.write c.extent), ("fp16_mode", Exchange.write c.half),
    ("nhwc_mode", Exchange.write c.channelLast),
    ("device_indices", .list (c.devices.map Block.integer))]

/-- Fields that are left out have their default values, those of the context as
well. -/
instance : Exchange EvaluatorConfig where
  read d t := do
    let f ← t.fields? d
      ["context", "max_batch_size", "inputs_use_nhwc", "routing_indices", "batch_wait_ms"]
    let base := EvaluatorConfig.default
    return {
      context := ← f.getD? "context" base.context (Exchange.read d)
      maxBatchSize := ← f.getD? "max_batch_size" base.maxBatchSize Tree.word?
      inputsChannelLast := ← f.getD? "inputs_use_nhwc" base.inputsChannelLast Tree.flag?
      routingIndices := ← f.getD? "routing_indices" base.routingIndices (Tree.list? Tree.signed?)
      batchWait := ← f.getD? "batch_wait_ms" base.batchWait Tree.word? }
  write c := .record [("context", Exchange.write c.context),
    ("max_batch_size", .natural c.maxBatchSize), ("inputs_use_nhwc", .flag c.inputsChannelLast),
    ("routing_indices", .list (c.routingIndices.map Block.integer)),
    ("batch_wait_ms", .natural c.batchWait)]

namespace EvaluatorConfig

/-- Valid settings from a TOML text. -/
def ofToml (text : String) : Except ServiceError EvaluatorConfig :=
  match (Text.Toml.tree? text).bind (Exchange.read Text.Toml.dialect) with
  | none => .error .configText
  | some (config : EvaluatorConfig) =>
    match config.validate with
    | .ok () => .ok config
    | .error cause => .error cause

/-- Valid settings from the content of a file, if it could be read. -/
def ofFile (content : Option String) : Except ServiceError EvaluatorConfig :=
  match content with
  | some text => ofToml text
  | none => .error .configFile

end EvaluatorConfig

end BoardEval
