import BoardEval.Error
import BoardEval.Text.Blank

/-!
# Settings

A choice leaves a feature to the engine, forces it or forbids it. A context
configuration fixes the board and the choices that all its users share; an
evaluator configuration adds batching and one routing index per server.
-/

namespace BoardEval

/-- Left to the engine, forced, or forbidden. -/
inductive Choice where
  | auto
  | on
  | off
  deriving DecidableEq, Repr

namespace Choice

/-- A setting permits the feature unless it is an explicit no; one that is left open
permits it. -/
def allows (c : Choice) : Bool := c != .off

/-- Only an explicit yes demands the feature, whatever the engine can do. -/
def forces (c : Choice) : Bool := c == .on

/-- The word that stands for a setting in texts. -/
def name : Choice → String
  | .auto => "auto"
  | .on => "true"
  | .off => "false"

/-- The choice with exactly this name. -/
def ofName? (word : String) : Option Choice :=
  if word = "auto" then some .auto
  else if word = "true" then some .on
  else if word = "false" then some .off
  else none

/-- Read a choice. Surrounding blanks and the case of ASCII letters do not
matter; an error shows the word as it was compared. -/
def parse (text : String) : Except SetupError Choice :=
  let word := String.ofList ((Text.trimBlanks text.toList).map Char.toLower)
  match ofName? word with
  | some choice => .ok choice
  | none => .error (.invalidConfig (.unknownChoice word))

end Choice

/-- Both sides are in the playable range. -/
def Extent.validate (e : Extent) : Except SetupError Unit :=
  if e.isPlayable then .ok () else .error (.invalidConfig (.extentOutOfRange e))

/-- What all users of one context share. -/
structure ContextConfig where
  extent : Extent
  /-- Reduced precision. -/
  half : Choice
  /-- Channel-last tensors inside the engine. -/
  channelLast : Choice
  /-- Device indices; an engine uses the first one. -/
  devices : List Int
  deriving DecidableEq, Repr

namespace ContextConfig

/-- The compiled extent, nothing decided about precision and layout, no device
chosen. -/
def default : ContextConfig := ⟨.compiled, .auto, .auto, []⟩

/-- Unspecified settings are the default ones. -/
instance : Inhabited ContextConfig := ⟨default⟩

/-- The extent is the only setting of a context that can be out of range. -/
def validate (c : ContextConfig) : Except SetupError Unit := c.extent.validate

end ContextConfig

/-- Settings of a queued evaluator. -/
structure EvaluatorConfig where
  context : ContextConfig
  maxBatchSize : Nat
  /-- Requests carry channel-last tensors. -/
  inputsChannelLast : Bool
  /-- One server per entry; each picks its engine by routing index. -/
  routingIndices : List Int
  /-- Milliseconds that a partial batch waits for more jobs. -/
  batchWait : Nat
  deriving DecidableEq, Repr

namespace EvaluatorConfig

/-- One server on the first routing index, batches of up to eight requests,
channel-first inputs and a wait of two milliseconds. -/
def default : EvaluatorConfig := ⟨.default, 8, false, [0], 2⟩

/-- Unspecified settings are the default ones. -/
instance : Inhabited EvaluatorConfig := ⟨default⟩

/-- The settings of the context come first, then the batch size, then the list of
servers. The first flaw is the one that is reported. -/
def validate (c : EvaluatorConfig) : Except ServiceError Unit :=
  match c.context.validate with
  | .error cause => .error (.setup cause)
  | .ok () =>
    if c.maxBatchSize = 0 then .error (.invalidConfig .emptyBatch)
    else if c.routingIndices.isEmpty then .error (.invalidConfig .noServers)
    else .ok ()

end EvaluatorConfig

end BoardEval
