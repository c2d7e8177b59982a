import BoardEval.Extent

/-!
# Errors

Errors are causes, in three layers. An engine reports what went wrong on a
device; setting up boards and networks reports what does not fit together; and
the service that runs batches wraps both and adds its own causes. The wording
of a cause is a function of it, so two errors with the same wording and
different causes stay different.
-/

namespace BoardEval

/-- The two places a network can run on. -/
inductive EngineKind where
  | accelerated
  | secondary
  deriving DecidableEq, Repr

/-- The word for a kind of engine, in texts and in messages. -/
def EngineKind.name : EngineKind → String
  | .accelerated => "accelerated"
  | .secondary => "secondary"

/-- What an engine can report. -/
inductive EngineError where
  | backendInit (detail : String)
  | deviceUnavailable (detail : String)
  | modelLoad (detail : String)
  | slotNotFound (slot : Int)
  | contextMissing
  | executeFailed (detail : String)
  | shapeMismatch (detail : String)
  deriving DecidableEq, Repr

/-- What an engine's error says. Details are the words of whoever raised it. -/
def EngineError.message : EngineError → String
  | .backendInit detail => "Backend initialization failed: " ++ detail
  | .deviceUnavailable detail => "Device unavailable: " ++ detail
  | .modelLoad detail => "Model load failed: " ++ detail
  | .slotNotFound slot => "Model slot not found: " ++ toString slot
  | .contextMissing => "Engine context has not been created"
  | .executeFailed detail => "Batch execution failed: " ++ detail
  | .shapeMismatch detail => "Shape mismatch: " ++ detail

/-- What can be wrong with a setting. -/
inductive SettingFlaw where
  /-- A word that is none of the three choices. -/
  | unknownChoice (word : String)
  /-- A side outside the playable range. -/
  | extentOutOfRange (extent : Extent)
  | emptyBatch
  /-- A board larger than the planes that should hold it. -/
  | extentTooLarge (board plane : Extent)
  deriving DecidableEq, Repr

/-- What is said about a setting out of range, with the value that was found. -/
def SettingFlaw.message : SettingFlaw → String
  | .unknownChoice word => "expected auto|true|false, got '" ++ word ++ "'"
  | .extentOutOfRange extent =>
    "board extent " ++ extent.text ++ " out of range (" ++ toString Extent.shortestSide ++ "-"
      ++ toString Extent.longestSide ++ ")"
  | .emptyBatch => "max_batch_size must be at least 1"
  | .extentTooLarge board plane =>
    "board extent " ++ board.text ++ " exceeds backend extent " ++ plane.text

/-- What can be wrong with a network description: a count that its version does
not allow. -/
inductive ModelFlaw where
  | spatialChannels (version : Int) (expected found : Nat)
  | globalChannels (version : Int) (expected found : Nat)
  | policyChannels (version : Int) (expected found : Nat)
  | valueChannels (expected found : Nat)
  | noOwnership
  deriving DecidableEq, Repr

/-- What is said about a descriptor that does not fit its version: the count that is
expected and the one that was found. -/
def ModelFlaw.message : ModelFlaw → String
  | .spatialChannels version expected found =>
    "version " ++ toString version ++ " expects " ++ toString expected
      ++ " spatial channels, descriptor has " ++ toString found
  | .globalChannels version expected found =>
    "version " ++ toString version ++ " expects " ++ toString expected
      ++ " global channels, descriptor has " ++ toString found
  | .policyChannels version expected found =>
    "version " ++ toString version ++ " requires " ++ toString expected
      ++ " policy channel(s), descriptor has " ++ toString found
  | .valueChannels expected found =>
    "value head must have " ++ toString expected ++ " channels, descriptor has " ++ toString found
  | .noOwnership => "ownership head has no channels"

/-- Errors of setting up boards, networks and buffers. -/
inductive SetupError where
  | invalidConfig (flaw : SettingFlaw)
  | invalidModel (name : String) (flaw : ModelFlaw)
  | unsupportedVersion (version : Int)
  | engine (cause : EngineError)
  deriving DecidableEq, Repr

/-- An error of the basic settings, with the part that raised it in front. -/
def SetupError.message : SetupError → String
  | .invalidConfig flaw => "Invalid config: " ++ flaw.message
  | .invalidModel name flaw => "Invalid model descriptor: " ++ name ++ ": " ++ flaw.message
  | .unsupportedVersion version => "Unsupported model version: " ++ toString version
  | .engine cause => "Engine: " ++ cause.message

/-- What can be wrong with the settings of a service or with a request to it. -/
inductive ServiceFlaw where
  | noEngine
  | wrongKind (engine : String) (registered : EngineKind)
  | emptyBatch
  | noServers
  | extentDiffers (evaluator context : Extent)
  | requestExtent (request evaluator : Extent)
  | requestTensors (spatial globals expectedSpatial expectedGlobals : Nat)
  deriving DecidableEq, Repr

/-- What is said about a service that was asked for something it cannot do. -/
def ServiceFlaw.message : ServiceFlaw → String
  | .noEngine => "No compute engine configured. Use .accelerated() or .secondary() to set one."
  | .wrongKind engine registered => engine ++ " engine registered as " ++ registered.name
  | .emptyBatch => "max_batch_size must be at least 1"
  | .noServers => "routing_indices needs at least one entry"
  | .extentDiffers evaluator context =>
    "evaluator extent " ++ evaluator.text ++ " differs from context extent " ++ context.text
  | .requestExtent request evaluator =>
    "request extent " ++ request.text ++ " differs from evaluator extent " ++ evaluator.text
  | .requestTensors spatial globals expectedSpatial expectedGlobals =>
    "request tensors are " ++ toString spatial ++ "+" ++ toString globals
      ++ " values, model expects " ++ toString expectedSpatial ++ "+" ++ toString expectedGlobals

/-- Errors of contexts, handles, batches and the queued evaluator. -/
inductive ServiceError where
  | setup (cause : SetupError)
  | engine (cause : EngineError)
  | engineMissing (kind : EngineKind)
  | invalidConfig (flaw : ServiceFlaw)
  /-- The text of a settings file is not what it should be. -/
  | configText
  /-- A settings file cannot be read. -/
  | configFile
  /-- A server could not build its handle or its pool. -/
  | serverInit (cause : ServiceError)
  /-- A server broke a contract while it was starting. -/
  | serverLost (server : Nat)
  /-- The request's answer will never come. -/
  | noAnswer
  /-- The batch that held the request failed as a whole. -/
  | batchFailed (cause : ServiceError)
  deriving DecidableEq, Repr

/-- An error of the service. What a reader of files or notations says about a
settings file is not part of it. -/
def ServiceError.message : ServiceError → String
  | .setup cause => "Core error: " ++ cause.message
  | .engine cause => "Engine error: " ++ cause.message
  | .engineMissing kind => "No " ++ kind.name ++ " engine bound to this context"
  | .invalidConfig flaw => "Invalid configuration: " ++ flaw.message
  | .configText => "Config parse error"
  | .configFile => "IO error"
  | .serverInit cause => "Evaluator thread failed during init: " ++ cause.message
  | .serverLost server =>
    "Evaluator thread failed during init: server thread " ++ toString server
      ++ " exited before init"
  | .noAnswer => "Evaluator recv failed"
  | .batchFailed cause => "Batch failed: " ++ cause.message

/-- What can be wrong with a position that is to be checked. -/
inductive PositionFlaw where
  | boardSize (extent : Extent)
  | notSquare (extent : Extent)
  | spatialChannels (found expected : Nat)
  | globalChannels (found expected : Nat)
  | planeRows (channel found expected : Nat)
  | rowLength (channel row found expected : Nat)
  | boardDiffers (position handle : Extent)
  deriving DecidableEq, Repr

/-- What is said about a position, with the channel and row where it is wrong. -/
def PositionFlaw.message : PositionFlaw → String
  | .boardSize extent =>
    "board size must be between " ++ toString Extent.shortestSide ++ " and "
      ++ toString Extent.longestSide ++ ", got " ++ extent.text
  | .notSquare extent => "board must be square, got " ++ extent.text
  | .spatialChannels found expected =>
    "spatial_input has " ++ toString found ++ " channels but model expects " ++ toString expected
  | .globalChannels found expected =>
    "global_input has " ++ toString found ++ " channels but model expects " ++ toString expected
  | .planeRows channel found expected =>
    "spatial_input channel " ++ toString channel ++ " has " ++ toString found
      ++ " rows, expected " ++ toString expected
  | .rowLength channel row found expected =>
    "spatial_input channel " ++ toString channel ++ " row " ++ toString row ++ " has "
      ++ toString found ++ " elements, expected " ++ toString expected
  | .boardDiffers position handle =>
    "input board is " ++ position.text ++ ", handle evaluates " ++ handle.text

/-- Errors of checking one position. -/
inductive ReportError where
  | setup (cause : SetupError)
  | service (cause : ServiceError)
  | engine (cause : EngineError)
  /-- The text of a position is not what it should be. -/
  | positionText
  | position (flaw : PositionFlaw)
  /-- A position file cannot be read. -/
  | positionFile
  deriving DecidableEq, Repr

/-- An error on the way to a report. A failed setting speaks for itself; the others
say which part they come from. -/
def ReportError.message : ReportError → String
  | .setup cause => cause.message
  | .service cause => "NN: " ++ cause.message
  | .engine cause => "Engine: " ++ cause.message
  | .positionText => "JSON"
  | .position flaw => "Validation: " ++ flaw.message
  | .positionFile => "IO error"

end BoardEval
