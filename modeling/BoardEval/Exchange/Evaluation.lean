import BoardEval.Exchange.Basic
import BoardEval.Position

/-!
# Exchanged evaluations, positions and reports

An evaluation without ownership has none or an absent one. A position is read
whatever its tensors look like; only its board has to be playable and square
before it is handed on.
-/

namespace BoardEval

open Text (Tree)
open Text.Json (Block)
open Exchange (tensor? tensorBlock)

/-- Evaluations by the names of their fields. Ownership may be absent; no other
field may. -/
instance : Exchange Evaluation where
  read d t := do
    let f ← t.fields? d ["nn_x_len", "nn_y_len", "policy_probs", "white_win_prob",
      "white_loss_prob", "white_no_result_prob", "white_owner_map", "white_score_mean",
      "white_score_mean_sq", "white_lead", "var_time_left", "shortterm_winloss_error",
      "shortterm_score_error"]
    let score : ScoreStatistics := {
      mean := ← f.get? "white_score_mean" Tree.single?
      meanSquare := ← f.get? "white_score_mean_sq" Tree.single?
      lead := ← f.get? "white_lead" Tree.single?
      timeLeftVariance := ← f.get? "var_time_left" Tree.single?
      winLossError := ← f.get? "shortterm_winloss_error" Tree.single?
      scoreError := ← f.get? "shortterm_score_error" Tree.single? }
    return {
      extent := ⟨← f.get? "nn_x_len" Tree.word?, ← f.get? "nn_y_len" Tree.word?⟩
      policy := ← f.get? "policy_probs" tensor?
      win := ← f.get? "white_win_prob" Tree.single?
      loss := ← f.get? "white_loss_prob" Tree.single?
      noResult := ← f.get? "white_no_result_prob" Tree.single?
      ownership := ← f.getD? "white_owner_map" none (Tree.optional? tensor?)
      score := score }
  write e := .record [("nn_x_len", .natural e.extent.width), ("nn_y_len", .natural e.extent.height),
    ("policy_probs", tensorBlock e.policy), ("white_win_prob", .single e.win),
    ("white_loss_prob", .single e.loss), ("white_no_result_prob", .single e.noResult),
    ("white_owner_map", (e.ownership.map tensorBlock).getD .absent),
    ("white_score_mean", .single e.score.mean), ("white_score_mean_sq", .single e.score.meanSquare),
    ("white_lead", .single e.score.lead), ("var_time_left", .single e.score.timeLeftVariance),
    ("shortterm_winloss_error", .single e.score.winLossError),
    ("shortterm_score_error", .single e.score.scoreError)]

/-- Positions by the names of their fields. The planes may have any shape here:
`Position.check` looks at them. -/
instance : Exchange Position where
  read d t := do
    let f ← t.fields? d ["boardXSize", "boardYSize", "spatial_input", "global_input"]
    return {
      width := ← f.get? "boardXSize" Tree.word?
      height := ← f.get? "boardYSize" Tree.word?
      spatial := ← f.get? "spatial_input" (Tree.list? (Tree.list? tensor?))
      globals := ← f.get? "global_input" tensor? }
  write p := .record [("boardXSize", .natural p.width), ("boardYSize", .natural p.height),
    ("spatial_input", .list (p.spatial.map fun plane => .list (plane.map tensorBlock))),
    ("global_input", tensorBlock p.globals)]

/-- Reports by the names of their fields. -/
instance : Exchange Report where
  read d t := do
    let f ← t.fields? d ["policy", "pass_policy", "value", "ownership", "score_value",
      "model_version", "num_spatial_features", "num_global_features", "num_policy_channels"]
    return {
      policy := ← f.get? "policy" (Tree.list? tensor?)
      passPolicy := ← f.get? "pass_policy" tensor?
      value := ← f.get? "value" tensor?
      ownership := ← f.get? "ownership" (Tree.list? tensor?)
      score := ← f.get? "score_value" tensor?
      modelVersion := ← f.get? "model_version" Tree.signed?
      spatialChannels := ← f.get? "num_spatial_features" Tree.word?
      globalChannels := ← f.get? "num_global_features" Tree.word?
      policyChannels := ← f.get? "num_policy_channels" Tree.word? }
  write r := .record [("policy", .list (r.policy.map tensorBlock)),
    ("pass_policy", tensorBlock r.passPolicy), ("value", tensorBlock r.value),
    ("ownership", .list (r.ownership.map tensorBlock)), ("score_value", tensorBlock r.score),
    ("model_version", .integer r.modelVersion), ("num_spatial_features", .natural r.spatialChannels),
    ("num_global_features", .natural r.globalChannels),
    ("num_policy_channels", .natural r.policyChannels)]

namespace Position

/-- A position from a JSON text. -/
def ofJson (text : String) : Except ReportError Position :=
  match Exchange.ofJson? text with
  | none => .error .positionText
  | some (p : Position) =>
    match p.checkBoard with
    | .ok () => .ok p
    | .error cause => .error cause

/-- A position from the content of a file, if it could be read. -/
def ofFile (content : Option String) : Except ReportError Position :=
  match content with
  | some text => ofJson text
  | none => .error .positionFile

end Position

end BoardEval
