import BoardEval.Proofs.Deliveries
import BoardEval.Proofs.Nearest

/-!
# Half precision

Rounding to half precision and widening again takes a number to the nearest one of half
precision, the even one on a tie, and to an infinity where that would come next; subnormal
numbers and zeros are among those of half precision, and signs are kept. A NaN stays one,
and an infinity is not changed.

A number that was rounded so is not changed by doing so once more: single precision has
every number of half precision, and encoding inverts decoding. The bits of a NaN that are
kept and set stay as they are.

A processor engine that runs a model in half precision rounds both inputs before it shows
them to the network, and each head before it writes it; a split score head is rounded in
both blocks before its rows are merged. What the network sees is stated by comparing it
with networks that agree on such inputs: they make the same run. In single precision the
same statements say that values are passed on bit by bit.
-/

namespace BoardEval

namespace Number.Single

/-- Keeping some bits and setting others twice is the same as once. -/
theorem mask_idempotent (bits keep set : UInt32) :
    (bits &&& keep ||| set) &&& keep ||| set = bits &&& keep ||| set := by
  apply UInt32.toBitVec_inj.mp
  ext i inside
  simp only [UInt32.toBitVec_or, UInt32.toBitVec_and, BitVec.getElem_or, BitVec.getElem_and]
  cases bits.toBitVec[i] <;> cases keep.toBitVec[i] <;> cases set.toBitVec[i] <;> rfl

/-- Reading some bits after such a change reads the kept ones and the set ones among them. -/
theorem mask_and (bits keep set read : UInt32) :
    (bits &&& keep ||| set) &&& read = bits &&& (keep &&& read) ||| set &&& read := by
  apply UInt32.toBitVec_inj.mp
  ext i inside
  simp only [UInt32.toBitVec_or, UInt32.toBitVec_and, BitVec.getElem_or, BitVec.getElem_and]
  rw [Bool.and_or_distrib_right, Bool.and_assoc]

/-- Without its sign, a pattern beyond that of infinity is no number. -/
theorem isNaN_iff (x : Single) : x.isNaN = true ↔ 0x7f800000 < x.bits.toNat % 2 ^ 31 := by
  rw [isNaN, decide_eq_true_iff, UInt32.lt_iff_toNat_lt, toNat_magnitude]
  rfl

/-- Clearing the low digits and setting the quiet bit keeps what is no number from
becoming an infinity. -/
theorem quiet_nan {x : Single} (broken : x.isNaN = true) :
    (⟨x.bits &&& 0xffffe000 ||| 0x00400000⟩ : Single).isNaN = true := by
  rw [isNaN_iff] at broken ⊢
  have word := x.bits.toNat_lt
  have high : (x.bits &&& 0xffffe000 ||| 0x00400000).toNat / 2 ^ 22 =
      x.bits.toNat / 2 ^ 22 % 2 ^ 10 ||| 1 := by
    rw [UInt32.toNat_or, UInt32.toNat_and, ← Nat.shiftRight_eq_div_pow, Nat.shiftRight_or_distrib,
      Nat.shiftRight_and_distrib, Nat.shiftRight_eq_div_pow x.bits.toNat]
    exact congrArg (· ||| 1) (Nat.and_two_pow_sub_one_eq_mod (x.bits.toNat / 2 ^ 22) 10)
  have top : x.bits.toNat / 2 ^ 22 % 2 ^ 10 ∈ [510, 511, 1022, 1023] := by
    simp only [List.mem_cons, List.not_mem_nil, or_false]
    omega
  have set : ∀ field ∈ [510, 511, 1022, 1023], (field ||| 1) % 2 ^ 9 = 511 := by decide
  have field := set _ top
  rw [← high] at field
  show 0x7f800000 < (x.bits &&& 0xffffe000 ||| 0x00400000).toNat % 2 ^ 31
  omega

/-- Of what is no number some bits are kept and the quiet bit is set. -/
theorem throughHalf_broken {x : Single} (broken : x.isNaN = true) :
    x.throughHalf = ⟨x.bits &&& 0xffffe000 ||| 0x00400000⟩ := by
  rw [throughHalf, if_pos broken]

/-- Anything else is rounded to half precision and widened again. -/
theorem throughHalf_proper {x : Single} (proper : x.isNaN = false) :
    x.throughHalf = ofValue (Format.half.decode (Format.half.encode x.value)) := by
  simp [throughHalf, proper]

/-- A NaN stays a NaN of its sign. -/
theorem throughHalf_nan {x : Single} (broken : x.isNaN = true) :
    x.throughHalf.isNaN = true ∧
      x.throughHalf.bits &&& 0x80000000 = x.bits &&& 0x80000000 := by
  rw [throughHalf_broken broken]
  refine ⟨quiet_nan broken, ?_⟩
  -- The sign is among the bits that are kept, and not among those that are set.
  have kept : (0xffffe000 : UInt32) &&& 0x80000000 = 0x80000000 := by decide
  have set : (0x00400000 : UInt32) &&& 0x80000000 = 0 := by decide
  rw [mask_and, kept, set, UInt32.or_zero]

/-- What a rounded number stands for. -/
theorem value_throughHalf {x : Single} (proper : x.isNaN = false) :
    x.throughHalf.value = Format.single.decode
      (Format.single.encode (Format.half.decode (Format.half.encode x.value))) := by
  rw [throughHalf_proper proper, value_ofValue]

/-- An infinity is not changed. -/
theorem throughHalf_infinity {x : Single} {negative : Bool} (known : x.value = .infinity negative) :
    x.throughHalf = x := by
  have proper : x.isNaN = false := (known ▸ x.flags).1
  have number : x.value ≠ .nan := fun nan => nomatch known.symm.trans nan
  have back := ofValue_value x number
  rw [known] at back
  rw [throughHalf_proper proper, known, Format.decode_encode_infinity, back]

/-- A finite number becomes the number of half precision that is nearest to it, the even one of two
that are equally near, with its own sign. Where that is the one after the last number, it becomes an
infinity.

Proof: encoding in half precision rounds once, to the nearest and with ties to even.
Widening the result only adds zeros below its last digit, so it stands for the same
number. -/
theorem throughHalf_nearest {x : Single} {negative : Bool} {m : Nat} {e : ℤ}
    (known : x.value = .finite negative m e) :
    ∃ k : ℤ, Format.half.Nearest x.rational k ∧
      (∀ j, 2 * x.rational = Format.half.point j + Format.half.point (j + 1) → k % 2 = 0) ∧
      if k.natAbs < Format.half.infinityBits then
        (∃ n place, x.throughHalf.value = .finite negative n place) ∧
          x.throughHalf.rational = Format.half.point k
      else x.throughHalf.value = .infinity negative := by
  have proper : x.isNaN = false := (known ▸ x.flags).1
  have pattern : Format.half.encode x.value < 2 * Format.half.signWeight := Format.encode_lt _
  have widened := Format.decode_encode_widen Format.half_embeds (by decide) pattern
  have value := value_throughHalf proper
  obtain ⟨nearest, _, rounded⟩ := Format.half.decode_encode_nearest negative m e
  have magnitude : (Value.signed negative (Format.half.roundMagnitude m e)).natAbs =
      Format.half.roundMagnitude m e := by
    cases negative <;> simp [Value.signed]
  rw [rational]
  rw [known] at value widened ⊢
  refine ⟨_, nearest, fun j tie => Format.signed_roundMagnitude_tie (by decide) tie, ?_⟩
  rw [magnitude]
  split
  case isTrue below =>
    obtain ⟨n, place, _, _, read⟩ := Format.decode_encode_finite below negative
    rw [read] at value widened rounded
    obtain ⟨j, widened⟩ := widened
    rw [widened] at value
    refine ⟨⟨_, _, value⟩, ?_⟩
    rw [rational, value, Value.rational_scale]
    exact rounded rfl
  case isFalse beyond =>
    have top : Format.half.roundMagnitude m e = Format.half.infinityBits :=
      Nat.le_antisymm (Format.roundMagnitude_le _ _) (Nat.not_lt.mp beyond)
    rw [Format.decode_encode_beyond top negative] at value widened
    exact value.trans widened

/-- Single precision has every number of half precision, so rounding a widened one to half
precision finds its pattern again. -/
theorem encode_widened {bits : Nat} (pattern : bits < 2 * Format.half.signWeight)
    (number : Format.half.decode bits ≠ .nan) :
    Format.half.encode (ofValue (Format.half.decode bits)).value = bits ∧
      (ofValue (Format.half.decode bits)).value ≠ .nan := by
  have back := Format.encode_decode pattern number
  have widened := Format.decode_encode_widen Format.half_embeds (by decide) pattern
  rw [value_ofValue]
  cases known : Format.half.decode bits with
  | nan => contradiction
  | infinity negative =>
    rw [known] at widened back
    rw [widened]
    exact ⟨back, nofun⟩
  | finite negative m e =>
    rw [known] at widened back
    obtain ⟨j, widened⟩ := widened
    have exponent : e - j + j = e := by omega
    rw [widened, Format.encode_scale, exponent]
    exact ⟨back, nofun⟩

/-- What is in half precision already is not rounded again. -/
theorem throughHalf_idempotent (x : Single) : x.throughHalf.throughHalf = x.throughHalf := by
  cases broken : x.isNaN with
  | true =>
    rw [throughHalf_broken broken, throughHalf_broken (quiet_nan broken), mask_idempotent]
  | false =>
    have number : x.value ≠ .nan := fun nan => by simp [x.value_eq_nan_iff.mp nan] at broken
    have pattern : Format.half.encode x.value < 2 * Format.half.signWeight := Format.encode_lt _
    have kept := Format.decode_encode_number (f := Format.half) number
    obtain ⟨found, proper⟩ := encode_widened pattern kept
    have same : (ofValue (Format.half.decode (Format.half.encode x.value))).isNaN = false :=
      Bool.eq_false_iff.mpr fun nan => proper ((value_eq_nan_iff _).mpr nan)
    rw [throughHalf_proper broken, throughHalf_proper same, found]

end Number.Single

/-! ## Rounded tensors -/

/-- Every value is in half precision. -/
def Tensor.InHalf (t : Tensor) : Prop := ∀ x ∈ t, x.throughHalf = x

/-- Rounded rows are rounded side by side. -/
theorem Tensor.InHalf.append {s t : Tensor} (first : s.InHalf) (second : t.InHalf) :
    (s ++ t).InHalf := by
  intro x listed
  rcases Array.mem_append.mp listed with front | back
  · exact first x front
  · exact second x back

namespace Network

/-- With half precision every value is one that half precision has. -/
theorem rounded_inHalf (t : Tensor) : (rounded true t).InHalf := by
  intro x listed
  obtain ⟨y, _, rfl⟩ := Array.mem_map.mp listed
  exact y.throughHalf_idempotent

/-- Rounding twice is rounding once, with half precision and without. -/
theorem rounded_idempotent (half : Bool) (t : Tensor) :
    rounded half (rounded half t) = rounded half t := by
  cases half with
  | false => rfl
  | true =>
    rw [rounded, if_pos rfl]
    exact (Array.map_congr_left (rounded_inHalf t)).trans (Array.map_id _)

/-- Rounding is done value by value, so it does not matter whether a slice is taken
before or after. -/
theorem rounded_extract (half : Bool) (t : Tensor) (start stop : Nat) :
    rounded half (Array.extract t start stop) = Array.extract (rounded half t) start stop := by
  cases half
  · rfl
  · exact Array.map_extract

/-! ## What a network is shown -/

/-- The tensors that a run may show to a network: the values of the inputs, rounded if asked for,
under some shape. -/
structure Receives (half : Bool) (inputs : BatchInputs) (spatial : ShapedTensor 4)
    (globals : ShapedTensor 2) : Prop where
  spatial : spatial.values = rounded half inputs.spatial
  globals : globals.values = rounded half inputs.globals

/-- What a network makes of the inputs of a batch is what its function makes of such tensors. -/
theorem heads_ok_receives {net : Network} {half : Bool} {inputs : BatchInputs} {n : Nat}
    {heads : NetworkHeads} (made : net.heads half inputs n = .ok heads) :
    ∃ spatial globals, Receives half inputs spatial globals ∧
      net.forward spatial globals = .ok heads := by
  simp only [Network.heads, bind_ok_iff, ShapedTensor.reshape_eq_ok_iff] at made
  obtain ⟨spatial, ⟨_, planes⟩, globals, ⟨_, values⟩, applied⟩ := made
  exact ⟨spatial, globals, ⟨planes, values⟩, applied⟩

/-- Functions that agree on what a network is shown cannot be told apart. -/
theorem heads_congr {net other : Network} {half : Bool} {inputs : BatchInputs} {n : Nat}
    (agree : ∀ spatial globals, Receives half inputs spatial globals →
      other.forward spatial globals = net.forward spatial globals) :
    other.heads half inputs n = net.heads half inputs n := by
  unfold Network.heads
  cases spatial : ShapedTensor.reshape
      #v[n, inputs.spatialChannels, inputs.plane.height, inputs.plane.width]
      (rounded half inputs.spatial) with
  | error broken => rfl
  | ok planes =>
    cases globals : ShapedTensor.reshape #v[n, inputs.globalChannels]
        (rounded half inputs.globals) with
    | error broken => rfl
    | ok values =>
      exact agree planes values ⟨((ShapedTensor.reshape_eq_ok_iff _ _ _).mp spatial).2,
        ((ShapedTensor.reshape_eq_ok_iff _ _ _).mp globals).2⟩

end Network

/-! ## What a network leaves -/

/-- Scores of `n` rows, rounded if asked for: a whole head value by value, a split one row by
row. -/
def ScoreHead.Rounded (half : Bool) (n : Nat) (after : Tensor) : ScoreHead → Prop
  | unified scores => after = Network.rounded half scores.values
  | split main more => after.size = n * scoreSlots ∧ ∀ r < n, after.rowAt scoreSlots r =
      Network.rounded half (main.values.extract (4 * r) (4 * r + 4)) ++
        Network.rounded half (more.values.extract (8 * r) (8 * r + 6))

/-- Every output slice is its head, rounded if asked for. -/
structure NetworkHeads.Rounded (heads : NetworkHeads) (half : Bool) (n : Nat)
    (after : BatchOutputs) : Prop where
  policy : after.policy = Network.rounded half heads.policy.values
  pass : after.pass = Network.rounded half heads.pass.values
  value : after.value = Network.rounded half heads.value.values
  ownership : after.ownership = Network.rounded half heads.ownership.values
  score : heads.score.Rounded half n after.score

/-- Every output slice is as it was, or it is its head, rounded if asked for. -/
structure NetworkHeads.Reached (heads : NetworkHeads) (half : Bool) (n : Nat)
    (before after : BatchOutputs) : Prop where
  policy : after.policy = before.policy ∨ after.policy = Network.rounded half heads.policy.values
  pass : after.pass = before.pass ∨ after.pass = Network.rounded half heads.pass.values
  value : after.value = before.value ∨ after.value = Network.rounded half heads.value.values
  ownership : after.ownership = before.ownership ∨
    after.ownership = Network.rounded half heads.ownership.values
  score : after.score = before.score ∨ heads.score.Rounded half n after.score

namespace Network

/-- What is read of a head is its rounded values and nothing else. -/
theorem headValues_eq {rank : Nat} {name : String} {head : ShapedTensor rank} {half : Bool}
    {expected : Nat} {values : Tensor} (read : headValues name head half expected = .ok values) :
    values = rounded half head.values := by
  simp only [headValues] at read
  split at read
  · exact (Except.ok.inj read).symm
  · cases read

/-- The rows of a merged score head are those of its rounded blocks. -/
theorem mergedRow_rounded (half : Bool) (main more : Tensor) (r : Nat) :
    mergedRow (rounded half main) (rounded half more) r =
      rounded half (main.extract (4 * r) (4 * r + 4)) ++
        rounded half (more.extract (8 * r) (8 * r + 6)) := by
  have next : (r + 1) * mainScoreSlots = r * mainScoreSlots + 4 := Nat.succ_mul r _
  rw [mergedRow, next, rounded_extract, rounded_extract, Nat.mul_comm 4 r, Nat.mul_comm 8 r]
  rfl

/-- What is read of the score head is its rounded values, block by block if it is
split. -/
theorem scoreValues_rounded {head : ScoreHead} {half : Bool} {rows expected : Nat} {values : Tensor}
    (read : scoreValues head half rows expected = .ok values) : head.Rounded half rows values := by
  cases head with
  | unified scores => exact headValues_eq read
  | split main more =>
    simp only [scoreValues] at read
    have size := mergeScores_size read
    unfold mergeScores at read
    split at read
    case isFalse => cases read
    case isTrue sizes =>
    obtain ⟨mainSize, moreSize, whole⟩ := sizes
    rw [Tensor.foldl_append_eq_joined] at read
    obtain rfl := Except.ok.inj read
    refine ⟨size.trans whole, ?_⟩
    intro r inside
    have each := fun r inside => mergedRow_size (r := r) mainSize moreSize inside
    rw [Tensor.rowAt_joined each inside, mergedRow_rounded]

/-- A head that cannot be read ends the run; otherwise the run goes on from where it is
written. -/
theorem writeHead_elim (P : BatchRun → Prop) {values : Except EngineError Tensor}
    {set : Tensor → BatchOutputs} {out : BatchOutputs} {next : BatchOutputs → BatchRun}
    (stop : ∀ cause, P (.fail out cause)) (go : ∀ head, values = .ok head → P (next (set head))) :
    P ((writeHead values set out).andThen next) := by
  cases values with
  | error cause => exact stop cause
  | ok head => exact go head rfl

/-- Every head that is written is rounded, and a run that succeeds has written all. The steps are
the heads in the order in which they are read. -/
theorem writeHeads_rounded (heads : NetworkHeads) (half : Bool) (n : Nat) (out : BatchOutputs) :
    let run := writeHeads heads half n out
    heads.Reached half n out run.outputs ∧
      (run.result = .ok () → heads.Rounded half n run.outputs) := by
  let Good (run : BatchRun) : Prop := heads.Reached half n out run.outputs ∧
    (run.result = .ok () → heads.Rounded half n run.outputs)
  show Good (writeHeads heads half n out)
  refine writeHead_elim Good (fun cause => ?_) fun policy policyRead => ?_
  · exact ⟨⟨.inl rfl, .inl rfl, .inl rfl, .inl rfl, .inl rfl⟩, nofun⟩
  have policyRounded := headValues_eq policyRead
  refine writeHead_elim Good (fun cause => ?_) fun pass passRead => ?_
  · exact ⟨⟨.inr policyRounded, .inl rfl, .inl rfl, .inl rfl, .inl rfl⟩, nofun⟩
  have passRounded := headValues_eq passRead
  refine writeHead_elim Good (fun cause => ?_) fun value valueRead => ?_
  · exact ⟨⟨.inr policyRounded, .inr passRounded, .inl rfl, .inl rfl, .inl rfl⟩, nofun⟩
  have valueRounded := headValues_eq valueRead
  refine writeHead_elim Good (fun cause => ?_) fun ownership ownershipRead => ?_
  · exact ⟨⟨.inr policyRounded, .inr passRounded, .inr valueRounded, .inl rfl, .inl rfl⟩, nofun⟩
  have ownershipRounded := headValues_eq ownershipRead
  cases scoreRead : scoreValues heads.score half n out.score.size with
  | error cause =>
    simp only [Good, writeHead]
    exact ⟨⟨.inr policyRounded, .inr passRounded, .inr valueRounded, .inr ownershipRounded,
      .inl rfl⟩, nofun⟩
  | ok score =>
    have scoreRounded := scoreValues_rounded scoreRead
    simp only [Good, writeHead]
    exact ⟨⟨.inr policyRounded, .inr passRounded, .inr valueRounded, .inr ownershipRounded,
      .inr scoreRounded⟩,
      fun _ => ⟨policyRounded, passRounded, valueRounded, ownershipRounded, scoreRounded⟩⟩

/-- A run of a network has written nothing and failed, or shows it its inputs, rounded if asked
for, and leaves its heads, rounded likewise. -/
theorem run_rounded (net : Network) (half : Bool) (inputs : BatchInputs) (out : BatchOutputs)
    (n : Nat) :
    let run := net.run half inputs out n
    (run.outputs = out ∧ run.result ≠ .ok ()) ∨ ∃ spatial globals heads,
      Receives half inputs spatial globals ∧ net.forward spatial globals = .ok heads ∧
        heads.Reached half n out run.outputs ∧
          (run.result = .ok () → heads.Rounded half n run.outputs) := by
  unfold Network.run
  cases made : net.heads half inputs n with
  | error broken => exact .inl ⟨rfl, nofun⟩
  | ok heads =>
    obtain ⟨spatial, globals, received, applied⟩ := heads_ok_receives made
    exact .inr ⟨spatial, globals, heads, received, applied, writeHeads_rounded heads half n out⟩

end Network

/-- Every value of rows that stand side by side is in one of them. -/
theorem Tensor.mem_rows {t : Tensor} {width n : Nat} (positive : 0 < width)
    (size : t.size = n * width) {x : Number.Single} (listed : x ∈ t) :
    ∃ r < n, x ∈ t.rowAt width r := by
  obtain ⟨i, inside, rfl⟩ := Array.getElem_of_mem listed
  have row : i / width < n := (Nat.div_lt_iff_lt_mul positive).mpr (size ▸ inside)
  have column := Nat.mod_lt i positive
  have place := Nat.div_add_mod' i width
  have bound := Tensor.row_bound width row
  refine ⟨i / width, row, ?_⟩
  rw [Tensor.rowAt]
  apply Array.mem_extract_iff_getElem.mpr
  refine ⟨i % width, ?_, ?_⟩
  · rw [Nat.succ_mul]
    omega
  · congr

/-! ## Completeness -/

/-- Rounded scores are values of half precision, whether they were merged or not. -/
theorem ScoreHead.Rounded.inHalf {head : ScoreHead} {n : Nat} {after : Tensor}
    (rounded : head.Rounded true n after) : after.InHalf := by
  cases head with
  | unified scores =>
    have whole : after = Network.rounded true scores.values := rounded
    rw [whole]
    exact Network.rounded_inHalf _
  | split main more =>
    obtain ⟨size, rows⟩ := rounded
    intro x listed
    obtain ⟨r, inside, row⟩ := Tensor.mem_rows (by decide) size listed
    rw [rows r inside] at row
    exact (Network.rounded_inHalf _).append (Network.rounded_inHalf _) x row

/-- Every value of every output slice is in half precision. -/
structure BatchOutputs.InHalf (out : BatchOutputs) : Prop where
  policy : out.policy.InHalf
  pass : out.pass.InHalf
  value : out.value.InHalf
  ownership : out.ownership.InHalf
  score : out.score.InHalf

/-- Every output tensor that a rounded run leaves is of half precision. -/
theorem NetworkHeads.Rounded.inHalf {heads : NetworkHeads} {n : Nat} {after : BatchOutputs}
    (rounded : heads.Rounded true n after) : after.InHalf where
  policy := rounded.policy ▸ Network.rounded_inHalf _
  pass := rounded.pass ▸ Network.rounded_inHalf _
  value := rounded.value ▸ Network.rounded_inHalf _
  ownership := rounded.ownership ▸ Network.rounded_inHalf _
  score := rounded.score.inHalf

/-- A processor engine refuses a batch before it applies its network, whatever the network is, or
runs it. -/
theorem CpuEngine.runBatch_cases (e : CpuEngine) (model : LoadedModel) (inputs : BatchInputs)
    (out : BatchOutputs) (n : Nat) :
    (∃ cause, ∀ net : Network, ({ e with network := net } : CpuEngine).runBatch model inputs out n =
      .fail out cause) ∨
    ∀ net : Network, ({ e with network := net } : CpuEngine).runBatch model inputs out n =
      net.run model.config.half inputs out n := by
  unfold CpuEngine.runBatch CpuEngine.compiled
  cases model.slot with
  | none => exact .inl ⟨_, fun _ => rfl⟩
  | some slot =>
    cases found : e.slots.get? slot with
    | none => exact .inl ⟨_, fun _ => by simp only [found]; rfl⟩
    | some entry =>
      simp only [found]
      by_cases beyond : entry.capacity < n
      · exact .inl ⟨_, fun _ => if_pos beyond⟩
      cases device : e.hasDevice
      · exact .inl ⟨_, fun _ => by simp only [if_neg beyond]; rfl⟩
      · exact .inr fun net => by simp only [if_neg beyond]; rfl

namespace CpuEngine

/-- Rounding a second time changes nothing, and a processor engine rounds everything that it passes
on. For every network, model and batch: functions that agree on the inputs, rounded if the model
asks for half precision, make the same run, so that the network sees nothing else; a run writes
nothing and fails, or every slice that it writes is the head of the network on such inputs,
rounded likewise, and all are if it succeeds. In half precision no other values are shown to the
network or left in a slice; in single precision nothing is rounded.

Proof: a run is refused before the network is called, in which case no function of the
network matters, or it is the run of the network. There the network receives the
rounded inputs and nothing else, and what is written are rounded heads, one after the
other. -/
theorem half_precision_complete :
    (∀ t : Tensor, Network.rounded true (Network.rounded true t) = Network.rounded true t) ∧
    ∀ (e : CpuEngine) (model : LoadedModel) (inputs : BatchInputs) (out : BatchOutputs) (n : Nat),
      let half := model.config.half
      let run := Engine.runBatch e model inputs out n
      (∀ other, (∀ spatial globals, Network.Receives half inputs spatial globals →
          other spatial globals = e.network.forward spatial globals) →
        Engine.runBatch { e with network := { e.network with forward := other } } model inputs out
          n = run) ∧
      ((run.outputs = out ∧ run.result ≠ .ok ()) ∨ ∃ spatial globals heads,
        Network.Receives half inputs spatial globals ∧
          e.network.forward spatial globals = .ok heads ∧
            heads.Reached half n out run.outputs ∧
              (run.result = .ok () → heads.Rounded half n run.outputs)) ∧
      (half = true →
        (∀ spatial globals, Network.Receives half inputs spatial globals →
          spatial.values.InHalf ∧ globals.values.InHalf) ∧
        (run.result = .ok () → run.outputs.InHalf)) := by
  refine ⟨Network.rounded_idempotent true, ?_⟩
  intro e model inputs out n half run
  have leaves : (run.outputs = out ∧ run.result ≠ .ok ()) ∨ ∃ spatial globals heads,
      Network.Receives half inputs spatial globals ∧
        e.network.forward spatial globals = .ok heads ∧
          heads.Reached half n out run.outputs ∧
            (run.result = .ok () → heads.Rounded half n run.outputs) := by
    rcases e.runBatch_cases model inputs out n with ⟨cause, refused⟩ | runs
    · have ended : run = .fail out cause := refused e.network
      rw [ended]
      exact .inl ⟨rfl, nofun⟩
    · have ran : run = e.network.run half inputs out n := runs e.network
      rw [ran]
      exact e.network.run_rounded half inputs out n
  refine ⟨?_, leaves, ?_⟩
  · intro other agree
    rcases e.runBatch_cases model inputs out n with ⟨cause, refused⟩ | runs
    · exact (refused _).trans (refused e.network).symm
    · have same : ({ e.network with forward := other } : Network).heads half inputs n =
          e.network.heads half inputs n := Network.heads_congr agree
      refine (runs _).trans (Eq.trans ?_ (runs e.network).symm)
      rw [Network.run, Network.run, same]
  · intro reduced
    rw [reduced] at leaves ⊢
    refine ⟨?_, ?_⟩
    · rintro spatial globals ⟨planes, values⟩
      rw [planes, values]
      exact ⟨Network.rounded_inHalf _, Network.rounded_inHalf _⟩
    · intro succeeded
      rcases leaves with ⟨_, failed⟩ | ⟨_, _, heads, _, _, _, rounded⟩
      · exact absurd succeeded failed
      · exact (rounded succeeded).inHalf

/-- The single-precision number nearest to a tenth, which half precision has not. -/
def tenth : Number.Single := ⟨0x3dcccccd⟩

/-- A network on one cell: its policy is the cell, its other heads hold a tenth everywhere. -/
def tenthNetwork : Network where
  forward spatial _ := .ok {
    policy := .ofFlat #v[1, 1, 1, 1] spatial.values.valueAt
    pass := .table 1 1 fun _ _ => tenth
    value := .table 1 3 fun _ _ => tenth
    ownership := .ofFlat #v[1, 1, 1, 1] fun _ => tenth
    score := .split (.table 1 4 fun _ _ => tenth) (.table 1 8 fun _ _ => tenth) }
  version := none

/-- The same network if it is shown a tenth in half precision, and a fault otherwise. -/
def guardedTenth (spatial : ShapedTensor 4) (globals : ShapedTensor 2) :
    Except Fault NetworkHeads :=
  if spatial.values = #[tenth.throughHalf] then tenthNetwork.forward spatial globals
  else .error .implicit

/-- An engine with this network and one loaded model. -/
def tenthEngine : CpuEngine := ⟨tenthNetwork, true, .insert .empty 0 ⟨14, 1⟩, 1⟩

/-- The loaded model, to be run in half precision on a board of one cell. -/
def halfModel : LoadedModel := ⟨.secondary, 14, some 0, ⟨.square 1, 1, true, false, 100, 0⟩⟩

/-- A tenth goes in and comes out rounded, in the last score too. -/
theorem half_precision_complete_tenth :
    let inputs : BatchInputs := ⟨#[tenth], #[tenth], 1, 1, .square 1⟩
    let out : BatchOutputs :=
      ⟨.zeros 1, .zeros 1, .zeros 3, .zeros 1, .zeros 10, 1, 1, .square 1⟩
    let run := Engine.runBatch tenthEngine halfModel inputs out 1
    tenth.throughHalf ≠ tenth ∧ run.result = .ok () ∧ run.outputs.InHalf ∧
      run.outputs.score.valueAt 9 = tenth.throughHalf ∧
      Engine.runBatch { tenthEngine with network := { tenthNetwork with forward := guardedTenth } }
        halfModel inputs out 1 = run := by
  intro inputs out run
  obtain ⟨unseen, _, inHalf⟩ := half_precision_complete.2 tenthEngine halfModel inputs out 1
  have succeeded : run.result = .ok () := by with_unfolding_all rfl
  refine ⟨by decide, succeeded, (inHalf rfl).2 succeeded, by decide +kernel, unseen _ ?_⟩
  rintro spatial globals ⟨planes, _⟩
  have seen : spatial.values = #[tenth.throughHalf] := planes.trans (by decide +kernel)
  exact if_pos seen

end CpuEngine

end BoardEval
