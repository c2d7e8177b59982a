import BoardEval.Proofs.Calls

/-!
# Padding over the life of a pool

Nothing clears the padding of a pool after it was made, so whatever writes to a spatial row
must stay inside the live window. A batch writes spatial rows only while it packs, through the
padded layout, and there every canonical image of a cell is again a cell of the window. This
holds for each row on its own, so it does not matter whether the batch was packed in full,
stopped at a row that is not in order, failed in the engine or stopped while decoding.

A history is any list of batches on one pool: with any handles, forward passes, requests and
evaluations, each starting from the pool that the one before left behind.
-/

namespace BoardEval

/-- Every spatial value that a call shows outside the window of a board is zero: in each row,
in each channel and at each cell of the planes. -/
def Call.PaddingZero (call : Call) (board : Extent) : Prop :=
  ∀ r < call.rows, ∀ c < call.inputs.spatialChannels,
    ∀ y < call.inputs.plane.height, ∀ x < call.inputs.plane.width, board.contains y x = false →
      (call.inputs.spatialRow r).valueAt ((Layout.channelFirst call.inputs.plane).index c y x) =
        .zero

namespace Pool

/-- One batch on a pool. -/
structure Use where
  handle : Handle
  forward : Forward
  requests : List Request
  outputs : List Evaluation

/-- How a batch ends on a pool, and the calls that it makes. -/
def Use.run (use : Use) (p : Pool) : Execution × List Call :=
  (use.handle.executeBy use.forward p use.requests use.outputs,
    (use.handle.traced use.forward p use.requests use.outputs).2)

/-- Batches one after the other, each on the pool that the one before left behind. -/
def history : List Use → Pool → List (Execution × List Call)
  | [], _ => []
  | use :: rest, p => use.run p :: history rest (use.run p).1.pool

variable {p : Pool}

/-- A sound pool is zero outside the live window of every plane. -/
theorem Sound.outside_window (sound : p.Sound) {r c y x : Nat} (row : r < p.capacity)
    (channel : c < p.shape.spatial) (planeRow : y < p.shape.plane.height)
    (planeColumn : x < p.shape.plane.width) (outside : p.shape.board.contains y x = false) :
    (p.spatial.slice r).valueAt ((Layout.channelFirst p.shape.plane).index c y x) = .zero := by
  apply sound.padding r row
  · exact Layout.channelFirst_lt p.shape.plane channel planeRow planeColumn
  · intro c' y' x' live
    exact Layout.padding_apart sound.fit.board planeRow planeColumn outside live

/-- The padding of a sound pool is clear. -/
theorem Sound.paddingIsClear (sound : p.Sound) : p.paddingIsClear = true := by
  simp only [Pool.paddingIsClear, List.all_eq_true, List.mem_range, paddingCells,
    List.mem_filter, inLiveWindow, Bool.not_eq_true', Prod.forall]
  rintro r row c channel y x ⟨listed, outside⟩
  obtain ⟨planeRow, planeColumn⟩ := (p.shape.plane.mem_positions y x).mp listed
  have zero := sound.outside_window row channel planeRow planeColumn outside
  have place := Layout.channelFirst_lt p.shape.plane channel planeRow planeColumn
  rw [Rows.slice, Tensor.value_row _ _ _ _ (by rw [sound.spatial.width]; exact place)] at zero
  rw [zero]
  rfl

/-- A call of a batch on an allocated pool shows rows of the pool's shape, and zeros outside
the live window. -/
theorem call_paddingZero (allocated : p.Allocated) (use : Use) :
    ∀ call ∈ (use.run p).2, call.inputs.Shaped p.shape call.rows ∧
      call.PaddingZero p.shape.board := by
  intro call made
  cases loaded : (use.handle.load p use.requests use.outputs).2 with
  | error broken =>
    simp only [Use.run, Handle.traced_refused allocated _ loaded, List.not_mem_nil] at made
  | ok u =>
    simp only [Use.run, Handle.traced_loaded allocated _ loaded, List.mem_singleton] at made
    obtain rfl := made
    obtain ⟨_, _, room, _⟩ := Handle.loaded_room allocated.sound loaded
    obtain ⟨sound, alike⟩ :=
      Handle.load_sound (h := use.handle) allocated.sound use.requests use.outputs
    have bound := alike.capacity ▸ room
    rw [← alike.shape]
    refine ⟨inputs_shaped sound bound, ?_⟩
    intro r row c channel y planeRow x planeColumn outside
    simp only [Handle.callOf, inputs_spatialRow sound bound row]
    exact sound.outside_window (Nat.lt_of_lt_of_le row bound) channel planeRow planeColumn outside

/-- Every batch of a history leaves an allocated pool of the same make behind and shows zeros
in the padding. The induction is on the history; the invariant that carries it is that the
pool is allocated. -/
theorem history_clear (allocated : p.Allocated) (uses : List Use) :
    ∀ step ∈ p.history uses, step.1.pool.Allocated ∧
      ∀ call ∈ step.2, call.inputs.Shaped p.shape call.rows ∧ call.PaddingZero p.shape.board := by
  induction uses generalizing p with
  | nil => nofun
  | cons use rest inductionHypothesis =>
    obtain ⟨sound, alike⟩ := Handle.execute_sound (h := use.handle) allocated.sound use.forward
      use.requests use.outputs
    have after : (use.run p).1.pool.Allocated := allocated.of_alike sound alike
    intro step listed
    rcases List.mem_cons.mp listed with rfl | later
    · exact ⟨after, call_paddingZero allocated use⟩
    · have kept := inductionHypothesis after step later
      rwa [show (use.run p).1.pool.shape = p.shape from alike.shape] at kept

/-- A pool that was created for any valid descriptor, capacity and extents has clear padding,
and has it after every batch of every history, however the batches end; and every call that
any of them makes shows zeros in every row and channel outside the live window. -/
theorem padding_stays_clear (d : Descriptor) (capacity : Nat) (board plane : Extent) (p : Pool)
    (created : create d capacity board plane = .ok p) (uses : List Use) :
    p.paddingIsClear = true ∧ ∀ step ∈ p.history uses, step.1.pool.paddingIsClear = true ∧
      ∀ call ∈ step.2, call.inputs.Shaped (.ofDescriptor d board plane) call.rows ∧
        call.PaddingZero board := by
  obtain ⟨sound, shape, _⟩ := create_sound d capacity board plane p created
  have allocated : p.Allocated := (Served.created d capacity board plane created).allocated
  refine ⟨sound.paddingIsClear, ?_⟩
  intro step listed
  obtain ⟨after, calls⟩ := history_clear allocated uses step listed
  rw [shape] at calls
  exact ⟨after.sound.paddingIsClear, calls⟩

/-- The padding of the tiny handle's pool stays clear through a batch that is evaluated and
one that is refused. -/
theorem padding_stays_clear_tiny :
    let p := blank Handle.tiny.shape "tiny" 2
    let forward := Forward.ofRows Handle.tiny.shape (.echo Handle.tiny.shape)
    let uses : List Use := [⟨.tiny, forward, [.tiny .zero], [.forRequest (.tiny .zero)]⟩,
      ⟨.tiny, forward, [.tiny .one], []⟩]
    create Handle.tiny.descriptor 2 ⟨3, 2⟩ (.square 3) = .ok p ∧
      ∀ step ∈ p.history uses, step.1.pool.paddingIsClear = true := by
  intro p forward uses
  have created : create Handle.tiny.descriptor 2 ⟨3, 2⟩ (.square 3) = .ok p := rfl
  obtain ⟨_, steps⟩ := padding_stays_clear Handle.tiny.descriptor 2 ⟨3, 2⟩ (.square 3) p created uses
  exact ⟨created, fun step listed => (steps step listed).1⟩

end Pool

end BoardEval
