import BoardEval.Proofs.Pools
import BoardEval.Service.Dispatch

/-!
# Packing requests into rows

Writing a request to a row of a sound pool gives the same row whatever the row
held before: its live window is overwritten in full and its padding is zero. That
row, `packedRow`, is a function of the request and the shape. A batch that is
loaded therefore shows packed requests in its first rows, and loading two pools
that are made alike ends in the same way for both.
-/

namespace BoardEval

namespace PoolShape

/-- A request about the board of the shape, with tensors of its sizes. -/
structure Takes (s : PoolShape) (q : Request) : Prop where
  extent : q.extent = s.board
  spatial : q.spatial.size = s.denseSpatial
  globals : q.globals.size = s.globals

/-- A request in canonical orientation on zero planes. -/
def packedRow (s : PoolShape) (channelLast : Bool) (q : Request) : Tensor :=
  Tensor.move q.spatial
    (Tensor.movesToCanonical (.dense s.board s.spatial channelLast) s.layout s.spatial q.symmetry)
    (Tensor.zeros s.spatialWidth)

variable {s : PoolShape}

/-- Requests and pools speak of the same board, one densely and one in padded
planes. -/
theorem dense_board (s : PoolShape) (channelLast : Bool) :
    (Layout.dense s.board s.spatial channelLast).extent = s.layout.extent := by
  rw [Layout.dense_extent]
  rfl

/-- A packed row has the width of the pool, padding included. -/
@[simp] theorem size_packedRow (channelLast : Bool) (q : Request) :
    (s.packedRow channelLast q).size = s.spatialWidth := by
  simp [packedRow]

/-- A feature of the request stands at the canonical image of its cell. -/
theorem packedRow_feature (fit : s.Fit) (channelLast : Bool) (q : Request) {c y x : Nat}
    (channel : c < s.spatial) (rows : y < s.board.height) (columns : x < s.board.width) :
    (s.packedRow channelLast q).valueAt
        (s.layout.index c (q.symmetry.cell s.board y x).1 (q.symmetry.cell s.board y x).2) =
      q.spatial.valueAt ((Layout.dense s.board s.spatial channelLast).index c y x) := by
  have live : (Layout.dense s.board s.spatial channelLast).Live s.spatial c y x := by
    simp only [Layout.Live, Layout.dense_extent]
    exact ⟨channel, rows, columns⟩
  have room : s.layout.required s.spatial ≤ (Tensor.zeros s.spatialWidth).size := by
    rw [Tensor.size_zeros]
    exact Layout.padded_required_le fit.board s.spatial
  have value : (s.packedRow channelLast q).valueAt (s.layout.index c
      (q.symmetry.cell (Layout.dense s.board s.spatial channelLast).extent y x).1
      (q.symmetry.cell (Layout.dense s.board s.spatial channelLast).extent y x).2) =
        q.spatial.valueAt ((Layout.dense s.board s.spatial channelLast).index c y x) :=
    Tensor.value_toCanonical (s.dense_board channelLast)
      (Layout.padded_separates fit.board s.spatial) room live
  rwa [Layout.dense_extent] at value

/-- What is stored outside the live window is zero. -/
theorem packedRow_padding (channelLast : Bool) (q : Request) (i : Nat)
    (outside : ∀ {c y x}, s.layout.Live s.spatial c y x → s.layout.index c y x ≠ i) :
    (s.packedRow channelLast q).valueAt i = .zero :=
  (Tensor.value_toCanonical_other (s.dense_board channelLast) i outside).trans
    (Tensor.value_zeros _ _)

end PoolShape

namespace Handle

variable {h : Handle} {p : Pool}

/-- The promises about one row, all at once. -/
theorem checkRow_ok_iff (r : Nat) (q : Request) (out : Evaluation) (u : Unit) :
    h.checkRow p r q out = .ok u ↔ out.extent = h.board ∧ q.extent = h.board ∧
      q.spatial.size = p.shape.denseSpatial ∧ q.globals.size = p.shape.globals := by
  simp [checkRow, bind_ok_iff]

/-- A row that is in order has a request that the shape takes. -/
theorem checkRow_takes (board : h.board = p.shape.board) {r : Nat} {q : Request}
    {out : Evaluation} {u : Unit} (checked : h.checkRow p r q out = .ok u) :
    out.extent = h.board ∧ p.shape.Takes q := by
  obtain ⟨extent, request, spatial, globals⟩ := (checkRow_ok_iff r q out u).mp checked
  exact ⟨extent, request.trans board, spatial, globals⟩

/-- The promises about the pool: it was made for the handle's board, planes and
network. -/
theorem checkPool_ok_iff (u : Unit) :
    h.checkPool p = .ok u ↔ p.shape.board = h.board ∧ p.shape.plane = h.model.config.plane ∧
      p.modelName = h.descriptor.name ∧ p.shape.spatial = h.descriptor.spatial ∧
      p.shape.globals = h.descriptor.globals ∧ p.shape.policy = h.descriptor.policy ∧
      p.shape.ownership = h.descriptor.ownership := by
  simp [checkPool, bind_ok_iff, and_assoc]

/-- The promises about a batch as a whole. -/
theorem checkBatch_ok_iff (requests outputs : Nat) (u : Unit) :
    h.checkBatch p requests outputs = .ok u ↔ (1 ≤ requests ∧ requests ≤ h.maxBatchSize) ∧
      requests ≤ p.capacity ∧ outputs = requests ∧ h.checkPool p = .ok () := by
  simp [checkBatch, Pool.requireBatch_ok_iff, bind_ok_iff]

/-- A request that the shape takes is written to any row of a sound pool. The
window of the row is overwritten in full, so the written row is the packed one,
as if it had been zero before. -/
theorem loadRow_ok (sound : p.Sound) (board : h.board = p.shape.board) {r : Nat}
    (bound : r < p.capacity) {q : Request} (takes : p.shape.Takes q) :
    h.loadRow p r q =
      .ok (p.setInputRow r (p.shape.packedRow h.inputsChannelLast q) q.globals) := by
  have row : p.spatial.row r = .ok (p.spatial.slice r) := Rows.row_ok sound.spatial bound
  have rowSize : (p.spatial.slice r).size = p.shape.spatialWidth :=
    Rows.size_slice sound.spatial bound
  have extents := p.shape.dense_board h.inputsChannelLast
  have srcRoom := Layout.dense_required_le p.shape.board p.shape.spatial h.inputsChannelLast
  have dstRoom := Layout.padded_required_le sound.fit.board p.shape.spatial
  have copied : Tensor.copyToCanonical q.spatial
      (.dense p.shape.board p.shape.spatial h.inputsChannelLast) (p.spatial.slice r) p.shape.layout
      p.shape.spatial q.symmetry = .ok (p.shape.packedRow h.inputsChannelLast q) := by
    rw [Tensor.copyToCanonical_ok extents (Nat.lt_of_le_of_lt srcRoom sound.fit.denseWord)
      (takes.spatial ▸ srcRoom) (Nat.lt_of_le_of_lt dstRoom sound.fit.spatialWord)
      (rowSize ▸ dstRoom)]
    congr 1
    apply Tensor.toCanonical_congr extents
    · rw [rowSize, Tensor.size_zeros]
    · intro i inside outside
      rw [Tensor.value_zeros]
      exact sound.padding r bound i (rowSize ▸ inside) outside
  simp only [loadRow, row, ok_bind, board, copied]
  rfl

/-- Writing a row keeps a pool sound, whatever handle and request it is done
with: the copy leaves the padding of the row alone. -/
theorem loadRow_sound (sound : p.Sound) {r : Nat} {q : Request} {p' : Pool}
    (loaded : h.loadRow p r q = .ok p') : p'.Sound ∧ p'.Alike p := by
  simp only [loadRow, bind_ok_iff, pure_ok_iff] at loaded
  obtain ⟨row, read, turned, copied, rfl⟩ := loaded
  obtain ⟨inside, rfl⟩ := (Rows.row_ok_iff _ _ _).mp read
  simp only [Tensor.copyToCanonical, bind_ok_iff, pure_ok_iff] at copied
  obtain ⟨_, checked, rfl⟩ := copied
  have extents := ((Tensor.checkCopy_ok_iff _).mp checked).1
  have full : (p.spatial.slice r).size = p.shape.spatialWidth := by
    rw [Rows.slice, Tensor.size_row _ _ _ inside, sound.spatial.width]
  refine ⟨Pool.setInputRow_sound sound r _ (by simpa using full) ?_, Pool.setInputRow_alike _ _ _ _⟩
  intro i place outside bound
  rw [Tensor.value_toCanonical_other extents i outside]
  exact sound.padding r bound i place outside

/-- Writing rows keeps a pool sound, also where a row is not in order and the
writing stops. -/
theorem loadRows_sound (sound : p.Sound) (r : Nat) (pairs : List (Request × Evaluation)) :
    (h.loadRows r pairs p).1.Sound ∧ (h.loadRows r pairs p).1.Alike p := by
  induction pairs generalizing r p with
  | nil => exact ⟨sound, .refl p⟩
  | cons pair rest inductionHypothesis =>
    obtain ⟨q, out⟩ := pair
    simp only [loadRows]
    split
    · exact ⟨sound, .refl p⟩
    · split
      · exact ⟨sound, .refl p⟩
      · rename_i p' loaded
        obtain ⟨sound', alike⟩ := loadRow_sound sound loaded
        obtain ⟨final, chain⟩ := inductionHypothesis sound' (r + 1)
        exact ⟨final, chain.trans alike⟩

/-- Writing rows leaves every head as it was. -/
theorem loadRows_heads (r : Nat) (pairs : List (Request × Evaluation)) (p : Pool) (i : Nat) :
    (h.loadRows r pairs p).1.heads i = p.heads i := by
  induction pairs generalizing r p with
  | nil => rfl
  | cons pair rest inductionHypothesis =>
    obtain ⟨q, out⟩ := pair
    simp only [loadRows]
    split
    · rfl
    · split
      · rfl
      · rename_i p' written
        simp only [loadRow, bind_ok_iff, pure_ok_iff] at written
        obtain ⟨_, _, _, _, rfl⟩ := written
        exact inductionHypothesis _ _

/-- Rows that are all in order are loaded. They are packed requests then, and the
rows before the first are untouched.

The induction is on the rows still to be written. It carries that rows already
written stay as they are, because each step writes one later row. -/
theorem loadRows_ok (sound : p.Sound) (board : h.board = p.shape.board) (r : Nat)
    (pairs : List (Request × Evaluation)) (room : r + pairs.length ≤ p.capacity)
    (ordered : ∀ pair ∈ pairs, pair.2.extent = h.board ∧ p.shape.Takes pair.1) :
    (h.loadRows r pairs p).2 = .ok () ∧
      (∀ i < r, (h.loadRows r pairs p).1.spatial.slice i = p.spatial.slice i ∧
        (h.loadRows r pairs p).1.globals.slice i = p.globals.slice i) ∧
      ∀ i pair, pairs[i]? = some pair →
        (h.loadRows r pairs p).1.spatial.slice (r + i) =
            p.shape.packedRow h.inputsChannelLast pair.1 ∧
          (h.loadRows r pairs p).1.globals.slice (r + i) = pair.1.globals := by
  induction pairs generalizing r p with
  | nil => simp [loadRows]
  | cons pair rest inductionHypothesis =>
    obtain ⟨q, out⟩ := pair
    obtain ⟨extent, takes⟩ : out.extent = h.board ∧ p.shape.Takes q :=
      ordered (q, out) List.mem_cons_self
    simp only [List.length_cons] at room
    have bound : r < p.capacity := by omega
    have checked : h.checkRow p r q out = .ok () :=
      (checkRow_ok_iff r q out ()).mpr
        ⟨extent, takes.extent.trans board.symm, takes.spatial, takes.globals⟩
    have written := loadRow_ok sound board bound takes
    obtain ⟨sound', _⟩ := loadRow_sound sound written
    simp only [loadRows, checked, written]
    obtain ⟨result, before, after⟩ := inductionHypothesis sound' board (r + 1)
      (show r + 1 + rest.length ≤ p.capacity by omega)
      fun pair member => ordered pair (List.mem_cons_of_mem _ member)
    have packedSize : (p.shape.packedRow h.inputsChannelLast q).size = p.shape.spatialWidth :=
      PoolShape.size_packedRow _ _
    refine ⟨result, ?_, ?_⟩
    · intro i earlier
      obtain ⟨spatial, globals⟩ := before i (by omega)
      rw [spatial, globals]
      exact ⟨Rows.slice_setRow_other sound.spatial (by omega) (Nat.le_of_eq packedSize) (by omega),
        Rows.slice_setRow_other sound.globals (by omega) (Nat.le_of_eq takes.globals) (by omega)⟩
    · intro i pair listed
      cases i with
      | zero =>
        obtain rfl : (q, out) = pair := by simpa using listed
        obtain ⟨spatial, globals⟩ := before r (by omega)
        exact ⟨spatial.trans (Rows.slice_setRow sound.spatial bound packedSize),
          globals.trans (Rows.slice_setRow sound.globals bound takes.globals)⟩
      | succ i =>
        have later := after i pair (by simpa using listed)
        rwa [Nat.add_right_comm] at later

/-- Rows that were loaded were all in order. -/
theorem loadRows_ordered (sound : p.Sound) (board : h.board = p.shape.board) (r : Nat)
    (pairs : List (Request × Evaluation)) (loaded : (h.loadRows r pairs p).2 = .ok ()) :
    ∀ pair ∈ pairs, pair.2.extent = h.board ∧ p.shape.Takes pair.1 := by
  induction pairs generalizing r p with
  | nil => simp
  | cons pair rest inductionHypothesis =>
    obtain ⟨q, out⟩ := pair
    simp only [loadRows] at loaded
    split at loaded
    · simp at loaded
    · rename_i checked
      split at loaded
      · simp at loaded
      · rename_i p' written
        obtain ⟨sound', alike⟩ := loadRow_sound sound written
        have board' := board.trans (congrArg PoolShape.board alike.shape).symm
        have later := inductionHypothesis sound' board' (r + 1) loaded
        intro pair member
        rcases List.mem_cons.mp member with rfl | member
        · exact checkRow_takes board checked
        · exact alike.shape ▸ later pair member

/-- Loading rows ends alike in pools that are made alike: whether a row is in order
depends on the shape alone, and a row in order is always written. -/
theorem loadRows_alike {q : Pool} (soundP : p.Sound) (soundQ : q.Sound) (alike : p.Alike q)
    (board : h.board = p.shape.board) (r : Nat) (pairs : List (Request × Evaluation))
    (room : r + pairs.length ≤ p.capacity) :
    (h.loadRows r pairs p).2 = (h.loadRows r pairs q).2 := by
  induction pairs generalizing r p q with
  | nil => rfl
  | cons pair rest inductionHypothesis =>
    obtain ⟨request, out⟩ := pair
    simp only [List.length_cons] at room
    have sameCheck : h.checkRow p r request out = h.checkRow q r request out := by
      simp only [checkRow, alike.shape]
    simp only [loadRows, ← sameCheck]
    cases checked : h.checkRow p r request out with
    | error broken => rfl
    | ok u =>
      obtain ⟨_, takes⟩ := checkRow_takes board checked
      have boardQ : h.board = q.shape.board := alike.shape ▸ board
      have boundP : r < p.capacity := by omega
      have boundQ : r < q.capacity := alike.capacity ▸ boundP
      have writtenP := loadRow_ok soundP board boundP takes
      have writtenQ := loadRow_ok soundQ boardQ boundQ (alike.shape ▸ takes)
      obtain ⟨soundP', alikeP⟩ := loadRow_sound soundP writtenP
      obtain ⟨soundQ', alikeQ⟩ := loadRow_sound soundQ writtenQ
      rw [writtenP, writtenQ]
      exact inductionHypothesis soundP' soundQ' (alikeP.trans (alike.trans alikeQ.symm)) board
        (r + 1) (by rw [alikeP.capacity]; omega)

/-- A batch that passed its checks is about the pool's board, and the pool has a row
for each of its requests. -/
theorem checked_batch {requests : List Request} {outputs : List Evaluation}
    (checked : h.checkBatch p requests.length outputs.length = .ok ()) :
    h.board = p.shape.board ∧ 0 + (requests.zip outputs).length ≤ p.capacity := by
  obtain ⟨_, room, count, pool⟩ := (checkBatch_ok_iff _ _ ()).mp checked
  refine ⟨((checkPool_ok_iff ()).mp pool).1.symm, ?_⟩
  rw [List.length_zip, count, Nat.min_self, Nat.zero_add]
  exact room

/-- Loading a batch keeps a pool sound, also where the batch breaks its contract. -/
theorem load_sound (sound : p.Sound) (requests : List Request) (outputs : List Evaluation) :
    (h.load p requests outputs).1.Sound ∧ (h.load p requests outputs).1.Alike p := by
  unfold load
  split
  · exact ⟨sound, .refl p⟩
  · exact loadRows_sound sound 0 _

/-- It leaves the heads alone. -/
theorem load_heads (p : Pool) (requests : List Request) (outputs : List Evaluation) (i : Nat) :
    (h.load p requests outputs).1.heads i = p.heads i := by
  unfold load
  split
  · rfl
  · exact loadRows_heads 0 _ p i

/-- A batch is loaded exactly if it keeps its contract: as a whole, and in each of
its rows. -/
theorem load_ok_iff (sound : p.Sound) (requests : List Request) (outputs : List Evaluation) :
    (h.load p requests outputs).2 = .ok () ↔
      h.checkBatch p requests.length outputs.length = .ok () ∧
        ∀ pair ∈ requests.zip outputs, pair.2.extent = h.board ∧ p.shape.Takes pair.1 := by
  unfold load
  cases checked : h.checkBatch p requests.length outputs.length with
  | error broken => simp
  | ok u =>
    obtain ⟨board, room⟩ := checked_batch checked
    simp only [true_and]
    exact ⟨loadRows_ordered sound board 0 _, fun ordered =>
      (loadRows_ok sound board 0 _ room ordered).1⟩

/-- A loaded batch shows its requests, packed, in the first rows. -/
theorem load_rows (sound : p.Sound) {requests : List Request} {outputs : List Evaluation}
    (loaded : (h.load p requests outputs).2 = .ok ()) {i : Nat} {q : Request}
    (listed : requests[i]? = some q) :
    (h.load p requests outputs).1.spatial.slice i = p.shape.packedRow h.inputsChannelLast q ∧
      (h.load p requests outputs).1.globals.slice i = q.globals := by
  obtain ⟨checked, ordered⟩ := (load_ok_iff sound requests outputs).mp loaded
  obtain ⟨board, room⟩ := checked_batch checked
  obtain ⟨_, _, count, _⟩ := (checkBatch_ok_iff _ _ ()).mp checked
  obtain ⟨inside, rfl⟩ := List.getElem?_eq_some_iff.mp listed
  have insideOutputs : i < outputs.length := count ▸ inside
  have paired : (requests.zip outputs)[i]? = some (requests[i], outputs[i]) := by
    rw [List.getElem?_zip_eq_some]
    exact ⟨List.getElem?_eq_getElem inside, List.getElem?_eq_getElem insideOutputs⟩
  have rows := (loadRows_ok sound board 0 _ room ordered).2.2 i _ paired
  rw [Nat.zero_add] at rows
  simpa only [load, checked] using rows

/-- Loading ends alike in pools that are made alike. -/
theorem load_alike {q : Pool} (soundP : p.Sound) (soundQ : q.Sound) (alike : p.Alike q)
    (requests : List Request) (outputs : List Evaluation) :
    (h.load p requests outputs).2 = (h.load q requests outputs).2 := by
  have sameCheck : h.checkBatch p requests.length outputs.length =
      h.checkBatch q requests.length outputs.length := by
    simp only [checkBatch, checkPool, alike.shape, alike.capacity, alike.modelName]
  unfold load
  rw [← sameCheck]
  cases checked : h.checkBatch p requests.length outputs.length with
  | error broken => rfl
  | ok u =>
    obtain ⟨board, room⟩ := checked_batch checked
    exact loadRows_alike soundP soundQ alike board 0 _ room

end Handle

end BoardEval
