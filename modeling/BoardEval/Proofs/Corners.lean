import BoardEval.Proofs.Guards

/-!
# Corners of windows

Before a copy writes anything it looks at one position in each tensor, that of the last
corner of the window. Afterwards it looks at nothing: neither whether a place lies in its
tensor nor whether a sum or a product overflows on the way to its position.

Here a copy is taken step by step. Each product, sum and difference of sizes has a guard of
its own, the destination is changed in place, and what has been read and written is noted, so
that a copy which a guard stops shows how far it had come. Positions grow with channel, row
and column, and a symmetry does not leave the window; so the last corner bounds every
position, and every number on the way to it. No guard stops a copy that has begun, and one
that must not begin leaves the destination alone.

Nothing is asked of the strides of a layout. They may be zero, places may share a position,
and positions may come as close to the limit of a machine word as they like.
-/

namespace BoardEval

/-- A difference of sizes that is not negative. -/
def differenceInWord (a b : Nat) : Except Fault Nat :=
  if b ≤ a then .ok (a - b) else .error .implicit

/-- Subtracting what is not more succeeds. -/
theorem differenceInWord_ok {a b : Nat} (ordered : b ≤ a) : differenceInWord a b = .ok (a - b) :=
  if_pos ordered

/-- A guard on a part of a number changes nothing in front of the guard on the number. -/
theorem fitsWord_bind {part whole : Nat} {next : Nat → Except Fault Nat} (le : part ≤ whole)
    (later : next part = fitsWord whole) : (fitsWord part >>= next) = fitsWord whole := by
  by_cases word : part < wordLimit
  · rw [fitsWord_ok word, ok_bind, later]
  · have beyond : ¬whole < wordLimit := by omega
    rw [fitsWord, if_neg word, error_bind, fitsWord, if_neg beyond]

namespace Layout

variable {l : Layout} {channels : Nat}

/-- The position of a place, with a guard on each product and each sum. -/
def indexStepwise (l : Layout) (c y x : Nat) : Except Fault Nat := do
  let planes ← productInWord c l.channelStride
  let rows ← productInWord y l.rowStride
  let row ← sumInWord planes rows
  let cells ← productInWord x l.cellStride
  sumInWord row cells

/-- A guard on the whole position is as strict as the guards on its parts: none of them is
larger than the whole. -/
theorem indexStepwise_eq (l : Layout) (c y x : Nat) :
    l.indexStepwise c y x = l.indexInWord c y x := by
  unfold indexStepwise indexInWord index productInWord sumInWord
  apply fitsWord_bind (by omega)
  apply fitsWord_bind (by omega)
  apply fitsWord_bind (by omega)
  exact fitsWord_bind (by omega) rfl

/-- The length that a layout requires, with a guard on each step. Differences are taken for a
window with a last corner only. -/
def requiredStepwise (l : Layout) (channels : Nat) : Except Fault Nat :=
  if channels = 0 ∨ l.extent.width = 0 ∨ l.extent.height = 0 then .ok 0
  else do
    let c ← differenceInWord channels 1
    let y ← differenceInWord l.extent.height 1
    let x ← differenceInWord l.extent.width 1
    let last ← l.indexStepwise c y x
    sumInWord last 1

/-- Guarding every sum and product of a required length comes to guarding the length
itself, since no part exceeds the whole. -/
theorem requiredStepwise_eq (l : Layout) (channels : Nat) :
    l.requiredStepwise channels = l.requiredInWord channels := by
  unfold requiredStepwise requiredInWord required
  split
  · exact (fitsWord_ok (by decide)).symm
  · rename_i present
    simp only [differenceInWord_ok (show 1 ≤ channels by omega),
      differenceInWord_ok (show 1 ≤ l.extent.height by omega),
      differenceInWord_ok (show 1 ≤ l.extent.width by omega), ok_bind, indexStepwise_eq]
    exact fitsWord_bind (Nat.le_succ _) rfl

end Layout

namespace Symmetry

/-- A row or column, counted from the other end if it is flipped, with a guard on each
difference. -/
def flipStepwise (flips : Bool) (length i : Nat) : Except Fault Nat :=
  if flips then do
    let last ← differenceInWord length 1
    differenceInWord last i
  else .ok i

/-- On the board a flip never goes below zero. -/
theorem flipStepwise_ok (flips : Bool) {length i : Nat} (inside : i < length) :
    flipStepwise flips length i = .ok (if flips then length - 1 - i else i) := by
  cases flips with
  | false => rfl
  | true =>
    rw [flipStepwise, if_pos rfl, differenceInWord_ok (by omega), ok_bind,
      differenceInWord_ok (by omega), if_pos rfl]

/-- The canonical cell, with a guard on each flip. -/
def cellStepwise (s : Symmetry) (e : Extent) (y x : Nat) : Except Fault (Nat × Nat) := do
  let row ← flipStepwise s.flipsY e.height y
  let column ← flipStepwise s.flipsX e.width x
  return if s.turns e then (column, row) else (row, column)

/-- A cell of the board is flipped without a guard stopping it. -/
theorem cellStepwise_ok (s : Symmetry) (e : Extent) {y x : Nat} (rows : y < e.height)
    (columns : x < e.width) : s.cellStepwise e y x = .ok (s.cell e y x) := by
  rw [cellStepwise, flipStepwise_ok s.flipsY rows, ok_bind, flipStepwise_ok s.flipsX columns,
    ok_bind]
  rfl

end Symmetry

/-- A copy as far as it has come: the positions read and written so far, in pairs and in
order, the destination as it is now, and the guard that has stopped it, if any. -/
structure CopyRun where
  moved : List (Nat × Nat)
  out : Tensor
  result : Except Fault Unit

namespace CopyRun

/-- A copy that has done nothing to its destination. -/
def idle (dst : Tensor) (result : Except Fault Unit) : CopyRun := ⟨[], dst, result⟩

/-- The value at the position of one place is brought to its other position. The value is read
before the target is looked at. -/
def bring (src : Tensor) (source target : Nat × Nat × Nat → Except Fault Nat) (out : Tensor)
    (place : Nat × Nat × Nat) : Except Fault ((Nat × Nat) × Tensor) := do
  let i ← source place
  let value ← src.read i
  let j ← target place
  let out ← out.put j value
  return ((i, j), out)

/-- One turn of the loop over the places. A copy that was stopped stays as it is. -/
def turn (src : Tensor) (source target : Nat × Nat × Nat → Except Fault Nat) (run : CopyRun)
    (place : Nat × Nat × Nat) : CopyRun :=
  match run.result with
  | .error _ => run
  | .ok () =>
    match bring src source target run.out place with
    | .ok (move, out) => ⟨run.moved ++ [move], out, .ok ()⟩
    | .error broken => { run with result := .error broken }

/-- What a copy answers: the destination, or the broken promise. -/
def answer (run : CopyRun) : Except Fault Tensor := run.result.map fun _ => run.out

variable {src dst : Tensor} {source target : Nat × Nat × Nat → Except Fault Nat}

/-- A move between positions inside their tensors is made and noted. -/
theorem turn_ok {moved : List (Nat × Nat)} {place : Nat × Nat × Nat} {i j : Nat}
    (read : source place = .ok i) (readInside : i < src.size) (written : target place = .ok j)
    (writtenInside : j < dst.size) :
    turn src source target ⟨moved, dst, .ok ()⟩ place =
      ⟨moved ++ [(i, j)], dst.setIfInBounds j (src.valueAt i), .ok ()⟩ := by
  have brought : bring src source target dst place =
      .ok ((i, j), dst.setIfInBounds j (src.valueAt i)) := by
    simp only [bring, read, written, Tensor.read_ok readInside, Tensor.put_ok writtenInside,
      ok_bind]
    rfl
  simp only [turn, brought]

/-- A loop whose every position lies inside its tensor makes all moves. The induction is on the
places still to come; a write keeps the size of the destination, so what was inside before
the loop is inside at every turn. -/
theorem turns_ok (places : List (Nat × Nat × Nat)) (moves : Nat × Nat × Nat → Nat × Nat)
    (dst : Tensor) (moved : List (Nat × Nat))
    (inside : ∀ place ∈ places, source place = .ok (moves place).1 ∧
      (moves place).1 < src.size ∧ target place = .ok (moves place).2 ∧
      (moves place).2 < dst.size) :
    places.foldl (turn src source target) ⟨moved, dst, .ok ()⟩ =
      ⟨moved ++ places.map moves, Tensor.move src (places.map moves) dst, .ok ()⟩ := by
  induction places generalizing dst moved with
  | nil => rw [List.map_nil, List.append_nil]; rfl
  | cons place rest inductionHypothesis =>
    obtain ⟨read, readInside, written, writtenInside⟩ := inside place List.mem_cons_self
    rw [List.foldl_cons, turn_ok read readInside written writtenInside, inductionHypothesis]
    · rw [List.append_assoc]
      rfl
    · intro later listed
      rw [Array.size_setIfInBounds]
      exact inside later (List.mem_cons_of_mem place listed)

end CopyRun

namespace Tensor

variable {src dst : Tensor} {srcLayout dstLayout : Layout} {channels : Nat} {s : Symmetry}

/-- What a copy asks for: one extent, two required lengths that fit in a machine word, and two
tensors that are so long. -/
structure Admits (src : Tensor) (srcLayout : Layout) (dst : Tensor) (dstLayout : Layout)
    (channels : Nat) : Prop where
  extents : srcLayout.extent = dstLayout.extent
  srcWord : srcLayout.required channels < wordLimit
  srcRoom : srcLayout.required channels ≤ src.size
  dstWord : dstLayout.required channels < wordLimit
  dstRoom : dstLayout.required channels ≤ dst.size

/-- The promises of a copy, with a guard on each step on the way to the required lengths. -/
def checkStepwise (src : Tensor) (srcLayout : Layout) (dst : Tensor) (dstLayout : Layout)
    (channels : Nat) : Except Fault Unit := do
  require (srcLayout.extent = dstLayout.extent) "symmetry copy between different board extents"
  let needed ← srcLayout.requiredStepwise channels
  require (decide (needed ≤ src.size))
    ("source tensor too small: " ++ toString src.size ++ " < " ++ toString needed)
  let needed ← dstLayout.requiredStepwise channels
  require (decide (needed ≤ dst.size))
    ("destination tensor too small: " ++ toString dst.size ++ " < " ++ toString needed)

/-- The checks before a copy, guarded step by step, are the checks. -/
theorem checkStepwise_eq (src : Tensor) (srcLayout : Layout) (dst : Tensor) (dstLayout : Layout)
    (channels : Nat) :
    checkStepwise src srcLayout dst dstLayout channels =
      checkCopy src srcLayout dst dstLayout channels := by
  simp only [checkStepwise, checkCopy, Layout.requiredStepwise_eq]

/-- The exact condition under which a copy is admitted. It says nothing about the
symmetry: any of them may be asked for. -/
theorem checkStepwise_ok_iff :
    checkStepwise src srcLayout dst dstLayout channels = .ok () ↔
      Admits src srcLayout dst dstLayout channels := by
  rw [checkStepwise_eq, checkCopy_ok_iff]
  constructor
  · rintro ⟨extents, ⟨srcWord, srcRoom⟩, dstWord, dstRoom⟩
    exact ⟨extents, srcWord, srcRoom, dstWord, dstRoom⟩
  · rintro ⟨extents, srcWord, srcRoom, dstWord, dstRoom⟩
    exact ⟨extents, ⟨srcWord, srcRoom⟩, dstWord, dstRoom⟩

end Tensor

namespace Layout

/-- The position of a place, step by step. -/
def placeStepwise (l : Layout) (place : Nat × Nat × Nat) : Except Fault Nat :=
  l.indexStepwise place.1 place.2.1 place.2.2

/-- The position of the canonical image of a place, step by step. -/
def imageStepwise (l : Layout) (s : Symmetry) (e : Extent) (place : Nat × Nat × Nat) :
    Except Fault Nat := do
  let (row, column) ← s.cellStepwise e place.2.1 place.2.2
  l.indexStepwise place.1 row column

section

variable {l : Layout} {channels : Nat} {e : Extent} {t : Tensor}

/-- A place of a window that a tensor holds is found, inside the tensor. -/
theorem placeStepwise_ok (word : l.required channels < wordLimit)
    (room : l.required channels ≤ t.size) {c y x : Nat} (live : l.Live channels c y x) :
    l.placeStepwise (c, y, x) = .ok (l.index c y x) ∧ l.index c y x < t.size := by
  have bound := l.index_lt_required live
  refine ⟨?_, Nat.lt_of_lt_of_le bound room⟩
  rw [placeStepwise, indexStepwise_eq]
  exact fitsWord_ok (Nat.lt_trans bound word)

/-- So is the image of a place. -/
theorem imageStepwise_ok (extent : l.extent = e) (word : l.required channels < wordLimit)
    (room : l.required channels ≤ t.size) (s : Symmetry) {c y x : Nat} (channel : c < channels)
    (rows : y < e.height) (columns : x < e.width) :
    l.imageStepwise s e (c, y, x) = .ok (l.index c (s.cell e y x).1 (s.cell e y x).2) ∧
      l.index c (s.cell e y x).1 (s.cell e y x).2 < t.size := by
  subst extent
  obtain ⟨imageRow, imageColumn⟩ := s.cell_inside l.extent y x rows columns
  simp only [imageStepwise, s.cellStepwise_ok l.extent rows columns, ok_bind]
  exact placeStepwise_ok word room ⟨channel, imageRow, imageColumn⟩

end

/-- The required length for the positions that a loop uses: nothing for a window without
places, which uses none, and otherwise one more than the largest of them. -/
structure Spans (l : Layout) (channels : Nat) (positions : List Nat) : Prop where
  empty : channels = 0 ∨ l.extent.width = 0 ∨ l.extent.height = 0 →
    positions = [] ∧ l.required channels = 0
  largest : ¬(channels = 0 ∨ l.extent.width = 0 ∨ l.extent.height = 0) →
    ∃ last ∈ positions, l.required channels = last + 1 ∧ ∀ i ∈ positions, i ≤ last

/-- No listed place lies beyond the required length. -/
theorem Spans.below {l : Layout} {channels : Nat} {positions : List Nat}
    (spans : l.Spans channels positions) {i : Nat} (listed : i ∈ positions) :
    i < l.required channels := by
  by_cases window : channels = 0 ∨ l.extent.width = 0 ∨ l.extent.height = 0
  · rw [(spans.empty window).1] at listed
    exact nomatch listed
  · obtain ⟨last, _, required, most⟩ := spans.largest window
    rw [required]
    exact Nat.lt_succ_of_le (most i listed)

/-- Positions below the required length, among them that of the last corner, are spanned. -/
theorem Spans.of_corner {l : Layout} {channels : Nat} {positions : List Nat}
    (below : ∀ i ∈ positions, i < l.required channels)
    (covered : ∀ {c y x}, l.Live channels c y x → l.index c y x ∈ positions) :
    l.Spans channels positions where
  empty window := by
    have nothing : l.required channels = 0 := if_pos window
    refine ⟨List.eq_nil_iff_forall_not_mem.mpr fun i listed => ?_, nothing⟩
    exact Nat.not_lt_zero i (nothing ▸ below i listed)
  largest window := by
    have needed : l.required channels =
        l.index (channels - 1) (l.extent.height - 1) (l.extent.width - 1) + 1 := if_neg window
    refine ⟨_, covered ⟨by omega, by omega, by omega⟩, needed, ?_⟩
    intro i listed
    have bound := below i listed
    rw [needed] at bound
    exact Nat.le_of_lt_succ bound

end Layout

namespace Tensor

section

variable (srcLayout dstLayout : Layout) (channels : Nat) (s : Symmetry)
  (extents : srcLayout.extent = dstLayout.extent)
include extents

/-- The moves to canonical orientation use the positions of all places on both sides. -/
theorem movesToCanonical_spanned :
    srcLayout.Spans channels ((movesToCanonical srcLayout dstLayout channels s).map (·.1)) ∧
      dstLayout.Spans channels ((movesToCanonical srcLayout dstLayout channels s).map (·.2)) := by
  constructor
  · apply Layout.Spans.of_corner
    · intro i listed
      obtain ⟨m, member, rfl⟩ := List.mem_map.mp listed
      obtain ⟨c, y, x, live, rfl⟩ := (mem_movesToCanonical m).mp member
      exact srcLayout.index_lt_required live
    · intro c y x live
      exact List.mem_map.mpr ⟨_, (mem_movesToCanonical _).mpr ⟨c, y, x, live, rfl⟩, rfl⟩
  · apply Layout.Spans.of_corner
    · intro i listed
      obtain ⟨m, member, rfl⟩ := List.mem_map.mp listed
      obtain ⟨c, y, x, live, rfl⟩ := (mem_movesToCanonical m).mp member
      exact dstLayout.index_lt_required (image_live extents live)
    · intro c y x live
      obtain ⟨m, member, here⟩ := toCanonical_covers (s := s) extents live
      exact List.mem_map.mpr ⟨m, member, here⟩

/-- Moves from canonical orientation are the moves to it, taken backwards. -/
theorem movesFromCanonical_eq_swap :
    movesFromCanonical srcLayout dstLayout channels s =
      (movesToCanonical dstLayout srcLayout channels s).map Prod.swap := by
  have places : srcLayout.places channels = dstLayout.places channels := by
    simp only [Layout.places, extents]
  simp only [movesFromCanonical, movesToCanonical, List.map_map, places, extents]
  rfl

/-- So they use the positions of all places as well. -/
theorem movesFromCanonical_spanned :
    srcLayout.Spans channels ((movesFromCanonical srcLayout dstLayout channels s).map (·.1)) ∧
      dstLayout.Spans channels
        ((movesFromCanonical srcLayout dstLayout channels s).map (·.2)) := by
  have spanned := movesToCanonical_spanned dstLayout srcLayout channels s extents.symm
  rw [movesFromCanonical_eq_swap srcLayout dstLayout channels s extents]
  simp only [List.map_map]
  exact ⟨spanned.2, spanned.1⟩

end

/-- A copy step by step: its promises first, then one turn for each place. -/
def copyStepwise (source target : Nat × Nat × Nat → Except Fault Nat) (src : Tensor)
    (srcLayout : Layout) (dst : Tensor) (dstLayout : Layout) (channels : Nat) : CopyRun :=
  match checkStepwise src srcLayout dst dstLayout channels with
  | .error broken => .idle dst (.error broken)
  | .ok () => (srcLayout.places channels).foldl (CopyRun.turn src source target) (.idle dst (.ok ()))

/-- A copy to canonical orientation, step by step. -/
def toCanonicalStepwise (src : Tensor) (srcLayout : Layout) (dst : Tensor) (dstLayout : Layout)
    (channels : Nat) (s : Symmetry) : CopyRun :=
  copyStepwise srcLayout.placeStepwise (dstLayout.imageStepwise s srcLayout.extent) src srcLayout
    dst dstLayout channels

/-- A copy from canonical orientation, step by step. -/
def fromCanonicalStepwise (src : Tensor) (srcLayout : Layout) (dst : Tensor) (dstLayout : Layout)
    (channels : Nat) (s : Symmetry) : CopyRun :=
  copyStepwise (srcLayout.imageStepwise s srcLayout.extent) dstLayout.placeStepwise src srcLayout
    dst dstLayout channels

/-- A copy that is not admitted stops before its first turn. -/
theorem copyStepwise_refused {source target : Nat × Nat × Nat → Except Fault Nat} {broken : Fault}
    (refused : checkStepwise src srcLayout dst dstLayout channels = .error broken) :
    copyStepwise source target src srcLayout dst dstLayout channels = .idle dst (.error broken) := by
  rw [copyStepwise, refused]

/-- A copy that is admitted makes its moves, none of them stopped. -/
theorem toCanonicalStepwise_admitted (admits : Admits src srcLayout dst dstLayout channels) :
    toCanonicalStepwise src srcLayout dst dstLayout channels s =
      ⟨movesToCanonical srcLayout dstLayout channels s,
        move src (movesToCanonical srcLayout dstLayout channels s) dst, .ok ()⟩ := by
  rw [toCanonicalStepwise, copyStepwise, checkStepwise_ok_iff.mpr admits]
  apply CopyRun.turns_ok
  rintro ⟨c, y, x⟩ listed
  have live := (srcLayout.mem_places channels c y x).mp listed
  obtain ⟨read, readInside⟩ := Layout.placeStepwise_ok admits.srcWord admits.srcRoom live
  obtain ⟨written, writtenInside⟩ := Layout.imageStepwise_ok admits.extents.symm admits.dstWord
    admits.dstRoom s live.1 live.2.1 live.2.2
  exact ⟨read, readInside, written, writtenInside⟩

/-- An admitted copy back runs to its end and makes the moves of the plain copy, in
their order. -/
theorem fromCanonicalStepwise_admitted (admits : Admits src srcLayout dst dstLayout channels) :
    fromCanonicalStepwise src srcLayout dst dstLayout channels s =
      ⟨movesFromCanonical srcLayout dstLayout channels s,
        move src (movesFromCanonical srcLayout dstLayout channels s) dst, .ok ()⟩ := by
  rw [fromCanonicalStepwise, copyStepwise, checkStepwise_ok_iff.mpr admits]
  apply CopyRun.turns_ok
  rintro ⟨c, y, x⟩ listed
  have live := (srcLayout.mem_places channels c y x).mp listed
  obtain ⟨read, readInside⟩ := Layout.imageStepwise_ok rfl admits.srcWord admits.srcRoom s live.1
    live.2.1 live.2.2
  have there : dstLayout.Live channels c y x :=
    ⟨live.1, admits.extents ▸ live.2.1, admits.extents ▸ live.2.2⟩
  obtain ⟨written, writtenInside⟩ := Layout.placeStepwise_ok admits.dstWord admits.dstRoom there
  exact ⟨read, readInside, written, writtenInside⟩

/-- A copy, step by step, beside the copy as it is defined and the moves that it has to make.
It ends as that copy does. If what it asks for is there, it makes all its moves, each inside
both tensors, and the last corners decide how long the tensors must be; if not, it touches
nothing. -/
structure Guarded (run : CopyRun) (copy : Except Fault Tensor) (moves : List (Nat × Nat))
    (src : Tensor) (srcLayout : Layout) (dst : Tensor) (dstLayout : Layout) (channels : Nat) :
    Prop where
  answer : run.answer = copy
  completes_iff : run.result = .ok () ↔ Admits src srcLayout dst dstLayout channels
  complete : run.result = .ok () → run.moved = moves ∧ run.out = move src moves dst
  inside : ∀ m ∈ run.moved, m.1 < src.size ∧ m.2 < dst.size
  untouched : run.result ≠ .ok () → run.moved = [] ∧ run.out = dst
  spanned : srcLayout.extent = dstLayout.extent →
    srcLayout.Spans channels (moves.map (·.1)) ∧ dstLayout.Spans channels (moves.map (·.2))

/-- A copy that makes its moves if it is admitted, and stops at once if it is not.

Proof: the checks decide which of the two ways a copy takes. Where it is admitted, the
positions of its moves are spanned by the required lengths, and both tensors have
those. -/
theorem Guarded.of_outcomes {run : CopyRun} {copy : Except Fault Tensor}
    {moves : List (Nat × Nat)}
    (copied : copy = do
      checkCopy src srcLayout dst dstLayout channels
      return move src moves dst)
    (admitted : Admits src srcLayout dst dstLayout channels →
      run = ⟨moves, move src moves dst, .ok ()⟩)
    (refused : ∀ broken, checkStepwise src srcLayout dst dstLayout channels = .error broken →
      run = .idle dst (.error broken))
    (spanned : srcLayout.extent = dstLayout.extent →
      srcLayout.Spans channels (moves.map (·.1)) ∧ dstLayout.Spans channels (moves.map (·.2))) :
    Guarded run copy moves src srcLayout dst dstLayout channels := by
  rw [← checkStepwise_eq] at copied
  cases checked : checkStepwise src srcLayout dst dstLayout channels with
  | error broken =>
    have declined : ¬Admits src srcLayout dst dstLayout channels := by
      rw [← checkStepwise_ok_iff, checked]
      exact nofun
    rw [checked, error_bind] at copied
    rw [refused broken checked, copied]
    constructor
    case answer => rfl
    case completes_iff => exact ⟨nofun, fun admits => absurd admits declined⟩
    case complete => exact nofun
    case inside => exact nofun
    case untouched => exact fun _ => ⟨rfl, rfl⟩
    case spanned => exact spanned
  | ok u =>
    have admits : Admits src srcLayout dst dstLayout channels := checkStepwise_ok_iff.mp checked
    rw [checked, ok_bind] at copied
    rw [admitted admits, copied]
    constructor
    case answer => rfl
    case completes_iff => exact ⟨fun _ => admits, fun _ => rfl⟩
    case complete => exact fun _ => ⟨rfl, rfl⟩
    case inside =>
      intro m listed
      obtain ⟨sources, targets⟩ := spanned admits.extents
      exact ⟨Nat.lt_of_lt_of_le (sources.below (List.mem_map_of_mem listed)) admits.srcRoom,
        Nat.lt_of_lt_of_le (targets.below (List.mem_map_of_mem listed)) admits.dstRoom⟩
    case untouched => exact fun stopped => absurd rfl stopped
    case spanned => exact spanned

/-- A copy never stops half-way. Whatever the layouts, the symmetry and the tensors are, in
either direction it is refused with nothing read or written, or it is completed with every
position inside its tensor and every number on the way to it in a machine word. It is completed
exactly if the extents are equal, both required lengths fit in a machine word and both tensors
are so long; and a required length is nothing for a window without places, and otherwise one
more than the largest position that the copy uses. -/
theorem copies_guarded (src : Tensor) (srcLayout : Layout) (dst : Tensor) (dstLayout : Layout)
    (channels : Nat) (s : Symmetry) :
    Guarded (toCanonicalStepwise src srcLayout dst dstLayout channels s)
        (copyToCanonical src srcLayout dst dstLayout channels s)
        (movesToCanonical srcLayout dstLayout channels s) src srcLayout dst dstLayout channels ∧
      Guarded (fromCanonicalStepwise src srcLayout dst dstLayout channels s)
        (copyFromCanonical src srcLayout dst dstLayout channels s)
        (movesFromCanonical srcLayout dstLayout channels s) src srcLayout dst dstLayout
        channels := by
  constructor
  · exact Guarded.of_outcomes rfl toCanonicalStepwise_admitted
      (fun _ refused => copyStepwise_refused refused)
      (movesToCanonical_spanned srcLayout dstLayout channels s)
  · exact Guarded.of_outcomes rfl fromCanonicalStepwise_admitted
      (fun _ refused => copyStepwise_refused refused)
      (movesFromCanonical_spanned srcLayout dstLayout channels s)

end Tensor

end BoardEval
