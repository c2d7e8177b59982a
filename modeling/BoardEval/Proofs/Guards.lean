import BoardEval.Decode
import BoardEval.Proofs.Copies
import BoardEval.Proofs.Rows

/-!
# Guarded tensors

The definitions of a copy and of a row check the promises that they state and nothing
more: a move that would leave its tensor writes nothing, and sums and products are
those of natural numbers. Here every step has a guard of its own. A sum or a product
has to fit in a machine word, a flip needs a row or column that it can flip, and every
read, write and slice has to lie inside its tensor. The only other subtractions lead to
the last corner of a window, and are made only for a window that has one.

A guarded copy is equal to the copy without guards, for all tensors, layouts and
symmetries, because the stated promises imply every guard. A guarded row is the row
wherever a tensor that fits in memory holds it.
-/

namespace BoardEval

open Number (Single)

/-- A sum of sizes that fits in a machine word. -/
def sumInWord (a b : Nat) : Except Fault Nat := fitsWord (a + b)

/-- A product of sizes that fits in a machine word. -/
def productInWord (a b : Nat) : Except Fault Nat := fitsWord (a * b)

/-- One fits into a word. -/
theorem one_lt_wordLimit : 1 < wordLimit := by decide

/-- A number below the limit is let through as it is. -/
theorem fitsWord_ok {n : Nat} (bound : n < wordLimit) : fitsWord n = .ok n :=
  (fitsWord_ok_iff n n).mpr ⟨bound, rfl⟩

/-- A sum below the limit is let through as it is. -/
theorem sumInWord_ok {a b : Nat} (bound : a + b < wordLimit) : sumInWord a b = .ok (a + b) :=
  fitsWord_ok bound

/-- A product below the limit is let through as it is. -/
theorem productInWord_ok {a b : Nat} (bound : a * b < wordLimit) :
    productInWord a b = .ok (a * b) :=
  fitsWord_ok bound

namespace Layout

/-- The position of a place. Each product and each sum in it is at most the whole, so one
guard stands for all of them. -/
def indexGuarded (l : Layout) (place : Nat × Nat × Nat) : Except Fault Nat :=
  l.indexInWord place.1 place.2.1 place.2.2

/-- The position of the canonical image of a place. -/
def imageGuarded (l : Layout) (s : Symmetry) (e : Extent) (place : Nat × Nat × Nat) :
    Except Fault Nat := do
  let (row, column) ← s.cellChecked e place.2.1 place.2.2
  l.indexInWord place.1 row column

end Layout

/-- A cell of the board can be flipped. -/
theorem Symmetry.cellChecked_ok (s : Symmetry) (e : Extent) {y x : Nat} (row : y < e.height)
    (column : x < e.width) : s.cellChecked e y x = .ok (s.cell e y x) := by
  unfold cellChecked
  rw [if_neg]
  simp [Nat.not_le.mpr row, Nat.not_le.mpr column]

namespace Tensor

/-- The value at a position inside the tensor. -/
def read (t : Tensor) (i : Nat) : Except Fault Single :=
  if i < t.size then .ok (t.valueAt i) else .error .implicit

/-- Replace the value at a position inside the tensor. -/
def put (t : Tensor) (i : Nat) (value : Single) : Except Fault Tensor :=
  if i < t.size then .ok (t.setIfInBounds i value) else .error .implicit

/-- The values from `start` up to `stop`, which lie inside the tensor in this order. -/
def range (t : Tensor) (start stop : Nat) : Except Fault Tensor :=
  if start ≤ stop ∧ stop ≤ t.size then .ok (t.extract start stop) else .error .implicit

/-- The values before a position inside the tensor or at its end, and those from there on. -/
def cut (t : Tensor) (i : Nat) : Except Fault (Tensor × Tensor) :=
  if i ≤ t.size then .ok (t.extract 0 i, t.extract i t.size) else .error .implicit

/-- Inside a tensor a guarded read is a read. -/
theorem read_ok {t : Tensor} {i : Nat} (inside : i < t.size) : t.read i = .ok (t.valueAt i) :=
  if_pos inside

/-- Inside a tensor a guarded write is a write. -/
theorem put_ok {t : Tensor} {i : Nat} (inside : i < t.size) (value : Single) :
    t.put i value = .ok (t.setIfInBounds i value) :=
  if_pos inside

/-- Inside a tensor a guarded slice is a slice. -/
theorem range_ok {t : Tensor} {start stop : Nat} (ordered : start ≤ stop)
    (inside : stop ≤ t.size) : t.range start stop = .ok (t.extract start stop) :=
  if_pos ⟨ordered, inside⟩

/-- A tensor can be cut anywhere inside it, also at its very end. -/
theorem cut_ok {t : Tensor} {i : Nat} (inside : i ≤ t.size) :
    t.cut i = .ok (t.extract 0 i, t.extract i t.size) :=
  if_pos inside

/-- A loop of guarded writes makes the writes if no guard stops one of them. Writes keep
the size of a tensor, so every guard is about the size at the start. -/
theorem foldlM_put {α : Type} (steps : List α) (step : Tensor → α → Except Fault Tensor)
    (named : α → Nat × Single) (t : Tensor)
    (each : ∀ a ∈ steps, ∀ out : Tensor, out.size = t.size →
      step out a = .ok (out.setIfInBounds (named a).1 (named a).2)) :
    steps.foldlM step t = .ok (t.write (steps.map named)) := by
  induction steps generalizing t with
  | nil => rfl
  | cons first rest inductionHypothesis =>
    rw [List.foldlM_cons, each first List.mem_cons_self t rfl, ok_bind]
    apply inductionHypothesis
    intro a later out size
    rw [Array.size_setIfInBounds] at size
    exact each a (List.mem_cons_of_mem _ later) out size

/-- Bring the value at one position of each place to another position, every step
guarded. -/
def moveGuarded (src : Tensor) (places : List (Nat × Nat × Nat))
    (source target : Nat × Nat × Nat → Except Fault Nat) (dst : Tensor) : Except Fault Tensor :=
  places.foldlM (fun out place => do
    let value ← src.read (← source place)
    out.put (← target place) value) dst

/-- Moves between positions inside their tensors need no guard. -/
theorem moveGuarded_ok (src dst : Tensor) (places : List (Nat × Nat × Nat))
    (source target : Nat × Nat × Nat → Except Fault Nat) (moves : Nat × Nat × Nat → Nat × Nat)
    (inside : ∀ place ∈ places, source place = .ok (moves place).1 ∧
      (moves place).1 < src.size ∧ target place = .ok (moves place).2 ∧
      (moves place).2 < dst.size) :
    moveGuarded src places source target dst = .ok (move src (places.map moves) dst) := by
  unfold moveGuarded move
  rw [List.map_map]
  apply foldlM_put
  intro place listed out size
  obtain ⟨sourceOk, sourceInside, targetOk, targetInside⟩ := inside place listed
  simp only [sourceOk, targetOk, ok_bind, read_ok sourceInside]
  exact put_ok (size ▸ targetInside) _

/-- A copy to canonical orientation, every step guarded. -/
def copyToCanonicalGuarded (src : Tensor) (srcLayout : Layout) (dst : Tensor)
    (dstLayout : Layout) (channels : Nat) (s : Symmetry) : Except Fault Tensor := do
  checkCopy src srcLayout dst dstLayout channels
  moveGuarded src (srcLayout.places channels) srcLayout.indexGuarded
    (dstLayout.imageGuarded s srcLayout.extent) dst

/-- A copy from canonical orientation, every step guarded. -/
def copyFromCanonicalGuarded (src : Tensor) (srcLayout : Layout) (dst : Tensor)
    (dstLayout : Layout) (channels : Nat) (s : Symmetry) : Except Fault Tensor := do
  checkCopy src srcLayout dst dstLayout channels
  moveGuarded src (srcLayout.places channels) (srcLayout.imageGuarded s srcLayout.extent)
    dstLayout.indexGuarded dst

section

variable {l : Layout} {t : Tensor} {channels : Nat} {e : Extent} (extent : l.extent = e)
  (word : l.required channels < wordLimit) (room : l.required channels ≤ t.size)
include extent word room

/-- A place of a window that a tensor holds has its position inside the tensor. -/
theorem indexGuarded_ok {c y x : Nat} (channel : c < channels) (row : y < e.height)
    (column : x < e.width) :
    l.indexGuarded (c, y, x) = .ok (l.index c y x) ∧ l.index c y x < t.size := by
  subst extent
  have bound := l.index_lt_required ⟨channel, row, column⟩
  exact ⟨fitsWord_ok (Nat.lt_trans bound word), Nat.lt_of_lt_of_le bound room⟩

/-- The same of its canonical image: a symmetry does not leave the board. -/
theorem imageGuarded_ok (s : Symmetry) {c y x : Nat} (channel : c < channels)
    (row : y < e.height) (column : x < e.width) :
    l.imageGuarded s e (c, y, x) = .ok (l.index c (s.cell e y x).1 (s.cell e y x).2) ∧
      l.index c (s.cell e y x).1 (s.cell e y x).2 < t.size := by
  obtain ⟨imageRow, imageColumn⟩ := s.cell_inside e y x row column
  simp only [Layout.imageGuarded, s.cellChecked_ok e row column, ok_bind]
  exact indexGuarded_ok extent word room channel imageRow imageColumn

end

/-- The promises of a copy to canonical orientation imply all its guards. -/
theorem copyToCanonicalGuarded_eq (src : Tensor) (srcLayout : Layout) (dst : Tensor)
    (dstLayout : Layout) (channels : Nat) (s : Symmetry) :
    copyToCanonicalGuarded src srcLayout dst dstLayout channels s =
      copyToCanonical src srcLayout dst dstLayout channels s := by
  unfold copyToCanonicalGuarded copyToCanonical
  cases checked : checkCopy src srcLayout dst dstLayout channels with
  | error broken => rfl
  | ok u =>
    obtain ⟨extents, ⟨srcWord, srcRoom⟩, dstWord, dstRoom⟩ := (checkCopy_ok_iff u).mp checked
    apply moveGuarded_ok
    rintro ⟨c, y, x⟩ listed
    obtain ⟨channel, row, column⟩ := (srcLayout.mem_places channels c y x).mp listed
    obtain ⟨source, sourceInside⟩ := indexGuarded_ok rfl srcWord srcRoom channel row column
    obtain ⟨image, imageInside⟩ :=
      imageGuarded_ok extents.symm dstWord dstRoom s channel row column
    exact ⟨source, sourceInside, image, imageInside⟩

/-- The promises of a copy from canonical orientation imply all its guards. -/
theorem copyFromCanonicalGuarded_eq (src : Tensor) (srcLayout : Layout) (dst : Tensor)
    (dstLayout : Layout) (channels : Nat) (s : Symmetry) :
    copyFromCanonicalGuarded src srcLayout dst dstLayout channels s =
      copyFromCanonical src srcLayout dst dstLayout channels s := by
  unfold copyFromCanonicalGuarded copyFromCanonical
  cases checked : checkCopy src srcLayout dst dstLayout channels with
  | error broken => rfl
  | ok u =>
    obtain ⟨extents, ⟨srcWord, srcRoom⟩, dstWord, dstRoom⟩ := (checkCopy_ok_iff u).mp checked
    apply moveGuarded_ok
    rintro ⟨c, y, x⟩ listed
    obtain ⟨channel, row, column⟩ := (srcLayout.mem_places channels c y x).mp listed
    obtain ⟨image, imageInside⟩ := imageGuarded_ok rfl srcWord srcRoom s channel row column
    obtain ⟨target, targetInside⟩ :=
      indexGuarded_ok extents.symm dstWord dstRoom channel row column
    exact ⟨image, imageInside, target, targetInside⟩

end Tensor

namespace Rows

/-- Row `r`, every step guarded. -/
def rowGuarded (t : Rows) (r : Nat) : Except Fault Tensor := do
  let start ← productInWord r t.width
  let stop ← productInWord (← sumInWord r 1) t.width
  t.data.range start stop

/-- The rows below `n` as one flat tensor, every step guarded. -/
def firstRowsGuarded (t : Rows) (n : Nat) : Except Fault Tensor := do
  t.data.range 0 (← productInWord n t.width)

variable {t : Rows} {count width : Nat}

/-- A row that a tensor in memory holds needs no guard. -/
theorem rowGuarded_ok (held : t.Holds count width) (word : count < wordLimit)
    (memory : count * width < wordLimit) {r : Nat} (bound : r < count) :
    t.rowGuarded r = .ok (t.slice r) := by
  have last := Tensor.row_bound width bound
  have first : r * width ≤ (r + 1) * width := Nat.mul_le_mul_right width (Nat.le_succ r)
  have start : productInWord r t.width = .ok (r * t.width) :=
    productInWord_ok (by rw [held.width]; omega)
  have stop : productInWord (r + 1) t.width = .ok ((r + 1) * t.width) :=
    productInWord_ok (by rw [held.width]; omega)
  have next : sumInWord r 1 = .ok (r + 1) := sumInWord_ok (by omega)
  simp only [rowGuarded, start, next, stop, ok_bind]
  exact Tensor.range_ok (held.width ▸ first) (by rw [held.size, held.width]; exact last)

/-- As long as no more rows are asked for than there are, the guarded slice of the
first rows is the slice. -/
theorem firstRowsGuarded_ok (held : t.Holds count width) (memory : count * width < wordLimit)
    {n : Nat} (bound : n ≤ count) : t.firstRowsGuarded n = .ok (t.firstRows n) := by
  have last := Nat.mul_le_mul_right width bound
  have stop : productInWord n t.width = .ok (n * t.width) :=
    productInWord_ok (by rw [held.width]; omega)
  simp only [firstRowsGuarded, stop, ok_bind]
  exact Tensor.range_ok (Nat.zero_le _) (by rw [held.size, held.width]; exact last)

end Rows

end BoardEval
