import BoardEval.Position
import BoardEval.Proofs.Contract
import BoardEval.Proofs.Turns

/-!
# Positions that are well-formed

`Fits` says what a position has to be for a network and a board: the board is the handle's,
square and playable, and the features are exactly as many planes of rows of values, and as
many globals, as the network takes. `PositionFlaw.Of` says of each complaint what it claims
about a position.

The checks before a batch accept the positions that fit and no others, however the lists are
nested, and every complaint is true of its position. What they accept is a batch that keeps
its contract. So the engine is called exactly for a position that fits, once; a position that
does not fit leaves the pool alone; and no step of the evaluation, each with a guard of its
own, ever breaks a promise unless the engine itself does.
-/

namespace BoardEval

open Number (Single)

/-! ## What a position has to be -/

/-- A position for a network on a board. -/
structure Position.Fits (p : Position) (d : Descriptor) (board : Extent) : Prop where
  board : p.extent = board
  square : p.width = p.height
  least : 2 ≤ p.height
  most : p.height ≤ 19
  planes : p.spatial.length = d.spatial
  rows : ∀ plane ∈ p.spatial, plane.length = p.height
  values : ∀ plane ∈ p.spatial, ∀ row ∈ plane, row.size = p.width
  globals : p.globals.size = d.globals

/-- Whether a position fits is decided by going through its rows. -/
instance (p : Position) (d : Descriptor) (board : Extent) : Decidable (p.Fits d board) :=
  decidable_of_iff
    ((p.extent = board ∧ p.width = p.height ∧ 2 ≤ p.height ∧ p.height ≤ 19) ∧
      p.spatial.length = d.spatial ∧ (∀ plane ∈ p.spatial, plane.length = p.height) ∧
        (∀ plane ∈ p.spatial, ∀ row ∈ plane, row.size = p.width) ∧ p.globals.size = d.globals)
    ⟨fun ⟨⟨board, square, least, most⟩, planes, rows, values, globals⟩ =>
        ⟨board, square, least, most, planes, rows, values, globals⟩,
      fun fits => ⟨⟨fits.board, fits.square, fits.least, fits.most⟩, fits.planes, fits.rows,
        fits.values, fits.globals⟩⟩

/-- What a complaint claims about a position. -/
def PositionFlaw.Of (p : Position) (d : Descriptor) (board : Extent) : PositionFlaw → Prop
  | .boardSize e => e = p.extent ∧ e.isPlayable = false
  | .notSquare e => e = p.extent ∧ e.width ≠ e.height
  | .spatialChannels found expected =>
    found = p.spatial.length ∧ expected = d.spatial ∧ found ≠ expected
  | .globalChannels found expected =>
    found = p.globals.size ∧ expected = d.globals ∧ found ≠ expected
  | .planeRows channel found expected => ∃ plane, p.spatial[channel]? = some plane ∧
    found = plane.length ∧ expected = p.height ∧ found ≠ expected
  | .rowLength channel y found expected => ∃ plane row, p.spatial[channel]? = some plane ∧
    plane[y]? = some row ∧ found = row.size ∧ expected = p.width ∧ found ≠ expected
  | .boardDiffers position handle => position = p.extent ∧ handle = board ∧ position ≠ handle

/-- The range of playable boards in numbers. -/
theorem Extent.isPlayable_iff (e : Extent) :
    e.isPlayable = true ↔ (2 ≤ e.width ∧ e.width ≤ 19) ∧ 2 ≤ e.height ∧ e.height ≤ 19 := by
  simp only [isPlayable, sideAllowed, Bool.and_eq_true, decide_eq_true_eq]
  rfl

namespace Position

variable {p : Position} {d : Descriptor} {board : Extent}

/-- A position that fits is about a playable board. -/
theorem Fits.playable (fits : p.Fits d board) : p.extent.isPlayable = true := by
  rw [Extent.isPlayable_iff]
  have square := fits.square
  have least := fits.least
  have most := fits.most
  simp only [extent]
  omega

/-- A complaint that is true rules out that the position fits. -/
theorem Fits.flawless (fits : p.Fits d board) (flaw : PositionFlaw) : ¬flaw.Of p d board := by
  cases flaw with
  | boardSize e =>
    rintro ⟨rfl, outside⟩
    exact Bool.noConfusion (outside.symm.trans fits.playable)
  | notSquare e =>
    rintro ⟨rfl, differs⟩
    exact differs fits.square
  | spatialChannels found expected =>
    rintro ⟨rfl, rfl, differs⟩
    exact differs fits.planes
  | globalChannels found expected =>
    rintro ⟨rfl, rfl, differs⟩
    exact differs fits.globals
  | planeRows channel found expected =>
    rintro ⟨plane, listed, rfl, rfl, differs⟩
    exact differs (fits.rows plane (List.mem_of_getElem? listed))
  | rowLength channel y found expected =>
    rintro ⟨plane, row, listed, inside, rfl, rfl, differs⟩
    exact differs (fits.values plane (List.mem_of_getElem? listed) row
      (List.mem_of_getElem? inside))
  | boardDiffers position handle =>
    rintro ⟨rfl, rfl, differs⟩
    exact differs fits.board

/-! ## The checks -/

section

variable (e : Extent)

/-- The rows of a plane pass, or the first of another width is reported. The induction is
on the rows. -/
theorem checkRows_cases (channel y : Nat) (rows : List Tensor) :
    (checkRows e channel y rows = .ok () ∧ ∀ row ∈ rows, row.size = e.width) ∨
      ∃ i row, rows[i]? = some row ∧ row.size ≠ e.width ∧ checkRows e channel y rows =
        .error (.position (.rowLength channel (y + i) row.size e.width)) := by
  induction rows generalizing y with
  | nil => exact .inl ⟨rfl, nofun⟩
  | cons row rest inductionHypothesis =>
    by_cases wide : row.size = e.width
    · simp only [checkRows, wide, ne_eq, not_true_eq_false, if_false]
      rcases inductionHypothesis (y + 1) with ⟨passed, widths⟩ | ⟨i, other, listed, differs, told⟩
      · exact .inl ⟨passed, List.forall_mem_cons.mpr ⟨wide, widths⟩⟩
      · refine .inr ⟨i + 1, other, listed, differs, ?_⟩
        rw [told, Nat.add_right_comm, Nat.add_assoc]
    · right
      exact ⟨0, row, rfl, wide, if_pos wide⟩

/-- The planes pass, or the first with another number of rows or with a row of another width
is reported. The induction is on the planes. -/
theorem checkPlanes_cases (c : Nat) (planes : List (List Tensor)) :
    (checkPlanes e c planes = .ok () ∧
      ∀ plane ∈ planes, plane.length = e.height ∧ ∀ row ∈ plane, row.size = e.width) ∨
      ∃ i plane, planes[i]? = some plane ∧
        (plane.length ≠ e.height ∧ checkPlanes e c planes =
            .error (.position (.planeRows (c + i) plane.length e.height)) ∨
          ∃ y row, plane[y]? = some row ∧ row.size ≠ e.width ∧ checkPlanes e c planes =
            .error (.position (.rowLength (c + i) y row.size e.width))) := by
  induction planes generalizing c with
  | nil => exact .inl ⟨rfl, nofun⟩
  | cons plane rest inductionHypothesis =>
    by_cases high : plane.length = e.height
    · simp only [checkPlanes, high, ne_eq, not_true_eq_false, if_false]
      rcases checkRows_cases e c 0 plane with ⟨passed, widths⟩ | ⟨y, row, listed, differs, told⟩
      · simp only [passed, ok_bind]
        rcases inductionHypothesis (c + 1) with ⟨later, all⟩ | ⟨i, other, listed, flawed⟩
        · exact .inl ⟨later, List.forall_mem_cons.mpr ⟨⟨high, widths⟩, all⟩⟩
        · rw [Nat.add_right_comm, Nat.add_assoc] at flawed
          exact .inr ⟨i + 1, other, listed, flawed⟩
      · simp only [told, error_bind, Nat.zero_add]
        exact .inr ⟨0, plane, rfl, .inr ⟨y, row, listed, differs, rfl⟩⟩
    · exact .inr ⟨0, plane, rfl, .inl ⟨high, if_pos high⟩⟩

end

/-- Lists of one length side by side. -/
theorem length_flatMap_const {α β : Type} (l : List α) (f : α → List β) {length : Nat}
    (each : ∀ a ∈ l, (f a).length = length) : (l.flatMap f).length = l.length * length := by
  induction l with
  | nil => exact (Nat.zero_mul length).symm
  | cons first rest inductionHypothesis =>
    rw [List.forall_mem_cons] at each
    rw [List.flatMap_cons, List.length_append, each.1, inductionHypothesis each.2,
      List.length_cons, Nat.add_mul, Nat.one_mul, Nat.add_comm]

/-- The features of a position that fits are one value per channel and cell. -/
theorem Fits.size_flat (fits : p.Fits d board) : p.flat.size = d.spatial * board.cells := by
  rw [flat, List.size_toArray, ← fits.planes, ← fits.board]
  apply length_flatMap_const
  intro plane listed
  rw [length_flatMap_const plane _ (fits.values plane listed), fits.rows plane listed,
    Nat.mul_comm]
  rfl

/-! ## The request -/

/-- There are as many planes and globals as a network takes. -/
def checkCounts (p : Position) (d : Descriptor) : Except ReportError Unit :=
  if p.spatial.length ≠ d.spatial then
    .error (.position (.spatialChannels p.spatial.length d.spatial))
  else if p.globals.size ≠ d.globals then
    .error (.position (.globalChannels p.globals.size d.globals))
  else .ok ()

/-- The features in the channel order of a network. -/
def features (p : Position) (d : Descriptor) (channelLast : Bool) : Except Fault Tensor :=
  if channelLast then
    Tensor.copyToCanonical p.flat (.channelFirst p.extent) (Tensor.zeros p.flat.size)
      (.channelLast p.extent d.spatial) d.spatial .identity
  else .ok p.flat

/-- The request that asks for features and ownership on the board of a position. -/
def asking (p : Position) (spatial : Tensor) : Request :=
  { Request.plain spatial p.globals p.extent with wantsOwnership := true }

/-- Everything that is checked before a request is made. -/
def check (p : Position) (d : Descriptor) : Except ReportError Unit := do
  p.checkBoard
  p.checkCounts d
  checkPlanes p.extent 0 p.spatial

/-- A request is made by the checks and a copy. -/
theorem toRequest_eq (p : Position) (d : Descriptor) (channelLast : Bool) :
    p.toRequest d channelLast = (do
      p.check d
      let spatial ← p.features d channelLast
      return p.asking spatial) := by
  unfold toRequest check checkCounts features
  cases p.checkBoard with
  | error cause => rfl
  | ok u =>
    by_cases planes : p.spatial.length = d.spatial
    · by_cases globals : p.globals.size = d.globals
      · simp only [planes, globals, ne_eq, not_true_eq_false, if_false, lift_ok, ok_bind]
        cases checkPlanes p.extent 0 p.spatial <;> cases channelLast <;> rfl
      · simp only [planes, globals, ne_eq, not_true_eq_false, not_false_eq_true, if_false, if_true]
        rfl
    · simp only [planes, ne_eq, not_false_eq_true, if_true]
      rfl

/-- The features in the channel order of a network, every step guarded: the strides of both
layouts fit in a machine word. -/
def featuresGuarded (p : Position) (d : Descriptor) (channelLast : Bool) :
    Except Fault Tensor :=
  if channelLast then do
    let source ← (Layout.channelFirst p.extent).inWord
    let target ← (Layout.channelLast p.extent d.spatial).inWord
    Tensor.copyToCanonicalGuarded p.flat source (Tensor.zeros p.flat.size) target d.spatial
      .identity
  else .ok p.flat

/-- The request for a network, every step guarded. Room for the features is made before the
planes are looked at. -/
def toRequestGuarded (p : Position) (d : Descriptor) (channelLast : Bool) :
    Except (Failure ReportError) Request := do
  p.checkBoard
  p.checkCounts d
  let values ← productInWord d.spatial (← p.extent.cellsInWord)
  requireImplicit (decide (4 * values ≤ allocationLimit))
  checkPlanes p.extent 0 p.spatial
  let spatial ← p.featuresGuarded d channelLast
  return p.asking spatial

/-- The board is in order, or a true complaint about it is reported. -/
theorem checkBoard_cases (p : Position) (d : Descriptor) (board : Extent) :
    (p.checkBoard = .ok () ∧ p.extent.isPlayable = true ∧ p.width = p.height) ∨
      ∃ flaw, PositionFlaw.Of p d board flaw ∧ p.checkBoard = .error (.position flaw) := by
  unfold checkBoard
  cases playable : p.extent.isPlayable with
  | false => exact .inr ⟨.boardSize p.extent, ⟨rfl, playable⟩, rfl⟩
  | true =>
    cases square : p.extent.isSquare with
    | false => exact .inr ⟨.notSquare p.extent, ⟨rfl, beq_eq_false_iff_ne.mp square⟩, rfl⟩
    | true => exact .inl ⟨rfl, rfl, eq_of_beq square⟩

/-- The counts are right, or a true complaint about one of them is reported. -/
theorem checkCounts_cases (p : Position) (d : Descriptor) (board : Extent) :
    (p.checkCounts d = .ok () ∧ p.spatial.length = d.spatial ∧ p.globals.size = d.globals) ∨
      ∃ flaw, PositionFlaw.Of p d board flaw ∧ p.checkCounts d = .error (.position flaw) := by
  unfold checkCounts
  by_cases planes : p.spatial.length = d.spatial
  · by_cases globals : p.globals.size = d.globals
    · exact .inl ⟨by rw [if_neg (not_not_intro planes), if_neg (not_not_intro globals)], planes,
        globals⟩
    · exact .inr ⟨.globalChannels p.globals.size d.globals, ⟨rfl, rfl, globals⟩, by
        rw [if_neg (not_not_intro planes), if_pos globals]⟩
  · exact .inr ⟨.spatialChannels p.spatial.length d.spatial, ⟨rfl, rfl, planes⟩, if_pos planes⟩

/-- The planes have the shape of the board, or a true complaint about one of them is
reported. -/
theorem checkPlanes_flaw (p : Position) (d : Descriptor) (board : Extent) :
    (checkPlanes p.extent 0 p.spatial = .ok () ∧ ∀ plane ∈ p.spatial,
        plane.length = p.height ∧ ∀ row ∈ plane, row.size = p.width) ∨
      ∃ flaw, PositionFlaw.Of p d board flaw ∧
        checkPlanes p.extent 0 p.spatial = .error (.position flaw) := by
  rcases checkPlanes_cases p.extent 0 p.spatial with passed | ⟨c, plane, listed, flawed⟩
  · exact .inl passed
  · right
    rw [Nat.zero_add] at flawed
    rcases flawed with ⟨differs, told⟩ | ⟨y, row, inside, differs, told⟩
    · exact ⟨.planeRows c plane.length p.height, ⟨plane, listed, rfl, rfl, differs⟩, told⟩
    · exact ⟨.rowLength c y row.size p.width, ⟨plane, row, listed, inside, rfl, rfl, differs⟩,
        told⟩

/-- A position on its own board passes the checks and fits, or it does not fit and a true
complaint is reported. -/
theorem check_cases (p : Position) (d : Descriptor) :
    (p.check d = .ok () ∧ p.Fits d p.extent) ∨
      ∃ flaw, PositionFlaw.Of p d p.extent flaw ∧ p.check d = .error (.position flaw) := by
  unfold check
  rcases p.checkBoard_cases d p.extent with ⟨ordered, playable, square⟩ | ⟨flaw, told, refused⟩
  · rcases p.checkCounts_cases d p.extent with ⟨counted, planes, globals⟩ | ⟨flaw, told, refused⟩
    · rcases p.checkPlanes_flaw d p.extent with ⟨passed, shaped⟩ | ⟨flaw, told, refused⟩
      · left
        obtain ⟨_, least, most⟩ := p.extent.isPlayable_iff.mp playable
        refine ⟨by simp only [ordered, counted, passed, ok_bind], ?_⟩
        exact ⟨rfl, square, least, most, planes, fun plane listed => (shaped plane listed).1,
          fun plane listed => (shaped plane listed).2, globals⟩
      · exact .inr ⟨flaw, told, by simp only [ordered, counted, refused, ok_bind]⟩
    · exact .inr ⟨flaw, told, by simp only [ordered, refused, ok_bind, error_bind]⟩
  · exact .inr ⟨flaw, told, by simp only [refused, error_bind]⟩

/-- A position that fits passes the checks. -/
theorem Fits.check (fits : p.Fits d board) : p.check d = .ok () := by
  obtain rfl := fits.board
  rcases p.check_cases d with passed | ⟨flaw, told, _⟩
  · exact passed.1
  · exact absurd told (fits.flawless flaw)

/-- The request about a position: upright, with its features in the channel order of the
network and with ownership. -/
structure Asks (p : Position) (d : Descriptor) (board : Extent) (channelLast : Bool)
    (q : Request) : Prop where
  extent : q.extent = board
  size : q.spatial.size = d.spatial * board.cells
  features : Tensor.SameWindow board d.spatial q.spatial (.dense board d.spatial channelLast)
    p.flat (.channelFirst board)
  globals : q.globals = p.globals
  symmetry : q.symmetry = .identity
  optimism : q.optimism = .zero
  ownership : q.wantsOwnership = true

/-- The features of a position that fits can be brought to either channel order. -/
theorem Fits.features (fits : p.Fits d board) (word : d.spatial * board.cells < wordLimit)
    (channelLast : Bool) :
    ∃ values, p.features d channelLast = .ok values ∧ values.size = d.spatial * board.cells ∧
      Tensor.SameWindow board d.spatial values (.dense board d.spatial channelLast) p.flat
        (.channelFirst board) := by
  have size := fits.size_flat
  cases channelLast with
  | false => exact ⟨p.flat, rfl, size, fun _ _ _ _ _ _ => rfl⟩
  | true =>
    have source : p.flat.Reaches (.channelFirst board) d.spatial :=
      ⟨size ▸ word, size ▸ Layout.dense_required_le board d.spatial false⟩
    have target : (Tensor.zeros p.flat.size).Reaches (.channelLast board d.spatial) d.spatial := by
      rw [size]
      exact ⟨by rwa [Tensor.size_zeros],
        (Tensor.size_zeros _).symm ▸ Layout.dense_required_le board d.spatial true⟩
    obtain ⟨values, copied, carried⟩ :=
      Tensor.toCanonical_carried .channelFirst .channelLast source target .identity
    refine ⟨values, ?_, ?_, carried.moved⟩
    · simp only [Position.features, if_true, fits.board, copied]
    · rw [carried.size, Tensor.size_zeros, size]

/-- A position that fits becomes a request about it. -/
theorem Fits.toRequest (fits : p.Fits d board) (word : d.spatial * board.cells < wordLimit)
    (channelLast : Bool) :
    ∃ q, p.toRequest d channelLast = .ok q ∧ p.Asks d board channelLast q := by
  obtain ⟨values, copied, size, window⟩ := fits.features word channelLast
  obtain rfl := fits.board
  refine ⟨p.asking values, ?_, rfl, size, window, rfl, rfl, rfl, rfl⟩
  rw [toRequest_eq, fits.check, copied]
  rfl

/-- A position that fails the checks becomes no request, whatever the channel order is. -/
theorem toRequest_refused {cause : ReportError} (refused : p.check d = .error cause)
    (channelLast : Bool) : p.toRequest d channelLast = .error (.error cause) := by
  rw [toRequest_eq, refused]
  rfl

/-- A network of few channels and a position on a playable board need no guard. -/
theorem featuresGuarded_eq (few : d.spatial ≤ 22) (playable : p.extent.isPlayable = true)
    (channelLast : Bool) : p.featuresGuarded d channelLast = p.features d channelLast := by
  obtain ⟨⟨_, wide⟩, _, high⟩ := p.extent.isPlayable_iff.mp playable
  obtain ⟨_, _, cells⟩ := Extent.playable_cells playable
  have strides : p.extent.width * d.spatial ≤ 19 * 22 := Nat.mul_le_mul wide few
  have source : (Layout.channelFirst p.extent).inWord = .ok (.channelFirst p.extent) := by
    apply if_pos
    simp only [Layout.channelFirst, wordLimit]
    omega
  have target : (Layout.channelLast p.extent d.spatial).inWord =
      .ok (.channelLast p.extent d.spatial) := by
    apply if_pos
    simp only [Layout.channelLast, wordLimit]
    omega
  unfold featuresGuarded features
  simp only [source, target, ok_bind, Tensor.copyToCanonicalGuarded_eq]

/-- No guard fires while a position is made into a request, however ill-shaped the
position: up to 22 channels keep all lengths in a word. -/
theorem toRequestGuarded_eq (few : d.spatial ≤ 22) (channelLast : Bool) :
    p.toRequestGuarded d channelLast = p.toRequest d channelLast := by
  rw [toRequest_eq]
  unfold toRequestGuarded check
  rcases p.checkBoard_cases d p.extent with ⟨ordered, playable, _⟩ | ⟨flaw, _, refused⟩
  · obtain ⟨_, _, cells⟩ := Extent.playable_cells playable
    have all : d.spatial * p.extent.cells ≤ 22 * 361 := Nat.mul_le_mul few cells
    have count : p.extent.cellsInWord = .ok p.extent.cells :=
      fitsWord_ok (by unfold wordLimit; omega)
    have values : productInWord d.spatial p.extent.cells = .ok (d.spatial * p.extent.cells) :=
      productInWord_ok (by unfold wordLimit; omega)
    have room : requireImplicit (decide (4 * (d.spatial * p.extent.cells) ≤ allocationLimit)) =
        .ok () := by
      rw [requireImplicit_ok_iff, decide_eq_true_eq]
      unfold allocationLimit
      omega
    simp only [ordered, count, values, room, featuresGuarded_eq few playable, lift_ok,
      lift_fault_ok, ok_bind]
    cases p.checkCounts d with
    | error cause => rfl
    | ok u => cases checkPlanes p.extent 0 p.spatial <;> rfl
  · rw [refused]
    rfl

end Position

end BoardEval
