import Mathlib.Algebra.BigOperators.Group.List.Basic
import Mathlib.Algebra.GroupWithZero.Nat

/-!
# Daily 2048

The board and its moves.  A board has four rows of four cells, and a move that
changes it leaves an empty cell for the tile that follows.
-/

namespace BobbyBotique.Daily

/-- Four rows of four cells; a zero is an empty cell. -/
abbrev Board := List (List Nat)

/-- A board of a client; nothing stands for a value that is no number. -/
abbrev RawBoard := List (List (Option Int))

def boardSize : Nat := 4

namespace Board

def cell (board : Board) (x y : Nat) : Nat := ((board[y]?).getD [])[x]?.getD 0

/-- The board with the given cells. -/
def grid (cells : Nat → Nat → Nat) : Board :=
  (List.range boardSize).map fun y => (List.range boardSize).map fun x => cells x y

/-- `normalize_board` of a stored board, which `_clone_board` copies. -/
def normalize (board : Board) : Board := grid board.cell

def transpose (board : Board) : Board := grid fun x y => board.cell y x

/-- `normalize_board` of what a client sent. -/
def ofRaw (raw : RawBoard) : Board :=
  grid fun x y => ((((raw[y]?).getD [])[x]?.getD none).getD 0).toNat

/-- Four rows of four cells. -/
def Square (board : Board) : Prop :=
  board.length = boardSize ∧ ∀ row ∈ board, row.length = boardSize

theorem square_grid (cells : Nat → Nat → Nat) : Square (grid cells) := by
  constructor
  · simp [grid]
  · intro row member
    obtain ⟨y, _, rfl⟩ := List.mem_map.mp member
    simp

@[simp] theorem cell_grid (cells : Nat → Nat → Nat) {x y : Nat} (hx : x < boardSize)
    (hy : y < boardSize) : (grid cells).cell x y = cells x y := by
  simp [cell, grid, hx, hy]

theorem grid_congr {first second : Nat → Nat → Nat}
    (same : ∀ x y, x < boardSize → y < boardSize → first x y = second x y) :
    grid first = grid second := by
  refine List.map_congr_left fun y hy => List.map_congr_left fun x hx => ?_
  exact same x y (List.mem_range.mp hx) (List.mem_range.mp hy)

theorem normalize_of_square {board : Board} (square : board.Square) : board.normalize = board := by
  obtain ⟨height, width⟩ := square
  apply List.ext_getElem
  · simp [normalize, grid, height]
  · intro y _ hy
    have row := width board[y] (List.getElem_mem hy)
    simp only [normalize, grid, List.getElem_map, List.getElem_range]
    apply List.ext_getElem
    · simp [row]
    · intro x _ hx
      simp [cell, List.getElem?_eq_getElem hy, List.getElem?_eq_getElem hx]

theorem transpose_transpose {board : Board} (square : board.Square) :
    board.transpose.transpose = board := by
  have same : board.transpose.transpose = board.normalize :=
    grid_congr fun x y hx hy => by simp [transpose, hx, hy]
  rw [same, normalize_of_square square]

/-- `_available_cells`. -/
def availableCells (board : Board) : List (Nat × Nat) :=
  (List.range boardSize).flatMap fun y =>
    ((List.range boardSize).filter fun x => board.cell x y == 0).map fun x => (x, y)

theorem mem_availableCells {board : Board} {x y : Nat} (hx : x < boardSize) (hy : y < boardSize)
    (empty : board.cell x y = 0) : (x, y) ∈ board.availableCells := by
  simp [availableCells, hx, hy, empty]

end Board

/-! ## Moves -/

inductive Direction where
  | left
  | right
  | up
  | down
  deriving DecidableEq, Repr

def Direction.vertical : Direction → Bool
  | .up | .down => true
  | _ => false

def Direction.reversed : Direction → Bool
  | .right | .down => true
  | _ => false

/-- The loop of `_merge_line` over the tiles of a line, and its score. -/
def mergeTiles : List Nat → List Nat × Nat
  | first :: second :: rest =>
    if first = second then
      let (merged, score) := mergeTiles rest
      (first * 2 :: merged, first * 2 + score)
    else
      let (merged, score) := mergeTiles (second :: rest)
      (first :: merged, score)
  | tiles => (tiles, 0)

def mergeLine (values : List Nat) : List Nat × Nat :=
  let (merged, score) := mergeTiles (values.filter fun value => 0 < value)
  ((merged ++ List.replicate (boardSize - merged.length) 0).take boardSize, score)

theorem mergeTiles_short {tiles : List Nat}
    (short : ∀ first second rest, tiles = first :: second :: rest → False) :
    mergeTiles tiles = (tiles, 0) := by
  rw [mergeTiles]
  exact short

theorem mergeTiles_length (tiles : List Nat) : (mergeTiles tiles).1.length ≤ tiles.length := by
  induction tiles using mergeTiles.induct with
  | case1 tile rest merged score merge ih =>
    rw [mergeTiles, if_pos rfl]
    simp only [List.length_cons]
    omega
  | case2 first second rest ne merged score merge ih =>
    rw [mergeTiles, if_neg ne]
    simp only [List.length_cons] at ih ⊢
    omega
  | case3 tiles short => exact Nat.le_of_eq (by rw [mergeTiles_short short])

/-- A line of tiles that keeps its length has not merged. -/
theorem mergeTiles_eq (tiles : List Nat) (kept : (mergeTiles tiles).1.length = tiles.length) :
    (mergeTiles tiles).1 = tiles := by
  induction tiles using mergeTiles.induct with
  | case1 tile rest merged score merge ih =>
    have shorter := mergeTiles_length rest
    rw [mergeTiles, if_pos rfl] at kept
    simp only [List.length_cons] at kept
    omega
  | case2 first second rest ne merged score merge ih =>
    rw [mergeTiles, if_neg ne] at kept ⊢
    simp only [List.length_cons, Nat.add_right_cancel_iff] at kept ih ⊢
    rw [ih kept]
  | case3 tiles short => rw [mergeTiles_short short]

theorem mergeLine_length (values : List Nat) : (mergeLine values).1.length = boardSize := by
  simp only [mergeLine, List.length_take, List.length_append, List.length_replicate]
  omega

/-- A line without an empty cell after its merge is the line before it. -/
theorem mergeLine_eq {values : List Nat} (short : values.length = boardSize)
    (full : 0 ∉ (mergeLine values).1) : (mergeLine values).1 = values := by
  have merged := mergeTiles_length (values.filter fun value => 0 < value)
  have tiles := List.length_filter_le (fun value => decide (0 < value)) values
  have whole : (mergeLine values).1 =
      (mergeTiles (values.filter fun value => 0 < value)).1 ++
        List.replicate (boardSize - (mergeTiles (values.filter fun value => 0 < value)).1.length)
          0 := by
    simp only [mergeLine]
    apply List.take_of_length_le
    simp only [List.length_append, List.length_replicate]
    omega
  have none : boardSize - (mergeTiles (values.filter fun value => 0 < value)).1.length = 0 := by
    by_contra some
    refine full ?_
    rw [whole]
    exact List.mem_append_right _ (List.mem_replicate.mpr ⟨some, rfl⟩)
  have kept : (values.filter fun value => 0 < value) = values := by
    apply List.filter_eq_self.mpr
    apply List.length_filter_eq_length_iff.mp
    omega
  rw [whole, none, List.replicate_zero, List.append_nil, mergeTiles_eq _ (by omega), kept]

structure MoveOutcome where
  board : Board
  moved : Bool
  gainedScore : Nat

/-- One row of `apply_move`. -/
def moveRow (direction : Direction) (row : List Nat) : List Nat × Nat :=
  let (merged, gained) := mergeLine (if direction.reversed then row.reverse else row)
  (if direction.reversed then merged.reverse else merged, gained)

def applyMove (board : Board) (direction : Direction) : MoveOutcome :=
  let source := board.normalize
  let working := if direction.vertical then source.transpose else source
  let rows := working.map (moveRow direction)
  let moved := rows.map Prod.fst
  let result := if direction.vertical then Board.transpose moved else moved
  ⟨result, result != source, (rows.map Prod.snd).sum⟩

theorem moveRow_length (direction : Direction) (row : List Nat) :
    (moveRow direction row).1.length = boardSize := by
  unfold moveRow
  cases direction.reversed with
  | false => exact mergeLine_length row
  | true =>
    simp only [if_true, List.length_reverse]
    exact mergeLine_length row.reverse

theorem moveRow_eq {direction : Direction} {row : List Nat} (short : row.length = boardSize)
    (full : 0 ∉ (moveRow direction row).1) : (moveRow direction row).1 = row := by
  unfold moveRow at full ⊢
  cases reversed : direction.reversed with
  | false =>
    simp only [reversed, Bool.false_eq_true, if_false] at full ⊢
    exact mergeLine_eq short full
  | true =>
    simp only [reversed, if_true, List.mem_reverse] at full ⊢
    rw [mergeLine_eq (by rw [List.length_reverse, short]) full, List.reverse_reverse]

/-- Rows without an empty cell after the move are the rows before it. -/
theorem moveRows_eq {direction : Direction} {board : Board} (square : board.Square)
    (full : ∀ row ∈ board.map fun row => (moveRow direction row).1, 0 ∉ row) :
    (board.map fun row => (moveRow direction row).1) = board := by
  have same : ∀ row ∈ board, (moveRow direction row).1 = row := by
    intro row member
    exact moveRow_eq (square.2 row member) (full _ (List.mem_map_of_mem member))
  exact (List.map_congr_left same).trans (List.map_id board)

/-- An empty cell of a square board is available. -/
theorem available_of_zero {board : Board} (square : board.Square) {row : List Nat}
    (member : row ∈ board) (empty : 0 ∈ row) :
    ∃ x y, x < boardSize ∧ y < boardSize ∧ board.cell x y = 0 := by
  obtain ⟨y, hy, rfl⟩ := List.getElem_of_mem member
  obtain ⟨x, hx, zero⟩ := List.getElem_of_mem empty
  refine ⟨x, y, (square.2 _ member) ▸ hx, square.1 ▸ hy, ?_⟩
  simp [Board.cell, List.getElem?_eq_getElem hy, List.getElem?_eq_getElem hx, zero]

/-- A move that changes the board leaves a cell for the next tile. -/
theorem applyMove_room {board : Board} {direction : Direction}
    (moved : (applyMove board direction).moved = true) :
    (applyMove board direction).board.availableCells ≠ [] := by
  have source : board.normalize.Square := Board.square_grid _
  have rows : ∀ working : Board, working.Square →
      Board.Square ((working.map (moveRow direction)).map Prod.fst) := by
    intro working square
    constructor
    · simpa using square.1
    · intro row member
      rw [List.map_map] at member
      obtain ⟨before, inside, rfl⟩ := List.mem_map.mp member
      exact moveRow_length direction before
  have empty : ∃ x y, x < boardSize ∧ y < boardSize ∧
      (applyMove board direction).board.cell x y = 0 := by
    by_contra full
    simp only [applyMove] at moved full
    cases vertical : direction.vertical with
    | false =>
      simp only [vertical, Bool.false_eq_true, if_false, bne_iff_ne] at moved full
      refine moved ?_
      rw [List.map_map]
      refine moveRows_eq source fun row member zero => full ?_
      exact available_of_zero (rows _ source) (List.map_map ▸ member) zero
    | true =>
      simp only [vertical, if_true, bne_iff_ne] at moved full
      have square : board.normalize.transpose.Square := Board.square_grid _
      refine moved ?_
      have same : (board.normalize.transpose.map (moveRow direction)).map Prod.fst =
          board.normalize.transpose := by
        rw [List.map_map]
        refine moveRows_eq square fun row member zero => full ?_
        obtain ⟨x, y, hx, hy, empty⟩ :=
          available_of_zero (rows _ square) (List.map_map ▸ member) zero
        exact ⟨y, x, hy, hx, by rw [Board.transpose, Board.cell_grid _ hy hx, empty]⟩
      rw [same, Board.transpose_transpose source]
  obtain ⟨x, y, hx, hy, zero⟩ := empty
  exact List.ne_nil_of_mem (Board.mem_availableCells hx hy zero)

end BobbyBotique.Daily
