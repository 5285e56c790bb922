import BobbyBotique.Daily.Moves2048
import Mathlib.Data.List.Chain

/-!
# The law of a move

What a move of 2048 is, said of the lines that run away from the wall: their tiles
are taken in groups of one or of two that are equal, the nearest to the wall first.
The code moves the lines so, whatever way they run, and its test for a move that is
left agrees with the moves.
-/

namespace BobbyBotique.Daily

/-! ## Lines -/

/-- The groups in which the tiles of a line become the tiles behind the wall. -/
structure Slides (before : List Nat) (groups : List (List Nat)) (after : List Nat) : Prop where
  tiles : groups.flatten = before.filter fun value => 0 < value
  shape : ∀ group ∈ groups, ∃ tile, group = [tile] ∨ group = [tile, tile]
  /-- A tile that stays alone had no equal behind it. -/
  nearest : groups.IsChain fun first second => first.length = 1 → first.head? ≠ second.head?
  after : after = groups.map List.sum ++ List.replicate (boardSize - groups.length) 0

/-- The sum of the tiles that a merge made. -/
def mergedTotal (groups : List (List Nat)) : Nat :=
  ((groups.filter fun group => group.length = 2).map List.sum).sum

/-- The groups that `_merge_line` takes. -/
def groupTiles : List Nat → List (List Nat)
  | first :: second :: rest =>
    if first = second then [first, second] :: groupTiles rest
    else [first] :: groupTiles (second :: rest)
  | [tile] => [[tile]]
  | [] => []

theorem groupTiles_head (tile : Nat) (rest : List Nat) :
    ∃ group others, groupTiles (tile :: rest) = group :: others ∧ group.head? = some tile := by
  cases rest with
  | nil => exact ⟨[tile], [], rfl, rfl⟩
  | cons second others =>
    rw [groupTiles]
    split
    · exact ⟨_, _, rfl, rfl⟩
    · exact ⟨_, _, rfl, rfl⟩

theorem groupTiles_flatten (tiles : List Nat) : (groupTiles tiles).flatten = tiles := by
  induction tiles using groupTiles.induct with
  | case1 tile rest ih => rw [groupTiles, if_pos rfl, List.flatten_cons, ih]; rfl
  | case2 first second rest ne ih => rw [groupTiles, if_neg ne, List.flatten_cons, ih]; rfl
  | case3 | case4 => rfl

theorem groupTiles_shape (tiles : List Nat) :
    ∀ group ∈ groupTiles tiles, ∃ tile, group = [tile] ∨ group = [tile, tile] := by
  induction tiles using groupTiles.induct with
  | case1 tile rest ih =>
    rw [groupTiles, if_pos rfl]
    exact List.forall_mem_cons.mpr ⟨⟨tile, .inr rfl⟩, ih⟩
  | case2 first second rest ne ih =>
    rw [groupTiles, if_neg ne]
    exact List.forall_mem_cons.mpr ⟨⟨first, .inl rfl⟩, ih⟩
  | case3 tile => exact List.forall_mem_singleton.mpr ⟨tile, .inl rfl⟩
  | case4 => nofun

theorem groupTiles_nearest (tiles : List Nat) :
    (groupTiles tiles).IsChain fun first second =>
      first.length = 1 → first.head? ≠ second.head? := by
  induction tiles using groupTiles.induct with
  | case1 tile rest ih =>
    rw [groupTiles, if_pos rfl]
    exact ih.cons fun _ _ short => nomatch short
  | case2 first second rest ne ih =>
    rw [groupTiles, if_neg ne]
    obtain ⟨group, others, grouped, head⟩ := groupTiles_head second rest
    rw [grouped] at ih ⊢
    refine ih.cons fun next among _ same => ne ?_
    cases among
    rw [head] at same
    exact Option.some.inj same
  | case3 tile => exact List.isChain_singleton _
  | case4 => exact List.isChain_nil

theorem mergeTiles_groups (tiles : List Nat) :
    mergeTiles tiles = ((groupTiles tiles).map List.sum, mergedTotal (groupTiles tiles)) := by
  induction tiles using groupTiles.induct with
  | case1 tile rest ih =>
    rw [mergeTiles, if_pos rfl, groupTiles, if_pos rfl, ih]
    simp [mergedTotal, Nat.mul_two]
  | case2 first second rest ne ih =>
    rw [mergeTiles, if_neg ne, groupTiles, if_neg ne, ih]
    simp [mergedTotal]
  | case3 tile => simp [mergeTiles, groupTiles, mergedTotal]
  | case4 => rfl

/-- The tiles of a line can be grouped in one way. -/
theorem grouping_unique {first second : List (List Nat)}
    (same : first.flatten = second.flatten)
    (shaped : ∀ group ∈ first, ∃ tile, group = [tile] ∨ group = [tile, tile])
    (shaped' : ∀ group ∈ second, ∃ tile, group = [tile] ∨ group = [tile, tile])
    (near : first.IsChain fun group next => group.length = 1 → group.head? ≠ next.head?)
    (near' : second.IsChain fun group next => group.length = 1 → group.head? ≠ next.head?) :
    first = second := by
  -- A group of one with an equal tile behind it would have taken that tile.
  have clash : ∀ {tile : Nat} {rest : List (List Nat)} {tail : List Nat},
      (([tile] :: rest).IsChain fun group next => group.length = 1 → group.head? ≠ next.head?) →
      (∀ group ∈ rest, ∃ tile, group = [tile] ∨ group = [tile, tile]) →
      rest.flatten ≠ tile :: tail := by
    intro tile rest tail chain shapes flat
    cases rest with
    | nil => cases flat
    | cons group others =>
      obtain ⟨other, rfl | rfl⟩ := shapes group List.mem_cons_self
      · cases flat
        exact (List.isChain_cons_cons.mp chain).1 rfl rfl
      · cases flat
        exact (List.isChain_cons_cons.mp chain).1 rfl rfl
  induction first generalizing second with
  | nil =>
    cases second with
    | nil => rfl
    | cons group others =>
      obtain ⟨tile, rfl | rfl⟩ := shaped' group List.mem_cons_self
      · cases same
      · cases same
  | cons group others ih =>
    cases second with
    | nil =>
      obtain ⟨tile, rfl | rfl⟩ := shaped group List.mem_cons_self
      · cases same
      · cases same
    | cons group' others' =>
      have shapes := (List.forall_mem_cons.mp shaped).2
      have shapes' := (List.forall_mem_cons.mp shaped').2
      have later : others.flatten = others'.flatten → others = others' := fun flat =>
        ih flat shapes shapes' near.tail near'.tail
      obtain ⟨tile, rfl | rfl⟩ := shaped group List.mem_cons_self
      · obtain ⟨tile', rfl | rfl⟩ := shaped' group' List.mem_cons_self
        · obtain ⟨rfl, rest⟩ := List.cons.inj same
          rw [later rest]
        · obtain ⟨rfl, rest⟩ := List.cons.inj same
          exact absurd rest (clash near shapes)
      · obtain ⟨tile', rfl | rfl⟩ := shaped' group' List.mem_cons_self
        · obtain ⟨rfl, rest⟩ := List.cons.inj same
          exact absurd rest.symm (clash near' shapes')
        · obtain ⟨rfl, rest⟩ := List.cons.inj same
          rw [later (List.cons.inj rest).2]

theorem Slides.unique {before after after' : List Nat} {groups groups' : List (List Nat)}
    (slides : Slides before groups after) (slides' : Slides before groups' after') :
    groups = groups' ∧ after = after' := by
  have same := grouping_unique (slides.tiles.trans slides'.tiles.symm) slides.shape slides'.shape
    slides.nearest slides'.nearest
  exact ⟨same, by rw [slides.after, slides'.after, same]⟩

theorem groupTiles_length (tiles : List Nat) : (groupTiles tiles).length ≤ tiles.length := by
  have shorter := mergeTiles_length tiles
  rw [mergeTiles_groups] at shorter
  simpa using shorter

/-- `_merge_line` slides a line. -/
theorem mergeLine_slides {line : List Nat} (short : line.length = boardSize) :
    Slides line (groupTiles (line.filter fun value => 0 < value)) (mergeLine line).1 ∧
      (mergeLine line).2 = mergedTotal (groupTiles (line.filter fun value => 0 < value)) := by
  have fits := groupTiles_length (line.filter fun value => 0 < value)
  have tiles := List.length_filter_le (fun value => decide (0 < value)) line
  refine ⟨⟨groupTiles_flatten _, groupTiles_shape _, groupTiles_nearest _, ?_⟩, ?_⟩
  · rw [mergeLine, mergeTiles_groups]
    simp only [List.length_map]
    rw [List.take_of_length_le]
    rw [List.length_append, List.length_map, List.length_replicate]
    omega
  · rw [mergeLine, mergeTiles_groups]

theorem sum_flatten (groups : List (List Nat)) :
    (groups.map List.sum).sum = groups.flatten.sum := List.sum_flatten.symm

theorem sum_filter_pos (line : List Nat) : (line.filter fun value => 0 < value).sum = line.sum := by
  induction line with
  | nil => rfl
  | cons value rest ih =>
    by_cases tile : 0 < value
    · rw [List.filter_cons_of_pos (by simpa using tile), List.sum_cons, List.sum_cons, ih]
    · rw [List.filter_cons_of_neg (by simpa using tile), List.sum_cons, ih,
        Nat.eq_zero_of_not_pos tile, Nat.zero_add]

theorem Slides.sum {before after : List Nat} {groups : List (List Nat)}
    (slides : Slides before groups after) : after.sum = before.sum := by
  rw [slides.after, List.sum_append, sum_flatten, slides.tiles, sum_filter_pos]
  simp

/-! ## Boards -/

/-- A line of the board from the wall that the tiles move to. -/
def Board.line (board : Board) (direction : Direction) (index : Nat) : List Nat :=
  (List.range boardSize).map fun depth =>
    match direction with
    | .left => board.cell depth index
    | .right => board.cell (boardSize - 1 - depth) index
    | .up => board.cell index depth
    | .down => board.cell index (boardSize - 1 - depth)

theorem line_length (board : Board) (direction : Direction) (index : Nat) :
    (board.line direction index).length = boardSize := by
  rw [Board.line, List.length_map, List.length_range]

/-- A board is known by its lines in one direction. -/
theorem board_ext {first second : Board} (square : first.Square) (square' : second.Square)
    (direction : Direction)
    (same : ∀ index < boardSize, first.line direction index = second.line direction index) :
    first = second := by
  have cells : ∀ x y, x < boardSize → y < boardSize → first.cell x y = second.cell x y := by
    intro x y hx hy
    have entry : ∀ {index depth : Nat}, index < boardSize → depth < boardSize →
        (first.line direction index)[depth]? = (second.line direction index)[depth]? :=
      fun inside _ => by rw [same _ inside]
    have flip : ∀ {z : Nat}, z < boardSize → boardSize - 1 - (boardSize - 1 - z) = z := by
      intro z hz
      omega
    cases direction with
    | left => simpa [Board.line, hx] using entry hy hx
    | up => simpa [Board.line, hy] using entry hx hy
    | right =>
      have inside : boardSize - 1 - x < boardSize := by omega
      simpa [Board.line, inside, flip hx] using entry hy inside
    | down =>
      have inside : boardSize - 1 - y < boardSize := by omega
      simpa [Board.line, inside, flip hy] using entry hx inside
  rw [← Board.normalize_of_square square, ← Board.normalize_of_square square']
  exact Board.grid_congr cells

theorem range_getD {row : List Nat} (short : row.length = boardSize) :
    ((List.range boardSize).map fun depth => row[depth]?.getD 0) = row := by
  apply List.ext_getElem
  · rw [List.length_map, List.length_range, short]
  · intro depth _ inside
    simp [inside]

theorem line_left {board : Board} (square : board.Square) {index : Nat}
    (inside : index < boardSize) :
    ∃ row, board[index]? = some row ∧ board.line .left index = row := by
  have stands : index < board.length := by rw [square.1]; exact inside
  refine ⟨board[index], List.getElem?_eq_getElem stands, ?_⟩
  have row := square.2 board[index] (List.getElem_mem stands)
  rw [← range_getD row]
  simp [Board.line, Board.cell, stands]

theorem line_right (board : Board) (index : Nat) :
    board.line .right index = (board.line .left index).reverse := by
  simp only [Board.line, boardSize]
  rfl

theorem line_down (board : Board) (index : Nat) :
    board.line .down index = (board.line .up index).reverse := by
  simp only [Board.line, boardSize]
  rfl

theorem cell_transpose (board : Board) {x y : Nat} (hx : x < boardSize) (hy : y < boardSize) :
    board.transpose.cell x y = board.cell y x := Board.cell_grid _ hx hy

theorem line_up {board : Board} {index : Nat} (inside : index < boardSize) :
    board.line .up index = board.transpose.line .left index :=
  List.map_congr_left fun _ member =>
    (cell_transpose board (List.mem_range.mp member) inside).symm

/-- A turn of the board that carries lines to lines. -/
structure Symmetry where
  board : Board → Board
  direction : Direction → Direction
  index : Direction → Nat → Nat
  square : ∀ {before : Board}, before.Square → (board before).Square
  index_lt : ∀ heading {place : Nat}, place < boardSize → index heading place < boardSize
  index_index : ∀ heading {place : Nat}, place < boardSize →
    index heading (index heading place) = place
  line : ∀ {before : Board} (heading : Direction) {place : Nat}, before.Square → place < boardSize →
    (board before).line (direction heading) place = before.line heading (index heading place)

def Board.mirror (board : Board) : Board := board.map List.reverse

def Board.flip (board : Board) : Board := board.reverse

theorem mirror_square {board : Board} (square : board.Square) : board.mirror.Square := by
  refine ⟨by rw [Board.mirror, List.length_map, square.1], fun row member => ?_⟩
  obtain ⟨before, stands, rfl⟩ := List.mem_map.mp member
  rw [List.length_reverse, square.2 before stands]

theorem flip_square {board : Board} (square : board.Square) : board.flip.Square :=
  ⟨by rw [Board.flip, List.length_reverse, square.1],
    fun row member => square.2 row (List.mem_reverse.mp member)⟩

theorem cell_mirror {board : Board} (square : board.Square) {x y : Nat} (hx : x < boardSize)
    (hy : y < boardSize) : board.mirror.cell x y = board.cell (boardSize - 1 - x) y := by
  have stands : y < board.length := by rw [square.1]; exact hy
  have row := square.2 board[y] (List.getElem_mem stands)
  have inside : x < board[y].length := by rw [row]; exact hx
  simp [Board.cell, Board.mirror, stands, List.getElem?_reverse inside, row]

theorem cell_flip {board : Board} (square : board.Square) (x : Nat) {y : Nat}
    (hy : y < boardSize) : board.flip.cell x y = board.cell x (boardSize - 1 - y) := by
  have stands : y < board.length := by rw [square.1]; exact hy
  simp [Board.cell, Board.flip, List.getElem?_reverse stands, square.1]

theorem mirrored_lt {place : Nat} (inside : place < boardSize) :
    boardSize - 1 - place < boardSize := by omega

theorem mirrored_mirrored {place : Nat} (inside : place < boardSize) :
    boardSize - 1 - (boardSize - 1 - place) = place := by omega

/-- Left and right change places. -/
def Symmetry.mirror : Symmetry where
  board := Board.mirror
  direction
    | .left => .right
    | .right => .left
    | heading => heading
  index heading place := if heading.vertical then boardSize - 1 - place else place
  square := mirror_square
  index_lt heading place inside := by
    split
    · exact mirrored_lt inside
    · exact inside
  index_index heading place inside := by
    split
    · exact mirrored_mirrored inside
    · rfl
  line {before} heading {place} square inside := by
    refine List.map_congr_left fun depth member => ?_
    have deep := List.mem_range.mp member
    cases heading with
    | left =>
      exact (cell_mirror square (mirrored_lt deep) inside).trans
        (by rw [mirrored_mirrored deep]; rfl)
    | right => exact cell_mirror square deep inside
    | up => exact cell_mirror square inside deep
    | down => exact cell_mirror square inside (mirrored_lt deep)

/-- Top and bottom change places. -/
def Symmetry.flip : Symmetry where
  board := Board.flip
  direction
    | .up => .down
    | .down => .up
    | heading => heading
  index heading place := if heading.vertical then place else boardSize - 1 - place
  square := flip_square
  index_lt heading place inside := by
    split
    · exact inside
    · exact mirrored_lt inside
  index_index heading place inside := by
    split
    · rfl
    · exact mirrored_mirrored inside
  line {before} heading {place} square inside := by
    refine List.map_congr_left fun depth member => ?_
    have deep := List.mem_range.mp member
    cases heading with
    | left => exact cell_flip square depth inside
    | right => exact cell_flip square (boardSize - 1 - depth) inside
    | up =>
      exact (cell_flip square place (mirrored_lt deep)).trans
        (by rw [mirrored_mirrored deep]; rfl)
    | down => exact cell_flip square place deep

/-- Rows and columns change places. -/
def Symmetry.transpose : Symmetry where
  board := Board.transpose
  direction
    | .left => .up
    | .up => .left
    | .right => .down
    | .down => .right
  index _ place := place
  square _ := Board.square_grid _
  index_lt _ _ inside := inside
  index_index _ _ _ := rfl
  line {before} heading {place} square inside := by
    refine List.map_congr_left fun depth member => ?_
    have deep := List.mem_range.mp member
    cases heading with
    | left => exact cell_transpose before inside deep
    | right => exact cell_transpose before inside (mirrored_lt deep)
    | up => exact cell_transpose before deep inside
    | down => exact cell_transpose before (mirrored_lt deep) inside

/-! ## Moves -/

section Moves

variable {board : Board} {direction : Direction}

/-- The rows that `apply_move` works on. -/
def Board.working (board : Board) (direction : Direction) : Board :=
  if direction.vertical then board.transpose else board

theorem working_square (square : board.Square) : (board.working direction).Square := by
  unfold Board.working
  split
  · exact Board.square_grid _
  · exact square

def Board.movedRows (board : Board) (direction : Direction) : Board :=
  ((board.working direction).map (moveRow direction)).map Prod.fst

theorem movedRows_square (square : board.Square) : (board.movedRows direction).Square := by
  refine ⟨?_, fun row member => ?_⟩
  · rw [Board.movedRows, List.length_map, List.length_map]
    exact (working_square square).1
  · obtain ⟨moved, among, rfl⟩ := List.mem_map.mp member
    obtain ⟨before, _, rfl⟩ := List.mem_map.mp among
    exact moveRow_length direction before

theorem applyMove_board (square : board.Square) :
    (applyMove board direction).board =
      if direction.vertical then (board.movedRows direction).transpose
      else board.movedRows direction := by
  unfold applyMove Board.movedRows Board.working
  rw [Board.normalize_of_square square]

theorem working_line {index : Nat} (inside : index < boardSize) :
    board.line direction index =
      if direction.reversed then ((board.working direction).line .left index).reverse
      else (board.working direction).line .left index := by
  cases direction with
  | left => rfl
  | right => exact line_right board index
  | up => exact line_up inside
  | down =>
    rw [line_down, line_up inside]
    rfl

theorem movedRows_line (square : board.Square) {index : Nat} (inside : index < boardSize) :
    (board.movedRows direction).line .left index =
      (moveRow direction ((board.working direction).line .left index)).1 := by
  obtain ⟨row, found, same⟩ := line_left (working_square square) inside
  obtain ⟨row', found', same'⟩ := line_left (movedRows_square square) inside
  rw [Board.movedRows, List.getElem?_map, List.getElem?_map, found] at found'
  rw [same, same', ← Option.some.inj found']

theorem applyMove_working (square : board.Square) {index : Nat} :
    ((applyMove board direction).board.working direction).line .left index =
      (board.movedRows direction).line .left index := by
  rw [applyMove_board square, Board.working]
  split
  · rw [Board.transpose_transpose (movedRows_square square)]
  · rfl

/-- Every line of the board is slid by `_merge_line`. -/
theorem applyMove_line (square : board.Square) {index : Nat} (inside : index < boardSize) :
    (applyMove board direction).board.line direction index =
      (mergeLine (board.line direction index)).1 := by
  rw [working_line inside, applyMove_working square, movedRows_line square inside,
    @working_line board direction _ inside, moveRow]
  cases direction.reversed with
  | false => rfl
  | true => exact List.reverse_reverse _

theorem board_rows (square : board.Square) :
    board = (List.range boardSize).map (board.line .left) := by
  apply List.ext_getElem
  · rw [List.length_map, List.length_range, square.1]
  · intro index stands _
    have inside : index < boardSize := square.1 ▸ stands
    obtain ⟨row, found, same⟩ := line_left square inside
    rw [List.getElem?_eq_getElem stands] at found
    rw [List.getElem_map, List.getElem_range, same, Option.some.inj found]

/-- The score of a move is what its lines score. -/
theorem applyMove_score (square : board.Square) :
    (applyMove board direction).gainedScore =
      ((List.range boardSize).map fun index =>
        (mergeLine (board.line direction index)).2).sum := by
  have rows : (applyMove board direction).gainedScore =
      (((board.working direction).map (moveRow direction)).map Prod.snd).sum := by
    unfold applyMove Board.working
    rw [Board.normalize_of_square square]
  rw [rows, board_rows (working_square square), List.map_map, List.map_map]
  refine congrArg List.sum (List.map_congr_left fun index member => ?_)
  rw [@working_line board direction _ (List.mem_range.mp member)]
  cases h : direction.reversed with
  | false | true => simp [moveRow, h]

theorem applyMove_moved (square : board.Square) :
    (applyMove board direction).moved = true ↔ (applyMove board direction).board ≠ board := by
  have whole : (applyMove board direction).moved =
      ((applyMove board direction).board != board.normalize) := rfl
  rw [whole, Board.normalize_of_square square, bne_iff_ne]

/-- The sum of the tiles, line by line. -/
theorem lines_sum (square : board.Square) (direction : Direction) :
    ((List.range boardSize).map fun index => (board.line direction index).sum).sum =
      board.flatten.sum := by
  have rows : board.flatten.sum =
      ((List.range boardSize).map fun index => (board.line .left index).sum).sum := by
    conv_lhs => rw [board_rows square]
    rw [List.sum_flatten, List.map_map]
    rfl
  rw [rows]
  cases direction <;> simp [Board.line, boardSize, List.range_succ] <;> omega

end Moves

/-! ## Symmetry -/

section Symmetry

variable {board : Board} (symmetry : Symmetry) (heading : Direction)

/-- The move of the turned board is the turned move. -/
theorem Symmetry.applyMove_board (square : board.Square) :
    (applyMove (symmetry.board board) (symmetry.direction heading)).board =
      symmetry.board (applyMove board heading).board := by
  have moved := applyMove_square board heading
  refine board_ext (applyMove_square _ _) (symmetry.square moved) (symmetry.direction heading)
    fun place inside => ?_
  rw [applyMove_line (symmetry.square square) inside, symmetry.line heading square inside,
    symmetry.line heading moved inside,
    applyMove_line square (symmetry.index_lt heading inside)]

theorem Symmetry.injective {first second : Board} (square : first.Square)
    (square' : second.Square) (same : symmetry.board first = symmetry.board second) :
    first = second := by
  refine board_ext square square' .left fun place inside => ?_
  have turned := symmetry.index_lt .left inside
  rw [← symmetry.index_index .left inside, ← symmetry.line .left square turned, same,
    symmetry.line .left square' turned]

theorem Symmetry.places :
    ((List.range boardSize).map (symmetry.index heading)).Perm (List.range boardSize) := by
  have inside : ∀ {place}, place ∈ List.range boardSize → place < boardSize := List.mem_range.mp
  have distinct : ((List.range boardSize).map (symmetry.index heading)).Nodup := by
    refine List.Nodup.map_on (fun first member second member' same => ?_) List.nodup_range
    rw [← symmetry.index_index heading (inside member), same,
      symmetry.index_index heading (inside member')]
  have among : (List.range boardSize).map (symmetry.index heading) ⊆ List.range boardSize := by
    intro place member
    obtain ⟨before, stands, rfl⟩ := List.mem_map.mp member
    exact List.mem_range.mpr (symmetry.index_lt heading (inside stands))
  refine (List.subperm_of_subset distinct among).perm_of_length_le ?_
  rw [List.length_map]

theorem Symmetry.applyMove_score (square : board.Square) :
    (applyMove (symmetry.board board) (symmetry.direction heading)).gainedScore =
      (applyMove board heading).gainedScore := by
  rw [Daily.applyMove_score square, Daily.applyMove_score (symmetry.square square),
    ← ((symmetry.places heading).map fun place => (mergeLine (board.line heading place)).2).sum_eq,
    List.map_map]
  refine congrArg List.sum (List.map_congr_left fun place member => ?_)
  rw [symmetry.line heading square (List.mem_range.mp member)]
  rfl

theorem Symmetry.applyMove_moved (square : board.Square) :
    (applyMove (symmetry.board board) (symmetry.direction heading)).moved =
      (applyMove board heading).moved := by
  rw [Bool.eq_iff_iff, Daily.applyMove_moved (symmetry.square square),
    Daily.applyMove_moved square, symmetry.applyMove_board heading square]
  refine not_congr ⟨symmetry.injective (applyMove_square board heading) square, ?_⟩
  exact congrArg symmetry.board

theorem Symmetry.applyMove (square : board.Square) :
    Daily.applyMove (symmetry.board board) (symmetry.direction heading) =
      ⟨symmetry.board (Daily.applyMove board heading).board, (Daily.applyMove board heading).moved,
        (Daily.applyMove board heading).gainedScore⟩ := by
  rw [← symmetry.applyMove_board heading square, ← symmetry.applyMove_moved heading square,
    ← symmetry.applyMove_score heading square]

end Symmetry

/-! ## The end of the game -/

/-- Tiles of which no two neighbours are equal do not merge. -/
theorem mergeTiles_apart {tiles : List Nat} (apart : tiles.IsChain (· ≠ ·)) :
    (mergeTiles tiles).1 = tiles := by
  induction tiles using mergeTiles.induct with
  | case1 tile rest merged score merge ih =>
    exact absurd rfl (List.isChain_cons_cons.mp apart).1
  | case2 first second rest ne merged score merge ih =>
    have later := ih (List.isChain_cons_cons.mp apart).2
    rw [mergeTiles, if_neg ne]
    exact congrArg (first :: ·) later
  | case3 tiles short => rw [mergeTiles_short short]

theorem apart_of_mergeTiles {tiles : List Nat} (kept : (mergeTiles tiles).1 = tiles) :
    tiles.IsChain (· ≠ ·) := by
  induction tiles using mergeTiles.induct with
  | case1 tile rest merged score merge ih =>
    have shorter := mergeTiles_length rest
    have long := congrArg List.length kept
    rw [mergeTiles, if_pos rfl] at long
    simp only [List.length_cons] at long
    omega
  | case2 first second rest ne merged score merge ih =>
    rw [mergeTiles, if_neg ne] at kept
    exact List.isChain_cons_cons.mpr ⟨ne, ih (List.cons.inj kept).2⟩
  | case3 tiles short =>
    cases tiles with
    | nil => exact List.isChain_nil
    | cons first others =>
      cases others with
      | nil => exact List.isChain_singleton first
      | cons second rest => exact absurd rfl (short first second rest)

/-- A full line stays where no two neighbours are equal. -/
theorem mergeLine_full {line : List Nat} (short : line.length = boardSize) (full : 0 ∉ line) :
    (mergeLine line).1 = line ↔ line.IsChain (· ≠ ·) := by
  have tiles : (line.filter fun value => 0 < value) = line := by
    refine List.filter_eq_self.mpr fun value member => decide_eq_true (Nat.pos_of_ne_zero ?_)
    rintro rfl
    exact full member
  have fits := mergeTiles_length line
  have whole : (mergeLine line).1 = (mergeTiles line).1 ++
      List.replicate (boardSize - (mergeTiles line).1.length) 0 := by
    simp only [mergeLine, tiles]
    refine List.take_of_length_le ?_
    rw [List.length_append, List.length_replicate]
    omega
  rw [whole]
  constructor
  · intro padded
    refine apart_of_mergeTiles ?_
    cases gap : boardSize - (mergeTiles line).1.length with
    | zero =>
      rw [gap] at padded
      simpa using padded
    | succ missing =>
      refine absurd ?_ full
      rw [← padded, gap]
      simp
  · intro apart
    rw [mergeTiles_apart apart, short]
    simp

theorem mergeTiles_pos {tiles : List Nat} (positive : ∀ tile ∈ tiles, 0 < tile) :
    ∀ tile ∈ (mergeTiles tiles).1, 0 < tile := by
  induction tiles using mergeTiles.induct with
  | case1 tile rest merged score merge ih =>
    obtain ⟨head, tail⟩ := List.forall_mem_cons.mp positive
    rw [mergeTiles, if_pos rfl]
    refine List.forall_mem_cons.mpr ⟨by omega, ih (List.forall_mem_cons.mp tail).2⟩
  | case2 first second rest ne merged score merge ih =>
    obtain ⟨head, tail⟩ := List.forall_mem_cons.mp positive
    rw [mergeTiles, if_neg ne]
    exact List.forall_mem_cons.mpr ⟨head, ih tail⟩
  | case3 tiles short =>
    rw [mergeTiles_short short]
    exact positive

/-- Behind an empty cell of a slid line there is no tile. -/
theorem mergeLine_packed (line : List Nat) :
    (mergeLine line).1.Pairwise fun first second => first = 0 → second = 0 := by
  have positive := @mergeTiles_pos (line.filter fun value => 0 < value)
    fun tile member => of_decide_eq_true (List.mem_filter.mp member).2
  refine List.Pairwise.sublist (List.take_sublist _ _) ?_
  refine List.pairwise_append.mpr ⟨?_, ?_, ?_⟩
  · exact List.pairwise_of_forall_mem_list fun first member _ _ zero =>
      absurd zero (Nat.ne_of_gt (positive first member))
  · exact List.pairwise_replicate.mpr (.inr fun _ => rfl)
  · intro first _ second member _
    exact List.eq_of_mem_replicate member

/-- A line that stays whichever wall it is slid to is full or empty. -/
theorem full_or_empty {line : List Nat}
    (kept : (mergeLine line).1 = line) (kept' : (mergeLine line.reverse).1 = line.reverse) :
    0 ∉ line ∨ ∀ value ∈ line, value = 0 := by
  have forth := mergeLine_packed line
  have back := mergeLine_packed line.reverse
  rw [kept] at forth
  rw [kept', List.pairwise_reverse] at back
  by_cases hole : 0 ∈ line
  · refine .inr fun value member => ?_
    obtain ⟨before, behind, rfl⟩ := List.append_of_mem hole
    have sides := List.pairwise_append.mp forth
    have sides' := List.pairwise_append.mp back
    rcases List.mem_append.mp member with early | late
    · exact sides'.2.2 value early 0 List.mem_cons_self rfl
    · rcases List.mem_cons.mp late with same | later
      · exact same
      · exact (List.pairwise_cons.mp sides.2.1).1 value later rfl
  · exact .inl hole

/-- A line that no move to either wall changes, and that has a tile. -/
def Stuck (line : List Nat) : Prop := 0 ∉ line ∧ line.IsChain (· ≠ ·)

theorem stuck_reverse {line : List Nat} : Stuck line.reverse ↔ Stuck line := by
  rw [Stuck, Stuck, List.mem_reverse, List.isChain_reverse]
  exact and_congr_right fun _ => List.IsChain.iff fun _ _ => ne_comm

theorem stuck_line {board : Board} {direction : Direction} {index : Nat} {cells : Nat → Nat}
    (same : board.line direction index = (List.range boardSize).map cells) :
    Stuck (board.line direction index) ↔ (∀ depth < boardSize, cells depth ≠ 0) ∧
        ∀ depth, depth + 1 < boardSize → cells (depth + 1) ≠ cells depth := by
  rw [Stuck, same, List.isChain_map, boardSize, List.isChain_range_succ]
  refine and_congr ?_ ?_
  · simp
  · exact ⟨fun apart depth inside => (apart depth (by omega)).symm,
      fun apart depth inside => (apart depth (by omega)).symm⟩

theorem movesAvailable_eq_false {board : Board} (square : board.Square) :
    movesAvailable board = false ↔
      ∀ index < boardSize, Stuck (board.line .left index) ∧ Stuck (board.line .up index) := by
  have none : board.availableCells = [] ↔
      ∀ y < boardSize, ∀ x < boardSize, board.cell x y ≠ 0 := by
    simp [Board.availableCells, List.filter_eq_nil_iff]
  have rows : ∀ index, Stuck (board.line .left index) ↔ _ := fun index => stuck_line rfl
  have columns : ∀ index, Stuck (board.line .up index) ↔ _ := fun index => stuck_line rfl
  rw [movesAvailable, Board.normalize_of_square square]
  simp only [rows, columns, Bool.or_eq_false_iff, bne_eq_false_iff_eq, none, List.any_eq_false,
    Bool.not_eq_true, List.mem_range, Bool.and_eq_false_imp, decide_eq_true_eq,
    beq_eq_false_iff_ne]
  constructor
  · rintro ⟨full, apart⟩ index inside
    refine ⟨⟨full index inside, fun depth next => (apart index inside depth (by omega)).1 next⟩,
      fun depth deep => full depth deep index inside, fun depth next => ?_⟩
    exact (apart depth (by omega) index inside).2 next
  · intro stuck
    refine ⟨fun y hy => (stuck y hy).1.1, fun y hy x hx => ⟨(stuck y hy).1.2 x, ?_⟩⟩
    exact (stuck x hx).2.2 y

theorem Stuck.kept {line : List Nat} (stuck : Stuck line) (short : line.length = boardSize) :
    (mergeLine line).1 = line := (mergeLine_full short stuck.1).mpr stuck.2

theorem stuck_of_kept {line : List Nat} (short : line.length = boardSize)
    (kept : (mergeLine line).1 = line) (kept' : (mergeLine line.reverse).1 = line.reverse)
    (tile : ∃ value ∈ line, value ≠ 0) : Stuck line := by
  rcases full_or_empty kept kept' with full | empty
  · exact ⟨full, (mergeLine_full short full).mp kept⟩
  · obtain ⟨value, member, nonzero⟩ := tile
    exact absurd (empty value member) nonzero

/-- A move changes nothing exactly when every line along it stays. -/
theorem applyMove_kept {board : Board} (square : board.Square) (direction : Direction) :
    (applyMove board direction).moved = false ↔ ∀ index < boardSize,
        (mergeLine (board.line direction index)).1 = board.line direction index := by
  rw [← Bool.not_eq_true, applyMove_moved square, not_not]
  constructor
  · intro same index inside
    rw [← applyMove_line square inside, same]
  · intro kept
    refine board_ext (applyMove_square board direction) square direction fun index inside => ?_
    rw [applyMove_line square inside, kept index inside]

/-- On a board with a tile, `moves_available` holds exactly when some direction moves. -/
theorem movesAvailable_iff {board : Board} (square : board.Square)
    (tile : ∃ x y, x < boardSize ∧ y < boardSize ∧ board.cell x y ≠ 0) :
    movesAvailable board = true ↔ ∃ direction, (applyMove board direction).moved = true := by
  rw [← not_iff_not, Bool.not_eq_true, movesAvailable_eq_false square]
  simp only [not_exists, Bool.not_eq_true, applyMove_kept square]
  constructor
  · intro stuck direction index inside
    have short := line_length board direction index
    cases direction with
    | left => exact (stuck index inside).1.kept short
    | up => exact (stuck index inside).2.kept short
    | right =>
      rw [line_right] at short ⊢
      exact (stuck_reverse.mpr (stuck index inside).1).kept short
    | down =>
      rw [line_down] at short ⊢
      exact (stuck_reverse.mpr (stuck index inside).2).kept short
  · intro kept
    have row : ∀ index < boardSize, (∃ depth < boardSize, board.cell depth index ≠ 0) →
        Stuck (board.line .left index) := by
      rintro index inside ⟨depth, deep, nonzero⟩
      refine stuck_of_kept (line_length _ _ _) (kept .left index inside) ?_
        ⟨_, List.mem_map.mpr ⟨depth, List.mem_range.mpr deep, rfl⟩, nonzero⟩
      rw [← line_right]
      exact kept .right index inside
    have column : ∀ index < boardSize, (∃ depth < boardSize, board.cell index depth ≠ 0) →
        Stuck (board.line .up index) := by
      rintro index inside ⟨depth, deep, nonzero⟩
      refine stuck_of_kept (line_length _ _ _) (kept .up index inside) ?_
        ⟨_, List.mem_map.mpr ⟨depth, List.mem_range.mpr deep, rfl⟩, nonzero⟩
      rw [← line_down]
      exact kept .down index inside
    -- The row of the tile is full, so every column has a tile, and then every row.
    obtain ⟨x, y, hx, hy, nonzero⟩ := tile
    have rowFull := ((stuck_line rfl).mp (row y hy ⟨x, hx, nonzero⟩)).1
    intro index inside
    have upright := column index inside ⟨y, hy, rowFull index inside⟩
    have tall := column x hx ⟨y, hy, nonzero⟩
    exact ⟨row index inside ⟨x, hx, ((stuck_line rfl).mp tall).1 index inside⟩, upright⟩

/-- A move slides every line, keeps the sum of the tiles, scores the tiles it merges, is
carried along by the turns of the board, and is there while `moves_available` holds. -/
theorem applyMove_law (board : Board) (square : board.Square) :
    (∀ direction, (∃ groups : Nat → List (List Nat),
        (∀ index < boardSize, Slides (board.line direction index) (groups index)
          ((applyMove board direction).board.line direction index)) ∧
        (applyMove board direction).gainedScore =
          ((List.range boardSize).map fun index => mergedTotal (groups index)).sum) ∧
      (∀ after : Board, after.Square → (∀ index < boardSize, ∃ groups,
          Slides (board.line direction index) groups (after.line direction index)) →
        after = (applyMove board direction).board) ∧
      (applyMove board direction).board.flatten.sum = board.flatten.sum ∧
      ((applyMove board direction).moved = true ↔ (applyMove board direction).board ≠ board) ∧
      ∀ symmetry ∈ [Symmetry.mirror, Symmetry.flip, Symmetry.transpose],
        applyMove (symmetry.board board) (symmetry.direction direction) =
          ⟨symmetry.board (applyMove board direction).board, (applyMove board direction).moved,
            (applyMove board direction).gainedScore⟩) ∧
    ((∃ x y, x < boardSize ∧ y < boardSize ∧ board.cell x y ≠ 0) → (movesAvailable board = true ↔
        ∃ direction, (applyMove board direction).moved = true)) := by
  refine ⟨fun direction => ?_, movesAvailable_iff square⟩
  have slid : ∀ index < boardSize, Slides (board.line direction index)
      (groupTiles ((board.line direction index).filter fun value => 0 < value))
      ((applyMove board direction).board.line direction index) := by
    intro index inside
    rw [applyMove_line square inside]
    exact (mergeLine_slides (line_length board direction index)).1
  refine ⟨⟨_, slid, ?_⟩, ?_, ?_, applyMove_moved square, fun symmetry _ =>
    symmetry.applyMove direction square⟩
  · rw [applyMove_score square]
    refine congrArg List.sum (List.map_congr_left fun index _ => ?_)
    exact (mergeLine_slides (line_length board direction index)).2
  · intro after square' lines
    refine board_ext square' (applyMove_square board direction) direction fun index inside => ?_
    obtain ⟨groups, slides⟩ := lines index inside
    exact (slides.unique (slid index inside)).2
  · rw [← lines_sum (applyMove_square board direction) direction, ← lines_sum square direction]
    refine congrArg List.sum (List.map_congr_left fun index member => ?_)
    exact (slid index (List.mem_range.mp member)).sum

/-- A row of three equal tiles merges its first two. -/
theorem applyMove_law_row :
    ((applyMove [[2, 2, 2, 0], [0, 0, 0, 0], [0, 0, 0, 0], [0, 0, 0, 0]] .left).moved = true ↔
      (applyMove [[2, 2, 2, 0], [0, 0, 0, 0], [0, 0, 0, 0], [0, 0, 0, 0]] .left).board ≠
        [[2, 2, 2, 0], [0, 0, 0, 0], [0, 0, 0, 0], [0, 0, 0, 0]]) ∧
    movesAvailable [[2, 2, 2, 0], [0, 0, 0, 0], [0, 0, 0, 0], [0, 0, 0, 0]] = true := by
  have law := applyMove_law [[2, 2, 2, 0], [0, 0, 0, 0], [0, 0, 0, 0], [0, 0, 0, 0]]
    (by unfold Board.Square; decide)
  exact ⟨(law.1 .left).2.2.2.1, (law.2 ⟨0, 0, by decide, by decide, by decide⟩).mpr
    ⟨.left, by decide⟩⟩

end BobbyBotique.Daily
