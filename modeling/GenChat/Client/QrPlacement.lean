import GenChat.Client.QrReader

/-!
# What is read at the modules of a drawn symbol

The modules that the drawn function patterns leave free are the encoding region of the standard, in
its order, and the bits of the stream are read there one after the other.
-/
namespace GenChat.Client
open Library

namespace QrCodeSvgGenerator

/-! ## Placing bits -/

theorem placeBit_kept {state : Grid × List Bool} {cell : Cell} (drawn : state.1 cell ≠ none)
    (other : Cell) : (placeBit state other).1 cell = state.1 cell := by
  rw [placeBit]
  split
  · next free =>
    have differs : cell ≠ other := fun same => drawn (same ▸ free)
    exact Function.update_of_ne differs _ _
  · rfl

theorem foldl_placeBit_kept {cell : Cell} (cells : List Cell) {state : Grid × List Bool}
    (drawn : state.1 cell ≠ none) : (cells.foldl placeBit state).1 cell = state.1 cell := by
  induction cells generalizing state with
  | nil => rfl
  | cons other cells ih =>
    have step := placeBit_kept drawn other
    have still : (placeBit state other).1 cell ≠ none := step ▸ drawn
    rw [List.foldl_cons, ih still, step]

/-- The free cells get the bits in order, and `false` when the bits have run out. -/
theorem foldl_placeBit {cells : List Cell} (nodup : cells.Nodup) (grid : Grid)
    (bits : List Bool) :
    (cells.filter fun cell => grid cell = none).map (cells.foldl placeBit (grid, bits)).1 =
      (cells.filter fun cell => grid cell = none).mapIdx fun i cell =>
        some (masked cell (bits.getD i false)) := by
  induction cells generalizing grid bits with
  | nil => rfl
  | cons cell cells ih =>
    obtain ⟨fresh, nodup⟩ := List.nodup_cons.mp nodup
    rw [List.foldl_cons]
    by_cases free : grid cell = none
    · have step : placeBit (grid, bits) cell =
          (Function.update grid cell (some (masked cell (bits.headD false))), bits.tail) :=
        if_pos free
      have same : (cells.filter fun other =>
          Function.update grid cell (some (masked cell (bits.headD false))) other = none) =
          cells.filter fun other => grid other = none := by
        refine List.filter_congr fun other mem => ?_
        have differs : other ≠ cell := fun same => fresh (same ▸ mem)
        rw [Function.update_of_ne differs]
      have later := ih nodup (Function.update grid cell (some (masked cell (bits.headD false))))
        bits.tail
      rw [same] at later
      have drawn : (placeBit (grid, bits) cell).1 cell =
          some (masked cell (bits.getD 0 false)) := by
        rw [step]
        cases bits <;> exact Function.update_self ..
      have first : (cells.foldl placeBit (placeBit (grid, bits) cell)).1 cell =
          some (masked cell (bits.getD 0 false)) := by
        rw [foldl_placeBit_kept, drawn]
        rw [drawn]
        exact Option.some_ne_none _
      rw [List.filter_cons_of_pos (by simpa using free), List.map_cons, List.mapIdx_cons, first,
        step, later]
      refine congrArg _ (congrArg (List.mapIdx · _) ?_)
      funext i other
      cases bits <;> rfl
    · have step : placeBit (grid, bits) cell = (grid, bits) := if_neg free
      rw [List.filter_cons_of_neg (by simpa using free), step]
      exact ih nodup grid bits

/-! ## The zigzag -/

theorem mem_zigzag {size fuel right : Nat} {upwards : Bool} {cell : Cell}
    (mem : cell ∈ zigzag size fuel right upwards) : 0 < right ∧ cell.2 ≤ right := by
  induction fuel generalizing right upwards with
  | zero => cases mem
  | succ fuel ih =>
    rw [zigzag] at mem
    split at mem
    · cases mem
    · next some =>
      refine ⟨Nat.pos_of_ne_zero some, ?_⟩
      rcases List.mem_append.mp mem with mem | mem
      · obtain ⟨row, -, mem⟩ := List.mem_flatMap.mp mem
        simp only [List.mem_cons, List.not_mem_nil, or_false] at mem
        rcases mem with rfl | rfl <;> dsimp only <;> split <;> omega
      · have later := (ih mem).2
        split at later <;> omega

theorem rows_nodup (size : Nat) (upwards : Bool) : (rows size upwards).Nodup := by
  cases upwards
  · exact List.nodup_range
  · exact List.nodup_reverse.mpr List.nodup_range

theorem zigzag_nodup (size fuel right : Nat) (upwards : Bool) :
    (zigzag size fuel right upwards).Nodup := by
  induction fuel generalizing right upwards with
  | zero => exact List.nodup_nil
  | succ fuel ih =>
    rw [zigzag]
    split
    · exact List.nodup_nil
    · next some =>
      dsimp only
      have inside : 0 < if right = 6 then right - 1 else right := by split <;> omega
      generalize (if right = 6 then right - 1 else right) = right at inside ⊢
      refine List.nodup_append.mpr ⟨List.nodup_flatMap.mpr ⟨fun row _ => ?_, ?_⟩, ih _ _, ?_⟩
      · have differs : right ≠ right - 1 := by omega
        simp [differs]
      · refine (rows_nodup size upwards).imp fun {row other} differs => ?_
        intro cell mem later
        simp only [List.mem_cons, List.not_mem_nil, or_false] at mem later
        rcases mem with rfl | rfl <;> rcases later with later | later <;>
          exact differs (congrArg Prod.fst later)
      · intro cell mem other later same
        subst same
        obtain ⟨row, -, mem⟩ := List.mem_flatMap.mp mem
        obtain ⟨more, bound⟩ := mem_zigzag later
        simp only [List.mem_cons, List.not_mem_nil, or_false] at mem
        rcases mem with rfl | rfl <;> dsimp only at bound <;> omega

/-! ## Function patterns -/

theorem addFinderPattern_none {size startRow startCol : Nat} {matrix : Grid} {cell : Cell} :
    addFinderPattern size matrix startRow startCol cell = none ↔
      ¬(startRow ≤ cell.1 + 1 ∧ cell.1 ≤ startRow + 7 ∧ startCol ≤ cell.2 + 1 ∧
        cell.2 ≤ startCol + 7 ∧ cell.1 < size ∧ cell.2 < size) ∧ matrix cell = none := by
  rw [addFinderPattern]
  split
  · next inside => split_ifs <;> simp [inside]
  · next outside => simp [outside]

theorem addAlignmentPattern_none {startRow startCol : Nat} {matrix : Grid} {cell : Cell} :
    addAlignmentPattern matrix startRow startCol cell = none ↔
      ¬(startRow ≤ cell.1 ∧ cell.1 < startRow + 5 ∧ startCol ≤ cell.2 ∧ cell.2 < startCol + 5) ∧
        matrix cell = none := by
  rw [addAlignmentPattern]
  split
  · next inside => simp [inside]
  · next outside => simp [outside]

/-- The three finder patterns. -/
def finderPatterns (size : Nat) : Grid :=
  addFinderPattern size (addFinderPattern size (addFinderPattern size (fun _ => none) 0 0)
    (size - 7) 0) 0 (size - 7)

theorem finderPatterns_none {size : Nat} {cell : Cell} (large : 21 ≤ size) (row : cell.1 < size)
    (col : cell.2 < size) :
    finderPatterns size cell = none ↔
      ¬(cell.1 < 8 ∧ cell.2 < 8 ∨ size ≤ cell.1 + 8 ∧ cell.2 < 8 ∨
        cell.1 < 8 ∧ size ≤ cell.2 + 8) := by
  rw [finderPatterns, addFinderPattern_none, addFinderPattern_none, addFinderPattern_none]
  constructor
  · rintro ⟨right, below, corner, -⟩
    omega
  · intro outside
    exact ⟨by omega, by omega, by omega, rfl⟩

/-- The three pairs of positions at the finder patterns are left out. -/
theorem addAlignmentPatterns_finderPatterns {size : Nat} (large : 25 ≤ size) :
    addAlignmentPatterns (finderPatterns size) [6, size - 7] =
      addAlignmentPattern (finderPatterns size) (size - 9) (size - 9) := by
  have corner : finderPatterns size (6, 6) ≠ none := fun none =>
    (finderPatterns_none (by omega) (by omega) (by omega)).mp none (by omega)
  have right : finderPatterns size (6, size - 7) ≠ none := fun none =>
    (finderPatterns_none (by omega) (by omega) (by omega)).mp none (by omega)
  have below : finderPatterns size (size - 7, 6) ≠ none := fun none =>
    (finderPatterns_none (by omega) (by omega) (by omega)).mp none (by omega)
  have free : finderPatterns size (size - 7, size - 7) = none :=
    (finderPatterns_none (by omega) (by omega) (by omega)).mpr (by dsimp only; omega)
  have pairs : [6, size - 7].product [6, size - 7] =
      [(6, 6), (6, size - 7), (size - 7, 6), (size - 7, size - 7)] := rfl
  rw [addAlignmentPatterns, pairs]
  simp only [List.foldl_cons, List.foldl_nil, if_neg corner, if_neg right, if_neg below,
    if_pos free, Nat.sub_sub]

theorem addTiming_none {size : Nat} {matrix : Grid} {cell : Cell} :
    addTiming size matrix cell = none ↔
      ¬(cell.1 = 6 ∧ 8 ≤ cell.2 ∧ cell.2 < size - 8 ∨
        cell.2 = 6 ∧ 8 ≤ cell.1 ∧ cell.1 < size - 8) ∧ matrix cell = none := by
  rw [addTiming]
  split_ifs with row col
  · simp [row]
  · simp [col]
  · constructor
    · intro none
      exact ⟨by tauto, none⟩
    · exact And.right

theorem addDarkModule_none {size : Nat} {matrix : Grid} {cell : Cell} :
    addDarkModule size matrix cell = none ↔ cell ≠ (size - 8, 8) ∧ matrix cell = none := by
  rw [addDarkModule, Function.update_apply]
  split <;> simp [*]

theorem reserveFormat_none {size : Nat} {matrix : Grid} {cell : Cell} :
    reserveFormat size matrix cell = none ↔
      ¬((cell.1 = 8 ∧ (cell.2 < 9 ∨ size ≤ cell.2 + 8 ∧ cell.2 < size)) ∨
        (cell.2 = 8 ∧ (cell.1 < 9 ∨ size ≤ cell.1 + 8 ∧ cell.1 < size))) ∧ matrix cell = none := by
  rw [reserveFormat]
  split_ifs with reserved
  · simp [reserved]
  · tauto

theorem getAlignmentPositions_eq {version : Nat} (h : 2 ≤ version ∧ version ≤ 6) :
    getAlignmentPositions version = [6, version * 4 + 10] := by
  obtain ⟨low, high⟩ := h
  interval_cases version <;> rfl

/-- The drawn modules are the function modules. -/
theorem drawPatterns_none {version : Nat} (h : 2 ≤ version ∧ version ≤ 6) {cell : Cell}
    (row : cell.1 < version * 4 + 17) (col : cell.2 < version * 4 + 17) :
    drawPatterns version cell = none ↔ QrReader.isFunction (version * 4 + 17) cell = false := by
  have alignment : addAlignmentPatterns (finderPatterns (version * 4 + 17))
      (getAlignmentPositions version) =
      addAlignmentPattern (finderPatterns (version * 4 + 17)) (version * 4 + 8)
        (version * 4 + 8) := by
    rw [getAlignmentPositions_eq h]
    exact addAlignmentPatterns_finderPatterns (by omega)
  have draw : drawPatterns version = reserveFormat (version * 4 + 17)
      (addDarkModule (version * 4 + 17) (addTiming (version * 4 + 17)
        (addAlignmentPatterns (finderPatterns (version * 4 + 17))
          (getAlignmentPositions version)))) := rfl
  rw [draw, alignment, reserveFormat_none, addDarkModule_none, addTiming_none,
    addAlignmentPattern_none, finderPatterns_none (by omega) row col, QrReader.isFunction,
    Ne, Prod.ext_iff]
  simp only [decide_eq_false_iff_not]
  constructor
  · rintro ⟨reserved, dark, timing, alignment, finder⟩ function
    rcases function with corner | right | below | row | col | centre
    · exact reserved (by omega)
    · exact reserved (by omega)
    · exact reserved (by omega)
    · exact timing (by omega)
    · exact timing (by omega)
    · exact alignment (by omega)
  · intro free
    refine ⟨?_, ?_, ?_, ?_, ?_⟩ <;> omega

/-! ## The format information -/

/-- Writing values one after the other. -/
def writeAll (matrix : Grid) (cells : List Cell) (bits : List Bool) : Grid :=
  (cells.zip bits).foldl (fun matrix (cell, bit) => Function.update matrix cell (some bit)) matrix

theorem writeAll_other {cell : Cell} {cells : List Cell} (other : cell ∉ cells) (matrix : Grid)
    (bits : List Bool) : writeAll matrix cells bits cell = matrix cell := by
  induction cells generalizing matrix bits with
  | nil => rfl
  | cons first cells ih =>
    cases bits with
    | nil => rfl
    | cons bit bits =>
      obtain ⟨differs, other⟩ := List.ne_and_not_mem_of_not_mem_cons other
      have later := ih other (Function.update matrix first (some bit)) bits
      rw [Function.update_of_ne differs] at later
      exact later

theorem map_writeAll {cells : List Cell} (nodup : cells.Nodup) (matrix : Grid) {bits : List Bool}
    (length : cells.length = bits.length) :
    cells.map (writeAll matrix cells bits) = bits.map some := by
  induction cells generalizing matrix bits with
  | nil =>
    obtain rfl := List.length_eq_zero_iff.mp length.symm
    rfl
  | cons cell cells ih =>
    cases bits with
    | nil => cases length
    | cons bit bits =>
      obtain ⟨fresh, nodup⟩ := List.nodup_cons.mp nodup
      have first :
          writeAll (Function.update matrix cell (some bit)) cells bits cell = some bit := by
        rw [writeAll_other fresh, Function.update_self]
      have later := ih nodup (Function.update matrix cell (some bit)) (Nat.succ.inj length)
      exact congrArg₂ List.cons first later

/-- The matrix of a version with these bits. -/
def drawn (version : Nat) (bits : List Bool) : Matrix where
  size := version * 4 + 17
  dark cell := (writeFormat (version * 4 + 17)
    ((walk (version * 4 + 17)).foldl placeBit (drawPatterns version, bits)).1 cell).getD false

theorem createMatrix_eq (text : Units) :
    createMatrix text = drawn (getVersion (encodeUnits text).length)
      (createDataBitstream (encodeUnits text) (getVersion (encodeUnits text).length)) := rfl

theorem formatCells_nodup : ∀ version ∈ [3, 4, 5, 6], (formatCells (version * 4 + 17)).Nodup := by
  decide

theorem length_formatCells (size : Nat) : (formatCells size).length = 30 := by
  simp [formatCells]

/-- Both copies of the format information are read as they were written. -/
theorem format_drawn {version : Nat} (h : version ∈ [3, 4, 5, 6]) (bits : List Bool) :
    QrReader.firstCopy.map (drawn version bits).dark =
        QrReader.formatInformation QrReader.levelL 0 ∧
      (QrReader.secondCopy (version * 4 + 17)).map (drawn version bits).dark =
        QrReader.formatInformation QrReader.levelL 0 := by
  have information : QrReader.formatInformation QrReader.levelL 0 = formatBits := by decide
  have length : (formatCells (version * 4 + 17)).length = (formatBits ++ formatBits).length :=
    length_formatCells _
  have written := map_writeAll (formatCells_nodup version h)
    ((walk (version * 4 + 17)).foldl placeBit (drawPatterns version, bits)).1 length
  have dark := congrArg (List.map (Option.getD · false)) written
  rw [List.map_map, List.map_map] at dark
  have both : (formatCells (version * 4 + 17)).map (drawn version bits).dark =
      formatBits ++ formatBits := dark.trans (List.map_id _)
  have split : formatCells (version * 4 + 17) =
      QrReader.firstCopy ++ QrReader.secondCopy (version * 4 + 17) := rfl
  rw [split, List.map_append] at both
  rw [information]
  exact List.append_inj both (by rw [List.length_map]; rfl)

/-! ## The encoding region -/

theorem walk_eq_route : ∀ version ∈ [3, 4, 5, 6],
    walk (version * 4 + 17) = QrReader.route (version * 4 + 17) := by
  intro version h
  fin_cases h <;> rfl

theorem route_inside {size : Nat} (large : 6 ≤ size) {cell : Cell}
    (mem : cell ∈ QrReader.route size) : cell.1 < size ∧ cell.2 < size := by
  obtain ⟨⟨right, i⟩, column, mem⟩ := List.mem_flatMap.mp mem
  obtain ⟨row, inside, mem⟩ := List.mem_flatMap.mp mem
  have bound : row < size := by
    split at inside <;> simpa using inside
  have col : right < size := by
    rcases List.mem_append.mp (List.fst_mem_of_mem_zipIdx column) with mem | mem
    · obtain ⟨k, -, rfl⟩ := List.mem_map.mp mem
      omega
    · simp only [List.mem_cons, List.not_mem_nil, or_false] at mem
      omega
  simp only [List.mem_cons, List.not_mem_nil, or_false] at mem
  rcases mem with rfl | rfl
  · exact ⟨bound, col⟩
  · exact ⟨bound, (Nat.sub_le _ _).trans_lt col⟩

theorem formatCells_function : ∀ version ∈ [3, 4, 5, 6],
    ∀ cell ∈ formatCells (version * 4 + 17),
      QrReader.isFunction (version * 4 + 17) cell = true := by decide

theorem version_range {version : Nat} (h : version ∈ [3, 4, 5, 6]) :
    2 ≤ version ∧ version ≤ 6 := by
  simp only [List.mem_cons, List.not_mem_nil, or_false] at h
  omega

/-- The free modules are the encoding region. -/
theorem free_eq_encodingRegion {version : Nat} (h : version ∈ [3, 4, 5, 6]) :
    (walk (version * 4 + 17)).filter (fun cell => drawPatterns version cell = none) =
      QrReader.encodingRegion (version * 4 + 17) := by
  rw [walk_eq_route version h, QrReader.encodingRegion]
  refine List.filter_congr fun cell mem => ?_
  obtain ⟨row, col⟩ := route_inside (by omega) mem
  have none := drawPatterns_none (version_range h) row col
  cases function : QrReader.isFunction (version * 4 + 17) cell <;> simp [none, function]

theorem unmasked_placed {version : Nat} (h : version ∈ [3, 4, 5, 6]) {bits : List Bool}
    {cell : Cell} (mem : cell ∈ QrReader.encodingRegion (version * 4 + 17)) {bit : Bool}
    (placed : ((walk (version * 4 + 17)).foldl placeBit (drawPatterns version, bits)).1 cell =
      some (masked cell bit)) : QrReader.unmasked (drawn version bits) cell = bit := by
  have other : cell ∉ formatCells (version * 4 + 17) := by
    intro format
    have function := formatCells_function version h cell format
    have region := (List.mem_filter.mp mem).2
    rw [function] at region
    cases region
  have dark : (drawn version bits).dark cell = masked cell bit := by
    have kept := writeAll_other other
      ((walk (version * 4 + 17)).foldl placeBit (drawPatterns version, bits)).1
      (formatBits ++ formatBits)
    exact congrArg (Option.getD · false) (kept.trans placed)
  rw [QrReader.unmasked, dark, masked]
  split <;> simp [*]

/-- Reading the encoding region gives the bits, and `false` where they have run out. -/
theorem unmasked_drawn {version : Nat} (h : version ∈ [3, 4, 5, 6]) (bits : List Bool) :
    (QrReader.encodingRegion (version * 4 + 17)).map
        (QrReader.unmasked (drawn version bits)) =
      (QrReader.encodingRegion (version * 4 + 17)).mapIdx fun i _ => bits.getD i false := by
  have nodup : (walk (version * 4 + 17)).Nodup := zigzag_nodup _ _ _ _
  have placed := foldl_placeBit nodup (drawPatterns version) bits
  rw [free_eq_encodingRegion h] at placed
  refine List.ext_getElem (by simp) fun i bound _ => ?_
  rw [List.length_map] at bound
  have one := List.getElem_of_eq placed (by rwa [List.length_map] : i < _)
  rw [List.getElem_map, List.getElem_mapIdx] at one
  rw [List.getElem_map, List.getElem_mapIdx]
  exact unmasked_placed h (List.getElem_mem bound) one

end QrCodeSvgGenerator
end GenChat.Client
