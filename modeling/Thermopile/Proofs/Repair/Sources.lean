import Thermopile.Repair

namespace Thermopile

theorem Subpage.ofParity_congr {m n : Nat} (h : m % 2 = n % 2) : ofParity m = ofParity n := by
  rw [ofParity, ofParity, h]

/-- A value that is missing for want of neighbours would be no median. -/
theorem exists_median? {α : Type} [Scalar α] {values : List α} (h : values ≠ []) :
    ∃ m, median? values = some m := by
  unfold median?
  have size : 0 < (values.mergeSort Scalar.sortsBefore).length := by
    rw [List.length_mergeSort]
    exact List.length_pos_iff.mpr h
  generalize values.mergeSort Scalar.sortsBefore = sorted at size ⊢
  simp only [List.getElem?_eq_getElem (show sorted.length / 2 < sorted.length by omega),
    List.getElem?_eq_getElem (show sorted.length / 2 - 1 < sorted.length by omega)]
  split
  · exact ⟨_, rfl⟩
  · exact ⟨_, rfl⟩

namespace Pixel

theorem val_eq (i : Pixel) : i.val = i.row * 32 + i.column := (Nat.div_add_mod' i.val 32).symm

theorem row_lt (i : Pixel) : i.row < 24 := Nat.div_lt_of_lt_mul i.isLt

theorem column_lt (i : Pixel) : i.column < 32 := Nat.mod_lt _ (by decide)

theorem exists_at? {row column : Int} (inside : 0 ≤ row ∧ row < 24 ∧ 0 ≤ column ∧ column < 32) :
    ∃ j, at? row column = some j := by
  unfold at?
  exact ⟨_, dif_pos inside⟩

theorem place_of_at? {row column : Int} {j : Pixel} (h : at? row column = some j) :
    (j.row : Int) = row ∧ (j.column : Int) = column := by
  unfold at? at h
  split at h
  · rename_i inside
    obtain rfl := Option.some.inj h
    simp only [Pixel.row, Pixel.column, rowCount, columnCount] at inside ⊢
    omega
  · cases h

theorem mem_diagonals {i j : Pixel} (h : j ∈ i.diagonals) :
    ∃ down right : Int, (down = -1 ∨ down = 1) ∧ (right = -1 ∨ right = 1) ∧
      (j.row : Int) = i.row + down ∧ (j.column : Int) = i.column + right := by
  simp only [diagonals, List.mem_filterMap, List.mem_cons, List.not_mem_nil, or_false] at h
  obtain ⟨⟨down, right⟩, hd, hj⟩ := h
  simp only [Prod.mk.injEq] at hd
  exact ⟨down, right, by omega, by omega, place_of_at? hj⟩

theorem diagonals_ne_nil (i : Pixel) : i.diagonals ≠ [] := by
  have hr := i.row_lt
  have hc := i.column_lt
  obtain ⟨down, hd, insideRow⟩ : ∃ down : Int, (down = -1 ∨ down = 1) ∧
      0 ≤ i.row + down ∧ i.row + down < 24 := by
    by_cases top : i.row = 0
    · exact ⟨1, .inr rfl, by omega, by omega⟩
    · exact ⟨-1, .inl rfl, by omega, by omega⟩
  obtain ⟨right, hr, insideColumn⟩ : ∃ right : Int, (right = -1 ∨ right = 1) ∧
      0 ≤ i.column + right ∧ i.column + right < 32 := by
    by_cases first : i.column = 0
    · exact ⟨1, .inr rfl, by omega, by omega⟩
    · exact ⟨-1, .inl rfl, by omega, by omega⟩
  obtain ⟨j, hj⟩ := exists_at? ⟨insideRow.1, insideRow.2, insideColumn⟩
  apply List.ne_nil_of_mem (a := j)
  simp only [diagonals, List.mem_filterMap]
  refine ⟨(down, right), ?_, hj⟩
  rcases hd with rfl | rfl <;> rcases hr with rfl | rfl <;> decide

theorem place_left (i : Pixel) {n : Nat} (h : n ≤ i.column) :
    (i.left n).row = i.row ∧ (i.left n).column + n = i.column := by
  simp only [row, column, left, columnCount] at *
  omega

theorem place_right (i : Pixel) {n : Nat} (h : i.column + n < 32) :
    (i.right n).row = i.row ∧ (i.right n).column = i.column + n := by
  have hi := i.isLt
  simp only [row, column, right, columnCount, pixelCount] at *
  omega

end Pixel

/-- The pixels whose values decide what replaces that of `i`. -/
def sources (c : Calibration) (pattern : AccessPattern) (i : Pixel) : List Pixel :=
  match pattern with
  | .chess => i.diagonals
  | .interleave =>
    if i.column = 0 then [i.right 1]
    else if i.column = 31 then [i.left 1]
    else if i.column = 1 ∨ i.column = 30 ∨ c.bad (i.left 2) ∨ c.bad (i.right 2) then
      [i.left 1, i.right 1]
    else [i.left 2, i.left 1, i.right 1, i.right 2]

/-- How far down and to the right of a pixel there are others of its subpage that are looked at. -/
def moves : AccessPattern → List (Int × Int)
  | .chess => [(-1, -1), (-1, 1), (1, -1), (1, 1)]
  | .interleave => [(0, -2), (0, -1), (0, 1), (0, 2)]

variable {c : Calibration} {pattern : AccessPattern} {i j : Pixel}

theorem sources_interleave_cases (h : j ∈ sources c .interleave i) :
    (1 ≤ i.column ∧ j = i.left 1) ∨ (i.column ≤ 30 ∧ j = i.right 1) ∨
      (2 ≤ i.column ∧ i.column ≤ 29 ∧ (j = i.left 2 ∨ j = i.right 2) ∧ c.bad j = false) := by
  have column := i.column_lt
  unfold sources at h
  by_cases first : i.column = 0
  · rw [if_pos first, List.mem_singleton] at h
    exact .inr (.inl ⟨by omega, h⟩)
  by_cases last : i.column = 31
  · rw [if_neg first, if_pos last, List.mem_singleton] at h
    exact .inl ⟨by omega, h⟩
  by_cases averaged : i.column = 1 ∨ i.column = 30 ∨ c.bad (i.left 2) ∨ c.bad (i.right 2)
  · simp only [if_neg first, if_neg last, if_pos averaged, List.mem_cons, List.not_mem_nil,
      or_false] at h
    rcases h with h | h
    · exact .inl ⟨by omega, h⟩
    · exact .inr (.inl ⟨by omega, h⟩)
  · simp only [if_neg first, if_neg last, if_neg averaged, List.mem_cons, List.not_mem_nil,
      or_false] at h
    simp only [not_or, Bool.not_eq_true] at averaged
    obtain ⟨second, lastButOne, goodLeft, goodRight⟩ := averaged
    rcases h with rfl | h | h | rfl
    · exact .inr (.inr ⟨by omega, by omega, .inl rfl, goodLeft⟩)
    · exact .inl ⟨by omega, h⟩
    · exact .inr (.inl ⟨by omega, h⟩)
    · exact .inr (.inr ⟨by omega, by omega, .inr rfl, goodRight⟩)

theorem exists_move_of_mem_sources (h : j ∈ sources c pattern i) :
    ∃ move ∈ moves pattern,
      (j.row : Int) = i.row + move.1 ∧ (j.column : Int) = i.column + move.2 := by
  cases pattern with
  | chess =>
    obtain ⟨down, right, hd, hr, place⟩ := Pixel.mem_diagonals h
    refine ⟨(down, right), ?_, place⟩
    rcases hd with rfl | rfl <;> rcases hr with rfl | rfl <;> decide
  | interleave =>
    have left {n : Nat} (hn : n ≤ i.column) :
        ((i.left n).row : Int) = i.row + 0 ∧ ((i.left n).column : Int) = i.column + -n := by
      have place := i.place_left hn
      omega
    have right {n : Nat} (hn : i.column + n < 32) :
        ((i.right n).row : Int) = i.row + 0 ∧ ((i.right n).column : Int) = i.column + n := by
      have place := i.place_right hn
      omega
    rcases sources_interleave_cases h with ⟨inside, rfl⟩ | ⟨inside, rfl⟩ |
      ⟨fromLeft, fromRight, rfl | rfl, -⟩
    · exact ⟨(0, -1), by decide, left inside⟩
    · exact ⟨(0, 1), by decide, right (by omega)⟩
    · exact ⟨(0, -2), by decide, left fromLeft⟩
    · exact ⟨(0, 2), by decide, right (by omega)⟩

theorem row_of_mem_sources (h : j ∈ sources c .interleave i) : j.row = i.row := by
  obtain ⟨move, hm, row, -⟩ := exists_move_of_mem_sources h
  have level : move.1 = 0 := (show ∀ move ∈ moves .interleave, move.1 = 0 by decide) move hm
  omega

/-- A move along a diagonal changes both parities, and their sum keeps its own. -/
theorem subpageOf_of_mem_sources (h : j ∈ sources c pattern i) :
    pattern.subpageOf j = pattern.subpageOf i := by
  cases pattern with
  | chess =>
    obtain ⟨down, right, hd, hr, row, column⟩ := Pixel.mem_diagonals h
    have hi := i.val_eq
    have hj := j.val_eq
    change Subpage.ofParity (j.row + j.val) = Subpage.ofParity (i.row + i.val)
    exact Subpage.ofParity_congr (by omega)
  | interleave => exact congrArg Subpage.ofParity (row_of_mem_sources h)

variable {α : Type} [Scalar α] {u v : Image α}

theorem chessReplacement_congr (h : ∀ j ∈ i.diagonals, u.get j = v.get j) :
    chessReplacement u i = chessReplacement v i := by
  have same : i.diagonals.map u.get = i.diagonals.map v.get := List.map_congr_left h
  have neighbours : i.diagonals.map v.get ≠ [] := mt List.map_eq_nil_iff.mp i.diagonals_ne_nil
  obtain ⟨m, hm⟩ := exists_median? neighbours
  simp only [chessReplacement, same, hm, Option.getD_some]

theorem replacement_congr_sources (h : ∀ j ∈ sources c pattern i, u.get j = v.get j) :
    replacement c pattern u i = replacement c pattern v i := by
  cases pattern with
  | chess => exact chessReplacement_congr h
  | interleave =>
    simp only [replacement, interleaveReplacement]
    unfold sources at h
    -- What lies outside of the row is computed with and not used, so each column has its own case.
    by_cases first : i.column = 0
    · simp only [if_pos first, List.forall_mem_singleton] at h
      simp only [if_pos first, h]
    by_cases last : i.column = 31
    · simp only [if_neg first, if_pos last, List.forall_mem_singleton] at h
      simp only [if_neg first, if_pos last, h]
    by_cases averaged : i.column = 1 ∨ i.column = 30 ∨ c.bad (i.left 2) ∨ c.bad (i.right 2)
    · simp only [if_neg first, if_neg last, if_pos averaged, List.forall_mem_cons] at h
      simp only [if_neg first, if_neg last, if_pos averaged, h]
    · simp only [if_neg first, if_neg last, if_neg averaged, List.forall_mem_cons] at h
      simp only [if_neg first, if_neg last, if_neg averaged, h]

end Thermopile
