import Mathlib.Data.List.FinRange
import Thermopile.Proofs.MachineInteger
import Thermopile.Proofs.Repair.Interior

namespace Thermopile

namespace Machine

variable {α β : Type}

def forward? (i n : Nat) : Option Nat := unsigned? 64 ((i : Int) + n)

def back? (i n : Nat) : Option Nat := unsigned? 64 ((i : Int) - n)

def assign? {n : Nat} (values : Vector α n) (i : Nat) (a : α) : Option (Vector α n) :=
  if h : i < n then some (values.set i a) else none

/-- A loop over the numbers of all pixels, in ascending order. -/
def eachPixel? (step : β → Nat → Option β) (b : β) : Option β :=
  (List.range pixelCount).foldlM step b

theorem forward?_eq {i n : Nat} (h : i + n < 2 ^ 64) : forward? i n = some (i + n) := by
  rw [forward?, ← Int.natCast_add]
  exact unsigned?_eq_some h

theorem back?_eq {i n : Nat} (inside : n ≤ i) (h : i < 2 ^ 64) : back? i n = some (i - n) := by
  rw [back?, ← Int.natCast_sub inside]
  exact unsigned?_eq_some (by omega)

theorem assign?_eq (values : Image α) (i : Pixel) (a : α) :
    assign? values i a = some (values.set i.val a i.isLt) := dif_pos i.isLt

theorem eachPixel?_eq {step : β → Nat → Option β} {f : β → Pixel → β}
    (h : ∀ b (i : Pixel), step b i = some (f b i)) (b : β) :
    eachPixel? step b = some ((List.finRange pixelCount).foldl f b) := by
  rw [eachPixel?, ← List.map_coe_finRange_eq_range, List.foldlM_map]
  simp only [h]
  exact List.foldlM_pure

end Machine

open Machine
open Interleave (averaged extrapolated replacement_interior)

namespace Pixel

theorem forward?_right {i : Pixel} {n : Nat} (h : i.column + n < 32) :
    forward? i n = some (i.right n).val := by
  have hi := i.isLt
  have place : i.val + n = (i.right n).val := by
    simp only [column, right, columnCount, pixelCount] at *
    omega
  rw [← place]
  exact forward?_eq (by simp only [pixelCount] at hi; omega)

theorem back?_left {i : Pixel} {n : Nat} (h : n ≤ i.column) :
    back? i n = some (i.left n).val := by
  have hi := i.isLt
  have inside : n ≤ i.val := by
    simp only [column, columnCount] at h
    omega
  exact back?_eq inside (by simp only [pixelCount] at hi; omega)

theorem isSome_at? (row column : Int) :
    (at? row column).isSome = decide (0 ≤ row ∧ row < 24 ∧ 0 ≤ column ∧ column < 32) := by
  unfold at?
  split
  · rename_i inside
    exact (decide_eq_true inside).symm
  · rename_i outside
    exact (decide_eq_false outside).symm

theorem length_diagonals (i : Pixel) :
    i.diagonals.length = (if i.row = 0 ∨ i.row = 23 then 1 else 2) *
      (if i.column = 0 ∨ i.column = 31 then 1 else 2) := by
  have hr := i.row_lt
  have hc := i.column_lt
  simp only [diagonals, List.length_filterMap_eq_countP, List.countP_cons, List.countP_nil,
    isSome_at?, decide_eq_true_eq]
  split_ifs <;> omega

theorem length_diagonals_cases (i : Pixel) : i.diagonals.length ∈ [1, 2, 4] := by
  rw [i.length_diagonals]
  split_ifs <;> decide

end Pixel

variable {α : Type} (c : Calibration) (values : Image α) {i : Pixel}

theorem get?_right {n : Nat} (h : i.column + n < 32) :
    (do values[(← forward? i n)]?) = some (values.get (i.right n)) := by
  rw [Pixel.forward?_right h, some_bind, getElem?_get]

theorem get?_left {n : Nat} (h : n ≤ i.column) :
    (do values[(← back? i n)]?) = some (values.get (i.left n)) := by
  rw [Pixel.back?_left h, some_bind, getElem?_get]

def bad? (i : Nat) : Option Bool := do
  if (← c.pixels[i]?).failed then return true
  return (← c.pixels[i]?).outlier

theorem bad?_eq (i : Pixel) : bad? c i = some (c.bad i) := by
  simp only [bad?, getElem?_get, some_bind, Calibration.bad, PixelCalibration.bad]
  cases (c.pixels.get i).failed <;> rfl

/-- The value of the neighbour in one direction joins the others, if it is in the image. -/
def collect? (row column : Nat) (found : List α) (move : Int × Int) : Option (List α) := do
  let row ← signed? 64 (row + move.1)
  let column ← signed? 64 (column + move.2)
  if 0 ≤ row ∧ row < rowCount ∧ 0 ≤ column ∧ column < columnCount then
    let start ← unsigned? 64 (row.toNat * columnCount : Nat)
    let value ← values[(← forward? start column.toNat)]?
    if found.length < 4 then some (found ++ [value]) else none
  else return found

theorem collect?_eq (i : Pixel) {found : List α} (room : found.length < 4) {move : Int × Int}
    (near : move.1.natAbs ≤ 1 ∧ move.2.natAbs ≤ 1) :
    collect? values i.row i.column found move =
      some (found ++ ((Pixel.at? (i.row + move.1) (i.column + move.2)).map values.get).toList) := by
  have hr := i.row_lt
  have hc := i.column_lt
  have row : signed? 64 (i.row + move.1) = some (i.row + move.1) := signed?_eq_some (by omega)
  have column : signed? 64 (i.column + move.2) = some (i.column + move.2) :=
    signed?_eq_some (by omega)
  simp only [collect?, row, column, some_bind, if_pos room]
  unfold Pixel.at?
  split
  · rename_i inside
    have start : unsigned? 64 (((i.row + move.1).toNat * columnCount : Nat) : Int) =
        some ((i.row + move.1).toNat * columnCount) :=
      unsigned?_eq_some (by simp only [columnCount]; omega)
    have place : (i.row + move.1).toNat * columnCount + (i.column + move.2).toNat < pixelCount := by
      simp only [rowCount, columnCount, pixelCount] at *
      omega
    have value := getElem?_get values ⟨_, place⟩
    rw [start, some_bind, forward?_eq (by simp only [pixelCount] at place; omega), some_bind,
      value, some_bind]
    rfl
  · rw [Option.map_none, Option.toList_none, List.append_nil, Option.pure_def]

theorem foldlM_collect? (i : Pixel) (moves : List (Int × Int))
    (near : ∀ move ∈ moves, move.1.natAbs ≤ 1 ∧ move.2.natAbs ≤ 1) (found : List α)
    (room : found.length + moves.length ≤ 4) :
    moves.foldlM (collect? values i.row i.column) found =
      some (found ++ (moves.filterMap fun move =>
        Pixel.at? (i.row + move.1) (i.column + move.2)).map values.get) := by
  -- On the moves, as each of them takes at most one of the places that are left.
  induction moves generalizing found with
  | nil => rw [List.filterMap_nil, List.map_nil, List.append_nil, List.foldlM_nil, Option.pure_def]
  | cons move rest ih =>
    rw [List.forall_mem_cons] at near
    rw [List.length_cons] at room
    rw [List.foldlM_cons, collect?_eq values i (by omega) near.1, some_bind, ih near.2,
      List.filterMap_cons]
    · cases Pixel.at? (i.row + move.1) (i.column + move.2) <;> simp
    · cases Pixel.at? (i.row + move.1) (i.column + move.2) <;> simp <;> omega

variable [Scalar α]

def middle? (found : List α) : Option α := do
  let sorted := found.mergeSort Scalar.sortsBefore
  let middle := sorted.length / 2
  if sorted.length % 2 = 0 then
    let below ← back? middle 1
    return mean (← sorted[below]?) (← sorted[middle]?)
  else sorted[middle]?

theorem middle?_eq {found : List α} (size : 0 < found.length) (room : found.length ≤ 4) :
    middle? found = median? found := by
  unfold middle? median?
  have length : (found.mergeSort Scalar.sortsBefore).length = found.length := by
    rw [List.length_mergeSort]
  generalize found.mergeSort Scalar.sortsBefore = sorted at length ⊢
  dsimp only
  split
  · have below : back? (sorted.length / 2) 1 = some (sorted.length / 2 - 1) :=
      back?_eq (by omega) (by omega)
    rw [below, some_bind]
    cases sorted[sorted.length / 2 - 1]? with
    | none => rfl
    | some a => cases sorted[sorted.length / 2]? <;> rfl
  · rfl

def chessReplacement? (i : Nat) : Option α := do
  middle? (← [(-1, -1), (-1, 1), (1, -1), (1, 1)].foldlM
    (collect? values (i / columnCount) (i % columnCount)) [])

theorem chessReplacement?_eq (i : Pixel) :
    chessReplacement? values i = some (chessReplacement values i) := by
  have collected : [(-1, -1), (-1, 1), (1, -1), (1, 1)].foldlM
      (collect? values i.row i.column) [] = some (i.diagonals.map values.get) :=
    foldlM_collect? values i _ (by decide) [] (Nat.le_refl 4)
  have neighbours : i.diagonals.map values.get ≠ [] := mt List.map_eq_nil_iff.mp i.diagonals_ne_nil
  have room : (i.diagonals.map values.get).length ≤ 4 := by
    rw [List.length_map]
    exact List.length_filterMap_le _ _
  obtain ⟨m, median⟩ := exists_median? neighbours
  have middle := middle?_eq (List.length_pos_iff.mpr neighbours) room
  unfold chessReplacement? chessReplacement
  rw [show i.val / columnCount = i.row from rfl, show i.val % columnCount = i.column from rfl,
    collected, some_bind, middle, median]
  rfl

def averaged? (i : Nat) : Option α := do
  return mean (← values[(← back? i 1)]?) (← values[(← forward? i 1)]?)

theorem averaged?_eq (inside : 1 ≤ i.column ∧ i.column ≤ 30) :
    averaged? values i = some (averaged values i) := by
  rw [averaged?, Pixel.back?_left inside.1, Pixel.forward?_right (by omega)]
  simp only [some_bind, getElem?_get, Option.pure_def]
  rfl

def extrapolated? (i : Nat) : Option α := do
  let rightGradient := (← values[(← forward? i 1)]?) - (← values[(← forward? i 2)]?)
  let leftGradient := (← values[(← back? i 1)]?) - (← values[(← back? i 2)]?)
  if Scalar.lt (Scalar.abs leftGradient) (Scalar.abs rightGradient) then
    return (← values[(← back? i 1)]?) + leftGradient
  else
    return (← values[(← forward? i 1)]?) + rightGradient

theorem extrapolated?_eq (inside : 2 ≤ i.column ∧ i.column ≤ 29) :
    extrapolated? values i = some (extrapolated values i) := by
  have left {n : Nat} (h : n ≤ 2) : back? i n = some (i.left n).val := Pixel.back?_left (by omega)
  have right {n : Nat} (h : n ≤ 2) : forward? i n = some (i.right n).val :=
    Pixel.forward?_right (by omega)
  simp only [extrapolated?, left, right, Nat.le_refl, Nat.one_le_ofNat, some_bind, getElem?_get,
    Option.pure_def, extrapolated]
  split <;> rfl

def interleaveReplacement? (i : Nat) : Option α := do
  let column := i % columnCount
  if column = 0 then values[(← forward? i 1)]?
  else if column = 1 ∨ column = 30 then averaged? values i
  else if column = 31 then values[(← back? i 1)]?
  else if ← bad? c (← back? i 2) then averaged? values i
  else if ← bad? c (← forward? i 2) then averaged? values i
  else extrapolated? values i

theorem interleaveReplacement?_eq (i : Pixel) :
    interleaveReplacement? c values i = some (replacement c .interleave values i) := by
  have column := i.column_lt
  unfold interleaveReplacement?
  rw [show i.val % columnCount = i.column from rfl]
  by_cases inside : 2 ≤ i.column ∧ i.column ≤ 29
  · have first : i.column ≠ 0 := by omega
    have last : i.column ≠ 31 := by omega
    have beside : ¬(i.column = 1 ∨ i.column = 30) := by omega
    simp only [if_neg first, if_neg last, if_neg beside, Pixel.back?_left inside.1,
      Pixel.forward?_right (show i.column + 2 < 32 by omega), some_bind, bad?_eq,
      averaged?_eq values (show 1 ≤ i.column ∧ i.column ≤ 30 by omega),
      extrapolated?_eq values inside, replacement_interior c values inside]
    cases c.bad (i.left 2) <;> cases c.bad (i.right 2) <;> rfl
  · unfold replacement interleaveReplacement
    by_cases first : i.column = 0
    · simp only [if_pos first]
      exact get?_right values (by omega)
    by_cases last : i.column = 31
    · have beside : ¬(i.column = 1 ∨ i.column = 30) := by omega
      simp only [if_neg first, if_neg beside, if_pos last]
      exact get?_left values (by omega)
    · have beside : i.column = 1 ∨ i.column = 30 := by omega
      simp only [if_neg first, if_neg last, ← or_assoc, beside, true_or, if_true]
      exact averaged?_eq values (by omega)

def replacement? (pattern : AccessPattern) (i : Nat) : Option α :=
  match pattern with
  | .chess => chessReplacement? values i
  | .interleave => interleaveReplacement? c values i

def repairAt? (pattern : AccessPattern) (p : Subpage) (i : Nat) : Option (Image α) := do
  if (← bad? c i) && pattern.subpageOf i = p then
    assign? values i (← replacement? c values pattern i)
  else return values

theorem repairAt?_eq (pattern : AccessPattern) (p : Subpage) (i : Pixel) :
    repairAt? c values pattern p i =
      some (if (c.bad i && decide (pattern.subpageOf i = p)) = true then
        replaceAt c pattern values i else values) := by
  have replaced : replacement? c values pattern i = some (replacement c pattern values i) := by
    cases pattern with
    | chess => exact chessReplacement?_eq values i
    | interleave => exact interleaveReplacement?_eq c values i
  simp only [repairAt?, bad?_eq, replaced, some_bind, assign?_eq, Option.pure_def]
  split <;> rfl

def repair? (pattern : AccessPattern) (p : Subpage) : Option (Image α) :=
  eachPixel? (fun values i => repairAt? c values pattern p i) values

theorem repair?_eq (pattern : AccessPattern) (p : Subpage) :
    repair? c values pattern p = some (repair c pattern p values) := by
  rw [repair?, eachPixel?_eq fun values i => repairAt?_eq c values pattern p i, repair_eq_foldl,
    badPixels, AccessPattern.pixels, List.filter_filter, List.foldl_filter]

end Thermopile
