import Thermopile.Datasheet
import Thermopile.Proofs.Calibration.Pixels
import Thermopile.Proofs.Repair.Order

namespace Thermopile.Interleave

open Calibration (ofImage get_pixels)

variable {α : Type} [Scalar α]

def window (i : Pixel) : List Pixel := [i.left 2, i.left 1, i.right 1, i.right 2]

def averaged (values : Image α) (i : Pixel) : α :=
  mean (values.get (i.left 1)) (values.get (i.right 1))

def extrapolated (values : Image α) (i : Pixel) : α :=
  let leftGradient := values.get (i.left 1) - values.get (i.left 2)
  let rightGradient := values.get (i.right 1) - values.get (i.right 2)
  if Scalar.lt (Scalar.abs leftGradient) (Scalar.abs rightGradient) then
    values.get (i.left 1) + leftGradient
  else values.get (i.right 1) + rightGradient

variable (c : Calibration) (p : Subpage) (values : Image α) {i : Pixel}

/-- Repair takes the mean of the neighbours if one of the two pixels on either side is bad, and
extrapolates otherwise. -/
def AvoidsBad (i : Pixel) : Prop :=
  (repair c .interleave p values).get i =
    if ∃ j ∈ window i, c.bad j then averaged (repairUntil c .interleave p values i) i
    else extrapolated (repairUntil c .interleave p values i) i

variable (inside : 2 ≤ i.column ∧ i.column ≤ 29)
include inside

theorem replacement_interior :
    replacement c .interleave values i =
      if c.bad (i.left 2) ∨ c.bad (i.right 2) then averaged values i
      else extrapolated values i := by
  have first : i.column ≠ 0 := by omega
  have last : i.column ≠ 31 := by omega
  have second : i.column ≠ 1 := by omega
  have lastButOne : i.column ≠ 30 := by omega
  simp only [replacement, interleaveReplacement, first, last, second, lastButOne, if_false,
    false_or]
  rfl

variable {c p} (bad : c.bad i = true) (captured : AccessPattern.interleave.subpageOf i = p)
include bad captured

/-- The replacement of a bad pixel in the interior of a row, from the finished values before it and
the measured ones after it. Where a bad pixel right beside it comes with one two columns away, no
bad pixel is extrapolated through. -/
theorem repairs_interior :
    (∀ j < i, (repairUntil c .interleave p values i).get j =
      (repair c .interleave p values).get j) ∧
    (∀ j, i ≤ j → (repairUntil c .interleave p values i).get j = values.get j) ∧
    ((repair c .interleave p values).get i =
      if c.bad (i.left 2) ∨ c.bad (i.right 2) then
        averaged (repairUntil c .interleave p values i) i
      else extrapolated (repairUntil c .interleave p values i) i) ∧
    ((c.bad (i.left 1) ∨ c.bad (i.right 1) → c.bad (i.left 2) ∨ c.bad (i.right 2)) →
      AvoidsBad c p values i) := by
  have replaced : (repair c .interleave p values).get i =
      if c.bad (i.left 2) ∨ c.bad (i.right 2) then
        averaged (repairUntil c .interleave p values i) i
      else extrapolated (repairUntil c .interleave p values i) i := by
    rw [get_repair_of_bad values bad captured]
    exact replacement_interior c _ inside
  refine ⟨fun j hj => get_repairUntil_of_lt values bad captured hj,
    fun j hj => get_repairUntil_of_le values hj, replaced, fun beside => ?_⟩
  have decides : (∃ j ∈ window i, c.bad j) ↔ c.bad (i.left 2) ∨ c.bad (i.right 2) := by
    simp only [window, List.mem_cons, List.not_mem_nil, or_false, exists_eq_or_imp,
      exists_eq_left]
    constructor
    · rintro (far | near | near | far)
      · exact .inl far
      · exact beside (.inl near)
      · exact beside (.inr near)
      · exact .inr far
    · rintro (far | far)
      · exact .inl far
      · exact .inr (.inr (.inr far))
  rw [AvoidsBad, replaced]
  exact if_congr decides.symm rfl rfl

omit inside bad captured

/-- The worked example of the datasheet, with the words of some pixels erased. -/
def erased (pixels : List Nat) : EepromImage :=
  Vector.ofFn fun k => if k.val ∈ pixels.map (64 + ·) then 0 else Datasheet.eeprom.get k

theorem pixelWord_erased (pixels : List Nat) (i : Pixel) :
    (erased pixels).pixelWord i = if i.val ∈ pixels then 0 else 0x08A0 := by
  have inside : 64 + i.val < eepromSize := Nat.add_lt_add_left i.isLt 64
  have past : Datasheet.eepromHeader[64 + i.val]? = none :=
    Array.getElem?_eq_none (Nat.le_add_right 64 _)
  have kept : Datasheet.eeprom.get ⟨64 + i.val, inside⟩ =
      Datasheet.eepromHeader.getD (64 + i.val) 0x08A0 := Vector.getElem_ofFn inside
  have word : (erased pixels).pixelWord i = if 64 + i.val ∈ pixels.map (64 + ·) then 0
      else Datasheet.eeprom.get ⟨64 + i.val, inside⟩ := Vector.getElem_ofFn inside
  have member : 64 + i.val ∈ pixels.map (64 + ·) ↔ i.val ∈ pixels := by simp
  rw [word, kept, Array.getD_eq_getD_getElem?, past]
  exact if_congr member rfl rfl

theorem bad_erased (pixels : List Nat) (i : Pixel) :
    (ofImage (erased pixels)).bad i = decide (i.val ∈ pixels) := by
  have flags : (ofImage (erased pixels)).bad i =
      ((erased pixels).pixelWord i == 0 || ((erased pixels).pixelWord i).bit 0) := by
    rw [Calibration.bad, get_pixels]
    rfl
  rw [flags, pixelWord_erased]
  by_cases h : i.val ∈ pixels
  · rw [if_pos h, decide_eq_true h]
    rfl
  · rw [if_neg h, decide_eq_false h]
    rfl

def squares : Image Float := Vector.ofFn fun i => Float.ofInt (i.val * i.val : Nat)

/-- Only bad pixels before `i` have changed when it is the turn of `i`. -/
theorem get_repairUntil_squares (pixels : List Nat) {i j : Pixel} (hi : i.val ∈ pixels)
    (captured : AccessPattern.interleave.subpageOf i = .zero) (hj : i ≤ j ∨ j.val ∉ pixels) :
    (repairUntil (ofImage (erased pixels)) .interleave .zero squares i).get j =
      Float.ofInt (j.val * j.val : Nat) := by
  have measured : squares.get j = Float.ofInt (j.val * j.val : Nat) := Vector.getElem_ofFn j.isLt
  rw [← measured]
  by_cases before : j < i
  · have good : (ofImage (erased pixels)).bad j = false :=
      (bad_erased pixels j).trans (decide_eq_false (hj.resolve_left (Fin.not_le.mpr before)))
    have bad := (bad_erased pixels i).trans (decide_eq_true hi)
    rw [get_repairUntil_of_lt squares bad captured before]
    exact get_repair_of_good _ _ _ _ fun h => by simp [good] at h
  · exact get_repairUntil_of_le squares (Fin.not_lt.mp before)

/-- With pixels 10, 11 and 12 bad, pixel 10 becomes the mean of its neighbours. -/
theorem repairs_interior_three_erased :
    let c := ofImage (erased [10, 11, 12])
    c.bad 10 = true ∧ c.bad 11 = true ∧ c.bad 12 = true ∧
      (repair c .interleave .zero squares).get 10 = 101 ∧ AvoidsBad c .zero squares 10 := by
  intro c
  have bad (i : Pixel) : c.bad i = decide (i.val ∈ [10, 11, 12]) := bad_erased _ i
  obtain ⟨-, -, replaced, avoids⟩ := repairs_interior squares (i := 10) (by decide)
    (bad 10) (show _ = Subpage.zero by decide)
  refine ⟨bad 10, bad 11, bad 12, ?_, avoids fun _ => .inr (bad 12)⟩
  have left := get_repairUntil_squares [10, 11, 12] (i := 10) (j := 9) (by decide) (by decide)
    (by decide)
  have right := get_repairUntil_squares [10, 11, 12] (i := 10) (j := 11) (by decide) (by decide)
    (by decide)
  rw [replaced, if_pos (.inr (bad 12))]
  change mean ((repairUntil c .interleave .zero squares 10).get 9)
    ((repairUntil c .interleave .zero squares 10).get 11) = 101
  rw [left, right]
  decide

/-- With pixels 10 and 11 bad, pixel 10 continues from pixels 8 and 9. -/
theorem extrapolates_beside_bad :
    ¬∀ i : Pixel, (ofImage (erased [10, 11])).bad i = true →
      AccessPattern.interleave.subpageOf i = .zero → 2 ≤ i.column ∧ i.column ≤ 29 →
        AvoidsBad (ofImage (erased [10, 11])) .zero squares i := by
  intro h
  have flag (i : Pixel) : (ofImage (erased [10, 11])).bad i = decide (i.val ∈ [10, 11]) :=
    bad_erased _ i
  have captured : AccessPattern.interleave.subpageOf (10 : Pixel) = .zero := by decide
  have inside : 2 ≤ (10 : Pixel).column ∧ (10 : Pixel).column ≤ 29 := by decide
  have far : ¬((ofImage (erased [10, 11])).bad (Pixel.left 10 2) = true ∨
      (ofImage (erased [10, 11])).bad (Pixel.right 10 2) = true) := by
    rw [flag, flag]
    decide
  have avoids := h 10 (flag 10) captured inside
  rw [AvoidsBad, get_repair_of_bad squares (flag 10) captured, replacement_interior _ _ inside,
    if_neg far, if_pos ⟨11, by decide, flag 11⟩] at avoids
  have current (j : Pixel) := get_repairUntil_squares [10, 11] (i := 10) (j := j) (by decide)
    captured
  simp only [extrapolated, averaged, current (Pixel.left 10 2) (.inr (by decide)),
    current (Pixel.left 10 1) (.inr (by decide)), current (Pixel.right 10 1) (.inl (by decide)),
    current (Pixel.right 10 2) (.inl (by decide))] at avoids
  revert avoids
  decide

end Thermopile.Interleave
