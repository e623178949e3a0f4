import Thermopile.Proofs.Calibration.RangeCorrection
import Thermopile.Proofs.Calibration.Totality
import Thermopile.Proofs.Decoder.Validation
import Thermopile.Proofs.Double.Order

namespace Thermopile

open Double

theorem rangeOf?_eq_some_iff {α : Type} [Scalar α] (c : Calibration) (t : α) (x : Fin 4) :
    rangeOf? c t = some x ↔ Scalar.le (c.corner x) t = true ∧
      ∀ y > x, Scalar.le (c.corner y) t = false := by
  have descending : (List.finRange 4).reverse.Pairwise (· > ·) :=
    List.pairwise_reverse.mpr (List.pairwise_lt_finRange 4)
  have all (y : Fin 4) : y ∈ (List.finRange 4).reverse :=
    List.mem_reverse.mpr (List.mem_finRange y)
  simp only [rangeOf?, find?_eq_some_iff_first descending, all, true_and, forall_const]

namespace Calibration

/-- The corners ascend, and are small enough to be doubles. -/
structure Ascending (c : Calibration) : Prop where
  mono : Monotone c.corners.get
  small : ∀ x, (c.corners.get x).natAbs < 2 ^ 53

theorem ascending_ofImage (e : EepromImage) : (ofImage e).Ascending where
  mono := by
    obtain ⟨step, second, third, -, -, -, corners⟩ := exists_corners e
    rw [corners]
    refine Fin.monotone_iff_le_succ.mpr fun x => ?_
    match x with
    | 0 => exact (by decide : (-40 : Int) ≤ 0)
    | 1 => exact Int.natCast_nonneg _
    | 2 => exact Int.ofNat_le.mpr (Nat.le_add_left _ _)
  small x := by
    have bound := natAbs_corner_le (e.read .cornerTemperatures) ((ofImage e).corners.get x)
      (Vector.mem_toList_iff.mpr (Vector.getElem_mem x.isLt))
    omega

variable {c : Calibration} (h : c.Ascending)
include h

theorem Ascending.value?_corner (x : Fin 4) :
    value? (c.corner x : Float) = some (c.corners.get x : Rat) := value?_ofInt (h.small x)

theorem Ascending.place?_corner (x : Fin 4) :
    place? (c.corner x : Float) = some ((c.corners.get x : Rat) : WithTop Rat) :=
  place?_of_value? (h.value?_corner x)

end Calibration

open Calibration

variable {c : Calibration} (h : c.Ascending)
include h

theorem clamped_eq (basic : Float) : clamped c basic =
    if basic.isNaN ∨ basic < c.corner lowestRange then c.corner lowestRange else basic := by
  unfold clamped
  by_cases undefined : basic.isNaN = true
  · have outside : ¬Scalar.le (c.corner lowestRange) basic = true := fun le =>
      not_le_of_isNaN undefined (of_decide_eq_true le)
    rw [if_neg outside, if_pos (.inl undefined)]
  · obtain ⟨p, place⟩ := exists_place? undefined
    have le : Scalar.le (c.corner lowestRange) basic = true ↔ ¬basic < c.corner lowestRange :=
      decide_eq_true_iff.trans (not_lt_iff place (h.place?_corner lowestRange)).symm
    by_cases low : basic < c.corner lowestRange
    · rw [if_neg (mt le.mp (not_not.mpr low)), if_pos (.inr low)]
    · rw [if_pos (le.mpr low), if_neg (not_or.mpr ⟨undefined, low⟩)]

theorem exists_place?_clamped (basic : Float) : ∃ p, place? (clamped c basic) = some p ∧
    ((c.corners.get lowestRange : Rat) : WithTop Rat) ≤ p := by
  have first := h.place?_corner lowestRange
  rw [clamped_eq h]
  split
  · exact ⟨_, first, le_refl _⟩
  · rename_i inside
    rw [not_or] at inside
    obtain ⟨p, place⟩ := exists_place? inside.1
    exact ⟨p, place, (le_iff first place).mp ((not_lt_iff place first).mp inside.2)⟩

theorem exists_rangeOf? {t : Float} {p : WithBot (WithTop Rat)} (place : place? t = some p)
    (low : ((c.corners.get lowestRange : Rat) : WithTop Rat) ≤ p) :
    ∃ x, rangeOf? c t = some x ∧ ∀ y, y ≤ x ↔ ((c.corners.get y : Rat) : WithTop Rat) ≤ p := by
  have le (y : Fin 4) : Scalar.le (c.corner y) t = true ↔
      ((c.corners.get y : Rat) : WithTop Rat) ≤ p :=
    decide_eq_true_iff.trans (le_iff (h.place?_corner y) place)
  cases found : rangeOf? c t with
  | none =>
    have outside := List.find?_eq_none.mp found lowestRange
      (List.mem_reverse.mpr (List.mem_finRange _))
    exact absurd ((le lowestRange).mpr low) outside
  | some x =>
    obtain ⟨begins, ends⟩ := (rangeOf?_eq_some_iff c t x).mp found
    refine ⟨x, rfl, fun y => ⟨fun hy => ?_, fun hy => ?_⟩⟩
    · have corner : (c.corners.get y : Rat) ≤ c.corners.get x := Int.cast_le.mpr (h.mono hy)
      exact (WithBot.coe_le_coe.mpr (WithTop.coe_le_coe.mpr corner)).trans ((le x).mp begins)
    · by_contra above
      exact Bool.false_ne_true ((ends y (not_le.mp above)).symm.trans ((le y).mpr hy))

omit h

/-- For every image of the EEPROM the corners ascend from -40 and 0. The temperature that selects a
range is the basic one, or the first corner if that is greater or the basic one undefined. The range
exists, so what `rangeTemperature` falls back on is never used; its corner and those before it are
not above the temperature, and those after it are. A higher temperature does not fall in a lower
range, and of ranges with one corner the highest is taken. -/
theorem ranges_partition (e : EepromImage) : ∃ (c : Calibration) (second third : Int),
    ofWords? e.toArray = .ok c ∧ c.corners = #v[-40, 0, second, third] ∧ 0 ≤ second ∧
    second ≤ third ∧ (∀ y, value? (c.corner y : Float) = some (c.corners.get y : Rat)) ∧
    ∀ basic : Float, ∃ x : Fin 4,
      clamped c basic = (if basic.isNaN ∨ basic < c.corner 0 then c.corner 0 else basic) ∧
      rangeOf? c (clamped c basic) = some x ∧
      (∀ y, (c.corner y ≤ clamped c basic ↔ y ≤ x) ∧ (clamped c basic < c.corner y ↔ x < y)) ∧
      (∀ y, c.corners.get y = c.corners.get x → y ≤ x) ∧
      (∀ (basic' : Float) (x' : Fin 4), rangeOf? c (clamped c basic') = some x' →
        clamped c basic ≤ clamped c basic' → x ≤ x') ∧
      ∀ alpha tar v : Float, rangeTemperature c alpha tar v basic =
        Radiometric.fourthRoot (v / (alpha * c.alphaCorrection x *
          (Scalar.one + c.sensitivitySlope x * (clamped c basic - c.corner x))) + tar) -
        zeroCelsius := by
  have h := ascending_ofImage e
  obtain ⟨step, second, third, -, -, -, corners⟩ := exists_corners e
  refine ⟨ofImage e, _, _, ofWords?_toArray e, corners, Int.natCast_nonneg _,
    Int.ofNat_le.mpr (Nat.le_add_left _ _), h.value?_corner, fun basic => ?_⟩
  obtain ⟨p, place, low⟩ := exists_place?_clamped h basic
  obtain ⟨x, range, bounds⟩ := exists_rangeOf? h place low
  refine ⟨x, clamped_eq h basic, range, fun y => ⟨?_, ?_⟩, fun y same => ?_,
    fun basic' x' range' le => ?_, fun alpha tar v => ?_⟩
  · rw [le_iff (h.place?_corner y) place, bounds]
  · rw [lt_iff place (h.place?_corner y), ← not_le, ← bounds, not_le]
  · rw [bounds, same, ← bounds]
  · obtain ⟨p', place', low'⟩ := exists_place?_clamped h basic'
    obtain ⟨x'', range'', bounds'⟩ := exists_rangeOf? h place' low'
    obtain rfl : x' = x'' := Option.some.inj (range'.symm.trans range'')
    rw [bounds']
    exact ((bounds x).mp le_rfl).trans ((le_iff place place').mp le)
  · rw [rangeTemperature]
    simp only [range, Option.getD_some]

end Thermopile
