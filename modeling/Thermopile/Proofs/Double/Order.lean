import Mathlib.Order.Compare
import Mathlib.Order.WithBot
import Thermopile.Proofs.Binary

namespace Thermopile.Double

open Float.Model Float.Model.UnpackedFloat

variable {m : Nat} {e : Int} {u v : UnpackedFloat}

theorem Canonical.normalized (h : Canonical m e) : Binary.Normalized Format.binary64 m e :=
  ⟨h.pos, h.mantissa_lt, h.exponent_ge, h.leading⟩

theorem Stands.denotes {q : Rat} (h : Stands u q) : Binary.Denotes Format.binary64 u q := by
  cases h with
  | zero s => exact .zero s
  | finite s hc => exact .finite s hc.normalized

/-- The place of an unpacked double on the line of numbers and infinities. -/
inductive Placed : UnpackedFloat → WithBot (WithTop Rat) → Prop
  | number {u : UnpackedFloat} {q : Rat} (h : Stands u q) : Placed u (q : WithTop Rat)
  | top : Placed (.infinity .positive) (⊤ : WithTop Rat)
  | bot : Placed (.infinity .negative) ⊥

theorem Placed.exists_compare {p q : WithBot (WithTop Rat)} (hu : Placed u p) (hv : Placed v q) :
    ∃ o, u.compare v = some o ∧ o.Compares p q := by
  have below {u : UnpackedFloat} {q : Rat} (h : Stands u q) :
      u.compare (.infinity .positive) = some .lt ∧ u.compare (.infinity .negative) = some .gt ∧
      UnpackedFloat.compare (.infinity .positive) u = some .gt ∧
      UnpackedFloat.compare (.infinity .negative) u = some .lt := by
    cases h <;> exact ⟨rfl, rfl, rfl, rfl⟩
  cases hu with
  | @number u p h =>
    cases hv with
    | @number v q h' =>
      obtain ⟨o, compare, order⟩ := h.denotes.exists_compare h'.denotes
      refine ⟨o, compare, ?_⟩
      cases o with
      | lt => exact WithBot.coe_lt_coe.mpr (WithTop.coe_lt_coe.mpr order)
      | eq => exact congrArg (fun r : Rat => ((r : WithTop Rat) : WithBot (WithTop Rat))) order
      | gt => exact WithBot.coe_lt_coe.mpr (WithTop.coe_lt_coe.mpr order)
    | top => exact ⟨.lt, (below h).1, WithBot.coe_lt_coe.mpr (WithTop.coe_lt_top p)⟩
    | bot => exact ⟨.gt, (below h).2.1, WithBot.bot_lt_coe _⟩
  | top =>
    cases hv with
    | @number v q h => exact ⟨.gt, (below h).2.2.1, WithBot.coe_lt_coe.mpr (WithTop.coe_lt_top q)⟩
    | top => exact ⟨.eq, rfl, rfl⟩
    | bot => exact ⟨.gt, rfl, WithBot.bot_lt_coe _⟩
  | bot =>
    cases hv with
    | number h => exact ⟨.lt, (below h).2.2.2, WithBot.bot_lt_coe _⟩
    | top => exact ⟨.lt, rfl, WithBot.bot_lt_coe _⟩
    | bot => exact ⟨.eq, rfl, rfl⟩

def place? (x : Float) : Option (WithBot (WithTop Rat)) :=
  match x.toModel.unpack with
  | .zero _ => some ((0 : Rat) : WithTop Rat)
  | .finite s m e _ => some ((s.apply m * 2 ^ e : Rat) : WithTop Rat)
  | .infinity .positive => some (⊤ : WithTop Rat)
  | .infinity .negative => some ⊥
  | .notANumber => none

variable {x y : Float} {p q : WithBot (WithTop Rat)}

theorem placed_of_place? (h : place? x = some p) : Placed x.toModel.unpack p := by
  unfold place? at h
  cases hx : x.toModel.unpack with
  | zero s =>
    rw [hx] at h
    obtain rfl := Option.some.inj h
    exact .number (.zero s)
  | finite s m e hm =>
    rw [hx] at h
    obtain rfl := Option.some.inj h
    exact .number (.finite s (canonical_of_unpack hx))
  | infinity s =>
    rw [hx] at h
    cases s with
    | positive => obtain rfl := Option.some.inj h; exact .top
    | negative => obtain rfl := Option.some.inj h; exact .bot
  | notANumber => rw [hx] at h; cases h

theorem place?_of_value? {r : Rat} (h : value? x = some r) : place? x = some (r : WithTop Rat) := by
  have stands := value?_eq_some_iff.mp h
  unfold place?
  generalize x.toModel.unpack = u at stands
  cases stands with
  | zero s => rfl
  | finite s hc => rfl

theorem place?_eq_none_iff : place? x = none ↔ x.isNaN = true := by
  change _ ↔ x.toModel.unpack.isNaN = true
  unfold place?
  cases x.toModel.unpack with
  | infinity s => cases s <;> exact iff_of_false (Option.some_ne_none _) Bool.false_ne_true
  | notANumber => exact iff_of_true rfl rfl
  | zero | finite => exact iff_of_false (Option.some_ne_none _) Bool.false_ne_true

theorem exists_place? (h : ¬x.isNaN = true) : ∃ p, place? x = some p :=
  Option.ne_none_iff_exists'.mp (mt place?_eq_none_iff.mp h)

theorem numbers_of_le (h : x ≤ y) : ¬x.isNaN = true ∧ ¬y.isNaN = true := by
  change Float.le x y = true at h
  rw [Float.le, decide_eq_true_iff] at h
  change x.toModel.unpack.le y.toModel.unpack = true at h
  change ¬x.toModel.unpack.isNaN = true ∧ ¬y.toModel.unpack.isNaN = true
  generalize x.toModel.unpack = u, y.toModel.unpack = v at h
  cases u with
  | notANumber => cases h
  | zero | finite | infinity =>
    cases v with
    | notANumber => cases h
    | zero | finite | infinity => exact ⟨Bool.false_ne_true, Bool.false_ne_true⟩

theorem not_le_of_isNaN (h : y.isNaN = true) : ¬x ≤ y := fun le => (numbers_of_le le).2 h

section
variable (hx : place? x = some p) (hy : place? y = some q)
include hx hy

theorem exists_compare_place : ∃ o, x.toModel.unpack.compare y.toModel.unpack = some o ∧
    o.Compares p q :=
  (placed_of_place? hx).exists_compare (placed_of_place? hy)

theorem le_iff : x ≤ y ↔ p ≤ q := by
  rw [← Binary.le_iff_of_compares (exists_compare_place hx hy)]
  change Float.le x y = true ↔ _
  exact decide_eq_true_iff

theorem lt_iff : x < y ↔ p < q := by
  rw [← Binary.lt_iff_of_compares (exists_compare_place hx hy)]
  change Float.lt x y = true ↔ _
  exact decide_eq_true_iff

theorem not_lt_iff : ¬x < y ↔ y ≤ x := by
  rw [lt_iff hx hy, le_iff hy hx, not_lt]

theorem beq_iff_place : (x == y) = true ↔ p = q :=
  Binary.beq_iff_of_compares (exists_compare_place hx hy)

end

theorem le_iff_exists_places : x ≤ y ↔ ∃ p q, place? x = some p ∧ place? y = some q ∧ p ≤ q := by
  constructor
  · intro h
    obtain ⟨numberX, numberY⟩ := numbers_of_le h
    obtain ⟨p, hp⟩ := exists_place? numberX
    obtain ⟨q, hq⟩ := exists_place? numberY
    exact ⟨p, q, hp, hq, (le_iff hp hq).mp h⟩
  · rintro ⟨p, q, hp, hq, h⟩
    exact (le_iff hp hq).mpr h

theorem le_le_trans {z : Float} (hxy : x ≤ y) (hyz : y ≤ z) : x ≤ z := by
  obtain ⟨p, q, hp, hq, first⟩ := le_iff_exists_places.mp hxy
  obtain ⟨q', r, hq', hr, second⟩ := le_iff_exists_places.mp hyz
  obtain rfl : q = q' := Option.some.inj (hq.symm.trans hq')
  exact (le_iff hp hr).mpr (first.trans second)

theorem le_self_iff : x ≤ x ↔ ¬x.isNaN = true := by
  constructor
  · exact fun h => (numbers_of_le h).1
  · intro number
    obtain ⟨p, hp⟩ := exists_place? number
    exact (le_iff hp hp).mpr le_rfl

theorem beq_iff_le_le : (x == y) = true ↔ x ≤ y ∧ y ≤ x := by
  constructor
  · intro h
    obtain ⟨numberX, numberY, -⟩ := (beq_iff_ne_notANumber_and_eq _ _).mp h
    obtain ⟨p, hp⟩ := exists_place? (mt isNaN_iff.mp numberX)
    obtain ⟨q, hq⟩ := exists_place? (mt isNaN_iff.mp numberY)
    obtain rfl := (beq_iff_place hp hq).mp h
    exact ⟨(le_iff hp hq).mpr le_rfl, (le_iff hq hp).mpr le_rfl⟩
  · rintro ⟨hxy, hyx⟩
    obtain ⟨p, q, hp, hq, low⟩ := le_iff_exists_places.mp hxy
    exact (beq_iff_place hp hq).mpr (low.antisymm ((le_iff hq hp).mp hyx))

end Thermopile.Double
