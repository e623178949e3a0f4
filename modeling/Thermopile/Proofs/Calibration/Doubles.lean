import Thermopile.Proofs.Calibration.Pixels
import Thermopile.Proofs.Calibration.RangeCorrection

namespace Thermopile

theorem Pixel.exists_of (i : Pixel) : ∃ row column, i = .of row column := by
  have hi : i.val < 768 := i.isLt
  refine ⟨⟨i / 32, by change _ < 24; omega⟩, ⟨i % 32, by change _ < 32; omega⟩, Fin.ext ?_⟩
  exact (Nat.div_add_mod i.val 32).symm

theorem PixelCalibration.eq_of_parts {p q : PixelCalibration} (offset : p.offset = q.offset)
    (alpha : p.alpha = q.alpha) (kTa : p.kTa = q.kTa) (failed : p.failed = q.failed)
    (outlier : p.outlier = q.outlier) : p = q := by
  cases p
  cases q
  rw [mk.injEq]
  exact ⟨offset, alpha, kTa, failed, outlier⟩

namespace Calibration

open Double

def singles (c : Calibration) : List Dyadic :=
  [c.kVptat, c.kTptat, c.alphaPtat, c.ksTa, c.alphaCp.1, c.alphaCp.2, c.kVCp, c.kTaCp, c.tgc]

def dyadics (c : Calibration) : List Dyadic :=
  c.singles ++ ((List.finRange 4).map c.ksTo.get ++ ((List.finRange 4).map c.kV.get ++
    ((List.finRange 3).map c.interleave.get ++
      ((List.finRange pixelCount).map (fun i => (c.pixels.get i).alpha) ++
        (List.finRange pixelCount).map (fun i => (c.pixels.get i).kTa)))))

/-- All constants that a program keeps as doubles. -/
def doubles (c : Calibration) : List Float :=
  [Float.ofInt c.vPtat25, Float.ofInt c.gain] ++
    (c.dyadics.map Scalar.ofDyadic ++ (List.finRange 4).map c.alphaCorrection)

def marks (c : Calibration) : List (Int × Bool × Bool) :=
  (List.finRange pixelCount).map fun i =>
    ((c.pixels.get i).offset, (c.pixels.get i).failed, (c.pixels.get i).outlier)

/-- Equality of constants, of which doubles are compared as numbers. -/
def same (a b : Calibration) : Bool :=
  a.kVdd == b.kVdd && a.vdd25 == b.vdd25 && a.resolution == b.resolution &&
    a.corners == b.corners && a.offsetCp == b.offsetCp && a.marks == b.marks &&
    a.doubles == b.doubles

/-- All doubles are numbers, and all but the corrections of sensitivity are exact. -/
structure Numeric (c : Calibration) : Prop where
  vPtat25 : c.vPtat25.natAbs < 2 ^ 53
  gain : c.gain.natAbs < 2 ^ 53
  dyadics : ∀ d ∈ c.dyadics, Short d.toRat
  alphaCorrection (x : Fin 4) : ∃ q, q ≠ 0 ∧ value? (c.alphaCorrection x : Float) = some q

theorem Numeric.exists_value? {c : Calibration} (h : c.Numeric) :
    ∀ x ∈ c.doubles, ∃ q, value? x = some q := by
  simp only [doubles, List.forall_mem_append, List.forall_mem_cons, List.forall_mem_map]
  refine ⟨⟨⟨_, value?_ofInt h.vPtat25⟩, ⟨_, value?_ofInt h.gain⟩, List.forall_mem_nil _⟩, ?_, ?_⟩
  · intro d hd
    exact ⟨_, value?_floatOfDyadic (h.dyadics d hd)⟩
  · intro x _
    obtain ⟨q, -, hq⟩ := h.alphaCorrection x
    exact ⟨q, hq⟩

theorem eq_of_map_get {α : Type} {n : Nat} {u v : Vector α n}
    (h : (List.finRange n).map u.get = (List.finRange n).map v.get) : u = v := by
  apply Vector.ext
  intro k hk
  exact List.map_inj_left.mp h ⟨k, hk⟩ (List.mem_finRange _)

theorem eq_of_dyadics_eq {a b : Calibration} (h : a.dyadics = b.dyadics) :
    a.singles = b.singles ∧ a.ksTo = b.ksTo ∧ a.kV = b.kV ∧ a.interleave = b.interleave ∧
      ∀ i, (a.pixels.get i).alpha = (b.pixels.get i).alpha ∧
        (a.pixels.get i).kTa = (b.pixels.get i).kTa := by
  obtain ⟨singles, h⟩ := List.append_inj h rfl
  obtain ⟨ksTo, h⟩ := List.append_inj h (by simp only [List.length_map])
  obtain ⟨kV, h⟩ := List.append_inj h (by simp only [List.length_map])
  obtain ⟨interleave, h⟩ := List.append_inj h (by simp only [List.length_map])
  obtain ⟨alpha, kTa⟩ := List.append_inj h (by simp only [List.length_map])
  refine ⟨singles, eq_of_map_get ksTo, eq_of_map_get kV, eq_of_map_get interleave, fun i => ?_⟩
  exact ⟨List.map_inj_left.mp alpha i (List.mem_finRange i),
    List.map_inj_left.mp kTa i (List.mem_finRange i)⟩

theorem Numeric.values {c : Calibration} (h : c.Numeric) :
    c.doubles.map value? =
      [some (c.vPtat25 : Rat), some (c.gain : Rat)] ++ (c.dyadics.map (fun d => some d.toRat) ++
        (List.finRange 4).map (fun x => value? (c.alphaCorrection x))) := by
  have dyadics : (c.dyadics.map Scalar.ofDyadic).map value? =
      c.dyadics.map fun d => some d.toRat := by
    rw [List.map_map]
    exact List.map_congr_left fun d hd => value?_floatOfDyadic (h.dyadics d hd)
  simp only [doubles, List.map_append, List.map_cons, List.map_nil, dyadics, List.map_map,
    value?_ofInt h.vPtat25, value?_ofInt h.gain]
  rfl

theorem Numeric.constants_eq {a b : Calibration} (ha : a.Numeric) (hb : b.Numeric)
    (h : (a.doubles == b.doubles) = true) :
    a.vPtat25 = b.vPtat25 ∧ a.gain = b.gain ∧ a.dyadics = b.dyadics := by
  rw [list_beq_iff ha.exists_value? hb.exists_value?, ha.values, hb.values] at h
  have length : a.dyadics.length = b.dyadics.length := by
    simp only [Calibration.dyadics, singles, List.length_append, List.length_map, List.length_cons]
  obtain ⟨integers, h⟩ := List.append_inj h rfl
  obtain ⟨dyadics, -⟩ := List.append_inj h (by rw [List.length_map, List.length_map, length])
  simp only [List.cons.injEq, Option.some.injEq, Int.cast_inj, and_true] at integers
  have injective : Function.Injective fun d : Dyadic => some d.toRat := fun d d' hd =>
    Dyadic.toRat_inj.mp (Option.some.inj hd)
  exact ⟨integers.1, integers.2, List.map_injective_iff.mpr injective dyadics⟩

/-- Comparing doubles as numbers tells calibrations apart whenever they differ, and only then. -/
theorem Numeric.same_iff {a b : Calibration} (ha : a.Numeric) (hb : b.Numeric) :
    a.same b = true ↔ a = b := by
  constructor
  · intro h
    simp only [same, Bool.and_eq_true, beq_iff_eq] at h
    obtain ⟨⟨⟨⟨⟨⟨kVdd, vdd25⟩, resolution⟩, corners⟩, offsetCp⟩, marks⟩, doubles⟩ := h
    obtain ⟨vPtat25, gain, dyadics⟩ := ha.constants_eq hb doubles
    obtain ⟨singles, ksTo, kV, interleave, constants⟩ := eq_of_dyadics_eq dyadics
    have pixels : a.pixels = b.pixels := by
      apply eq_of_map_get
      apply List.map_congr_left
      intro i hi
      rw [Calibration.marks, Calibration.marks] at marks
      have mark := List.map_inj_left.mp marks i hi
      simp only [Prod.mk.injEq] at mark
      obtain ⟨offset, failed, outlier⟩ := mark
      obtain ⟨alpha, kTa⟩ := constants i
      exact PixelCalibration.eq_of_parts offset alpha kTa failed outlier
    simp only [Calibration.singles, List.cons.injEq, and_true] at singles
    obtain ⟨kVptat, kTptat, alphaPtat, ksTa, first, second, kVCp, kTaCp, tgc⟩ := singles
    cases a
    cases b
    rw [mk.injEq]
    exact ⟨kVdd, vdd25, resolution, kVptat, kTptat, vPtat25, alphaPtat, gain, ksTa, corners, ksTo,
      Prod.ext first second, offsetCp, kV, kVCp, kTaCp, tgc, interleave, pixels⟩
  · rintro rfl
    have doubles := (list_beq_iff ha.exists_value? ha.exists_value?).mpr rfl
    simp only [same, BEq.rfl, doubles, Bool.and_self]

variable (e : EepromImage)

theorem short_signed (w : Word) (offset : Nat) {width k : Nat} (hw : width ≤ 16) (hk : k < 53) :
    Short (scaled (w.signed offset width) k).toRat := by
  have hn := w.natAbs_signed_le offset width
  have hp : 2 ^ width ≤ 2 ^ 16 := Nat.pow_le_pow_right (by decide) hw
  exact short_scaled (by omega) hk

theorem short_alphaPtat : Short (ofImage e).alphaPtat.toRat := by
  have field := (e.read .offsetCompensation).unsigned_lt 12 4
  have eight : (8 : Dyadic).toRat = 8 := Dyadic.toRat_natCast 8
  change Short (scaled ((e.read .offsetCompensation).unsigned 12 4) 2 + 8).toRat
  generalize (e.read .offsetCompensation).unsigned 12 4 = n at field
  rw [Dyadic.toRat_add, eight, toRat_scaled]
  refine ⟨n + 32, 2, by omega, by decide, ?_⟩
  push_cast
  ring

theorem short_alphaCp : Short (ofImage e).alphaCp.1.toRat ∧ Short (ofImage e).alphaCp.2.toRat := by
  have scale : alphaScale e < 16 := Word.unsigned_lt _ 12 4
  have field := (e.read .compensationPixelSensitivity).unsigned_lt 0 10
  have ratio := (e.read .compensationPixelSensitivity).natAbs_signed_le 10 6
  have one : (1 : Dyadic).toRat = 1 := Dyadic.toRat_natCast 1
  have first : (ofImage e).alphaCp.1 =
      scaled ((e.read .compensationPixelSensitivity).unsigned 0 10) (alphaScale e + 27) := rfl
  have second : (ofImage e).alphaCp.2 = (ofImage e).alphaCp.1 *
      (1 + scaled ((e.read .compensationPixelSensitivity).signed 10 6) 7) := rfl
  rw [second, first]
  generalize (e.read .compensationPixelSensitivity).unsigned 0 10 = n at field
  generalize (e.read .compensationPixelSensitivity).signed 10 6 = r at ratio
  -- One more than the ratio is `(128 + r) / 2 ^ 7`, so the second is a product of short numerators.
  have product : (n * (128 + r)).natAbs ≤ 2 ^ 10 * 160 := by
    rw [Int.natAbs_mul]
    exact Nat.mul_le_mul field.le (by omega)
  refine ⟨short_scaled (by omega) (by omega), n * (128 + r), alphaScale e + 27 + 7,
    product.trans_lt (by decide), by omega, ?_⟩
  rw [Dyadic.toRat_mul, Dyadic.toRat_add, one, toRat_scaled, toRat_scaled, pow_add _ _ 7]
  push_cast
  field_simp
  ring

theorem short_pixel (i : Pixel) :
    Short ((ofImage e).pixels.get i).alpha.toRat ∧ Short ((ofImage e).pixels.get i).kTa.toRat := by
  obtain ⟨row, column, rfl⟩ := i.exists_of
  have alphaScale : e.unsignedAt 0x2420 12 4 < 16 := Word.unsigned_lt _ 12 4
  have kTaScale : e.unsignedAt 0x2438 4 4 < 16 := Word.unsigned_lt _ 4 4
  have alpha := e.natAbs_alphaSum_le row column
  have kTa := e.natAbs_kTaSum_le row column
  rw [get_pixels, pixel_alpha, pixel_kTa]
  exact ⟨short_scaled (by omega) (by omega), short_scaled (by omega) (by omega)⟩

theorem short_singles : ∀ d ∈ (ofImage e).singles, Short d.toRat := by
  have kVScale : Calibration.kVScale e < 16 := Word.unsigned_lt _ 8 4
  have kTaScale : Calibration.kTaScale e < 24 := Nat.add_lt_add_right (Word.unsigned_lt _ 4 4) 8
  have alphaPtat := short_alphaPtat e
  have alphaCp := short_alphaCp e
  simp only [ofImage] at alphaPtat alphaCp
  simp only [singles, ofImage, List.forall_mem_cons]
  exact ⟨short_signed _ 10 (by decide) (by decide), short_signed _ 0 (by decide) (by decide),
    alphaPtat, short_signed _ 8 (by decide) (by decide), alphaCp.1, alphaCp.2,
    short_signed _ 8 (by decide) (by omega), short_signed _ 0 (by decide) (by omega),
    short_signed _ 0 (by decide) (by decide), List.forall_mem_nil _⟩

theorem short_dyadics : ∀ d ∈ (ofImage e).dyadics, Short d.toRat := by
  have kVScale : Calibration.kVScale e < 16 := Word.unsigned_lt _ 8 4
  have kV (k : Fin 4) : Short ((ofImage e).kV.get k).toRat :=
    forall_get_four (P := fun d => Short d.toRat) (short_signed _ 12 (by decide) (by omega))
      (short_signed _ 4 (by decide) (by omega)) (short_signed _ 8 (by decide) (by omega))
      (short_signed _ 0 (by decide) (by omega)) k
  have ksTo (x : Fin 4) : Short ((ofImage e).ksTo.get x).toRat := by
    obtain ⟨n, k, hn, hk, hx⟩ := fraction_slope e x
    rw [hx]
    exact short_scaled (by omega) (by omega)
  have interleave (k : Fin 3) : Short ((ofImage e).interleave.get k).toRat := by
    match k with
    | 0 => exact short_signed _ 0 (by decide) (by decide)
    | 1 => exact short_signed _ 6 (by decide) (by decide)
    | 2 => exact short_signed _ 11 (by decide) (by decide)
  simp only [dyadics, List.forall_mem_append, List.forall_mem_map]
  exact ⟨short_singles e, fun x _ => ksTo x, fun k _ => kV k, fun k _ => interleave k,
    fun i _ => (short_pixel e i).1, fun i _ => (short_pixel e i).2⟩

theorem numeric_ofImage : (ofImage e).Numeric where
  vPtat25 := by
    have word : (ofImage e).vPtat25 = (e.read .ptat25).toInt := by rw [ofImage]
    rw [word]
    exact (Word.natAbs_toInt_lt _).trans (by decide)
  gain := by
    have word : (ofImage e).gain = (e.read .gain).toInt := by rw [ofImage]
    rw [word]
    exact (Word.natAbs_toInt_lt _).trans (by decide)
  dyadics := short_dyadics e
  alphaCorrection := exists_value?_alphaCorrection e

/-- The correction of sensitivity is a number other than zero in every range and continues from one
range to the next. All constants are finite numbers, so that equality tells calibrations apart. -/
theorem range_correction_continuous :
    ∃ c, ofWords? e.toArray = .ok c ∧
      (∀ x : Fin 3, (1 : Rat) + (c.ksTo.get x.castSucc).toRat *
        ((c.corners.get x.succ - c.corners.get x.castSucc : Int) : Rat) ≠ 0) ∧
      (∀ x : Fin 4, (c.alphaCorrection x : Rat) ≠ 0) ∧
      (c.alphaCorrection basicRange : Rat) = 1 ∧
      (∀ x : Fin 3, (c.alphaCorrection x.castSucc : Rat) * (1 + (c.ksTo.get x.castSucc).toRat *
        ((c.corners.get x.succ - c.corners.get x.castSucc : Int) : Rat)) =
        c.alphaCorrection x.succ) ∧
      (∀ x : Fin 4, ∃ q, q ≠ 0 ∧ value? (c.alphaCorrection x : Float) = some q) ∧
      (∀ x ∈ c.doubles, x.isNaN = false ∧ x.isInf = false) ∧
      c.same c = true ∧
      ∀ other : EepromImage, c.same (ofImage other) = true ↔ c = ofImage other := by
  have numeric := numeric_ofImage e
  refine ⟨_, ofWords?_toArray e, fun x => ?_, alphaCorrection_ne_zero e, Int.cast_one,
    fun x => ?_, exists_value?_alphaCorrection e, fun x hx => ?_,
    (numeric.same_iff numeric).mpr rfl, fun other => numeric.same_iff (numeric_ofImage other)⟩
  · have nonzero := growth_ne_zero e x
    rwa [growth_eq] at nonzero
  · have continues := alphaCorrection_mul_growth e x
    rwa [growth_eq] at continues
  · obtain ⟨q, hq⟩ := numeric.exists_value? x hx
    exact number_of_value? hq

end Calibration
end Thermopile
