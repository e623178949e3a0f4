import Mathlib.Data.List.Find
import Thermopile.Datasheet
import Thermopile.Proofs.Decoder.Step

namespace Thermopile

/-- The snapshots have the same settings, the same words at the pixels of the measured subpage, and
the same auxiliary words where these are not reserved. -/
structure SameMeasurement (s t : Snapshot) : Prop where
  subpage : t.subpage = s.subpage
  pattern : t.pattern = s.pattern
  resolution : t.resolution = s.resolution
  pixel : ∀ i ∈ s.pattern.pixels s.subpage, t.words[i.val]? = s.words[i.val]?
  auxiliary : ∀ k ∈ Snapshot.auxiliaryWords, t.words[k]? = s.words[k]?

theorem AccessPattern.mem_pixels {pattern : AccessPattern} {p : Subpage} {i : Pixel} :
    i ∈ pattern.pixels p ↔ pattern.subpageOf i = p := by
  rw [pixels, List.mem_filter, decide_eq_true_iff]
  exact and_iff_right (List.mem_finRange i)

theorem Subpage.ofParity_of_mod {p : Subpage} {n : Nat} (h : n % 2 = p.toNat) : ofParity n = p := by
  rw [ofParity, h]
  cases p <;> rfl

namespace Snapshot

theorem mem_pixels_of_mem_rowStarts (pattern : AccessPattern) {p : Subpage} {k : Nat}
    (h : k ∈ rowStarts p) : ∃ i ∈ pattern.pixels p, i.val = k := by
  simp only [rowStarts, List.mem_map, List.mem_filter, List.mem_range, decide_eq_true_eq] at h
  obtain ⟨r, ⟨hr, parity⟩, rfl⟩ := h
  have hk : r * columnCount < pixelCount := Nat.mul_lt_mul_of_pos_right hr (by decide)
  have hd : r * columnCount / columnCount = r := Nat.mul_div_cancel r (by decide)
  refine ⟨⟨r * columnCount, hk⟩, AccessPattern.mem_pixels.mpr ?_, rfl⟩
  cases pattern with
  | interleave =>
    apply Subpage.ofParity_of_mod
    rw [hd, parity]
  | chess =>
    apply Subpage.ofParity_of_mod
    change (r * 32 / 32 + r * 32) % 2 = p.toNat
    omega

theorem index_mem_auxiliaryWords {a : RamAddress} (h : a ≠ .base) : a.index ∈ auxiliaryWords := by
  cases a with
  | base => exact absurd rfl h
  | _ => decide

end Snapshot

theorem get_congr {u v : RamImage} {k : Fin ramSize} (h : u[k.val]? = v[k.val]?) :
    u.get k = v.get k := by
  rw [Vector.getElem?_eq_getElem k.isLt, Vector.getElem?_eq_getElem k.isLt] at h
  exact Option.some.inj h

namespace SameMeasurement

open Snapshot

variable {s t u : Snapshot}

theorem trans (h : SameMeasurement s t) (h' : SameMeasurement t u) : SameMeasurement s u where
  subpage := h'.subpage.trans h.subpage
  pattern := h'.pattern.trans h.pattern
  resolution := h'.resolution.trans h.resolution
  pixel i hi := by
    have hi' : i ∈ t.pattern.pixels t.subpage := by rwa [h.pattern, h.subpage]
    exact (h'.pixel i hi').trans (h.pixel i hi)
  auxiliary k hk := (h'.auxiliary k hk).trans (h.auxiliary k hk)

/-- A pixel that was not measured, or a reserved word, may hold anything. -/
theorem set (s : Snapshot) {k : Nat} (hk : k < ramSize) (w : Word)
    (pixel : k < pixelCount → s.pattern.subpageOf k ≠ s.subpage) (reserved : k ∉ auxiliaryWords) :
    SameMeasurement s { s with words := s.words.set k w } where
  subpage := rfl
  pattern := rfl
  resolution := rfl
  pixel i hi := by
    have hki : k ≠ i := by
      intro hki
      subst hki
      exact pixel i.isLt (AccessPattern.mem_pixels.mp hi)
    exact Vector.getElem?_set_ne hk hki
  auxiliary j hj := by
    have hkj : k ≠ j := fun hkj => reserved (hkj ▸ hj)
    exact Vector.getElem?_set_ne hk hkj

variable (h : SameMeasurement s t)
include h

theorem checked {k : Nat} (hk : k ∈ checkedWords s.subpage) : t.words[k]? = s.words[k]? := by
  -- Row starts are pixels of the measured subpage; what else is checked is auxiliary.
  rcases List.mem_append.mp hk with row | auxiliary
  · obtain ⟨i, hi, rfl⟩ := mem_pixels_of_mem_rowStarts s.pattern row
    exact h.pixel i hi
  · exact h.auxiliary k auxiliary

theorem firstInvalid : t.firstInvalid? = s.firstInvalid? := by
  unfold firstInvalid?
  rw [h.subpage]
  apply List.find?_congr
  intro k hk
  rw [h.checked hk]

theorem validate : t.validate = s.validate := by
  rw [Snapshot.validate, Snapshot.validate, h.firstInvalid]

theorem read {a : RamAddress} (ha : a ≠ .base) : t.read a = s.read a :=
  congrArg Word.toInt (get_congr (h.auxiliary _ (index_mem_auxiliaryWords ha)))

theorem reading {i : Pixel} (hi : s.Captures i) : t.pixel i = s.pixel i :=
  congrArg Word.toInt (get_congr (h.pixel i (AccessPattern.mem_pixels.mpr hi)))

theorem captures (i : Pixel) : t.Captures i ↔ s.Captures i := by
  rw [Captures, Captures, h.pattern, h.subpage]

variable {α : Type}

theorem overwrite {value value' : Pixel → α} (hv : ∀ i, s.Captures i → value' i = value i)
    (image : Image α) : Decoder.overwrite t image value' = Decoder.overwrite s image value := by
  apply Vector.ext
  intro k hk
  change (Decoder.overwrite t image value').get ⟨k, hk⟩ =
    (Decoder.overwrite s image value).get ⟨k, hk⟩
  rw [Decoder.get_overwrite, Decoder.get_overwrite]
  by_cases hi : s.Captures ⟨k, hk⟩
  · rw [if_pos hi, if_pos ((h.captures _).mpr hi), hv _ hi]
  · rw [if_neg hi, if_neg (mt (h.captures _).mp hi)]

section
variable [Scalar α] (c : Calibration)

theorem deltaV : (deltaV c t : α) = deltaV c s := by
  rw [Thermopile.deltaV, Thermopile.deltaV, h.resolution, vddPixel, vddPixel, h.read (by decide)]

theorem ambient : (ambient c t : α) = ambient c s := by
  rw [Thermopile.ambient, Thermopile.ambient, vPtatArt, vPtatArt, h.deltaV, vPtat, vPtat, vBe, vBe,
    h.read (by decide), h.read (by decide)]

theorem conditions : (Conditions.of c t : Conditions α) = Conditions.of c s := by
  rw [Conditions.of, Conditions.of, h.deltaV, h.ambient, gain, gain, h.read (by decide)]

theorem compensationOffset (k : Conditions α) :
    compensationOffset c k t = compensationOffset c k s := by
  rw [Thermopile.compensationOffset, Thermopile.compensationOffset, compensationReference,
    compensationReference, h.subpage, h.pattern, compensationPixel, compensationPixel,
    h.read (by decide), h.read (by decide)]

theorem infrared (k : Conditions α) (emissivity compensation : α) {i : Pixel} (hi : s.Captures i) :
    infrared c k t emissivity compensation i = infrared c k s emissivity compensation i := by
  rw [Thermopile.infrared, Thermopile.infrared, pixelSignal, pixelSignal, h.reading hi, h.pattern,
    h.subpage]

end

end SameMeasurement

namespace Decoder

variable {α : Type} [Radiometric α] {s t : Snapshot}
variable (d : Decoder α) (c : Calibration) (frame : Frame α) (image : Image α)

theorem remeasure_congr (h : SameMeasurement s t) :
    d.remeasure c t image = d.remeasure c s image := by
  have hv (i : Pixel) (hi : s.Captures i) :
      d.pixelTemperature c t i = d.pixelTemperature c s i := by
    simp only [pixelTemperature, h.conditions, h.compensationOffset, h.subpage,
      h.infrared _ _ _ _ hi]
  rw [remeasure, remeasure, h.overwrite hv, h.pattern, h.subpage]

theorem decode_congr (h : SameMeasurement s t) : d.decode c t frame = d.decode c s frame := by
  by_cases hs : s.Valid
  · have ht : t.Valid := h.validate.trans hs
    rw [decode_of_valid d c t frame ht, decode_of_valid d c s frame hs, d.remeasure_congr c _ h,
      h.subpage, h.pattern, h.conditions, h.compensationOffset]
  · obtain ⟨fault, hf⟩ := Snapshot.validate_of_not_valid hs
    rw [decode_of_error d c s frame hf, decode_of_error d c t frame (h.validate.trans hf)]

theorem decodeInfrared_congr (h : SameMeasurement s t) :
    d.decodeInfrared c t image = d.decodeInfrared c s image := by
  by_cases hs : s.Valid
  · have ht : t.Valid := h.validate.trans hs
    have hv (i : Pixel) (hi : s.Captures i) :=
      h.infrared c (Conditions.of c s) d.emissivity (compensationOffset c (Conditions.of c s) s) hi
    rw [decodeInfrared_of_valid d c t image ht, decodeInfrared_of_valid d c s image hs, h.subpage,
      h.ambient, h.conditions, h.compensationOffset, h.overwrite hv]
  · obtain ⟨fault, hf⟩ := Snapshot.validate_of_not_valid hs
    rw [decodeInfrared_of_error d c s image hf,
      decodeInfrared_of_error d c t image (h.validate.trans hf)]

/-- What decoding does not look at changes neither result nor fault, decoder, frame or image. -/
theorem sees_only_measurement (h : SameMeasurement s t) :
    d.decode c t frame = d.decode c s frame ∧
    d.decodeInfrared c t image = d.decodeInfrared c s image :=
  ⟨d.decode_congr c frame h, d.decodeInfrared_congr c image h⟩

def workedExample : Snapshot := ⟨Datasheet.ram, .zero, .chess, .eighteen⟩

/-- The worked example with invalid words in the second pixel, which belongs to the other subpage,
and in the reserved word after the first auxiliary one. -/
def staleExample : Snapshot :=
  { workedExample with words := (workedExample.words.set 1 invalidWord).set 769 invalidWord }

theorem sees_only_measurement_worked_example :
    SameMeasurement workedExample staleExample ∧
    (ofConfig .default).decode (.ofImage Datasheet.eeprom) staleExample (.empty : Frame Float) =
      (ofConfig .default).decode (.ofImage Datasheet.eeprom) workedExample .empty := by
  have pixel := SameMeasurement.set workedExample (k := 1) (by decide) invalidWord
    (fun _ => by decide) (by decide)
  have reserved := SameMeasurement.set
    { workedExample with words := workedExample.words.set 1 invalidWord } (k := 769)
    (by decide) invalidWord (fun h => absurd h (by decide)) (by decide)
  have same : SameMeasurement workedExample staleExample := pixel.trans reserved
  exact ⟨same, (sees_only_measurement (ofConfig .default) (.ofImage Datasheet.eeprom) .empty
    Frame.empty.temperatures same).1⟩

end Decoder
end Thermopile
