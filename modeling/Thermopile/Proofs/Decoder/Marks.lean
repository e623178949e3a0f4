import Mathlib.Data.Fintype.Basic
import Thermopile.Proofs.Calibration.Congruence
import Thermopile.Proofs.Decoder.Agreement

namespace Thermopile

theorem Word.shiftRight_xor_one (w : Word) {offset : Nat} (h : 1 ≤ offset) :
    (w ^^^ 1).toNat >>> offset = w.toNat >>> offset := by
  apply Nat.eq_of_testBit_eq
  intro k
  have above : Nat.testBit 1 (offset + k) = false :=
    Nat.testBit_lt_two_pow (Nat.one_lt_two_pow (by omega))
  rw [Nat.testBit_shiftRight, Nat.testBit_shiftRight, UInt16.toNat_xor, UInt16.toNat_one,
    Nat.testBit_xor, above, Bool.xor_false]

theorem Word.signed_xor_one (w : Word) {offset : Nat} (h : 1 ≤ offset) (width : Nat) :
    (w ^^^ 1).signed offset width = w.signed offset width := by
  rw [signed, unsigned, w.shiftRight_xor_one h, ← unsigned, ← signed]

theorem Word.bit_xor_one (w : Word) : (w ^^^ 1).bit 0 = !w.bit 0 := by
  rw [bit, UInt16.toNat_xor, UInt16.toNat_one, Nat.testBit_xor, bit]
  exact Bool.xor_true _

namespace EepromImage

/-- The image with the marks of the pixels in `marked` turned over. -/
def turnMarks (e : EepromImage) (marked : Finset Pixel) : EepromImage :=
  Vector.ofFn fun k => if ∃ i ∈ marked, k.val = 64 + i.val then e.get k ^^^ 1 else e.get k

variable (e : EepromImage) (marked : Finset Pixel)

theorem get_turnMarks (k : Fin eepromSize) :
    (e.turnMarks marked).get k =
      if ∃ i ∈ marked, k.val = 64 + i.val then e.get k ^^^ 1 else e.get k :=
  Vector.getElem_ofFn k.isLt

theorem pixelWord_turnMarks (i : Pixel) :
    (e.turnMarks marked).pixelWord i =
      if i ∈ marked then e.pixelWord i ^^^ 1 else e.pixelWord i := by
  have member : (∃ j ∈ marked, 64 + i.val = 64 + j.val) ↔ i ∈ marked := by
    constructor
    · rintro ⟨j, hj, same⟩
      exact Fin.ext (Nat.add_left_cancel same) ▸ hj
    · intro hi
      exact ⟨i, hi, rfl⟩
  exact (get_turnMarks e marked _).trans (if_congr member rfl rfl)

theorem sameShared_turnMarks : SameShared e (e.turnMarks marked) := by
  intro k _ last
  have outside : ¬∃ i ∈ marked, k.val = 64 + i.val := by
    rintro ⟨i, -, hk⟩
    omega
  rw [get_turnMarks, if_neg outside]

theorem signed_turnMarks (i : Pixel) (offset width : Nat) (h : 1 ≤ offset) :
    ((e.turnMarks marked).pixelWord i).signed offset width =
      (e.pixelWord i).signed offset width := by
  rw [pixelWord_turnMarks]
  split
  · exact Word.signed_xor_one _ h width
  · rfl

end EepromImage

/-- The calibrations differ at most in which pixels are marked as bad. -/
structure SameConstants (c c' : Calibration) : Prop where
  shared : c' = { c with pixels := c'.pixels }
  offset (i : Pixel) : (c'.pixels.get i).offset = (c.pixels.get i).offset
  alpha (i : Pixel) : (c'.pixels.get i).alpha = (c.pixels.get i).alpha
  kTa (i : Pixel) : (c'.pixels.get i).kTa = (c.pixels.get i).kTa

namespace SameConstants

section
variable {α : Type} [Scalar α] {c c' : Calibration} (h : SameConstants c c')
include h

theorem conditions (s : Snapshot) : (Conditions.of c' s : Conditions α) = Conditions.of c s := by
  rw [h.shared]
  rfl

theorem compensationOffset (k : Conditions α) (s : Snapshot) :
    compensationOffset c' k s = Thermopile.compensationOffset c k s := by
  rw [h.shared]
  rfl

theorem infrared (k : Conditions α) (s : Snapshot) (emissivity compensation : α) :
    infrared c' k s emissivity compensation =
      Thermopile.infrared c k s emissivity compensation := by
  funext i
  rw [h.shared]
  simp only [Thermopile.infrared, pixelSignal, h.offset, h.kTa]
  rfl

theorem sensitivity (p : Subpage) (ta : α) (i : Pixel) :
    sensitivity c' p ta i = Thermopile.sensitivity c p ta i := by
  rw [h.shared]
  simp only [Thermopile.sensitivity, h.alpha]

end

section
variable {α : Type} [Radiometric α] {c c' : Calibration} (h : SameConstants c c')
variable (d : Decoder α) (s : Snapshot) (frame : Frame α) (image : Image α)
include h

theorem pixelTemperature : d.pixelTemperature c' s = d.pixelTemperature c s := by
  have temperature (alpha tar v : α) :
      temperature c' alpha tar v = Thermopile.temperature c alpha tar v := by
    rw [h.shared]
    rfl
  funext i
  simp only [Decoder.pixelTemperature, h.conditions, h.compensationOffset, h.infrared,
    h.sensitivity, temperature]

theorem decodeInfrared : d.decodeInfrared c' s image = d.decodeInfrared c s image := by
  by_cases valid : s.Valid
  · have ambient : (ambient c' s : α) = Thermopile.ambient c s :=
      congrArg Conditions.ta (h.conditions s)
    rw [Decoder.decodeInfrared_of_valid d c s image valid,
      Decoder.decodeInfrared_of_valid d c' s image valid, h.conditions, h.compensationOffset,
      h.infrared, ambient]
  · obtain ⟨fault, hf⟩ := Snapshot.validate_of_not_valid valid
    rw [Decoder.decodeInfrared_of_error d c s image hf,
      Decoder.decodeInfrared_of_error d c' s image hf]

/-- Of what a decoding gives, only the temperatures can depend on the marks. -/
theorem decode :
    d.decode c' s frame =
      ((d.decode c s frame).1, (d.decode c s frame).2.1,
        { (d.decode c s frame).2.2 with
          temperatures := (d.decode c' s frame).2.2.temperatures }) := by
  by_cases valid : s.Valid
  · rw [Decoder.decode_of_valid d c s frame valid, Decoder.decode_of_valid d c' s frame valid,
      h.conditions, h.compensationOffset]
  · obtain ⟨fault, hf⟩ := Snapshot.validate_of_not_valid valid
    rw [Decoder.decode_of_error d c s frame hf, Decoder.decode_of_error d c' s frame hf]

theorem result_decode : (d.decode c' s frame).1 = (d.decode c s frame).1 := by
  rw [h.decode]

theorem decoder_decode : (d.decode c' s frame).2.1 = (d.decode c s frame).2.1 := by
  rw [h.decode]

theorem get_temperatures {i : Pixel}
    (unrepaired : d.repairBadPixels = false ∨ c.bad i = false ∧ c'.bad i = false) :
    (d.decode c' s frame).2.2.temperatures.get i =
      (d.decode c s frame).2.2.temperatures.get i := by
  by_cases valid : s.Valid
  · rw [Decoder.decode_of_valid d c s frame valid, Decoder.decode_of_valid d c' s frame valid]
    by_cases captured : s.Captures i
    · rw [Decoder.get_remeasure_of_unrepaired captured (unrepaired.imp_right And.left),
        Decoder.get_remeasure_of_unrepaired captured (unrepaired.imp_right And.right),
        h.pixelTemperature]
    · rw [Decoder.get_remeasure_of_not_captures d c _ captured,
        Decoder.get_remeasure_of_not_captures d c' _ captured]
  · rw [Decoder.decode_of_not_valid d c s frame valid,
      Decoder.decode_of_not_valid d c' s frame valid]

theorem decode_of_no_repair (off : d.repairBadPixels = false) :
    d.decode c' s frame = d.decode c s frame := by
  have temperatures : (d.decode c' s frame).2.2.temperatures =
      (d.decode c s frame).2.2.temperatures := by
    apply Vector.ext
    intro k hk
    exact h.get_temperatures d s frame (i := ⟨k, hk⟩) (.inl off)
  rw [h.decode, temperatures]

end

end SameConstants

namespace Decoder

open Calibration (ofWords? ofWords?_toArray ofImage get_pixels pixel_congr pixel_congr_word)

theorem sameConstants_turnMarks (e : EepromImage) (marked : Finset Pixel) :
    SameConstants (ofImage e) (ofImage (e.turnMarks marked)) := by
  have shared := e.sameShared_turnMarks marked
  have pixel (i : Pixel) := pixel_congr shared (e.signed_turnMarks marked i)
  exact {
    shared := Calibration.ofImage_congr_shared shared
    offset := fun i => by rw [get_pixels, get_pixels, pixel i]
    alpha := fun i => by rw [get_pixels, get_pixels, pixel i]
    kTa := fun i => by rw [get_pixels, get_pixels, pixel i] }

variable {α : Type} [Radiometric α]

/-- Turning the marks of some pixels over turns these marks over in the calibration, and changes no
constant in it. Infrared images and decodings without repair are the same with both calibrations.
With repair, frames differ at most at pixels that are bad in one of them. -/
theorem marks_stay_local (e : EepromImage) (marked : Finset Pixel) :
    ∃ c c', ofWords? e.toArray = .ok c ∧ ofWords? (e.turnMarks marked).toArray = .ok c' ∧
      SameConstants c c' ∧
      (∀ i ∉ marked, c'.pixels.get i = c.pixels.get i ∧ c'.bad i = c.bad i) ∧
      (∀ i ∈ marked, (c'.pixels.get i).outlier = !(c.pixels.get i).outlier) ∧
      ∀ (d : Decoder α) (s : Snapshot) (frame : Frame α) (image : Image α),
        d.decodeInfrared c' s image = d.decodeInfrared c s image ∧
        (d.repairBadPixels = false → d.decode c' s frame = d.decode c s frame) ∧
        (d.decode c' s frame).1 = (d.decode c s frame).1 ∧
        (d.decode c' s frame).2.1 = (d.decode c s frame).2.1 ∧
        (d.decode c' s frame).2.2.context = (d.decode c s frame).2.2.context ∧
        (d.decode c' s frame).2.2.sequence = (d.decode c s frame).2.2.sequence ∧
        ∀ i, c.bad i = false → c'.bad i = false →
          (d.decode c' s frame).2.2.temperatures.get i =
            (d.decode c s frame).2.2.temperatures.get i := by
  have same := sameConstants_turnMarks e marked
  refine ⟨_, _, ofWords?_toArray e, ofWords?_toArray _, same, fun i hi => ?_, fun i hi => ?_,
    fun d s frame image => ?_⟩
  · have word : (e.turnMarks marked).pixelWord i = e.pixelWord i := by
      rw [e.pixelWord_turnMarks, if_neg hi]
    have unmarked : (ofImage (e.turnMarks marked)).pixels.get i = (ofImage e).pixels.get i := by
      rw [get_pixels, get_pixels, pixel_congr_word (e.sameShared_turnMarks marked) word]
    exact ⟨unmarked, congrArg PixelCalibration.bad unmarked⟩
  · have word : (e.turnMarks marked).pixelWord i = e.pixelWord i ^^^ 1 := by
      rw [e.pixelWord_turnMarks, if_pos hi]
    rw [get_pixels, get_pixels]
    change ((e.turnMarks marked).pixelWord i).bit 0 = !(e.pixelWord i).bit 0
    rw [word, Word.bit_xor_one]
  · refine ⟨same.decodeInfrared d s image, same.decode_of_no_repair d s frame,
      same.result_decode d s frame, same.decoder_decode d s frame, ?_, ?_,
      fun i good good' => same.get_temperatures d s frame (.inr ⟨good, good'⟩)⟩
    · rw [context_decode, context_decode, Context.of, Context.of, same.conditions]
    · rw [sequence_decode, sequence_decode]

end Decoder
end Thermopile
