import Thermopile.Proofs.Calibration.Pixels

namespace Thermopile

namespace EepromImage

/-- The images hold the same words where they keep the constants that all pixels share. -/
def SameShared (e f : EepromImage) : Prop :=
  ∀ k : Fin eepromSize, 16 ≤ k.val → k.val < 64 → f.get k = e.get k

namespace SameShared

variable {e f : EepromImage} (h : SameShared e f)
include h

theorem read {a : EepromAddress} (inside : 16 ≤ a.index ∧ a.index < 64) : f.read a = e.read a :=
  h _ inside.1 inside.2

theorem nibble {start : EepromAddress} (within : 16 ≤ start.index ∧ start.index + 8 ≤ 64)
    (i : Fin 32) (inside : start.index + 8 ≤ eepromSize) :
    f.nibble start i inside = e.nibble start i inside := by
  have first : 16 ≤ start.index + i.val / 4 := by omega
  have last : start.index + i.val / 4 < 64 := by omega
  exact congrArg (Word.nibble · (i.val % 4)) (h ⟨start.index + i.val / 4, by omega⟩ first last)

end SameShared
end EepromImage

namespace Calibration

open EepromAddress
open EepromImage (SameShared)

variable {e f : EepromImage} (h : SameShared e f)
include h

theorem offsetTable_congr : offsetTable f = offsetTable e := by
  simp (disch := decide) only [offsetTable, h.read, h.nibble]

theorem alphaTable_congr : alphaTable f = alphaTable e := by
  simp (disch := decide) only [alphaTable, h.read, h.nibble]

theorem kTaAverage_congr : kTaAverage f = kTaAverage e := by
  funext quadrant
  simp (disch := decide) only [kTaAverage, h.read]

theorem ofImage_congr_shared : ofImage f = { ofImage e with pixels := (ofImage f).pixels } := by
  simp (disch := decide) only [ofImage, slopeTable, kVTable, alphaCpPair, alphaScale, kVScale,
    kTaScale, h.read]

/-- The constants of a pixel come from the bits above the lowest of its word. -/
theorem pixel_congr {i : Pixel}
    (fields : ∀ offset width, 1 ≤ offset →
      (f.pixelWord i).signed offset width = (e.pixelWord i).signed offset width) :
    pixel f i =
      { pixel e i with failed := f.pixelWord i == 0, outlier := (f.pixelWord i).bit 0 } := by
  simp (disch := decide) only [pixel, offsetTable_congr h, alphaTable_congr h, kTaAverage_congr h,
    alphaScale, kTaScale, kTaRemainderScale, h.read, fields]

theorem pixel_congr_word {i : Pixel} (word : f.pixelWord i = e.pixelWord i) :
    pixel f i = pixel e i := by
  rw [pixel_congr h fun _ _ _ => by rw [word], word, pixel]

omit h

/-- The first sixteen words have no part in the calibration. -/
theorem ofImage_congr (same : ∀ k : Fin eepromSize, 16 ≤ k.val → f.get k = e.get k) :
    ofImage f = ofImage e := by
  have shared : SameShared e f := fun k first _ => same k first
  have pixels : (ofImage f).pixels = (ofImage e).pixels := by
    apply Vector.ext
    intro k hk
    have word : f.pixelWord ⟨k, hk⟩ = e.pixelWord ⟨k, hk⟩ :=
      same _ (Nat.le_add_right_of_le (by decide))
    have pixel := pixel_congr_word shared word
    rw [← get_pixels, ← get_pixels] at pixel
    exact pixel
  rw [ofImage_congr_shared shared, pixels]

end Calibration
end Thermopile
