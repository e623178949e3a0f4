import Thermopile.Proofs.Calibration.Fields
import Thermopile.Proofs.Double.Dyadic

namespace Thermopile

namespace Pixel

def of (row : Fin rowCount) (column : Fin columnCount) : Pixel :=
  ⟨32 * row + column, by
    have hr := row.isLt
    have hc := column.isLt
    simp only [rowCount, columnCount, pixelCount] at *
    omega⟩

variable (row : Fin rowCount) (column : Fin columnCount)

theorem row_of : (of row column).row = row := by
  have hc : column.val < 32 := column.isLt
  change (32 * row.val + column.val) / 32 = row.val
  omega

theorem column_of : (of row column).column = column := by
  have hc : column.val < 32 := column.isLt
  change (32 * row.val + column.val) % 32 = column.val
  omega

end Pixel

namespace PixelTable

theorem value_of (t : PixelTable) (row : Fin rowCount) (column : Fin columnCount) (x : Int) :
    t.value (.of row column) x =
      t.average + (t.row row <<< t.rowScale) + (t.column column <<< t.columnScale) +
        (x <<< t.remainderScale) := by
  have hr : (⟨(Pixel.of row column).row, Nat.div_lt_of_lt_mul (Pixel.of row column).isLt⟩ :
      Fin rowCount) = row := Fin.ext (Pixel.row_of row column)
  have hc : (⟨(Pixel.of row column).column, Nat.mod_lt _ (by decide)⟩ : Fin columnCount) = column :=
    Fin.ext (Pixel.column_of row column)
  rw [value, hr, hc]

end PixelTable

/-- The number, if 32 bits can hold it with its sign. -/
def int32? (n : Int) : Option Int := if -2 ^ 31 ≤ n ∧ n < 2 ^ 31 then some n else none

theorem int32?_eq_some {n : Int} (h : n.natAbs < 2 ^ 31) : int32? n = some n :=
  if_pos (by omega)

/-- The sum of an average, corrections for a row and a column, and a remainder, in 32 bits if no
step leaves them. The corrections are added to each other first. -/
def sum32? (average row column remainder : Int) : Option Int := do
  let row ← int32? row
  let column ← int32? column
  let correction ← int32? (row + column)
  let base ← int32? (average + correction)
  let rest ← int32? remainder
  int32? (base + rest)

theorem sum32?_eq_some {average row column remainder : Int} (ha : average.natAbs ≤ 2 ^ 16)
    (hr : row.natAbs ≤ 2 ^ 18) (hc : column.natAbs ≤ 2 ^ 18) (hx : remainder.natAbs ≤ 2 ^ 20) :
    sum32? average row column remainder = some (average + row + column + remainder) := by
  rw [Int.add_assoc average row column]
  have correction : int32? (row + column) = some (row + column) := int32?_eq_some (by omega)
  have base : int32? (average + (row + column)) = some (average + (row + column)) :=
    int32?_eq_some (by omega)
  have total : int32? (average + (row + column) + remainder) =
      some (average + (row + column) + remainder) := int32?_eq_some (by omega)
  simp only [sum32?, int32?_eq_some (by omega : row.natAbs < 2 ^ 31),
    int32?_eq_some (by omega : column.natAbs < 2 ^ 31),
    int32?_eq_some (by omega : remainder.natAbs < 2 ^ 31), correction, base, total,
    Option.bind_eq_bind, Option.bind_some]

namespace EepromImage

section
variable (e : EepromImage) (scales : Nat) (average : Int) (rows columns row column : Nat)
variable (remainder : Int)

/-- An average with the corrections for a row and a column and a remainder, which the word at
`scales` scales. The nibbles of the corrections start at `rows` and `columns`. -/
def corrected : Int :=
  average + (e.nibbleAt rows row <<< e.unsignedAt scales 8 4) +
    (e.nibbleAt columns column <<< e.unsignedAt scales 4 4) +
    (remainder <<< e.unsignedAt scales 0 4)

def corrected32? : Option Int :=
  sum32? average (e.nibbleAt rows row <<< e.unsignedAt scales 8 4)
    (e.nibbleAt columns column <<< e.unsignedAt scales 4 4) (remainder <<< e.unsignedAt scales 0 4)

variable {average remainder} (ha : average.natAbs ≤ 2 ^ 16) (hx : remainder.natAbs ≤ 32)
include ha hx

theorem natAbs_corrected_le :
    (e.corrected scales average rows columns row column remainder).natAbs ≤ 2 ^ 21 := by
  have row := Word.natAbs_shiftLeft_le (e.natAbs_nibbleAt_le rows row) (e.wordAt scales) 8
  have column := Word.natAbs_shiftLeft_le (e.natAbs_nibbleAt_le columns column) (e.wordAt scales) 4
  have rest := Word.natAbs_shiftLeft_le hx (e.wordAt scales) 0
  unfold corrected unsignedAt
  omega

theorem corrected32?_eq :
    e.corrected32? scales average rows columns row column remainder =
      some (e.corrected scales average rows columns row column remainder) :=
  sum32?_eq_some ha (Word.natAbs_shiftLeft_le (e.natAbs_nibbleAt_le rows row) _ 8)
    (Word.natAbs_shiftLeft_le (e.natAbs_nibbleAt_le columns column) _ 4)
    (Word.natAbs_shiftLeft_le hx _ 0)

end

section
variable (e : EepromImage) (row column : Nat)

/-- A field, in two's complement, of the word that belongs to a pixel. -/
def pixelField (offset width : Nat) : Int :=
  e.signedAt (0x2440 + (32 * row + column)) offset width

def offsetSum : Int :=
  e.corrected 0x2410 (e.signedAt 0x2411 0 16) 0x2412 0x2418 row column
    (e.pixelField row column 10 6)

def offsetSum32? : Option Int :=
  e.corrected32? 0x2410 (e.signedAt 0x2411 0 16) 0x2412 0x2418 row column
    (e.pixelField row column 10 6)

def alphaSum : Int :=
  e.corrected 0x2420 (e.unsignedAt 0x2421 0 16) 0x2422 0x2428 row column
    (e.pixelField row column 4 6)

def alphaSum32? : Option Int :=
  e.corrected32? 0x2420 (e.unsignedAt 0x2421 0 16) 0x2422 0x2428 row column
    (e.pixelField row column 4 6)

/-- Which of the four combinations of parities a row and a column have: even rows come first, and in
each the even columns. -/
def parity : Fin 4 := ⟨2 * (row % 2) + column % 2, by omega⟩

def kTaAverageAt (k : Fin 4) : Int :=
  match k with
  | 0 => e.signedAt 0x2436 8 8
  | 1 => e.signedAt 0x2437 8 8
  | 2 => e.signedAt 0x2436 0 8
  | 3 => e.signedAt 0x2437 0 8

def kVAverageAt (k : Fin 4) : Int :=
  match k with
  | 0 => e.signedAt 0x2434 12 4
  | 1 => e.signedAt 0x2434 4 4
  | 2 => e.signedAt 0x2434 8 4
  | 3 => e.signedAt 0x2434 0 4

def kTaSum : Int :=
  e.kTaAverageAt (parity row column) + (e.pixelField row column 1 3 <<< e.unsignedAt 0x2438 0 4)

def kTaSum32? : Option Int := do
  let rest ← int32? (e.pixelField row column 1 3 <<< e.unsignedAt 0x2438 0 4)
  int32? (e.kTaAverageAt (parity row column) + rest)

theorem offsetSum32?_eq : e.offsetSum32? row column = some (e.offsetSum row column) :=
  corrected32?_eq e _ _ _ _ _ ((Word.natAbs_signed_le _ _ 16).trans (by decide))
    (Word.natAbs_signed_le _ _ 6)

theorem natAbs_alphaAverage_le : (e.unsignedAt 0x2421 0 16 : Int).natAbs ≤ 2 ^ 16 :=
  (Word.unsigned_lt _ _ 16).le

theorem alphaSum32?_eq : e.alphaSum32? row column = some (e.alphaSum row column) :=
  corrected32?_eq e _ _ _ _ _ e.natAbs_alphaAverage_le (Word.natAbs_signed_le _ _ 6)

theorem natAbs_alphaSum_le : (e.alphaSum row column).natAbs ≤ 2 ^ 21 :=
  natAbs_corrected_le e _ _ _ _ _ e.natAbs_alphaAverage_le (Word.natAbs_signed_le _ _ 6)

theorem natAbs_kTaAverageAt_le (k : Fin 4) : (e.kTaAverageAt k).natAbs ≤ 128 := by
  have field (address offset : Nat) : (e.signedAt address offset 8).natAbs ≤ 128 :=
    e.natAbs_signedAt_le address offset 8
  unfold kTaAverageAt
  split <;> exact field _ _

theorem natAbs_kVAverageAt_le (k : Fin 4) : (e.kVAverageAt k).natAbs ≤ 8 := by
  have field (offset : Nat) : (e.signedAt 0x2434 offset 4).natAbs ≤ 8 :=
    e.natAbs_signedAt_le 0x2434 offset 4
  unfold kVAverageAt
  split <;> exact field _

theorem natAbs_kTaRest_le :
    (e.pixelField row column 1 3 <<< e.unsignedAt 0x2438 0 4).natAbs ≤ 2 ^ 17 :=
  Word.natAbs_shiftLeft_le (Word.natAbs_signed_le _ _ 3) _ 0

theorem natAbs_kTaSum_le : (e.kTaSum row column).natAbs ≤ 2 ^ 18 := by
  have average := e.natAbs_kTaAverageAt_le (parity row column)
  have rest := e.natAbs_kTaRest_le row column
  unfold kTaSum
  omega

theorem kTaSum32?_eq : e.kTaSum32? row column = some (e.kTaSum row column) := by
  have sum := e.natAbs_kTaSum_le row column
  have rest := e.natAbs_kTaRest_le row column
  unfold kTaSum at sum ⊢
  rw [kTaSum32?, int32?_eq_some (by omega)]
  exact int32?_eq_some (by omega)

end

end EepromImage

namespace Calibration

open EepromAddress

variable (e : EepromImage) (row : Fin rowCount) (column : Fin columnCount)

theorem wordAt_pixel_of :
    e.wordAt (0x2440 + (32 * row + column)) = e.pixelWord (.of row column) :=
  e.wordAt_pixel (.of row column)

theorem signed_pixelWord (offset width : Nat) :
    (e.pixelWord (.of row column)).signed offset width = e.pixelField row column offset width := by
  rw [← wordAt_pixel_of]
  rfl

/-- A table of the image, in terms of the addresses that it is read from. -/
theorem value_ofScales {scales rows columns : EepromAddress} (average x : Int)
    (insideRows : rows.index + 8 ≤ eepromSize) (insideColumns : columns.index + 8 ≤ eepromSize) :
    (PixelTable.ofScales (e.read scales) average
      (fun r => e.nibble rows (r.castLE (by decide)) insideRows)
      (fun c => e.nibble columns c insideColumns)).value (.of row column) x =
      e.corrected scales.word.toNat average rows.word.toNat columns.word.toNat row column x := by
  -- Rows and columns have four nibbles in a word, counted from the first word of their table.
  have hr : e.nibbleAt rows.word.toNat row = e.nibble rows (row.castLE (by decide)) insideRows :=
    e.nibbleAt_word insideRows (row.castLE (by decide))
  have hc := e.nibbleAt_word insideColumns column
  simp only [EepromImage.corrected, EepromImage.unsignedAt, e.wordAt_word, hr, hc]
  exact PixelTable.value_of _ row column x

theorem offset_eq :
    (offsetTable e).value (.of row column) ((e.pixelWord (.of row column)).signed 10 6) =
      e.offsetSum row column := by
  have average : e.signedAt 0x2411 0 16 = (e.read pixelOffsetAverage).toInt :=
    congrArg Word.toInt (e.wordAt_eq rfl)
  rw [signed_pixelWord, EepromImage.offsetSum, average]
  exact value_ofScales e row column _ _ _ _

theorem alpha_eq :
    (alphaTable e).value (.of row column) ((e.pixelWord (.of row column)).signed 4 6) =
      e.alphaSum row column := by
  have word : e.wordAt 0x2421 = e.read pixelSensitivityAverage := e.wordAt_eq rfl
  have average : e.unsignedAt 0x2421 0 16 = (e.read pixelSensitivityAverage).toNat := by
    rw [EepromImage.unsignedAt, Word.unsigned_all, word]
  rw [signed_pixelWord, EepromImage.alphaSum, average]
  exact value_ofScales e row column _ _ _ _

theorem kTaAverage_eq (k : Fin 4) : kTaAverage e k = e.kTaAverageAt k := by
  have even : e.wordAt 0x2436 = e.read ambientTemperatureAverageConstantsEvenColumns :=
    e.wordAt_eq rfl
  have odd : e.wordAt 0x2437 = e.read ambientTemperatureAverageConstantsOddColumns :=
    e.wordAt_eq rfl
  unfold kTaAverage EepromImage.kTaAverageAt EepromImage.signedAt
  split <;> simp only [even, odd]

theorem quadrant_of : (Pixel.of row column).quadrant = EepromImage.parity row column := by
  apply Fin.ext
  change 2 * ((Pixel.of row column).row % 2) + (Pixel.of row column).column % 2 = _
  rw [Pixel.row_of, Pixel.column_of]
  rfl

theorem kTa_eq :
    kTaAverage e (Pixel.of row column).quadrant +
      ((e.pixelWord (.of row column)).signed 1 3 <<< kTaRemainderScale e) =
      e.kTaSum row column := by
  have scale : e.unsignedAt 0x2438 0 4 = kTaRemainderScale e :=
    congrArg (Word.unsigned · 0 4) (e.wordAt_eq rfl)
  rw [kTaAverage_eq, signed_pixelWord, EepromImage.kTaSum, scale, quadrant_of]

theorem kVTable_eq (k : Fin 4) :
    (kVTable e).get k = scaled (e.kVAverageAt k) (e.unsignedAt 0x2438 8 4) := by
  have scale : e.unsignedAt 0x2438 8 4 = kVScale e :=
    congrArg (Word.unsigned · 8 4) (e.wordAt_eq rfl)
  have word : e.wordAt 0x2434 = e.read averageVoltageConstants := e.wordAt_eq rfl
  unfold kVTable EepromImage.kVAverageAt EepromImage.signedAt
  rw [scale, word]
  fin_cases k <;> rfl

theorem get_pixels (i : Pixel) : (ofImage e).pixels.get i = pixel e i := by
  change (Vector.ofFn (pixel e))[i.val] = _
  rw [Vector.getElem_ofFn]

theorem pixel_offset :
    (pixel e (.of row column)).offset = (e.offsetSum row column).bmod (2 ^ 16) := by
  rw [pixel, offset_eq, Nat.one_shiftLeft]

theorem pixel_alpha :
    (pixel e (.of row column)).alpha =
      scaled (e.alphaSum row column) (e.unsignedAt 0x2420 12 4 + 30) := by
  have scale : e.unsignedAt 0x2420 12 4 = alphaScale e :=
    congrArg (Word.unsigned · 12 4) (e.wordAt_eq rfl)
  rw [← alpha_eq, scale]
  rfl

theorem pixel_kTa :
    (pixel e (.of row column)).kTa =
      scaled (e.kTaSum row column) (e.unsignedAt 0x2438 4 4 + 8) := by
  have scale : e.unsignedAt 0x2438 4 4 + 8 = kTaScale e :=
    congrArg (fun w : Word => w.unsigned 4 4 + 8) (e.wordAt_eq rfl)
  rw [← kTa_eq, scale]
  rfl

theorem pixel_failed :
    (pixel e (.of row column)).failed = true ↔ e.wordAt (0x2440 + (32 * row + column)) = 0 := by
  rw [wordAt_pixel_of]
  exact beq_iff_eq

theorem pixel_outlier :
    (pixel e (.of row column)).outlier = true ↔
      (e.wordAt (0x2440 + (32 * row + column))).toNat % 2 = 1 := by
  have bit : (pixel e (.of row column)).outlier = (e.pixelWord (.of row column)).toNat.testBit 0 :=
    rfl
  rw [wordAt_pixel_of, bit, Nat.testBit_zero, decide_eq_true_iff]

theorem ofWords?_toArray : ofWords? e.toArray = .ok (ofImage e) := by
  rw [ofWords?, dif_pos e.size_toArray]

open Double (ExactQuotient exactQuotient_scaled)

/-- What any image of the EEPROM calibrates each pixel to. -/
theorem decodes_pixels :
    ∃ c, ofWords? e.toArray = .ok c ∧
      ∀ (row : Fin rowCount) (column : Fin columnCount),
        (c.pixels.get (Pixel.of row column)).offset = (e.offsetSum row column).bmod (2 ^ 16) ∧
        ExactQuotient (c.pixels.get (Pixel.of row column)).alpha (e.alphaSum row column)
          (e.unsignedAt 0x2420 12 4 + 30) ∧
        ExactQuotient (c.pixels.get (Pixel.of row column)).kTa (e.kTaSum row column)
          (e.unsignedAt 0x2438 4 4 + 8) ∧
        ExactQuotient (c.kV.get (Pixel.of row column).quadrant)
          (e.kVAverageAt (EepromImage.parity row column)) (e.unsignedAt 0x2438 8 4) ∧
        ((c.pixels.get (Pixel.of row column)).failed = true ↔
          e.wordAt (0x2440 + (32 * row + column)) = 0) ∧
        ((c.pixels.get (Pixel.of row column)).outlier = true ↔
          (e.wordAt (0x2440 + (32 * row + column))).toNat % 2 = 1) ∧
        e.offsetSum32? row column = some (e.offsetSum row column) ∧
        e.alphaSum32? row column = some (e.alphaSum row column) ∧
        e.kTaSum32? row column = some (e.kTaSum row column) := by
  refine ⟨_, ofWords?_toArray e, fun row column => ?_⟩
  have scale (address offset : Nat) : e.unsignedAt address offset 4 < 16 :=
    Word.unsigned_lt _ offset 4
  have alphaScale := scale 0x2420 12
  have kTaScale := scale 0x2438 4
  have kVScale := scale 0x2438 8
  have alpha := e.natAbs_alphaSum_le row column
  have kTa := e.natAbs_kTaSum_le row column
  have kV := e.natAbs_kVAverageAt_le (EepromImage.parity row column)
  have hkV : (ofImage e).kV.get (Pixel.of row column).quadrant =
      scaled (e.kVAverageAt (EepromImage.parity row column)) (e.unsignedAt 0x2438 8 4) := by
    rw [quadrant_of]
    exact kVTable_eq e _
  rw [get_pixels, pixel_alpha, pixel_kTa, hkV]
  exact ⟨pixel_offset e row column, exactQuotient_scaled (by omega) (by omega),
    exactQuotient_scaled (by omega) (by omega), exactQuotient_scaled (by omega) (by omega),
    pixel_failed e row column, pixel_outlier e row column, e.offsetSum32?_eq row column,
    e.alphaSum32?_eq row column, e.kTaSum32?_eq row column⟩

end Calibration
end Thermopile
