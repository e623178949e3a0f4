import Thermopile.Proofs.Calibration.Pixels
import Thermopile.Proofs.MachineInteger

namespace Thermopile

open Machine

def EepromAddress.index? (a : EepromAddress) : Option Nat :=
  match AddressSpace.distance a base with
  | .ok distance => some distance.toNat
  | .error _ => none

theorem EepromAddress.index?_eq (a : EepromAddress) : a.index? = some a.index := by
  cases a <;> rfl

namespace Calibration

open EepromAddress

section
variable (words : Array Word)

def word? (a : EepromAddress) : Option Word := do words[← a.index?]?

def slice? (start : EepromAddress) (count : Nat) : Option (List Word) := do
  let first ← start.index?
  if first + count ≤ words.size then some ((words.toList.drop first).take count) else none

def rest? (start : EepromAddress) : Option (List Word) := do
  let first ← start.index?
  if first ≤ words.size then some (words.toList.drop first) else none

end

section
variable (e : EepromImage)

theorem getElem?_toArray {k : Nat} (hk : k < eepromSize) :
    e.toArray[k]? = some (e.get ⟨k, hk⟩) := by
  rw [Vector.getElem?_toArray, Vector.getElem?_eq_getElem hk]
  rfl

theorem word?_eq (a : EepromAddress) : word? e.toArray a = some (e.read a) := by
  rw [word?, a.index?_eq, some_bind, getElem?_toArray e a.index_lt, EepromImage.read]

theorem exists_slice? {start : EepromAddress} {count : Nat}
    (inside : start.index + count ≤ eepromSize) :
    ∃ table, slice? e.toArray start count = some table ∧
      ∀ k, (hk : k < count) → table[k]? = some (e.get ⟨start.index + k, by omega⟩) := by
  refine ⟨(e.toArray.toList.drop start.index).take count, ?_, fun k hk => ?_⟩
  · rw [slice?, start.index?_eq, some_bind, e.size_toArray, if_pos inside]
  · rw [List.getElem?_take_of_lt hk, List.getElem?_drop, Array.getElem?_toList]
    exact getElem?_toArray e (by omega)

end

/-- `numerator / 2 ^ scale`, where the power is a bit moved to its place among 64. -/
def scaled? (numerator : Int) (scale : Nat) : Option Dyadic :=
  shift? 64 scale (scaled numerator scale)

theorem scaled?_eq {n : Int} {k : Nat} (h : k < 64) : scaled? n k = some (scaled n k) :=
  shift?_eq_some h

def scale? (w : Word) (offset least : Nat) : Option Nat := do
  unsigned? 16 ((← unsignedBits? w offset 4) + least)

theorem unsignedNibble?_eq (w : Word) {offset : Nat} (fits : offset + 4 ≤ 16) :
    unsignedBits? w offset 4 = some (w.unsigned offset 4) := unsignedBits?_eq w (by decide) fits

theorem scale?_eq (w : Word) {offset least : Nat} (fits : offset + 4 ≤ 16)
    (small : least < 2 ^ 15) :
    scale? w offset least = some (w.unsigned offset 4 + least) := by
  have short := w.unsigned_lt offset 4
  have total : w.unsigned offset 4 + least < 2 ^ 16 := by omega
  rw [scale?, unsignedNibble?_eq w fits, some_bind, ← Int.natCast_add,
    unsigned?_eq_some total]

theorem scale_lt (w : Word) (offset : Nat) {least : Nat} (small : least ≤ 48) :
    w.unsigned offset 4 + least < 64 := by
  have short := w.unsigned_lt offset 4
  omega

def nibbles? (w : Word) : Option (List Int) :=
  [0, 4, 8, 12].mapM fun offset => signedBits? w offset 4

theorem nibbles?_eq (w : Word) : nibbles? w = some ((List.range 4).map w.nibble) := by
  have field (offset : Nat) (fits : offset + 4 ≤ 16) :
      signedBits? w offset 4 = some (w.signed offset 4) := signedBits?_eq w (by decide) fits
  simp only [nibbles?, List.mapM_cons, List.mapM_nil, field 0 (by decide), field 4 (by decide),
    field 8 (by decide), field 12 (by decide)]
  rfl

/-- The correction numbered `i` in a table with four of them in a word, scaled up. -/
def correction? (table : List Word) (i scale : Nat) : Option Int := do
  let nibbles ← nibbles? (← table[i / 4]?)
  shiftLeft? 32 (← nibbles[i % 4]?) scale

/-- An average with corrections, which are added to each other first. -/
def corrected? (average row column : Int) : Option Int := do
  signed? 32 (average + (← signed? 32 (row + column)))

theorem corrected?_eq {average row column : Int} (ha : average.natAbs ≤ 2 ^ 16)
    (hr : row.natAbs ≤ 2 ^ 18) (hc : column.natAbs ≤ 2 ^ 18) :
    (average + row + column).natAbs ≤ 2 ^ 20 ∧
      corrected? average row column = some (average + row + column) := by
  have correction : signed? 32 (row + column) = some (row + column) := signed?_eq_some (by omega)
  have total : signed? 32 (average + (row + column)) = some (average + row + column) := by
    rw [Int.add_assoc]
    exact signed?_eq_some (by omega)
  rw [corrected?, correction]
  exact ⟨by omega, total⟩

def base? (words : Array Word) (average : Int) (scales : Word)
    (rowStart columnStart : EepromAddress) (i : Pixel) : Option Int := do
  let rowScale ← unsignedBits? scales 8 4
  let columnScale ← unsignedBits? scales 4 4
  let rows ← slice? words rowStart (rowCount / 4)
  let columns ← slice? words columnStart (columnCount / 4)
  let row ← correction? rows i.row rowScale
  let column ← correction? columns i.column columnScale
  corrected? average row column

def sum? (base remainder : Int) (scale : Nat) : Option Int := do
  signed? 32 (base + (← shiftLeft? 32 remainder scale))

theorem sum?_eq {base remainder : Int} (hb : base.natAbs ≤ 2 ^ 20) (hr : remainder.natAbs ≤ 32)
    (scales : Word) :
    sum? base remainder (scales.unsigned 0 4) =
      some (base + (remainder <<< scales.unsigned 0 4)) := by
  have short := scales.unsigned_lt 0 4
  have bound := Word.natAbs_shiftLeft_le hr scales 0
  have shifted : shiftLeft? 32 remainder (scales.unsigned 0 4) =
      some (remainder <<< scales.unsigned 0 4) := shiftLeft?_eq_some (by omega) (by omega)
  rw [sum?, shifted]
  exact signed?_eq_some (by omega)

section
variable (e : EepromImage)

theorem exists_correction? {start : EepromAddress} {count i : Nat}
    (inside : start.index + count ≤ eepromSize) (hi : i / 4 < count) (scales : Word)
    (offset : Nat) :
    let nibble := (e.get ⟨start.index + i / 4, by omega⟩).nibble (i % 4)
    let correction := nibble <<< scales.unsigned offset 4
    correction.natAbs ≤ 2 ^ 18 ∧ ∃ table, slice? e.toArray start count = some table ∧
      correction? table i (scales.unsigned offset 4) = some correction := by
  intro nibble correction
  obtain ⟨table, found, words⟩ := exists_slice? e inside
  have bound : correction.natAbs ≤ 2 ^ 18 :=
    Word.natAbs_shiftLeft_le (Word.natAbs_signed_le _ _ 4) scales offset
  have listed (w : Word) : ((List.range 4).map w.nibble)[i % 4]? = some (w.nibble (i % 4)) := by
    rw [List.getElem?_map, List.getElem?_range (Nat.mod_lt i (by decide))]
    rfl
  refine ⟨bound, table, found, ?_⟩
  have short := scales.unsigned_lt offset 4
  simp only [correction?, words _ hi, nibbles?_eq, listed, some_bind]
  exact shiftLeft?_eq_some (by omega) (Nat.lt_of_le_of_lt bound (by decide))

theorem exists_base? {average : Int} (ha : average.natAbs ≤ 2 ^ 16) (scales : Word)
    {rowStart columnStart : EepromAddress} (insideRows : rowStart.index + 8 ≤ eepromSize)
    (insideColumns : columnStart.index + columnCount / 4 ≤ eepromSize) (i : Pixel) :
    ∃ base, base? e.toArray average scales rowStart columnStart i = some base ∧
      ∀ remainder : Int, remainder.natAbs ≤ 32 →
        sum? base remainder (scales.unsigned 0 4) =
          some ((PixelTable.ofScales scales average
            (fun r => e.nibble rowStart (r.castLE (by decide)) insideRows)
            (fun c => e.nibble columnStart c insideColumns)).value i remainder) := by
  have hr : i.row < 24 := Nat.div_lt_of_lt_mul i.isLt
  have hc : i.column < 32 := Nat.mod_lt _ (by decide)
  have enough : rowStart.index + rowCount / 4 ≤ eepromSize :=
    Nat.le_trans (Nat.add_le_add_left (by decide) _) insideRows
  obtain ⟨rowBound, rows, foundRows, row⟩ :=
    exists_correction? e enough (Nat.div_lt_of_lt_mul hr) scales 8
  obtain ⟨columnBound, columns, foundColumns, column⟩ :=
    exists_correction? e insideColumns (Nat.div_lt_of_lt_mul hc) scales 4
  obtain ⟨bound, sum⟩ := corrected?_eq ha rowBound columnBound
  simp only [base?, unsignedNibble?_eq scales (by decide : 8 + 4 ≤ 16),
    unsignedNibble?_eq scales (by decide : 4 + 4 ≤ 16), foundRows, foundColumns, row, column,
    some_bind]
  exact ⟨_, sum, fun remainder small => sum?_eq bound small scales⟩

end

def pixel? (words : Array Word) (i : Pixel) (w : Word) : Option PixelCalibration := do
  let offsetScales ← word? words offsetCompensation
  let offsetAverage ← word? words pixelOffsetAverage
  let offsetBase ← base? words offsetAverage.toInt offsetScales offsetCompensationRowStart
    offsetCompensationColumnStart i
  let offset ← sum? offsetBase (← signedBits? w 10 6) (← unsignedBits? offsetScales 0 4)
  let alphaScales ← word? words sensitivityScale
  let alphaAverage ← word? words pixelSensitivityAverage
  let alphaBase ← base? words alphaAverage.toNat alphaScales pixelSensitivityCompensationRowStart
    pixelSensitivityCompensationColumnStart i
  let alpha ← sum? alphaBase (← signedBits? w 4 6) (← unsignedBits? alphaScales 0 4)
  let scales ← word? words vAndTaScale
  let even ← word? words ambientTemperatureAverageConstantsEvenColumns
  let odd ← word? words ambientTemperatureAverageConstantsOddColumns
  let averages := [← signedBits? even 8 8, ← signedBits? odd 8 8, ← signedBits? even 0 8,
    ← signedBits? odd 0 8]
  let kTa ← sum? (← averages[i.quadrant.val]?) (← signedBits? w 1 3) (← unsignedBits? scales 0 4)
  return {
    offset := wrap 16 offset
    alpha := ← scaled? alpha (← scale? alphaScales 12 30)
    kTa := ← scaled? kTa (← scale? scales 4 8)
    failed := w == 0
    outlier := ← isBitSet? w 0 }

theorem pixel?_eq (e : EepromImage) (i : Pixel) :
    pixel? e.toArray i (e.pixelWord i) = some (pixel e i) := by
  have average (q : Fin 4) : [(e.read ambientTemperatureAverageConstantsEvenColumns).signed 8 8,
      (e.read ambientTemperatureAverageConstantsOddColumns).signed 8 8,
      (e.read ambientTemperatureAverageConstantsEvenColumns).signed 0 8,
      (e.read ambientTemperatureAverageConstantsOddColumns).signed 0 8][q.val]? =
      some (kTaAverage e q) := by
    fin_cases q <;> rfl
  have averageBound : (kTaAverage e i.quadrant).natAbs ≤ 2 ^ 20 := by
    rw [kTaAverage_eq]
    exact (e.natAbs_kTaAverageAt_le _).trans (by decide)
  obtain ⟨offsetBase, foundOffset, offset⟩ := exists_base? e
    (e.read pixelOffsetAverage).natAbs_toInt_lt.le (e.read offsetCompensation)
    (by decide : offsetCompensationRowStart.index + 8 ≤ eepromSize)
    (by decide : offsetCompensationColumnStart.index + 8 ≤ eepromSize) i
  have alphaAverage : ((e.read pixelSensitivityAverage).toNat : Int).natAbs ≤ 2 ^ 16 :=
    (e.read pixelSensitivityAverage).toNat_lt.le
  obtain ⟨alphaBase, foundAlpha, alpha⟩ := exists_base? e alphaAverage (e.read sensitivityScale)
    (by decide : pixelSensitivityCompensationRowStart.index + 8 ≤ eepromSize)
    (by decide : pixelSensitivityCompensationColumnStart.index + 8 ≤ eepromSize) i
  have remainder (offset width : Nat) (narrow : 2 ^ width / 2 ≤ 32) :
      ((e.pixelWord i).signed offset width).natAbs ≤ 32 :=
    (Word.natAbs_signed_le _ _ _).trans narrow
  have kTa := sum?_eq averageBound (remainder 1 3 (by decide)) (e.read vAndTaScale)
  have alphaScale := scale_lt (e.read sensitivityScale) 12 (by decide : 30 ≤ 48)
  have kTaScale := scale_lt (e.read vAndTaScale) 4 (by decide : 8 ≤ 48)
  simp (disch := decide) only [pixel?, word?_eq, signedBits?_eq, unsignedBits?_eq, isBitSet?_eq,
    scale?_eq, foundOffset, offset _ (remainder 10 6 (by decide)), foundAlpha,
    alpha _ (remainder 4 6 (by decide)), average, kTa, scaled?_eq alphaScale, scaled?_eq kTaScale,
    some_bind]
  rfl

/-- The pixels' constants, of which those without a word stay blank. -/
def pixels? (words : Array Word) : Option (Image PixelCalibration) := do
  let pixelWords ← rest? words pixelCalibrationStart
  if pixelCount < pixelWords.length then none
  else Vector.ofFnM fun i =>
    match pixelWords[i.val]? with
    | some w => pixel? words i w
    | none => some ⟨0, 0, 0, false, false⟩

theorem pixels?_eq (e : EepromImage) : pixels? e.toArray = some (Vector.ofFn (pixel e)) := by
  have found : rest? e.toArray pixelCalibrationStart = some (e.toArray.toList.drop 64) := by
    have inside : pixelCalibrationStart.index ≤ eepromSize := by decide
    rw [rest?, pixelCalibrationStart.index?_eq, some_bind, e.size_toArray, if_pos inside]
    rfl
  have length : (e.toArray.toList.drop 64).length = pixelCount := by
    rw [List.length_drop, Array.length_toList, e.size_toArray]
    rfl
  have word (i : Pixel) : (e.toArray.toList.drop 64)[i.val]? = some (e.pixelWord i) := by
    have inside : 64 + i.val < eepromSize := Nat.add_lt_add_left i.isLt 64
    rw [List.getElem?_drop, Array.getElem?_toList, getElem?_toArray e inside]
    rfl
  have each : (fun i : Pixel => match (e.toArray.toList.drop 64)[i.val]? with
      | some w => pixel? e.toArray i w
      | none => some ⟨0, 0, 0, false, false⟩) = fun i => pure (pixel e i) := by
    funext i
    rw [word i, Option.pure_def, ← pixel?_eq e i]
  rw [pixels?, found, some_bind, length, if_neg (Nat.lt_irrefl _), each, Vector.ofFnM_pure,
    Option.pure_def]

end Calibration
end Thermopile
