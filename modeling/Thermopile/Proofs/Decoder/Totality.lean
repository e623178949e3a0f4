import Thermopile.Proofs.Calibration.Totality
import Thermopile.Proofs.Decoder.Step
import Thermopile.Proofs.Decoder.Validation
import Thermopile.Proofs.Register
import Thermopile.Proofs.Repair.Totality

namespace Thermopile

open Machine

def RamAddress.index? (a : RamAddress) : Option Nat :=
  match AddressSpace.distance a base with
  | .ok distance => some distance.toNat
  | .error _ => none

theorem RamAddress.index?_eq (a : RamAddress) : a.index? = some a.index := by
  cases a <;> rfl

theorem Subpage.getElem?_pair {α : Type} (p : Subpage) (pair : α × α) :
    [pair.1, pair.2][p.toNat]? = some (p.select pair) := by
  cases p <;> rfl

namespace Snapshot

variable (s : Snapshot)

/-- Looks at one word after the other for the first that is invalid. -/
def search? (words : RamImage) : List (Option Nat) → Option (Option Nat)
  | [] => some none
  | index :: rest => do
    let i ← index
    if (← words[i]?) = invalidWord then return some i
    else search? words rest

theorem search?_eq {indices : List Nat} (inside : ∀ i ∈ indices, i < ramSize) :
    search? s.words (indices.map some) =
      some (indices.find? fun i => s.words[i]? == some invalidWord) := by
  induction indices with
  | nil => rfl
  | cons i rest ih =>
    rw [List.forall_mem_cons] at inside
    have word := getElem?_get s.words ⟨i, inside.1⟩
    rw [List.map_cons, search?, some_bind, List.find?_cons, word, some_bind, ih inside.2]
    by_cases invalid : s.words.get ⟨i, inside.1⟩ = invalidWord
    · rw [if_pos invalid, invalid, beq_self_eq_true, Option.pure_def]
    · rw [if_neg invalid, beq_eq_false_iff_ne.mpr (mt Option.some.inj invalid)]

def validate? : Option (Except Fault Unit) := do
  let start ← RamAddress.index? .ambientTemperatureVoltageBe
  let auxiliary := auxiliaryRuns.flatMap fun (first, stop) => List.range' first (stop - first)
  match ← search? s.words ((rowStarts s.subpage).map some ++ auxiliary.map (forward? start)) with
  | some i => return .error (.badData ((AddressSpace.address RamAddress.base).advance i))
  | none => return .ok ()

theorem validate?_eq : s.validate? = some s.validate := by
  have auxiliary : (auxiliaryRuns.flatMap fun (first, stop) =>
      List.range' first (stop - first)).map (forward? 768) = auxiliaryWords.map some := by
    decide +kernel
  have found := s.search?_eq fun i (hi : i ∈ checkedWords s.subpage) =>
    (mem_checkedWords.mp hi).lt_ramSize
  rw [checkedWords, List.map_append, ← auxiliary, ← checkedWords, ← firstInvalid?] at found
  have start : RamAddress.index? .ambientTemperatureVoltageBe = some 768 := RamAddress.index?_eq _
  simp only [validate?, start, some_bind, found, validate]
  cases s.firstInvalid? <;> rfl

def read? (a : RamAddress) : Option Int := do
  return (← s.words[(← a.index?)]?).toInt

theorem read?_eq (a : RamAddress) : s.read? a = some (s.read a) := by
  rw [read?, a.index?_eq, some_bind, getElem?_get s.words ⟨a.index, a.index_lt⟩]
  rfl

end Snapshot

variable {α : Type}

section
variable [Scalar α] (c : Calibration) (s : Snapshot)

/-- Ratio of two resolutions, each a bit moved to its place among 32. -/
def resolutionRatio? (calibrated current : Nat) : Option α := do
  let calibrated ← shift? 32 calibrated (Scalar.twoPow calibrated)
  let current ← shift? 32 current (Scalar.twoPow current)
  return calibrated / current

/-- The conditions of a measurement; `resolution` is the code that the calibration keeps. -/
def conditions? (resolution : UInt8) : Option (Conditions α) := do
  let ratio : α ← resolutionRatio? resolution.toNat s.resolution.code
  let deltaV := (ratio * Scalar.ofInt (← s.read? .pixelSupplyVoltage) - Scalar.ofInt c.vdd25) /
    Scalar.ofInt c.kVdd
  let vPtat : α := Scalar.ofInt (← s.read? .ambientTemperatureVoltage)
  let vBe : α := Scalar.ofInt (← s.read? .ambientTemperatureVoltageBe)
  let vPtatArt := vPtat * Scalar.twoPow 18 / (vPtat * Scalar.ofDyadic c.alphaPtat + vBe)
  let ta := (vPtatArt / (Scalar.one + Scalar.ofDyadic c.kVptat * deltaV) -
    Scalar.ofInt c.vPtat25) / Scalar.ofDyadic c.kTptat + ta0
  let gain := Scalar.ofInt c.gain / Scalar.ofInt (← s.read? .gain)
  return ⟨gain, deltaV + vdd0, ta⟩

theorem conditions?_eq {resolution : UInt8} (h : resolution.toNat = c.resolution.code) :
    conditions? c s resolution = some (Conditions.of c s : Conditions α) := by
  have codes (r : Resolution) : r.code < 32 := by cases r <;> decide
  simp only [conditions?, resolutionRatio?, h, shift?_eq_some (codes _), s.read?_eq, some_bind,
    Option.pure_def]
  rfl

def compensationReference? : Option α := do
  let offset ← [c.offsetCp.1, c.offsetCp.2][s.subpage.toNat]?
  if s.subpage = .one ∧ s.pattern = .interleave then
    return Scalar.ofInt offset + Scalar.ofDyadic (← c.interleave[0]?)
  else return Scalar.ofInt offset

theorem compensationReference?_eq :
    compensationReference? c s = some (compensationReference c s : α) := by
  rw [compensationReference?, Subpage.getElem?_pair, some_bind]
  unfold compensationReference
  split <;> rfl

def compensationOffset? (k : Conditions α) : Option α := do
  let reference ← compensationReference? c s
  let value ← s.read? (s.subpage.select (.compensationPixelZero, .compensationPixelOne))
  return Scalar.ofInt value * k.gain -
    reference * k.offsetFactor (Scalar.ofDyadic c.kTaCp) (Scalar.ofDyadic c.kVCp)

theorem compensationOffset?_eq (k : Conditions α) :
    compensationOffset? c s k = some (compensationOffset c k s) := by
  rw [compensationOffset?, compensationReference?_eq, some_bind, s.read?_eq, some_bind,
    compensationOffset, s.compensationPixel_eq, Option.pure_def]

def conversionPattern? (i : Nat) (p : Subpage) : Option Int := do
  let n := wrap 64 i
  let second ← signed? 64 (n + 2)
  let third ← signed? 64 (n + 3)
  let first ← signed? 64 (n + 1)
  let difference ← signed? 64 ((second >>> (2 : Nat)) - (third >>> (2 : Nat)))
  let sum ← signed? 64 (difference + (first >>> (2 : Nat)))
  let pattern ← signed? 64 (sum - (n >>> (2 : Nat)))
  let sign ← signed? 64 (1 - (← signed? 64 (2 * p.toNat)))
  signed? 64 (pattern * sign)

theorem conversionPattern?_eq (i : Pixel) (p : Subpage) :
    conversionPattern? i p = some (conversionPattern i p) := by
  have inside : i.val < 768 := i.isLt
  have fits {n : Int} (h : n.natAbs < 2 ^ 63) : signed? 64 n = some n := signed?_eq_some h
  have down (n : Int) : n >>> (2 : Nat) = n / 4 := n.shiftRight_eq_div_pow 2
  have number : wrap 64 i.val = i.val := wrap_eq (by omega) (by decide)
  have small : p.toNat < 2 := by cases p <;> decide
  simp (disch := omega) only [conversionPattern?, number, down, fits, some_bind]
  rw [fits, conversionPattern]
  cases p <;> simp only [Subpage.toNat] <;> omega

def interleaveCorrection? (i : Nat) (p : Subpage) : Option α := do
  let pattern ← conversionPattern? i p
  let side ← signed? 64 ((← signed? 64 (2 * p.toNat)) - 1)
  return Scalar.ofDyadic (← c.interleave[2]?) * Scalar.ofInt side -
    Scalar.ofDyadic (← c.interleave[1]?) * Scalar.ofInt pattern

theorem interleaveCorrection?_eq (i : Pixel) (p : Subpage) :
    interleaveCorrection? c i p = some (interleaveCorrection c i p : α) := by
  have double : signed? 64 (2 * p.toNat) = some (2 * p.toNat : Int) := by cases p <;> decide
  have side : signed? 64 (2 * p.toNat - 1) = some (2 * p.toNat - 1 : Int) := by
    cases p <;> decide
  have second : c.interleave[1]? = some (c.interleave.get 1) := getElem?_get c.interleave 1
  have third : c.interleave[2]? = some (c.interleave.get 2) := getElem?_get c.interleave 2
  rw [interleaveCorrection?, conversionPattern?_eq, some_bind, double, some_bind, side, some_bind,
    third, some_bind, second, some_bind, interleaveCorrection, Option.pure_def]

def pixelSignal? (k : Conditions α) (i : Nat) : Option α := do
  let reading ← s.words[i]?
  let p ← c.pixels[i]?
  let kV ← c.kV[2 * (i / columnCount % 2) + i % columnCount % 2]?
  let signal := Scalar.ofInt reading.toInt * k.gain -
    Scalar.ofInt p.offset * k.offsetFactor (Scalar.ofDyadic p.kTa) (Scalar.ofDyadic kV)
  match s.pattern with
  | .chess => return signal
  | .interleave => return signal + (← interleaveCorrection? c i s.subpage)

theorem pixelSignal?_eq (k : Conditions α) (i : Pixel) :
    pixelSignal? c s k i = some (pixelSignal c k s i) := by
  have reading : s.words[i.val]? = some (s.words.get (i.castLE (by decide))) :=
    getElem?_get s.words (i.castLE (by decide))
  have kV : c.kV[2 * (i / columnCount % 2) + i % columnCount % 2]? = some (c.kV.get i.quadrant) :=
    getElem?_get c.kV i.quadrant
  unfold pixelSignal? pixelSignal
  rw [reading, some_bind, getElem?_get, some_bind, kV, some_bind]
  cases s.pattern with
  | chess => rfl
  | interleave => simp only [interleaveCorrection?_eq, some_bind, Option.pure_def]; rfl

def infrared? (k : Conditions α) (emissivity share : α) (i : Nat) : Option α := do
  return (← pixelSignal? c s k i) / emissivity - share

theorem infrared?_eq (k : Conditions α) (emissivity compensation : α) (i : Pixel) :
    infrared? c s k emissivity (Scalar.ofDyadic c.tgc * compensation) i =
      some (infrared c k s emissivity compensation i) := by
  rw [infrared?, pixelSignal?_eq, some_bind, infrared, Option.pure_def]

end

section
variable [Radiometric α] (c : Calibration)

def rangeTemperature? (alpha tar v basic : α) : Option α := do
  let lowest : α := Scalar.ofInt (← c.corners[0]?)
  let t := if Scalar.le lowest basic then basic else lowest
  let range := ((rangeOf? c t).map Fin.val).getD 0
  let corner : α := Scalar.ofInt (← c.corners[range]?)
  let correction ← (Vector.ofFn c.alphaCorrection : Vector α 4)[range]?
  let slope : α := Scalar.ofDyadic (← c.ksTo[range]?)
  let gain := alpha * correction * (Scalar.one + slope * (t - corner))
  return Radiometric.fourthRoot (v / gain + tar) - zeroCelsius

theorem rangeTemperature?_eq (alpha tar v basic : α) :
    rangeTemperature? c alpha tar v basic = some (rangeTemperature c alpha tar v basic) := by
  have corner (j : Fin 4) : c.corners[j.val]? = some (c.corners.get j) := getElem?_get _ j
  have correction (j : Fin 4) :
      (Vector.ofFn c.alphaCorrection : Vector α 4)[j.val]? = some (c.alphaCorrection j) := by
    rw [getElem?_get, Vector.get_ofFn]
  have slope (j : Fin 4) : c.ksTo[j.val]? = some (c.ksTo.get j) := getElem?_get _ j
  have range (t : α) : ((rangeOf? c t).map Fin.val).getD 0 =
      ((rangeOf? c t).getD Calibration.lowestRange).val := by
    cases rangeOf? c t <;> rfl
  have lowest : c.corners[0]? = some (c.corners.get Calibration.lowestRange) := corner 0
  rw [rangeTemperature?, lowest, some_bind]
  simp only [range, corner, correction, slope, some_bind]
  rfl

/-- The temperature of a pixel before repair; `share` and `alphaCp` are due to the compensation
pixel, and `slope` is that of the basic range. -/
def pixelTemperature? (d : Decoder α) (s : Snapshot) (k : Conditions α)
    (share alphaCp slope tar : α) (i : Nat) : Option α := do
  let v ← infrared? c s k d.emissivity share i
  let alpha := (Scalar.ofDyadic (← c.pixels[i]?).alpha - alphaCp) *
    (Scalar.one + Scalar.ofDyadic c.ksTa * (k.ta - ta0))
  let correction := slope *
    Radiometric.fourthRoot (Scalar.cube alpha * v + Scalar.fourthPower alpha * tar)
  let basic := Radiometric.fourthRoot
    (v / (alpha * (Scalar.one - slope * zeroCelsius) + correction) + tar) - zeroCelsius
  rangeTemperature? c alpha tar v basic

theorem pixelTemperature?_eq (d : Decoder α) (s : Snapshot) (i : Pixel) :
    let k : Conditions α := Conditions.of c s
    pixelTemperature? c d s k (Scalar.ofDyadic c.tgc * compensationOffset c k s)
        (Scalar.ofDyadic c.tgc * Scalar.ofDyadic (s.subpage.select c.alphaCp))
        (c.sensitivitySlope Calibration.basicRange)
        (reflectedRadiation k.ta (d.reflected.resolve k.ta) d.emissivity) i =
      some (d.pixelTemperature c s i) := by
  intro k
  rw [pixelTemperature?, infrared?_eq, some_bind]
  simp only [getElem?_get, some_bind, rangeTemperature?_eq]
  rfl

end

namespace Decoder

def overwrite? (s : Snapshot) (image : Image α) (value : Nat → Option α) : Option (Image α) :=
  eachPixel? (fun image i => do
    if s.pattern.subpageOf i = s.subpage then assign? image i (← value i) else return image) image

/-- Values that are written one after the other, each from outside the image. -/
theorem get_foldl_set (P : Pixel → Prop) [DecidablePred P] (value : Pixel → α)
    (order : List Pixel) (image : Image α) (j : Pixel) :
    (order.foldl (fun image i => if P i then image.set i.val (value i) i.isLt else image)
      image).get j = if P j ∧ j ∈ order then value j else image.get j := by
  induction order generalizing image with
  | nil => rw [if_neg fun h => List.not_mem_nil h.2, List.foldl_nil]
  | cons i rest ih =>
    have first : (if P i then image.set i.val (value i) i.isLt else image).get j =
        if P j ∧ i = j then value j else image.get j := by
      by_cases same : i = j
      · subst same
        by_cases written : P i <;> simp only [written, get_set, if_true, if_false, and_true]
      · by_cases written : P i <;>
          simp only [written, same, get_set, if_true, if_false, and_false]
    rw [List.foldl_cons, ih, first]
    simp only [List.mem_cons]
    grind

theorem overwrite?_eq (s : Snapshot) (image : Image α) {value? : Nat → Option α}
    {value : Pixel → α} (h : ∀ i : Pixel, s.Captures i → value? i = some (value i)) :
    overwrite? s image value? = some (overwrite s image value) := by
  have step (image : Image α) (i : Pixel) :
      (do
        if s.pattern.subpageOf i = s.subpage then assign? image i (← value? i)
        else return image) =
        some (if s.Captures i then image.set i.val (value i) i.isLt else image) := by
    by_cases captured : s.Captures i
    · rw [if_pos captured, h i captured, some_bind, assign?_eq]
      exact if_pos captured
    · rw [if_neg captured]
      exact if_neg captured
  rw [overwrite?, eachPixel?_eq step]
  refine congrArg some (Vector.ext fun j hj => ?_)
  have written := get_foldl_set s.Captures value (List.finRange pixelCount) image ⟨j, hj⟩
  simp only [List.mem_finRange, and_true, ← get_overwrite] at written
  exact written

def remember? (d : Decoder α) (p : Subpage) (offset : α) : Option (Decoder α) := do
  let offsets ← assign? #v[d.compensation.1, d.compensation.2] p.toNat offset
  return { d with compensation := (offsets.get 0, offsets.get 1) }

theorem remember?_eq (d : Decoder α) (p : Subpage) (offset : α) :
    d.remember? p offset = some (d.observe p offset) := by
  cases p <;> rfl

variable (d : Decoder α) (c : Calibration) (s : Snapshot) (resolution : UInt8)

def decodeInfrared? [Scalar α] (image : Image α) :
    Option (Except Fault α × Decoder α × Image α) := do
  match ← s.validate? with
  | .error fault => return (.error fault, d, image)
  | .ok () =>
    let k : Conditions α ← conditions? c s resolution
    let offset ← compensationOffset? c s k
    let d' ← d.remember? s.subpage offset
    let image' ← overwrite? s image
      (infrared? c s k d.emissivity (Scalar.ofDyadic c.tgc * offset))
    return (.ok k.ta, d', image')

theorem decodeInfrared?_eq [Scalar α] (h : resolution.toNat = c.resolution.code)
    (image : Image α) :
    d.decodeInfrared? c s resolution image = some (d.decodeInfrared c s image) := by
  unfold decodeInfrared? decodeInfrared
  rw [s.validate?_eq, some_bind]
  cases s.validate with
  | error fault => rfl
  | ok _ =>
    have written := overwrite?_eq s image fun i _ => infrared?_eq c s (Conditions.of c s)
      d.emissivity (compensationOffset c (Conditions.of c s) s) i
    simp only [conditions?_eq c s h, some_bind, compensationOffset?_eq, remember?_eq, written]
    rfl

def decode? [Radiometric α] (frame : Frame α) :
    Option (Except Fault Unit × Decoder α × Frame α) := do
  match ← s.validate? with
  | .error fault => return (.error fault, d, frame)
  | .ok () =>
    let k : Conditions α ← conditions? c s resolution
    let offset ← compensationOffset? c s k
    let d' ← d.remember? s.subpage offset
    let share := Scalar.ofDyadic c.tgc * offset
    let alphaCp : α := Scalar.ofDyadic c.tgc *
      Scalar.ofDyadic (← [c.alphaCp.1, c.alphaCp.2][s.subpage.toNat]?)
    let slope : α := Scalar.ofDyadic (← c.ksTo[Calibration.basicRange.val]?)
    let tr := d.reflected.resolve k.ta
    let tar := reflectedRadiation k.ta tr d.emissivity
    let measured ← overwrite? s frame.temperatures
      (pixelTemperature? c d s k share alphaCp slope tar)
    let temperatures ←
      if d.repairBadPixels then repair? c measured s.pattern s.subpage else pure measured
    return (.ok (), d', { frame with
      temperatures := temperatures
      subpage := some s.subpage
      pattern := s.pattern
      vdd := k.vdd
      ta := k.ta
      tr := tr
      emissivity := d.emissivity })

theorem decode?_eq [Radiometric α] (h : resolution.toNat = c.resolution.code) (frame : Frame α) :
    d.decode? c s resolution frame = some (d.decode c s frame) := by
  have slope : c.ksTo[Calibration.basicRange.val]? = some (c.ksTo.get Calibration.basicRange) :=
    getElem?_get c.ksTo Calibration.basicRange
  unfold decode?
  rw [s.validate?_eq, some_bind]
  cases valid : s.validate with
  | error fault => rw [decode_of_error d c s frame valid]; rfl
  | ok _ =>
    have written := overwrite?_eq s frame.temperatures fun i _ => pixelTemperature?_eq c d s i
    simp only [conditions?_eq c s h, some_bind, compensationOffset?_eq, remember?_eq,
      Subpage.getElem?_pair, slope]
    rw [show Scalar.ofDyadic (c.ksTo.get Calibration.basicRange) =
      (c.sensitivitySlope Calibration.basicRange : α) from rfl, written, some_bind,
      decode_of_valid d c s frame valid, remeasure]
    cases d.repairBadPixels with
    | false => rfl
    | true => simp only [repair?_eq, if_true, some_bind, Option.pure_def]

end Decoder

/-- Whatever an image of the EEPROM holds, and whatever is measured and set, the conditions, both
kinds of decoding and the repair come to their end with every shift, sum and index checked, and to
the results of `Conditions.of`, `decode`, `decodeInfrared` and `repair`. The resolutions that shifts
are by are below 32, a pixel has one, two or four diagonal neighbours, and two places to either side
of a pixel that is not near the edge lie in its row. -/
theorem decoding_never_gives_up {α : Type} [Radiometric α] (e : EepromImage) :
    ∃ (c : Calibration) (resolution : UInt8), Calibration.ofWords? e.toArray = .ok c ∧
      resolution.toNat = (e.read .vAndTaScale).unsigned 12 2 ∧ resolution < 32 ∧
      (∀ s : Snapshot, s.resolution.code < 32 ∧
        conditions? c s resolution = some (Conditions.of c s : Conditions α)) ∧
      (∀ (d : Decoder α) (s : Snapshot) (frame : Frame α),
        d.decode? c s resolution frame = some (d.decode c s frame)) ∧
      (∀ (d : Decoder α) (s : Snapshot) (image : Image α),
        d.decodeInfrared? c s resolution image = some (d.decodeInfrared c s image)) ∧
      (∀ (values : Image α) (pattern : AccessPattern) (p : Subpage),
        repair? c values pattern p = some (repair c pattern p values)) ∧
      ∀ i : Pixel, i.diagonals.length ∈ [1, 2, 4] ∧
        (2 ≤ i.column ∧ i.column ≤ 29 →
          ∃ left right : Pixel, back? i 2 = some left.val ∧ forward? i 2 = some right.val ∧
            left.row = i.row ∧ left.column + 2 = i.column ∧
            right.row = i.row ∧ right.column = i.column + 2) := by
  have field := (e.read .vAndTaScale).unsigned_lt 12 2
  have kept : (UInt8.ofNat ((e.read .vAndTaScale).unsigned 12 2)).toNat =
      (e.read .vAndTaScale).unsigned 12 2 :=
    UInt8.toNat_ofNat_of_lt (Nat.lt_trans field (by decide))
  have code : (UInt8.ofNat ((e.read .vAndTaScale).unsigned 12 2)).toNat =
      (Calibration.ofImage e).resolution.code := kept.trans (Resolution.code_ofBits field).symm
  refine ⟨.ofImage e, .ofNat ((e.read .vAndTaScale).unsigned 12 2),
    Calibration.ofWords?_toArray e, kept, ?_,
    fun s => ⟨?_, conditions?_eq _ s code⟩, fun d s frame => d.decode?_eq _ s _ code frame,
    fun d s image => d.decodeInfrared?_eq _ s _ code image,
    fun values pattern p => repair?_eq _ values pattern p,
    fun i => ⟨i.length_diagonals_cases, fun inside => ?_⟩⟩
  · rw [UInt8.lt_iff_toNat_lt, kept]
    exact Nat.lt_trans field (by decide)
  · exact Nat.lt_trans s.resolution.code_lt (by decide)
  · obtain ⟨leftRow, leftColumn⟩ := i.place_left inside.1
    obtain ⟨rightRow, rightColumn⟩ := i.place_right (show i.column + 2 < 32 by omega)
    exact ⟨i.left 2, i.right 2, Pixel.back?_left inside.1, Pixel.forward?_right (by omega),
      leftRow, leftColumn, rightRow, rightColumn⟩

end Thermopile
