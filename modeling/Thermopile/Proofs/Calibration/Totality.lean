import Thermopile.Camera.Basic
import Thermopile.Proofs.Calibration.CheckedPixels
import Thermopile.Proofs.Trace

namespace Thermopile

open Machine

namespace Calibration

open EepromAddress

section
variable (w : Word)

theorem wrap_unsigned (offset : Nat) {width : Nat} (narrow : width < 16) :
    wrap 16 (w.unsigned offset width) = w.unsigned offset width := by
  have short := w.unsigned_lt offset width
  have below : 2 ^ width ≤ 2 ^ 15 := Nat.pow_le_pow_right (by decide) (by omega)
  exact wrap_eq (Nat.lt_of_lt_of_le short below) (by decide)

def supply? (w : Word) : Option (Int × Int) := do
  let slope ← shiftLeft? 16 (← signedBits? w 8 8) 5
  let centred ← signed? 16 (wrap 16 (← unsignedBits? w 0 8) - 256)
  let voltage ← signed? 16 ((← shiftLeft? 16 centred 5) - (← shiftLeft? 16 1 13))
  return (slope, voltage)

theorem supply?_eq :
    supply? w = some (w.signed 8 8 * 32, ((w.unsigned 0 8 : Int) - 256) * 32 - 8192) := by
  have slopeBound := Word.natAbs_signed_le w 8 8
  have low := w.unsigned_lt 0 8
  have up (n : Int) : n <<< (5 : Nat) = n * 32 := Int.shiftLeft_eq n 5
  have moved {n : Int} (h : n.natAbs ≤ 256) : shiftLeft? 16 n 5 = some (n * 32) := by
    rw [shiftLeft?_eq_some (by decide) (by rw [up]; omega), up]
  have slope : shiftLeft? 16 (w.signed 8 8) 5 = some (w.signed 8 8 * 32) := moved (by omega)
  have centred : signed? 16 ((w.unsigned 0 8 : Int) - 256) = some ((w.unsigned 0 8 : Int) - 256) :=
    signed?_eq_some (by omega)
  have scaled : shiftLeft? 16 ((w.unsigned 0 8 : Int) - 256) 5 =
      some (((w.unsigned 0 8 : Int) - 256) * 32) := moved (by omega)
  have unit : shiftLeft? 16 1 13 = some 8192 := by decide
  have voltage : signed? 16 (((w.unsigned 0 8 : Int) - 256) * 32 - 8192) =
      some (((w.unsigned 0 8 : Int) - 256) * 32 - 8192) := signed?_eq_some (by omega)
  simp (disch := decide) only [supply?, signedBits?_eq, unsignedBits?_eq, wrap_unsigned, slope,
    centred, scaled, unit, voltage, some_bind, Option.pure_def]

def corners? (w : Word) : Option (Vector Int 4) := do
  let step ← signed? 16 (wrap 16 (← unsignedBits? w 12 2) * 10)
  let second ← signed? 16 (wrap 16 (← unsignedBits? w 4 4) * step)
  let third ← signed? 16 ((← signed? 16 (wrap 16 (← unsignedBits? w 8 4) * step)) + second)
  return #v[-40, 0, second, third]

theorem natAbs_corner_le : ∀ c ∈ (cornerTable w).toList, c.natAbs ≤ 900 := by
  have second := steps_le w (w.unsigned_lt 4 4)
  have third := steps_le w (w.unsigned_lt 8 4)
  have all : ∀ c ∈ ([-40, 0, (w.unsigned 4 4 * (w.unsigned 12 2 * 10) : Nat),
      (w.unsigned 8 4 * (w.unsigned 12 2 * 10) + w.unsigned 4 4 * (w.unsigned 12 2 * 10) : Nat)] :
      List Int), c.natAbs ≤ 900 := by
    simp only [List.forall_mem_cons, Int.natAbs_natCast]
    exact ⟨by decide, by decide, by omega, by omega, List.forall_mem_nil _⟩
  exact all

theorem corners?_eq : corners? w = some (cornerTable w) := by
  have times {a b : Nat} (h : a * b ≤ 900) :
      signed? 16 ((a : Int) * b) = some ((a * b : Nat) : Int) := by
    rw [← Int.natCast_mul]
    exact signed?_eq_some (by omega)
  have plus {a b : Nat} (h : a + b ≤ 900) :
      signed? 16 ((a : Int) + b) = some ((a + b : Nat) : Int) := by
    rw [← Int.natCast_add]
    exact signed?_eq_some (by omega)
  have unit := w.unsigned_lt 12 2
  have second := steps_le w (w.unsigned_lt 4 4)
  have third := steps_le w (w.unsigned_lt 8 4)
  have step : signed? 16 ((w.unsigned 12 2 : Int) * 10) =
      some ((w.unsigned 12 2 * 10 : Nat) : Int) := times (b := 10) (by omega)
  simp (disch := decide) only [corners?, unsignedBits?_eq, wrap_unsigned, step,
    times (second.trans (by decide)), times (third.trans (by decide)),
    plus (Nat.add_le_add third second), some_bind, Option.pure_def]
  rfl

def offsetCp? (w : Word) : Option (Int × Int) := do
  let first ← signedBits? w 0 10
  return (first, ← signed? 16 (first + (← signedBits? w 10 6)))

theorem offsetCp?_eq : offsetCp? w = some (offsetCpPair w) := by
  have first := Word.natAbs_signed_le w 0 10
  have difference := Word.natAbs_signed_le w 10 6
  have second : signed? 16 (w.signed 0 10 + w.signed 10 6) =
      some (w.signed 0 10 + w.signed 10 6) := signed?_eq_some (by omega)
  simp (disch := decide) only [offsetCp?, signedBits?_eq, second, some_bind, Option.pure_def]
  rfl

def alphaCp? (w : Word) (scale : Nat) : Option (Dyadic × Dyadic) := do
  let first ← scaled? (← unsignedBits? w 0 10) scale
  let ratio ← scaled? (← signedBits? w 10 6) 7
  return (first, first * (1 + ratio))

theorem alphaCp?_eq {scale : Nat} (h : scale < 64) : alphaCp? w scale =
    some (scaled (w.unsigned 0 10) scale,
      scaled (w.unsigned 0 10) scale * (1 + scaled (w.signed 10 6) 7)) := by
  simp (disch := decide) only [alphaCp?, unsignedBits?_eq, signedBits?_eq, scaled?_eq h, scaled?_eq,
    some_bind, Option.pure_def]

def kV? (w : Word) (scale : Nat) : Option (Vector Dyadic 4) := do
  return #v[← scaled? (← signedBits? w 12 4) scale, ← scaled? (← signedBits? w 4 4) scale,
    ← scaled? (← signedBits? w 8 4) scale, ← scaled? (← signedBits? w 0 4) scale]

theorem kV?_eq {scale : Nat} (h : scale < 64) : kV? w scale =
    some #v[scaled (w.signed 12 4) scale, scaled (w.signed 4 4) scale,
      scaled (w.signed 8 4) scale, scaled (w.signed 0 4) scale] := by
  simp (disch := decide) only [kV?, signedBits?_eq, scaled?_eq h, some_bind, Option.pure_def]

def slopes? (low high : Word) (scale : Nat) : Option (Vector Dyadic 4) := do
  return #v[← scaled? (← signedBits? low 0 8) scale, ← scaled? (← signedBits? low 8 8) scale,
    ← scaled? (← signedBits? high 0 8) scale, ← scaled? (← signedBits? high 8 8) scale]

theorem slopes?_eq (low high : Word) {scale : Nat} (h : scale < 64) : slopes? low high scale =
    some #v[scaled (low.signed 0 8) scale, scaled (low.signed 8 8) scale,
      scaled (high.signed 0 8) scale, scaled (high.signed 8 8) scale] := by
  simp (disch := decide) only [slopes?, signedBits?_eq, scaled?_eq h, some_bind, Option.pure_def]

def interleave? (w : Word) : Option (Vector Dyadic 3) := do
  return #v[scaled (← signedBits? w 0 6) 4, scaled (← signedBits? w 6 5) 1,
    scaled (← signedBits? w 11 5) 3]

theorem interleave?_eq : interleave? w = some (interleaveTable w) := by
  simp (disch := decide) only [interleave?, signedBits?_eq, some_bind, Option.pure_def]
  rfl

end

/-- The correction of sensitivity for range `n`, range by range from the basic one. -/
def alphaCorrection? {α : Type} [Scalar α] (basic : Nat) (corners : List Int) (slopes : List α)
    (n : Nat) : Option α :=
  if n = basic then some Scalar.one
  else if n < basic then do
    let step ← signed? 16 ((← corners[n + 1]?) - (← corners[n]?))
    let growth := Scalar.one + (← slopes[n]?) * Scalar.ofInt step
    return Scalar.one / growth * (← alphaCorrection? basic corners slopes (n + 1))
  else do
    let step ← signed? 16 ((← corners[n]?) - (← corners[n - 1]?))
    let growth := Scalar.one + (← slopes[n - 1]?) * Scalar.ofInt step
    return growth * (← alphaCorrection? basic corners slopes (n - 1))
termination_by (n - basic) + (basic - n)

/-- The recursion comes to the basic range, and stays inside of the tables on its way. -/
theorem exists_alphaCorrection? {α : Type} [Scalar α] {basic n : Nat} {corners : List Int}
    {slopes : List α} (sizes : corners.length = slopes.length)
    (hb : basic < corners.length) (hn : n < corners.length)
    (small : ∀ c ∈ corners, c.natAbs ≤ 900) :
    ∃ correction, alphaCorrection? basic corners slopes n = some correction := by
  have step {i j : Nat} (hi : i < corners.length) (hj : j < corners.length) :
      signed? 16 (corners[i] - corners[j]) = some (corners[i] - corners[j]) := by
    have first := small _ (List.getElem_mem hi)
    have second := small _ (List.getElem_mem hj)
    exact signed?_eq_some (by omega)
  fun_induction alphaCorrection? basic corners slopes n with
  | case1 => exact ⟨_, rfl⟩
  | case2 n other below ih =>
    have next : n + 1 < corners.length := by omega
    obtain ⟨rest, found⟩ := ih next
    rw [List.getElem?_eq_getElem next, List.getElem?_eq_getElem hn,
      List.getElem?_eq_getElem (sizes ▸ hn), found]
    simp only [step, some_bind, Option.pure_def]
    exact ⟨_, rfl⟩
  | case3 n other above ih =>
    have previous : n - 1 < corners.length := by omega
    obtain ⟨rest, found⟩ := ih previous
    rw [List.getElem?_eq_getElem hn, List.getElem?_eq_getElem previous,
      List.getElem?_eq_getElem (sizes ▸ previous), found]
    simp only [step, some_bind, Option.pure_def]
    exact ⟨_, rfl⟩

theorem exists_corrections? {α : Type} [Scalar α] (w : Word) (slopes : Vector Dyadic 4) :
    ∃ corrections : Vector α 4, (Vector.ofFnM fun n : Fin 4 => alphaCorrection? basicRange
      (cornerTable w).toList (slopes.toList.map Scalar.ofDyadic) n) = some corrections := by
  have each (n : Fin 4) : ∃ correction : α, alphaCorrection? basicRange (cornerTable w).toList
      (slopes.toList.map Scalar.ofDyadic) n = some correction :=
    exists_alphaCorrection? (by simp) (by simp [basicRange]) (by simp) (natAbs_corner_le w)
  choose correction found using each
  refine ⟨Vector.ofFn correction, ?_⟩
  simp only [found]
  exact Vector.ofFnM_pure

/-- The constants that the words calibrate the camera to, together with the corrections of
sensitivity. -/
def decode? {α : Type} [Scalar α] (words : Array Word) :
    Option (Except Fault (Calibration × Vector α 4)) :=
  if words.size ≠ eepromSize then
    some (.error (.undecodable "the EEPROM dump must be exactly 832 words"))
  else do
    let (kVdd, vdd25) ← supply? (← word? words vddConstants)
    let ptat ← word? words ptatConstants
    let kVptat ← scaled? (← signedBits? ptat 10 6) 12
    let kTptat ← scaled? (← signedBits? ptat 0 10) 3
    let vPtat25 ← word? words ptat25
    let alphaPtat ← unsignedBits? (← word? words offsetCompensation) 12 4
    let gain ← word? words EepromAddress.gain
    let alphaScales ← word? words sensitivityScale
    let scales ← word? words vAndTaScale
    let resolution ← unsignedBits? scales 12 2
    let kVScale ← unsignedBits? scales 8 4
    let kTaScale ← scale? scales 4 8
    let kV ← kV? (← word? words averageVoltageConstants) kVScale
    let pixels ← pixels? words
    let interleave ← interleave? (← word? words interlacedModeCompensation)
    let alphaCp ← alphaCp? (← word? words compensationPixelSensitivity) (← scale? alphaScales 12 27)
    let offsetCp ← offsetCp? (← word? words compensationPixelOffset)
    let cp ← word? words compensationPixelConstants
    let kVCp ← scaled? (← signedBits? cp 8 8) kVScale
    let kTaCp ← scaled? (← signedBits? cp 0 8) kTaScale
    let sensitivity ← word? words ambientTemperatureSensitivityConstant
    let ksTa ← scaled? (← signedBits? sensitivity 8 8) 13
    let tgc ← scaled? (← signedBits? sensitivity 0 8) 5
    let corner ← word? words cornerTemperatures
    let corners ← corners? corner
    let ksTo ← slopes? (← word? words objectTemperatureSensitivityRangeConstants1)
      (← word? words objectTemperatureSensitivityRangeConstants2) (← scale? corner 0 8)
    let corrections ← Vector.ofFnM fun n : Fin 4 =>
      alphaCorrection? basicRange corners.toList (ksTo.toList.map Scalar.ofDyadic) n
    let calibration := {
      kVdd, vdd25, resolution := .ofBits (resolution % 2 ^ 8), kVptat, kTptat
      vPtat25 := vPtat25.toInt, alphaPtat := scaled alphaPtat 2 + 8, gain := gain.toInt, ksTa
      corners, ksTo, alphaCp, offsetCp, kV, kVCp, kTaCp, tgc, interleave, pixels }
    return .ok (calibration, corrections)

theorem decode?_toArray {α : Type} [Scalar α] (e : EepromImage) : ∃ corrections : Vector α 4,
    decode? e.toArray = some (.ok (ofImage e, corrections)) := by
  obtain ⟨corrections, found⟩ : ∃ corrections : Vector α 4, _ = some corrections :=
    exists_corrections? (e.read cornerTemperatures) (slopeTable e)
  refine ⟨corrections, ?_⟩
  have right : ¬e.toArray.size ≠ eepromSize := not_not.mpr e.size_toArray
  rw [decode?, if_neg right]
  have kVScale : (e.read vAndTaScale).unsigned 8 4 < 64 := scale_lt _ 8 (by decide : 0 ≤ 48)
  have kTaScale := scale_lt (e.read vAndTaScale) 4 (by decide : 8 ≤ 48)
  have kV : kV? (e.read averageVoltageConstants) ((e.read vAndTaScale).unsigned 8 4) =
      some (kVTable e) := kV?_eq _ kVScale
  have alphaCp : alphaCp? (e.read compensationPixelSensitivity)
      ((e.read sensitivityScale).unsigned 12 4 + 27) = some (alphaCpPair e) :=
    alphaCp?_eq _ (scale_lt _ 12 (by decide : 27 ≤ 48))
  have slopes : slopes? (e.read objectTemperatureSensitivityRangeConstants1)
      (e.read objectTemperatureSensitivityRangeConstants2)
      ((e.read cornerTemperatures).unsigned 0 4 + 8) = some (slopeTable e) :=
    slopes?_eq _ _ (scale_lt _ 0 (by decide : 8 ≤ 48))
  have resolution : (e.read vAndTaScale).unsigned 12 2 % 2 ^ 8 =
      (e.read vAndTaScale).unsigned 12 2 :=
    Nat.mod_eq_of_lt (Nat.lt_trans (Word.unsigned_lt _ 12 2) (by decide))
  simp (disch := decide) only [word?_eq, supply?_eq, signedBits?_eq, unsignedBits?_eq, scale?_eq,
    scaled?_eq, scaled?_eq kVScale, scaled?_eq kTaScale, kV, alphaCp, slopes, corners?_eq,
    offsetCp?_eq, interleave?_eq, pixels?_eq, found, resolution, some_bind, Option.pure_def]
  rfl

theorem ofWords?_eq_ok_iff (words : Array Word) :
    (∃ c, ofWords? words = .ok c) ↔ words.size = eepromSize := by
  constructor
  · rintro ⟨c, decoded⟩
    by_contra wrong
    rw [ofWords?, dif_neg wrong] at decoded
    cases decoded
  · intro right
    rw [ofWords?, dif_pos right]
    exact ⟨_, rfl⟩

theorem ofWords?_eq_error_iff (words : Array Word) :
    (∃ message, ofWords? words = .error (.undecodable message)) ↔ words.size ≠ eepromSize := by
  constructor
  · rintro ⟨message, refused⟩ right
    rw [ofWords?, dif_pos right] at refused
    cases refused
  · intro wrong
    rw [ofWords?, dif_neg wrong]
    exact ⟨_, rfl⟩

theorem decode?_eq (α : Type) [Scalar α] (words : Array Word) : ∃ corrections : Vector α 4,
    decode? words = some ((ofWords? words).map (·, corrections)) := by
  by_cases right : words.size = eepromSize
  · obtain ⟨e, rfl⟩ : ∃ e : EepromImage, e.toArray = words := ⟨⟨words, right⟩, rfl⟩
    rw [ofWords?_toArray]
    exact decode?_toArray e
  · refine ⟨Vector.replicate 4 Scalar.one, ?_⟩
    rw [decode?, if_pos right, ofWords?, dif_neg right]
    rfl

end Calibration

namespace Camera

variable {ε σ : Type} (x : Camera)

/-- Loads the calibration constants if the words allow it. -/
def loadByWords : Script ε Calibration := do
  let image ← x.readWords eepromSize (AddressSpace.address EepromAddress.base)
  match Calibration.ofWords? image.toArray with
  | .error fault => Script.fail fault
  | .ok calibration =>
    Script.report (.calibrationLoaded eepromSize)
    return calibration

theorem loadByWords_eq : (x.loadByWords : Script ε Calibration) = x.loadCalibration := by
  unfold loadByWords loadCalibration
  simp only [Calibration.ofWords?_toArray]

theorem trace_readWords_error {n : Nat} {start : Address} {failure : Failure ε}
    {es : List (Event ε)} (h : Script.Trace (x.readWords n start) (.error failure) es) :
    ∃ e, failure = .transport e := by
  rcases Script.trace_bind.mp h with ⟨f, lifted, -⟩ | ⟨⟨result, words⟩, es₁, es₂, -, handled, -⟩
  · obtain ⟨a, -, he⟩ := Script.trace_lift.mp lifted
    cases he
  · rcases Script.trace_bind.mp handled with ⟨f, failed, same⟩ | ⟨u, es₃, es₄, -, done, -⟩
    · obtain rfl := Except.error.inj same
      obtain ⟨reply, -, he⟩ := Script.trace_onBus.mp failed
      cases reply with
      | error e => exact ⟨e, Except.error.inj he⟩
      | ok u => cases he
    · cases (Script.trace_pure.mp done).1

theorem trace_loadCalibration_error {failure : Failure ε} {es : List (Event ε)}
    (h : Script.Trace x.loadCalibration (.error failure) es) : ∃ e, failure = .transport e := by
  rcases Script.trace_bind.mp h with ⟨f, failed, same⟩ | ⟨image, es₁, es₂, -, reported, -⟩
  · obtain rfl := Except.error.inj same
    exact x.trace_readWords_error failed
  · obtain ⟨reply, rest, done, -⟩ := Script.trace_request_bind.mp reported
    cases (Script.trace_pure.mp done).1

end Camera

namespace Calibration

/-- Whatever the words are, decoding them with checked arithmetic comes to its end, and to the same
result as `ofWords?`: an error for a wrong number of words, and constants for the right one. So the
camera's constants can always be loaded, unless the bus fails. -/
theorem decodes_every_image {ε σ : Type} (α : Type) [Scalar α] (words : Array Word) (x : Camera)
    (w : World ε σ) (s : σ) :
    (∃ corrections : Vector α 4, decode? words = some ((ofWords? words).map (·, corrections))) ∧
    ((∃ message, ofWords? words = .error (.undecodable message)) ↔ words.size ≠ eepromSize) ∧
    ((∃ c, ofWords? words = .ok c) ↔ words.size = eepromSize) ∧
    (x.loadByWords : Script ε Calibration) = x.loadCalibration ∧
    ∀ fault, (x.loadCalibration.run.run w s).1 ≠ .error (.library fault) := by
  refine ⟨decode?_eq α words, ofWords?_eq_error_iff words, ofWords?_eq_ok_iff words,
    x.loadByWords_eq, fun fault failed => ?_⟩
  have trace := Program.trace_run w x.loadCalibration.run s
  rw [failed] at trace
  obtain ⟨e, he⟩ := x.trace_loadCalibration_error trace
  cases he

end Calibration
end Thermopile
