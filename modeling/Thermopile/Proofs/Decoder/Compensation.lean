import Thermopile.Proofs.Calibration.Fields
import Thermopile.Proofs.Decoder.History

namespace Thermopile

/-- The constant of the interleaved pattern numbered `j`. -/
def Calibration.ilChess (c : Calibration) (j : Nat) : Dyadic := c.interleave[j]?.getD 0

theorem Calibration.ilChess_eq (c : Calibration) (j : Fin 3) :
    c.ilChess j = c.interleave.get j := by
  rw [ilChess, getElem?_get, Option.getD_some]

namespace Decoder

variable {α : Type}

inductive Operation (α : Type)
  | decode (c : Calibration) (s : Snapshot) (frame : Frame α)
  | decodeInfrared (c : Calibration) (s : Snapshot) (image : Image α)
  | setEmissivity (emissivity : α)
  | setReflected (reflected : ReflectedTemperature α)

def Operation.measurement? : Operation α → Option (Calibration × Snapshot)
  | .decode c s _ => some (c, s)
  | .decodeInfrared c s _ => some (c, s)
  | .setEmissivity _ => none
  | .setReflected _ => none

/-- The last valid snapshot of a subpage that is decoded, with its calibration. -/
def lastMeasurement? (operations : List (Operation α)) (p : Subpage) :
    Option (Calibration × Snapshot) :=
  lastWhere (fun m => m.2.Valid ∧ m.2.subpage = p) (operations.filterMap Operation.measurement?)

theorem lastMeasurement?_concat (earlier : List (Operation α)) (operation : Operation α)
    (p : Subpage) : lastMeasurement? (earlier ++ [operation]) p =
      match operation.measurement? with
      | some m => if m.2.Valid ∧ m.2.subpage = p then some m else lastMeasurement? earlier p
      | none => lastMeasurement? earlier p := by
  unfold lastMeasurement?
  rw [List.filterMap_append]
  cases h : operation.measurement? with
  | none => rw [List.filterMap_cons_none h, List.filterMap_nil, List.append_nil]
  | some m => rw [List.filterMap_cons_some h, List.filterMap_nil, lastWhere_concat]

/-- The word of the compensation pixel of the measured subpage, with its gain, less an offset that
is scaled to the conditions of the measurement. -/
def measuredCompensation [Scalar α] (c : Calibration) (s : Snapshot) : α :=
  let k : Conditions α := Conditions.of c s
  let scale := (Scalar.one + Scalar.ofDyadic c.kTaCp * (k.ta - Scalar.ofInt 25)) *
    (Scalar.one + Scalar.ofDyadic c.kVCp * (k.vdd - 3.3))
  match s.subpage, s.pattern with
  | .zero, _ =>
    Scalar.ofInt (s.read .compensationPixelZero) * k.gain - Scalar.ofInt c.offsetCp.1 * scale
  | .one, .chess =>
    Scalar.ofInt (s.read .compensationPixelOne) * k.gain - Scalar.ofInt c.offsetCp.2 * scale
  | .one, .interleave =>
    Scalar.ofInt (s.read .compensationPixelOne) * k.gain -
      (Scalar.ofInt c.offsetCp.2 + Scalar.ofDyadic (c.ilChess 0)) * scale

theorem compensationOffset_eq [Scalar α] (c : Calibration) (s : Snapshot) :
    compensationOffset c (Conditions.of c s) s = (measuredCompensation c s : α) := by
  have zero : s.compensationPixel .zero = s.read .compensationPixelZero :=
    s.compensationPixel_eq .zero
  have one : s.compensationPixel .one = s.read .compensationPixelOne := s.compensationPixel_eq .one
  have term : c.ilChess 0 = c.interleave.get 0 := c.ilChess_eq 0
  unfold compensationOffset compensationReference measuredCompensation
  rw [term]
  cases s.subpage with
  | zero =>
    rw [zero]
    cases s.pattern <;> rfl
  | one =>
    rw [one]
    cases s.pattern <;> rfl

theorem select_observe (d : Decoder α) (p q : Subpage) (offset : α) :
    p.select (d.observe q offset).compensation =
      if q = p then offset else p.select d.compensation := by
  cases p <;> cases q <;> rfl

variable [Radiometric α] (d : Decoder α)

def perform (operation : Operation α) : Decoder α :=
  match operation with
  | .decode c s frame => (d.decode c s frame).2.1
  | .decodeInfrared c s image => (d.decodeInfrared c s image).2.1
  | .setEmissivity emissivity => d.setEmissivity emissivity
  | .setReflected reflected => d.setReflected reflected

def performAll (operations : List (Operation α)) : Decoder α := operations.foldl perform d

theorem performAll_concat (earlier : List (Operation α)) (operation : Operation α) :
    d.performAll (earlier ++ [operation]) = (d.performAll earlier).perform operation := by
  rw [performAll, List.foldl_append, List.foldl_cons, List.foldl_nil, performAll]

theorem compensation_perform {operation : Operation α} {c : Calibration} {s : Snapshot}
    (h : operation.measurement? = some (c, s)) :
    (d.perform operation).compensation =
      if s.Valid then (d.observe s.subpage (measuredCompensation c s)).compensation
      else d.compensation := by
  cases operation with
  | decode c s frame =>
    cases h
    by_cases valid : s.Valid
    · rw [if_pos valid, perform, decode_of_valid d c s frame valid, compensationOffset_eq]
    · rw [if_neg valid, perform, decode_of_not_valid d c s frame valid]
  | decodeInfrared c s image =>
    cases h
    by_cases valid : s.Valid
    · rw [if_pos valid, perform, decodeInfrared_of_valid d c s image valid, compensationOffset_eq]
    · obtain ⟨fault, refused⟩ := Snapshot.validate_of_not_valid valid
      rw [if_neg valid, perform, decodeInfrared_of_error d c s image refused]
  | setEmissivity emissivity => cases h
  | setReflected reflected => cases h

theorem select_compensation_perform (operation : Operation α) (p : Subpage) :
    p.select (d.perform operation).compensation =
      match operation.measurement? with
      | some (c, s) =>
        if s.Valid ∧ s.subpage = p then measuredCompensation c s else p.select d.compensation
      | none => p.select d.compensation := by
  cases h : operation.measurement? with
  | none =>
    -- Only decoding touches what is kept.
    cases operation with
    | decode c s frame => cases h
    | decodeInfrared c s image => cases h
    | setEmissivity emissivity => rfl
    | setReflected reflected => rfl
  | some m =>
    obtain ⟨c, s⟩ := m
    rw [compensation_perform d h]
    by_cases valid : s.Valid
    · simp only [valid, if_true, true_and, select_observe]
    · simp only [valid, if_false, false_and]

theorem select_compensation_performAll (operations : List (Operation α)) (p : Subpage) :
    p.select (d.performAll operations).compensation =
      match lastMeasurement? operations p with
      | some (c, s) => measuredCompensation c s
      | none => p.select d.compensation := by
  induction operations using List.reverseRecOn with
  | nil => rfl
  | append_singleton earlier operation ih =>
    -- The last operation decides, if it decodes a valid snapshot of the subpage.
    rw [performAll_concat, select_compensation_perform, lastMeasurement?_concat]
    cases operation.measurement? with
    | none => exact ih
    | some m =>
      obtain ⟨c, s⟩ := m
      by_cases decides : s.Valid ∧ s.subpage = p
      · simp only [if_pos decides]
      · simp only [if_neg decides]
        exact ih

/-- Of everything that was done with a decoder since it was made, the last valid snapshot of a
subpage alone, with its calibration, decides on what the decoder keeps for that subpage; before the
first it keeps zero. -/
theorem keeps_last_compensation (config : DecoderConfig α) (operations : List (Operation α))
    (p : Subpage) :
    p.select ((ofConfig config).performAll operations).compensation =
      (match lastMeasurement? operations p with
      | some (c, s) => measuredCompensation c s
      | none => Scalar.ofInt 0) ∧
    ∀ (config' : DecoderConfig α) (operations' : List (Operation α)),
      lastMeasurement? operations' p = lastMeasurement? operations p →
      p.select ((ofConfig config').performAll operations').compensation =
        p.select ((ofConfig config).performAll operations).compensation := by
  have initial (config : DecoderConfig α) :
      p.select (ofConfig config).compensation = Scalar.ofInt 0 := by
    cases p <;> rfl
  have kept (config : DecoderConfig α) (operations : List (Operation α)) :=
    select_compensation_performAll (ofConfig config) operations p
  simp only [initial] at kept
  refine ⟨kept config operations, fun config' operations' same => ?_⟩
  rw [kept, kept, same]

end Decoder
end Thermopile
