import Thermopile.Proofs.Decoder.Visibility

namespace Thermopile.Decoder

variable {α : Type} [Radiometric α]
variable (d : Decoder α) (c : Calibration) (s : Snapshot) (frame : Frame α) (image : Image α)

theorem result_decode :
    (d.decode c s frame).1 = (d.decodeInfrared c s image).1.map fun _ => () := by
  by_cases h : s.Valid
  · rw [decode_of_valid d c s frame h, decodeInfrared_of_valid d c s image h]
    rfl
  · obtain ⟨fault, hf⟩ := Snapshot.validate_of_not_valid h
    rw [decode_of_error d c s frame hf, decodeInfrared_of_error d c s image hf]
    rfl

theorem decoder_decode : (d.decode c s frame).2.1 = (d.decodeInfrared c s image).2.1 := by
  by_cases h : s.Valid
  · rw [decode_of_valid d c s frame h, decodeInfrared_of_valid d c s image h]
  · obtain ⟨fault, hf⟩ := Snapshot.validate_of_not_valid h
    rw [decode_of_error d c s frame hf, decodeInfrared_of_error d c s image hf]

variable {d c s image}

theorem valid_of_decodeInfrared {ta : α} (h : (d.decodeInfrared c s image).1 = .ok ta) :
    s.Valid ∧ ta = ambient c s := by
  by_cases hs : s.Valid
  · rw [decodeInfrared_of_valid d c s image hs] at h
    exact ⟨hs, (Except.ok.inj h).symm⟩
  · obtain ⟨fault, hf⟩ := Snapshot.validate_of_not_valid hs
    rw [decodeInfrared_of_error d c s image hf] at h
    cases h

theorem get_decodeInfrared (h : s.Valid) (i : Pixel) :
    (d.decodeInfrared c s image).2.2.get i =
      if s.Captures i then
        infrared c (Conditions.of c s) s d.emissivity (compensationOffset c (Conditions.of c s) s) i
      else image.get i := by
  rw [decodeInfrared_of_valid d c s image h, get_overwrite]

theorem get_remeasure_of_unrepaired {i : Pixel} (hi : s.Captures i)
    (unrepaired : d.repairBadPixels = false ∨ c.bad i = false) :
    (d.remeasure c s image).get i = d.pixelTemperature c s i := by
  have measured : (overwrite s image (d.pixelTemperature c s)).get i =
      d.pixelTemperature c s i := by
    rw [get_overwrite, if_pos hi]
  unfold remeasure
  by_cases hr : d.repairBadPixels = true
  · have good : ¬(s.pattern.subpageOf i = s.subpage ∧ c.bad i = true) := by
      intro bad
      simp [hr, bad.2] at unrepaired
    rw [if_pos hr, get_repair_of_good c s.pattern s.subpage _ good, measured]
  · rw [if_neg hr, measured]

variable (d c s image)

/-- Both ways of decoding fail alike or leave the same decoder. If they succeed, the infrared image
has changed at the pixels of the measured subpage, and these give the temperatures of the frame. -/
theorem temperatures_of_infrared :
    (d.decode c s frame).1 = (d.decodeInfrared c s image).1.map (fun _ => ()) ∧
    (d.decode c s frame).2.1 = (d.decodeInfrared c s image).2.1 ∧
    ∀ ta, (d.decodeInfrared c s image).1 = .ok ta →
      let frame' := (d.decode c s frame).2.2
      let image' := (d.decodeInfrared c s image).2.2
      let tar := reflectedRadiation ta (d.reflected.resolve ta) d.emissivity
      frame'.ta = ta ∧
      (∀ i ∉ s.pattern.pixels s.subpage, image'.get i = image.get i) ∧
      ∀ i ∈ s.pattern.pixels s.subpage,
        image'.get i = infrared c (Conditions.of c s) s d.emissivity
          (compensationOffset c (Conditions.of c s) s) i ∧
        (d.repairBadPixels = false ∨ c.bad i = false →
          frame'.temperatures.get i =
            rangeTemperature c (sensitivity c s.subpage ta i) tar (image'.get i)
              (basicTemperature c (sensitivity c s.subpage ta i) tar (image'.get i))) := by
  refine ⟨d.result_decode c s frame image, d.decoder_decode c s frame image, ?_⟩
  intro ta h frame' image' tar
  obtain ⟨hs, rfl⟩ := valid_of_decodeInfrared h
  have written (i : Pixel) : image'.get i = _ := get_decodeInfrared hs i
  have hf : frame' = (d.decode c s frame).2.2 := rfl
  rw [decode_of_valid d c s frame hs] at hf
  refine ⟨by rw [hf]; rfl, ?_, ?_⟩
  · intro i hi
    have outside : ¬s.Captures i := mt AccessPattern.mem_pixels.mpr hi
    rw [written i, if_neg outside]
  · intro i hi
    have captured : s.Captures i := AccessPattern.mem_pixels.mp hi
    have measured := written i
    rw [if_pos captured] at measured
    refine ⟨measured, fun unrepaired => ?_⟩
    rw [hf, get_remeasure_of_unrepaired captured unrepaired, measured]
    rfl

theorem valid_workedExample : workedExample.Valid := by
  apply Snapshot.valid_of_forall_ne
  intro w hw
  obtain ⟨i, rfl⟩ := Vector.mem_ofFn.mp hw
  split
  · decide
  · simp only [Datasheet.auxiliary, List.lookup_cons, List.lookup_nil]
    repeat' split
    all_goals decide

def datasheetCalibration : Calibration := .ofImage Datasheet.eeprom

def plainDecoder : Decoder Float := ofConfig ⟨Scalar.one, .default, false⟩

theorem temperatures_of_infrared_worked_example :
    let c := datasheetCalibration
    let image' := (plainDecoder.decodeInfrared c workedExample Frame.empty.temperatures).2.2
    let frame' := (plainDecoder.decode c workedExample .empty).2.2
    ∃ ta, (plainDecoder.decodeInfrared c workedExample Frame.empty.temperatures).1 = .ok ta ∧
      frame'.ta = ta ∧
      let alpha := sensitivity c workedExample.subpage ta 0
      let tar := reflectedRadiation ta (plainDecoder.reflected.resolve ta) plainDecoder.emissivity
      frame'.temperatures.get 0 = rangeTemperature c alpha tar (image'.get 0)
        (basicTemperature c alpha tar (image'.get 0)) := by
  have first : (0 : Pixel) ∈ workedExample.pattern.pixels workedExample.subpage :=
    AccessPattern.mem_pixels.mpr (by decide)
  have accepted : (plainDecoder.decodeInfrared datasheetCalibration workedExample
      Frame.empty.temperatures).1 = .ok (ambient datasheetCalibration workedExample) := by
    rw [decodeInfrared_of_valid _ _ _ _ valid_workedExample]
  obtain ⟨hta, -, shown⟩ := (temperatures_of_infrared plainDecoder datasheetCalibration
    workedExample .empty Frame.empty.temperatures).2.2 _ accepted
  have measured := (shown 0 first).2 (.inl rfl)
  refine ⟨_, accepted, hta, ?_⟩
  intro alpha tar
  with_reducible_and_instances exact measured

end Thermopile.Decoder
