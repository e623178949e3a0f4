import Thermopile.Decoder
import Thermopile.Proofs.Repair.Locality

namespace Thermopile

theorem Subpage.select_map {α β : Type} (p : Subpage) (f : α → β) (a b : α) :
    p.select (f a, f b) = f (p.select (a, b)) := by
  cases p <;> rfl

namespace Snapshot

theorem compensationPixel_eq (s : Snapshot) (p : Subpage) : s.compensationPixel p =
    s.read (p.select (.compensationPixelZero, .compensationPixelOne)) := by
  rw [compensationPixel, p.select_map s.read]

def Valid (s : Snapshot) : Prop := s.validate = .ok ()

theorem valid_iff {s : Snapshot} : s.Valid ↔ s.firstInvalid? = none := by
  unfold Valid validate
  cases s.firstInvalid? <;> simp

instance (s : Snapshot) : Decidable s.Valid := decidable_of_iff _ valid_iff.symm

theorem valid_of_forall_ne {s : Snapshot} (h : ∀ w ∈ s.words, w ≠ invalidWord) : s.Valid := by
  rw [valid_iff, firstInvalid?, List.find?_eq_none]
  intro i _ hi
  have hw : s.words[i]? = some invalidWord := by simpa using hi
  exact h _ (Vector.mem_of_getElem? hw) rfl

def Captures (s : Snapshot) (i : Pixel) : Prop := s.pattern.subpageOf i = s.subpage

instance (s : Snapshot) (i : Pixel) : Decidable (s.Captures i) :=
  inferInstanceAs (Decidable (s.pattern.subpageOf i = s.subpage))

theorem validate_of_not_valid {s : Snapshot} (h : ¬s.Valid) :
    ∃ fault, s.validate = .error fault := by
  cases hv : s.validate with
  | error fault => exact ⟨fault, rfl⟩
  | ok u => exact absurd hv h

end Snapshot

variable {α : Type}

/-- What a frame tells of the measurement that changed it last. -/
structure Context (α : Type) where
  subpage : Option Subpage
  pattern : AccessPattern
  vdd : α
  ta : α
  tr : α
  emissivity : α

def Frame.context (f : Frame α) : Context α where
  subpage := f.subpage
  pattern := f.pattern
  vdd := f.vdd
  ta := f.ta
  tr := f.tr
  emissivity := f.emissivity

def Context.of [Scalar α] (config : DecoderConfig α) (c : Calibration) (s : Snapshot) :
    Context α where
  subpage := some s.subpage
  pattern := s.pattern
  vdd := (Conditions.of c s : Conditions α).vdd
  ta := (Conditions.of c s : Conditions α).ta
  tr := config.reflected.resolve (Conditions.of c s : Conditions α).ta
  emissivity := config.emissivity

namespace Decoder

def config (d : Decoder α) : DecoderConfig α := ⟨d.emissivity, d.reflected, d.repairBadPixels⟩

theorem get_overwrite (s : Snapshot) (image : Image α) (value : Pixel → α) (i : Pixel) :
    (overwrite s image value).get i = if s.Captures i then value i else image.get i := by
  change (Vector.ofFn _)[i.val] = _
  rw [Vector.getElem_ofFn]
  rfl

theorem overwrite_agree (s : Snapshot) (u v : Image α) (value : Pixel → α) :
    AgreeOn s.pattern s.subpage (overwrite s u value) (overwrite s v value) := by
  intro i hi
  have hc : s.Captures i := hi
  rw [get_overwrite, get_overwrite, if_pos hc, if_pos hc]

section
variable [Scalar α] (d : Decoder α) (c : Calibration) (s : Snapshot) (image : Image α)

theorem decodeInfrared_of_error {fault : Fault} (h : s.validate = .error fault) :
    d.decodeInfrared c s image = (.error fault, d, image) := by
  simp only [decodeInfrared, h]

theorem decodeInfrared_of_valid (h : s.Valid) :
    d.decodeInfrared c s image =
      (.ok (ambient c s), d.observe s.subpage (compensationOffset c (Conditions.of c s) s),
        overwrite s image (infrared c (Conditions.of c s) s d.emissivity
          (compensationOffset c (Conditions.of c s) s))) := by
  unfold Snapshot.Valid at h
  simp only [decodeInfrared, h]
  rfl

end

variable [Radiometric α]

/-- The temperature of a pixel before repair. -/
def pixelTemperature (d : Decoder α) (c : Calibration) (s : Snapshot) (i : Pixel) : α :=
  let k := Conditions.of c s
  temperature c (sensitivity c s.subpage k.ta i)
    (reflectedRadiation k.ta (d.reflected.resolve k.ta) d.emissivity)
    (infrared c k s d.emissivity (compensationOffset c k s) i)

def remeasure (d : Decoder α) (c : Calibration) (s : Snapshot) (image : Image α) : Image α :=
  let measured := overwrite s image (d.pixelTemperature c s)
  if d.repairBadPixels then repair c s.pattern s.subpage measured else measured

variable (d : Decoder α) (c : Calibration) (s : Snapshot) (frame : Frame α)

theorem decode_of_error {fault : Fault} (h : s.validate = .error fault) :
    d.decode c s frame = (.error fault, d, frame) := by
  simp only [decode, h]

theorem decode_of_valid (h : s.Valid) :
    d.decode c s frame =
      (.ok (), d.observe s.subpage (compensationOffset c (Conditions.of c s) s),
        { temperatures := d.remeasure c s frame.temperatures
          subpage := some s.subpage
          pattern := s.pattern
          vdd := (Conditions.of c s : Conditions α).vdd
          ta := (Conditions.of c s : Conditions α).ta
          tr := d.reflected.resolve (Conditions.of c s : Conditions α).ta
          emissivity := d.emissivity
          sequence := frame.sequence }) := by
  unfold Snapshot.Valid at h
  simp only [decode, h]
  rfl

theorem decode_of_not_valid (h : ¬s.Valid) : (d.decode c s frame).2 = (d, frame) := by
  obtain ⟨fault, hf⟩ := Snapshot.validate_of_not_valid h
  rw [decode_of_error d c s frame hf]

theorem decode_eq_ok (h : s.Valid) :
    d.decode c s frame = (.ok (), (d.decode c s frame).2) := by
  rw [decode_of_valid d c s frame h]

theorem config_decode : (d.decode c s frame).2.1.config = d.config := by
  by_cases h : s.Valid
  · rw [decode_of_valid d c s frame h]
    rfl
  · rw [decode_of_not_valid d c s frame h]

theorem sequence_decode : (d.decode c s frame).2.2.sequence = frame.sequence := by
  by_cases h : s.Valid
  · rw [decode_of_valid d c s frame h]
  · rw [decode_of_not_valid d c s frame h]

/-- The number of the frame is kept, and has no part in the rest. -/
theorem decode_with_sequence (n : Nat) :
    (d.decode c s { frame with sequence := n }).2 =
      ((d.decode c s frame).2.1, { (d.decode c s frame).2.2 with sequence := n }) := by
  by_cases h : s.Valid
  · rw [decode_of_valid _ _ _ _ h, decode_of_valid _ _ _ _ h]
  · rw [decode_of_not_valid _ _ _ _ h, decode_of_not_valid _ _ _ _ h]

theorem context_decode :
    (d.decode c s frame).2.2.context =
      if s.Valid then Context.of d.config c s else frame.context := by
  by_cases h : s.Valid
  · rw [decode_of_valid d c s frame h, if_pos h]
    rfl
  · rw [decode_of_not_valid d c s frame h, if_neg h]

variable {s} {i : Pixel}

theorem get_remeasure_of_not_captures (image : Image α) (hi : ¬s.Captures i) :
    (d.remeasure c s image).get i = image.get i := by
  have hm : (overwrite s image (d.pixelTemperature c s)).get i = image.get i := by
    rw [get_overwrite, if_neg hi]
  unfold remeasure
  by_cases hr : d.repairBadPixels = true
  · rw [if_pos hr, get_repair_of_good c s.pattern s.subpage _ (fun h => hi h.1), hm]
  · rw [if_neg hr, hm]

/-- What the image showed before has no part in what a measurement shows. -/
theorem get_remeasure_of_captures {d' : Decoder α} (hd : d'.config = d.config)
    (image image' : Image α) (hi : s.Captures i) :
    (d.remeasure c s image).get i = (d'.remeasure c s image').get i := by
  simp only [config, DecoderConfig.mk.injEq] at hd
  obtain ⟨he, ht, hr⟩ := hd
  have hp : d'.pixelTemperature c s = d.pixelTemperature c s := by
    unfold pixelTemperature
    rw [he, ht]
  have ha : AgreeOn s.pattern s.subpage (overwrite s image (d.pixelTemperature c s))
      (overwrite s image' (d'.pixelTemperature c s)) := by
    rw [hp]
    exact overwrite_agree s image image' _
  unfold remeasure
  rw [hr]
  by_cases hb : d.repairBadPixels = true
  · rw [if_pos hb, if_pos hb]
    exact repair_agree c s.pattern ha i hi
  · rw [if_neg hb, if_neg hb]
    exact ha i hi

end Decoder
end Thermopile
