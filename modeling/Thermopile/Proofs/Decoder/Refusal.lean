import Thermopile.Datasheet
import Thermopile.Proofs.Decoder.Step

namespace Thermopile

namespace Snapshot

variable {s : Snapshot} {fault : Fault}

theorem exists_of_validate_eq_error (h : s.validate = .error fault) :
    ∃ i ∈ checkedWords s.subpage, s.words[i]? = some invalidWord ∧
      fault = .badData ((AddressSpace.address RamAddress.base).advance i) := by
  unfold validate at h
  cases hf : s.firstInvalid? with
  | none =>
    rw [hf] at h
    cases h
  | some i =>
    rw [hf] at h
    have invalid := List.find?_some hf
    exact ⟨i, List.mem_of_find?_eq_some hf, eq_of_beq invalid, (Except.error.inj h).symm⟩

end Snapshot

namespace Decoder

variable {α : Type} [Radiometric α]
variable (d : Decoder α) (c : Calibration) (s : Snapshot) (frame : Frame α) (image : Image α)

theorem decode_eq_error_iff (fault : Fault) :
    (d.decode c s frame).1 = .error fault ↔ s.validate = .error fault := by
  by_cases h : s.Valid
  · rw [decode_of_valid d c s frame h, show s.validate = .ok () from h]
  · obtain ⟨found, hf⟩ := Snapshot.validate_of_not_valid h
    rw [decode_of_error d c s frame hf, hf]

theorem decodeInfrared_eq_error_iff (fault : Fault) :
    (d.decodeInfrared c s image).1 = .error fault ↔ s.validate = .error fault := by
  by_cases h : s.Valid
  · rw [decodeInfrared_of_valid d c s image h, show s.validate = .ok () from h]
    exact ⟨nofun, nofun⟩
  · obtain ⟨found, hf⟩ := Snapshot.validate_of_not_valid h
    simp only [decodeInfrared_of_error d c s image hf, hf, Except.error.injEq]

/-- Decoding fails as validation does, and then changes nothing. -/
theorem fails_with_validation :
    (∀ fault, (d.decode c s frame).1 = .error fault ↔ s.validate = .error fault) ∧
    (∀ fault, (d.decodeInfrared c s image).1 = .error fault ↔ s.validate = .error fault) ∧
    (∀ fault, s.validate = .error fault →
      (∃ i ∈ Snapshot.checkedWords s.subpage, s.words[i]? = some invalidWord ∧
        fault = .badData ((AddressSpace.address RamAddress.base).advance i)) ∧
      d.decode c s frame = (.error fault, d, frame) ∧
      d.decodeInfrared c s image = (.error fault, d, image)) ∧
    (s.validate = .ok () →
      (d.decode c s frame).1 = .ok () ∧
      (d.decodeInfrared c s image).1 = .ok (ambient c s)) := by
  refine ⟨d.decode_eq_error_iff c s frame, d.decodeInfrared_eq_error_iff c s image, ?_, ?_⟩
  · intro fault h
    exact ⟨Snapshot.exists_of_validate_eq_error h, d.decode_of_error c s frame h,
      d.decodeInfrared_of_error c s image h⟩
  · intro h
    rw [decode_of_valid d c s frame h, decodeInfrared_of_valid d c s image h]
    exact ⟨rfl, rfl⟩

def invalidExample : Snapshot := ⟨Datasheet.ram.set 0 invalidWord, .zero, .chess, .eighteen⟩

theorem fails_with_validation_first_pixel :
    invalidExample.validate = .error (.badData ⟨0x0400⟩) ∧
    (ofConfig .default).decode (.ofImage Datasheet.eeprom) invalidExample (.empty : Frame Float) =
      (.error (.badData ⟨0x0400⟩), ofConfig .default, .empty) := by
  have first : invalidExample.firstInvalid? = some 0 := by decide +kernel
  have refused : invalidExample.validate = .error (.badData ⟨0x0400⟩) := by
    rw [Snapshot.validate, first]
    rfl
  have fails := fails_with_validation (ofConfig .default) (.ofImage Datasheet.eeprom)
    invalidExample (.empty : Frame Float) Frame.empty.temperatures
  exact ⟨refused, (fails.2.2.1 _ refused).2.1⟩

end Decoder
end Thermopile
