import Mathlib.Data.List.Induction
import Thermopile.Proofs.Decoder.Step

namespace Thermopile

section
variable {β : Type} (p : β → Prop) [DecidablePred p]

def lastWhere (l : List β) : Option β := (l.filter fun b => p b).getLast?

theorem lastWhere_concat (l : List β) (b : β) :
    lastWhere p (l ++ [b]) = if p b then some b else lastWhere p l := by
  unfold lastWhere
  rw [List.filter_append]
  by_cases h : p b
  · simp [h]
  · simp [h]

end

variable {α : Type} [Radiometric α]

namespace Decoder

/-- The decoder and the frame after decoding `snapshots` one after the other. -/
def decodeAll (d : Decoder α) (c : Calibration) (snapshots : List Snapshot) (frame : Frame α) :
    Decoder α × Frame α :=
  snapshots.foldl (fun state s => (state.1.decode c s state.2).2) (d, frame)

/-- What a new decoder makes of a snapshot in an empty frame. -/
def freshFrame (config : DecoderConfig α) (c : Calibration) (s : Snapshot) : Frame α :=
  ((ofConfig config).decode c s .empty).2.2

variable (d : Decoder α) (c : Calibration) (snapshots : List Snapshot) (frame : Frame α)

theorem decodeAll_concat (s : Snapshot) :
    d.decodeAll c (snapshots ++ [s]) frame =
      ((d.decodeAll c snapshots frame).1.decode c s (d.decodeAll c snapshots frame).2).2 := by
  simp only [decodeAll, List.foldl_append, List.foldl_cons, List.foldl_nil]

theorem config_decodeAll : (d.decodeAll c snapshots frame).1.config = d.config := by
  induction snapshots using List.reverseRecOn with
  | nil => rfl
  | append_singleton earlier s ih => rw [decodeAll_concat, config_decode, ih]

theorem sequence_decodeAll : (d.decodeAll c snapshots frame).2.sequence = frame.sequence := by
  induction snapshots using List.reverseRecOn with
  | nil => rfl
  | append_singleton earlier s ih => rw [decodeAll_concat, sequence_decode, ih]

theorem context_decodeAll :
    (d.decodeAll c snapshots frame).2.context =
      match lastWhere Snapshot.Valid snapshots with
      | some s => Context.of d.config c s
      | none => frame.context := by
  induction snapshots using List.reverseRecOn with
  | nil => rfl
  | append_singleton earlier s ih =>
    rw [decodeAll_concat, context_decode, config_decodeAll, lastWhere_concat]
    by_cases h : s.Valid
    · rw [if_pos h, if_pos h]
    · rw [if_neg h, if_neg h, ih]

variable {s : Snapshot} {i : Pixel}

theorem get_decode_of_captures (hs : s.Valid) (hi : s.Captures i) :
    (d.decode c s frame).2.2.temperatures.get i =
      (freshFrame d.config c s).temperatures.get i := by
  rw [freshFrame, decode_of_valid d c s frame hs, decode_of_valid _ c s _ hs]
  exact d.get_remeasure_of_captures c rfl _ _ hi

theorem get_decode_of_not_captures (h : ¬(s.Valid ∧ s.Captures i)) :
    (d.decode c s frame).2.2.temperatures.get i = frame.temperatures.get i := by
  by_cases hs : s.Valid
  · rw [decode_of_valid d c s frame hs]
    exact d.get_remeasure_of_not_captures c _ fun hi => h ⟨hs, hi⟩
  · rw [decode_of_not_valid d c s frame hs]

theorem get_decodeAll (i : Pixel) :
    (d.decodeAll c snapshots frame).2.temperatures.get i =
      match lastWhere (fun s => s.Valid ∧ s.Captures i) snapshots with
      | some s => (freshFrame d.config c s).temperatures.get i
      | none => frame.temperatures.get i := by
  induction snapshots using List.reverseRecOn with
  | nil => rfl
  | append_singleton earlier s ih =>
    -- The last snapshot decides on the pixel, or leaves it to those before.
    rw [decodeAll_concat, lastWhere_concat]
    by_cases h : s.Valid ∧ s.Captures i
    · rw [get_decode_of_captures _ c _ h.1 h.2, config_decodeAll, if_pos h]
    · rw [get_decode_of_not_captures _ c _ h, if_neg h, ih]

/-- The whole frame after any number of decodings, in terms of single measurements. -/
theorem decodeAll_forgets_history :
    (∀ i : Pixel, (d.decodeAll c snapshots frame).2.temperatures.get i =
      match lastWhere (fun s => s.Valid ∧ s.Captures i) snapshots with
      | some s => (freshFrame d.config c s).temperatures.get i
      | none => frame.temperatures.get i) ∧
    (d.decodeAll c snapshots frame).2.context =
      (match lastWhere Snapshot.Valid snapshots with
      | some s => Context.of d.config c s
      | none => frame.context) ∧
    (d.decodeAll c snapshots frame).2.sequence = frame.sequence :=
  ⟨d.get_decodeAll c snapshots frame, d.context_decodeAll c snapshots frame,
    d.sequence_decodeAll c snapshots frame⟩

end Decoder
end Thermopile
