import Thermopile.Proofs.Acquisition.Outcome
import Thermopile.Proofs.Decoder.History

namespace Thermopile.Acquisition

variable {ε σ : Type} (x : Acquisition)

section
variable (decoder : Decoder Float) (c : Calibration) (snapshots : List Snapshot)

/-- What all of `snapshots` make of an empty frame, with their number. -/
def decodedFrame : Frame Float :=
  { (decoder.decodeAll c snapshots .empty).2 with sequence := snapshots.length }

def decodedFrames : List (Frame Float) :=
  (List.range snapshots.length).map fun k => decodedFrame decoder c (snapshots.take (k + 1))

/-- The progress of a run that has measured `snapshots`. -/
def progressAfter : Progress :=
  ⟨(decoder.decodeAll c snapshots .empty).1, decodedFrame decoder c snapshots⟩

theorem sequence_decodedFrames :
    (decodedFrames decoder c snapshots).map Frame.sequence = List.range' 1 snapshots.length := by
  unfold decodedFrames
  rw [List.map_map, List.range'_eq_map_range]
  apply List.map_congr_left
  intro k hk
  have hl : k < snapshots.length := List.mem_range.mp hk
  change (snapshots.take (k + 1)).length = 1 + k
  rw [List.length_take]
  omega

theorem subpage_decodedFrames (valid : ∀ s ∈ snapshots, s.Valid) :
    (decodedFrames decoder c snapshots).map Frame.subpage =
      snapshots.map fun s => some s.subpage := by
  unfold decodedFrames
  rw [List.map_map]
  apply List.ext_getElem
  · simp
  · intro k h₁ h₂
    have hk : k < snapshots.length := by simpa using h₂
    have last : snapshots.take (k + 1) = snapshots.take k ++ [snapshots[k]] :=
      List.take_succ_eq_append_getElem hk
    rw [List.getElem_map, List.getElem_range, List.getElem_map]
    change (decoder.decodeAll c (snapshots.take (k + 1)) .empty).2.subpage = _
    rw [last, Decoder.decodeAll_concat,
      Decoder.decode_of_valid _ _ _ _ (valid _ (List.getElem_mem hk))]

end

variable {decoder : Decoder Float} {s : Snapshot} {p : Progress} {earlier : List Snapshot}

theorem Advances.progressAfter
    (h : x.Advances (progressAfter decoder x.calibration earlier) s p) :
    p = Acquisition.progressAfter decoder x.calibration (earlier ++ [s]) := by
  rw [h.2]
  unfold Acquisition.progressAfter decodedFrame
  rw [Decoder.decodeAll_concat, Decoder.decode_with_sequence, List.length_append]
  rfl

variable {x} {budget : Nat} {r : Except (Failure ε) Ending} {segments : List (List (Event ε))}
  {snapshots : List Snapshot}

theorem Course.published_each (h : x.Course budget p r segments snapshots)
    (hp : p = progressAfter decoder x.calibration earlier) :
    (completed r segments).map Event.published =
      (List.range snapshots.length).map fun k =>
        [decodedFrame decoder x.calibration (earlier ++ snapshots.take (k + 1))] := by
  induction h generalizing earlier with
  | unfinished => rfl
  | cancelled => rfl
  | failed => rfl
  | next completes course ih =>
    -- The measurement of this cycle joins the earlier ones for the rest of the run.
    subst hp
    have hp' := completes.advances.progressAfter
    rw [course.completed_cons, List.map_cons, completes.published, ih hp', hp', List.length_cons,
      List.range_succ_eq_map, List.map_cons, List.map_map]
    simp only [List.take_succ_cons, List.take_zero, List.append_assoc, List.singleton_append]
    rfl

theorem Course.published_eq_decodedFrames
    (h : x.Course budget ⟨decoder, .empty⟩ r segments snapshots) :
    (completed r segments).map Event.published =
      (decodedFrames decoder x.calibration snapshots).map ([·]) ∧
    segments.flatMap Event.published = decodedFrames decoder x.calibration snapshots := by
  have start : ⟨decoder, .empty⟩ = progressAfter decoder x.calibration [] := rfl
  have each : (completed r segments).map Event.published =
      (decodedFrames decoder x.calibration snapshots).map ([·]) := by
    rw [h.published_each start, decodedFrames, List.map_map]
    rfl
  refine ⟨each, ?_⟩
  rw [h.published, List.flatMap_def, each, ← List.flatMap_def, List.flatMap_singleton']

end Thermopile.Acquisition
