import Thermopile.Proofs.Repair.Locality

namespace Thermopile

theorem exists_filter_lt_append {n : Nat} {l : List (Fin n)} (sorted : l.Pairwise (· < ·))
    {i : Fin n} (hi : i ∈ l) :
    ∃ after, l = l.filter (· < i) ++ i :: after ∧ ∀ j ∈ after, i < j := by
  obtain ⟨before, after, rfl⟩ := List.append_of_mem hi
  obtain ⟨-, tail, below⟩ := List.pairwise_append.mp sorted
  have above : ∀ j ∈ after, i < j := fun j hj => List.rel_of_pairwise_cons tail hj
  refine ⟨after, ?_, above⟩
  have kept : before.filter (· < i) = before := by
    apply List.filter_eq_self.mpr
    intro j hj
    exact decide_eq_true (below j hj i List.mem_cons_self)
  have dropped : (i :: after).filter (· < i) = [] := by
    apply List.filter_eq_nil_iff.mpr
    intro j hj
    rcases List.mem_cons.mp hj with rfl | hj
    · simp
    · simpa using Fin.le_of_lt (above j hj)
  rw [List.filter_append, kept, dropped, List.append_nil]

variable {α : Type} [Scalar α]
variable (c : Calibration) (pattern : AccessPattern) (p : Subpage) (values : Image α)

theorem pairwise_badPixels : (badPixels c pattern p).Pairwise (· < ·) :=
  ((List.pairwise_lt_finRange pixelCount).filter _).filter _

/-- The image when it is the turn of pixel `i`. -/
def repairUntil (i : Pixel) : Image α :=
  ((badPixels c pattern p).filter (· < i)).foldl (replaceAt c pattern) values

variable {c pattern p} {i j : Pixel}

theorem get_repairUntil_of_le (hj : i ≤ j) :
    (repairUntil c pattern p values i).get j = values.get j := by
  apply get_foldl_replaceAt_of_not_mem
  intro hm
  have before : j < i := by simpa using (List.mem_filter.mp hm).2
  exact Nat.not_lt.mpr hj before

/-- When its turn comes, a bad pixel is replaced, and then those after it. -/
theorem exists_repair_eq (bad : c.bad i = true) (captured : pattern.subpageOf i = p) :
    ∃ after : List Pixel, (∀ j ∈ after, i < j) ∧ repair c pattern p values =
      after.foldl (replaceAt c pattern)
        (replaceAt c pattern (repairUntil c pattern p values i) i) := by
  obtain ⟨after, split, above⟩ := exists_filter_lt_append (pairwise_badPixels c pattern p)
    (mem_badPixels.mpr ⟨captured, bad⟩)
  refine ⟨after, above, ?_⟩
  calc repair c pattern p values
    _ = (badPixels c pattern p).foldl (replaceAt c pattern) values := rfl
    _ = ((badPixels c pattern p).filter (· < i) ++ i :: after).foldl (replaceAt c pattern)
          values := by rw [← split]
    _ = _ := by rw [List.foldl_append, List.foldl_cons, repairUntil]

section
variable (bad : c.bad i = true) (captured : pattern.subpageOf i = p)
include bad captured

theorem get_repairUntil_of_lt (hj : j < i) :
    (repairUntil c pattern p values i).get j = (repair c pattern p values).get j := by
  obtain ⟨after, above, repaired⟩ := exists_repair_eq values bad captured
  have later : j ∉ after := fun hm => Nat.lt_asymm hj (above j hm)
  rw [repaired, get_foldl_replaceAt_of_not_mem c pattern after _ later, get_replaceAt,
    if_neg (Fin.ne_of_gt hj)]

theorem get_repair_of_bad :
    (repair c pattern p values).get i =
      replacement c pattern (repairUntil c pattern p values i) i := by
  obtain ⟨after, above, repaired⟩ := exists_repair_eq values bad captured
  have later : i ∉ after := fun hm => Nat.lt_irrefl _ (above i hm)
  rw [repaired, get_foldl_replaceAt_of_not_mem c pattern after _ later, get_replaceAt, if_pos rfl]

end
end Thermopile
