import Thermopile.Calibration.Decode
import Thermopile.Proofs.Repair.Sources

namespace Thermopile

variable {α : Type}

def AgreeOn (pattern : AccessPattern) (p : Subpage) (u v : Image α) : Prop :=
  ∀ i : Pixel, pattern.subpageOf i = p → u.get i = v.get i

variable [Scalar α]

theorem replacement_congr (c : Calibration) (pattern : AccessPattern) {p : Subpage}
    {u v : Image α} (h : AgreeOn pattern p u v) {i : Pixel} (hi : pattern.subpageOf i = p) :
    replacement c pattern u i = replacement c pattern v i :=
  replacement_congr_sources fun j hj => h j ((subpageOf_of_mem_sources hj).trans hi)

def replaceAt (c : Calibration) (pattern : AccessPattern) (values : Image α) (i : Pixel) :
    Image α :=
  values.set i.val (replacement c pattern values i) i.isLt

theorem repair_eq_foldl (c : Calibration) (pattern : AccessPattern) (p : Subpage)
    (values : Image α) :
    repair c pattern p values = (badPixels c pattern p).foldl (replaceAt c pattern) values := rfl

theorem get_set {β : Type} (values : Image β) (i j : Pixel) (b : β) :
    (values.set i.val b i.isLt).get j = if i = j then b else values.get j := by
  change (values.set i.val b i.isLt)[j.val] = _
  rw [Vector.getElem_set]
  simp only [Fin.ext_iff]
  rfl

theorem get_replaceAt (c : Calibration) (pattern : AccessPattern) (values : Image α)
    (i j : Pixel) :
    (replaceAt c pattern values i).get j =
      if i = j then replacement c pattern values i else values.get j :=
  get_set values i j _

theorem replaceAt_agree (c : Calibration) (pattern : AccessPattern) {p : Subpage}
    {u v : Image α} (h : AgreeOn pattern p u v) {i : Pixel} (hi : pattern.subpageOf i = p) :
    AgreeOn pattern p (replaceAt c pattern u i) (replaceAt c pattern v i) := by
  intro j hj
  rw [get_replaceAt, get_replaceAt, replacement_congr c pattern h hi, h j hj]

theorem foldl_replaceAt_agree (c : Calibration) (pattern : AccessPattern) {p : Subpage}
    (pixels : List Pixel) (hp : ∀ i ∈ pixels, pattern.subpageOf i = p) {u v : Image α}
    (h : AgreeOn pattern p u v) :
    AgreeOn pattern p (pixels.foldl (replaceAt c pattern) u)
      (pixels.foldl (replaceAt c pattern) v) := by
  induction pixels generalizing u v with
  | nil => exact h
  | cons i rest ih =>
    simp only [List.forall_mem_cons] at hp
    exact ih hp.2 (replaceAt_agree c pattern h hp.1)

theorem get_foldl_replaceAt_of_not_mem (c : Calibration) (pattern : AccessPattern)
    (pixels : List Pixel) (values : Image α) {j : Pixel} (hj : j ∉ pixels) :
    (pixels.foldl (replaceAt c pattern) values).get j = values.get j := by
  induction pixels generalizing values with
  | nil => rfl
  | cons i rest ih =>
    simp only [List.mem_cons, not_or] at hj
    rw [List.foldl_cons, ih _ hj.2, get_replaceAt, if_neg (Ne.symm hj.1)]

theorem mem_badPixels {c : Calibration} {pattern : AccessPattern} {p : Subpage} {i : Pixel} :
    i ∈ badPixels c pattern p ↔ pattern.subpageOf i = p ∧ c.bad i = true := by
  simp [badPixels, AccessPattern.pixels, and_comm]

theorem repair_agree (c : Calibration) (pattern : AccessPattern) {p : Subpage} {u v : Image α}
    (h : AgreeOn pattern p u v) :
    AgreeOn pattern p (repair c pattern p u) (repair c pattern p v) := by
  rw [repair_eq_foldl, repair_eq_foldl]
  -- Only pixels of the subpage are replaced, each from pixels of the subpage.
  have inside : ∀ i ∈ badPixels c pattern p, pattern.subpageOf i = p := by
    intro i hi
    exact (mem_badPixels.mp hi).1
  exact foldl_replaceAt_agree c pattern _ inside h

theorem get_repair_of_good (c : Calibration) (pattern : AccessPattern) (p : Subpage)
    (values : Image α) {i : Pixel} (hi : ¬(pattern.subpageOf i = p ∧ c.bad i = true)) :
    (repair c pattern p values).get i = values.get i := by
  have notReplaced : i ∉ badPixels c pattern p := mt mem_badPixels.mp hi
  rw [repair_eq_foldl]
  exact get_foldl_replaceAt_of_not_mem c pattern _ values notReplaced

/-- Repair changes nothing but the bad pixels of its subpage, and what it makes of them depends on
that subpage alone. The values that a replacement is computed from are those of its sources. These
are pixels of the image, at most so far away as the pattern allows, all in the same subpage and, in
the interleaved pattern, all in one row. -/
theorem repairs_inside_subpage (c : Calibration) (pattern : AccessPattern) (p : Subpage) :
    (∀ (values : Image α) (i : Pixel), ¬(pattern.subpageOf i = p ∧ c.bad i = true) →
      (repair c pattern p values).get i = values.get i) ∧
    (∀ u v : Image α, AgreeOn pattern p u v →
      AgreeOn pattern p (repair c pattern p u) (repair c pattern p v)) ∧
    ∀ i : Pixel, pattern.subpageOf i = p →
      (∀ u v : Image α, (∀ j ∈ sources c pattern i, u.get j = v.get j) →
        replacement c pattern u i = replacement c pattern v i) ∧
      ∀ j ∈ sources c pattern i, pattern.subpageOf j = p ∧
        (pattern = .interleave → j.row = i.row) ∧
        ∃ move ∈ moves pattern,
          (j.row : Int) = i.row + move.1 ∧ (j.column : Int) = i.column + move.2 := by
  refine ⟨fun values i hi => get_repair_of_good c pattern p values hi,
    fun u v agree => repair_agree c pattern agree, fun i captured => ⟨fun u v agree => ?_, ?_⟩⟩
  · exact replacement_congr_sources agree
  · intro j hj
    refine ⟨(subpageOf_of_mem_sources hj).trans captured, ?_, exists_move_of_mem_sources hj⟩
    rintro rfl
    exact row_of_mem_sources hj

open Calibration (ofImage)

/-- The images differ at pixel 1, next to pixel 0 but in the other subpage. Pixel 0, of which there
is no calibration data, is computed from pixel 33 alone, so it becomes the same in both. -/
theorem repairs_inside_subpage_corner :
    let c := ofImage (Vector.replicate eepromSize 0)
    let u : Image Float := Vector.replicate pixelCount 20
    let v := u.set 1 30
    AgreeOn .chess .zero u v ∧ c.bad 0 = true ∧ (repair c .chess .zero v).get 1 = 30 ∧
      (repair c .chess .zero u).get 0 = (repair c .chess .zero v).get 0 ∧
      sources c .chess 0 = [33] ∧ AccessPattern.chess.subpageOf (33 : Pixel) = .zero ∧
      replacement c .chess u 0 = replacement c .chess v 0 := by
  intro c u v
  obtain ⟨outside, inside, reads⟩ := repairs_inside_subpage (α := Float) c .chess .zero
  have agree : AgreeOn .chess .zero u v := by
    intro i hi
    have other : 1 ≠ i.val := by
      intro h
      rw [← h] at hi
      cases hi
    exact (Vector.getElem_set_ne (by decide) i.isLt other).symm
  have corner : sources c .chess 0 = [33] := by decide
  obtain ⟨unread, places⟩ := reads 0 (by decide)
  have near := (places 33 (by rw [corner]; decide)).1
  have bad : c.bad 0 = true := by
    have flags : c.pixels.get 0 = Calibration.pixel (Vector.replicate eepromSize 0) 0 :=
      Vector.getElem_ofFn (by decide)
    have erased : EepromImage.pixelWord (Vector.replicate eepromSize 0) 0 = 0 :=
      Vector.getElem_replicate _
    rw [Calibration.bad, flags, Calibration.pixel, erased]
    rfl
  refine ⟨agree, bad, ?_, inside u v agree 0 (by decide), corner, near, unread u v ?_⟩
  · rw [outside v 1 (fun h => absurd h.1 (by decide))]
    exact Vector.getElem_set_self _
  · rw [corner, List.forall_mem_singleton]
    exact agree 33 near

end Thermopile
