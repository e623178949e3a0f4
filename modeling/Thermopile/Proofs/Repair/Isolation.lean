import Thermopile.Proofs.Repair.Interior

namespace Thermopile

/-- Neighbours among the pixels that are measured together: along a diagonal, or in a row. -/
def Pixel.Adjacent (pattern : AccessPattern) (i j : Pixel) : Prop :=
  match pattern with
  | .chess => (i.row + 1 = j.row ∨ j.row + 1 = i.row) ∧
      (i.column + 1 = j.column ∨ j.column + 1 = i.column)
  | .interleave => i.row = j.row ∧ (i.column + 1 = j.column ∨ j.column + 1 = i.column)

def Isolated (c : Calibration) (pattern : AccessPattern) (p : Subpage) : Prop :=
  ∀ i ∈ badPixels c pattern p, ∀ j ∈ badPixels c pattern p, ¬Pixel.Adjacent pattern i j

variable {c : Calibration} {pattern : AccessPattern} {p : Subpage} {i j : Pixel}

/-- A source that is no neighbour is two columns away, and only good pixels are looked for there. -/
theorem adjacent_or_good_of_mem_sources (h : j ∈ sources c pattern i) :
    Pixel.Adjacent pattern i j ∨ c.bad j = false := by
  cases pattern with
  | chess =>
    obtain ⟨down, right, hd, hr, row, column⟩ := Pixel.mem_diagonals h
    exact .inl ⟨by omega, by omega⟩
  | interleave =>
    rcases sources_interleave_cases h with ⟨inside, rfl⟩ | ⟨inside, rfl⟩ | ⟨-, -, -, good⟩
    · have place := i.place_left inside
      exact .inl ⟨place.1.symm, .inr place.2⟩
    · have place := i.place_right (n := 1) (by omega)
      exact .inl ⟨place.1.symm, .inl place.2.symm⟩
    · exact .inr good

theorem Isolated.good_of_mem_sources (isolated : Isolated c pattern p)
    (hi : i ∈ badPixels c pattern p) (hj : j ∈ sources c pattern i) : c.bad j = false := by
  rcases adjacent_or_good_of_mem_sources hj with neighbours | good
  · have captured := (subpageOf_of_mem_sources hj).trans (mem_badPixels.mp hi).1
    by_contra bad
    exact isolated i hi j (mem_badPixels.mpr ⟨captured, Bool.of_not_eq_false bad⟩) neighbours
  · exact good

variable {α : Type} [Scalar α] {u v values : Image α}

theorem Isolated.replacement_congr (isolated : Isolated c pattern p)
    (agree : ∀ j : Pixel, pattern.subpageOf j = p → c.bad j = false → u.get j = v.get j)
    (hi : i ∈ badPixels c pattern p) :
    replacement c pattern u i = replacement c pattern v i := by
  apply replacement_congr_sources
  intro j hj
  exact agree j ((subpageOf_of_mem_sources hj).trans (mem_badPixels.mp hi).1)
    (isolated.good_of_mem_sources hi hj)

/-- Whichever bad pixels are replaced, and in whichever order, each becomes what it would become in
the image as it was measured. -/
theorem Isolated.get_foldl_replaceAt (isolated : Isolated c pattern p) (order : List Pixel)
    (bad : ∀ i ∈ order, i ∈ badPixels c pattern p) :
    (order.foldl (replaceAt c pattern) values).get j =
      if j ∈ order then replacement c pattern values j else values.get j := by
  induction order generalizing values with
  | nil => rfl
  | cons i rest ih =>
    obtain ⟨hi, later⟩ := List.forall_mem_cons.mp bad
    -- Replacing `i` leaves all good pixels alone, and those decide what comes later.
    have undisturbed : ∀ k : Pixel, pattern.subpageOf k = p → c.bad k = false →
        (replaceAt c pattern values i).get k = values.get k := by
      intro k _ good
      rw [get_replaceAt, if_neg]
      rintro rfl
      rw [(mem_badPixels.mp hi).2] at good
      cases good
    rw [List.foldl_cons, ih later]
    by_cases hj : j ∈ rest
    · rw [if_pos hj, if_pos (List.mem_cons_of_mem i hj)]
      exact isolated.replacement_congr undisturbed (later j hj)
    · rw [if_neg hj, get_replaceAt]
      simp only [List.mem_cons, hj, or_false, eq_comm (a := i)]
      split
      · rename_i same
        rw [same]
      · rfl

theorem Isolated.get_repair (isolated : Isolated c pattern p) (values : Image α) :
    (repair c pattern p values).get j =
      if j ∈ badPixels c pattern p then replacement c pattern values j else values.get j := by
  rw [repair_eq_foldl]
  exact isolated.get_foldl_replaceAt _ fun i hi => hi

omit [Scalar α] in
theorem Image.ext {u v : Image α} (h : ∀ i, u.get i = v.get i) : u = v :=
  Vector.ext fun k hk => h ⟨k, hk⟩

/-- Where no two bad pixels of a subpage are neighbours, repair gives each of them what is computed
from the image as it was measured, and not from what was measured at bad pixels. The order in which
they are replaced plays no part, and a repaired image stays as it is. -/
theorem repairs_isolated (isolated : Isolated c pattern p) (values : Image α) :
    (∀ i, (repair c pattern p values).get i =
      if pattern.subpageOf i = p ∧ c.bad i = true then replacement c pattern values i
      else values.get i) ∧
    (∀ u : Image α,
      (∀ j : Pixel, pattern.subpageOf j = p → c.bad j = false → u.get j = values.get j) →
      ∀ i : Pixel, pattern.subpageOf i = p → c.bad i = true →
        replacement c pattern u i = replacement c pattern values i) ∧
    (∀ order : List Pixel, order.Perm (badPixels c pattern p) →
      order.foldl (replaceAt c pattern) values = repair c pattern p values) ∧
    repair c pattern p (repair c pattern p values) = repair c pattern p values := by
  refine ⟨fun i => ?_, fun u agree i captured bad => ?_, fun order reordered => ?_, ?_⟩
  · simp only [isolated.get_repair, mem_badPixels]
  · exact isolated.replacement_congr agree (mem_badPixels.mpr ⟨captured, bad⟩)
  · apply Image.ext
    intro i
    rw [isolated.get_foldl_replaceAt order fun i => reordered.mem_iff.mp, isolated.get_repair]
    simp only [reordered.mem_iff]
  · apply Image.ext
    intro i
    have kept : ∀ j : Pixel, pattern.subpageOf j = p → c.bad j = false →
        (repair c pattern p values).get j = values.get j := by
      intro j _ good
      exact get_repair_of_good c pattern p values fun h => by simp [good] at h
    rw [isolated.get_repair (repair c pattern p values), isolated.get_repair values]
    by_cases hi : i ∈ badPixels c pattern p
    · rw [if_pos hi, if_pos hi, isolated.replacement_congr kept hi]
    · rw [if_neg hi]

open Interleave (erased bad_erased squares)
open Calibration (ofImage)

theorem isolated_erased :
    Isolated (ofImage (erased [10, 12])) .interleave .zero := by
  intro i hi j hj neighbours
  have bad (k : Pixel) (hk : k ∈ badPixels (ofImage (erased [10, 12])) .interleave .zero) :
      k.val = 10 ∨ k.val = 12 := by
    simpa [bad_erased] using (mem_badPixels.mp hk).2
  have hi := bad i hi
  have hj := bad j hj
  simp only [Pixel.Adjacent, Pixel.column, columnCount] at neighbours
  omega

/-- Pixels 10 and 12 lie on either side of a good one. Both become the mean of their neighbours,
whatever was measured at the other one, and also if the later one is replaced first. -/
theorem repairs_isolated_two_apart :
    let c := ofImage (erased [10, 12])
    Isolated c .interleave .zero ∧
      (repair c .interleave .zero squares).get 10 = 101 ∧
      (repair c .interleave .zero squares).get 12 = 145 ∧
      replacement c .interleave (squares.set 12 0) 10 = replacement c .interleave squares 10 ∧
      [12, 10].foldl (replaceAt c .interleave) squares = repair c .interleave .zero squares ∧
      repair c .interleave .zero (repair c .interleave .zero squares) =
        repair c .interleave .zero squares := by
  intro c
  obtain ⟨replaced, unread, reordered, again⟩ := repairs_isolated isolated_erased squares
  have bad (i : Pixel) : c.bad i = decide (i.val ∈ [10, 12]) := bad_erased _ i
  have measured (i : Pixel) : squares.get i = Float.ofInt (i.val * i.val : Nat) :=
    Vector.getElem_ofFn i.isLt
  refine ⟨isolated_erased, ?_, ?_, unread _ ?_ 10 (by decide) (bad 10), reordered _ ?_, again⟩
  · rw [replaced, if_pos ⟨by decide, bad 10⟩,
      Interleave.replacement_interior c squares (by decide), if_pos (.inr (bad 12)),
      Interleave.averaged, measured, measured]
    decide
  · rw [replaced, if_pos ⟨by decide, bad 12⟩,
      Interleave.replacement_interior c squares (by decide), if_pos (.inl (bad 10)),
      Interleave.averaged, measured, measured]
    decide
  · intro j _ good
    have other : 12 ≠ j.val := by
      intro h
      rw [bad, ← h] at good
      cases good
    exact Vector.getElem_set_ne (by decide) j.isLt other
  · apply (List.perm_ext_iff_of_nodup (by decide) (pairwise_badPixels c _ _).nodup).mpr
    intro i
    rw [mem_badPixels, bad, decide_eq_true_iff]
    simp only [List.mem_cons, List.not_mem_nil, or_false, Fin.ext_iff]
    constructor
    · rintro (h | h)
      · obtain rfl : i = 12 := Fin.ext h
        decide
      · obtain rfl : i = 10 := Fin.ext h
        decide
    · exact fun h => h.2.symm

end Thermopile
