import Thermopile.Proofs.Double.TotalOrder
import Thermopile.Proofs.Repair.Totality

namespace Thermopile

namespace Pixel

/-- The pixels of the image that are one row and one column away. -/
def neighbours (i : Pixel) : Finset Pixel :=
  Finset.univ.filter fun j =>
    ((j.row : Int) - i.row).natAbs = 1 ∧ ((j.column : Int) - i.column).natAbs = 1

theorem at?_place (j : Pixel) : at? j.row j.column = some j := by
  have hr := j.row_lt
  have hc := j.column_lt
  obtain ⟨k, hk⟩ : ∃ k, at? j.row j.column = some k := exists_at? (by omega)
  obtain ⟨row, column⟩ := place_of_at? hk
  have same : k = j := Fin.ext (by rw [k.val_eq, j.val_eq]; omega)
  rw [hk, same]

theorem mem_diagonals_iff {i j : Pixel} : j ∈ i.diagonals ↔ j ∈ i.neighbours := by
  simp only [neighbours, Finset.mem_filter, Finset.mem_univ, true_and]
  constructor
  · intro h
    obtain ⟨down, right, hd, hr, row, column⟩ := mem_diagonals h
    omega
  · rintro ⟨row, column⟩
    have move : ((j.row : Int) - i.row, (j.column : Int) - i.column) ∈
        [((-1 : Int), (-1 : Int)), (-1, 1), (1, -1), (1, 1)] := by
      simp only [List.mem_cons, Prod.mk.injEq, List.not_mem_nil, or_false]
      omega
    rw [diagonals, List.mem_filterMap]
    refine ⟨_, move, ?_⟩
    dsimp only
    rw [add_sub_cancel, add_sub_cancel, at?_place]

theorem nodup_diagonals (i : Pixel) : i.diagonals.Nodup := by
  apply List.Nodup.filterMap _ (by decide)
  rintro ⟨down, right⟩ ⟨down', right'⟩ j hj hj'
  obtain ⟨row, column⟩ := place_of_at? hj
  obtain ⟨row', column'⟩ := place_of_at? hj'
  exact Prod.ext (by dsimp only at *; omega) (by dsimp only at *; omega)

theorem val_neighbours (i : Pixel) : i.neighbours.val = (i.diagonals : Multiset Pixel) := by
  have same : i.neighbours = i.diagonals.toFinset := by
    ext j
    rw [List.mem_toFinset, mem_diagonals_iff]
  rw [same, List.toFinset_val, i.nodup_diagonals.dedup]

end Pixel

/-- The single number, the mean of two, or the mean of the two in the middle of four. -/
inductive IsMedian : Multiset Rat → Rat → Prop
  | one (a : Rat) : IsMedian {a} a
  | two (a b : Rat) : IsMedian {a, b} ((a + b) / 2)
  | four {a b c d : Rat} (hab : a ≤ b) (hbc : b ≤ c) (hcd : c ≤ d) :
      IsMedian {a, b, c, d} ((b + c) / 2)

def ranked {α : Type} [Scalar α] (values : List α) : List α := values.mergeSort Scalar.sortsBefore

section
variable {α : Type} [Scalar α]

theorem ranked_perm (values : List α) : (ranked values).Perm values := List.mergeSort_perm _ _

theorem length_ranked (values : List α) : (ranked values).length = values.length :=
  (ranked_perm values).length_eq

/-- Where scalars are sorted by their places in a linear order, the places ascend. -/
theorem pairwise_ranked {β : Type} [LinearOrder β] (place : α → β)
    (sorts : ∀ a b : α, Scalar.sortsBefore a b = decide (place a ≤ place b)) (values : List α) :
    (ranked values).Pairwise fun a b => place a ≤ place b := by
  have sorted : (ranked values).Pairwise fun a b => Scalar.sortsBefore a b = true := by
    apply List.pairwise_mergeSort
    · intro a b c hab hbc
      rw [sorts, decide_eq_true_iff] at hab hbc ⊢
      exact hab.trans hbc
    · intro a b
      rw [sorts, sorts, Bool.or_eq_true, decide_eq_true_iff, decide_eq_true_iff]
      exact le_total _ _
  exact sorted.imp fun h => of_decide_eq_true (sorts _ _ ▸ h)

/-- The median is made of the two ranks in the middle. If the number of values is odd, both are the
same. -/
theorem exists_middle {values : List α} (h : values ≠ []) :
    ∃ a b, (ranked values)[(values.length - 1) / 2]? = some a ∧
      (ranked values)[values.length / 2]? = some b ∧
      (a = b ∧ median? values = some b ∨ median? values = some (mean a b)) := by
  have size := List.length_pos_iff.mpr h
  have length := length_ranked values
  have low : (values.length - 1) / 2 < (ranked values).length := by omega
  have high : values.length / 2 < (ranked values).length := by omega
  refine ⟨_, _, List.getElem?_eq_getElem low, List.getElem?_eq_getElem high, ?_⟩
  unfold median?
  dsimp only
  rw [← ranked, length]
  by_cases even : values.length % 2 = 0
  · have below : values.length / 2 - 1 = (values.length - 1) / 2 := by omega
    rw [if_pos even, below, List.getElem?_eq_getElem low, List.getElem?_eq_getElem high]
    exact .inr rfl
  · have same : (values.length - 1) / 2 = values.length / 2 := by omega
    rw [if_neg even, List.getElem?_eq_getElem high]
    exact .inl ⟨getElem_congr_idx same, rfl⟩

theorem exists_ranks (values : Image α) (i : Pixel) :
    ∃ a b, (ranked (i.diagonals.map values.get))[(i.diagonals.length - 1) / 2]? = some a ∧
      (ranked (i.diagonals.map values.get))[i.diagonals.length / 2]? = some b ∧
      (a = b ∧ chessReplacement values i = b ∨ chessReplacement values i = mean a b) := by
  have neighbours : i.diagonals.map values.get ≠ [] := mt List.map_eq_nil_iff.mp i.diagonals_ne_nil
  obtain ⟨a, b, ha, hb, median⟩ := exists_middle neighbours
  rw [List.length_map] at ha hb
  refine ⟨a, b, ha, hb, ?_⟩
  unfold chessReplacement
  rcases median with ⟨same, single⟩ | two
  · exact .inl ⟨same, by rw [single, Option.getD_some]⟩
  · exact .inr (by rw [two, Option.getD_some])

end

section
variable {l : List Rat}

theorem ascending_ranked (values : List Rat) : (ranked values).Pairwise (· ≤ ·) :=
  pairwise_ranked id (fun _ _ => rfl) values

/-- How the number of values up to a bound tells which of them are. -/
theorem le_iff_lt_countP (sorted : l.Pairwise (· ≤ ·)) {k : Nat} {a : Rat} (h : l[k]? = some a)
    (bound : Rat) : a ≤ bound ↔ k < l.countP (· ≤ bound) := by
  induction l generalizing k with
  | nil => cases h
  | cons first rest ih =>
    obtain ⟨least, later⟩ := List.pairwise_cons.mp sorted
    by_cases hf : first ≤ bound
    · rw [List.countP_cons_of_pos (by simpa using hf)]
      cases k with
      | zero =>
        obtain rfl := Option.some.inj h
        exact iff_of_true hf (Nat.succ_pos _)
      | succ k => rw [ih later h, Nat.succ_lt_succ_iff]
    · have above : ∀ b ∈ first :: rest, ¬b ≤ bound := by
        rw [List.forall_mem_cons]
        exact ⟨hf, fun b hb hle => hf ((least b hb).trans hle)⟩
      have none : (first :: rest).countP (· ≤ bound) = 0 :=
        List.countP_eq_zero.mpr fun b hb => by simpa using above b hb
      rw [none]
      exact iff_of_false (above a (List.mem_of_getElem? h)) (Nat.not_lt_zero k)

theorem ranked_mono {β : Type} {places : List β} {u v : β → Rat}
    (h : ∀ j ∈ places, u j ≤ v j) {k : Nat} {a b : Rat}
    (ha : (ranked (places.map u))[k]? = some a) (hb : (ranked (places.map v))[k]? = some b) :
    a ≤ b := by
  have upTo := (le_iff_lt_countP (ascending_ranked _) hb b).mp le_rfl
  rw [le_iff_lt_countP (ascending_ranked _) ha]
  apply upTo.trans_le
  -- Whatever is up to the bound among the greater values has a smaller value that is so too.
  rw [(ranked_perm _).countP_eq, (ranked_perm _).countP_eq, List.countP_map, List.countP_map]
  apply List.countP_mono_left
  intro j hj below
  exact decide_eq_true ((h j hj).trans (of_decide_eq_true below))

theorem mean_rat (a b : Rat) : mean a b = (a + b) / 2 := rfl

theorem exists_exact_ranks (values : Image Rat) (i : Pixel) :
    ∃ a b, (ranked (i.diagonals.map values.get))[(i.diagonals.length - 1) / 2]? = some a ∧
      (ranked (i.diagonals.map values.get))[i.diagonals.length / 2]? = some b ∧
      chessReplacement values i = (a + b) / 2 := by
  obtain ⟨a, b, ha, hb, value⟩ := exists_ranks values i
  refine ⟨a, b, ha, hb, ?_⟩
  rcases value with ⟨rfl, single⟩ | two
  · rw [single, add_self_div_two]
  · rw [two, mean_rat]

theorem isMedian_of_ranks {values : List Rat} {a b : Rat}
    (size : values.length ∈ [1, 2, 4])
    (ha : (ranked values)[(values.length - 1) / 2]? = some a)
    (hb : (ranked values)[values.length / 2]? = some b) : IsMedian values ((a + b) / 2) := by
  have perm := ranked_perm values
  have sorted := ascending_ranked values
  rw [← Multiset.coe_eq_coe.mpr perm]
  have length := perm.length_eq
  generalize ranked values = l at length ha hb sorted
  simp only [List.mem_cons, List.not_mem_nil, or_false] at size
  rcases size with one | two | four
  · rw [one] at length ha hb
    match l with
    | [x] =>
      obtain rfl : x = a := Option.some.inj ha
      obtain rfl : x = b := Option.some.inj hb
      rw [add_self_div_two]
      exact .one x
  · rw [two] at length ha hb
    match l with
    | [x, y] =>
      obtain rfl : x = a := Option.some.inj ha
      obtain rfl : y = b := Option.some.inj hb
      exact .two x y
  · rw [four] at length ha hb
    match l with
    | [x, y, z, w] =>
      obtain rfl : y = a := Option.some.inj ha
      obtain rfl : z = b := Option.some.inj hb
      simp only [List.pairwise_cons, List.forall_mem_cons] at sorted
      obtain ⟨⟨hxy, -⟩, ⟨hyz, -⟩, ⟨hzw, -⟩, -⟩ := sorted
      exact .four hxy hyz hzw

end

open Double

def numberOf (x : Float) : Rat := (value? x).getD 0

theorem ranked_map {values : List Float} (finite : ∀ x ∈ values, value? x = some (numberOf x)) :
    ranked (values.map numberOf) = (ranked values).map numberOf := by
  have perm : (ranked (values.map numberOf)).Perm ((ranked values).map numberOf) :=
    (ranked_perm _).trans ((ranked_perm values).map numberOf).symm
  have sorted : ((ranked values).map numberOf).Pairwise (· ≤ ·) := by
    rw [List.pairwise_map]
    apply (pairwise_ranked floatRank (fun _ _ => rfl) values).imp_of_mem
    intro x y hx hy before
    have number {z : Float} (hz : z ∈ ranked values) : value? z = some (numberOf z) :=
      finite z ((ranked_perm values).mem_iff.mp hz)
    exact le_of_floatRank_le (number hx) (number hy) before
  exact perm.eq_of_pairwise (fun _ _ _ _ => le_antisymm) (ascending_ranked _) sorted

theorem value?_mean {x y : Float} {p q : Rat} (hx : value? x = some p) (hy : value? y = some q)
    (sum : Representable (p + q)) (half : Representable ((p + q) / 2)) :
    value? (mean x y) = some ((p + q) / 2) :=
  value?_div (value?_add hx hy sum) (value?_ofInt (by decide : (2 : Int).natAbs < 2 ^ 53))
    two_ne_zero half

section
variable {values : Image Float} {exact : Image Rat} {i : Pixel}
variable (finite : ∀ j ∈ i.neighbours, value? (values.get j) = some (exact.get j))
include finite

theorem ranked_exact : ranked (i.diagonals.map exact.get) =
    (ranked (i.diagonals.map values.get)).map numberOf := by
  have number {j : Pixel} (hj : j ∈ i.diagonals) : numberOf (values.get j) = exact.get j := by
    rw [numberOf, finite j (Pixel.mem_diagonals_iff.mp hj), Option.getD_some]
  have numbers : i.diagonals.map exact.get = (i.diagonals.map values.get).map numberOf := by
    rw [List.map_map]
    exact List.map_congr_left fun j hj => (number hj).symm
  rw [numbers]
  apply ranked_map
  rw [List.forall_mem_map]
  intro j hj
  rw [number hj]
  exact finite j (Pixel.mem_diagonals_iff.mp hj)

theorem exists_neighbour_of_rank {k : Nat} {x : Float} {q : Rat}
    (hx : (ranked (i.diagonals.map values.get))[k]? = some x)
    (hq : (ranked (i.diagonals.map exact.get))[k]? = some q) :
    ∃ j ∈ i.neighbours, x = values.get j ∧ q = exact.get j := by
  have among := (ranked_perm _).mem_iff.mp (List.mem_of_getElem? hx)
  obtain ⟨j, hj, rfl⟩ := List.mem_map.mp among
  have near := Pixel.mem_diagonals_iff.mp hj
  rw [ranked_exact finite, List.getElem?_map, hx, Option.map_some, numberOf, finite j near,
    Option.getD_some] at hq
  exact ⟨j, near, rfl, (Option.some.inj hq).symm⟩

/-- In doubles the replacement is the value at a neighbour, or the mean of two such values, and
exactly it is the same of the numbers that they stand for. -/
theorem exists_reading :
    (∃ j ∈ i.neighbours, chessReplacement values i = values.get j ∧
      chessReplacement exact i = exact.get j) ∨
    ∃ j ∈ i.neighbours, ∃ k ∈ i.neighbours,
      chessReplacement values i = mean (values.get j) (values.get k) ∧
      chessReplacement exact i = (exact.get j + exact.get k) / 2 := by
  obtain ⟨x, y, hx, hy, double⟩ := exists_ranks values i
  obtain ⟨p, q, hp, hq, number⟩ := exists_exact_ranks exact i
  obtain ⟨j, hj, rfl, rfl⟩ := exists_neighbour_of_rank finite hx hp
  obtain ⟨k, hk, rfl, rfl⟩ := exists_neighbour_of_rank finite hy hq
  rcases double with ⟨same, single⟩ | two
  · have numbers : exact.get j = exact.get k :=
      Option.some.inj ((finite j hj).symm.trans (same ▸ finite k hk))
    rw [numbers, add_self_div_two] at number
    exact .inl ⟨k, hk, single, number⟩
  · exact .inr ⟨j, hj, k, hk, two, number⟩

end

theorem isMedian_chessReplacement (values : Image Rat) (i : Pixel) :
    IsMedian (i.neighbours.val.map values.get) (chessReplacement values i) := by
  obtain ⟨a, b, ha, hb, value⟩ := exists_exact_ranks values i
  rw [value, i.val_neighbours, Multiset.map_coe]
  apply isMedian_of_ranks
  · rw [List.length_map]
    exact i.length_diagonals_cases
  · rwa [List.length_map]
  · rwa [List.length_map]

theorem IsMedian.exists_le_le {values : Multiset Rat} {m : Rat} (h : IsMedian values m) :
    (∃ a ∈ values, a ≤ m) ∧ ∃ b ∈ values, m ≤ b := by
  cases h with
  | one => exact ⟨⟨m, by simp, le_rfl⟩, m, by simp, le_rfl⟩
  | two a b =>
    rcases le_total a b with hab | hba
    · exact ⟨⟨a, by simp, by linarith⟩, b, by simp, by linarith⟩
    · exact ⟨⟨b, by simp, by linarith⟩, a, by simp, by linarith⟩
  | @four a b c d hab hbc hcd =>
    exact ⟨⟨a, by simp, by linarith⟩, d, by simp, by linarith⟩

theorem chessReplacement_mono {u v : Image Rat} {i : Pixel}
    (h : ∀ j ∈ i.neighbours, u.get j ≤ v.get j) :
    chessReplacement u i ≤ chessReplacement v i := by
  have near : ∀ j ∈ i.diagonals, u.get j ≤ v.get j := fun j hj =>
    h j (Pixel.mem_diagonals_iff.mp hj)
  obtain ⟨a, b, ha, hb, value⟩ := exists_exact_ranks u i
  obtain ⟨a', b', ha', hb', value'⟩ := exists_exact_ranks v i
  have low := ranked_mono near ha ha'
  have high := ranked_mono near hb hb'
  rw [value, value']
  linarith

/-- Read exactly, the replacement in the chess pattern is the median of the values at the diagonal
neighbours that are in the image. It lies between them and does not fall where none of them falls.
No other pixel has a part in it. In doubles it is the value at a neighbour or one mean, of the
values that the exact replacement is made of, and the median itself unless that mean is rounded. -/
theorem chess_replacement_is_median (i : Pixel) :
    (∀ values : Image Rat,
      IsMedian (i.neighbours.val.map values.get) (chessReplacement values i) ∧
      (∃ j ∈ i.neighbours, values.get j ≤ chessReplacement values i) ∧
      ∃ j ∈ i.neighbours, chessReplacement values i ≤ values.get j) ∧
    (∀ u v : Image Rat, (∀ j ∈ i.neighbours, u.get j ≤ v.get j) →
      chessReplacement u i ≤ chessReplacement v i) ∧
    (∀ (α : Type) [Scalar α] (u v : Image α), (∀ j ∈ i.neighbours, u.get j = v.get j) →
      chessReplacement u i = chessReplacement v i) ∧
    ∀ (values : Image Float) (exact : Image Rat),
      (∀ j ∈ i.neighbours, value? (values.get j) = some (exact.get j)) →
      (∃ j ∈ i.neighbours, chessReplacement values i = values.get j ∧
        chessReplacement exact i = exact.get j) ∨
      ∃ j ∈ i.neighbours, ∃ k ∈ i.neighbours,
        chessReplacement values i = mean (values.get j) (values.get k) ∧
        chessReplacement exact i = (exact.get j + exact.get k) / 2 ∧
        (Representable (exact.get j + exact.get k) →
          Representable ((exact.get j + exact.get k) / 2) →
            value? (chessReplacement values i) = some (chessReplacement exact i)) := by
  refine ⟨fun values => ?_, fun u v => chessReplacement_mono, fun α _ u v same => ?_,
    fun values exact finite => ?_⟩
  · have median := isMedian_chessReplacement values i
    obtain ⟨⟨a, ha, low⟩, b, hb, high⟩ := median.exists_le_le
    obtain ⟨j, hj, rfl⟩ := Multiset.mem_map.mp ha
    obtain ⟨k, hk, rfl⟩ := Multiset.mem_map.mp hb
    exact ⟨median, ⟨j, hj, low⟩, k, hk, high⟩
  · exact chessReplacement_congr fun j hj => same j (Pixel.mem_diagonals_iff.mp hj)
  · rcases exists_reading finite with value | ⟨j, hj, k, hk, double, number⟩
    · exact .inl value
    · refine .inr ⟨j, hj, k, hk, double, number, fun sum half => ?_⟩
      rw [double, number]
      exact value?_mean (finite j hj) (finite k hk) sum half

end Thermopile
