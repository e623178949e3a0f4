import Thermopile.Frame
import Thermopile.Proofs.Double.Order

namespace Thermopile.Frame

open Double

section
variable {α : Type} [Scalar α]

/-- The bounds so far, if there are any, moved apart for `t`. -/
def widened (bounds : Option (α × α)) (t : α) : α × α :=
  bounds.elim (t, t) fun b => (Scalar.lesser b.1 t, Scalar.larger b.2 t)

theorem minMax?_eq (f : Frame α) :
    f.minMax? = f.measured.foldl (fun bounds t => some (widened bounds t)) none := by
  refine congrArg (fun step => f.measured.foldl step none) ?_
  funext bounds t
  cases bounds <;> rfl

end

section
variable {a b : Float} (ha : ¬a.isNaN = true) (hb : ¬b.isNaN = true)
include ha hb

theorem lesser_cases : Scalar.lesser a b = a ∧ a ≤ b ∨ Scalar.lesser a b = b ∧ b ≤ a := by
  obtain ⟨p, hp⟩ := exists_place? ha
  obtain ⟨q, hq⟩ := exists_place? hb
  by_cases h : b < a
  · exact .inr ⟨if_pos (decide_eq_true h), (le_iff hq hp).mpr ((lt_iff hq hp).mp h).le⟩
  · exact .inl ⟨if_neg (mt of_decide_eq_true h), (not_lt_iff hq hp).mp h⟩

theorem larger_cases : Scalar.larger a b = a ∧ b ≤ a ∨ Scalar.larger a b = b ∧ a ≤ b := by
  obtain ⟨p, hp⟩ := exists_place? ha
  obtain ⟨q, hq⟩ := exists_place? hb
  by_cases h : a < b
  · exact .inr ⟨if_pos (decide_eq_true h), (le_iff hp hq).mpr ((lt_iff hp hq).mp h).le⟩
  · exact .inl ⟨if_neg (mt of_decide_eq_true h), (not_lt_iff hp hq).mp h⟩

end

/-- `a` is among `l`, and is related to all of `l`. -/
def Extreme (r : Float → Float → Prop) (l : List Float) (a : Float) : Prop :=
  a ∈ l ∧ ∀ t ∈ l, r a t

section
variable {r : Float → Float → Prop} [IsTrans Float r] {l l' : List Float} {a a' t : Float}

theorem Extreme.concat (h : Extreme r l a) (self : r t t) {m : Float}
    (choice : m = a ∧ r a t ∨ m = t ∧ r t a) : Extreme r (l ++ [t]) m := by
  rcases choice with ⟨rfl, first⟩ | ⟨rfl, first⟩
  · refine ⟨List.mem_append_left _ h.1, ?_⟩
    rw [List.forall_mem_append, List.forall_mem_singleton]
    exact ⟨h.2, first⟩
  · refine ⟨List.mem_concat_self, ?_⟩
    rw [List.forall_mem_append, List.forall_mem_singleton]
    exact ⟨fun s hs => IsTrans.trans _ _ _ first (h.2 s hs), self⟩

theorem Extreme.related (equal : ∀ s t : Float, (s == t) = true → r s t) (h : Extreme r l a)
    (h' : Extreme r l' a') (among : ∀ t ∈ l', ∃ s ∈ l, (s == t) = true) : r a a' := by
  obtain ⟨s, hs, same⟩ := among a' h'.1
  exact IsTrans.trans _ _ _ (h.2 s hs) (equal s a' same)

end

instance : IsTrans Float (· ≤ ·) := ⟨fun _ _ _ => le_le_trans⟩

instance : IsTrans Float (· ≥ ·) := ⟨fun _ _ _ hab hbc => le_le_trans hbc hab⟩

def Bounds (l : List Float) (bounds : Float × Float) : Prop :=
  Extreme (· ≤ ·) l bounds.1 ∧ Extreme (· ≥ ·) l bounds.2

section
variable {l : List Float} {bounds : Float × Float} {t : Float}

theorem bounds_singleton (ht : ¬t.isNaN = true) : Bounds [t] (t, t) := by
  have self : t ≤ t := le_self_iff.mpr ht
  have low : Extreme (· ≤ ·) [t] t :=
    ⟨List.mem_singleton_self t, List.forall_mem_singleton.mpr self⟩
  exact ⟨low, List.mem_singleton_self t, List.forall_mem_singleton.mpr self⟩

theorem Bounds.concat (h : Bounds l bounds) (ht : ¬t.isNaN = true) :
    Bounds (l ++ [t]) (widened (some bounds) t) := by
  obtain ⟨low, high⟩ := h
  have self : t ≤ t := le_self_iff.mpr ht
  have numberLow := (numbers_of_le (low.2 _ low.1)).1
  have numberHigh := (numbers_of_le (high.2 _ high.1)).1
  rw [widened, Option.elim_some]
  exact ⟨low.concat self (lesser_cases numberLow ht), high.concat self (larger_cases numberHigh ht)⟩

theorem foldl_widened (numbers : ∀ t ∈ l, ¬t.isNaN = true) :
    l = [] ∧ l.foldl (fun bounds t => some (widened bounds t)) none = none ∨
    ∃ bounds, l.foldl (fun bounds t => some (widened bounds t)) none = some bounds ∧
      Bounds l bounds := by
  induction l using List.reverseRecOn with
  | nil => exact .inl ⟨rfl, rfl⟩
  | append_singleton l t ih =>
    rw [List.forall_mem_append, List.forall_mem_singleton] at numbers
    rw [List.foldl_concat]
    refine .inr ⟨_, rfl, ?_⟩
    rcases ih numbers.1 with ⟨rfl, none⟩ | ⟨bounds, some, h⟩
    · rw [none]
      exact bounds_singleton numbers.2
    · rw [some]
      exact h.concat numbers.2

/-- Lists with the same numbers, in whatever order, have the same bounds. -/
theorem Bounds.beq {l' : List Float} {low high low' high' : Float} (h : Bounds l (low, high))
    (h' : Bounds l' (low', high')) (below : ∀ t ∈ l, ∃ s ∈ l', (s == t) = true)
    (above : ∀ t ∈ l', ∃ s ∈ l, (s == t) = true) : ((low, high) == (low', high')) = true := by
  have le (s t : Float) (same : (s == t) = true) : s ≤ t := (beq_iff_le_le.mp same).1
  have ge (s t : Float) (same : (s == t) = true) : s ≥ t := (beq_iff_le_le.mp same).2
  have highest : high' ≥ high := h'.2.related ge h.2 below
  have highest' : high ≥ high' := h.2.related ge h'.2 above
  change (low == low' && high == high') = true
  rw [Bool.and_eq_true_iff, beq_iff_le_le, beq_iff_le_le]
  exact ⟨⟨h.1.related le h'.1 above, h'.1.related le h.1 below⟩, highest, highest'⟩

end

section
variable (f : Frame Float)

theorem isNumber_iff (t : Float) : Scalar.isNumber t = true ↔ ¬t.isNaN = true :=
  decide_eq_true_iff.trans le_self_iff

theorem mem_measured_iff (t : Float) :
    t ∈ f.measured ↔ (∃ i, f.temperatures.get i = t) ∧ ¬t.isNaN = true := by
  have entry : t ∈ f.temperatures.toList ↔ ∃ i, f.temperatures.get i = t := by
    rw [Vector.mem_toList_iff, Vector.mem_iff_getElem]
    exact ⟨fun ⟨i, hi, value⟩ => ⟨⟨i, hi⟩, value⟩, fun ⟨i, value⟩ => ⟨i, i.isLt, value⟩⟩
  rw [measured, List.mem_filter, isNumber_iff, entry]

theorem get_mem_measured {i : Pixel} (number : ¬(f.temperatures.get i).isNaN = true) :
    f.temperatures.get i ∈ f.measured :=
  (f.mem_measured_iff _).mpr ⟨⟨i, rfl⟩, number⟩

theorem exists_beq_get {t : Float} (h : t ∈ f.measured) :
    ∃ i, (t == f.temperatures.get i) = true := by
  obtain ⟨⟨i, rfl⟩, number⟩ := (f.mem_measured_iff t).mp h
  have self := le_self_iff.mpr number
  exact ⟨i, beq_iff_le_le.mpr ⟨self, self⟩⟩

theorem exists_measured_beq {g : Frame Float}
    (occur : ∀ t, (∃ i, (f.temperatures.get i == t) = true) →
      ∃ i, (g.temperatures.get i == t) = true) :
    ∀ t ∈ f.measured, ∃ s ∈ g.measured, (s == t) = true := by
  intro t ht
  obtain ⟨⟨i, rfl⟩, number⟩ := (f.mem_measured_iff t).mp ht
  have self := le_self_iff.mpr number
  obtain ⟨j, equal⟩ := occur _ ⟨i, beq_iff_le_le.mpr ⟨self, self⟩⟩
  exact ⟨_, g.get_mem_measured (numbers_of_le (beq_iff_le_le.mp equal).1).1, equal⟩

theorem measured_eq_nil_iff : f.measured = [] ↔ ∀ i, (f.temperatures.get i).isNaN = true := by
  rw [List.eq_nil_iff_forall_not_mem]
  constructor
  · intro h i
    by_contra number
    exact h _ (f.get_mem_measured number)
  · intro h t ht
    obtain ⟨⟨i, rfl⟩, number⟩ := (f.mem_measured_iff t).mp ht
    exact number (h i)

theorem minMax?_cases : f.measured = [] ∧ f.minMax? = none ∨
    ∃ bounds, f.minMax? = some bounds ∧ Bounds f.measured bounds := by
  rw [minMax?_eq]
  exact foldl_widened fun t ht => ((f.mem_measured_iff t).mp ht).2

theorem minMax?_eq_none_iff : f.minMax? = none ↔ f.measured = [] := by
  rcases f.minMax?_cases with ⟨empty, none⟩ | ⟨bounds, some, h⟩
  · exact iff_of_true none empty
  · rw [some]
    exact iff_of_false (Option.some_ne_none _) (List.ne_nil_of_mem h.1.1)

variable {f}

theorem bounds_of_minMax? {bounds : Float × Float} (h : f.minMax? = some bounds) :
    Bounds f.measured bounds := by
  rcases f.minMax?_cases with ⟨-, none⟩ | ⟨bounds', some, h'⟩
  · rw [none] at h
    cases h
  · obtain rfl : bounds' = bounds := Option.some.inj (some.symm.trans h)
    exact h'

theorem minMax?_beq {g : Frame Float} (below : ∀ t ∈ f.measured, ∃ s ∈ g.measured, (s == t) = true)
    (above : ∀ t ∈ g.measured, ∃ s ∈ f.measured, (s == t) = true) :
    (f.minMax? == g.minMax?) = true := by
  rcases f.minMax?_cases with ⟨empty, none⟩ | ⟨bounds, some, h⟩ <;>
    rcases g.minMax?_cases with ⟨empty', none'⟩ | ⟨bounds', some', h'⟩
  · rw [none, none']
    rfl
  · obtain ⟨s, hs, -⟩ := above _ h'.1.1
    exact absurd hs (empty ▸ List.not_mem_nil)
  · obtain ⟨s, hs, -⟩ := below _ h.1.1
    exact absurd hs (empty' ▸ List.not_mem_nil)
  · rw [some, some']
    exact h.beq h' below above

end

/-- A frame without numbers has no lowest and highest temperature. In any other they are numbers of
the frame, and all its numbers lie between them. They are the same in every frame in which the same
numbers occur, at whatever pixels, and whichever others are undefined. -/
theorem min_max_exact (f : Frame Float) :
    (f.minMax? = none ↔ ∀ i, (f.temperatures.get i).isNaN = true) ∧
    (∀ low high, f.minMax? = some (low, high) →
      (∃ i, (low == f.temperatures.get i) = true) ∧ (∃ i, (high == f.temperatures.get i) = true) ∧
      ∀ i, (f.temperatures.get i).isNaN = false →
        low ≤ f.temperatures.get i ∧ f.temperatures.get i ≤ high) ∧
    ∀ g : Frame Float,
      (∀ t, (∃ i, (f.temperatures.get i == t) = true) ↔ ∃ i, (g.temperatures.get i == t) = true) →
      (f.minMax? == g.minMax?) = true := by
  refine ⟨f.minMax?_eq_none_iff.trans f.measured_eq_nil_iff, fun low high bounded => ?_,
    fun g same => minMax?_beq (f.exists_measured_beq fun t => (same t).mp)
      (g.exists_measured_beq fun t => (same t).mpr)⟩
  obtain ⟨lowest, highest⟩ := bounds_of_minMax? bounded
  refine ⟨f.exists_beq_get lowest.1, f.exists_beq_get highest.1, fun i number => ?_⟩
  have mem := f.get_mem_measured (Bool.eq_false_iff.mp number)
  exact ⟨lowest.2 _ mem, highest.2 _ mem⟩

end Thermopile.Frame
