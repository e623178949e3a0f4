import Thermopile.Proofs.Calibration.Fields
import Thermopile.Proofs.Decoder.Visibility

namespace Thermopile

theorem Word.toInt_ne {w : Word} (h : w ≠ invalidWord) : w.toInt ≠ 32767 := by
  intro hw
  have small := w.toNat_lt
  have value : (w.toNat : Int).bmod 65536 = 32767 := by
    rwa [toInt, signed, unsigned_all] at hw
  have number : w.toNat = 32767 := by
    rw [Int.bmod_def] at value
    omega
  exact h (UInt16.toNat_inj.mp number)

/-- What is found in a sorted list is the only member with the property that no other such member
comes before. -/
theorem find?_eq_some_iff_first {β : Type} {r : β → β → Prop} [Std.Asymm r] {l : List β}
    (sorted : l.Pairwise r) {P : β → Bool} {k : β} :
    l.find? P = some k ↔ k ∈ l ∧ P k = true ∧ ∀ j ∈ l, r j k → P j = false := by
  constructor
  · intro h
    obtain ⟨found, before, after, rfl, none⟩ := List.find?_eq_some_iff_append.mp h
    refine ⟨by simp, found, fun j hj lower => ?_⟩
    rcases List.mem_append.mp hj with hj | hj
    · simpa using none j hj
    · -- What follows comes later.
      rcases List.mem_cons.mp hj with rfl | hj
      · exact absurd lower (Std.Asymm.asymm _ _ lower)
      · have later : r k j := List.rel_of_pairwise_cons (List.pairwise_append.mp sorted).2.1 hj
        exact absurd lower (Std.Asymm.asymm _ _ later)
  · rintro ⟨hk, found, first⟩
    obtain ⟨before, after, rfl⟩ := List.append_of_mem hk
    refine List.find?_eq_some_iff_append.mpr ⟨found, before, after, rfl, fun j hj => ?_⟩
    have earlier : r j k := (List.pairwise_append.mp sorted).2.2 j hj k List.mem_cons_self
    simpa using first j (List.mem_append_left _ hj) earlier

theorem Subpage.select_ne {α : Type} {a b c : α} (p : Subpage) (ha : a ≠ c) (hb : b ≠ c) :
    p.select (a, b) ≠ c := by
  cases p with
  | zero => exact ha
  | one => exact hb

namespace Snapshot

def Unreserved (n : Nat) : Prop :=
  n = 0 ∨ 8 ≤ n ∧ n < 19 ∨ 20 ≤ n ∧ n < 23 ∨ 24 ≤ n ∧ n < 33 ∨ 40 ≤ n ∧ n < 51 ∨
    52 ≤ n ∧ n < 55 ∨ 56 ≤ n ∧ n < 64

/-- A word that must be valid: the start of a row whose number has the parity of the subpage, or an
auxiliary word that is not reserved. -/
def Checked (p : Subpage) (k : Nat) : Prop :=
  (∃ r < 24, r % 2 = p.toNat ∧ k = 32 * r) ∨ ∃ n, Unreserved n ∧ k = 768 + n

variable {p : Subpage} {k : Nat}

theorem mem_rowStarts : k ∈ rowStarts p ↔ ∃ r < 24, r % 2 = p.toNat ∧ k = 32 * r := by
  simp only [rowStarts, List.mem_map, List.mem_filter, List.mem_range, decide_eq_true_eq,
    and_assoc, Nat.mul_comm _ columnCount, eq_comm (b := k)]

theorem unreserved_iff {n : Nat} :
    Unreserved n ↔ ∃ run ∈ auxiliaryRuns, run.1 ≤ n ∧ n < run.2 := by
  simp only [Unreserved, auxiliaryRuns, List.mem_cons, List.not_mem_nil, or_false,
    exists_eq_or_imp, exists_eq_left]
  omega

theorem mem_auxiliaryWords : k ∈ auxiliaryWords ↔ ∃ n, Unreserved n ∧ k = 768 + n := by
  simp only [auxiliaryWords, List.mem_flatMap, List.mem_map, List.mem_range'_1, unreserved_iff]
  constructor
  · rintro ⟨run, hr, n, hn, rfl⟩
    exact ⟨n, ⟨run, hr, by omega⟩, rfl⟩
  · rintro ⟨n, ⟨run, hr, hn⟩, rfl⟩
    exact ⟨run, hr, n, by omega, rfl⟩

theorem mem_checkedWords : k ∈ checkedWords p ↔ Checked p k := by
  rw [checkedWords, List.mem_append, mem_rowStarts, mem_auxiliaryWords, Checked]

theorem Checked.lt_ramSize (h : Checked p k) : k < ramSize := by
  rcases h with ⟨r, hr, -, rfl⟩ | ⟨n, hn, rfl⟩
  · simp only [ramSize]
    omega
  · simp only [ramSize, Unreserved] at *
    omega

theorem pairwise_checkedWords (p : Subpage) : (checkedWords p).Pairwise (· < ·) := by
  have rows : (rowStarts p).Pairwise (· < ·) := by
    refine List.Pairwise.map _ (fun i j hij => ?_) (List.pairwise_lt_range.filter _)
    exact Nat.mul_lt_mul_of_pos_right hij (by decide)
  have auxiliary : auxiliaryWords.Pairwise (· < ·) := by decide +kernel
  refine List.pairwise_append.mpr ⟨rows, auxiliary, fun i hi j hj => ?_⟩
  obtain ⟨r, hr, -, rfl⟩ := mem_rowStarts.mp hi
  obtain ⟨n, -, rfl⟩ := mem_auxiliaryWords.mp hj
  omega

variable (s : Snapshot)

theorem getElem?_words (k : Fin ramSize) : s.words[k.val]? = some (s.words.get k) :=
  getElem?_get s.words k

theorem firstInvalid?_eq_some_iff {k : Nat} : s.firstInvalid? = some k ↔
    ∃ i : Fin ramSize, k = i ∧ Checked s.subpage i ∧ s.words.get i = invalidWord ∧
      ∀ j < i, Checked s.subpage j → s.words.get j ≠ invalidWord := by
  rw [firstInvalid?, find?_eq_some_iff_first (pairwise_checkedWords s.subpage)]
  simp only [mem_checkedWords]
  constructor
  · rintro ⟨checked, found, lowest⟩
    have hk := checked.lt_ramSize
    rw [s.getElem?_words ⟨k, hk⟩] at found
    refine ⟨⟨k, hk⟩, rfl, checked, by simpa using found, fun j hj checked' => ?_⟩
    have valid := lowest j checked' hj
    rw [s.getElem?_words j] at valid
    simpa using valid
  · rintro ⟨i, rfl, checked, found, lowest⟩
    refine ⟨checked, ?_, fun j checked' hj => ?_⟩
    · rw [s.getElem?_words i, found, beq_self_eq_true]
    · have valid := lowest ⟨j, checked'.lt_ramSize⟩ hj checked'
      rw [s.getElem?_words ⟨j, checked'.lt_ramSize⟩]
      simpa using valid

theorem valid_iff_forall : s.Valid ↔
    ∀ k : Fin ramSize, Checked s.subpage k → s.words.get k ≠ invalidWord := by
  rw [valid_iff, firstInvalid?, List.find?_eq_none]
  constructor
  · intro none k checked invalid
    apply none k (mem_checkedWords.mpr checked)
    rw [s.getElem?_words k, invalid, beq_self_eq_true]
  · intro valid k hk
    have checked := mem_checkedWords.mp hk
    rw [s.getElem?_words ⟨k, checked.lt_ramSize⟩]
    simpa using valid ⟨k, checked.lt_ramSize⟩ checked

theorem validate_eq_error_iff (fault : Fault) : s.validate = .error fault ↔
    ∃ k, s.firstInvalid? = some k ∧ fault = .badData ⟨.ofNat (0x0400 + k)⟩ := by
  have place (k : Nat) : (AddressSpace.address RamAddress.base).advance k =
      ⟨.ofNat (0x0400 + k)⟩ := by
    rw [UInt16.ofNat_add]
    rfl
  unfold validate
  cases s.firstInvalid? with
  | none => simp
  | some k => simp [place, eq_comm]

/-- A value that the formulas read from a valid snapshot was measured. -/
theorem Valid.read_ne {s : Snapshot} (h : s.Valid) {a : RamAddress} (ha : a ≠ .base) :
    s.read a ≠ 32767 := by
  have checked : Checked s.subpage a.index :=
    .inr (mem_auxiliaryWords.mp (index_mem_auxiliaryWords ha))
  exact Word.toInt_ne (s.valid_iff_forall.mp h ⟨a.index, a.index_lt⟩ checked)

/-- Validation fails exactly if a checked word is invalid, and reports the lowest one. Nothing else
in the snapshot has a part in that, and what the formulas read from a snapshot that passes was
measured. -/
theorem validate_reports_lowest :
    (s.validate = .ok () ↔
      ∀ k : Fin ramSize, Checked s.subpage k → s.words.get k ≠ 0x7FFF) ∧
    (∀ fault, s.validate = .error fault ↔
      ∃ k : Fin ramSize, Checked s.subpage k ∧ s.words.get k = 0x7FFF ∧
        (∀ j < k, Checked s.subpage j → s.words.get j ≠ 0x7FFF) ∧
        fault = .badData ⟨.ofNat (0x0400 + k)⟩) ∧
    (∀ t : Snapshot, t.subpage = s.subpage →
      (∀ k : Fin ramSize, Checked s.subpage k → t.words.get k = s.words.get k) →
      t.validate = s.validate) ∧
    (s.validate = .ok () →
      ∀ reading ∈ [s.vBe, s.vPtat, s.vddPixel, s.gain, s.compensationPixel .zero,
        s.compensationPixel .one], reading ≠ 32767) := by
  refine ⟨s.valid_iff_forall, fun fault => ?_, fun t subpage same => ?_, fun valid => ?_⟩
  · simp only [validate_eq_error_iff, firstInvalid?_eq_some_iff]
    constructor
    · rintro ⟨_, ⟨k, rfl, checked, found, lowest⟩, rfl⟩
      exact ⟨k, checked, found, lowest, rfl⟩
    · rintro ⟨k, checked, found, lowest, rfl⟩
      exact ⟨k, ⟨k, rfl, checked, found, lowest⟩, rfl⟩
  · have first : t.firstInvalid? = s.firstInvalid? := by
      rw [firstInvalid?, firstInvalid?, subpage]
      apply List.find?_congr
      intro k hk
      have checked := mem_checkedWords.mp hk
      rw [t.getElem?_words ⟨k, checked.lt_ramSize⟩, s.getElem?_words ⟨k, checked.lt_ramSize⟩,
        same ⟨k, checked.lt_ramSize⟩ checked]
    rw [validate, validate, first]
  · have measured (a : RamAddress) (ha : a ≠ .base) : s.read a ≠ 32767 := Valid.read_ne valid ha
    have compensation (p : Subpage) : s.compensationPixel p ≠ 32767 := by
      rw [compensationPixel]
      exact p.select_ne (measured _ (by decide)) (measured _ (by decide))
    simp only [List.forall_mem_cons]
    exact ⟨measured _ (by decide), measured _ (by decide), measured _ (by decide),
      measured _ (by decide), compensation .zero, compensation .one, List.forall_mem_nil _⟩

/-- Three invalid words: the first pixel, which starts an even row, the start of row 3, and an
auxiliary word. -/
def scatteredExample : Snapshot where
  words := .ofFn fun k => if k.val = 0 ∨ k.val = 96 ∨ k.val = 776 then invalidWord else 0
  subpage := .one
  pattern := .interleave
  resolution := .sixteen

theorem validate_reports_lowest_several :
    scatteredExample.words.get 0 = 0x7FFF ∧ scatteredExample.words.get 776 = 0x7FFF ∧
    scatteredExample.validate = .error (.badData ⟨0x0460⟩) := by
  have word (k : Fin ramSize) : scatteredExample.words.get k =
      if k.val = 0 ∨ k.val = 96 ∨ k.val = 776 then 0x7FFF else 0 := by
    change scatteredExample.words[k.val] = _
    simp only [scatteredExample, Vector.getElem_ofFn, invalidWord]
  have lowest : ∀ j < (96 : Fin ramSize), Checked .one j →
      scatteredExample.words.get j ≠ 0x7FFF := by
    intro j hj checked
    have below : j.val < 96 := hj
    -- Only row 1 starts before row 3 and belongs to the subpage.
    have start : j = 32 := by
      apply Fin.ext
      change j.val = 32
      rcases checked with ⟨r, -, odd, hr⟩ | ⟨n, -, hn⟩
      · change r % 2 = 1 at odd
        omega
      · omega
    rw [start, word]
    decide
  exact ⟨word 0, word 776, ((validate_reports_lowest scatteredExample).2.1 _).mpr
    ⟨96, .inl ⟨3, by decide, rfl, rfl⟩, word 96, lowest, rfl⟩⟩

end Snapshot
end Thermopile
