import Thermopile.Proofs.Register

namespace Thermopile

/-- Neighbouring bits of a word. -/
structure WordField where
  offset : Nat
  width : Nat
deriving DecidableEq

namespace WordField

variable (f : WordField)

/-- The word with ones in the field and nowhere else. -/
def mask : Word := Word.field f.offset ((1 <<< f.width) - 1)

def Contains (i : Nat) : Prop := f.offset ≤ i ∧ i < f.offset + f.width

instance (i : Nat) : Decidable (f.Contains i) :=
  inferInstanceAs (Decidable (f.offset ≤ i ∧ i < f.offset + f.width))

/-- The word with `n` in the field, and otherwise as it was. -/
def write (w : Word) (n : Nat) : Word := (w &&& ~~~f.mask) ||| Word.field f.offset n

theorem bit_mask {i : Nat} (hi : i < 16) : f.mask.bit i = decide (f.Contains i) := by
  rw [mask, Word.bit_field _ _ hi, Nat.one_shiftLeft, Nat.testBit_two_pow_sub_one,
    ← Bool.decide_and]
  exact decide_eq_decide.mpr (by unfold Contains; omega)

theorem field_unsigned (w : Word) :
    Word.field f.offset (w.unsigned f.offset f.width) = w &&& f.mask := by
  apply Word.ext_bit
  intro i hi
  rw [Word.bit_field _ _ hi, Word.bit_and, f.bit_mask hi, Word.unsigned, Nat.one_shiftLeft,
    Nat.testBit_mod_two_pow, Nat.testBit_shiftRight, Word.bit]
  by_cases above : f.offset ≤ i
  · have inside : i - f.offset < f.width ↔ f.Contains i := by unfold Contains; omega
    rw [Nat.add_sub_cancel' above, decide_eq_true above, Bool.true_and, Bool.and_comm,
      decide_eq_decide.mpr inside]
  · have outside : ¬f.Contains i := fun inside => above inside.1
    simp [above, outside]

variable {f} {n : Nat}

theorem bit_write_of_not_contains (w : Word) (hn : n < 2 ^ f.width) {i : Nat}
    (outside : ¬f.Contains i) : (f.write w n).bit i = w.bit i := by
  by_cases hi : 16 ≤ i
  · rw [Word.bit_of_le _ hi, Word.bit_of_le _ hi]
  rw [Nat.not_le] at hi
  have unwritten : (Word.field f.offset n).bit i = false := by
    rw [Word.bit_field _ _ hi]
    by_cases above : f.offset ≤ i
    · have width_le : f.width ≤ i - f.offset := by
        unfold Contains at outside
        omega
      have high : n < 2 ^ (i - f.offset) :=
        Nat.lt_of_lt_of_le hn (Nat.pow_le_pow_right (by decide) width_le)
      rw [Nat.testBit_lt_two_pow high, Bool.and_false]
    · rw [decide_eq_false above, Bool.false_and]
  rw [write, Word.bit_or, Word.bit_and, Word.bit_not _ hi, f.bit_mask hi,
    decide_eq_false outside, unwritten]
  simp

end WordField

/-- A register as the fields of its word, and the changes that set one of them. -/
class Register.Layout (R : Type) [Register R] where
  /-- The fields, and the number that each of them holds. -/
  fields : List (WordField × (R → Nat))
  Change : Type
  change : R → Change → R
  place : Change → WordField
  /-- What a change puts into its field, unless it is refused. -/
  number? : Change → Option Nat
  disjoint : ∀ f ∈ fields, ∀ g ∈ fields, f.1 = g.1 ∨ f.1.mask &&& g.1.mask = 0
  toWord_eq : ∀ r : R, Register.toWord r =
    Word.union (fields.map fun f => Word.field f.1.offset (f.2 r))
  number_ofWord : ∀ (w : Word), ∀ f ∈ fields,
    f.2 (Register.ofWord w) = w.unsigned f.1.offset f.1.width
  ofWord_toWord : ∀ r : R, Register.ofWord (Register.toWord r) = r
  place_mem : ∀ c : Change, ∃ f ∈ fields, f.1 = place c
  number_change : ∀ (r : R) (c : Change), ∀ f ∈ fields,
    f.2 (change r c) = if f.1 = place c then (number? c).getD (f.2 r) else f.2 r

namespace Register.Layout

variable {R : Type} [Register R] [Layout R]

def mask (R : Type) [Register R] [Layout R] : Word :=
  Word.union ((fields : List (WordField × (R → Nat))).map fun f => f.1.mask)

def overwrite (w : Word) (c : Change R) : Word :=
  ((number? c).map (WordField.write (place c) w)).getD w

theorem number_eq (r : R) {f : WordField × (R → Nat)} (hf : f ∈ fields) :
    f.2 r = (toWord r).unsigned f.1.offset f.1.width := by
  rw [← number_ofWord _ f hf, ofWord_toWord]

theorem field_number (r : R) {f : WordField × (R → Nat)} (hf : f ∈ fields) :
    Word.field f.1.offset (f.2 r) = toWord r &&& f.1.mask := by
  rw [number_eq r hf, f.1.field_unsigned]

/-- Encoding what is decoded keeps the fields and nothing else. -/
theorem toWord_ofWord (w : Word) : toWord (ofWord w : R) = w &&& mask R := by
  rw [toWord_eq, mask, ← Word.union_map_and]
  apply congrArg
  apply List.map_congr_left
  intro f hf
  rw [number_ofWord w f hf, f.1.field_unsigned]

theorem eq_of_numbers {r r' : R}
    (h : ∀ f ∈ (fields : List (WordField × (R → Nat))), f.2 r = f.2 r') : r = r' := by
  have words : toWord r = toWord r' := by
    rw [toWord_eq, toWord_eq]
    apply congrArg
    apply List.map_congr_left
    intro f hf
    rw [h f hf]
  rw [← ofWord_toWord r, words, ofWord_toWord]

theorem toWord_change (r : R) (c : Change R) : toWord (change r c) = overwrite (toWord r) c := by
  unfold overwrite
  cases hn : number? c with
  | none =>
    have same : change r c = r := by
      apply eq_of_numbers
      intro f hf
      rw [number_change r c f hf, hn, Option.getD_none, ite_self]
    rw [same]
    rfl
  | some n =>
    have parts : ∀ f ∈ (fields : List (WordField × (R → Nat))),
        Word.field f.1.offset (f.2 (change r c)) =
          (~~~(place c).mask &&& Word.field f.1.offset (f.2 r)) |||
            if f.1 = place c then Word.field (place c).offset n else 0 := by
      intro f hf
      rw [number_change r c f hf, hn, Option.getD_some, field_number r hf]
      by_cases same : f.1 = place c
      · rw [if_pos same, if_pos same, same, Word.not_and_and_self, UInt16.zero_or]
      · obtain ⟨g, hg, there⟩ := place_mem c
        have apart : f.1.mask &&& (place c).mask = 0 :=
          there ▸ (disjoint f hf g hg).resolve_left fun h => same (h.trans there)
        rw [if_neg same, if_neg same, Word.not_and_and_of_disjoint apart, UInt16.or_zero,
          field_number r hf]
    rw [Option.map_some, Option.getD_some, WordField.write, toWord_eq (change r c),
      List.map_congr_left parts, Word.union_map_or, Word.union_map_and,
      Word.union_map_ite, if_pos (place_mem c), ← toWord_eq, UInt16.and_comm]

theorem number_lt {c : Change R} {n : Nat} (hn : number? c = some n) (r : R) :
    n < 2 ^ (place c).width := by
  obtain ⟨f, hf, there⟩ := place_mem c
  have put : f.2 (change r c) = n := by
    rw [number_change r c f hf, if_pos there, hn, Option.getD_some]
  rw [← put, number_eq _ hf, ← there]
  exact Word.unsigned_lt _ _ _

theorem change_comm (r : R) {c d : Change R} (h : place c ≠ place d) :
    change (change r c) d = change (change r d) c := by
  apply eq_of_numbers
  intro f hf
  simp only [number_change _ _ f hf]
  by_cases hc : f.1 = place c
  · have hd : f.1 ≠ place d := fun hd => h (hc.symm.trans hd)
    rw [if_neg hd, if_pos hc, if_pos hc, if_neg hd]
  · rw [if_neg hc, if_neg hc]

theorem toWord_foldl_change (r : R) (changes : List (Change R)) :
    toWord (changes.foldl change r) = changes.foldl overwrite (toWord r) := by
  induction changes generalizing r with
  | nil => rfl
  | cons c rest ih => rw [List.foldl_cons, List.foldl_cons, ih, toWord_change]

theorem bit_change (r : R) (c : Change R) {i : Nat} (outside : ¬(place c).Contains i) :
    (toWord (change r c)).bit i = (toWord r).bit i := by
  rw [toWord_change, overwrite]
  cases hn : number? c with
  | none => rfl
  | some n => exact WordField.bit_write_of_not_contains _ (number_lt hn r) outside

end Register.Layout

theorem Subpage.toNat_ite (on : Bool) : (if on then one else zero).toNat = on.toNat := by
  cases on <;> rfl

theorem AccessPattern.toNat_ite (on : Bool) :
    (if on then chess else interleave).toNat = on.toNat := by
  cases on <;> rfl

instance : Register.Layout Status where
  fields := [(⟨0, 1⟩, fun s => s.lastSubpage.toNat), (⟨3, 1⟩, fun s => s.newData.toNat),
    (⟨4, 1⟩, fun s => s.overwriteEnabled.toNat), (⟨5, 1⟩, fun s => s.startMeasurement.toNat)]
  Change := Status.Change
  change := Status.apply
  place
    | .clearNewData => ⟨3, 1⟩
    | .overwriteEnabled _ => ⟨4, 1⟩
    | .startMeasurement _ => ⟨5, 1⟩
  number?
    | .clearNewData => some 0
    | .overwriteEnabled on | .startMeasurement on => some on.toNat
  disjoint := by decide
  toWord_eq s := by
    change s.toWord = _
    simp (disch := decide) only [Status.toWord, Word.flag_eq_field, UInt16.or_assoc]
    simp [Word.union]
  number_ofWord w := by
    simp only [List.forall_mem_cons]
    exact ⟨(Subpage.toNat_ite _).trans (w.toNat_bit 0), w.toNat_bit 3, w.toNat_bit 4,
      w.toNat_bit 5, List.forall_mem_nil _⟩
  ofWord_toWord := Status.ofWord_toWord
  place_mem c := by cases c <;> simp
  number_change s c := by cases c <;> simp [Status.apply, Status.clearNewData]

instance : Register.Layout Control where
  fields := [(⟨0, 1⟩, fun c => c.useSubpages.toNat), (⟨2, 1⟩, fun c => c.dataHold.toNat),
    (⟨3, 1⟩, fun c => c.subpageRepeat.toNat), (⟨4, 1⟩, fun c => c.subpage.toNat),
    (⟨7, 3⟩, fun c => c.frameRate.code), (⟨10, 2⟩, fun c => c.resolution.code),
    (⟨12, 1⟩, fun c => c.accessPattern.toNat), (⟨15, 1⟩, fun c => c.startMeasurement.toNat)]
  Change := Control.Change
  change := Control.apply
  place
    | .useSubpages _ => ⟨0, 1⟩
    | .dataHold _ => ⟨2, 1⟩
    | .subpageRepeat _ => ⟨3, 1⟩
    | .subpage _ => ⟨4, 1⟩
    | .frameRate _ => ⟨7, 3⟩
    | .resolution _ => ⟨10, 2⟩
    | .accessPattern _ => ⟨12, 1⟩
    | .startMeasurement _ => ⟨15, 1⟩
  number?
    | .useSubpages on | .dataHold on | .subpageRepeat on | .startMeasurement on => some on.toNat
    | .subpage p => some p.toNat
    | .frameRate r => some r.code
    | .resolution r => some r.code
    | .accessPattern p => some p.toNat
  disjoint := by decide
  toWord_eq c := by
    change c.toWord = _
    simp (disch := decide) only [Control.toWord, Word.flag_eq_field, UInt16.or_assoc]
    simp [Word.union]
  number_ofWord w := by
    simp only [List.forall_mem_cons]
    exact ⟨w.toNat_bit 0, w.toNat_bit 2, w.toNat_bit 3,
      (Subpage.toNat_ite _).trans (w.toNat_bit 4), FrameRate.code_ofBits (w.unsigned_lt 7 3),
      Resolution.code_ofBits (w.unsigned_lt 10 2),
      (AccessPattern.toNat_ite _).trans (w.toNat_bit 12), w.toNat_bit 15, List.forall_mem_nil _⟩
  ofWord_toWord := Control.ofWord_toWord
  place_mem c := by cases c <;> simp
  number_change r c := by cases c <;> simp [Control.apply]

/-- The flags in bits 0 and 2 are stored inverted. -/
instance : Register.Layout InterfaceConfig where
  fields := [(⟨0, 1⟩, fun c => (!c.fastModePlus).toNat), (⟨1, 1⟩, fun c => c.thresholdHalved.toNat),
    (⟨2, 1⟩, fun c => (!c.sdaCurrentLimiter).toNat)]
  Change := InterfaceConfig.Change
  change := InterfaceConfig.apply
  place
    | .fastModePlus _ => ⟨0, 1⟩
    | .thresholdHalved _ => ⟨1, 1⟩
    | .sdaCurrentLimiter _ => ⟨2, 1⟩
  number?
    | .fastModePlus on | .sdaCurrentLimiter on => some (!on).toNat
    | .thresholdHalved on => some on.toNat
  disjoint := by decide
  toWord_eq c := by
    change c.toWord = _
    simp (disch := decide) only [InterfaceConfig.toWord, Word.flag_eq_field, UInt16.or_assoc]
    simp [Word.union]
  number_ofWord w := by
    have inverted (i : Nat) : (!!w.bit i).toNat = w.unsigned i 1 := by
      rw [Bool.not_not, w.toNat_bit]
    simp only [List.forall_mem_cons]
    exact ⟨inverted 0, w.toNat_bit 1, inverted 2, List.forall_mem_nil _⟩
  ofWord_toWord := InterfaceConfig.ofWord_toWord
  place_mem c := by cases c <;> simp
  number_change r c := by cases c <;> simp [InterfaceConfig.apply]

/-- The register with a new address, or as it is if there is no such address. -/
def InterfaceAddress.assign (a : InterfaceAddress) (device : UInt8) : InterfaceAddress :=
  match ofDevice? device with
  | .ok changed => changed
  | .error _ => a

instance : Register.Layout InterfaceAddress where
  fields := [(⟨0, 8⟩, fun a => a.device.toNat)]
  Change := UInt8
  change := InterfaceAddress.assign
  place _ := ⟨0, 8⟩
  number? device :=
    match InterfaceAddress.ofDevice? device with
    | .ok changed => some changed.device.toNat
    | .error _ => none
  disjoint := by decide
  toWord_eq a := by
    have low : Word.field 0 a.device.toNat = a.device.toUInt16 := by
      rw [Word.field, Nat.shiftLeft_zero, UInt16.ofNat_uInt8ToNat]
    rw [List.map_singleton, low]
    exact UInt16.or_zero.symm
  number_ofWord w := by
    rw [List.forall_mem_singleton, Word.unsigned_eq_div_mod, Nat.pow_zero, Nat.div_one]
    exact UInt16.toNat_toUInt8 w
  ofWord_toWord := InterfaceAddress.ofWord_toWord
  place_mem c := by simp
  number_change a device := by
    rw [List.forall_mem_singleton, if_pos rfl, InterfaceAddress.assign]
    cases InterfaceAddress.ofDevice? device <;> rfl

/-- Words and the registers that they are decoded to correspond, where the fields of the register
are in the bits of `mask`. -/
structure Register.Corresponds (R : Type) [Register R] [Register.Layout R] (mask : Word) :
    Prop where
  toWord_ofWord (w : Word) : toWord (ofWord w : R) = w &&& mask
  ofWord_toWord (r : R) (changes : List (Layout.Change R)) :
    ofWord (toWord (changes.foldl Layout.change r)) = changes.foldl Layout.change r
  toWord_changes (r : R) (changes : List (Layout.Change R)) :
    toWord (changes.foldl Layout.change r) = changes.foldl Layout.overwrite (toWord r)
  bit_change (r : R) (c : Layout.Change R) (i : Nat) (outside : ¬(Layout.place c).Contains i) :
    (toWord (Layout.change r c)).bit i = (toWord r).bit i
  change_comm (r : R) (c d : Layout.Change R) (other : Layout.place c ≠ Layout.place d) :
    Layout.change (Layout.change r c) d = Layout.change (Layout.change r d) c

theorem Register.Layout.corresponds (R : Type) [Register R] [Layout R] {mask : Word}
    (h : Layout.mask R = mask) : Corresponds R mask where
  toWord_ofWord w := h ▸ Layout.toWord_ofWord w
  ofWord_toWord _ _ := Layout.ofWord_toWord _
  toWord_changes := toWord_foldl_change
  bit_change r c _ outside := Layout.bit_change r c outside
  change_comm _ _ _ other := Layout.change_comm _ other

/-- Each register and its words correspond: the status has its fields in bits 0 and 3 to 5, the
control register has none in bits 1, 5, 6, 13 and 14, the electrical settings have three flags, and
the address has one byte. -/
theorem registers_correspond :
    Register.Corresponds Status 0x0039 ∧ Register.Corresponds Control 0x9F9D ∧
      Register.Corresponds InterfaceConfig 0x0007 ∧ Register.Corresponds InterfaceAddress 0x00FF :=
  ⟨Register.Layout.corresponds Status (by decide), Register.Layout.corresponds Control (by decide),
    Register.Layout.corresponds InterfaceConfig (by decide),
    Register.Layout.corresponds InterfaceAddress (by decide)⟩

example : (Control.ofWord 0xFFFF).toWord = 0x9F9D := by decide

end Thermopile
