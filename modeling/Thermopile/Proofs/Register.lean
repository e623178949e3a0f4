import Thermopile.Proofs.Word
import Thermopile.Register.Control
import Thermopile.Register.Interface
import Thermopile.Register.Status

namespace Thermopile

theorem FrameRate.code_ofBits {n : Nat} (h : n < 8) : (ofBits n).code = n := by
  revert n
  decide

theorem Resolution.code_lt (r : Resolution) : r.code < 4 := by cases r <;> decide

theorem Resolution.code_ofBits {n : Nat} (h : n < 4) : (ofBits n).code = n := by
  revert n
  decide

namespace Status

def all : List Status :=
  [Subpage.zero, .one].flatMap fun p =>
    [false, true].flatMap fun new =>
      [false, true].flatMap fun overwrite =>
        [false, true].map fun start => ⟨p, new, overwrite, start⟩

theorem mem_all (s : Status) : s ∈ all := by
  have subpage : s.lastSubpage ∈ [Subpage.zero, .one] := by cases s.lastSubpage <;> decide
  have bit (on : Bool) : on ∈ [false, true] := by cases on <;> decide
  simp only [all, List.mem_flatMap, List.mem_map]
  exact ⟨_, subpage, _, bit s.newData, _, bit s.overwriteEnabled, _, bit s.startMeasurement, rfl⟩

/-- What can be computed for each content holds of all. -/
theorem forall_of_all {P : Status → Prop} (h : ∀ s ∈ all, P s) (s : Status) : P s :=
  h s (mem_all s)

theorem ofWord_toWord (s : Status) : ofWord s.toWord = s :=
  forall_of_all (P := fun s => ofWord s.toWord = s) (by decide) s

end Status

namespace Control

theorem fields_lt (c : Control) :
    c.useSubpages.toNat < 2 ∧ c.dataHold.toNat < 2 ∧ c.subpageRepeat.toNat < 2 ∧
      c.subpage.toNat < 2 ∧ c.frameRate.code < 8 ∧ c.resolution.code < 4 ∧
      c.accessPattern.toNat < 2 ∧ c.startMeasurement.toNat < 2 := by
  have hp : c.subpage.toNat < 2 := by cases c.subpage <;> decide
  have hf : c.frameRate.code < 8 := by cases c.frameRate <;> decide
  have hr := c.resolution.code_lt
  have ha : c.accessPattern.toNat < 2 := by cases c.accessPattern <;> decide
  exact ⟨c.useSubpages.toNat_lt, c.dataHold.toNat_lt, c.subpageRepeat.toNat_lt, hp, hf, hr, ha,
    c.startMeasurement.toNat_lt⟩

theorem toNat_toWord (c : Control) :
    c.toWord.toNat = c.useSubpages.toNat + c.dataHold.toNat * 2 ^ 2 +
      c.subpageRepeat.toNat * 2 ^ 3 + c.subpage.toNat * 2 ^ 4 + c.frameRate.code * 2 ^ 7 +
      c.resolution.code * 2 ^ 10 + c.accessPattern.toNat * 2 ^ 12 +
      c.startMeasurement.toNat * 2 ^ 15 := by
  have flag (i : Nat) (hi : i ∈ [0, 2, 3, 15]) (on : Bool) :
      Word.flag i on = Word.field i on.toNat := by
    revert i
    cases on <;> decide
  obtain ⟨hu, hd, hs, hp, hf, hr, ha, hm⟩ := c.fields_lt
  have h0 : (Word.field 0 c.useSubpages.toNat).toNat = c.useSubpages.toNat := by
    cases c.useSubpages <;> rfl
  -- Each field stands above the sum of those before it.
  have h2 := Word.toNat_or_field h0 2 c.dataHold.toNat (by omega) (by omega)
  have h3 := Word.toNat_or_field h2 3 c.subpageRepeat.toNat (by omega) (by omega)
  have h4 := Word.toNat_or_field h3 4 c.subpage.toNat (by omega) (by omega)
  have h7 := Word.toNat_or_field h4 7 c.frameRate.code (by omega) (by omega)
  have h10 := Word.toNat_or_field h7 10 c.resolution.code (by omega) (by omega)
  have h12 := Word.toNat_or_field h10 12 c.accessPattern.toNat (by omega) (by omega)
  have h15 := Word.toNat_or_field h12 15 c.startMeasurement.toNat (by omega) (by omega)
  simp only [toWord, flag, List.mem_cons, true_or, or_true]
  exact h15

theorem ofWord_toWord (c : Control) : ofWord c.toWord = c := by
  have hn := c.toNat_toWord
  obtain ⟨hu, hd, hs, hp, hf, hr, ha, hm⟩ := c.fields_lt
  have bit (i v : Nat) (h : c.toWord.toNat / 2 ^ i % 2 = v) : c.toWord.bit i = decide (v = 1) := by
    rw [Word.bit_eq_decide, h]
  have b0 : c.toWord.bit 0 = c.useSubpages := by
    rw [bit 0 c.useSubpages.toNat (by omega)]
    cases c.useSubpages <;> rfl
  have b2 : c.toWord.bit 2 = c.dataHold := by
    rw [bit 2 c.dataHold.toNat (by omega)]
    cases c.dataHold <;> rfl
  have b3 : c.toWord.bit 3 = c.subpageRepeat := by
    rw [bit 3 c.subpageRepeat.toNat (by omega)]
    cases c.subpageRepeat <;> rfl
  have b4 : (if c.toWord.bit 4 then Subpage.one else .zero) = c.subpage := by
    rw [bit 4 c.subpage.toNat (by omega)]
    cases c.subpage <;> rfl
  have rate : FrameRate.ofBits (c.toWord.unsigned 7 3) = c.frameRate := by
    have h : c.toWord.unsigned 7 3 = c.frameRate.code := by
      rw [Word.unsigned_eq_div_mod]
      omega
    rw [h, FrameRate.ofBits_code]
  have resolution : Resolution.ofBits (c.toWord.unsigned 10 2) = c.resolution := by
    have h : c.toWord.unsigned 10 2 = c.resolution.code := by
      rw [Word.unsigned_eq_div_mod]
      omega
    rw [h, Resolution.ofBits_code]
  have b12 : (if c.toWord.bit 12 then AccessPattern.chess else .interleave) = c.accessPattern := by
    rw [bit 12 c.accessPattern.toNat (by omega)]
    cases c.accessPattern <;> rfl
  have b15 : c.toWord.bit 15 = c.startMeasurement := by
    rw [bit 15 c.startMeasurement.toNat (by omega)]
    cases c.startMeasurement <;> rfl
  rw [ofWord, b0, b2, b3, b4, rate, resolution, b12, b15]

theorem ofWord_clear_start (w : Word) :
    ofWord (w &&& 0x7FFF) = { ofWord w with startMeasurement := false } := by
  have hn : (w &&& 0x7FFF).toNat = w.toNat % 2 ^ 15 := by
    rw [UInt16.toNat_and]
    exact Nat.and_two_pow_sub_one_eq_mod _ 15
  have bit (i : Nat) (hi : i ∈ [0, 2, 3, 4, 12]) : (w &&& 0x7FFF).bit i = w.bit i := by
    have same : w.toNat % 2 ^ 15 / 2 ^ i % 2 = w.toNat / 2 ^ i % 2 := by
      simp only [List.mem_cons, List.not_mem_nil, or_false] at hi
      rcases hi with rfl | rfl | rfl | rfl | rfl <;> omega
    rw [Word.bit_eq_decide, Word.bit_eq_decide, hn, same]
  have rate : (w &&& 0x7FFF).unsigned 7 3 = w.unsigned 7 3 := by
    rw [Word.unsigned_eq_div_mod, Word.unsigned_eq_div_mod, hn]
    omega
  have resolution : (w &&& 0x7FFF).unsigned 10 2 = w.unsigned 10 2 := by
    rw [Word.unsigned_eq_div_mod, Word.unsigned_eq_div_mod, hn]
    omega
  have start : (w &&& 0x7FFF).bit 15 = false := by
    rw [Word.bit_eq_decide, hn, Nat.div_eq_of_lt (Nat.mod_lt _ (by decide))]
    rfl
  simp only [ofWord, bit, rate, resolution, start, List.mem_cons, true_or, or_true]

end Control

theorem InterfaceConfig.ofWord_toWord (c : InterfaceConfig) : ofWord c.toWord = c := by
  obtain ⟨fast, halved, limiter⟩ := c
  revert fast halved limiter
  decide

theorem InterfaceAddress.ofWord_toWord (a : InterfaceAddress) : ofWord a.toWord = a := by
  rw [ofWord, toWord, UInt8.toUInt8_toUInt16]

end Thermopile
