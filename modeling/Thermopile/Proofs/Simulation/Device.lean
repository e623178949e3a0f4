import Thermopile.Proofs.Register
import Thermopile.Proofs.Transport
import Thermopile.Simulation.Device

namespace Thermopile

theorem Word.length_flatMap_toBytes (words : List Word) :
    (words.flatMap toBytes).length = 2 * words.length := by
  induction words with
  | nil => rfl
  | cons w rest ih =>
    rw [List.flatMap_cons, List.length_append, ih, List.length_cons]
    have hl : w.toBytes.length = 2 := rfl
    omega

theorem Word.succ_add_ofNat (a : Word) (i : Nat) :
    a + 1 + UInt16.ofNat i = a + UInt16.ofNat (i + 1) := by
  apply UInt16.toNat_inj.mp
  simp only [UInt16.toNat_add, UInt16.toNat_ofNat', UInt16.toNat_one]
  omega

namespace Simulation.Device

variable {device : UInt8} {d d' : Device}

/-- The camera answers at the address `device`, and nothing fails, changes or gets lost. -/
structure Cooperative (device : UInt8) (d : Device) : Prop where
  address : d.address = device
  individual : device ≠ 0
  failing : d.failing = []
  queued : d.queued = []
  lost : d.lost = []
  stuck : d.stuck = false

/-- The devices differ at most in what they recorded. -/
def Alike (d d' : Device) : Prop := ∃ count log, d' = { d with count := count, log := log }

theorem Alike.refl (d : Device) : d.Alike d := ⟨_, _, rfl⟩

theorem Alike.trans {e : Device} (h : d.Alike d') (h' : d'.Alike e) : d.Alike e := by
  obtain ⟨count, log, rfl⟩ := h
  obtain ⟨count', log', rfl⟩ := h'
  exact ⟨count', log', rfl⟩

theorem alike_record (d : Device) (transfer : Transfer) (failed : Bool) :
    d.Alike (d.record transfer failed) := ⟨_, _, rfl⟩

theorem peek_poke (a b w : Word) : (d.poke a w).peek b = if a = b then w else d.peek b := by
  have hb : b.toNat < memorySize := b.toNat_lt
  change (d.memory.set a.toNat w a.toNat_lt)[b.toNat] = _
  rw [Vector.getElem_set]
  simp only [UInt16.toNat_inj]
  rfl

theorem Cooperative.poke (h : d.Cooperative device) (a w : Word) :
    (d.poke a w).Cooperative device :=
  { h with }

theorem cooperative_boot (eeprom ram : List Word) :
    (boot eeprom ram).Cooperative cameraAddress :=
  ⟨rfl, by decide, rfl, rfl, rfl, rfl⟩

theorem getElem?_memory (a : Word) : d.memory[a.toNat]? = some (d.peek a) :=
  Vector.getElem?_eq_getElem a.toNat_lt

theorem peek_load (start : Word) (words : List Word) (a : Word) :
    (d.load start words).peek a =
      if start.toNat ≤ a.toNat then (words[a.toNat - start.toNat]?).getD (d.peek a)
      else d.peek a := by
  have stored : (d.load start words).memory = Transport.store d.memory start.toNat words := rfl
  have seen := (d.load start words).getElem?_memory a
  rw [stored, Transport.getElem?_store, getElem?_memory] at seen
  apply Option.some.inj
  rw [← seen]
  by_cases h : start.toNat ≤ a.toNat
  · rw [if_pos h, if_pos ⟨h, a.toNat_lt⟩]
    cases words[a.toNat - start.toNat]? <;> rfl
  · rw [if_neg h, if_neg fun hs => h hs.1]

theorem readWords_eq (h : d.queued = []) (a : Word) (n : Nat) :
    readWords a n d = ((List.range n).map fun i => d.peek (a + UInt16.ofNat i), d) := by
  have read (a : Word) : d.readWord a = (d.peek a, d) := by
    unfold readWord
    rw [h]
    rfl
  induction n generalizing a with
  | zero => rfl
  | succ n ih =>
    simp only [readWords, read, ih, List.range_succ_eq_map, List.map_cons, List.map_map,
      Word.succ_add_ofNat]
    have hz : a + UInt16.ofNat 0 = a := UInt16.add_zero a
    rw [hz]
    rfl

theorem fault?_eq_none (h : d.Cooperative device) {transfer : Transfer}
    (there : transfer.device = device ∨ transfer.device = 0) : d.fault? transfer = none := by
  unfold fault?
  rw [h.failing, h.address, if_neg (by simp), if_pos there]

theorem toList_ofFn_getD {count : Nat} {bytes : List UInt8} (h : bytes.length = count) :
    (Vector.ofFn fun i : Fin count => bytes.toArray.getD i.val 0).toList = bytes := by
  subst h
  apply List.ext_getElem
  · simp
  · intro i h₁ h₂
    simp

theorem exchange_of_silent (queued : d.queued = []) (a : Address) (n : Nat)
    (silent : d.fault? (.read device a.toBytes (2 * n)) = none) :
    ∃ bytes d', d.exchange device a.toBytes (2 * n) = (.ok bytes, d') ∧ d.Alike d' ∧
      bytes.toList =
        (List.range n).flatMap fun i => (d.peek (a.word + UInt16.ofNat i)).toBytes := by
  have started : (Word.listOfBytes a.toBytes).headD 0 = a.word := by
    rw [Address.toBytes, Word.listOfBytes_toBytes]
    rfl
  have half : (2 * n + 1) / 2 = n := by omega
  have recorded : (d.record (.read device a.toBytes (2 * n)) false).queued = [] := queued
  -- Recording the transfer comes first, and changes no word.
  unfold exchange
  simp only [silent, started, half, readWords_eq recorded]
  refine ⟨_, _, rfl, d.alike_record _ _, ?_⟩
  rw [toList_ofFn_getD, List.flatMap_map]
  · rfl
  · rw [Word.length_flatMap_toBytes, List.length_map, List.length_range]

theorem exchange_eq (h : d.Cooperative device) (a : Address) (n : Nat) :
    ∃ bytes d', d.exchange device a.toBytes (2 * n) = (.ok bytes, d') ∧ d.Alike d' ∧
      bytes.toList =
        (List.range n).flatMap fun i => (d.peek (a.word + UInt16.ofNat i)).toBytes :=
  exchange_of_silent h.queued a n (fault?_eq_none h (.inl rfl))

theorem Cooperative.alike (h : d.Cooperative device) (ha : d.Alike d') :
    d'.Cooperative device := by
  obtain ⟨count, log, rfl⟩ := ha
  exact { h with }

theorem Alike.peek (ha : d.Alike d') (a : Word) : d'.peek a = d.peek a := by
  obtain ⟨count, log, rfl⟩ := ha
  rfl

theorem measure_of_nil (h : d.measurements = []) :
    d.measure = if d.repeats then d.announce else d := by
  unfold measure
  rw [h]

theorem measure_of_cons {image : RamImage} {rest : List RamImage}
    (h : d.measurements = image :: rest) :
    d.measure =
      ({ d with measurements := rest }.load RamAddress.base.word image.toList).announce := by
  unfold measure
  rw [h]

theorem Alike.poke (ha : d.Alike d') (a w : Word) : (d.poke a w).Alike (d'.poke a w) := by
  obtain ⟨count, log, rfl⟩ := ha
  exact ⟨count, log, rfl⟩

theorem Alike.measurements (ha : d.Alike d') : d'.measurements = d.measurements := by
  obtain ⟨count, log, rfl⟩ := ha
  rfl

theorem Alike.repeats (ha : d.Alike d') : d'.repeats = d.repeats := by
  obtain ⟨count, log, rfl⟩ := ha
  rfl

theorem Alike.announce (ha : d.Alike d') : d.announce.Alike d'.announce := by
  unfold Device.announce
  rw [ha.peek]
  exact ha.poke _ _

theorem Alike.measure (ha : d.Alike d') : d.measure.Alike d'.measure := by
  cases h : d.measurements with
  | nil =>
    rw [measure_of_nil h, measure_of_nil (ha.measurements.trans h), ha.repeats]
    split
    · exact ha.announce
    · exact ha
  | cons image rest =>
    rw [measure_of_cons h, measure_of_cons (ha.measurements.trans h)]
    obtain ⟨count, log, rfl⟩ := ha
    exact ⟨count, log, rfl⟩

theorem Alike.store (ha : d.Alike d') (a w : Word) : (d.store a w).Alike (d'.store a w) := by
  unfold Device.store
  by_cases hs : a = RegisterAddress.status.word ∧ w.bit 3 = false
  · rw [if_pos hs, if_pos hs]
    exact (ha.poke a w).measure
  · rw [if_neg hs, if_neg hs]
    exact ha.poke a w

def Idle (d : Device) : Prop := d.measurements = [] ∧ d.repeats = false

theorem Idle.alike (h : d.Idle) (ha : d.Alike d') : d'.Idle := by
  obtain ⟨count, log, rfl⟩ := ha
  exact h

theorem store_eq_poke (idle : d.Idle) (a w : Word) : d.store a w = d.poke a w := by
  have unchanged : (d.poke a w).measure = d.poke a w := by
    have poked : (d.poke a w).Idle := idle
    rw [measure_of_nil poked.1, poked.2]
    rfl
  change (if _ then (d.poke a w).measure else d.poke a w) = _
  rw [unchanged, ite_self]

theorem send_of_silent (individual : device ≠ 0) (lost : d.lost = []) (a w : Word)
    (silent : d.fault? (.write device (a.toBytes ++ w.toBytes)) = none) :
    ∃ d', d.send device (a.toBytes ++ w.toBytes) = (.ok (), d') ∧
      (d.store a w).Alike d' := by
  have bytes : written? (a.toBytes ++ w.toBytes) = some (a, w) := by
    have ha := Word.listOfBytes_toBytes a
    have hw := Word.listOfBytes_toBytes w
    simp only [Word.toBytes, Word.listOfBytes, List.cons.injEq, and_true] at ha hw
    simp only [Word.toBytes, List.cons_append, List.nil_append, written?, ha, hw]
  have stored (d₁ : Device) (h₁ : d₁.lost = []) : d₁.writeWord a w = d₁.store a w := by
    unfold writeWord
    rw [h₁]
    rfl
  unfold send
  simp only [silent, bytes, if_neg individual]
  refine ⟨_, rfl, ?_⟩
  rw [stored (d.record _ _) lost]
  exact (d.alike_record _ _).store a w

theorem send_eq (h : d.Cooperative device) (a w : Word) :
    ∃ d', d.send device (a.toBytes ++ w.toBytes) = (.ok (), d') ∧
      (d.store a w).Alike d' :=
  send_of_silent h.individual h.lost a w (fault?_eq_none h (.inl rfl))

/-- A reset begins the measurement that was requested. -/
theorem send_reset_eq (h : d.Cooperative device) :
    ∃ d', d.send Transport.generalCall [Transport.resetCommand] = (.ok (), d') ∧
      (d.poke RegisterAddress.control.word (d.peek RegisterAddress.control.word &&& 0x7FFF)).Alike
        d' := by
  have silent : d.fault? (.write Transport.generalCall [Transport.resetCommand]) = none :=
    fault?_eq_none h (.inr rfl)
  have moves (d₁ : Device) (h₁ : d₁.stuck = false) :
      d₁.reset = d₁.poke RegisterAddress.control.word
        (d₁.peek RegisterAddress.control.word &&& 0x7FFF) := by
    unfold reset
    rw [h₁]
    rfl
  unfold send
  simp only [silent, if_pos (show Transport.generalCall = 0 from rfl),
    if_pos (show [Transport.resetCommand] = [6] from rfl)]
  refine ⟨_, rfl, ?_⟩
  rw [moves (d.record _ _) h.stuck]
  exact ⟨_, _, rfl⟩

end Simulation.Device
end Thermopile
