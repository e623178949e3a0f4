import Thermopile.Proofs.Calibration.Congruence
import Thermopile.Proofs.FallibleMemory
import Thermopile.Proofs.Register

namespace Thermopile

inductive Persistent
  | control
  | interfaceConfig
  | interfaceAddress
deriving DecidableEq

namespace Persistent

abbrev Content : Persistent → Type
  | control => Control
  | interfaceConfig => InterfaceConfig
  | interfaceAddress => InterfaceAddress

instance : (k : Persistent) → PersistentRegister k.Content
  | control => inferInstanceAs (PersistentRegister Control)
  | interfaceConfig => inferInstanceAs (PersistentRegister InterfaceConfig)
  | interfaceAddress => inferInstanceAs (PersistentRegister InterfaceAddress)

def place (k : Persistent) : Address := PersistentRegister.eepromAddress k.Content

theorem place_mem (k : Persistent) : k.place.word ∈ [0x240C, 0x240E, 0x240F] := by
  cases k <;> decide

theorem place_ne {k l : Persistent} (h : k ≠ l) : k.place.word ≠ l.place.word := by
  cases k <;> cases l <;> first | exact absurd rfl h | decide

theorem ofWord_toWord (k : Persistent) (r : k.Content) :
    (Register.ofWord (Register.toWord r) : k.Content) = r :=
  match k with
  | control => Control.ofWord_toWord r
  | interfaceConfig => InterfaceConfig.ofWord_toWord r
  | interfaceAddress => InterfaceAddress.ofWord_toWord r

end Persistent

/-- A register that is to start from a content. -/
structure Save where
  register : Persistent
  content : register.Content

/-- Calibration data begin after the copies of registers. -/
theorem Calibration.ofImage_ofMemory_congr {m m' : Word → Word}
    (same : ∀ a ∉ [0x240C, 0x240E, 0x240F], m' a = m a) :
    ofImage (.ofMemory m') = ofImage (.ofMemory m) := by
  apply ofImage_congr
  intro k first
  have hk : k.val < 832 := k.isLt
  have distance : (0x2400 + UInt16.ofNat k.val : Word).toNat = 0x2400 + k.val := by
    rw [UInt16.toNat_add, UInt16.toNat_ofNat']
    change (0x2400 + k.val % 65536) % 65536 = _
    omega
  have outside : (0x2400 + UInt16.ofNat k.val : Word) ∉ [0x240C, 0x240E, 0x240F] := by
    intro hm
    have copies : (0x2400 + UInt16.ofNat k.val : Word).toNat ∈ [0x240C, 0x240E, 0x240F] :=
      List.mem_map_of_mem hm
    rw [distance] at copies
    simp only [List.mem_cons, List.not_mem_nil, or_false] at copies
    omega
  have word (m : Word → Word) :
      (EepromImage.ofMemory m).get k = m (0x2400 + UInt16.ofNat k.val) := Vector.getElem_ofFn k.isLt
  rw [word, word, same _ outside]

namespace Camera

open Transport (FallibleMemory)

variable {ε σ : Type} {w : World ε σ} {s : σ} (x : Camera)

/-- Makes each content the one that its register starts from, and goes on where that fails. -/
def saveAll : List Save → Program ε (List (Except (Failure ε) Unit))
  | [] => return []
  | save :: rest => do
    let result ← (x.persist save.content).run
    return result :: (← saveAll rest)

theorem saveAll_cons (first : Save) (rest : List Save) :
    (x.saveAll (first :: rest) : Program ε _) = (x.persist first.content).run >>= fun result =>
      x.saveAll rest >>= fun results => pure (result :: results) := rfl

variable {x} (memory : FallibleMemory w x.device) (m : Word → Word)

theorem ensures_persist (save : Save) :
    memory.Ensures m (x.persist save.content).run fun r m' =>
      (∀ b ≠ save.register.place.word, m' b = m b) ∧
        (r = .ok () → (Register.ofWord (m' save.register.place.word) : save.register.Content) =
          save.content) ∧
        (memory.KeepsWritten → Script.UnlessBusFails (fun _ => True) r) := by
  refine (ensures_writeRounds memory m _ _ _ _ _).mono ?_
  rintro r m' ⟨same, stored, keeps⟩
  have attempted : 0 < max x.config.eepromWriteAttempts 1 := Nat.le_max_right _ 1
  refine ⟨same, fun ok => ?_, fun hk => keeps hk attempted⟩
  rw [Persistent.place, stored ok]
  exact save.register.ofWord_toWord save.content

theorem ensures_saveAll (saves : List Save) :
    memory.Ensures m (x.saveAll saves) fun results m' =>
      (∀ b, (∀ save ∈ saves, b ≠ save.register.place.word) → m' b = m b) ∧
        ∀ (earlier : List Save) (save : Save) (later : List Save),
          saves = earlier ++ save :: later →
          (∀ other ∈ later, other.register ≠ save.register) →
          results[earlier.length]? = some (.ok ()) →
          (Register.ofWord (m' save.register.place.word) : save.register.Content) =
            save.content := by
  induction saves generalizing m with
  | nil => exact .done ⟨fun _ _ => rfl, fun earlier _ _ h => by cases earlier <;> cases h⟩
  | cons first rest ih =>
    rw [saveAll_cons]
    refine (ensures_persist memory m first).bind fun r m₁ written => ?_
    refine (ih m₁).bind fun results m₂ saved => .done ?_
    obtain ⟨same, stored, -⟩ := written
    obtain ⟨same', stored'⟩ := saved
    constructor
    · intro b hb
      obtain ⟨elsewhere, elsewhere'⟩ := List.forall_mem_cons.mp hb
      rw [same' b elsewhere', same b elsewhere]
    · intro earlier save later split last ok
      cases earlier with
      | nil =>
        obtain ⟨rfl, rfl⟩ := List.cons.inj split
        rw [same' _ fun other ho => Persistent.place_ne (last other ho).symm]
        exact stored (Option.some.inj ok)
      | cons _ earlier => exact stored' earlier save later (List.cons.inj split).2 last ok

theorem forall_ok_of_unfailed (keeps : memory.KeepsWritten) {saves : List Save} {m : Word → Word}
    (hs : memory.Holds s m)
    (unfailed : ∀ e ∈ (x.saveAll saves).events w s, e.failure? = none) :
    ∀ r ∈ ((x.saveAll saves).run w s).1, r = .ok () := by
  induction saves generalizing s m with
  | nil => exact List.forall_mem_nil _
  | cons first rest ih =>
    rw [saveAll_cons, Program.events_bind, Program.events_bind, List.forall_mem_append,
      List.forall_mem_append] at unfailed
    obtain ⟨m₁, hs₁, -, -, written⟩ := ensures_persist memory m first s hs
    obtain ⟨u, ok, -⟩ := (written keeps).of_unfailed (x.haltsOnFailure_writeEeprom _ _) unfailed.1
    rw [saveAll_cons, Program.run_bind, Program.run_bind]
    exact List.forall_mem_cons.mpr ⟨ok, ih hs₁ unfailed.2.1⟩

/-- Saving contents of registers changes no word of the memory but the copies of these registers. A
copy whose last write succeeded holds the content. However the writes ended, the calibration is the
same after as before. -/
theorem saves_contents (h : memory.Holds s m) (saves : List Save) :
    ∃ before s₁ results s₂ m' after s₃,
      x.loadCalibration.run.run w s = (before, s₁) ∧
      (x.saveAll saves).run w s₁ = (results, s₂) ∧ memory.Holds s₂ m' ∧
      x.loadCalibration.run.run w s₂ = (after, s₃) ∧
      (∀ a ∉ [0x240C, 0x240E, 0x240F], m' a = m a) ∧
      (∀ (earlier : List Save) (save : Save) (later : List Save),
        saves = earlier ++ save :: later →
        (∀ other ∈ later, other.register ≠ save.register) →
        results[earlier.length]? = some (.ok ()) →
        (Register.ofWord (m' (PersistentRegister.eepromAddress save.register.Content).word) :
          save.register.Content) = save.content) ∧
      ((∀ e ∈ x.loadCalibration.run.events w s, e.failure? = none) → ∃ c, before = .ok c) ∧
      (∀ c, before = .ok c → (∀ e ∈ x.loadCalibration.run.events w s₂, e.failure? = none) →
        after = .ok c) ∧
      (memory.KeepsWritten → (∀ e ∈ (x.saveAll saves).events w s₁, e.failure? = none) →
        ∀ r ∈ results, r = .ok ()) := by
  obtain ⟨_, hs₁, hm, loaded⟩ := ensures_loadCalibration memory m s h
  rw [hm] at hs₁
  obtain ⟨m', hs₂, same, stored⟩ := ensures_saveAll memory m saves _ hs₁
  obtain ⟨-, -, -, loaded'⟩ := ensures_loadCalibration memory m' _ hs₂
  have kept : ∀ a ∉ [0x240C, 0x240E, 0x240F], m' a = m a := by
    intro a outside
    exact same a fun save _ ha => outside (ha ▸ save.register.place_mem)
  rw [Calibration.ofImage_ofMemory_congr kept] at loaded'
  refine ⟨_, _, _, _, m', _, _, rfl, rfl, hs₂, rfl, kept, stored, fun unfailed => ?_,
    fun c ok unfailed => ?_, fun keeps unfailed => forall_ok_of_unfailed memory keeps hs₁ unfailed⟩
  · obtain ⟨c, ok, -⟩ := loaded.of_unfailed x.haltsOnFailure_loadCalibration unfailed
    exact ⟨c, ok⟩
  · obtain ⟨c', ok', rfl⟩ := loaded'.of_unfailed x.haltsOnFailure_loadCalibration unfailed
    rw [ok] at loaded
    rw [ok', show c = _ from loaded]

end Camera
end Thermopile
