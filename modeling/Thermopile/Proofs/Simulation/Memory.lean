import Thermopile.Proofs.Persistence
import Thermopile.Proofs.Settings
import Thermopile.Proofs.Simulation.Camera

namespace Thermopile.Simulation

variable {τ : Type} (other : Device × τ → (q : Request) → q.Reply BusFault × τ)

namespace Device

variable {d d' : Device}

/-- Nothing changes or gets lost. -/
structure Retentive (d : Device) : Prop where
  queued : d.queued = []
  lost : d.lost = []
  idle : d.Idle

theorem Retentive.alike (h : d.Retentive) (ha : d.Alike d') : d'.Retentive := by
  obtain ⟨_, _, rfl⟩ := ha
  exact { h with }

theorem exchange_of_fault {device : UInt8} {out : List UInt8} {n : Nat} {e : BusFault}
    (fault : d.fault? (.read device out n) = some e) :
    d.exchange device out n = (.error e, d.record (.read device out n) true) := by
  simp only [exchange, fault]

theorem send_of_fault {device : UInt8} {out : List UInt8} {e : BusFault}
    (fault : d.fault? (.write device out) = some e) :
    d.send device out = (.error e, d.record (.write device out) true) := by
  simp only [send, fault]

theorem Retentive.send_eq (h : d.Retentive) (a w : Word)
    (silent : d.fault? (.write cameraAddress (a.toBytes ++ w.toBytes)) = none) :
    ∃ d', d.send cameraAddress (a.toBytes ++ w.toBytes) = (.ok (), d') ∧ d'.Retentive ∧
      d'.peek = Function.update d.peek a w := by
  obtain ⟨d', hs, alike⟩ := send_of_silent (by decide) h.lost a w silent
  rw [store_eq_poke h.idle] at alike
  have poked : (d.poke a w).Retentive := { h with }
  refine ⟨d', hs, poked.alike alike, ?_⟩
  funext b
  rw [alike.peek, peek_poke, Function.update_apply]
  simp only [eq_comm]

/-- A camera that has no measurements ready, whichever transactions fail. -/
def fallibleMemory : Transport.FallibleMemory (Device.world other) cameraAddress where
  Holds s m := s.1.Retentive ∧ s.1.peek = m
  read := by
    rintro s _ ⟨retentive, rfl⟩ a count
    cases fault : s.1.fault? (.read cameraAddress a.toBytes (2 * count)) with
    | some e =>
      simp only [Device.world, exchange_of_fault fault]
      exact ⟨⟨retentive.alike (alike_record _ _ _), rfl⟩, nofun⟩
    | none =>
      obtain ⟨bytes, d', he, alike, hb⟩ := exchange_of_silent retentive.queued a count fault
      simp only [Device.world, he]
      refine ⟨⟨retentive.alike alike, funext alike.peek⟩, fun _ ok => ?_⟩
      rw [← Except.ok.inj ok]
      exact hb
  write := by
    rintro s _ ⟨retentive, rfl⟩ a value
    cases fault : s.1.fault? (.write cameraAddress (a.toBytes ++ value.toBytes)) with
    | some e =>
      simp only [Device.world, send_of_fault fault]
      exact ⟨_, ⟨retentive.alike (alike_record _ _ _), rfl⟩, fun _ _ => rfl⟩
    | none =>
      obtain ⟨d', hs, retentive', peek⟩ := retentive.send_eq a.word value fault
      simp only [Device.world, Address.toBytes, hs]
      exact ⟨_, ⟨retentive', peek⟩, fun b hb => Function.update_of_ne hb _ _⟩
  idle := by
    rintro s m q h hq
    cases q <;> first | exact h | exact hq.elim

theorem keepsWritten : (fallibleMemory other).KeepsWritten := by
  rintro s _ ⟨retentive, rfl⟩ a value ok
  cases fault : s.1.fault? (.write cameraAddress (a.toBytes ++ value.toBytes)) with
  | some e =>
    simp only [Device.world, send_of_fault fault] at ok
    cases ok
  | none =>
    obtain ⟨d', hs, retentive', peek⟩ := retentive.send_eq a.word value fault
    simp only [Device.world, Address.toBytes, hs]
    exact ⟨retentive', peek⟩

end Device

theorem Device.peek_boot_control (eeprom ram : List Word) :
    (Device.boot eeprom ram).peek 0x800D = Control.default.toWord := by
  unfold boot
  dsimp only
  rw [peek_poke, if_neg (by decide), peek_poke, if_pos (by decide)]

theorem Device.peek_failing (d : Device) (failing : List Nat) (a : Word) :
    ({ d with failing } : Device).peek a = d.peek a := rfl

def defaultCamera : Camera := ⟨cameraAddress, {}⟩

/-- Loading the calibration takes 26 transactions, so the first save fails when it is verified, and
the second before it writes its content. -/
def failingDevice : Device := { Device.boot [] [] with failing := [28, 30] }

theorem run_saveAll {x : Camera} {s : Device × τ} (h : s.1.Cooperative x.device)
    (idle : s.1.Idle) (saves : List Save) :
    ∃ s', (x.saveAll saves).run (Device.world other) s = (saves.map fun _ => .ok (), s') := by
  induction saves generalizing s with
  | nil => exact ⟨s, rfl⟩
  | cons first rest ih =>
    obtain ⟨u, s₁, saved, h₁, idle₁⟩ :
        Script.Succeeds (Device.world other) (x.persist first.content) s fun _ _ s' =>
          s'.1.Cooperative x.device ∧ s'.1.Idle := persist_succeeds h idle first.content
    obtain ⟨s₂, others⟩ := ih h₁ idle₁
    refine ⟨s₂, ?_⟩
    rw [Camera.saveAll_cons, Program.run_bind, saved, Program.run_bind, others]
    rfl

def fasterControl : Control := { Control.default with frameRate := .eight }

/-- Two saves that fail, after which the control register itself keeps what it had after power on;
and three that succeed on a camera that does not fail, of which the last control register is read
back, and the address. -/
theorem saves_contents_failing :
    (Device.fallibleMemory undisturbed).KeepsWritten ∧
    ((Device.fallibleMemory undisturbed).Holds (failingDevice, ()) failingDevice.peek ∧
      ∃ before s₁ results s₂ m' after s₃,
        defaultCamera.loadCalibration.run.run (Device.world undisturbed) (failingDevice, ()) =
          (before, s₁) ∧
        (defaultCamera.saveAll [⟨.control, Control.default⟩, ⟨.interfaceAddress, ⟨0x40⟩⟩]).run
          (Device.world undisturbed) s₁ = (results, s₂) ∧
        defaultCamera.loadCalibration.run.run (Device.world undisturbed) s₂ = (after, s₃) ∧
        (Device.fallibleMemory undisturbed).Holds s₂ m' ∧ m' 0x800D = 0x1901 ∧
        ((∀ e ∈ defaultCamera.loadCalibration.run.events (Device.world undisturbed)
            (failingDevice, ()), e.failure? = none) → ∃ c, before = .ok c) ∧
        ∀ c, before = .ok c →
          (∀ e ∈ defaultCamera.loadCalibration.run.events (Device.world undisturbed) s₂,
            e.failure? = none) → after = .ok c) ∧
    (Device.fallibleMemory undisturbed).Holds (Device.boot [] [], ()) (Device.boot [] []).peek ∧
    ∃ c s₁ s₂ m',
      defaultCamera.loadCalibration.run.run (Device.world undisturbed) (Device.boot [] [], ()) =
        (.ok c, s₁) ∧
      (defaultCamera.saveAll [⟨.control, Control.default⟩, ⟨.interfaceAddress, ⟨0x40⟩⟩,
        ⟨.control, fasterControl⟩]).run (Device.world undisturbed) s₁ =
          ([.ok (), .ok (), .ok ()], s₂) ∧
      (Device.fallibleMemory undisturbed).Holds s₂ m' ∧
      Control.ofWord (m' 0x240C) = fasterControl ∧
      InterfaceAddress.ofWord (m' 0x240F) = ⟨0x40⟩ := by
  refine ⟨Device.keepsWritten undisturbed, ?_, ?_⟩
  · have holds : (Device.fallibleMemory undisturbed).Holds (failingDevice, ()) failingDevice.peek :=
      ⟨⟨rfl, rfl, ⟨rfl, rfl⟩⟩, rfl⟩
    obtain ⟨before, s₁, results, s₂, m', after, s₃, loaded, saved, holds', loaded', kept, -,
      returns, same, -⟩ := Camera.saves_contents (x := defaultCamera) (Device.fallibleMemory undisturbed)
        failingDevice.peek holds [⟨.control, Control.default⟩, ⟨.interfaceAddress, ⟨0x40⟩⟩]
    refine ⟨holds, before, s₁, results, s₂, m', after, s₃, loaded, saved, loaded', holds', ?_,
      returns, same⟩
    have control : failingDevice.peek 0x800D = Control.default.toWord := by
      rw [failingDevice, Device.peek_failing]
      exact Device.peek_boot_control [] []
    rw [kept 0x800D (by decide), control, Control.toWord_default]
  · have holds : (Device.fallibleMemory undisturbed).Holds (Device.boot [] [], ())
        (Device.boot [] []).peek := ⟨⟨rfl, rfl, ⟨rfl, rfl⟩⟩, rfl⟩
    have cooperative : (Device.boot [] []).Cooperative defaultCamera.device :=
      Device.cooperative_boot [] []
    have idle : (Device.boot [] []).Idle := ⟨rfl, rfl⟩
    obtain ⟨c, s₁, loads, alike⟩ : Script.Succeeds (Device.world undisturbed)
        defaultCamera.loadCalibration (Device.boot [] [], ())
        fun _ _ s' => (Device.boot [] []).Alike s'.1 := loadCalibration_succeeds cooperative
    obtain ⟨s₂, saves⟩ := run_saveAll undisturbed (cooperative.alike alike) (idle.alike alike)
      [⟨.control, Control.default⟩, ⟨.interfaceAddress, ⟨0x40⟩⟩, ⟨.control, fasterControl⟩]
    obtain ⟨_, _, results, _, m', _, _, loaded, saved, holds', -, -, stored, -⟩ :=
      Camera.saves_contents (x := defaultCamera) (Device.fallibleMemory undisturbed)
        (Device.boot [] []).peek holds
        [⟨.control, Control.default⟩, ⟨.interfaceAddress, ⟨0x40⟩⟩, ⟨.control, fasterControl⟩]
    obtain ⟨-, rfl⟩ := Prod.mk.inj (loads.symm.trans loaded)
    obtain ⟨rfl, rfl⟩ := Prod.mk.inj (saves.symm.trans saved)
    exact ⟨holds, c, _, _, m', loads, saves, holds',
      stored [_, _] ⟨.control, fasterControl⟩ [] rfl (List.forall_mem_nil _) rfl,
      stored [_] ⟨.interfaceAddress, ⟨0x40⟩⟩ [_] rfl (by simp) rfl⟩

theorem RegisterAddress.word_injective : Function.Injective RegisterAddress.word := by
  intro a b h
  cases a <;> cases b <;> first | rfl | exact absurd h (by decide)

def Device.registerMemory : Transport.RegisterMemory (Device.world other) cameraAddress where
  Holds s m := ∃ words, (Device.wordMemory other).Holds s words ∧ m = words ∘ RegisterAddress.word
  read := by
    rintro s _ ⟨words, holds, rfl⟩ a
    obtain ⟨bytes, s', hr, holds', hb⟩ :=
      (Device.wordMemory other).read words s holds (AddressSpace.address a) 1
    exact ⟨bytes, s', hr, ⟨words, holds', rfl⟩,
      hb.trans (Transport.flatMap_range_one words (AddressSpace.address a))⟩
  write := by
    rintro s _ ⟨words, holds, rfl⟩ a value
    obtain ⟨s', hr, holds'⟩ :=
      (Device.wordMemory other).write holds (AddressSpace.address a) value
    refine ⟨s', hr, _, holds', ?_⟩
    exact (Function.update_comp_eq_of_injective _ RegisterAddress.word_injective a value).symm
  sleep h _ := h

/-- All bits of both registers are set, reserved ones too. -/
def saturatedDevice : Device := ((Device.boot [] []).poke 0x8000 0xFFFF).poke 0x800D 0xFFFF

theorem last_assignment_counts_saturated :
    (Device.registerMemory undisturbed).Holds (saturatedDevice, ())
      (saturatedDevice.peek ∘ RegisterAddress.word) ∧
    ∃ s' control',
      (defaultCamera.setAll [⟨.frameRate, .two⟩, ⟨.dataHold, false⟩, ⟨.frameRate, .four⟩]).run.run
        (Device.world undisturbed) (saturatedDevice, ()) = (.ok (), s') ∧
      ((defaultCamera.get .frameRate).run.run (Device.world undisturbed) s').1 = .ok .four ∧
      ((defaultCamera.get .dataHold).run.run (Device.world undisturbed) s').1 = .ok false ∧
      ((defaultCamera.get .accessPattern).run.run (Device.world undisturbed) s').1 = .ok .chess ∧
      ((defaultCamera.readRegister Control).run.run (Device.world undisturbed) s').1 =
        .ok control' ∧
      control'.startMeasurement = true := by
  have cooperative : saturatedDevice.Cooperative cameraAddress :=
    ((Device.cooperative_boot [] []).poke 0x8000 0xFFFF).poke 0x800D 0xFFFF
  have holds : (Device.registerMemory undisturbed).Holds (saturatedDevice, ())
      (saturatedDevice.peek ∘ RegisterAddress.word) :=
    ⟨_, ⟨cooperative, ⟨rfl, rfl⟩, rfl⟩, rfl⟩
  obtain ⟨s', m', hr, -, -, set, unset, -, ⟨control, control', read, read', start⟩, -⟩ :=
    Camera.last_assignment_counts (x := defaultCamera) (Device.registerMemory undisturbed) holds
      [⟨.frameRate, .two⟩, ⟨.dataHold, false⟩, ⟨.frameRate, .four⟩]
  have word : saturatedDevice.peek RegisterAddress.control.word = 0xFFFF := by
    rw [saturatedDevice, Device.peek_poke]
    exact if_pos rfl
  have saturated : (Registers.ofWords (saturatedDevice.peek ∘ RegisterAddress.word)).control =
      Control.ofWord 0xFFFF := by
    rw [Registers.ofWords, Function.comp_apply, Function.comp_apply, word]
  refine ⟨holds, s', control', hr, set [_, _] ⟨.frameRate, .four⟩ [] rfl
    (List.forall_mem_nil _), set [_] ⟨.dataHold, false⟩ [_] rfl (by simp), ?_, read', ?_⟩
  · obtain ⟨v, before, after⟩ := unset .accessPattern (by simp)
    rw [Camera.get_of_holds _ holds, Registers.value, Registers.home, saturated]
      at before
    rw [after, ← before]
    rfl
  · obtain ⟨_, _, hc, rfl, -, -⟩ :=
      Camera.readRegister_of_holds (x := defaultCamera) _ holds Control
    have register (m : RegisterAddress → Word) :
        Register.ofWord (m (Register.place Control)) = (Registers.ofWords m).control := rfl
    rw [hc, register, saturated] at read
    rw [start, ← Except.ok.inj read]
    rfl

end Thermopile.Simulation
