import Thermopile.Proofs.Camera
import Thermopile.Proofs.Memory
import Thermopile.Proofs.Register
import Thermopile.Proofs.Run

namespace Thermopile

structure Registers where
  status : Status
  control : Control

namespace Registers

def ofWords (m : RegisterAddress → Word) : Registers where
  status := .ofWord (m .status)
  control := .ofWord (m .control)

def home (r : Registers) : (y : Setting) → y.Home
  | .overwriteEnabled => r.status
  | .subpagesEnabled | .dataHold | .subpageRepeat | .selectedSubpage | .frameRate | .resolution
  | .accessPattern => r.control

def replace (r : Registers) : (y : Setting) → y.Home → Registers
  | .overwriteEnabled, status => { r with status }
  | .subpagesEnabled, control | .dataHold, control | .subpageRepeat, control
  | .selectedSubpage, control | .frameRate, control | .resolution, control
  | .accessPattern, control => { r with control }

def value (r : Registers) (y : Setting) : y.Value := y.field.get (r.home y)

def assign (r : Registers) (y : Setting) (v : y.Value) : Registers :=
  r.replace y (y.field.set (r.home y) v)

variable (r : Registers) {y z : Setting} (v : y.Value)

theorem value_assign : (r.assign y v).value y = v := by
  cases y <;> rfl

theorem value_assign_of_ne (h : z ≠ y) : (r.assign y v).value z = r.value z := by
  cases y <;> cases z <;> first | rfl | exact absurd rfl h

theorem assign_value : r.assign y (r.value y) = r := by
  cases y <;> rfl

/-- The fields that are no settings. -/
theorem assign_rest :
    (r.assign y v).status = { r.status with
      overwriteEnabled := (r.assign y v).status.overwriteEnabled } ∧
    (r.assign y v).control.startMeasurement = r.control.startMeasurement := by
  cases y <;> exact ⟨rfl, rfl⟩

theorem home_ofWords (m : RegisterAddress → Word) (y : Setting) :
    Register.ofWord (m (Register.place y.Home)) = (ofWords m).home y := by
  cases y <;> rfl

theorem ofWords_update (m : RegisterAddress → Word) (y : Setting) (h : y.Home) :
    ofWords (Function.update m (Register.place y.Home) (Register.toWord h)) =
      (ofWords m).replace y h := by
  have status (c : Status) :
      ofWords (Function.update m .status c.toWord) = { ofWords m with status := c } := by
    rw [ofWords, Function.update_self, Function.update_of_ne (by decide), Status.ofWord_toWord]
    rfl
  have control (c : Control) :
      ofWords (Function.update m .control c.toWord) = { ofWords m with control := c } := by
    rw [ofWords, Function.update_self, Function.update_of_ne (by decide), Control.ofWord_toWord]
    rfl
  cases y with
  | overwriteEnabled => exact status h
  | _ => exact control h

end Registers

structure Assignment where
  setting : Setting
  value : setting.Value

namespace Registers

def assignAll (r : Registers) (assignments : List Assignment) : Registers :=
  assignments.foldl (fun r a => r.assign a.setting a.value) r

variable (r : Registers) {assignments : List Assignment}

theorem value_assignAll_of_unset {y : Setting} (unset : ∀ a ∈ assignments, a.setting ≠ y) :
    (r.assignAll assignments).value y = r.value y := by
  induction assignments generalizing r with
  | nil => rfl
  | cons a rest ih =>
    obtain ⟨first, later⟩ := List.forall_mem_cons.mp unset
    exact (ih _ later).trans (r.value_assign_of_ne a.value first.symm)

theorem value_assignAll {earlier later : List Assignment} {a : Assignment}
    (last : ∀ b ∈ later, b.setting ≠ a.setting) :
    (r.assignAll (earlier ++ a :: later)).value a.setting = a.value := by
  have split : r.assignAll (earlier ++ a :: later) =
      ((r.assignAll earlier).assign a.setting a.value).assignAll later := List.foldl_append
  rw [split, value_assignAll_of_unset _ last, value_assign]

theorem assignAll_rest (assignments : List Assignment) :
    (r.assignAll assignments).status = { r.status with
      overwriteEnabled := (r.assignAll assignments).status.overwriteEnabled } ∧
    (r.assignAll assignments).control.startMeasurement = r.control.startMeasurement := by
  induction assignments generalizing r with
  | nil => exact ⟨rfl, rfl⟩
  | cons a rest ih =>
    obtain ⟨status, control⟩ := r.assign_rest a.value
    obtain ⟨status', control'⟩ := ih (r.assign a.setting a.value)
    rw [status] at status'
    exact ⟨status', control'.trans control⟩

end Registers

/-- `device` answers reads of its registers with the words that they were sent last. -/
structure Transport.RegisterMemory {ε σ : Type} (w : World ε σ) (device : UInt8) where
  Holds : σ → (RegisterAddress → Word) → Prop
  read {s : σ} {m : RegisterAddress → Word} (h : Holds s m) (a : RegisterAddress) :
    ∃ bytes s', w.reply s (.exchange device (AddressSpace.address a).toBytes 2) = (.ok bytes, s') ∧
      Holds s' m ∧ bytes.toList = (m a).toBytes
  write {s : σ} {m : RegisterAddress → Word} (h : Holds s m) (a : RegisterAddress) (value : Word) :
    ∃ s', w.reply s (.send device ((AddressSpace.address a).toBytes ++ value.toBytes)) =
      (.ok (), s') ∧ Holds s' (Function.update m a value)
  sleep {s : σ} {m : RegisterAddress → Word} (h : Holds s m) (time : Duration) :
    Holds (w.reply s (.sleep time)).2 m

namespace Camera

open Transport (RegisterMemory)

variable {ε σ : Type} {w : World ε σ} (x : Camera)

def registerRead (R : Type) [Register R] : Request :=
  .exchange x.device (Register.address R).toBytes 2

/-- Gives settings values, one after the other. -/
def setAll : List Assignment → Script ε Unit
  | [] => return ()
  | a :: rest => do
    x.set a.setting a.value
    setAll rest

variable {x} (memory : RegisterMemory w x.device) {s : σ} {m : RegisterAddress → Word}
variable (h : memory.Holds s m)
include h

theorem readRegister_of_holds (R : Type) [Register R] :
    Script.Succeeds w (x.readRegister R) s fun r es s' =>
      r = Register.ofWord (m (Register.place R)) ∧ memory.Holds s' m ∧
        es.map Event.request = [x.registerRead R] := by
  obtain ⟨bytes, s', hr, holds, hb⟩ := memory.read h (Register.place R)
  have read : (x.readWord (Register.address R)).run.run w s =
      (.ok (m (Register.place R)), s') := by
    apply Script.run_onBus
    rw [← Transport.ofBytes_of_toList hb]
    simp only [Transport.readWord, Program.run, Register.address, hr]
    rfl
  refine ⟨_, s', Script.run_bind_ok read, rfl, holds, ?_⟩
  rw [readRegister, Script.events_bind_ok read, readWord, Script.events_onBus]
  rfl

theorem writeRegister_of_holds {R : Type} [Register R] (r : R) :
    Script.Succeeds w (x.writeRegister r) s fun _ es s' =>
      memory.Holds s' (Function.update m (Register.place R) (Register.toWord r)) ∧
        es.map Event.request = [x.registerWrite r, .sleep x.config.registerSettleDelay] := by
  obtain ⟨s', hr, holds⟩ := memory.write h (Register.place R) (Register.toWord r)
  have written : (x.writeWord (Register.address R) (Register.toWord r)).run.run w s =
      (.ok (), s') := Script.run_onBus hr
  refine ⟨(), _, Script.run_bind_ok written, memory.sleep holds _, ?_⟩
  rw [writeRegister, Script.events_bind_ok written, writeWord, Script.events_onBus]
  rfl

theorem get_of_holds (y : Setting) :
    ((x.get y).run.run w s).1 = .ok ((Registers.ofWords m).value y) := by
  obtain ⟨_, s', hr, rfl, -, -⟩ := readRegister_of_holds memory h y.Home
  rw [get, Script.run_bind_ok hr, Registers.home_ofWords]
  rfl

/-- Setting a value reads the register and, if the value is another, writes it. -/
theorem set_of_holds (y : Setting) (v : y.Value) :
    Script.Succeeds w (x.set y v) s fun _ es s' =>
      (∃ m', memory.Holds s' m' ∧ Registers.ofWords m' = (Registers.ofWords m).assign y v ∧
        ∀ a ∉ [RegisterAddress.status, .control], m' a = m a) ∧
      es.map Event.request =
        if (Registers.ofWords m).value y = v then [x.registerRead y.Home]
        else [x.registerRead y.Home,
          x.registerWrite (y.field.set ((Registers.ofWords m).home y) v),
          .sleep x.config.registerSettleDelay] := by
  refine (readRegister_of_holds memory h y.Home).bind ?_
  rintro r es s₁ ⟨rfl, hs₁, read⟩
  rw [Registers.home_ofWords, ← Registers.value]
  by_cases same : (Registers.ofWords m).value y = v
  · rw [if_neg (not_not.mpr same)]
    refine .pure ⟨⟨m, hs₁, ?_, fun _ _ => rfl⟩, ?_⟩
    · rw [← same, Registers.assign_value]
    · rw [if_pos same, List.append_nil, read]
  · rw [if_pos same]
    refine (writeRegister_of_holds memory hs₁ _).mono ?_
    rintro _ es' s' ⟨hs', written⟩
    refine ⟨⟨_, hs', Registers.ofWords_update m y _, fun a outside => ?_⟩, ?_⟩
    · have place : Register.place y.Home ∈ [RegisterAddress.status, .control] := by
        cases y <;> decide
      exact Function.update_of_ne (ne_of_mem_of_not_mem place outside).symm _ _
    · rw [if_neg same, List.map_append, read, written]
      rfl

theorem setAll_of_holds (assignments : List Assignment) :
    Script.Succeeds w (x.setAll assignments) s fun _ _ s' =>
      ∃ m', memory.Holds s' m' ∧
        Registers.ofWords m' = (Registers.ofWords m).assignAll assignments ∧
        ∀ a ∉ [RegisterAddress.status, .control], m' a = m a := by
  induction assignments generalizing s m with
  | nil => exact .pure ⟨m, h, rfl, fun _ _ => rfl⟩
  | cons a rest ih =>
    refine (set_of_holds memory h a.setting a.value).bind ?_
    rintro _ es s₁ ⟨⟨m₁, hs₁, assigned, same⟩, -⟩
    refine (ih hs₁).mono ?_
    rintro _ es' s' ⟨m', hs', assignedAll, same'⟩
    refine ⟨m', hs', ?_, fun a outside => (same' a outside).trans (same a outside)⟩
    rw [assignedAll, assigned]
    rfl

/-- After any number of assignments each setting has the value that it was given last, or the one
that it had, and the fields that are no settings are as they were. One more assignment then reads
its register, and writes it, once, only if the value is another. -/
theorem last_assignment_counts (assignments : List Assignment) :
    ∃ s' m', (x.setAll assignments).run.run w s = (.ok (), s') ∧ memory.Holds s' m' ∧
      (∀ a ∉ [RegisterAddress.status, .control], m' a = m a) ∧
      (∀ (earlier : List Assignment) (a : Assignment) (later : List Assignment),
        assignments = earlier ++ a :: later → (∀ b ∈ later, b.setting ≠ a.setting) →
        ((x.get a.setting).run.run w s').1 = .ok a.value) ∧
      (∀ y, (∀ a ∈ assignments, a.setting ≠ y) →
        ∃ v, ((x.get y).run.run w s).1 = .ok v ∧ ((x.get y).run.run w s').1 = .ok v) ∧
      (∃ status status', ((x.readRegister Status).run.run w s).1 = .ok status ∧
        ((x.readRegister Status).run.run w s').1 = .ok status' ∧
        status' = { status with overwriteEnabled := status'.overwriteEnabled }) ∧
      (∃ control control', ((x.readRegister Control).run.run w s).1 = .ok control ∧
        ((x.readRegister Control).run.run w s').1 = .ok control' ∧
        control'.startMeasurement = control.startMeasurement) ∧
      ∀ (y : Setting) (v : y.Value), ∃ current register,
        ((x.get y).run.run w s').1 = .ok current ∧
        ((x.readRegister y.Home).run.run w s').1 = .ok register ∧
        ((x.set y v).run.events w s').map Event.request =
          if current = v then [x.registerRead y.Home]
          else [x.registerRead y.Home, x.registerWrite (y.field.set register v),
            .sleep x.config.registerSettleDelay] := by
  obtain ⟨_, s', hr, m', hs', assigned, same⟩ := setAll_of_holds memory h assignments
  have read {s : σ} {m : RegisterAddress → Word} (h : memory.Holds s m) (R : Type) [Register R] :
      ((x.readRegister R).run.run w s).1 = .ok (Register.ofWord (m (Register.place R))) := by
    obtain ⟨_, _, hr, rfl, -, -⟩ := readRegister_of_holds memory h R
    rw [hr]
  obtain ⟨status, control⟩ := (Registers.ofWords m).assignAll_rest assignments
  rw [← assigned] at status control
  refine ⟨s', m', hr, hs', same, ?_, fun y unset => ?_, ⟨_, _, read h _, read hs' _, status⟩,
    ⟨_, _, read h _, read hs' _, control⟩, fun y v => ?_⟩
  · rintro earlier a later rfl last
    rw [get_of_holds memory hs', assigned, Registers.value_assignAll _ last]
  · refine ⟨_, get_of_holds memory h y, ?_⟩
    rw [get_of_holds memory hs', assigned, Registers.value_assignAll_of_unset _ unset]
  · obtain ⟨_, _, -, -, requests⟩ := set_of_holds memory hs' y v
    refine ⟨_, _, get_of_holds memory hs' y, read hs' _, ?_⟩
    rw [Registers.home_ofWords]
    exact requests

end Camera
end Thermopile
