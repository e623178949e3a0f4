import Thermopile.Proofs.Acquisition.Supply
import Thermopile.Proofs.Memory
import Thermopile.Proofs.Simulation.Series

namespace Thermopile.Simulation

variable {τ : Type}

/-- A world with a simulated camera on its bus. All else is up to `other`, which may look at the
camera. -/
def Device.world (other : Device × τ → (q : Request) → q.Reply BusFault × τ) :
    World BusFault (Device × τ) where
  reply s q :=
    match q with
    | .exchange device out count =>
      ((s.1.exchange device out count).1, ((s.1.exchange device out count).2, s.2))
    | .send device out => ((s.1.send device out).1, ((s.1.send device out).2, s.2))
    | q => ((other s q).1, (s.1, (other s q).2))

variable {other : Device × τ → (q : Request) → q.Reply BusFault × τ} {s : Device × τ} {d : Device}
  {device : UInt8}

theorem Device.world_fst {q : Request} (h : ¬q.OnBus) :
    ((Device.world other).reply s q).2.1 = s.1 := by
  cases q <;> first | rfl | exact absurd trivial h

variable (other) in
theorem Device.answers (h : d.Cooperative device) :
    Transport.Answers (Device.world other) device (fun s => d.Alike s.1) d.peek := by
  intro s alike a count
  obtain ⟨bytes, d', he, alike', hb⟩ := Device.exchange_eq (h.alike alike) a count
  refine ⟨bytes, (d', s.2), ?_, alike.trans alike', ?_⟩
  · simp only [Device.world, he]
  · simp only [hb, alike.peek, Address.advance]

variable (other) in
/-- A camera that has nothing to measure is a memory of words. -/
def Device.wordMemory : Transport.WordMemory (Device.world other) cameraAddress where
  Holds s m := s.1.Cooperative cameraAddress ∧ s.1.Idle ∧ s.1.peek = m
  read m s h a count := by
    obtain ⟨cooperative, idle, rfl⟩ := h
    obtain ⟨bytes, s', hr, alike, hb⟩ := Device.answers other cooperative s (.refl s.1) a count
    exact ⟨bytes, s', hr, ⟨cooperative.alike alike, idle.alike alike, funext alike.peek⟩, hb⟩
  write := by
    rintro s _ ⟨cooperative, idle, rfl⟩ a value
    obtain ⟨d', hs, alike⟩ := Device.send_eq cooperative a.word value
    have poked : (s.1.poke a.word value).Idle := idle
    rw [Device.store_eq_poke idle] at alike
    refine ⟨(d', s.2), ?_, (cooperative.poke _ _).alike alike, poked.alike alike, ?_⟩
    · simp only [Device.world, Address.toBytes, hs]
    · funext b
      rw [alike.peek, Device.peek_poke, Function.update_apply]
      simp only [eq_comm]

/-- Nobody asks to stop, and no time passes. -/
def undisturbed (_ : Device × Unit) (q : Request) : q.Reply BusFault × Unit :=
  match q with
  | .exchange .. => (.error (.nack 0), ())
  | .send .. => (.error (.nack 0), ())
  | .now => (0, ())
  | .cancelled => (false, ())
  | .sleep _ | .publish _ | .finish | .notice _ => ((), ())

/-- The block goes on at the start of the memory where it passes its end. -/
theorem transfers_words_wrapped :
    ∃ words : Vector Word 40,
      ((Transport.readBlock cameraAddress ⟨0xFFF0⟩ (Vector.replicate 40 0)).run
        (Device.world undisturbed) ((Device.boot [] []).poke 0x0005 0x1234, ())).1 =
          (.ok (), words) ∧
      words[21] = 0x1234 := by
  have cooperative := (Device.cooperative_boot [] []).poke 0x0005 0x1234
  have holds : (Device.wordMemory undisturbed).Holds ((Device.boot [] []).poke 0x0005 0x1234, ())
      ((Device.boot [] []).poke 0x0005 0x1234).peek :=
    ⟨cooperative, ⟨rfl, rfl⟩, rfl⟩
  obtain ⟨⟨s', hr, -⟩, -⟩ := ((Transport.transfers_words (Device.world undisturbed) cameraAddress
    ((Device.boot [] []).poke 0x0005 0x1234, ())).1 (Device.wordMemory undisturbed) _ holds).1 40
      ⟨0xFFF0⟩ (Vector.replicate 40 0)
  refine ⟨_, congrArg Prod.fst hr, ?_⟩
  rw [Vector.getElem_ofFn, Device.peek_poke]
  exact if_pos (by decide)

section
variable {x : Camera} (h : s.1.Cooperative x.device)
include h

theorem readWord_succeeds (a : Address) :
    Script.Succeeds (Device.world other) (x.readWord a) s fun v _ s' =>
      v = s.1.peek a.word ∧ s.1.Alike s'.1 := by
  obtain ⟨s', hr, alike⟩ := (Device.answers other h).run_readWord (.refl s.1) a
  exact ⟨_, _, Script.run_onBus hr, rfl, alike⟩

theorem writeWord_succeeds (a : Address) (value : Word) :
    Script.Succeeds (Device.world other) (x.writeWord a value) s fun _ _ s' =>
      (s.1.store a.word value).Alike s'.1 := by
  obtain ⟨d', hs, alike⟩ := Device.send_eq h a.word value
  have sent : (Transport.writeWord x.device a value).run (Device.world other) s =
      (.ok (), (d', s.2)) := by
    change ((s.1.send x.device _).1, ((s.1.send x.device _).2, s.2)) = _
    rw [Address.toBytes, hs]
  exact ⟨_, _, Script.run_onBus sent, alike⟩

theorem readRegister_succeeds (R : Type) [Register R] :
    Script.Succeeds (Device.world other) (x.readRegister R) s fun r _ s' =>
      r = Register.ofWord (s.1.peek (Register.address R).word) ∧ s.1.Alike s'.1 := by
  refine .bind (readWord_succeeds h (Register.address R)) ?_
  rintro _ _ s₁ ⟨rfl, alike⟩
  exact .pure ⟨rfl, alike⟩

variable {R : Type}

theorem writeRegister_succeeds [Register R] (r : R) :
    Script.Succeeds (Device.world other) (x.writeRegister r) s fun _ _ s' =>
      (s.1.store (Register.address R).word (Register.toWord r)).Alike s'.1 :=
  .bind (writeWord_succeeds h (Register.address R) (Register.toWord r)) fun _ _ _ stored =>
    .request stored

theorem loadCalibration_succeeds :
    Script.Succeeds (Device.world other) x.loadCalibration s fun _ _ s' => s.1.Alike s'.1 := by
  obtain ⟨s₁, hr, alike⟩ := (Device.answers other h).run_readBlock (.refl s.1)
    (AddressSpace.address EepromAddress.base) (.replicate eepromSize 0)
  have words : Script.Succeeds (Device.world other)
      (x.readWords eepromSize (AddressSpace.address EepromAddress.base)) s
      fun _ _ s' => s' = s₁ := by
    refine .bind (Q := fun a _ s' => a.1 = .ok () ∧ s' = s₁)
      ⟨_, _, Script.run_lift hr, rfl, rfl⟩ ?_
    rintro ⟨_, image⟩ _ _ ⟨rfl, rfl⟩
    exact ⟨_, _, rfl, rfl⟩
  refine .bind words ?_
  rintro image _ _ rfl
  exact .bind (.request alike) fun _ _ _ reported => .pure reported

theorem persist_succeeds [PersistentRegister R] (idle : s.1.Idle) (r : R) :
    Script.Succeeds (Device.world other) (x.persist r) s fun _ _ s' =>
      s'.1.Cooperative x.device ∧ s'.1.Idle := by
  have stored (s : Device × τ) (h : s.1.Cooperative x.device) (idle : s.1.Idle) (a : Address)
      (value : Word) : Script.Succeeds (Device.world other) (x.writeWord a value) s fun _ _ s' =>
        s'.1.Cooperative x.device ∧ s'.1.Idle ∧ s'.1.peek a.word = value := by
    refine (writeWord_succeeds h a value).mono fun _ _ s' alike => ?_
    rw [Device.store_eq_poke idle] at alike
    have poked : (s.1.poke a.word value).Idle := idle
    exact ⟨(h.poke _ _).alike alike, poked.alike alike,
      (alike.peek _).trans ((Device.peek_poke _ _ _).trans (if_pos rfl))⟩
  obtain ⟨n, hn⟩ : ∃ n, max x.config.eepromWriteAttempts 1 = n + 1 :=
    ⟨max x.config.eepromWriteAttempts 1 - 1, by omega⟩
  unfold Camera.persist Camera.writeEeprom
  rw [hn]
  refine .bind (stored s h idle _ 0) fun _ _ s₁ ⟨h₁, idle₁, _⟩ => ?_
  refine .bind (Q := fun _ _ s' => s'.1 = s₁.1) (.request rfl) fun _ _ s₂ h₂ => ?_
  rw [← h₂] at h₁ idle₁
  refine .bind (stored s₂ h₁ idle₁ _ _) fun _ _ s₃ ⟨h₃, idle₃, word⟩ => ?_
  refine .bind (Q := fun _ _ s' => s'.1 = s₃.1) (.request rfl) fun _ _ s₄ h₄ => ?_
  rw [← h₄] at h₃ idle₃ word
  refine .bind (readWord_succeeds h₃ _) ?_
  rintro _ _ s₅ ⟨rfl, alike⟩
  rw [if_pos word]
  exact .request ⟨h₃.alike alike, idle₃.alike alike⟩

end
end Thermopile.Simulation
