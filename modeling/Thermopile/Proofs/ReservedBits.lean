import Thermopile.Proofs.Camera
import Thermopile.Proofs.Register
import Thermopile.Proofs.Run

namespace Thermopile

namespace Word

/-- A word that has kept some bits and lost others agrees in both if the others were zero. -/
theorem agree_iff {v w kept lost : Word} (hk : v &&& kept = w &&& kept) (hl : v &&& lost = 0) :
    v &&& (kept ||| lost) = w &&& (kept ||| lost) ↔ w &&& lost = 0 := by
  constructor
  · intro h
    calc w &&& lost = (w &&& (kept ||| lost)) &&& lost := by rw [UInt16.and_assoc, or_and_self]
      _ = (v &&& (kept ||| lost)) &&& lost := by rw [h]
      _ = v &&& lost := by rw [UInt16.and_assoc, or_and_self]
      _ = 0 := hl
  · intro h
    rw [and_or, and_or, hk, hl, h]

theorem and_one (w : Word) : w &&& 1 = field 0 (w.bit 0).toNat := by
  apply UInt16.toNat_inj.mp
  rw [UInt16.toNat_and, UInt16.toNat_one, Nat.and_one_is_mod, field, UInt16.toNat_ofNat',
    Nat.shiftLeft_zero, bit, Nat.testBit_zero]
  by_cases h : w.toNat % 2 = 1
  · simp [h]
  · have h0 : w.toNat % 2 = 0 := by omega
    simp [h0]

end Word

theorem Status.toWord_and_lost (s : Status) : s.toWord &&& 0xFFC6 = 0 :=
  forall_of_all (P := fun s => s.toWord &&& 0xFFC6 = 0) (by decide) s

theorem Status.toWord_and_one (s : Status) :
    s.toWord &&& 1 = Word.field 0 s.lastSubpage.toNat :=
  forall_of_all (P := fun s => s.toWord &&& 1 = Word.field 0 s.lastSubpage.toNat) (by decide) s

theorem Control.toWord_and_lost (c : Control) : c.toWord &&& 0x6002 = 0 := by
  have flag (on : Bool) : ∀ i ∈ [0, 2, 3, 15], Word.flag i on &&& 0x6002 = 0 := by
    cases on <;> decide
  have subpage : Word.field 4 c.subpage.toNat &&& 0x6002 = 0 := by
    cases c.subpage <;> decide
  have rate : Word.field 7 c.frameRate.code &&& 0x6002 = 0 := by
    cases c.frameRate <;> decide
  have resolution : Word.field 10 c.resolution.code &&& 0x6002 = 0 := by
    cases c.resolution <;> decide
  have pattern : Word.field 12 c.accessPattern.toNat &&& 0x6002 = 0 := by
    cases c.accessPattern <;> decide
  unfold toWord
  simp only [Word.or_and, subpage, rate, resolution, pattern, flag, List.mem_cons, true_or,
    or_true, UInt16.or_zero]

/-- How the bits outside of a register's write mask fare in its typed form. -/
class Register.Reserved (R : Type) [Register R] where
  kept : Word
  lost : Word
  outside : ~~~Register.writeMask R = kept ||| lost
  toWord_and_lost (r : R) : Register.toWord r &&& lost = 0
  toWord_ofWord_and_kept (w : Word) :
    Register.toWord (Register.ofWord w : R) &&& kept = w &&& kept

instance : Register.Reserved Status where
  kept := 1
  lost := 0xFFC6
  outside := by decide
  toWord_and_lost := Status.toWord_and_lost
  toWord_ofWord_and_kept w := by
    change (Status.ofWord w).toWord &&& 1 = w &&& 1
    rw [Status.toWord_and_one, Word.and_one, Status.ofWord]
    cases w.bit 0 <;> rfl

instance : Register.Reserved Control where
  kept := 0
  lost := 0x6002
  outside := by decide
  toWord_and_lost := Control.toWord_and_lost
  toWord_ofWord_and_kept w := by rw [UInt16.and_zero, UInt16.and_zero]

namespace Register

variable {R : Type} [Register R] [Reserved R]

/-- The words agree where the controller may not write. -/
def Agree (R : Type) [Register R] (v w : Word) : Prop :=
  v &&& ~~~writeMask R = w &&& ~~~writeMask R

instance (v w : Word) : Decidable (Agree R v w) :=
  inferInstanceAs (Decidable (v &&& ~~~writeMask R = w &&& ~~~writeMask R))

theorem agree_toWord_iff {r : R} {w : Word}
    (h : toWord r &&& Reserved.kept R = toWord (ofWord w : R) &&& Reserved.kept R) :
    Agree R (toWord r) w ↔ w &&& Reserved.lost R = 0 := by
  have hk := h.trans (Reserved.toWord_ofWord_and_kept w)
  unfold Agree
  rw [Reserved.outside]
  exact Word.agree_iff hk (Reserved.toWord_and_lost r)

end Register

/-- The operations that read a register and write it back. -/
inductive Update
  | set (setting : Setting) (value : setting.Value)
  | resetDataAvailable
  | trigger
  | readFrame (words : RamImage)

namespace Update

abbrev Home : Update → Type
  | set setting _ => setting.Home
  | resetDataAvailable | readFrame _ => Status
  | trigger => Control

instance : (u : Update) → Register u.Home
  | set setting _ => inferInstanceAs (Register setting.Home)
  | resetDataAvailable | readFrame _ => inferInstanceAs (Register Status)
  | trigger => inferInstanceAs (Register Control)

instance : (x : Setting) → Register.Reserved x.Home
  | .overwriteEnabled => inferInstanceAs (Register.Reserved Status)
  | .subpagesEnabled | .dataHold | .subpageRepeat | .selectedSubpage | .frameRate | .resolution
  | .accessPattern => inferInstanceAs (Register.Reserved Control)

instance : (u : Update) → Register.Reserved u.Home
  | set setting _ => inferInstanceAs (Register.Reserved setting.Home)
  | resetDataAvailable | readFrame _ => inferInstanceAs (Register.Reserved Status)
  | trigger => inferInstanceAs (Register.Reserved Control)

def change : (u : Update) → u.Home → u.Home
  | set setting value => fun r => setting.field.set r value
  | resetDataAvailable | readFrame _ => Status.clearNewData
  | trigger => fun c => c.apply (.startMeasurement true)

theorem kept_change (u : Update) (r : u.Home) :
    Register.toWord (u.change r) &&& Register.Reserved.kept u.Home =
      Register.toWord r &&& Register.Reserved.kept u.Home := by
  have status (s t : Status) (h : s.lastSubpage = t.lastSubpage) :
      s.toWord &&& 1 = t.toWord &&& 1 := by
    rw [Status.toWord_and_one, Status.toWord_and_one, h]
  have control (c c' : Control) : c.toWord &&& 0 = c'.toWord &&& 0 := by
    rw [UInt16.and_zero, UInt16.and_zero]
  -- No bit of the control register is kept, and of the status only the subpage, which no
  -- operation changes.
  cases u with
  | set setting value =>
    cases setting with
    | overwriteEnabled => exact status _ _ rfl
    | _ => exact control _ _
  | trigger => exact control _ _
  | _ => exact status _ _ rfl

variable {ε σ : Type} (x : Camera)

/-- The operation on a camera; `w` is the register's word. -/
def program (w : Word) : Update → Program ε (Except (Failure ε) Unit)
  | set setting value => (x.set setting value).run
  | resetDataAvailable => x.resetDataAvailable.run
  | trigger => x.trigger.run
  | readFrame words => do return (← x.readFrame (Status.ofWord w) words).1

/-- Requests that write nothing to the register but `u.change` of `w`. -/
def Writes (u : Update) (w : Word) (q : Request) : Prop :=
  ∀ v, q.wordWritten? x.device (Register.address u.Home).word = some v →
    v = Register.toWord (u.change (Register.ofWord w))

theorem Writes.of_harmless {u : Update} {w : Word} {q : Request} (h : q.Harmless) :
    u.Writes x w q := by
  cases q <;> first | exact h.elim | exact fun v hv => nomatch hv

theorem writes_change (u : Update) (w : Word) :
    u.Writes x w (x.registerWrite (u.change (Register.ofWord w))) := by
  intro v hv
  rw [x.wordWritten?_registerWrite, if_pos rfl] at hv
  exact (Option.some.inj hv).symm

end Update

namespace Camera

variable {ε σ α : Type} (x : Camera) {R : Type} [Register R] {world : World ε σ} {s : σ} {w : Word}

theorem asks_after_read {P : Request → Prop} {f : R → Script ε α}
    (current : ((Transport.readWord x.device (Register.address R)).run world s).1 = .ok w)
    (harmless : ∀ q : Request, q.Harmless → P q) (hf : Script.Asks P (f (Register.ofWord w))) :
    ∀ e ∈ (x.readRegister R >>= f).run.events world s, P e.request := by
  have hw : (x.readWord (Register.address R)).run.run world s = (.ok w, _) :=
    Script.run_onBus (Prod.ext current rfl)
  have hr : (x.readRegister R).run.run world s = (.ok (Register.ofWord w), _) :=
    Script.run_bind_ok hw
  rw [Script.events_bind_ok hr]
  intro e he
  rcases List.mem_append.mp he with he | he
  · exact harmless _ (x.asks_readRegister _ _ (Program.trace_run world _ s) e he)
  · exact hf _ _ (Program.trace_run world _ _) e he

end Camera

namespace Update

variable {ε σ : Type} (x : Camera) {world : World ε σ} {s : σ} {w : Word}

theorem writes_program (u : Update)
    (current : ((Transport.readWord x.device (Register.address u.Home)).run world s).1 = .ok w) :
    ∀ e ∈ (u.program x w).events world s, u.Writes x w e.request := by
  have harmless (q : Request) (hq : q.Harmless) : u.Writes x w q := Writes.of_harmless x hq
  have write := u.writes_change x w
  cases u with
  | set setting value =>
    refine x.asks_after_read current harmless ?_
    split
    · exact x.asks_writeRegister harmless write
    · exact Script.asks_pure _
  | resetDataAvailable =>
    exact x.asks_after_read current harmless (x.asks_writeRegister harmless write)
  | trigger =>
    refine x.asks_after_read current harmless (x.asks_begin harmless write ?_)
    exact fun v hv => nomatch hv
  | readFrame words =>
    have asks : Program.Asks (Writes x (.readFrame words) w)
        ((readFrame words).program x w : Program ε (Except (Failure ε) Unit)) :=
      Program.asks_bind (x.asks_readFrame harmless write words) fun _ => Program.asks_done _
    exact asks _ _ (Program.trace_run world _ s)

/-- Where the controller may not write, a word that an operation writes agrees with the word that
the register had exactly if the latter had zeros in all bits that are lost. -/
theorem written_agrees_iff (u : Update)
    (current : ((Transport.readWord x.device (Register.address u.Home)).run world s).1 = .ok w) :
    ∀ v ∈ Event.written x.device (Register.address u.Home).word ((u.program x w).events world s),
      Register.Agree u.Home v w ↔ w &&& Register.Reserved.lost u.Home = 0 := by
  intro v hv
  obtain ⟨e, he, hw⟩ := List.mem_filterMap.mp hv
  rw [u.writes_program x current e he v hw]
  exact Register.agree_toWord_iff (u.kept_change _)

/-- A bus on which every read gives one word over and over, and nothing else happens. -/
def constantBus (w : Word) : World ε Unit where
  reply _
    | .exchange .. => (.ok (Vector.ofFn fun i => w.toBytes.getD (i % 2) 0), ())
    | .send .. => (.ok (), ())
    | .now => (0, ())
    | .cancelled => (false, ())
    | .sleep _ | .publish _ | .finish | .notice _ => ((), ())

theorem readWord_constantBus :
    ((Transport.readWord 0x33 (Register.address Status)).run
      (constantBus 0x0048 : World Empty Unit) ()).1 = .ok 0x0048 := rfl

theorem written_constantBus :
    0x0000 ∈ Event.written 0x33 RegisterAddress.status.word
      ((resetDataAvailable.program ⟨0x33, {}⟩ 0x0048).events
        (constantBus 0x0048 : World Empty Unit) ()) := by decide

theorem written_agrees_iff_bit_six :
    ((Transport.readWord 0x33 (Register.address Status)).run
      (constantBus 0x0048 : World Empty Unit) ()).1 = .ok 0x0048 ∧
    (Register.Agree Status 0x0000 0x0048 ↔ (0x0048 : Word) &&& 0xFFC6 = 0) :=
  ⟨readWord_constantBus,
    written_agrees_iff ⟨0x33, {}⟩ resetDataAvailable readWord_constantBus _ written_constantBus⟩

/-- Bit 6 of the status is reserved. -/
theorem resetDataAvailable_loses_bit_six :
    ¬∀ v ∈ Event.written 0x33 RegisterAddress.status.word
      ((resetDataAvailable.program ⟨0x33, {}⟩ 0x0048).events
        (constantBus 0x0048 : World Empty Unit) ()), Register.Agree Status v 0x0048 := by
  intro h
  have agree := h 0x0000 written_constantBus
  revert agree
  decide

end Update
end Thermopile
