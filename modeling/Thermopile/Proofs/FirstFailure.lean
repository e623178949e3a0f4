import Thermopile.Acquisition
import Thermopile.Proofs.Trace

namespace Thermopile

variable {ε σ α β : Type}

def Event.failure? (e : Event ε) : Option ε :=
  match e with
  | ⟨.exchange .., .error err⟩ => some err
  | ⟨.send .., .error err⟩ => some err
  | _ => none

def busError? : Except ε α → Option ε
  | .error e => some e
  | .ok _ => none

def transportError? : Except (Failure ε) α → Option ε
  | .error (.transport e) => some e
  | _ => none

namespace Program

/-- After a failed transaction the program is done, with a result that `error?` finds its error in.
Other results have none. -/
def HaltsOnFailure (error? : α → Option ε) : Program ε α → Prop
  | done a => error? a = none
  | ask q next => ∀ r : q.Reply ε,
    match (⟨q, r⟩ : Event ε).failure? with
    | some e => ∃ a, next r = done a ∧ error? a = some e
    | none => (next r).HaltsOnFailure error?

variable {error? : α → Option ε} {error'? : β → Option ε}

theorem HaltsOnFailure.bind {p : Program ε α} {f : α → Program ε β}
    (hp : p.HaltsOnFailure error?)
    (onward : ∀ a, error? a = none → (f a).HaltsOnFailure error'?)
    (passed : ∀ a e, error? a = some e → ∃ b, f a = done b ∧ error'? b = some e) :
    (p >>= f).HaltsOnFailure error'? := by
  induction p with
  | done a => exact onward a hp
  | ask q next ih =>
    change (ask q fun r => next r >>= f).HaltsOnFailure error'?
    intro r
    have hr := hp r
    cases hf : (⟨q, r⟩ : Event ε).failure? with
    | none =>
      rw [hf] at hr
      exact ih r hr
    | some e =>
      rw [hf] at hr
      obtain ⟨a, hn, ha⟩ := hr
      dsimp only
      rw [hn]
      exact passed a e ha

/-- Either nothing fails, or the last event alone does, with the error that is in the result. -/
theorem HaltsOnFailure.cases {p : Program ε α} (hp : p.HaltsOnFailure error?) {a : α}
    {es : List (Event ε)} (h : Trace p a es) :
    (error? a = none ∧ ∀ e ∈ es, e.failure? = none) ∨
      ∃ before e error, es = before ++ [e] ∧ (∀ e ∈ before, e.failure? = none) ∧
        e.failure? = some error ∧ error? a = some error := by
  induction h with
  | done a => exact .inl ⟨hp, List.forall_mem_nil _⟩
  | @ask q next a es r h ih =>
    have halts := hp r
    cases hf : (⟨q, r⟩ : Event ε).failure? with
    | none =>
      rw [hf] at halts
      rcases ih halts with ⟨none, good⟩ | ⟨before, e, error, rfl, good, failed, found⟩
      · exact .inl ⟨none, List.forall_mem_cons.mpr ⟨hf, good⟩⟩
      · have split : ⟨q, r⟩ :: (before ++ [e]) = (⟨q, r⟩ :: before) ++ [e] := rfl
        exact .inr ⟨_, e, error, split, List.forall_mem_cons.mpr ⟨hf, good⟩, failed, found⟩
    | some error =>
      rw [hf] at halts
      obtain ⟨b, hn, found⟩ := halts
      rw [hn] at h
      obtain ⟨rfl, rfl⟩ := trace_done.mp h
      exact .inr ⟨[], _, error, rfl, List.forall_mem_nil _, hf, found⟩

theorem HaltsOnFailure.final {p : Program ε α} (hp : p.HaltsOnFailure error?) {a : α}
    {before after : List (Event ε)} {e : Event ε} {error : ε}
    (h : Trace p a (before ++ e :: after)) (hf : e.failure? = some error) :
    after = [] ∧ error? a = some error := by
  induction p generalizing before with
  | done a => simpa using (trace_done.mp h).2
  | ask q next ih =>
    obtain ⟨r, rest, hr, he⟩ := trace_ask.mp h
    have halts := hp r
    cases before with
    | nil =>
      obtain ⟨rfl, rfl⟩ := List.cons.inj he
      rw [hf] at halts
      obtain ⟨b, hn, hb⟩ := halts
      rw [hn] at hr
      obtain ⟨rfl, rfl⟩ := trace_done.mp hr
      exact ⟨rfl, hb⟩
    | cons first before =>
      obtain ⟨rfl, rfl⟩ := List.cons.inj he
      -- An earlier failure would have left no events to come.
      cases hq : (⟨q, r⟩ : Event ε).failure? with
      | none =>
        rw [hq] at halts
        exact ih r halts hr
      | some e' =>
        rw [hq] at halts
        obtain ⟨b, hn, -⟩ := halts
        rw [hn] at hr
        simpa using (trace_done.mp hr).2

theorem HaltsOnFailure.unfailed {p : Program ε α} (hp : p.HaltsOnFailure error?) {a : α}
    {es : List (Event ε)} (h : Trace p a es) (good : ∀ e ∈ es, e.failure? = none) :
    error? a = none := by
  induction h with
  | done a => exact hp
  | @ask q next a es r h ih =>
    obtain ⟨hq, rest⟩ := List.forall_mem_cons.mp good
    have halts := hp r
    rw [hq] at halts
    exact ih halts rest

end Program

namespace Script

abbrev HaltsOnFailure (m : Script ε α) : Prop := m.run.HaltsOnFailure transportError?

variable {m : Script ε α} {f : α → Script ε β}

theorem haltsOnFailure_pure (a : α) : HaltsOnFailure (pure a : Script ε α) := rfl

theorem haltsOnFailure_fail (fault : Fault) : HaltsOnFailure (fail fault : Script ε α) := rfl

theorem HaltsOnFailure.bind (hm : HaltsOnFailure m) (hf : ∀ a, HaltsOnFailure (f a)) :
    HaltsOnFailure (m >>= f) := by
  apply Program.HaltsOnFailure.bind hm
  · intro r hr
    cases r with
    | ok a => exact hf a
    | error failure =>
      cases failure with
      | transport e => cases hr
      | library fault => rfl
  · intro r e hr
    cases r with
    | ok a => cases hr
    | error failure =>
      refine ⟨.error failure, rfl, ?_⟩
      cases failure <;> exact hr

theorem haltsOnFailure_request {q : Request}
    (h : ∀ r : q.Reply ε, (⟨q, r⟩ : Event ε).failure? = none) :
    HaltsOnFailure (request q : Script ε _) := by
  intro r
  rw [h r]
  exact haltsOnFailure_pure r

theorem haltsOnFailure_sleep (time : Duration) : HaltsOnFailure (sleep time : Script ε Unit) :=
  haltsOnFailure_request fun _ => rfl

theorem haltsOnFailure_report (n : Notice) : HaltsOnFailure (report n : Script ε Unit) :=
  haltsOnFailure_request fun _ => rfl

theorem haltsOnFailure_onBus {p : Program ε (Except ε α)} (hp : p.HaltsOnFailure busError?) :
    HaltsOnFailure (onBus p) := by
  apply Program.HaltsOnFailure.bind hp
  · intro r hr
    cases r with
    | ok a => rfl
    | error e => cases hr
  · intro r e hr
    cases r with
    | ok a => cases hr
    | error e' => exact ⟨.error (.transport e'), rfl, hr⟩

theorem run_lift_bind (p : Program ε β) (f : β → Script ε α) :
    (ExceptT.lift p >>= f).run = p >>= fun b => (f b).run := by
  induction p with
  | done b => rfl
  | ask q next ih => exact congrArg (Program.ask q) (funext ih)

/-- A program that returns its error beside other data, if the error is then raised. -/
theorem haltsOnFailure_lift_bind {p : Program ε β} {error? : β → Option ε} {f : β → Script ε α}
    (hp : p.HaltsOnFailure error?) (onward : ∀ b, error? b = none → HaltsOnFailure (f b))
    (raised : ∀ b e, error? b = some e → f b = throw (.transport e)) :
    HaltsOnFailure (ExceptT.lift p >>= f) := by
  rw [HaltsOnFailure, run_lift_bind]
  apply hp.bind onward
  intro b e hb
  exact ⟨.error (.transport e), raised b e hb, rfl⟩

end Script

namespace Transport

variable (device : UInt8)

theorem haltsOnFailure_readWord (a : Address) :
    (readWord device a : Program ε _).HaltsOnFailure busError? := by
  intro r
  cases r with
  | error e => exact ⟨.error e, rfl, rfl⟩
  | ok bytes => rfl

theorem haltsOnFailure_send (out : List UInt8) :
    (Program.request (.send device out) : Program ε _).HaltsOnFailure busError? := by
  intro r
  cases r with
  | error e => exact ⟨.error e, rfl, rfl⟩
  | ok _ => rfl

theorem haltsOnFailure_readFrom {n : Nat} (start : Address) (words : Vector Word n)
    (offset : Nat) :
    (readFrom device start words offset : Program ε _).HaltsOnFailure
      fun r => busError? r.1 := by
  induction words, offset using readFrom.induct with
  | case1 words offset inside ih =>
    rw [readFrom, if_pos inside]
    intro r
    cases r with
    | error e => exact ⟨(.error e, words), rfl, rfl⟩
    | ok bytes => exact ih bytes
  | case2 words offset outside =>
    rw [readFrom, if_neg outside]
    rfl

end Transport

namespace Camera

variable (x : Camera)

theorem haltsOnFailure_readWord (a : Address) :
    Script.HaltsOnFailure (x.readWord a : Script ε Word) :=
  Script.haltsOnFailure_onBus (Transport.haltsOnFailure_readWord x.device a)

theorem haltsOnFailure_writeWord (a : Address) (w : Word) :
    Script.HaltsOnFailure (x.writeWord a w : Script ε Unit) :=
  Script.haltsOnFailure_onBus (Transport.haltsOnFailure_send x.device _)

theorem haltsOnFailure_readWords (n : Nat) (start : Address) :
    Script.HaltsOnFailure (x.readWords n start : Script ε _) := by
  apply Script.haltsOnFailure_lift_bind (Transport.haltsOnFailure_readFrom x.device start _ 0)
  · intro r hr
    match r with
    | (.ok (), words) => rfl
    | (.error e, words) => cases hr
  · intro r e hr
    match r with
    | (.ok (), words) => cases hr
    | (.error e', words) =>
      cases hr
      rfl

theorem haltsOnFailure_readRegister (R : Type) [Register R] :
    Script.HaltsOnFailure (x.readRegister R : Script ε R) :=
  (x.haltsOnFailure_readWord _).bind fun _ => Script.haltsOnFailure_pure _

theorem haltsOnFailure_writeRegister {R : Type} [Register R] (r : R) :
    Script.HaltsOnFailure (x.writeRegister r : Script ε Unit) :=
  (x.haltsOnFailure_writeWord _ _).bind fun _ => Script.haltsOnFailure_sleep _

theorem haltsOnFailure_get (setting : Setting) :
    Script.HaltsOnFailure (x.get setting : Script ε _) :=
  (x.haltsOnFailure_readRegister _).bind fun _ => Script.haltsOnFailure_pure _

theorem haltsOnFailure_set (setting : Setting) (value : setting.Value) :
    Script.HaltsOnFailure (x.set setting value : Script ε Unit) := by
  apply (x.haltsOnFailure_readRegister _).bind
  intro register
  split
  · exact x.haltsOnFailure_writeRegister _
  · exact Script.haltsOnFailure_pure _

/-- Rounds are repeated after a word that differs, never after an error. -/
theorem haltsOnFailure_writeRounds (a : Address) (value : Word) (attempts rounds : Nat)
    (actual : Word) :
    Script.HaltsOnFailure (x.writeRounds a value attempts rounds actual : Script ε Unit) := by
  induction rounds generalizing actual with
  | zero => exact Script.haltsOnFailure_fail _
  | succ rounds ih =>
    apply (x.haltsOnFailure_writeWord a 0).bind
    intro _
    apply (Script.haltsOnFailure_sleep _).bind
    intro _
    apply (x.haltsOnFailure_writeWord a value).bind
    intro _
    apply (Script.haltsOnFailure_sleep _).bind
    intro _
    apply (x.haltsOnFailure_readWord a).bind
    intro read
    split
    · exact Script.haltsOnFailure_report _
    · exact (Script.haltsOnFailure_report _).bind fun _ => ih read

theorem haltsOnFailure_writeEeprom (a : Address) (value : Word) :
    Script.HaltsOnFailure (x.writeEeprom a value : Script ε Unit) :=
  x.haltsOnFailure_writeRounds a value _ _ 0

theorem haltsOnFailure_trigger : Script.HaltsOnFailure (x.trigger : Script ε Unit) := by
  apply (x.haltsOnFailure_readRegister Control).bind
  intro control
  apply (x.haltsOnFailure_writeRegister _).bind
  intro _
  apply (Script.haltsOnFailure_onBus (Transport.haltsOnFailure_send _ _)).bind
  intro _
  apply (Script.haltsOnFailure_sleep _).bind
  intro _
  apply (x.haltsOnFailure_readRegister Control).bind
  intro control'
  split
  · exact Script.haltsOnFailure_fail _
  · exact Script.haltsOnFailure_report _

theorem haltsOnFailure_poll (wanted : Option Subpage) (polls : Nat) :
    Script.HaltsOnFailure (x.poll wanted polls : Script ε Status) := by
  induction polls with
  | zero => exact Script.haltsOnFailure_fail _
  | succ polls ih =>
    apply (x.haltsOnFailure_readRegister Status).bind
    intro status
    apply (Script.haltsOnFailure_report _).bind
    intro _
    split
    · exact Script.haltsOnFailure_pure _
    · split
      · exact (Script.haltsOnFailure_sleep _).bind fun _ => ih
      · exact ih

theorem haltsOnFailure_readFrame (status : Status) (words : RamImage) :
    (x.readFrame status words : Program ε _).HaltsOnFailure fun r => transportError? r.1 := by
  apply (Transport.haltsOnFailure_readFrom x.device _ words 0).bind
  · intro r hr
    match r with
    | (.ok (), words) =>
      have written : Script.HaltsOnFailure (x.writeRegister status.clearNewData : Script ε Unit) :=
        x.haltsOnFailure_writeRegister _
      apply Program.HaltsOnFailure.bind written
      · intro result hw
        exact hw
      · intro result e hw
        exact ⟨(result, words), rfl, hw⟩
    | (.error e, words) => cases hr
  · intro r e hr
    match r with
    | (.ok (), words) => cases hr
    | (.error e', words) => exact ⟨(.error (.transport e'), words), rfl, hr⟩

theorem haltsOnFailure_loadCalibration :
    Script.HaltsOnFailure (x.loadCalibration : Script ε Calibration) := by
  apply (x.haltsOnFailure_readWords _ _).bind
  intro image
  exact (Script.haltsOnFailure_report _).bind fun _ => Script.haltsOnFailure_pure _

theorem haltsOnFailure_dataAvailable :
    Script.HaltsOnFailure (x.dataAvailable : Script ε (Option Subpage)) :=
  (x.haltsOnFailure_readRegister Status).bind fun _ => Script.haltsOnFailure_pure _

theorem haltsOnFailure_resetDataAvailable :
    Script.HaltsOnFailure (x.resetDataAvailable : Script ε Unit) :=
  (x.haltsOnFailure_readRegister Status).bind fun _ => x.haltsOnFailure_writeRegister _

end Camera

namespace Acquisition

variable (x : Acquisition)

theorem haltsOnFailure_capture : Script.HaltsOnFailure (x.capture : Script ε Snapshot) := by
  apply (x.camera.haltsOnFailure_poll none _).bind
  intro status
  apply (x.camera.haltsOnFailure_readRegister Control).bind
  intro control
  apply Script.haltsOnFailure_lift_bind (x.camera.haltsOnFailure_readFrame status _)
  · intro r hr
    match r with
    | (.ok (), words) => rfl
    | (.error (.library fault), words) => rfl
    | (.error (.transport e), words) => cases hr
  · intro r e hr
    match r with
    | (.ok (), words) => cases hr
    | (.error (.library fault), words) => cases hr
    | (.error (.transport e'), words) =>
      cases hr
      rfl

theorem haltsOnFailure_develop (p : Progress) (s : Snapshot) :
    Script.HaltsOnFailure (x.develop p s : Script ε Progress) := by
  unfold develop
  split
  · exact Script.haltsOnFailure_fail _
  · apply (Script.haltsOnFailure_request fun _ => rfl).bind
    intro _
    exact (Script.haltsOnFailure_report _).bind fun _ => Script.haltsOnFailure_pure _

theorem haltsOnFailure_pace (period elapsed sequence : Nat) :
    Script.HaltsOnFailure (pace period elapsed sequence : Script ε Unit) := by
  unfold pace
  split
  · exact Script.haltsOnFailure_sleep _
  · exact Script.haltsOnFailure_report _

theorem haltsOnFailure_cycle (period : Nat) (p : Progress) :
    Script.HaltsOnFailure (x.cycle period p : Script ε Progress) := by
  apply (Script.haltsOnFailure_request fun _ => rfl).bind
  intro started
  apply (x.haltsOnFailure_capture.bind fun s => x.haltsOnFailure_develop p s).bind
  intro p'
  apply (Script.haltsOnFailure_request fun _ => rfl).bind
  intro ended
  exact (haltsOnFailure_pace _ _ _).bind fun _ => Script.haltsOnFailure_pure _

theorem haltsOnFailure_cycles (period budget : Nat) (p : Progress) :
    Script.HaltsOnFailure (x.cycles period budget p : Script ε Ending) := by
  induction budget generalizing p with
  | zero => exact Script.haltsOnFailure_pure _
  | succ budget ih =>
    apply (Script.haltsOnFailure_request fun _ => rfl).bind
    intro stop
    split
    · exact Script.haltsOnFailure_pure _
    · exact (x.haltsOnFailure_cycle period p).bind fun p' => ih p'

theorem haltsOnFailure_start : Script.HaltsOnFailure (x.start : Script ε FrameRate) := by
  have rest : Script.HaltsOnFailure (do
      let rate ← x.camera.get .frameRate
      x.camera.trigger
      Script.report (.acquisitionStarted rate)
      return rate : Script ε FrameRate) := by
    apply (x.camera.haltsOnFailure_get .frameRate).bind
    intro rate
    apply x.camera.haltsOnFailure_trigger.bind
    intro _
    exact (Script.haltsOnFailure_report _).bind fun _ => Script.haltsOnFailure_pure _
  unfold start
  split
  · exact (x.camera.haltsOnFailure_set .frameRate _).bind fun _ => rest
  · exact rest

theorem haltsOnFailure_run (budget : Nat) (decoder : Decoder Float) :
    Script.HaltsOnFailure (x.run budget decoder : Script ε Ending) :=
  x.haltsOnFailure_start.bind fun _ => x.haltsOnFailure_cycles _ _ _

end Acquisition

/-- What can be asked of a camera. -/
inductive Operation : Type 1
  | readRegister (R : Type) [Register R]
  | writeRegister {R : Type} [Register R] (r : R)
  | writeEeprom (a : Address) (value : Word)
  | persist {R : Type} [PersistentRegister R] (r : R)
  | trigger
  | waitForData (wanted : Option Subpage)
  | readFrame (status : Status) (words : RamImage)
  | loadCalibration
  | deviceId
  | dataAvailable
  | resetDataAvailable
  | get (setting : Setting)
  | set (setting : Setting) (value : setting.Value)
  | acquire (calibration : Calibration) (config : AcquisitionConfig) (budget : Nat)
      (decoder : Decoder Float)

namespace Operation

abbrev Result : Operation → Type
  | readRegister R => R
  | waitForData _ => Status
  | loadCalibration => Calibration
  | deviceId => Vector Word 3
  | dataAvailable => Option Subpage
  | get setting => setting.Value
  | acquire .. => Acquisition.Ending
  | writeRegister _ | writeEeprom .. | persist _ | trigger | readFrame .. | resetDataAvailable
  | set .. => Unit

def script (x : Camera) : (o : Operation) → Script ε o.Result
  | readRegister R => x.readRegister R
  | writeRegister r => x.writeRegister r
  | writeEeprom a value => x.writeEeprom a value
  | persist r => x.persist r
  | trigger => x.trigger
  | waitForData wanted => x.waitForData wanted
  | readFrame status words => ExceptT.mk (do return (← x.readFrame status words).1)
  | loadCalibration => x.loadCalibration
  | deviceId => x.deviceId
  | dataAvailable => x.dataAvailable
  | resetDataAvailable => x.resetDataAvailable
  | get setting => x.get setting
  | set setting value => x.set setting value
  | acquire calibration config budget decoder =>
    Acquisition.run ⟨x, calibration, config⟩ budget decoder

theorem haltsOnFailure (o : Operation) (x : Camera) :
    Script.HaltsOnFailure (o.script x : Script ε o.Result) := by
  cases o with
  | readRegister R => exact x.haltsOnFailure_readRegister R
  | writeRegister r => exact x.haltsOnFailure_writeRegister r
  | writeEeprom a value => exact x.haltsOnFailure_writeEeprom a value
  | persist r => exact x.haltsOnFailure_writeEeprom _ _
  | trigger => exact x.haltsOnFailure_trigger
  | waitForData wanted => exact x.haltsOnFailure_poll wanted _
  | readFrame status words =>
    apply (x.haltsOnFailure_readFrame status words).bind
    · intro r hr
      exact hr
    · intro r e hr
      exact ⟨r.1, rfl, hr⟩
  | loadCalibration => exact x.haltsOnFailure_loadCalibration
  | deviceId => exact x.haltsOnFailure_readWords _ _
  | dataAvailable => exact x.haltsOnFailure_dataAvailable
  | resetDataAvailable => exact x.haltsOnFailure_resetDataAvailable
  | get setting => exact x.haltsOnFailure_get setting
  | set setting value => exact x.haltsOnFailure_set setting value
  | acquire calibration config budget decoder =>
    exact Acquisition.haltsOnFailure_run ⟨x, calibration, config⟩ budget decoder

theorem transportError?_eq_some {r : Except (Failure ε) α} {e : ε} :
    transportError? r = some e ↔ r = .error (.transport e) := by
  unfold transportError?
  split <;> simp_all

/-- A failed transaction is the last event of an operation, and its error is the result. Where no
transaction fails, the result is no error of the bus. -/
theorem failed_transaction_is_final (o : Operation) (x : Camera) (w : World ε σ) (s : σ) :
    (∀ before e after error, (o.script x).run.events w s = before ++ e :: after →
      e.failure? = some error →
        after = [] ∧ ((o.script x).run.run w s).1 = .error (.transport error)) ∧
    ((∀ e ∈ (o.script x).run.events w s, e.failure? = none) →
      ∀ error, ((o.script x).run.run w s).1 ≠ .error (.transport error)) := by
  have halts : Script.HaltsOnFailure (o.script x : Script ε o.Result) := o.haltsOnFailure x
  have trace := Program.trace_run w (o.script x).run s
  constructor
  · intro before e after error he hf
    rw [he] at trace
    obtain ⟨last, hr⟩ := halts.final trace hf
    exact ⟨last, transportError?_eq_some.mp hr⟩
  · intro good error hr
    have none := halts.unfailed trace good
    rw [transportError?_eq_some.mpr hr] at none
    cases none

def readOnlyBus : World Unit Unit where
  reply _ q :=
    match q with
    | .exchange _ _ count => (.ok (Vector.replicate count 0), ())
    | .send .. => (.error (), ())
    | .now => (0, ())
    | .cancelled => (false, ())
    | .sleep _ | .publish _ | .finish | .notice _ => ((), ())

/-- The status is read, but the pause after writing it is never made. -/
theorem failed_transaction_is_final_write :
    ∃ read write : Event Unit,
      (script ⟨0x33, {}⟩ resetDataAvailable).run.events readOnlyBus () = [read, write] ∧
      read.failure? = none ∧ write.failure? = some () ∧
      ((script ⟨0x33, {}⟩ resetDataAvailable).run.run readOnlyBus ()).1 =
        .error (.transport ()) := by
  have final := (failed_transaction_is_final resetDataAvailable ⟨0x33, {}⟩ readOnlyBus ()).1
  exact ⟨_, _, rfl, rfl, rfl, (final [_] _ [] () rfl rfl).2⟩

end Operation
end Thermopile
