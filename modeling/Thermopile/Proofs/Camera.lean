import Thermopile.Proofs.Transport

namespace Thermopile

namespace Request

/-- Traffic on the bus, the clock and the log, but nothing that consumers notice. -/
def Internal : Request → Prop
  | exchange .. | send .. | sleep _ | now | notice _ => True
  | _ => False

def Reads : Request → Prop
  | exchange .. => True
  | _ => False

/-- As `Internal`, with nothing written to the bus but addresses to read from. -/
def Harmless : Request → Prop
  | exchange .. | sleep _ | notice _ => True
  | _ => False

def Idle : Request → Prop
  | sleep _ | now | notice _ => True
  | _ => False

theorem Reads.harmless {q : Request} (h : Reads q) : Harmless q := by
  cases q <;> first | exact trivial | exact h.elim

theorem Harmless.internal {q : Request} (h : Harmless q) : Internal q := by
  cases q <;> first | exact trivial | exact h.elim

theorem Idle.internal {q : Request} (h : Idle q) : Internal q := by
  cases q <;> first | exact trivial | exact h.elim

end Request

open Request

section
variable {ε : Type} {device : UInt8} {a : Word} {es : List (Event ε)}

namespace Event

theorem isCheck_of_internal {e : Event ε} (h : Internal e.request) : e.isCheck = false := by
  obtain ⟨q, r⟩ := e
  cases q <;> first | rfl | exact h.elim

theorem published_of_internal (h : ∀ e ∈ es, Internal e.request) : published es = [] := by
  apply published_eq_nil
  rintro ⟨q, r⟩ he
  have hq := h _ he
  cases q <;> first | rfl | exact hq.elim

theorem written_of_harmless (h : ∀ e ∈ es, Harmless e.request) : written device a es = [] := by
  apply written_eq_nil
  rintro ⟨q, r⟩ he
  have hq := h _ he
  cases q <;> first | rfl | exact hq.elim

theorem lastRead_of_idle (h : ∀ e ∈ es, Idle e.request) : lastRead device a es = none := by
  apply lastRead_eq_none
  rintro ⟨q, r⟩ he
  have hq := h _ he
  cases q <;> first | rfl | exact hq.elim

theorem written_of_idle (h : ∀ e ∈ es, Idle e.request) : written device a es = [] := by
  apply written_eq_nil
  rintro ⟨q, r⟩ he
  have hq := h _ he
  cases q <;> first | rfl | exact hq.elim

end Event

theorem Program.Asks.mono {P Q : Request → Prop} {α : Type} {p : Program ε α} (h : Asks P p)
    (hq : ∀ q, P q → Q q) : Asks Q p :=
  fun b es ht e he => hq _ (h b es ht e he)

end

namespace Transport

variable {ε : Type} {n : Nat}

theorem asks_readWord (device : UInt8) (a : Address) :
    Program.Asks Reads (readWord device a : Program ε (Except ε Word)) :=
  Program.asks_ask trivial fun _ => Program.asks_done _

theorem asks_readFrom (device : UInt8) (start : Address) (words : Vector Word n) (offset : Nat) :
    Program.Asks Reads
      (readFrom device start words offset : Program ε (Except ε Unit × Vector Word n)) := by
  induction words, offset using readFrom.induct with
  | case1 words offset inside ih =>
    rw [readFrom, if_pos inside]
    refine Program.asks_ask trivial fun reply => ?_
    cases reply with
    | error e => exact Program.asks_done _
    | ok bytes => exact ih bytes
  | case2 words offset outside =>
    rw [readFrom, if_neg outside]
    exact Program.asks_done _

end Transport

namespace Script

variable {ε : Type}

theorem asks_sleep (time : Duration) : Asks Harmless (sleep time : Script ε Unit) :=
  asks_request trivial

theorem asks_report (n : Notice) : Asks Harmless (report n : Script ε Unit) :=
  asks_request trivial

end Script

namespace Camera

variable {ε : Type} (x : Camera) {R : Type} [Register R]

theorem reads_readRegister : Script.Asks Reads (x.readRegister R : Script ε R) :=
  Script.asks_bind (Script.asks_onBus (Transport.asks_readWord _ _)) fun _ => Script.asks_pure _

theorem asks_readRegister : Script.Asks Harmless (x.readRegister R : Script ε R) :=
  x.reads_readRegister.mono fun _ => Reads.harmless

def registerWrite (r : R) : Request :=
  .send x.device ((Register.address R).toBytes ++ (Register.toWord r).toBytes)

theorem wordWritten?_registerWrite (r : R) (b : Word) :
    (x.registerWrite r).wordWritten? x.device b =
      if (Register.address R).word = b then some (Register.toWord r) else none := by
  have hl : Word.listOfBytes ((Register.address R).toBytes ++ (Register.toWord r).toBytes) =
      [(Register.address R).word, Register.toWord r] := by
    rw [Address.toBytes, Word.listOfBytes_append, Word.listOfBytes_toBytes]
  simp [Request.wordWritten?, registerWrite, hl]

theorem asks_get (setting : Setting) :
    Script.Asks Harmless (x.get setting : Script ε setting.Value) :=
  Script.asks_bind x.asks_readRegister fun _ => Script.asks_pure _

section
variable {P : Request → Prop} (harmless : ∀ q, Harmless q → P q)
include harmless

theorem asks_writeRegister {r : R} (write : P (x.registerWrite r)) :
    Script.Asks P (x.writeRegister r : Script ε Unit) := by
  refine Script.asks_bind (Script.asks_onBus (Program.asks_ask write Program.asks_done)) ?_
  exact fun _ => Script.asks_request (harmless _ trivial)

theorem asks_set (setting : Setting) (value : setting.Value)
    (write : ∀ r : setting.Home, P (x.registerWrite r)) :
    Script.Asks P (x.set setting value : Script ε Unit) := by
  refine Script.asks_bind (x.asks_readRegister.mono harmless) fun register => ?_
  split
  · exact x.asks_writeRegister harmless (write _)
  · exact Script.asks_pure _

theorem asks_begin {control : Control}
    (write : P (x.registerWrite (control.apply (.startMeasurement true))))
    (reset : P (.send Transport.generalCall [Transport.resetCommand])) :
    Script.Asks P (do
      x.writeRegister (control.apply (.startMeasurement true))
      Script.onBus Transport.reset
      Script.sleep x.config.resetDelay
      let control ← x.readRegister Control
      if control.startMeasurement then Script.fail .startup
      else Script.report .measurementTriggered : Script ε Unit) := by
  refine Script.asks_bind (x.asks_writeRegister harmless write) fun _ => ?_
  refine Script.asks_bind (Script.asks_onBus (Program.asks_ask reset Program.asks_done)) ?_
  intro _
  refine Script.asks_bind (Script.asks_request (harmless _ trivial)) fun _ => ?_
  refine Script.asks_bind (x.asks_readRegister.mono harmless) fun control => ?_
  split
  · exact Script.asks_fail _
  · exact Script.asks_request (harmless _ trivial)

theorem asks_trigger (write : ∀ r : Control, P (x.registerWrite r))
    (reset : P (.send Transport.generalCall [Transport.resetCommand])) :
    Script.Asks P (x.trigger : Script ε Unit) :=
  Script.asks_bind (x.asks_readRegister.mono harmless) fun _ =>
    x.asks_begin harmless (write _) reset

theorem asks_readFrame {status : Status} (write : P (x.registerWrite status.clearNewData))
    (words : RamImage) :
    Program.Asks P
      (x.readFrame status words : Program ε (Except (Failure ε) Unit × RamImage)) := by
  have read (q : Request) (h : Reads q) : P q := harmless q h.harmless
  refine Program.asks_bind ((Transport.asks_readFrom _ _ _ _).mono read) fun outcome => ?_
  obtain ⟨result, words⟩ := outcome
  cases result with
  | error e => exact Program.asks_done _
  | ok u =>
    exact Program.asks_bind (x.asks_writeRegister harmless write) fun _ => Program.asks_done _

end

theorem asks_poll (wanted : Option Subpage) (polls : Nat) :
    Script.Asks Harmless (x.poll wanted polls : Script ε Status) := by
  induction polls with
  | zero => exact Script.asks_fail _
  | succ polls ih =>
    refine Script.asks_bind x.asks_readRegister fun status => ?_
    refine Script.asks_bind (Script.asks_report _) fun _ => ?_
    split
    · exact Script.asks_pure _
    · split
      · exact Script.asks_bind (Script.asks_sleep _) fun _ => ih
      · exact ih

/-- A write of a register is one word on the bus, and a pause if it is acknowledged. -/
theorem trace_writeRegister_cases {r : R} {result : Except (Failure ε) Unit} {es : List (Event ε)}
    (h : Script.Trace (x.writeRegister r) result es) :
    (∃ error, result = .error (.transport error) ∧ es = [⟨x.registerWrite r, .error error⟩]) ∨
      result = .ok () ∧
        es = [⟨x.registerWrite r, .ok ()⟩, ⟨.sleep x.config.registerSettleDelay, ()⟩] := by
  rcases Script.trace_bind.mp h with ⟨failure, hw, rfl⟩ | ⟨u, es₁, es₂, hw, hs, rfl⟩
  · obtain ⟨reply, hr, he⟩ := Script.trace_onBus.mp hw
    obtain rfl := Program.trace_request.mp hr
    cases reply with
    | error error => exact .inl ⟨error, he, rfl⟩
    | ok _ => cases he
  · obtain ⟨reply, hr, he⟩ := Script.trace_onBus.mp hw
    obtain rfl := Program.trace_request.mp hr
    obtain ⟨_, rfl, rfl⟩ := Script.trace_request.mp hs
    cases reply with
    | error _ => cases he
    | ok _ => exact .inr ⟨rfl, rfl⟩

theorem trace_writeRegister {r : R} {result : Except (Failure ε) Unit} {es : List (Event ε)}
    (h : Script.Trace (x.writeRegister r) result es) :
    ∃ reply rest, es = ⟨x.registerWrite r, reply⟩ :: rest ∧
      ∀ e ∈ rest, ∃ time, e = ⟨.sleep time, ()⟩ := by
  rcases x.trace_writeRegister_cases h with ⟨error, -, rfl⟩ | ⟨-, rfl⟩
  · exact ⟨.error error, [], rfl, List.forall_mem_nil _⟩
  · exact ⟨.ok (), _, rfl, List.forall_mem_singleton.mpr ⟨_, rfl⟩⟩

theorem trace_writeRegister_ok {r : R} {es : List (Event ε)}
    (h : Script.Trace (x.writeRegister r) (.ok ()) es) :
    ∃ reply, es = [⟨x.registerWrite r, reply⟩, ⟨.sleep x.config.registerSettleDelay, ()⟩] := by
  rcases x.trace_writeRegister_cases h with ⟨error, failed, -⟩ | ⟨-, rfl⟩
  · cases failed
  · exact ⟨.ok (), rfl⟩

theorem lastRead_writeRegister {r : R} {result : Except (Failure ε) Unit} {es : List (Event ε)}
    (h : Script.Trace (x.writeRegister r) result es) (b : Word) :
    Event.lastRead x.device b es = none := by
  obtain ⟨reply, rest, rfl, hrest⟩ := x.trace_writeRegister h
  apply Event.lastRead_eq_none
  intro e he
  cases he with
  | head => rfl
  | tail _ he =>
    obtain ⟨time, rfl⟩ := hrest e he
    rfl

theorem written_writeRegister {r : R} {result : Except (Failure ε) Unit} {es : List (Event ε)}
    (h : Script.Trace (x.writeRegister r) result es) (b : Word) :
    Event.written x.device b es =
      if (Register.address R).word = b then [Register.toWord r] else [] := by
  obtain ⟨reply, rest, rfl, hrest⟩ := x.trace_writeRegister h
  have none : Event.written x.device b rest = [] := by
    apply Event.written_eq_nil
    intro e he
    obtain ⟨time, rfl⟩ := hrest e he
    rfl
  rw [← List.singleton_append, Event.written_append, none, List.append_nil]
  unfold Event.written
  rw [List.filterMap_cons]
  simp only [wordWritten?_registerWrite, List.filterMap_nil]
  by_cases hb : (Register.address R).word = b
  · simp [hb]
  · simp [hb]

theorem lastRead_readRegister {r : R} {es : List (Event ε)}
    (h : Script.Trace (x.readRegister R) (.ok r) es) :
    ∃ w, r = Register.ofWord w ∧ ∀ b : Word, Event.lastRead x.device b es =
      if b = (Register.address R).word then some w else none := by
  obtain ⟨w, es₁, es₂, hw, hp, rfl⟩ := Script.trace_bind_ok.mp h
  obtain ⟨hr, rfl⟩ := Script.trace_pure.mp hp
  obtain ⟨reply, ht, he⟩ := Script.trace_onBus.mp hw
  cases reply with
  | error e => cases he
  | ok v =>
    obtain rfl : w = v := Except.ok.inj he
    refine ⟨w, Except.ok.inj hr, fun b => ?_⟩
    rw [List.append_nil, Transport.lastRead_readWord ht]

/-- What was read is the word at address `a` alone, at the end as `w`. -/
def SeesOnly (a : Address) (w : Word) (es : List (Event ε)) : Prop :=
  ∀ b : Word, Event.lastRead x.device b es = if b = a.word then some w else none

section
variable {a : Address} {v w : Word} {es₁ es₂ : List (Event ε)}

theorem SeesOnly.append (h₁ : x.SeesOnly a v es₁) (h₂ : x.SeesOnly a w es₂) :
    x.SeesOnly a w (es₁ ++ es₂) := by
  intro b
  rw [Event.lastRead_append, h₁ b, h₂ b]
  by_cases hb : b = a.word
  · rw [if_pos hb, if_pos hb, Option.some_or]
  · rw [if_neg hb, if_neg hb, Option.none_or]

theorem SeesOnly.append_unread (h₁ : x.SeesOnly a w es₁)
    (h₂ : ∀ b, Event.lastRead x.device b es₂ = none) : x.SeesOnly a w (es₁ ++ es₂) := by
  intro b
  rw [Event.lastRead_append, h₁ b, h₂ b, Option.none_or]

end

theorem sees_poll (wanted : Option Subpage) (polls : Nat) {status : Status}
    {es : List (Event ε)} (h : Script.Trace (x.poll wanted polls) (.ok status) es) :
    ∃ w, status = Status.ofWord w ∧ status.newData = true ∧
      x.SeesOnly (Register.address Status) w es := by
  induction polls generalizing es with
  | zero =>
    have hf := (Script.trace_fail.mp h).1
    cases hf
  | succ polls ih =>
    obtain ⟨polled, es₁, es₂, hr, hn, rfl⟩ := Script.trace_bind_ok.mp h
    obtain ⟨w, rfl, hw⟩ := x.lastRead_readRegister hr
    obtain ⟨v, es₃, hrest, rfl⟩ := Script.trace_request_bind.mp hn
    have seen : x.SeesOnly (Register.address Status) w (es₁ ++ [⟨.notice _, v⟩]) :=
      SeesOnly.append_unread x hw fun b => rfl
    rw [List.append_cons]
    split at hrest
    · rename_i ready
      obtain ⟨hs, rfl⟩ := Script.trace_pure.mp hrest
      obtain rfl : status = Status.ofWord w := Except.ok.inj hs
      rw [List.append_nil]
      exact ⟨w, rfl, ready.1, seen⟩
    · split at hrest
      · obtain ⟨v, es₄, hpoll, rfl⟩ := Script.trace_request_bind.mp hrest
        obtain ⟨w', hs, hd, seen'⟩ := ih hpoll
        have idle (b : Word) : Event.lastRead x.device b [(⟨.sleep _, v⟩ : Event ε)] = none := rfl
        rw [List.append_cons]
        exact ⟨w', hs, hd, (seen.append_unread x idle).append x seen'⟩
      · obtain ⟨w', hs, hd, seen'⟩ := ih hrest
        exact ⟨w', hs, hd, seen.append x seen'⟩

theorem trace_readFrame {status : Status} {words words' : RamImage} {es : List (Event ε)}
    (h : Program.Trace (x.readFrame status words) (.ok (), words') es) (b : Word) :
    Event.lastRead x.device b es = words'[(b - RamAddress.base.word).toNat]? ∧
    Event.written x.device b es =
      if RegisterAddress.status.word = b then [status.clearNewData.toWord] else [] := by
  obtain ⟨⟨result, filled⟩, es₁, es₂, hb, hn, rfl⟩ := Program.trace_bind.mp h
  cases result with
  | error e =>
    have he := (Program.trace_pure.mp hn).1
    simp at he
  | ok u =>
    obtain ⟨written, es₃, es₄, hw, hp, rfl⟩ := Program.trace_bind.mp hn
    obtain ⟨he, rfl⟩ := Program.trace_pure.mp hp
    obtain ⟨rfl, rfl⟩ := Prod.mk.inj he
    have seen := (Transport.lastRead_readFrom (by decide) hb).2 b
    have silent : Event.written x.device b es₁ = [] :=
      Event.written_of_harmless fun e he =>
        (Transport.asks_readFrom _ _ _ _ _ _ hb e he).harmless
    rw [List.append_nil]
    constructor
    · rw [Event.lastRead_append, seen, x.lastRead_writeRegister hw, Option.none_or,
        if_pos (Nat.zero_le _)]
      rfl
    · rw [Event.written_append, silent, x.written_writeRegister hw]
      rfl

end Camera
end Thermopile
