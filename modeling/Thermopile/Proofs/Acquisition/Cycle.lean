import Thermopile.Acquisition
import Thermopile.Proofs.Camera
import Thermopile.Proofs.Decoder.Step

namespace Thermopile

variable {ε : Type}

/-- The words that `device` sent for the RAM, the status that told of new data, which is the last
one it sent, and the control register make up the measurement `s`. -/
def Event.Measures (device : UInt8) (es : List (Event ε)) (s : Snapshot) : Prop :=
  ∃ (words : RamImage) (status control : Word),
    s = .ofRegisters words (.ofWord status) (.ofWord control) ∧
    (Status.ofWord status).newData = true ∧
    (∀ i : Fin ramSize,
      Event.lastRead device (RamAddress.base.word + UInt16.ofNat i) es = some (words.get i)) ∧
    Event.lastRead device RegisterAddress.status.word es = some status ∧
    Event.lastRead device RegisterAddress.control.word es = some control

theorem Event.Measures.congr {device : UInt8} {es es' : List (Event ε)} {s : Snapshot}
    (h : Event.Measures device es s)
    (same : ∀ b, Event.lastRead device b es' = Event.lastRead device b es) :
    Event.Measures device es' s := by
  obtain ⟨words, status, control, hs, hn, hw, hst, hc⟩ := h
  exact ⟨words, status, control, hs, hn, fun i => (same _).trans (hw i), (same _).trans hst,
    (same _).trans hc⟩

namespace Acquisition

variable (x : Acquisition) {p p' : Progress} {es : List (Event ε)}

theorem measures_of_reads {camera : Camera} {status control : Word} {words : RamImage}
    {es₁ es₂ es₃ : List (Event ε)} (fresh : (Status.ofWord status).newData = true)
    (h₁ : camera.SeesOnly (Register.address Status) status es₁)
    (h₂ : camera.SeesOnly (Register.address Control) control es₂)
    (h₃ : ∀ b, Event.lastRead camera.device b es₃ = words[(b - RamAddress.base.word).toNat]?) :
    Event.Measures camera.device (es₁ ++ (es₂ ++ es₃))
      (.ofRegisters words (.ofWord status) (.ofWord control)) := by
  have seen (b : Word) : Event.lastRead camera.device b (es₁ ++ (es₂ ++ es₃)) =
      ((words[(b - RamAddress.base.word).toNat]?).or
        (if b = RegisterAddress.control.word then some control else none)).or
        (if b = RegisterAddress.status.word then some status else none) := by
    rw [Event.lastRead_append, Event.lastRead_append, h₁ b, h₂ b, h₃ b]
    rfl
  -- The registers lie outside of the RAM, and apart.
  have outside (r : RegisterAddress) :
      words[(r.word - RamAddress.base.word).toNat]? = none := by
    apply Vector.getElem?_eq_none
    cases r <;> decide
  refine ⟨words, status, control, rfl, fresh, fun i => ?_, ?_, ?_⟩
  · have hi := i.isLt
    rw [seen, Word.toNat_add_sub _ (Nat.lt_trans hi (by decide)), Vector.getElem?_eq_getElem hi,
      Option.some_or, Option.some_or]
    rfl
  · rw [seen, outside, if_neg (by decide), if_pos rfl]
    rfl
  · rw [seen, outside, if_pos rfl]
    rfl

theorem asks_capture : Script.Asks Request.Internal (x.capture : Script ε Snapshot) := by
  have polled : Script.Asks Request.Internal (x.camera.waitForData none : Script ε Status) :=
    (x.camera.asks_poll none _).mono fun _ => Request.Harmless.internal
  have read : Script.Asks Request.Internal (x.camera.readRegister Control : Script ε Control) :=
    x.camera.asks_readRegister.mono fun _ => Request.Harmless.internal
  refine Script.asks_bind polled fun status => ?_
  refine Script.asks_bind read fun control => ?_
  refine Script.asks_bind (Script.asks_lift ?_) fun outcome => ?_
  · exact x.camera.asks_readFrame (fun _ => Request.Harmless.internal) trivial _
  exact Script.asks_bind (Program.asks_done _) fun _ => Script.asks_pure _

theorem trace_capture {s : Snapshot} (h : Script.Trace x.capture (.ok s) es) :
    Event.Measures x.camera.device es s ∧
    (Event.written x.camera.device RegisterAddress.status.word es).length = 1 := by
  obtain ⟨status, es₁, es₂, hw, h₂, rfl⟩ := Script.trace_bind_ok.mp h
  obtain ⟨control, es₃, es₄, hc, h₃, rfl⟩ := Script.trace_bind_ok.mp h₂
  obtain ⟨⟨result, words⟩, es₅, es₆, hf, h₄, rfl⟩ := Script.trace_bind_ok.mp h₃
  obtain ⟨u, es₇, es₈, hm, h₅, rfl⟩ := Script.trace_bind_ok.mp h₄
  obtain ⟨hs, rfl⟩ := Script.trace_pure.mp h₅
  obtain ⟨hr, rfl⟩ := Program.trace_done.mp hm
  obtain ⟨outcome, ht, ho⟩ := Script.trace_lift.mp hf
  obtain ⟨w, rfl, fresh, seen⟩ := x.camera.sees_poll none _ hw
  obtain ⟨v, rfl, seen'⟩ := x.camera.lastRead_readRegister hc
  obtain rfl := Except.ok.inj ho
  obtain rfl := Except.ok.inj hs
  subst hr
  have frame := x.camera.trace_readFrame ht
  simp only [List.append_nil]
  refine ⟨measures_of_reads fresh seen seen' fun b => (frame b).1, ?_⟩
  have polled := x.camera.asks_poll none _ _ _ hw
  have read := x.camera.asks_readRegister _ _ hc
  rw [Event.written_append, Event.written_append, Event.written_of_harmless polled,
    Event.written_of_harmless read, (frame _).2]
  rfl

def Advances (p : Progress) (s : Snapshot) (p' : Progress) : Prop :=
  s.Valid ∧
    p' = { decoder := (p.decoder.decode x.calibration s p.frame).2.1
           frame := { (p.decoder.decode x.calibration s p.frame).2.2 with
             sequence := p.frame.sequence + 1 } }

/-- A measurement that is not valid ends the program; of a valid one a frame is published. -/
theorem trace_develop {s : Snapshot} {r : Except (Failure ε) Progress}
    (h : Script.Trace (x.develop p s) r es) :
    (∃ fault, r = .error (.library fault) ∧ es = []) ∨
    ∃ p', x.Advances p s p' ∧ r = .ok p' ∧
      es = [⟨.publish p'.frame, ()⟩,
        ⟨.notice (.framePublished p'.frame.sequence s.subpage), ()⟩] := by
  unfold develop at h
  by_cases hs : s.Valid
  · rw [Decoder.decode_eq_ok _ _ _ _ hs] at h
    obtain ⟨u, es₁, h₁, rfl⟩ := Script.trace_request_bind.mp h
    obtain ⟨v, es₂, h₂, rfl⟩ := Script.trace_request_bind.mp h₁
    obtain ⟨hr, rfl⟩ := Script.trace_pure.mp h₂
    exact .inr ⟨_, ⟨hs, rfl⟩, hr, rfl⟩
  · obtain ⟨fault, hf⟩ := Snapshot.validate_of_not_valid hs
    rw [Decoder.decode_of_error _ _ _ _ hf] at h
    obtain ⟨hr, he⟩ := Script.trace_fail.mp h
    exact .inl ⟨fault, hr, he⟩

/-- The events `es` of a cycle that completes with the measurement `s` and makes `p'` of `p`. -/
structure Completes (p : Progress) (s : Snapshot) (p' : Progress) (es : List (Event ε)) :
    Prop where
  measures : Event.Measures x.camera.device es s
  advances : x.Advances p s p'
  published : Event.published es = [p'.frame]
  status_written : (Event.written x.camera.device RegisterAddress.status.word es).length = 1
  unchecked : ∀ e ∈ es, e.isCheck = false

open Request

theorem Completes.wrap {s : Snapshot} {es₁ es₂ : List (Event ε)} (h : x.Completes p s p' es)
    (h₁ : ∀ e ∈ es₁, Idle e.request) (h₂ : ∀ e ∈ es₂, Idle e.request) :
    x.Completes p s p' (es₁ ++ (es ++ es₂)) where
  measures := h.measures.congr fun b => by
    rw [Event.lastRead_append, Event.lastRead_append, Event.lastRead_of_idle h₁,
      Event.lastRead_of_idle h₂, Option.none_or, Option.or_none]
  advances := h.advances
  published := by
    have before := Event.published_of_internal fun e he => (h₁ e he).internal
    have after := Event.published_of_internal fun e he => (h₂ e he).internal
    rw [Event.published_append, Event.published_append, before, after, h.published]
    rfl
  status_written := by
    rw [Event.written_append, Event.written_append, Event.written_of_idle h₁,
      Event.written_of_idle h₂, List.nil_append, List.append_nil, h.status_written]
  unchecked := by
    intro e he
    rcases List.mem_append.mp he with he | he
    · exact Event.isCheck_of_internal (h₁ e he).internal
    · rcases List.mem_append.mp he with he | he
      · exact h.unchecked e he
      · exact Event.isCheck_of_internal (h₂ e he).internal

theorem Completes.of_parts {s : Snapshot} {es₁ es₂ : List (Event ε)}
    (hc : Script.Trace x.capture (.ok s) es₁) (hd : Script.Trace (x.develop p s) (.ok p') es₂) :
    x.Completes p s p' (es₁ ++ es₂) := by
  have internal := x.asks_capture _ _ hc
  obtain ⟨measures, written⟩ := x.trace_capture hc
  rcases x.trace_develop hd with ⟨fault, hr, -⟩ | ⟨q, advances, hr, rfl⟩
  · cases hr
  obtain rfl : p' = q := Except.ok.inj hr
  refine ⟨?_, advances, ?_, ?_, ?_⟩
  · refine measures.congr fun b => ?_
    rw [Event.lastRead_append]
    rfl
  · rw [Event.published_append, Event.published_of_internal internal]
    rfl
  · rw [Event.written_append, List.length_append, written]
    rfl
  · intro e he
    rcases List.mem_append.mp he with he | he
    · exact Event.isCheck_of_internal (internal e he)
    · simp only [List.mem_cons, List.not_mem_nil, or_false] at he
      rcases he with rfl | rfl <;> rfl

theorem trace_measure {r : Except (Failure ε) Progress} (h : Script.Trace (x.measure p) r es) :
    (∃ failure, r = .error failure ∧ ∀ e ∈ es, Internal e.request) ∨
    ∃ s p', r = .ok p' ∧ x.Completes p s p' es := by
  rcases Script.trace_bind.mp h with ⟨failure, hc, rfl⟩ | ⟨s, es₁, es₂, hc, hd, rfl⟩
  · exact .inl ⟨failure, rfl, x.asks_capture _ _ hc⟩
  cases r with
  | ok p' => exact .inr ⟨s, p', rfl, .of_parts x hc hd⟩
  | error failure =>
    rcases x.trace_develop hd with ⟨fault, -, rfl⟩ | ⟨p', -, hr, -⟩
    · rw [List.append_nil]
      exact .inl ⟨failure, rfl, x.asks_capture _ _ hc⟩
    · cases hr

def paceEvent (period elapsed sequence : Nat) : Event ε :=
  if elapsed ≤ period then ⟨.sleep (period - elapsed), ()⟩
  else ⟨.notice (.frameOverran sequence elapsed period), ()⟩

theorem trace_pace {period elapsed sequence : Nat} {r : Except (Failure ε) Unit}
    (h : Script.Trace (pace period elapsed sequence) r es) :
    r = .ok () ∧ es = [paceEvent period elapsed sequence] := by
  unfold pace at h
  unfold paceEvent
  split at h
  · rename_i inTime
    obtain ⟨reply, hr, he⟩ := Script.trace_request.mp h
    rw [if_pos inTime]
    exact ⟨hr, he⟩
  · rename_i late
    obtain ⟨reply, hr, he⟩ := Script.trace_request.mp h
    rw [if_neg late]
    exact ⟨hr, he⟩

theorem asks_pace (period elapsed sequence : Nat) :
    Script.Asks Idle (pace period elapsed sequence : Script ε Unit) := by
  intro r es h e he
  rw [(trace_pace h).2, List.mem_singleton] at he
  subst he
  unfold paceEvent
  split <;> trivial

theorem trace_cycle {period : Nat} {r : Except (Failure ε) Progress}
    (h : Script.Trace (x.cycle period p) r es) :
    (∃ failure, r = .error failure ∧ ∀ e ∈ es, Internal e.request) ∨
    ∃ s p', r = .ok p' ∧ x.Completes p s p' es := by
  obtain ⟨started, es₁, h₁, rfl⟩ := Script.trace_request_bind.mp h
  rcases Script.trace_bind.mp h₁ with ⟨failure, hm, rfl⟩ | ⟨q, es₂, es₃, hm, h₂, rfl⟩
  · rcases x.trace_measure hm with ⟨failure, hf, internal⟩ | ⟨s, p', hf, -⟩
    · exact .inl ⟨_, rfl, List.forall_mem_cons.mpr ⟨trivial, internal⟩⟩
    · cases hf
  rcases x.trace_measure hm with ⟨failure, hf, -⟩ | ⟨s, p', hq, completes⟩
  · cases hf
  obtain rfl : q = p' := Except.ok.inj hq
  -- The clock and the pause around the measurement leave it as it is.
  obtain ⟨ended, es₄, h₃, rfl⟩ := Script.trace_request_bind.mp h₂
  rcases Script.trace_bind.mp h₃ with ⟨failure, hp, -⟩ | ⟨u, es₅, es₆, hp, h₄, rfl⟩
  · cases (trace_pace hp).1
  obtain ⟨hr, rfl⟩ := Script.trace_pure.mp h₄
  have paced := asks_pace _ _ _ _ _ hp
  rw [List.append_nil]
  refine .inr ⟨s, q, hr, ?_⟩
  have before : ∀ e ∈ [(⟨.now, started⟩ : Event ε)], Idle e.request :=
    List.forall_mem_singleton.mpr trivial
  exact completes.wrap x before (List.forall_mem_cons.mpr ⟨trivial, paced⟩)

end Acquisition
end Thermopile
