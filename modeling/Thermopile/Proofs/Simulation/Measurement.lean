import Thermopile.Proofs.Acquisition.Ending
import Thermopile.Proofs.Acquisition.Publication
import Thermopile.Proofs.Simulation.Camera

namespace Thermopile.Simulation

variable {τ : Type} {other : Device × τ → (q : Request) → q.Reply BusFault × τ} {s : Device × τ}
  {l : List Snapshot} {m : Snapshot}

theorem report_succeeds (n : Notice) :
    Script.Succeeds (Device.world other) (Script.report n) s fun _ _ s' => s'.1 = s.1 :=
  .request rfl

section
variable {x : Camera} {more : Bool}

theorem readStatus_succeeds (h : s.1.Cooperative x.device) :
    Script.Succeeds (Device.world other) (x.readRegister Status) s fun r _ s' =>
      r = s.1.status ∧ s.1.Alike s'.1 := readRegister_succeeds h Status

theorem readControl_succeeds (h : s.1.Cooperative x.device) :
    Script.Succeeds (Device.world other) (x.readRegister Control) s fun r _ s' =>
      r = s.1.control ∧ s.1.Alike s'.1 := readRegister_succeeds h Control

theorem poll_succeeds (h : s.1.Cooperative x.device) (fresh : s.1.status.newData = true)
    (polls : Nat) :
    Script.Succeeds (Device.world other) (x.poll none (polls + 1)) s fun status _ s' =>
      status = s.1.status ∧ s.1.Alike s'.1 := by
  unfold Camera.poll
  refine .bind (readStatus_succeeds h) ?_
  rintro status _ s₁ ⟨rfl, alike⟩
  refine .bind (report_succeeds _) fun _ _ s₂ (h₂ : s₂.1 = s₁.1) => ?_
  rw [if_pos ⟨fresh, rfl⟩]
  exact .pure ⟨rfl, h₂ ▸ alike⟩

theorem poll_fails (h : s.1.Cooperative x.device) (old : s.1.status.newData = false) (polls : Nat) :
    Script.Fails (Device.world other) (x.poll none polls) s fun _ => True := by
  induction polls generalizing s with
  | zero => exact ⟨_, _, rfl, trivial⟩
  | succ polls ih =>
    unfold Camera.poll
    refine (readStatus_succeeds h).bind_fails ?_
    rintro status _ s₁ ⟨rfl, alike⟩
    refine (report_succeeds _).bind_fails fun _ _ s₂ h₂ => ?_
    -- Looking at the flag does not set it, so the next poll starts from the same camera.
    have still (s₃ : Device × τ) (h₃ : s₃.1 = s₂.1) :
        Script.Fails (Device.world other) (x.poll none polls) s₃ fun _ => True := by
      rw [h₂] at h₃
      rw [← h₃] at alike
      exact ih (h.alike alike) (alike.status ▸ old)
    have waiting (P : Prop) : ¬(s.1.status.newData = true ∧ P) := fun ready =>
      absurd (old.symm.trans ready.1) Bool.false_ne_true
    rw [if_neg (waiting _)]
    by_cases more : polls ≠ 0
    · rw [if_pos more]
      have rested : Script.Succeeds (Device.world other) (Script.sleep x.config.pollInterval) s₂
          fun _ _ s' => s'.1 = s₂.1 := .request rfl
      exact rested.bind_fails fun _ _ s₃ h₃ => still s₃ h₃
    · rw [if_neg more]
      exact still s₂ rfl

theorem run_readFrame (h : s.1.Cooperative x.device) (status : Status) (words : RamImage) :
    ∃ s', (x.readFrame status words).run (Device.world other) s = ((.ok (), s.1.ram), s') ∧
      (s.1.store RegisterAddress.status.word status.clearNewData.toWord).Alike s'.1 := by
  obtain ⟨s₁, hr, alike⟩ := (Device.answers other h).run_readBlock (.refl s.1)
    (AddressSpace.address RamAddress.base) words
  have write : Script.Succeeds (Device.world other) (x.writeRegister status.clearNewData) s₁
      fun _ _ s' =>
        (s₁.1.store RegisterAddress.status.word status.clearNewData.toWord).Alike s'.1 :=
    writeRegister_succeeds (h.alike alike) status.clearNewData
  obtain ⟨u, s₂, hw, stored⟩ := write
  refine ⟨s₂, ?_, (alike.store _ _).trans stored⟩
  unfold Camera.readFrame
  rw [Program.run_bind, hr]
  change Program.run _ (ExceptT.run (x.writeRegister _) >>= fun r => pure (r, _)) s₁ = _
  rw [Program.run_bind, hw]
  rfl

theorem writeControl_succeeds (h : s.1.Offers x.device more l) {c : Control}
    (hp : c.accessPattern = s.1.control.accessPattern)
    (hr : c.resolution = s.1.control.resolution) :
    Script.Succeeds (Device.world other) (x.writeRegister c) s
      fun _ _ s' => s'.1.Offers x.device more l := by
  refine (writeRegister_succeeds h.cooperative c).mono fun _ _ s' stored => ?_
  have hw : Control.ofWord c.toWord = c := c.ofWord_toWord
  have poked : (s.1.poke RegisterAddress.control.word c.toWord).Offers x.device more l :=
    h.write_control (by rw [hw, hp]) (by rw [hw, hr])
  exact poked.alike stored

theorem setFrameRate_succeeds (h : s.1.Offers x.device more l) (rate : FrameRate) :
    Script.Succeeds (Device.world other) (x.set .frameRate rate) s
      fun _ _ s' => s'.1.Offers x.device more l := by
  refine .bind (readControl_succeeds h.cooperative) ?_
  rintro control _ s₁ ⟨rfl, alike⟩
  have hp : s.1.control.accessPattern = s₁.1.control.accessPattern := by rw [alike.control]
  have hr : s.1.control.resolution = s₁.1.control.resolution := by rw [alike.control]
  by_cases changed : Setting.frameRate.field.get s.1.control ≠ rate
  · rw [if_pos changed]
    exact writeControl_succeeds (h.alike alike) hp hr
  · rw [if_neg changed]
    exact .pure (h.alike alike)

theorem reset_succeeds (h : s.1.Offers x.device more l) :
    Script.Succeeds (Device.world other) (Script.onBus Transport.reset) s fun _ _ s' =>
      s'.1.Offers x.device more l ∧ s'.1.control.startMeasurement = false := by
  obtain ⟨d', hs, alike⟩ := Device.send_reset_eq h.cooperative
  have hr : Transport.reset.run (Device.world other) s = (.ok (), (d', s.2)) := by
    change ((s.1.send _ _).1, ((s.1.send _ _).2, s.2)) = _
    rw [hs]
  have begun := Control.ofWord_clear_start (s.1.peek RegisterAddress.control.word)
  refine ⟨(), _, Script.run_onBus hr, (h.write_control ?_ ?_).alike alike, ?_⟩
  · rw [begun]
    rfl
  · rw [begun]
    rfl
  · rw [alike.control, Device.control, Device.peek_poke, if_pos rfl, begun]

theorem trigger_succeeds (h : s.1.Offers x.device more l) :
    Script.Succeeds (Device.world other) x.trigger s
      fun _ _ s' => s'.1.Offers x.device more l := by
  refine .bind (readControl_succeeds h.cooperative) ?_
  rintro control _ s₁ ⟨rfl, alike⟩
  have hp : s.1.control.accessPattern = s₁.1.control.accessPattern := by rw [alike.control]
  have hr : s.1.control.resolution = s₁.1.control.resolution := by rw [alike.control]
  refine .bind (writeControl_succeeds (h.alike alike) hp hr)
    fun _ _ s₂ (h₂ : s₂.1.Offers x.device more l) => ?_
  refine .bind (reset_succeeds h₂) ?_
  rintro _ _ s₃ ⟨h₃, begun⟩
  have rested : Script.Succeeds (Device.world other) (Script.sleep x.config.resetDelay) s₃
      fun _ _ s' => s'.1 = s₃.1 := .request rfl
  refine .bind rested fun _ _ s₄ h₄ => ?_
  rw [← h₄] at h₃ begun
  refine .bind (readControl_succeeds h₃.cooperative) ?_
  rintro control _ s₅ ⟨rfl, alike'⟩
  rw [begun, if_neg Bool.false_ne_true]
  exact (report_succeeds _).mono fun _ _ s₆ h₆ => h₆ ▸ h₃.alike alike'

end

section
variable {x : Acquisition} {more : Bool}

theorem start_succeeds (h : s.1.Offers x.camera.device more l) :
    Script.Succeeds (Device.world other) x.start s
      fun _ _ s' => s'.1.Offers x.camera.device more l := by
  have rest (s : Device × τ) (h : s.1.Offers x.camera.device more l) :
      Script.Succeeds (Device.world other) (do
      let rate ← x.camera.get .frameRate
      x.camera.trigger
      Script.report (.acquisitionStarted rate)
      return rate : Script BusFault FrameRate) s
        fun _ _ s' => s'.1.Offers x.camera.device more l := by
    have got : Script.Succeeds (Device.world other) (x.camera.get .frameRate) s
        fun _ _ s' => s'.1.Offers x.camera.device more l := by
      refine .bind (readControl_succeeds h.cooperative) ?_
      rintro control _ s₁ ⟨-, alike⟩
      exact .pure (h.alike alike)
    refine .bind got fun rate _ s₁ h₁ => ?_
    refine .bind (trigger_succeeds h₁)
      fun _ _ s₂ (h₂ : s₂.1.Offers x.camera.device more l) => ?_
    refine .bind (report_succeeds _) fun _ _ s₃ h₃ => ?_
    exact .pure (h₃ ▸ h₂)
  unfold Acquisition.start
  cases x.config.frameRate with
  | none => exact rest s h
  | some rate => exact .bind (setFrameRate_succeeds h rate) fun _ _ s₁ h₁ => rest s₁ h₁

theorem capture_succeeds (polls : 0 < x.camera.config.maxPolls)
    (h : s.1.Offers x.camera.device more (m :: l)) :
    Script.Succeeds (Device.world other) x.capture s
      fun a _ s' => a = m ∧ s'.1.Offers x.camera.device more l := by
  obtain ⟨fresh, series⟩ := h.newData
  obtain ⟨n, hn⟩ : ∃ n, x.camera.config.maxPolls = n + 1 :=
    Nat.exists_eq_succ_of_ne_zero (Nat.pos_iff_ne_zero.mp polls)
  unfold Acquisition.capture Camera.waitForData
  rw [hn]
  refine .bind (poll_succeeds h.cooperative fresh n) ?_
  rintro status _ s₁ ⟨rfl, alike₁⟩
  refine .bind (readControl_succeeds (h.cooperative.alike alike₁)) ?_
  rintro control _ s₂ ⟨rfl, alike₂⟩
  have alike := alike₁.trans alike₂
  obtain ⟨s₃, hr, stored⟩ : ∃ s₃, (x.camera.readFrame s.1.status (Vector.replicate ramSize 0)).run
      (Device.world other) s₂ = ((.ok (), s₂.1.ram), s₃) ∧
      (s₂.1.store RegisterAddress.status.word s.1.status.clearNewData.toWord).Alike s₃.1 :=
    run_readFrame (h.cooperative.alike alike) s.1.status _
  have frame : Script.Succeeds (Device.world other)
      (ExceptT.lift (x.camera.readFrame s.1.status (Vector.replicate ramSize 0))) s₂
      fun a _ s' => a = (.ok (), s₂.1.ram) ∧ s' = s₃ := ⟨_, _, Script.run_lift hr, rfl, rfl⟩
  refine .bind frame ?_
  rintro _ _ s₄ ⟨rfl, h₄⟩
  refine .bind (Q := fun _ _ s' => s' = s₄) ⟨(), s₄, rfl, rfl⟩ fun _ _ s₅ h₅ => ?_
  refine .pure ⟨?_, ?_⟩
  · rw [(List.cons.inj series).1, alike.ram, alike₁.control]
    rfl
  · rw [h₅, h₄]
    exact h.clear.alike ((alike.store _ _).trans stored)

theorem capture_fails (h : s.1.Offers x.camera.device false []) :
    Script.Fails (Device.world other) x.capture s fun es => ∀ e ∈ es, e.request.Harmless :=
  ((poll_fails h.cooperative h.exhausted _).asks (x.camera.asks_poll none _)).bind

theorem supply (polls : 0 < x.camera.config.maxPolls) :
    x.Supply (Device.world other) fun s l => s.1.Offers x.camera.device more l where
  kept q hq h := by rwa [Device.world_fst hq]
  capture h := capture_succeeds polls h

theorem limited :
    x.Limited (Device.world other) fun s l => s.1.Offers x.camera.device false l :=
  fun _ h => capture_fails h

end

/-- A run takes the camera's measurements one by one. The status is written once in each cycle that
completes, and not in the set-up. What is published is made of as many of the measurements as there
are such cycles: the one in the RAM first, then those that are ready, in their order and with
alternating subpages. Unless it is told to stop, a run completes as many cycles as its budget
allows, up to the number of the measurements; only when all of them have been read can it fail. -/
theorem measures_series (other : Device × τ → (q : Request) → q.Reply BusFault × τ)
    (s : Device × τ) (x : Acquisition) (budget : Nat) (decoder : Decoder Float)
    (polls : 0 < x.camera.config.maxPolls) (cooperative : s.1.Cooperative x.camera.device)
    (fresh : s.1.status.newData = true) (valid : ∀ m ∈ s.1.series, m.Valid) :
    let result := ((x.run budget decoder).run.run (Device.world other) s).1
    let events := (x.run budget decoder).run.events (Device.world other) s
    let cycles := Acquisition.completed result (Event.cycles events)
    let measured := s.1.series.take cycles.length
    let ready := s.1.measurements.length + 1
    Acquisition.Concludes budget result events cycles ∧
    (∀ failure, result = .error failure → ready ≤ cycles.length ∧ cycles.length < budget) ∧
    (Event.stop ∉ events → budget ≤ ready → result = .ok .unfinished ∧ cycles.length = budget) ∧
    (s.1.repeats = false → cycles.length ≤ ready) ∧
    (∀ es ∈ cycles,
      (Event.written x.camera.device RegisterAddress.status.word es).length = 1) ∧
    Event.written x.camera.device RegisterAddress.status.word (Event.setUp events) = [] ∧
    (s.1.repeats = false ∨ (∃ ending, result = .ok ending) →
      (Event.written x.camera.device RegisterAddress.status.word events).length =
        cycles.length) ∧
    (cycles.length ≤ ready →
      List.Forall₂ (Event.Measures x.camera.device) cycles measured ∧
      Event.published events = Acquisition.decodedFrames decoder x.calibration measured ∧
      (Event.published events).map Frame.subpage = measured.map fun m => some m.subpage) := by
  intro result events cycles measured ready
  have offers : s.1.Offers x.camera.device s.1.repeats s.1.series :=
    ⟨cooperative, rfl, .inl ⟨fresh, rfl⟩⟩
  have source : x.Supply (Device.world other) fun t l =>
      t.1.Offers x.camera.device s.1.repeats l := supply polls
  have bounded (once : s.1.repeats = false) : x.Limited (Device.world other) fun t l =>
      t.1.Offers x.camera.device s.1.repeats l := by
    rw [once]
    exact limited
  obtain ⟨snapshots, course, same, all, limit, written⟩ :=
    source.run budget decoder (start_succeeds offers) valid
  have trace : Script.Trace (x.run budget decoder) result events :=
    Program.trace_run (Device.world other) (x.run budget decoder).run s
  have setsUp := (Acquisition.trace_run trace).1
  have concludes := Acquisition.concludes_run trace
  have count : cycles.length = snapshots.length := course.measures.length_eq
  rw [Device.length_series, ← count] at same all limit
  rw [← count] at written
  have fails (failure) (failed : result = .error failure) :
      ready ≤ cycles.length ∧ cycles.length < budget := by
    rw [count]
    exact ⟨count ▸ all failure failed, course.length_lt fun done => nomatch failed.symm.trans done⟩
  refine ⟨concludes, fails, fun unstopped enough => ?_, fun once => limit (bounded once),
    course.status_written, setsUp.status_written, fun ends => written (ends.imp_left bounded),
    fun within => ?_⟩
  · have unfinished : result = .ok .unfinished :=
      source.run_eq_unfinished (start_succeeds offers) valid unstopped
        (Device.length_series.symm ▸ enough)
    exact ⟨unfinished, (concludes.unfinished unfinished).2⟩
  · have measuring : snapshots = measured := by
      rwa [List.take_of_length_le (count ▸ within)] at same
    rw [measuring] at course
    have published : Event.published events =
        Acquisition.decodedFrames decoder x.calibration measured := by
      rw [Event.published_eq_cycles, setsUp.published, List.nil_append]
      exact course.published_eq_decodedFrames.2
    refine ⟨course.measures, published, ?_⟩
    rw [published, Acquisition.subpage_decodedFrames]
    exact fun m hm => valid m (List.mem_of_mem_take hm)

/-- A camera with zeros in its RAM, new data, and one measurement that is ready. -/
def twoImages : Device :=
  ({ memory := Vector.replicate memorySize 0, measurements := [Vector.replicate ramSize 1] } :
    Device).poke RegisterAddress.status.word 8

def watch : Acquisition where
  camera := ⟨cameraAddress, {}⟩
  calibration := Calibration.ofImage (Vector.replicate eepromSize 0)
  config := {}

theorem peek_twoImages (a : Word) (h : RegisterAddress.status.word ≠ a) : twoImages.peek a = 0 := by
  rw [twoImages, Device.peek_poke, if_neg h]
  exact Vector.getElem_replicate a.toNat_lt

theorem status_twoImages : twoImages.status = Status.ofWord 8 := Device.status_poke 8

theorem newData_twoImages : twoImages.status.newData = true := by
  rw [status_twoImages]
  decide

theorem ram_twoImages : ∀ w ∈ twoImages.ram, w ≠ invalidWord := by
  intro w hw
  obtain ⟨i, hi, rfl⟩ := Vector.mem_iff_getElem.mp hw
  rw [Device.ram, Vector.getElem_ofFn, peek_twoImages _ (Device.ram_ne_register _ .status)]
  decide

theorem valid_twoImages : ∀ m ∈ twoImages.series, m.Valid := by
  apply Device.valid_series
  refine List.forall_mem_cons.mpr ⟨ram_twoImages, List.forall_mem_singleton.mpr fun w hw => ?_⟩
  rw [(Vector.mem_replicate.mp hw).2]
  decide

theorem length_series_twoImages : twoImages.series.length = 2 := Device.length_series

theorem cooperative_twoImages : twoImages.Cooperative cameraAddress :=
  ⟨rfl, by decide, rfl, rfl, rfl, rfl⟩

theorem offers_twoImages : twoImages.Offers cameraAddress false twoImages.series where
  cooperative := cooperative_twoImages
  repeats := rfl
  offered := .inl ⟨newData_twoImages, rfl⟩

/-- A run of two cycles on a camera that has another address and goes on after its measurements. -/
theorem measures_series_two_images :
    let camera := { twoImages with address := 0x30, repeats := true }
    let x := { watch with camera := ⟨0x30, {}⟩ }
    let run := (x.run 2 (Decoder.ofConfig .default)).run
    let events := run.events (Device.world undisturbed) (camera, ())
    camera.Cooperative x.camera.device ∧ camera.status.newData = true ∧
    (∀ m ∈ camera.series, m.Valid) ∧
    (run.run (Device.world undisturbed) (camera, ())).1 = .ok .unfinished ∧
    (Event.cycles events).length = 2 ∧
    (Event.written 0x30 RegisterAddress.status.word events).length = 2 ∧
    Event.published events =
      Acquisition.decodedFrames (Decoder.ofConfig .default) x.calibration camera.series ∧
    (Event.published events).map Frame.subpage = [some .zero, some .one] := by
  intro camera x run events
  have cooperative : camera.Cooperative x.camera.device :=
    { cooperative_twoImages with address := rfl, individual := by decide }
  have fresh : camera.status.newData = true := newData_twoImages
  have valid : ∀ m ∈ camera.series, m.Valid := valid_twoImages
  have unstopped : Event.stop ∉ events := Program.not_stop_mem (fun _ => rfl) run _
  obtain ⟨concludes, -, completes, -, -, -, written, decoded⟩ :=
    measures_series undisturbed (camera, ()) x 2 (Decoder.ofConfig .default) (Nat.zero_lt_succ _)
      cooperative fresh valid
  obtain ⟨unfinished, count⟩ := completes unstopped (Nat.le_refl 2)
  obtain ⟨-, published, subpages⟩ := decoded (Nat.le_of_eq count)
  have all : camera.series.take 2 = camera.series :=
    List.take_of_length_le (Nat.le_of_eq length_series_twoImages)
  have first : camera.status = Status.ofWord 8 := status_twoImages
  rw [count, all] at published subpages
  refine ⟨cooperative, fresh, valid, unfinished, ?_, ?_, published, ?_⟩
  · rw [(concludes.unfinished unfinished).1, count]
  · rw [written (.inr ⟨_, unfinished⟩), count]
  · rw [subpages]
    change [some camera.status.lastSubpage, some camera.status.lastSubpage.other] = _
    rw [first]
    rfl

/-- The program is told to stop as soon as its camera has nothing new. -/
def untilNothingNew (s : Device × Unit) (q : Request) : q.Reply BusFault × Unit :=
  match q with
  | .cancelled => (!s.1.status.newData, ())
  | q => undisturbed s q

/-- The first check is before the only measurement is read, and the second one after it: the frame
is published although the request to stop came when its cycle had only begun. -/
theorem stops_at_check_or_first_failure_late :
    let decoder := Decoder.ofConfig .default
    let s := ({ twoImages with measurements := [] }, ())
    ∃ before after, (watch.run 2 decoder).run.events (Device.world untilNothingNew) s =
        before ++ after ∧
      (∀ e ∈ after, e.isCheck = true → e = .stop) ∧ (Event.published after).length = 1 ∧
      ((watch.run 2 decoder).run.run (Device.world untilNothingNew) s).1 = .ok .cancelled := by
  intro decoder s
  have fresh : s.1.status.newData = true := newData_twoImages
  have valid : ∀ m ∈ s.1.series, m.Valid :=
    Device.valid_series (List.forall_mem_singleton.mpr ram_twoImages)
  obtain ⟨m, hm⟩ : ∃ m, s.1.series = [m] := List.length_eq_one_iff.mp Device.length_series
  have offers : s.1.Offers cameraAddress false [m] :=
    ⟨{ cooperative_twoImages with }, rfl, .inl ⟨fresh, hm.symm⟩⟩
  have source : watch.Supply (Device.world untilNothingNew) fun s l =>
      s.1.Offers cameraAddress false l := supply (Nat.zero_lt_succ _)
  obtain ⟨rate, s₁, begun, offers₁⟩ : Script.Succeeds (Device.world untilNothingNew) watch.start s
      fun _ _ s' => s'.1.Offers cameraAddress false [m] := start_succeeds offers
  have goOn : ((Device.world untilNothingNew).reply s₁ .cancelled).1 = false :=
    congrArg not offers₁.newData.1
  obtain ⟨p', s₂, completed, completes, offers₂⟩ :=
    source.cycle (p := ⟨decoder, .empty⟩) offers₁ (valid m (hm ▸ List.mem_singleton_self m))
  have told : ((Device.world untilNothingNew).reply s₂ .cancelled).1 = true :=
    congrArg not offers₂.exhausted
  have events : (watch.run 2 decoder).run.events (Device.world untilNothingNew) s =
      (watch.start.run.events (Device.world untilNothingNew) s ++ [⟨.cancelled, false⟩]) ++
        ((watch.cycle rate.period ⟨decoder, .empty⟩).run.events (Device.world untilNothingNew) s₁ ++
          [.stop]) := by
    rw [Acquisition.run, Script.events_bind_ok begun,
      Acquisition.events_cycles_of_completes goOn completed,
      Acquisition.events_cycles_of_told told, List.append_assoc]
    rfl
  refine ⟨_, _, events, ?_, ?_, ?_⟩
  · intro e he checked
    rcases List.mem_append.mp he with he | he
    · rw [completes.unchecked e he] at checked
      cases checked
    · exact List.mem_singleton.mp he
  · rw [Event.published_append, completes.published]
    rfl
  · apply (Acquisition.stops_at_check_or_first_failure watch 2 decoder _ s).2.2.2.1.mpr
    rw [events]
    simp

end Thermopile.Simulation
