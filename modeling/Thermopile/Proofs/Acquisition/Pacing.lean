import Thermopile.Proofs.Clock
import Thermopile.Proofs.FrameRate
import Thermopile.Proofs.Simulation.Measurement

namespace Thermopile

/-- Traffic on the bus, sleeps, and reports of polls. -/
def Request.Measuring : Request → Prop
  | exchange .. | send .. | sleep _ | notice (.statusPolled ..) => True
  | _ => False

open Request (Measuring)
open Event (sleeps sleeps_append)

section
variable {ε : Type} {es : List (Event ε)}

theorem Request.Reads.measuring {q : Request} (h : Reads q) : Measuring q := by
  cases q <;> first | exact trivial | exact h.elim

theorem Event.sleeps_of_reads (h : ∀ e ∈ es, Request.Reads e.request) : sleeps es = [] := by
  apply List.filterMap_eq_nil_iff.mpr
  rintro ⟨q, r⟩ he
  have hq := h _ he
  cases q <;> first | rfl | exact hq.elim

end

namespace Camera

variable {ε : Type} (x : Camera) {es : List (Event ε)}

/-- A poll that finds nothing new is followed by a pause, the last one that is allowed excepted. -/
theorem sleeps_poll {wanted : Option Subpage} {polls : Nat} {status : Status}
    (h : Script.Trace (x.poll wanted polls) (.ok status) es) :
    (∀ e ∈ es, Measuring e.request) ∧
      ∃ n < polls, sleeps es = List.replicate n x.config.pollInterval := by
  induction polls generalizing es with
  | zero => cases (Script.trace_fail.mp h).1
  | succ polls ih =>
    obtain ⟨polled, es₁, es₂, hr, hn, rfl⟩ := Script.trace_bind_ok.mp h
    obtain ⟨v, es₃, hrest, rfl⟩ := Script.trace_request_bind.mp hn
    have reads := x.reads_readRegister _ _ hr
    have measuring : ∀ e ∈ es₁, Measuring e.request := fun e he => (reads e he).measuring
    rw [List.forall_mem_append, List.forall_mem_cons, sleeps_append, Event.sleeps_of_reads reads]
    split at hrest
    · obtain ⟨-, rfl⟩ := Script.trace_pure.mp hrest
      exact ⟨⟨measuring, trivial, nofun⟩, 0, Nat.succ_pos polls, rfl⟩
    · split at hrest
      · obtain ⟨v, es₄, hpoll, rfl⟩ := Script.trace_request_bind.mp hrest
        obtain ⟨later, n, hn, slept⟩ := ih hpoll
        refine ⟨⟨measuring, trivial, ?_⟩, n + 1, Nat.succ_lt_succ hn, ?_⟩
        · exact List.forall_mem_cons.mpr ⟨trivial, later⟩
        · rw [List.replicate_succ, ← slept]
          rfl
      · obtain ⟨later, n, hn, slept⟩ := ih hrest
        exact ⟨⟨measuring, trivial, later⟩, n, Nat.lt_succ_of_lt hn, slept⟩

theorem sleeps_readFrame {status : Status} {words words' : RamImage}
    (h : Program.Trace (x.readFrame status words) (.ok (), words') es) :
    (∀ e ∈ es, Measuring e.request) ∧ sleeps es = [x.config.registerSettleDelay] := by
  obtain ⟨⟨result, filled⟩, es₁, es₂, hb, hn, rfl⟩ := Program.trace_bind.mp h
  cases result with
  | error e => cases (Prod.mk.inj (Program.trace_pure.mp hn).1).1
  | ok u =>
    obtain ⟨written, es₃, es₄, hw, hp, rfl⟩ := Program.trace_bind.mp hn
    obtain ⟨he, rfl⟩ := Program.trace_pure.mp hp
    obtain ⟨rfl, rfl⟩ := Prod.mk.inj he
    obtain ⟨reply, rfl⟩ := x.trace_writeRegister_ok hw
    have reads := Transport.asks_readFrom _ _ _ _ _ _ hb
    rw [List.append_nil, List.forall_mem_append, sleeps_append, Event.sleeps_of_reads reads]
    refine ⟨⟨fun e he => (reads e he).measuring, ?_⟩, rfl⟩
    exact List.forall_mem_cons.mpr ⟨trivial, List.forall_mem_singleton.mpr trivial⟩

end Camera

namespace Acquisition

section
variable {ε : Type} (x : Acquisition) {p p' : Progress} {period number started ended : Nat}
  {es : List (Event ε)}

theorem sleeps_capture {s : Snapshot} (h : Script.Trace x.capture (.ok s) es) :
    (∀ e ∈ es, Measuring e.request) ∧ ∃ n < x.camera.config.maxPolls,
      sleeps es = List.replicate n x.camera.config.pollInterval ++
        [x.camera.config.registerSettleDelay] := by
  obtain ⟨status, es₁, es₂, hw, h₂, rfl⟩ := Script.trace_bind_ok.mp h
  obtain ⟨control, es₃, es₄, hc, h₃, rfl⟩ := Script.trace_bind_ok.mp h₂
  obtain ⟨⟨result, words⟩, es₅, es₆, hf, h₄, rfl⟩ := Script.trace_bind_ok.mp h₃
  obtain ⟨u, es₇, es₈, hm, h₅, rfl⟩ := Script.trace_bind_ok.mp h₄
  obtain ⟨-, rfl⟩ := Script.trace_pure.mp h₅
  obtain ⟨hr, rfl⟩ := Program.trace_done.mp hm
  obtain ⟨outcome, ht, ho⟩ := Script.trace_lift.mp hf
  obtain rfl := Except.ok.inj ho
  obtain rfl : result = .ok () := hr.symm
  obtain ⟨polling, n, hn, polled⟩ := x.camera.sleeps_poll hw
  obtain ⟨reading, settled⟩ := x.camera.sleeps_readFrame ht
  have reads := x.camera.reads_readRegister _ _ hc
  simp only [List.append_nil, List.forall_mem_append, sleeps_append, polled, settled,
    Event.sleeps_of_reads reads, List.nil_append]
  exact ⟨⟨polling, fun e he => (reads e he).measuring, reading⟩, n, hn, rfl⟩

/-- The events of a cycle that begins at `started`, has published frame `number` at `ended`, and
then paces itself. -/
def Paced (period number started ended : Nat) (es : List (Event ε)) : Prop :=
  ∃ (reads : List (Event ε)) (frame : Frame Float) (subpage : Subpage) (pauses : Nat),
    es = ⟨.now, started⟩ :: (reads ++
      [⟨.publish frame, ()⟩, ⟨.notice (.framePublished number subpage), ()⟩, ⟨.now, ended⟩,
        paceEvent period (ended - started) number]) ∧
    frame.sequence = number ∧
    (∀ e ∈ reads, Measuring e.request) ∧ pauses < x.camera.config.maxPolls ∧
    sleeps reads = List.replicate pauses x.camera.config.pollInterval ++
      [x.camera.config.registerSettleDelay]

theorem paced_cycle (h : Script.Trace (x.cycle period p) (.ok p') es) :
    ∃ started ended, x.Paced period (p.frame.sequence + 1) started ended es := by
  obtain ⟨started, es₁, h₁, rfl⟩ := Script.trace_request_bind.mp h
  obtain ⟨q, es₂, es₃, hm, h₂, rfl⟩ := Script.trace_bind_ok.mp h₁
  obtain ⟨s, es₄, es₅, hc, hd, rfl⟩ := Script.trace_bind_ok.mp hm
  obtain ⟨ended, es₆, h₃, rfl⟩ := Script.trace_request_bind.mp h₂
  obtain ⟨u, es₇, es₈, hp, h₄, rfl⟩ := Script.trace_bind_ok.mp h₃
  obtain ⟨-, rfl⟩ := Script.trace_pure.mp h₄
  obtain ⟨-, rfl⟩ := trace_pace hp
  obtain ⟨measuring, pauses, hn, slept⟩ := x.sleeps_capture hc
  rcases x.trace_develop hd with ⟨fault, hr, -⟩ | ⟨q', advances, hr, rfl⟩
  · cases hr
  obtain rfl := Except.ok.inj hr
  have numbered : q.frame.sequence = p.frame.sequence + 1 := by rw [advances.2]
  refine ⟨started, ended, es₄, q.frame, s.subpage, pauses, ?_, numbered, measuring, hn, slept⟩
  rw [numbered, List.append_nil, List.append_assoc]
  rfl

theorem sum_sleeps_paceEvent (elapsed : Nat) :
    (sleeps [(paceEvent period elapsed number : Event ε)]).sum = period - elapsed := by
  unfold paceEvent
  by_cases h : elapsed ≤ period
  · rw [if_pos h]
    exact List.sum_singleton
  · rw [if_neg h]
    exact (Nat.sub_eq_zero_of_le (Nat.le_of_not_le h)).symm

theorem Paced.exists_eq (h : x.Paced period number started ended es) :
    ∃ work, es = ⟨.now, started⟩ ::
      (work ++ [⟨.now, ended⟩, paceEvent period (ended - started) number]) := by
  obtain ⟨reads, frame, subpage, pauses, rfl, -⟩ := h
  exact ⟨reads ++ [⟨.publish frame, ()⟩, ⟨.notice (.framePublished number subpage), ()⟩],
    by simp⟩

theorem Paced.clocked {R : Nat → Nat → Prop} {events before rest : List (Event ε)}
    {check : Event ε} {next : Nat} (h : x.Paced period number started ended es)
    (checked : check.isCheck = true)
    (split : events = before ++ (es ++ check :: ⟨.now, next⟩ :: rest))
    (clocked : Event.Clocked R events) :
    ∃ slept, R (started + slept) ended ∧ R (ended + (period - (ended - started))) next := by
  obtain ⟨work, rfl⟩ := h.exists_eq
  have awake : check.request.pause? = none := by
    obtain ⟨q, r⟩ := check
    cases q <;> first | rfl | cases checked
  have slept : (sleeps [paceEvent period (ended - started) number, check]).sum =
      period - (ended - started) := by
    rw [← List.singleton_append, sleeps_append, List.sum_append, sum_sleeps_paceEvent,
      Event.sum_sleeps_cons, awake]
    rfl
  have working : R (started + (sleeps work).sum) ended :=
    clocked before work (paceEvent period (ended - started) number :: check :: ⟨.now, next⟩ :: rest)
      started ended (by simp [split])
  have pacing : R (ended + (period - (ended - started))) next := by
    rw [← slept]
    exact clocked (before ++ ⟨.now, started⟩ :: work)
      [paceEvent period (ended - started) number, check] rest ended next (by simp [split])
  exact ⟨_, working, pacing⟩

theorem Paced.steady {events before rest : List (Event ε)} {check : Event ε} {next : Nat}
    (h : x.Paced period number started ended es) (checked : check.isCheck = true)
    (split : events = before ++ (es ++ check :: ⟨.now, next⟩ :: rest))
    (steady : Event.Steady events) : started + period ≤ next := by
  obtain ⟨slept, working, pacing⟩ := h.clocked x checked split steady
  have atEnd : started + slept ≤ ended := working
  have atNext : ended + (period - (ended - started)) ≤ next := pacing
  omega

theorem Paced.onlySleeps {events before rest : List (Event ε)} {check : Event ε} {next : Nat}
    (h : x.Paced period number started ended es) (checked : check.isCheck = true)
    (split : events = before ++ (es ++ check :: ⟨.now, next⟩ :: rest))
    (onlySleeps : Event.OnlySleeps events) : next = started + max period (ended - started) := by
  obtain ⟨slept, working, pacing⟩ := h.clocked x checked split onlySleeps
  have atEnd : started + slept = ended := working
  have atNext : ended + (period - (ended - started)) = next := pacing
  omega

theorem trace_cycle_begins {r : Except (Failure ε) Progress}
    (h : Script.Trace (x.cycle period p) r es) : ∃ started rest, es = ⟨.now, started⟩ :: rest := by
  obtain ⟨started, rest, -, rfl⟩ := Script.trace_request_bind.mp h
  exact ⟨started, rest, rfl⟩

theorem Rounds.begins {budget : Nat} {r : Except (Failure ε) Ending}
    {segments : List (List (Event ε))} (h : x.Rounds period budget p r segments) :
    ∀ segment ∈ segments, segment ≠ [] → ∃ started rest, segment = ⟨.now, started⟩ :: rest := by
  induction h with
  | unfinished => exact nofun
  | cancelled => exact List.forall_mem_singleton.mpr fun h => absurd rfl h
  | failed budget p fails => exact List.forall_mem_singleton.mpr fun _ => x.trace_cycle_begins fails
  | next traced rounds ih =>
    exact List.forall_mem_cons.mpr ⟨fun _ => x.trace_cycle_begins traced, ih⟩

end

section
variable {ε σ : Type} (x : Acquisition) (budget : Nat) (decoder : Decoder Float) (w : World ε σ)
  (s : σ)

theorem rounds_run :
    Event.cycles ((x.run budget decoder).run.events w s) = [] ∨
    ∃ rate s', x.start.run.run w s = (.ok rate, s') ∧
      x.Rounds rate.period budget ⟨decoder, .empty⟩ ((x.run budget decoder).run.run w s).1
        (Event.cycles ((x.run budget decoder).run.events w s)) := by
  unfold run
  cases begun : x.start.run.run w s with
  | mk result s' =>
    have setsUp := trace_start (Script.trace_of_run begun)
    cases result with
    | error failure =>
      rw [Script.events_bind_error begun, Event.cycles_of_unchecked setsUp.unchecked]
      exact .inl rfl
    | ok rate =>
      rw [Script.events_bind_ok begun, Script.run_bind_ok begun,
        Event.cycles_append setsUp.unchecked]
      exact .inr ⟨rate, s', rfl, (trace_rounds (Program.trace_run w _ s')).2⟩

/-- Each cycle that completes sleeps exactly for what is left of the period when its frame is
published, or reports an overrun and does not; a clock that went back counts as one that stood
still. The period is one second divided by the measurements per second. Where the clock never goes
back and sleeps take their time, the next cycle begins at least one period later. Where time passes
in sleeps only, it begins after the period or the time that was needed, whichever is longer. -/
theorem paces_cycles :
    let events := (x.run budget decoder).run.events w s
    let result := ((x.run budget decoder).run.run w s).1
    let cycles := completed result (Event.cycles events)
    Concludes budget result events cycles ∧
    (∀ failure, result = .error failure →
      x.SetUpFails w s failure ∧ Event.cycles events = [] ∨
        x.FailsInCycle decoder w s cycles.length failure) ∧
    (∀ rate : FrameRate, Single.value? rate.hertz = some rate.perSecond ∧
      (rate.period : Rat) * rate.perSecond = 10 ^ 9) ∧
    (∀ time : σ → Duration, w.ShowsTime (· ≤ ·) time → Event.Steady events) ∧
    (∀ time : σ → Duration, w.ShowsTime (· = ·) time → Event.OnlySleeps events) ∧
    ∀ k cycle, cycles[k]? = some cycle →
      ∃ rate s' started ended, x.start.run.run w s = (.ok rate, s') ∧
        x.Paced rate.period (k + 1) started ended cycle ∧
        ∀ later, (Event.cycles events)[k + 1]? = some later → later ≠ [] →
          ∃ next rest, later = ⟨.now, next⟩ :: rest ∧
            (Event.Steady events → started + rate.period ≤ next) ∧
            (Event.OnlySleeps events → next = started + max rate.period (ended - started)) := by
  intro events result cycles
  refine ⟨concludes_run (Program.trace_run w (x.run budget decoder).run s),
    fun failure => run_eq_error, fun rate => ⟨rate.value?_hertz, rate.period_mul_perSecond⟩,
    fun time shows => Program.steady_events shows _ s,
    fun time shows => Program.onlySleeps_events shows _ s, fun k cycle hk => ?_⟩
  have listed := getElem?_of_completed hk
  rcases x.rounds_run budget decoder w s with none | ⟨rate, s', begun, rounds⟩
  · rw [none] at listed
    cases listed
  obtain ⟨q, q', number, traced⟩ := rounds.exists_trace hk
  obtain ⟨started, ended, paced⟩ := x.paced_cycle traced
  have first : q.frame.sequence = k := number.trans (Nat.zero_add k)
  rw [first] at paced
  refine ⟨rate, s', started, ended, begun, paced, fun later hl nonempty => ?_⟩
  obtain ⟨next, rest, rfl⟩ := rounds.begins x later (List.mem_of_getElem? hl) nonempty
  obtain ⟨before, check, after, checked, split⟩ := Event.exists_eq_of_cycles listed hl
  exact ⟨next, rest, rfl, paced.steady x checked split, paced.onlySleeps x checked split⟩

end

open Simulation

/-- A clock that starts at 0, and moves on when somebody sleeps. -/
def timekeeping (s : Device × Duration) (q : Request) : q.Reply BusFault × Duration :=
  match q with
  | .exchange .. => (.error (.nack 0), s.2)
  | .send .. => (.error (.nack 0), s.2)
  | .sleep time => ((), s.2 + time)
  | .now => (s.2, s.2)
  | .cancelled => (false, s.2)
  | .publish _ | .finish | .notice _ => ((), s.2)

theorem showsTime_timekeeping : (Device.world timekeeping).ShowsTime (· = ·) Prod.snd where
  reads _ := rfl
  passes _ q := by cases q <;> rfl

/-- Both measurements of the camera are read, and the first cycle lasts one period. -/
theorem paces_cycles_two_images :
    let run := (watch.run 2 (Decoder.ofConfig .default)).run
    let events := run.events (Device.world timekeeping) (twoImages, 0)
    let result := (run.run (Device.world timekeeping) (twoImages, 0)).1
    result = .ok .unfinished ∧
    ∃ cycle later, Event.cycles events = [cycle, later] ∧ later ≠ [] ∧ Event.OnlySleeps events ∧
      ∃ (rate : FrameRate) (started ended next : Duration) (rest : List (Event BusFault)),
        watch.Paced rate.period 1 started ended cycle ∧ later = ⟨.now, next⟩ :: rest ∧
        started + rate.period ≤ next ∧ next = started + max rate.period (ended - started) := by
  intro run events result
  have source : watch.Supply (Device.world timekeeping) fun t l =>
      t.1.Offers cameraAddress false l := supply (Nat.zero_lt_succ _)
  have unfinished : result = .ok .unfinished :=
    source.run_eq_unfinished (start_succeeds offers_twoImages) valid_twoImages
      (Program.not_stop_mem (fun _ => rfl) run _) (Nat.le_of_eq length_series_twoImages.symm)
  obtain ⟨concludes, -, -, -, onlySleeps, paced⟩ :=
    paces_cycles watch 2 (Decoder.ofConfig .default) (Device.world timekeeping) (twoImages, 0)
  have only : Event.OnlySleeps events := onlySleeps _ showsTime_timekeeping
  obtain ⟨all, count⟩ := concludes.unfinished unfinished
  obtain ⟨cycle, later, cycles⟩ := List.length_eq_two.mp count
  rw [cycles] at all
  have nonempty : later ≠ [] := by
    obtain ⟨_, _, started, ended, -, second, -⟩ := paced 1 later (by rw [cycles]; rfl)
    obtain ⟨work, rfl⟩ := second.exists_eq
    exact List.cons_ne_nil _ _
  obtain ⟨rate, -, started, ended, -, first, following⟩ :=
    paced 0 cycle (by rw [cycles]; rfl)
  obtain ⟨next, rest, begins, apart, exactly⟩ := following later (by rw [all]; rfl) nonempty
  exact ⟨unfinished, cycle, later, all, nonempty, only, rate, started, ended, next, rest, first,
    begins, apart only.steady, exactly only⟩

end Acquisition
end Thermopile
