import Thermopile.Proofs.Acquisition.Stop
import Thermopile.Proofs.Run

namespace Thermopile.Acquisition

open Event (stop)

section
variable {ε σ : Type} (x : Acquisition) (w : World ε σ)

def adjust : Script ε Unit :=
  match x.config.frameRate with
  | none => return
  | some rate => x.camera.set .frameRate rate

theorem start_eq : (x.start : Script ε FrameRate) = do
    x.adjust
    let rate ← x.camera.get .frameRate
    x.camera.trigger
    Script.report (.acquisitionStarted rate)
    return rate := by
  unfold start adjust
  cases x.config.frameRate <;> rfl

/-- From `s` on, a step of the set-up fails with `failure`, and those before it succeed. -/
inductive SetUpFails (s : σ) (failure : Failure ε) : Prop
  | adjust (fails : Script.FailsWith w x.adjust s failure)
  | query {s' : σ} (adjusted : x.adjust.run.run w s = (.ok (), s'))
      (fails : Script.FailsWith w (x.camera.get .frameRate) s' failure)
  | trigger {rate : FrameRate} {s' s'' : σ} (adjusted : x.adjust.run.run w s = (.ok (), s'))
      (queried : (x.camera.get .frameRate).run.run w s' = (.ok rate, s''))
      (fails : Script.FailsWith w x.camera.trigger s'' failure)

/-- From `s` on, a step of the measurement after `p` fails with `failure`, and those before it
succeed. -/
inductive MeasureFails (p : Progress) (s : σ) (failure : Failure ε) : Prop
  | wait (fails : Script.FailsWith w (x.camera.waitForData none) s failure)
  | settings {status : Status} {s' : σ}
      (waited : (x.camera.waitForData none).run.run w s = (.ok status, s'))
      (fails : Script.FailsWith w (x.camera.readRegister Control) s' failure)
  | read {status : Status} {control : Control} {s' s'' : σ}
      (waited : (x.camera.waitForData none).run.run w s = (.ok status, s'))
      (queried : (x.camera.readRegister Control).run.run w s' = (.ok control, s''))
      (fails : ((x.camera.readFrame status (.replicate ramSize 0)).run w s'').1.1 = .error failure)
  | decode {m : Snapshot} {s' : σ} {fault : Fault}
      (captured : x.capture.run.run w s = (.ok m, s'))
      (fails : (p.decoder.decode x.calibration m p.frame).1 = .error fault)
      (library : failure = .library fault)

/-- From `s` and `p` on, `n` checks are answered with no, and the cycles after them complete. That
leads to the next check. -/
inductive Passes (period : Nat) : Nat → Progress → σ → Progress → σ → Prop
  | none (p : Progress) (s : σ) : Passes period 0 p s p s
  | next {n : Nat} {p p' p'' : Progress} {s s' s'' : σ}
      (goOn : (w.reply s .cancelled).1 = false)
      (completes : (x.cycle period p).run.run w (w.reply s .cancelled).2 = (.ok p', s'))
      (passes : Passes period n p' s' p'' s'') : Passes period (n + 1) p s p'' s''

/-- A run ends with `r` at a check, or in the cycle after it. -/
inductive EndsAt (p : Progress) (s : σ) : Except (Failure ε) Ending → Prop
  | cancelled (answer : (w.reply s .cancelled).1 = true) : EndsAt p s (.ok .cancelled)
  | failed {failure : Failure ε} (goOn : (w.reply s .cancelled).1 = false)
      (fails : x.MeasureFails w p (w.reply (w.reply s .cancelled).2 .now).2 failure) :
      EndsAt p s (.error failure)

variable {x w} {p q : Progress} {s t : σ} {failure : Failure ε}

open Script (FailsWith failsWith_bind)

theorem failsWith_start : FailsWith w x.start s failure ↔ x.SetUpFails w s failure := by
  rw [start_eq]
  constructor
  · intro fails
    rcases failsWith_bind.mp fails with fails | ⟨_, s', adjusted, fails⟩
    · exact .adjust fails
    rcases failsWith_bind.mp fails with fails | ⟨rate, s'', queried, fails⟩
    · exact .query adjusted fails
    rcases failsWith_bind.mp fails with fails | ⟨_, s''', -, fails⟩
    · exact .trigger adjusted queried fails
    · cases fails
  · intro fails
    apply failsWith_bind.mpr
    rcases fails with fails | ⟨adjusted, fails⟩ | ⟨adjusted, queried, fails⟩
    · exact .inl fails
    · exact .inr ⟨(), _, adjusted, failsWith_bind.mpr (.inl fails)⟩
    · refine .inr ⟨(), _, adjusted, failsWith_bind.mpr (.inr ⟨_, _, queried, ?_⟩)⟩
      exact failsWith_bind.mpr (.inl fails)

theorem failsWith_develop {m : Snapshot} : FailsWith w (x.develop p m) s failure ↔
    ∃ fault, (p.decoder.decode x.calibration m p.frame).1 = .error fault ∧
      failure = .library fault := by
  unfold develop
  rcases p.decoder.decode x.calibration m p.frame with ⟨r, decoder, frame⟩
  cases r with
  | error fault =>
    constructor
    · intro fails
      cases fails
      exact ⟨fault, rfl, rfl⟩
    · rintro ⟨_, ⟨⟩, rfl⟩
      rfl
  | ok =>
    constructor
    · intro fails
      cases fails
    · rintro ⟨_, ⟨⟩, -⟩

/-- Reading the frame out of the camera is the last step of a measurement that can fail, and nothing
that follows it changes the failure. -/
theorem failsWith_read {status : Status} {control : Control} :
    FailsWith w (do
      let (result, words) ← ExceptT.lift (x.camera.readFrame status (.replicate ramSize 0))
      ExceptT.mk (.done result)
      return Snapshot.ofRegisters words status control) s failure ↔
    ((x.camera.readFrame status (.replicate ramSize 0)).run w s).1.1 = .error failure := by
  rw [Script.failsWith_lift_bind]
  rcases (x.camera.readFrame status (.replicate ramSize 0)).run w s with ⟨⟨result, words⟩, s'⟩
  cases result with
  | error e =>
    constructor
    · intro fails
      cases fails
      rfl
    · intro fails
      cases fails
      rfl
  | ok => exact ⟨nofun, nofun⟩

theorem failsWith_measure : FailsWith w (x.measure p) s failure ↔ x.MeasureFails w p s failure := by
  constructor
  · intro fails
    rcases failsWith_bind.mp fails with fails | ⟨m, s₁, captured, fails⟩
    · rcases failsWith_bind.mp fails with fails | ⟨status, s', waited, fails⟩
      · exact .wait fails
      rcases failsWith_bind.mp fails with fails | ⟨control, s'', queried, fails⟩
      · exact .settings waited fails
      · exact .read waited queried (failsWith_read.mp fails)
    · obtain ⟨fault, fails, library⟩ := failsWith_develop.mp fails
      exact .decode captured fails library
  · intro fails
    apply failsWith_bind.mpr
    rcases fails with
      fails | ⟨waited, fails⟩ | ⟨waited, queried, fails⟩ | ⟨captured, fails, library⟩
    · exact .inl (failsWith_bind.mpr (.inl fails))
    · exact .inl (failsWith_bind.mpr (.inr ⟨_, _, waited, failsWith_bind.mpr (.inl fails)⟩))
    · refine .inl (failsWith_bind.mpr (.inr ⟨_, _, waited, failsWith_bind.mpr (.inr ?_)⟩))
      exact ⟨_, _, queried, failsWith_read.mpr fails⟩
    · exact .inr ⟨_, _, captured, failsWith_develop.mpr ⟨_, fails, library⟩⟩

theorem not_failsWith_pace {period elapsed sequence : Nat} :
    ¬FailsWith w (pace period elapsed sequence) s failure := by
  intro fails
  cases (trace_pace fails.trace).1

theorem failsWith_cycle {period : Nat} :
    FailsWith w (x.cycle period p) s failure ↔ x.MeasureFails w p (w.reply s .now).2 failure := by
  rw [← failsWith_measure]
  constructor
  · intro fails
    have fails := Script.failsWith_request_bind.mp fails
    rcases failsWith_bind.mp fails with fails | ⟨p', s', -, fails⟩
    · exact fails
    have fails := Script.failsWith_request_bind.mp fails
    rcases failsWith_bind.mp fails with fails | ⟨_, s'', -, fails⟩
    · exact absurd fails not_failsWith_pace
    · cases fails
  · intro fails
    exact Script.failsWith_request_bind.mpr (failsWith_bind.mpr (.inl fails))

variable {period budget : Nat}

theorem endsAt_of_told {r : Except (Failure ε) Ending} (answer : (w.reply s .cancelled).1 = true) :
    x.EndsAt w p s r ↔ .ok .cancelled = r := by
  constructor
  · intro ends
    cases ends with
    | cancelled => rfl
    | failed goOn =>
      rw [answer] at goOn
      cases goOn
  · rintro rfl
    exact .cancelled answer

theorem endsAt_of_not_told (period : Nat) {r : Except (Failure ε) Ending}
    (answer : (w.reply s .cancelled).1 = false) : x.EndsAt w p s r ↔
      ∃ failure, FailsWith w (x.cycle period p) (w.reply s .cancelled).2 failure ∧
        .error failure = r := by
  constructor
  · intro ends
    cases ends with
    | cancelled told =>
      rw [answer] at told
      cases told
    | failed _ fails => exact ⟨_, failsWith_cycle.mpr fails, rfl⟩
  · rintro ⟨failure, fails, rfl⟩
    exact .failed answer (failsWith_cycle.mp fails)

theorem endsAt_cancelled_iff :
    x.EndsAt w p s (.ok .cancelled) ↔ (w.reply s .cancelled).1 = true := by
  constructor
  · intro ends
    cases ends with
    | cancelled answer => exact answer
  · exact .cancelled

theorem endsAt_error_iff : x.EndsAt w p s (.error failure) ↔ (w.reply s .cancelled).1 = false ∧
    x.MeasureFails w p (w.reply (w.reply s .cancelled).2 .now).2 failure := by
  constructor
  · intro ends
    cases ends with
    | failed goOn fails => exact ⟨goOn, fails⟩
  · exact fun h => .failed h.1 h.2

theorem run_cycles_succ_eq_iff {r : Except (Failure ε) Ending} :
    ((x.cycles period (budget + 1) p).run.run w s).1 = r ↔
      x.EndsAt w p s r ∨ ∃ p' s', (w.reply s .cancelled).1 = false ∧
        (x.cycle period p).run.run w (w.reply s .cancelled).2 = (.ok p', s') ∧
        ((x.cycles period budget p').run.run w s').1 = r := by
  rw [cycles, Script.run_request_bind]
  cases answer : (w.reply s .cancelled).1 with
  | true =>
    rw [endsAt_of_told answer]
    simp only [reduceCtorEq, false_and, exists_false, or_false]
    rfl
  | false =>
    change ((x.cycle period p >>= x.cycles period budget).run.run w (w.reply s .cancelled).2).1 = r
      ↔ _
    rw [Script.run_bind_eq_iff, endsAt_of_not_told period answer]
    simp only [true_and]

theorem events_cycles_of_told (told : (w.reply s .cancelled).1 = true) :
    (x.cycles period (budget + 1) p).run.events w s = [stop] := by
  rw [cycles, Script.events_request_bind, told]
  rfl

theorem events_cycles_of_completes {p' : Progress} {s' : σ}
    (goOn : (w.reply s .cancelled).1 = false)
    (completes : (x.cycle period p).run.run w (w.reply s .cancelled).2 = (.ok p', s')) :
    (x.cycles period (budget + 1) p).run.events w s = ⟨.cancelled, false⟩ ::
      ((x.cycle period p).run.events w (w.reply s .cancelled).2 ++
        (x.cycles period budget p').run.events w s') := by
  rw [← Script.events_bind_ok completes, cycles, Script.events_request_bind, goOn]
  rfl

theorem run_cycles_eq_iff {r : Except (Failure ε) Ending} (ended : r ≠ .ok .unfinished) :
    ((x.cycles period budget p).run.run w s).1 = r ↔
      ∃ n < budget, ∃ q t, x.Passes w period n p s q t ∧ x.EndsAt w q t r := by
  induction budget generalizing p s with
  | zero =>
    refine ⟨fun h => absurd h.symm ended, ?_⟩
    rintro ⟨n, hn, -⟩
    exact absurd hn (Nat.not_lt_zero n)
  | succ budget ih =>
    simp only [run_cycles_succ_eq_iff, ih]
    constructor
    · rintro (ends | ⟨p', s', goOn, completes, n, hn, q, t, passes, ends⟩)
      · exact ⟨0, Nat.succ_pos budget, p, s, .none p s, ends⟩
      · exact ⟨n + 1, Nat.succ_lt_succ hn, q, t, .next goOn completes passes, ends⟩
    · rintro ⟨n, hn, q, t, passes, ends⟩
      cases passes with
      | none => exact .inl ends
      | next goOn completes passes =>
        exact .inr ⟨_, _, goOn, completes, _, Nat.lt_of_succ_lt_succ hn, q, t, passes, ends⟩

theorem run_cycles_eq_unfinished_iff :
    ((x.cycles period budget p).run.run w s).1 = .ok .unfinished ↔
      ∃ q t, x.Passes w period budget p s q t := by
  induction budget generalizing p s with
  | zero => exact ⟨fun _ => ⟨p, s, .none p s⟩, fun _ => rfl⟩
  | succ budget ih =>
    simp only [run_cycles_succ_eq_iff, ih]
    constructor
    · rintro (ends | ⟨p', s', goOn, completes, q, t, passes⟩)
      · cases ends
      · exact ⟨q, t, .next goOn completes passes⟩
    · rintro ⟨q, t, passes⟩
      cases passes with
      | next goOn completes passes => exact .inr ⟨_, _, goOn, completes, q, t, passes⟩

/-- The cycles that complete come first among the cycles of the whole run. -/
theorem Passes.exists_cycles {n : Nat} (passes : x.Passes w period n p s q t) (budget : Nat) :
    ∃ segments : List (List (Event ε)), segments.length = n ∧
      Event.cycles ((x.cycles period (budget + n) p).run.events w s) =
        segments ++ Event.cycles ((x.cycles period budget q).run.events w t) := by
  induction passes with
  | none => exact ⟨[], rfl, rfl⟩
  | @next n p p' q s s' t goOn completes passes ih =>
    obtain ⟨segments, length, later⟩ := ih
    have unchecked := unchecked_cycle (Script.trace_of_run completes)
    -- What follows the cycle begins with a check, so it adds nothing to it.
    have none := (trace_cycles (Program.trace_run w (x.cycles period (budget + n) p').run s')).1
    refine ⟨(x.cycle period p).run.events w (w.reply s .cancelled).2 :: segments,
      congrArg _ length, ?_⟩
    rw [← Nat.add_assoc, events_cycles_of_completes goOn completes, Event.cycles_check rfl,
      Event.setUp_append unchecked, Event.cycles_append unchecked, none, List.append_nil, later,
      List.cons_append]

theorem EndsAt.length_cycles {r : Except (Failure ε) Ending} (ends : x.EndsAt w p s r) :
    (Event.cycles ((x.cycles period (budget + 1) p).run.events w s)).length = 1 := by
  cases ends with
  | cancelled answer =>
    rw [events_cycles_of_told answer]
    rfl
  | failed goOn fails =>
    have cycle : FailsWith w (x.cycle period p) (w.reply s .cancelled).2 _ :=
      failsWith_cycle.mpr fails
    have events : (x.cycles period (budget + 1) p).run.events w s = ⟨.cancelled, false⟩ ::
        (x.cycle period p).run.events w (w.reply s .cancelled).2 := by
      rw [← Script.events_bind_error cycle.run_eq, cycles, Script.events_request_bind, goOn]
      rfl
    rw [events, Event.cycles_check rfl, Event.cycles_of_unchecked (unchecked_cycle cycle.trace)]
    rfl

/-- From `s` on, the set-up succeeds and `n` cycles complete. That leads to the next check, with
progress `q` and in state `t`. -/
def Reaches (x : Acquisition) (decoder : Decoder Float) (w : World ε σ) (s : σ) (n : Nat)
    (q : Progress) (t : σ) : Prop :=
  ∃ rate s', x.start.run.run w s = (.ok rate, s') ∧
    x.Passes w rate.period n ⟨decoder, .empty⟩ s' q t

/-- From `s` on, `n` cycles complete, and the one after them fails with `failure`. -/
def FailsInCycle (x : Acquisition) (decoder : Decoder Float) (w : World ε σ) (s : σ) (n : Nat)
    (failure : Failure ε) : Prop :=
  ∃ q t, x.Reaches decoder w s n q t ∧ (w.reply t .cancelled).1 = false ∧
    x.MeasureFails w q (w.reply (w.reply t .cancelled).2 .now).2 failure

variable {decoder : Decoder Float}

theorem run_eq_iff {r : Except (Failure ε) Ending} (ended : r ≠ .ok .unfinished) :
    ((x.run budget decoder).run.run w s).1 = r ↔
      (∃ failure, x.SetUpFails w s failure ∧ .error failure = r) ∨
        ∃ n < budget, ∃ q t, x.Reaches decoder w s n q t ∧ x.EndsAt w q t r := by
  rw [run, Script.run_bind_eq_iff]
  simp only [failsWith_start, run_cycles_eq_iff ended]
  refine or_congr_right ⟨?_, ?_⟩
  · rintro ⟨rate, s', begun, n, hn, q, t, passes, ends⟩
    exact ⟨n, hn, q, t, ⟨rate, s', begun, passes⟩, ends⟩
  · rintro ⟨n, hn, q, t, ⟨rate, s', begun, passes⟩, ends⟩
    exact ⟨rate, s', begun, n, hn, q, t, passes, ends⟩

theorem run_eq_unfinished_iff : ((x.run budget decoder).run.run w s).1 = .ok .unfinished ↔
    ∃ q t, x.Reaches decoder w s budget q t := by
  rw [run, Script.run_bind_eq_iff]
  simp only [run_cycles_eq_unfinished_iff, reduceCtorEq, and_false, exists_false, false_or]
  constructor
  · rintro ⟨rate, s', begun, q, t, passes⟩
    exact ⟨q, t, rate, s', begun, passes⟩
  · rintro ⟨q, t, rate, s', begun, passes⟩
    exact ⟨rate, s', begun, q, t, passes⟩

theorem SetUpFails.events_run (h : x.SetUpFails w s failure) :
    ∀ e ∈ (x.run budget decoder).run.events w s, e.isCheck = false ∧ e.frame? = none := by
  have fails : FailsWith w x.start s failure := failsWith_start.mpr h
  have setsUp := trace_start fails.trace
  have none : ∀ e ∈ x.start.run.events w s, e.frame? = none :=
    List.filterMap_eq_nil_iff.mp setsUp.published
  rw [run, Script.events_bind_error fails.run_eq]
  exact fun e he => ⟨setsUp.unchecked e he, none e he⟩

theorem SetUpFails.cycles_run (h : x.SetUpFails w s failure) :
    Event.cycles ((x.run budget decoder).run.events w s) = [] :=
  Event.cycles_of_unchecked fun e he => (h.events_run e he).1

theorem Reaches.length_cycles {n : Nat} {r : Except (Failure ε) Ending}
    (reaches : x.Reaches decoder w s n q t) (ends : x.EndsAt w q t r) (hn : n < budget) :
    (Event.cycles ((x.run budget decoder).run.events w s)).length = n + 1 := by
  obtain ⟨rate, s', begun, passes⟩ := reaches
  obtain ⟨more, rfl⟩ : ∃ more, budget = more + 1 + n := ⟨budget - 1 - n, by omega⟩
  obtain ⟨segments, length, all⟩ := passes.exists_cycles (more + 1)
  have setsUp := trace_start (Script.trace_of_run begun)
  rw [run, Script.events_bind_ok begun, Event.cycles_append setsUp.unchecked, all,
    List.length_append, length, ends.length_cycles]

theorem run_eq_error (h : ((x.run budget decoder).run.run w s).1 = .error failure) :
    let segments := Event.cycles ((x.run budget decoder).run.events w s)
    x.SetUpFails w s failure ∧ segments = [] ∨
      x.FailsInCycle decoder w s
        (completed ((x.run budget decoder).run.run w s).1 segments).length failure := by
  intro segments
  rcases (run_eq_iff (by simp)).mp h with ⟨failure', fails, same⟩ | ⟨n, hn, q, t, reaches, ends⟩
  · obtain rfl := Except.error.inj same
    exact .inl ⟨fails, fails.cycles_run⟩
  · have count : (completed ((x.run budget decoder).run.run w s).1 segments).length = n := by
      rw [h]
      change segments.dropLast.length = n
      rw [List.length_dropLast, reaches.length_cycles ends hn, Nat.add_sub_cancel]
    rw [count]
    exact .inr ⟨q, t, reaches, endsAt_error_iff.mp ends⟩

end

end Thermopile.Acquisition
