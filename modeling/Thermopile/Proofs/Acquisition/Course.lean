import Mathlib.Data.List.Forall2
import Thermopile.Proofs.Acquisition.Cycle

namespace Thermopile.Acquisition

open Request

variable {ε : Type} (x : Acquisition)

/-- The cycles of a run from `p` on, one list of events for each, under a budget and with the
result `r`, and the measurements of those that complete. -/
inductive Course : Nat → Progress → Except (Failure ε) Ending → List (List (Event ε)) →
    List Snapshot → Prop
  | unfinished (p : Progress) : Course 0 p (.ok .unfinished) [] []
  | cancelled (budget : Nat) (p : Progress) : Course (budget + 1) p (.ok .cancelled) [[]] []
  | failed (budget : Nat) (p : Progress) {failure : Failure ε} {es : List (Event ε)}
      (internal : ∀ e ∈ es, Internal e.request) : Course (budget + 1) p (.error failure) [es] []
  | next {budget : Nat} {p p' : Progress} {s : Snapshot} {r : Except (Failure ε) Ending}
      {es : List (Event ε)} {rest : List (List (Event ε))} {snapshots : List Snapshot}
      (completes : x.Completes p s p' es) (course : Course budget p' r rest snapshots) :
      Course (budget + 1) p r (es :: rest) (s :: snapshots)

/-- The cycles of a run from `p` on as they were traced. -/
inductive Rounds (period : Nat) : Nat → Progress → Except (Failure ε) Ending →
    List (List (Event ε)) → Prop
  | unfinished (p : Progress) : Rounds period 0 p (.ok .unfinished) []
  | cancelled (budget : Nat) (p : Progress) : Rounds period (budget + 1) p (.ok .cancelled) [[]]
  | failed (budget : Nat) (p : Progress) {failure : Failure ε} {es : List (Event ε)}
      (fails : Script.Trace (x.cycle period p) (.error failure) es) :
      Rounds period (budget + 1) p (.error failure) [es]
  | next {budget : Nat} {p p' : Progress} {r : Except (Failure ε) Ending} {es : List (Event ε)}
      {rest : List (List (Event ε))} (completes : Script.Trace (x.cycle period p) (.ok p') es)
      (rounds : Rounds period budget p' r rest) : Rounds period (budget + 1) p r (es :: rest)

/-- The cycles that completed, which are all if nothing but the budget ended the run. -/
def completed (r : Except (Failure ε) Ending) (segments : List (List (Event ε))) :
    List (List (Event ε)) :=
  match r with
  | .ok .unfinished => segments
  | _ => segments.dropLast

variable {x} {budget : Nat} {p : Progress} {r : Except (Failure ε) Ending} {es : List (Event ε)}
  {segments : List (List (Event ε))} {snapshots : List Snapshot}

theorem getElem?_of_completed {k : Nat} (h : (completed r segments)[k]? = some es) :
    segments[k]? = some es := by
  have first : completed r segments <+: segments := by
    unfold completed
    split
    · exact List.prefix_rfl
    · exact List.dropLast_prefix segments
  obtain ⟨hk, rfl⟩ := List.getElem?_eq_some_iff.mp h
  exact List.prefix_iff_getElem?.mp first k hk

theorem Course.completed_cons (h : x.Course budget p r segments snapshots) :
    completed r (es :: segments) = es :: completed r segments := by
  cases h with
  | unfinished => rfl
  | cancelled => rfl
  | failed => rfl
  | next completes course =>
    unfold completed
    split <;> rfl

theorem Course.length_le (h : x.Course budget p r segments snapshots) :
    snapshots.length ≤ budget ∧ (r = .ok .unfinished ↔ snapshots.length = budget) := by
  induction h with
  | unfinished => exact ⟨Nat.le_refl _, by simp⟩
  | cancelled => exact ⟨Nat.zero_le _, by simp⟩
  | failed => exact ⟨Nat.zero_le _, by simp⟩
  | next completes course ih =>
    rw [List.length_cons, Nat.succ_inj]
    exact ⟨Nat.succ_le_succ ih.1, ih.2⟩

theorem Course.length_lt (h : x.Course budget p r segments snapshots)
    (ended : r ≠ .ok .unfinished) :
    snapshots.length < budget :=
  Nat.lt_of_le_of_ne h.length_le.1 fun full => ended (h.length_le.2.mpr full)

theorem Course.eq_of_cancelled (h : x.Course budget p r segments snapshots)
    (cancelled : r = .ok .cancelled) : segments = completed r segments ++ [[]] := by
  induction h with
  | unfinished => cases cancelled
  | cancelled => rfl
  | failed => cases cancelled
  | next completes course ih => rw [course.completed_cons, List.cons_append, ← ih cancelled]

theorem Course.eq_of_failed {failure : Failure ε} (h : x.Course budget p r segments snapshots)
    (failed : r = .error failure) :
    ∃ last, segments = completed r segments ++ [last] ∧ ∀ e ∈ last, Internal e.request := by
  induction h with
  | unfinished => cases failed
  | cancelled => cases failed
  | failed budget p internal => exact ⟨_, rfl, internal⟩
  | next completes course ih =>
    obtain ⟨last, all, internal⟩ := ih failed
    refine ⟨last, ?_, internal⟩
    rw [course.completed_cons, List.cons_append, ← all]

theorem Course.measures (h : x.Course budget p r segments snapshots) :
    List.Forall₂ (Event.Measures x.camera.device) (completed r segments) snapshots := by
  induction h with
  | unfinished => exact .nil
  | cancelled => exact .nil
  | failed => exact .nil
  | next completes course ih =>
    rw [course.completed_cons]
    exact .cons completes.measures ih

theorem Course.valid (h : x.Course budget p r segments snapshots) :
    ∀ s ∈ snapshots, s.Valid := by
  induction h with
  | next completes course ih => exact List.forall_mem_cons.mpr ⟨completes.advances.1, ih⟩
  | _ => simp

theorem Course.published (h : x.Course budget p r segments snapshots) :
    segments.flatMap Event.published = (completed r segments).flatMap Event.published := by
  induction h with
  | unfinished => rfl
  | cancelled => rfl
  | failed budget p internal =>
    rw [List.flatMap_singleton, Event.published_of_internal internal]
    rfl
  | next completes course ih =>
    rw [course.completed_cons, List.flatMap_cons, List.flatMap_cons, ih]

theorem Course.status_written (h : x.Course budget p r segments snapshots) :
    ∀ es ∈ completed r segments,
      (Event.written x.camera.device RegisterAddress.status.word es).length = 1 := by
  induction h with
  | unfinished => simp [completed]
  | cancelled => simp [completed]
  | failed => simp [completed]
  | next completes course ih =>
    rw [course.completed_cons]
    exact List.forall_mem_cons.mpr ⟨completes.status_written, ih⟩

theorem Course.length_written (h : x.Course budget p r segments snapshots)
    (succeeds : ∃ ending, r = .ok ending) :
    (segments.flatMap (Event.written x.camera.device RegisterAddress.status.word)).length =
      snapshots.length := by
  induction h with
  | unfinished => rfl
  | cancelled => rfl
  | failed =>
    obtain ⟨_, failed⟩ := succeeds
    cases failed
  | next completes course ih =>
    rw [List.flatMap_cons, List.length_append, completes.status_written, ih succeeds,
      List.length_cons, Nat.add_comm]

variable {period : Nat}

theorem Rounds.course (h : x.Rounds period budget p r segments) :
    ∃ snapshots, x.Course budget p r segments snapshots := by
  induction h with
  | unfinished p => exact ⟨[], .unfinished p⟩
  | cancelled budget p => exact ⟨[], .cancelled budget p⟩
  | failed budget p fails =>
    rcases x.trace_cycle fails with ⟨_, -, internal⟩ | ⟨s, p', hp, -⟩
    · exact ⟨[], .failed budget p internal⟩
    · cases hp
  | next traced rounds ih =>
    obtain ⟨snapshots, course⟩ := ih
    rcases x.trace_cycle traced with ⟨failure, hp, -⟩ | ⟨s, p', hp, completes⟩
    · cases hp
    obtain rfl := Except.ok.inj hp
    exact ⟨s :: snapshots, .next completes course⟩

theorem unchecked_cycle {r : Except (Failure ε) Progress}
    (h : Script.Trace (x.cycle period p) r es) : ∀ e ∈ es, e.isCheck = false := by
  rcases x.trace_cycle h with ⟨_, -, internal⟩ | ⟨s, p', -, completes⟩
  · exact fun e he => Event.isCheck_of_internal (internal e he)
  · exact completes.unchecked

theorem trace_rounds (h : Script.Trace (x.cycles period budget p) r es) :
    Event.setUp es = [] ∧ x.Rounds period budget p r (Event.cycles es) := by
  induction budget generalizing p es with
  | zero =>
    obtain ⟨rfl, rfl⟩ := Script.trace_pure.mp h
    exact ⟨rfl, .unfinished p⟩
  | succ budget ih =>
    obtain ⟨stop, rest, hn, rfl⟩ := Script.trace_request_bind.mp h
    refine ⟨Event.setUp_check rfl, ?_⟩
    rw [Event.cycles_check rfl]
    cases stop with
    | true =>
      -- The check is the last event, with an empty cycle after it.
      obtain ⟨rfl, rfl⟩ := Script.trace_pure.mp hn
      exact .cancelled budget p
    | false =>
      rcases Script.trace_bind.mp hn with ⟨failure, hc, rfl⟩ | ⟨p', es₁, es₂, hc, hr, rfl⟩
      · rw [Event.setUp_of_unchecked (unchecked_cycle hc),
          Event.cycles_of_unchecked (unchecked_cycle hc)]
        exact .failed budget p hc
      · obtain ⟨none, rounds⟩ := ih hr
        rw [Event.setUp_append (unchecked_cycle hc), Event.cycles_append (unchecked_cycle hc), none,
          List.append_nil]
        exact .next hc rounds

theorem trace_cycles (h : Script.Trace (x.cycles period budget p) r es) :
    Event.setUp es = [] ∧ ∃ snapshots, x.Course budget p r (Event.cycles es) snapshots :=
  ⟨(trace_rounds h).1, (trace_rounds h).2.course⟩

theorem Rounds.exists_trace (h : x.Rounds period budget p r segments) {k : Nat}
    {segment : List (Event ε)} (hk : (completed r segments)[k]? = some segment) :
    ∃ q q', q.frame.sequence = p.frame.sequence + k ∧
      Script.Trace (x.cycle period q) (.ok q') segment := by
  induction h generalizing k with
  | unfinished => cases hk
  | cancelled => cases hk
  | failed => cases hk
  | next traced rounds ih =>
    obtain ⟨snapshots, course⟩ := rounds.course
    rw [course.completed_cons] at hk
    cases k with
    | zero =>
      obtain rfl := Option.some.inj hk
      exact ⟨_, _, rfl, traced⟩
    | succ k =>
      obtain ⟨q, q', number, trace⟩ := ih hk
      rcases x.trace_cycle traced with ⟨failure, hp, -⟩ | ⟨s, p', hp, completes⟩
      · cases hp
      obtain rfl := Except.ok.inj hp
      refine ⟨q, q', ?_, trace⟩
      rw [number, completes.advances.2, Nat.add_assoc, Nat.add_comm 1 k]

section
variable {P : Request → Prop} (harmless : ∀ q, Harmless q → P q)
include harmless

theorem asks_start (write : ∀ r : Control, P (x.camera.registerWrite r))
    (reset : P (.send Transport.generalCall [Transport.resetCommand])) :
    Script.Asks P (x.start : Script ε FrameRate) := by
  have rest : Script.Asks P (do
      let rate ← x.camera.get .frameRate
      x.camera.trigger
      Script.report (.acquisitionStarted rate)
      return rate : Script ε FrameRate) := by
    refine Script.asks_bind ((x.camera.asks_get .frameRate).mono harmless) fun rate => ?_
    refine Script.asks_bind (x.camera.asks_trigger harmless write reset) fun _ => ?_
    refine Script.asks_bind (Script.asks_request (harmless _ trivial)) fun _ => ?_
    exact Script.asks_pure _
  unfold start
  cases x.config.frameRate with
  | none => exact rest
  | some rate =>
    exact Script.asks_bind (x.camera.asks_set harmless .frameRate rate write) fun _ => rest

end

/-- The set-up shows nothing to consumers, and does not write the status. -/
structure SetsUp (x : Acquisition) (es : List (Event ε)) : Prop where
  unchecked : ∀ e ∈ es, e.isCheck = false
  published : Event.published es = []
  status_written : Event.written x.camera.device RegisterAddress.status.word es = []

theorem trace_start {r : Except (Failure ε) FrameRate} (h : Script.Trace x.start r es) :
    SetsUp x es := by
  have internal : ∀ e ∈ es, Internal e.request :=
    asks_start (fun _ => Harmless.internal) (fun _ => trivial) trivial _ _ h
  have spared : ∀ e ∈ es,
      e.request.wordWritten? x.camera.device RegisterAddress.status.word = none := by
    refine asks_start
      (P := fun q => q.wordWritten? x.camera.device RegisterAddress.status.word = none)
      ?_ ?_ ?_ _ _ h
    · intro q hq
      cases q <;> first | rfl | exact hq.elim
    · intro control
      rw [x.camera.wordWritten?_registerWrite, if_neg (by decide)]
    · rfl
  exact ⟨fun e he => Event.isCheck_of_internal (internal e he),
    Event.published_of_internal internal, Event.written_eq_nil spared⟩

theorem trace_run {decoder : Decoder Float} (h : Script.Trace (x.run budget decoder) r es) :
    SetsUp x (Event.setUp es) ∧
    (Event.cycles es = [] ∧ (∃ failure, r = .error failure) ∨
      ∃ snapshots, x.Course budget ⟨decoder, .empty⟩ r (Event.cycles es) snapshots) := by
  rcases Script.trace_bind.mp h with ⟨failure, hs, rfl⟩ | ⟨rate, es₁, es₂, hs, hc, rfl⟩
  · have setsUp := trace_start hs
    rw [Event.setUp_of_unchecked setsUp.unchecked, Event.cycles_of_unchecked setsUp.unchecked]
    exact ⟨setsUp, .inl ⟨rfl, failure, rfl⟩⟩
  · have setsUp := trace_start hs
    obtain ⟨none, course⟩ := trace_cycles hc
    rw [Event.setUp_append setsUp.unchecked, Event.cycles_append setsUp.unchecked, none,
      List.append_nil]
    exact ⟨setsUp, .inr course⟩

end Thermopile.Acquisition
