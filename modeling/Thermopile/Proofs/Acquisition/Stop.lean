import Thermopile.Proofs.Acquisition.Course

namespace Thermopile

namespace Event

variable {ε : Type}

def stop : Event ε := ⟨.cancelled, true⟩

theorem ne_stop_of_unchecked {e : Event ε} (h : e.isCheck = false) : e ≠ stop := by
  rintro rfl
  cases h

end Event

theorem Program.not_stop_mem {ε σ α : Type} {w : World ε σ}
    (goOn : ∀ s, (w.reply s .cancelled).1 = false) (p : Program ε α) (s : σ) :
    Event.stop ∉ p.events w s := by
  induction p generalizing s with
  | done a => exact nofun
  | ask q next ih =>
    intro told
    rcases List.mem_cons.mp told with now | later
    · obtain ⟨rfl, answer⟩ := Event.mk.inj now
      exact Bool.false_ne_true ((goOn s).symm.trans (eq_of_heq answer).symm)
    · exact ih _ _ later

namespace Acquisition

open Event (stop)

section
variable {ε : Type} {r : Except (Failure ε) Ending} {es es₁ before after : List (Event ε)}

/-- A run is told to stop exactly if that is its result, and it does nothing afterwards. -/
structure HeedsStop (r : Except (Failure ε) Ending) (es : List (Event ε)) : Prop where
  result : r = .ok .cancelled ↔ stop ∈ es
  last : ∀ before after, es = before ++ stop :: after → after = []

theorem HeedsStop.of_unstopped (result : r ≠ .ok .cancelled) (unstopped : ∀ e ∈ es, e ≠ stop) :
    HeedsStop r es where
  result := ⟨fun h => absurd h result, fun h => absurd rfl (unstopped stop h)⟩
  last before after h := by
    subst h
    exact absurd rfl (unstopped stop (by simp))

theorem HeedsStop.prepend (h : HeedsStop r es) (unstopped : ∀ e ∈ es₁, e ≠ stop) :
    HeedsStop r (es₁ ++ es) where
  result := by
    rw [h.result, List.mem_append]
    exact ⟨.inr, fun hs => hs.resolve_left fun hs => unstopped stop hs rfl⟩
  last before after split := by
    rcases List.append_eq_append_iff.mp split with ⟨rest, rfl, hr⟩ | ⟨rest, rfl, hr⟩
    · exact h.last rest after hr
    · cases rest with
      | nil => exact h.last [] after hr.symm
      | cons e rest =>
        obtain ⟨rfl, -⟩ := List.cons.inj hr
        exact absurd rfl (unstopped stop (by simp))

theorem HeedsStop.not_mem_of_append (h : HeedsStop r (before ++ after)) (more : after ≠ []) :
    stop ∉ before := by
  intro told
  obtain ⟨earlier, between, rfl⟩ := List.append_of_mem told
  have none := h.last earlier (between ++ after) (by simp)
  exact more (List.append_eq_nil_iff.mp none).2

theorem HeedsStop.exists_before (h : HeedsStop r es) (cancelled : r = .ok .cancelled) :
    ∃ before, es = before ++ [stop] ∧ stop ∉ before := by
  obtain ⟨before, after, rfl⟩ := List.append_of_mem (h.result.mp cancelled)
  obtain rfl := h.last before after rfl
  exact ⟨before, rfl, h.not_mem_of_append (List.cons_ne_nil _ _)⟩

theorem HeedsStop.exists_rest (h : HeedsStop r (before ++ after))
    (requested : ∀ e ∈ after, e.isCheck = true → e = stop) :
    ∃ rest, (after = rest ∨ after = rest ++ [stop]) ∧ ∀ e ∈ rest, e.isCheck = false := by
  by_cases stopped : stop ∈ after
  · obtain ⟨rest, later, rfl⟩ := List.append_of_mem stopped
    obtain rfl := h.last (before ++ rest) later (List.append_assoc ..).symm
    refine ⟨rest, .inr rfl, fun e he => ?_⟩
    by_contra checked
    obtain rfl := requested e (List.mem_append_left _ he) (Bool.of_not_eq_false checked)
    -- The request at the end is the first one.
    rw [← List.append_assoc] at h
    exact h.not_mem_of_append (List.cons_ne_nil _ _) (List.mem_append_right before he)
  · refine ⟨after, .inl rfl, fun e he => ?_⟩
    by_contra checked
    exact stopped (requested e he (Bool.of_not_eq_false checked) ▸ he)

end

section
variable {ε : Type} {x : Acquisition} {budget : Nat} {p : Progress} {decoder : Decoder Float}
  {r : Except (Failure ε) Ending} {es : List (Event ε)}

theorem trace_cycles_heedsStop {period : Nat} (h : Script.Trace (x.cycles period budget p) r es) :
    HeedsStop r es := by
  induction budget generalizing p es with
  | zero =>
    obtain ⟨rfl, rfl⟩ := Script.trace_pure.mp h
    exact .of_unstopped nofun nofun
  | succ budget ih =>
    obtain ⟨answer, rest, hn, rfl⟩ := Script.trace_request_bind.mp h
    cases answer with
    | true =>
      obtain ⟨rfl, rfl⟩ := Script.trace_pure.mp hn
      refine ⟨⟨fun _ => List.mem_singleton_self _, fun _ => rfl⟩, fun before after split => ?_⟩
      cases before with
      | nil => exact (List.cons.inj split).2.symm
      | cons e before => cases before <;> cases split
    | false =>
      -- Neither this check nor the cycle after it holds a stop; what follows is up to the rest.
      have goOn : ∀ e ∈ [(⟨.cancelled, false⟩ : Event ε)], e ≠ stop :=
        List.forall_mem_singleton.mpr nofun
      refine HeedsStop.prepend ?_ goOn
      rcases Script.trace_bind.mp hn with ⟨failure, hc, rfl⟩ | ⟨p', es₁, es₂, hc, hr, rfl⟩
      · rcases x.trace_cycle hc with ⟨_, -, internal⟩ | ⟨s, p', hp, -⟩
        · exact .of_unstopped nofun fun e he =>
            Event.ne_stop_of_unchecked (Event.isCheck_of_internal (internal e he))
        · cases hp
      · rcases x.trace_cycle hc with ⟨failure, hp, -⟩ | ⟨s, q, -, completes⟩
        · cases hp
        · exact (ih hr).prepend fun e he => Event.ne_stop_of_unchecked (completes.unchecked e he)

theorem trace_run_heedsStop (h : Script.Trace (x.run budget decoder) r es) : HeedsStop r es := by
  rcases Script.trace_bind.mp h with ⟨failure, hs, rfl⟩ | ⟨rate, es₁, es₂, hs, hc, rfl⟩
  · exact .of_unstopped nofun fun e he =>
      Event.ne_stop_of_unchecked ((trace_start hs).unchecked e he)
  · exact (trace_cycles_heedsStop hc).prepend fun e he =>
      Event.ne_stop_of_unchecked ((trace_start hs).unchecked e he)

/-- In a run with the result `r` and the events `es`, the cycles that complete are `cycles`. Besides
them a run that uses up its budget has none, one that is cancelled ends with the only check that is
answered with yes, and one that fails after its set-up has the cycle that fails, which publishes
nothing. -/
structure Concludes (budget : Nat) (r : Except (Failure ε) Ending) (es : List (Event ε))
    (cycles : List (List (Event ε))) : Prop where
  cancelled_iff : r = .ok .cancelled ↔ stop ∈ es
  cancelled : r = .ok .cancelled →
    Event.cycles es = cycles ++ [[]] ∧ (∃ before, es = before ++ [stop] ∧ stop ∉ before) ∧
      cycles.length < budget
  unfinished : r = .ok .unfinished → Event.cycles es = cycles ∧ cycles.length = budget
  failed : ∀ failure, r = .error failure →
    Event.cycles es = [] ∧ cycles = [] ∨
      ∃ last, Event.cycles es = cycles ++ [last] ∧ Event.published last = [] ∧
        cycles.length < budget

theorem concludes_run (h : Script.Trace (x.run budget decoder) r es) :
    Concludes budget r es (completed r (Event.cycles es)) := by
  have heeds := trace_run_heedsStop h
  rcases (trace_run h).2 with ⟨none, failure, rfl⟩ | ⟨snapshots, course⟩
  · have nothing : completed (.error failure) (Event.cycles es) = [] := by
      rw [none]
      rfl
    exact ⟨heeds.result, nofun, nofun, fun _ _ => .inl ⟨none, nothing⟩⟩
  have count := course.measures.length_eq
  refine ⟨heeds.result, fun cancelled => ?_, ?_, fun failure failed => ?_⟩
  · refine ⟨course.eq_of_cancelled cancelled, heeds.exists_before cancelled, ?_⟩
    rw [count]
    exact course.length_lt (by simp [cancelled])
  · rintro rfl
    exact ⟨rfl, count.trans (course.length_le.2.mp rfl)⟩
  · obtain ⟨last, all, internal⟩ := course.eq_of_failed failed
    refine .inr ⟨last, all, Event.published_of_internal internal, ?_⟩
    rw [count]
    exact course.length_lt (by simp [failed])

end

end Acquisition
end Thermopile
