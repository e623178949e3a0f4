import Thermopile.Proofs.Consumers

namespace Thermopile

namespace Event

variable {ε : Type} {es middle after : List (Event ε)}

theorem exists_infix_segment (before : List (Event ε))
    (unchecked : ∀ e ∈ middle, e.isCheck = false) :
    ∃ segment ∈ setUp (before ++ (middle ++ after)) :: cycles (before ++ (middle ++ after)),
      middle <:+: segment := by
  induction before with
  | nil =>
    rw [List.nil_append, setUp_append unchecked]
    exact ⟨_, List.mem_cons_self, (List.prefix_append middle _).isInfix⟩
  | cons e before ih =>
    obtain ⟨segment, hs, inside⟩ := ih
    rw [List.cons_append]
    -- A check comes between two segments; any other event belongs to the first one.
    by_cases he : e.isCheck = true
    · rw [setUp_check he, cycles_check he]
      exact ⟨segment, List.mem_cons_of_mem _ hs, inside⟩
    · rw [setUp_cons (Bool.eq_false_iff.mpr he), cycles_cons (Bool.eq_false_iff.mpr he)]
      rcases List.mem_cons.mp hs with rfl | hs
      · exact ⟨_, List.mem_cons_self, List.infix_cons inside⟩
      · exact ⟨segment, List.mem_cons_of_mem _ hs, inside⟩

theorem length_published_le_of_infix (h : middle <:+: es) :
    (published middle).length ≤ (published es).length :=
  (h.sublist.filterMap frame?).length_le

theorem finished_slotAfter (h : ∀ e ∈ es, e.request ≠ .finish) : (slotAfter es).finished = false :=
  finished_foldl_updateSlot h {}

end Event

namespace Acquisition

open Event (stop)

section
variable {ε : Type} {x : Acquisition} {budget : Nat} {p : Progress} {decoder : Decoder Float}
  {r : Except (Failure ε) Ending} {es before middle after : List (Event ε)}
  {segments : List (List (Event ε))} {snapshots : List Snapshot}

theorem Course.length_published_le (h : x.Course budget p r segments snapshots) :
    ∀ segment ∈ segments, (Event.published segment).length ≤ 1 := by
  induction h with
  | unfinished => exact nofun
  | cancelled => exact List.forall_mem_singleton.mpr (Nat.zero_le 1)
  | failed budget p internal =>
    rw [List.forall_mem_singleton, Event.published_of_internal internal]
    exact Nat.zero_le 1
  | next completes course ih =>
    rw [List.forall_mem_cons, completes.published]
    exact ⟨Nat.le_refl 1, ih⟩

theorem length_published_le_of_unchecked
    (h : Script.Trace (x.run budget decoder) r (before ++ (middle ++ after)))
    (unchecked : ∀ e ∈ middle, e.isCheck = false) : (Event.published middle).length ≤ 1 := by
  obtain ⟨setsUp, course⟩ := trace_run h
  obtain ⟨segment, hs, inside⟩ := Event.exists_infix_segment before unchecked
  refine Nat.le_trans (Event.length_published_le_of_infix inside) ?_
  rcases List.mem_cons.mp hs with rfl | hs
  · rw [setsUp.published]
    exact Nat.zero_le 1
  · rcases course with ⟨none, -⟩ | ⟨snapshots, course⟩
    · rw [none] at hs
      cases hs
    · exact course.length_published_le segment hs

theorem published_of_unchecked
    (h : Script.Trace (x.run budget decoder) r (before ++ (middle ++ after)))
    (earlier : ∀ e ∈ before, e.isCheck = false) (unchecked : ∀ e ∈ middle, e.isCheck = false) :
    Event.published middle = [] := by
  have none := (trace_run h).1.published
  rw [Event.setUp_append earlier, Event.setUp_append unchecked, Event.published_append,
    Event.published_append] at none
  exact (List.append_eq_nil_iff.mp (List.append_eq_nil_iff.mp none).2).1

end

section
variable {ε σ : Type} {x : Acquisition} {w : World ε σ} {s : σ} {budget : Nat}
  {decoder : Decoder Float}

theorem result_serve [BusError ε] : ((x.serve budget decoder).run w s).1 =
    ((x.run budget decoder).run.run w s).1 := by
  unfold serve
  rw [Program.run_bind]
  cases ((x.run budget decoder).run.run w s).1 <;> rfl

theorem eq_nil_of_finished {es before after : List (Event ε)} {e : Event ε}
    (unfinished : ∀ e ∈ es, e.request ≠ .finish) (split : es ++ [e] = before ++ after)
    (finished : (Event.slotAfter before).finished = true) : after = [] := by
  rcases List.eq_nil_or_concat after with none | ⟨between, last, rfl⟩
  · exact none
  · rw [List.concat_eq_append, ← List.append_assoc] at split
    obtain ⟨rfl, -⟩ := List.append_inj' split rfl
    have going := Event.finished_slotAfter fun e he =>
      unfinished e (List.mem_append_left between he)
    rw [finished] at going
    cases going

end

/-- In every world, whatever its bus does and whenever it begins to answer checks with yes: from
then on a run completes at most the cycle that it is in, so that one more frame is published at
most, and a check that is answered with yes is the last thing that it does. If a step of the set-up
fails, that failure is the result, nothing is published, and no check is made. A run is cancelled
exactly if a check, which is made before a cycle, is answered with yes; it fails exactly with the
first failure of a step of the set-up or of a cycle; and otherwise the budget of cycles is used up.
Consumers are told the end after everything else. -/
theorem stops_at_check_or_first_failure {ε σ : Type} [BusError ε] (x : Acquisition) (budget : Nat)
    (decoder : Decoder Float) (w : World ε σ) (s : σ) :
    let events := (x.run budget decoder).run.events w s
    let result := ((x.run budget decoder).run.run w s).1
    let served := (x.serve budget decoder).events w s
    (∀ before after, events = before ++ after → (∀ e ∈ after, e.isCheck = true → e = stop) →
      ∃ rest, (after = rest ∨ after = rest ++ [stop]) ∧ (∀ e ∈ rest, e.isCheck = false) ∧
        (Event.published rest).length ≤ 1 ∧
        ((∀ e ∈ before, e.isCheck = false) → Event.published rest = [])) ∧
    (∀ before after, events = before ++ stop :: after → after = []) ∧
    (∀ failure, x.SetUpFails w s failure →
      result = .error failure ∧ ∀ e ∈ events, e.isCheck = false ∧ e.frame? = none) ∧
    (result = .ok .cancelled ↔ stop ∈ events) ∧
    (result = .ok .cancelled ↔ ∃ n < budget, ∃ q t,
      x.Reaches decoder w s n q t ∧ (w.reply t .cancelled).1 = true) ∧
    (∀ failure, result = .error failure ↔ x.SetUpFails w s failure ∨ ∃ n < budget, ∃ q t,
      x.Reaches decoder w s n q t ∧ (w.reply t .cancelled).1 = false ∧
        x.MeasureFails w q (w.reply (w.reply t .cancelled).2 .now).2 failure) ∧
    (result = .ok .unfinished ↔ ∃ q t, x.Reaches decoder w s budget q t) ∧
    ((x.serve budget decoder).run w s).1 = result ∧
    (∃ notice, served = events ++ [⟨.notice notice, ()⟩, ⟨.finish, ()⟩]) ∧
    (∀ before after, served = before ++ after →
      (Event.slotAfter before).finished = true → after = []) := by
  intro events result served
  have trace : Script.Trace (x.run budget decoder) result events :=
    Program.trace_run w (x.run budget decoder).run s
  have heeds := trace_run_heedsStop trace
  have unfinished : ∀ e ∈ events, e.request ≠ .finish := x.asks_run budget decoder _ _ trace
  obtain ⟨notice, ended⟩ := x.events_serve budget decoder w s
  refine ⟨fun before after split requested => ?_, heeds.last, fun failure fails => ⟨?_, ?_⟩,
    heeds.result, ?_, fun failure => ?_, run_eq_unfinished_iff, result_serve, ⟨notice, ended⟩,
    fun before after split finished => ?_⟩
  · rw [split] at heeds trace
    obtain ⟨rest, hr, unchecked⟩ := heeds.exists_rest requested
    obtain ⟨tail, rfl⟩ : ∃ tail, after = rest ++ tail := by
      rcases hr with rfl | rfl
      · exact ⟨[], (List.append_nil _).symm⟩
      · exact ⟨[stop], rfl⟩
    exact ⟨rest, hr, unchecked, length_published_le_of_unchecked trace unchecked,
      fun earlier => published_of_unchecked trace earlier unchecked⟩
  · exact (run_eq_iff (by simp)).mpr (.inl ⟨failure, fails, rfl⟩)
  · exact fails.events_run
  · simp only [result, run_eq_iff (r := .ok .cancelled) (by simp), endsAt_cancelled_iff,
      reduceCtorEq, and_false, exists_false, false_or]
  · simp only [result, run_eq_iff (r := .error failure) (by simp), endsAt_error_iff,
      Except.error.injEq, exists_eq_right]
  · have going : ∀ e ∈ events ++ [⟨.notice notice, ()⟩], e.request ≠ .finish := by
      intro e he
      rcases List.mem_append.mp he with he | he
      · exact unfinished e he
      · obtain rfl := List.mem_singleton.mp he
        exact nofun
    refine eq_nil_of_finished (e := ⟨.finish, ()⟩) going ?_ finished
    rw [← split, List.append_assoc]
    exact ended.symm

end Acquisition
end Thermopile