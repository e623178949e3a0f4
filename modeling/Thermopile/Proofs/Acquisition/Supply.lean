import Thermopile.Proofs.Acquisition.Stop
import Thermopile.Proofs.Run

namespace Thermopile

def Request.OnBus : Request → Prop
  | exchange .. | send .. => True
  | _ => False

namespace Acquisition

variable {ε σ : Type} {x : Acquisition} {w : World ε σ}

/-- In a state `s` with `offers s l`, the measurements `l` can be read out one after the other. -/
structure Supply (x : Acquisition) (w : World ε σ) (offers : σ → List Snapshot → Prop) : Prop where
  kept {s : σ} {l : List Snapshot} (q : Request) :
    ¬q.OnBus → offers s l → offers (w.reply s q).2 l
  capture {s : σ} {m : Snapshot} {l : List Snapshot} :
    offers s (m :: l) → Script.Succeeds w x.capture s fun a _ s' => a = m ∧ offers s' l

/-- Where nothing is on offer, no measurement can be read out. -/
def Limited (x : Acquisition) (w : World ε σ) (offers : σ → List Snapshot → Prop) : Prop :=
  ∀ s, offers s [] → Script.Fails w x.capture s fun es => ∀ e ∈ es, e.request.Harmless

/-- Of the measurements `l`, a run with the result `r` and the events `es` has measured `snapshots`,
in order. It fails only when it has measured all of them, and if they are `limited` it measures
nothing else. -/
structure Draws (x : Acquisition) (limited : Prop) (l : List Snapshot)
    (r : Except (Failure ε) Ending) (es : List (Event ε)) (snapshots : List Snapshot) : Prop where
  inOrder : snapshots.take l.length = l.take snapshots.length
  all : ∀ failure, r = .error failure → l.length ≤ snapshots.length
  nothingElse : limited → snapshots.length ≤ l.length
  written : limited ∨ (∃ ending, r = .ok ending) →
    (Event.written x.camera.device RegisterAddress.status.word es).length = snapshots.length

namespace Supply

variable {offers : σ → List Snapshot → Prop} {s : σ} {m : Snapshot} {l : List Snapshot}
  {p : Progress} {period budget : Nat}

theorem develop (h : x.Supply w offers) (hs : offers s l) (valid : m.Valid) :
    Script.Succeeds w (x.develop p m) s fun _ _ s' => offers s' l := by
  unfold Acquisition.develop
  rw [Decoder.decode_eq_ok _ _ _ _ valid]
  refine .bind (.request (h.kept _ id hs)) fun _ _ s₁ (h₁ : offers s₁ l) => ?_
  refine .bind (.request (h.kept _ id h₁)) fun _ _ s₂ (h₂ : offers s₂ l) => ?_
  exact .pure h₂

theorem measure (h : x.Supply w offers) (hs : offers s (m :: l)) (valid : m.Valid) :
    Script.Succeeds w (x.measure p) s fun p' es s' => x.Completes p m p' es ∧ offers s' l := by
  refine .bind (h.capture hs).traced ?_
  rintro a es₁ s₁ ⟨hc, rfl, h₁⟩
  refine (h.develop h₁ valid).traced.mono fun p' es₂ s₂ ⟨hd, h₂⟩ => ?_
  exact ⟨.of_parts x hc hd, h₂⟩

theorem pace (h : x.Supply w offers) (hs : offers s l) (elapsed sequence : Nat) :
    Script.Succeeds w (pace period elapsed sequence) s fun _ _ s' => offers s' l := by
  unfold Acquisition.pace
  by_cases hp : elapsed ≤ period
  · rw [if_pos hp]
    exact .request (h.kept _ id hs)
  · rw [if_neg hp]
    exact .request (h.kept _ id hs)

theorem cycle (h : x.Supply w offers) (hs : offers s (m :: l)) (valid : m.Valid) :
    Script.Succeeds w (x.cycle period p) s fun p' es s' =>
      x.Completes p m p' es ∧ offers s' l := by
  have clock (l : List Snapshot) (s : σ) (hs : offers s l) :
      Script.Succeeds w (Script.request .now) s fun time es s' =>
        es = [⟨.now, time⟩] ∧ offers s' l := .request ⟨rfl, h.kept _ id hs⟩
  refine .bind (clock _ s hs) ?_
  rintro started es₁ s₁ ⟨rfl, h₁⟩
  refine .bind (h.measure h₁ valid) ?_
  rintro p' es₂ s₂ ⟨completes, h₂⟩
  refine .bind (clock _ s₂ h₂) ?_
  rintro ended es₃ s₃ ⟨rfl, h₃⟩
  refine .bind (h.pace h₃ _ _).traced ?_
  rintro _ es₄ s₄ ⟨paced, h₄⟩
  refine .pure ⟨?_, h₄⟩
  have idle := asks_pace _ _ _ _ _ paced
  rw [List.append_nil]
  exact completes.wrap x (List.forall_mem_singleton.mpr trivial)
    (List.forall_mem_cons.mpr ⟨trivial, idle⟩)

theorem cycle_fails (h : x.Supply w offers) (limited : x.Limited w offers) (hs : offers s []) :
    Script.Fails w (x.cycle period p) s fun es =>
      Event.written x.camera.device RegisterAddress.status.word es = [] := by
  have clock : Script.Succeeds w (Script.request .now) s fun time es s' =>
      es = [⟨.now, time⟩] ∧ offers s' [] := .request ⟨rfl, h.kept _ id hs⟩
  refine clock.bind_fails ?_
  rintro time es₁ s₁ ⟨rfl, h₁⟩
  refine Script.Fails.bind (Script.Fails.bind ((limited s₁ h₁).mono fun es harmless => ?_))
  rw [Event.written_append, Event.written_of_harmless harmless]
  rfl

theorem course_nil (h : x.Supply w offers) (limited : x.Limited w offers) (hs : offers s []) :
    x.Course budget p ((x.cycles period budget p).run.run w s).1
        (Event.cycles ((x.cycles period budget p).run.events w s)) [] ∧
      Event.written x.camera.device RegisterAddress.status.word
        ((x.cycles period budget p).run.events w s) = [] := by
  cases budget with
  | zero => exact ⟨.unfinished p, rfl⟩
  | succ budget =>
    unfold Acquisition.cycles
    rw [Script.run_request_bind, Script.events_request_bind, Event.cycles_check rfl]
    have h₁ := h.kept .cancelled id hs
    generalize (w.reply s .cancelled).2 = s₁ at h₁
    cases (w.reply s .cancelled).1 with
    | true => exact ⟨.cancelled budget p, rfl⟩
    | false =>
      rw [if_neg Bool.false_ne_true]
      obtain ⟨failure, s₂, hc, silent⟩ := h.cycle_fails limited h₁
      rw [Script.run_bind_error hc, Script.events_bind_error hc]
      rcases x.trace_cycle (Script.trace_of_run hc) with ⟨_, -, internal⟩ | ⟨_, _, hp, -⟩
      · have unchecked := fun e he => Event.isCheck_of_internal (internal e he)
        rw [Event.setUp_of_unchecked unchecked, Event.cycles_of_unchecked unchecked]
        exact ⟨.failed budget p internal, silent⟩
      · cases hp

theorem course (h : x.Supply w offers) (hs : offers s l) (valid : ∀ m ∈ l, m.Valid) :
    ∃ snapshots,
      x.Course budget p ((x.cycles period budget p).run.run w s).1
        (Event.cycles ((x.cycles period budget p).run.events w s)) snapshots ∧
      x.Draws (x.Limited w offers) l ((x.cycles period budget p).run.run w s).1
        ((x.cycles period budget p).run.events w s) snapshots := by
  induction budget generalizing s p l with
  | zero => exact ⟨[], .unfinished p, by simp, nofun, fun _ => Nat.zero_le _, fun _ => rfl⟩
  | succ budget ih =>
    cases l with
    | nil =>
      by_cases limited : x.Limited w offers
      · obtain ⟨course, silent⟩ := h.course_nil limited hs
        exact ⟨[], course, rfl, fun _ _ => Nat.zero_le _, fun _ => Nat.zero_le _,
          fun _ => congrArg _ silent⟩
      · obtain ⟨none, snapshots, course⟩ :=
          trace_cycles (Program.trace_run w (x.cycles period (budget + 1) p).run s)
        refine ⟨snapshots, course, by simp, fun _ _ => Nat.zero_le _, fun h => absurd h limited,
          fun ending => ?_⟩
        rw [Event.written_eq_cycles, none]
        exact course.length_written (ending.resolve_left limited)
    | cons m l =>
      unfold Acquisition.cycles
      rw [Script.run_request_bind, Script.events_request_bind, Event.cycles_check rfl]
      have h₁ := h.kept .cancelled id hs
      generalize (w.reply s .cancelled).2 = s₁ at h₁
      cases (w.reply s .cancelled).1 with
      | true =>
        exact ⟨[], .cancelled budget p, by simp, nofun, fun _ => Nat.zero_le _, fun _ => rfl⟩
      | false =>
        rw [if_neg Bool.false_ne_true]
        obtain ⟨p', s₂, hc, completes, h₂⟩ := h.cycle h₁ (valid m List.mem_cons_self)
        rw [Script.run_bind_ok hc, Script.events_bind_ok hc]
        -- What follows begins with a check, so it adds nothing to this cycle.
        have none := (trace_cycles (Program.trace_run w (x.cycles period budget p').run s₂)).1
        obtain ⟨snapshots, course, same, all, limit, written⟩ :=
          ih h₂ fun m hm => valid m (List.mem_cons_of_mem _ hm)
        refine ⟨m :: snapshots, ?_, ?_, fun failure failed => Nat.succ_le_succ (all failure failed),
          fun limited => Nat.succ_le_succ (limit limited), fun ending => ?_⟩
        · rw [Event.setUp_append completes.unchecked, Event.cycles_append completes.unchecked, none,
            List.append_nil]
          exact .next completes course
        · rw [List.length_cons, List.length_cons, List.take_succ_cons, List.take_succ_cons, same]
        · rw [← List.singleton_append, Event.written_append, Event.written_append,
            List.length_append, List.length_append, completes.status_written, written ending]
          exact Nat.zero_add _ ▸ Nat.add_comm 1 _

theorem run (h : x.Supply w offers) (budget : Nat) (decoder : Decoder Float)
    (hs : Script.Succeeds w x.start s fun _ _ s' => offers s' l) (valid : ∀ m ∈ l, m.Valid) :
    ∃ snapshots,
      x.Course budget ⟨decoder, .empty⟩ ((x.run budget decoder).run.run w s).1
        (Event.cycles ((x.run budget decoder).run.events w s)) snapshots ∧
      x.Draws (x.Limited w offers) l ((x.run budget decoder).run.run w s).1
        ((x.run budget decoder).run.events w s) snapshots := by
  obtain ⟨rate, s₁, hr, offers₁⟩ := hs
  have setsUp := trace_start (Script.trace_of_run hr)
  unfold Acquisition.run
  rw [Script.run_bind_ok hr, Script.events_bind_ok hr, Event.cycles_append setsUp.unchecked]
  obtain ⟨snapshots, course, draws⟩ := h.course offers₁ valid
  refine ⟨snapshots, course, { draws with written := fun ends => ?_ }⟩
  rw [Event.written_append, setsUp.status_written, List.nil_append, draws.written ends]

theorem run_eq_unfinished (h : x.Supply w offers) {budget : Nat} {decoder : Decoder Float}
    (hs : Script.Succeeds w x.start s fun _ _ s' => offers s' l) (valid : ∀ m ∈ l, m.Valid)
    (unstopped : Event.stop ∉ (x.run budget decoder).run.events w s) (enough : budget ≤ l.length) :
    ((x.run budget decoder).run.run w s).1 = .ok .unfinished := by
  obtain ⟨snapshots, course, draws⟩ := h.run budget decoder hs valid
  cases result : ((x.run budget decoder).run.run w s).1 with
  | error failure =>
    have fewer : snapshots.length < budget :=
      course.length_lt fun done => nomatch result.symm.trans done
    have all := draws.all failure result
    omega
  | ok ending =>
    cases ending with
    | unfinished => rfl
    | cancelled =>
      have heeds := trace_run_heedsStop (Program.trace_run w (x.run budget decoder).run s)
      exact absurd (heeds.result.mp result) unstopped

end Supply

end Acquisition
end Thermopile
