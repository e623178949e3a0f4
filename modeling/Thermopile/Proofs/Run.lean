import Thermopile.Proofs.Trace

namespace Thermopile.Script

variable {ε σ α β : Type} {w : World ε σ} {m : Script ε α} {f : α → Script ε β} {s s' : σ} {a : α}

theorem run_bind_ok (h : m.run.run w s = (.ok a, s')) :
    (m >>= f).run.run w s = (f a).run.run w s' := by
  change Program.run w (m.run >>= fun r => ExceptT.bindCont f r) s = _
  rw [Program.run_bind, h]
  rfl

theorem run_bind_error {failure : Failure ε} (h : m.run.run w s = (.error failure, s')) :
    (m >>= f).run.run w s = (.error failure, s') := by
  change Program.run w (m.run >>= fun r => ExceptT.bindCont f r) s = _
  rw [Program.run_bind, h]
  rfl

theorem events_bind_ok (h : m.run.run w s = (.ok a, s')) :
    (m >>= f).run.events w s = m.run.events w s ++ (f a).run.events w s' := by
  change Program.events w (m.run >>= fun r => ExceptT.bindCont f r) s = _
  rw [Program.events_bind, h]
  rfl

theorem events_bind_error {failure : Failure ε} (h : m.run.run w s = (.error failure, s')) :
    (m >>= f).run.events w s = m.run.events w s := by
  change Program.events w (m.run >>= fun r => ExceptT.bindCont f r) s = _
  rw [Program.events_bind, h]
  exact List.append_nil _

theorem run_request_bind {q : Request} {f : q.Reply ε → Script ε β} :
    (request q >>= f).run.run w s = (f (w.reply s q).1).run.run w (w.reply s q).2 := rfl

theorem events_request_bind {q : Request} {f : q.Reply ε → Script ε β} :
    (request q >>= f).run.events w s =
      ⟨q, (w.reply s q).1⟩ :: (f (w.reply s q).1).run.events w (w.reply s q).2 := rfl

theorem run_onBus {p : Program ε (Except ε α)} (h : p.run w s = (.ok a, s')) :
    (onBus p).run.run w s = (.ok a, s') := by
  change Program.run w (p >>= fun r => .done (r.mapError Failure.transport)) s = _
  rw [Program.run_bind, h]
  rfl

theorem events_onBus {p : Program ε (Except ε α)} :
    (onBus p).run.events w s = p.events w s := by
  change Program.events w (p >>= fun r => .done (r.mapError Failure.transport)) s = _
  rw [Program.events_bind]
  exact List.append_nil _

theorem run_lift {p : Program ε α} (h : p.run w s = (a, s')) :
    (ExceptT.lift p : Script ε α).run.run w s = (.ok a, s') := by
  change Program.run w (p >>= fun a => .done (Except.ok a)) s = _
  rw [Program.run_bind, h]
  rfl

/-- From `s` on, `m` succeeds with a result, events and a state that have property `Q`. -/
def Succeeds (w : World ε σ) (m : Script ε α) (s : σ) (Q : α → List (Event ε) → σ → Prop) : Prop :=
  ∃ a s', m.run.run w s = (.ok a, s') ∧ Q a (m.run.events w s) s'

variable {Q Q' : α → List (Event ε) → σ → Prop} {R : β → List (Event ε) → σ → Prop}

theorem Succeeds.pure (h : Q a [] s) : Succeeds w (pure a) s Q := ⟨a, s, rfl, h⟩

theorem Succeeds.bind (hm : Succeeds w m s Q)
    (hf : ∀ a es s', Q a es s' → Succeeds w (f a) s' fun b es' s'' => R b (es ++ es') s'') :
    Succeeds w (m >>= f) s R := by
  obtain ⟨a, s', hr, hq⟩ := hm
  obtain ⟨b, s'', hr', hq'⟩ := hf a _ s' hq
  refine ⟨b, s'', by rw [run_bind_ok hr, hr'], ?_⟩
  rw [events_bind_ok hr]
  exact hq'

theorem Succeeds.mono (hm : Succeeds w m s Q) (h : ∀ a es s', Q a es s' → Q' a es s') :
    Succeeds w m s Q' := by
  obtain ⟨a, s', hr, hq⟩ := hm
  exact ⟨a, s', hr, h a _ s' hq⟩

theorem trace_of_run {r : Except (Failure ε) α} (h : m.run.run w s = (r, s')) :
    Script.Trace m r (m.run.events w s) := by
  have trace := Program.trace_run w m.run s
  rw [h] at trace
  exact trace

theorem Succeeds.traced (hm : Succeeds w m s Q) :
    Succeeds w m s fun a es s' => Script.Trace m (.ok a) es ∧ Q a es s' := by
  obtain ⟨a, s', hr, hq⟩ := hm
  exact ⟨a, s', hr, trace_of_run hr, hq⟩

/-- From `s` on, `m` fails after events that have property `T`. -/
def Fails (w : World ε σ) (m : Script ε α) (s : σ) (T : List (Event ε) → Prop) : Prop :=
  ∃ failure s', m.run.run w s = (.error failure, s') ∧ T (m.run.events w s)

variable {T : List (Event ε) → Prop}

theorem Fails.bind (hm : Fails w m s T) : Fails w (m >>= f) s T := by
  obtain ⟨failure, s', hr, ht⟩ := hm
  exact ⟨failure, s', run_bind_error hr, (events_bind_error hr).symm ▸ ht⟩

theorem Fails.mono {T' : List (Event ε) → Prop} (hm : Fails w m s T) (h : ∀ es, T es → T' es) :
    Fails w m s T' := by
  obtain ⟨failure, s', hr, ht⟩ := hm
  exact ⟨failure, s', hr, h _ ht⟩

theorem Succeeds.bind_fails (hm : Succeeds w m s Q)
    (hf : ∀ a es s', Q a es s' → Fails w (f a) s' fun es' => T (es ++ es')) :
    Fails w (m >>= f) s T := by
  obtain ⟨a, s', hr, hq⟩ := hm
  obtain ⟨failure, s'', hr', ht⟩ := hf a _ s' hq
  refine ⟨failure, s'', by rw [run_bind_ok hr, hr'], ?_⟩
  rw [events_bind_ok hr]
  exact ht

theorem Fails.asks {P : Request → Prop} (hm : Fails w m s T) (h : Asks P m) :
    Fails w m s fun es => ∀ e ∈ es, P e.request := by
  obtain ⟨failure, s', hr, -⟩ := hm
  exact ⟨failure, s', hr, h _ _ (Program.trace_run w m.run s)⟩

def FailsWith (w : World ε σ) (m : Script ε α) (s : σ) (failure : Failure ε) : Prop :=
  (m.run.run w s).1 = .error failure

variable {failure : Failure ε}

theorem FailsWith.run_eq (h : FailsWith w m s failure) :
    m.run.run w s = (.error failure, (m.run.run w s).2) := Prod.ext h rfl

theorem FailsWith.trace (h : FailsWith w m s failure) :
    Script.Trace m (.error failure) (m.run.events w s) := trace_of_run h.run_eq

/-- What a sequence of two parts results in: a failure of the first part, or, if that succeeds, what
the second part results in. -/
theorem run_bind_eq_iff {r : Except (Failure ε) β} : ((m >>= f).run.run w s).1 = r ↔
    (∃ failure, FailsWith w m s failure ∧ .error failure = r) ∨
      ∃ a s', m.run.run w s = (.ok a, s') ∧ ((f a).run.run w s').1 = r := by
  unfold FailsWith
  rcases h : m.run.run w s with ⟨outcome, s'⟩
  cases outcome with
  | error failure =>
    rw [run_bind_error h]
    simp only [Except.error.injEq, Prod.mk.injEq, reduceCtorEq, false_and, exists_false, or_false,
      exists_eq_left']
  | ok a =>
    rw [run_bind_ok h]
    simp only [Except.ok.injEq, Prod.mk.injEq, reduceCtorEq, false_and, exists_false, false_or,
      and_assoc, exists_and_left, exists_eq_left']

theorem failsWith_bind : FailsWith w (m >>= f) s failure ↔
    FailsWith w m s failure ∨
      ∃ a s', m.run.run w s = (.ok a, s') ∧ FailsWith w (f a) s' failure := by
  refine run_bind_eq_iff.trans (or_congr_left ⟨?_, fun fails => ⟨failure, fails, rfl⟩⟩)
  rintro ⟨_, fails, ⟨⟩⟩
  exact fails

theorem failsWith_request_bind {q : Request} {f : q.Reply ε → Script ε β} :
    FailsWith w (Script.request q >>= f) s failure ↔
      FailsWith w (f (w.reply s q).1) (w.reply s q).2 failure := Iff.rfl

theorem failsWith_lift_bind {p : Program ε α} : FailsWith w (ExceptT.lift p >>= f) s failure ↔
    FailsWith w (f (p.run w s).1) (p.run w s).2 failure := by
  unfold FailsWith
  rw [run_bind_ok (run_lift rfl)]

theorem Succeeds.request {q : Request} {Q : q.Reply ε → List (Event ε) → σ → Prop}
    (h : Q (w.reply s q).1 [⟨q, (w.reply s q).1⟩] (w.reply s q).2) :
    Succeeds w (request q) s Q :=
  ⟨_, _, rfl, h⟩

end Thermopile.Script
