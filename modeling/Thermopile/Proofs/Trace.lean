import Thermopile.Program

namespace Thermopile

variable {ε σ α β : Type}

namespace Program

/-- `Trace p a es`: with suitable replies, `p` ends with `a` after the events `es`. -/
inductive Trace : Program ε α → α → List (Event ε) → Prop
  | done (a : α) : Trace (.done a) a []
  | ask {q : Request} {next : q.Reply ε → Program ε α} {a : α} {es : List (Event ε)}
      (r : q.Reply ε) : Trace (next r) a es → Trace (.ask q next) a (⟨q, r⟩ :: es)

theorem trace_run (w : World ε σ) (p : Program ε α) (s : σ) :
    Trace p (p.run w s).1 (p.events w s) := by
  induction p generalizing s with
  | done a => exact .done a
  | ask q next ih => exact .ask _ (ih _ _)

theorem trace_done {a b : α} {es : List (Event ε)} :
    Trace (.done a) b es ↔ b = a ∧ es = [] := by
  constructor
  · intro h
    cases h
    exact ⟨rfl, rfl⟩
  · rintro ⟨rfl, rfl⟩
    exact .done _

theorem trace_pure {a b : α} {es : List (Event ε)} :
    Trace (pure a : Program ε α) b es ↔ b = a ∧ es = [] := trace_done

theorem trace_ask {q : Request} {next : q.Reply ε → Program ε α} {a : α}
    {es : List (Event ε)} :
    Trace (.ask q next) a es ↔ ∃ r rest, Trace (next r) a rest ∧ es = ⟨q, r⟩ :: rest := by
  constructor
  · intro h
    cases h with
    | ask r h => exact ⟨r, _, h, rfl⟩
  · rintro ⟨r, rest, h, rfl⟩
    exact .ask r h

theorem trace_request {q : Request} {r : q.Reply ε} {es : List (Event ε)} :
    Trace (request q) r es ↔ es = [⟨q, r⟩] := by
  unfold request
  rw [trace_ask]
  constructor
  · rintro ⟨reply, rest, h, rfl⟩
    obtain ⟨rfl, rfl⟩ := trace_done.mp h
    rfl
  · rintro rfl
    exact ⟨r, [], .done r, rfl⟩

theorem trace_bind {p : Program ε α} {f : α → Program ε β} {b : β} {es : List (Event ε)} :
    Trace (p >>= f) b es ↔
      ∃ a es₁ es₂, Trace p a es₁ ∧ Trace (f a) b es₂ ∧ es = es₁ ++ es₂ := by
  induction p generalizing es with
  | done a =>
    constructor
    · intro h
      exact ⟨a, [], es, .done a, h, rfl⟩
    · rintro ⟨a', es₁, es₂, h₁, h₂, rfl⟩
      obtain ⟨rfl, rfl⟩ := trace_done.mp h₁
      exact h₂
  | ask q next ih =>
    constructor
    · intro h
      obtain ⟨r, rest, hr, rfl⟩ := trace_ask.mp h
      obtain ⟨a, es₁, es₂, h₁, h₂, rfl⟩ := (ih r).mp hr
      exact ⟨a, ⟨q, r⟩ :: es₁, es₂, .ask r h₁, h₂, rfl⟩
    · rintro ⟨a, es₁, es₂, h₁, h₂, rfl⟩
      obtain ⟨r, rest, hr, rfl⟩ := trace_ask.mp h₁
      exact trace_ask.mpr ⟨r, rest ++ es₂, (ih r).mpr ⟨a, rest, es₂, hr, h₂, rfl⟩, rfl⟩

/-- Every request that `p` can make has property `P`. -/
def Asks (P : Request → Prop) (p : Program ε α) : Prop :=
  ∀ a es, Trace p a es → ∀ e ∈ es, P e.request

variable {P : Request → Prop}

theorem asks_done (a : α) : Asks P (.done a : Program ε α) := by
  intro b es h e he
  rw [(trace_done.mp h).2] at he
  cases he

theorem asks_ask {q : Request} {next : q.Reply ε → Program ε α} (hq : P q)
    (hn : ∀ r, Asks P (next r)) : Asks P (.ask q next) := by
  intro a es h e he
  obtain ⟨r, rest, hr, rfl⟩ := trace_ask.mp h
  cases he with
  | head => exact hq
  | tail _ he => exact hn r a rest hr e he

theorem asks_bind {p : Program ε α} {f : α → Program ε β} (hp : Asks P p)
    (hf : ∀ a, Asks P (f a)) : Asks P (p >>= f) := by
  intro b es h e he
  obtain ⟨a, es₁, es₂, h₁, h₂, rfl⟩ := trace_bind.mp h
  rcases List.mem_append.mp he with he | he
  · exact hp a es₁ h₁ e he
  · exact hf a b es₂ h₂ e he

end Program

namespace Script

abbrev Trace (m : Script ε α) (r : Except (Failure ε) α) (es : List (Event ε)) : Prop :=
  Program.Trace m.run r es

variable {m : Script ε α} {f : α → Script ε β} {r : Except (Failure ε) α} {es : List (Event ε)}

theorem trace_pure {a : α} : Trace (pure a : Script ε α) r es ↔ r = .ok a ∧ es = [] :=
  Program.trace_done

theorem trace_fail {fault : Fault} :
    Trace (fail fault : Script ε α) r es ↔ r = .error (.library fault) ∧ es = [] :=
  Program.trace_done

theorem trace_lift {p : Program ε α} :
    Trace (ExceptT.lift p : Script ε α) r es ↔ ∃ a, Program.Trace p a es ∧ r = .ok a := by
  change Program.Trace (p >>= fun a => .done (.ok a)) r es ↔ _
  rw [Program.trace_bind]
  constructor
  · rintro ⟨a, es₁, es₂, h₁, h₂, rfl⟩
    obtain ⟨rfl, rfl⟩ := Program.trace_done.mp h₂
    exact ⟨a, by rwa [List.append_nil], rfl⟩
  · rintro ⟨a, h, rfl⟩
    exact ⟨a, es, [], h, .done _, (List.append_nil es).symm⟩

theorem trace_request {q : Request} {r : Except (Failure ε) (q.Reply ε)} :
    Trace (request q) r es ↔ ∃ reply, r = .ok reply ∧ es = [⟨q, reply⟩] := by
  unfold request
  simp only [trace_lift, Program.trace_request, and_comm]

theorem trace_onBus {p : Program ε (Except ε α)} :
    Trace (onBus p) r es ↔ ∃ x, Program.Trace p x es ∧ r = x.mapError .transport := by
  change Program.Trace (p >>= fun x => .done (x.mapError .transport)) r es ↔ _
  rw [Program.trace_bind]
  constructor
  · rintro ⟨x, es₁, es₂, h₁, h₂, rfl⟩
    obtain ⟨rfl, rfl⟩ := Program.trace_done.mp h₂
    exact ⟨x, by rwa [List.append_nil], rfl⟩
  · rintro ⟨x, h, rfl⟩
    exact ⟨x, es, [], h, .done _, (List.append_nil es).symm⟩

theorem trace_bind {r : Except (Failure ε) β} :
    Trace (m >>= f) r es ↔
      (∃ failure, Trace m (.error failure) es ∧ r = .error failure) ∨
      ∃ a es₁ es₂, Trace m (.ok a) es₁ ∧ Trace (f a) r es₂ ∧ es = es₁ ++ es₂ := by
  change Program.Trace (m.run >>= fun x => ExceptT.bindCont f x) r es ↔ _
  rw [Program.trace_bind]
  constructor
  · rintro ⟨x, es₁, es₂, h₁, h₂, rfl⟩
    cases x with
    | error failure =>
      obtain ⟨rfl, rfl⟩ := Program.trace_done.mp h₂
      exact .inl ⟨failure, by rwa [List.append_nil], rfl⟩
    | ok a => exact .inr ⟨a, es₁, es₂, h₁, h₂, rfl⟩
  · rintro (⟨failure, h, rfl⟩ | ⟨a, es₁, es₂, h₁, h₂, rfl⟩)
    · exact ⟨.error failure, es, [], h, .done _, (List.append_nil es).symm⟩
    · exact ⟨.ok a, es₁, es₂, h₁, h₂, rfl⟩

theorem trace_bind_ok {b : β} :
    Trace (m >>= f) (.ok b) es ↔
      ∃ a es₁ es₂, Trace m (.ok a) es₁ ∧ Trace (f a) (.ok b) es₂ ∧ es = es₁ ++ es₂ := by
  simp only [trace_bind, reduceCtorEq, and_false, exists_false, false_or]

/-- A request cannot fail, so what follows it is always reached. -/
theorem trace_request_bind {q : Request} {f : q.Reply ε → Script ε β}
    {r : Except (Failure ε) β} :
    Trace (request q >>= f) r es ↔
      ∃ reply rest, Trace (f reply) r rest ∧ es = ⟨q, reply⟩ :: rest := by
  change Program.Trace (.ask q fun reply => (f reply).run) r es ↔ _
  exact Program.trace_ask

abbrev Asks (P : Request → Prop) (m : Script ε α) : Prop := Program.Asks P m.run

variable {P : Request → Prop}

theorem asks_pure (a : α) : Asks P (pure a : Script ε α) := Program.asks_done _

theorem asks_fail (fault : Fault) : Asks P (fail fault : Script ε α) := Program.asks_done _

theorem asks_lift {p : Program ε α} (h : Program.Asks P p) :
    Asks P (ExceptT.lift p : Script ε α) :=
  Program.asks_bind h fun _ => Program.asks_done _

theorem asks_request {q : Request} (h : P q) : Asks P (request q : Script ε _) :=
  asks_lift (Program.asks_ask h Program.asks_done)

theorem asks_onBus {p : Program ε (Except ε α)} (h : Program.Asks P p) : Asks P (onBus p) :=
  Program.asks_bind h fun _ => Program.asks_done _

theorem asks_bind (hm : Asks P m) (hf : ∀ a, Asks P (f a)) : Asks P (m >>= f) := by
  refine Program.asks_bind hm fun x => ?_
  cases x with
  | error failure => exact Program.asks_done _
  | ok a => exact hf a

end Script
end Thermopile
