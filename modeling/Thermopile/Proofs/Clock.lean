import Mathlib.Algebra.GroupWithZero.Nat
import Thermopile.Proofs.Event

namespace Thermopile

def Request.pause? : Request → Option Duration
  | .sleep time => some time
  | _ => none

namespace Event

variable {ε σ α : Type}

def sleeps (es : List (Event ε)) : List Duration := es.filterMap fun e => e.request.pause?

/-- Whenever the clock is read twice, `R` relates the first reading, with what is slept until the
second one added to it, to the second one. -/
def Clocked (R : Duration → Duration → Prop) (es : List (Event ε)) : Prop :=
  ∀ before between after time time',
    es = before ++ ⟨.now, time⟩ :: (between ++ ⟨.now, time'⟩ :: after) →
      R (time + (sleeps between).sum) time'

/-- The clock never goes back, and in a sleep it moves on by the time slept at least. -/
abbrev Steady (es : List (Event ε)) : Prop := Clocked (· ≤ ·) es

/-- Time passes in sleeps only, and there as long as is slept. -/
abbrev OnlySleeps (es : List (Event ε)) : Prop := Clocked (· = ·) es

variable {es es₁ es₂ : List (Event ε)} {R : Duration → Duration → Prop}

theorem OnlySleeps.steady (h : OnlySleeps es) : Steady es :=
  fun before between after time time' split =>
    Nat.le_of_eq (h before between after time time' split)

theorem sleeps_append : sleeps (es₁ ++ es₂) = sleeps es₁ ++ sleeps es₂ := List.filterMap_append

theorem sum_sleeps_cons (e : Event ε) :
    (sleeps (e :: es)).sum = e.request.pause?.getD 0 + (sleeps es).sum := by
  unfold sleeps
  rw [List.filterMap_cons]
  cases e.request.pause? with
  | none => exact (Nat.zero_add _).symm
  | some time => exact List.sum_cons

end Event

open Event (Clocked sleeps)

/-- The clock of `w` shows `time`, which passes as `R` says. -/
structure World.ShowsTime {ε σ : Type} (w : World ε σ) (R : Duration → Duration → Prop)
    (time : σ → Duration) : Prop where
  reads (s : σ) : (w.reply s .now).1 = time (w.reply s .now).2
  passes (s : σ) (q : Request) : R (time s + q.pause?.getD 0) (time (w.reply s q).2)

namespace Program

variable {ε σ α : Type} {w : World ε σ} {R : Duration → Duration → Prop} {time : σ → Duration}

def Additive (R : Duration → Duration → Prop) : Prop :=
  ∀ a b c n, R a b → R (b + n) c → R (a + n) c

theorem additive_le : Additive (· ≤ ·) :=
  fun _ _ _ n h h' => Nat.le_trans (Nat.add_le_add_right h n) h'

theorem additive_eq : Additive (· = ·) := fun _ _ _ _ h h' => h ▸ h'

theorem clocked_since (shows : w.ShowsTime R time) (additive : Additive R) (p : Program ε α) (s : σ)
    {start : Duration} (present : R start (time s)) {between after : List (Event ε)} {t : Duration}
    (split : p.events w s = between ++ ⟨.now, t⟩ :: after) :
    R (start + (sleeps between).sum) t := by
  induction p generalizing s start between with
  | done a => cases between <;> cases split
  | ask q next ih =>
    have passed : R (start + q.pause?.getD 0) (time (w.reply s q).2) :=
      additive _ _ _ _ present (shows.passes s q)
    cases between with
    | nil =>
      obtain ⟨head, -⟩ := List.cons.inj split
      cases head
      rw [shows.reads]
      exact passed
    | cons e between =>
      obtain ⟨rfl, rest⟩ := List.cons.inj split
      rw [Event.sum_sleeps_cons, ← Nat.add_assoc]
      exact ih _ _ passed rest

theorem clocked_events (shows : w.ShowsTime R time) (additive : Additive R) (refl : ∀ t, R t t)
    (p : Program ε α) (s : σ) : Clocked R (p.events w s) := by
  intro before between after t t' split
  induction p generalizing s before with
  | done a => cases before <;> cases split
  | ask q next ih =>
    cases before with
    | nil =>
      obtain ⟨head, rest⟩ := List.cons.inj split
      cases head
      rw [shows.reads]
      exact clocked_since shows additive _ _ (refl _) rest
    | cons e before => exact ih _ _ _ (List.cons.inj split).2

theorem steady_events (shows : w.ShowsTime (· ≤ ·) time) (p : Program ε α) (s : σ) :
    Event.Steady (p.events w s) :=
  clocked_events shows additive_le Nat.le_refl p s

theorem onlySleeps_events (shows : w.ShowsTime (· = ·) time) (p : Program ε α) (s : σ) :
    Event.OnlySleeps (p.events w s) :=
  clocked_events shows additive_eq (fun _ => rfl) p s

end Program
end Thermopile
