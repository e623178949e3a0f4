import Thermopile.Proofs.Camera
import Thermopile.Proofs.Register
import Thermopile.Proofs.WordSequence

namespace Thermopile

/-- The status word tells of new data, of the wanted subpage if one is wanted. -/
def Status.Announces (wanted : Option Subpage) (w : Word) : Prop :=
  w.bit 3 = true ∧ ∀ p ∈ wanted, w.toNat % 2 = p.toNat

theorem Status.announces_iff {wanted : Option Subpage} {w : Word} :
    Announces wanted w ↔
      (ofWord w).newData = true ∧ wanted.all (· = (ofWord w).lastSubpage) = true := by
  have names (p : Subpage) : w.toNat % 2 = p.toNat ↔ p = (ofWord w).lastSubpage := by
    have low : w.bit 0 = decide (w.toNat % 2 = 1) := by
      rw [Word.bit_eq_decide, Nat.pow_zero, Nat.div_one]
    simp only [ofWord, low, decide_eq_true_eq]
    rcases Nat.mod_two_eq_zero_or_one w.toNat with h | h <;> cases p <;> simp [h, Subpage.toNat]
  have new : (ofWord w).newData = w.bit 3 := rfl
  cases wanted with
  | none => simp [Announces, new]
  | some p => rw [Announces, new, Option.all_some, decide_eq_true_iff, ← names]; simp

namespace Camera

variable {ε σ : Type} (x : Camera)

/-- The events of one poll that finds the status word `w`. -/
def pollEvents (poll : Nat) (w : Word) : List (Event ε) :=
  [x.wordSent (Register.address Status) w,
    ⟨.notice (.statusPolled poll (Status.ofWord w).newData (Status.ofWord w).lastSubpage), ()⟩]

def pollsEvents (words : Nat → Word) (first last : Nat) : List (Event ε) :=
  [⟨.sleep x.config.pollInterval, ()⟩].intercalate
    ((List.range' first (last + 1 - first)).map fun poll => x.pollEvents poll (words poll))

variable (words : Nat → Word) {first last : Nat}

theorem pollsEvents_eq_nil (h : last < first) :
    (x.pollsEvents words first last : List (Event ε)) = [] := by
  rw [pollsEvents, Nat.sub_eq_zero_of_le h]
  rfl

theorem pollsEvents_self (n : Nat) :
    (x.pollsEvents words n n : List (Event ε)) = x.pollEvents n (words n) := by
  rw [pollsEvents, Nat.add_sub_cancel_left, List.range'_one, List.map_singleton,
    List.intercalate_singleton]

theorem pollsEvents_of_lt (h : first < last) :
    (x.pollsEvents words first last : List (Event ε)) =
      x.pollEvents first (words first) ++ ⟨.sleep x.config.pollInterval, ()⟩ ::
        x.pollsEvents words (first + 1) last := by
  have more : last + 1 - first = last - (first + 1) + 1 + 1 := by omega
  have rest : last + 1 - (first + 1) = last - (first + 1) + 1 := by omega
  rw [pollsEvents, pollsEvents, more, rest, List.range'_succ, List.range'_succ, List.map_cons,
    List.map_cons, List.intercalate_cons_cons]
  simp

variable {x words} {wanted : Option Subpage} {polls : Nat} {α : Type}
  {es : List (Event ε)}

theorem trace_readRegister_bind {R : Type} [Register R] {f : R → Script ε α}
    {r : Except (Failure ε) α} (h : Script.Trace (x.readRegister R >>= f) r es)
    (unfailed : ∀ e ∈ es, e.failure? = none) :
    ∃ v rest, Script.Trace (f (Register.ofWord v)) r rest ∧
      es = x.wordSent (Register.address R) v :: rest := by
  rcases Script.trace_bind.mp h with ⟨failure, hr, -⟩ | ⟨a, es₁, es₂, hr, hf, rfl⟩
  · obtain ⟨v, rest, hp, -⟩ := trace_readWord_bind hr unfailed
    cases (Script.trace_pure.mp hp).1
  · obtain ⟨v, rest, hp, rfl⟩ :=
      trace_readWord_bind hr fun e he => unfailed e (List.mem_append_left es₂ he)
    obtain ⟨ha, rfl⟩ := Script.trace_pure.mp hp
    obtain rfl := Except.ok.inj ha
    exact ⟨v, es₂, hf, rfl⟩

/-- A poll reads one status word. It is the last if that is the one that is waited for. -/
theorem trace_poll_succ {r : Except (Failure ε) Status}
    (h : Script.Trace (x.poll wanted (polls + 1)) r es)
    (unfailed : ∀ e ∈ es, e.failure? = none)
    (read : Event.ReadsFrom x.device RegisterAddress.status.word words first es)
    (numbered : first + polls = x.config.maxPolls) :
    ∃ rest, es = x.pollEvents first (words first) ++ rest ∧
      (Status.Announces wanted (words first) → rest = [] ∧ r = .ok (.ofWord (words first))) ∧
      (¬Status.Announces wanted (words first) → ∃ later,
        rest = (if polls = 0 then [] else [⟨.sleep x.config.pollInterval, ()⟩]) ++ later ∧
        (∀ e ∈ later, e.failure? = none) ∧
        Event.ReadsFrom x.device RegisterAddress.status.word words (first + 1) later ∧
        Script.Trace (x.poll wanted polls) r later) := by
  obtain ⟨v, es₁, h₁, rfl⟩ := trace_readRegister_bind h unfailed
  obtain ⟨rfl, read₁⟩ := read.next (x.wordRead?_wordSent (Register.address Status) v)
  obtain ⟨_, rest, h₂, rfl⟩ := Script.trace_request_bind.mp h₁
  have poll : x.config.maxPolls - polls = first := by omega
  have status : (Register.ofWord (words first) : Status) = Status.ofWord (words first) := rfl
  simp only [List.forall_mem_cons] at unfailed
  rw [status] at h₂
  refine ⟨rest, by rw [poll]; rfl, ?_, ?_⟩
  · intro announced
    rw [if_pos (Status.announces_iff.mp announced)] at h₂
    obtain ⟨hr, rfl⟩ := Script.trace_pure.mp h₂
    exact ⟨rfl, hr⟩
  · intro other
    rw [if_neg (mt Status.announces_iff.mpr other)] at h₂
    by_cases used : polls = 0
    · rw [if_neg (not_not.mpr used)] at h₂
      rw [if_pos used]
      exact ⟨rest, rfl, unfailed.2.2, read₁.tail rfl, h₂⟩
    · rw [if_pos used] at h₂
      obtain ⟨_, later, h₃, rfl⟩ := Script.trace_request_bind.mp h₂
      simp only [List.forall_mem_cons] at unfailed
      rw [if_neg used]
      exact ⟨later, rfl, unfailed.2.2.2, (read₁.tail rfl).tail rfl, h₃⟩

theorem trace_poll {r : Except (Failure ε) Status}
    (h : Script.Trace (x.poll wanted polls) r es) (unfailed : ∀ e ∈ es, e.failure? = none)
    (read : Event.ReadsFrom x.device RegisterAddress.status.word words first es)
    (numbered : first + polls = x.config.maxPolls + 1) :
    (∀ j ≤ x.config.maxPolls, FirstFrom (fun i => Status.Announces wanted (words i)) first j →
      es = x.pollsEvents words first j ∧ r = .ok (.ofWord (words j))) ∧
    ((∀ i, first ≤ i → i ≤ x.config.maxPolls → ¬Status.Announces wanted (words i)) →
      es = x.pollsEvents words first x.config.maxPolls ∧
        r = .error (.library (.timeout x.config.maxPolls))) := by
  induction polls generalizing first es with
  | zero =>
    obtain ⟨hr, rfl⟩ := Script.trace_fail.mp h
    refine ⟨fun j within found => absurd found.le (by omega), fun _ => ⟨?_, hr⟩⟩
    rw [pollsEvents_eq_nil x words (by omega)]
  | succ polls ih =>
    obtain ⟨rest, rfl, announced, other⟩ := trace_poll_succ h unfailed read (by omega)
    by_cases hit : Status.Announces wanted (words first)
    · obtain ⟨rfl, hr⟩ := announced hit
      constructor
      · intro j within found
        obtain rfl := found.eq_of_holds hit
        rw [pollsEvents_self, List.append_nil]
        exact ⟨rfl, hr⟩
      · intro none
        exact absurd hit (none first (Nat.le_refl first) (by omega))
    · obtain ⟨later, rfl, unfailed', read', trace⟩ := other hit
      obtain ⟨stops, exhausted⟩ := ih trace unfailed' read' (by omega)
      constructor
      · intro j within found
        have next := found.of_not_holds hit
        obtain ⟨rfl, hr⟩ := stops j within next
        have more := next.le
        rw [if_neg (by omega), pollsEvents_of_lt x words next.le]
        exact ⟨rfl, hr⟩
      · intro none
        obtain ⟨rfl, hr⟩ := exhausted fun i hi => none i (Nat.le_of_succ_le hi)
        refine ⟨?_, hr⟩
        by_cases used : polls = 0
        · have last : x.config.maxPolls = first := by omega
          rw [if_pos used, last, pollsEvents_self, pollsEvents_eq_nil x words (Nat.lt_succ_self _)]
          rfl
        · have more : first < x.config.maxPolls := by omega
          rw [if_neg used, pollsEvents_of_lt x words more]
          rfl

/-- Nothing is written while the camera is polled. Where no transaction fails and `words 1`,
`words 2` and so on are read as the status, the polls end with the first of these that is the one
that is waited for, which is the result, or else after the last poll, with a timeout. -/
theorem polls_until_announced (x : Camera) (wanted : Option Subpage) (w : World ε σ) (s : σ) :
    let polls := x.config.maxPolls
    let events := (x.waitForData wanted).run.events w s
    let result := ((x.waitForData wanted).run.run w s).1
    (∀ e ∈ events, Request.Harmless e.request) ∧
    ∀ words : Nat → Word, (∀ e ∈ events, e.failure? = none) →
      Event.ReadsFrom x.device RegisterAddress.status.word words 1 events →
      (∀ j ≤ polls, FirstFrom (fun i => Status.Announces wanted (words i)) 1 j →
        events = x.pollsEvents words 1 j ∧ result = .ok (.ofWord (words j))) ∧
      ((∀ i, 1 ≤ i → i ≤ polls → ¬Status.Announces wanted (words i)) →
        events = x.pollsEvents words 1 polls ∧
          result = .error (.library (.timeout polls))) := by
  intro polls events result
  have trace : Script.Trace (x.poll wanted polls) result events :=
    Program.trace_run w (x.waitForData wanted).run s
  refine ⟨x.asks_poll wanted polls _ _ trace, fun words unfailed read => ?_⟩
  exact trace_poll trace unfailed read (Nat.add_comm 1 polls)

def thirdIsWanted (i : Nat) : Word := if i = 1 then 0 else if i = 2 then 8 else 9

/-- Of five polls three are made. Where no poll is allowed none is made, and the wait fails. -/
theorem polls_until_announced_third :
    ((waitForData ⟨0x33, { maxPolls := 5 }⟩ (some .one)).run.events (wordBus thirdIsWanted) 0 =
      pollsEvents ⟨0x33, { maxPolls := 5 }⟩ thirdIsWanted 1 3 ∧
    ((waitForData ⟨0x33, { maxPolls := 5 }⟩ (some .one)).run.run (wordBus thirdIsWanted) 0).1 =
      .ok (.ofWord 9)) ∧
    (waitForData ⟨0x33, { maxPolls := 0 }⟩ (some .one)).run.events (wordBus thirdIsWanted) 0 =
      pollsEvents ⟨0x33, { maxPolls := 0 }⟩ thirdIsWanted 1 0 ∧
    ((waitForData ⟨0x33, { maxPolls := 0 }⟩ (some .one)).run.run (wordBus thirdIsWanted) 0).1 =
      .error (.library (.timeout 0)) := by
  have third : FirstFrom (fun i => Status.Announces (some .one) (thirdIsWanted i)) 1 3 := by
    refine ⟨by decide, ⟨rfl, by decide⟩, fun i after before => ?_⟩
    have early : i = 1 ∨ i = 2 := by omega
    rcases early with rfl | rfl <;> rw [Status.announces_iff] <;> decide
  constructor
  · exact ((polls_until_announced ⟨0x33, { maxPolls := 5 }⟩ (some .one) (wordBus thirdIsWanted)
      0).2 thirdIsWanted (by decide) ⟨3, rfl⟩).1 3 (by decide) third
  · exact ((polls_until_announced ⟨0x33, { maxPolls := 0 }⟩ (some .one) (wordBus thirdIsWanted)
      0).2 thirdIsWanted (by decide) ⟨0, rfl⟩).2 fun i after within =>
        absurd (Nat.le_trans after within) (by decide)

end Camera
end Thermopile
