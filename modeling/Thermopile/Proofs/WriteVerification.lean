import Thermopile.Proofs.WordSequence

namespace Thermopile.Camera

variable {ε σ : Type} (x : Camera) (a : Address) (value : Word)

/-- The events of a round in which `actual` is read back. -/
def roundEvents (attempts round : Nat) (actual : Word) : List (Event ε) :=
  [x.wordTaken a 0, ⟨.sleep x.config.eepromEraseDelay, ()⟩,
    x.wordTaken a value, ⟨.sleep x.config.eepromWriteDelay, ()⟩,
    x.wordSent a actual,
    ⟨.notice (if actual = value then .eepromWritten a value
      else .eepromUnverified a round attempts value actual), ()⟩]

def roundsEvents (words : Nat → Word) (attempts first last : Nat) : List (Event ε) :=
  (List.range' first (last + 1 - first)).flatMap fun round =>
    x.roundEvents a value attempts round (words round)

theorem roundsEvents_eq_nil (words : Nat → Word) (attempts : Nat) {first last : Nat}
    (h : last < first) :
    (x.roundsEvents a value words attempts first last : List (Event ε)) = [] := by
  rw [roundsEvents, Nat.sub_eq_zero_of_le h]
  rfl

theorem roundsEvents_of_le (words : Nat → Word) (attempts : Nat) {first last : Nat}
    (h : first ≤ last) :
    (x.roundsEvents a value words attempts first last : List (Event ε)) =
      x.roundEvents a value attempts first (words first) ++
        x.roundsEvents a value words attempts (first + 1) last := by
  have more : last + 1 - first = last + 1 - (first + 1) + 1 := by omega
  rw [roundsEvents, more, List.range'_succ, List.flatMap_cons]
  rfl

variable {x a value} {words : Nat → Word} {attempts first rounds : Nat} {actual : Word}
  {r : Except (Failure ε) Unit} {es : List (Event ε)}

/-- A round reads one word back. It is the last if that is the word that was written. -/
theorem trace_writeRounds_succ
    (h : Script.Trace (x.writeRounds a value attempts (rounds + 1) actual) r es)
    (unfailed : ∀ e ∈ es, e.failure? = none)
    (read : Event.ReadsFrom x.device a.word words first es) (numbered : first + rounds = attempts) :
    ∃ rest, es = x.roundEvents a value attempts first (words first) ++ rest ∧
      (∀ e ∈ rest, e.failure? = none) ∧
      Event.ReadsFrom x.device a.word words (first + 1) rest ∧
      (words first = value → rest = [] ∧ r = .ok ()) ∧
      (words first ≠ value →
        Script.Trace (x.writeRounds a value attempts rounds (words first)) r rest) := by
  obtain ⟨es₁, h₁, rfl⟩ := trace_writeWord_bind h unfailed
  obtain ⟨_, es₂, h₂, rfl⟩ := Script.trace_request_bind.mp h₁
  simp only [List.forall_mem_cons] at unfailed
  obtain ⟨es₃, h₃, rfl⟩ := trace_writeWord_bind h₂ unfailed.2.2
  obtain ⟨_, es₄, h₄, rfl⟩ := Script.trace_request_bind.mp h₃
  simp only [List.forall_mem_cons] at unfailed
  obtain ⟨v, es₅, h₅, rfl⟩ := trace_readWord_bind h₄ unfailed.2.2.2.2
  obtain ⟨rfl, read₅⟩ := (read.tail rfl |>.tail rfl |>.tail rfl |>.tail rfl).next
    (x.wordRead?_wordSent a v)
  simp only [List.forall_mem_cons] at unfailed
  have unfailed₅ := unfailed.2.2.2.2.2
  have round : attempts - rounds = first := by omega
  by_cases verified : words first = value
  · rw [if_pos verified] at h₅
    obtain ⟨_, hr, rfl⟩ := Script.trace_request.mp h₅
    refine ⟨[], ?_, by simp, read₅.tail rfl, fun _ => ⟨rfl, hr⟩, fun differs => ?_⟩
    · rw [roundEvents, if_pos verified]
      rfl
    · exact absurd verified differs
  · rw [if_neg verified] at h₅
    obtain ⟨_, rest, h₆, rfl⟩ := Script.trace_request_bind.mp h₅
    refine ⟨rest, ?_, (List.forall_mem_cons.mp unfailed₅).2, read₅.tail rfl, ?_, fun _ => h₆⟩
    · rw [roundEvents, if_neg verified, round]
      rfl
    · exact fun equal => absurd equal verified

theorem trace_writeRounds
    (h : Script.Trace (x.writeRounds a value attempts rounds actual) r es)
    (unfailed : ∀ e ∈ es, e.failure? = none)
    (read : Event.ReadsFrom x.device a.word words first es)
    (numbered : first + rounds = attempts + 1) (last : rounds = 0 → actual = words attempts) :
    (∀ m ≤ attempts, FirstFrom (words · = value) first m →
      es = x.roundsEvents a value words attempts first m ∧ r = .ok ()) ∧
    ((∀ i, first ≤ i → i ≤ attempts → words i ≠ value) →
      es = x.roundsEvents a value words attempts first attempts ∧
        r = .error (.library (.writeVerification a value (words attempts) attempts))) := by
  induction rounds generalizing first actual es with
  | zero =>
    obtain ⟨hr, rfl⟩ := Script.trace_fail.mp h
    rw [last rfl] at hr
    refine ⟨fun m within found => absurd found.le (by omega), fun _ => ⟨?_, hr⟩⟩
    rw [roundsEvents_eq_nil x a value words attempts (by omega)]
  | succ rounds ih =>
    obtain ⟨rest, rfl, unfailed', read', verified, differs⟩ :=
      trace_writeRounds_succ h unfailed read (by omega)
    by_cases equal : words first = value
    · obtain ⟨rfl, hr⟩ := verified equal
      constructor
      · intro m within found
        obtain rfl := found.eq_of_holds equal
        rw [roundsEvents_of_le x a value words attempts (Nat.le_refl m),
          roundsEvents_eq_nil x a value words attempts (Nat.lt_succ_self m)]
        exact ⟨rfl, hr⟩
      · intro none
        exact absurd equal (none first (Nat.le_refl first) (by omega))
    · have next : rounds = 0 → words first = words attempts := by
        intro used
        rw [show attempts = first by omega]
      obtain ⟨stops, exhausted⟩ := ih (differs equal) unfailed' read' (by omega) next
      constructor
      · intro m within found
        obtain ⟨rfl, hr⟩ := stops m within (found.of_not_holds equal)
        exact ⟨(roundsEvents_of_le x a value words attempts found.le).symm, hr⟩
      · intro none
        obtain ⟨rfl, hr⟩ := exhausted fun i hi => none i (Nat.le_of_succ_le hi)
        exact ⟨(roundsEvents_of_le x a value words attempts (by omega)).symm, hr⟩

/-- Where no transaction fails and `words 1`, `words 2` and so on are read back, the rounds end with
the first of these that is the word that was written, or else after the last attempt, of which there
is at least one; only in that case does the write fail, with the word that was read back last. -/
theorem writes_in_bounded_rounds (x : Camera) (a : Address) (value : Word) (w : World ε σ) (s : σ)
    (words : Nat → Word)
    (unfailed : ∀ e ∈ (x.writeEeprom a value).run.events w s, e.failure? = none)
    (read : Event.ReadsFrom x.device a.word words 1 ((x.writeEeprom a value).run.events w s)) :
    let attempts := max 1 x.config.eepromWriteAttempts
    let events := (x.writeEeprom a value).run.events w s
    let result := ((x.writeEeprom a value).run.run w s).1
    (∀ m ≤ attempts, FirstFrom (words · = value) 1 m →
      events = x.roundsEvents a value words attempts 1 m ∧ result = .ok ()) ∧
    ((∀ i, 1 ≤ i → i ≤ attempts → words i ≠ value) →
      events = x.roundsEvents a value words attempts 1 attempts ∧
        result = .error (.library (.writeVerification a value (words attempts) attempts))) ∧
    (result = .ok () ↔ ∃ m ≤ attempts, FirstFrom (words · = value) 1 m) := by
  intro attempts events result
  have trace : Script.Trace (x.writeEeprom a value) result events :=
    Program.trace_run w (x.writeEeprom a value).run s
  have bound : max x.config.eepromWriteAttempts 1 = attempts := Nat.max_comm _ _
  rw [writeEeprom, bound] at trace
  have attempted : attempts ≠ 0 := Nat.ne_of_gt (Nat.le_max_left 1 _)
  obtain ⟨stops, exhausted⟩ := trace_writeRounds trace unfailed read (Nat.add_comm 1 _) fun none =>
    absurd none attempted
  refine ⟨stops, exhausted, fun ok => ?_, ?_⟩
  · by_contra never
    have none : ∀ i, 1 ≤ i → i ≤ attempts → words i ≠ value := by
      intro i after within equal
      obtain ⟨m, hm, found⟩ := FirstFrom.exists_of_holds (P := (words · = value)) after equal
      exact never ⟨m, Nat.le_trans hm within, found⟩
    rw [(exhausted none).2] at ok
    cases ok
  · rintro ⟨m, within, found⟩
    exact (stops m within found).2

def secondIsRight (i : Nat) : Word := if i = 1 then 0x1900 else 0x1901

/-- Of three attempts two are made. Where no attempt is allowed one is made, and fails. -/
theorem writes_in_bounded_rounds_second :
    ((writeEeprom ⟨0x33, {}⟩ ⟨0x240C⟩ 0x1901).run.events (wordBus secondIsRight) 0 =
      roundsEvents ⟨0x33, {}⟩ ⟨0x240C⟩ 0x1901 secondIsRight 3 1 2 ∧
    ((writeEeprom ⟨0x33, {}⟩ ⟨0x240C⟩ 0x1901).run.run (wordBus secondIsRight) 0).1 = .ok ()) ∧
    (writeEeprom ⟨0x33, { eepromWriteAttempts := 0 }⟩ ⟨0x240C⟩ 0x1901).run.events
      (wordBus secondIsRight) 0 =
      roundsEvents ⟨0x33, { eepromWriteAttempts := 0 }⟩ ⟨0x240C⟩ 0x1901 secondIsRight 1 1 1 ∧
    ((writeEeprom ⟨0x33, { eepromWriteAttempts := 0 }⟩ ⟨0x240C⟩ 0x1901).run.run
      (wordBus secondIsRight) 0).1 =
      .error (.library (.writeVerification ⟨0x240C⟩ 0x1901 0x1900 1)) := by
  have second : FirstFrom (secondIsRight · = 0x1901) 1 2 :=
    ⟨by decide, rfl, fun i after before => by
      obtain rfl : i = 1 := by omega
      decide⟩
  have never : ∀ i, 1 ≤ i → i ≤ 1 → secondIsRight i ≠ 0x1901 := by
    intro i after within
    obtain rfl : i = 1 := by omega
    decide
  constructor
  · exact (writes_in_bounded_rounds ⟨0x33, {}⟩ ⟨0x240C⟩ 0x1901 (wordBus secondIsRight) 0
      secondIsRight (by decide) ⟨2, rfl⟩).1 2 (by decide) second
  · exact (writes_in_bounded_rounds ⟨0x33, { eepromWriteAttempts := 0 }⟩ ⟨0x240C⟩ 0x1901
      (wordBus secondIsRight) 0 secondIsRight (by decide) ⟨1, rfl⟩).2.1 never

end Thermopile.Camera
