import Thermopile.Proofs.Camera
import Thermopile.Proofs.Memory

namespace Thermopile

/-- A value with property `P`, or an error of the bus. -/
def Script.UnlessBusFails {ε α : Type} (P : α → Prop) : Except (Failure ε) α → Prop
  | .ok a => P a
  | .error (.transport _) => True
  | .error (.library _) => False

theorem Script.UnlessBusFails.error {ε α β : Type} {P : α → Prop} {P' : β → Prop}
    {failure : Failure ε} (h : UnlessBusFails P (.error failure)) :
    UnlessBusFails P' (.error failure) := by
  cases failure with
  | transport e => trivial
  | library fault => exact h.elim

theorem Script.UnlessBusFails.of_unfailed {ε σ α : Type} {w : World ε σ} {s : σ}
    {script : Script ε α} {P : α → Prop} (halts : script.HaltsOnFailure)
    (unfailed : ∀ e ∈ script.run.events w s, e.failure? = none)
    (h : UnlessBusFails P (script.run.run w s).1) : ∃ a, (script.run.run w s).1 = .ok a ∧ P a := by
  have none := halts.unfailed (Program.trace_run w script.run s) unfailed
  cases hr : (script.run.run w s).1 with
  | ok a =>
    rw [hr] at h
    exact ⟨a, rfl, h⟩
  | error failure =>
    rw [hr] at h none
    cases failure with
    | transport e => cases none
    | library fault => exact h.elim

namespace Transport

variable {ε σ α β : Type} {w : World ε σ} {device : UInt8}

/-- `device` is a memory of words: the reads that it answers show them, and a write changes no word
but the one at its address, acknowledged or not. -/
structure FallibleMemory (w : World ε σ) (device : UInt8) where
  Holds : σ → (Word → Word) → Prop
  read {s : σ} {m : Word → Word} (h : Holds s m) (a : Address) (count : Nat) :
    Holds (w.reply s (.exchange device a.toBytes (2 * count))).2 m ∧
      ∀ bytes, (w.reply s (.exchange device a.toBytes (2 * count))).1 = .ok bytes →
        bytes.toList = (List.range count).flatMap fun i => (m (a.advance i).word).toBytes
  write {s : σ} {m : Word → Word} (h : Holds s m) (a : Address) (value : Word) :
    ∃ m', Holds (w.reply s (.send device (a.toBytes ++ value.toBytes))).2 m' ∧
      ∀ b ≠ a.word, m' b = m b
  idle {s : σ} {m : Word → Word} {q : Request} (h : Holds s m) (hq : q.Idle) :
    Holds (w.reply s q).2 m

namespace FallibleMemory

variable (memory : FallibleMemory w device)

/-- A write that is acknowledged has stored its word. -/
def KeepsWritten : Prop :=
  ∀ {s : σ} {m : Word → Word}, memory.Holds s m → ∀ (a : Address) (value : Word),
    (w.reply s (.send device (a.toBytes ++ value.toBytes))).1 = .ok () →
      memory.Holds (w.reply s (.send device (a.toBytes ++ value.toBytes))).2
        (Function.update m a.word value)

/-- Where the memory is `m`, the result of `p` and the memory that it leaves have property `Q`. -/
def Ensures (m : Word → Word) (p : Program ε α) (Q : α → (Word → Word) → Prop) : Prop :=
  ∀ s, memory.Holds s m → ∃ m', memory.Holds (p.run w s).2 m' ∧ Q (p.run w s).1 m'

variable {memory} {m : Word → Word} {p : Program ε α} {f : α → Program ε β}
variable {Q Q' : α → (Word → Word) → Prop} {R : β → (Word → Word) → Prop}

theorem Ensures.done {a : α} (h : Q a m) : memory.Ensures m (.done a) Q :=
  fun _ hs => ⟨m, hs, h⟩

theorem Ensures.mono (hp : memory.Ensures m p Q) (h : ∀ a m', Q a m' → Q' a m') :
    memory.Ensures m p Q' := by
  intro s hs
  obtain ⟨m', hs', hq⟩ := hp s hs
  exact ⟨m', hs', h _ m' hq⟩

theorem Ensures.bind (hp : memory.Ensures m p Q)
    (hf : ∀ a m', Q a m' → memory.Ensures m' (f a) R) : memory.Ensures m (p >>= f) R := by
  intro s hs
  obtain ⟨m', hs', hq⟩ := hp s hs
  rw [Program.run_bind]
  exact hf _ m' hq _ hs'

theorem Ensures.andThen {m : Word → Word} {p : Script ε α} {f : α → Script ε β}
    {Q : Except (Failure ε) α → (Word → Word) → Prop}
    {R : Except (Failure ε) β → (Word → Word) → Prop} (hp : memory.Ensures m p.run Q)
    (failed : ∀ failure m', Q (.error failure) m' → R (.error failure) m')
    (succeeded : ∀ a m', Q (.ok a) m' → memory.Ensures m' (f a).run R) :
    memory.Ensures m (p >>= f).run R := by
  refine Ensures.bind hp fun r m' hq => ?_
  cases r with
  | error failure => exact .done (failed failure m' hq)
  | ok a => exact succeeded a m' hq

theorem Ensures.afterIdle {q : Request} {f : q.Reply ε → Script ε β}
    {R : Except (Failure ε) β → (Word → Word) → Prop} (hq : q.Idle)
    (hf : ∀ reply, memory.Ensures m (f reply).run R) :
    memory.Ensures m (Script.request q >>= f).run R :=
  fun s hs => hf (w.reply s q).1 _ (memory.idle hs hq)

variable (memory m)

theorem ensures_onBus {p : Program ε (Except ε α)} {Q : Except ε α → (Word → Word) → Prop}
    {R : Except (Failure ε) α → (Word → Word) → Prop} (hp : memory.Ensures m p Q)
    (succeeded : ∀ a m', Q (.ok a) m' → R (.ok a) m')
    (failed : ∀ e m', Q (.error e) m' → R (.error (.transport e)) m') :
    memory.Ensures m (Script.onBus p).run R := by
  refine Ensures.bind hp fun r m' hq => .done ?_
  cases r with
  | ok a => exact succeeded a m' hq
  | error e => exact failed e m' hq

theorem words_of_read {s : σ} (h : memory.Holds s m) {a : Address} {count : Nat}
    {bytes : Vector UInt8 (2 * count)}
    (ok : (w.reply s (.exchange device a.toBytes (2 * count))).1 = .ok bytes) :
    Word.listOfBytes bytes.toList = (List.range count).map fun i => m (a.advance i).word := by
  rw [(memory.read h a count).2 bytes ok, ← Word.listOfBytes_flatMap ((List.range count).map _),
    List.flatMap_map]

theorem ensures_readWord (a : Address) :
    memory.Ensures m (readWord device a) fun r m' => m' = m ∧ ∀ v, r = .ok v → v = m a.word := by
  intro s hs
  refine ⟨m, (memory.read hs a 1).1, rfl, fun v hv => ?_⟩
  change (w.reply s (.exchange device a.toBytes (2 * 1))).1.map _ = _ at hv
  cases hr : (w.reply s (.exchange device a.toBytes (2 * 1))).1 with
  | error e =>
    rw [hr] at hv
    cases hv
  | ok bytes =>
    rw [hr] at hv
    have shown := ((memory.read hs a 1).2 bytes hr).trans (flatMap_range_one m a)
    rw [← Except.ok.inj hv, ← ofBytes_of_toList shown]
    rfl

theorem ensures_writeWord (a : Address) (value : Word) :
    memory.Ensures m (writeWord device a value) fun r m' =>
      (∀ b ≠ a.word, m' b = m b) ∧ (memory.KeepsWritten → r = .ok () → m' a.word = value) := by
  intro s hs
  by_cases stored : memory.KeepsWritten ∧
      (w.reply s (.send device (a.toBytes ++ value.toBytes))).1 = .ok ()
  · refine ⟨_, stored.1 hs a value stored.2, fun b hb => Function.update_of_ne hb _ _, ?_⟩
    exact fun _ _ => Function.update_self _ _ _
  · obtain ⟨m', hs', same⟩ := memory.write hs a value
    exact ⟨m', hs', same, fun keeps ok => absurd ⟨keeps, ok⟩ stored⟩

variable {n : Nat}

theorem ensures_readFrom (start : Address) (words : Vector Word n) (offset : Nat) :
    memory.Ensures m (readFrom device start words offset) fun r m' =>
      m' = m ∧ (r.1 = .ok () → ∀ i, r.2[i]? = if offset ≤ i ∧ i < n then
        some (m (start.advance i).word) else words[i]?) := by
  induction words, offset using readFrom.induct with
  | case1 words offset inside ih =>
    intro s hs
    obtain ⟨kept, -⟩ := memory.read hs (start.advance offset) (min blockWords (n - offset))
    rcases hr : w.reply s (.exchange device (start.advance offset).toBytes
      (2 * min blockWords (n - offset))) with ⟨_ | bytes, s₁⟩
    all_goals
      rw [hr] at kept
      rw [readFrom, if_pos inside]
      simp only [Program.run, hr]
    · exact ⟨m, kept, rfl, by rintro ⟨⟩⟩
    · obtain ⟨m', hs', rfl, filled⟩ := ih bytes s₁ kept
      have chunk := memory.words_of_read m' hs (congrArg Prod.fst hr)
      exact ⟨m', hs', rfl, fun ok => filled_of_chunk chunk (filled ok)⟩
  | case2 words offset outside =>
    rw [readFrom, if_neg outside]
    exact .done ⟨rfl, fun _ i => by rw [if_neg fun hi => outside (by omega)]⟩

theorem ensures_readBlock (start : Address) (words : Vector Word n) :
    memory.Ensures m (readBlock device start words) fun r m' =>
      m' = m ∧ (r.1 = .ok () → r.2 = .ofFn fun i => m (start.word + UInt16.ofNat i)) :=
  (memory.ensures_readFrom m start words 0).mono fun _ _ h =>
    ⟨h.1, fun ok => eq_ofFn_of_filled (h.2 ok)⟩

end FallibleMemory
end Transport

def EepromImage.ofMemory (m : Word → Word) : EepromImage :=
  .ofFn fun i => m (0x2400 + UInt16.ofNat i)

namespace Camera

open Transport (FallibleMemory)

variable {ε σ : Type} {w : World ε σ} {x : Camera} (memory : FallibleMemory w x.device)
variable (m : Word → Word)

theorem ensures_readWord (a : Address) :
    memory.Ensures m (x.readWord a).run fun r m' =>
      m' = m ∧ Script.UnlessBusFails (· = m a.word) r := by
  refine memory.ensures_onBus m (memory.ensures_readWord m a) ?_ ?_
  · rintro v m' ⟨rfl, word⟩
    exact ⟨rfl, word v rfl⟩
  · rintro e m' ⟨rfl, -⟩
    exact ⟨rfl, trivial⟩

theorem ensures_writeWord (a : Address) (value : Word) :
    memory.Ensures m (x.writeWord a value).run fun r m' =>
      (∀ b ≠ a.word, m' b = m b) ∧
        Script.UnlessBusFails (fun _ => memory.KeepsWritten → m' a.word = value) r :=
  memory.ensures_onBus m (memory.ensures_writeWord m a value)
    (fun _ _ h => ⟨h.1, fun keeps => h.2 keeps rfl⟩) fun _ _ h => ⟨h.1, trivial⟩

theorem ensures_loadCalibration :
    memory.Ensures m x.loadCalibration.run fun r m' =>
      m' = m ∧ Script.UnlessBusFails (· = .ofImage (.ofMemory m)) r := by
  have words : memory.Ensures m
      (x.readWords eepromSize (AddressSpace.address EepromAddress.base)).run fun r m' =>
        m' = m ∧ Script.UnlessBusFails (· = EepromImage.ofMemory m) r := by
    rw [readWords, Script.run_lift_bind]
    refine (memory.ensures_readBlock m _ _).bind ?_
    rintro ⟨result, words⟩ m' ⟨rfl, filled⟩
    cases result with
    | error e => exact .done ⟨rfl, trivial⟩
    | ok u => exact .done ⟨rfl, filled rfl⟩
  refine words.andThen ?_ ?_
  · rintro failure m' ⟨rfl, h⟩
    exact ⟨rfl, h.error⟩
  · rintro image m' ⟨rfl, rfl⟩
    exact .afterIdle trivial fun _ => .done ⟨rfl, rfl⟩

/-- Writing a word of the EEPROM changes no other word. If it succeeds the word has been read back,
and it can only fail with the bus where what is written is kept. -/
theorem ensures_writeRounds (a : Address) (value : Word) (attempts rounds : Nat) (actual : Word) :
    memory.Ensures m (x.writeRounds a value attempts rounds actual).run fun r m' =>
      (∀ b ≠ a.word, m' b = m b) ∧ (r = .ok () → m' a.word = value) ∧
        (memory.KeepsWritten → 0 < rounds → Script.UnlessBusFails (fun _ => True) r) := by
  induction rounds generalizing m actual with
  | zero =>
    exact .done ⟨fun _ _ => rfl, nofun, fun _ some => absurd some (Nat.lt_irrefl 0)⟩
  | succ rounds ih =>
    -- Each of the three transactions of a round can be the last.
    refine (ensures_writeWord memory m a 0).andThen ?_ ?_
    · rintro failure m₁ ⟨same, failed⟩
      exact ⟨same, nofun, fun _ _ => failed.error⟩
    rintro _ m₁ ⟨same₁, -⟩
    refine .afterIdle trivial fun _ => (ensures_writeWord memory m₁ a value).andThen ?_ ?_
    · rintro failure m₂ ⟨same, failed⟩
      exact ⟨fun b hb => (same b hb).trans (same₁ b hb), nofun, fun _ _ => failed.error⟩
    rintro _ m₂ ⟨same₂, stored⟩
    have same (b : Word) (hb : b ≠ a.word) : m₂ b = m b := (same₂ b hb).trans (same₁ b hb)
    refine .afterIdle trivial fun _ => (ensures_readWord memory m₂ a).andThen ?_ ?_
    · rintro failure m₃ ⟨rfl, failed⟩
      exact ⟨same, nofun, fun _ _ => failed.error⟩
    rintro actual m₃ ⟨rfl, rfl⟩
    by_cases verified : m₃ a.word = value
    · rw [if_pos verified]
      exact fun s hs => ⟨m₃, memory.idle hs trivial, same, fun _ => verified, fun _ _ => trivial⟩
    · rw [if_neg verified]
      refine .afterIdle trivial fun _ => (ih m₃ _).mono ?_
      rintro r m₄ ⟨same₄, ok, -⟩
      exact ⟨fun b hb => (same₄ b hb).trans (same b hb), ok,
        fun keeps _ => absurd (stored keeps) verified⟩

end Camera
end Thermopile
