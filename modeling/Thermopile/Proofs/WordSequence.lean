import Mathlib.Data.Nat.Find
import Thermopile.Proofs.Memory

namespace Thermopile

variable {ε : Type}

namespace Word

def onWire (w : Word) : Vector UInt8 2 := ⟨w.toBytes.toArray, rfl⟩

theorem toList_onWire (w : Word) : w.onWire.toList = w.toBytes := rfl

theorem toBytes_ofBytes (high low : UInt8) : (ofBytes high low).toBytes = [high, low] := by
  have h := high.toNat_lt
  have l := low.toNat_lt
  have word : (ofBytes high low).toNat = 256 * high.toNat + low.toNat := by
    rw [ofBytes, UInt16.toNat_ofNat']
    omega
  have first : UInt8.ofNat ((ofBytes high low).toNat / 256) = high := by
    apply UInt8.toNat_inj.mp
    rw [word, UInt8.toNat_ofNat']
    omega
  have second : UInt8.ofNat (ofBytes high low).toNat = low := by
    apply UInt8.toNat_inj.mp
    rw [word, UInt8.toNat_ofNat']
    omega
  rw [toBytes, first, second]

theorem onWire_ofBytes (bytes : Vector UInt8 2) :
    (ofBytes (bytes.get ⟨0, by decide⟩) (bytes.get ⟨1, by decide⟩)).onWire = bytes := by
  apply Vector.toList_inj.mp
  rw [toList_onWire, toBytes_ofBytes]
  apply List.ext_getElem
  · rw [Vector.length_toList]
    rfl
  · intro i h _
    have place : i = 0 ∨ i = 1 := by
      rw [List.length_cons, List.length_singleton] at h
      omega
    rcases place with rfl | rfl <;> rfl

end Word

/-- `m` is the first number from `first` on that has property `P`. -/
structure FirstFrom (P : Nat → Prop) (first m : Nat) : Prop where
  le : first ≤ m
  holds : P m
  before : ∀ i, first ≤ i → i < m → ¬P i

namespace FirstFrom

variable {P : Nat → Prop} {first m : Nat}

theorem eq_of_holds (h : FirstFrom P first m) (hp : P first) : m = first := by
  by_contra other
  have later : first < m := Nat.lt_of_le_of_ne h.le (Ne.symm other)
  exact h.before first (Nat.le_refl first) later hp

theorem of_not_holds (h : FirstFrom P first m) (hp : ¬P first) : FirstFrom P (first + 1) m where
  le := Nat.lt_of_le_of_ne h.le fun same => hp (same ▸ h.holds)
  holds := h.holds
  before i hi := h.before i (Nat.le_of_succ_le hi)

theorem exists_of_holds (le : first ≤ m) (hp : P m) : ∃ k ≤ m, FirstFrom P first k := by
  classical
  have hit : ∃ k, first ≤ k ∧ P k := ⟨m, le, hp⟩
  obtain ⟨after, holds⟩ := Nat.find_spec hit
  refine ⟨Nat.find hit, Nat.find_min' hit ⟨le, hp⟩, after, holds, fun i hi before => ?_⟩
  exact fun hpi => Nat.find_min hit before ⟨hi, hpi⟩

end FirstFrom

namespace Event

/-- The words that `device` sends as its word at address `a` are those of `words`, in order and from
the one numbered `first` on. -/
def ReadsFrom (device : UInt8) (a : Word) (words : Nat → Word) (first : Nat)
    (es : List (Event ε)) : Prop :=
  ∃ n, es.filterMap (wordRead? device a) = (List.range' first n).map words

variable {device : UInt8} {a : Word} {words : Nat → Word} {first : Nat} {e : Event ε}
  {es : List (Event ε)}

theorem ReadsFrom.tail (h : ReadsFrom device a words first (e :: es))
    (he : e.wordRead? device a = none) : ReadsFrom device a words first es := by
  obtain ⟨n, hn⟩ := h
  rw [List.filterMap_cons_none he] at hn
  exact ⟨n, hn⟩

theorem ReadsFrom.next {w : Word} (h : ReadsFrom device a words first (e :: es))
    (he : e.wordRead? device a = some w) :
    w = words first ∧ ReadsFrom device a words (first + 1) es := by
  obtain ⟨n, hn⟩ := h
  rw [List.filterMap_cons_some he] at hn
  cases n with
  | zero => cases hn
  | succ n =>
    rw [List.range'_succ, List.map_cons] at hn
    obtain ⟨hw, rest⟩ := List.cons.inj hn
    exact ⟨hw, n, rest⟩

end Event

/-- A bus operation is completed if no transaction fails. -/
theorem Script.trace_onBus_bind {α β : Type} {p : Program ε (Except ε α)} {f : α → Script ε β}
    {r : Except (Failure ε) β} {es : List (Event ε)} (halts : p.HaltsOnFailure busError?)
    (h : Trace (onBus p >>= f) r es) (unfailed : ∀ e ∈ es, e.failure? = none) :
    ∃ a es₁ es₂, Program.Trace p (.ok a) es₁ ∧ Trace (f a) r es₂ ∧ es = es₁ ++ es₂ := by
  rcases trace_bind.mp h with ⟨failure, hp, -⟩ | ⟨a, es₁, es₂, hp, hf, rfl⟩
  · obtain ⟨result, ht, hr⟩ := trace_onBus.mp hp
    cases result with
    | ok a => cases hr
    | error e => cases halts.unfailed ht unfailed
  · obtain ⟨result, ht, hr⟩ := trace_onBus.mp hp
    cases result with
    | ok a' =>
      cases hr
      exact ⟨a, es₁, es₂, ht, hf, rfl⟩
    | error e => cases hr

namespace Camera

variable (x : Camera) (a : Address) (w : Word)

def wordTaken : Event ε := ⟨.send x.device (a.toBytes ++ w.toBytes), .ok ()⟩

def wordSent : Event ε := ⟨.exchange x.device a.toBytes 2, .ok w.onWire⟩

theorem wordRead?_wordSent : (x.wordSent a w : Event ε).wordRead? x.device a.word = some w := by
  have same : (a.word - a.word).toNat = 0 := Word.toNat_sub_eq_zero.mpr rfl
  simp only [Event.wordRead?, wordSent, Transport.reading?_exchange, Word.toList_onWire,
    Word.listOfBytes_toBytes, same]
  rfl

variable {x a w} {α : Type} {r : Except (Failure ε) α} {es : List (Event ε)}

theorem trace_writeWord_bind {f : Unit → Script ε α} (h : Script.Trace (x.writeWord a w >>= f) r es)
    (unfailed : ∀ e ∈ es, e.failure? = none) :
    ∃ rest, Script.Trace (f ()) r rest ∧ es = x.wordTaken a w :: rest := by
  obtain ⟨u, es₁, es₂, hw, hf, rfl⟩ :=
    Script.trace_onBus_bind (Transport.haltsOnFailure_send x.device _) h unfailed
  obtain rfl := Program.trace_request.mp hw
  exact ⟨es₂, hf, rfl⟩

theorem trace_readWord_bind {f : Word → Script ε α} (h : Script.Trace (x.readWord a >>= f) r es)
    (unfailed : ∀ e ∈ es, e.failure? = none) :
    ∃ v rest, Script.Trace (f v) r rest ∧ es = x.wordSent a v :: rest := by
  obtain ⟨v, es₁, es₂, hw, hf, rfl⟩ :=
    Script.trace_onBus_bind (Transport.haltsOnFailure_readWord x.device a) h unfailed
  obtain ⟨reply, rest, hd, rfl⟩ := Program.trace_ask.mp hw
  obtain ⟨hr, rfl⟩ := Program.trace_done.mp hd
  cases reply with
  | error e => cases hr
  | ok bytes =>
    cases hr
    have sent : (⟨.exchange x.device a.toBytes 2, .ok bytes⟩ : Event ε) =
        x.wordSent a (.ofBytes bytes[0] bytes[1]) := by
      have same : (Word.ofBytes bytes[0] bytes[1]).onWire = bytes := Word.onWire_ofBytes bytes
      rw [wordSent, same]
    exact ⟨_, es₂, hf, congrArg (· :: es₂) sent⟩

end Camera

/-- A bus without failures on which `words 1`, `words 2` and so on are read. -/
def wordBus (words : Nat → Word) : World Unit Nat where
  reply n q :=
    match q with
    | .exchange .. => (.ok (.ofFn fun i => (words (n + 1)).toBytes.getD i.val 0), n + 1)
    | .send .. => (.ok (), n)
    | .now => (0, n)
    | .cancelled => (false, n)
    | .sleep _ | .publish _ | .finish | .notice _ => ((), n)

end Thermopile
