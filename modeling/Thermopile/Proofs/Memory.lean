import Mathlib.Logic.Function.Basic
import Thermopile.Proofs.FirstFailure
import Thermopile.Proofs.Transport

namespace Thermopile

namespace Event

variable {ε : Type} (device : UInt8)

def sent (e : Event ε) : List Word := (e.reading? device).elim [] Prod.snd

def received (es : List (Event ε)) : List Word := es.flatMap (sent device)

theorem received_cons (e : Event ε) (es : List (Event ε)) :
    received device (e :: es) = e.sent device ++ received device es := List.flatMap_cons

end Event

namespace Transport

variable {ε σ : Type} {n : Nat} {device : UInt8} {start : Address}

/-- The transaction that reads the words of a block from position `offset` on. -/
def chunkRequest (device : UInt8) (start : Address) (n offset : Nat) : Request :=
  .exchange device (start.advance offset).toBytes (2 * min blockWords (n - offset))

section Trace

variable {words words' : Vector Word n} {offset : Nat} {r : Except ε Unit} {e : Event ε}
  {es : List (Event ε)}

theorem trace_readFrom_nil
    (h : Program.Trace (readFrom device start words offset) (r, words') []) :
    n ≤ offset ∧ r = .ok () ∧ words' = words := by
  by_cases inside : offset < n
  · rw [readFrom, if_pos inside] at h
    obtain ⟨reply, rest, -, he⟩ := Program.trace_ask.mp h
    cases he
  · rw [readFrom, if_neg inside] at h
    obtain ⟨hw, -⟩ := Program.trace_done.mp h
    exact ⟨Nat.not_lt.mp inside, congrArg Prod.fst hw, congrArg Prod.snd hw⟩

/-- The first transaction is for the next chunk. It fails, or the chunk is stored. -/
theorem trace_readFrom_cons
    (h : Program.Trace (readFrom device start words offset) (r, words') (e :: es)) :
    offset < n ∧ e.request = chunkRequest device start n offset ∧
      ((e.sent device = [] ∧ es = [] ∧ words' = words ∧ r ≠ .ok ()) ∨
        (e.sent device).length = min blockWords (n - offset) ∧
          Program.Trace (readFrom device start (store words offset (e.sent device))
            (offset + blockWords)) (r, words') es) := by
  by_cases inside : offset < n
  · rw [readFrom, if_pos inside] at h
    obtain ⟨reply, rest, hr, he⟩ := Program.trace_ask.mp h
    cases he
    refine ⟨inside, rfl, ?_⟩
    cases reply with
    | error error =>
      obtain ⟨hw, rfl⟩ := Program.trace_done.mp hr
      cases hw
      exact .inl ⟨rfl, rfl, rfl, by simp⟩
    | ok bytes =>
      have hs : Event.sent device (⟨.exchange device (start.advance offset).toBytes
          (2 * min blockWords (n - offset)), .ok bytes⟩ : Event ε) =
            Word.listOfBytes bytes.toList := by
        rw [Event.sent, reading?_exchange]
        rfl
      rw [hs]
      refine .inr ⟨?_, hr⟩
      rw [Word.length_listOfBytes, Vector.length_toList]
      omega
  · rw [readFrom, if_neg inside] at h
    obtain ⟨-, he⟩ := Program.trace_done.mp h
    cases he

theorem store_append (words : Vector Word n) (offset : Nat) (l₁ l₂ : List Word) :
    store words offset (l₁ ++ l₂) = store (store words offset l₁) (offset + l₁.length) l₂ := by
  unfold store
  rw [List.zipIdx_append, List.foldl_append]

theorem eq_store_received
    (h : Program.Trace (readFrom device start words offset) (r, words') es) :
    words' = store words offset (Event.received device es) := by
  induction es generalizing words offset with
  | nil =>
    obtain ⟨-, -, hw⟩ := trace_readFrom_nil h
    exact hw
  | cons e es ih =>
    obtain ⟨inside, -, ⟨sent, rfl, hw, -⟩ | ⟨length, next⟩⟩ := trace_readFrom_cons h
    · rw [Event.received_cons, sent]
      exact hw
    · rw [ih next, Event.received_cons, store_append, length]
      by_cases full : offset + blockWords ≤ n
      · rw [Nat.min_eq_left (Nat.le_sub_of_add_le' full)]
      · -- Nothing is read after the last chunk, so where it would be stored does not matter.
        cases es with
        | nil => rfl
        | cons e' es => exact absurd (trace_readFrom_cons next).1 (by omega)

theorem requests_readFrom {k : Nat}
    (h : Program.Trace (readFrom device start words (blockWords * k)) (r, words') es) :
    es.map Event.request =
      (List.range' k es.length).map fun k => chunkRequest device start n (blockWords * k) := by
  induction es generalizing words k with
  | nil => rfl
  | cons e es ih =>
    rw [List.length_cons, List.range'_succ, List.map_cons, List.map_cons]
    obtain ⟨-, request, ⟨-, rfl, -, -⟩ | ⟨-, next⟩⟩ := trace_readFrom_cons h
    · rw [request]
      rfl
    · rw [← Nat.mul_succ] at next
      rw [request, ih next]

theorem length_of_ok
    (h : Program.Trace (readFrom device start words offset) (.ok (), words') es) :
    es.length = (n - offset + 31) / blockWords := by
  induction es generalizing words offset with
  | nil =>
    obtain ⟨past, -, -⟩ := trace_readFrom_nil h
    rw [Nat.sub_eq_zero_of_le past]
    rfl
  | cons e es ih =>
    obtain ⟨inside, -, ⟨-, -, -, failed⟩ | ⟨-, next⟩⟩ := trace_readFrom_cons h
    · exact absurd rfl failed
    · rw [List.length_cons, ih next]
      simp only [blockWords]
      omega

/-- Before a transaction fails, whole chunks have been read, and they do not fill the block. -/
theorem length_received_of_error {error : ε}
    (h : Program.Trace (readFrom device start words offset) (.error error, words') es) :
    (Event.received device es).length + blockWords = blockWords * es.length ∧
      offset + (Event.received device es).length < n := by
  induction es generalizing words offset with
  | nil =>
    obtain ⟨-, hr, -⟩ := trace_readFrom_nil h
    cases hr
  | cons e es ih =>
    rw [Event.received_cons, List.length_append, List.length_cons]
    obtain ⟨inside, -, ⟨sent, rfl, -, -⟩ | ⟨length, next⟩⟩ := trace_readFrom_cons h
    · rw [sent]
      exact ⟨rfl, inside⟩
    · obtain ⟨total, more⟩ := ih next
      rw [length]
      simp only [blockWords] at *
      omega

theorem readFrom_of_failure {j : Nat} {error : ε}
    (h : Program.Trace (readFrom device start words 0) (r, words') es) (he : es[j]? = some e)
    (hf : e.failure? = some error) :
    r = .error error ∧ es.length = j + 1 ∧ (Event.received device es).length = blockWords * j ∧
      words'.toList = Event.received device es ++ words.toList.drop (blockWords * j) := by
  obtain ⟨hj, hs⟩ := List.getElem?_eq_some_iff.mp he
  have split : es = es.take j ++ e :: es.drop (j + 1) := by
    rw [← hs, List.getElem_cons_drop, List.take_append_drop]
  have halts : (readFrom device start words 0 : Program ε _).HaltsOnFailure _ :=
    haltsOnFailure_readFrom device start words 0
  obtain ⟨last, failed⟩ := halts.final (split ▸ h) hf
  have length : es.length = j + 1 := by
    have left : es.length ≤ j + 1 := List.drop_eq_nil_iff.mp last
    omega
  have hr : r = .error error := by
    cases r with
    | ok _ => cases failed
    | error _ => exact congrArg _ (Option.some.inj failed)
  subst hr
  obtain ⟨total, inside⟩ := length_received_of_error h
  have received : (Event.received device es).length = blockWords * j := by
    rw [length, Nat.mul_succ] at total
    omega
  refine ⟨rfl, length, received, ?_⟩
  rw [eq_store_received h]
  apply List.ext_getElem?
  intro i
  rw [List.getElem?_append, List.getElem?_drop, Vector.getElem?_toList, Vector.getElem?_toList,
    getElem?_store, Nat.sub_zero]
  by_cases early : i < (Event.received device es).length
  · rw [if_pos early, if_pos ⟨Nat.zero_le i, by omega⟩, List.getElem?_eq_getElem early,
      Option.some_or]
  · have place : blockWords * j + (i - (Event.received device es).length) = i := by omega
    rw [if_neg early, List.getElem?_eq_none (Nat.not_lt.mp early), Option.none_or, ite_self, place]

end Trace

/-- In states with `holds`, `device` answers each read with the words of `m` from an address on, the
high byte of each first, and `holds` is kept. -/
def Answers (w : World ε σ) (device : UInt8) (holds : σ → Prop) (m : Word → Word) : Prop :=
  ∀ s, holds s → ∀ (a : Address) (count : Nat), ∃ bytes s',
    w.reply s (.exchange device a.toBytes (2 * count)) = (.ok bytes, s') ∧ holds s' ∧
      bytes.toList = (List.range count).flatMap fun i => (m (a.advance i).word).toBytes

/-- `device` is a memory of words: it answers reads with them, and keeps a word that it is sent
after an address. -/
structure WordMemory (w : World ε σ) (device : UInt8) where
  Holds : σ → (Word → Word) → Prop
  read (m : Word → Word) : Answers w device (Holds · m) m
  write {s : σ} {m : Word → Word} (h : Holds s m) (a : Address) (value : Word) :
    ∃ s', w.reply s (.send device (a.toBytes ++ value.toBytes)) = (.ok (), s') ∧
      Holds s' (Function.update m a.word value)

section Answers

variable {w : World ε σ} {holds : σ → Prop} {m : Word → Word} {s : σ}

theorem Answers.exchange (h : Answers w device holds m) (hs : holds s) (a : Address)
    (count : Nat) :
    ∃ bytes s', w.reply s (.exchange device a.toBytes (2 * count)) = (.ok bytes, s') ∧
      holds s' ∧ Word.listOfBytes bytes.toList =
        (List.range count).map fun i => m (a.advance i).word := by
  obtain ⟨bytes, s', hr, hs', hb⟩ := h s hs a count
  refine ⟨bytes, s', hr, hs', ?_⟩
  rw [hb, ← Word.listOfBytes_flatMap ((List.range count).map _), List.flatMap_map]

theorem ofBytes_of_toList {bytes : Vector UInt8 2} {v : Word} (h : bytes.toList = v.toBytes) :
    Word.ofBytes (bytes.get ⟨0, by decide⟩) (bytes.get ⟨1, by decide⟩) = v := by
  have pair := Word.listOfBytes_pair bytes
  rw [h, Word.listOfBytes_toBytes] at pair
  exact (List.singleton_inj.mp pair).symm

theorem flatMap_range_one (m : Word → Word) (a : Address) :
    ((List.range 1).flatMap fun i => (m (a.advance i).word).toBytes) = (m a.word).toBytes := by
  have first : (a.advance 0).word = a.word := UInt16.add_zero _
  rw [List.range_one, List.flatMap_singleton, first]

theorem Answers.run_readWord (h : Answers w device holds m) (hs : holds s) (a : Address) :
    ∃ s', (readWord device a).run w s = (.ok (m a.word), s') ∧ holds s' := by
  obtain ⟨bytes, s', hr, hs', hb⟩ := h s hs a 1
  refine ⟨s', ?_, hs'⟩
  rw [← ofBytes_of_toList (hb.trans (flatMap_range_one m a))]
  change ((w.reply s (.exchange device a.toBytes (2 * 1))).1.map _,
    (w.reply s (.exchange device a.toBytes (2 * 1))).2) = _
  rw [hr]
  rfl

theorem advance_advance (a : Address) (i j : Nat) :
    (a.advance i).advance j = a.advance (i + j) := by
  unfold Address.advance
  rw [UInt16.ofNat_add, UInt16.add_assoc]

theorem filled_of_chunk {words words' : Vector Word n} {offset : Nat} {chunk : List Word}
    (hc : chunk = (List.range (min blockWords (n - offset))).map fun i =>
      m ((start.advance offset).advance i).word)
    (later : ∀ i, words'[i]? = if offset + blockWords ≤ i ∧ i < n then
      some (m (start.advance i).word) else (store words offset chunk)[i]?) (i : Nat) :
    words'[i]? = if offset ≤ i ∧ i < n then some (m (start.advance i).word) else words[i]? := by
  rw [later, getElem?_store, hc]
  -- A word ahead is in this chunk, or in one that is read later.
  by_cases ahead : offset ≤ i ∧ i < n
  · rw [if_pos ahead, if_pos ahead]
    by_cases past : offset + blockWords ≤ i
    · rw [if_pos ⟨past, ahead.2⟩]
    · have inChunk : i - offset < min blockWords (n - offset) := by omega
      rw [if_neg fun hl => past hl.1, List.getElem?_map, List.getElem?_range inChunk,
        Option.map_some, Option.some_or, advance_advance, Nat.add_sub_cancel' ahead.1]
  · rw [if_neg ahead, if_neg ahead, if_neg fun hl => ahead ⟨by omega, hl.2⟩]

theorem eq_ofFn_of_filled {f : Nat → Word} {words words' : Vector Word n}
    (filled : ∀ i, words'[i]? = if 0 ≤ i ∧ i < n then some (f i) else words[i]?) :
    words' = .ofFn fun i => f i := by
  ext i hi
  have seen := filled i
  rw [if_pos ⟨Nat.zero_le i, hi⟩, Vector.getElem?_eq_getElem hi] at seen
  rw [Option.some.inj seen, Vector.getElem_ofFn]

theorem Answers.run_readFrom (h : Answers w device holds m) (hs : holds s) (start : Address)
    (words : Vector Word n) (offset : Nat) :
    ∃ words' s', (readFrom device start words offset).run w s = ((.ok (), words'), s') ∧
      holds s' ∧ ∀ i, words'[i]? = if offset ≤ i ∧ i < n then some (m (start.advance i).word)
        else words[i]? := by
  induction words, offset using readFrom.induct generalizing s with
  | case1 words offset inside ih =>
    obtain ⟨bytes, s₁, hr, hs₁, hb⟩ :=
      h.exchange hs (start.advance offset) (min blockWords (n - offset))
    obtain ⟨words', s', next, hs', filled⟩ := ih bytes hs₁
    refine ⟨words', s', ?_, hs', filled_of_chunk hb filled⟩
    rw [readFrom, if_pos inside, ← next]
    simp only [Program.run, hr]
  | case2 words offset outside =>
    refine ⟨words, s, ?_, hs, fun i => ?_⟩
    · rw [readFrom, if_neg outside]
      rfl
    · rw [if_neg fun hi => outside (by omega)]

def readEach (device : UInt8) : List Address → ExceptT ε (Program ε) (List Word)
  | [] => return []
  | a :: rest => do
    let word ← ExceptT.mk (readWord device a)
    return word :: (← readEach device rest)

theorem Answers.run_readEach (h : Answers w device holds m) (hs : holds s) (l : List Address) :
    ∃ s', (readEach device l).run.run w s = (.ok (l.map fun a => m a.word), s') ∧ holds s' := by
  induction l generalizing s with
  | nil => exact ⟨s, rfl, hs⟩
  | cons a rest ih =>
    obtain ⟨s₁, hr, hs₁⟩ := h.run_readWord hs a
    obtain ⟨s', next, hs'⟩ := ih hs₁
    refine ⟨s', ?_, hs'⟩
    change Program.run w (readWord device a >>= ExceptT.bindCont fun word => do
      return word :: (← readEach device rest)) s = _
    rw [Program.run_bind, hr]
    change Program.run w ((readEach device rest).run >>= ExceptT.bindCont fun words =>
      pure (m a.word :: words)) s₁ = _
    rw [Program.run_bind, next]
    rfl

end Answers

variable {s : σ} {w : World ε σ} {m : Word → Word}

theorem WordMemory.run_writeWord (memory : WordMemory w device) (h : memory.Holds s m)
    (a : Address) (value : Word) :
    ∃ s', (writeWord device a value).run w s = (.ok (), s') ∧
      memory.Holds s' (Function.update m a.word value) :=
  memory.write h a value

theorem Answers.run_readBlock {holds : σ → Prop} (h : Answers w device holds m) (hs : holds s)
    (start : Address) (words : Vector Word n) :
    ∃ s', (readBlock device start words).run w s =
      ((.ok (), .ofFn fun i => m (start.word + UInt16.ofNat i)), s') ∧ holds s' := by
  obtain ⟨words', s', hr, hs', filled⟩ := h.run_readFrom hs start words 0
  refine ⟨s', ?_, hs'⟩
  have hw : words' = .ofFn fun i => m (start.word + UInt16.ofNat i) := eq_ofFn_of_filled filled
  rw [readBlock, hr, hw]

/-- Where `device` is a memory of words, a block read gives the words from the start address on, as
does reading them one at a time, with one transaction for each chunk; and a word that is written is
read back, in place of the old one. On any bus, a block read ends with the first transaction that
fails, and has then replaced the words before its chunk with what it received. -/
theorem transfers_words (w : World ε σ) (device : UInt8) (s : σ) :
    (∀ (memory : WordMemory w device) (m : Word → Word), memory.Holds s m →
      (∀ (n : Nat) (start : Address) (words : Vector Word n),
        (∃ s', (readBlock device start words).run w s =
          ((.ok (), .ofFn fun i => m (start.word + UInt16.ofNat i)), s') ∧ memory.Holds s' m) ∧
        (∃ s', (readEach device ((List.range n).map start.advance)).run.run w s =
          (.ok ((List.range n).map fun i => m (start.word + UInt16.ofNat i)), s') ∧
            memory.Holds s' m) ∧
        ((readBlock device start words).events w s).map Event.request =
          (List.range ((n + 31) / 32)).map fun k => chunkRequest device start n (32 * k)) ∧
      ∀ (a : Address) (value : Word), ∃ s', (writeWord device a value).run w s = (.ok (), s') ∧
        ∀ b : Address, ((readWord device b).run w s').1 =
          .ok (if b = a then value else m b.word)) ∧
    ∀ (n : Nat) (start : Address) (words words' : Vector Word n) (r : Except ε Unit) (s' : σ)
      (j : Nat) (e : Event ε) (error : ε),
      (readBlock device start words).run w s = ((r, words'), s') →
      ((readBlock device start words).events w s)[j]? = some e → e.failure? = some error →
        r = .error error ∧
        ((readBlock device start words).events w s).map Event.request =
          (List.range (j + 1)).map (fun k => chunkRequest device start n (32 * k)) ∧
        (Event.received device ((readBlock device start words).events w s)).length = 32 * j ∧
        words'.toList = Event.received device ((readBlock device start words).events w s) ++
          words.toList.drop (32 * j) := by
  constructor
  · intro memory m h
    constructor
    · intro n start words
      obtain ⟨s', hr, hs'⟩ := (memory.read m).run_readBlock h start words
      have trace := Program.trace_run w (readBlock device start words) s
      rw [hr] at trace
      refine ⟨⟨s', hr, hs'⟩, ?_, ?_⟩
      · obtain ⟨s'', each, hs''⟩ :=
          (memory.read m).run_readEach h ((List.range n).map start.advance)
        refine ⟨s'', ?_, hs''⟩
        rw [each, List.map_map]
        rfl
      · rw [List.range_eq_range', requests_readFrom (k := 0) trace, length_of_ok trace]
        rfl
    · intro a value
      obtain ⟨s', hr, hs'⟩ := memory.run_writeWord h a value
      refine ⟨s', hr, fun b => ?_⟩
      obtain ⟨s'', read, -⟩ := (memory.read _).run_readWord hs' b
      have same : b.word = a.word ↔ b = a := (Address.mk.injEq _ _).symm.to_iff
      simp only [read, Function.update_apply, same]
  · intro n start words words' r s' j e error hr he hf
    have trace := Program.trace_run w (readBlock device start words) s
    rw [hr] at trace
    obtain ⟨failed, length, received, stored⟩ := readFrom_of_failure trace he hf
    refine ⟨failed, ?_, received, stored⟩
    rw [List.range_eq_range', requests_readFrom (k := 0) trace, length]

end Transport
end Thermopile
