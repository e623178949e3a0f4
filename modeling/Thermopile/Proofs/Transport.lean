import Thermopile.Proofs.Event

namespace Thermopile

namespace Word

theorem length_listOfBytes (bytes : List UInt8) :
    (listOfBytes bytes).length = bytes.length / 2 := by
  induction bytes using listOfBytes.induct with
  | case1 high low rest ih =>
    simp only [listOfBytes, List.length_cons, ih]
    omega
  | case2 bytes h =>
    cases bytes with
    | nil => rfl
    | cons high rest =>
      cases rest with
      | nil => simp [listOfBytes]
      | cons low rest => exact absurd rfl (h high low rest)

theorem listOfBytes_pair (bytes : Vector UInt8 2) :
    listOfBytes bytes.toList =
      [ofBytes (bytes.get ⟨0, by decide⟩) (bytes.get ⟨1, by decide⟩)] := by
  match bytes with
  | ⟨⟨[high, low]⟩, _⟩ => rfl

theorem listOfBytes_append (w : Word) (rest : List UInt8) :
    listOfBytes (w.toBytes ++ rest) = w :: listOfBytes rest := by
  have h : ofBytes (UInt8.ofNat (w.toNat / 256)) (UInt8.ofNat w.toNat) = w :=
    List.singleton_inj.mp (listOfBytes_toBytes w)
  simp only [toBytes, List.cons_append, List.nil_append, listOfBytes, h]

theorem listOfBytes_flatMap (words : List Word) :
    listOfBytes (words.flatMap toBytes) = words := by
  induction words with
  | nil => rfl
  | cons w rest ih => rw [List.flatMap_cons, listOfBytes_append, ih]

theorem toNat_sub_eq_zero {a b : Word} : (a - b).toNat = 0 ↔ a = b := by
  constructor
  · intro h
    have ha := a.toNat_lt
    have hb := b.toNat_lt
    rw [UInt16.toNat_sub] at h
    apply UInt16.toNat_inj.mp
    omega
  · rintro rfl
    simp

theorem toNat_add_sub (start : Word) {i : Nat} (h : i < 65536) :
    (start + UInt16.ofNat i - start).toNat = i := by
  have hs := start.toNat_lt
  simp only [UInt16.toNat_sub, UInt16.toNat_add, UInt16.toNat_ofNat']
  omega

/-- Distance from a place further on, where the memory wraps. -/
theorem toNat_sub_add (a start : Word) (offset : Nat) (h : offset < 65536) :
    (a - (start + UInt16.ofNat offset)).toNat =
      if offset ≤ (a - start).toNat then (a - start).toNat - offset
      else (a - start).toNat + 65536 - offset := by
  have ha := a.toNat_lt
  have hs := start.toNat_lt
  simp only [UInt16.toNat_sub, UInt16.toNat_add, UInt16.toNat_ofNat']
  split <;> omega

end Word

namespace Transport

variable {ε : Type} {n : Nat}

theorem getElem?_store (words : Vector Word n) (offset : Nat) (new : List Word) (i : Nat) :
    (store words offset new)[i]? =
      if offset ≤ i ∧ i < n then (new[i - offset]?).or words[i]? else words[i]? := by
  induction new generalizing words offset with
  | nil => simp [store]
  | cons w rest ih =>
    have hstep : store words offset (w :: rest) =
        store (words.setIfInBounds offset w) (offset + 1) rest := rfl
    rw [hstep, ih]
    by_cases hi : i < n
    · rcases Nat.lt_trichotomy i offset with h | rfl | h
      · simp [hi, Nat.not_le.mpr h, Nat.not_le.mpr (Nat.lt_succ_of_lt h), Nat.ne_of_gt h]
      · rw [if_neg fun past => Nat.not_succ_le_self i past.1]
        simp [hi]
      · have he : i - offset = i - (offset + 1) + 1 := by omega
        have hne : offset ≠ i := by omega
        simp [hi, he, Nat.le_of_lt h, Nat.succ_le_of_lt h, hne]
    · have hn : n ≤ i := Nat.not_lt.mp hi
      simp [hi]

theorem reading?_exchange (device : UInt8) (a : Address) (count : Nat)
    (bytes : Vector UInt8 count) :
    Event.reading? device (⟨.exchange device a.toBytes count, .ok bytes⟩ : Event ε) =
      some (a.word, Word.listOfBytes bytes.toList) := by
  simp [Event.reading?, Address.toBytes, Word.listOfBytes_toBytes]

theorem lastRead_readWord {device : UInt8} {a : Address} {w : Word} {es : List (Event ε)}
    (h : Program.Trace (readWord device a) (.ok w) es) (b : Word) :
    Event.lastRead device b es = if b = a.word then some w else none := by
  obtain ⟨reply, rest, hr, rfl⟩ := Program.trace_ask.mp h
  obtain ⟨hw, rfl⟩ := Program.trace_done.mp hr
  cases reply with
  | error e => cases hw
  | ok bytes =>
    have hv : w = Word.ofBytes (bytes.get ⟨0, by decide⟩) (bytes.get ⟨1, by decide⟩) :=
      Except.ok.inj hw
    rw [Event.lastRead_singleton, Event.wordRead?, reading?_exchange, Word.listOfBytes_pair, hv]
    simp only [List.getElem?_singleton, Word.toNat_sub_eq_zero]

theorem lastRead_readFrom {device : UInt8} {start : Address} {words words' : Vector Word n}
    {offset : Nat} {es : List (Event ε)} (hn : n ≤ 65536)
    (h : Program.Trace (readFrom device start words offset) (.ok (), words') es) :
    (∀ i < offset, words'[i]? = words[i]?) ∧
    ∀ b : Word, Event.lastRead device b es =
      if offset ≤ (b - start.word).toNat then words'[(b - start.word).toNat]? else none := by
  induction words, offset using readFrom.induct generalizing es with
  | case1 words offset inside ih =>
    rw [readFrom, if_pos inside] at h
    obtain ⟨reply, rest, hr, rfl⟩ := Program.trace_ask.mp h
    cases reply with
    | error e =>
      have he := (Program.trace_done.mp hr).1
      simp at he
    | ok bytes =>
      -- By induction the later chunks leave this one as it was stored.
      obtain ⟨kept, seen⟩ := ih bytes hr
      have hl : (Word.listOfBytes bytes.toList).length = min blockWords (n - offset) := by
        rw [Word.length_listOfBytes, Vector.length_toList]
        omega
      constructor
      · intro i hi
        rw [kept i (by omega), getElem?_store, if_neg (by omega)]
      · intro b
        rw [Event.lastRead_cons, seen, Event.wordRead?, reading?_exchange]
        simp only [Address.advance, Word.toNat_sub_add b start.word offset (by omega)]
        have hb := (b - start.word).toNat_lt
        generalize (b - start.word).toNat = k at hb
        -- Each address is before this chunk, inside of it, or after it.
        by_cases before : offset ≤ k
        · rw [if_pos before, if_pos before]
          by_cases inChunk : k < offset + blockWords
          · rw [if_neg (by omega), Option.none_or, kept k inChunk, getElem?_store]
            by_cases hk : k < n
            · rw [if_pos ⟨before, hk⟩, List.getElem?_eq_getElem (by omega), Option.some_or]
            · rw [if_neg (by omega), List.getElem?_eq_none (by omega),
                Vector.getElem?_eq_none (by omega)]
          · rw [if_pos (by omega), List.getElem?_eq_none (by simp only [blockWords] at *; omega),
              Option.or_none]
        · rw [if_neg (by omega), if_neg before, if_neg before, Option.none_or,
            List.getElem?_eq_none (by omega)]
  | case2 words offset outside =>
    rw [readFrom, if_neg outside] at h
    obtain ⟨hw, rfl⟩ := Program.trace_done.mp h
    obtain rfl : words' = words := congrArg Prod.snd hw
    refine ⟨fun i _ => rfl, fun b => ?_⟩
    split
    · rename_i hb
      rw [Event.lastRead_nil, Vector.getElem?_eq_none (by omega)]
    · rfl

end Transport
end Thermopile
