import Thermopile.Proofs.FallibleMemory
import Thermopile.Proofs.Register

namespace Thermopile

theorem Event.sent_of_failure {ε : Type} (device : UInt8) {e : Event ε} {error : ε}
    (h : e.failure? = some error) : e.sent device = [] := by
  obtain ⟨q, r⟩ := e
  cases q with
  | exchange d out count =>
    cases r with
    | error _ => rfl
    | ok _ => cases h
  | send d out => rfl
  | _ => cases h

namespace Request

/-- Writes to the bus more than an address to read from. -/
def Sends : Request → Prop
  | send .. => True
  | _ => False

end Request

theorem Transport.FallibleMemory.holds_of_reads {ε σ α : Type} {w : World ε σ} {device : UInt8}
    (memory : FallibleMemory w device) {m : Word → Word} {p : Program ε α} {s : σ}
    (hs : memory.Holds s m) (h : ∀ e ∈ p.events w s, ∃ (a : Address) (count : Nat),
      e.request = .exchange device a.toBytes (2 * count)) : memory.Holds (p.run w s).2 m := by
  induction p generalizing s with
  | done a => exact hs
  | ask q next ih =>
    obtain ⟨⟨a, count, (rfl : q = _)⟩, later⟩ := List.forall_mem_cons.mp h
    exact ih _ (memory.read hs a count).1 later

namespace Camera

variable {ε σ : Type} (x : Camera)

/-- The read of 32 words of the RAM, those of a row of pixels or of one that follows them. -/
def rowRequest (row : Nat) : Request :=
  .exchange x.device (Address.mk (0x0400 + UInt16.ofNat (32 * row))).toBytes 64

/-- The events are the reads of all rows, without a failure, and `words` is what they brought. -/
structure WholeFrame (reads : List (Event ε)) (words : RamImage) : Prop where
  requests : reads.map Event.request = (List.range 26).map x.rowRequest
  unfailed : ∀ e ∈ reads, e.failure? = none
  words_read : ∀ (i : Nat) (hi : i < ramSize),
    Event.lastRead x.device (0x0400 + UInt16.ofNat i) reads = some words[i]

/-- The ways in which reading a frame can go, as events, result and words. -/
inductive Readout (status : Status) (words : RamImage) :
    List (Event ε) → Except (Failure ε) Unit → RamImage → Prop
  | lost {reads : List (Event ε)} {failed : Event ε} {error : ε} {words' : RamImage}
      (early : reads.length < 26)
      (requests : (reads ++ [failed]).map Event.request =
        (List.range (reads.length + 1)).map x.rowRequest)
      (unfailed : ∀ e ∈ reads, e.failure? = none) (failure : failed.failure? = some error)
      (stored : words'.toList =
        Event.received x.device reads ++ words.toList.drop (32 * reads.length)) :
      Readout status words (reads ++ [failed]) (.error (.transport error)) words'
  | uncleared {reads : List (Event ε)} {v : Word} {error : ε} {words' : RamImage}
      (whole : x.WholeFrame reads words')
      (decoded : Status.ofWord v = { status with newData := false }) :
      Readout status words
        (reads ++ [⟨.send x.device ((Address.mk 0x8000).toBytes ++ v.toBytes), .error error⟩])
        (.error (.transport error)) words'
  | cleared {reads : List (Event ε)} {v : Word} {words' : RamImage}
      (whole : x.WholeFrame reads words')
      (decoded : Status.ofWord v = { status with newData := false }) :
      Readout status words
        (reads ++ [⟨.send x.device ((Address.mk 0x8000).toBytes ++ v.toBytes), .ok ()⟩,
          ⟨.sleep x.config.registerSettleDelay, ()⟩]) (.ok ()) words'

theorem reads_rows {es : List (Event ε)} {count : Nat}
    (h : es.map Event.request = (List.range count).map x.rowRequest) {e : Event ε} (he : e ∈ es) :
    ∃ row, e.request = x.rowRequest row := by
  obtain ⟨row, -, same⟩ := List.mem_map.mp (h ▸ List.mem_map_of_mem he)
  exact ⟨row, same.symm⟩

theorem not_sends_of_rows {es : List (Event ε)} {count : Nat}
    (h : es.map Event.request = (List.range count).map x.rowRequest) {e : Event ε} (he : e ∈ es) :
    ¬e.request.Sends := by
  obtain ⟨row, request⟩ := x.reads_rows h he
  rw [request]
  exact id

theorem chunkRequest_ram {row : Nat} (h : row < 26) :
    Transport.chunkRequest x.device (AddressSpace.address RamAddress.base) ramSize
      (Transport.blockWords * row) = x.rowRequest row := by
  have whole : min Transport.blockWords (ramSize - Transport.blockWords * row) = 32 := by
    simp only [Transport.blockWords, ramSize]
    omega
  rw [Transport.chunkRequest, whole]
  rfl

section
variable {words words' : RamImage} {es : List (Event ε)}

theorem requests_readRam {result : Except ε Unit} {count : Nat} (hc : count ≤ 26)
    (h : Program.Trace (Transport.readFrom x.device (AddressSpace.address RamAddress.base) words 0)
      (result, words') es) (length : es.length = count) :
    es.map Event.request = (List.range count).map x.rowRequest := by
  rw [Transport.requests_readFrom (k := 0) h, length, List.range_eq_range']
  apply List.map_congr_left
  intro row hr
  rw [List.mem_range'_1] at hr
  exact x.chunkRequest_ram (by omega)

theorem wholeFrame_of_trace
    (h : Program.Trace (Transport.readBlock x.device (AddressSpace.address RamAddress.base) words)
      (.ok (), words') es) : x.WholeFrame es words' where
  requests := x.requests_readRam (Nat.le_refl _) h (Transport.length_of_ok h)
  unfailed := by
    rcases (Transport.haltsOnFailure_readFrom x.device _ words 0).cases h with
      ⟨-, good⟩ | ⟨-, -, error, -, -, -, found⟩
    · exact good
    · cases found
  words_read i hi := by
    have seen := (Transport.lastRead_readFrom (by decide) h).2 (0x0400 + UInt16.ofNat i)
    have place :
        (0x0400 + UInt16.ofNat i - (AddressSpace.address RamAddress.base).word).toNat = i :=
      Word.toNat_add_sub _ (Nat.lt_trans hi (by decide))
    rw [seen, place, if_pos (Nat.zero_le i), Vector.getElem?_eq_getElem hi]

theorem lost_of_trace {error : ε}
    (h : Program.Trace (Transport.readBlock x.device (AddressSpace.address RamAddress.base) words)
      (.error error, words') es) (status : Status) :
    x.Readout status words es (.error (.transport error)) words' := by
  rcases (Transport.haltsOnFailure_readFrom x.device _ words 0).cases h with
    ⟨none, -⟩ | ⟨reads, failed, error', rfl, unfailed, failure, found⟩
  · cases none
  obtain rfl : error = error' := Option.some.inj found
  have last : (reads ++ [failed])[reads.length]? = some failed := List.getElem?_concat_length
  have silent : Event.received x.device (reads ++ [failed]) = Event.received x.device reads := by
    rw [Event.received, List.flatMap_append, List.flatMap_singleton,
      Event.sent_of_failure x.device failure, List.append_nil]
    rfl
  obtain ⟨-, length, received, stored⟩ := Transport.readFrom_of_failure h last failure
  have early : reads.length < 26 := by
    have inside := (Transport.length_received_of_error h).2
    rw [received] at inside
    simp only [Transport.blockWords, ramSize] at inside
    omega
  rw [silent] at stored
  exact .lost early (x.requests_readRam early h length) unfailed failure stored

theorem readout_of_trace {status : Status} {result : Except (Failure ε) Unit}
    (h : Program.Trace (x.readFrame status words) (result, words') es) :
    x.Readout status words es result words' := by
  obtain ⟨⟨outcome, filled⟩, es₁, es₂, hb, hn, rfl⟩ := Program.trace_bind.mp h
  cases outcome with
  | error error =>
    obtain ⟨he, rfl⟩ := Program.trace_pure.mp hn
    obtain ⟨rfl, rfl⟩ := Prod.mk.inj he
    rw [List.append_nil]
    exact x.lost_of_trace hb status
  | ok u =>
    obtain ⟨written, es₃, es₄, hw, hp, rfl⟩ := Program.trace_bind.mp hn
    obtain ⟨he, rfl⟩ := Program.trace_pure.mp hp
    obtain ⟨rfl, rfl⟩ := Prod.mk.inj he
    have whole := x.wholeFrame_of_trace hb
    have decoded : Status.ofWord status.clearNewData.toWord = { status with newData := false } :=
      Status.ofWord_toWord _
    rw [List.append_nil]
    rcases x.trace_writeRegister_cases hw with ⟨error, rfl, rfl⟩ | ⟨rfl, rfl⟩
    · exact .uncleared whole decoded
    · exact .cleared whole decoded

theorem WholeFrame.eq_of_sends {reads rest before after : List (Event ε)} {write e : Event ε}
    (whole : x.WholeFrame reads words) (later : ∀ e ∈ rest, ¬e.request.Sends)
    (split : reads ++ write :: rest = before ++ e :: after) (sends : e.request.Sends) :
    before = reads := by
  rcases List.append_eq_append_iff.mp split with ⟨more, rfl, tail⟩ | ⟨more, rfl, tail⟩
  · cases more with
    | nil => exact List.append_nil _
    | cons first more =>
      have among : e ∈ rest := (List.cons.inj tail).2 ▸ List.mem_append_right more (.head _)
      exact absurd sends (later e among)
  · cases more with
    | nil => exact (List.append_nil _).symm
    | cons first more =>
      obtain ⟨rfl, -⟩ := List.cons.inj tail
      have among : e ∈ before ++ e :: more := List.mem_append_right _ (.head _)
      exact absurd sends (x.not_sends_of_rows whole.requests among)

variable {status : Status} {result : Except (Failure ε) Unit}

theorem Readout.whole_of_sends (h : x.Readout status words es result words')
    {before after : List (Event ε)} {e : Event ε} (split : es = before ++ e :: after)
    (sends : e.request.Sends) : x.WholeFrame before words' := by
  cases h with
  | lost early requests =>
    exact absurd sends (x.not_sends_of_rows requests (split ▸ List.mem_append_right _ (.head _)))
  | uncleared whole =>
    rw [whole.eq_of_sends x (List.forall_mem_nil _) split sends]
    exact whole
  | cleared whole =>
    have pause : ¬(Request.sleep x.config.registerSettleDelay).Sends := id
    rw [whole.eq_of_sends x (List.forall_mem_singleton.mpr pause) split sends]
    exact whole

theorem Readout.reads_rows_of_silent (h : x.Readout status words es result words')
    (silent : ∀ e ∈ es, ¬e.request.Sends) {e : Event ε} (he : e ∈ es) :
    ∃ row, e.request = x.rowRequest row := by
  cases h with
  | lost early requests => exact x.reads_rows requests he
  | uncleared => exact absurd trivial (silent _ (List.mem_append_right _ (.head _)))
  | cleared => exact absurd trivial (silent _ (List.mem_append_right _ (.head _)))

end

/-- The flag for new data is cleared after the whole frame has been read: what is written to the bus
comes after 26 reads that have brought all words, and it is the status with the flag cleared. Where
a read fails nothing is written, so a camera that keeps its memory still has the flag and the
measurement. -/
theorem clears_flag_after_whole_frame (w : World ε σ) (s : σ) (status : Status)
    (words : RamImage) :
    x.Readout status words ((x.readFrame status words).events w s)
      ((x.readFrame status words).run w s).1.1 ((x.readFrame status words).run w s).1.2 ∧
    (∀ (before after : List (Event ε)) (e : Event ε),
      (x.readFrame status words).events w s = before ++ e :: after → e.request.Sends →
        x.WholeFrame before ((x.readFrame status words).run w s).1.2) ∧
    ∀ (memory : Transport.FallibleMemory w x.device) (m : Word → Word), memory.Holds s m →
      (∀ e ∈ (x.readFrame status words).events w s, ¬e.request.Sends) →
        memory.Holds ((x.readFrame status words).run w s).2 m := by
  have readout := x.readout_of_trace (Program.trace_run w (x.readFrame status words) s)
  refine ⟨readout, fun _ _ _ split sends => readout.whole_of_sends x split sends, ?_⟩
  intro memory m hs silent
  apply memory.holds_of_reads hs
  intro e he
  obtain ⟨row, request⟩ := readout.reads_rows_of_silent x silent he
  exact ⟨_, 32, request⟩

end Camera
end Thermopile
