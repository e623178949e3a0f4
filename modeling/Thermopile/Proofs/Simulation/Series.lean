import Thermopile.Proofs.Decoder.Step
import Thermopile.Proofs.Simulation.Device

namespace Thermopile.Simulation.Device

variable {device : UInt8} {more : Bool} {d d' : Device} {l : List Snapshot} {m : Snapshot}

def ram (d : Device) : RamImage :=
  Vector.ofFn fun i => d.peek (RamAddress.base.word + UInt16.ofNat i)

def status (d : Device) : Status := Status.ofWord (d.peek RegisterAddress.status.word)

def control (d : Device) : Control := Control.ofWord (d.peek RegisterAddress.control.word)

theorem Alike.status (ha : d.Alike d') : d'.status = d.status := by
  unfold Device.status
  rw [ha.peek]

theorem Alike.control (ha : d.Alike d') : d'.control = d.control := by
  unfold Device.control
  rw [ha.peek]

theorem Alike.ram (ha : d.Alike d') : d'.ram = d.ram := by
  unfold Device.ram
  congr 1
  funext i
  rw [ha.peek]

/-- Measurements whose subpages alternate, `p` being the first. -/
def alternating (pattern : AccessPattern) (resolution : Resolution) :
    (p : Subpage) → List RamImage → List Snapshot
  | _, [] => []
  | p, image :: rest =>
    ⟨image, p, pattern, resolution⟩ :: alternating pattern resolution p.other rest

/-- The measurement in the RAM, then those that are ready. -/
def series (d : Device) : List Snapshot :=
  alternating d.control.accessPattern d.control.resolution d.status.lastSubpage
    (d.ram :: d.measurements)

theorem length_series : d.series.length = d.measurements.length + 1 := by
  have length (pattern : AccessPattern) (resolution : Resolution) (p : Subpage)
      (images : List RamImage) :
      (alternating pattern resolution p images).length = images.length := by
    induction images generalizing p with
    | nil => rfl
    | cons image rest ih => exact congrArg _ (ih p.other)
  exact length _ _ _ _

/-- The measurements `l` are what the camera shows next. After them it shows nothing new, unless
there is `more`, which is the last one again. -/
structure Offers (device : UInt8) (more : Bool) (d : Device) (l : List Snapshot) : Prop where
  cooperative : d.Cooperative device
  repeats : d.repeats = more
  offered : d.status.newData = true ∧ l = d.series ∨
    l = [] ∧ (more = true ∨ d.status.newData = false)

theorem Offers.alike (h : d.Offers device more l) (ha : d.Alike d') :
    d'.Offers device more l := by
  obtain ⟨count, log, rfl⟩ := ha
  exact ⟨h.cooperative.alike ⟨count, log, rfl⟩, h.repeats, h.offered⟩

theorem Offers.newData (h : d.Offers device more (m :: l)) :
    d.status.newData = true ∧ m :: l = d.series := by
  rcases h.offered with offered | ⟨none, -⟩
  · exact offered
  · cases none

theorem Offers.exhausted (h : d.Offers device false []) : d.status.newData = false := by
  rcases h.offered with ⟨-, series⟩ | ⟨-, again | old⟩
  · cases series
  · cases again
  · exact old

theorem ram_ne_register (i : Fin ramSize) (r : RegisterAddress) :
    r.word ≠ RamAddress.base.word + UInt16.ofNat i := by
  intro h
  have hi : i.val < 832 := i.isLt
  have hb : RamAddress.base.word.toNat = 1024 := rfl
  have hr : 32768 ≤ r.word.toNat := by cases r <;> decide
  rw [h, UInt16.toNat_add, UInt16.toNat_ofNat', hb] at hr
  omega

theorem ram_poke (r : RegisterAddress) (w : Word) : (d.poke r.word w).ram = d.ram := by
  unfold ram
  congr 1
  funext i
  rw [peek_poke, if_neg (ram_ne_register i r)]

/-- Fields of the control register that have no part in what is measured. -/
theorem Offers.write_control (h : d.Offers device more l) {w : Word}
    (hp : (Control.ofWord w).accessPattern = d.control.accessPattern)
    (hr : (Control.ofWord w).resolution = d.control.resolution) :
    (d.poke RegisterAddress.control.word w).Offers device more l := by
  have hs : (d.poke RegisterAddress.control.word w).status = d.status := by
    unfold status
    rw [peek_poke, if_neg (by decide)]
  have hc : (d.poke RegisterAddress.control.word w).control = Control.ofWord w := by
    unfold control
    rw [peek_poke, if_pos rfl]
  have same : (d.poke RegisterAddress.control.word w).series = d.series := by
    unfold series
    rw [hs, hc, hp, hr, ram_poke]
    rfl
  have ho := h.offered
  refine ⟨h.cooperative.poke _ _, h.repeats, ?_⟩
  rw [hs, same]
  exact ho

theorem peek_load_register (image : RamImage) (r : RegisterAddress) :
    (d.load RamAddress.base.word image.toList).peek r.word = d.peek r.word := by
  have hr : 32768 ≤ r.word.toNat := by cases r <;> decide
  have hb : RamAddress.base.word.toNat = 1024 := rfl
  have hl : image.toList.length = 832 := Vector.length_toList
  rw [peek_load, List.getElem?_eq_none (by omega)]
  split <;> rfl

theorem ram_load (image : RamImage) : (d.load RamAddress.base.word image.toList).ram = image := by
  have hb : RamAddress.base.word.toNat = 1024 := rfl
  apply Vector.ext
  intro i hi
  have hi' : i < 832 := hi
  have ha : (RamAddress.base.word + UInt16.ofNat i).toNat = 1024 + i := by
    rw [UInt16.toNat_add, UInt16.toNat_ofNat', hb]
    omega
  unfold ram
  rw [Vector.getElem_ofFn, peek_load, ha, hb, if_pos (by omega), Nat.add_sub_cancel_left]
  simp [hi']

/-- What the camera makes of a status without new data when it has measured. -/
theorem ofWord_measured (s : Status) :
    Status.ofWord (s.clearNewData.toWord ^^^ 1 ||| 8) =
      { s with lastSubpage := s.lastSubpage.other, newData := true } :=
  Status.forall_of_all
    (P := fun s => Status.ofWord (s.clearNewData.toWord ^^^ 1 ||| 8) =
      { s with lastSubpage := s.lastSubpage.other, newData := true })
    (by decide) s

theorem bit_clearNewData (s : Status) : s.clearNewData.toWord.bit 3 = false :=
  Status.forall_of_all (P := fun s => s.clearNewData.toWord.bit 3 = false) (by decide) s

theorem status_poke (w : Word) :
    (d.poke RegisterAddress.status.word w).status = Status.ofWord w := by
  unfold status
  rw [peek_poke, if_pos rfl]

theorem control_poke_status (w : Word) :
    (d.poke RegisterAddress.status.word w).control = d.control := by
  unfold control
  rw [peek_poke, if_neg (by decide)]

theorem status_announce {s : Status}
    (hs : d.peek RegisterAddress.status.word = s.clearNewData.toWord) :
    d.announce.status = { s with lastSubpage := s.lastSubpage.other, newData := true } := by
  rw [announce, status_poke, hs, ofWord_measured]

theorem measured_of_cons {image : RamImage} {rest : List RamImage}
    (h : d.measurements = image :: rest) {s : Status}
    (hs : d.peek RegisterAddress.status.word = s.clearNewData.toWord) :
    d.measure.status = { s with lastSubpage := s.lastSubpage.other, newData := true } ∧
      d.measure.control = d.control ∧ d.measure.ram = image ∧ d.measure.measurements = rest := by
  rw [measure_of_cons h]
  refine ⟨?_, ?_, ?_, rfl⟩
  · apply status_announce
    rw [peek_load_register]
    exact hs
  · rw [announce, control_poke_status]
    unfold control
    rw [peek_load_register]
    rfl
  · rw [announce, ram_poke, ram_load]

theorem Cooperative.measure (h : d.Cooperative device) : d.measure.Cooperative device := by
  cases hd : d.measurements with
  | nil =>
    rw [measure_of_nil hd]
    split
    · exact h.poke _ _
    · exact h
  | cons image rest =>
    rw [measure_of_cons hd]
    exact { h with }

theorem repeats_measure (d : Device) : d.measure.repeats = d.repeats := by
  cases hd : d.measurements with
  | nil =>
    rw [measure_of_nil hd]
    split <;> rfl
  | cons image rest =>
    rw [measure_of_cons hd]
    rfl

theorem Offers.clear (h : d.Offers device more (m :: l)) :
    (d.store RegisterAddress.status.word d.status.clearNewData.toWord).Offers device more l := by
  obtain ⟨hn, hl⟩ := h.newData
  have rest := (List.cons.inj hl).2
  unfold store
  rw [if_pos ⟨rfl, bit_clearNewData _⟩]
  -- The write itself changes the status alone; the rest is up to what is ready in the camera.
  generalize he : d.poke RegisterAddress.status.word d.status.clearNewData.toWord = e
  have coop : e.Cooperative device := he ▸ h.cooperative.poke _ _
  have hs : e.peek RegisterAddress.status.word = d.status.clearNewData.toWord := by
    rw [← he, peek_poke, if_pos rfl]
  have hc : e.control = d.control := by rw [← he, control_poke_status]
  have hm : e.measurements = d.measurements := by rw [← he]; rfl
  have hr : e.repeats = more := by rw [← he]; exact h.repeats
  refine ⟨coop.measure, (repeats_measure e).trans hr, ?_⟩
  cases hd : d.measurements with
  | nil =>
    rw [hd] at rest
    refine .inr ⟨rest, ?_⟩
    cases more with
    | true => exact .inl rfl
    | false =>
      have idle : e.measure = e := by
        rw [measure_of_nil (hm.trans hd), hr, if_neg Bool.false_ne_true]
      rw [idle, status, hs, Status.ofWord_toWord]
      exact .inr rfl
  | cons image others =>
    obtain ⟨status, control, ram, measurements⟩ := measured_of_cons (hm.trans hd) hs
    refine .inl ⟨by rw [status], ?_⟩
    rw [rest, hd]
    unfold series
    rw [status, control, ram, measurements, hc]

theorem valid_series (h : ∀ image ∈ d.ram :: d.measurements, ∀ w ∈ image, w ≠ invalidWord) :
    ∀ m ∈ d.series, m.Valid := by
  have all (pattern : AccessPattern) (resolution : Resolution) (p : Subpage)
      (images : List RamImage) (h : ∀ image ∈ images, ∀ w ∈ image, w ≠ invalidWord) :
      ∀ m ∈ alternating pattern resolution p images, m.Valid := by
    induction images generalizing p with
    | nil => exact fun m hm => absurd hm List.not_mem_nil
    | cons image rest ih =>
      have hr := List.forall_mem_cons.mp h
      exact List.forall_mem_cons.mpr ⟨Snapshot.valid_of_forall_ne hr.1, ih p.other hr.2⟩
  exact all _ _ _ _ h

end Thermopile.Simulation.Device
