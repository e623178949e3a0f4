import Thermopile.Camera.Basic
import Thermopile.Proofs.Trace
import Thermopile.Slot

namespace Thermopile

/-- What `device` is sent as its new word at address `a`, acknowledged or not. -/
def Request.wordWritten? (device : UInt8) (a : Word) : Request → Option Word
  | .send d out =>
    match Word.listOfBytes out with
    | [b, w] => if d = device ∧ b = a then some w else none
    | _ => none
  | _ => none

namespace Event

variable {ε : Type} (device : UInt8) (a : Word)

/-- The words that `device` sent, with the address of the first. -/
def reading? (e : Event ε) : Option (Word × List Word) :=
  match e with
  | ⟨.exchange d out _, .ok bytes⟩ =>
    if d = device then
      (Word.listOfBytes out).head?.map fun start => (start, Word.listOfBytes bytes.toList)
    else none
  | _ => none

def wordRead? (e : Event ε) : Option Word :=
  match e.reading? device with
  | some (start, words) => words[(a - start).toNat]?
  | none => none

def frame? (e : Event ε) : Option (Frame Float) :=
  match e.request with
  | .publish frame => some frame
  | _ => none

def isCheck (e : Event ε) : Bool :=
  match e.request with
  | .cancelled => true
  | _ => false

def lastRead (es : List (Event ε)) : Option Word := (es.filterMap (wordRead? device a)).getLast?

def written (es : List (Event ε)) : List Word :=
  es.filterMap fun e => e.request.wordWritten? device a

def published (es : List (Event ε)) : List (Frame Float) := es.filterMap frame?

def updateSlot (slot : Slot Float) (e : Event ε) : Slot Float :=
  match e.request with
  | .publish frame => slot.publish frame
  | .finish => slot.finish
  | _ => slot

/-- The slot after `es`, if it was new before. -/
def slotAfter (es : List (Event ε)) : Slot Float := es.foldl updateSlot {}

/-- The events before the first check. -/
def setUp (es : List (Event ε)) : List (Event ε) := (es.splitOnP isCheck).headD []

/-- The events after each check, up to the next. -/
def cycles (es : List (Event ε)) : List (List (Event ε)) := (es.splitOnP isCheck).tail

variable {device a} {es es₁ es₂ : List (Event ε)}

@[simp] theorem lastRead_nil : lastRead device a ([] : List (Event ε)) = none := rfl

theorem lastRead_append :
    lastRead device a (es₁ ++ es₂) = (lastRead device a es₂).or (lastRead device a es₁) := by
  rw [lastRead, List.filterMap_append, List.getLast?_append]
  rfl

theorem lastRead_singleton (e : Event ε) : lastRead device a [e] = e.wordRead? device a := by
  unfold lastRead
  cases h : e.wordRead? device a <;> simp [h]

theorem lastRead_cons (e : Event ε) :
    lastRead device a (e :: es) = (lastRead device a es).or (e.wordRead? device a) := by
  rw [← List.singleton_append, lastRead_append, lastRead_singleton]

theorem written_append :
    written device a (es₁ ++ es₂) = written device a es₁ ++ written device a es₂ :=
  List.filterMap_append

theorem published_append : published (es₁ ++ es₂) = published es₁ ++ published es₂ :=
  List.filterMap_append

theorem frame_foldl_updateSlot (slot : Slot Float) :
    (es.foldl updateSlot slot).frame = (published es).getLast?.or slot.frame := by
  induction es generalizing slot with
  | nil => rfl
  | cons e rest ih =>
    rw [List.foldl_cons, ih]
    obtain ⟨q, r⟩ := e
    cases q with
    | publish frame =>
      have hp : published (⟨.publish frame, r⟩ :: rest) = frame :: published rest := rfl
      rw [hp, List.getLast?_cons]
      cases (published rest).getLast? <;> rfl
    | _ => rfl

theorem frame_slotAfter : (slotAfter es).frame = (published es).getLast? := by
  rw [slotAfter, frame_foldl_updateSlot]
  cases (published es).getLast? <;> rfl

theorem finished_foldl_updateSlot (h : ∀ e ∈ es, e.request ≠ .finish) (slot : Slot Float) :
    (es.foldl updateSlot slot).finished = slot.finished := by
  induction es generalizing slot with
  | nil => rfl
  | cons e rest ih =>
    obtain ⟨he, later⟩ := List.forall_mem_cons.mp h
    rw [List.foldl_cons, ih later]
    obtain ⟨q, r⟩ := e
    cases q with
    | finish => exact absurd rfl he
    | _ => rfl

theorem slotAfter_eq (h : ∀ e ∈ es, e.request ≠ .finish) :
    slotAfter es = { frame := (published es).getLast? } := by
  have frame : (slotAfter es).frame = (published es).getLast? := frame_slotAfter
  have finished : (slotAfter es).finished = false := finished_foldl_updateSlot h {}
  rw [← frame, ← finished]

theorem lastRead_eq_none (h : ∀ e ∈ es, e.wordRead? device a = none) :
    lastRead device a es = none := by
  rw [lastRead, List.filterMap_eq_nil_iff.mpr h]
  rfl

theorem written_eq_nil (h : ∀ e ∈ es, e.request.wordWritten? device a = none) :
    written device a es = [] := List.filterMap_eq_nil_iff.mpr h

theorem published_eq_nil (h : ∀ e ∈ es, e.frame? = none) : published es = [] :=
  List.filterMap_eq_nil_iff.mpr h

theorem splitOnP_append (h : ∀ e ∈ es₁, e.isCheck = false) :
    (es₁ ++ es₂).splitOnP isCheck = (es₁ ++ setUp es₂) :: cycles es₂ := by
  induction es₁ with
  | nil =>
    have hne := List.splitOnP_ne_nil isCheck es₂
    unfold setUp cycles
    cases hs : es₂.splitOnP isCheck with
    | nil => exact absurd hs hne
    | cons head tail => exact hs
  | cons e rest ih =>
    simp only [List.forall_mem_cons] at h
    rw [List.cons_append, List.splitOnP_cons_eq_if_modifyHead, h.1, ih h.2]
    rfl

theorem setUp_append (h : ∀ e ∈ es₁, e.isCheck = false) :
    setUp (es₁ ++ es₂) = es₁ ++ setUp es₂ := by
  rw [setUp, splitOnP_append h]
  rfl

theorem cycles_append (h : ∀ e ∈ es₁, e.isCheck = false) : cycles (es₁ ++ es₂) = cycles es₂ := by
  rw [cycles, splitOnP_append h]
  rfl

theorem setUp_of_unchecked (h : ∀ e ∈ es, e.isCheck = false) : setUp es = es := by
  rw [← List.append_nil es, setUp_append h]
  rfl

theorem cycles_of_unchecked (h : ∀ e ∈ es, e.isCheck = false) : cycles es = [] := by
  rw [← List.append_nil es, cycles_append h]
  rfl

theorem setUp_check {e : Event ε} (h : e.isCheck = true) : setUp (e :: es) = [] := by
  rw [setUp, List.splitOnP_cons_eq_if_modifyHead, if_pos h]
  rfl

theorem cycles_check {e : Event ε} (h : e.isCheck = true) :
    cycles (e :: es) = setUp es :: cycles es := by
  have hs : ([] ++ es).splitOnP isCheck = setUp es :: cycles es := splitOnP_append (by simp)
  rw [cycles, List.splitOnP_cons_eq_if_modifyHead, if_pos h, ← List.nil_append es, hs]
  rfl

theorem setUp_cons {e : Event ε} (h : e.isCheck = false) : setUp (e :: es) = e :: setUp es := by
  rw [← List.singleton_append, setUp_append (by simpa using h)]
  rfl

theorem cycles_cons {e : Event ε} (h : e.isCheck = false) : cycles (e :: es) = cycles es := by
  rw [← List.singleton_append, cycles_append (by simpa using h)]

theorem setUp_cases (es : List (Event ε)) :
    es = setUp es ∧ cycles es = [] ∨
    ∃ check rest, check.isCheck = true ∧ es = setUp es ++ check :: rest ∧
      cycles es = setUp rest :: cycles rest := by
  induction es with
  | nil => exact .inl ⟨rfl, rfl⟩
  | cons e es ih =>
    by_cases he : e.isCheck = true
    · rw [setUp_check he, cycles_check he]
      exact .inr ⟨e, es, he, rfl, rfl⟩
    · have unchecked : e.isCheck = false := Bool.eq_false_iff.mpr he
      rw [setUp_cons unchecked, cycles_cons unchecked]
      rcases ih with ⟨whole, none⟩ | ⟨check, rest, hc, split, later⟩
      · exact .inl ⟨congrArg _ whole, none⟩
      · exact .inr ⟨check, rest, hc, congrArg _ split, later⟩

theorem setUp_prefix (es : List (Event ε)) : setUp es <+: es := by
  rcases setUp_cases es with ⟨whole, -⟩ | ⟨check, rest, -, split, -⟩
  · exact ⟨[], (List.append_nil _).trans whole.symm⟩
  · exact ⟨check :: rest, split.symm⟩

theorem exists_eq_of_cycles {k : Nat} {a b : List (Event ε)} (ha : (cycles es)[k]? = some a)
    (hb : (cycles es)[k + 1]? = some b) :
    ∃ before check after, check.isCheck = true ∧ es = before ++ (a ++ check :: (b ++ after)) := by
  induction k generalizing es with
  | zero =>
    rcases setUp_cases es with ⟨-, none⟩ | ⟨check, rest, -, split, later⟩
    · rw [none] at ha
      cases ha
    rw [later] at ha hb
    obtain rfl := Option.some.inj ha
    rcases setUp_cases rest with ⟨-, none⟩ | ⟨check', rest', hc, split', later'⟩
    · rw [List.getElem?_cons_succ, none] at hb
      cases hb
    rw [List.getElem?_cons_succ, later'] at hb
    obtain rfl := Option.some.inj hb
    obtain ⟨after, begins⟩ := setUp_prefix rest'
    refine ⟨setUp es ++ [check], check', after, hc, ?_⟩
    rw [begins, ← split', List.append_assoc, List.singleton_append, ← split]
  | succ k ih =>
    rcases setUp_cases es with ⟨-, none⟩ | ⟨check, rest, -, split, later⟩
    · rw [none] at ha
      cases ha
    rw [later, List.getElem?_cons_succ] at ha hb
    obtain ⟨before, check', after, hc, rest_eq⟩ := ih ha hb
    refine ⟨setUp es ++ check :: before, check', after, hc, ?_⟩
    rw [List.append_assoc, List.cons_append, ← rest_eq]
    exact split

theorem frame?_of_check {e : Event ε} (h : e.isCheck = true) : e.frame? = none := by
  obtain ⟨q, r⟩ := e
  cases q <;> first | rfl | cases h

theorem wordWritten?_of_check {e : Event ε} (h : e.isCheck = true) :
    e.request.wordWritten? device a = none := by
  obtain ⟨q, r⟩ := e
  cases q <;> first | rfl | cases h

/-- What is not in a check is in the set-up or in a cycle. -/
theorem filterMap_eq_cycles {β : Type} {f : Event ε → Option β}
    (unchecked : ∀ e, e.isCheck = true → f e = none) :
    es.filterMap f = (setUp es).filterMap f ++ (cycles es).flatMap (List.filterMap f) := by
  induction es with
  | nil => rfl
  | cons e rest ih =>
    by_cases he : e.isCheck = true
    · rw [setUp_check he, cycles_check he, List.filterMap_cons_none (unchecked e he)]
      exact ih
    · have inside : e.isCheck = false := Bool.eq_false_iff.mpr he
      rw [setUp_cons inside, cycles_cons inside, ← List.singleton_append, List.filterMap_append, ih,
        ← List.append_assoc, ← List.filterMap_append]
      rfl

theorem published_eq_cycles :
    published es = published (setUp es) ++ (cycles es).flatMap published :=
  filterMap_eq_cycles fun _ => frame?_of_check

theorem written_eq_cycles :
    written device a es = written device a (setUp es) ++ (cycles es).flatMap (written device a) :=
  filterMap_eq_cycles fun _ => wordWritten?_of_check

end Event
end Thermopile
