import Mathlib.Logic.Function.Basic
import Thermopile.Proofs.Acquisition.Publication

namespace Thermopile

namespace Slot

variable {α : Type} {s : Slot α} {after : Nat} {timeUp : Bool}

@[simp] theorem frame_publish (f : Frame α) : (s.publish f).frame = some f := rfl

@[simp] theorem finished_publish (f : Frame α) : (s.publish f).finished = s.finished := rfl

@[simp] theorem frame_finish : s.finish.frame = s.frame := rfl

@[simp] theorem finished_finish : s.finish.finished = true := rfl

theorem newer?_eq_some {f : Frame α} :
    s.newer? after = some f ↔ s.frame = some f ∧ after < f.sequence := by
  simp [newer?, Option.filter_eq_some_iff]

theorem look_eq_done {result : Option (Frame α)} :
    s.look after timeUp = .done result ↔
      s.newer? after = result ∧ (result.isSome = true ∨ s.finished = true ∨ timeUp = true) := by
  unfold look
  by_cases ends : (s.newer? after).isSome = true ∨ s.finished = true ∨ timeUp = true
  · rw [if_pos (by simpa [or_assoc] using ends), Look.done.injEq]
    constructor
    · rintro rfl
      exact ⟨rfl, ends⟩
    · exact And.left
  · rw [if_neg (by simpa [or_assoc] using ends)]
    simp only [reduceCtorEq, false_iff]
    rintro ⟨rfl, h⟩
    exact ends h

theorem look_eq_keepWaiting :
    s.look after timeUp = .keepWaiting ↔
      s.newer? after = none ∧ s.finished = false ∧ timeUp = false := by
  unfold look
  cases s.newer? after <;> cases s.finished <;> cases timeUp <;> simp

end Slot

namespace Consumers

variable {ι α : Type}

/-- What happens to the slot, with what a consumer gets to see. -/
inductive Action (ι α : Type)
  | publish (frame : Frame α)
  | finish
  | latest (c : ι) (seen : Option (Frame α))
  /-- The consumer begins to wait for a frame numbered above `after`. -/
  | call (c : ι) (after : Nat)
  | timeout (c : ι)
  | check (c : ι) (look : Slot.Look α)

structure Wait where
  after : Nat
  timeUp : Bool := false

structure System (ι α : Type) where
  slot : Slot α := {}
  sequence : Nat := 0
  waiting : ι → Option Wait := fun _ => none

section
variable [DecidableEq ι]

namespace System

def setWait (s : System ι α) (c : ι) (wait : Option Wait) : System ι α :=
  { s with waiting := Function.update s.waiting c wait }

variable {s : System ι α} {c c' : ι} {wait : Option Wait} {wait' : Wait}

@[simp] theorem slot_setWait : (s.setWait c wait).slot = s.slot := rfl

@[simp] theorem sequence_setWait : (s.setWait c wait).sequence = s.sequence := rfl

@[simp] theorem waiting_setWait_self : (s.setWait c wait).waiting c = wait :=
  Function.update_self ..

theorem waiting_setWait_eq_some :
    (s.setWait c' wait).waiting c = some wait' ↔
      c = c' ∧ wait = some wait' ∨ c ≠ c' ∧ s.waiting c = some wait' := by
  change Function.update s.waiting c' wait c = some wait' ↔ _
  rw [Function.update_apply]
  by_cases hc : c = c' <;> simp [hc]

end System

/-- The acquisition goes on until it has finished; a consumer waits for one frame at a time. -/
inductive Step : System ι α → Action ι α → System ι α → Prop
  | publish {s : System ι α} {frame : Frame α} (running : s.slot.finished = false)
      (numbered : frame.sequence = s.sequence + 1) :
      Step s (.publish frame)
        { s with slot := s.slot.publish frame, sequence := s.sequence + 1 }
  | finish {s : System ι α} (running : s.slot.finished = false) :
      Step s .finish { s with slot := s.slot.finish }
  | latest {s : System ι α} (c : ι) : Step s (.latest c s.slot.frame) s
  | call {s : System ι α} {c : ι} (idle : s.waiting c = none) (after : Nat) :
      Step s (.call c after) (s.setWait c (some { after }))
  | timeout {s : System ι α} {c : ι} {wait : Wait} (waits : s.waiting c = some wait) :
      Step s (.timeout c) (s.setWait c (some { wait with timeUp := true }))
  | keepWaiting {s : System ι α} {c : ι} {wait : Wait} (waits : s.waiting c = some wait)
      (look : s.slot.look wait.after wait.timeUp = .keepWaiting) : Step s (.check c .keepWaiting) s
  | done {s : System ι α} {c : ι} {wait : Wait} {result : Option (Frame α)}
      (waits : s.waiting c = some wait) (look : s.slot.look wait.after wait.timeUp = .done result) :
      Step s (.check c (.done result)) (s.setWait c none)

inductive Run : List (Action ι α) → System ι α → Prop
  | start : Run [] {}
  | step {actions : List (Action ι α)} {s s' : System ι α} {a : Action ι α} :
      Run actions s → Step s a s' → Run (actions ++ [a]) s'

def Action.seen? (c : ι) : Action ι α → Option (Frame α)
  | .latest c' seen => if c' = c then seen else none
  | .check c' (.done result) => if c' = c then result else none
  | _ => none

def seenBy (c : ι) (actions : List (Action ι α)) : List (Frame α) :=
  actions.filterMap (Action.seen? c)

end

def Action.published? : Action ι α → Option (Frame α)
  | .publish frame => some frame
  | _ => none

def published (actions : List (Action ι α)) : List (Frame α) :=
  actions.filterMap Action.published?

def Action.Bounds (c : ι) : Action ι α → Prop
  | .call c' _ => c' = c
  | .check c' (.done _) => c' = c
  | _ => False

/-- The last call of the consumer was for a frame above `wait.after`, and has not ended; its time is
up if a timeout came since. -/
def WaitsSince (c : ι) (wait : Wait) (actions : List (Action ι α)) : Prop :=
  ∃ earlier later, actions = earlier ++ .call c wait.after :: later ∧
    (wait.timeUp = true ↔ .timeout c ∈ later) ∧ ∀ a ∈ later, ¬a.Bounds c

variable {c : ι} {wait : Wait} {actions : List (Action ι α)} {a : Action ι α}

theorem published_concat :
    published (actions ++ [a]) = published actions ++ a.published?.toList := by
  unfold published
  cases h : a.published? <;> simp [h]

theorem WaitsSince.concat (h : WaitsSince c wait actions) (running : a ≠ .timeout c)
    (within : ¬a.Bounds c) : WaitsSince c wait (actions ++ [a]) := by
  obtain ⟨earlier, later, rfl, time, going⟩ := h
  refine ⟨earlier, later ++ [a], by simp, ?_, ?_⟩
  · simp [time, running.symm]
  · simpa [or_imp, forall_and] using ⟨going, within⟩

theorem WaitsSince.timeout (h : WaitsSince c wait actions) :
    WaitsSince c { wait with timeUp := true } (actions ++ [.timeout c]) := by
  obtain ⟨earlier, later, rfl, -, going⟩ := h
  refine ⟨earlier, later ++ [.timeout c], by simp, by simp, ?_⟩
  simpa [or_imp, forall_and] using ⟨going, id⟩

section
variable [DecidableEq ι] {s s' : System ι α}

theorem seenBy_concat : seenBy c (actions ++ [a]) = seenBy c actions ++ (a.seen? c).toList := by
  unfold seenBy
  cases h : a.seen? c <;> simp [h]

theorem Step.frame_of_seen (h : Step s a s') {f : Frame α} (hf : a.seen? c = some f) :
    s.slot.frame = some f := by
  cases h with
  | latest c' =>
    simp only [Action.seen?, Option.ite_none_right_eq_some] at hf
    exact hf.2
  | done waits look =>
    simp only [Action.seen?, Option.ite_none_right_eq_some] at hf
    rw [hf.2] at look
    exact (Slot.newer?_eq_some.mp (Slot.look_eq_done.mp look).1).1
  | _ => cases hf

theorem Step.sequence_le (h : Step s a s') : s.sequence ≤ s'.sequence := by
  cases h with
  | publish => exact Nat.le_succ _
  | _ => exact Nat.le_refl _

theorem Run.frame (run : Run actions s) : s.slot.frame = (published actions).getLast? := by
  induction run with
  | start => rfl
  | step run step ih =>
    rw [published_concat]
    cases step with
    | publish => simp [Action.published?]
    | _ => simpa [Action.published?] using ih

theorem Run.sequence_published (run : Run actions s) :
    (published actions).map Frame.sequence = List.range' 1 s.sequence := by
  induction run with
  | start => rfl
  | step run step ih =>
    rw [published_concat]
    cases step with
    | publish running numbered =>
      simp [Action.published?, ih, numbered, List.range'_concat, Nat.add_comm]
    | _ => simpa [Action.published?] using ih

theorem Run.finished (run : Run actions s) : s.slot.finished = true ↔ .finish ∈ actions := by
  induction run with
  | start => simp
  | step run step ih =>
    cases step with
    | finish => simp
    | _ => simpa using ih

theorem Run.sequence_le (run : Run actions s) {f : Frame α} (hf : f ∈ published actions) :
    f.sequence ≤ s.sequence := by
  have number := List.mem_map_of_mem (f := Frame.sequence) hf
  rw [run.sequence_published, List.mem_range'_1] at number
  omega

theorem Run.sequence_of_frame (run : Run actions s) {f : Frame α} (hf : s.slot.frame = some f) :
    f.sequence = s.sequence := by
  induction run with
  | start => cases hf
  | step run step ih =>
    cases step with
    | publish running numbered =>
      cases hf
      exact numbered
    | _ => exact ih hf

theorem Run.newer?_eq_none (run : Run actions s) {after : Nat} :
    s.slot.newer? after = none ↔ ∀ f ∈ published actions, f.sequence ≤ after := by
  rw [Slot.newer?, Option.filter_eq_none_iff]
  constructor
  · intro old f hf
    have newest : s.slot.frame = some ((published actions).getLast (List.ne_nil_of_mem hf)) := by
      rw [run.frame, List.getLast?_eq_some_getLast]
    have last := old _ newest
    rw [run.sequence_of_frame newest, decide_eq_true_iff, Nat.not_lt] at last
    exact Nat.le_trans (run.sequence_le hf) last
  · intro old f hf
    rw [run.frame] at hf
    have below := old f (List.mem_of_getLast? hf)
    simpa using below

theorem Run.pairwise_seenBy (run : Run actions s) (c : ι) :
    ((seenBy c actions).map Frame.sequence).Pairwise (· ≤ ·) ∧
      ∀ n ∈ (seenBy c actions).map Frame.sequence, n ≤ s.sequence := by
  induction run with
  | start => exact ⟨.nil, nofun⟩
  | @step actions s s' a run step ih =>
    obtain ⟨sorted, below⟩ := ih
    have grows : ∀ n ∈ (seenBy c actions).map Frame.sequence, n ≤ s'.sequence :=
      fun n hn => Nat.le_trans (below n hn) step.sequence_le
    rw [seenBy_concat]
    cases hs : a.seen? c with
    | none =>
      rw [Option.toList_none, List.append_nil]
      exact ⟨sorted, grows⟩
    | some f =>
      have newest : f.sequence = s.sequence := run.sequence_of_frame (step.frame_of_seen hs)
      rw [Option.toList_some, List.map_append, List.map_singleton, newest]
      constructor
      · exact List.pairwise_append.mpr ⟨sorted, List.pairwise_singleton _ _, by simpa using below⟩
      · intro n hn
        rcases List.mem_append.mp hn with hn | hn
        · exact grows n hn
        · exact List.mem_singleton.mp hn ▸ step.sequence_le

theorem Run.waitsSince (run : Run actions s) (h : s.waiting c = some wait) :
    WaitsSince c wait actions := by
  induction run generalizing wait with
  | start => cases h
  | step run step ih =>
    cases step with
    | publish | finish | latest | keepWaiting => exact (ih h).concat nofun id
    | call idle after =>
      rcases System.waiting_setWait_eq_some.mp h with ⟨rfl, hw⟩ | ⟨other, waits⟩
      · cases hw
        exact ⟨_, [], rfl, by simp, nofun⟩
      · exact (ih waits).concat nofun other.symm
    | timeout waits =>
      rcases System.waiting_setWait_eq_some.mp h with ⟨rfl, hw⟩ | ⟨other, waits'⟩
      · cases hw
        exact (ih waits).timeout
      · exact (ih waits').concat (by simp [other.symm]) id
    | done waits look =>
      rcases System.waiting_setWait_eq_some.mp h with ⟨-, hw⟩ | ⟨other, waits'⟩
      · cases hw
      · exact (ih waits').concat nofun other.symm

/-- In every state that is reached, by whatever order of the actions of acquisition and consumers:
the slot has the frame published last, so what a consumer sees never gets older; a check ends a wait
with the newest frame if it is new enough, and without a frame only if none is and the time is up or
the acquisition has finished; and after it has finished every check ends its wait. -/
theorem consumers_see_newest_frame (run : Run actions s) :
    s.slot.frame = (published actions).getLast? ∧
    (published actions).map Frame.sequence = List.range' 1 (published actions).length ∧
    (∀ c : ι, ((seenBy c actions).map Frame.sequence).Pairwise (· ≤ ·)) ∧
    (∀ c seen s', Step s (.latest c seen) s' → seen = (published actions).getLast?) ∧
    (∀ c look s', Step s (.check c look) s' → ∃ wait, WaitsSince c wait actions ∧
      match look with
      | .done (some f) => wait.after < f.sequence ∧ (published actions).getLast? = some f
      | .done none => (∀ f ∈ published actions, f.sequence ≤ wait.after) ∧
          (wait.timeUp = true ∨ .finish ∈ actions)
      | .keepWaiting => (∀ f ∈ published actions, f.sequence ≤ wait.after) ∧
          wait.timeUp = false ∧ .finish ∉ actions) ∧
    ∀ c wait, s.waiting c = some wait → .finish ∈ actions →
      (∀ s', ¬Step s (.check c .keepWaiting) s') ∧
      ∃ result s', Step s (.check c (.done result)) s' ∧ s'.waiting c = none ∧
        (result.isSome = true ↔ ∃ f ∈ published actions, wait.after < f.sequence) := by
  refine ⟨run.frame, ?_, fun c => (run.pairwise_seenBy c).1, ?_, ?_, ?_⟩
  · have length := congrArg List.length run.sequence_published
    rw [List.length_map, List.length_range'] at length
    rw [length]
    exact run.sequence_published
  · intro c seen s' step
    cases step
    exact run.frame
  · intro c look s' step
    cases step with
    | keepWaiting waits look =>
      obtain ⟨old, unfinished, inTime⟩ := Slot.look_eq_keepWaiting.mp look
      refine ⟨_, run.waitsSince waits, run.newer?_eq_none.mp old, inTime, ?_⟩
      rw [← run.finished, unfinished]
      exact Bool.false_ne_true
    | @done _ wait result waits look =>
      obtain ⟨found, ends⟩ := Slot.look_eq_done.mp look
      refine ⟨wait, run.waitsSince waits, ?_⟩
      cases result with
      | none =>
        refine ⟨run.newer?_eq_none.mp found, ?_⟩
        rw [← run.finished]
        simpa [or_comm] using ends
      | some f =>
        obtain ⟨newest, newer⟩ := Slot.newer?_eq_some.mp found
        exact ⟨newer, run.frame ▸ newest⟩
  · intro c wait waits finished
    rw [← run.finished] at finished
    constructor
    · intro s' step
      cases step with
      | keepWaiting waits' look =>
        obtain ⟨-, unfinished, -⟩ := Slot.look_eq_keepWaiting.mp look
        rw [finished] at unfinished
        cases unfinished
    · have look : s.slot.look wait.after wait.timeUp = .done (s.slot.newer? wait.after) :=
        Slot.look_eq_done.mpr ⟨rfl, .inr (.inl finished)⟩
      refine ⟨_, _, .done waits look, System.waiting_setWait_self, ?_⟩
      simp only [Option.isSome_iff_ne_none, Ne, run.newer?_eq_none, not_forall, Nat.not_le,
        exists_prop]

/-- A consumer that began to wait before the first frame gets it, although it looks only after the
acquisition has finished. -/
theorem consumers_see_newest_frame_late :
    ∃ s s' : System Unit Float,
      Run [.call () 0, .publish { Frame.empty with sequence := 1 }, .finish] s ∧
      Step s (.check () (.done (some { Frame.empty with sequence := 1 }))) s' ∧
      s'.waiting () = none := by
  have run : Run [.call () 0, .publish { Frame.empty with sequence := 1 }, .finish]
      (_ : System Unit Float) :=
    .step (.step (.step .start (.call rfl 0)) (.publish rfl rfl)) (.finish rfl)
  obtain ⟨-, -, -, -, checked, ended⟩ := consumers_see_newest_frame run
  obtain ⟨-, result, s', step, idle, found⟩ := ended () { after := 0 } rfl (by simp)
  have some : result.isSome = true := found.mpr ⟨_, List.mem_singleton_self _, Nat.zero_lt_one⟩
  obtain ⟨f, rfl⟩ := Option.isSome_iff_exists.mp some
  obtain ⟨wait, -, -, newest⟩ := checked () _ s' step
  cases newest
  exact ⟨_, s', run, step, idle⟩

end

def Action.ofEvent? {ε : Type} (e : Event ε) : Option (Action ι Float) :=
  match e.request with
  | .publish frame => some (.publish frame)
  | .finish => some .finish
  | _ => none

theorem run_publishes [DecidableEq ι] (frames : List (Frame α))
    (numbered : frames.map Frame.sequence = List.range' 1 frames.length) :
    Run (frames.map Action.publish)
      ({ slot := { frame := frames.getLast? }, sequence := frames.length } : System ι α) := by
  induction frames using List.reverseRecOn with
  | nil => exact .start
  | append_singleton frames frame ih =>
    rw [List.map_append, List.length_append, List.length_singleton, List.range'_concat] at numbered
    obtain ⟨before, last⟩ := List.append_inj' numbered rfl
    have next : frame.sequence = frames.length + 1 := by
      simpa [Nat.add_comm] using last
    rw [List.map_append, List.getLast?_concat, List.length_append]
    exact (ih before).step (.publish rfl next)

end Consumers

namespace Event

variable {ε ι : Type} {es : List (Event ε)}

theorem filterMap_ofEvent? (h : ∀ e ∈ es, e.request ≠ .finish) :
    es.filterMap (@Consumers.Action.ofEvent? ι ε) =
      (published es).map Consumers.Action.publish := by
  induction es with
  | nil => rfl
  | cons e rest ih =>
    obtain ⟨he, later⟩ := List.forall_mem_cons.mp h
    obtain ⟨q, r⟩ := e
    cases q with
    | publish frame => exact congrArg _ (ih later)
    | finish => exact absurd rfl he
    | _ => exact ih later

end Event

namespace Acquisition

variable {ε σ : Type} (x : Acquisition)

theorem ne_finish_of_internal {q : Request} (h : q.Internal) : q ≠ .finish := by
  rintro rfl
  exact h

theorem asks_cycle (period : Nat) (p : Progress) :
    Script.Asks (· ≠ .finish) (x.cycle period p : Script ε Progress) := by
  have captured : Script.Asks (· ≠ .finish) (x.capture : Script ε Snapshot) :=
    x.asks_capture.mono fun _ => ne_finish_of_internal
  have developed (s : Snapshot) :
      Script.Asks (· ≠ .finish) (x.develop p s : Script ε Progress) := by
    unfold develop
    split
    · exact Script.asks_fail _
    · refine Script.asks_bind (Script.asks_request nofun) fun _ => ?_
      exact Script.asks_bind (Script.asks_request nofun) fun _ => Script.asks_pure _
  refine Script.asks_bind (Script.asks_request nofun) fun started => ?_
  refine Script.asks_bind (Script.asks_bind captured developed) fun p' => ?_
  refine Script.asks_bind (Script.asks_request nofun) fun ended => ?_
  exact Script.asks_bind ((asks_pace _ _ _).mono fun _ h => ne_finish_of_internal h.internal)
    fun _ => Script.asks_pure _

theorem asks_cycles (period budget : Nat) (p : Progress) :
    Script.Asks (· ≠ .finish) (x.cycles period budget p : Script ε Ending) := by
  induction budget generalizing p with
  | zero => exact Script.asks_pure _
  | succ budget ih =>
    refine Script.asks_bind (Script.asks_request nofun) fun stop => ?_
    split
    · exact Script.asks_pure _
    · exact Script.asks_bind (x.asks_cycle period p) ih

theorem asks_run (budget : Nat) (decoder : Decoder Float) :
    Script.Asks (· ≠ .finish) (x.run budget decoder : Script ε Ending) :=
  Script.asks_bind
    (asks_start (fun _ h => ne_finish_of_internal h.internal) (fun _ => nofun) nofun)
    fun _ => x.asks_cycles _ _ _

theorem exists_published_numbered (budget : Nat) (decoder : Decoder Float) (w : World ε σ) (s : σ) :
    ∃ count, (Event.published ((x.run budget decoder).run.events w s)).map Frame.sequence =
      List.range' 1 count := by
  obtain ⟨setsUp, course⟩ := trace_run (Program.trace_run w (x.run budget decoder).run s)
  rw [Event.published_eq_cycles, setsUp.published, List.nil_append]
  rcases course with ⟨none, -⟩ | ⟨snapshots, course⟩
  · rw [none]
    exact ⟨0, rfl⟩
  · rw [course.published_eq_decodedFrames.2, sequence_decodedFrames]
    exact ⟨_, rfl⟩

theorem events_serve [BusError ε] (budget : Nat) (decoder : Decoder Float) (w : World ε σ) (s : σ) :
    ∃ notice : Notice, (x.serve budget decoder).events w s =
      (x.run budget decoder).run.events w s ++ [⟨.notice notice, ()⟩, ⟨.finish, ()⟩] := by
  unfold serve
  rw [Program.events_bind]
  cases ((x.run budget decoder).run.run w s).1 with
  | ok ending => exact ⟨_, rfl⟩
  | error failure => exact ⟨_, rfl⟩

/-- What the acquisition program does to the slot: it publishes frames numbered from 1, and finishes
once, at the end. -/
theorem run_serve [BusError ε] {ι : Type} [DecidableEq ι] (budget : Nat) (decoder : Decoder Float)
    (w : World ε σ) (s : σ) :
    ∃ count, Consumers.Run
      (((x.serve budget decoder).events w s).filterMap Consumers.Action.ofEvent?)
      ({ slot := Event.slotAfter ((x.serve budget decoder).events w s), sequence := count } :
        Consumers.System ι Float) := by
  have unfinished : ∀ e ∈ (x.run budget decoder).run.events w s, e.request ≠ .finish :=
    x.asks_run budget decoder _ _ (Program.trace_run w _ s)
  obtain ⟨count, numbered⟩ := x.exists_published_numbered budget decoder w s
  obtain ⟨notice, events⟩ := x.events_serve budget decoder w s
  have length := congrArg List.length numbered
  rw [List.length_map, List.length_range'] at length
  subst length
  have ended : Event.slotAfter ((x.serve budget decoder).events w s) =
      (Event.slotAfter ((x.run budget decoder).run.events w s)).finish := by
    rw [events, Event.slotAfter, List.foldl_append]
    rfl
  have run : Consumers.Run _ (_ : Consumers.System ι Float) := Consumers.run_publishes _ numbered
  rw [← Event.slotAfter_eq unfinished, ← Event.filterMap_ofEvent? unfinished] at run
  rw [ended, events, List.filterMap_append]
  exact ⟨_, run.step (.finish (Event.finished_foldl_updateSlot unfinished {}))⟩

end Acquisition
end Thermopile
