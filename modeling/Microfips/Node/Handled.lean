import Microfips.Data.Trace
import Microfips.Node.Accounts

/-!
# The frames of a run

The calls of the frame loop in a run, with the state that each of them starts from, and the rules
by which an invariant of the accounts is kept by them and by the whole run.  What is asked of a run
is asked of these calls: a condition on a received frame and on the state before it is handled.
The calls and the passes of the timer branch, in their order, are the timeline of a run; an
invariant that speaks of the past of a session is carried along it.
-/

namespace Microfips
namespace Node
namespace Steady

open Noise Wire Trace

variable {H M : Type} (C : Config H M) {types : UInt8 → Prop}

def handledFrames : List Bytes → Steady H M → List (Bytes × Steady H M)
  | [], _ => []
  | frame :: frames, s => (frame, s) ::
      match (handleFrame C frame).run s with
      | .ok _ t => handledFrames frames t
      | .error _ _ => []

def handledBuffer (s : Steady H M) : List (Bytes × Steady H M) :=
  handledFrames C (splitFrames C.build C.rawFraming s.rbuf s.rbuf.length s.rpos).1 s

def handledChunk (chunk : Bytes) (s : Steady H M) : List (Bytes × Steady H M) :=
  if recvBufSize < chunk.length then
    []
  else if C.rawFraming then
    handledBuffer C { s with rbuf := chunk, rpos := 0 }
  else if maxFrameSize < s.rbuf.length + chunk.length then
    []
  else
    handledBuffer C { s with rbuf := s.rbuf ++ chunk }

def handledBy (input : Input) (s : Steady H M) : List (Bytes × Steady H M) :=
  match input, (checkLink C).run s with
  | .recv chunk, .ok _ t => handledChunk C chunk t
  | _, _ => []

def handled : List Input → Steady H M → List (Bytes × Steady H M)
  | [], _ => []
  | input :: inputs, s => handledBy C input s ++
      match (iteration C input).run s with
      | .ok _ t => handled inputs t
      | .error _ _ => []

/-- A point of a run, with the state before it: a frame is handled or the timer branch is served. -/
inductive Moment (H M : Type) where
  | frame (frame : Bytes) (s : Steady H M)
  | timer (s : Steady H M)

namespace Moment

def state : Moment H M → Steady H M
  | frame _ s => s
  | timer s => s

def ofCall (x : Bytes × Steady H M) : Moment H M :=
  frame x.1 x.2

def FrameHas (P : Bytes → Steady H M → Prop) : Moment H M → Prop
  | frame f s => P f s
  | timer _ => True

end Moment

def passed (input : Input) (s : Steady H M) : List (Moment H M) :=
  match input with
  | .timer => [.timer s]
  | _ => (handledBy C input s).map .ofCall

def timeline : List Input → Steady H M → List (Moment H M)
  | [], _ => []
  | input :: inputs, s => passed C input s ++
      match (iteration C input).run s with
      | .ok _ t => timeline inputs t
      | .error _ _ => []

/-- A pass of the timer branch up to its heartbeat: the tick that the handler asked for, and the
time that the pass goes by. -/
def beforeHeartbeat : Action H M (Option ℕ × ℕ) := do
  checkLink C
  let s ← get
  let t ← now C
  timerCutover C t
  rekeyIfTriggered C t
  resendOrAbandon C t
  sweep t
  return (C.handler.pollAt s.handler, t)

theorem iteration_timer_eq :
    iteration C .timer = (do
      let r ← beforeHeartbeat C
      heartbeatOrLeave C r.2
      reportsIfDue C r.2
      tickIfDue C r.1 r.2) := by
  simp [iteration, beforeHeartbeat, onTimer]

abbrev KeepsAccounts (J : Accounts M → Prop) {α : Type} (m : Action H M α) : Prop :=
  EStateM.Keeps (fun s t => J s.accounts → J t.accounts) m

theorem KeepsAccounts.bind {J : Accounts M → Prop} {α β : Type} {m : Action H M α}
    {f : α → Action H M β} (hm : KeepsAccounts J m) (hf : ∀ a, KeepsAccounts J (f a)) :
    KeepsAccounts J (m >>= f) :=
  EStateM.Keeps.bind (fun h => h) (fun h h' hs => h' (h hs)) hm hf

/-- What holds of the accounts and the past of a session is carried over a frame with `Q`, and
bookings keep it. -/
structure Carried (types : UInt8 → Prop) (Q : List (Moment H M) → Moment H M → Prop)
    (J : List (Moment H M) → Accounts M → Prop) : Prop where
  ordinary : Ordinary C types
  booking : ∀ past a b, J past a → Booking C types a b → J past b
  frame : ∀ past frame s, Q past (.frame frame s) → J past s.accounts →
    J (.frame frame s :: past) ((handleFrame C frame).run s).state.accounts

namespace Carried

variable {C} {Q : List (Moment H M) → Moment H M → Prop} {J : List (Moment H M) → Accounts M → Prop}
  {past : List (Moment H M)}

theorem bookings (h : Carried C types Q J) {a b : Accounts M} (ha : J past a)
    (hab : Relation.ReflTransGen (Booking C types) a b) : J past b := by
  induction hab with
  | refl => exact ha
  | tail _ hstep ih => exact h.booking _ _ _ ih hstep

variable {s : Steady H M}

theorem handleFrames (h : Carried C types Q J) (frames : List Bytes)
    (hQ : Along Q past ((handledFrames C frames s).map .ofCall)) (hs : J past s.accounts) :
    Along (fun past m => J past m.state.accounts) past ((handledFrames C frames s).map .ofCall) ∧
      J (((handledFrames C frames s).map .ofCall).reverse ++ past)
        ((handleFrames C frames).run s).state.accounts := by
  induction frames generalizing s past with
  | nil => exact ⟨trivial, hs⟩
  | cons frame frames ih =>
      rw [handledFrames, List.map_cons, Along] at hQ
      have hframe := h.frame past frame s hQ.1 hs
      rw [Steady.handleFrames, handledFrames, List.map_cons, Along, List.reverse_cons,
        List.append_assoc, List.singleton_append]
      cases hrun : (handleFrame C frame).run s with
      | error e t =>
          rw [hrun] at hframe
          rw [EStateM.run_bind_error hrun]
          exact ⟨⟨hs, trivial⟩, hframe⟩
      | ok _ t =>
          rw [hrun] at hframe hQ
          rw [EStateM.run_bind_ok hrun]
          obtain ⟨hall, hlast⟩ := ih hQ.2 hframe
          exact ⟨⟨hs, hall⟩, hlast⟩

theorem onBuffer (h : Carried C types Q J) (tick : Option ℕ)
    (hQ : Along Q past ((handledBuffer C s).map .ofCall)) (hs : J past s.accounts) :
    Along (fun past m => J past m.state.accounts) past ((handledBuffer C s).map .ofCall) ∧
      J (((handledBuffer C s).map .ofCall).reverse ++ past)
        ((onBuffer C tick).run s).state.accounts := by
  obtain ⟨hall, hlast⟩ := h.handleFrames _ hQ hs
  refine ⟨hall, ?_⟩
  rw [Steady.onBuffer, EStateM.run_get_bind, handledBuffer]
  cases hrun : (Steady.handleFrames C
      (splitFrames C.build C.rawFraming s.rbuf s.rbuf.length s.rpos).1).run s with
  | error e t =>
      rw [hrun] at hlast
      rw [EStateM.run_bind_error hrun]
      exact hlast
  | ok _ t =>
      rw [hrun] at hlast
      rw [EStateM.run_bind_ok hrun,
        EStateM.run_modify_bind]
      refine h.bookings ?_ (booked_afterFrames h.ordinary tick _)
      split
      · exact hlast
      · exact hlast

theorem onRecv (h : Carried C types Q J) (tick : Option ℕ) {chunk : Bytes}
    (hQ : Along Q past ((handledChunk C chunk s).map .ofCall)) (hs : J past s.accounts) :
    Along (fun past m => J past m.state.accounts) past ((handledChunk C chunk s).map .ofCall) ∧
      J (((handledChunk C chunk s).map .ofCall).reverse ++ past)
        ((onRecv C tick chunk).run s).state.accounts := by
  rw [handledChunk] at hQ ⊢
  rw [Steady.onRecv, EStateM.run_get_bind]
  split
  · exact ⟨trivial, hs⟩
  · rename_i hlen
    rw [if_neg hlen] at hQ
    split
    · rename_i hraw
      rw [if_pos hraw] at hQ
      exact h.onBuffer tick hQ hs
    · rename_i hraw
      rw [if_neg hraw] at hQ
      split
      · exact ⟨trivial, hs⟩
      · rename_i hfits
        rw [if_neg hfits] at hQ
        exact h.onBuffer tick hQ hs

theorem iteration (h : Carried C types Q J) {input : Input} (hinput : input ≠ .timer)
    (hQ : Along Q past (passed C input s)) (hs : J past s.accounts) :
    Along (fun past m => J past m.state.accounts) past (passed C input s) ∧
      J ((passed C input s).reverse ++ past) ((iteration C input).run s).state.accounts := by
  have hlink := h.bookings hs (booked_checkLink h.ordinary s)
  have hpassed : passed C input s = (handledBy C input s).map .ofCall := by
    cases input with
    | timer => exact absurd rfl hinput
    | _ => rfl
  rw [hpassed] at hQ ⊢
  rw [Steady.iteration]
  cases hrun : (checkLink C).run s with
  | error e t =>
      rw [hrun] at hlink
      rw [EStateM.run_bind_error hrun]
      simp only [handledBy, hrun]
      exact ⟨trivial, hlink⟩
  | ok _ t =>
      rw [hrun] at hlink
      rw [EStateM.run_bind_ok hrun, EStateM.run_get_bind]
      simp only [handledBy, hrun] at hQ ⊢
      cases input with
      | recv chunk => exact h.onRecv _ hQ hlink
      | recvError =>
          refine ⟨trivial, h.bookings hlink ?_⟩
          exact (booked_sendDisconnect C h.ordinary.disconnect _).bind (fun _ => .throw _) t
      | timer => exact absurd rfl hinput

/-- What a pass of the timer branch that comes to its end carries on, too, holds at every point of a
run. -/
theorem along (h : Carried C types Q J)
    (htimer : ∀ past s u, Q past (.timer s) → J past s.accounts →
      (Steady.iteration C .timer).run s = .ok ⟨⟩ u → J (.timer s :: past) u.accounts)
    (inputs : List Input) (hQ : Along Q past (timeline C inputs s)) (hs : J past s.accounts) :
    Along (fun past m => J past m.state.accounts) past (timeline C inputs s) := by
  induction inputs generalizing s past with
  | nil => trivial
  | cons input inputs ih =>
      rw [timeline, along_append] at hQ ⊢
      by_cases hinput : input = .timer
      · subst hinput
        refine ⟨⟨hs, trivial⟩, ?_⟩
        cases hrun : (Steady.iteration C .timer).run s with
        | error e t => trivial
        | ok _ t =>
            rw [hrun] at hQ
            exact ih hQ.2 (htimer past s t hQ.1.1 hs hrun)
      · obtain ⟨hall, hlast⟩ := h.iteration hinput hQ.1 hs
        refine ⟨hall, ?_⟩
        cases hrun : (Steady.iteration C input).run s with
        | error e t => trivial
        | ok _ t =>
            rw [hrun] at hQ hlast
            exact ih hQ.2 hlast

/-- What every pass of the timer branch carries on, too, holds at the end of a run. -/
theorem run (h : Carried C types Q J)
    (htimer : ∀ past s, Q past (.timer s) → J past s.accounts →
      J (.timer s :: past) ((Steady.iteration C .timer).run s).state.accounts) (inputs : List Input)
    (hQ : Along Q past (timeline C inputs s)) (hs : J past s.accounts) :
    J ((timeline C inputs s).reverse ++ past) (after C s inputs).accounts := by
  induction inputs generalizing s past with
  | nil => exact hs
  | cons input inputs ih =>
      rw [timeline, along_append] at hQ
      have hlast : J ((passed C input s).reverse ++ past)
          ((Steady.iteration C input).run s).state.accounts := by
        by_cases hinput : input = .timer
        · subst hinput
          exact htimer past s hQ.1.1 hs
        · exact (h.iteration hinput hQ.1 hs).2
      rw [timeline, List.reverse_append, List.append_assoc, after, Steady.run]
      cases hrun : (Steady.iteration C input).run s with
      | error e t =>
          rw [hrun] at hlast
          rw [EStateM.run_bind_error hrun]
          exact hlast
      | ok _ t =>
          rw [hrun] at hQ hlast
          rw [EStateM.run_bind_ok hrun]
          exact ih hQ.2 hlast

end Carried

variable {s : Steady H M}

theorem frameHas_passed {P : Bytes → Steady H M → Prop} {input : Input} :
    (∀ m ∈ passed C input s, m.FrameHas P) ↔ ∀ x ∈ handledBy C input s, P x.1 x.2 := by
  cases input with
  | timer => simp [passed, handledBy, Moment.FrameHas]
  | recv chunk => exact List.forall_mem_map
  | recvError => exact List.forall_mem_map

theorem frameHas_timeline {P : Bytes → Steady H M → Prop} (inputs : List Input) :
    (∀ m ∈ timeline C inputs s, m.FrameHas P) ↔ ∀ x ∈ handled C inputs s, P x.1 x.2 := by
  induction inputs generalizing s with
  | nil => simp [timeline, handled]
  | cons input inputs ih =>
      rw [timeline, handled, List.forall_mem_append, List.forall_mem_append, frameHas_passed]
      cases (iteration C input).run s with
      | error e t => simp
      | ok _ t => rw [ih]

theorem mem_timeline (inputs : List Input) {x : Bytes × Steady H M} (hx : x ∈ handled C inputs s) :
    .ofCall x ∈ timeline C inputs s := by
  have hall : ∀ m ∈ timeline C inputs s, m.FrameHas fun f t =>
      .frame f t ∈ timeline C inputs s := by
    intro m hm
    cases m with
    | frame f t => exact hm
    | timer t => trivial
  exact (frameHas_timeline C inputs).mp hall x hx

/-- The bookings keep the invariant `J` of the accounts, and so does a frame with `P` that a slot
opens. -/
structure KeptByFrames (types : UInt8 → Prop) (P : Bytes → Steady H M → Prop)
    (J : Accounts M → Prop) : Prop where
  ordinary : Ordinary C types
  booking : ∀ a b, J a → Booking C types a b → J b
  reply : ∀ frame s opened winner, P frame s → OpensAs C frame s opened winner →
    RepliesAs (C := C) types opened
  takeUp : ∀ frame s opened winner, P frame s → OpensAs C frame s opened winner →
    ∀ a b now, J a → TakenUp C frame opened.counter (C.world.clock (s.calls + 2)) a winner b →
      J (b.counted C opened now)

namespace KeptByFrames

variable {C} {P : Bytes → Steady H M → Prop} {J : Accounts M → Prop}

theorem bookings (h : KeptByFrames C types P J) {a b : Accounts M} (ha : J a)
    (hab : Relation.ReflTransGen (Booking C types) a b) : J b := by
  induction hab with
  | refl => exact ha
  | tail _ hstep ih => exact h.booking _ _ ih hstep

theorem booked (h : KeptByFrames C types P J) {α : Type} {m : Action H M α}
    (hm : Booked C types m) : KeepsAccounts J m :=
  fun s hs => h.bookings hs (hm s)

theorem handleFrame (h : KeptByFrames C types P J) {frame : Bytes} {s : Steady H M}
    (hP : P frame s) (hs : J s.accounts) : J ((handleFrame C frame).run s).state.accounts := by
  obtain hbooked | ⟨opened, winner, t, hopens, hopened, hrun⟩ :=
    handleFrame_split h.ordinary frame s
  · exact h.bookings hs hbooked
  · obtain ⟨a, b, now, ha, htaken, hb⟩ :=
      hopened.accepted h.ordinary (h.reply frame s opened winner hP hopens)
    rw [hrun]
    refine h.bookings ?_ hb
    refine h.takeUp frame s opened winner hP hopens a b now ?_ htaken
    exact h.bookings hs (.head (limited_booking s) ha)

theorem carried (h : KeptByFrames C types P J) :
    Carried C types (fun _ m => m.FrameHas P) fun _ => J where
  ordinary := h.ordinary
  booking _ := h.booking
  frame _ _ _ := h.handleFrame

theorem carried_of_mem (h : KeptByFrames C types P J) {x : Bytes × Steady H M}
    (hJ : J ((Steady.handleFrame C x.1).run x.2).state.accounts) :
    Carried C types (fun _ m => m.FrameHas P) fun past a => .ofCall x ∈ past → J a where
  ordinary := h.ordinary
  booking _ a b ha hstep hmem := h.booking a b (ha hmem) hstep
  frame past frame s hs ha hmem := by
    rcases List.mem_cons.mp hmem with heq | hmem
    · cases heq
      exact hJ
    · exact h.handleFrame hs (ha hmem)

end KeptByFrames

/-- The bookings, frames with `P` and the timer keep the invariant `J` of the accounts. -/
structure Kept (types : UInt8 → Prop) (P : Bytes → Steady H M → Prop) (J : Accounts M → Prop) :
    Prop extends KeptByFrames C types P J where
  cutOver : ∀ a slot n resetAt, a.pend = some slot → J a →
    J (a.cutOver C slot .timer (C.world.clock n) resetAt)
  sweep : ∀ a, J a → J { a with prev := none }

namespace Kept

variable {C} {P : Bytes → Steady H M → Prop} {J : Accounts M → Prop}

theorem timerCutover (h : Kept C types P J) (n : ℕ) :
    KeepsAccounts J (timerCutover C (C.world.clock n)) := by
  intro s hs
  obtain ⟨u, hrun, hu | ⟨slot, resetAt, -, hpend, hu⟩⟩ :=
    timerCutover_accounts (C := C) (C.world.clock n) s
  · rw [hrun, EStateM.Result.state_ok, hu]
    exact hs
  · rw [hrun, EStateM.Result.state_ok, hu]
    exact h.cutOver _ slot n resetAt hpend hs

theorem drain (h : Kept C types P J) (t : ℕ) :
    KeepsAccounts J (Steady.sweep t : Action H M PUnit) := by
  refine EStateM.Keeps.modify fun s hs => ?_
  split
  · exact h.sweep _ hs
  · exact hs

theorem beforeHeartbeat (h : Kept C types P J) : KeepsAccounts J (beforeHeartbeat C) := by
  refine (h.booked (booked_checkLink h.ordinary)).bind fun _ => ?_
  refine EStateM.Keeps.get_bind fun s hs => ?_
  rw [run_now_bind]
  refine KeepsAccounts.bind (h.timerCutover s.calls) (fun _ => ?_) _ hs
  refine (h.booked (booked_rekeyIfTriggered C _)).bind fun _ => ?_
  refine (h.booked (booked_resendOrAbandon C _)).bind fun _ => ?_
  exact (h.drain _).bind fun _ => h.booked (.pure _)

theorem timer (h : Kept C types P J) : KeepsAccounts J (Steady.iteration C .timer) := by
  rw [iteration_timer_eq]
  refine h.beforeHeartbeat.bind fun r => ?_
  refine (h.booked (booked_heartbeatOrLeave h.ordinary r.2)).bind fun _ => ?_
  refine (h.booked (booked_reportsIfDue h.ordinary r.2)).bind fun _ => ?_
  exact h.booked (booked_tickIfDue h.ordinary r.1 r.2)

/-- What holds when the loop is entered holds whenever a frame is handled, and at the end. -/
theorem run (h : Kept C types P J) (inputs : List Input) {s : Steady H M}
    (hP : ∀ x ∈ handled C inputs s, P x.1 x.2) (hs : J s.accounts) :
    J (after C s inputs).accounts := by
  have hQ : Along (fun _ m => m.FrameHas P) [] (timeline C inputs s) :=
    along_of_forall_mem ((frameHas_timeline C inputs).mpr hP)
  exact h.carried.run (fun _ s _ => h.timer s) inputs hQ hs

theorem run_of_mem (h : Kept C types P J) (inputs : List Input) {s : Steady H M}
    {x : Bytes × Steady H M} (hP : ∀ y ∈ handled C inputs s, P y.1 y.2)
    (hx : x ∈ handled C inputs s)
    (hJ : J ((handleFrame C x.1).run x.2).state.accounts) : J (after C s inputs).accounts := by
  have hQ : Along (fun _ m => m.FrameHas P) [] (timeline C inputs s) :=
    along_of_forall_mem ((frameHas_timeline C inputs).mpr hP)
  refine (h.carried_of_mem hJ).run (fun past s _ ha hmem => ?_) inputs hQ (by simp) ?_
  · refine h.timer s (ha ?_)
    simpa [Moment.ofCall] using hmem
  · simpa using mem_timeline C inputs hx

end Kept

end Steady
end Node
end Microfips
