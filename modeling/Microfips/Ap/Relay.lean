import Mathlib.Data.Fin.Tuple.Basic
import Microfips.Data.Runs
import Microfips.EspNow.Hybrid
import Microfips.Node.Slot

/-!
# The relay of the access point

`ap_rx_task`, `up_rx_task` and `slot_for` of `microfips-esp-transport`, file `relay_ap.rs`, with the
datagrams between them and the daemon.  Every client is given one of four uplink sockets; what comes
back on a socket goes to the client that has it at that time.  A socket that was idle for two
minutes is given to the next new client, also where other sockets are free, and what is still on its
way for the client before is then delivered to the new one.
-/

namespace Microfips
namespace Ap

open Node
open EspNow (IpEndpoint)

def relaySlots : ℕ := 4

def slotIdleSecs : ℕ := 120

structure Slot where
  client : Option IpEndpoint
  lastActive : ℕ
  deriving DecidableEq

namespace Slot

def idle (now : ℕ) (x : Slot) : Bool :=
  x.client.isNone || decide (slotIdleSecs ≤ asSecs (now - x.lastActive))

end Slot

abbrev Slots : Type := Fin relaySlots → Slot

namespace Slots

def touchSlot (slots : Slots) (i : Fin relaySlots) (now : ℕ) : Slots :=
  Function.update slots i { slots i with lastActive := now }

def slotFor (slots : Slots) (client : IpEndpoint) (now : ℕ) : Option (Fin relaySlots) × Slots :=
  match Fin.find? fun i => decide ((slots i).client = some client) with
  | some i => (some i, slots.touchSlot i now)
  | none =>
      match Fin.find? fun i => (slots i).idle now with
      | some i => (some i, Function.update slots i ⟨some client, now⟩)
      | none => (none, slots)

/-- The client has no slot, and this one is the first that is free or idle. -/
def Claims (slots : Slots) (client : IpEndpoint) (now : ℕ) (i : Fin relaySlots) : Prop :=
  (∀ j, (slots j).client ≠ some client) ∧ (slots i).idle now = true ∧
    ∀ j < i, (slots j).idle now = false

instance (slots : Slots) (client : IpEndpoint) (now : ℕ) (i : Fin relaySlots) :
    Decidable (slots.Claims client now i) :=
  inferInstanceAs (Decidable (_ ∧ _ ∧ _))

variable {slots slots' : Slots} {client : IpEndpoint} {now : ℕ} {i : Fin relaySlots}

theorem client_touchSlot (slots : Slots) (i j : Fin relaySlots) (now : ℕ) :
    (slots.touchSlot i now j).client = (slots j).client := by
  rw [touchSlot, Function.update_apply]
  split
  · rename_i hj
    rw [hj]
  · rfl

/-- A slot that `slot_for` gives out was the client's own, or it was claimed. -/
theorem slotFor_eq_some (h : slots.slotFor client now = (some i, slots')) :
    ((slots i).client = some client ∧ slots' = slots.touchSlot i now) ∨
      (slots.Claims client now i ∧ slots' = Function.update slots i ⟨some client, now⟩) := by
  rw [slotFor] at h
  split at h
  · rename_i j hj
    obtain ⟨hij, hslots⟩ := Prod.mk.inj h
    obtain rfl := Option.some.inj hij
    exact .inl ⟨of_decide_eq_true (Fin.find?_eq_some_iff.mp hj).1, hslots.symm⟩
  · rename_i hnone
    split at h
    · rename_i j hj
      obtain ⟨hij, hslots⟩ := Prod.mk.inj h
      obtain rfl := Option.some.inj hij
      have hfirst := Fin.find?_eq_some_iff.mp hj
      exact .inr ⟨⟨fun k => of_decide_eq_false (Fin.find?_eq_none_iff.mp hnone k), hfirst⟩,
        hslots.symm⟩
    · cases h

theorem slotFor_eq_none (h : slots.slotFor client now = (none, slots')) : slots' = slots := by
  rw [slotFor] at h
  split at h
  · cases h
  · split at h
    · cases h
    · exact (Prod.mk.inj h).2.symm

end Slots

/-- A datagram on its way from the socket of a slot to the daemon. -/
structure Upward where
  slot : Fin relaySlots
  daemon : IpEndpoint
  /-- The client that sent it. -/
  origin : IpEndpoint
  data : Bytes
  deriving DecidableEq

structure Downward where
  slot : Fin relaySlots
  source : IpEndpoint
  /-- The client whose datagram it answers, if it is an answer. -/
  origin : Option IpEndpoint
  data : Bytes
  deriving DecidableEq

def Upward.answered (u : Upward) (answer : IpEndpoint × Bytes) : Downward where
  slot := u.slot
  source := answer.1
  origin := some u.origin
  data := answer.2

structure Delivery where
  client : IpEndpoint
  origin : Option IpEndpoint
  data : Bytes
  deriving DecidableEq

structure Relay where
  /-- `UPSTREAM`: the endpoint of the daemon, while one is known. -/
  upstream : Option IpEndpoint
  slots : Slots
  up : List Upward
  down : List Downward
  delivered : List Delivery
  deriving DecidableEq

inductive Event where
  /-- `uplink_task` publishes an upstream, or withdraws it. -/
  | publish (upstream : Option IpEndpoint)
  /-- `ap_rx_task` takes a datagram of a client; `sent` is what `send_to` returns. -/
  | fromClient (client : IpEndpoint) (data : Bytes) (now : ℕ) (sent : Bool)
  /-- A datagram comes to the daemon, which sends any number of answers, or it is lost. -/
  | answer (k : ℕ) (answers : List (IpEndpoint × Bytes))
  /-- A datagram that answers none is sent to the socket of a slot. -/
  | unasked (slot : Fin relaySlots) (source : IpEndpoint) (data : Bytes)
  /-- `up_rx_task` takes a datagram that has come to its socket. -/
  | fromDaemon (k : ℕ) (now : ℕ) (sent : Bool)
  /-- A datagram to a socket is lost. -/
  | lose (k : ℕ)
  deriving DecidableEq

namespace Relay

def new : Relay where
  upstream := none
  slots := fun _ => ⟨none, 0⟩
  up := []
  down := []
  delivered := []

/-- `ap_rx_task`, once around its loop.  A datagram that is too long for the buffer is an error of
`recv_from`. -/
def apRx (self : Relay) (client : IpEndpoint) (data : Bytes) (now : ℕ) (sent : Bool) : Relay :=
  if maxFrameSize < data.length then
    self
  else
    match self.upstream with
    | none => self
    | some daemon =>
        match self.slots.slotFor client now with
        | (none, slots) => { self with slots }
        | (some i, slots) =>
            { self with
              slots
              up := if sent then ⟨i, daemon, client, data⟩ :: self.up else self.up }

def upRx (self : Relay) (r : Downward) (now : ℕ) (sent : Bool) : Relay :=
  if maxFrameSize < r.data.length then
    self
  else if self.upstream = some r.source then
    match (self.slots r.slot).client with
    | none => self
    | some client =>
        { self with
          slots := self.slots.touchSlot r.slot now
          delivered :=
            if sent then ⟨client, r.origin, r.data⟩ :: self.delivered else self.delivered }
  else
    self

def step (self : Relay) : Event → Option Relay
  | .publish upstream => some { self with upstream }
  | .fromClient client data now sent => some (self.apRx client data now sent)
  | .answer k answers =>
      self.up[k]?.map fun u =>
        { self with
          up := self.up.eraseIdx k
          down := answers.map u.answered ++ self.down }
  | .unasked slot source data =>
      some { self with down := ⟨slot, source, none, data⟩ :: self.down }
  | .fromDaemon k now sent =>
      self.down[k]?.map fun r => { self with down := self.down.eraseIdx k }.upRx r now sent
  | .lose k => self.down[k]?.map fun _ => { self with down := self.down.eraseIdx k }

/-- A new client is given a slot only while nothing of the client before, and no answer to it, is
on its way. -/
def Settled (self : Relay) : Event → Prop
  | .fromClient client _ now _ =>
      ∀ i, self.slots.Claims client now i →
        (∀ u ∈ self.up, u.slot ≠ i) ∧ ∀ r ∈ self.down, r.slot = i → r.origin = none
  | _ => True

instance (self : Relay) (e : Event) : Decidable (self.Settled e) :=
  match e with
  | .fromClient _ _ _ _ => inferInstanceAs (Decidable (∀ _, _))
  | .publish _ | .answer _ _ | .unasked _ _ _ | .fromDaemon _ _ _ | .lose _ =>
      inferInstanceAs (Decidable True)

/-- What is on its way belongs to the client that has the slot, and what was delivered went to the
client whose datagram it answers. -/
structure Isolated (r : Relay) : Prop where
  up : ∀ u ∈ r.up, (r.slots u.slot).client = some u.origin
  down : ∀ d ∈ r.down, ∀ x ∈ d.origin, (r.slots d.slot).client = some x
  delivered : ∀ d ∈ r.delivered, ∀ x ∈ d.origin, d.client = x

variable {s t : Relay}

theorem Isolated.of_client_eq {slots : Slots} (h : s.Isolated)
    (hslots : ∀ i, (slots i).client = (s.slots i).client) : { s with slots }.Isolated where
  up u hu := (hslots u.slot).trans (h.up u hu)
  down d hd x hx := (hslots d.slot).trans (h.down d hd x hx)
  delivered := h.delivered

/-- A claimed slot has nothing on its way, so that its new client finds nothing of another's. -/
theorem Isolated.claim {client : IpEndpoint} {now : ℕ} {i : Fin relaySlots} (h : s.Isolated)
    (hup : ∀ u ∈ s.up, u.slot ≠ i) (hdown : ∀ r ∈ s.down, r.slot = i → r.origin = none) :
    { s with slots := Function.update s.slots i ⟨some client, now⟩ }.Isolated where
  up u hu := by
    dsimp only
    rw [Function.update_of_ne (hup u hu)]
    exact h.up u hu
  down d hd x hx := by
    dsimp only
    rw [Function.update_of_ne fun hi => by rw [hdown d hd hi] at hx; cases hx]
    exact h.down d hd x hx
  delivered := h.delivered

theorem Isolated.send {u : Upward} (h : s.Isolated)
    (hu : (s.slots u.slot).client = some u.origin) : { s with up := u :: s.up }.Isolated where
  up u' hu' := by
    cases hu' with
    | head => exact hu
    | tail _ hu' => exact h.up u' hu'
  down := h.down
  delivered := h.delivered

theorem Isolated.apRx {client : IpEndpoint} {data : Bytes} {now : ℕ} {sent : Bool}
    (h : s.Isolated) (hsettled : s.Settled (.fromClient client data now sent)) :
    (s.apRx client data now sent).Isolated := by
  rw [Relay.apRx]
  split
  · exact h
  · split
    · exact h
    · rename_i daemon _
      split
      · rename_i slots hslot
        rw [Slots.slotFor_eq_none hslot]
        exact h
      · rename_i i slots hslot
        have hnext : { s with slots }.Isolated ∧ (slots i).client = some client := by
          obtain ⟨hown, rfl⟩ | ⟨hclaims, rfl⟩ := Slots.slotFor_eq_some hslot
          · exact ⟨h.of_client_eq fun j => Slots.client_touchSlot s.slots i j now,
              (Slots.client_touchSlot s.slots i i now).trans hown⟩
          · obtain ⟨hup, hdown⟩ := hsettled i hclaims
            exact ⟨h.claim hup hdown, by rw [Function.update_self]⟩
        split
        · exact hnext.1.send (u := ⟨i, daemon, client, data⟩) hnext.2
        · exact hnext.1

theorem Isolated.upRx {r : Downward} {now : ℕ} {sent : Bool} (h : s.Isolated)
    (hr : ∀ x ∈ r.origin, (s.slots r.slot).client = some x) : (s.upRx r now sent).Isolated := by
  rw [Relay.upRx]
  split
  · exact h
  · split
    · split
      · exact h
      · rename_i client hclient
        have htouched := h.of_client_eq fun j => Slots.client_touchSlot s.slots r.slot j now
        split
        · refine ⟨htouched.up, htouched.down, fun d hd x hx => ?_⟩
          cases hd with
          | head => exact Option.some.inj (hclient.symm.trans (hr x hx))
          | tail _ hd => exact h.delivered d hd x hx
        · exact htouched
    · exact h

theorem Isolated.erase (h : s.Isolated) (k : ℕ) :
    { s with down := s.down.eraseIdx k }.Isolated where
  up := h.up
  down d hd := h.down d (List.mem_of_mem_eraseIdx hd)
  delivered := h.delivered

theorem Isolated.answer {u : Upward} (h : s.Isolated) (hu : u ∈ s.up) (k : ℕ)
    (answers : List (IpEndpoint × Bytes)) :
    { s with
      up := s.up.eraseIdx k
      down := answers.map u.answered ++ s.down }.Isolated where
  up u' hu' := h.up u' (List.mem_of_mem_eraseIdx hu')
  down d hd x hx := by
    obtain hd | hd := List.mem_append.mp hd
    · obtain ⟨a, -, rfl⟩ := List.mem_map.mp hd
      exact (h.up u hu).trans hx
    · exact h.down d hd x hx
  delivered := h.delivered

theorem Isolated.step {e : Event} (h : s.Isolated) (hsettled : s.Settled e)
    (hstep : s.step e = some t) : t.Isolated := by
  cases e with
  | publish upstream =>
      obtain rfl := Option.some.inj hstep
      exact ⟨h.up, h.down, h.delivered⟩
  | fromClient client data now sent =>
      obtain rfl := Option.some.inj hstep
      exact h.apRx hsettled
  | answer k answers =>
      obtain ⟨u, hu, rfl⟩ := Option.map_eq_some_iff.mp hstep
      exact h.answer (List.mem_of_getElem? hu) k answers
  | unasked slot source data =>
      obtain rfl := Option.some.inj hstep
      refine ⟨h.up, fun d hd x hx => ?_, h.delivered⟩
      cases hd with
      | head => cases hx
      | tail _ hd => exact h.down d hd x hx
  | fromDaemon k now sent =>
      obtain ⟨r, hr, rfl⟩ := Option.map_eq_some_iff.mp hstep
      exact (h.erase k).upRx (h.down r (List.mem_of_getElem? hr))
  | lose k =>
      obtain ⟨r, hr, rfl⟩ := Option.map_eq_some_iff.mp hstep
      exact h.erase k

theorem isolated_new : new.Isolated where
  up := List.forall_mem_nil _
  down := List.forall_mem_nil _
  delivered := List.forall_mem_nil _

/-- In every run from boot in which a slot goes to a new client only while nothing of the client
before is on its way, a datagram that answers a client's is delivered to that client alone. -/
theorem answers_reach_their_client {events : List Event}
    (hsettled : Runs.Guarded step Settled new events) (hrun : Runs.run step new events = some t) :
    ∀ d ∈ t.delivered, ∀ x, d.origin = some x → d.client = x :=
  (hsettled.invariant (I := Isolated) (fun _ _ _ h hs hstep => h.step hs hstep) isolated_new
    hrun).delivered

def daemon : IpEndpoint := ⟨Block.replicate 4 10, 2121⟩

def clientX : IpEndpoint := ⟨Block.ofBytes 4 [192, 168, 4, 10], 5000⟩

def clientY : IpEndpoint := ⟨Block.ofBytes 4 [192, 168, 4, 11], 5000⟩

def evictedInTime : List Event :=
  [.publish (some daemon), .fromClient clientX [1] 0 true, .answer 0 [(daemon, [2])],
    .fromDaemon 0 (fromSecs 1) true, .fromClient clientY [3] (fromSecs 121) true,
    .answer 0 [(daemon, [4])], .fromDaemon 0 (fromSecs 122) true]

def evictedEarly : List Event :=
  [.publish (some daemon), .fromClient clientX [1] 0 true, .answer 0 [(daemon, [2])],
    .fromClient clientY [3] (fromSecs 120) true, .fromDaemon 0 (fromSecs 121) true]

theorem answers_reach_their_client_evictedInTime :
    ∃ t, Runs.run step new evictedInTime = some t ∧ t.delivered.length = 2 ∧
      ∀ d ∈ t.delivered, ∀ x, d.origin = some x → d.client = x := by
  have hlength : (Runs.run step new evictedInTime).map (fun t => t.delivered.length) = some 2 := by
    decide +kernel
  obtain ⟨t, hrun, ht⟩ := Option.map_eq_some_iff.mp hlength
  exact ⟨t, hrun, ht, answers_reach_their_client (by decide +kernel) hrun⟩

/-- The second client takes the slot of the first, three others being free, and is sent the answer
to the first. -/
theorem answer_reaches_other_client :
    (Runs.run step new evictedEarly).map delivered = some [⟨clientY, some clientX, [2]⟩] ∧
      clientX ≠ clientY := by
  decide +kernel

end Relay

end Ap
end Microfips
