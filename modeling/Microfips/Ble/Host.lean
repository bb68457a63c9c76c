import Microfips.Ble.Transport
import Microfips.Data.Runs

/-!
# The BLE host and the node

The loop of `ble_host_task`, file `ble_host.rs`, while a central is connected, next to a node that
sends and receives over the two channels of four frames.  Both are tasks of one executor: a task
runs until it has to wait, so a send on a channel with room is done at once, and one on a full
channel waits until somebody takes a frame.

The host takes from `BLE_TX_CH` what the node puts there, and puts a frame back when it could not be
notified.  On a full channel it then waits for itself.  It also waits where `BLE_RX_CH` is full, and
takes nothing from `BLE_TX_CH` meanwhile; a node that waits for room there takes nothing from
`BLE_RX_CH`, so the two wait for each other.
-/

namespace Microfips
namespace Ble

structure Channel (cap : ℕ) where
  items : List Bytes
  length_le : items.length ≤ cap
  deriving DecidableEq

namespace Channel

variable {cap : ℕ}

def empty : Channel cap where
  items := []
  length_le := Nat.zero_le _

def Full (c : Channel cap) : Prop :=
  c.items.length = cap

instance (c : Channel cap) : Decidable c.Full :=
  inferInstanceAs (Decidable (_ = _))

def trySend (c : Channel cap) (frame : Bytes) : Option (Channel cap) :=
  if h : c.Full then
    none
  else
    some {
      items := c.items ++ [frame]
      length_le := by
        have hle := c.length_le
        rw [List.length_append, List.length_singleton]
        exact Nat.lt_of_le_of_ne hle h }

def tryReceive (c : Channel cap) : Option (Bytes × Channel cap) :=
  match h : c.items with
  | [] => none
  | frame :: items => some (frame, {
      items
      length_le := by
        have hle := c.length_le
        rw [h, List.length_cons] at hle
        omega })

variable {c : Channel cap}

theorem trySend_of_full (h : c.Full) (frame : Bytes) : c.trySend frame = none :=
  dif_pos h

theorem exists_trySend (h : ¬ c.Full) (frame : Bytes) : ∃ c', c.trySend frame = some c' :=
  ⟨_, dif_neg h⟩

theorem items_of_trySend {c' : Channel cap} {frame : Bytes} (h : c.trySend frame = some c') :
    c'.items = c.items ++ [frame] := by
  rw [trySend] at h
  split at h
  · cases h
  · exact Option.some.inj h ▸ rfl

theorem items_of_tryReceive {c' : Channel cap} {frame : Bytes}
    (h : c.tryReceive = some (frame, c')) : c.items = frame :: c'.items := by
  rw [tryReceive] at h
  split at h
  · cases h
  · next items =>
      cases h
      exact items

end Channel

inductive HostPhase where
  /-- `select(conn.next(), BLE_TX_CH.receive())`. -/
  | select
  /-- `BLE_RX_CH.send(frame)`. -/
  | sendRx (frame : Bytes)
  /-- `reply.send()`. -/
  | replying
  /-- `notify(&conn, &frame, false)`. -/
  | notifying (frame : Bytes)
  /-- `BLE_TX_CH.send(frame)` behind a notification that failed. -/
  | requeue (frame : Bytes)
  /-- The delay behind it. -/
  | delaying
  /-- The loop was left. -/
  | stopped
  deriving DecidableEq

/-- Where the node is: it runs, or receives with a timeout, or waits in `BLE_TX_CH.send(frame)`. -/
inductive NodePhase where
  | running
  | sendTx (frame : Bytes)
  deriving DecidableEq

/-- The host, the node with its transport, and what is between them. -/
structure System where
  rxCh : Channel 4
  txCh : Channel 4
  notificationsEnabled : Bool
  host : HostPhase
  node : NodePhase
  transport : SharedBleTransport
  deriving DecidableEq

inductive Event where
  /-- The central writes `data`, to the RX characteristic or to another attribute. -/
  | write (toRx : Bool) (data : Bytes)
  /-- Another GATT event, such as a subscription to notifications. -/
  | other
  /-- An event of the connection that is not a GATT event. -/
  | ignored
  /-- `BLE_TX_CH.receive()` returns. -/
  | takeTx
  /-- The pending `BLE_RX_CH.send` of the host returns. -/
  | sentRx
  | replied
  /-- `notify` returns, with success or not. -/
  | notified (ok : Bool)
  /-- The pending `BLE_TX_CH.send` of the host returns. -/
  | requeued
  | delayed
  /-- The node calls `send` of its transport. -/
  | nodeSend (data : Bytes)
  /-- The pending `BLE_TX_CH.send` of the node returns. -/
  | nodeSent
  /-- `BLE_RX_CH.receive()` of the node returns. -/
  | nodeReceive
  deriving DecidableEq

namespace System

def hostSendRx (s : System) (frame : Bytes) : System :=
  match s.rxCh.trySend frame with
  | some rxCh => { s with rxCh, host := .replying }
  | none => { s with host := .sendRx frame }

def hostRequeue (s : System) (frame : Bytes) : System :=
  match s.txCh.trySend frame with
  | some txCh => { s with txCh, host := .delaying }
  | none => { s with host := .requeue frame }

def nodeHand (s : System) (frame : Bytes) : System :=
  match s.txCh.trySend frame with
  | some txCh => { s with txCh, node := .running }
  | none => { s with node := .sendTx frame }

def step (s : System) : Event → Option System
  | .write toRx data =>
      match s.host with
      | .select =>
          if toRx = true ∧ data.length ≤ bleMaxFrame then some (s.hostSendRx data)
          else some { s with host := .replying }
      | _ => none
  | .other =>
      match s.host with
      | .select => some { s with host := .replying }
      | _ => none
  | .ignored =>
      match s.host with
      | .select => some s
      | _ => none
  | .takeTx =>
      match s.host, s.txCh.tryReceive with
      | .select, some (frame, txCh) => some { s with txCh, host := .notifying frame }
      | _, _ => none
  | .sentRx =>
      match s.host with
      | .sendRx frame => (s.rxCh.trySend frame).map fun rxCh => { s with rxCh, host := .replying }
      | _ => none
  | .replied =>
      match s.host with
      | .replying => some { s with host := .select }
      | _ => none
  | .notified ok =>
      match s.host with
      | .notifying frame =>
          if ok then
            some { s with host := .select }
          else if s.notificationsEnabled = false then
            some (s.hostRequeue frame)
          else
            some { s with
              rxCh := .empty
              txCh := .empty
              notificationsEnabled := false
              host := .stopped }
      | _ => none
  | .requeued =>
      match s.host with
      | .requeue frame => (s.txCh.trySend frame).map fun txCh => { s with txCh, host := .delaying }
      | _ => none
  | .delayed =>
      match s.host with
      | .delaying => some { s with host := .select }
      | _ => none
  | .nodeSend data =>
      match s.node with
      | .running =>
          match (SharedBleTransport.send (decide (s.host ≠ .stopped)) data).run s.transport with
          | .ok (some frame) transport => some ({ s with transport }.nodeHand frame)
          | .ok none transport => some { s with transport }
          | .error _ transport => some { s with transport }
      | _ => none
  | .nodeSent =>
      match s.node with
      | .sendTx frame => (s.txCh.trySend frame).map fun txCh => { s with txCh, node := .running }
      | _ => none
  | .nodeReceive =>
      match s.node, s.rxCh.tryReceive with
      | .running, some (_, rxCh) => some { s with rxCh }
      | _, _ => none

/-- A central was just accepted; the channels and the node are as they are. -/
structure Connected (s : System) : Prop where
  host : s.host = .select
  notificationsEnabled : s.notificationsEnabled = false

/-- The host waits for room in the channel that it alone takes from. -/
def HostWaitsForItself (s : System) : Prop :=
  ∃ frame, s.host = .requeue frame ∧ s.txCh.Full

/-- The host waits for the node to take a frame, and the node for the host. -/
def WaitForEachOther (s : System) : Prop :=
  (∃ frame, s.host = .sendRx frame) ∧ s.rxCh.Full ∧ (∃ frame, s.node = .sendTx frame) ∧ s.txCh.Full

structure Free (s : System) : Prop where
  sendRx : ∀ frame, s.host ≠ .sendRx frame
  requeue : ∀ frame, s.host ≠ .requeue frame

/-- A written frame comes while there is room for it, and a notification that is not followed by a
disconnect fails while there is room to put its frame back. -/
def Spares (s : System) : Event → Prop
  | .write true data => data.length ≤ bleMaxFrame → ¬ s.rxCh.Full
  | .notified false => s.notificationsEnabled = false → ¬ s.txCh.Full
  | _ => True

instance (s : System) (e : Event) : Decidable (s.Spares e) := by
  unfold Spares
  split <;> infer_instance

variable {s t : System}

theorem Free.of_host_eq (hs : s.Free) (h : t.host = s.host) : t.Free :=
  ⟨h ▸ hs.sendRx, h ▸ hs.requeue⟩

theorem free_of_host {phase : HostPhase} (h : s.host = phase) (hrx : ∀ frame, phase ≠ .sendRx frame)
    (htx : ∀ frame, phase ≠ .requeue frame) : s.Free :=
  ⟨h ▸ hrx, h ▸ htx⟩

theorem free_hostSendRx {frame : Bytes} (h : ¬ s.rxCh.Full) : (s.hostSendRx frame).Free := by
  obtain ⟨rxCh, hsend⟩ := Channel.exists_trySend h frame
  rw [hostSendRx, hsend]
  exact free_of_host rfl nofun nofun

theorem free_hostRequeue {frame : Bytes} (h : ¬ s.txCh.Full) : (s.hostRequeue frame).Free := by
  obtain ⟨txCh, hsend⟩ := Channel.exists_trySend h frame
  rw [hostRequeue, hsend]
  exact free_of_host rfl nofun nofun

theorem nodeHand_host (s : System) (frame : Bytes) : (s.nodeHand frame).host = s.host := by
  rw [nodeHand]
  split
  · rfl
  · rfl

theorem Free.step {e : Event} (hs : s.Free) (hspares : s.Spares e) (h : s.step e = some t) :
    t.Free := by
  cases e with
  | write toRx data =>
      rw [System.step] at h
      split at h
      · split at h
        · rename_i hwrite
          obtain rfl := Option.some.inj h
          obtain ⟨rfl, hlen⟩ := hwrite
          exact free_hostSendRx (hspares hlen)
        · obtain rfl := Option.some.inj h
          exact free_of_host rfl nofun nofun
      · cases h
  | other | takeTx | replied | delayed =>
      rw [System.step] at h
      split at h
      · obtain rfl := Option.some.inj h
        exact free_of_host rfl nofun nofun
      · cases h
  | ignored =>
      rw [System.step] at h
      split at h
      · obtain rfl := Option.some.inj h
        exact hs
      · cases h
  | sentRx =>
      rw [System.step] at h
      split at h
      · rename_i frame hhost
        exact absurd hhost (hs.sendRx frame)
      · cases h
  | notified ok =>
      rw [System.step] at h
      split at h
      · split at h
        · obtain rfl := Option.some.inj h
          exact free_of_host rfl nofun nofun
        · rename_i hok
          obtain rfl : ok = false := Bool.eq_false_of_not_eq_true hok
          split at h
          · rename_i henabled
            obtain rfl := Option.some.inj h
            exact free_hostRequeue (hspares henabled)
          · obtain rfl := Option.some.inj h
            exact free_of_host rfl nofun nofun
      · cases h
  | requeued =>
      rw [System.step] at h
      split at h
      · rename_i frame hhost
        exact absurd hhost (hs.requeue frame)
      · cases h
  | nodeSend data =>
      rw [System.step] at h
      split at h
      · split at h
        · obtain rfl := Option.some.inj h
          exact hs.of_host_eq (nodeHand_host _ _)
        · obtain rfl := Option.some.inj h
          exact hs.of_host_eq rfl
        · obtain rfl := Option.some.inj h
          exact hs.of_host_eq rfl
      · cases h
  | nodeSent =>
      rw [System.step] at h
      split at h
      · obtain ⟨txCh, -, rfl⟩ := Option.map_eq_some_iff.mp h
        exact hs.of_host_eq rfl
      · cases h
  | nodeReceive =>
      rw [System.step] at h
      split at h
      · obtain rfl := Option.some.inj h
        exact hs.of_host_eq rfl
      · cases h

theorem HostWaitsForItself.step {e : Event} (hs : s.HostWaitsForItself) (h : s.step e = some t) :
    t.HostWaitsForItself := by
  obtain ⟨frame, hhost, hfull⟩ := hs
  cases e with
  | nodeSend data =>
      rw [System.step] at h
      split at h
      · split at h
        · obtain rfl := Option.some.inj h
          exact ⟨frame, by rw [nodeHand, Channel.trySend_of_full hfull]; exact ⟨hhost, hfull⟩⟩
        · obtain rfl := Option.some.inj h
          exact ⟨frame, hhost, hfull⟩
        · obtain rfl := Option.some.inj h
          exact ⟨frame, hhost, hfull⟩
      · cases h
  | nodeReceive =>
      rw [System.step] at h
      split at h
      · obtain rfl := Option.some.inj h
        exact ⟨frame, hhost, hfull⟩
      · cases h
  | nodeSent =>
      rw [System.step] at h
      split at h
      · rw [Channel.trySend_of_full hfull] at h
        cases h
      · cases h
  | requeued =>
      rw [System.step, hhost] at h
      dsimp only at h
      rw [Channel.trySend_of_full hfull] at h
      cases h
  | write | other | ignored | takeTx | sentRx | replied | notified | delayed =>
      rw [System.step, hhost] at h
      cases h

theorem WaitForEachOther.step_eq_none (hs : s.WaitForEachOther) (e : Event) : s.step e = none := by
  obtain ⟨⟨frame, hhost⟩, hrx, ⟨frame', hnode⟩, htx⟩ := hs
  cases e with
  | sentRx =>
      rw [step, hhost]
      dsimp only
      rw [Channel.trySend_of_full hrx]
      rfl
  | nodeSent =>
      rw [step, hnode]
      dsimp only
      rw [Channel.trySend_of_full htx]
      rfl
  | nodeSend | nodeReceive => rw [step, hnode]
  | write | other | ignored | takeTx | replied | notified | requeued | delayed =>
      rw [step, hhost]

/-- While the central stays connected, a run in which frames are written only while there is room in
`BLE_RX_CH`, and notifications fail only while there is room in `BLE_TX_CH`, leads to no state in
which the host waits for itself, or host and node for each other. -/
theorem not_deadlocked {events : List Event} {s t : System} (hs : s.Connected)
    (hspares : Runs.Guarded step Spares s events) (h : Runs.run step s events = some t) :
    ¬ t.HostWaitsForItself ∧ ¬ t.WaitForEachOther := by
  have hfree : t.Free :=
    hspares.invariant (fun _ _ _ hs hspares h => hs.step hspares h)
      (free_of_host hs.host nofun nofun) h
  constructor
  · rintro ⟨frame, hhost, -⟩
    exact hfree.requeue frame hhost
  · rintro ⟨⟨frame, hhost⟩, -⟩
    exact hfree.sendRx frame hhost

def start : System where
  rxCh := .empty
  txCh := .empty
  notificationsEnabled := false
  host := .select
  node := .running
  transport := .new

def sendSample : List Event := [.nodeSend [1, 0], .nodeSend [7]]

def requeueOnce : List Event :=
  sendSample ++ sendSample ++ [.takeTx, .notified false, .delayed, .write true [5], .nodeReceive,
    .replied, .takeTx, .notified true]

theorem not_deadlocked_requeueOnce :
    ∃ t, Runs.run step start requeueOnce = some t ∧ t.txCh.items = [[1, 0, 7]] ∧
      ¬ t.HostWaitsForItself ∧ ¬ t.WaitForEachOther := by
  have h : (Runs.run step start requeueOnce).map (fun t => t.txCh.items) = some [[1, 0, 7]] ∧
      Runs.Guarded step Spares start requeueOnce := by
    decide +kernel
  obtain ⟨t, hrun, htx⟩ := Option.map_eq_some_iff.mp h.1
  exact ⟨t, hrun, htx, not_deadlocked ⟨rfl, rfl⟩ h.2 hrun⟩

/-- Five frames of the node before the central subscribed: the first is notified without success,
and the channel is full when it is to be put back. -/
def requeueFull : List Event :=
  (List.replicate 4 sendSample).flatten ++ [.takeTx] ++ sendSample ++ [.notified false]

def crossing : List Event :=
  (List.replicate 4 [.write true [5], .replied]).flatten ++
    [.write true [5]] ++ (List.replicate 5 sendSample).flatten

theorem deadlocks :
    start.Connected ∧ (∃ t, Runs.run step start requeueFull = some t ∧ t.HostWaitsForItself) ∧
      ∃ t, Runs.run step start crossing = some t ∧ t.WaitForEachOther := by
  have h : (Runs.run step start requeueFull).map (fun t => (t.host, t.txCh.items.length)) =
        some (.requeue [1, 0, 7], 4) ∧
      (Runs.run step start crossing).map (fun t =>
          (t.host, t.rxCh.items.length, t.node, t.txCh.items.length)) =
        some (.sendRx [5], 4, .sendTx [1, 0, 7], 4) := by
    decide +kernel
  obtain ⟨t, hrun, ht⟩ := Option.map_eq_some_iff.mp h.1
  obtain ⟨u, hrun', hu⟩ := Option.map_eq_some_iff.mp h.2
  obtain ⟨hhost, htx⟩ := Prod.mk.inj ht
  simp only [Prod.mk.injEq] at hu
  exact ⟨⟨rfl, rfl⟩, ⟨t, hrun, _, hhost, htx⟩, u, hrun', ⟨_, hu.1⟩, hu.2.1, ⟨_, hu.2.2.1⟩, hu.2.2.2⟩

/-- Neither comes to an end by itself: a host that waits for itself does so behind every run, and
where host and node wait for each other nothing can happen. -/
theorem deadlocked_for_good {events : List Event} {s t : System}
    (h : Runs.run step s events = some t) :
    (s.HostWaitsForItself → t.HostWaitsForItself) ∧ (s.WaitForEachOther → events = []) := by
  constructor
  · intro hs
    exact (Runs.guarded_of_forall (C := fun _ => True) (fun _ _ => trivial) s).invariant
      (fun _ _ _ hs _ h => hs.step h) hs h
  · intro hs
    cases events with
    | nil => rfl
    | cons e events =>
        rw [Runs.run, hs.step_eq_none e] at h
        cases h

theorem deadlocked_for_good_requeueFull : ∃ t,
    Runs.run step start (requeueFull ++ sendSample) = some t ∧ t.HostWaitsForItself := by
  have h : ∃ s ∈ Runs.run step start requeueFull, (s.host = .requeue [1, 0, 7] ∧
      s.txCh.items.length = 4) ∧ (Runs.run step s sendSample).isSome := by
    decide +kernel
  obtain ⟨s, hs, hwaits, hrun⟩ := h
  obtain ⟨t, ht⟩ := Option.isSome_iff_exists.mp hrun
  refine ⟨t, ?_, (deadlocked_for_good ht).1 ⟨_, hwaits⟩⟩
  rw [Runs.run_append, hs]
  exact ht

end System

end Ble
end Microfips
