import Microfips.Data.Runs
import Microfips.EspNow.Fragment

/-!
# The ESP-NOW transport and the peer table of the radio

`EspNowTransport` of `microfips-esp-transport`, file `esp_now_transport.rs`.  It broadcasts until it
has heard a message, and then locks to the station that sent it, which it registers with the radio.
The entry of the station it was locked to before is removed by `lock_peer`, but nothing calls
`lock_peer` while a station is locked: `wait_ready` and `reset_discovery` forget the lock and leave
the entry, so the entries of later stations come on top of it.
-/

namespace Microfips
namespace EspNow

def sendsPerChannel : UInt8 := 2

def sweepMaxChannel : UInt8 := 13

inductive EspNowTransportError where
  | failed
  deriving DecidableEq

/-- `u8::saturating_add(1)`. -/
def saturatingSucc (x : UInt8) : UInt8 :=
  if x = 255 then 255 else x + 1

structure EspNowTransport where
  fragmenter : Fragmenter
  reassembler : SrcReassembler
  peerMac : Option Mac
  sessions : UInt32
  channel : UInt8
  unlockedSends : UInt8
  peers : List Mac
  deriving DecidableEq

namespace EspNowTransport

def newShared (channel unlockedSends : UInt8) : EspNowTransport where
  fragmenter := Fragmenter.new
  reassembler := SrcReassembler.new
  peerMac := none
  sessions := 0
  channel := channel
  unlockedSends := unlockedSends
  peers := []

def resetDiscovery (self : EspNowTransport) : EspNowTransport :=
  { self with peerMac := none, unlockedSends := 0 }

def removeOld (self : EspNowTransport) (mac : Mac) (removed : Bool) : EspNowTransport :=
  match self.peerMac with
  | none => self
  | some old =>
      if old ≠ mac ∧ old ∈ self.peers ∧ removed = true then
        { self with peers := self.peers.erase old }
      else
        self

def lockPeer (self : EspNowTransport) (mac : Mac) (removed added : Bool) : EspNowTransport :=
  let self := self.removeOld mac removed
  if mac ∈ self.peers then
    { self with peerMac := some mac }
  else if added then
    { self with peers := mac :: self.peers, peerMac := some mac }
  else
    self

def waitReady (self : EspNowTransport) : EspNowTransport :=
  let self :=
    if self.sessions ≠ 0 ∧ self.peerMac.isSome then
      { self with peerMac := none, unlockedSends := 0 }
    else
      self
  { self with sessions := self.sessions + 1 }

def sweep (self : EspNowTransport) : EspNowTransport :=
  let unlockedSends := saturatingSucc self.unlockedSends
  if sendsPerChannel ≤ unlockedSends then
    { self with
      unlockedSends := 0
      channel := if sweepMaxChannel ≤ self.channel then 1 else self.channel + 1 }
  else
    { self with unlockedSends }

def send (data : Bytes) (sent : Bool) : EStateM EspNowTransportError EspNowTransport PUnit :=
  fun self =>
    match self.fragmenter.fragments data with
    | none => .error .failed self
    | some (_, fragmenter) =>
        let self := { self with fragmenter }
        if sent = false then .error .failed self
        else if self.peerMac = none then .ok ⟨⟩ self.sweep
        else .ok ⟨⟩ self

def hear (src : Mac) (payload : Bytes) (removed added : Bool) :
    EStateM (Fault Empty) EspNowTransport (Option Bytes) := fun self =>
  if self.peerMac.isSome ∧ self.peerMac ≠ some src then
    .ok none self
  else
    match (SrcReassembler.push src payload).run self.reassembler with
    | .error e reassembler => .error e { self with reassembler }
    | .ok none reassembler => .ok none { self with reassembler }
    | .ok (some frame) reassembler =>
        let self := { self with reassembler }
        .ok (some frame) (if self.peerMac = none then self.lockPeer src removed added else self)

/-- What a call of `recv` hears, and the results of the radio where it locks to the station. -/
structure Heard where
  src : Mac
  payload : Bytes
  removed : Bool
  added : Bool
  deriving DecidableEq

def nextFrame : List Heard → EStateM (Fault Empty) EspNowTransport (Option Bytes)
  | [] => pure none
  | h :: heard => do
      match ← EspNowTransport.hear h.src h.payload h.removed h.added with
      | some frame => return some frame
      | none => nextFrame heard

def recv (size : ℕ) (heard : List Heard) :
    EStateM (Fault Empty) EspNowTransport (Option Bytes) := do
  let out ← nextFrame heard
  return out.map fun frame => frame.take (min frame.length size)

/-- The calls, and what is heard while a call of `recv` waits. -/
inductive Call where
  | waitReady
  | send (data : Bytes) (sent : Bool)
  | hear (src : Mac) (payload : Bytes) (removed added : Bool)
  | resetDiscovery
  deriving DecidableEq

def after (self : EspNowTransport) : Call → EspNowTransport
  | .waitReady => self.waitReady
  | .send data sent => ((EspNowTransport.send data sent).run self).state
  | .hear src payload removed added =>
      ((EspNowTransport.hear src payload removed added).run self).state
  | .resetDiscovery => self.resetDiscovery

def run (self : EspNowTransport) (calls : List Call) : EspNowTransport :=
  calls.foldl after self

def step (self : EspNowTransport) (call : Call) : Option EspNowTransport :=
  some (self.after call)

/-- The peer table holds the station that the transport is locked to, and nothing else. -/
def TableIsLock (self : EspNowTransport) : Prop :=
  self.peers = self.peerMac.toList

def Keeps (self : EspNowTransport) : Call → Prop
  | .waitReady => self.sessions ≠ 0 → self.peerMac = none
  | .resetDiscovery => self.peerMac = none
  | _ => True

instance (self : EspNowTransport) (call : Call) : Decidable (self.Keeps call) :=
  match call with
  | .waitReady => inferInstanceAs (Decidable (_ → _))
  | .resetDiscovery => inferInstanceAs (Decidable (_ = _))
  | .send _ _ => .isTrue trivial
  | .hear _ _ _ _ => .isTrue trivial

variable {s : EspNowTransport}

theorem TableIsLock.lockPeer (h : s.TableIsLock) (hnone : s.peerMac = none) (mac : Mac)
    (removed added : Bool) : (s.lockPeer mac removed added).TableIsLock := by
  have hpeers : s.peers = [] := by rw [h, hnone, Option.toList_none]
  have hold : s.removeOld mac removed = s := by rw [removeOld, hnone]
  rw [EspNowTransport.lockPeer, hold, if_neg (by rw [hpeers]; exact List.not_mem_nil)]
  split
  · change mac :: s.peers = [mac]
    rw [hpeers]
  · exact h

theorem TableIsLock.send (h : s.TableIsLock) (data : Bytes) (sent : Bool) :
    ((EspNowTransport.send data sent).run s).state.TableIsLock := by
  rw [EStateM.run, EspNowTransport.send]
  split
  · exact h
  · dsimp only
    split
    · exact h
    · split
      · rw [sweep]
        dsimp only
        split
        · exact h
        · exact h
      · exact h

theorem TableIsLock.hear (h : s.TableIsLock) (src : Mac) (payload : Bytes) (removed added : Bool) :
    ((EspNowTransport.hear src payload removed added).run s).state.TableIsLock := by
  rw [EStateM.run, EspNowTransport.hear]
  split
  · exact h
  · split
    · exact h
    · exact h
    · dsimp only
      split
      · rename_i reassembler _ hnone
        exact TableIsLock.lockPeer (s := { s with reassembler }) h hnone src removed added
      · exact h

/-- A call that does not forget the lock keeps the table equal to it. -/
theorem TableIsLock.after {call : Call} (h : s.TableIsLock) (hkeeps : s.Keeps call) :
    (s.after call).TableIsLock := by
  cases call with
  | waitReady =>
      have hsame : s.waitReady = { s with sessions := s.sessions + 1 } := by
        rw [EspNowTransport.waitReady, if_neg]
        rintro ⟨hsessions, hsome⟩
        rw [hkeeps hsessions] at hsome
        cases hsome
      rw [EspNowTransport.after, hsame]
      exact h
  | send data sent => exact h.send data sent
  | hear src payload removed added => exact h.hear src payload removed added
  | resetDiscovery =>
      change s.peers = []
      rw [h, show s.peerMac = none from hkeeps]
      rfl

/-- Over every sequence of calls in which `wait_ready`, other than the first, and `reset_discovery`
are not called while a station is locked, the peer table holds at most one unicast peer, the one the
transport is locked to. -/
theorem peers_locked (channel unlockedSends : UInt8) {calls : List Call}
    (hkeeps : Runs.Guarded step Keeps (newShared channel unlockedSends) calls) :
    let t := (newShared channel unlockedSends).run calls
    t.peers.length ≤ 1 ∧ ∀ mac ∈ t.peers, t.peerMac = some mac := by
  intro t
  have hnew : (newShared channel unlockedSends).TableIsLock := rfl
  have ht : t.TableIsLock := hkeeps.invariant
    (fun _ _ _ hs hkeeps h => Option.some.inj h ▸ hs.after hkeeps) hnew
    (Runs.run_total after _ calls)
  rw [TableIsLock] at ht
  rw [ht]
  cases t.peerMac with
  | none => exact ⟨by decide, fun mac h => by cases h⟩
  | some mac => exact ⟨Nat.le_refl 1, fun mac' h => by rw [List.mem_singleton.mp h]⟩

def hearA : Call := .hear SrcReassembler.macA [0, 0x80, 1] true true

def hearB : Call := .hear SrcReassembler.macB [0, 0x80, 1] true true

theorem peers_locked_first_session :
    let t := (newShared 6 0).run [.waitReady, .send [9] true, hearA, hearB]
    t.peers = [SrcReassembler.macA] ∧ ∀ mac ∈ t.peers, t.peerMac = some mac := by
  have h : ((newShared 6 0).run [.waitReady, .send [9] true, hearA, hearB]).peers =
      [SrcReassembler.macA] := by decide +kernel
  exact ⟨h, (peers_locked 6 0 (by decide +kernel)).2⟩

/-- The session with the first station ends, and the second one is heard: both are registered. -/
theorem peers_of_two_sessions :
    ((newShared 6 0).run [.waitReady, hearA, .waitReady, hearB]).peers =
        [SrcReassembler.macB, SrcReassembler.macA] ∧
      ((newShared 6 0).run [.waitReady, hearA, .waitReady, hearB]).peerMac =
        some SrcReassembler.macB := by
  decide +kernel

end EspNowTransport

end EspNow
end Microfips
