import Microfips.EspNow.Transport
import Microfips.Node.Interface

/-!
# WiFi with ESP-NOW to fall back on

`HybridTransport` of `microfips-esp-transport`, file `hybrid_transport.rs`: which path it is on, and
what a call of `wait_ready` does about it.  In WiFi mode a call counts as failed where the station
does not associate or gets no address; after two failed calls in a row the transport goes to
ESP-NOW.  A call that finds no daemon passes the readiness test with the endpoint known so far, and
clears the count of failures, so sessions that end at once because nobody answers never count.
-/

namespace Microfips
namespace EspNow

open Node

def wifiFailuresBeforeFallback : ℕ := 2

def healthySessionSecs : ℕ := 120

inductive Mode where
  | wifi
  | espNow
  deriving DecidableEq

structure IpEndpoint where
  addr : Block 4
  port : UInt16
  deriving DecidableEq

inductive UdpTransportError where
  | notReady
  deriving DecidableEq

/-- What one call of `wait_ready` meets. -/
structure Surroundings where
  /-- The clock at the first and the second reading of the call. -/
  now : ℕ
  ready : ℕ
  /-- The clock in `enter_espnow`. -/
  entered : ℕ
  /-- `test_wifi_forced_down`. -/
  forcedDown : Bool
  /-- `controller.is_connected()`. -/
  connected : Bool
  /-- `connect_async` succeeds in time. -/
  associates : Bool
  /-- The stack has an address in time. -/
  dhcp : Bool
  /-- `discover_fips` for the pinned daemon. -/
  daemon : Option IpEndpoint
  deriving DecidableEq

structure HybridTransport where
  udpPeer : IpEndpoint
  espnow : EspNowTransport
  mode : Mode
  sessions : UInt32
  wifiFailures : ℕ
  preferWifi : Bool
  nextWifiProbe : ℕ
  lastReady : ℕ
  deriving DecidableEq

namespace HybridTransport

/-- `new` at time `now`; `probeSecs` is `HYBRID_WIFI_PROBE_SECS`. -/
def new (daemon : IpEndpoint) (espnow : EspNowTransport) (startOnWifi : Bool) (probeSecs now : ℕ) :
    HybridTransport where
  udpPeer := daemon
  espnow := espnow
  mode := if startOnWifi then .wifi else .espNow
  sessions := 0
  wifiFailures := 0
  preferWifi := false
  nextWifiProbe := now + fromSecs probeSecs
  lastReady := now

/-- `try_wifi_ready`: whether the WiFi path is up, and the endpoint of the daemon. -/
def tryWifiReady (self : HybridTransport) (w : Surroundings) (strict : Bool) :
    Bool × HybridTransport :=
  if w.forcedDown then
    (false, self)
  else if w.connected = false ∧ w.associates = false then
    (false, self)
  else if w.dhcp = false then
    (false, self)
  else
    match w.daemon with
    | some endpoint => (true, { self with udpPeer := endpoint })
    | none => (!strict, self)

def enterEspnow (self : HybridTransport) (probeSecs : ℕ) (w : Surroundings) : HybridTransport :=
  { self with
    espnow := self.espnow.resetDiscovery
    nextWifiProbe := w.entered + fromSecs probeSecs
    mode := .espNow }

def waitReadyWifi (self : HybridTransport) (probeSecs : ℕ) (w : Surroundings) :
    EStateM.Result UdpTransportError HybridTransport PUnit :=
  match self.tryWifiReady w false with
  | (true, self) => .ok ⟨⟩ { self with wifiFailures := 0 }
  | (false, self) =>
      let wifiFailures := self.wifiFailures + 1
      if wifiFailuresBeforeFallback ≤ wifiFailures then
        .ok ⟨⟩ ({ self with wifiFailures := 0 }.enterEspnow probeSecs w)
      else
        .error .notReady { self with wifiFailures }

def waitReadyEspnow (self : HybridTransport) (probeSecs : ℕ) (w : Surroundings) :
    EStateM.Result UdpTransportError HybridTransport PUnit :=
  if self.preferWifi then
    match { self with preferWifi := false }.tryWifiReady w true with
    | (true, self) => .ok ⟨⟩ { self with mode := .wifi, wifiFailures := 0 }
    | (false, self) => .ok ⟨⟩ (self.enterEspnow probeSecs w)
  else
    .ok ⟨⟩ (self.enterEspnow probeSecs w)

def waitReadyIn (self : HybridTransport) (probeSecs : ℕ) (w : Surroundings) :
    EStateM.Result UdpTransportError HybridTransport PUnit :=
  match self.mode with
  | .wifi => self.waitReadyWifi probeSecs w
  | .espNow => self.waitReadyEspnow probeSecs w

def waitReady (probeSecs : ℕ) (w : Surroundings) :
    EStateM UdpTransportError HybridTransport PUnit := fun self =>
  let started := { self with sessions := self.sessions + 1, lastReady := w.ready }
  if self.sessions = 0 then
    .ok ⟨⟩ started
  else if healthySessionSecs ≤ asSecs (w.now - self.lastReady) then
    { started with wifiFailures := 0 }.waitReadyIn probeSecs w
  else
    started.waitReadyIn probeSecs w

/-- What happens in a session: the calls that go to the ESP-NOW transport, and the end of a session
at a probe window. -/
inductive Use where
  | espnow (call : EspNowTransport.Call)
  | probe (now : ℕ)
  deriving DecidableEq

def use (probeSecs : ℕ) (self : HybridTransport) (u : Use) : HybridTransport :=
  match self.mode with
  | .wifi => self
  | .espNow =>
      match u with
      | .espnow call => { self with espnow := self.espnow.after call }
      | .probe now =>
          if self.nextWifiProbe ≤ now then
            { self with nextWifiProbe := now + fromSecs probeSecs, preferWifi := true }
          else
            self

/-- A call of `wait_ready`, and the use of the transport that comes before it. -/
structure Attempt where
  uses : List Use
  surroundings : Surroundings
  deriving DecidableEq

def before (probeSecs : ℕ) (self : HybridTransport) (a : Attempt) : HybridTransport :=
  a.uses.foldl (use probeSecs) self

def attempt (probeSecs : ℕ) (self : HybridTransport) (a : Attempt) : HybridTransport :=
  ((waitReady probeSecs a.surroundings).run (self.before probeSecs a)).state

/-- Neither association nor address, or held down by the test knob: the readiness test fails. -/
def Unready (w : Surroundings) : Prop :=
  w.forcedDown = true ∨ (w.connected = false ∧ w.associates = false) ∨ w.dhcp = false

instance (w : Surroundings) : Decidable (Unready w) :=
  inferInstanceAs (Decidable (_ ∨ _))

/-- The call comes within the threshold of a healthy session behind the call before it. -/
def Soon (self : HybridTransport) (w : Surroundings) : Prop :=
  asSecs (w.now - self.lastReady) < healthySessionSecs

instance (self : HybridTransport) (w : Surroundings) : Decidable (self.Soon w) :=
  inferInstanceAs (Decidable (_ < _))

variable {s : HybridTransport} {w : Surroundings} {probeSecs : ℕ}

theorem tryWifiReady_of_unready (h : Unready w) (strict : Bool) :
    s.tryWifiReady w strict = (false, s) := by
  rw [tryWifiReady]
  split
  · rfl
  · rename_i hforced
    split
    · rfl
    · rename_i hassoc
      rw [if_pos ((h.resolve_left hforced).resolve_left hassoc)]

/-- Using the transport leaves what `wait_ready` decides on, but for the wish to try WiFi. -/
theorem use_eq (s : HybridTransport) (u : Use) :
    (s.use probeSecs u).mode = s.mode ∧ (s.use probeSecs u).wifiFailures = s.wifiFailures ∧
      (s.use probeSecs u).sessions = s.sessions ∧
      (s.use probeSecs u).lastReady = s.lastReady := by
  rw [use.eq_def]
  split
  · exact ⟨rfl, rfl, rfl, rfl⟩
  · split
    · exact ⟨rfl, rfl, rfl, rfl⟩
    · split
      · exact ⟨rfl, rfl, rfl, rfl⟩
      · exact ⟨rfl, rfl, rfl, rfl⟩

theorem before_eq (probeSecs : ℕ) (s : HybridTransport) (a : Attempt) :
    (s.before probeSecs a).mode = s.mode ∧
      (s.before probeSecs a).wifiFailures = s.wifiFailures ∧
      (s.before probeSecs a).sessions = s.sessions ∧
      (s.before probeSecs a).lastReady = s.lastReady := by
  rw [before]
  induction a.uses generalizing s with
  | nil => exact ⟨rfl, rfl, rfl, rfl⟩
  | cons u uses ih =>
      obtain ⟨hmode, hfailures, hsessions, hready⟩ := use_eq s u
      obtain ⟨hmode', hfailures', hsessions', hready'⟩ := ih (s.use probeSecs u)
      exact ⟨hmode'.trans hmode, hfailures'.trans hfailures, hsessions'.trans hsessions,
        hready'.trans hready⟩

/-- On the WiFi path a failed test counts, and the last one leads to the other path. -/
theorem waitReadyWifi_of_unready (h : Unready w) :
    s.waitReadyWifi probeSecs w =
      if wifiFailuresBeforeFallback ≤ s.wifiFailures + 1 then
        .ok ⟨⟩ ({ s with wifiFailures := 0 }.enterEspnow probeSecs w)
      else
        .error .notReady { s with wifiFailures := s.wifiFailures + 1 } := by
  rw [waitReadyWifi, tryWifiReady_of_unready h]

theorem waitReadyEspnow_of_unready (h : Unready w) :
    (s.waitReadyEspnow probeSecs w).state.mode = .espNow := by
  rw [waitReadyEspnow]
  split
  · rw [tryWifiReady_of_unready h]
    rfl
  · rfl

/-- `k` failed tests in a row are behind the transport. -/
def FailedTimes (self : HybridTransport) (k : ℕ) : Prop :=
  self.mode = .espNow ∨ k ≤ self.wifiFailures ∧ self.wifiFailures < wifiFailuresBeforeFallback

variable {k : ℕ}

theorem FailedTimes.waitReadyIn (h : Unready w) (hs : s.mode = .espNow ∨ k ≤ s.wifiFailures) :
    (s.waitReadyIn probeSecs w).state.FailedTimes (k + 1) := by
  cases hmode : s.mode with
  | wifi =>
      have hk : k ≤ s.wifiFailures := hs.resolve_left (hmode ▸ nofun)
      rw [HybridTransport.waitReadyIn, hmode]
      dsimp only
      rw [waitReadyWifi_of_unready h]
      split
      · exact .inl rfl
      · rename_i hlast
        exact .inr ⟨Nat.succ_le_succ hk, not_le.mp hlast⟩
  | espNow =>
      rw [HybridTransport.waitReadyIn, hmode]
      exact .inl (waitReadyEspnow_of_unready h)

/-- The call behind a session too short to be healthy goes on with the count; any other call may
start again. -/
theorem waitReady_of_unready (hsessions : s.sessions ≠ 0) (h : Unready w)
    (hs : k = 0 ∨ s.Soon w ∧ s.FailedTimes k) :
    ((waitReady probeSecs w).run s).state.FailedTimes (k + 1) := by
  rw [EStateM.run, waitReady, if_neg hsessions]
  obtain rfl | ⟨hsoon, hfailed⟩ := hs
  · split
    · exact FailedTimes.waitReadyIn h (.inr (Nat.zero_le _))
    · exact FailedTimes.waitReadyIn h (.inr (Nat.zero_le _))
  · rw [if_neg (not_le.mpr hsoon)]
    exact FailedTimes.waitReadyIn h (hfailed.imp id And.left)

/-- The attempt does not reach the daemon: the path does not come up, or no advert of the pinned
daemon is found on it. -/
def Misses (w : Surroundings) : Prop :=
  Unready w ∨ w.daemon = none

instance (w : Surroundings) : Decidable (Misses w) :=
  inferInstanceAs (Decidable (_ ∨ _))

/-- The test passes although there is no advert, and the endpoint known so far stays. -/
def Tolerated (w : Surroundings) : Prop :=
  ¬ Unready w ∧ w.daemon = none

instance (w : Surroundings) : Decidable (Tolerated w) :=
  inferInstanceAs (Decidable (_ ∧ _))

/-- An attempt that does not reach the daemon, and that the readiness test does not let pass.  The
first call of all makes no test. -/
structure Fails (r : HybridTransport) (a : Attempt) : Prop where
  sessions : r.sessions ≠ 0
  misses : Misses a.surroundings
  untolerated : ¬ Tolerated a.surroundings

theorem Fails.unready {a : Attempt} (h : s.Fails a) : Unready a.surroundings :=
  h.misses.elim id fun hnone =>
    not_not.mp fun hready => h.untolerated ⟨hready, hnone⟩

theorem Fails.attempt {a : Attempt} (h : s.Fails a)
    (hs : k = 0 ∨ s.Soon a.surroundings ∧ s.FailedTimes k) :
    (s.attempt probeSecs a).FailedTimes (k + 1) := by
  obtain ⟨hmode, hfailures, hsessions, hready⟩ := before_eq probeSecs s a
  refine waitReady_of_unready (hsessions ▸ h.sessions) h.unready ?_
  rwa [Soon, FailedTimes, hmode, hfailures, hready]

def step (probeSecs : ℕ) (self : HybridTransport) (a : Attempt) : Option HybridTransport :=
  some (self.attempt probeSecs a)

/-- An attempt that fails within the threshold behind the attempt before it. -/
def FailsSoon (self : HybridTransport) (a : Attempt) : Prop :=
  self.Fails a ∧ self.Soon a.surroundings

theorem FailedTimes.attempts {attempts : List Attempt} (hs : s.FailedTimes k)
    (h : Runs.Guarded (step probeSecs) FailsSoon s attempts) :
    (attempts.foldl (attempt probeSecs) s).FailedTimes (k + attempts.length) := by
  induction attempts generalizing s k with
  | nil => exact hs
  | cons a attempts ih =>
      obtain ⟨⟨hfails, hsoon⟩, hrest⟩ := h
      have hnext := ih (hfails.attempt (.inr ⟨hsoon, hs⟩)) (hrest _ rfl)
      rwa [Nat.add_assoc, Nat.add_comm 1] at hnext

/-- In every run of `wait_ready` calls, if at least `WIFI_FAILURES_BEFORE_FALLBACK` attempts in a
row do not reach the daemon, each behind the first within the threshold of a healthy session, and
the readiness test lets none of them pass for want of an advert alone, the transport is on the
ESP-NOW path behind them. -/
theorem falls_back (probeSecs : ℕ) (s : HybridTransport) {first : Attempt} {rest : List Attempt}
    (hlength : wifiFailuresBeforeFallback ≤ (first :: rest).length) (hfirst : s.Fails first)
    (hrest : Runs.Guarded (step probeSecs) FailsSoon (s.attempt probeSecs first) rest) :
    ((first :: rest).foldl (attempt probeSecs) s).mode = .espNow := by
  have hfailed := FailedTimes.attempts (hfirst.attempt (.inl rfl)) hrest
  refine hfailed.resolve_right fun ⟨hle, hlt⟩ => ?_
  rw [List.length_cons] at hlength
  rw [Nat.zero_add, Nat.add_comm] at hle
  exact absurd (hlength.trans hle) (not_le.mpr hlt)

def online : HybridTransport :=
  (new ⟨Block.replicate 4 10, 2121⟩ (EspNowTransport.newShared 6 0) true 60 0).attempt 60
    ⟨[], ⟨0, 0, 0, false, true, true, true, none⟩⟩

def addressless (secs : ℕ) : Attempt :=
  ⟨[], ⟨fromSecs secs, fromSecs secs, fromSecs secs, false, true, true, false, none⟩⟩

def adless (secs : ℕ) : Attempt :=
  ⟨[], ⟨fromSecs secs, fromSecs secs, fromSecs secs, false, true, true, true, none⟩⟩

theorem falls_back_addressless :
    online.mode = .wifi ∧
      ([addressless 10, addressless 30].foldl (attempt 60) online).mode = .espNow :=
  ⟨by decide +kernel, falls_back 60 online (by decide) ⟨by decide +kernel, by decide, by decide⟩
    ⟨⟨⟨by decide +kernel, by decide, by decide⟩, by decide +kernel⟩, fun _ _ => trivial⟩⟩

/-- Ten attempts ten seconds apart find nobody, and the transport stays on the WiFi path. -/
theorem stays_on_wifi :
    (List.range 10).Forall fun n =>
      let s := ((List.range n).map fun i => adless (10 * i)).foldl (attempt 60) online
      s.mode = .wifi ∧ s.sessions ≠ 0 ∧ s.Soon (adless (10 * n)).surroundings ∧
        Misses (adless (10 * n)).surroundings ∧
        (s.attempt 60 (adless (10 * n))).mode = .wifi := by
  decide +kernel

end HybridTransport

end EspNow
end Microfips
