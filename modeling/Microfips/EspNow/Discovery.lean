import Microfips.EspNow.Transport

/-!
# The channel of the ESP-NOW transport

What `EspNowTransport`, file `esp_now_transport.rs`, does to the channel of the radio.  While no
station is locked it broadcasts, and hops to the next channel behind `SENDS_PER_CHANNEL` broadcasts.
The channel of the last lock is retained over a reset and is where the next transport starts.  But
`new` has then tuned the radio to the configured channel, and the counter of broadcasts starts near
its maximum, so the transport hops behind the first one, which was sent on the wrong channel.
-/

namespace Microfips
namespace EspNow

/-- What a transport does on the air while it is unlocked: a broadcast, on the channel that the
radio is tuned to, or a hop. -/
inductive Emission where
  | broadcast (channel : UInt8)
  | hop (channel : UInt8)
  deriving DecidableEq

/-- Behind the emissions: the channel that the transport hopped to last, and the broadcasts on it
since. -/
def visit (channel : UInt8) (trace : List Emission) : UInt8 × ℕ :=
  trace.foldl
    (fun v emission =>
      match emission with
      | .broadcast c => if c = v.1 then (v.1, v.2 + 1) else v
      | .hop c => (c, 0))
    (channel, 0)

structure TunedCall where
  call : EspNowTransport.Call
  tuned : Bool
  deriving DecidableEq

namespace EspNowTransport

def broadcasts (self : EspNowTransport) : Call → Bool
  | .send data sent => self.peerMac.isNone && ((EspNowTransport.send data sent).run self).isOk
  | _ => false

def hops (self : EspNowTransport) (call : Call) : Bool :=
  self.broadcasts call && decide (sendsPerChannel ≤ saturatingSucc self.unlockedSends)

def locks (self : EspNowTransport) : Call → Bool
  | .hear src payload removed added =>
      self.peerMac.isNone &&
        decide (((EspNowTransport.hear src payload removed added).call self).toOption.bind
          Prod.fst ≠ none)
  | _ => false

end EspNowTransport

/-- A transport with the radio and the retained channel, and what it did on the air. -/
structure Station where
  transport : EspNowTransport
  radioChannel : UInt8
  retainedChannel : UInt8
  trace : List Emission
  deriving DecidableEq

namespace Station

def startChannel (knobSet : Bool) (retained channel : UInt8) : UInt8 × Bool :=
  if knobSet then (channel, false)
  else if 1 ≤ retained ∧ retained ≤ 13 then (retained, true)
  else (channel, false)

/-- `new`, where `set_channel` succeeds, with a retained channel and with `ESP_NOW_CHANNEL_KNOB_SET`
or not. -/
def new (knobSet : Bool) (retained channel : UInt8) : Station :=
  let (start, remembered) := startChannel knobSet retained channel
  { transport := .newShared start (if remembered then 255 - sendsPerChannel else 0)
    radioChannel := channel
    retainedChannel := retained
    trace := [] }

def after (s : Station) (c : TunedCall) : Station :=
  let transport := s.transport.after c.call
  { transport
    radioChannel := if s.transport.hops c.call ∧ c.tuned then transport.channel else s.radioChannel
    retainedChannel := if s.transport.locks c.call then s.transport.channel else s.retainedChannel
    trace := s.trace ++
      if s.transport.hops c.call then [.broadcast s.radioChannel, .hop transport.channel]
      else if s.transport.broadcasts c.call then [.broadcast s.radioChannel]
      else [] }

def run (s : Station) (calls : List TunedCall) : Station :=
  calls.foldl after s

end Station

namespace EspNowTransport

variable {s : EspNowTransport} {call : Call}

theorem toNat_saturatingSucc_le (x : UInt8) : (saturatingSucc x).toNat ≤ x.toNat + 1 := by
  rw [saturatingSucc]
  split
  · next h =>
      rw [h]
      decide
  · rw [UInt8.toNat_add]
    exact Nat.mod_le _ _

/-- What a call that is no broadcast leaves: the channel, and no more counted sends. -/
def Calm (s t : EspNowTransport) : Prop :=
  t.channel = s.channel ∧ t.unlockedSends.toNat ≤ s.unlockedSends.toNat

theorem calm_lockPeer (s : EspNowTransport) (mac : Mac) (removed added : Bool) :
    Calm s (s.lockPeer mac removed added) := by
  have hold : Calm s (s.removeOld mac removed) := by
    rw [removeOld]
    split
    · exact ⟨rfl, le_rfl⟩
    · split
      · exact ⟨rfl, le_rfl⟩
      · exact ⟨rfl, le_rfl⟩
  rw [lockPeer]
  split
  · exact hold
  · split
    · exact hold
    · exact hold

theorem calm_hear (s : EspNowTransport) (src : Mac) (payload : Bytes) (removed added : Bool) :
    Calm s ((EspNowTransport.hear src payload removed added).run s).state := by
  rw [EStateM.run, EspNowTransport.hear]
  split
  · exact ⟨rfl, le_rfl⟩
  · split
    · exact ⟨rfl, le_rfl⟩
    · exact ⟨rfl, le_rfl⟩
    · next reassembler _ =>
        dsimp only
        split
        · exact calm_lockPeer { s with reassembler } src removed added
        · exact ⟨rfl, le_rfl⟩

theorem calm_of_not_broadcasts (h : s.broadcasts call = false) : Calm s (s.after call) := by
  cases call with
  | waitReady =>
      rw [EspNowTransport.after, waitReady]
      split
      · exact ⟨rfl, Nat.zero_le _⟩
      · exact ⟨rfl, le_rfl⟩
  | send data sent =>
      rw [broadcasts, EStateM.run, EspNowTransport.send] at h
      rw [EspNowTransport.after, EStateM.run, EspNowTransport.send]
      split at h
      · exact ⟨rfl, le_rfl⟩
      · dsimp only at h ⊢
        split at h
        · next hsent =>
            rw [if_pos hsent]
            exact ⟨rfl, le_rfl⟩
        · next hsent =>
            rw [if_neg hsent]
            split at h
            · next hnone =>
                rw [hnone] at h
                cases h
            · next hsome =>
                rw [if_neg hsome]
                exact ⟨rfl, le_rfl⟩
  | hear src payload removed added => exact calm_hear s src payload removed added
  | resetDiscovery => exact ⟨rfl, Nat.zero_le _⟩

theorem after_of_broadcasts (h : s.broadcasts call = true) :
    if sendsPerChannel ≤ saturatingSucc s.unlockedSends then
      (s.after call).unlockedSends = 0
    else
      (s.after call).channel = s.channel ∧
        (s.after call).unlockedSends = saturatingSucc s.unlockedSends := by
  cases call with
  | send data sent =>
      rw [broadcasts, Bool.and_eq_true] at h
      obtain ⟨hnone, hok⟩ := h
      rw [Option.isNone_iff_eq_none] at hnone
      rw [EspNowTransport.after]
      rw [EStateM.run, EspNowTransport.send] at hok ⊢
      split at hok
      · cases hok
      · dsimp only at hok ⊢
        split at hok
        · cases hok
        · next hsent =>
            rw [if_neg hsent, if_pos hnone, EStateM.Result.state_ok, sweep]
            split
            · rfl
            · exact ⟨rfl, rfl⟩
  | waitReady => cases h
  | hear src payload removed added => cases h
  | resetDiscovery => cases h

end EspNowTransport

theorem visit_concat_broadcast {channel c : UInt8} {trace : List Emission}
    (h : c = (visit channel trace).1) :
    visit channel (trace ++ [.broadcast c]) = (c, (visit channel trace).2 + 1) := by
  rw [visit, List.foldl_append]
  exact (if_pos h).trans (by rw [h]; rfl)

theorem visit_concat_hop (channel c : UInt8) (trace : List Emission) :
    visit channel (trace ++ [.hop c]) = (c, 0) := by
  rw [visit, List.foldl_append]
  rfl

namespace Station

variable {s : Station} {c : TunedCall} {first : UInt8}

/-- Behind its first channel: the radio is tuned to the recorded channel, on which there were at
least as many broadcasts as are counted, and no hop came early. -/
structure Settled (first : UInt8) (s : Station) : Prop where
  tuned : s.radioChannel = s.transport.channel
  channel : (visit first s.trace).1 = s.transport.channel
  counted : s.transport.unlockedSends.toNat ≤ (visit first s.trace).2
  hops : ∀ before later dst, s.trace = before ++ .hop dst :: later →
    sendsPerChannel.toNat ≤ (visit first before).2

theorem visit_broadcast (h : s.Settled first) :
    visit first (s.trace ++ [.broadcast s.radioChannel]) =
      (s.transport.channel, (visit first s.trace).2 + 1) := by
  rw [visit_concat_broadcast (h.tuned.trans h.channel.symm), h.tuned]

theorem hops_concat {trace : List Emission} {emission : Emission}
    (h : ∀ before later dst, trace = before ++ .hop dst :: later →
      sendsPerChannel.toNat ≤ (visit first before).2)
    (hlast : ∀ dst, emission = .hop dst → sendsPerChannel.toNat ≤ (visit first trace).2) :
    ∀ before later dst, trace ++ [emission] = before ++ .hop dst :: later →
      sendsPerChannel.toNat ≤ (visit first before).2 := by
  intro before later dst heq
  rcases List.eq_nil_or_concat later with rfl | ⟨init, last, rfl⟩
  · obtain ⟨rfl, hemission⟩ := List.append_inj' heq rfl
    exact hlast dst (List.singleton_inj.mp hemission)
  · rw [List.concat_eq_append, ← List.cons_append, ← List.append_assoc] at heq
    exact h before init dst (List.append_inj' heq rfl).1

/-- A call keeps the station settled where `set_channel` succeeds. -/
theorem Settled.after (h : s.Settled first) (hc : c.tuned = true) : (s.after c).Settled first := by
  have hstay (dst : UInt8) : Emission.broadcast s.radioChannel = .hop dst →
      sendsPerChannel.toNat ≤ (visit first s.trace).2 := by rintro ⟨⟩
  cases hb : s.transport.broadcasts c.call with
  | false =>
      have hhops : s.transport.hops c.call = false := by rw [EspNowTransport.hops, hb]; rfl
      obtain ⟨hchannel, hsends⟩ := EspNowTransport.calm_of_not_broadcasts hb
      have htrace : (s.after c).trace = s.trace := by
        simp [Station.after, hhops, hb]
      have hradio : (s.after c).radioChannel = s.radioChannel := by
        simp [Station.after, hhops]
      refine ⟨?_, ?_, ?_, ?_⟩
      · rw [hradio, h.tuned]
        exact hchannel.symm
      · rw [htrace, h.channel]
        exact hchannel.symm
      · rw [htrace]
        exact hsends.trans h.counted
      · rw [htrace]
        exact h.hops
  | true =>
      have hsends := EspNowTransport.toNat_saturatingSucc_le s.transport.unlockedSends
      have hafter := EspNowTransport.after_of_broadcasts hb
      have hcounted := h.counted
      have hvisit := visit_broadcast h
      have hbroadcast := hops_concat h.hops hstay
      split at hafter
      · next hle =>
          have hhops : s.transport.hops c.call = true := by
            rw [EspNowTransport.hops, hb, decide_eq_true hle]
            rfl
          have htrace : (s.after c).trace =
              s.trace ++ [.broadcast s.radioChannel] ++ [.hop (s.after c).transport.channel] := by
            simp [Station.after, hhops]
          have henough : sendsPerChannel.toNat ≤ (visit first s.trace).2 + 1 :=
            (UInt8.le_iff_toNat_le.mp hle).trans (by omega)
          refine ⟨?_, ?_, ?_, ?_⟩
          · simp [Station.after, hhops, hc]
          · rw [htrace, visit_concat_hop]
          · rw [show (s.after c).transport.unlockedSends = 0 from hafter]
            exact Nat.zero_le _
          · rw [htrace]
            refine hops_concat hbroadcast fun dst _ => ?_
            rw [hvisit]
            exact henough
      · next hlt =>
          have hhops : s.transport.hops c.call = false := by
            rw [EspNowTransport.hops, hb, decide_eq_false hlt]
            rfl
          have htrace : (s.after c).trace = s.trace ++ [.broadcast s.radioChannel] := by
            simp [Station.after, hhops, hb]
          have hradio : (s.after c).radioChannel = s.radioChannel := by
            simp [Station.after, hhops]
          refine ⟨?_, ?_, ?_, ?_⟩
          · rw [hradio, h.tuned]
            exact hafter.1.symm
          · rw [htrace, hvisit]
            exact hafter.1.symm
          · rw [htrace, hvisit, show (s.after c).transport.unlockedSends = _ from hafter.2]
            omega
          · rw [htrace]
            exact hbroadcast

theorem Settled.run (h : s.Settled first) {calls : List TunedCall}
    (hcalls : ∀ c ∈ calls, c.tuned = true) : (s.run calls).Settled first := by
  induction calls generalizing s with
  | nil => exact h
  | cons c calls ih =>
      exact ih (h.after (hcalls c List.mem_cons_self)) fun c' hc' =>
        hcalls c' (List.mem_cons_of_mem c hc')

/-- Where no channel is retained, or the configured one is fixed: over every sequence of calls the
radio is tuned to the channel that the transport has recorded, and the transport leaves no channel
before `SENDS_PER_CHANNEL` broadcasts on it. -/
theorem channel_settled {knobSet : Bool} {retained : UInt8} (channel : UInt8)
    (hfresh : knobSet = true ∨ ¬ (1 ≤ retained ∧ retained ≤ 13)) {calls : List TunedCall}
    (hcalls : ∀ c ∈ calls, c.tuned = true) :
    let s := (new knobSet retained channel).run calls
    s.radioChannel = s.transport.channel ∧
      ∀ before later dst, s.trace = before ++ .hop dst :: later →
        sendsPerChannel.toNat ≤ (visit channel before).2 := by
  have hstart : startChannel knobSet retained channel = (channel, false) := by
    rw [startChannel]
    rcases hfresh with rfl | hretained
    · rfl
    · rw [if_neg hretained, ite_self]
  have hnew : (new knobSet retained channel).Settled channel := by
    rw [new, hstart]
    refine ⟨rfl, rfl, Nat.zero_le _, fun before later dst heq => ?_⟩
    exact absurd heq.symm (List.append_ne_nil_of_right_ne_nil _ (List.cons_ne_nil _ _))
  intro s
  have hs := hnew.run hcalls
  exact ⟨hs.tuned, hs.hops⟩

def sendOne : TunedCall where
  call := .send [9] true
  tuned := true

/-- Five broadcasts from the configured channel on. -/
theorem channel_settled_five :
    let s := (new false 0 6).run (List.replicate 5 sendOne)
    s.trace = [.broadcast 6, .broadcast 6, .hop 7, .broadcast 7, .broadcast 7, .hop 8,
    .broadcast 8] ∧
      s.radioChannel = s.transport.channel := by
  have htuned : ∀ c ∈ List.replicate 5 sendOne, c.tuned = true := by
    intro c hc
    rw [List.eq_of_mem_replicate hc]
    rfl
  exact ⟨by decide +kernel, (channel_settled 6 (.inr (by decide)) htuned).1⟩

/-- With 6 retained and 1 configured, the transport records 6 while the radio is on 1, and behind
one broadcast, on 1, it goes on to 7. -/
theorem retained_channel_skipped :
    (new false 6 1).transport.channel = 6 ∧ (new false 6 1).radioChannel = 1 ∧
      ((new false 6 1).run [sendOne]).trace = [.broadcast 1, .hop 7] ∧
      visit 6 [.broadcast 1] = (6, 0) := by
  decide +kernel

end Station

end EspNow
end Microfips
