import Microfips.Data.Bytes
import Microfips.Data.Fallible

/-!
# Frames for the BLE host

`SharedBleTransport` of `microfips-esp-transport`, file `ble_transport.rs`, as the node writes to
it: the node sends the two bytes of a length and then the payload, and the transport collects what
it is sent until a frame is complete, which it hands to the host task.

The bytes collected so far outlive the link.  Where the link goes down between the two sends of a
frame, its header stays, and what is sent next is read behind it.
-/

namespace Microfips
namespace Ble

def bleMaxFrame : ℕ := 256

inductive BleError where
  | disconnected
  | frameTooLarge
  | initFailed
  deriving DecidableEq

structure SharedBleTransport where
  txBuf : Bytes
  length_le : txBuf.length ≤ bleMaxFrame
  deriving DecidableEq

namespace SharedBleTransport

def new : SharedBleTransport where
  txBuf := []
  length_le := Nat.zero_le _

def send (linkUp : Bool) (data : Bytes) : EStateM BleError SharedBleTransport (Option Bytes) :=
  fun self =>
    if linkUp = false then
      .error .disconnected self
    else if h : bleMaxFrame < self.txBuf.length + data.length then
      .error .frameTooLarge new
    else
      have hlen : (self.txBuf ++ data).length ≤ bleMaxFrame := by
        rw [List.length_append]
        exact Nat.le_of_not_lt h
      if (self.txBuf ++ data).length < 2 then
        .ok none ⟨self.txBuf ++ data, hlen⟩
      else
        let frameLen := 2 + Bytes.toNat ((self.txBuf ++ data).take 2)
        if bleMaxFrame < frameLen then
          .error .frameTooLarge new
        else if (self.txBuf ++ data).length < frameLen then
          .ok none ⟨self.txBuf ++ data, hlen⟩
        else
          .ok (some ((self.txBuf ++ data).take frameLen))
            ⟨(self.txBuf ++ data).drop frameLen, by rw [List.length_drop]; omega⟩

end SharedBleTransport

/-- A call of `Node::send_frame` in length prefixed mode, and whether the link is up at its two
sends. -/
structure SendCall where
  payload : Bytes
  upAtHeader : Bool
  upAtPayload : Bool
  deriving DecidableEq

namespace SendCall

def header (call : SendCall) : Bytes :=
  Bytes.ofNat 2 call.payload.length

def frame (call : SendCall) : Bytes :=
  call.header ++ call.payload

def Fits (call : SendCall) : Prop :=
  2 + call.payload.length ≤ bleMaxFrame

instance (call : SendCall) : Decidable call.Fits :=
  inferInstanceAs (Decidable (_ ≤ _))

@[simp]
theorem header_length (call : SendCall) : call.header.length = 2 :=
  Bytes.ofNat_length 2 _

@[simp]
theorem frame_length (call : SendCall) : call.frame.length = 2 + call.payload.length := by
  rw [frame, List.length_append, header_length]

theorem Fits.toNat_header {call : SendCall} (h : call.Fits) :
    Bytes.toNat call.header = call.payload.length := by
  have hlt : call.payload.length < 256 ^ 2 := by
    simp only [Fits, bleMaxFrame] at h
    omega
  rw [header, Bytes.toNat_ofNat, Nat.mod_eq_of_lt hlt]

end SendCall

structure Sender where
  transport : SharedBleTransport
  handed : List Bytes
  deriving DecidableEq

namespace Sender

def new : Sender where
  transport := SharedBleTransport.new
  handed := []

def send (linkUp : Bool) (data : Bytes) : EStateM BleError Sender PUnit := fun s =>
  match (SharedBleTransport.send linkUp data).run s.transport with
  | .ok frame transport => .ok ⟨⟩ { transport, handed := s.handed ++ frame.toList }
  | .error e transport => .error e { s with transport }

def sendFrame (call : SendCall) : EStateM BleError Sender PUnit := do
  send call.upAtHeader call.header
  send call.upAtPayload call.payload

/-- A sequence of calls.  Where one fails, the node goes on with the next one, in this session or in
another. -/
def run (s : Sender) (calls : List SendCall) : Sender :=
  calls.foldl (fun s call => ((sendFrame call).run s).state) s

variable {s : Sender} {call : SendCall}

theorem send_down (data : Bytes) (s : Sender) : (send false data).run s = .error .disconnected s :=
  rfl

/-- Sent bytes that complete the frame of a call are handed over with what was collected. -/
theorem send_complete (hfits : call.Fits) {data : Bytes}
    (h : s.transport.txBuf ++ data = call.frame) :
    ∃ t, (send true data).run s = .ok ⟨⟩ t ∧ t.transport.txBuf = [] ∧
      t.handed = s.handed ++ [call.frame] := by
  have hlen : (s.transport.txBuf ++ data).length = 2 + call.payload.length :=
    h ▸ call.frame_length
  have htake : (s.transport.txBuf ++ data).take 2 = call.header := by
    rw [h, SendCall.frame, List.take_left' call.header_length]
  have hroom : ¬ bleMaxFrame < s.transport.txBuf.length + data.length := by
    rw [List.length_append] at hlen
    exact Nat.not_lt.mpr (hlen ▸ hfits)
  rw [EStateM.run, send, EStateM.run, SharedBleTransport.send, if_neg (by decide),
    dif_neg hroom, if_neg (by omega)]
  simp only [htake, hfits.toNat_header]
  rw [if_neg (Nat.not_lt.mpr hfits), if_neg (by omega)]
  refine ⟨_, rfl, ?_, ?_⟩
  · exact List.drop_eq_nil_of_le hlen.le
  · change s.handed ++ [(s.transport.txBuf ++ data).take (2 + call.payload.length)] = _
    rw [List.take_of_length_le hlen.le, h]

theorem send_header (hfits : call.Fits) (hs : s.transport.txBuf = []) (hne : call.payload ≠ []) :
    ∃ t, (send true call.header).run s = .ok ⟨⟩ t ∧ t.transport.txBuf = call.header ∧
      t.handed = s.handed := by
  have hpos : 0 < call.payload.length := List.length_pos_iff.mpr hne
  have hlen := call.header_length
  have hfits' : ¬ bleMaxFrame < 2 + call.payload.length := Nat.not_lt.mpr hfits
  rw [EStateM.run, send, EStateM.run, SharedBleTransport.send, if_neg (by decide)]
  simp only [hs, List.nil_append, List.length_nil, Nat.zero_add, List.take_of_length_le hlen.le,
    hfits.toNat_header, hlen]
  rw [dif_neg (by decide), if_neg (by decide), if_neg hfits', if_pos (by omega)]
  exact ⟨_, rfl, rfl, by simp⟩

theorem send_nil (hs : s.transport.txBuf = []) :
    ∃ t, (send true []).run s = .ok ⟨⟩ t ∧ t.transport.txBuf = [] ∧ t.handed = s.handed := by
  rw [EStateM.run, send, EStateM.run, SharedBleTransport.send, if_neg (by decide)]
  simp only [hs, List.append_nil, List.length_nil]
  rw [dif_neg (by decide), if_pos (by decide)]
  exact ⟨_, rfl, rfl, by simp⟩

/-- A call whose link does not go down between its two sends hands over its frame, or nothing where
the link is down, and leaves nothing behind. -/
theorem sendFrame_run (hfits : call.Fits) (hs : s.transport.txBuf = [])
    (hlink : call.upAtHeader = true → call.upAtPayload = true) :
    let t := ((sendFrame call).run s).state
    t.transport.txBuf = [] ∧
      t.handed = s.handed ++ if call.upAtHeader then [call.frame] else [] := by
  intro t
  cases hup : call.upAtHeader with
  | false =>
      have ht : t = s := by
        simp only [t, sendFrame, hup, EStateM.run_bind_error (send_down call.header s)]
        rfl
      rw [ht]
      exact ⟨hs, by simp⟩
  | true =>
      by_cases hne : call.payload = []
      · have hframe : s.transport.txBuf ++ call.header = call.frame := by
          rw [hs, SendCall.frame, hne, List.append_nil, List.nil_append]
        obtain ⟨u, hrun, hu, hhanded⟩ := send_complete hfits hframe
        obtain ⟨v, hrun', hv, hhanded'⟩ := send_nil hu
        have ht : t = v := by
          simp only [t, sendFrame, hup, EStateM.run_bind_ok hrun, hlink hup, hne, hrun']
          rfl
        rw [ht, hhanded', hhanded]
        exact ⟨hv, rfl⟩
      · obtain ⟨u, hrun, hu, hhanded⟩ := send_header hfits hs hne
        have hframe : u.transport.txBuf ++ call.payload = call.frame := by
          rw [hu, SendCall.frame]
        obtain ⟨v, hrun', hv, hhanded'⟩ := send_complete hfits hframe
        have ht : t = v := by
          simp only [t, sendFrame, hup, EStateM.run_bind_ok hrun, hlink hup, hrun']
          rfl
        rw [ht, hhanded', hhanded]
        exact ⟨hv, rfl⟩

theorem run_handed {calls : List SendCall} (hfits : ∀ call ∈ calls, call.Fits)
    (hlink : ∀ call ∈ calls, call.upAtHeader = true → call.upAtPayload = true)
    (hs : s.transport.txBuf = []) :
    (s.run calls).transport.txBuf = [] ∧
      (s.run calls).handed = s.handed ++ (calls.filter SendCall.upAtHeader).map SendCall.frame := by
  induction calls generalizing s with
  | nil => exact ⟨hs, by simp [run]⟩
  | cons call calls ih =>
      obtain ⟨ht, hhanded⟩ := sendFrame_run (hfits call (by simp)) hs (hlink call (by simp))
      obtain ⟨hempty, hrest⟩ := ih (fun c hc => hfits c (by simp [hc]))
        (fun c hc => hlink c (by simp [hc])) ht
      refine ⟨hempty, hrest.trans ?_⟩
      rw [hhanded]
      cases hup : call.upAtHeader with
      | false => simp [hup]
      | true => simp [hup]

/-- A sequence of calls with payloads that fit one BLE frame, where the link does not go down
between the two sends of one call: the frames handed to the host are the header and the payload of
the calls that found the link up, one after the other. -/
theorem handed_eq_frames {calls : List SendCall} (hfits : ∀ call ∈ calls, call.Fits)
    (hlink : ∀ call ∈ calls, call.upAtHeader = true → call.upAtPayload = true) :
    (new.run calls).handed = (calls.filter SendCall.upAtHeader).map SendCall.frame ∧
      ∀ frame ∈ (new.run calls).handed, ∃ call ∈ calls, frame = call.header ++ call.payload := by
  have heq : (new.run calls).handed = (calls.filter SendCall.upAtHeader).map SendCall.frame := by
    rw [(run_handed hfits hlink rfl).2]
    rfl
  refine ⟨heq, fun frame hframe => ?_⟩
  rw [heq] at hframe
  obtain ⟨call, hcall, rfl⟩ := List.mem_map.mp hframe
  exact ⟨call, List.mem_of_mem_filter hcall, rfl⟩

theorem handed_eq_frames_down_between_calls :
    (new.run [⟨[1, 2, 3, 4], true, true⟩, ⟨[9], false, true⟩, ⟨[5, 6, 7], true, true⟩]).handed =
      [[4, 0, 1, 2, 3, 4], [3, 0, 5, 6, 7]] :=
  (handed_eq_frames (by decide) (by decide)).1

/-- The link goes down behind the header of the first call.  The frame that is handed over in the
second call begins with that header and goes on with the header of the second one. -/
theorem handed_behind_stale_header :
    let calls : List SendCall := [⟨[1, 2, 3, 4], true, false⟩, ⟨[5, 6, 7, 8], true, true⟩]
    (∀ call ∈ calls, call.Fits) ∧ (new.run calls).handed = [[4, 0, 4, 0, 5, 6]] ∧
      ∀ call ∈ calls, [4, 0, 4, 0, 5, 6] ≠ call.header ++ call.payload := by
  decide

end Sender

end Ble
end Microfips
