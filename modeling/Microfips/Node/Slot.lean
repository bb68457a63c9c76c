import Microfips.Noise.Replay
import Microfips.Wire.Frame
import Microfips.Mmp.Report
import Microfips.Node.Interface

/-!
# Key epochs and the frames they open

The slot of one key epoch and the functions of `node.rs` that a received frame goes through once
a key is at hand: opening it against the key and the replay window of a slot, and working out
what the link message in it asks for.
-/

namespace Microfips
namespace Node

open Noise Wire Mmp

def maxFrameSize : ℕ := 2048

def respBufSize : ℕ := 320

def msgSenderReport : UInt8 := 0x01

def msgReceiverReport : UInt8 := 0x02

def msgDisconnect : UInt8 := 0x50

def msgHeartbeat : UInt8 := 0x51

def msgEchoRequest : UInt8 := 0xFF

def msgEchoResponse : UInt8 := 0xFE

def msgThroughputRequest : UInt8 := 0xFD

def msgThroughputStream : UInt8 := 0xFC

def discReasonShutdown : UInt8 := 0

def discReasonTransportFailure : UInt8 := 3

def discReasonResourceExhaustion : UInt8 := 4

def discReasonSecurityViolation : UInt8 := 5

def discReasonOther : UInt8 := 0xFF

/-- Who brought a key epoch about: the first handshake, a rekey of this node, or a rekey of its
peer.  A history variable; the program does not keep it. -/
inductive Origin where
  | initial
  | own
  | peer
  deriving DecidableEq

structure EpochSlot where
  ks : Block 32
  kr : Block 32
  them : SessionIndex
  sendCtr : UInt64
  kBit : Bool
  replay : ReplayWindow
  origin : Origin
  deriving DecidableEq

namespace EpochSlot

def new (ks kr : Block 32) (them : SessionIndex) (kBit : Bool) (origin : Origin) : EpochSlot where
  ks := ks
  kr := kr
  them := them
  sendCtr := 0
  kBit := kBit
  replay := ReplayWindow.new
  origin := origin

end EpochSlot

structure DecryptedFrame where
  counter : UInt64
  senderTimestamp : UInt32
  msgType : UInt8
  payload : Bytes
  frameBytes : ℕ
  deriving DecidableEq

/-- `decrypt_established_frame`, with `usize` of `w` bits: the opened frame and the window
afterwards.  The counter is accepted as soon as the cipher opened, whatever the plaintext is. -/
def decryptEstablishedFrame (S : Suite) (build : Build) (w : ℕ) (kr : Block 32) (data : Bytes)
    (replay : ReplayWindow) : Except (Fault Empty) (Option DecryptedFrame × ReplayWindow) :=
  match parseMessage build data with
  | some (.established _ _ _) =>
      match EncryptedHeader.parse build data with
      | none => .ok (none, replay)
      | some enc =>
          if replay.check w enc.counter = true then
            match aeadDecrypt S kr enc.counter enc.headerBytes (data.drop establishedHeaderSize)
              maxFrameSize with
            | .error _ => .ok (none, replay)
            | .ok plain =>
                match replay.accept w enc.counter with
                | none => .error .panic
                | some replay =>
                    match stripInnerHeader plain with
                    | some (senderTimestamp, msgType :: payload) =>
                        .ok (some {
                          counter := enc.counter
                          senderTimestamp
                          msgType
                          payload
                          frameBytes := data.length }, replay)
                    | _ => .ok (none, replay)
          else
            .ok (none, replay)
  | _ => .ok (none, replay)

def openedCounter (S : Suite) (build : Build) (kr : Block 32) (data : Bytes) : Option UInt64 :=
  match EncryptedHeader.parse build data with
  | none => none
  | some enc =>
      match aeadDecrypt S kr enc.counter enc.headerBytes (data.drop establishedHeaderSize)
        maxFrameSize with
      | .error _ => none
      | .ok _ => some enc.counter

/-- The cipher opens the frame `data` under `kr`, with this counter. -/
def Opens (S : Suite) (build : Build) (kr : Block 32) (data : Bytes) (counter : UInt64) : Prop :=
  openedCounter S build kr data = some counter

/-- What opening a frame does: it is refused and the window stays, or its counter was admitted,
the cipher opened it and the window took the counter. -/
theorem decryptEstablishedFrame_cases {S : Suite} {build : Build} {w : ℕ} {kr : Block 32}
    {data : Bytes} {replay replay' : ReplayWindow} {frame : Option DecryptedFrame}
    (h : decryptEstablishedFrame S build w kr data replay = .ok (frame, replay')) :
    (frame = none ∧ replay' = replay ∧
        ∀ c, Opens S build kr data c → replay.check w c = false) ∨
      ∃ c, replay.check w c = true ∧ replay.accept w c = some replay' ∧
        Opens S build kr data c ∧ ∀ f ∈ frame, f.counter = c := by
  rw [decryptEstablishedFrame] at h
  simp only [Opens, openedCounter]
  split at h
  · cases henc : EncryptedHeader.parse build data with
    | none =>
        rw [henc] at h
        obtain ⟨rfl, rfl⟩ := Prod.mk.inj (Except.ok.inj h)
        exact .inl ⟨rfl, rfl, by simp⟩
    | some enc =>
        simp only [henc] at h ⊢
        split_ifs at h with hcheck
        · split at h
          · obtain ⟨rfl, rfl⟩ := Prod.mk.inj (Except.ok.inj h)
            exact .inl ⟨rfl, rfl, by simp⟩
          · rename_i plain hplain
            split at h
            · cases h
            · rename_i accepted haccept
              split at h
              · obtain ⟨rfl, rfl⟩ := Prod.mk.inj (Except.ok.inj h)
                exact .inr ⟨enc.counter, hcheck, haccept, rfl, by simp⟩
              · obtain ⟨rfl, rfl⟩ := Prod.mk.inj (Except.ok.inj h)
                exact .inr ⟨enc.counter, hcheck, haccept, rfl, by simp⟩
        · obtain ⟨rfl, rfl⟩ := Prod.mk.inj (Except.ok.inj h)
          refine .inl ⟨rfl, rfl, fun c hopens => ?_⟩
          split at hopens
          · cases hopens
          · obtain rfl := Option.some.inj hopens
            exact Bool.eq_false_of_not_eq_true hcheck
  · rename_i hmsg
    obtain ⟨rfl, rfl⟩ := Prod.mk.inj (Except.ok.inj h)
    refine .inl ⟨rfl, rfl, fun c hopens => ?_⟩
    split at hopens
    · cases hopens
    · rename_i henc
      obtain ⟨a, b, c, hparse⟩ := parseMessage_of_parse henc
      exact absurd hparse (hmsg a b c)

theorem exists_decryptEstablishedFrame (S : Suite) (build : Build) (w : ℕ) (kr : Block 32)
    (data : Bytes) (replay : ReplayWindow) :
    ∃ r, decryptEstablishedFrame S build w kr data replay = .ok r := by
  rw [decryptEstablishedFrame]
  split
  · split
    · exact ⟨_, rfl⟩
    · split
      · rename_i hcheck
        obtain ⟨replay', haccept⟩ := ReplayWindow.exists_accept_of_check hcheck
        split
        · exact ⟨_, rfl⟩
        · rw [haccept]
          dsimp only
          split <;> exact ⟨_, rfl⟩
      · exact ⟨_, rfl⟩
  · exact ⟨_, rfl⟩

/-- A key under which the cipher does not open a frame leaves the window of its slot. -/
theorem decryptEstablishedFrame_of_not_opens {S : Suite} {build : Build} {kr : Block 32}
    {data : Bytes} (h : ∀ c, ¬ Opens S build kr data c) (w : ℕ) (replay : ReplayWindow) :
    decryptEstablishedFrame S build w kr data replay = .ok (none, replay) := by
  obtain ⟨⟨r, replay'⟩, hrun⟩ := exists_decryptEstablishedFrame S build w kr data replay
  obtain ⟨rfl, rfl, -⟩ | ⟨c, -, -, hopens, -⟩ := decryptEstablishedFrame_cases hrun
  · exact hrun
  · exact absurd hopens (h c)

inductive FrameAction where
  | continue
  | heartbeatRecv
  | peerDc (reason : UInt8)
  | selfDc
  | sendDatagram (data : Bytes)
  | sendLinkMessage (msgType : UInt8) (body : Bytes)
  deriving DecidableEq

def buildReceiverReportResponse (build : Build) (payload : Bytes) : FrameAction :=
  if payload.length < 27 then
    .continue
  else
    .sendLinkMessage msgReceiverReport
      (List.replicate 3 0 ++ Bytes.slice 11 19 payload ++ List.replicate 16 0 ++
        Bytes.slice 23 27 payload ++ List.replicate (receiverReportBodySize build - 31) 0)

def parseEchoRequest (body : Bytes) : Option (Bytes × Bytes × Bytes) :=
  if body.length < 12 then none else some (body.take 8, Bytes.slice 8 12 body, body.drop 12)

def buildEchoResponse (sendTimestampUs : Bytes) (recvTimestampUs : ℕ) (sequence payload : Bytes)
    (outLen : ℕ) : Option Bytes :=
  if outLen < 20 + payload.length ∨ 256 < payload.length then
    none
  else
    some (sendTimestampUs ++ Bytes.ofNat 8 recvTimestampUs ++ sequence ++ payload)

def dispatchEcho (now : ℕ) (payload : Bytes) : FrameAction :=
  match parseEchoRequest payload with
  | none => .continue
  | some (sendTs, sequence, body) =>
      match buildEchoResponse sendTs now sequence body respBufSize with
      | none => .continue
      | some response => .sendLinkMessage msgEchoResponse response

/-- `dispatch_link_message` without the feature `benchmark`. -/
def dispatchLinkMessage {H : Type} (build : Build) (handler : NodeHandler H) (now : ℕ)
    (frame : DecryptedFrame) (h : H) : FrameAction × H :=
  if frame.msgType = msgHeartbeat then
    (.heartbeatRecv, h)
  else if frame.msgType = msgDisconnect then
    (.peerDc (frame.payload.headD discReasonOther), h)
  else if frame.msgType = msgSenderReport then
    (buildReceiverReportResponse build frame.payload, h)
  else if frame.msgType = msgReceiverReport then
    (.continue, h)
  else if frame.msgType = msgEchoRequest then
    (dispatchEcho now frame.payload, h)
  else if frame.msgType = msgThroughputRequest ∨ frame.msgType = msgThroughputStream then
    (.continue, h)
  else
    match handler.onMessage now frame.msgType frame.payload h with
    | (.none, h) => (.continue, h)
    | (.sendDatagram data, h) => (.sendDatagram data, h)
    | (.disconnect, h) => (.selfDc, h)

end Node
end Microfips
