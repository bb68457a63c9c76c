import Microfips.Data.Simulation
import Microfips.Node.Rekey

/-!
# What the handshake calls of a rekey come to

The functions of `steady` that begin, answer and complete a rekey ask for random numbers on the
way and give up at the first call that fails.  Here is what they give once the numbers are drawn,
as plain functions, and that the functions of `steady` give nothing else.
-/

namespace Microfips
namespace Node

open Noise Wire

variable {H M : Type} (C : Config H M)

def begun (eph : Block 32) (ourIndex : SessionIndex) : Option (LinkInitiator × Bytes) :=
  match C.build with
  | .ik => do
      let myPub ← (ecdhPubkey C.suite C.nsec).toOption
      let hs ← (NoiseIkInitiator.new C.suite eph C.nsec C.peerNpub).toOption
      let r ← ((NoiseIkInitiator.writeMessage1 C.suite myPub C.epoch 256).call hs.1).toOption
      let msg1 ← buildMsg1 C.build ourIndex r.1 256
      return (.ik r.2, msg1)
  | .xx => do
      let hs ← (NoiseXxInitiator.new C.suite eph C.nsec).toOption
      let r ← ((NoiseXxInitiator.writeMessage1 C.suite 256).call hs.1).toOption
      let msg1 ← buildMsg1 C.build ourIndex r.1 256
      return (.xx r.2, msg1)

/-- The keys and the msg2 with which a msg1 of the IK build is answered, on the ephemeral secret
`eph` and under the index `ourIndex`.  The send key comes first. -/
def ikAnswer (senderIdx : SessionIndex) (np : Bytes) (eph : Block 32) (ourIndex : SessionIndex) :
    Option ((Block 32 × Block 32) × Bytes) :=
  if np.length < 33 then
    none
  else do
    let hs ← (NoiseIkResponder.new C.suite C.nsec (Block.ofBytes 33 (np.take 33))).toOption
    let r ← ((NoiseIkResponder.readMessage1 C.suite (np.drop 33)).call hs).toOption
    if SameX r.1.1 C.peerNpub then
      let r ← ((NoiseIkResponder.writeMessage2 C.suite eph C.epoch 128).call r.2).toOption
      let msg2 ← buildMsg2 C.build ourIndex senderIdx r.1 256
      return (((r.2.finalize C.suite).2, (r.2.finalize C.suite).1), msg2)
    else
      none

def xxAnswer (senderIdx : SessionIndex) (np : Bytes) (eph : Block 32) (ourIndex : SessionIndex) :
    Option (RekeyHs × Bytes) :=
  if np.length ≠ xxHandshakeMsg1Size then
    none
  else do
    let hs ← (NoiseXxResponder.new C.suite C.nsec).toOption
    let r ← ((NoiseXxResponder.readMessage1 C.suite np).call hs).toOption
    let r ← ((NoiseXxResponder.writeMessage2 C.suite eph C.epoch 128).call r.2).toOption
    let msg2 ← buildMsg2 C.build ourIndex senderIdx r.1 256
    return ({ responder := r.2, ourIndex, theirIdx := senderIdx }, msg2)

def xxAccept (hs : RekeyHs) (noisePayload : Bytes) : Option (Block 32 × Block 32) := do
  let r ← ((NoiseXxResponder.readMessage3 C.suite noisePayload).call hs.responder).toOption
  if SameX r.1.1 C.peerNpub then
    return ((r.2.finalize C.suite).2, (r.2.finalize C.suite).1)
  else
    none

/-- The keys with which msg2 completes a rekey of our own, and the frames to be sent first.  The
send key comes first. -/
def completion (ri : RekeyInit) (senderIdx : SessionIndex) (np : Bytes) :
    Option ((Block 32 × Block 32) × List Bytes) :=
  match ri.hs with
  | .ik hs => do
      let r ← ((NoiseIkInitiator.readMessage2 C.suite np).call hs).toOption
      return (r.2.finalize C.suite, [])
  | .xx hs => do
      let r ← ((NoiseXxInitiator.readMessage2 C.suite np).call hs).toOption
      if SameX r.1.1 C.peerNpub then
        let myPub ← (ecdhPubkey C.suite C.nsec).toOption
        let r ← ((NoiseXxInitiator.writeMessage3 C.suite myPub C.epoch 128).call r.2).toOption
        let msg3 ← buildMsg3 C.build ri.ourIndex senderIdx r.1 256
        return (r.2.finalize C.suite, [msg3])
      else
        none

namespace Steady

def IgnoresCalls {V : Type} (view : Steady H M → V) : Prop :=
  ∀ s n, view { s with calls := n } = view s

variable {V : Type} {view : Steady H M → V}

variable {α : Type}

theorem yields_attempt {σ : Type} (m : EStateM (Fault NoiseError) σ α) (object : σ) :
    EStateM.Yields view (fun r => r = (m.call object).toOption)
      (attempt m object : Action H M _) := by
  rw [attempt]
  split
  · rename_i h
    exact .pure (by rw [h]; rfl)
  · rename_i h
    exact .pure (by rw [h]; rfl)
  · exact .throw _

theorem silent_ask (hview : IgnoresCalls view) (answer : ℕ → α) :
    EStateM.Silent view (ask answer : Action H M α) :=
  fun s => ⟨_, _, rfl, hview s (s.calls + 1)⟩

theorem yields_ask (hview : IgnoresCalls view) (answer : ℕ → α) :
    EStateM.Yields view (fun _ => True) (ask answer : Action H M α) :=
  .of_silent (silent_ask hview answer) fun _ => trivial

theorem yields_freshOk (hview : IgnoresCalls view) :
    EStateM.Yields view (fun _ => True) (freshOk C) := by
  refine .get_bind fun s => ?_
  split
  · exact .pure trivial
  · refine (yields_ask hview _).bind fun t _ => ?_
    split
    · exact .throw _
    · exact .pure trivial

theorem yields_answerRekeyMsg1Ik (hview : IgnoresCalls view) (senderIdx : SessionIndex)
    (np : Bytes) (kBit : Bool) :
    EStateM.Yields view
      (fun r => ∀ x ∈ r, ∃ eph ourIndex ks kr,
        ikAnswer C senderIdx np eph ourIndex = some ((ks, kr), x.2) ∧
          x.1 = EpochSlot.new ks kr senderIdx (!kBit) .peer)
      (answerRekeyMsg1Ik C senderIdx np kBit) := by
  rw [answerRekeyMsg1Ik]
  split
  · exact .pure (by simp)
  · rename_i hlen
    split
    · exact .pure (by simp)
    · rename_i hs hnew
      refine (yields_attempt _ _).bind fun r hr => ?_
      split
      · exact .pure (by simp)
      · split
        · rename_i hpin
          refine (yields_ask hview _).bind fun eph _ => (yields_attempt _ _).bind fun r' hr' => ?_
          split
          · exact .pure (by simp)
          · refine (yields_ask hview _).bind fun idx _ => ?_
            split
            · exact .pure (by simp)
            · rename_i hbuild
              refine .pure fun x hx => ?_
              obtain rfl := Option.some.inj hx
              refine ⟨eph, idx, _, _, ?_, rfl⟩
              simp [ikAnswer, hlen, hnew, ← hr, hpin, ← hr', hbuild]
        · exact .pure (by simp)

theorem yields_beginRekeyXx (hview : IgnoresCalls view) (senderIdx : SessionIndex) (np : Bytes) :
    EStateM.Yields view
      (fun r => ∀ x ∈ r, ∃ eph ourIndex, xxAnswer C senderIdx np eph ourIndex = some x)
      (beginRekeyXx C senderIdx np) := by
  rw [beginRekeyXx]
  split
  · exact .pure (by simp)
  · rename_i hlen
    split
    · exact .pure (by simp)
    · rename_i hs hnew
      refine (yields_attempt _ _).bind fun r hr => ?_
      split
      · exact .pure (by simp)
      · refine (yields_ask hview _).bind fun eph _ => (yields_attempt _ _).bind fun r' hr' => ?_
        split
        · exact .pure (by simp)
        · refine (yields_ask hview _).bind fun idx _ => ?_
          split
          · exact .pure (by simp)
          · rename_i hbuild
            refine .pure fun x hx => ?_
            obtain rfl := Option.some.inj hx
            refine ⟨eph, idx, ?_⟩
            simp [xxAnswer, hlen, hnew, ← hr, ← hr', hbuild]

theorem yields_completeIk (hs : NoiseIkInitiator) (np : Bytes) :
    EStateM.Yields view
      (fun r => r = (((NoiseIkInitiator.readMessage2 C.suite np).call hs).toOption.map
        fun r => r.2.finalize C.suite))
      (completeIk C hs np) := by
  refine (yields_attempt _ _).bind fun r hr => ?_
  split
  · exact .pure (by simp [← hr])
  · exact .pure (by simp [← hr])

end Steady
end Node
end Microfips
