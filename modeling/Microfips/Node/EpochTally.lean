import Microfips.Mmp.Tally
import Microfips.Node.Deadlines
import Microfips.Node.Handled

/-!
# The measurements of an epoch

The receiver counts every frame that a slot opened, and forgets what it counted at each cutover.
So its tally is one of the frames since the last cutover, whichever slot opened them: a straggler
that the previous slot opens is counted among the frames of the current epoch, whose counters began
anew.  Nothing forgets what was counted when a session ends, so that the first epoch of the next
one starts from the tally of the last.
-/

namespace Microfips
namespace Node

open Noise Wire Mmp

variable {H : Type} {C : Config H MmpPeerState}

/-- The frames that were handed on since the last cutover, newest first: the key that opened each
of them, and its counter. -/
def sinceCutover : List Event → List (Block 32 × UInt64)
  | [] => []
  | .key (.cutover _ _ _) :: _ => []
  | .key (.dispatched kr c) :: events => (kr, c) :: sinceCutover events
  | _ :: events => sinceCutover events

def hasCutOver (events : List Event) : Bool :=
  events.any fun
    | .key (.cutover _ _ _) => true
    | _ => false

theorem sinceCutover_plain {e : Event} (h : Plain e) (events : List Event) :
    sinceCutover (e :: events) = sinceCutover events := by
  cases h <;> rfl

theorem hasCutOver_plain {e : Event} (h : Plain e) (events : List Event) :
    hasCutOver (e :: events) = hasCutOver events := by
  cases h <;> rfl

theorem sinceCutover_sent (sent : Bool) (frame : Bytes) (events : List Event) :
    sinceCutover (sentEvents sent frame ++ events) = sinceCutover events := by
  cases sent <;> rfl

theorem hasCutOver_sent (sent : Bool) (frame : Bytes) (events : List Event) :
    hasCutOver (sentEvents sent frame ++ events) = hasCutOver events := by
  cases sent <;> rfl

/-- The tally of a session that entered its loop with the tally `base` is one of the frames since
its last cutover, and the current slot opened all of them. -/
structure TallyOfEpoch (base : Tally) (a : Accounts MmpPeerState) : Prop where
  tally : Tally.OfFrames (if hasCutOver a.trace then .new else base)
    ((sinceCutover a.trace).map Prod.snd) a.mmp.receiver.tally
  current : ∀ x ∈ sinceCutover a.trace, x.1 = a.cur.kr

namespace TallyOfEpoch

variable {base : Tally} {a b : Accounts MmpPeerState}

/-- Changes that leave the trace up to a few events, the key of the current slot and the tally. -/
theorem congr (h : TallyOfEpoch base a) (hsince : sinceCutover b.trace = sinceCutover a.trace)
    (hcut : hasCutOver b.trace = hasCutOver a.trace) (hkr : b.cur.kr = a.cur.kr)
    (htally : b.mmp.receiver.tally = a.mmp.receiver.tally) : TallyOfEpoch base b := by
  constructor
  · rw [hsince, hcut, htally]
    exact h.tally
  · rw [hsince, hkr]
    exact h.current

variable {F : Floats}

theorem measured (hops : C.mmp = MmpPeerState.ops F C.build) {mmp : MmpPeerState}
    (h : TallyOfEpoch base a) (hm : Measured C a.mmp mmp) :
    TallyOfEpoch base { a with mmp := mmp } := by
  have hsame (htally : mmp.receiver.tally = a.mmp.receiver.tally) :
      TallyOfEpoch base { a with mmp := mmp } := h.congr rfl rfl rfl htally
  have hreport (htally : mmp.receiver.tally = a.mmp.receiver.tally ∨
      mmp.receiver.tally = a.mmp.receiver.tally.observe .report) :
      TallyOfEpoch base { a with mmp := mmp } := by
    rcases htally with htally | htally
    · exact hsame htally
    · refine ⟨?_, h.current⟩
      change Tally.OfFrames _ _ mmp.receiver.tally
      rw [htally]
      exact h.tally.report
  cases hm with
  | recordSent c ts bytes => exact hsame (by rw [hops]; rfl)
  | onSenderReport t payload =>
      refine hreport ?_
      rw [hops]
      exact a.mmp.tally_onSenderReport F C.build t payload
  | onReceiverReport t payload =>
      refine hsame ?_
      rw [hops]
      exact a.mmp.tally_onReceiverReport F C.build t payload
  | buildSenderReport t => exact hsame (by rw [hops]; rfl)
  | buildReceiverReport t =>
      refine hreport ?_
      rw [hops]
      exact a.mmp.receiver.tally_buildReport F t

theorem booking (hops : C.mmp = MmpPeerState.ops F C.build) {types : UInt8 → Prop}
    (h : TallyOfEpoch base a) (hstep : Booking C types a b) : TallyOfEpoch base b := by
  cases hstep with
  | count _ => exact h.congr rfl rfl rfl rfl
  | measure hm => exact h.measured hops hm
  | spend => exact h.congr rfl rfl rfl rfl
  | sealMessage c sent _ _ _ =>
      exact h.congr (sinceCutover_sent _ _ _) (hasCutOver_sent _ _ _) rfl rfl
  | send sent _ => exact h.congr (sinceCutover_sent _ _ _) (hasCutOver_sent _ _ _) rfl rfl
  | resend sent _ => exact h.congr (sinceCutover_sent _ _ _) (hasCutOver_sent _ _ _) rfl rfl
  | log he => exact h.congr (sinceCutover_plain he _) (hasCutOver_plain he _) rfl rfl
  | arm slot => exact h.congr rfl rfl rfl rfl
  | keepMsg1 _ => exact h.congr rfl rfl rfl rfl
  | dropMsg1 => exact h.congr rfl rfl rfl rfl
  | keepMsg2 _ => exact h.congr rfl rfl rfl rfl
  | «try» hcur _ _ => exact h.congr rfl rfl (by rw [hcur]) rfl

theorem cutOver (hmmp : C.mmpFeature = true) (hops : C.mmp = MmpPeerState.ops F C.build)
    (slot : EpochSlot) (cause : Cutover) (drainBase resetAt : ℕ) (a : Accounts MmpPeerState) :
    TallyOfEpoch base (a.cutOver C slot cause drainBase resetAt) := by
  refine ⟨?_, by simp [Accounts.cutOver, sinceCutover]⟩
  have htally : (a.cutOver C slot cause drainBase resetAt).mmp.receiver.tally = .new := by
    simp only [Accounts.cutOver, hmmp, hops]
    rfl
  rw [htally]
  exact Tally.ofFrames_nil _

theorem handOn (hmmp : C.mmpFeature = true) (hops : C.mmp = MmpPeerState.ops F C.build)
    (h : TallyOfEpoch base a) (opened : DecryptedFrame) (now : ℕ) :
    TallyOfEpoch base ((a.handOn a.cur.kr opened.counter).counted C opened now) := by
  rw [Accounts.counted, if_pos hmmp, hops]
  constructor
  · have htally := h.tally.frame opened.counter
    rw [← ReceiverState.tally_recordRecv _ opened.senderTimestamp opened.frameBytes now] at htally
    exact htally
  · intro x hx
    rcases List.mem_cons.mp hx with rfl | hx
    · rfl
    · exact h.current x hx

end TallyOfEpoch

instance {M : Type} (C : Config H M) (slot : EpochSlot) (frame : Bytes) :
    Decidable (slot.Refuses C frame) :=
  match h : openedCounter C.suite C.build slot.kr frame with
  | none => .isTrue fun _ hc => nomatch h.symm.trans hc
  | some c =>
      decidable_of_iff (slot.replay.check C.usizeBits c = false)
        ⟨fun hcheck _ hc => Option.some.inj (h.symm.trans hc) ▸ hcheck, fun hall => hall c h⟩

namespace Scenario

def withMmp (C : Config PUnit PUnit) : Config PUnit MmpPeerState where
  suite := C.suite
  build := C.build
  mmpFeature := true
  usizeBits := C.usizeBits
  timing := C.timing
  nsec := C.nsec
  peerNpub := C.peerNpub
  rawFraming := C.rawFraming
  ourProfile := C.ourProfile
  peerWantsSr := C.peerWantsSr
  peerWantsRr := C.peerWantsRr
  epoch := C.epoch
  handler := C.handler
  mmp := MmpPeerState.ops noFloats C.build
  world := C.world

def bobMeasuring (mmp : MmpPeerState) : Steady PUnit MmpPeerState :=
  Steady.enter (withMmp bob) (Block.replicate 32 8) (Block.replicate 32 7) 0 policy ⟨⟩ mmp 0

theorem bobMeasuring_entered (mmp : MmpPeerState) :
    Steady.Entered (withMmp bob) (bobMeasuring mmp) :=
  .intro _ _ _ _ _ _ _

theorem bobMeasuring_tally (mmp : MmpPeerState) :
    (bobMeasuring mmp).mmp.receiver.tally = mmp.receiver.tally :=
  rfl

def aliceStraggler : Bytes :=
  lastSent .established (Steady.after alice aliceStart [.timer, .timer, .recv bobMsg2])

def bobStraggled : Steady PUnit MmpPeerState :=
  Steady.after (withMmp bob) (bobMeasuring .new)
    [.recv aliceMsg1, .recv aliceProof, .recv aliceStraggler]

end Scenario

namespace Steady

def PrevRefuses (C : Config H MmpPeerState) (frame : Bytes) (s : Steady H MmpPeerState) : Prop :=
  ∀ slot ∈ s.prev, slot.Refuses C frame

instance (C : Config H MmpPeerState) (frame : Bytes) (s : Steady H MmpPeerState) :
    Decidable (PrevRefuses C frame s) :=
  inferInstanceAs (Decidable (∀ slot ∈ s.prev, slot.Refuses C frame))

theorem not_opensAs_prev {frame : Bytes} {s : Steady H MmpPeerState} {opened : DecryptedFrame}
    (h : PrevRefuses C frame s) : ¬ OpensAs C frame s opened .prev := by
  intro hopens
  obtain ⟨t, hopened, -⟩ := hopens.opened
  cases hopened with
  | byPrev _ _ hprev hopen =>
      obtain ⟨hcheck, hopens, -⟩ := hopen.took
      have hrefused := h _ hprev _ hopens
      exact Bool.noConfusion (hcheck.symm.trans hrefused)

theorem kept_tallyOfEpoch {F : Floats} (hmmp : C.mmpFeature = true)
    (hops : C.mmp = MmpPeerState.ops F C.build) (base : Tally) :
    Kept C (fun _ => True) (PrevRefuses C) (TallyOfEpoch base) where
  ordinary := .all
  booking _ _ ha hstep := ha.booking hops hstep
  reply _ _ _ _ _ _ _ _ _ _ _ := trivial
  takeUp frame s opened winner hP hopens a b now ha htaken := by
    cases htaken with
    | cur => exact ha.handOn hmmp hops opened now
    | pend resetAt _ =>
        exact (TallyOfEpoch.cutOver hmmp hops _ _ _ resetAt a).handOn hmmp hops opened now
    | prev _ => exact absurd hopens (not_opensAs_prev hP)
  cutOver a slot _ resetAt _ _ := TallyOfEpoch.cutOver hmmp hops slot .timer _ resetAt a
  sweep _ ha := ha.congr rfl rfl rfl rfl

def currentCounters (s : Steady H MmpPeerState) : List UInt64 :=
  ((sinceCutover s.trace).filter fun x => x.1 = s.cur.kr).map Prod.snd

/-- In a session with the feature `mmp` in which the previous slot opens no frame, and which has cut
over or entered its loop with an empty tally, the order and loss statistics are those of the frames
that the current receive key opened since the cutover. -/
theorem tally_of_current_epoch {F : Floats} (hmmp : C.mmpFeature = true)
    (hops : C.mmp = MmpPeerState.ops F C.build) {s₀ : Steady H MmpPeerState} (hs : Entered C s₀)
    (inputs : List Input)
    (hfresh : s₀.mmp.receiver.tally = .new ∨ hasCutOver (after C s₀ inputs).trace = true)
    (hprev : ∀ x ∈ handled C inputs s₀, PrevRefuses C x.1 x.2) :
    Tally.OfFrames .new (currentCounters (after C s₀ inputs))
      (after C s₀ inputs).mmp.receiver.tally := by
  have hstart : TallyOfEpoch s₀.mmp.receiver.tally s₀.accounts := by
    obtain ⟨ks, kr, them, policy, handler, mmp, calls⟩ := hs
    exact ⟨Tally.ofFrames_nil _, by rintro x ⟨⟩⟩
  obtain ⟨htally, hcurrent⟩ := (kept_tallyOfEpoch hmmp hops _).run inputs hprev hstart
  have hbase : (if hasCutOver (after C s₀ inputs).trace = true then Tally.new
      else s₀.mmp.receiver.tally) = .new := by
    rcases hfresh with hfresh | hcut
    · rw [hfresh, ite_self]
    · rw [if_pos hcut]
  have hcounters : currentCounters (after C s₀ inputs) =
      (sinceCutover (after C s₀ inputs).trace).map Prod.snd :=
    congrArg _ (List.filter_eq_self.mpr fun x hx => decide_eq_true (hcurrent x hx))
  rw [hcounters, ← hbase]
  exact htally

open Scenario in
theorem currentCounters_bobMeasuring (mmp : MmpPeerState) :
    currentCounters (bobMeasuring mmp) = [] :=
  rfl

open Scenario in
theorem tally_of_current_epoch_follows :
    currentCounters (after (withMmp bob) (bobMeasuring .new) bobFollows) = [0] ∧
      Tally.OfFrames .new (currentCounters (after (withMmp bob) (bobMeasuring .new) bobFollows))
        (after (withMmp bob) (bobMeasuring .new) bobFollows).mmp.receiver.tally := by
  have h : currentCounters (after (withMmp bob) (bobMeasuring .new) bobFollows) = [0] ∧
      ∀ x ∈ handled (withMmp bob) bobFollows (bobMeasuring .new),
        PrevRefuses (withMmp bob) x.1 x.2 := by
    decide +kernel
  refine ⟨h.1, ?_⟩
  exact tally_of_current_epoch (C := withMmp bob) rfl rfl (bobMeasuring_entered .new) bobFollows
    (.inl (bobMeasuring_tally .new)) h.2

open Scenario in
/-- The straggler has the counter 1, and one frame has come under the new key, with the counter 0:
the highest counter is that of the straggler, and stays so in a session that begins afterwards. -/
theorem tally_of_straggler :
    (currentCounters bobStraggled = [0] ∧
      ¬ Tally.OfFrames .new (currentCounters bobStraggled) bobStraggled.mmp.receiver.tally) ∧
    currentCounters (bobMeasuring bobStraggled.mmp) = [] ∧
      ¬ Tally.OfFrames .new (currentCounters (bobMeasuring bobStraggled.mmp))
        (bobMeasuring bobStraggled.mmp).mmp.receiver.tally := by
  have h : currentCounters bobStraggled = [0] ∧
      bobStraggled.mmp.receiver.tally.highestCounter = 1 := by
    decide +kernel
  rw [bobMeasuring_tally, currentCounters_bobMeasuring, h.1]
  generalize bobStraggled.mmp.receiver.tally = t at h ⊢
  have hnot {counters : List UInt64} (hzero : ∀ c ∈ counters, c ≤ 0) :
      ¬ Tally.OfFrames .new counters t := by
    rintro ⟨observed, rfl, rfl⟩
    have hle := Tally.highestCounter_observeAll_le observed hzero
    rw [h.2] at hle
    exact absurd hle (by decide)
  exact ⟨⟨rfl, hnot (by simp)⟩, rfl, hnot (by simp)⟩

end Steady
end Node
end Microfips
