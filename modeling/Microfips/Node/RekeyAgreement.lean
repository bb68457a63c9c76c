import Microfips.Data.Rollover
import Microfips.Data.Runs
import Microfips.Node.Channel
import Microfips.Node.Repeats
import Microfips.Wire.Stream

/-!
# Rekeys of two nodes

Two nodes in `steady` whose frames reach each other in order and without loss.  Seen through its
epochs a node is a party to a key rollover.  As long as neither arms a slot over one that is still
pending, each node can open what the other seals, up to an epoch that it drained before the other
one had left it.  Nothing in the code keeps a slot from being armed over another: an answered msg1
and a completed rekey both write `pend`.  Two nodes that begin a rekey at once each overwrite the
slot that the other is about to cut over to, and from then on neither opens a frame of the other.
-/

namespace Microfips
namespace Node

open Noise Wire

/-- Whether the node began the handshake of a slot; `first` says so of the first handshake. -/
def Origin.isOwn (first : Bool) : Origin → Bool
  | .initial => first
  | .own => true
  | .peer => false

def armedSlots (first : Bool) (tr : List KeyEvent) : List (Bool × Block 32 × Block 32) :=
  tr.filterMap fun
    | .armed origin ks kr _ => some (origin.isOwn first, ks, kr)
    | _ => none

/-- A session as a party to a key rollover. -/
def EpochView.party (first : Bool) (v : EpochView) : Rollover.Party (Block 32) where
  cur := v.cur.keys
  pend := v.pend.map fun slot => (slot.origin.isOwn first, slot.keys)
  prev := v.prev.map EpochSlot.keys
  claimed := v.pendSelf
  armed := armedSlots first v.trace
  used := (sealedCounters v.trace).map Prod.fst

def slotPending : List KeyEvent → Bool
  | [] => false
  | .armed origin _ _ _ :: _ => origin != .initial
  | .cutover _ _ _ :: _ => false
  | _ :: tr => slotPending tr

/-- The last event armed a slot over one that was pending. -/
def armsOver : List KeyEvent → Bool
  | .armed _ _ _ _ :: tr => slotPending tr
  | _ => false

/-- What the peer has to do with an event: it armed the slot first if the handshake is our own,
and it sealed under the key of a frame that proves an epoch. -/
def KeyEvent.backed (first : Bool) (peer : List KeyEvent) : KeyEvent → Bool
  | .armed origin ks kr _ =>
      (armedSlots (!first) peer).contains (false, kr, ks) == origin.isOwn first
  | .cutover _ kr (.proof _) => ((sealedCounters peer).map Prod.fst).contains kr
  | _ => true

/-- The exchanges of a node with its peer agree, and different handshakes gave different keys. -/
@[mk_iff]
structure Genuine (first : Bool) (peer tr : List KeyEvent) : Prop where
  backed : ∀ e ∈ tr, e.backed first peer
  nodup : (armedKeys tr).Nodup
  same : ∀ k ∈ armedKeys tr, ∀ l ∈ armedKeys peer, l.1 = k.2 → l = k.swap

/-- Besides, no slot was armed over one that was pending. -/
@[mk_iff]
structure Orderly (first : Bool) (peer tr : List KeyEvent) : Prop extends
    Genuine first peer tr where
  uncrossed : ∀ l ∈ tr.tails, armsOver l = false

instance (first : Bool) (peer tr : List KeyEvent) : Decidable (Genuine first peer tr) :=
  decidable_of_iff _ (genuine_iff first peer tr).symm

instance (first : Bool) (peer tr : List KeyEvent) : Decidable (Orderly first peer tr) :=
  decidable_of_iff _ (orderly_iff first peer tr).symm

variable {H M : Type} {C : Config H M} {first : Bool} {v v' w : EpochView}

theorem Orderly.of_suffix {peer tr tr' : List KeyEvent} (h : tr <:+ tr')
    (hgood : Orderly first peer tr') : Orderly first peer tr where
  backed e he := hgood.backed e (h.subset he)
  nodup := (h.sublist.filterMap _).nodup hgood.nodup
  same k hk := hgood.same k ((h.sublist.filterMap _).subset hk)
  uncrossed l hl := by
    rw [List.mem_tails] at hl
    exact hgood.uncrossed l ((List.mem_tails _ _).mpr (hl.trans h))

theorem EpochSlot.Took.keys_eq {slot slot' : EpochSlot} {frame : Bytes} {c : UInt64}
    (h : slot.Took C frame c slot') : slot'.keys = slot.keys := by
  rw [h.eq]
  rfl

theorem party_slots (first : Bool) (v : EpochView) :
    (v.party first).slots = armedKeys v.trace := by
  rw [Rollover.Party.slots, EpochView.party, armedSlots, List.map_filterMap, armedKeys]
  congr 1
  funext e
  cases e <;> rfl

structure Agreeing (first : Bool) (w v : EpochView) : Prop where
  pending : v.pend.isSome = slotPending v.trace
  paired : Rollover.Paired (v.party first) (w.party !first)

namespace Agreeing

theorem arm {origin : Origin} {ks kr : Block 32} {flag : Bool} (hv : Agreeing first w v)
    (hgood : Orderly first w.trace (.armed origin ks kr flag :: v.trace)) :
    Rollover.Step (w.party !first) (v.party first)
      ((v.party first).arm (origin.isOwn first, ks, kr)) := by
  refine .arm ?_ ?_ ?_
  · have hover := hgood.uncrossed _ ((List.mem_tails _ _).mpr List.suffix_rfl)
    rw [armsOver, ← hv.pending] at hover
    simpa [EpochView.party] using hover
  · rw [party_slots]
    exact (List.nodup_cons.mp hgood.nodup).1
  · have hback := hgood.backed _ List.mem_cons_self
    rw [KeyEvent.backed, beq_iff_eq] at hback
    simp [EpochView.party, ← hback]

/-- A move of the node is a step of the party, or nothing to it. -/
theorem party (hv : Agreeing first w v) (h : EpochMove C v v')
    (hgood : Orderly first w.trace v'.trace) :
    v'.party first = v.party first ∨
      Rollover.Step (w.party !first) (v.party first) (v'.party first) := by
  cases h with
  | spend => exact .inl rfl
  | sealFrame => exact .inr (.use _)
  | armPeer ks kr them => exact .inr (hv.arm hgood)
  | armOwn ks kr them => exact .inr (hv.arm hgood)
  | @cutover slot hself hpend =>
      exact .inr (.cutover (p := (slot.origin.isOwn first, slot.keys)) hself
        (by simp [EpochView.party, hpend]))
  | burnCur h => exact .inl (by simp [EpochView.party, h.keys_eq])
  | burnPend hpend h => exact .inl (by simp [EpochView.party, hpend, h.keys_eq, h.origin_eq])
  | burnPrev hprev h => exact .inl (by simp [EpochView.party, hprev, h.keys_eq])
  | openCur h => exact .inl (by simp [EpochView.party, h.keys_eq, armedSlots, sealedCounters])
  | openPrev hprev h =>
      exact .inl (by simp [EpochView.party, hprev, h.keys_eq, armedSlots, sealedCounters])
  | @openPend _ _ old slot hpend h =>
      have hold : (v.party first).pend = some (old.origin.isOwn first, old.keys) := by
        simp [EpochView.party, hpend]
      have hused : old.kr ∈ (w.party !first).used := by
        simpa [KeyEvent.backed, EpochView.party, h.kr_eq] using
          hgood.backed _ (List.mem_cons_of_mem _ List.mem_cons_self)
      have hmem : old.keys ∈ armedKeys v.trace := by
        rw [← party_slots first]
        exact Rollover.Party.mem_slots (hv.paired.left.pend _ hold)
      have hstep := Rollover.Step.proof hold hused (by
        rw [party_slots]
        exact hgood.same _ hmem)
      simpa [EpochView.party, Rollover.Party.promote, h.keys_eq, armedSlots, sealedCounters] using
        Or.inr hstep
  | drain => exact .inr (.drop _)

theorem move (hv : Agreeing first w v) (h : EpochMove C v v')
    (hgood : Orderly first w.trace v'.trace) : Agreeing first w v' := by
  have hparty := hv.party h hgood
  refine ⟨?_, ?_⟩
  · have hpending := hv.pending
    cases h with
    | burnPend hpend h => simpa [hpend] using hpending
    | _ => first | exact hpending | rfl
  · rcases hparty with heq | hstep
    · rw [heq]
      exact hv.paired
    · exact hv.paired.step hstep

theorem moves (hv : Agreeing first w v) (h : EpochMoves C v v')
    (hgood : Orderly first w.trace v'.trace) : Agreeing first w v' := by
  have hupholds : Trace.Upholds EpochView.trace (Orderly first w.trace) (Agreeing first w) v v' :=
    .of_reflTransGen Orderly.of_suffix (fun _ _ h => ⟨h.suffix, fun hv => hv.move h⟩) h
  exact hupholds.2 hv hgood

end Agreeing

/-- Two nodes, and how many of the frames that each of them sent have been delivered. -/
structure Link (H M : Type) where
  node : Bool → Steady H M
  delivered : Bool → ℕ

namespace Link

inductive Act where
  | tick (side : Bool)
  | deliver (side : Bool)

/-- The frames of a side that are on their way, oldest first. -/
def inFlight (l : Link H M) (side : Bool) : List Bytes :=
  (l.node side).sentFrames.drop (l.delivered side)

variable (C : Bool → Config H M)

/-- A pass of the loop of one side, if it does not end the session. -/
def pass (l : Link H M) (side : Bool) (input : Steady.Input) : Option (Link H M) :=
  match (Steady.run (C side) [input]).run (l.node side) with
  | .ok _ s => some { l with node := Function.update l.node side s }
  | .error _ _ => none

/-- A tick of the timer of a side, or the delivery of the next frame to it. -/
def step (l : Link H M) : Act → Option (Link H M)
  | .tick side => l.pass C side .timer
  | .deliver side =>
      match l.inFlight !side with
      | [] => none
      | frame :: _ =>
          let taken := Function.update l.delivered (!side) (l.delivered (!side) + 1)
          let chunk := if (C side).rawFraming then frame else encodeFrame frame
          pass C { l with delivered := taken } side (.recv chunk)

structure Entered (l : Link H M) : Prop where
  entered : ∀ side, (l.node side).Entered (C side)
  shared : (l.node true).cur.keys = (l.node false).cur.keys.swap

def Genuine (l : Link H M) : Prop :=
  ∀ side, Node.Genuine side (l.node !side).keyTrace (l.node side).keyTrace

def Orderly (l : Link H M) : Prop :=
  ∀ side, Node.Orderly side (l.node !side).keyTrace (l.node side).keyTrace

/-- No handshake frame is on its way, and no rekey waits for an answer. -/
def Settled (l : Link H M) : Prop :=
  ∀ side, (l.node side).rekeyInit.isNone ∧
    ∀ frame ∈ l.inFlight side, frame.headD 0 = FmpPhase.established.toUInt8

/-- The other side can open what a side seals. -/
def Agrees (l : Link H M) (side : Bool) : Prop :=
  let other := l.node !side
  (l.node side).cur.ks ∈ (other.pend.toList ++ other.cur :: other.prev.toList).map EpochSlot.kr

/-- The other side has retired its previous epoch, and this side has yet to promote the one that
the other side has gone on to. -/
def Lags (l : Link H M) (side : Bool) : Prop :=
  let other := l.node !side
  other.prev.isNone ∧ (l.node side).pend.map EpochSlot.keys = some other.cur.keys.swap

instance (l : Link H M) : Decidable l.Genuine :=
  inferInstanceAs (Decidable (∀ _, _))

instance (l : Link H M) : Decidable l.Orderly :=
  inferInstanceAs (Decidable (∀ _, _))

instance (l : Link H M) : Decidable l.Settled :=
  inferInstanceAs (Decidable (∀ _, _))

instance (l : Link H M) (side : Bool) : Decidable (l.Agrees side) :=
  inferInstanceAs (Decidable (_ ∈ _))

instance (l : Link H M) (side : Bool) : Decidable (l.Lags side) :=
  inferInstanceAs (Decidable (_ ∧ _))

def Agreeing (l : Link H M) : Prop :=
  ∀ side, Node.Agreeing side (l.node !side).view.epochs (l.node side).view.epochs

variable {C} {l m : Link H M}

theorem Entered.agreeing (h : Entered C l) : l.Agreeing := by
  have hentered (side first : Bool) :
      (l.node side).view.epochs.pend.isSome = slotPending (l.node side).view.epochs.trace ∧
      (l.node side).view.epochs.party first = ⟨(l.node side).cur.keys, none, none, false,
        [(first, (l.node side).cur.keys)], []⟩ := by
    generalize l.node side = s, h.entered side = hs
    cases hs
    exact ⟨rfl, rfl⟩
  have hpaired : Rollover.Paired ((l.node true).view.epochs.party true)
      ((l.node false).view.epochs.party false) := by
    rw [(hentered true true).2, (hentered false false).2, h.shared]
    simpa using Rollover.Paired.start (l.node false).cur.keys.swap
  intro side
  refine ⟨(hentered side side).1, ?_⟩
  cases side with
  | true => exact hpaired
  | false => exact hpaired.symm

theorem Agreeing.pass {side : Bool} {input : Steady.Input} (h : l.Agreeing)
    (hpass : l.pass C side input = some m) (hgood : m.Orderly) : m.Agreeing := by
  rw [Link.pass] at hpass
  split at hpass
  · rename_i s hrun
    obtain rfl := Option.some.inj hpass
    have hmoves := Steady.run_epochMoves (C side) (l.node side) [input]
    rw [Steady.after, hrun] at hmoves
    have hgood : Node.Orderly side (l.node !side).keyTrace s.keyTrace := by
      simpa [Function.update_of_ne] using hgood side
    have hs := (h side).moves hmoves hgood
    intro side'
    rcases Bool.eq_or_eq_not side' side with rfl | rfl
    · simpa [Function.update_of_ne] using hs
    · exact ⟨by simpa [Function.update_of_ne] using (h !side).pending,
        by simpa [Function.update_of_ne] using hs.paired.symm⟩
  · cases hpass

theorem Agreeing.step {act : Act} (h : l.Agreeing) (hstep : l.step C act = some m)
    (hgood : m.Orderly) : m.Agreeing := by
  cases act with
  | tick side => exact h.pass hstep hgood
  | deliver side =>
      rw [Link.step] at hstep
      split at hstep
      · cases hstep
      · refine Agreeing.pass ?_ hstep hgood
        exact h

theorem Agreeing.agrees {side : Bool} (h : l.Agreeing) (hlags : ¬ l.Lags side) :
    l.Agrees side := by
  have hmem {slot : EpochSlot} (hslot : (l.node !side).view.Live slot)
      (hkeys : slot.keys = (l.node side).cur.keys.swap) : l.Agrees side :=
    List.mem_map.mpr ⟨slot, by simpa [NodeView.Live, Steady.view] using hslot,
      congrArg Prod.snd hkeys⟩
  rcases (h side).paired.opens with (hcur | ⟨p, hp, hkeys⟩ | hprev) | ⟨hprev, hpend⟩
  · exact hmem (.inr (.inl rfl)) hcur
  · obtain ⟨slot, hslot, rfl⟩ := Option.mem_map.mp hp
    exact hmem (.inl hslot) hkeys
  · obtain ⟨slot, hslot, hkeys⟩ := Option.mem_map.mp hprev
    exact hmem (.inr (.inr hslot)) hkeys
  · obtain ⟨slot, hslot, heq⟩ := Option.map_eq_some_iff.mp hpend
    refine absurd ⟨Option.isNone_iff_eq_none.mpr (Option.map_eq_none_iff.mp hprev), ?_⟩ hlags
    exact Option.map_eq_some_iff.mpr ⟨slot, hslot, (Prod.mk.inj heq).2⟩

theorem Agreeing.keys_eq (h : l.Agreeing) (hpend : ∀ side, (l.node side).pend = none) :
    (l.node true).cur.keys = (l.node false).cur.keys.swap :=
  (h true).paired.sync (congrArg (Option.map _) (hpend true))
    (congrArg (Option.map _) (hpend false))

end Link

namespace Scenario

def linked (side : Bool) : Config PUnit PUnit :=
  bif side then alice else bob

def link : Link PUnit PUnit where
  node side := bif side then aliceStart else bobStart
  delivered _ := 0

theorem link_entered : Link.Entered linked link :=
  ⟨Bool.rec bobStart_entered aliceStart_entered, rfl⟩

def followed : List Link.Act :=
  [.tick true, .tick true, .deliver false, .deliver false, .deliver true, .deliver true,
    .tick true, .tick true, .deliver false, .deliver false, .deliver false]

/-- Both begin a rekey before the msg1 of the other comes. -/
def crossing : List Link.Act :=
  [.tick true, .tick true, .tick false, .tick false, .deliver false, .deliver true,
    .deliver false, .deliver true, .deliver false, .deliver true, .deliver false, .deliver true,
    .tick true, .tick false]

end Scenario

namespace Link

open Scenario

/-- The rekeys of the two cross, their exchanges agree, and in the end neither opens what the other
seals. -/
theorem not_agrees_crossing :
    ∃ m ∈ Runs.run (step linked) link crossing,
      m.Genuine ∧ m.Settled ∧ ∀ side, ¬ m.Agrees side := by
  decide +kernel

end Link
end Node
end Microfips
