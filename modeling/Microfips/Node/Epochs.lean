import Microfips.Node.Machine

/-!
# The epoch machine

The rekey machine without its handshakes: what a session does with its key epochs alone.
Counters are taken and frames sealed under the current epoch, frames are opened under the live
ones, slots are armed, promoted and drained.
-/

namespace Microfips
namespace Node

open Noise Wire

structure EpochView where
  cur : EpochSlot
  pend : Option EpochSlot
  prev : Option EpochSlot
  pendSelf : Bool
  trace : List KeyEvent

variable {H M : Type} (C : Config H M)

inductive EpochMove : EpochView → EpochView → Prop where
  /-- A counter is taken and not used. -/
  | spend (v : EpochView) :
      EpochMove v { v with
        cur := v.cur.spent
        trace := .took v.cur.ks v.cur.sendCtr :: v.trace }
  /-- A frame is sealed under the next counter. -/
  | sealFrame (v : EpochView) :
      EpochMove v { v with
        cur := v.cur.spent
        trace := .sealed v.cur.ks v.cur.sendCtr :: .took v.cur.ks v.cur.sendCtr :: v.trace }
  /-- A rekey of the peer arms a slot. -/
  | armPeer (v : EpochView) (ks kr : Block 32) (them : SessionIndex) :
      EpochMove v { v with
        pend := some (EpochSlot.new ks kr them (!v.cur.kBit) .peer)
        trace := .armed .peer ks kr v.pendSelf :: v.trace }
  /-- A rekey of our own arms a slot. -/
  | armOwn (v : EpochView) (ks kr : Block 32) (them : SessionIndex) :
      EpochMove v { v with
        pend := some (EpochSlot.new ks kr them (!v.cur.kBit) .own)
        pendSelf := true
        trace := .armed .own ks kr v.pendSelf :: v.trace }
  /-- The timer promotes the pending slot. -/
  | cutover {v : EpochView} {slot : EpochSlot} (hself : v.pendSelf = true)
      (hpend : v.pend = some slot) :
      EpochMove v { v with
        cur := slot
        pend := none
        prev := some v.cur
        pendSelf := false
        trace := .cutover slot.origin slot.kr .timer :: v.trace }
  /-- A slot opens a frame in which there is no message. -/
  | burnCur {v : EpochView} {frame : Bytes} {c : UInt64} {slot : EpochSlot}
      (h : v.cur.Took C frame c slot) : EpochMove v { v with cur := slot }
  | burnPend {v : EpochView} {frame : Bytes} {c : UInt64} {old slot : EpochSlot}
      (hpend : v.pend = some old) (h : old.Took C frame c slot) :
      EpochMove v { v with pend := some slot }
  | burnPrev {v : EpochView} {frame : Bytes} {c : UInt64} {old slot : EpochSlot}
      (hprev : v.prev = some old) (h : old.Took C frame c slot) :
      EpochMove v { v with prev := some slot }
  /-- The current slot opens a frame. -/
  | openCur {v : EpochView} {frame : Bytes} {c : UInt64} {slot : EpochSlot}
      (h : v.cur.Took C frame c slot) :
      EpochMove v { v with cur := slot, trace := .dispatched slot.kr c :: v.trace }
  /-- The previous slot opens a frame. -/
  | openPrev {v : EpochView} {frame : Bytes} {c : UInt64} {old slot : EpochSlot}
      (hprev : v.prev = some old) (h : old.Took C frame c slot) :
      EpochMove v { v with prev := some slot, trace := .dispatched slot.kr c :: v.trace }
  /-- The pending slot opens a frame and is promoted. -/
  | openPend {v : EpochView} {frame : Bytes} {c : UInt64} {old slot : EpochSlot}
      (hpend : v.pend = some old) (h : old.Took C frame c slot) :
      EpochMove v { v with
        cur := slot
        pend := none
        prev := some v.cur
        trace := .dispatched slot.kr c :: .cutover slot.origin slot.kr (.proof frame) :: v.trace }
  /-- The previous slot is retired. -/
  | drain (v : EpochView) : EpochMove v { v with prev := none }

abbrev EpochMoves : EpochView → EpochView → Prop :=
  Relation.ReflTransGen (EpochMove C)

def keyEvents (tr : List Event) : List KeyEvent :=
  tr.filterMap Event.key?

@[simp]
theorem keyEvents_key (e : KeyEvent) (tr : List Event) :
    keyEvents (.key e :: tr) = e :: keyEvents tr :=
  rfl

@[simp]
theorem keyEvents_frame (e : FrameEvent) (tr : List Event) :
    keyEvents (.frame e :: tr) = keyEvents tr :=
  rfl

@[simp]
theorem keyEvents_sentEvents_append (sent : Bool) (frame : Bytes) (tr : List Event) :
    keyEvents (sentEvents sent frame ++ tr) = keyEvents tr := by
  cases sent <;> rfl

@[simp]
theorem keyEvents_map_sent_append (frames : List Bytes) (tr : List Event) :
    keyEvents (frames.map (fun frame => .frame (.sent frame)) ++ tr) = keyEvents tr := by
  induction frames with
  | nil => rfl
  | cons frame frames ih => exact ih

def NodeView.epochs (v : NodeView) : EpochView where
  cur := v.cur
  pend := v.pend
  prev := v.prev
  pendSelf := v.pendSelf
  trace := keyEvents v.trace

variable {v : EpochView} {frame : Bytes}

theorem epochMoves_cur {cur : EpochSlot} (h : cur = v.cur ∨ v.cur.Trial C frame none cur) :
    EpochMoves C v { v with cur := cur } := by
  obtain rfl | h := h
  · exact .refl
  · cases h with
    | refused => exact .refl
    | burnt h => exact .single (.burnCur h)

theorem epochMoves_pend {pend : Option EpochSlot} (h : pend = v.pend ∨ Missed C frame v.pend pend) :
    EpochMoves C v { v with pend := pend } := by
  obtain ⟨cur, old, prev, pendSelf, trace⟩ := v
  obtain rfl | h := h
  · exact .refl
  · cases h with
    | none => exact .refl
    | some h =>
        cases h with
        | refused => exact .refl
        | burnt h => exact .single (.burnPend rfl h)

theorem epochMoves_prev {prev : Option EpochSlot} (h : Missed C frame v.prev prev) :
    EpochMoves C v { v with prev := prev } := by
  obtain ⟨cur, pend, old, pendSelf, trace⟩ := v
  cases h with
  | none => exact .refl
  | some h =>
      cases h with
      | refused => exact .refl
      | burnt h => exact .single (.burnPrev rfl h)

theorem Move.epochs {input : Option Bytes} {v w : NodeView} (h : Move C input v w) :
    EpochMoves C v.epochs w.epochs := by
  cases h with
  | spend => exact .single (.spend v.epochs)
  | sealFrame sent hframe =>
      simpa [NodeView.epochs] using .single (.sealFrame v.epochs)
  | hear => exact .refl
  | repeatMsg2 sent => simpa [NodeView.epochs] using .refl
  | answerIk sent => simpa [NodeView.epochs] using .single (.armPeer v.epochs _ _ _)
  | answerXx sent => simpa [NodeView.epochs] using .refl
  | acceptMsg3 => exact .single (.armPeer v.epochs _ _ _)
  | refuseMsg3 => exact .refl
  | completeMsg2 => simpa [NodeView.epochs] using .single (.armOwn v.epochs _ _ _)
  | failMsg2 => exact .refl
  | miss hinput hnames hcur hpend hprev =>
      refine (epochMoves_cur C (v := v.epochs) (.inr hcur)).trans ?_
      refine (epochMoves_pend C (v := { v.epochs with cur := _ }) (.inr hpend)).trans ?_
      exact epochMoves_prev C (v := { v.epochs with cur := _, pend := _ }) hprev
  | openCur hinput hcur hpend =>
      exact (epochMoves_pend C (v := v.epochs) hpend).trans (.single (.openCur hcur))
  | openPend hinput hcur hpend hopen =>
      exact (epochMoves_cur C (v := v.epochs) hcur).trans (.single (.openPend hpend hopen))
  | openPrev hinput hcur hpend hprev hopen =>
      refine (epochMoves_cur C (v := v.epochs) (.inr hcur)).trans ?_
      exact (epochMoves_pend C (v := { v.epochs with cur := _ }) (.inr hpend)).trans
        (.single (.openPrev hprev hopen))
  | abort hinput hcur hpend =>
      exact (epochMoves_cur C (v := v.epochs) hcur).trans
        (epochMoves_pend C (v := { v.epochs with cur := _ }) hpend)
  | cutover hinput hself hpend => exact .single (.cutover hself hpend)
  | beginRekey => exact .refl
  | resendMsg1 _ _ sent => simpa [NodeView.epochs] using .refl
  | abandon => exact .refl
  | drain => exact .single (.drain v.epochs)

theorem Steady.run_epochMoves (s : Steady H M) (inputs : List Steady.Input) :
    EpochMoves C s.view.epochs (Steady.after C s inputs).view.epochs :=
  Relation.ReflTransGen.lift' NodeView.epochs (fun _ _ h => h.elim fun _ h => Move.epochs C h) _ _
    (Steady.simulated_run C inputs s)

end Node
end Microfips
