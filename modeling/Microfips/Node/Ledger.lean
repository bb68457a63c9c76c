import Microfips.Data.CounterLog
import Microfips.Data.Trace
import Microfips.Noise.Additive
import Microfips.Node.Epochs

/-!
# The ledger of a session

A ledger lists the live slots of a session, newest first, beside the trace of its keys.  A slot
enters the list when it is armed, keeps its place when it goes from `pend` to `cur` and from
`cur` to `prev`, and is never copied.  So its counter and its window stay with its keys: no
counter is used twice under a send key, and no frame is handed on twice under a receive key.
-/

namespace Microfips
namespace Node

open Noise Wire

def armedKeys (tr : List KeyEvent) : List (Block 32 × Block 32) :=
  tr.filterMap fun
    | .armed _ ks kr _ => some (ks, kr)
    | _ => none

def takenCounters (tr : List KeyEvent) : List (Block 32 × UInt64) :=
  tr.filterMap fun
    | .took ks c => some (ks, c)
    | _ => none

def sealedCounters (tr : List KeyEvent) : List (Block 32 × UInt64) :=
  tr.filterMap fun
    | .sealed ks c => some (ks, c)
    | _ => none

def dispatchedCounters (tr : List KeyEvent) : List (Block 32 × UInt64) :=
  tr.filterMap fun
    | .dispatched kr c => some (kr, c)
    | _ => none

abbrev Ledger : Type :=
  List EpochSlot × List KeyEvent

def EpochView.ledger (v : EpochView) : Ledger :=
  (v.pend.toList ++ v.cur :: v.prev.toList, v.trace)

variable {H M : Type} (C : Config H M)

inductive Entry : Ledger → Ledger → Prop where
  /-- Slots are dropped. -/
  | drop {live live' : List EpochSlot} (tr : List KeyEvent) (h : live'.Sublist live) :
      Entry (live, tr) (live', tr)
  /-- A slot is armed. -/
  | arm (live : List EpochSlot) (tr : List KeyEvent) (ks kr : Block 32) (them : SessionIndex)
      (kBit : Bool) (origin : Origin) (pendSelf : Bool) :
      Entry (live, tr)
        (EpochSlot.new ks kr them kBit origin :: live, .armed origin ks kr pendSelf :: tr)
  /-- A slot is promoted. -/
  | promote (live : List EpochSlot) (tr : List KeyEvent) (origin : Origin) (kr : Block 32)
      (cause : Cutover) : Entry (live, tr) (live, .cutover origin kr cause :: tr)
  /-- The counter of a slot is taken. -/
  | spend (newer : List EpochSlot) (slot : EpochSlot) (older : List EpochSlot)
      (tr : List KeyEvent) :
      Entry (newer ++ slot :: older, tr)
        (newer ++ slot.spent :: older,
          .took slot.ks slot.sendCtr :: tr)
  /-- The counter of a slot is taken and used. -/
  | sealFrame (newer : List EpochSlot) (slot : EpochSlot) (older : List EpochSlot)
      (tr : List KeyEvent) :
      Entry (newer ++ slot :: older, tr)
        (newer ++ slot.spent :: older,
          .sealed slot.ks slot.sendCtr :: .took slot.ks slot.sendCtr :: tr)
  /-- A slot opens a frame in which there is no message. -/
  | burn (newer : List EpochSlot) {slot slot' : EpochSlot} (older : List EpochSlot)
      (tr : List KeyEvent) {frame : Bytes} {c : UInt64} (h : slot.Took C frame c slot') :
      Entry (newer ++ slot :: older, tr) (newer ++ slot' :: older, tr)
  /-- A slot opens a frame, which is handed on. -/
  | dispatch (newer : List EpochSlot) {slot slot' : EpochSlot} (older : List EpochSlot)
      (tr : List KeyEvent) {frame : Bytes} {c : UInt64} (h : slot.Took C frame c slot') :
      Entry (newer ++ slot :: older, tr) (newer ++ slot' :: older, .dispatched slot'.kr c :: tr)

abbrev Entries : Ledger → Ledger → Prop :=
  Relation.ReflTransGen (Entry C)

theorem EpochMove.entries {v w : EpochView} (h : EpochMove C v w) :
    Entries C v.ledger w.ledger := by
  obtain ⟨cur, pend, prev, pendSelf, tr⟩ := v
  cases h with
  | spend => exact .single (.spend _ _ _ _)
  | sealFrame => exact .single (.sealFrame _ _ _ _)
  | armPeer ks kr them =>
      have hdrop : (cur :: prev.toList).Sublist (pend.toList ++ cur :: prev.toList) :=
        List.sublist_append_right _ _
      exact .tail (.single (.drop _ hdrop)) (.arm _ _ _ _ _ _ _ _)
  | armOwn ks kr them =>
      have hdrop : (cur :: prev.toList).Sublist (pend.toList ++ cur :: prev.toList) :=
        List.sublist_append_right _ _
      exact .tail (.single (.drop _ hdrop)) (.arm _ _ _ _ _ _ _ _)
  | @cutover slot hself hpend =>
      obtain rfl : pend = some slot := hpend
      have hdrop : [slot, cur].Sublist (slot :: cur :: prev.toList) :=
        List.Sublist.cons_cons slot (List.sublist_append_left [cur] prev.toList)
      exact .tail (.single (.drop _ hdrop)) (.promote _ _ _ _ _)
  | burnCur h => exact .single (.burn _ _ _ h)
  | @burnPend _ _ old slot hpend h =>
      obtain rfl : pend = some old := hpend
      exact .single (.burn [] _ _ h)
  | @burnPrev _ _ old slot hprev h =>
      obtain rfl : prev = some old := hprev
      simpa [EpochView.ledger] using
        Relation.ReflTransGen.single (Entry.burn (pend.toList ++ [cur]) [] tr h)
  | openCur h => exact .single (.dispatch _ _ _ h)
  | @openPrev _ _ old slot hprev h =>
      obtain rfl : prev = some old := hprev
      simpa [EpochView.ledger] using
        Relation.ReflTransGen.single (Entry.dispatch (pend.toList ++ [cur]) [] tr h)
  | @openPend frame _ old slot hpend h =>
      obtain rfl : pend = some old := hpend
      have hdrop : [old, cur].Sublist (old :: cur :: prev.toList) :=
        List.Sublist.cons_cons old (List.sublist_append_left [cur] prev.toList)
      exact .tail (.tail (.single (.drop _ hdrop))
        (.promote _ _ slot.origin slot.kr (.proof frame)))
        (.dispatch [] [cur] _ h)
  | drain => exact .single (.drop _ (by simp))

theorem Steady.run_entries (s : Steady H M) (inputs : List Steady.Input) :
    Entries C s.view.epochs.ledger (Steady.after C s inputs).view.epochs.ledger :=
  Relation.ReflTransGen.lift' EpochView.ledger (fun _ _ h => EpochMove.entries C h) _ _
    (Steady.run_epochMoves C s inputs)

def SlotsArmed (l : Ledger) : Prop :=
  (l.1.map fun slot => (slot.ks, slot.kr)).Sublist (armedKeys l.2)

variable {C}

theorem SlotsArmed.entry {l l' : Ledger} (hl : SlotsArmed l) (h : Entry C l l') :
    SlotsArmed l' := by
  cases h with
  | drop tr h => exact (h.map _).trans hl
  | arm live tr ks kr them kBit origin pendSelf => exact List.Sublist.cons_cons (ks, kr) hl
  | promote => exact hl
  | spend newer slot older tr => simpa [SlotsArmed, armedKeys] using hl
  | sealFrame newer slot older tr => simpa [SlotsArmed, armedKeys] using hl
  | burn newer older tr h => simpa [SlotsArmed, armedKeys, h.ks_eq, h.kr_eq] using hl
  | dispatch newer older tr h => simpa [SlotsArmed, armedKeys, h.ks_eq, h.kr_eq] using hl

theorem SlotsArmed.entries {l l' : Ledger} (hl : SlotsArmed l) (h : Entries C l l') :
    SlotsArmed l' := by
  induction h with
  | refl => exact hl
  | tail _ hentry ih => exact ih.entry hentry

/-- A property of the live slots survives the change of one of them, if it survives on slots with
other keys and holds of the changed one. -/
theorem forall_mem_change {key : EpochSlot → Block 32} {P Q : EpochSlot → Prop}
    {newer older : List EpochSlot} {slot slot' : EpochSlot}
    (hnodup : ((newer ++ slot :: older).map key).Nodup)
    (hP : ∀ x ∈ newer ++ slot :: older, P x) (hslot : P slot → Q slot')
    (hother : ∀ x, key x ≠ key slot → P x → Q x) : ∀ x ∈ newer ++ slot' :: older, Q x := by
  rw [List.map_append, List.map_cons, List.nodup_middle, List.nodup_cons] at hnodup
  intro x hx
  rcases List.mem_append.mp hx with hx | hx
  · have hkey : key x ≠ key slot := fun heq =>
      hnodup.1 (heq ▸ List.mem_append_left _ (List.mem_map_of_mem hx))
    exact hother x hkey (hP x (List.mem_append_left _ hx))
  · rcases List.mem_cons.mp hx with rfl | hx
    · exact hslot (hP slot (List.mem_append_right _ List.mem_cons_self))
    · have hkey : key x ≠ key slot := fun heq =>
        hnodup.1 (heq ▸ List.mem_append_right _ (List.mem_map_of_mem hx))
      exact hother x hkey (hP x (List.mem_append_right _ (List.mem_cons_of_mem _ hx)))

/-! ## Send counters -/

def SendKeysFresh (tr : List KeyEvent) : Prop :=
  ((armedKeys tr).map Prod.fst).Nodup

instance (tr : List KeyEvent) : Decidable (SendKeysFresh tr) :=
  inferInstanceAs (Decidable (List.Nodup _))

theorem SendKeysFresh.of_suffix {tr tr' : List KeyEvent} (h : tr <:+ tr')
    (hfresh : SendKeysFresh tr') : SendKeysFresh tr :=
  ((h.sublist.filterMap _).map _).nodup hfresh

theorem SlotsArmed.nodup_ks {l : Ledger} (hl : SlotsArmed l) (hfresh : SendKeysFresh l.2) :
    (l.1.map EpochSlot.ks).Nodup := by
  have hsub := hl.map Prod.fst
  rw [List.map_map] at hsub
  exact hsub.nodup hfresh

structure CountersFollow (l : Ledger) : Prop where
  slots : SlotsArmed l
  sequential : CounterLog.Sequential (takenCounters l.2)
  sealed : (sealedCounters l.2).Sublist (takenCounters l.2)
  armed : ∀ e ∈ takenCounters l.2, e.1 ∈ (armedKeys l.2).map Prod.fst
  tracks : ∀ slot ∈ l.1, CounterLog.Tracks (takenCounters l.2) slot.ks slot.sendCtr

namespace CountersFollow

variable {l l' : Ledger}

theorem ks_mem {newer older : List EpochSlot} {slot : EpochSlot} {tr : List KeyEvent}
    (hl : SlotsArmed (newer ++ slot :: older, tr)) : slot.ks ∈ (armedKeys tr).map Prod.fst := by
  refine (hl.map Prod.fst).subset ?_
  simp

theorem spend {newer older : List EpochSlot} {slot : EpochSlot} {tr : List KeyEvent}
    (hl : CountersFollow (newer ++ slot :: older, tr)) (hfresh : SendKeysFresh tr) :
    CountersFollow (newer ++ slot.spent :: older,
      .took slot.ks slot.sendCtr :: tr) where
  slots := by simpa [SlotsArmed, armedKeys] using hl.slots
  sequential := hl.sequential.take (hl.tracks slot (by simp))
  sealed := hl.sealed.cons _
  armed := by
    intro e he
    rcases List.mem_cons.mp he with rfl | he
    · exact ks_mem hl.slots
    · exact hl.armed e he
  tracks := forall_mem_change (hl.slots.nodup_ks hfresh) hl.tracks (fun h => h.take)
    fun _ hne h => h.cons_of_ne hne.symm

/-- While send keys stay fresh, an entry keeps the counters with their keys. -/
theorem entry (hl : CountersFollow l) (h : Entry C l l') (hfresh : SendKeysFresh l'.2) :
    CountersFollow l' := by
  have hslots := hl.slots.entry h
  cases h with
  | drop tr h =>
      exact { hl with slots := hslots, tracks := fun slot hslot => hl.tracks slot (h.subset hslot) }
  | arm live tr ks kr them kBit origin pendSelf =>
      refine ⟨hslots, hl.sequential, hl.sealed, fun e he => ?_, fun slot hslot => ?_⟩
      · exact List.mem_cons_of_mem _ (hl.armed e he)
      · rcases List.mem_cons.mp hslot with rfl | hslot
        · -- the new key was not used before
          apply CounterLog.Tracks.of_forall_ne
          intro e he heq
          obtain rfl : e.1 = ks := heq
          exact (List.nodup_cons.mp hfresh).1 (hl.armed e he)
        · exact hl.tracks slot hslot
  | promote => exact ⟨hslots, hl.sequential, hl.sealed, hl.armed, hl.tracks⟩
  | spend newer slot older tr => exact hl.spend hfresh
  | sealFrame newer slot older tr =>
      have hspend := hl.spend hfresh
      exact ⟨hslots, hspend.sequential, hl.sealed.cons_cons _, hspend.armed, hspend.tracks⟩
  | burn newer older tr h =>
      refine ⟨hslots, hl.sequential, hl.sealed, hl.armed, ?_⟩
      refine forall_mem_change (hl.slots.nodup_ks hfresh) hl.tracks ?_ fun _ _ h => h
      rw [h.eq]
      exact id
  | dispatch newer older tr h =>
      refine ⟨hslots, hl.sequential, hl.sealed, hl.armed, ?_⟩
      refine forall_mem_change (hl.slots.nodup_ks hfresh) hl.tracks ?_ fun _ _ h => h
      rw [h.eq]
      exact id

end CountersFollow

/-! ## Receive windows -/

def ReceiveKeysFresh (tr : List KeyEvent) : Prop :=
  ((armedKeys tr).map Prod.snd).Nodup

instance (tr : List KeyEvent) : Decidable (ReceiveKeysFresh tr) :=
  inferInstanceAs (Decidable (List.Nodup _))

theorem ReceiveKeysFresh.of_suffix {tr tr' : List KeyEvent} (h : tr <:+ tr')
    (hfresh : ReceiveKeysFresh tr') : ReceiveKeysFresh tr :=
  ((h.sublist.filterMap _).map _).nodup hfresh

theorem SlotsArmed.nodup_kr {l : Ledger} (hl : SlotsArmed l) (hfresh : ReceiveKeysFresh l.2) :
    (l.1.map EpochSlot.kr).Nodup := by
  have hsub := hl.map Prod.snd
  rw [List.map_map] at hsub
  exact hsub.nodup hfresh

/-- The window of a slot stands for one that has taken every counter handed on under its key. -/
def EpochSlot.Remembers (tr : List KeyEvent) (slot : EpochSlot) : Prop :=
  ∃ window, slot.replay.Refines window ∧
    ∀ c, (slot.kr, c) ∈ dispatchedCounters tr → c.toNat ∈ window.taken

namespace EpochSlot.Remembers

variable {tr : List KeyEvent} {slot slot' : EpochSlot} {frame : Bytes} {c : UInt64}

theorem new {ks kr : Block 32} {them : SessionIndex} {kBit : Bool} {origin : Origin}
    (h : ∀ e ∈ dispatchedCounters tr, e.1 ≠ kr) :
    (EpochSlot.new ks kr them kBit origin).Remembers tr :=
  ⟨SlidingWindow.empty, ReplayWindow.new_refines, fun c hc => absurd rfl (h (kr, c) hc)⟩

/-- On a target with a `usize` of 64 bits a counter that was handed on is not opened again. -/
theorem not_mem (h : slot.Remembers tr) (hw : C.usizeBits = 64)
    (htook : slot.Took C frame c slot') : (slot.kr, c) ∉ dispatchedCounters tr := by
  obtain ⟨window, hrefines, hmem⟩ := h
  rw [Took, hw] at htook
  have hadmits := (ReplayWindow.check_iff hrefines c).mp htook.1
  exact fun hc => hadmits.2.not_mem_taken (hmem c hc)

theorem took (h : slot.Remembers tr) (hw : C.usizeBits = 64)
    (htook : slot.Took C frame c slot') :
    slot'.Remembers tr ∧ slot'.Remembers (.dispatched slot'.kr c :: tr) := by
  obtain ⟨window, hrefines, hmem⟩ := h
  obtain ⟨hcheck, -, replay, haccept, rfl⟩ := htook
  rw [hw] at hcheck haccept
  obtain ⟨replay', haccept', hrefines'⟩ := ReplayWindow.accept_refines hrefines hcheck
  obtain rfl : replay = replay' := Option.some.inj (haccept.symm.trans haccept')
  refine ⟨⟨_, hrefines', fun d hd => .inr (hmem d hd)⟩, _, hrefines', fun d hd => ?_⟩
  rcases List.mem_cons.mp hd with heq | hd
  · obtain rfl : d = c := (Prod.mk.inj heq).2
    exact .inl rfl
  · exact .inr (hmem d hd)

theorem cons_of_ne {kr : Block 32} (h : slot.Remembers tr) (hne : slot.kr ≠ kr) :
    slot.Remembers (.dispatched kr c :: tr) := by
  obtain ⟨window, hrefines, hmem⟩ := h
  refine ⟨window, hrefines, fun d hd => ?_⟩
  rcases List.mem_cons.mp hd with heq | hd
  · exact absurd (Prod.mk.inj heq).1 hne
  · exact hmem d hd

end EpochSlot.Remembers

structure WindowsFollow (l : Ledger) : Prop where
  slots : SlotsArmed l
  nodup : (dispatchedCounters l.2).Nodup
  armed : ∀ e ∈ dispatchedCounters l.2, e.1 ∈ (armedKeys l.2).map Prod.snd
  remembers : ∀ slot ∈ l.1, slot.Remembers l.2

/-- While receive keys stay fresh, an entry keeps the windows with their keys. -/
theorem WindowsFollow.entry {l l' : Ledger} (hl : WindowsFollow l) (hw : C.usizeBits = 64)
    (h : Entry C l l') (hfresh : ReceiveKeysFresh l'.2) : WindowsFollow l' := by
  have hslots := hl.slots.entry h
  cases h with
  | drop tr h =>
      exact { hl with
        slots := hslots
        remembers := fun slot hslot => hl.remembers slot (h.subset hslot) }
  | arm live tr ks kr them kBit origin pendSelf =>
      refine ⟨hslots, hl.nodup, fun e he => ?_, fun slot hslot => ?_⟩
      · exact List.mem_cons_of_mem _ (hl.armed e he)
      · rcases List.mem_cons.mp hslot with rfl | hslot
        · refine .new fun e he heq => ?_
          subst heq
          exact (List.nodup_cons.mp hfresh).1 (hl.armed e he)
        · exact hl.remembers slot hslot
  | promote => exact ⟨hslots, hl.nodup, hl.armed, hl.remembers⟩
  | spend newer slot older tr =>
      refine ⟨hslots, hl.nodup, hl.armed, ?_⟩
      exact forall_mem_change (hl.slots.nodup_kr hfresh) hl.remembers id fun _ _ h => h
  | sealFrame newer slot older tr =>
      refine ⟨hslots, hl.nodup, hl.armed, ?_⟩
      exact forall_mem_change (hl.slots.nodup_kr hfresh) hl.remembers id fun _ _ h => h
  | burn newer older tr h =>
      refine ⟨hslots, hl.nodup, hl.armed, ?_⟩
      exact forall_mem_change (hl.slots.nodup_kr hfresh) hl.remembers (fun hs => (hs.took hw h).1)
        fun _ _ h => h
  | @dispatch newer slot slot' older tr _ c h =>
      have hkr := h.kr_eq
      have hslot := hl.remembers slot (by simp)
      refine ⟨hslots, ?_, fun e he => ?_, ?_⟩
      · exact List.nodup_cons.mpr ⟨hkr ▸ hslot.not_mem hw h, hl.nodup⟩
      · rcases List.mem_cons.mp he with rfl | he
        · refine (hl.slots.map Prod.snd).subset ?_
          simp [hkr]
        · exact hl.armed e he
      · exact forall_mem_change (hl.slots.nodup_kr hfresh) hl.remembers
          (fun hs => (hs.took hw h).2) fun x hne hx => hx.cons_of_ne (hkr ▸ hne)

/-! ## Sessions -/

theorem Entry.suffix {l l' : Ledger} (h : Entry C l l') : l.2 <:+ l'.2 := by
  cases h with
  | drop => exact List.suffix_refl _
  | arm => exact List.suffix_cons _ _
  | promote => exact List.suffix_cons _ _
  | spend => exact List.suffix_cons _ _
  | sealFrame => exact ⟨[_, _], rfl⟩
  | burn => exact List.suffix_refl _
  | dispatch => exact List.suffix_cons _ _

namespace Steady

variable {s : Steady H M}

theorem Entered.slotsArmed (hs : Entered C s) : SlotsArmed s.view.epochs.ledger := by
  obtain ⟨ks, kr, them, policy, handler, mmp, calls⟩ := hs
  exact List.Sublist.refl [(ks, kr)]

theorem Entered.countersFollow (hs : Entered C s) : CountersFollow s.view.epochs.ledger := by
  have hslots := hs.slotsArmed
  obtain ⟨ks, kr, them, policy, handler, mmp, calls⟩ := hs
  refine ⟨hslots, trivial, List.Sublist.refl _, by rintro e ⟨⟩, fun slot hslot => ?_⟩
  obtain rfl := List.mem_singleton.mp hslot
  exact CounterLog.Tracks.of_forall_ne (by rintro e ⟨⟩)

theorem Entered.windowsFollow (hs : Entered C s) : WindowsFollow s.view.epochs.ledger := by
  have hslots := hs.slotsArmed
  obtain ⟨ks, kr, them, policy, handler, mmp, calls⟩ := hs
  refine ⟨hslots, List.nodup_nil, by rintro e ⟨⟩, fun slot hslot => ?_⟩
  obtain rfl := List.mem_singleton.mp hslot
  exact .new (by rintro e ⟨⟩)

end Steady

namespace Scenario

def quiet : NodeHandler PUnit where
  onEvent _ _ h := h
  onMessage _ _ _ h := (.none, h)
  pollAt _ := none
  onTick _ h := (.none, h)

def unmeasured : MmpOps PUnit where
  resetForRekey _ m := m
  recordRecv _ _ _ _ m := m
  recordSent _ _ _ m := m
  onSenderReport _ _ m := (none, m)
  onReceiverReport _ _ m := m
  buildSenderReport _ m := (none, m)
  buildReceiverReport _ m := (none, m)
  senderReportInterval _ := fromSecs 10
  receiverReportInterval _ := fromSecs 10

/-- An IK node on the additive suite, with the static secret `self` and the pinned peer `peer`: it
rekeys after one message, and a call of the world takes it a fifth of a second. -/
def config (self peer : UInt8) : Config PUnit PUnit where
  suite := Additive.suite
  build := .ik
  mmpFeature := true
  usizeBits := 64
  timing := { NodeTiming.default with rekeyAfterMessages := 1, heartbeatIntervalSecs := 1 }
  nsec := (Additive.keypair self).secret
  peerNpub := (Additive.keypair peer).pub
  rawFraming := true
  ourProfile := .leaf
  peerWantsSr := false
  peerWantsRr := false
  epoch := Block.replicate 8 self
  handler := quiet
  mmp := unmeasured
  world := {
    clock := fun n => fromMillis (200 * n)
    ephemeral := fun n => Block.replicate 32 (UInt8.ofNat (10 * self.toNat + n))
    index := fun n => UInt32.ofNat (100 * self.toNat + n)
    sendOk := fun _ => true }

def alice : Config PUnit PUnit := config 1 3

def bob : Config PUnit PUnit := config 3 1

def policy : PeerPolicy where
  frameRateWindowMs := 1000
  linkDeadTimeoutSecs := 30
  frameCount := 0
  frameWindowStart := 0
  dataFramesRecv := 0
  heartbeatsRecv := 0
  sessionStart := some 0
  consecutiveBadFrames := 0
  totalBadFrames := 0

def start (C : Config PUnit PUnit) (ks kr : UInt8) : Steady PUnit PUnit :=
  Steady.enter C (Block.replicate 32 ks) (Block.replicate 32 kr) 0 policy ⟨⟩ ⟨⟩ 0

def aliceStart : Steady PUnit PUnit := start alice 7 8

def bobStart : Steady PUnit PUnit := start bob 8 7

theorem aliceStart_entered : Steady.Entered alice aliceStart :=
  .intro _ _ _ _ _ _ _

theorem bobStart_entered : Steady.Entered bob bobStart :=
  .intro _ _ _ _ _ _ _

def lastSent (phase : FmpPhase) (s : Steady PUnit PUnit) : Bytes :=
  (s.frameTrace.findSome? fun
    | .sent data => if data.headD 0 = phase.toUInt8 then some data else none
    | _ => none).getD []

def aliceMsg1 : Bytes := lastSent .msg1 (Steady.after alice aliceStart [.timer, .timer])

def bobMsg2 : Bytes := lastSent .msg2 (Steady.after bob bobStart [.recv aliceMsg1])

def aliceRekeys : List Steady.Input := [.timer, .timer, .recv bobMsg2, .timer, .timer]

def aliceProof : Bytes := lastSent .established (Steady.after alice aliceStart aliceRekeys)

def bobFollows : List Steady.Input := [.recv aliceMsg1, .recv aliceProof, .recv aliceProof]

end Scenario

namespace Steady

/-- In a session whose handshakes gave different send keys and that took at most `2 ^ 64` counters
under each of them, no two frames are sealed with the same key and counter. -/
theorem sealedCounters_nodup {s : Steady H M} (hs : Entered C s) (inputs : List Input)
    (hkeys : SendKeysFresh (keysAfter C s inputs))
    (hsends : ∀ ks, CounterLog.uses (takenCounters (keysAfter C s inputs)) ks ≤ 2 ^ 64) :
    (sealedCounters (keysAfter C s inputs)).Nodup := by
  have hupholds := Trace.Upholds.of_reflTransGen SendKeysFresh.of_suffix
    (fun l l' h => ⟨h.suffix, fun hl hgood => CountersFollow.entry hl h hgood⟩)
    (run_entries C s inputs)
  have hfollow : CountersFollow (after C s inputs).view.epochs.ledger :=
    hupholds.2 hs.countersFollow hkeys
  exact hfollow.sealed.nodup (hfollow.sequential.nodup hsends)

open Scenario in
theorem sealedCounters_nodup_rekey :
    (sealedCounters (keysAfter alice aliceStart aliceRekeys)).length = 3 ∧
      (sealedCounters (keysAfter alice aliceStart aliceRekeys)).Nodup := by
  have h : (sealedCounters (keysAfter alice aliceStart aliceRekeys)).length = 3 ∧
      SendKeysFresh (keysAfter alice aliceStart aliceRekeys) ∧
      (takenCounters (keysAfter alice aliceStart aliceRekeys)).length ≤ 2 ^ 64 := by
    decide +kernel
  exact ⟨h.1, sealedCounters_nodup aliceStart_entered _ h.2.1
    fun ks => (CounterLog.uses_le_length _ ks).trans h.2.2⟩

/-- On a target with a `usize` of 64 bits, in a session whose handshakes gave different receive
keys, no frame is handed on twice: no receive key and counter comes up again. -/
theorem dispatchedCounters_nodup (hw : C.usizeBits = 64) {s : Steady H M} (hs : Entered C s)
    (inputs : List Input) (hkeys : ReceiveKeysFresh (keysAfter C s inputs)) :
    (dispatchedCounters (keysAfter C s inputs)).Nodup := by
  have hupholds := Trace.Upholds.of_reflTransGen ReceiveKeysFresh.of_suffix
    (fun l l' h => ⟨h.suffix, fun hl hgood => WindowsFollow.entry hl hw h hgood⟩)
    (run_entries C s inputs)
  have hfollow : WindowsFollow (after C s inputs).view.epochs.ledger :=
    hupholds.2 hs.windowsFollow hkeys
  exact hfollow.nodup

open Scenario in
theorem dispatchedCounters_nodup_rekey :
    (dispatchedCounters (keysAfter bob bobStart bobFollows)).length = 1 ∧
      (dispatchedCounters (keysAfter bob bobStart bobFollows)).Nodup := by
  have h : (dispatchedCounters (keysAfter bob bobStart bobFollows)).length = 1 ∧
      ReceiveKeysFresh (keysAfter bob bobStart bobFollows) := by
    decide +kernel
  exact ⟨h.1, dispatchedCounters_nodup rfl bobStart_entered _ h.2⟩

end Steady
end Node
end Microfips
