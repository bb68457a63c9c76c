import Microfips.Node.Cutover

/-!
# Frames that come again

A session never looks at a frame it has seen as at a new one.  The window of a live epoch refuses
every frame that was received before, and no msg2 that was received before names the rekey that
is under way.  Both rest on what is asked of a session in `Fresh`: a key is not armed before
frames sealed under it are received, a frame opens under one key, and an index is new when a
rekey begins.
-/

namespace Microfips
namespace Node

open Noise Wire

def receivedFrames (tr : List Event) : List Bytes :=
  tr.filterMap fun
    | .frame (.received frame) => some frame
    | _ => none

def receiveKeys (tr : List Event) : List (Block 32) :=
  (armedKeys (keyEvents tr)).map Prod.snd

variable {H M : Type} (C : Config H M)

/-- What is asked of an event that follows the events `tr`. -/
def Event.Fresh (tr : List Event) : Event → Prop
  | .key (.armed _ _ kr _) => kr ∉ receiveKeys tr ∧
      ∀ data ∈ receivedFrames tr, openedCounter C.suite C.build kr data = none
  | .frame (.received data) => ∀ kr ∈ receiveKeys tr, ∀ kr' ∈ receiveKeys tr,
      openedCounter C.suite C.build kr data ≠ none →
      openedCounter C.suite C.build kr' data ≠ none → kr = kr'
  | .frame (.began index) => ∀ data ∈ receivedFrames tr, namedIndex C.build data ≠ some index
  | _ => True

instance decidableEventFresh (tr : List Event) : (e : Event) → Decidable (e.Fresh C tr)
  | .key (.armed _ _ kr _) => inferInstanceAs (Decidable (kr ∉ receiveKeys tr ∧
      ∀ data ∈ receivedFrames tr, openedCounter C.suite C.build kr data = none))
  | .key (.cutover _ _ _) => .isTrue trivial
  | .key (.took _ _) => .isTrue trivial
  | .key (.sealed _ _) => .isTrue trivial
  | .key (.dispatched _ _) => .isTrue trivial
  | .frame (.received data) =>
      inferInstanceAs (Decidable (∀ kr ∈ receiveKeys tr, ∀ kr' ∈ receiveKeys tr,
        openedCounter C.suite C.build kr data ≠ none →
        openedCounter C.suite C.build kr' data ≠ none → kr = kr'))
  | .frame (.sent _) => .isTrue trivial
  | .frame (.began index) => inferInstanceAs (Decidable
      (∀ data ∈ receivedFrames tr, namedIndex C.build data ≠ some index))

/-- Keys and indices are new when they are first used, and a frame opens under one key. -/
def Fresh : List Event → Prop
  | [] => True
  | e :: tr => e.Fresh C tr ∧ Fresh tr

instance decidableFresh : (tr : List Event) → Decidable (Fresh C tr)
  | [] => .isTrue trivial
  | _ :: tr =>
      have := decidableFresh tr
      inferInstanceAs (Decidable (_ ∧ _))

variable {C}

theorem Fresh.of_suffix {tr tr' : List Event} (h : tr <:+ tr') (hfresh : Fresh C tr') :
    Fresh C tr := by
  obtain ⟨new, rfl⟩ := h
  induction new with
  | nil => exact hfresh
  | cons e new ih => exact ih hfresh.2

theorem Fresh.receiveKeys_nodup {tr : List Event} (hfresh : Fresh C tr) :
    (receiveKeys tr).Nodup := by
  induction tr with
  | nil => exact List.nodup_nil
  | cons e tr ih =>
      have htr := ih hfresh.2
      cases e with
      | frame e => exact htr
      | key e =>
          cases e with
          | armed origin ks kr pendSelf => exact List.nodup_cons.mpr ⟨hfresh.1.1, htr⟩
          | _ => exact htr

@[simp]
theorem receivedFrames_key (e : KeyEvent) (tr : List Event) :
    receivedFrames (.key e :: tr) = receivedFrames tr :=
  rfl

@[simp]
theorem receivedFrames_sent (frame : Bytes) (tr : List Event) :
    receivedFrames (.frame (.sent frame) :: tr) = receivedFrames tr :=
  rfl

@[simp]
theorem receivedFrames_sentEvents_append (sent : Bool) (frame : Bytes) (tr : List Event) :
    receivedFrames (sentEvents sent frame ++ tr) = receivedFrames tr := by
  cases sent <;> rfl

@[simp]
theorem receivedFrames_map_sent_append (frames : List Bytes) (tr : List Event) :
    receivedFrames (frames.map (fun frame => .frame (.sent frame)) ++ tr) = receivedFrames tr := by
  induction frames with
  | nil => rfl
  | cons frame frames ih => exact ih

/-! ## Windows that refuse -/

namespace EpochSlot

variable {slot slot' : EpochSlot} {frame : Bytes} {c : UInt64} {r : Option DecryptedFrame}

def Sound (slot : EpochSlot) : Prop :=
  ∃ window, slot.replay.Refines window

theorem sound_new (ks kr : Block 32) (them : SessionIndex) (kBit : Bool) (origin : Origin) :
    (EpochSlot.new ks kr them kBit origin).Sound :=
  ⟨SlidingWindow.empty, ReplayWindow.new_refines⟩

variable (C) in
structure Keeps (slot slot' : EpochSlot) : Prop where
  sound : slot'.Sound
  refuses : ∀ frame, slot.Refuses C frame → slot'.Refuses C frame

theorem Sound.keeps (h : slot.Sound) : slot.Keeps C slot :=
  ⟨h, fun _ h => h⟩

theorem Sound.keeps_spent (h : slot.Sound) : slot.Keeps C slot.spent :=
  ⟨h, fun _ h => h⟩

theorem Took.refuses (hw : C.usizeBits = 64) (hsound : slot.Sound)
    (h : slot.Took C frame c slot') : slot'.Refuses C frame ∧ slot.Keeps C slot' := by
  obtain ⟨window, hrefines⟩ := hsound
  obtain ⟨hcheck, hopens, replay, haccept, rfl⟩ := h
  rw [hw] at hcheck haccept
  obtain ⟨replay', haccept', hrefines'⟩ := ReplayWindow.accept_refines hrefines hcheck
  obtain rfl : replay = replay' := Option.some.inj (haccept.symm.trans haccept')
  refine ⟨fun d hd => ?_, ⟨_, hrefines'⟩, fun g hg d hd => ?_⟩
  · obtain rfl : c = d := Option.some.inj (hopens.symm.trans hd)
    rw [hw, Bool.eq_false_iff, ne_eq, ReplayWindow.check_iff hrefines']
    exact fun hadmits => hadmits.2.not_mem_taken (Set.mem_insert _ _)
  · have hrefused := hg d hd
    rw [hw, Bool.eq_false_iff, ne_eq, ReplayWindow.check_iff hrefines] at hrefused
    rw [hw, Bool.eq_false_iff, ne_eq, ReplayWindow.check_iff hrefines']
    exact fun hadmits => hrefused ⟨hadmits.1, hadmits.2.of_take⟩

theorem Trial.refuses (hw : C.usizeBits = 64) (hsound : slot.Sound)
    (h : slot.Trial C frame r slot') : slot'.Refuses C frame ∧ slot.Keeps C slot' := by
  cases h with
  | refused h => exact ⟨h, hsound.keeps⟩
  | burnt h => exact h.refuses hw hsound
  | opened h => exact h.refuses hw hsound

end EpochSlot

theorem Missed.refuses (hw : C.usizeBits = 64) {frame : Bytes} {old new : Option EpochSlot}
    (hsound : ∀ slot ∈ old, slot.Sound) (h : Missed C frame old new) :
    ∀ slot' ∈ new, slot'.Refuses C frame ∧ ∃ slot ∈ old, slot.Keeps C slot' := by
  rintro slot' rfl
  cases h with
  | @some slot _ h =>
      obtain ⟨hrefuses, hkeeps⟩ := h.refuses hw (hsound slot rfl)
      exact ⟨hrefuses, slot, rfl, hkeeps⟩

/-! ## What stays refused -/

def NodeView.Live (v : NodeView) (slot : EpochSlot) : Prop :=
  slot ∈ v.pend ∨ slot = v.cur ∨ slot ∈ v.prev

variable (C) in
/-- The live slots refuse every frame that was received, and none of these frames answers the
rekey of our own. -/
structure Settled (v : NodeView) : Prop where
  slots : SlotsArmed v.epochs.ledger
  sound : ∀ slot, v.Live slot → slot.Sound
  refuses : ∀ slot, v.Live slot → ∀ frame ∈ receivedFrames v.trace, slot.Refuses C frame
  unnamed : ∀ ri ∈ v.rekeyInit, ∀ frame ∈ receivedFrames v.trace,
    namedIndex C.build frame ≠ some ri.ourIndex

namespace Settled

variable {v w : NodeView} {frame : Bytes}

/-- A step after which every live slot comes from one before, with the frames `new` received. -/
theorem step (hv : Settled C v) (hslots : SlotsArmed w.epochs.ledger) (new : List Bytes)
    (htrace : receivedFrames w.trace = new ++ receivedFrames v.trace)
    (hlive : ∀ slot', w.Live slot' → (∀ frame ∈ new, slot'.Refuses C frame) ∧
      ∃ slot, v.Live slot ∧ slot.Keeps C slot')
    (hri : ∀ ri ∈ w.rekeyInit, (∀ frame ∈ new, namedIndex C.build frame ≠ some ri.ourIndex) ∧
      ∃ ri' ∈ v.rekeyInit, ri'.ourIndex = ri.ourIndex) : Settled C w := by
  refine ⟨hslots, fun slot' hslot' => ?_, fun slot' hslot' g hg => ?_, fun ri hmem g hg => ?_⟩
  · obtain ⟨-, slot, -, hkeeps⟩ := hlive slot' hslot'
    exact hkeeps.sound
  · obtain ⟨hnew, slot, hslot, hkeeps⟩ := hlive slot' hslot'
    rw [htrace] at hg
    rcases List.mem_append.mp hg with hg | hg
    · exact hnew g hg
    · exact hkeeps.refuses g (hv.refuses slot hslot g hg)
  · obtain ⟨hnew, ri', hri', hindex⟩ := hri ri hmem
    rw [htrace] at hg
    rcases List.mem_append.mp hg with hg | hg
    · exact hnew g hg
    · exact hindex ▸ hv.unnamed ri' hri' g hg

theorem arm (hv : Settled C v) {origin : Origin} {ks kr : Block 32} {them : SessionIndex}
    {kBit pendSelf pendSelf' : Bool} (hslots : SlotsArmed (NodeView.epochs { v with
      pend := some (EpochSlot.new ks kr them kBit origin)
      pendSelf := pendSelf'
      trace := .key (.armed origin ks kr pendSelf) :: v.trace }).ledger)
    (hfresh : (Event.key (.armed origin ks kr pendSelf)).Fresh C v.trace) :
    Settled C { v with
      pend := some (EpochSlot.new ks kr them kBit origin)
      pendSelf := pendSelf'
      trace := .key (.armed origin ks kr pendSelf) :: v.trace } := by
  refine ⟨hslots, ?_, ?_, hv.unnamed⟩
  · rintro slot (hslot | hslot)
    · obtain rfl := Option.some.inj hslot
      exact EpochSlot.sound_new _ _ _ _ _
    · exact hv.sound slot (.inr hslot)
  · rintro slot (hslot | hslot) g hg
    · obtain rfl := Option.some.inj hslot
      intro c hc
      exact absurd (hc.symm.trans (hfresh.2 g hg)) (by simp)
    · exact hv.refuses slot (.inr hslot) g hg

theorem kr_mem (hv : Settled C v) {slot : EpochSlot} (hslot : v.Live slot) :
    slot.kr ∈ receiveKeys v.trace := by
  refine (hv.slots.map Prod.snd).subset ?_
  rcases hslot with hslot | rfl | hslot
  all_goals simp_all [NodeView.epochs, EpochView.ledger]

/-- A frame that opens under the key of one slot is refused by the slots with other keys. -/
theorem refuses_other (hv : Settled C v) (hfresh : (Event.frame (.received frame)).Fresh C v.trace)
    {slot other : EpochSlot} {c : UInt64} (hslot : v.Live slot) (hother : v.Live other)
    (hne : slot.kr ≠ other.kr) (hopens : Opens C.suite C.build slot.kr frame c) :
    other.Refuses C frame := by
  intro d hd
  refine absurd (hfresh _ (hv.kr_mem hslot) _ (hv.kr_mem hother) ?_ ?_) hne
  · rw [hopens]
    simp
  · rw [hd]
    simp

theorem distinct (hv : Settled C v) (hfresh : Fresh C v.trace) :
    (∀ slot ∈ v.pend, v.cur.kr ≠ slot.kr) ∧ (∀ slot ∈ v.prev, v.cur.kr ≠ slot.kr) ∧
      ∀ slot ∈ v.pend, ∀ slot' ∈ v.prev, slot.kr ≠ slot'.kr := by
  have hnodup := hv.slots.nodup_kr hfresh.receiveKeys_nodup
  simp only [NodeView.epochs, EpochView.ledger, List.map_append, List.map_cons,
    List.nodup_append, List.nodup_cons] at hnodup
  obtain ⟨-, ⟨hprev, -⟩, hpend⟩ := hnodup
  refine ⟨fun slot hslot heq => ?_, fun slot hslot heq => ?_, fun slot hslot slot' hslot' => ?_⟩
  · exact hpend _ (List.mem_map_of_mem (Option.mem_toList.mpr hslot)) _ List.mem_cons_self heq.symm
  · exact hprev (heq ▸ List.mem_map_of_mem (Option.mem_toList.mpr hslot))
  · exact hpend _ (List.mem_map_of_mem (Option.mem_toList.mpr hslot)) _
      (List.mem_cons_of_mem _ (List.mem_map_of_mem (Option.mem_toList.mpr hslot')))

/-- A step that leaves the slots and the rekey alone and receives a frame that no key opens. -/
theorem hear (hv : Settled C v) (hopens : ∀ kr c, ¬ Opens C.suite C.build kr frame c)
    (hnames : ∀ ri ∈ v.rekeyInit, namedIndex C.build frame ≠ some ri.ourIndex) :
    Settled C { v with trace := .frame (.received frame) :: v.trace } := by
  refine hv.step hv.slots [frame] rfl (fun slot hslot => ⟨?_, slot, hslot, ?_⟩)
    fun ri hri => ⟨?_, ri, hri, rfl⟩
  · have hrefuses : slot.Refuses C frame := fun c hc => absurd hc (hopens slot.kr c)
    simpa using hrefuses
  · exact (hv.sound slot hslot).keeps
  · simpa using hnames ri hri

theorem abandon (hv : Settled C v) : Settled C { v with rekeyInit := none } :=
  ⟨hv.slots, hv.sound, hv.refuses, by rintro ri ⟨⟩⟩

theorem of_live (hv : Settled C v) (hslots : SlotsArmed w.epochs.ledger)
    (htrace : receivedFrames w.trace = receivedFrames v.trace)
    (hlive : ∀ slot, w.Live slot → v.Live slot)
    (hri : ∀ ri ∈ w.rekeyInit, ∃ ri' ∈ v.rekeyInit, ri'.ourIndex = ri.ourIndex) : Settled C w := by
  refine hv.step hslots [] htrace (fun slot hslot => ⟨by simp, slot, hlive slot hslot, ?_⟩)
    fun ri hmem => ⟨by simp, hri ri hmem⟩
  exact (hv.sound slot (hlive slot hslot)).keeps

theorem spend (hv : Settled C v) {tr : List Event}
    (hslots : SlotsArmed (NodeView.epochs { v with cur := v.cur.spent, trace := tr }).ledger)
    (htrace : receivedFrames tr = receivedFrames v.trace) :
    Settled C { v with cur := v.cur.spent, trace := tr } := by
  refine hv.step hslots [] htrace ?_ fun ri hri => ⟨by simp, ri, hri, rfl⟩
  rintro slot' (hslot | rfl | hslot)
  · exact ⟨by simp, slot', .inl hslot, (hv.sound slot' (.inl hslot)).keeps⟩
  · exact ⟨by simp, v.cur, .inr (.inl rfl), (hv.sound v.cur (.inr (.inl rfl))).keeps_spent⟩
  · exact ⟨by simp, slot', .inr (.inr hslot), (hv.sound slot' (.inr (.inr hslot))).keeps⟩

theorem pend_keeps (hv : Settled C v) (hw : C.usizeBits = 64) {pend : Option EpochSlot}
    (h : pend = v.pend ∨ Missed C frame v.pend pend) :
    ∀ slot' ∈ pend, ∃ slot ∈ v.pend, slot.Keeps C slot' := by
  intro slot' hslot'
  rcases h with rfl | h
  · exact ⟨slot', hslot', (hv.sound slot' (.inl hslot')).keeps⟩
  · exact (h.refuses hw (fun slot hslot => hv.sound slot (.inl hslot)) slot' hslot').2

theorem cur_keeps (hv : Settled C v) (hw : C.usizeBits = 64) {cur : EpochSlot}
    (h : cur = v.cur ∨ v.cur.Trial C frame none cur) : v.cur.Keeps C cur := by
  have hsound := hv.sound v.cur (.inr (.inl rfl))
  rcases h with rfl | h
  · exact hsound.keeps
  · exact (h.refuses hw hsound).2

theorem opened (hv : Settled C v) (hw : C.usizeBits = 64)
    (hfresh : (Event.frame (.received frame)).Fresh C v.trace) (hslots : SlotsArmed w.epochs.ledger)
    (htrace : receivedFrames w.trace = frame :: receivedFrames v.trace)
    (hri : w.rekeyInit = v.rekeyInit) {slot slot' : EpochSlot} {c : UInt64} (hslot : v.Live slot)
    (hopen : slot.Took C frame c slot')
    (hlive : ∀ other', w.Live other' → other' = slot' ∨
      ∃ other, v.Live other ∧ slot.kr ≠ other.kr ∧ other.Keeps C other') : Settled C w := by
  refine hv.step hslots [frame] htrace (fun other' hother' => ?_) fun ri hmem => ?_
  · rcases hlive other' hother' with rfl | ⟨other, hother, hne, hkeeps⟩
    · obtain ⟨hrefuses, hkeeps⟩ := hopen.refuses hw (hv.sound slot hslot)
      exact ⟨by simpa using hrefuses, slot, hslot, hkeeps⟩
    · have hrefuses := hv.refuses_other hfresh hslot hother hne hopen.opens
      exact ⟨by simpa using hkeeps.refuses frame hrefuses, other, hother, hkeeps⟩
  · refine ⟨?_, ri, hri ▸ hmem, rfl⟩
    intro g hg hnames
    obtain rfl := List.mem_singleton.mp hg
    obtain ⟨senderIdx, np, hparse⟩ := parse_of_namedIndex hnames
    exact Steady.not_opens_of_parse C hparse (by simp) _ _ hopen.opens

end Settled

theorem Move.suffix {input : Option Bytes} {v w : NodeView} (h : Move C input v w) :
    v.trace <:+ w.trace := by
  cases h
  all_goals first
    | exact List.suffix_refl _
    | exact List.suffix_cons _ _
    | exact List.suffix_append _ _
    | exact ⟨[_, _], rfl⟩
    | exact ⟨[_, _, _], rfl⟩
    | exact (List.suffix_append _ _).trans (List.suffix_cons _ _)
    | exact ((List.suffix_cons _ _).trans (List.suffix_append _ _)).trans (List.suffix_cons _ _)
    | exact ((List.suffix_cons _ _).trans (List.suffix_cons _ _)).trans (List.suffix_append _ _)

namespace Settled

variable {input : Option Bytes} {v w : NodeView}

theorem slots_move (hv : Settled C v) (h : Move C input v w) : SlotsArmed w.epochs.ledger :=
  hv.slots.entries (Relation.ReflTransGen.lift' EpochView.ledger
    (fun _ _ h => EpochMove.entries C h) _ _ (Move.epochs C h))

theorem move (hv : Settled C v) (hw : C.usizeBits = 64) (h : Move C input v w)
    (hgood : Fresh C w.trace) : Settled C w := by
  have hslots := hv.slots_move h
  have hfresh : Fresh C v.trace := hgood.of_suffix h.suffix
  obtain ⟨hpendKr, hprevKr, hpendPrev⟩ := hv.distinct hfresh
  have hlive (slot : EpochSlot) (hslot : v.Live slot) := hslot
  cases h with
  | spend => exact hv.spend hslots rfl
  | sealFrame sent hframe => exact hv.spend hslots (by simp)
  | hear hinput hopens hnames => exact hv.hear hopens hnames
  | repeatMsg2 sent => exact hv.of_live hslots (by simp) hlive fun ri hri => ⟨ri, hri, rfl⟩
  | @answerIk frame np msg2 senderIdx ourIndex eph ks kr sent hinput hbuild hparse hmsg1 hanswer =>
      have hlog : Settled C { v with
          lastRekeyMsg1 := some (frame.take 128)
          lastRekeyMsg2 := some msg2
          trace := sentEvents sent msg2 ++ v.trace } :=
        hv.of_live (by simpa [NodeView.epochs] using hv.slots) (by simp) hlive
          fun ri hri => ⟨ri, hri, rfl⟩
      exact hlog.arm hslots hgood.1
  | answerXx sent => exact hv.of_live hslots (by simp) hlive fun ri hri => ⟨ri, hri, rfl⟩
  | acceptMsg3 hinput hbuild hparse =>
      have hheard := hv.hear (Steady.not_opens_of_parse C hparse (by simp))
        (by simp [namedIndex, hparse])
      have hdone : Settled C { v with rekeyHs := none, trace := _ } :=
        ⟨hheard.slots, hheard.sound, hheard.refuses, hheard.unnamed⟩
      exact hdone.arm hslots hgood.1
  | refuseMsg3 hinput hbuild hparse =>
      have hheard := hv.hear (Steady.not_opens_of_parse C hparse (by simp))
        (by simp [namedIndex, hparse])
      exact ⟨hslots, hheard.sound, hheard.refuses, hheard.unnamed⟩
  | @completeMsg2 frame np senderIdx ri ks kr frames hinput hparse hri hcompletion =>
      have hheard := hv.abandon.hear (Steady.not_opens_of_parse C hparse (by simp))
        (by rintro ri ⟨⟩)
      have hsent : Settled C { v with
          rekeyInit := none
          trace := frames.map (fun frame => .frame (.sent frame)) ++
            .frame (.received frame) :: v.trace } :=
        hheard.of_live (by simpa [NodeView.epochs] using hheard.slots) (by simp) hlive
          fun ri hri => ⟨ri, hri, rfl⟩
      exact hsent.arm hslots hgood.1
  | failMsg2 hinput hparse =>
      exact hv.abandon.hear (Steady.not_opens_of_parse C hparse (by simp)) (by rintro ri ⟨⟩)
  | @miss frame cur pend prev hinput hnames hcur hpend hprev =>
      refine hv.step hslots [frame] rfl ?_ fun ri hri =>
        ⟨by simpa using hnames ri hri, ri, hri, rfl⟩
      rintro slot' (hslot | rfl | hslot)
      · obtain ⟨hrefuses, slot, hmem, hkeeps⟩ :=
          hpend.refuses hw (fun slot h => hv.sound slot (.inl h)) slot' hslot
        exact ⟨by simpa using hrefuses, slot, .inl hmem, hkeeps⟩
      · obtain ⟨hrefuses, hkeeps⟩ := hcur.refuses hw (hv.sound v.cur (.inr (.inl rfl)))
        exact ⟨by simpa using hrefuses, v.cur, .inr (.inl rfl), hkeeps⟩
      · obtain ⟨hrefuses, slot, hmem, hkeeps⟩ :=
          hprev.refuses hw (fun slot h => hv.sound slot (.inr (.inr h))) slot' hslot
        exact ⟨by simpa using hrefuses, slot, .inr (.inr hmem), hkeeps⟩
  | openCur hinput hcur hpend =>
      refine hv.opened hw hgood.2.1 hslots rfl rfl (.inr (.inl rfl)) hcur ?_
      rintro slot' (hslot | rfl | hslot)
      · obtain ⟨slot, hmem, hkeeps⟩ := hv.pend_keeps hw hpend slot' hslot
        exact .inr ⟨slot, .inl hmem, hpendKr slot hmem, hkeeps⟩
      · exact .inl rfl
      · exact .inr ⟨slot', .inr (.inr hslot), hprevKr slot' hslot,
          (hv.sound slot' (.inr (.inr hslot))).keeps⟩
  | openPend hinput hcur hpend hopen =>
      refine hv.opened hw hgood.2.2.1 hslots rfl rfl (.inl hpend) hopen ?_
      rintro slot' (⟨⟨⟩⟩ | rfl | hslot)
      · exact .inl rfl
      · obtain rfl := Option.some.inj hslot
        exact .inr ⟨v.cur, .inr (.inl rfl), (hpendKr _ hpend).symm,
          hv.cur_keeps hw hcur⟩
  | openPrev hinput hcur hpend hprev hopen =>
      refine hv.opened hw hgood.2.1 hslots rfl rfl (.inr (.inr hprev)) hopen ?_
      rintro slot' (hslot | rfl | hslot)
      · obtain ⟨slot, hmem, hkeeps⟩ := hv.pend_keeps hw (.inr hpend) slot' hslot
        exact .inr ⟨slot, .inl hmem, (hpendPrev slot hmem _ hprev).symm, hkeeps⟩
      · exact .inr ⟨v.cur, .inr (.inl rfl), (hprevKr _ hprev).symm,
          hv.cur_keeps hw (.inr hcur)⟩
      · exact .inl (Option.some.inj hslot).symm
  | abort hinput hcur hpend =>
      refine hv.step hslots [] rfl ?_ fun ri hri => ⟨by simp, ri, hri, rfl⟩
      rintro slot' (hslot | rfl | hslot)
      · obtain ⟨slot, hmem, hkeeps⟩ := hv.pend_keeps hw hpend slot' hslot
        exact ⟨by simp, slot, .inl hmem, hkeeps⟩
      · exact ⟨by simp, v.cur, .inr (.inl rfl), hv.cur_keeps hw hcur⟩
      · exact ⟨by simp, slot', .inr (.inr hslot), (hv.sound slot' (.inr (.inr hslot))).keeps⟩
  | cutover hinput hself hpend =>
      refine hv.of_live hslots rfl ?_ fun ri hri => ⟨ri, hri, rfl⟩
      rintro slot' (⟨⟨⟩⟩ | rfl | hslot)
      · exact .inl hpend
      · exact .inr (.inl (Option.some.inj hslot).symm)
  | beginRekey hinput hri hpend hbegun =>
      refine ⟨hslots, hv.sound, hv.refuses, fun ri' hri' => ?_⟩
      obtain rfl := Option.some.inj hri'
      exact hgood.1
  | resendMsg1 _ _ sent hinput hri =>
      refine hv.of_live hslots (by simp) hlive fun ri' hri' => ⟨_, hri, ?_⟩
      rw [← Option.some.inj hri']
  | abandon => exact hv.abandon
  | drain =>
      refine hv.of_live hslots rfl ?_ fun ri hri => ⟨ri, hri, rfl⟩
      rintro slot' (hslot | hslot | ⟨⟨⟩⟩)
      · exact .inl hslot
      · exact .inr (.inl hslot)

end Settled

/-! ## A frame that comes again -/

def EpochSlot.keys (slot : EpochSlot) : Block 32 × Block 32 :=
  (slot.ks, slot.kr)

def NodeView.keys (v : NodeView) :
    (Block 32 × Block 32) × Option (Block 32 × Block 32) × Option (Block 32 × Block 32) :=
  (v.cur.keys, v.pend.map EpochSlot.keys, v.prev.map EpochSlot.keys)

theorem EpochSlot.Refuses.not_took {slot slot' : EpochSlot} {frame : Bytes} {c : UInt64}
    (h : slot.Refuses C frame) : ¬ slot.Took C frame c slot' :=
  fun htook => absurd htook.1 (by simp [h c htook.opens])

theorem EpochSlot.Refuses.trial_eq {slot slot' : EpochSlot} {frame : Bytes}
    {r : Option DecryptedFrame} (h : slot.Refuses C frame) (htrial : slot.Trial C frame r slot') :
    slot' = slot := by
  cases htrial with
  | refused => rfl
  | burnt htook => exact absurd htook h.not_took
  | opened htook => exact absurd htook h.not_took

theorem Missed.eq {frame : Bytes} {old new : Option EpochSlot}
    (hrefuses : ∀ slot ∈ old, slot.Refuses C frame) (h : Missed C frame old new) : new = old := by
  cases h with
  | none => rfl
  | some h => rw [(hrefuses _ rfl).trial_eq h]

variable (C) in
/-- The frame is nothing new to the session: no slot opens it, it does not answer the rekey of our
own, and if it is a msg1 it is the one that was answered last. -/
structure Stale (frame : Bytes) (v : NodeView) : Prop where
  refuses : ∀ slot, v.Live slot → slot.Refuses C frame
  unnamed : ∀ ri ∈ v.rekeyInit, namedIndex C.build frame ≠ some ri.ourIndex
  answered : ∀ senderIdx np, parseMessage C.build frame = some (.msg1 senderIdx np) →
    v.lastRekeyMsg1 = some (frame.take 128)

/-- A frame that is nothing new does not move the epochs of the IK build. -/
theorem Stale.move {frame : Bytes} {v w : NodeView} (hv : Stale C frame v) (hbuild : C.build = .ik)
    (h : Move C (some frame) v w) : Stale C frame w ∧ w.keys = v.keys := by
  have hpend : ∀ slot ∈ v.pend, slot.Refuses C frame :=
    fun slot hslot => hv.refuses slot (.inl hslot)
  have hcur : v.cur.Refuses C frame := hv.refuses v.cur (.inr (.inl rfl))
  have hprev : ∀ slot ∈ v.prev, slot.Refuses C frame :=
    fun slot hslot => hv.refuses slot (.inr (.inr hslot))
  have hspent : ∀ slot, NodeView.Live { v with cur := v.cur.spent } slot →
      slot.Refuses C frame := by
    rintro slot (hslot | rfl | hslot)
    · exact hpend slot hslot
    · exact hcur
    · exact hprev slot hslot
  cases h with
  | spend => exact ⟨⟨hspent, hv.unnamed, hv.answered⟩, rfl⟩
  | sealFrame => exact ⟨⟨hspent, hv.unnamed, hv.answered⟩, rfl⟩
  | hear => exact ⟨⟨hv.refuses, hv.unnamed, hv.answered⟩, rfl⟩
  | repeatMsg2 => exact ⟨⟨hv.refuses, hv.unnamed, hv.answered⟩, rfl⟩
  | answerIk sent hinput _ hparse hmsg1 =>
      obtain rfl := Option.some.inj hinput
      exact absurd (hv.answered _ _ hparse) hmsg1
  | answerXx sent hinput hxx => cases hbuild.symm.trans hxx
  | acceptMsg3 hinput hxx => cases hbuild.symm.trans hxx
  | refuseMsg3 hinput hxx => cases hbuild.symm.trans hxx
  | completeMsg2 hinput hparse hri =>
      obtain rfl := Option.some.inj hinput
      exact absurd (by simp [namedIndex, hparse]) (hv.unnamed _ hri)
  | failMsg2 hinput hparse hri =>
      obtain rfl := Option.some.inj hinput
      exact absurd (by simp [namedIndex, hparse]) (hv.unnamed _ hri)
  | miss hinput hnames htrial hmissed hmissed' =>
      obtain rfl := Option.some.inj hinput
      rw [hcur.trial_eq htrial, Missed.eq hpend hmissed, Missed.eq hprev hmissed']
      exact ⟨⟨hv.refuses, hv.unnamed, hv.answered⟩, rfl⟩
  | openCur hinput htook =>
      obtain rfl := Option.some.inj hinput
      exact absurd htook hcur.not_took
  | openPend hinput _ hmem htook =>
      obtain rfl := Option.some.inj hinput
      exact absurd htook (hpend _ hmem).not_took
  | openPrev hinput _ _ hmem htook =>
      obtain rfl := Option.some.inj hinput
      exact absurd htook (hprev _ hmem).not_took
  | abort hinput htrial hmissed =>
      obtain rfl := Option.some.inj hinput
      rw [htrial.elim id hcur.trial_eq, hmissed.elim id (Missed.eq hpend)]
      exact ⟨hv, rfl⟩
  | cutover hinput => cases hinput
  | beginRekey hinput => cases hinput
  | resendMsg1 _ _ _ hinput => cases hinput
  | abandon hinput => cases hinput
  | drain hinput => cases hinput

theorem Stale.moves {frame : Bytes} {v w : NodeView} (hv : Stale C frame v) (hbuild : C.build = .ik)
    (h : Moves C (some frame) v w) : Stale C frame w ∧ w.keys = v.keys := by
  induction h with
  | refl => exact ⟨hv, rfl⟩
  | tail _ hmove ih =>
      obtain ⟨hstale, hkeys⟩ := ih.1.move hbuild hmove
      exact ⟨hstale, hkeys.trans ih.2⟩

/-! ## Sessions -/

namespace Steady

variable (C) in
/-- A session after the inputs, when `frames` were taken out of the receive buffer in the pass
that follows them. -/
def upTo (inputs : List Input) (rbuf : Bytes) (rpos : ℕ) (frames : List Bytes) :
    Action H M PUnit := do
  run C inputs
  checkLink C
  modify fun s => { s with rbuf := rbuf, rpos := rpos }
  handleFrames C frames

variable (C) in
/-- A session that was entered as `s₀` and is about to handle a frame. -/
def TakesUp (s₀ s : Steady H M) : Prop :=
  ∃ inputs rbuf rpos frames, (upTo C inputs rbuf rpos frames).run s₀ = .ok ⟨⟩ s

variable {s : Steady H M}

theorem TakesUp.moves {s₀ : Steady H M} (h : TakesUp C s₀ s) :
    Relation.ReflTransGen (AnyMove C) s₀.view s.view := by
  obtain ⟨inputs, rbuf, rpos, frames, hrun⟩ := h
  have hsim : EStateM.Simulated view (AnyMove C) (upTo C inputs rbuf rpos frames) := by
    refine (simulated_run C inputs).bind fun _ => ?_
    refine (Simulated.any C none (simulated_checkLink C)).bind fun _ => ?_
    exact .modify_bind (fun _ => rfl) (simulated_handleFrames C frames)
  have hs := hsim s₀
  rw [EStateM.SimulatedAt, hrun] at hs
  exact hs

theorem Entered.settled (hs : Entered C s) : Settled C s.view := by
  have hslots := hs.slotsArmed
  obtain ⟨ks, kr, them, policy, handler, mmp, calls⟩ := hs
  refine ⟨hslots, ?_, by rintro slot - frame ⟨⟩, by rintro ri ⟨⟩⟩
  rintro slot (⟨⟨⟩⟩ | rfl | ⟨⟨⟩⟩)
  exact EpochSlot.sound_new _ _ _ _ _

theorem TakesUp.settled {s₀ : Steady H M} (h : TakesUp C s₀ s) (hs : Entered C s₀)
    (hw : C.usizeBits = 64) (hfresh : Fresh C s.trace) : Settled C s.view := by
  have hupholds : Trace.Upholds NodeView.trace (Fresh C) (Settled C) s₀.view s.view := by
    refine Trace.Upholds.of_reflTransGen Fresh.of_suffix (fun v w h => ?_) h.moves
    obtain ⟨input, hmove⟩ := h
    exact ⟨hmove.suffix, fun hv hgood => hv.move hw hmove hgood⟩
  exact hupholds.2 hs.settled hfresh

end Steady

namespace Scenario

def aliceNextMsg1 : Bytes :=
  lastSent .msg1 (Steady.after alice aliceStart (aliceRekeys ++ [.timer]))

def bobBefore (inputs : List Steady.Input) : Steady PUnit PUnit :=
  ((Steady.upTo bob inputs [] 0 []).run bobStart).state

theorem bobBefore_takesUp {inputs : List Steady.Input}
    (h : ((Steady.upTo bob inputs [] 0 []).run bobStart).isOk = true) :
    Steady.TakesUp bob bobStart (bobBefore inputs) :=
  ⟨inputs, [], 0, [], EStateM.Result.eq_ok_of_isOk h⟩

end Scenario

namespace Steady

/-- On a target with a `usize` of 64 bits, in a session of the IK build whose events are fresh, a
frame that was received before leaves the keys in `cur`, `pend` and `prev` as they are, unless it
is a msg1 other than the one that was answered last. -/
theorem keys_eq_of_received (hbuild : C.build = .ik) (hw : C.usizeBits = 64) {s₀ s : Steady H M}
    (hs : Entered C s₀) (h : TakesUp C s₀ s) (hfresh : Fresh C s.trace) {frame : Bytes}
    (hframe : frame ∈ receivedFrames s.trace)
    (hmsg1 : ∀ senderIdx np, parseMessage C.build frame = some (.msg1 senderIdx np) →
      s.lastRekeyMsg1 = some (frame.take 128)) :
    ((handleFrame C frame).run s).state.view.keys = s.view.keys := by
  have hsettled := h.settled hs hw hfresh
  have hstale : Stale C frame s.view :=
    ⟨fun slot hslot => hsettled.refuses slot hslot frame hframe,
      fun ri hri => hsettled.unnamed ri hri frame hframe, hmsg1⟩
  exact (hstale.moves hbuild (simulated_handleFrame C frame s)).2

open Scenario in
theorem keys_eq_of_received_msg1 :
    aliceMsg1 ∈ receivedFrames (bobBefore [.recv aliceMsg1, .recv aliceProof]).trace ∧
      ((handleFrame bob aliceMsg1).run
          (bobBefore [.recv aliceMsg1, .recv aliceProof])).state.view.keys =
        (bobBefore [.recv aliceMsg1, .recv aliceProof]).view.keys := by
  have h : ((upTo bob [.recv aliceMsg1, .recv aliceProof] [] 0 []).run bobStart).isOk = true ∧
      Fresh bob (bobBefore [.recv aliceMsg1, .recv aliceProof]).trace ∧
      aliceMsg1 ∈ receivedFrames (bobBefore [.recv aliceMsg1, .recv aliceProof]).trace ∧
      (bobBefore [.recv aliceMsg1, .recv aliceProof]).lastRekeyMsg1 =
        some (aliceMsg1.take 128) := by
    decide +kernel
  obtain ⟨hok, h⟩ := h
  have htakes := bobBefore_takesUp hok
  -- from here on the state is not to be evaluated again
  generalize bobBefore [.recv aliceMsg1, .recv aliceProof] = s at h htakes ⊢
  exact ⟨h.2.1, keys_eq_of_received rfl rfl bobStart_entered htakes h.1 h.2.1 fun _ _ _ => h.2.2⟩

open Scenario in
/-- `bob` answers two rekeys of `alice` and then receives the msg1 of the first one again: it is
answered once more, with new keys in `pend`. -/
theorem keys_ne_of_received_msg1 :
    TakesUp bob bobStart
        (bobBefore [.recv aliceMsg1, .recv aliceProof, .recv aliceNextMsg1]) ∧
      aliceMsg1 ∈ receivedFrames
        (bobBefore [.recv aliceMsg1, .recv aliceProof, .recv aliceNextMsg1]).trace ∧
      ((handleFrame bob aliceMsg1).run
          (bobBefore [.recv aliceMsg1, .recv aliceProof, .recv aliceNextMsg1])).state.view.keys ≠
        (bobBefore [.recv aliceMsg1, .recv aliceProof, .recv aliceNextMsg1]).view.keys := by
  have h : ((upTo bob [.recv aliceMsg1, .recv aliceProof, .recv aliceNextMsg1] [] 0 []).run
        bobStart).isOk = true ∧
      aliceMsg1 ∈ receivedFrames
        (bobBefore [.recv aliceMsg1, .recv aliceProof, .recv aliceNextMsg1]).trace ∧
      ((handleFrame bob aliceMsg1).run
          (bobBefore [.recv aliceMsg1, .recv aliceProof, .recv aliceNextMsg1])).state.view.keys ≠
        (bobBefore [.recv aliceMsg1, .recv aliceProof, .recv aliceNextMsg1]).view.keys := by
    decide +kernel
  exact ⟨bobBefore_takesUp h.1, h.2⟩

end Steady

end Node
end Microfips
