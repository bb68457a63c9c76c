import Mathlib.Data.List.Infix
import Microfips.EspNow.Fragment

/-!
# The slot of the ESP-NOW gateway

`PeerSlot`, file `espnow_peer.rs`, the radio table that it drives, file `esp_now_transport.rs`, and
the direction from the radio to USB of the gateway, file `espnow_gateway.rs`.  The first station
that is heard owns the slot as long as it is not silent for longer than a minute; what others send
meanwhile is dropped before it reaches the reassembler.  So the three stay in step: the radio table
holds the owner, and the reassembler only what the owner sent since it owns the slot.
-/

namespace Microfips
namespace EspNow

def activeHoldMs : ℕ := 60000

inductive PeerSlotAction where
  | register (mac : Mac)
  | swap (remove add : Mac)
  | keep
  | ignore
  deriving DecidableEq

structure PeerSlot where
  mac : Option Mac
  lastSeenMs : ℕ
  deriving DecidableEq

namespace PeerSlot

def new : PeerSlot where
  mac := none
  lastSeenMs := 0

def observe (self : PeerSlot) (src : Mac) (nowMs : ℕ) : PeerSlotAction × PeerSlot :=
  match self.mac with
  | some current =>
      if current = src then
        (.keep, { self with lastSeenMs := nowMs })
      else if nowMs - self.lastSeenMs ≤ activeHoldMs then
        (.ignore, self)
      else
        (.swap current src, { mac := some src, lastSeenMs := nowMs })
  | none => (.register src, { mac := some src, lastSeenMs := nowMs })

end PeerSlot

/-- `ensure_radio_peer` on the unicast entries of the radio table; `added` is the result of the
radio. -/
def ensureRadioPeer (peers : List Mac) (mac : Mac) (added : Bool) : List Mac :=
  if peers.contains mac then peers else if added then mac :: peers else peers

/-- `apply_slot_action`; `removed` and `added` are the results of the radio. -/
def applySlotAction (peers : List Mac) (removed added : Bool) : PeerSlotAction → List Mac
  | .ignore => peers
  | .keep => peers
  | .register mac => ensureRadioPeer peers mac added
  | .swap remove add =>
      ensureRadioPeer (if removed then peers.erase remove else peers) add added

/-- A frame that the gateway receives, with the time, the results of the radio table and whether the
two writes to USB complete. -/
structure Received where
  src : Mac
  payload : Bytes
  nowMs : ℕ
  removed : Bool
  added : Bool
  lengthWritten : Bool
  frameWritten : Bool
  deriving DecidableEq

def Received.chunk (e : Received) : Bytes :=
  e.payload.drop fragHeaderLen

/-- The loop of `espnow_to_usb`, with the radio table and `PEER_MAC`. -/
structure EspNowToUsb where
  reassembler : SrcReassembler
  slot : PeerSlot
  peers : List Mac
  peerMac : Option Mac
  deriving DecidableEq

namespace EspNowToUsb

def start : EspNowToUsb where
  reassembler := SrcReassembler.new
  slot := .new
  peers := []
  peerMac := none

def step (e : Received) : EStateM (Fault Empty) EspNowToUsb (Option Bytes) := fun s =>
  let (action, slot) := s.slot.observe e.src e.nowMs
  if action = .ignore then
    .ok none { s with slot }
  else
    let s := { s with
      slot
      peers := applySlotAction s.peers e.removed e.added action
      peerMac := slot.mac }
    match (SrcReassembler.push e.src e.payload).run s.reassembler with
    | .error f reassembler => .error f { s with reassembler }
    | .ok none reassembler => .ok none { s with reassembler }
    | .ok (some frame) reassembler =>
        .ok (if e.lengthWritten ∧ e.frameWritten then some frame else none) { s with reassembler }

def after (s : EspNowToUsb) (e : Received) : EspNowToUsb :=
  ((step e).run s).state

def run (s : EspNowToUsb) (events : List Received) : EspNowToUsb :=
  events.foldl after s

variable {s : EspNowToUsb} {e : Received} {past : List Received}

/-- The slot with its table: the owner, and nothing else, is registered. -/
def TableIsOwner (s : EspNowToUsb) : Prop :=
  s.peers = s.slot.mac.toList

/-- A frame of the owner, or of a station that becomes it: the slot, the table and the reassembler
take it. -/
theorem step_taken (action : PeerSlotAction) (hne : action ≠ .ignore)
    (hobserve : s.slot.observe e.src e.nowMs = (action, ⟨some e.src, e.nowMs⟩))
    (hpeers : applySlotAction s.peers e.removed e.added action = [e.src]) :
    ∃ out t, (Reassembler.push e.payload).run (s.reassembler.readied e.src) = .ok out t ∧
      (step e).run s = .ok (if e.lengthWritten ∧ e.frameWritten then out else none)
        ⟨⟨t, some e.src⟩, ⟨some e.src, e.nowMs⟩, [e.src], some e.src⟩ := by
  obtain ⟨out, t, hpush⟩ := Reassembler.push_returns e.payload (s.reassembler.readied e.src)
  refine ⟨out, t, hpush, ?_⟩
  rw [EStateM.run, step, hobserve]
  dsimp only
  rw [if_neg hne, hpeers, SrcReassembler.push_run hpush]
  cases out with
  | none => simp
  | some frame => rfl

/-- A frame is ignored while another station holds the slot, and taken otherwise. -/
theorem step_cases (htable : s.TableIsOwner) (hradio : e.removed = true ∧ e.added = true) :
    (∃ owner, s.slot.mac = some owner ∧ owner ≠ e.src ∧
      e.nowMs - s.slot.lastSeenMs ≤ activeHoldMs ∧ (step e).run s = .ok none s) ∨
    ((∀ owner, s.slot.mac = some owner →
        owner = e.src ∨ activeHoldMs < e.nowMs - s.slot.lastSeenMs) ∧
      ∃ out t, (Reassembler.push e.payload).run (s.reassembler.readied e.src) = .ok out t ∧
        (step e).run s = .ok (if e.lengthWritten ∧ e.frameWritten then out else none)
          ⟨⟨t, some e.src⟩, ⟨some e.src, e.nowMs⟩, [e.src], some e.src⟩) := by
  rw [TableIsOwner] at htable
  cases hmac : s.slot.mac with
  | none =>
      right
      rw [hmac] at htable
      refine ⟨by rintro _ ⟨⟩, ?_⟩
      apply step_taken (.register e.src)
      · rintro ⟨⟩
      · rw [PeerSlot.observe, hmac]
      · rw [applySlotAction, htable, ensureRadioPeer, hradio.2]
        rfl
  | some owner =>
      rw [hmac] at htable
      by_cases hsame : owner = e.src
      · right
        refine ⟨fun owner' howner' => .inl (Option.some.inj howner' ▸ hsame), ?_⟩
        apply step_taken .keep
        · rintro ⟨⟩
        · rw [PeerSlot.observe, hmac]
          dsimp only
          rw [if_pos hsame, hsame]
        · rw [applySlotAction, htable, hsame]
          rfl
      · by_cases hheld : e.nowMs - s.slot.lastSeenMs ≤ activeHoldMs
        · left
          refine ⟨owner, rfl, hsame, hheld, ?_⟩
          rw [EStateM.run, step, PeerSlot.observe, hmac]
          dsimp only
          rw [if_neg hsame, if_pos hheld]
          rfl
        · right
          refine ⟨fun _ _ => .inr (Nat.lt_of_not_le hheld), ?_⟩
          apply step_taken (.swap owner e.src)
          · rintro ⟨⟩
          · rw [PeerSlot.observe, hmac]
            dsimp only
            rw [if_neg hsame, if_neg hheld]
          · rw [applySlotAction, htable, hradio.1, hradio.2]
            simp [ensureRadioPeer]

theorem run_append (events : List Received) (e : Received) :
    start.run (events ++ [e]) = (start.run events).after e := by
  rw [run, run, List.foldl_append]
  rfl

/-- The station owns the slot behind each frame of the later ones. -/
def Owns (src : Mac) (before during : List Received) : Prop :=
  ∀ some, some <+: during → some ≠ [] → (start.run (before ++ some)).slot.mac = .some src

theorem Owns.concat {src : Mac} {before during : List Received} (h : Owns src before during)
    (hlast : (start.run (before ++ during ++ [e])).slot.mac = some src) :
    Owns src before (during ++ [e]) := by
  intro some hsome hne
  rcases List.prefix_concat_iff.mp hsome with rfl | hsome
  · rwa [← List.append_assoc]
  · exact h some hsome hne

/-- The bytes are the chunks of frames of the station, received one behind the other in a time
during which it owned the slot. -/
def CollectedFrom (src : Mac) (past : List Received) (bytes : Bytes) : Prop :=
  ∃ before during : List Received, past = before ++ during ∧ Owns src before during ∧
    ∃ fragments : List Received, fragments.Sublist during ∧ (∀ f ∈ fragments, f.src = src) ∧
      bytes = fragments.flatMap Received.chunk

theorem collectedFrom_chunk (h : (start.run (past ++ [e])).slot.mac = some e.src) :
    CollectedFrom e.src (past ++ [e]) e.chunk := by
  refine ⟨past, [e], rfl, ?_, [e], .refl _, ?_, ?_⟩
  · have hnil : Owns e.src past [] := fun some hsome hne =>
      absurd (List.prefix_nil.mp hsome) hne
    exact hnil.concat (by rwa [List.append_nil])
  · intro f hf
    rw [List.mem_singleton.mp hf]
  · rw [List.flatMap_singleton]

theorem CollectedFrom.concat {bytes : Bytes} (h : CollectedFrom e.src past bytes)
    (hlast : (start.run (past ++ [e])).slot.mac = some e.src) :
    CollectedFrom e.src (past ++ [e]) (bytes ++ e.chunk) := by
  obtain ⟨before, during, rfl, howns, fragments, hsub, hsrc, rfl⟩ := h
  refine ⟨before, during ++ [e], List.append_assoc _ _ _, howns.concat hlast,
    fragments ++ [e], hsub.append (.refl _), ?_, ?_⟩
  · intro f hf
    rcases List.mem_append.mp hf with hf | hf
    · exact hsrc f hf
    · rw [List.mem_singleton.mp hf]
  · rw [List.flatMap_append, List.flatMap_singleton]

theorem CollectedFrom.skip {src : Mac} {bytes : Bytes} (h : CollectedFrom src past bytes)
    (hlast : (start.run (past ++ [e])).slot.mac = some src) :
    CollectedFrom src (past ++ [e]) bytes := by
  obtain ⟨before, during, rfl, howns, fragments, hsub, hsrc, hbytes⟩ := h
  exact ⟨before, during ++ [e], List.append_assoc _ _ _, howns.concat hlast,
    fragments, hsub.trans (List.sublist_append_left _ _), hsrc, hbytes⟩

/-- What holds between two frames: the table and the reassembler follow the slot, the slot knows
when its owner was heard last, and the reassembler holds what the owner sent. -/
structure InStep (past : List Received) (s : EspNowToUsb) : Prop where
  table : s.TableIsOwner
  src : s.reassembler.src = s.slot.mac
  seen : ∀ f ∈ past, s.slot.mac = some f.src → f.nowMs ≤ s.slot.lastSeenMs
  collected : s.reassembler.reassembler.active = true →
    ∃ src, s.slot.mac = some src ∧ CollectedFrom src past s.reassembler.reassembler.content

theorem inStep_start : InStep [] start where
  table := rfl
  src := rfl
  seen := by
    intro f hf
    cases hf
  collected := by
    intro hactive
    cases hactive

/-- The content that a frame is taken behind, where there is some, is of its station. -/
theorem InStep.collected_readied (h : InStep past s)
    (hactive : (s.reassembler.readied e.src).active = true) :
    CollectedFrom e.src past (s.reassembler.readied e.src).content := by
  rw [SrcReassembler.readied] at hactive ⊢
  split at hactive
  · next hsrc =>
      obtain ⟨src, hmac, hcollected⟩ := h.collected hactive
      rw [h.src, hmac, Option.some.injEq] at hsrc
      rw [h.src, hmac, hsrc, if_pos rfl, ← hsrc]
      exact hcollected
  · cases hactive

theorem InStep.collected_push (h : InStep past s) {out : Option Bytes} {t : Reassembler}
    (hpush : (Reassembler.push e.payload).run (s.reassembler.readied e.src) = .ok out t)
    (hlast : (start.run (past ++ [e])).slot.mac = some e.src) :
    (t.active = true → CollectedFrom e.src (past ++ [e]) t.content) ∧
      ∀ m ∈ out, CollectedFrom e.src (past ++ [e]) m := by
  have hcontinues : ∀ b, b = e.chunk ∨ (s.reassembler.readied e.src).active = true ∧
      b = (s.reassembler.readied e.src).content ++ e.chunk →
      CollectedFrom e.src (past ++ [e]) b := by
    rintro b (rfl | ⟨hactive, rfl⟩)
    · exact collectedFrom_chunk hlast
    · exact (h.collected_readied hactive).concat hlast
  obtain ⟨hcontent, hout⟩ := Reassembler.push_content hpush
  exact ⟨fun hactive => hcontinues _ (hcontent hactive), fun m hm => hcontinues m (hout m hm)⟩

theorem InStep.after (h : InStep past s) (hs : s = start.run past)
    (hradio : e.removed = true ∧ e.added = true) (htimes : ∀ f ∈ past, f.nowMs ≤ e.nowMs) :
    InStep (past ++ [e]) (s.after e) := by
  have hafter : start.run (past ++ [e]) = s.after e := by rw [run_append, hs]
  rcases step_cases h.table hradio with ⟨owner, hmac, hne, -, hstep⟩ | ⟨-, out, t, hpush, hstep⟩
  · have hsame : s.after e = s := by rw [EspNowToUsb.after, hstep]; rfl
    rw [hsame] at hafter ⊢
    refine ⟨h.table, h.src, ?_, fun hactive => ?_⟩
    · intro f hf howner
      rcases List.mem_append.mp hf with hf | hf
      · exact h.seen f hf howner
      · obtain rfl := List.mem_singleton.mp hf
        exact absurd (Option.some.inj (hmac.symm.trans howner)) hne
    · obtain ⟨src, hsrc, hcollected⟩ := h.collected hactive
      exact ⟨src, hsrc, hcollected.skip (by rw [hafter, hsrc])⟩
  · have hnext : s.after e = ⟨⟨t, some e.src⟩, ⟨some e.src, e.nowMs⟩, [e.src], some e.src⟩ := by
      rw [EspNowToUsb.after, hstep]
      rfl
    rw [hnext] at hafter ⊢
    obtain ⟨hcontent, -⟩ := h.collected_push hpush (by rw [hafter])
    refine ⟨rfl, rfl, ?_, fun hactive => ⟨e.src, rfl, hcontent hactive⟩⟩
    intro f hf _
    rcases List.mem_append.mp hf with hf | hf
    · exact htimes f hf
    · rw [List.mem_singleton.mp hf]

theorem inStep_run {events : List Received}
    (hradio : ∀ e ∈ events, e.removed = true ∧ e.added = true)
    (htimes : events.Pairwise fun e f => e.nowMs ≤ f.nowMs) :
    InStep events (start.run events) := by
  induction events using List.reverseRecOn with
  | nil => exact inStep_start
  | append_singleton past e ih =>
      rw [List.pairwise_append] at htimes
      obtain ⟨hpast, -, hlast⟩ := htimes
      rw [run_append]
      apply (ih (fun f hf => hradio f (List.mem_append_left _ hf)) hpast).after rfl
      · exact hradio e (List.mem_append_right _ List.mem_cons_self)
      · exact fun f hf => hlast f hf e List.mem_cons_self

/-- Behind every frame the unicast peers in the radio table are exactly the owner of the slot; a
station that was heard within the hold time is not displaced by the frame; and a message that is
written to USB was collected from frames of one station while it owned the slot. -/
theorem slot_in_step {past : List Received} {e : Received}
    (hradio : ∀ f ∈ past ++ [e], f.removed = true ∧ f.added = true)
    (htimes : (past ++ [e]).Pairwise fun f g => f.nowMs ≤ g.nowMs) :
    (start.run (past ++ [e])).TableIsOwner ∧
    (∀ f ∈ past, (start.run past).slot.mac = some f.src → e.nowMs ≤ f.nowMs + activeHoldMs →
      (start.run (past ++ [e])).slot.mac = some f.src) ∧
    ∀ m t, (step e).run (start.run past) = .ok (some m) t →
      CollectedFrom e.src (past ++ [e]) m := by
  have hpast : InStep past (start.run past) :=
    inStep_run (fun f hf => hradio f (List.mem_append_left _ hf)) (List.pairwise_append.mp htimes).1
  refine ⟨(inStep_run hradio htimes).table, ?_, ?_⟩
  · intro f hf howner hheard
    have hseen := hpast.seen f hf howner
    rcases step_cases hpast.table (hradio e (List.mem_append_right _ List.mem_cons_self)) with
      ⟨owner, hmac, -, -, hstep⟩ | ⟨htaken, out, t, -, hstep⟩
    · rw [run_append, EspNowToUsb.after, hstep]
      exact howner
    · rw [run_append, EspNowToUsb.after, hstep]
      rcases htaken f.src howner with hsame | hlong
      · rw [hsame]
        rfl
      · omega
  · intro m u hrun
    rcases step_cases hpast.table (hradio e (List.mem_append_right _ List.mem_cons_self)) with
      ⟨owner, -, -, -, hstep⟩ | ⟨-, out, t, hpush, hstep⟩
    · rw [hstep] at hrun
      cases hrun
    · have hlast : (start.run (past ++ [e])).slot.mac = some e.src := by
        rw [run_append, EspNowToUsb.after, hstep]
        rfl
      rw [hstep] at hrun
      split at hrun
      · cases hrun
        exact (hpast.collected_push hpush hlast).2 m rfl
      · cases hrun

def frameAt (nowMs : ℕ) (src : Mac) (payload : Bytes) : Received :=
  ⟨src, payload, nowMs, true, true, true, true⟩

/-- A message in two fragments, with a frame of another station between them. -/
theorem slot_in_step_foreign :
    let m := List.replicate 250 9
    let past := [frameAt 0 SrcReassembler.macA (fragment 0 m 0),
      frameAt 5 SrcReassembler.macB [0, 0x80]]
    let e := frameAt 60000 SrcReassembler.macA (fragment 0 m 1)
    (start.run (past ++ [e])).TableIsOwner ∧ CollectedFrom SrcReassembler.macA (past ++ [e]) m := by
  intro m past e
  have hradio : ∀ f ∈ past ++ [e], f.removed = true ∧ f.added = true := by
    simp [past, e, frameAt]
  have htimes : (past ++ [e]).Pairwise fun f g => f.nowMs ≤ g.nowMs := by
    simp [past, e, frameAt]
  obtain ⟨htable, -, hwritten⟩ := slot_in_step hradio htimes
  obtain ⟨t, ht⟩ := EStateM.exists_run_of_call (show
    (EStateM.call (step e) (start.run past)).toOption.map Prod.fst =
      some (some m) by decide +kernel)
  exact ⟨htable, hwritten m t ht⟩

end EspNowToUsb

end EspNow
end Microfips
