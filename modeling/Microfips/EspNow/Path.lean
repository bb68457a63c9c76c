import Mathlib.Data.List.ReduceOption
import Microfips.EspNow.Gateway
import Microfips.EspNow.PeerSlot

/-!
# From gateway to gateway

Frames that are written to the USB port of one gateway come out of that of another, whole and in
order, if the radio loses nothing of what the first one sends and the second one has it in its
slot.  What other stations send in between is dropped.
-/

namespace Microfips
namespace EspNow

open Wire

namespace Reassembler

theorem pushAll_eq_mapM (payloads : List Bytes) : pushAll payloads = payloads.mapM push := by
  induction payloads with
  | nil => rfl
  | cons payload payloads ih => rw [pushAll, ih, List.mapM_cons]

theorem mapM_push_messages {messages : List (Bytes × ℕ)}
    (h : ∀ m ∈ messages, m.1.length ≤ maxMessage) (r : Reassembler) :
    ∃ outs t, ((messages.flatMap fun m =>
        (List.range (m.1.windowCount maxChunk)).map (fragment (UInt8.ofNat m.2) m.1)).mapM push).run
          r = .ok outs t ∧ outs.reduceOption = messages.map Prod.fst := by
  induction messages generalizing r with
  | nil => exact ⟨[], r, rfl, rfl⟩
  | cons m messages ih =>
      obtain ⟨n, hn⟩ : ∃ n, 0 + (n + 1) = m.1.windowCount maxChunk :=
        ⟨(m.1.length - 1) / maxChunk, Nat.zero_add _⟩
      obtain ⟨t, hrun⟩ := pushAll_fragments (h m List.mem_cons_self) hn
        (.inl rfl : _ ∨ r.Holds (UInt8.ofNat m.2) m.1 0)
      rw [← Nat.zero_add (n + 1), hn, ← List.range_eq_range', pushAll_eq_mapM] at hrun
      obtain ⟨outs, u, hrest, houts⟩ := ih (fun m' hm' => h m' (List.mem_cons_of_mem m hm')) t
      refine ⟨List.replicate n none ++ [some m.1] ++ outs, u, ?_, ?_⟩
      · rw [List.flatMap_cons, List.mapM_append, EStateM.run_bind_ok hrun,
          EStateM.run_bind_ok hrest]
        rfl
      · rw [List.reduceOption_append, List.reduceOption_append, List.reduceOption_replicate_none,
          houts]
        rfl

end Reassembler

namespace EspNowToUsb

/-- The station keeps the slot: the others are heard within the hold time behind its frames. -/
def Held (src : Mac) : ℕ → List Received → Prop
  | _, [] => True
  | seen, e :: events =>
      if e.src = src then
        Held src e.nowMs events
      else
        e.nowMs - seen ≤ activeHoldMs ∧ Held src seen events

variable {s : EspNowToUsb} {e : Received} {src : Mac}

theorem step_owner (htable : s.TableIsOwner) (howner : s.slot.mac = some e.src)
    (hradio : e.removed = true ∧ e.added = true)
    (hwritten : e.lengthWritten = true ∧ e.frameWritten = true) {out : Option Bytes}
    {r : Reassembler}
    (hpush : (Reassembler.push e.payload).run (s.reassembler.readied e.src) = .ok out r) :
    (step e).run s = .ok out ⟨⟨r, some e.src⟩, ⟨some e.src, e.nowMs⟩, [e.src], some e.src⟩ := by
  rcases step_cases htable hradio with ⟨owner, hmac, hne, -⟩ | ⟨-, out', r', hpush', hstep⟩
  · exact absurd (Option.some.inj (hmac.symm.trans howner)) hne
  · cases hpush.symm.trans hpush'
    rwa [if_pos hwritten] at hstep

theorem step_other (htable : s.TableIsOwner) (howner : s.slot.mac = some src) (hne : e.src ≠ src)
    (hradio : e.removed = true ∧ e.added = true)
    (hheld : e.nowMs - s.slot.lastSeenMs ≤ activeHoldMs) : (step e).run s = .ok none s := by
  rcases step_cases htable hradio with ⟨-, -, -, -, hstep⟩ | ⟨htaken, -⟩
  · exact hstep
  · rcases htaken src howner with hsame | hlong
    · exact absurd hsame.symm hne
    · omega

/-- What is written to USB while a station keeps the slot is what its frames alone give. -/
theorem mapM_step_held {events : List Received} (htable : s.TableIsOwner)
    (howner : s.slot.mac = some src) (hradio : ∀ e ∈ events, e.removed = true ∧ e.added = true)
    (hwritten : ∀ e ∈ events, e.lengthWritten = true ∧ e.frameWritten = true)
    (hheld : Held src s.slot.lastSeenMs events) {outs : List (Option Bytes)} {r : Reassembler}
    (hpush : (((events.filter (·.src = src)).map Received.payload).mapM Reassembler.push).run
      (s.reassembler.readied src) = .ok outs r) :
    ∃ outs' t, (events.mapM step).run s = .ok outs' t ∧
      outs'.reduceOption = outs.reduceOption := by
  induction events generalizing s outs with
  | nil =>
      cases hpush
      exact ⟨[], s, rfl, rfl⟩
  | cons e events ih =>
      rw [List.forall_mem_cons] at hradio hwritten
      rw [Held] at hheld
      rw [List.mapM_cons]
      split at hheld
      · next hsrc =>
          subst hsrc
          rw [List.filter_cons_of_pos (by simp), List.map_cons, List.mapM_cons] at hpush
          obtain ⟨out, r₁, hfirst, hpush⟩ := EStateM.exists_of_run_bind hpush
          obtain ⟨outs₁, r₂, hrest, hpure⟩ := EStateM.exists_of_run_bind hpush
          cases hpure
          have hstep := step_owner htable howner hradio.1 hwritten.1 hfirst
          obtain ⟨outs', t, hrun, houts⟩ := ih (s := ⟨⟨r₁, some e.src⟩, ⟨some e.src, e.nowMs⟩,
            [e.src], some e.src⟩) rfl rfl hradio.2 hwritten.2 hheld
            (by rw [SrcReassembler.readied, if_pos rfl]; exact hrest)
          refine ⟨out :: outs', t, ?_, ?_⟩
          · rw [EStateM.run_bind_ok hstep, EStateM.run_bind_ok hrun]
            rfl
          · cases out with
            | none => exact houts
            | some frame => exact congrArg (frame :: ·) houts
      · next hne =>
          rw [List.filter_cons_of_neg (by simpa using hne)] at hpush
          obtain ⟨outs', t, hrun, houts⟩ :=
            ih htable howner hradio.2 hwritten.2 hheld.2 hpush
          refine ⟨none :: outs', t, ?_, houts⟩
          rw [EStateM.run_bind_ok (step_other htable howner hne hradio.1 hheld.1),
            EStateM.run_bind_ok hrun]
          rfl

/-- Frames whose stream is read from USB by a gateway, in reads that fit its accumulator, are what
another gateway writes to USB, each once, whole and in order, if all that the first one sends is
heard in order while it keeps the slot, whatever other stations send in between. -/
theorem usb_to_usb (peers : ℕ → Option Mac) {frames chunks : List Bytes}
    (hsend : ∀ frame ∈ frames, Sendable frame) (hcut : chunks.flatten = encodeStream frames)
    (hroom : UsbToEspNow.Room frames 0 chunks) (htable : s.TableIsOwner)
    (howner : s.slot.mac = some src) {events : List Received}
    (hradio : ∀ e ∈ events, e.removed = true ∧ e.added = true)
    (hwritten : ∀ e ∈ events, e.lengthWritten = true ∧ e.frameWritten = true)
    (hheld : Held src s.slot.lastSeenMs events)
    (hheard : (events.filter (·.src = src)).map Received.payload =
      (UsbToEspNow.start.run peers chunks).sent.flatMap Transmission.payloads) :
    ∃ outs t, (events.mapM step).run s = .ok outs t ∧ outs.reduceOption = frames := by
  have hstart : UsbToEspNow.Through peers .start [] frames chunks.flatten := ⟨hcut, rfl, rfl⟩
  have hsent := hstart.run (fun frame _ => Nat.add_pos_left Nat.two_pos _) rfl hsend rfl hroom
  have hlen : ∀ m ∈ frames.zipIdx, m.1.length ≤ maxMessage :=
    fun m hm => (hsend m.1 (List.fst_mem_of_mem_zipIdx hm)).2
  obtain ⟨outs, r, hpush, houts⟩ :=
    Reassembler.mapM_push_messages hlen (s.reassembler.readied src)
  rw [List.zipIdx_map_fst] at houts
  rw [hsent, List.mapIdx_eq_zipIdx_map, List.flatMap_map] at hheard
  obtain ⟨outs', t, hrun, heq⟩ := mapM_step_held htable howner hradio hwritten hheld
    (hheard ▸ hpush)
  exact ⟨outs', t, hrun, heq.trans houts⟩

/-- Two frames, with one of another station between their fragments. -/
theorem usb_to_usb_foreign :
    let events := [frameAt 5 SrcReassembler.macA (fragment 0 [1, 2, 3] 0),
      frameAt 6 SrcReassembler.macB [0, 0x80], frameAt 7 SrcReassembler.macA (fragment 1 [4] 0)]
    ∃ outs t, (events.mapM step).run (start.run [frameAt 0 SrcReassembler.macA []]) = .ok outs t ∧
      outs.reduceOption = [[1, 2, 3], [4]] := by
  intro events
  have hroom : UsbToEspNow.Room [[1, 2, 3], [4]] 0 [[3, 0, 1], [2, 3, 1], [0, 4]] :=
    UsbToEspNow.room_of_length_le (by simp [accCap, readCap, maxMessage]) (by simp [readCap]) le_rfl
  have hcut : [[3, 0, 1], [2, 3, 1], [0, 4]].flatten = encodeStream [[1, 2, 3], [4]] := rfl
  have howner : (start.run [frameAt 0 SrcReassembler.macA []]).slot.mac =
      some SrcReassembler.macA := by decide +kernel
  refine usb_to_usb (fun _ => none) ?_ hcut hroom ?_ howner ?_ ?_ ?_ ?_
  · simp [Sendable, maxMessage]
  · unfold TableIsOwner
    decide +kernel
  · decide +kernel
  · decide +kernel
  · exact ⟨by decide +kernel, trivial⟩
  · decide +kernel

end EspNowToUsb
end EspNow
end Microfips
