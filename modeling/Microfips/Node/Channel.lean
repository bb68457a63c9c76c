import Microfips.Node.Footprint
import Microfips.Node.Replies

/-!
# Link messages from node to node

What a node sends in one epoch, and what its peer makes of the frames as they come: in another
order, some of them more than once, some not at all.  The peer hands on what a sliding window
admits, which is the first copy of every frame that comes, as long as no frame is overtaken by one
whose counter is 2048 or more above its own.
-/

namespace Microfips
namespace Node

open Noise Wire EStateM

namespace Steady

variable {H M : Type} {C D : Config H M} {s r : Steady H M}

def sentFrames (s : Steady H M) : List Bytes :=
  (s.frameTrace.filterMap fun
    | .sent frame => some frame
    | _ => none).reverse

theorem silent_cur_sealAndSend (c : UInt64) (msg : Bytes) (innerLen : ℕ) :
    EStateM.Silent Steady.cur (sealAndSend C c msg innerLen : Action H M Bool) := by
  refine (silent_ask (fun _ _ => rfl) _).bind fun t => ?_
  split
  · exact .pure _
  · refine .get_bind fun s => ?_
    split
    · exact .pure _
    · refine EStateM.Silent.bind (.modify fun _ => rfl) fun _ => ?_
      refine EStateM.Silent.bind (fun s => ?_) fun _ => ?_
      · obtain ⟨sent, t, hrun, hview⟩ := sendFrame_run C _ s
        exact ⟨sent, t, hrun, congrArg NodeView.cur hview⟩
      · refine EStateM.Silent.bind (fun s => ?_) fun _ => .pure _
        obtain ⟨u, t, hrun, hview⟩ := silent_recordSent C c _ _ s
        exact ⟨u, t, hrun, congrArg NodeView.cur hview⟩

theorem sendLinkMessage_cur {t : Steady H M} {msgType : UInt8} {body : Bytes}
    (h : (sendLinkMessage C msgType body).run s = .ok ⟨⟩ t) : t.cur = s.cur.spent := by
  rw [sendLinkMessage, EStateM.run_bind_ok (takeCounter_run s)] at h
  split at h
  · cases h
  · obtain ⟨sealed, u, hrun, hcur⟩ := silent_cur_sealAndSend (C := C) s.cur.sendCtr
      (msgType :: body) 512 { s with
        cur := s.cur.spent
        trace := .key (.took s.cur.ks s.cur.sendCtr) :: s.trace }
    rw [EStateM.run_bind_ok hrun] at h
    split at h <;> cases h <;> exact hcur

/-- Link messages that are sent one after the other go out in order, each under the counter that
follows the one before. -/
theorem forM_sendLinkMessage (hS : C.suite.Lawful) {msgs : List (UInt8 × Bytes)}
    (hsend : ∀ n, s.calls ≤ n → C.world.sendOk n = true)
    (hmsgs : ∀ m ∈ msgs, m.2.length ≤ maxReply) :
    ∃ t frames, (msgs.forM fun m => sendLinkMessage C m.1 m.2).run s = .ok ⟨⟩ t ∧
      t.sentFrames = s.sentFrames ++ frames ∧
      ∀ i < msgs.length, Carries C { s.cur with sendCtr := s.cur.sendCtr + UInt64.ofNat i }
        (frames.getD i []) (msgs.getD i (0, [])).1 (msgs.getD i (0, [])).2 := by
  induction msgs generalizing s with
  | nil => exact ⟨s, [], rfl, by simp, by simp⟩
  | cons m msgs ih =>
      obtain ⟨u, hrun, frame, htrace, hcarries⟩ :=
        sendLinkMessage_transmits hS hsend m.1 (hmsgs m List.mem_cons_self)
      have hcalls := ((unobtrusive_sendLinkMessage C m.1 m.2).beside hrun).calls_le
      obtain ⟨t, frames, hrest, hsent, hall⟩ := ih (s := u)
        (fun n hn => hsend n (hcalls.trans hn)) fun m' hm' => hmsgs m' (List.mem_cons_of_mem m hm')
      have hfirst : u.sentFrames = s.sentFrames ++ [frame] := by
        rw [sentFrames, frameTrace, htrace]
        exact List.reverse_cons
      refine ⟨t, frame :: frames, (EStateM.run_bind_ok hrun).trans hrest, ?_, ?_⟩
      · rw [hsent, hfirst, List.append_assoc, List.singleton_append]
      · intro i hi
        cases i with
        | zero => simpa using hcarries
        | succ i =>
            have hnext := hall i (Nat.lt_of_succ_lt_succ hi)
            rw [sendLinkMessage_cur hrun] at hnext
            simpa [EpochSlot.spent, UInt64.ofNat_add, UInt64.add_assoc, UInt64.add_comm 1]
              using hnext

theorem tryCur_carries {slot : EpochSlot} {frame : Bytes} {msgType : UInt8} {body : Bytes}
    {a : SlidingWindow} (husize : C.usizeBits = 64) (h : Carries C slot frame msgType body)
    (hkey : s.cur.kr = slot.ks) (ha : s.cur.replay.Refines a)
    (hlast : slot.sendCtr ≠ ReplayWindow.maxCounter) :
    (a.Admits replayWindowSize slot.sendCtr.toNat → ∃ f replay,
      (tryCur C frame).run s = .ok (some f) { s with cur := { s.cur with replay := replay } } ∧
      (f.msgType, f.payload) = (msgType, body) ∧ replay.Refines (a.take slot.sendCtr.toNat)) ∧
    (¬ a.Admits replayWindowSize slot.sendCtr.toNat → (tryCur C frame).run s = .ok none s) := by
  have hrun {o : Option DecryptedFrame} {replay : ReplayWindow}
      (hdecrypt : decryptEstablishedFrame C.suite C.build C.usizeBits s.cur.kr frame
        s.cur.replay = .ok (o, replay)) :
      (tryCur C frame).run s = .ok o { s with cur := { s.cur with replay := replay } } := by
    rw [tryCur, EStateM.run_get_bind, hdecrypt]
    rfl
  have hcheck := ReplayWindow.check_iff ha slot.sendCtr
  have hopens : ∀ c, Opens C.suite C.build s.cur.kr frame c → c = slot.sendCtr := by
    obtain ⟨enc, henc, -, hctr⟩ := h.header
    intro c hc
    rw [Opens, openedCounter, henc] at hc
    dsimp only at hc
    split at hc
    · cases hc
    · exact (Option.some.inj hc).symm.trans hctr
  rw [husize] at hrun
  refine ⟨fun hadm => ?_, fun hadm => ?_⟩
  · have hpass := hcheck.mpr ⟨hlast, hadm⟩
    obtain ⟨f, replay, hdecrypt, hctr, rfl, rfl⟩ := h.opens 64 s.cur.replay hpass
    rw [← hkey] at hdecrypt
    obtain ⟨hnone, -⟩ | ⟨c, -, haccept, hc, -⟩ := decryptEstablishedFrame_cases hdecrypt
    · cases hnone
    · obtain rfl := hopens c hc
      obtain ⟨replay', haccept', href⟩ := ReplayWindow.accept_refines ha hpass
      obtain rfl := Option.some.inj (haccept.symm.trans haccept')
      exact ⟨f, replay, hrun hdecrypt, rfl, href⟩
  · obtain ⟨⟨o, replay⟩, hdecrypt⟩ := exists_decryptEstablishedFrame C.suite C.build 64 s.cur.kr
      frame s.cur.replay
    obtain ⟨rfl, rfl, -⟩ | ⟨c, hpass, -, hc, -⟩ := decryptEstablishedFrame_cases hdecrypt
    · exact hrun hdecrypt
    · obtain rfl := hopens c hc
      exact absurd (hcheck.mp hpass).2 hadm

/-- A receiver that is given frames of one key in any order hands on those that the window
admits. -/
theorem mapM_tryCur (slot : EpochSlot) {frame : ℕ → Bytes} {msg : ℕ → UInt8 × Bytes}
    {a : SlidingWindow} {arrivals : List ℕ} (husize : C.usizeBits = 64)
    (hcarries : ∀ i ∈ arrivals,
      Carries C { slot with sendCtr := UInt64.ofNat i } (frame i) (msg i).1 (msg i).2)
    (hbound : ∀ i ∈ arrivals, i < 2 ^ 64 - 1) (hkey : s.cur.kr = slot.ks)
    (ha : s.cur.replay.Refines a) :
    ∃ opened t, ((arrivals.map frame).mapM (tryCur C)).run s = .ok opened t ∧
      opened.reduceOption.map (fun f => (f.msgType, f.payload)) =
        (a.admitted replayWindowSize arrivals).map msg := by
  induction arrivals generalizing s a with
  | nil => exact ⟨[], s, rfl, rfl⟩
  | cons i arrivals ih =>
      have hi := hbound i List.mem_cons_self
      have hnat : (UInt64.ofNat i).toNat = i :=
        UInt64.toNat_ofNat_of_lt' (by rw [UInt64.size]; omega)
      have hlast : UInt64.ofNat i ≠ ReplayWindow.maxCounter := by
        intro heq
        have hmax : (UInt64.ofNat i).toNat = 2 ^ 64 - 1 := by
          rw [heq]
          rfl
        omega
      have htry := tryCur_carries husize (hcarries i List.mem_cons_self) hkey ha hlast
      rw [hnat] at htry
      have hcarries' := fun j hj => hcarries j (List.mem_cons_of_mem i hj)
      have hbound' := fun j hj => hbound j (List.mem_cons_of_mem i hj)
      rw [List.map_cons, List.mapM_cons]
      by_cases hadm : a.Admits replayWindowSize i
      · obtain ⟨f, replay, hrun, hf, href⟩ := htry.1 hadm
        obtain ⟨opened, t, hrest, hmap⟩ := ih hcarries' hbound'
          (s := { s with cur := { s.cur with replay := replay } }) hkey href
        refine ⟨some f :: opened, t, ?_, ?_⟩
        · rw [EStateM.run_bind_ok hrun, EStateM.run_bind_ok hrest]
          rfl
        · rw [SlidingWindow.admitted, if_pos hadm, List.map_cons, ← hmap]
          exact congrArg (· :: _) hf
      · obtain ⟨opened, t, hrest, hmap⟩ := ih hcarries' hbound' hkey ha
        refine ⟨none :: opened, t, ?_, ?_⟩
        · rw [EStateM.run_bind_ok (htry.2 hadm), EStateM.run_bind_ok hrest]
          rfl
        · rw [SlidingWindow.admitted, if_neg hadm, ← hmap]
          rfl

/-- Link messages that a node sends in a new epoch, with frames that its peer gets in any order,
lost or repeated: the peer opens the first copy of each with the message in it, and refuses the
others, if no frame comes after one that was sent 2048 or more messages later. -/
theorem linkMessages_delivered (hS : C.suite.Lawful) (hsuite : D.suite = C.suite)
    (hbuild : D.build = C.build) (husize : D.usizeBits = 64)
    (hsend : ∀ n, s.calls ≤ n → C.world.sendOk n = true) (hstart : s.cur.sendCtr = 0)
    (hkey : r.cur.kr = s.cur.ks) (hnew : r.cur.replay = .new) {msgs : List (UInt8 × Bytes)}
    (hmsgs : ∀ m ∈ msgs, m.2.length ≤ 219) (hlen : msgs.length < 2 ^ 64) :
    ∃ t frames, (msgs.forM fun m => sendLinkMessage C m.1 m.2).run s = .ok ⟨⟩ t ∧
      t.sentFrames = s.sentFrames ++ frames ∧
      ∀ arrivals : List ℕ, (∀ i ∈ arrivals, i < msgs.length) →
        arrivals.Pairwise (fun i j => i < j + 2048) →
        ∃ opened r', ((arrivals.map (frames.getD · [])).mapM (tryCur D)).run r = .ok opened r' ∧
          opened.reduceOption.map (fun f => (f.msgType, f.payload)) =
            arrivals.eraseDups.map (msgs.getD · (0, [])) := by
  obtain ⟨t, frames, hrun, hsent, hcarries⟩ := forM_sendLinkMessage hS hsend hmsgs
  refine ⟨t, frames, hrun, hsent, fun arrivals hbound hlag => ?_⟩
  rw [← SlidingWindow.empty_admitted (by decide) hlag]
  refine mapM_tryCur s.cur husize (fun i hi => ?_) (fun i hi => ?_) hkey
    (hnew ▸ ReplayWindow.new_refines)
  · have h := hcarries i (hbound i hi)
    rw [hstart, UInt64.zero_add] at h
    refine ⟨?_, ?_⟩
    · rw [hbuild]
      exact h.header
    · rw [hsuite, hbuild]
      exact h.opens
  · have := hbound i hi
    omega

open Scenario in
theorem linkMessages_delivered_reordered : ∃ t frames,
    ([(1, [5]), (2, [6]), (3, [])].forM fun m => sendLinkMessage alice m.1 m.2).run aliceStart =
        .ok ⟨⟩ t ∧ t.sentFrames = frames ∧
      ∃ opened r, (([2, 0, 2, 1].map (frames.getD · [])).mapM (tryCur bob)).run bobStart =
          .ok opened r ∧
        opened.reduceOption.map (fun f => (f.msgType, f.payload)) =
          [(3, []), (1, [5]), (2, [6])] := by
  have hmsgs : ∀ m ∈ ([(1, [5]), (2, [6]), (3, [])] : List (UInt8 × Bytes)), m.2.length ≤ 219 := by
    decide
  obtain ⟨t, frames, hrun, hsent, harrive⟩ := linkMessages_delivered (C := alice) (D := bob)
    (s := aliceStart) (r := bobStart) Additive.suite_lawful rfl rfl rfl (fun _ _ => rfl) rfl rfl rfl
    hmsgs (by decide)
  exact ⟨t, frames, hrun, hsent, harrive [2, 0, 2, 1] (by decide) (by decide)⟩

end Steady
end Node
end Microfips
