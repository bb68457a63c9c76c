import Microfips.Node.Replies

/-!
# Answers that are not genuine

A msg2 that names the index of our rekey takes the initiator out of `rekey_init`, and a msg3 takes
the responder out of `rekey_hs`, before it is known whether the frame is genuine.  The handshake is
not put back when the frame turns out not to be: the answer that comes behind it finds nothing to
complete.  A msg2 with another index, and a msg3 for which no responder waits, leave the rekeys in
flight as they are.
-/

namespace Microfips
namespace Node

open Noise Wire EStateM

variable {H M : Type} (C : Config H M)

def IsAnswer (build : Build) (frame : Bytes) : Prop :=
  ∃ senderIdx receiverIdx np, parseMessage build frame = some (.msg2 senderIdx receiverIdx np) ∨
    parseMessage build frame = some (.msg3 senderIdx receiverIdx np)

/-- The frame reaches no handshake in flight: as a msg2 it names another index than our rekey, and
as a msg3 it finds no responder of the XX build. -/
structure Misdirected (v : NodeView) (frame : Bytes) : Prop where
  msg2 : ∀ ri ∈ v.rekeyInit, namedIndex C.build frame ≠ some ri.ourIndex
  msg3 : ∀ senderIdx receiverIdx np,
    parseMessage C.build frame = some (.msg3 senderIdx receiverIdx np) →
      C.build = .ik ∨ v.rekeyHs = none

/-- The rekeys in flight, with the bit that the next epoch is going to have. -/
def NodeView.inFlight (v : NodeView) :
    Option RekeyInit × Option RekeyHs × Option EpochSlot × Bool :=
  (v.rekeyInit, v.rekeyHs, v.pend, v.cur.kBit)

def armedBy (v : NodeView) (frame : Bytes) : Option EpochSlot :=
  match parseMessage C.build frame, v.rekeyHs, v.rekeyInit with
  | some (.msg3 _ _ np), some hs, _ =>
      if C.build = .xx then
        (xxAccept C hs np).map fun keys =>
          EpochSlot.new keys.1 keys.2 hs.theirIdx (!v.cur.kBit) .peer
      else
        none
  | some (.msg2 senderIdx receiverIdx np), _, some ri =>
      if receiverIdx = ri.ourIndex then
        (completion C ri senderIdx (np.take 128)).map fun r =>
          EpochSlot.new r.1.1 r.1.2 senderIdx (!v.cur.kBit) .own
      else
        none
  | _, _, _ => none

variable {C}

variable {frame : Bytes} {v w : NodeView}

theorem IsAnswer.not_opens (h : IsAnswer C.build frame) (kr : Block 32) (c : UInt64) :
    ¬ Opens C.suite C.build kr frame c := by
  obtain ⟨senderIdx, receiverIdx, np, hparse | hparse⟩ := h
  · exact Steady.not_opens_of_parse C hparse (by simp) kr c
  · exact Steady.not_opens_of_parse C hparse (by simp) kr c

theorem IsAnswer.ne_msg1 {np : Bytes} {senderIdx : SessionIndex} (h : IsAnswer C.build frame) :
    parseMessage C.build frame ≠ some (.msg1 senderIdx np) := by
  obtain ⟨_, _, _, hparse | hparse⟩ := h
  · simp [hparse]
  · simp [hparse]

theorem EpochSlot.Trial.eq_self {slot slot' : EpochSlot}
    (hopens : ∀ kr c, ¬ Opens C.suite C.build kr frame c) (h : slot.Trial C frame none slot') :
    slot' = slot := by
  cases h with
  | refused => rfl
  | burnt htook => exact absurd htook.opens (hopens _ _)

theorem Missed.eq_self {slot slot' : Option EpochSlot}
    (hopens : ∀ kr c, ¬ Opens C.suite C.build kr frame c) (h : Missed C frame slot slot') :
    slot' = slot := by
  cases h with
  | none => rfl
  | some h => rw [h.eq_self hopens]

theorem Misdirected.of_inFlight_eq (h : Misdirected C v frame) (heq : w.inFlight = v.inFlight) :
    Misdirected C w frame := by
  simp only [NodeView.inFlight, Prod.mk.injEq] at heq
  constructor
  · rw [heq.1]
    exact h.msg2
  · rw [heq.2.1]
    exact h.msg3

theorem Move.inFlight_eq (hanswer : IsAnswer C.build frame) (hmiss : Misdirected C v frame)
    (h : Move C (some frame) v w) : w.inFlight = v.inFlight := by
  cases h with
  | spend => rfl
  | sealFrame => rfl
  | hear => rfl
  | repeatMsg2 => rfl
  | answerIk _ hinput _ hparse =>
      obtain rfl := Option.some.inj hinput
      exact absurd hparse hanswer.ne_msg1
  | answerXx _ hinput _ hparse =>
      obtain rfl := Option.some.inj hinput
      exact absurd hparse hanswer.ne_msg1
  | acceptMsg3 hinput hbuild hparse hhs =>
      obtain rfl := Option.some.inj hinput
      rcases hmiss.msg3 _ _ _ hparse with hik | hnone
      · simp [hik] at hbuild
      · simp [hnone] at hhs
  | refuseMsg3 hinput hbuild hparse hhs =>
      obtain rfl := Option.some.inj hinput
      rcases hmiss.msg3 _ _ _ hparse with hik | hnone
      · simp [hik] at hbuild
      · simp [hnone] at hhs
  | completeMsg2 hinput hparse hri =>
      obtain rfl := Option.some.inj hinput
      exact absurd (by simp [namedIndex, hparse]) (hmiss.msg2 _ hri)
  | failMsg2 hinput hparse hri =>
      obtain rfl := Option.some.inj hinput
      exact absurd (by simp [namedIndex, hparse]) (hmiss.msg2 _ hri)
  | miss hinput _ hcur hpend =>
      obtain rfl := Option.some.inj hinput
      rw [hcur.eq_self hanswer.not_opens, Missed.eq_self hanswer.not_opens hpend]
      rfl
  | openCur hinput hcur =>
      obtain rfl := Option.some.inj hinput
      exact absurd hcur.opens (hanswer.not_opens _ _)
  | openPend hinput _ _ hopen =>
      obtain rfl := Option.some.inj hinput
      exact absurd hopen.opens (hanswer.not_opens _ _)
  | openPrev hinput _ _ _ hopen =>
      obtain rfl := Option.some.inj hinput
      exact absurd hopen.opens (hanswer.not_opens _ _)
  | abort hinput hcur hpend =>
      obtain rfl := Option.some.inj hinput
      have hcur' := hcur.elim id fun h => h.eq_self hanswer.not_opens
      have hpend' := hpend.elim id fun h => Missed.eq_self hanswer.not_opens h
      rw [hcur', hpend']
  | cutover hinput => cases hinput
  | beginRekey hinput => cases hinput
  | resendMsg1 _ _ _ hinput => cases hinput
  | abandon hinput => cases hinput
  | drain hinput => cases hinput

theorem Moves.inFlight_eq (hanswer : IsAnswer C.build frame) (hmiss : Misdirected C v frame)
    (h : Moves C (some frame) v w) : w.inFlight = v.inFlight := by
  induction h with
  | refl => rfl
  | tail _ hmove ih =>
      exact (Move.inFlight_eq hanswer (hmiss.of_inFlight_eq ih) hmove).trans ih

namespace Steady

variable {np frame : Bytes} {keys : Block 32 × Block 32} {s : Steady H M}

theorem complete_run {ri : RekeyInit} {senderIdx : SessionIndex} {frames : List Bytes}
    (hsend : ∀ n, s.calls ≤ n → C.world.sendOk n = true)
    (h : completion C ri senderIdx np = some (keys, frames)) :
    ∃ n tr, (complete C ri senderIdx np).run s =
      .ok (some (some keys)) { s with calls := n, trace := tr } := by
  rw [completion] at h
  rw [complete]
  cases hhs : ri.hs with
  | ik hs =>
      simp only [hhs, Option.bind_eq_bind, Option.bind_eq_some_iff] at h
      obtain ⟨r, hcall, hkeys⟩ := h
      obtain ⟨rfl, -⟩ := Prod.mk.inj (Option.some.inj hkeys)
      refine ⟨s.calls, s.trace, ?_⟩
      simp only [completeIk, bind_assoc]
      rw [EStateM.run_bind_ok (attempt_run (Except.eq_ok_of_toOption hcall) s)]
      rfl
  | xx hs =>
      simp only [hhs, Option.bind_eq_bind, Option.bind_eq_some_iff] at h
      obtain ⟨⟨⟨respPub, respEpoch⟩, hs'⟩, hcall, h⟩ := h
      split at h
      · rename_i hpin
        simp only [Option.bind_eq_some_iff] at h
        obtain ⟨myPub, hpub, ⟨n3, hs''⟩, hwrite, msg3, hmsg3, hkeys⟩ := h
        obtain ⟨rfl, -⟩ := Prod.mk.inj (Option.some.inj hkeys)
        obtain ⟨n, hsent⟩ := sendFrame_sent (C := C) (s := s) hsend msg3
        refine ⟨n, .frame (.sent msg3) :: s.trace, ?_⟩
        simp only [completeXx]
        rw [EStateM.run_bind_ok (attempt_run (Except.eq_ok_of_toOption hcall) s)]
        simp only [hpin, ↓reduceIte, Except.eq_ok_of_toOption hpub]
        rw [EStateM.run_bind_ok (attempt_run (Except.eq_ok_of_toOption hwrite) s)]
        simp only [hmsg3]
        rw [EStateM.run_bind_ok hsent]
        rfl
      · cases h

theorem handleMsg2_arms {ri : RekeyInit} {senderIdx : SessionIndex} {frames : List Bytes}
    (hsend : ∀ n, s.calls ≤ n → C.world.sendOk n = true)
    (h : completion C ri senderIdx (np.take 128) = some (keys, frames)) :
    ∃ t, (handleMsg2 C frame senderIdx ri.ourIndex np ri).run s = .ok ⟨⟩ t ∧
      t.pend = some (EpochSlot.new keys.1 keys.2 senderIdx (!s.cur.kBit) .own) := by
  rw [handleMsg2, if_neg (not_not.mpr rfl), EStateM.run_bind_ok
    (show EStateM.run (modify _) _ = .ok ⟨⟩ _ from rfl),
    run_note_bind]
  obtain ⟨n, tr, hrun⟩ := complete_run (C := C) (s := { s with
    rekeyInit := none
    trace := .frame (.received frame) :: s.trace }) hsend h
  rw [EStateM.run_bind_ok hrun]
  exact ⟨_, rfl, rfl⟩

theorem handleMsg3_arms {hs : RekeyHs} (h : xxAccept C hs np = some keys) :
    ∃ t, (handleMsg3 C frame np hs).run s = .ok ⟨⟩ t ∧
      t.pend = some (EpochSlot.new keys.1 keys.2 hs.theirIdx (!s.cur.kBit) .peer) := by
  simp only [xxAccept, Option.bind_eq_bind, Option.bind_eq_some_iff] at h
  obtain ⟨⟨⟨initPub, initEpoch⟩, responder⟩, hcall, haccept⟩ := h
  split at haccept
  · rename_i hpin
    obtain rfl := Option.some.inj haccept
    rw [handleMsg3, EStateM.run_modify_bind,
      run_note_bind,
      EStateM.run_bind_ok (attempt_run (Except.eq_ok_of_toOption hcall) _)]
    simp only [hpin, ↓reduceIte]
    exact ⟨_, rfl, rfl⟩
  · cases haccept

theorem handleFrame_arms {slot : EpochSlot} (hsend : ∀ n, s.calls ≤ n → C.world.sendOk n = true)
    (hrate : (s.policy.checkFrameRate (C.world.clock s.calls)).1 = .allow)
    (h : armedBy C s.view frame = some slot) :
    ∃ t, (handleFrame C frame).run s = .ok ⟨⟩ t ∧ t.pend = some slot := by
  rw [handleFrame, run_now_bind, run_get_bind]
  dsimp only
  rw [run_set_bind, hrate, if_neg (by decide)]
  rw [armedBy, show s.view.rekeyHs = s.rekeyHs from rfl,
    show s.view.rekeyInit = s.rekeyInit from rfl] at h
  split at h
  · rename_i np hs _ hparse hhs
    split at h
    · rename_i hbuild
      simp only [hparse, hhs]
      rw [if_pos hbuild]
      obtain ⟨keys, haccept, rfl⟩ := Option.map_eq_some_iff.mp h
      exact handleMsg3_arms haccept
    · cases h
  · rename_i hparse hri
    split at h
    · rename_i hindex
      subst hindex
      simp only [hparse, hri]
      obtain ⟨⟨keys, frames⟩, hcompletion, rfl⟩ := Option.map_eq_some_iff.mp h
      exact handleMsg2_arms (fun n hn => hsend n ((Nat.le_succ _).trans hn)) hcompletion
    · cases h
  · cases h

end Steady

theorem armedBy_of_inFlight_eq (frame : Bytes) (h : w.inFlight = v.inFlight) :
    armedBy C w frame = armedBy C v frame := by
  simp only [NodeView.inFlight, Prod.mk.injEq] at h
  obtain ⟨hri, hhs, -, hbit⟩ := h
  rw [armedBy, armedBy, hri, hhs, hbit]

namespace Scenario

def tampered (frame : Bytes) : Bytes :=
  frame.dropLast ++ [frame.getLastD 0 + 1]

def waiting : Steady PUnit PUnit := Steady.after alice aliceStart [.timer, .timer]

def misaddressed : Bytes := (buildMsg2 .ik 5 6 (List.replicate 57 0) 256).getD []

def aliceXx : Config PUnit PUnit := { alice with build := .xx }

def bobXx : Config PUnit PUnit := { bob with build := .xx }

def aliceXxStart : Steady PUnit PUnit := start aliceXx 7 8

def bobXxStart : Steady PUnit PUnit := start bobXx 8 7

def lastSentXx (phase : FmpPhase) (s : Steady PUnit PUnit) : Bytes :=
  (s.frameTrace.findSome? fun
    | .sent data => if (parsePrefix .xx data).map Prod.fst =
        some phase.toUInt8 then some data else none
    | _ => none).getD []

def aliceXxMsg1 : Bytes :=
  lastSentXx .msg1 (Steady.after aliceXx aliceXxStart [.timer, .timer])

def bobXxMsg2 : Bytes := lastSentXx .msg2 (Steady.after bobXx bobXxStart [.recv aliceXxMsg1])

def aliceXxMsg3 : Bytes :=
  lastSentXx .msg3 (Steady.after aliceXx aliceXxStart [.timer, .timer, .recv bobXxMsg2])

end Scenario

namespace Steady

end Steady
end Node
end Microfips
