import Microfips.Node.Repeats

/-!
# Signs of life

`last_rx` and the count of consecutive bad frames decide when a link is given up.  Every branch of
the receive loop that counts a frame as a sign of life resets both.  A frame that the loop hands
to the established branch does so only when a live slot opens it, which it does once; a msg1 of
the IK wire only when its Noise message comes from the pinned peer, or when it is the one that was
answered last.
-/

namespace Microfips
namespace Node

open Noise Wire

variable {H M : Type} (C : Config H M)

/-- The frame is a msg1 of the IK wire whose Noise message is accepted and names the pinned
peer. -/
def AuthenticMsg1 (frame : Bytes) : Prop :=
  C.build = .ik ∧ ∃ senderIdx np responder r,
    parseMessage C.build frame = some (.msg1 senderIdx np) ∧
    NoiseIkResponder.new C.suite C.nsec (Block.ofBytes 33 ((np.take 128).take 33)) = .ok responder ∧
    (NoiseIkResponder.readMessage1 C.suite ((np.take 128).drop 33)).call responder = .ok r ∧
    SameX r.1.1 C.peerNpub

theorem authenticMsg1_of_ikAnswer {frame np : Bytes} {senderIdx ourIndex : SessionIndex}
    {eph : Block 32} {x : (Block 32 × Block 32) × Bytes} (hbuild : C.build = .ik)
    (hparse : parseMessage C.build frame = some (.msg1 senderIdx np))
    (h : ikAnswer C senderIdx (np.take 128) eph ourIndex = some x) : AuthenticMsg1 C frame := by
  rw [ikAnswer] at h
  split_ifs at h with hlen
  obtain ⟨responder, hnew, h⟩ := Option.bind_eq_some_iff.mp h
  obtain ⟨r, hread, h⟩ := Option.bind_eq_some_iff.mp h
  split_ifs at h with hpin
  exact ⟨hbuild, senderIdx, np, responder, r, hparse, Except.eq_ok_of_toOption hnew,
    Except.eq_ok_of_toOption hread, hpin⟩

namespace Steady

/-- What the check for a dead link and the bad frame limit read: `last_rx` and the count of
consecutive bad frames. -/
def liveness (s : Steady H M) : ℕ × ℕ :=
  (s.lastRx, s.policy.consecutiveBadFrames)

/-- `last_rx` changed, or the count of consecutive bad frames was reset. -/
def Refreshed (s t : Steady H M) : Prop :=
  t.lastRx ≠ s.lastRx ∨ s.policy.consecutiveBadFrames ≠ 0 ∧ t.policy.consecutiveBadFrames = 0

instance (s t : Steady H M) : Decidable (Refreshed s t) :=
  inferInstanceAs (Decidable (_ ∨ _))

def Unrefreshed (v w : ℕ × ℕ) : Prop :=
  w.1 = v.1 ∧ (v.2 ≠ 0 → w.2 ≠ 0)

theorem unrefreshed_of_moves {v w : ℕ × ℕ} (h : Relation.ReflTransGen Unrefreshed v w) :
    Unrefreshed v w := by
  induction h with
  | refl => exact ⟨rfl, id⟩
  | tail _ hstep ih => exact ⟨hstep.1.trans ih.1, fun h => hstep.2 (ih.2 h)⟩

theorem liveness_ignoresCalls : IgnoresCalls (liveness : Steady H M → ℕ × ℕ) :=
  fun _ _ => rfl

abbrev Passive {α : Type} (m : Action H M α) : Prop :=
  EStateM.Silent liveness m

theorem passive_sendFrame (payload : Bytes) : Passive (sendFrame C payload) := by
  have hparts : Passive (sendParts C payload) := by
    rw [sendParts]
    split
    · exact silent_ask liveness_ignoresCalls _
    · refine (silent_ask liveness_ignoresCalls _).bind fun ok => ?_
      split
      · exact silent_ask liveness_ignoresCalls _
      · exact .pure _
  refine hparts.bind fun ok => ?_
  split
  · exact fun _ => ⟨_, _, rfl, rfl⟩
  · exact .pure _

theorem passive_recordSent (c : UInt64) (ts : UInt32) (bytes : ℕ) :
    Passive (recordSent C c ts bytes) := by
  rw [recordSent]
  split
  · exact .modify fun _ => rfl
  · exact .pure _

theorem passive_sealAndSend (c : UInt64) (msg : Bytes) (innerLen : ℕ) :
    Passive (sealAndSend C c msg innerLen) := by
  refine (silent_ask liveness_ignoresCalls _).bind fun t => ?_
  split
  · exact .pure _
  · refine .get_bind fun s => ?_
    split
    · exact .pure _
    · refine EStateM.Silent.bind (.modify fun _ => rfl) fun _ => ?_
      refine (passive_sendFrame C _).bind fun _ => ?_
      exact (passive_recordSent C _ _ _).bind fun _ => .pure _

theorem passive_sendDisconnect (reason : UInt8) : Passive (sendDisconnect C reason) := by
  have htake : Passive (takeCounter : Action H M UInt64) := fun _ => ⟨_, _, rfl, rfl⟩
  exact htake.bind fun c => (passive_sealAndSend C c _ _).bind fun _ => .pure _

theorem unrefreshed_rejectFrame :
    EStateM.Simulated liveness Unrefreshed (rejectFrame C) := by
  refine (silent_ask liveness_ignoresCalls _).simulated.bind fun t => ?_
  intro s
  refine EStateM.SimulatedAt.get_bind ?_
  split
  · exact .pure _ _
  · refine EStateM.SimulatedAt.set_bind (.single ⟨rfl, ?_⟩) ?_
    · intro _
      change min (s.policy.consecutiveBadFrames + 1) (2 ^ 16 - 1) ≠ 0
      omega
    · split
      · exact (passive_sendDisconnect C _).simulated.bind (fun _ => .throw _) _
      · exact .pure _ _

variable {frame : Bytes} {s : Steady H M}

theorem yields_answerMsg1 {np : Bytes} {senderIdx : SessionIndex} (hbuild : C.build = .ik)
    (hparse : parseMessage C.build frame = some (.msg1 senderIdx np)) :
    EStateM.Yields liveness (fun answered => answered = true → AuthenticMsg1 C frame)
      (answerMsg1 C senderIdx (np.take 128) (frame.take 128)) := by
  rw [answerMsg1]
  split
  · refine .get_bind fun s => ?_
    refine (yields_answerRekeyMsg1Ik C liveness_ignoresCalls _ _ _).bind fun r hr => ?_
    split
    · exact .pure (by simp)
    · rename_i slot msg2
      obtain ⟨eph, ourIndex, ks, kr, hanswer, -⟩ := hr _ rfl
      have hauthentic := authenticMsg1_of_ikAnswer C hbuild hparse hanswer
      refine (EStateM.Yields.of_silent (Q := fun _ => True) (passive_sendFrame C _)
        fun _ => trivial).bind fun _ _ => ?_
      exact fun _ => ⟨rfl, fun _ => hauthentic⟩
  · rename_i hxx
    cases hbuild.symm.trans hxx

theorem unrefreshedAt_handleMsg1 {np : Bytes} {senderIdx : SessionIndex} (hbuild : C.build = .ik)
    (hparse : parseMessage C.build frame = some (.msg1 senderIdx np))
    (hauth : ¬ AuthenticMsg1 C frame) (hdup : s.lastRekeyMsg1 ≠ some (frame.take 128)) :
    EStateM.SimulatedAt liveness Unrefreshed s (handleMsg1 C frame senderIdx np) := by
  refine EStateM.SimulatedAt.modify_bind .refl ?_
  refine EStateM.SimulatedAt.get_bind ?_
  split
  · rename_i h
    exact absurd h hdup
  · refine (yields_freshOk C liveness_ignoresCalls).simulated_bind (fun ok _ => ?_) _
    split
    · refine (silent_ask liveness_ignoresCalls _).simulated.bind fun t => ?_
      refine .modify_bind (fun _ => rfl) ?_
      refine (yields_answerMsg1 C hbuild hparse).simulated_bind fun answered hanswered => ?_
      split
      · exact absurd (hanswered ‹_›) hauth
      · exact .pure _
    · exact .pure _

theorem Opened.liveness_eq {t : Steady H M} {r : Option (DecryptedFrame × Winner)}
    (h : Opened C frame s r t) : t.liveness = s.liveness := by
  cases h <;> rfl

theorem Opened.not_refuses {t : Steady H M} {x : DecryptedFrame × Winner}
    (h : Opened C frame s (some x) t) : ∃ slot, s.view.Live slot ∧ ¬ slot.Refuses C frame := by
  cases h with
  | byCur hcur => exact ⟨s.cur, .inr (.inl rfl), fun h => h.not_took hcur.took⟩
  | byPend _ hpend hopen => exact ⟨_, .inl hpend, fun h => h.not_took hopen.took⟩
  | byPrev _ _ hprev hopen => exact ⟨_, .inr (.inr hprev), fun h => h.not_took hopen.took⟩

theorem unrefreshedAt_handleEstablished
    (hrefuses : ∀ slot, s.view.Live slot → slot.Refuses C frame) :
    EStateM.SimulatedAt liveness Unrefreshed s (handleEstablished C frame) := by
  rw [EStateM.SimulatedAt, handleEstablished]
  obtain ⟨t, hrun, haborted⟩ | ⟨r, t, hrun, hopened⟩ := openFrame_cases C frame s
  · rw [EStateM.run_bind_error hrun]
    obtain ⟨hcur, hpend⟩ := haborted
    exact .refl
  · rw [EStateM.run_bind_ok hrun,
      run_note_bind]
    cases r with
    | none =>
        rw [← hopened.liveness_eq]
        exact unrefreshed_rejectFrame C { t with trace := .frame (.received frame) :: t.trace }
    | some x =>
        obtain ⟨slot, hlive, hnot⟩ := hopened.not_refuses
        exact absurd (hrefuses slot hlive) hnot

/-- The branches that count a frame as a sign of life whatever its handshake message comes to: a
msg1 of the XX wire that was not answered last, a msg2 while a rekey of our own waits for one, and
a msg3 of the XX wire while a responder waits for one. -/
def unchecked (s : Steady H M) (frame : Bytes) : Bool :=
  match parseMessage C.build frame with
  | some (.msg1 _ _) => C.build = .xx ∧ s.lastRekeyMsg1 ≠ some (frame.take 128)
  | some (.msg2 _ _ _) => s.rekeyInit.isSome
  | some (.msg3 _ _ _) => C.build = .xx ∧ s.rekeyHs.isSome
  | _ => false

theorem checkFrameRate_consecutiveBadFrames (t : ℕ) (policy : PeerPolicy) :
    (policy.checkFrameRate t).2.consecutiveBadFrames = policy.consecutiveBadFrames := by
  simp only [PeerPolicy.checkFrameRate]
  split_ifs <;> rfl

theorem unrefreshedAt_handleFrame (hunchecked : unchecked C s frame = false)
    (hauth : ¬ AuthenticMsg1 C frame)
    (hdup : ∀ senderIdx np, parseMessage C.build frame = some (.msg1 senderIdx np) →
      s.lastRekeyMsg1 ≠ some (frame.take 128))
    (hrefuses : ∀ slot, s.view.Live slot → slot.Refuses C frame) :
    EStateM.SimulatedAt liveness Unrefreshed s (handleFrame C frame) := by
  have hestablished (t : Steady H M) (ht : t.view = s.view) :
      EStateM.SimulatedAt liveness Unrefreshed t (handleEstablished C frame) :=
    unrefreshedAt_handleEstablished C (by rw [ht]; exact hrefuses)
  have hrate : Unrefreshed s.liveness
      (s.lastRx, (s.policy.checkFrameRate (C.world.clock s.calls)).2.consecutiveBadFrames) := by
    rw [checkFrameRate_consecutiveBadFrames]
    exact ⟨rfl, id⟩
  refine EStateM.SimulatedAt.bind
    ((silent_ask liveness_ignoresCalls C.world.clock).simulated s) fun t s' hrun => ?_
  obtain ⟨rfl, rfl⟩ := EStateM.Result.ok.inj hrun
  refine EStateM.SimulatedAt.get_bind (EStateM.SimulatedAt.set_bind ?_ ?_)
  · exact .single hrate
  · split
    · exact .pure _ _
    · split
      · rename_i senderIdx np _ _ hparse
        have hne := hdup _ _ hparse
        have hik : C.build = .ik := by
          rw [unchecked, hparse] at hunchecked
          cases hbuild : C.build with
          | ik => rfl
          | xx => simp [hbuild, hne] at hunchecked
        exact unrefreshedAt_handleMsg1 C hik hparse hauth hne
      · rename_i hs hparse hhs
        split
        · rename_i hxx
          rw [unchecked, hparse] at hunchecked
          rw [show s.rekeyHs = some hs from hhs] at hunchecked
          simp [hxx] at hunchecked
        · exact hestablished _ rfl
      · rename_i ri hparse hri
        rw [unchecked, hparse] at hunchecked
        rw [show s.rekeyInit = some ri from hri] at hunchecked
        cases hunchecked
      · exact hestablished _ rfl

end Steady

end Node
end Microfips
