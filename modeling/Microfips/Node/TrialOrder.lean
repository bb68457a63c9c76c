import Microfips.Node.Repeats

/-!
# The order of the trials

The key epoch bit of a received frame decides whether `cur` or `pend` is tried first.  It decides
nothing else: of two slots one does not open the frame, and the trial of that slot leaves its window
alone, so the two orders give the same link message, from the same slot, and the same windows.

The bits that a session puts on its slots alternate: the epochs before and after the current one
carry the other bit.
-/

namespace Microfips
namespace Node

open Noise Wire

variable {H M : Type} {C : Config H M}

/-- The pending and the previous slot carry the other key epoch bit than the current one. -/
structure EpochView.Alternates (v : EpochView) : Prop where
  pend : ∀ slot ∈ v.pend, slot.kBit = !v.cur.kBit
  prev : ∀ slot ∈ v.prev, slot.kBit = !v.cur.kBit

theorem EpochSlot.Took.kBit_eq {slot slot' : EpochSlot} {frame : Bytes} {c : UInt64}
    (h : slot.Took C frame c slot') : slot'.kBit = slot.kBit := by
  rw [h.eq]

theorem EpochView.Alternates.move {v w : EpochView} (hv : v.Alternates) (h : EpochMove C v w) :
    w.Alternates := by
  cases h with
  | spend => exact ⟨hv.pend, hv.prev⟩
  | sealFrame => exact ⟨hv.pend, hv.prev⟩
  | armPeer ks kr them => exact ⟨by rintro slot ⟨⟩; rfl, hv.prev⟩
  | armOwn ks kr them => exact ⟨by rintro slot ⟨⟩; rfl, hv.prev⟩
  | cutover hself hpend =>
      refine ⟨by rintro slot ⟨⟩, ?_⟩
      rintro _ ⟨⟩
      rw [hv.pend _ hpend, Bool.not_not]
  | burnCur h =>
      constructor
      · rw [h.kBit_eq]
        exact hv.pend
      · rw [h.kBit_eq]
        exact hv.prev
  | burnPend hpend h =>
      refine ⟨?_, hv.prev⟩
      rintro _ ⟨⟩
      rw [h.kBit_eq]
      exact hv.pend _ hpend
  | burnPrev hprev h =>
      refine ⟨hv.pend, ?_⟩
      rintro _ ⟨⟩
      rw [h.kBit_eq]
      exact hv.prev _ hprev
  | openCur h =>
      constructor
      · rw [h.kBit_eq]
        exact hv.pend
      · rw [h.kBit_eq]
        exact hv.prev
  | openPrev hprev h =>
      refine ⟨hv.pend, ?_⟩
      rintro _ ⟨⟩
      rw [h.kBit_eq]
      exact hv.prev _ hprev
  | openPend hpend h =>
      refine ⟨by rintro slot ⟨⟩, ?_⟩
      rintro _ ⟨⟩
      rw [h.kBit_eq, hv.pend _ hpend, Bool.not_not]
  | drain => exact ⟨hv.pend, by rintro slot ⟨⟩⟩

namespace Steady

variable {s : Steady H M} {frame : Bytes}

theorem Entered.alternates (hs : Entered C s) : s.view.epochs.Alternates := by
  obtain ⟨ks, kr, them, policy, handler, mmp, calls⟩ := hs
  exact ⟨by rintro slot ⟨⟩, by rintro slot ⟨⟩⟩

theorem alternates_of_moves {v w : NodeView} (hv : v.epochs.Alternates)
    (h : Relation.ReflTransGen (AnyMove C) v w) : w.epochs.Alternates := by
  have hmoves : EpochMoves C v.epochs w.epochs :=
    Relation.ReflTransGen.lift' NodeView.epochs (fun _ _ h => h.elim fun _ h => Move.epochs C h)
      _ _ h
  generalize w.epochs = w' at hmoves ⊢
  induction hmoves with
  | refl => exact hv
  | tail _ hmove ih => exact ih.move hmove

variable (C)

def openInOrder (pendFirst : Bool) (frame : Bytes) :
    Action H M (Option (DecryptedFrame × Winner)) := do
  if pendFirst then
    match ← tryPend C frame with
    | some f => return some (f, .pend)
    | none =>
        match ← tryCur C frame with
        | some f => return some (f, .cur)
        | none => tryPrevLast C frame
  else
    match ← tryCur C frame with
    | some f => return some (f, .cur)
    | none =>
        match ← tryPend C frame with
        | some f => return some (f, .pend)
        | none => tryPrevLast C frame

theorem openFrame_run (frame : Bytes) (s : Steady H M) :
    (openFrame C frame).run s = (openInOrder C
      (decide (keyEpochBit C frame ≠ s.cur.kBit ∧ s.pend.isSome)) frame).run s := by
  rw [openFrame, EStateM.run_get_bind, openInOrder]
  by_cases hpend : keyEpochBit C frame ≠ s.cur.kBit ∧ s.pend.isSome
  · rw [if_pos hpend]
    exact (congrArg (EStateM.run · s) (if_pos (decide_eq_true hpend))).symm
  · have hfalse : ¬ decide (keyEpochBit C frame ≠ s.cur.kBit ∧ s.pend.isSome) = true := by
      rw [decide_eq_false hpend]
      exact Bool.false_ne_true
    rw [if_neg hpend]
    exact (congrArg (EStateM.run · s) (if_neg hfalse)).symm

/-- The cipher opens the frame under the key of at most one live slot. -/
def OpensOnce (frame : Bytes) (s : Steady H M) : Prop :=
  (s.cur :: (s.pend.toList ++ s.prev.toList)).Pairwise fun slot slot' =>
    openedCounter C.suite C.build slot.kr frame = none ∨
      openedCounter C.suite C.build slot'.kr frame = none

instance (frame : Bytes) (s : Steady H M) : Decidable (OpensOnce C frame s) :=
  inferInstanceAs (Decidable (List.Pairwise _ _))

variable {C}

theorem not_opens_of_openedCounter {kr : Block 32}
    (h : openedCounter C.suite C.build kr frame = none) (c : UInt64) :
    ¬ Opens C.suite C.build kr frame c := by
  rw [Opens, h]
  rintro ⟨⟩

theorem tryCur_of_not_opens (h : ∀ c, ¬ Opens C.suite C.build s.cur.kr frame c) :
    (tryCur C frame).run s = .ok none s := by
  rw [tryCur, EStateM.run_get_bind, decryptEstablishedFrame_of_not_opens h]
  rfl

theorem tryPend_of_not_opens (h : ∀ slot ∈ s.pend, ∀ c, ¬ Opens C.suite C.build slot.kr frame c) :
    (tryPend C frame).run s = .ok none s := by
  rw [tryPend, EStateM.run_get_bind]
  cases hpend : s.pend with
  | none => rfl
  | some slot =>
      simp only [decryptEstablishedFrame_of_not_opens (h slot hpend)]
      change EStateM.Result.ok none { s with pend := some slot } = _
      rw [← hpend]

theorem tryCur_pend {t : Steady H M} {r : Option DecryptedFrame}
    (h : (tryCur C frame).run s = .ok r t) : t.pend = s.pend := by
  obtain hrun | ⟨r', cur, -, hrun⟩ := tryCur_cases C frame s
  · cases hrun.symm.trans h
  · obtain ⟨-, rfl⟩ := EStateM.Result.ok.inj (hrun.symm.trans h)
    rfl

theorem tryPend_cur {t : Steady H M} {r : Option DecryptedFrame}
    (h : (tryPend C frame).run s = .ok r t) : t.cur = s.cur := by
  obtain hrun | ⟨r', pend, -, hrun⟩ := tryPend_cases C frame s
  · cases hrun.symm.trans h
  · obtain ⟨-, rfl⟩ := EStateM.Result.ok.inj (hrun.symm.trans h)
    rfl

/-- A pending slot that does not open the frame may be tried before the current one or behind it. -/
theorem openInOrder_of_pend (h : ∀ slot ∈ s.pend, ∀ c, ¬ Opens C.suite C.build slot.kr frame c) :
    (openInOrder C true frame).run s = (openInOrder C false frame).run s := by
  rw [openInOrder, openInOrder, if_pos rfl, if_neg Bool.false_ne_true,
    EStateM.run_bind_ok (tryPend_of_not_opens h)]
  cases hrun : (tryCur C frame).run s with
  | error e t => simp only [EStateM.run_bind_error hrun]
  | ok r t =>
      have hpend : (tryPend C frame).run t = .ok none t :=
        tryPend_of_not_opens ((tryCur_pend hrun).symm ▸ h)
      simp only [EStateM.run_bind_ok hrun]
      cases r with
      | none => simp only [EStateM.run_bind_ok hpend]
      | some f => rfl

theorem openInOrder_of_cur (h : ∀ c, ¬ Opens C.suite C.build s.cur.kr frame c) :
    (openInOrder C true frame).run s = (openInOrder C false frame).run s := by
  rw [openInOrder, openInOrder, if_pos rfl, if_neg Bool.false_ne_true,
    EStateM.run_bind_ok (tryCur_of_not_opens h)]
  cases hrun : (tryPend C frame).run s with
  | error e t => simp only [EStateM.run_bind_error hrun]
  | ok r t =>
      have hcur : (tryCur C frame).run t = .ok none t :=
        tryCur_of_not_opens ((tryPend_cur hrun).symm ▸ h)
      simp only [EStateM.run_bind_ok hrun]
      cases r with
      | none => simp only [EStateM.run_bind_ok hcur]
      | some f => rfl

theorem openInOrder_eq (h : OpensOnce C frame s) :
    (openInOrder C true frame).run s = (openInOrder C false frame).run s := by
  cases hcur : openedCounter C.suite C.build s.cur.kr frame with
  | none => exact openInOrder_of_cur (not_opens_of_openedCounter hcur)
  | some c =>
      refine openInOrder_of_pend fun slot hslot => not_opens_of_openedCounter ?_
      have hmem : slot ∈ s.pend.toList ++ s.prev.toList :=
        List.mem_append_left _ (Option.mem_toList.mpr hslot)
      exact ((List.pairwise_cons.mp h).1 slot hmem).resolve_left (hcur ▸ Option.some_ne_none c)

variable (C) in
/-- A state of a session that was entered as `s₀`: between two passes of its loop, at its end, or
about to handle a frame. -/
def Reached (s₀ s : Steady H M) : Prop :=
  (∃ inputs, s = after C s₀ inputs) ∨ TakesUp C s₀ s

theorem Reached.moves {s₀ : Steady H M} (h : Reached C s₀ s) :
    Relation.ReflTransGen (AnyMove C) s₀.view s.view := by
  rcases h with ⟨inputs, rfl⟩ | h
  · exact simulated_run C inputs s₀
  · exact h.moves

/-- In every state of a session the pending and the previous slot carry the other key epoch bit than
the current one.  A frame that the cipher opens under the key of at most one slot gives the same
link message from the same slot, and leaves the same windows, in both orders of the trials, and so
whichever of them its key epoch bit selects. -/
theorem trialOrder_irrelevant {s₀ s : Steady H M} (hs : Entered C s₀) (h : Reached C s₀ s) :
    (∀ slot, s.pend = some slot ∨ s.prev = some slot → slot.kBit = !s.cur.kBit) ∧
      ∀ frame, OpensOnce C frame s →
        (openInOrder C true frame).run s = (openInOrder C false frame).run s ∧
          ∀ pendFirst, (openFrame C frame).run s = (openInOrder C pendFirst frame).run s := by
  have halternates := alternates_of_moves hs.alternates h.moves
  constructor
  · rintro slot (hpend | hprev)
    · exact halternates.pend slot hpend
    · exact halternates.prev slot hprev
  · intro frame honce
    have heq := openInOrder_eq honce
    refine ⟨heq, fun pendFirst => ?_⟩
    rw [openFrame_run]
    cases decide (keyEpochBit C frame ≠ s.cur.kBit ∧ s.pend.isSome) <;> cases pendFirst
    · rfl
    · exact heq.symm
    · exact heq
    · rfl

open Scenario in
/-- `bob` has answered the msg1 of a rekey, and the first frame of `alice` under the new keys comes:
only the pending slot opens it. -/
theorem trialOrder_irrelevant_proof :
    (after bob bobStart [.recv aliceMsg1]).pend.isSome ∧
      ∀ pendFirst, (openFrame bob aliceProof).run (after bob bobStart [.recv aliceMsg1]) =
        (openInOrder bob pendFirst aliceProof).run (after bob bobStart [.recv aliceMsg1]) := by
  have h : (after bob bobStart [.recv aliceMsg1]).pend.isSome ∧
      OpensOnce bob aliceProof (after bob bobStart [.recv aliceMsg1]) := by
    decide +kernel
  have hreached : Reached bob bobStart (after bob bobStart [.recv aliceMsg1]) := .inl ⟨_, rfl⟩
  generalize after bob bobStart [.recv aliceMsg1] = s at h hreached ⊢
  exact ⟨h.1, ((trialOrder_irrelevant bobStart_entered hreached).2 _ h.2).2⟩

end Steady
end Node
end Microfips
