import Microfips.Node.Ledger

/-!
# Who brings an epoch into use

A slot in `pend` becomes `cur` when a frame opens under it, or on a tick of the timer while
`pend_self` is set.  The flag is meant for slots of the node's own rekeys, but it is only cleared
by the timer, so a rekey of the peer that is answered while it is set arms a slot that the timer
promotes.  In a session in which that does not happen, slots of the peer wait for a proof.
-/

namespace Microfips
namespace Node

open Noise Wire

/-- A rekey of the peer armed a slot while `pend_self` was set. -/
def KeyEvent.armsClaimed : KeyEvent → Bool
  | .armed .peer _ _ true => true
  | _ => false

/-- No rekey of the peer armed a slot while `pend_self` was set. -/
def ArmedUnclaimed (tr : List KeyEvent) : Prop :=
  ∀ e ∈ tr, e.armsClaimed = false

instance (tr : List KeyEvent) : Decidable (ArmedUnclaimed tr) :=
  inferInstanceAs (Decidable (∀ e ∈ tr, _))

theorem ArmedUnclaimed.of_suffix {tr tr' : List KeyEvent} (h : tr <:+ tr')
    (hunclaimed : ArmedUnclaimed tr') : ArmedUnclaimed tr :=
  fun e he => hunclaimed e (h.subset he)

variable {H M : Type} (C : Config H M)

/-- What a cutover of a slot needs: the timer is for slots of our own, any other slot is promoted
by a frame that opens under it. -/
def Justified : KeyEvent → Prop
  | .cutover origin _ .timer => origin = .own
  | .cutover _ kr (.proof frame) => ∃ c, Opens C.suite C.build kr frame c
  | _ => True

structure ProofAwaited (v : EpochView) : Prop where
  pendSelf : v.pendSelf = true → ∀ slot ∈ v.pend, slot.origin = .own
  justified : ∀ e ∈ v.trace, Justified C e
  cutover : v.cur.origin ≠ .initial → ∃ cause, .cutover v.cur.origin v.cur.kr cause ∈ v.trace

variable {C}

variable {v w : EpochView}

theorem ProofAwaited.of_cur (hv : ProofAwaited C v)
    (hpend : w.pendSelf = true → ∀ slot ∈ w.pend, slot.origin = .own) (events : List KeyEvent)
    (htrace : w.trace = events ++ v.trace) (hevents : ∀ e ∈ events, Justified C e)
    (horigin : w.cur.origin = v.cur.origin) (hkr : w.cur.kr = v.cur.kr) : ProofAwaited C w := by
  refine ⟨hpend, fun e he => ?_, fun hne => ?_⟩
  · rw [htrace] at he
    exact (List.mem_append.mp he).elim (hevents e) (hv.justified e)
  · obtain ⟨cause, hcause⟩ := hv.cutover (horigin ▸ hne)
    rw [htrace, horigin, hkr]
    exact ⟨cause, List.mem_append_right _ hcause⟩

theorem ProofAwaited.move (hv : ProofAwaited C v) (h : EpochMove C v w)
    (hgood : ArmedUnclaimed w.trace) : ProofAwaited C w := by
  cases h with
  | spend => exact hv.of_cur hv.pendSelf [_] rfl (by simp [Justified]) rfl rfl
  | sealFrame => exact hv.of_cur hv.pendSelf [_, _] rfl (by simp [Justified]) rfl rfl
  | armPeer ks kr them =>
      refine hv.of_cur (fun hself => ?_) [_] rfl (by simp [Justified]) rfl rfl
      have hunclaimed := hgood _ List.mem_cons_self
      rw [show v.pendSelf = true from hself] at hunclaimed
      cases hunclaimed
  | armOwn ks kr them =>
      refine hv.of_cur (fun _ slot hslot => ?_) [_] rfl (by simp [Justified]) rfl rfl
      obtain rfl := Option.some.inj hslot
      rfl
  | cutover hself hpend =>
      refine ⟨by simp, ?_, fun _ => ⟨_, List.mem_cons_self⟩⟩
      simpa [Justified] using ⟨hv.pendSelf hself _ hpend, hv.justified⟩
  | burnCur h =>
      exact hv.of_cur hv.pendSelf [] rfl (by simp) h.origin_eq h.kr_eq
  | @burnPend _ _ old slot hpend h =>
      refine hv.of_cur (fun hself slot' hslot => ?_) [] rfl (by simp) rfl rfl
      obtain rfl := Option.some.inj hslot
      rw [h.eq]
      exact hv.pendSelf hself old hpend
  | burnPrev hprev h => exact hv.of_cur hv.pendSelf [] rfl (by simp) rfl rfl
  | openCur h =>
      exact hv.of_cur hv.pendSelf [_] rfl (by simp [Justified]) h.origin_eq h.kr_eq
  | openPrev hprev h => exact hv.of_cur hv.pendSelf [_] rfl (by simp [Justified]) rfl rfl
  | @openPend _ _ old slot hpend h =>
      refine ⟨by simp, ?_, fun _ => ⟨_, List.mem_cons_of_mem _ List.mem_cons_self⟩⟩
      simpa [Justified, h.kr_eq] using ⟨⟨_, h.opens⟩, hv.justified⟩
  | drain => exact hv.of_cur hv.pendSelf [] rfl (by simp) rfl rfl

theorem EpochMove.suffix (h : EpochMove C v w) : v.trace <:+ w.trace := by
  cases h
  all_goals first
    | exact List.suffix_refl _
    | exact List.suffix_cons _ _
    | exact ⟨[_, _], rfl⟩

namespace Scenario

def bobCrossed : Steady PUnit PUnit := Steady.after bob bobStart [.timer, .timer, .recv aliceMsg1]

def crossed : List Steady.Input :=
  [.timer, .timer, .recv (lastSent .msg2 bobCrossed), .recv (lastSent .msg1 bobCrossed), .timer]

end Scenario

namespace Steady

/-- In a session in which no rekey of the peer arms a slot while `pend_self` is set, a slot of the
peer is promoted by a frame that opens under its receive key, the timer promotes slots of our own
rekeys only, and a slot that is in use has been promoted. -/
theorem cutover_justified {s : Steady H M} (hs : Entered C s) (inputs : List Input)
    (hunclaimed : ArmedUnclaimed (keysAfter C s inputs)) :
    (∀ kr cause, .cutover .peer kr cause ∈ keysAfter C s inputs →
      ∃ frame c, cause = .proof frame ∧ Opens C.suite C.build kr frame c) ∧
    (∀ origin kr, .cutover origin kr .timer ∈ keysAfter C s inputs → origin = .own) ∧
    ((after C s inputs).cur.origin ≠ .initial → ∃ cause,
      .cutover (after C s inputs).cur.origin (after C s inputs).cur.kr cause ∈
        keysAfter C s inputs) := by
  have hupholds := Trace.Upholds.of_reflTransGen ArmedUnclaimed.of_suffix
    (fun v w h => ⟨h.suffix, fun hv hgood => ProofAwaited.move hv h hgood⟩)
    (run_epochMoves C s inputs)
  have hstart : ProofAwaited C s.view.epochs := by
    obtain ⟨ks, kr, them, policy, handler, mmp, calls⟩ := hs
    refine ⟨by rintro ⟨⟩, fun e he => ?_, fun h => absurd rfl h⟩
    obtain rfl := List.mem_singleton.mp he
    trivial
  have hawaited := hupholds.2 hstart hunclaimed
  refine ⟨fun kr cause he => ?_, fun origin kr he => hawaited.justified _ he, hawaited.cutover⟩
  cases cause with
  | timer => exact absurd (hawaited.justified _ he) (by simp [Justified])
  | proof frame =>
      obtain ⟨c, hopens⟩ := hawaited.justified _ he
      exact ⟨frame, c, rfl, hopens⟩

open Scenario in
theorem cutover_justified_follows :
    ∃ cause frame c,
      .cutover .peer (after bob bobStart bobFollows).cur.kr cause ∈
        keysAfter bob bobStart bobFollows ∧ cause = .proof frame ∧
      Opens bob.suite bob.build (after bob bobStart bobFollows).cur.kr frame c := by
  have h : ArmedUnclaimed (keysAfter bob bobStart bobFollows) ∧
      (after bob bobStart bobFollows).cur.origin = .peer := by
    decide +kernel
  obtain ⟨hpeer, -, hcur⟩ := cutover_justified bobStart_entered bobFollows h.1
  obtain ⟨cause, hmem⟩ := hcur (by simp [h.2])
  rw [h.2] at hmem
  obtain ⟨frame, c, hcause, hopens⟩ := hpeer _ cause hmem
  exact ⟨cause, frame, c, hmem, hcause, hopens⟩

open Scenario in
/-- The timer promotes the slot that answers the msg1 of `bob`: it was armed while `pend_self` was
set for the slot before it, and no frame of `bob` has come under it. -/
theorem cutover_crossed :
    .cutover .peer (after alice aliceStart crossed).cur.kr .timer ∈
      keysAfter alice aliceStart crossed := by
  decide +kernel

end Steady
end Node
end Microfips
