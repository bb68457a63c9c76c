import Mathlib.Data.Option.Basic
import Microfips.Node.Steady

/-!
# Trial decryption

What the trial of a received frame on the live epochs does, told slot by slot.  A slot refuses
the frame and stays as it is, or the cipher opens the frame and the window of the slot takes its
counter.  The latter does not always give a link message: the counter of an empty plaintext is
taken too, and the trial goes on with the next slot.
-/

namespace Microfips
namespace Node

open Noise Wire

variable {H M : Type} (C : Config H M)

namespace EpochSlot

/-- The slot opened `frame` with the counter `c`, and its window took the counter. -/
def Took (slot : EpochSlot) (frame : Bytes) (c : UInt64) (slot' : EpochSlot) : Prop :=
  slot.replay.check C.usizeBits c = true ∧ Opens C.suite C.build slot.kr frame c ∧
    ∃ replay, slot.replay.accept C.usizeBits c = some replay ∧
      slot' = { slot with replay := replay }

def Refuses (slot : EpochSlot) (frame : Bytes) : Prop :=
  ∀ c, Opens C.suite C.build slot.kr frame c → slot.replay.check C.usizeBits c = false

/-- The trial of `frame` on a slot, with what it gives and the slot afterwards. -/
inductive Trial (slot : EpochSlot) (frame : Bytes) : Option DecryptedFrame → EpochSlot → Prop where
  | refused (h : slot.Refuses C frame) : Trial slot frame none slot
  | burnt {c : UInt64} {slot' : EpochSlot} (h : slot.Took C frame c slot') :
      Trial slot frame none slot'
  | opened {f : DecryptedFrame} {slot' : EpochSlot} (h : slot.Took C frame f.counter slot') :
      Trial slot frame (some f) slot'

variable {slot slot' : EpochSlot} {frame : Bytes} {c : UInt64}

theorem trial_of_decrypt {r : Option DecryptedFrame} {replay : ReplayWindow}
    (h : decryptEstablishedFrame C.suite C.build C.usizeBits slot.kr frame slot.replay =
      .ok (r, replay)) : slot.Trial C frame r { slot with replay := replay } := by
  obtain ⟨rfl, rfl, hrefuses⟩ | ⟨c, hcheck, haccept, hopens, hr⟩ := decryptEstablishedFrame_cases h
  · exact .refused hrefuses
  · cases r with
    | none => exact .burnt ⟨hcheck, hopens, replay, haccept, rfl⟩
    | some f =>
        obtain rfl := hr f rfl
        exact .opened ⟨hcheck, hopens, replay, haccept, rfl⟩

variable {C}

theorem Took.opens (h : slot.Took C frame c slot') : Opens C.suite C.build slot.kr frame c :=
  h.2.1

theorem Took.eq (h : slot.Took C frame c slot') : slot' = { slot with replay := slot'.replay } := by
  obtain ⟨-, -, replay, -, rfl⟩ := h
  rfl

theorem Took.ks_eq (h : slot.Took C frame c slot') : slot'.ks = slot.ks := by
  rw [h.eq]

theorem Took.kr_eq (h : slot.Took C frame c slot') : slot'.kr = slot.kr := by
  rw [h.eq]

theorem Took.origin_eq (h : slot.Took C frame c slot') : slot'.origin = slot.origin := by
  rw [h.eq]

theorem Trial.eq {r : Option DecryptedFrame} (h : slot.Trial C frame r slot') :
    slot' = { slot with replay := slot'.replay } := by
  cases h with
  | refused => rfl
  | burnt h => exact h.eq
  | opened h => exact h.eq

theorem Trial.took {f : DecryptedFrame} (h : slot.Trial C frame (some f) slot') :
    slot.Took C frame f.counter slot' := by
  cases h with
  | opened h => exact h

end EpochSlot

abbrev Missed (frame : Bytes) (slot slot' : Option EpochSlot) : Prop :=
  Option.Rel (fun old new => old.Trial C frame none new) slot slot'

namespace Steady

/-- The trial decryption of `frame`: which slot gives a link message, and the slots afterwards. -/
inductive Opened (frame : Bytes) (s : Steady H M) :
    Option (DecryptedFrame × Winner) → Steady H M → Prop where
  | missed {cur : EpochSlot} {pend prev : Option EpochSlot} (hcur : s.cur.Trial C frame none cur)
      (hpend : Missed C frame s.pend pend) (hprev : Missed C frame s.prev prev) :
      Opened frame s none { s with cur := cur, pend := pend, prev := prev }
  | byCur {f : DecryptedFrame} {cur : EpochSlot} {pend : Option EpochSlot}
      (hcur : s.cur.Trial C frame (some f) cur)
      (hpend : pend = s.pend ∨ Missed C frame s.pend pend) :
      Opened frame s (some (f, .cur)) { s with cur := cur, pend := pend }
  | byPend {f : DecryptedFrame} {cur old slot : EpochSlot}
      (hcur : cur = s.cur ∨ s.cur.Trial C frame none cur) (hpend : s.pend = some old)
      (hopen : old.Trial C frame (some f) slot) :
      Opened frame s (some (f, .pend)) { s with cur := cur, pend := some slot }
  | byPrev {f : DecryptedFrame} {cur old slot : EpochSlot} {pend : Option EpochSlot}
      (hcur : s.cur.Trial C frame none cur) (hpend : Missed C frame s.pend pend)
      (hprev : s.prev = some old) (hopen : old.Trial C frame (some f) slot) :
      Opened frame s (some (f, .prev)) { s with cur := cur, pend := pend, prev := some slot }

/-- A trial decryption that panics has tried some slots. -/
inductive Aborted (frame : Bytes) (s : Steady H M) : Steady H M → Prop where
  | intro {cur : EpochSlot} {pend : Option EpochSlot}
      (hcur : cur = s.cur ∨ s.cur.Trial C frame none cur)
      (hpend : pend = s.pend ∨ Missed C frame s.pend pend) :
      Aborted frame s { s with cur := cur, pend := pend }

theorem tryCur_cases (frame : Bytes) (s : Steady H M) :
    (tryCur C frame).run s = .error .panic s ∨
      ∃ r cur, s.cur.Trial C frame r cur ∧
        (tryCur C frame).run s = .ok r { s with cur := cur } := by
  rw [tryCur, EStateM.run_get_bind]
  split
  · exact .inl rfl
  · rename_i r replay h
    exact .inr ⟨r, _, EpochSlot.trial_of_decrypt C h, rfl⟩

abbrev Tried (frame : Bytes) (slot : Option EpochSlot) (r : Option DecryptedFrame)
    (slot' : Option EpochSlot) : Prop :=
  r = none ∧ Missed C frame slot slot' ∨
    ∃ f old new, r = some f ∧ slot = some old ∧ slot' = some new ∧ old.Trial C frame (some f) new

theorem tried_of_decrypt {slot : EpochSlot} {frame : Bytes} {r : Option DecryptedFrame}
    {replay : ReplayWindow}
    (h : decryptEstablishedFrame C.suite C.build C.usizeBits slot.kr frame slot.replay =
      .ok (r, replay)) :
    Tried C frame (some slot) r (some { slot with replay := replay }) := by
  have htrial := EpochSlot.trial_of_decrypt C h
  cases r with
  | none => exact .inl ⟨rfl, .some htrial⟩
  | some f => exact .inr ⟨f, slot, _, rfl, rfl, rfl, htrial⟩

theorem tryPend_cases (frame : Bytes) (s : Steady H M) :
    (tryPend C frame).run s = .error .panic s ∨
      ∃ r pend, Tried C frame s.pend r pend ∧
        (tryPend C frame).run s = .ok r { s with pend := pend } := by
  rw [tryPend, EStateM.run_get_bind]
  split
  · rename_i hpend
    refine .inr ⟨none, none, .inl ⟨rfl, ?_⟩, ?_⟩
    · rw [hpend]
      exact .none
    · rw [← hpend]
      rfl
  · rename_i slot hpend
    split
    · exact .inl rfl
    · rename_i r replay h
      exact .inr ⟨r, _, hpend ▸ tried_of_decrypt C h, rfl⟩

theorem tryPrev_cases (frame : Bytes) (s : Steady H M) :
    (tryPrev C frame).run s = .error .panic s ∨
      ∃ r prev, Tried C frame s.prev r prev ∧
        (tryPrev C frame).run s = .ok r { s with prev := prev } := by
  rw [tryPrev, EStateM.run_get_bind]
  split
  · rename_i hprev
    refine .inr ⟨none, none, .inl ⟨rfl, ?_⟩, ?_⟩
    · rw [hprev]
      exact .none
    · rw [← hprev]
      rfl
  · rename_i slot hprev
    split
    · exact .inl rfl
    · rename_i r replay h
      exact .inr ⟨r, _, hprev ▸ tried_of_decrypt C h, rfl⟩

theorem tryPrevLast_cases {frame : Bytes} {s : Steady H M} {cur : EpochSlot}
    {pend : Option EpochSlot} (hcur : s.cur.Trial C frame none cur)
    (hpend : Missed C frame s.pend pend) :
    (∃ t, (tryPrevLast C frame).run { s with cur := cur, pend := pend } = .error .panic t ∧
        Aborted C frame s t) ∨
      ∃ r t, (tryPrevLast C frame).run { s with cur := cur, pend := pend } = .ok r t ∧
        Opened C frame s r t := by
  rw [tryPrevLast]
  obtain hrun | ⟨r, prev, htried, hrun⟩ :=
    tryPrev_cases C frame { s with cur := cur, pend := pend }
  · rw [EStateM.run_bind_error hrun]
    exact .inl ⟨_, rfl, .intro (.inr hcur) (.inr hpend)⟩
  · rw [EStateM.run_bind_ok hrun]
    obtain ⟨rfl, hmissed⟩ | ⟨f, old, slot, rfl, hold, rfl, hopen⟩ := htried
    · exact .inr ⟨_, _, rfl, .missed hcur hpend hmissed⟩
    · exact .inr ⟨_, _, rfl, .byPrev hcur hpend hold hopen⟩

theorem openFrame_cases (frame : Bytes) (s : Steady H M) :
    (∃ t, (openFrame C frame).run s = .error .panic t ∧ Aborted C frame s t) ∨
      ∃ r t, (openFrame C frame).run s = .ok r t ∧ Opened C frame s r t := by
  rw [openFrame, EStateM.run_get_bind]
  split
  · -- the frame is of the other epoch bit: pend goes first
    obtain hrun | ⟨r, pend, htried, hrun⟩ := tryPend_cases C frame s
    · rw [EStateM.run_bind_error hrun]
      exact .inl ⟨_, rfl, .intro (.inl rfl) (.inl rfl)⟩
    · rw [EStateM.run_bind_ok hrun]
      obtain ⟨rfl, hpend⟩ | ⟨f, old, slot, rfl, hold, rfl, hopen⟩ := htried
      · obtain hrun' | ⟨r, cur, hcur, hrun'⟩ := tryCur_cases C frame { s with pend := pend }
        · dsimp only
          rw [EStateM.run_bind_error hrun']
          exact .inl ⟨_, rfl, .intro (.inl rfl) (.inr hpend)⟩
        · dsimp only
          rw [EStateM.run_bind_ok hrun']
          cases r with
          | none => exact tryPrevLast_cases (s := s) C hcur hpend
          | some f => exact .inr ⟨_, _, rfl, .byCur hcur (.inr hpend)⟩
      · exact .inr ⟨_, _, rfl, .byPend (.inl rfl) hold hopen⟩
  · obtain hrun | ⟨r, cur, hcur, hrun⟩ := tryCur_cases C frame s
    · rw [EStateM.run_bind_error hrun]
      exact .inl ⟨_, rfl, .intro (.inl rfl) (.inl rfl)⟩
    · rw [EStateM.run_bind_ok hrun]
      cases r with
      | some f => exact .inr ⟨_, _, rfl, .byCur hcur (.inl rfl)⟩
      | none =>
          obtain hrun' | ⟨r, pend, htried, hrun'⟩ := tryPend_cases C frame { s with cur := cur }
          · dsimp only
            rw [EStateM.run_bind_error hrun']
            exact .inl ⟨_, rfl, .intro (.inr hcur) (.inl rfl)⟩
          · dsimp only
            rw [EStateM.run_bind_ok hrun']
            obtain ⟨rfl, hpend⟩ | ⟨f, old, slot, rfl, hold, rfl, hopen⟩ := htried
            · exact tryPrevLast_cases (s := s) C hcur hpend
            · exact .inr ⟨_, _, rfl, .byPend (.inr hcur) hold hopen⟩

end Steady
end Node
end Microfips
