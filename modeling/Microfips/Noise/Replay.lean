import Mathlib.Data.BitVec
import Mathlib.Data.List.GetD
import Microfips.Data.SlidingWindow

/-!
# The replay window

`ReplayWindow` of `fips-noise`: a bitmap of 32 words whose bit `d` stands for the counter
`highest - d`.  `check` is asked before a frame is decrypted and `accept` called after.  Both
cast differences of counters to `usize`; its width is a parameter.

The bitmap is read here through `bitAt`, the loops of `shift_bitmap` are shown to move every
bit by the shift, and the window is shown to refine a `SlidingWindow` of 2048 counters.
-/

namespace Microfips
namespace Noise

def replayWindowSize : ℕ := 2048

structure ReplayWindow where
  highest : UInt64
  bitmap : List (BitVec 64)
  bitmap_length : bitmap.length = 32
  deriving DecidableEq

namespace ReplayWindow

def asUsize (w : ℕ) (d : UInt64) : ℕ :=
  d.toNat % 2 ^ w

def new : ReplayWindow where
  highest := 0
  bitmap := List.replicate 32 0
  bitmap_length := by simp

def maxCounter : UInt64 := UInt64.ofNat (2 ^ 64 - 1)

def check (w : ℕ) (self : ReplayWindow) (counter : UInt64) : Bool :=
  if counter = maxCounter then
    false
  else if self.highest < counter then
    true
  else
    let diff := asUsize w (self.highest - counter)
    if replayWindowSize ≤ diff then
      false
    else
      self.bitmap.getD (diff / 64) 0 &&& (1#64 <<< (diff % 64)) == 0

/-- The first loop of `shift_bitmap` over the `k` lowest words: from the top down, word `i`
takes the value of word `i - wordShift`. -/
def moveWords (wordShift : ℕ) : ℕ → List (BitVec 64) → List (BitVec 64)
  | 0, bitmap => bitmap
  | k + 1, bitmap => moveWords wordShift k (bitmap.set (wordShift + k) (bitmap.getD k 0))

/-- The second loop of `shift_bitmap`: the words below `k` become zero. -/
def clearWords : ℕ → List (BitVec 64) → List (BitVec 64)
  | 0, bitmap => bitmap
  | k + 1, bitmap => (clearWords k bitmap).set k 0

/-- The third loop of `shift_bitmap`: shift each word and carry into the next. -/
def carryBits (bitShift : ℕ) : BitVec 64 → List (BitVec 64) → List (BitVec 64)
  | _, [] => []
  | carry, x :: bitmap =>
      (x <<< bitShift ||| carry) :: carryBits bitShift (x >>> (64 - bitShift)) bitmap

def shiftBitmap (shift : ℕ) (bitmap : List (BitVec 64)) : List (BitVec 64) :=
  if replayWindowSize ≤ shift then
    List.replicate 32 0
  else
    let wordShift := shift / 64
    let bitShift := shift % 64
    let bitmap :=
      if 0 < wordShift then
        clearWords wordShift (moveWords wordShift (bitmap.length - wordShift) bitmap)
      else
        bitmap
    if 0 < bitShift then carryBits bitShift 0 bitmap else bitmap

theorem moveWords_length (ws k : ℕ) (bitmap : List (BitVec 64)) :
    (moveWords ws k bitmap).length = bitmap.length := by
  induction k generalizing bitmap with
  | zero =>
      rfl
  | succ k ih =>
      simp [moveWords, ih]

theorem clearWords_length (k : ℕ) (bitmap : List (BitVec 64)) :
    (clearWords k bitmap).length = bitmap.length := by
  induction k with
  | zero =>
      rfl
  | succ k ih =>
      simp [clearWords, ih]

theorem carryBits_length (bs : ℕ) (carry : BitVec 64) (bitmap : List (BitVec 64)) :
    (carryBits bs carry bitmap).length = bitmap.length := by
  induction bitmap generalizing carry with
  | nil =>
      rfl
  | cons x bitmap ih =>
      simp [carryBits, ih]

variable {bitmap : List (BitVec 64)} {d : ℕ}

theorem shiftBitmap_length (shift : ℕ) (h : bitmap.length = 32) :
    (shiftBitmap shift bitmap).length = 32 := by
  rw [shiftBitmap]
  split
  · simp
  · dsimp only
    split_ifs <;> simp [carryBits_length, clearWords_length, moveWords_length, h]

/-- `ReplayWindow::accept`; `none` is the panic of an index outside the bitmap. -/
def accept (w : ℕ) (self : ReplayWindow) (counter : UInt64) : Option ReplayWindow :=
  if self.highest < counter then
    let shift := asUsize w (counter - self.highest)
    let shifted :=
      if replayWindowSize ≤ shift then List.replicate 32 0 else shiftBitmap shift self.bitmap
    some {
      highest := counter
      bitmap := shifted.set 0 (shifted.getD 0 0 ||| 1#64)
      bitmap_length := by
        dsimp only [shifted]
        split_ifs <;> simp [shiftBitmap_length, self.bitmap_length] }
  else
    let diff := asUsize w (self.highest - counter)
    if diff / 64 < 32 then
      some {
        highest := self.highest
        bitmap := self.bitmap.set (diff / 64)
          (self.bitmap.getD (diff / 64) 0 ||| (1#64 <<< (diff % 64)))
        bitmap_length := by simp [self.bitmap_length] }
    else
      none

theorem exists_accept_of_check {w : ℕ} {r : ReplayWindow} {c : UInt64} (h : r.check w c = true) :
    ∃ r', r.accept w c = some r' := by
  rw [accept]
  rw [check] at h
  split at h
  · cases h
  · by_cases hlt : r.highest < c
    · rw [if_pos hlt]
      exact ⟨_, rfl⟩
    · rw [if_neg hlt] at h ⊢
      have hdiff : asUsize w (r.highest - c) < 2048 := by
        by_contra hfar
        rw [if_pos (show replayWindowSize ≤ _ from not_lt.mp hfar)] at h
        cases h
      dsimp only
      rw [if_pos (by omega)]
      exact ⟨_, rfl⟩

def bitAt (bitmap : List (BitVec 64)) (d : ℕ) : Bool :=
  (bitmap.getD (d / 64) 0).getLsbD (d % 64)

theorem moveWords_getD {ws : ℕ} (hws : 0 < ws) (k : ℕ) (bitmap : List (BitVec 64))
    (hk : ws + k ≤ bitmap.length) (j : ℕ) :
    (moveWords ws k bitmap).getD j 0 =
      if ws ≤ j ∧ j < ws + k then bitmap.getD (j - ws) 0 else bitmap.getD j 0 := by
  induction k generalizing bitmap with
  | zero =>
      rw [moveWords, if_neg (by omega)]
  | succ k ih =>
      have hlen : (bitmap.set (ws + k) (bitmap.getD k 0)).length = bitmap.length := by simp
      rw [moveWords, ih _ (by omega)]
      by_cases hj : ws ≤ j ∧ j < ws + k
      · rw [if_pos hj, if_pos (by omega), List.getD_eq_getElem?_getD,
          List.getElem?_set_ne (by omega), ← List.getD_eq_getElem?_getD]
      · rw [if_neg hj]
        by_cases hjk : j = ws + k
        · subst hjk
          rw [if_pos (by omega), Nat.add_sub_cancel_left]
          simp [show ws + k < bitmap.length by omega]
        · rw [if_neg (by omega), List.getD_eq_getElem?_getD,
            List.getElem?_set_ne (Ne.symm hjk), ← List.getD_eq_getElem?_getD]

theorem clearWords_getD (k : ℕ) (bitmap : List (BitVec 64)) (j : ℕ) :
    (clearWords k bitmap).getD j 0 = if j < k then 0 else bitmap.getD j 0 := by
  induction k with
  | zero =>
      simp [clearWords]
  | succ k ih =>
      by_cases hjk : j = k
      · subst hjk
        by_cases hlt : j < bitmap.length
        · simp [clearWords, clearWords_length, hlt]
        · simp [clearWords, clearWords_length, hlt]
      · rw [clearWords, List.getD_eq_getElem?_getD, List.getElem?_set_ne (Ne.symm hjk),
          ← List.getD_eq_getElem?_getD, ih]
        simp only [show j < k + 1 ↔ j < k by omega]

theorem bitAt_cons (x : BitVec 64) (bitmap : List (BitVec 64)) (d : ℕ) :
    bitAt (x :: bitmap) d = if d < 64 then x.getLsbD d else bitAt bitmap (d - 64) := by
  by_cases hd : d < 64
  · simp [bitAt, hd, Nat.div_eq_of_lt hd, Nat.mod_eq_of_lt hd]
  · have hdiv : d / 64 = (d - 64) / 64 + 1 := by omega
    have hmod : d % 64 = (d - 64) % 64 := by omega
    rw [if_neg hd, bitAt, hdiv, hmod, List.getD_cons_succ, bitAt]

/-- The carry loop moves every bit up by `bs`; the bits that fall off one word enter the next. -/
theorem bitAt_carryBits {bs : ℕ} (h0 : 0 < bs) (h64 : bs < 64) (carry : BitVec 64)
    (hcarry : ∀ i, bs ≤ i → carry.getLsbD i = false) (bitmap : List (BitVec 64))
    (hd : d < 64 * bitmap.length) :
    bitAt (carryBits bs carry bitmap) d =
      if d < bs then carry.getLsbD d else bitAt bitmap (d - bs) := by
  induction bitmap generalizing carry d with
  | nil =>
      simp at hd
  | cons x bitmap ih =>
      rw [carryBits, bitAt_cons]
      by_cases hd64 : d < 64
      · rw [if_pos hd64, BitVec.getLsbD_or, BitVec.getLsbD_shiftLeft]
        by_cases hdb : d < bs
        · simp [hdb]
        · rw [if_neg hdb, bitAt_cons, if_pos (by omega), hcarry d (by omega)]
          simp [hd64, hdb]
      · have hx : ∀ i, bs ≤ i → (x >>> (64 - bs)).getLsbD i = false := by
          intro i hi
          rw [BitVec.getLsbD_ushiftRight]
          exact BitVec.getLsbD_of_ge _ _ (by omega)
        rw [if_neg hd64, ih _ hx (by simp at hd; omega), if_neg (show ¬ d < bs by omega),
          bitAt_cons]
        by_cases hlow : d - 64 < bs
        · rw [if_pos hlow, if_pos (by omega), BitVec.getLsbD_ushiftRight]
          congr 1
          omega
        · rw [if_neg hlow, if_neg (by omega)]
          congr 1
          omega

theorem bitAt_clearWords_moveWords {ws : ℕ} (h0 : 0 < ws) (hws : ws ≤ bitmap.length)
    (hd : d < 64 * bitmap.length) :
    bitAt (clearWords ws (moveWords ws (bitmap.length - ws) bitmap)) d =
      if d < 64 * ws then false else bitAt bitmap (d - 64 * ws) := by
  have hmove := moveWords_getD h0 (bitmap.length - ws) bitmap (by omega) (d / 64)
  rw [bitAt, clearWords_getD, hmove]
  by_cases hlow : d < 64 * ws
  · rw [if_pos (by omega), if_pos hlow]
    simp
  · have hdiv : (d - 64 * ws) / 64 = d / 64 - ws := by omega
    have hmod : (d - 64 * ws) % 64 = d % 64 := by omega
    rw [if_neg (by omega), if_pos (by omega), if_neg hlow, bitAt, hdiv, hmod]

theorem bitAt_shiftBitmap {shift : ℕ} (hshift : shift < 2048) (hlen : bitmap.length = 32)
    (hd : d < 2048) :
    bitAt (shiftBitmap shift bitmap) d =
      if d < shift then false else bitAt bitmap (d - shift) := by
  rw [shiftBitmap, if_neg (by simp [replayWindowSize]; omega)]
  dsimp only
  obtain ⟨moved, hmoved⟩ : ∃ m, m = if 0 < shift / 64 then
      clearWords (shift / 64) (moveWords (shift / 64) (bitmap.length - shift / 64) bitmap)
    else bitmap := ⟨_, rfl⟩
  have hmovedlen : moved.length = 32 := by
    rw [hmoved]
    split_ifs <;> simp [clearWords_length, moveWords_length, hlen]
  have hword : ∀ e < 2048, bitAt moved e =
      if e < 64 * (shift / 64) then false else bitAt bitmap (e - 64 * (shift / 64)) := by
    intro e he
    rw [hmoved]
    split_ifs with hpos hlow hlow
    · rw [bitAt_clearWords_moveWords hpos (by omega) (by omega), if_pos hlow]
    · rw [bitAt_clearWords_moveWords hpos (by omega) (by omega), if_neg hlow]
    · omega
    · congr 1
      omega
  rw [← hmoved]
  by_cases hbits : 0 < shift % 64
  · rw [if_pos hbits, bitAt_carryBits hbits (by omega) 0 (by simp) moved (by omega)]
    by_cases hcarry : d < shift % 64
    · rw [if_pos hcarry, if_pos (by omega)]
      simp
    · rw [if_neg hcarry, hword _ (by omega)]
      by_cases hlow : d < shift
      · rw [if_pos (by omega), if_pos hlow]
      · rw [if_neg (by omega), if_neg hlow]
        congr 1
        omega
  · rw [if_neg hbits, hword d hd]
    have hshift64 : 64 * (shift / 64) = shift := by omega
    rw [hshift64]

theorem bitAt_set (bitmap : List (BitVec 64)) (hd : d / 64 < bitmap.length) (e : ℕ) :
    bitAt (bitmap.set (d / 64) (bitmap.getD (d / 64) 0 ||| (1#64 <<< (d % 64)))) e =
      (decide (e = d) || bitAt bitmap e) := by
  by_cases hword : e / 64 = d / 64
  · have hmod : e % 64 < 64 := Nat.mod_lt _ (by omega)
    have hget : (bitmap.set (d / 64) (bitmap.getD (d / 64) 0 ||| (1#64 <<< (d % 64)))).getD
        (e / 64) 0 =
        bitmap.getD (d / 64) 0 ||| (1#64 <<< (d % 64)) := by
      rw [hword]
      simp [hd]
    rw [bitAt, hget, bitAt, hword, BitVec.getLsbD_or, BitVec.getLsbD_shiftLeft, BitVec.getLsbD_one,
      Bool.or_comm]
    congr 1
    by_cases hed : e = d
    · subst hed
      simp [hmod]
    · have hne : e % 64 ≠ d % 64 := by omega
      have hlt : e % 64 < d % 64 ∨ d % 64 < e % 64 := by omega
      rcases hlt with hlt | hlt
      · simp [hed, hlt]
      · simp [hed, show e % 64 - d % 64 ≠ 0 by omega]
  · have hne : e ≠ d := by
      rintro rfl
      exact hword rfl
    rw [bitAt, List.getD_eq_getElem?_getD, List.getElem?_set_ne (Ne.symm hword),
      ← List.getD_eq_getElem?_getD, bitAt]
    simp [hne]

theorem and_shiftLeft_one_beq_zero (x : BitVec 64) {i : ℕ} (hi : i < 64) :
    (x &&& (1#64 <<< i) == 0) = !x.getLsbD i := by
  have hbit : (1#64 <<< i).getLsbD i = true := by simp [hi]
  have hne : 1#64 <<< i ≠ 0#64 := by
    intro h
    simp [h] at hbit
  have hand := BitVec.and_twoPow x i
  rw [BitVec.twoPow] at hand
  rw [hand]
  cases x.getLsbD i <;> simp [hne]

theorem asUsize_64 (d : UInt64) : asUsize 64 d = d.toNat :=
  Nat.mod_eq_of_lt d.toNat_lt

/-- The window `r` stands for the abstract window `a`. -/
structure Refines (r : ReplayWindow) (a : SlidingWindow) : Prop where
  highest_eq : r.highest.toNat = a.highest
  bit_iff : ∀ c ≤ a.highest, a.highest - c < replayWindowSize →
    (bitAt r.bitmap (a.highest - c) = true ↔ c ∈ a.taken)

theorem new_refines : new.Refines SlidingWindow.empty where
  highest_eq := rfl
  bit_iff := by
    intro c hc _
    simp [SlidingWindow.empty] at hc
    simp [hc, SlidingWindow.empty, new, bitAt]

/-- `check` admits what the abstract window admits, the last counter excepted. -/
theorem check_iff {r : ReplayWindow} {a : SlidingWindow} (h : r.Refines a) (c : UInt64) :
    check 64 r c = true ↔ c ≠ maxCounter ∧ a.Admits replayWindowSize c.toNat := by
  rw [check, SlidingWindow.Admits, ← h.highest_eq]
  by_cases hmax : c = maxCounter
  · simp [hmax]
  rw [if_neg hmax]
  by_cases hlt : r.highest < c
  · have hlt' : r.highest.toNat < c.toNat := UInt64.lt_iff_toNat_lt.mp hlt
    simp [hlt, hlt', hmax]
  · have hle : c ≤ r.highest := UInt64.not_lt.mp hlt
    have hle' : c.toNat ≤ r.highest.toNat := UInt64.le_iff_toNat_le.mp hle
    rw [if_neg hlt]
    dsimp only
    rw [asUsize_64, UInt64.toNat_sub_of_le _ _ hle]
    by_cases hsize : replayWindowSize ≤ r.highest.toNat - c.toNat
    · have hnsize : ¬ r.highest.toNat - c.toNat < replayWindowSize := by omega
      simp [hsize, hnsize, hle']
    · have hbit := h.bit_iff c.toNat (h.highest_eq ▸ hle') (h.highest_eq ▸ by omega)
      rw [← h.highest_eq, bitAt] at hbit
      rw [if_neg hsize, and_shiftLeft_one_beq_zero _ (Nat.mod_lt _ (by omega)), ← hbit]
      simp [hmax, not_lt.mpr hle', not_le.mp hsize]

/-- The bitmap of `accept` before the new counter's bit is set: every bit moves by the shift,
and a shift past the window leaves none. -/
theorem bitAt_ite_shiftBitmap (shift : ℕ) (hlen : bitmap.length = 32) (hd : d < replayWindowSize) :
    bitAt (if replayWindowSize ≤ shift then List.replicate 32 0 else shiftBitmap shift bitmap) d =
      if d < shift then false else bitAt bitmap (d - shift) := by
  by_cases hshift : replayWindowSize ≤ shift
  · have hword : d / 64 < 32 := by
      rw [replayWindowSize] at hd
      omega
    rw [if_pos hshift, if_pos (by omega), bitAt, List.getD_replicate 0 hword]
    simp
  · rw [if_neg hshift, bitAt_shiftBitmap (not_le.mp hshift) hlen hd]

section Accept

variable {r : ReplayWindow} {a : SlidingWindow} {c : UInt64}

theorem accept_refines_of_lt (h : r.Refines a) (hlt : r.highest < c) :
    ∃ r', accept 64 r c = some r' ∧ r'.Refines (a.take c.toNat) := by
  have hlt' : r.highest.toNat < c.toNat := UInt64.lt_iff_toNat_lt.mp hlt
  have hsub : (c - r.highest).toNat = c.toNat - r.highest.toNat :=
    UInt64.toNat_sub_of_le _ _ (UInt64.le_of_lt hlt)
  rw [accept, if_pos hlt]
  refine ⟨_, rfl, ?_, ?_⟩
  · simp [← h.highest_eq, hlt'.le]
  · intro d hd hsize
    simp only [SlidingWindow.take_highest, ← h.highest_eq, max_eq_right hlt'.le] at hd hsize ⊢
    have hset := bitAt_set (if replayWindowSize ≤ c.toNat - r.highest.toNat then
      List.replicate 32 0 else shiftBitmap (c.toNat - r.highest.toNat) r.bitmap)
      (d := 0) (by split_ifs <;> simp [shiftBitmap_length, r.bitmap_length]) (c.toNat - d)
    simp only [Nat.zero_div, Nat.zero_mod, BitVec.shiftLeft_zero] at hset
    simp only [asUsize_64, hsub]
    rw [hset, bitAt_ite_shiftBitmap _ r.bitmap_length hsize, SlidingWindow.take_taken,
      Set.mem_insert_iff, Bool.or_eq_true, decide_eq_true_iff]
    apply or_congr
    · omega
    · by_cases hnew : r.highest.toNat < d
      · have hnot : d ∉ a.taken := fun hmem => by
          have hle := a.le_highest d hmem
          rw [← h.highest_eq] at hle
          omega
        rw [if_pos (by omega)]
        simp [hnot]
      · have hbit := h.bit_iff d (by rw [← h.highest_eq]; omega) (by rw [← h.highest_eq]; omega)
        rw [← h.highest_eq] at hbit
        have hindex : c.toNat - d - (c.toNat - r.highest.toNat) = r.highest.toNat - d := by omega
        rw [if_neg (by omega), hindex, hbit]

theorem accept_refines_of_le (h : r.Refines a) (hle : c ≤ r.highest)
    (hsize : r.highest.toNat - c.toNat < replayWindowSize) :
    ∃ r', accept 64 r c = some r' ∧ r'.Refines (a.take c.toNat) := by
  have hle' : c.toNat ≤ r.highest.toNat := UInt64.le_iff_toNat_le.mp hle
  have hword : (r.highest.toNat - c.toNat) / 64 < 32 := by
    rw [replayWindowSize] at hsize
    omega
  simp only [accept, if_neg (UInt64.not_lt.mpr hle), asUsize_64,
    UInt64.toNat_sub_of_le _ _ hle, if_pos hword]
  refine ⟨_, rfl, ?_, ?_⟩
  · simp [← h.highest_eq, hle']
  · intro d hd hsize
    simp only [SlidingWindow.take_highest, ← h.highest_eq, max_eq_left hle'] at hd hsize ⊢
    have hbit := h.bit_iff d (h.highest_eq ▸ hd) (h.highest_eq ▸ hsize)
    rw [← h.highest_eq] at hbit
    rw [bitAt_set _ (r.bitmap_length ▸ hword), SlidingWindow.take_taken, Set.mem_insert_iff,
      Bool.or_eq_true, decide_eq_true_iff, hbit]
    apply or_congr_left
    omega

/-- A counter that passed `check` is accepted without a panic, and is then taken. -/
theorem accept_refines (h : r.Refines a) (hc : check 64 r c = true) :
    ∃ r', accept 64 r c = some r' ∧ r'.Refines (a.take c.toNat) := by
  obtain ⟨-, hadm⟩ := (check_iff h c).mp hc
  rcases UInt64.lt_or_le r.highest c with hlt | hle
  · exact accept_refines_of_lt h hlt
  · rcases hadm with hlt | ⟨hsize, -⟩
    · rw [← h.highest_eq, ← UInt64.lt_iff_toNat_lt] at hlt
      exact accept_refines_of_lt h hlt
    · exact accept_refines_of_le h hle (h.highest_eq ▸ hsize)

end Accept

def checkAccept (w : ℕ) (self : ReplayWindow) (counter : UInt64) : Option ReplayWindow :=
  if self.check w counter then self.accept w counter else none

def acceptAll (w : ℕ) (counters : List UInt64) : Option ReplayWindow :=
  counters.foldlM (checkAccept w) new

theorem foldlM_checkAccept_refines {counters : List UInt64} {r r' : ReplayWindow}
    {a : SlidingWindow} (h : r.Refines a) (hrun : counters.foldlM (checkAccept 64) r = some r') :
    r'.Refines ((counters.map UInt64.toNat).foldl SlidingWindow.take a) := by
  induction counters generalizing r a with
  | nil =>
      obtain rfl := Option.some.inj hrun
      exact h
  | cons c counters ih =>
      rw [List.foldlM_cons] at hrun
      obtain ⟨r₁, hstep, hrest⟩ := Option.bind_eq_some_iff.mp hrun
      rw [checkAccept] at hstep
      split at hstep
      · rename_i hc
        obtain ⟨r₂, haccept, hrefines⟩ := accept_refines h hc
        obtain rfl := Option.some.inj (haccept.symm.trans hstep)
        exact ih hrefines hrest
      · cases hstep

/-- With a `usize` of 64 bits, and after any sequence of guarded calls of `accept` on a new window,
`check` lets a counter through if and only if it is not the last one and it is above the highest
accepted counter, or less than the window's size below it and not accepted. -/
theorem check_acceptAll_iff {counters : List UInt64} {r : ReplayWindow}
    (h : acceptAll 64 counters = some r) (c : UInt64) :
    r.check 64 c = true ↔ c ≠ maxCounter ∧
      ((counters.map UInt64.toNat).foldl max 0 < c.toNat ∨
        (counters.map UInt64.toNat).foldl max 0 - c.toNat < replayWindowSize ∧ c ∉ counters) := by
  have hmem : c.toNat ∈ counters.map UInt64.toNat ↔ c ∈ counters := by
    rw [List.mem_map]
    constructor
    · rintro ⟨d, hd, heq⟩
      rwa [← UInt64.toNat_inj.mp heq]
    · exact fun hc => ⟨c, hc, rfl⟩
  have hrefines : r.Refines (.ofList (counters.map UInt64.toNat)) :=
    foldlM_checkAccept_refines new_refines h
  rw [check_iff hrefines, SlidingWindow.admits_ofList, hmem]

theorem check_acceptAll_iff_reordered :
    ∃ r, acceptAll 64 [0, 2100, 53] = some r ∧ ∀ c : UInt64,
      (r.check 64 c = true ↔ c ≠ maxCounter ∧
        (([0, 2100, 53].map UInt64.toNat).foldl max 0 < c.toNat ∨
          ([0, 2100, 53].map UInt64.toNat).foldl max 0 - c.toNat < replayWindowSize ∧
            c ∉ [0, 2100, 53])) := by
  obtain ⟨r, hr⟩ : ∃ r, acceptAll 64 [0, 2100, 53] = some r :=
    Option.isSome_iff_exists.mp (by decide +kernel)
  exact ⟨r, hr, check_acceptAll_iff hr⟩

end ReplayWindow
end Noise
end Microfips
