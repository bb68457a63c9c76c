import Microfips.Node.Policy
import Mathlib.Data.List.Pairwise

/-!
# The frame rate window

`check_frame_rate` counts frames in windows of a fixed length.  A window ends when it has expired,
but also when a frame is rejected: that frame starts a new window with an empty count.  Within the
length of a window at most one further window can start by expiry, so it is the rejections that
decide how many frames pass: each of them lets another hundred in.
-/

namespace Microfips
namespace Node

namespace PeerPolicy

def Expired (p : PeerPolicy) (now : ℕ) : Prop :=
  p.frameRateWindowMs ≤ asMillis now - asMillis p.frameWindowStart

instance (p : PeerPolicy) (now : ℕ) : Decidable (p.Expired now) :=
  inferInstanceAs (Decidable (_ ≤ _))

/-- The current window is not over and takes no further frame. -/
def Full (p : PeerPolicy) (now : ℕ) : Prop :=
  ¬p.Expired now ∧ frameRateMax ≤ p.frameCount

instance (p : PeerPolicy) (now : ℕ) : Decidable (p.Full now) :=
  inferInstanceAs (Decidable (_ ∧ _))

section Cases

variable {p : PeerPolicy} {now : ℕ}

theorem checkFrameRate_of_expired (h : p.Expired now) :
    p.checkFrameRate now = (.allow, { p with frameWindowStart := now, frameCount := 1 }) := by
  rw [checkFrameRate]
  simp only [if_pos (show _ ≤ _ from h)]
  rfl

theorem checkFrameRate_of_full (h : p.Full now) :
    p.checkFrameRate now = (.reject, { p with frameWindowStart := now, frameCount := 0 }) := by
  rw [checkFrameRate]
  simp only [if_neg (show ¬_ ≤ _ from h.1), if_pos h.2]

theorem checkFrameRate_of_lt (h : ¬p.Expired now) (hlt : p.frameCount < frameRateMax) :
    p.checkFrameRate now = (.allow, { p with frameCount := p.frameCount + 1 }) := by
  have hmin : min (p.frameCount + 1) (2 ^ 16 - 1) = p.frameCount + 1 := by
    rw [frameRateMax] at hlt
    omega
  rw [checkFrameRate]
  simp only [if_neg (show ¬_ ≤ _ from h), if_neg (Nat.not_le.mpr hlt), hmin]

theorem checkFrameRate_frameRateWindowMs (p : PeerPolicy) (now : ℕ) :
    (p.checkFrameRate now).2.frameRateWindowMs = p.frameRateWindowMs := by
  by_cases hexpired : p.Expired now
  · rw [checkFrameRate_of_expired hexpired]
  · by_cases hcount : frameRateMax ≤ p.frameCount
    · rw [checkFrameRate_of_full ⟨hexpired, hcount⟩]
    · rw [checkFrameRate_of_lt hexpired (Nat.lt_of_not_le hcount)]

end Cases

/-- How many of the calls at the times, one after the other, end with the verdict at a time from
`start` to `stop`. -/
def countWithin (verdict : PolicyVerdict) (start stop : ℕ) : PeerPolicy → List ℕ → ℕ
  | _, [] => 0
  | p, t :: times =>
      (if start ≤ t ∧ t ≤ stop ∧ (p.checkFrameRate t).1 = verdict then 1 else 0) +
        countWithin verdict start stop (p.checkFrameRate t).2 times

/-- No call from `start` to `stop` meets a full window. -/
def NeverFull (start stop : ℕ) : PeerPolicy → List ℕ → Prop
  | _, [] => True
  | p, t :: times =>
      (start ≤ t → t ≤ stop → ¬p.Full t) ∧ NeverFull start stop (p.checkFrameRate t).2 times

def decidableNeverFull (start stop : ℕ) :
    ∀ (times : List ℕ) (p : PeerPolicy), Decidable (NeverFull start stop p times)
  | [], _ => .isTrue trivial
  | t :: times, p =>
      have := decidableNeverFull start stop times (p.checkFrameRate t).2
      inferInstanceAs (Decidable ((start ≤ t → t ≤ stop → ¬p.Full t) ∧
        NeverFull start stop (p.checkFrameRate t).2 times))

instance (start stop : ℕ) (p : PeerPolicy) (times : List ℕ) :
    Decidable (NeverFull start stop p times) :=
  decidableNeverFull start stop times p

section Span

variable {start stop t : ℕ} {p : PeerPolicy} {times : List ℕ} {verdict : PolicyVerdict}

theorem countWithin_cons_of_not_mem (h : ¬(start ≤ t ∧ t ≤ stop)) :
    countWithin verdict start stop p (t :: times) =
      countWithin verdict start stop (p.checkFrameRate t).2 times := by
  rw [countWithin, if_neg (fun hin => h ⟨hin.1, hin.2.1⟩), Nat.zero_add]

theorem countWithin_of_lt (h : ∀ t ∈ times, stop < t) :
    countWithin verdict start stop p times = 0 := by
  induction times generalizing p with
  | nil => rfl
  | cons t times ih =>
      rw [countWithin_cons_of_not_mem (by have := h t List.mem_cons_self; omega)]
      exact ih fun x hx => h x (List.mem_cons_of_mem t hx)

theorem countWithin_cons_of_mem (hstart : start ≤ t) (hstop : t ≤ stop) :
    countWithin verdict start stop p (t :: times) =
      (if (p.checkFrameRate t).1 = verdict then 1 else 0) +
        countWithin verdict start stop (p.checkFrameRate t).2 times := by
  simp only [countWithin, hstart, hstop, true_and]

theorem lt_of_pairwise (hsorted : (t :: times).Pairwise (· ≤ ·)) (hlt : stop < t) :
    ∀ x ∈ t :: times, stop < x := by
  intro x hx
  rcases List.mem_cons.mp hx with rfl | hx
  · exact hlt
  · exact hlt.trans_le (List.rel_of_pairwise_cons hsorted hx)

theorem countWithin_allow {q : PeerPolicy} (hstart : start ≤ t) (hstop : t ≤ stop)
    (times : List ℕ) (h : p.checkFrameRate t = (.allow, q)) :
    countWithin .allow start stop p (t :: times) = 1 + countWithin .allow start stop q times ∧
      countWithin .reject start stop p (t :: times) = countWithin .reject start stop q times := by
  rw [countWithin_cons_of_mem hstart hstop, countWithin_cons_of_mem hstart hstop, h]
  simp

theorem countWithin_reject {q : PeerPolicy} (hstart : start ≤ t) (hstop : t ≤ stop)
    (times : List ℕ) (h : p.checkFrameRate t = (.reject, q)) :
    countWithin .allow start stop p (t :: times) = countWithin .allow start stop q times ∧
      countWithin .reject start stop p (t :: times) =
        1 + countWithin .reject start stop q times := by
  rw [countWithin_cons_of_mem hstart hstop, countWithin_cons_of_mem hstart hstop, h]
  simp

/-- What is allowed where windows are opened by rejections only: the rest of the current window, and
a window for each rejection. -/
def allowance (start stop : ℕ) (p : PeerPolicy) (times : List ℕ) : ℕ :=
  (frameRateMax - p.frameCount) + frameRateMax * countWithin .reject start stop p times

theorem asMillis_mono {a b : ℕ} (h : a ≤ b) : asMillis a ≤ asMillis b :=
  Nat.div_le_div_right h

theorem countWithin_le_allowance (hsorted : times.Pairwise (· ≤ ·))
    (hstart : ∀ t ∈ times, start ≤ t) (hwindow : ∀ t ∈ times, p.frameWindowStart ≤ t)
    (hclosing : ∀ t ≤ stop, ¬p.Expired t) :
    countWithin .allow start stop p times ≤ allowance start stop p times := by
  induction times generalizing p with
  | nil => exact Nat.zero_le _
  | cons t times ih =>
      by_cases hstop : t ≤ stop
      · have hsorted' := hsorted.of_cons
        have hstart' : ∀ x ∈ times, start ≤ x := fun x hx => hstart x (List.mem_cons_of_mem t hx)
        by_cases hcount : frameRateMax ≤ p.frameCount
        · have hfull : p.Full t := ⟨hclosing t hstop, hcount⟩
          obtain ⟨hallow, hreject⟩ := countWithin_reject (hstart t List.mem_cons_self) hstop times
            (checkFrameRate_of_full hfull)
          -- The new window starts later than the old one, so it does not expire either.
          have hclosing' : ∀ x ≤ stop,
              ¬Expired { p with frameWindowStart := t, frameCount := 0 } x := by
            intro x hx hexpired
            apply hclosing x hx
            have hle := asMillis_mono (hwindow t List.mem_cons_self)
            simp only [Expired] at hexpired ⊢
            omega
          have hrest := ih hsorted' hstart' (fun x hx => List.rel_of_pairwise_cons hsorted hx)
            hclosing'
          rw [allowance] at hrest ⊢
          rw [hallow, hreject, Nat.mul_add]
          dsimp only at hrest
          omega
        · have hlt : p.frameCount < frameRateMax := Nat.lt_of_not_le hcount
          obtain ⟨hallow, hreject⟩ := countWithin_allow (hstart t List.mem_cons_self) hstop times
            (checkFrameRate_of_lt (hclosing t hstop) hlt)
          have hrest := ih (p := { p with frameCount := p.frameCount + 1 }) hsorted' hstart'
            (fun x hx => hwindow x (List.mem_cons_of_mem t hx)) hclosing
          rw [allowance] at hrest ⊢
          rw [hallow, hreject]
          dsimp only at hrest
          omega
      · rw [countWithin_of_lt (lt_of_pairwise hsorted (Nat.lt_of_not_le hstop))]
        exact Nat.zero_le _

/-- The window that comes after the current one does not expire up to `stop`. -/
def Last (stop : ℕ) (p : PeerPolicy) : Prop :=
  ∀ t ≤ stop, p.Expired t → asMillis stop - asMillis t < p.frameRateWindowMs

theorem last_of_start (hpos : 0 < p.frameRateWindowMs) (hstart : start ≤ t)
    (hstop : stop ≤ start + fromMillis p.frameRateWindowMs) (count : ℕ) :
    Last stop { p with frameWindowStart := t, frameCount := count } := by
  intro x _ hexpired
  simp only [Expired, asMillis, fromMillis, ticksPerMilli] at *
  omega

/-- If a call in the span does not expire the window, the window that comes after it is the last. -/
theorem last_of_not_expired (hpos : 0 < p.frameRateWindowMs) (hstart : start ≤ t)
    (hstop : stop ≤ start + fromMillis p.frameRateWindowMs) (hexpired : ¬p.Expired t) (count : ℕ) :
    Last stop { p with frameCount := count } := by
  intro x _ hexpired'
  simp only [Expired, asMillis, fromMillis, ticksPerMilli] at *
  omega

theorem countWithin_le_of_last (hpos : 0 < p.frameRateWindowMs) (hsorted : times.Pairwise (· ≤ ·))
    (hstart : ∀ t ∈ times, start ≤ t) (hstop : stop ≤ start + fromMillis p.frameRateWindowMs)
    (hlast : Last stop p) :
    countWithin .allow start stop p times ≤ allowance start stop p times + frameRateMax := by
  induction times generalizing p with
  | nil => exact Nat.zero_le _
  | cons t times ih =>
      have hin : start ≤ t := hstart t List.mem_cons_self
      have hsorted' := hsorted.of_cons
      have hstart' : ∀ x ∈ times, start ≤ x := fun x hx => hstart x (List.mem_cons_of_mem t hx)
      by_cases hle : t ≤ stop
      · by_cases hexpired : p.Expired t
        · obtain ⟨hallow, hreject⟩ :=
            countWithin_allow hin hle times (checkFrameRate_of_expired hexpired)
          have hclosing : ∀ x ≤ stop,
              ¬Expired { p with frameWindowStart := t, frameCount := 1 } x := by
            intro x hx hexpired'
            have hwindow := hlast t hle hexpired
            have hmono := asMillis_mono hx
            simp only [Expired] at hexpired'
            omega
          have hrest := countWithin_le_allowance hsorted' hstart'
            (fun x hx => List.rel_of_pairwise_cons hsorted hx) hclosing
          rw [allowance] at hrest ⊢
          rw [hallow, hreject]
          dsimp only [frameRateMax] at hrest ⊢
          omega
        · by_cases hcount : frameRateMax ≤ p.frameCount
          · obtain ⟨hallow, hreject⟩ := countWithin_reject hin hle times
              (checkFrameRate_of_full ⟨hexpired, hcount⟩)
            have hrest := ih (p := { p with frameWindowStart := t, frameCount := 0 }) hpos hsorted'
              hstart' hstop (last_of_start hpos hin hstop 0)
            rw [allowance] at hrest ⊢
            rw [hallow, hreject, Nat.mul_add]
            dsimp only at hrest
            omega
          · have hlt : p.frameCount < frameRateMax := Nat.lt_of_not_le hcount
            obtain ⟨hallow, hreject⟩ := countWithin_allow hin hle times
              (checkFrameRate_of_lt hexpired hlt)
            have hrest := ih (p := { p with frameCount := p.frameCount + 1 }) hpos hsorted' hstart'
              hstop hlast
            rw [allowance] at hrest ⊢
            rw [hallow, hreject]
            dsimp only at hrest
            omega
      · rw [countWithin_of_lt (lt_of_pairwise hsorted (Nat.lt_of_not_le hle))]
        exact Nat.zero_le _

/-- Within the length of a window at most two windows are used up, and one more for each
rejection. -/
theorem countWithin_allow_le (hpos : 0 < p.frameRateWindowMs) (hsorted : times.Pairwise (· ≤ ·))
    (hstop : stop ≤ start + fromMillis p.frameRateWindowMs) :
    countWithin .allow start stop p times ≤
      frameRateMax * (2 + countWithin .reject start stop p times) := by
  induction times generalizing p with
  | nil => exact Nat.zero_le _
  | cons t times ih =>
      have hsorted' := hsorted.of_cons
      by_cases hbefore : t < start
      · have hwindow : (p.checkFrameRate t).2.frameRateWindowMs = p.frameRateWindowMs :=
          checkFrameRate_frameRateWindowMs p t
        rw [countWithin_cons_of_not_mem (by omega), countWithin_cons_of_not_mem (by omega)]
        rw [← hwindow] at hpos hstop
        exact ih hpos hsorted' hstop
      · have hin : start ≤ t := Nat.le_of_not_lt hbefore
        have hstart : ∀ x ∈ t :: times, start ≤ x := by
          intro x hx
          rcases List.mem_cons.mp hx with rfl | hx
          · exact hin
          · exact hin.trans (List.rel_of_pairwise_cons hsorted hx)
        have hstart' : ∀ x ∈ times, start ≤ x := fun x hx => hstart x (List.mem_cons_of_mem t hx)
        by_cases hexpired : p.Expired t
        · by_cases hle : t ≤ stop
          · obtain ⟨hallow, hreject⟩ :=
              countWithin_allow hin hle times (checkFrameRate_of_expired hexpired)
            have hrest := countWithin_le_of_last
              (p := { p with frameWindowStart := t, frameCount := 1 }) hpos hsorted' hstart' hstop
              (last_of_start hpos hin hstop 1)
            rw [allowance] at hrest
            rw [hallow, hreject, Nat.mul_add]
            dsimp only [frameRateMax] at hrest ⊢
            omega
          · rw [countWithin_of_lt (lt_of_pairwise hsorted (Nat.lt_of_not_le hle))]
            exact Nat.zero_le _
        · have hlast : Last stop p := last_of_not_expired hpos hin hstop hexpired p.frameCount
          have hle := countWithin_le_of_last hpos hsorted hstart hstop hlast
          rw [allowance] at hle
          rw [Nat.mul_add]
          omega

theorem countWithin_reject_eq_zero (h : NeverFull start stop p times) :
    countWithin .reject start stop p times = 0 := by
  induction times generalizing p with
  | nil => rfl
  | cons t times ih =>
      have hrest := ih h.2
      by_cases hin : start ≤ t ∧ t ≤ stop
      · have hfull := h.1 hin.1 hin.2
        by_cases hexpired : p.Expired t
        · rw [(countWithin_allow hin.1 hin.2 times (checkFrameRate_of_expired hexpired)).2]
          rwa [checkFrameRate_of_expired hexpired] at hrest
        · have hlt : p.frameCount < frameRateMax :=
            Nat.lt_of_not_le fun hcount => hfull ⟨hexpired, hcount⟩
          rw [(countWithin_allow hin.1 hin.2 times (checkFrameRate_of_lt hexpired hlt)).2]
          rwa [checkFrameRate_of_lt hexpired hlt] at hrest
      · rwa [countWithin_cons_of_not_mem hin]

end Span

/-- If no call within the length of a window meets a full window, no more than two windows of frames
are allowed within it. -/
theorem frame_rate_bound (p : PeerPolicy) (hpos : 0 < p.frameRateWindowMs) (times : List ℕ)
    (hsorted : times.Pairwise (· ≤ ·)) (start : ℕ)
    (hfull : NeverFull start (start + fromMillis p.frameRateWindowMs) p times) :
    countWithin .allow start (start + fromMillis p.frameRateWindowMs) p times ≤
      2 * frameRateMax := by
  calc
    countWithin .allow start (start + fromMillis p.frameRateWindowMs) p times
        ≤ frameRateMax * (2 + countWithin .reject start (start + fromMillis p.frameRateWindowMs) p
            times) := countWithin_allow_le hpos hsorted le_rfl
    _ = 2 * frameRateMax := by rw [countWithin_reject_eq_zero hfull, Nat.add_zero, Nat.mul_comm]

def initial : PeerPolicy where
  frameRateWindowMs := 1000
  linkDeadTimeoutSecs := 30
  frameCount := 0
  frameWindowStart := 0
  dataFramesRecv := 0
  heartbeatsRecv := 0
  sessionStart := none
  consecutiveBadFrames := 0
  totalBadFrames := 0

/-- A hundred frames at once, and a hundred when the window has expired: none meets a full window,
and the bound is reached. -/
theorem frame_rate_bound_two :
    countWithin .allow 0 (0 + fromMillis initial.frameRateWindowMs) initial
      (List.replicate 100 0 ++ List.replicate 100 (fromMillis 1000)) ≤ 2 * frameRateMax := by
  apply frame_rate_bound initial (by decide)
  · rw [List.pairwise_append]
    refine ⟨List.pairwise_replicate.mpr (.inr le_rfl), List.pairwise_replicate.mpr (.inr le_rfl),
      ?_⟩
    intro a ha b _
    rw [List.eq_of_mem_replicate ha]
    exact Nat.zero_le b
  · decide +kernel

/-- The 101st frame of a burst is rejected, but the frames behind it are counted from zero: of 303
frames at one time 300 are allowed. -/
theorem frame_rate_exceeded :
    (List.replicate 303 0).Pairwise (· ≤ ·) ∧
      countWithin .allow 0 (0 + fromMillis initial.frameRateWindowMs) initial
        (List.replicate 303 0) = 300 ∧
      2 * frameRateMax < 300 := by
  refine ⟨List.pairwise_replicate.mpr (.inr le_rfl), ?_, by decide⟩
  decide +kernel

end PeerPolicy

end Node
end Microfips
