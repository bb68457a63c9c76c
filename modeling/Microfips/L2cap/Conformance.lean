import Mathlib.Algebra.BigOperators.Group.List.Basic
import Microfips.L2cap.RateLimit

/-!
# What the rate limiter lets through

The calls of a `SendRateLimiter`, on any clock that does not run backwards: what is granted between
two instants is at most the burst and the tokens of that time.  Refills that round down, wrap or are
cut only take tokens away; what can be gained is the part of a millisecond that a refill leaves to
the next one.
-/

namespace Microfips
namespace L2cap
namespace SendRateLimiter

def tryAcquire (s : SendRateLimiter) (bytes now : ℕ) : Bool × SendRateLimiter :=
  if s.rateBytesPerSec = 0 then
    (true, s)
  else if bytes % 2 ^ 32 ≤ (s.refill now).tokens then
    (true, (s.refill now).spend (bytes % 2 ^ 32))
  else
    (false, s.refill now)

/-- The loop of `acquire`, with what the clock says in its rounds: when it returns, and nothing
where it still waits behind the last of these rounds. -/
def acquireRounds (bytes : ℕ) : List ℕ → SendRateLimiter → Option ℕ × SendRateLimiter
  | [], s => (none, s)
  | now :: clock, s =>
      if bytes ≤ (s.refill now).tokens then
        (some now, (s.refill now).spend bytes)
      else
        acquireRounds bytes clock (s.refill now)

inductive Call where
  | tryAcquire (bytes now : ℕ)
  | acquire (bytes now : ℕ) (clock : List ℕ)

structure Grant where
  time : ℕ
  bytes : ℕ

namespace Call

def bytes : Call → ℕ
  | tryAcquire bytes _ => bytes
  | acquire bytes _ _ => bytes

def clock : Call → List ℕ
  | tryAcquire _ now => [now]
  | acquire _ now clock => now :: clock

def run (s : SendRateLimiter) : Call → Option Grant × SendRateLimiter
  | tryAcquire bytes now =>
      let (granted, s) := s.tryAcquire bytes now
      (if granted then some ⟨now, bytes⟩ else none, s)
  | acquire bytes now clock =>
      if s.rateBytesPerSec = 0 then
        (some ⟨now, bytes⟩, s)
      else
        let (returned, s) := acquireRounds (bytes % 2 ^ 32) (now :: clock) s
        (returned.map (⟨·, bytes⟩), s)

end Call

def grants : SendRateLimiter → List Call → List Grant
  | _, [] => []
  | s, call :: calls => (call.run s).1.toList ++ grants (call.run s).2 calls

def bytesWithin (granted : List Grant) (start stop : ℕ) : ℕ :=
  ((granted.filter fun g => start ≤ g.time && g.time ≤ stop).map Grant.bytes).sum

section Drawn

/-- What is granted at the readings of a clock, one attempt at each at most.  An attempt without a
grant may have been one that the tokens would have covered. -/
inductive Drawn : SendRateLimiter → List ℕ → List Grant → SendRateLimiter → Prop
  | nil (s : SendRateLimiter) : Drawn s [] [] s
  | granted {s t : SendRateLimiter} {bytes now : ℕ} {clock : List ℕ} {granted : List Grant}
      (enough : bytes ≤ (s.refill now).tokens)
      (rest : Drawn ((s.refill now).spend bytes) clock granted t) :
      Drawn s (now :: clock) (⟨now, bytes⟩ :: granted) t
  | refused {s t : SendRateLimiter} {now : ℕ} {clock : List ℕ} {granted : List Grant}
      (rest : Drawn (s.refill now) clock granted t) : Drawn s (now :: clock) granted t
  | idle {s t : SendRateLimiter} {now : ℕ} {clock : List ℕ} {granted : List Grant}
      (rest : Drawn s clock granted t) : Drawn s (now :: clock) granted t

variable {s t u : SendRateLimiter} {clock later : List ℕ} {granted more : List Grant}
  {start stop now bytes : ℕ}

namespace Drawn

theorem skip (s : SendRateLimiter) (clock : List ℕ) : Drawn s clock [] s := by
  induction clock with
  | nil => exact nil s
  | cons now clock ih => exact idle ih

theorem append (h : Drawn s clock granted t) (hmore : Drawn t later more u) :
    Drawn s (clock ++ later) (granted ++ more) u := by
  induction h with
  | nil s => exact hmore
  | granted enough rest ih => exact .granted enough (ih hmore)
  | refused rest ih => exact refused (ih hmore)
  | idle rest ih => exact idle (ih hmore)

theorem time_mem (h : Drawn s clock granted t) : ∀ g ∈ granted, g.time ∈ clock := by
  induction h with
  | nil s => exact List.forall_mem_nil _
  | granted enough rest ih =>
      rw [List.forall_mem_cons]
      exact ⟨List.mem_cons_self, fun g hg => List.mem_cons_of_mem _ (ih g hg)⟩
  | refused rest ih => exact fun g hg => List.mem_cons_of_mem _ (ih g hg)
  | idle rest ih => exact fun g hg => List.mem_cons_of_mem _ (ih g hg)

theorem limits_eq (h : Drawn s clock granted t) :
    t.rateBytesPerSec = s.rateBytesPerSec ∧ t.burstBytes = s.burstBytes := by
  induction h with
  | nil s => exact ⟨rfl, rfl⟩
  | granted enough rest ih => simpa [spend] using ih
  | refused rest ih => simpa using ih
  | idle rest ih => exact ih

end Drawn

theorem drawn_acquireRounds (bytes : ℕ) (clock : List ℕ) (s : SendRateLimiter) :
    Drawn s clock ((acquireRounds bytes clock s).1.map (⟨·, bytes⟩)).toList
      (acquireRounds bytes clock s).2 := by
  fun_induction acquireRounds bytes clock s with
  | case1 s => exact .nil s
  | case2 s now clock enough => exact .granted enough (.skip _ _)
  | case3 s now clock short ih => exact .refused ih

theorem Call.drawn_run (call : Call) (hrate : s.rateBytesPerSec ≠ 0)
    (hbytes : call.bytes < 2 ^ 32) :
    Drawn s call.clock (call.run s).1.toList (call.run s).2 := by
  cases call with
  | tryAcquire bytes now =>
      have hmod : bytes % 2 ^ 32 = bytes := Nat.mod_eq_of_lt hbytes
      simp only [run, clock, SendRateLimiter.tryAcquire, if_neg hrate, hmod]
      split
      · next enough => exact .granted enough (.nil _)
      · exact .refused (.nil _)
  | acquire bytes now clock =>
      have hmod : bytes % 2 ^ 32 = bytes := Nat.mod_eq_of_lt hbytes
      simp only [run, Call.clock, if_neg hrate, hmod]
      exact drawn_acquireRounds bytes (now :: clock) s

theorem drawn_grants (calls : List Call) (hrate : s.rateBytesPerSec ≠ 0)
    (hbytes : ∀ call ∈ calls, call.bytes < 2 ^ 32) :
    ∃ t, Drawn s (calls.flatMap Call.clock) (s.grants calls) t := by
  induction calls generalizing s with
  | nil => exact ⟨s, .nil s⟩
  | cons call calls ih =>
      rw [List.forall_mem_cons] at hbytes
      have hrun := call.drawn_run hrate hbytes.1
      have hrate' : (call.run s).2.rateBytesPerSec ≠ 0 := by rwa [hrun.limits_eq.1]
      obtain ⟨t, ht⟩ := ih hrate' hbytes.2
      exact ⟨t, hrun.append ht⟩

/-- The loop on a clock that advances by each wait is the loop on that clock. -/
theorem exists_acquireRounds_of_acquireLoop {waits instant : ℕ}
    (h : acquireLoop bytes waits s now = some (t, instant)) :
    ∃ clock, (now :: clock).Pairwise (· ≤ ·) ∧
      acquireRounds bytes (now :: clock) s = (some instant, t) := by
  fun_induction acquireLoop bytes waits s now with
  | case1 waits s now enough =>
      cases h
      exact ⟨[], List.pairwise_singleton _ _, by rw [acquireRounds, if_pos enough]⟩
  | case2 s now short => cases h
  | case3 s now short waits ih =>
      obtain ⟨clock, hclock, hrounds⟩ := ih h
      refine ⟨_ :: clock, ?_, by rw [acquireRounds, if_neg short, hrounds]⟩
      apply List.Pairwise.cons
      · intro later hlater
        rcases List.mem_cons.mp hlater with rfl | hmem
        · exact Nat.le_add_right _ _
        · exact (Nat.le_add_right _ _).trans (List.rel_of_pairwise_cons hclock hmem)
      · exact hclock

end Drawn

section Window

variable {s t : SendRateLimiter} {clock : List ℕ} {granted : List Grant} {g : Grant}
  {start stop now bytes : ℕ}

theorem bytesWithin_cons_le :
    bytesWithin (g :: granted) start stop ≤ g.bytes + bytesWithin granted start stop := by
  unfold bytesWithin
  rw [List.filter_cons]
  split
  · simp
  · exact Nat.le_add_left _ _

theorem bytesWithin_cons_of_lt (h : g.time < start) :
    bytesWithin (g :: granted) start stop = bytesWithin granted start stop := by
  unfold bytesWithin
  rw [List.filter_cons_of_neg]
  simp [h]

theorem bytesWithin_of_forall_lt (h : ∀ g ∈ granted, stop < g.time) :
    bytesWithin granted start stop = 0 := by
  have hfilter : granted.filter (fun g => start ≤ g.time && g.time ≤ stop) = [] := by
    rw [List.filter_eq_nil_iff]
    intro g hg
    simp [h g hg]
  rw [bytesWithin, hfilter]
  rfl

/-- What the bucket can grant until an instant: what it holds, and the tokens of the milliseconds
since the last refill. -/
def worth (s : SendRateLimiter) (stop : ℕ) : ℕ :=
  s.tokens + s.elapsedMs stop * s.rateBytesPerSec / 1000

theorem newTokens_le (ms : ℕ) : s.newTokens ms ≤ ms * s.rateBytesPerSec / 1000 :=
  (Nat.mod_le _ _).trans (Nat.div_le_div_right (Nat.mod_le _ _))

theorem elapsedMs_add_le (h : s.lastRefill ≤ now) (hnow : now ≤ stop) :
    s.elapsedMs now + (stop - now) / ticksPerMs ≤ s.elapsedMs stop := by
  unfold elapsedMs ticksPerMs
  omega

theorem worth_refill_le (h : s.lastRefill ≤ now) (hnow : now ≤ stop) :
    (s.refill now).worth stop ≤ s.worth stop := by
  rcases Nat.eq_zero_or_pos (s.elapsedMs now) with hzero | hpos
  · rw [refill_of_elapsedMs hzero]
  · have hlast : (s.refill now).lastRefill = now := by
      rw [refill, if_pos hpos]
    have htokens : (s.refill now).tokens ≤ s.tokens + s.newTokens (s.elapsedMs now) := by
      rw [tokens_refill hpos]
      exact min_le_left _ _
    have hmul := Nat.mul_le_mul_right s.rateBytesPerSec (elapsedMs_add_le h hnow)
    rw [Nat.add_mul] at hmul
    have hnew := newTokens_le (s := s) (s.elapsedMs now)
    unfold worth
    rw [elapsedMs, hlast, rateBytesPerSec_refill]
    omega

theorem worth_spend (h : bytes ≤ s.tokens) :
    bytes + (s.spend bytes).worth stop = s.worth stop := by
  change bytes + (s.tokens - bytes + s.elapsedMs stop * s.rateBytesPerSec / 1000) = _
  unfold worth
  omega

theorem worth_refill_le_burst (h : s.lastRefill ≤ now) (hnow : start ≤ now) :
    (s.refill now).worth stop ≤
      s.burstBytes + ((stop - start) / ticksPerMs + 1) * s.rateBytesPerSec / 1000 := by
  have hms : (s.refill now).elapsedMs stop ≤ (stop - start) / ticksPerMs + 1 := by
    have hzero : (s.refill now).elapsedMs now = 0 := elapsedMs_refill
    have hle := lastRefill_refill_le h
    unfold elapsedMs ticksPerMs at *
    omega
  have htokens := (s.refill now).tokens_le
  rw [burstBytes_refill] at htokens
  unfold worth
  rw [rateBytesPerSec_refill]
  exact Nat.add_le_add htokens (Nat.div_le_div_right (Nat.mul_le_mul_right _ hms))

theorem refill_refill : (s.refill now).refill now = s.refill now :=
  refill_of_elapsedMs elapsedMs_refill

/-- The clock never runs backwards, and not behind the last refill. -/
def OnTime (s : SendRateLimiter) (clock : List ℕ) : Prop :=
  (s.lastRefill :: clock).Pairwise (· ≤ ·)

namespace OnTime

theorem le (h : s.OnTime (now :: clock)) : s.lastRefill ≤ now :=
  List.rel_of_pairwise_cons h List.mem_cons_self

theorem forall_le (h : s.OnTime (now :: clock)) : ∀ later ∈ now :: clock, now ≤ later := by
  rw [List.forall_mem_cons]
  exact ⟨le_rfl, fun later hlater => List.rel_of_pairwise_cons h.of_cons hlater⟩

theorem tail (h : s.OnTime (now :: clock)) : s.OnTime clock := by
  apply List.Pairwise.cons
  · exact fun later hlater => List.rel_of_pairwise_cons h (List.mem_cons_of_mem _ hlater)
  · exact h.of_cons.of_cons

theorem refill (h : s.OnTime (now :: clock)) : (s.refill now).OnTime clock := by
  apply List.Pairwise.cons
  · intro later hlater
    exact (lastRefill_refill_le h.le).trans (h.forall_le later (List.mem_cons_of_mem _ hlater))
  · exact h.of_cons.of_cons

theorem spend (h : s.OnTime clock) (bytes : ℕ) : (s.spend bytes).OnTime clock :=
  h

theorem refill_cons (h : s.OnTime (now :: clock)) : (s.refill now).OnTime (now :: clock) := by
  apply List.Pairwise.cons
  · intro later hlater
    exact (lastRefill_refill_le h.le).trans (h.forall_le later hlater)
  · exact h.of_cons

end OnTime

namespace Drawn

theorem bytesWithin_of_lt (h : Drawn s (now :: clock) granted t) (hclock : s.OnTime (now :: clock))
    (hstop : stop < now) : bytesWithin granted start stop = 0 := by
  apply bytesWithin_of_forall_lt
  intro g hg
  exact hstop.trans_le (hclock.forall_le _ (h.time_mem g hg))

theorem bytesWithin_le_worth (h : Drawn s clock granted t) (hclock : s.OnTime clock) :
    bytesWithin granted start stop ≤ s.worth stop := by
  induction h with
  | nil s => exact Nat.zero_le _
  | @granted s t bytes now clock granted enough rest ih =>
      rcases Nat.lt_or_ge stop now with hlt | hle
      · rw [(Drawn.granted enough rest).bytesWithin_of_lt hclock hlt]
        exact Nat.zero_le _
      · calc bytesWithin (⟨now, bytes⟩ :: granted) start stop
            ≤ bytes + bytesWithin granted start stop := bytesWithin_cons_le
          _ ≤ bytes + ((s.refill now).spend bytes).worth stop :=
              Nat.add_le_add_left (ih (hclock.refill.spend bytes)) _
          _ = (s.refill now).worth stop := worth_spend enough
          _ ≤ s.worth stop := worth_refill_le hclock.le hle
  | @refused s t now clock granted rest ih =>
      rcases Nat.lt_or_ge stop now with hlt | hle
      · rw [(Drawn.refused rest).bytesWithin_of_lt hclock hlt]
        exact Nat.zero_le _
      · exact (ih hclock.refill).trans (worth_refill_le hclock.le hle)
  | idle rest ih => exact ih hclock.tail

/-- Any interval: the burst, and the tokens of its milliseconds and one more. -/
theorem bytesWithin_le_burst (h : Drawn s clock granted t) (hclock : s.OnTime clock) :
    bytesWithin granted start stop ≤
      s.burstBytes + ((stop - start) / ticksPerMs + 1) * s.rateBytesPerSec / 1000 := by
  -- from the first reading in the interval on, the refilled bucket pays for everything
  induction h with
  | nil s => exact Nat.zero_le _
  | @granted s t bytes now clock granted enough rest ih =>
      rcases Nat.lt_or_ge now start with hlt | hge
      · rw [bytesWithin_cons_of_lt hlt]
        simpa [SendRateLimiter.spend] using ih (hclock.refill.spend bytes)
      · have hagain : Drawn (s.refill now) (now :: clock) (⟨now, bytes⟩ :: granted) t := by
          apply Drawn.granted
          · rwa [refill_refill]
          · rwa [refill_refill]
        exact (hagain.bytesWithin_le_worth hclock.refill_cons).trans
          (worth_refill_le_burst hclock.le hge)
  | @refused s t now clock granted rest ih =>
      simpa using ih hclock.refill
  | idle rest ih => exact ih hclock.tail

end Drawn

/-- Whatever the calls and the clock: what an interval is granted is at most the burst and the
tokens of its milliseconds and one more. -/
theorem bytesWithin_grants_le (s : SendRateLimiter) (hrate : s.rateBytesPerSec ≠ 0)
    (calls : List Call) (hbytes : ∀ call ∈ calls, call.bytes < 2 ^ 32)
    (hclock : (s.lastRefill :: calls.flatMap Call.clock).Pairwise (· ≤ ·)) (start ticks : ℕ) :
    bytesWithin (s.grants calls) start (start + ticks) ≤
      s.burstBytes + s.rateBytesPerSec * (ticks / ticksPerMs + 1) / 1000 := by
  obtain ⟨t, ht⟩ := drawn_grants calls hrate hbytes
  calc bytesWithin (s.grants calls) start (start + ticks)
      ≤ s.burstBytes + ((start + ticks - start) / ticksPerMs + 1) * s.rateBytesPerSec / 1000 :=
        ht.bytesWithin_le_burst hclock
    _ = s.burstBytes + s.rateBytesPerSec * (ticks / ticksPerMs + 1) / 1000 := by
        rw [Nat.add_sub_cancel_left, Nat.mul_comm]

/-- A thousand bytes per second and a burst of ten: the burst at once, and then four bytes for which
the call waits, while the first half of a millisecond brings nothing. -/
theorem bytesWithin_grants_le_waiting :
    ((new 8000 10 0).grants
        [.tryAcquire 10 0, .acquire 4 500 [4500], .tryAcquire 1 4600]).map Grant.time =
          [0, 4500] ∧
      bytesWithin ((new 8000 10 0).grants
          [.tryAcquire 10 0, .acquire 4 500 [4500], .tryAcquire 1 4600]) 0 (0 + 4500) ≤ 15 :=
  ⟨by decide, bytesWithin_grants_le (new 8000 10 0) (by decide) _ (by decide) (by decide) 0 4500⟩

end Window

end SendRateLimiter
end L2cap
end Microfips
