import Microfips.Node.Exchange
import Microfips.Data.Runs

/-!
# Two nodes that both open

Both nodes send msg1 before they have heard of the other, and the handshakes of the two run against
each other: what one sends the other receives in that order, frame by frame, and between two frames
either of them may run into its receive timeout.  A state of the pair is what each handshake has
received so far, since the rest follows by running `handshake` on it.

The node with the lower address stays the initiator.  What holds along every run is stated for the
pair of the lower and the higher node.
-/

namespace Microfips
namespace Node

open Noise Wire EStateM

structure Party where
  H : Type
  M : Type
  config : Config H M
  start : Handshake H

namespace Party

def result (p : Party) (rs : List Reception) :
    Result (Fault ProtocolError) (Handshake p.H) (Progress × List Reception) :=
  (Handshake.run p.config rs).run p.start

def sent (p : Party) (rs : List Reception) : List Bytes :=
  match p.result rs with
  | .ok _ t => t.sent
  | .error _ t => t.sent

def waits (p : Party) (rs : List Reception) : Bool :=
  match p.result rs with
  | .ok (.waits _, _) _ => true
  | _ => false

def failed (p : Party) (rs : List Reception) : Bool :=
  match p.result rs with
  | .error _ _ => true
  | _ => false

def returned (p : Party) (rs : List Reception) : Option Outcome :=
  match p.result rs with
  | .ok (.returns outcome, _) _ => some outcome
  | _ => none

def Answered (p : Party) (rs : List Reception) : Prop :=
  ∃ frame ∈ p.sent rs, ∃ senderIdx receiverIdx np,
    parseMessage p.config.build frame = some (.msg2 senderIdx receiverIdx np)

def lastIndex (p : Party) (rs : List Reception) : Option SessionIndex :=
  match (p.sent rs).head?.bind (parseMessage p.config.build) with
  | some (.msg1 senderIdx _) => some senderIdx
  | some (.msg2 senderIdx _ _) => some senderIdx
  | some (.msg3 senderIdx _ _) => some senderIdx
  | _ => none

end Party

def timeouts (rs : List Reception) : ℕ := rs.count .timeout

inductive Side where
  | first
  | second
  deriving DecidableEq

def Side.other : Side → Side
  | first => second
  | second => first

namespace Crossing

open Handshake

inductive Move where
  /-- The node receives the next frame of the other. -/
  | deliver (side : Side)
  | timeout (side : Side)

def onItsWay (P : Side → Party) (σ : Side → List Reception) (x : Side) : Option Bytes :=
  ((P x.other).sent (σ x.other)).reverse[(chunks (σ x)).length]?

def step (P : Side → Party) (σ : Side → List Reception) : Move → Option (Side → List Reception)
  | .deliver x =>
      if (P x).waits (σ x) then
        (onItsWay P σ x).map fun frame =>
          Function.update σ x (σ x ++ [.chunk (onWire (P x.other).config.rawFraming frame)])
      else
        none
  | .timeout x =>
      if (P x).waits (σ x) then some (Function.update σ x (σ x ++ [.timeout])) else none

def start : Side → List Reception := fun _ => []

end Crossing

/-! ## One more reception -/

namespace Handshake

variable {H M : Type} {C : Config H M} {s t u : Handshake H} {rs : List Reception} {r : Reception}
  {q : Progress}

theorem await_append {phase phase₀ : Phase}
    (h : (await C rs phase₀).run s = .ok (.waits phase, []) t)
    (hr : (receive C phase r).run t = .ok q u) :
    (await C (rs ++ [r]) phase₀).run s = .ok (q, []) u := by
  induction rs generalizing phase₀ s with
  | nil =>
      obtain ⟨hphase, rfl⟩ := Result.ok.inj h
      obtain rfl : phase₀ = phase := by
        injection hphase with hphase
        injection hphase
      rw [List.nil_append, await, run_bind_ok hr]
      cases q <;> rfl
  | cons r' rs ih =>
      rw [await] at h
      obtain ⟨p, v, hp, hrest⟩ := exists_of_run_bind h
      rw [List.cons_append, await, run_bind_ok hp]
      cases p with
      | waits phase₁ => exact ih hrest
      | returns outcome => cases hrest

theorem run_append {phase : Phase} (h : (run C rs).run s = .ok (.waits phase, []) t)
    (hr : (receive C phase r).run t = .ok q u) : (run C (rs ++ [r])).run s = .ok (q, []) u := by
  rw [run] at h ⊢
  obtain ⟨phase₀, v, hbegin, hawait⟩ := exists_of_run_bind h
  rw [run_bind_ok hbegin]
  exact await_append hawait hr

end Handshake

namespace Party

open Handshake

variable {p : Party} {rs : List Reception} {phase : Phase} {outcome : Outcome} {l l' : List Bytes}
  {q : Progress}

def Stands (p : Party) (rs : List Reception) (q : Progress) (l : List Bytes) : Prop :=
  ∃ t, p.result rs = .ok (q, []) t ∧ Idle t l

theorem Stands.sent_eq (h : p.Stands rs q l) : p.sent rs = l := by
  obtain ⟨t, ht, hidle⟩ := h
  rw [sent, ht]
  exact hidle.sent_eq

theorem Stands.waits_eq (h : p.Stands rs (.waits phase) l) : p.waits rs = true := by
  obtain ⟨t, ht, -⟩ := h
  rw [waits, ht]

theorem Stands.not_waits (h : p.Stands rs (.returns outcome) l) : p.waits rs = false := by
  obtain ⟨t, ht, -⟩ := h
  rw [waits, ht]

theorem Stands.not_failed (h : p.Stands rs q l) : p.failed rs = false := by
  obtain ⟨t, ht, -⟩ := h
  rw [failed, ht]

theorem Stands.returned_eq (h : p.Stands rs (.returns outcome) l) :
    p.returned rs = some outcome := by
  obtain ⟨t, ht, -⟩ := h
  rw [returned, ht]

theorem Stands.exists_deliver (h : p.Stands rs (.waits phase) l) {frame : Bytes}
    {message : FmpMessage} (hframe : Framed p.config.build frame message) :
    ∃ s, Idle s l ∧ ∀ q u l', (onFrame p.config phase frame).run s = .ok q u → Idle u l' →
      p.Stands (rs ++ [.chunk (onWire p.config.rawFraming frame)]) q l' := by
  obtain ⟨t, ht, hidle⟩ := h
  obtain ⟨s, hs, hreceive⟩ := exists_receive hframe hidle
  refine ⟨s, hs, fun q u l' hu hul => ?_⟩
  obtain ⟨v, hv, hvl⟩ := hreceive q u l' hu hul
  exact ⟨v, run_append ht hv, hvl⟩

theorem Stands.deliver (h : p.Stands rs (.waits phase) l) {frame : Bytes} {message : FmpMessage}
    (hframe : Framed p.config.build frame message)
    (hon : ∀ t, Idle t l → ∃ u, (onFrame p.config phase frame).run t = .ok q u ∧ Idle u l') :
    p.Stands (rs ++ [.chunk (onWire p.config.rawFraming frame)]) q l' := by
  obtain ⟨s, hs, hdeliver⟩ := h.exists_deliver hframe
  obtain ⟨u, hu, hul⟩ := hon s hs
  exact hdeliver q u l' hu hul

theorem Stands.timeout (h : p.Stands rs (.waits phase) l) {phase' : Phase}
    (hon : ∀ t, Idle t l → ∃ u, (onTimeout p.config phase).run t = .ok phase' u ∧ Idle u l') :
    p.Stands (rs ++ [.timeout]) (.waits phase') l' := by
  obtain ⟨t, ht, hidle⟩ := h
  obtain ⟨u, hu, hidle'⟩ := hon t hidle
  refine ⟨u, run_append ht ?_, hidle'⟩
  rw [receive, run_bind_ok hu]
  rfl

end Party

/-! ## The lower and the higher node -/

theorem eq_of_getElem?_reverse {α : Type} {a b f : α} {k m i : ℕ}
    (h : (List.replicate k a ++ List.replicate m b).reverse[i]? = some f) (hi : i ≤ m) :
    f = b ∧ i < m ∨ f = a ∧ i = m := by
  rw [List.reverse_append, List.reverse_replicate, List.reverse_replicate] at h
  obtain hlt | rfl := Nat.lt_or_eq_of_le hi
  · rw [List.getElem?_append_left (by simpa using hlt)] at h
    exact .inl ⟨List.eq_of_mem_replicate (List.mem_of_getElem? h), hlt⟩
  · rw [List.getElem?_append_right (by simp)] at h
    exact .inr ⟨List.eq_of_mem_replicate (List.mem_of_getElem? h), rfl⟩

namespace Crossing

open Handshake

/-- The node is pinned to the other, and the two speak the same wire format. -/
structure Meets (S : Suite) (p q : Party) (kp kq : Keypair S) : Prop where
  pinned : Pinned S p.config kp kq
  start : Idle p.start []
  build_eq : p.config.build = q.config.build
  framing_eq : p.config.rawFraming = q.config.rawFraming
  validPairing : p.config.build = .xx →
    NodeProfile.validPairing p.config.ourProfile q.config.ourProfile = true

/-- The initiator waits for msg2, with this many frames before it, or has returned. -/
inductive Low (p : Party) (o : Opening) (c : Outcome) (last : List Bytes) (before : ℕ)
    (rs : List Reception) : Prop where
  | waits {n : ℕ} (hn : n ≤ timeouts rs) (hchunks : (chunks rs).length ≤ before)
      (h : p.Stands rs (.waits (.opening { o with resendCount := n }))
        (List.replicate (timeouts rs + 1) o.msg1))
  | returned (hchunks : (chunks rs).length ≤ before + 1)
      (h : p.Stands rs (.returns c) (last ++ List.replicate (timeouts rs + 1) o.msg1))

/-- The responder waits for msg3, with this many frames before it, or has returned.  Its own msg1
went out `j + 1` times before it answered. -/
inductive High (q : Party) (o : Opening) (msg2 : Bytes) (d : Outcome) (last : List Bytes)
    (j before : ℕ) (rs : List Reception) : Prop where
  | answering {a : Answering} {msg3 : Bytes} {n k : ℕ} (hmsg2 : a.msg2 = msg2)
      (hlast : last = [msg3]) (haccepts : Accepts q.config a msg3 d) (hn : n ≤ timeouts rs)
      (hk : k + j = timeouts rs) (hchunks : (chunks rs).length ≤ before)
      (h : q.Stands rs (.waits (.answering { a with resendCount := n }))
        (List.replicate (k + 1) msg2 ++ List.replicate (j + 1) o.msg1))
  | returned {k : ℕ} (hk : k + j = timeouts rs) (hchunks : (chunks rs).length ≤ before + 1)
      (h : q.Stands rs (.returns d)
        (List.replicate (k + 1) msg2 ++ List.replicate (j + 1) o.msg1))

inductive Stage (p q : Party) (o o' : Opening) (rs rs' : List Reception) : Prop where
  /-- Both wait for msg2, and the higher node has not received anything. -/
  | crossing {n n' : ℕ} (hn : n ≤ timeouts rs) (hn' : n' ≤ timeouts rs')
      (hchunks : (chunks rs).length ≤ timeouts rs' + 1) (hchunks' : (chunks rs').length = 0)
      (low : p.Stands rs (.waits (.opening { o with resendCount := n }))
        (List.replicate (timeouts rs + 1) o.msg1))
      (high : q.Stands rs' (.waits (.opening { o' with resendCount := n' }))
        (List.replicate (timeouts rs' + 1) o'.msg1))
  /-- The higher node has answered. -/
  | replied {msg2 : Bytes} {c d : Outcome} {last : List Bytes} {j : ℕ}
      (reply : Reply p.config q.config o msg2 c d last) (low : Low p o c last (j + 1) rs)
      (high : High q o' msg2 d last j (timeouts rs + 1) rs')

section Steps

variable {S : Suite} {p q : Party} {kp kq : Keypair S} {o o' : Opening} {rs rs' : List Reception}
  {frame : Bytes}

theorem timeouts_chunk (rs : List Reception) (data : Bytes) :
    timeouts (rs ++ [.chunk data]) = timeouts rs := by
  simp [timeouts, List.count_append]

theorem timeouts_timeout (rs : List Reception) :
    timeouts (rs ++ [.timeout]) = timeouts rs + 1 := by
  simp [timeouts, List.count_append]

variable {n before : ℕ} {last : List Bytes} {msg2 : Bytes} {d : Outcome}

theorem succ_le_timeouts (h : n ≤ timeouts rs) : n + 1 ≤ timeouts (rs ++ [.timeout]) := by
  rw [timeouts_timeout]
  exact Nat.succ_le_succ h

theorem length_chunks_chunk (rs : List Reception) (data : Bytes) :
    (chunks (rs ++ [.chunk data])).length = (chunks rs).length + 1 := by
  rw [chunks_append, List.length_append]
  rfl

theorem chunks_timeout (rs : List Reception) : chunks (rs ++ [.timeout]) = chunks rs := by
  rw [chunks_append]
  exact List.append_nil _

theorem exists_framed_msg1 {H M : Type} {C : Config H M} {me : Keypair S} (ho : Opened S C me o) :
    ∃ np, Wrote S C me np o.initiator ∧ Framed C.build o.msg1 (.msg1 o.ourIndex np) := by
  obtain ⟨np, hnp, hmsg1⟩ := ho.msg1
  exact ⟨np, hnp, framed_msg1 hmsg1 hnp.1⟩

theorem exists_stage_nil (hS : S.Lawful) (hp : Meets S p q kp kq) (hq : Meets S q p kq kp) :
    ∃ o o', Opened S p.config kp o ∧ Opened S q.config kq o' ∧ Stage p q o o' [] [] := by
  obtain ⟨o, t, hbegin, hcount, ho, ht⟩ := begin_opened hS hp.pinned hp.start
  obtain ⟨o', t', hbegin', hcount', ho', ht'⟩ := begin_opened hS hq.pinned hq.start
  refine ⟨o, o', ho, ho', .crossing (Nat.le_refl 0) (Nat.le_refl 0) (Nat.zero_le _) rfl ⟨t, ?_, ht⟩
    ⟨t', ?_, ht'⟩⟩
  · rw [Party.result, Handshake.run, run_bind_ok hbegin, ← hcount]
    rfl
  · rw [Party.result, Handshake.run, run_bind_ok hbegin', ← hcount']
    rfl

/-! ### Timeouts -/

theorem stands_opening_timeout (hp : Pinned S p.config kp kq) {l : List Bytes}
    (hresends : n + 1 ≤ p.config.timing.handshakeMaxResends)
    (h : p.Stands rs (.waits (.opening { o with resendCount := n })) l) :
    p.Stands (rs ++ [.timeout]) (.waits (.opening { o with resendCount := n + 1 })) (o.msg1 :: l) :=
  h.timeout fun _ ht => onTimeout_opening hp ht hresends

theorem stands_answering_timeout (hp : Pinned S p.config kp kq) {a : Answering} {l : List Bytes}
    (hresends : n + 1 ≤ p.config.timing.handshakeMaxResends)
    (h : p.Stands rs (.waits (.answering { a with resendCount := n })) l) :
    p.Stands (rs ++ [.timeout]) (.waits (.answering { a with resendCount := n + 1 }))
      (a.msg2 :: l) :=
  h.timeout fun _ ht => onTimeout_answering hp ht hresends

theorem Low.timeout {c : Outcome} (hp : Pinned S p.config kp kq) (low : Low p o c last before rs)
    (hwaits : p.waits rs = true)
    (hresends : timeouts rs + 1 ≤ p.config.timing.handshakeMaxResends) :
    Low p o c last before (rs ++ [.timeout]) := by
  cases low with
  | returned hchunks h => exact absurd hwaits (by rw [h.not_waits]; decide)
  | waits hn hchunks h =>
      refine .waits (succ_le_timeouts hn)
        (by rw [chunks_timeout]; exact hchunks) ?_
      rw [timeouts_timeout, List.replicate_succ]
      exact stands_opening_timeout hp ((Nat.succ_le_succ hn).trans hresends) h

theorem High.timeout {j : ℕ} (hq : Pinned S q.config kq kp)
    (high : High q o msg2 d last j before rs) (hwaits : q.waits rs = true)
    (hresends : timeouts rs + 1 ≤ q.config.timing.handshakeMaxResends) :
    High q o msg2 d last j before (rs ++ [.timeout]) := by
  cases high with
  | returned hk hchunks h => exact absurd hwaits (by rw [h.not_waits]; decide)
  | @answering a msg3 n k hmsg2 hlast haccepts hn hk hchunks h =>
      refine .answering (k := k + 1) hmsg2 hlast haccepts
        (succ_le_timeouts hn) (by rw [timeouts_timeout]; omega)
        (by rw [chunks_timeout]; exact hchunks) ?_
      rw [List.replicate_succ, List.cons_append, ← hmsg2]
      rw [← hmsg2] at h
      exact stands_answering_timeout hq ((Nat.succ_le_succ hn).trans hresends) h

theorem High.mono {j before' : ℕ} (high : High q o msg2 d last j before rs)
    (hle : before ≤ before') : High q o msg2 d last j before' rs := by
  cases high with
  | answering hmsg2 hlast haccepts hn hk hchunks h =>
      exact .answering hmsg2 hlast haccepts hn hk (hchunks.trans hle) h
  | returned hk hchunks h => exact .returned hk (by omega) h

/-! ### The lower node -/

section Lower

variable (hp : Meets S p q kp kq) (hlt : addrOf S kp < addrOf S kq) (ho : Opened S p.config kp o)
  (ho' : Opened S q.config kq o')

include hp hlt ho ho'

theorem stands_low_msg1 {n : ℕ} {l : List Bytes}
    (h : p.Stands rs (.waits (.opening { o with resendCount := n })) l) :
    p.Stands (rs ++ [.chunk (onWire q.config.rawFraming o'.msg1)])
      (.waits (.opening { o with resendCount := 0 })) l := by
  obtain ⟨np, -, hframed⟩ := exists_framed_msg1 ho'
  rw [← hp.build_eq] at hframed
  rw [← hp.framing_eq]
  refine h.deliver hframed fun t ht => ⟨t, ?_, ht⟩
  exact onFrame_msg1_of_lt hp.pinned hlt ht (o := { o with resendCount := n })
    ⟨ho.myPub_eq, ho.index, ho.msg1⟩ hframed.parse

theorem low_deliver {c d : Outcome} {last : List Bytes} {msg2 : Bytes} {j k : ℕ}
    (reply : Reply p.config q.config o msg2 c d last) (low : Low p o c last (j + 1) rs)
    (hwaits : p.waits rs = true)
    (hframe : (List.replicate (k + 1) msg2 ++ List.replicate (j + 1) o'.msg1).reverse[
      (chunks rs).length]? = some frame) :
    Low p o c last (j + 1) (rs ++ [.chunk (onWire q.config.rawFraming frame)]) := by
  cases low with
  | returned hchunks h => exact absurd hwaits (by rw [h.not_waits]; decide)
  | waits hn hchunks h =>
      obtain ⟨rfl, hpos⟩ | ⟨rfl, hpos⟩ := eq_of_getElem?_reverse hframe hchunks
      · refine .waits (Nat.zero_le _) (by rw [length_chunks_chunk]; exact hpos) ?_
        rw [timeouts_chunk]
        exact stands_low_msg1 hp hlt ho ho' h
      · refine .returned (by rw [length_chunks_chunk, hpos]) ?_
        obtain ⟨m₂, hframed⟩ := reply.msg2
        rw [← hp.build_eq] at hframed
        rw [timeouts_chunk, ← hp.framing_eq]
        exact h.deliver hframed fun t ht => reply.completes _ t _ ht

end Lower

/-! ### The higher node -/

section Higher

variable (hS : S.Lawful) (hp : Meets S p q kp kq) (hq : Meets S q p kq kp)
  (hlt : addrOf S kp < addrOf S kq) (ho : Opened S p.config kp o) (ho' : Opened S q.config kq o')

include hS hp hq hlt ho ho'

theorem stage_answer {n n' : ℕ} (hn : n ≤ timeouts rs)
    (hchunks : (chunks rs).length ≤ timeouts rs' + 1) (hchunks' : (chunks rs').length = 0)
    (low : p.Stands rs (.waits (.opening { o with resendCount := n }))
      (List.replicate (timeouts rs + 1) o.msg1))
    (high : q.Stands rs' (.waits (.opening { o' with resendCount := n' }))
      (List.replicate (timeouts rs' + 1) o'.msg1)) :
    Stage p q o o' rs (rs' ++ [.chunk (onWire p.config.rawFraming o.msg1)]) := by
  obtain ⟨np, hnp, hframed⟩ := exists_framed_msg1 ho
  rw [hp.build_eq] at hframed
  obtain ⟨s, hs, hdeliver⟩ := high.exists_deliver hframed
  have hon := onFrame_msg1_of_gt (s := s) hq.pinned hlt (o := { o' with resendCount := n' })
    ⟨ho'.myPub_eq, ho'.index, ho'.msg1⟩ hframed.parse
  rw [hp.framing_eq]
  have hcount : (chunks (rs' ++ [.chunk (onWire q.config.rawFraming o.msg1)])).length = 1 := by
    rw [length_chunks_chunk, hchunks']
  cases hbuild : p.config.build with
  | ik =>
      obtain ⟨c, d, msg2, t, hanswer, ht, reply⟩ :=
        answer_ik hS hbuild hp.build_eq.symm hp.pinned hq.pinned hnp hs
      have hstands := hdeliver _ t _ (hon.trans hanswer) ht
      refine .replied reply (.waits hn hchunks low) (.returned (k := 0) ?_ ?_ ?_)
      · rw [timeouts_chunk, Nat.zero_add]
      · rw [hcount]
        omega
      · exact hstands
  | xx =>
      obtain ⟨c, d, a, msg3, t, hanswer, hzero, ht, reply, haccepts⟩ :=
        answer_xx hS hbuild hp.build_eq.symm hp.pinned hq.pinned (hp.validPairing hbuild) ho hnp hs
      have hstands := hdeliver _ t _ (hon.trans hanswer) ht
      refine .replied reply (.waits hn hchunks low)
        (.answering (k := 0) rfl rfl haccepts (Nat.zero_le _) ?_ ?_ ?_)
      · rw [timeouts_chunk, Nat.zero_add]
      · rw [hcount]
        omega
      · rw [show { a with resendCount := 0 } = a by rw [← hzero]]
        exact hstands

omit hS hq hlt ho' in
theorem high_deliver {c d : Outcome} {last : List Bytes} {msg2 : Bytes} {j : ℕ}
    (reply : Reply p.config q.config o msg2 c d last) (low : Low p o c last (j + 1) rs)
    (high : High q o' msg2 d last j (timeouts rs + 1) rs') (hwaits : q.waits rs' = true)
    (hframe : (p.sent rs).reverse[(chunks rs').length]? = some frame) :
    High q o' msg2 d last j (timeouts rs + 1)
      (rs' ++ [.chunk (onWire p.config.rawFraming frame)]) := by
  cases high with
  | returned hk hchunks h => exact absurd hwaits (by rw [h.not_waits]; decide)
  | @answering a msg3 n k hmsg2 hlast haccepts hn hk hchunks h =>
      subst hlast
      obtain ⟨e, hsent⟩ : ∃ e, p.sent rs =
          List.replicate e msg3 ++ List.replicate (timeouts rs + 1) o.msg1 := by
        cases low with
        | waits _ _ hlow => exact ⟨0, hlow.sent_eq⟩
        | returned _ hlow => exact ⟨1, hlow.sent_eq⟩
      rw [hsent] at hframe
      rw [hp.framing_eq]
      obtain ⟨rfl, hpos⟩ | ⟨rfl, hpos⟩ := eq_of_getElem?_reverse hframe hchunks
      · obtain ⟨np, -, hframed⟩ := exists_framed_msg1 ho
        rw [hp.build_eq] at hframed
        refine .answering (n := n) hmsg2 rfl haccepts (by rw [timeouts_chunk]; exact hn)
          (by rw [timeouts_chunk]; exact hk) (by rw [length_chunks_chunk]; exact hpos) ?_
        exact h.deliver hframed fun t ht => ⟨t, onFrame_answering_msg1 _ hframed.parse, ht⟩
      · obtain ⟨m₃, hframed⟩ := reply.last frame (.head _)
        rw [hp.build_eq] at hframed
        refine .returned (by rw [timeouts_chunk]; exact hk) (by rw [length_chunks_chunk, hpos]) ?_
        exact h.deliver hframed fun t ht => haccepts n t _ ht

end Higher

/-! ### Every step -/

section Every

variable (hS : S.Lawful) (hp : Meets S p q kp kq) (hq : Meets S q p kq kp)
  (hlt : addrOf S kp < addrOf S kq) (ho : Opened S p.config kp o) (ho' : Opened S q.config kq o')
  (stage : Stage p q o o' rs rs')

include hp stage

theorem stage_timeout_low (hwaits : p.waits rs = true)
    (hresends : timeouts rs + 1 ≤ p.config.timing.handshakeMaxResends) :
    Stage p q o o' (rs ++ [.timeout]) rs' := by
  cases stage with
  | crossing hn hn' hchunks hchunks' low high =>
      refine .crossing (succ_le_timeouts hn) hn'
        (by rw [chunks_timeout]; exact hchunks) hchunks' ?_ high
      rw [timeouts_timeout, List.replicate_succ]
      exact stands_opening_timeout hp.pinned ((Nat.succ_le_succ hn).trans hresends) low
  | replied reply low high =>
      refine .replied reply (low.timeout hp.pinned hwaits hresends) (high.mono ?_)
      rw [timeouts_timeout]
      exact Nat.le_succ _

omit hp in
include hq in
theorem stage_timeout_high (hwaits : q.waits rs' = true)
    (hresends : timeouts rs' + 1 ≤ q.config.timing.handshakeMaxResends) :
    Stage p q o o' rs (rs' ++ [.timeout]) := by
  cases stage with
  | crossing hn hn' hchunks hchunks' low high =>
      refine .crossing hn (succ_le_timeouts hn')
        (by rw [timeouts_timeout]; omega) (by rw [chunks_timeout]; exact hchunks') low ?_
      rw [timeouts_timeout, List.replicate_succ]
      exact stands_opening_timeout hq.pinned ((Nat.succ_le_succ hn').trans hresends) high
  | replied reply low high => exact .replied reply low (high.timeout hq.pinned hwaits hresends)

include hlt ho ho'

theorem stage_deliver_low (hwaits : p.waits rs = true)
    (hframe : (q.sent rs').reverse[(chunks rs).length]? = some frame) :
    Stage p q o o' (rs ++ [.chunk (onWire q.config.rawFraming frame)]) rs' := by
  cases stage with
  | crossing hn hn' hchunks hchunks' low high =>
      rw [high.sent_eq] at hframe
      obtain ⟨rfl, hpos⟩ | ⟨rfl, hpos⟩ :=
        eq_of_getElem?_reverse (a := o'.msg1) (k := 0) hframe hchunks
      · refine .crossing (Nat.zero_le _) hn'
          (by rw [length_chunks_chunk]; exact hpos) hchunks' ?_ high
        rw [timeouts_chunk]
        exact stands_low_msg1 hp hlt ho ho' low
      · rw [hpos, List.getElem?_eq_none (by simp)] at hframe
        cases hframe
  | @replied msg2 c d last j reply low high =>
      obtain ⟨k, hsent⟩ : ∃ k, q.sent rs' =
          List.replicate (k + 1) msg2 ++ List.replicate (j + 1) o'.msg1 := by
        cases high with
        | answering _ _ _ _ _ _ h => exact ⟨_, h.sent_eq⟩
        | returned _ _ h => exact ⟨_, h.sent_eq⟩
      rw [hsent] at hframe
      refine .replied reply (low_deliver hp hlt ho ho' reply low hwaits hframe) ?_
      rw [timeouts_chunk]
      exact high

include hS hq

theorem stage_deliver_high (hwaits : q.waits rs' = true)
    (hframe : (p.sent rs).reverse[(chunks rs').length]? = some frame) :
    Stage p q o o' rs (rs' ++ [.chunk (onWire p.config.rawFraming frame)]) := by
  cases stage with
  | crossing hn hn' hchunks hchunks' low high =>
      rw [low.sent_eq] at hframe
      have hmem := List.mem_of_getElem? hframe
      rw [List.reverse_replicate] at hmem
      obtain rfl := List.eq_of_mem_replicate hmem
      exact stage_answer hS hp hq hlt ho ho' hn hchunks hchunks' low high
  | replied reply low high =>
      exact .replied reply low (high_deliver hp ho reply low high hwaits hframe)

end Every

/-! ### What has been reached -/

theorem Stage.not_failed (stage : Stage p q o o' rs rs') :
    p.failed rs = false ∧ q.failed rs' = false := by
  cases stage with
  | crossing _ _ _ _ low high => exact ⟨low.not_failed, high.not_failed⟩
  | replied reply low high =>
      constructor
      · cases low with
        | waits _ _ h => exact h.not_failed
        | returned _ h => exact h.not_failed
      · cases high with
        | answering _ _ _ _ _ _ h => exact h.not_failed
        | returned _ _ h => exact h.not_failed

theorem Stage.length_chunks (stage : Stage p q o o' rs rs') :
    (chunks rs).length ≤ timeouts rs' + 2 ∧ (chunks rs').length ≤ timeouts rs + 2 := by
  cases stage with
  | crossing => omega
  | @replied _ _ _ _ j reply low high =>
      have hj : j ≤ timeouts rs' ∧ (chunks rs').length ≤ timeouts rs + 2 := by
        cases high <;> omega
      refine ⟨?_, hj.2⟩
      cases low <;> omega

/-- Both handshakes returned, with keys that cross over and with each other's index; the higher node
answered. -/
structure Settled (p q : Party) (rs rs' : List Reception) (c d : Outcome) : Prop where
  first : p.returned rs = some c
  second : q.returned rs' = some d
  ks_eq : c.ks = d.kr
  kr_eq : c.kr = d.ks
  not_answered : ¬ p.Answered rs
  answered : q.Answered rs'
  first_them : q.lastIndex rs' = some c.them ∧ ∃ n, q.config.world.index n = c.them
  second_them : p.lastIndex rs = some d.them ∧ ∃ n, p.config.world.index n = d.them

theorem settled_of_returned (ho : Opened S p.config kp o) {c : Outcome}
    (reply : Reply p.config q.config o msg2 c d last) {m : ℕ} {l : List Bytes}
    (low : p.Stands rs (.returns c) (last ++ List.replicate (m + 1) o.msg1))
    (high : q.Stands rs' (.returns d) (msg2 :: l)) : Settled p q rs rs' c d := by
  obtain ⟨np, -, hmsg1⟩ := exists_framed_msg1 ho
  obtain ⟨m₂, hmsg2⟩ := reply.msg2
  refine ⟨low.returned_eq, high.returned_eq, reply.ks_eq, reply.kr_eq, ?_, ?_, ?_, ?_⟩
  · rintro ⟨frame, hframe, senderIdx, receiverIdx, np', hparse⟩
    rw [low.sent_eq, List.mem_append] at hframe
    obtain hframe | hframe := hframe
    · obtain ⟨m₃, hmsg3⟩ := reply.last frame hframe
      rw [hmsg3.parse] at hparse
      cases hparse
    · rw [List.eq_of_mem_replicate hframe, hmsg1.parse] at hparse
      cases hparse
  · exact ⟨msg2, by rw [high.sent_eq]; exact .head _, _, _, _, hmsg2.parse⟩
  · refine ⟨?_, reply.first_them⟩
    rw [Party.lastIndex, high.sent_eq, List.head?_cons, Option.bind_some, hmsg2.parse]
  · refine ⟨?_, reply.second_them ▸ ho.index⟩
    rw [Party.lastIndex, low.sent_eq, reply.second_them]
    cases last with
    | nil => rw [List.nil_append, List.replicate_succ, List.head?_cons, Option.bind_some,
        hmsg1.parse]
    | cons frame last =>
        obtain ⟨m₃, hmsg3⟩ := reply.last frame (.head _)
        rw [List.cons_append, List.head?_cons, Option.bind_some, hmsg3.parse]

theorem Stage.settled (ho : Opened S p.config kp o) (stage : Stage p q o o' rs rs')
    (hlow : p.waits rs = true → (q.sent rs').length ≤ (chunks rs).length)
    (hhigh : q.waits rs' = true → (p.sent rs).length ≤ (chunks rs').length) :
    ∃ c d, Settled p q rs rs' c d := by
  cases stage with
  | crossing hn hn' hchunks hchunks' low high =>
      have := hhigh high.waits_eq
      rw [low.sent_eq, List.length_replicate, hchunks'] at this
      cases this
  | @replied msg2 c d last j reply low high =>
      cases low with
      | waits hn hchunks h =>
          have hsent : j + 2 ≤ (q.sent rs').length := by
            cases high with
            | answering _ _ _ _ _ _ hq => rw [hq.sent_eq]; simp; omega
            | returned _ _ hq => rw [hq.sent_eq]; simp; omega
          have := hlow h.waits_eq
          omega
      | returned hchunks h =>
          cases high with
          | answering _ hlast _ _ _ hchunks' hq =>
              have := hhigh hq.waits_eq
              rw [h.sent_eq, hlast] at this
              simp at this
              omega
          | returned _ _ hq => exact ⟨c, d, settled_of_returned ho reply h hq⟩

end Steps

/-! ## The pair -/

section Pair

variable {S : Suite} {P : Side → Party} {key : Side → Keypair S} {σ σ' : Side → List Reception}

theorem other_other (x : Side) : x.other.other = x := by
  cases x <;> rfl

theorem other_ne (x : Side) : x.other ≠ x := by
  cases x <;> decide

theorem eq_or_eq_other (x y : Side) : y = x ∨ y = x.other := by
  cases x <;> cases y <;> decide

variable {m : Move}

theorem step_cases (h : step P σ m = some σ') :
    ∃ x r, (P x).waits (σ x) = true ∧ σ' = Function.update σ x (σ x ++ [r]) ∧
      (r = .timeout ∨ ∃ frame, onItsWay P σ x = some frame ∧
        r = .chunk (onWire (P x.other).config.rawFraming frame)) := by
  cases m with
  | deliver x =>
      rw [step] at h
      split at h
      · rename_i hwaits
        obtain ⟨frame, hframe, rfl⟩ := Option.map_eq_some_iff.mp h
        exact ⟨x, _, hwaits, rfl, .inr ⟨frame, hframe, rfl⟩⟩
      · cases h
  | timeout x =>
      rw [step] at h
      split at h
      · rename_i hwaits
        exact ⟨x, _, hwaits, (Option.some.inj h).symm, .inl rfl⟩
      · cases h

/-- Neither node runs into more timeouts than it has resends. -/
def Patient (P : Side → Party) (σ : Side → List Reception) : Prop :=
  ∀ x, timeouts (σ x) ≤ (P x).config.timing.handshakeMaxResends

theorem timeouts_le_append (rs : List Reception) (r : Reception) :
    timeouts rs ≤ timeouts (rs ++ [r]) := by
  simp [timeouts, List.count_append]

theorem Patient.of_step (h : step P σ m = some σ') (hpatient : Patient P σ') : Patient P σ := by
  obtain ⟨x, r, -, rfl, -⟩ := step_cases h
  intro y
  obtain rfl | hne := eq_or_ne y x
  · have := hpatient y
    rw [Function.update_self] at this
    exact (timeouts_le_append _ r).trans this
  · have := hpatient y
    rwa [Function.update_of_ne hne] at this

variable (hS : S.Lawful) (hmeets : ∀ x, Meets S (P x) (P x.other) (key x) (key x.other)) {x : Side}
  (hlt : addrOf S (key x) < addrOf S (key x.other)) {o o' : Opening}
  (ho : Opened S (P x).config (key x) o) (ho' : Opened S (P x.other).config (key x.other) o')

include hS hmeets hlt ho ho'

theorem stage_step (stage : Stage (P x) (P x.other) o o' (σ x) (σ x.other))
    (h : step P σ m = some σ') (hpatient : Patient P σ') :
    Stage (P x) (P x.other) o o' (σ' x) (σ' x.other) := by
  have hq : Meets S (P x.other) (P x) (key x.other) (key x) := by
    have := hmeets x.other
    rwa [other_other] at this
  obtain ⟨y, r, hwaits, rfl, hr⟩ := step_cases h
  have hbound := hpatient y
  rw [Function.update_self] at hbound
  obtain rfl | rfl := eq_or_eq_other x y
  · rw [Function.update_self, Function.update_of_ne (other_ne y)]
    obtain rfl | ⟨frame, hframe, rfl⟩ := hr
    · rw [timeouts_timeout] at hbound
      exact stage_timeout_low (hmeets y) stage hwaits hbound
    · exact stage_deliver_low (hmeets y) hlt ho ho' stage hwaits hframe
  · rw [Function.update_self, Function.update_of_ne (other_ne x).symm]
    obtain rfl | ⟨frame, hframe, rfl⟩ := hr
    · rw [timeouts_timeout] at hbound
      exact stage_timeout_high hq stage hwaits hbound
    · rw [onItsWay, other_other] at hframe
      rw [other_other]
      exact stage_deliver_high hS (hmeets x) hq hlt ho ho' stage hwaits hframe

theorem stage_run {moves : List Move}
    (start_stage : Stage (P x) (P x.other) o o' [] [])
    (hrun : Runs.run (step P) start moves = some σ) (hpatient : Patient P σ) :
    Stage (P x) (P x.other) o o' (σ x) (σ x.other) := by
  refine Runs.Guarded.invariant (P := fun _ _ => True)
    (I := fun σ => Patient P σ → Stage (P x) (P x.other) o o' (σ x) (σ x.other)) ?_ ?_
    (Runs.guarded_of_forall (fun _ _ => trivial) start) hrun hpatient
  · intro σ m σ' hstage _ hstep hpatient
    exact stage_step hS hmeets hlt ho ho' (hstage (hpatient.of_step hstep)) hstep hpatient
  · exact fun _ => start_stage

end Pair

/-- Both handshakes returned: each node sends with the key that the other receives with, exactly one
of them answered, and each got the index that the other drew for its last frame. -/
structure Agreed (P : Side → Party) (σ : Side → List Reception) (out : Side → Outcome) : Prop where
  returned : ∀ x, (P x).returned (σ x) = some (out x)
  keys : ∀ x, (out x).ks = (out x.other).kr
  responder : ∃! x, (P x).Answered (σ x)
  them : ∀ x, (P x.other).lastIndex (σ x.other) = some (out x).them ∧
    ∃ n, (P x.other).config.world.index n = (out x).them

theorem agreed_of_settled {P : Side → Party} {σ : Side → List Reception} {x : Side} {c d : Outcome}
    (h : Settled (P x) (P x.other) (σ x) (σ x.other) c d) : ∃ out, Agreed P σ out := by
  have hself : (if x = x then c else d) = c := if_pos rfl
  have hother : (if x.other = x then c else d) = d := if_neg (other_ne x)
  refine ⟨fun y => if y = x then c else d, fun y => ?_, fun y => ?_, ⟨x.other, h.answered, ?_⟩,
    fun y => ?_⟩
  · obtain rfl | rfl := eq_or_eq_other x y
    · rw [hself, h.first]
    · rw [hother, h.second]
  · obtain rfl | rfl := eq_or_eq_other x y
    · rw [hself, hother, h.ks_eq]
    · rw [other_other, hself, hother, h.kr_eq]
  · intro y hy
    obtain rfl | rfl := eq_or_eq_other x y
    · exact absurd hy h.not_answered
    · rfl
  · obtain rfl | rfl := eq_or_eq_other x y
    · rw [hself]
      exact h.first_them
    · rw [hother, other_other]
      exact h.second_them

/-- Two nodes that are pinned to each other both open, and their frames are delivered in order and
without loss, between the timeouts that their resends allow.  Then neither handshake fails, no more
frames are received than the timeouts account for, and once no frame is on its way to a handshake
that waits both have returned and agree. -/
theorem simultaneous_open {S : Suite} (hS : S.Lawful) {P : Side → Party} {key : Side → Keypair S}
    (hmeets : ∀ x, Meets S (P x) (P x.other) (key x) (key x.other))
    (hne : addrOf S (key .first) ≠ addrOf S (key .second)) {moves : List Move}
    {σ : Side → List Reception} (hrun : Runs.run (step P) start moves = some σ)
    (hpatient : Patient P σ) :
    (∀ x, (P x).failed (σ x) = false) ∧
      (∀ x, (chunks (σ x)).length ≤ timeouts (σ x.other) + 2) ∧
      ((∀ x, step P σ (.deliver x) = none) → ∃ out, Agreed P σ out) := by
  -- the roles follow from the addresses
  obtain ⟨x, hlt⟩ : ∃ x : Side, addrOf S (key x) < addrOf S (key x.other) := by
    by_contra hcon
    rw [not_exists] at hcon
    exact hne (List.le_antisymm (List.not_lt.mp (hcon .second)) (List.not_lt.mp (hcon .first)))
  have hq : Meets S (P x.other) (P x) (key x.other) (key x) := by
    have := hmeets x.other
    rwa [other_other] at this
  obtain ⟨o, o', ho, ho', hstart⟩ := exists_stage_nil hS (hmeets x) hq
  have hstage := stage_run hS hmeets hlt ho ho' hstart hrun hpatient
  refine ⟨fun y => ?_, fun y => ?_, fun hquiet => ?_⟩
  · obtain rfl | rfl := eq_or_eq_other x y
    · exact hstage.not_failed.1
    · exact hstage.not_failed.2
  · obtain rfl | rfl := eq_or_eq_other x y
    · exact hstage.length_chunks.1
    · rw [other_other]
      exact hstage.length_chunks.2
  · have hnone (y : Side) (hwaits : (P y).waits (σ y) = true) :
        ((P y.other).sent (σ y.other)).length ≤ (chunks (σ y)).length := by
      have := hquiet y
      rw [step, if_pos hwaits, Option.map_eq_none_iff, onItsWay, List.getElem?_eq_none_iff,
        List.length_reverse] at this
      exact this
    have hlow := hnone x
    have hhigh := hnone x.other
    rw [other_other] at hhigh
    obtain ⟨c, d, hsettled⟩ := hstage.settled ho hlow hhigh
    exact agreed_of_settled hsettled

end Crossing

namespace Scenario

open Handshake Crossing

def nodes : Side → Party
  | .first => ⟨PUnit, PUnit, aliceXx, fresh false⟩
  | .second => ⟨PUnit, PUnit, bobFull, fresh false⟩

def nodeKey : Side → Keypair Additive.suite
  | .first => Additive.keypair 1
  | .second => Additive.keypair 3

def moves : List Crossing.Move :=
  [.timeout .second, .deliver .first, .deliver .second, .deliver .first, .deliver .first,
    .deliver .second]

theorem nodes_meet (x : Side) :
    Meets Additive.suite (nodes x) (nodes x.other) (nodeKey x) (nodeKey x.other) := by
  cases x with
  | first =>
      exact ⟨⟨rfl, rfl, .inl rfl, rfl, fun _ => rfl, fun _ => ⟨_, rfl⟩⟩, ⟨rfl, rfl, rfl⟩, rfl, rfl,
        fun _ => rfl⟩
  | second =>
      exact ⟨⟨rfl, rfl, .inl rfl, rfl, fun _ => rfl, fun _ => ⟨_, rfl⟩⟩, ⟨rfl, rfl, rfl⟩, rfl, rfl,
        fun _ => rfl⟩

end Scenario

namespace Crossing

open Scenario in
theorem simultaneous_open_moves : ∃ σ out, Runs.run (step nodes) start moves = some σ ∧
    timeouts (σ .second) = 1 ∧ Agreed nodes σ out := by
  have hrun : (Runs.run (step nodes) start moves).any (fun σ =>
      timeouts (σ .first) = 0 ∧ timeouts (σ .second) = 1 ∧
        (step nodes σ (.deliver .first)).isNone ∧ (step nodes σ (.deliver .second)).isNone) =
          true := by
    decide +kernel
  obtain ⟨σ, hσ⟩ := Option.isSome_iff_exists.mp (Option.isSome_of_any hrun)
  rw [hσ, Option.any_some] at hrun
  obtain ⟨hfirst, hsecond, hquiet₁, hquiet₂⟩ := of_decide_eq_true hrun
  have hpatient : Patient nodes σ := by
    rintro (_ | _)
    · rw [hfirst]
      exact Nat.zero_le _
    · rw [hsecond]
      decide
  have hquiet (x : Side) : step nodes σ (.deliver x) = none := by
    cases x with
    | first => exact Option.isNone_iff_eq_none.mp hquiet₁
    | second => exact Option.isNone_iff_eq_none.mp hquiet₂
  obtain ⟨-, -, hagreed⟩ := simultaneous_open Additive.suite_lawful nodes_meet
      (by decide +kernel) hσ
    hpatient
  obtain ⟨out, hout⟩ := hagreed hquiet
  exact ⟨σ, out, hσ, hsecond, hout⟩
end Crossing
end Node
end Microfips
