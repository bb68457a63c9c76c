import Microfips.Noise.Additive
import Microfips.Data.CounterLog
import Microfips.Data.Trace
import Microfips.Session.Machine

/-!
# Replayed session datagrams

What a handler that lives through many sessions does with repeated datagrams.  Its counters are
taken one after the other while no send key comes back, so its replies never share a key and a
counter as long as every session it completes was begun with an ephemeral key of its own; the
ephemeral key of the responder is fixed for its life, so a replayed handshake does bring a send
key back.  Nothing in the session layer remembers which messages were delivered: a message is
delivered at most once for each datagram that carries it.
-/

namespace Microfips
namespace Session

open Noise Wire Node

/-- The completed handshakes of a trace: the initiator's ephemeral key and the send key. -/
def handshakes (tr : List FspEvent) : List (Block 33 × Block 32) :=
  tr.filterMap fun
    | .established eiPub _ kSend => some (eiPub, kSend)
    | _ => none

def takes (tr : List FspEvent) : List (Block 32 × UInt64) :=
  tr.filterMap fun
    | .took kSend c => some (kSend, c)
    | _ => none

def seals (tr : List FspEvent) : List (Block 32 × UInt64) :=
  tr.filterMap fun
    | .sealed kSend c => some (kSend, c)
    | _ => none

def deliveries (tr : List FspEvent) : List (Block 32 × UInt64) :=
  tr.filterMap fun
    | .delivered kRecv c => some (kRecv, c)
    | _ => none

def KeysFresh (tr : List FspEvent) : Prop :=
  (handshakes tr).Pairwise fun a b => a.2 ≠ b.2

theorem KeysFresh.of_suffix {tr tr' : List FspEvent} (h : tr <:+ tr') (hfresh : KeysFresh tr') :
    KeysFresh tr :=
  List.Pairwise.sublist (h.sublist.filterMap _) hfresh

structure CountersFollow (v : View) : Prop where
  sequential : CounterLog.Sequential (takes v.2)
  seals_sublist : (seals v.2).Sublist (takes v.2)
  established : ∀ e ∈ takes v.2, ∃ h ∈ handshakes v.2, h.2 = e.1
  zero : v.1.state ≠ .established → v.1.kSend = none ∧ v.1.sendCounter = 0
  tracks : ∀ k, v.1.kSend = some k →
    (∃ h ∈ handshakes v.2, h.2 = k) ∧ CounterLog.Tracks (takes v.2) k v.1.sendCounter

namespace CountersFollow

theorem new : CountersFollow (FspSession.new, []) where
  sequential := trivial
  seals_sublist := List.Sublist.refl _
  established := by simp [takes]
  zero := fun _ => ⟨rfl, rfl⟩
  tracks := by simp [FspSession.new]

variable {s : FspSession} {tr : List FspEvent}

theorem renewal {t : FspSession} (h : Renewal s t) (hs : CountersFollow (s, tr)) :
    CountersFollow (t, tr) := by
  cases h with
  | reset =>
      exact { hs with zero := fun _ => ⟨rfl, rfl⟩, tracks := by simp [FspSession.new] }
  | setup r hidle _ =>
      have hzero := hs.zero (by simp [hidle])
      exact { hs with zero := fun _ => hzero }
  | rejectMsg3 r hwait _ =>
      have hzero := hs.zero (by simp [hwait])
      exact { hs with zero := fun _ => hzero }

theorem renewals {t : FspSession} (h : Relation.ReflTransGen Renewal s t)
    (hs : CountersFollow (s, tr)) : CountersFollow (t, tr) := by
  induction h with
  | refl =>
      exact hs
  | tail _ hstep ih =>
      exact renewal hstep ih

theorem received (kRecv : Block 32) (c : UInt64) (hs : CountersFollow (s, tr)) :
    CountersFollow (s, .received kRecv c :: tr) :=
  ⟨hs.sequential, hs.seals_sublist, hs.established, hs.zero, hs.tracks⟩

theorem delivered (kRecv : Block 32) (c : UInt64) (hs : CountersFollow (s, tr)) :
    CountersFollow (s, .delivered kRecv c :: tr) :=
  ⟨hs.sequential, hs.seals_sublist, hs.established, hs.zero, hs.tracks⟩

/-- A new send key starts at the counter zero, which the session has before it. -/
theorem establish (eiPub static : Block 33) (kRecv kSend : Block 32)
    (hwait : s.state = .awaitingMsg3) (hfresh : KeysFresh (.established eiPub kRecv kSend :: tr))
    (hs : CountersFollow (s, tr)) :
    CountersFollow
      ({ state := .established, responder := none, kRecv := some kRecv, kSend := some kSend,
         initiatorPub := some static, sendCounter := s.sendCounter },
        .established eiPub kRecv kSend :: tr) where
  sequential := hs.sequential
  seals_sublist := hs.seals_sublist
  established := by
    intro e he
    obtain ⟨h, hmem, hkey⟩ := hs.established e he
    exact ⟨h, List.mem_cons_of_mem _ hmem, hkey⟩
  zero := fun h => absurd rfl h
  tracks := by
    intro k hk
    obtain rfl : kSend = k := Option.some.inj hk
    refine ⟨⟨(eiPub, kSend), List.mem_cons_self, rfl⟩, ?_⟩
    have hzero : s.sendCounter = 0 := (hs.zero (by simp [hwait])).2
    simp only [hzero]
    apply CounterLog.Tracks.of_forall_ne
    intro e he hkey
    obtain ⟨h, hmem, hh⟩ := hs.established e he
    exact (List.pairwise_cons.mp hfresh).1 h hmem (hkey.symm.trans hh.symm)

theorem spend {kSend : Block 32} (hk : s.kSend = some kSend) (hs : CountersFollow (s, tr)) :
    CountersFollow
      ({ s with sendCounter := s.sendCounter + 1 }, .took kSend s.sendCounter :: tr) where
  sequential := hs.sequential.take (hs.tracks kSend hk).2
  seals_sublist := hs.seals_sublist.cons _
  established := by
    intro e he
    rcases List.mem_cons.mp he with rfl | he
    · exact (hs.tracks kSend hk).1
    · exact hs.established e he
  zero := by
    intro h
    have hnone := (hs.zero h).1
    simp [hk] at hnone
  tracks := by
    intro k hk'
    obtain rfl : kSend = k := Option.some.inj (hk.symm.trans hk')
    exact ⟨(hs.tracks kSend hk).1, (hs.tracks kSend hk).2.take⟩

theorem sealed {kSend : Block 32} {c : UInt64} (hseals : (seals tr).Sublist (takes tr))
    (hs : CountersFollow (s, .took kSend c :: tr)) :
    CountersFollow (s, .sealed kSend c :: .took kSend c :: tr) where
  sequential := hs.sequential
  seals_sublist := hseals.cons_cons _
  established := hs.established
  zero := hs.zero
  tracks := hs.tracks

end CountersFollow

theorem FspSession.kSend_of_sessionKeys {s : FspSession} {kRecv kSend : Block 32}
    (h : s.sessionKeys = some (kRecv, kSend)) : s.kSend = some kSend := by
  rw [FspSession.sessionKeys] at h
  split at h
  · rename_i hrecv hsend
    obtain ⟨rfl, rfl⟩ := Prod.mk.inj (Option.some.inj h)
    exact hsend
  · exact absurd h (by simp)

variable {v w : View} {inputs : List (Option UInt64)}

theorem Move.upholds {carried : Option UInt64} (h : Move carried v w) :
    Trace.Upholds Prod.snd KeysFresh CountersFollow v w := by
  cases h with
  | renew tr h =>
      exact ⟨List.suffix_refl _, fun hs _ => hs.renewals h⟩
  | establish tr r static kRecv kSend hwait hr =>
      exact ⟨List.suffix_cons _ _, fun hs hfresh => hs.establish _ static _ _ hwait hfresh⟩
  | refuse tr hc hkeys =>
      exact ⟨List.suffix_cons _ _, fun hs _ => hs.received _ _⟩
  | deliver tr hc hkeys =>
      exact ⟨⟨[_, _], rfl⟩, fun hs _ => (hs.received _ _).delivered _ _⟩
  | skip tr hc hkeys =>
      refine ⟨⟨[_, _, _], rfl⟩, fun hs _ => ?_⟩
      exact ((hs.received _ _).delivered _ _).spend (FspSession.kSend_of_sessionKeys hkeys)
  | @reply s tr kRecv kSend c hc hkeys =>
      refine ⟨⟨[_, _, _, _], rfl⟩, fun hs _ => ?_⟩
      have hs' := (hs.received kRecv c).delivered kRecv c
      exact (hs'.spend (FspSession.kSend_of_sessionKeys hkeys)).sealed hs'.seals_sublist

theorem Moves.upholds (h : Moves inputs v w) :
    Trace.Upholds Prod.snd KeysFresh CountersFollow v w := by
  induction h with
  | nil v =>
      exact .refl v
  | cons h _ ih =>
      exact h.upholds.trans KeysFresh.of_suffix ih

theorem Moves.takes_length_le (h : Moves inputs v w) :
    (takes w.2).length ≤ (takes v.2).length + inputs.length := by
  induction h with
  | nil v =>
      simp
  | @cons carried rest u v w h _ ih =>
      have hstep : (takes v.2).length ≤ (takes u.2).length + 1 := by
        cases h <;> simp [takes]
      rw [List.length_cons]
      omega

theorem Moves.deliveries_count_le (h : Moves inputs v w) (kRecv : Block 32) (c : UInt64) :
    (deliveries w.2).count (kRecv, c) ≤
      (deliveries v.2).count (kRecv, c) + inputs.count (some c) := by
  induction h with
  | nil v =>
      simp
  | @cons carried rest u v w h _ ih =>
      have hdeliver {k : Block 32} {n : UInt64} (hn : carried = some n)
          (log : List (Block 32 × UInt64)) : ((k, n) :: log).count (kRecv, c) ≤
            log.count (kRecv, c) + if carried = some c then 1 else 0 := by
        by_cases heq : n = c
        · simp only [heq ▸ hn, if_true, List.count_cons]
          split <;> omega
        · simp [heq]
      have hstep : (deliveries v.2).count (kRecv, c) ≤
          (deliveries u.2).count (kRecv, c) + if carried = some c then 1 else 0 := by
        cases h with
        | renew => exact Nat.le_add_right _ _
        | establish => exact Nat.le_add_right _ _
        | refuse => exact Nat.le_add_right _ _
        | deliver tr hc => exact hdeliver hc _
        | skip tr hc => exact hdeliver hc _
        | reply tr hc => exact hdeliver hc _
      rw [List.count_cons]
      simp only [beq_iff_eq]
      omega

namespace FspDualHandler

variable {A : Type}

def life (S : Suite) (build : Build) (handler : FspAppHandler A) (appBuf : ℕ)
    (h : FspDualHandler A) (inputs : List Input) : List FspEvent :=
  ((run S build handler appBuf inputs).run h).state.trace

theorem life_moves {S : Suite} {build : Build} (handler : FspAppHandler A) (appBuf : ℕ)
    {h : FspDualHandler A} (hnew : Created S build h) (inputs : List Input) :
    ∃ s, Moves (inputs.map Input.carried) (FspSession.new, [])
      (s, life S build handler appBuf h inputs) := by
  have hmoves := run_moves S build handler appBuf inputs h
  rw [hnew.view_eq] at hmoves
  exact ⟨_, hmoves⟩

/-- No two sessions were begun with the same ephemeral key, up to its parity. -/
def EphemeralsFresh (tr : List FspEvent) : Prop :=
  (handshakes tr).Pairwise fun a b => ¬ SameX a.1 b.1

instance (tr : List FspEvent) : Decidable (EphemeralsFresh tr) :=
  inferInstanceAs (Decidable (List.Pairwise _ _))

/-- Key derivation gave handshakes on different ephemeral keys different send keys. -/
def KeysSeparate (tr : List FspEvent) : Prop :=
  (handshakes tr).Pairwise fun a b => ¬ SameX a.1 b.1 → a.2 ≠ b.2

instance (tr : List FspEvent) : Decidable (KeysSeparate tr) :=
  inferInstanceAs (Decidable (List.Pairwise _ _))

namespace Scenario

def echo : FspAppHandler PUnit where
  onFspMessage app msgType payload _ _ := (.reply msgType payload, app)

def responder : FspDualHandler PUnit :=
  newResponder (Additive.keypair 3).secret (Additive.keypair 4).secret (Block.replicate 8 6) ⟨⟩

def datagram (fspData : Bytes) : Input :=
  .message 0 msgSessionDatagram
    (buildSessionDatagramBody (Block.replicate 16 1) (Block.replicate 16 2) ++ fspData) 512

/-- What an initiator with the ephemeral secret `ei` sends to `responder`: the setup, the msg3
on the ack, and the data message with the counter 0. -/
def session (build : Build) (ei : UInt8) : Option (List Input) := do
  let S := Additive.suite
  let fsp ← (FspInitiatorSession.new S build (Additive.keypair 1).secret
    (Additive.keypair ei).secret (Additive.keypair 3).pub).toOption
  let (setup, fsp) ← ((FspInitiatorSession.buildSetup S (Block.replicate 16 1)
    (Block.replicate 16 2) 512).call fsp).toOption
  match (step S build echo 512 (datagram setup)).run responder with
  | .ok (.sendDatagram ack) _ =>
      let (_, fsp) ← ((FspInitiatorSession.handleAck S
        (ack.drop sessionDatagramBodySize)).call fsp).toOption
      let (msg3, fsp) ← ((FspInitiatorSession.buildMsg3 S (Block.replicate 8 5) 512).call
        fsp).toOption
      let (_, kSend) ← fsp.sessionKeys
      let data ← (buildFspDataMessage S 0 0 [104, 105] kSend 512).toOption
      return [datagram setup, datagram msg3, datagram data]
  | _ => none

def sessions (build : Build) (ei ei' : UInt8) : List Input :=
  (session build ei).getD [] ++ (session build ei').getD []

def repeated (build : Build) (ei : UInt8) : List Input :=
  (session build ei).getD [] ++ ((session build ei).getD []).drop 2

end Scenario

/-- In a life of at most `2 ^ 64` inputs whose completed sessions were begun with different
ephemeral keys no two replies are sealed with the same key and counter. -/
theorem seals_nodup_of_ephemeralsFresh {S : Suite} {build : Build} (handler : FspAppHandler A)
    (appBuf : ℕ) {h : FspDualHandler A} (hnew : Created S build h) (inputs : List Input)
    (hlen : inputs.length ≤ 2 ^ 64)
    (hkeys : KeysSeparate (life S build handler appBuf h inputs))
    (hfresh : EphemeralsFresh (life S build handler appBuf h inputs)) :
    (seals (life S build handler appBuf h inputs)).Nodup := by
  obtain ⟨s, hmoves⟩ := life_moves handler appBuf hnew inputs
  have hkeysFresh : KeysFresh (life S build handler appBuf h inputs) :=
    (hkeys.and hfresh).imp fun hab => hab.1 hab.2
  have hfollow := hmoves.upholds.2 CountersFollow.new hkeysFresh
  refine hfollow.seals_sublist.nodup (hfollow.sequential.nodup fun k => ?_)
  have htakes := hmoves.takes_length_le
  have huses := CounterLog.uses_le_length (takes (life S build handler appBuf h inputs)) k
  simp only [takes, List.filterMap_nil, List.length_nil, List.length_map] at htakes huses ⊢
  omega

theorem seals_nodup_two_ephemerals :
    (seals (life Additive.suite .ik Scenario.echo 512 Scenario.responder
      (Scenario.sessions .ik 2 5))).length = 2 ∧
    (seals (life Additive.suite .ik Scenario.echo 512 Scenario.responder
      (Scenario.sessions .ik 2 5))).Nodup := by
  have h : (Scenario.sessions .ik 2 5).length ≤ 2 ^ 64 ∧
      KeysSeparate (life Additive.suite .ik Scenario.echo 512 Scenario.responder
        (Scenario.sessions .ik 2 5)) ∧
      EphemeralsFresh (life Additive.suite .ik Scenario.echo 512 Scenario.responder
        (Scenario.sessions .ik 2 5)) ∧
      (seals (life Additive.suite .ik Scenario.echo 512 Scenario.responder
        (Scenario.sessions .ik 2 5))).length = 2 := by
    decide +kernel
  exact ⟨h.2.2.2, seals_nodup_of_ephemeralsFresh Scenario.echo 512 (.responder _ _ _ _) _ h.1
    h.2.1 h.2.2.1⟩

/-- The datagrams of one session, received twice: the second session has the send key of the
first, and its counter starts at zero again. -/
theorem seals_replayed_session :
    ¬ (seals (life Additive.suite .ik Scenario.echo 512 Scenario.responder
      (Scenario.sessions .ik 2 2))).Nodup := by
  decide +kernel

/-- A message is delivered at most once for each input that carries its counter. -/
theorem count_deliveries_le {S : Suite} {build : Build} (handler : FspAppHandler A)
    (appBuf : ℕ) {h : FspDualHandler A} (hnew : Created S build h) (inputs : List Input)
    (kRecv : Block 32) (c : UInt64) :
    (deliveries (life S build handler appBuf h inputs)).count (kRecv, c) ≤
      (inputs.map Input.carried).count (some c) := by
  obtain ⟨s, hmoves⟩ := life_moves handler appBuf hnew inputs
  have hcount := hmoves.deliveries_count_le kRecv c
  rwa [show deliveries (FspSession.new, ([] : List FspEvent)).2 = [] from rfl, List.count_nil,
    Nat.zero_add] at hcount

theorem count_deliveries_repeated :
    ∃ kRecv, (deliveries (life Additive.suite .ik Scenario.echo 512 Scenario.responder
        (Scenario.repeated .ik 2))).count (kRecv, 0) ≤
      ((Scenario.repeated .ik 2).map Input.carried).count (some 0) :=
  ⟨Block.replicate 32 0, count_deliveries_le Scenario.echo 512 (.responder _ _ _ _) _ _ _⟩

/-- The data message of a session, received twice in it, is delivered twice. -/
theorem deliveries_repeated_message :
    ¬ (deliveries (life Additive.suite .ik Scenario.echo 512 Scenario.responder
      (Scenario.repeated .ik 2))).Nodup := by
  decide +kernel

end FspDualHandler
end Session
end Microfips
