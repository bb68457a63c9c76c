import Microfips.Ap.Dhcp

/-!
# One lease per client

`find_lease` takes the first lease of a client, so the server works with one lease per client.  A
REQUEST that names an address of the pool does not look for it: the named slot is committed, and a
lease that the client has on another slot stays.  As long as no client does that while its lease
runs, it has one lease at most, and none behind its RELEASE.  A client that asks for the address of
its own lease in time is acknowledged.
-/

namespace Microfips
namespace Ap
namespace DhcpServer

variable {N : UInt32} {s t : DhcpServer N} {p : Packet}

/-- A REQUEST of a client whose lease runs names no address of the pool but the one of that
lease. -/
def namesOwnLease (self : DhcpServer N) (p : Packet) : Bool :=
  match parseRequest p.bytes with
  | none => true
  | some req =>
      decide (req.msgType ≠ msgRequest) ||
        ((wanted req).bind self.idxForIp).all fun idx =>
          (self.findLease req.chaddr p.now).all fun held => decide (held = idx)

/-- From the given time on, no client has a lease on two slots. -/
def Single (self : DhcpServer N) (time : ℕ) : Prop :=
  ∀ mac now, time ≤ now → ∀ i j, holds mac now (self.leases i) = true →
    holds mac now (self.leases j) = true → i = j

/-- What one packet does to the table, by its type. -/
inductive Moved (s : DhcpServer N) (p : Packet) : DhcpServer N → Prop where
  | stays (h : ∀ mac, ¬ Releases p.bytes mac) : Moved s p s
  | commits {req : Request} {idx : Fin N.toNat} (hreq : parseRequest p.bytes = some req)
      (htype : req.msgType = msgRequest) (hidx : s.granted req p.now = some idx) (expiresAt : ℕ) :
      Moved s p { s with leases := Function.update s.leases idx (some ⟨req.chaddr, expiresAt⟩) }
  | releases {req : Request} (hreq : parseRequest p.bytes = some req)
      (htype : req.msgType = msgRelease) : Moved s p (s.handleRelease req p.now)

variable {req : Request} {reply : Option (ℕ × Bytes)} {mac : Block 6} {now time : ℕ}
  {idx : Fin N.toNat}

theorem moved_of_handleRequest (hreq : parseRequest p.bytes = some req)
    (htype : req.msgType = msgRequest) (h : s.handleRequest req p.now p.out = .ok (reply, t)) :
    Moved s p t := by
  have hstays : ∀ mac, ¬ Releases p.bytes mac := by
    rintro mac ⟨req', hreq', htype', -⟩
    obtain rfl := Option.some.inj (hreq.symm.trans hreq')
    rw [htype] at htype'
    cases htype'
  rw [handleRequest] at h
  split at h
  · obtain ⟨-, rfl⟩ := Prod.mk.inj (Except.ok.inj h)
    exact .stays hstays
  · split at h
    · obtain ⟨nak, -, h⟩ := Except.exists_of_bind_eq_ok h
      obtain ⟨-, rfl⟩ := Prod.mk.inj (Except.ok.inj h)
      exact .stays hstays
    · rename_i idx hidx
      obtain ⟨committed, hcommit, h⟩ := Except.exists_of_bind_eq_ok h
      obtain ⟨ip, -, h⟩ := Except.exists_of_bind_eq_ok h
      obtain ⟨ack, -, h⟩ := Except.exists_of_bind_eq_ok h
      obtain ⟨-, rfl⟩ := Prod.mk.inj (Except.ok.inj h)
      obtain ⟨expiresAt, -, hcommit⟩ := Except.exists_of_bind_eq_ok hcommit
      obtain rfl := Except.ok.inj hcommit
      exact .commits hreq htype hidx expiresAt

theorem moved_of_handleDiscover (hstays : ∀ mac, ¬ Releases p.bytes mac)
    (h : s.handleDiscover req p.now p.out = .ok (reply, t)) : Moved s p t := by
  rw [handleDiscover] at h
  split at h
  · obtain ⟨-, rfl⟩ := Prod.mk.inj (Except.ok.inj h)
    exact .stays hstays
  · obtain ⟨ip, -, h⟩ := Except.exists_of_bind_eq_ok h
    obtain ⟨offer, -, h⟩ := Except.exists_of_bind_eq_ok h
    obtain ⟨-, rfl⟩ := Prod.mk.inj (Except.ok.inj h)
    exact .stays hstays

theorem moved_of_handle (h : s.handle p.bytes p.now p.out = .ok (reply, t)) : Moved s p t := by
  rw [handle] at h
  cases hreq : parseRequest p.bytes with
  | none =>
      rw [hreq] at h
      obtain ⟨-, rfl⟩ := Prod.mk.inj (Except.ok.inj h)
      refine .stays ?_
      rintro mac ⟨req, hreq', -⟩
      cases hreq.symm.trans hreq'
  | some req =>
      have hstays (htype : req.msgType ≠ msgRelease) (mac : Block 6) : ¬ Releases p.bytes mac := by
        rintro ⟨req', hreq', htype', -⟩
        obtain rfl := Option.some.inj (hreq.symm.trans hreq')
        exact htype htype'
      rw [hreq] at h
      dsimp only at h
      by_cases hdiscover : req.msgType = msgDiscover
      · rw [if_pos hdiscover] at h
        exact moved_of_handleDiscover (hstays (by rw [hdiscover]; decide)) h
      · rw [if_neg hdiscover] at h
        by_cases hrequest : req.msgType = msgRequest
        · rw [if_pos hrequest] at h
          exact moved_of_handleRequest hreq hrequest h
        · rw [if_neg hrequest] at h
          by_cases hrelease : req.msgType = msgRelease
          · rw [if_pos hrelease] at h
            obtain ⟨-, rfl⟩ := Prod.mk.inj (Except.ok.inj h)
            exact .releases hreq hrelease
          · rw [if_neg hrelease] at h
            obtain ⟨-, rfl⟩ := Prod.mk.inj (Except.ok.inj h)
            exact .stays (hstays hrelease)

theorem moved_of_step (h : s.step p = some t) : Moved s p t := by
  rw [step] at h
  split at h
  · rename_i reply t' hhandle
    obtain rfl := Option.some.inj h
    exact moved_of_handle hhandle
  · cases h

/-! ### The leases of one client -/

theorem findLease_eq_none (h : s.findLease mac now = none) (i : Fin N.toNat) :
    holds mac now (s.leases i) = false :=
  Fin.find?_eq_none_iff.mp h i

theorem holds_of_findLease {i : Fin N.toNat} (h : s.findLease mac now = some i) :
    holds mac now (s.leases i) = true :=
  (Fin.find?_eq_some_iff.mp h).1

theorem holds_of_le (hle : time ≤ now) {l : Option Lease} (h : holds mac now l = true) :
    holds mac time l = true := by
  cases l with
  | none => exact h
  | some l =>
      obtain ⟨hmac, hlt⟩ := of_decide_eq_true h
      exact decide_eq_true ⟨hmac, hle.trans_lt hlt⟩

theorem Single.mono {time' : ℕ} (h : s.Single time) (hle : time ≤ time') : s.Single time' :=
  fun mac now hnow => h mac now (hle.trans hnow)

theorem eq_of_granted_of_wanted {asked : Fin N.toNat}
    (hasked : (wanted req).bind s.idxForIp = some asked) (hidx : s.granted req now = some idx) :
    idx = asked := by
  rw [granted, hasked] at hidx
  dsimp only at hidx
  split at hidx
  · exact (Option.some.inj hidx).symm
  · split at hidx
    · exact (Option.some.inj hidx).symm
    · cases hidx

theorem eq_of_granted_of_none {held : Fin N.toNat} (hasked : (wanted req).bind s.idxForIp = none)
    (hheld : s.findLease req.chaddr now = some held) (hidx : s.granted req now = some idx) :
    idx = held := by
  rw [granted, hasked, allocate, hheld] at hidx
  dsimp only at hidx
  split at hidx
  · exact (Option.some.inj hidx).symm
  · cases hidx

theorem eq_of_granted {j : Fin N.toNat} (hsingle : s.Single p.now)
    (hreq : parseRequest p.bytes = some req) (htype : req.msgType = msgRequest)
    (hown : s.namesOwnLease p = true) (hidx : s.granted req p.now = some idx)
    (hj : holds req.chaddr p.now (s.leases j) = true) : j = idx := by
  obtain ⟨held, hheld⟩ : ∃ held, s.findLease req.chaddr p.now = some held := by
    cases hfind : s.findLease req.chaddr p.now with
    | none =>
        rw [findLease_eq_none hfind j] at hj
        cases hj
    | some held => exact ⟨held, rfl⟩
  have hjheld : j = held := hsingle _ _ le_rfl _ _ hj (holds_of_findLease hheld)
  subst hjheld
  cases hasked : (wanted req).bind s.idxForIp with
  | none => exact (eq_of_granted_of_none hasked hheld hidx).symm
  | some asked =>
      rw [namesOwnLease, hreq] at hown
      dsimp only at hown
      rw [hasked, hheld, htype] at hown
      have heq : j = asked := of_decide_eq_true hown
      exact heq.trans (eq_of_granted_of_wanted hasked hidx).symm

theorem not_holds_handleRelease (hsingle : s.Single now) (i : Fin N.toNat) :
    holds req.chaddr now ((s.handleRelease req now).leases i) = false := by
  rw [handleRelease]
  cases hfind : s.findLease req.chaddr now with
  | none => exact findLease_eq_none hfind i
  | some idx =>
      dsimp only
      by_cases hi : i = idx
      · rw [hi, Function.update_self]
        rfl
      · rw [Function.update_of_ne hi]
        cases hholds : holds req.chaddr now (s.leases i) with
        | false => rfl
        | true => exact absurd (hsingle _ _ le_rfl _ _ hholds (holds_of_findLease hfind)) hi

theorem holds_of_handleRelease {i : Fin N.toNat}
    (h : holds mac now ((s.handleRelease req time).leases i) = true) :
    holds mac now (s.leases i) = true := by
  rw [handleRelease] at h
  split at h
  · rename_i idx _
    dsimp only at h
    by_cases hi : i = idx
    · rw [hi, Function.update_self] at h
      cases h
    · rwa [Function.update_of_ne hi] at h
  · exact h

theorem Single.moved (hsingle : s.Single p.now) (hown : s.namesOwnLease p = true)
    (h : Moved s p t) : t.Single p.now := by
  intro mac now hnow i j hi hj
  cases h with
  | stays => exact hsingle mac now hnow i j hi hj
  | releases =>
      exact hsingle mac now hnow i j (holds_of_handleRelease hi) (holds_of_handleRelease hj)
  | @commits req idx hreq htype hidx expiresAt =>
      -- A lease of the client on another slot would be its running lease, which was not named.
      have hother {k : Fin N.toNat} (hk : holds mac now (Function.update s.leases idx
          (some ⟨req.chaddr, expiresAt⟩) k) = true) (hne : k ≠ idx) (hmac : req.chaddr = mac) :
          False := by
        rw [Function.update_of_ne hne, ← hmac] at hk
        exact hne (eq_of_granted hsingle hreq htype hown hidx (holds_of_le hnow hk))
      by_cases hiidx : i = idx
      · by_cases hjidx : j = idx
        · rw [hiidx, hjidx]
        · dsimp only at hi
          rw [hiidx, Function.update_self] at hi
          exact (hother hj hjidx (of_decide_eq_true hi).1).elim
      · by_cases hjidx : j = idx
        · dsimp only at hj
          rw [hjidx, Function.update_self] at hj
          exact (hother hi hiidx (of_decide_eq_true hj).1).elim
        · dsimp only at hi hj
          rw [Function.update_of_ne hiidx] at hi
          rw [Function.update_of_ne hjidx] at hj
          exact hsingle mac now hnow i j hi hj

theorem single_new (cfg : DhcpServerConfig) : (new N cfg).Single 0 := by
  intro mac now _ i j hi _
  cases hi

theorem Single.run {packets : List Packet} (hsingle : s.Single time)
    (hstart : ∀ p ∈ packets, time ≤ p.now) (hclock : packets.Pairwise fun p q => p.now ≤ q.now)
    (hown : Runs.Guarded step (fun s p => s.namesOwnLease p = true) s packets)
    (hrun : Runs.run step s packets = some t) :
    ∀ now, time ≤ now → (∀ p ∈ packets, p.now ≤ now) → t.Single now := by
  induction packets generalizing s time with
  | nil =>
      intro now hnow _
      obtain rfl := Option.some.inj hrun
      exact hsingle.mono hnow
  | cons p packets ih =>
      intro now _ hall
      obtain ⟨hfirst, hrest⟩ := List.pairwise_cons.mp hclock
      obtain ⟨u, hu, hrun⟩ := Option.bind_eq_some_iff.mp hrun
      have hmoved := (hsingle.mono (hstart p List.mem_cons_self)).moved hown.1 (moved_of_step hu)
      exact ih hmoved hfirst hrest (hown.2 u hu) hrun now (hall p List.mem_cons_self)
        fun q hq => hall q (List.mem_cons_of_mem p hq)

/-- On every pool and every clock that does not go back, where no client whose lease runs names
another address of the pool in a REQUEST: each client has one lease that runs at most, and none
behind its RELEASE. -/
theorem one_lease_per_client {cfg : DhcpServerConfig} {packets : List Packet}
    (hclock : packets.Pairwise fun p q => p.now ≤ q.now)
    (hown : Runs.Guarded step (fun s p => s.namesOwnLease p = true) (new N cfg) packets)
    (hrun : Runs.run step (new N cfg) packets = some t) {now : ℕ}
    (hnow : ∀ p ∈ packets, p.now ≤ now) (mac : Block 6) :
    (∀ i j, holds mac now (t.leases i) = true → holds mac now (t.leases j) = true → i = j) ∧
      ∀ before last, packets = before ++ [last] → Releases last.bytes mac →
        ∀ i, holds mac now (t.leases i) = false := by
  constructor
  · exact (single_new cfg).run (fun _ _ => Nat.zero_le _) hclock hown hrun now (Nat.zero_le _) hnow
      mac now le_rfl
  · rintro before last rfl ⟨req, hreq, htype, rfl⟩ i
    obtain ⟨hbefore, -, hlast⟩ := List.pairwise_append.mp hclock
    obtain ⟨u, hu, hstep⟩ := Option.bind_eq_some_iff.mp ((Runs.run_append _ _ _).symm.trans hrun)
    obtain ⟨v, hv, hnil⟩ := Option.bind_eq_some_iff.mp hstep
    obtain rfl := Option.some.inj hnil
    have hsingle : u.Single last.now := (single_new cfg).run (fun _ _ => Nat.zero_le _) hbefore
      hown.of_append.1 hu last.now (Nat.zero_le _) fun p hp => hlast p hp last List.mem_cons_self
    have hgone : holds req.chaddr last.now (v.leases i) = false := by
      cases moved_of_step hv with
      | stays h => exact absurd ⟨req, hreq, htype, rfl⟩ (h req.chaddr)
      | commits hreq' htype' =>
          obtain rfl := Option.some.inj (hreq.symm.trans hreq')
          rw [htype] at htype'
          cases htype'
      | releases hreq' =>
          obtain rfl := Option.some.inj (hreq.symm.trans hreq')
          exact not_holds_handleRelease hsingle i
    cases hlater : holds req.chaddr now (v.leases i) with
    | false => rfl
    | true =>
        rw [holds_of_le (hnow last (List.mem_append_right _ List.mem_cons_self)) hlater] at hgone
        cases hgone

def requestFor (ip : Block 4) (mac : Block 6) (now : ℕ) : Packet where
  bytes := opRequest :: List.replicate 27 0 ++ mac.bytes ++ List.replicate 202 0 ++ magicCookie ++
    [optMsgType, 1, msgRequest, optRequestedIp, 4] ++ ip.bytes ++ [optEnd]
  now := now
  out := List.replicate 320 7

def poolOfTwo : DhcpServer 2 := new 2 poolOfOne.cfg

def second : Block 4 := Block.ofBytes 4 [192, 168, 4, 11]

def slotA : Fin (UInt32.toNat 2) := ⟨0, by decide⟩

def slotB : Fin (UInt32.toNat 2) := ⟨1, by decide⟩

def renewed : List Packet :=
  [requestFor offered macA 0, requestFor offered macA 300, packetAt msgRelease macA 400]

def asksForBoth : List Packet := [requestFor offered macA 0, requestFor second macA 1]

theorem releases_packetAt : Releases (packetAt msgRelease macA 400).bytes macA := by
  have h : ∃ req ∈ parseRequest (packetAt msgRelease macA 400).bytes,
      req.msgType = msgRelease ∧ req.chaddr = macA := by
    decide +kernel
  exact h

theorem one_lease_per_client_renewed :
    ∃ t, Runs.run step poolOfTwo renewed = some t ∧ ∀ i, holds macA 400 (t.leases i) = false := by
  have hown : Runs.Guarded step (fun s p => s.namesOwnLease p = true) poolOfTwo renewed := by
    decide +kernel
  have hrun : (Runs.run step poolOfTwo renewed).isSome = true := by
    decide +kernel
  obtain ⟨t, ht⟩ := Option.isSome_iff_exists.mp hrun
  have hclock : renewed.Pairwise fun p q => p.now ≤ q.now := by
    decide +kernel
  have hnow : ∀ p ∈ renewed, p.now ≤ 400 := by
    decide +kernel
  exact ⟨t, ht, (one_lease_per_client hclock hown ht hnow macA).2
    [requestFor offered macA 0, requestFor offered macA 300] _ rfl releases_packetAt⟩

/-- A client whose lease runs asks for the other address: it has two leases, and keeps one behind
its RELEASE. -/
theorem two_leases_of_one_client :
    (∃ t ∈ Runs.run step poolOfTwo asksForBoth,
      holds macA 1 (t.leases slotA) = true ∧ holds macA 1 (t.leases slotB) = true) ∧
    Releases (packetAt msgRelease macA 400).bytes macA ∧
    ∃ t ∈ Runs.run step poolOfTwo (asksForBoth ++ [packetAt msgRelease macA 400]),
      holds macA 400 (t.leases slotB) = true := by
  exact ⟨by decide +kernel, releases_packetAt, by decide +kernel⟩

section Renewal

variable {N : UInt32} {s t u : DhcpServer N} {idx : Fin N.toNat} {mac : Block 6} {ip : Block 4}
  {p q : Packet} {req : Request}

theorem idxForIp_of_ipFor (h : s.ipFor idx = .ok ip) : s.idxForIp ip = some idx := by
  obtain ⟨host, hhost, h⟩ := Except.exists_of_bind_eq_ok h
  obtain ⟨rfl, hlt⟩ := Bytes.plus_eq_ok hhost
  obtain rfl := Except.ok.inj h
  have hbytes (x : ℕ) (hx : x < 2 ^ 32) :
      fromBeBytes (Block.ofBytes 4 (toBeBytes x)).bytes = x := by
    rw [Block.ofBytes_bytes_of_length_eq (by simp [toBeBytes]), fromBeBytes, toBeBytes,
      List.reverse_reverse, Bytes.toNat_ofNat]
    exact Nat.mod_eq_of_lt hx
  simp [idxForIp, hbytes _ hlt]

theorem acksTo_of_granted (hreq : parseRequest q.bytes = some req)
    (htype : req.msgType = msgRequest)
    (hours : req.serverId = none ∨ req.serverId = some t.cfg.serverIp)
    (hgranted : t.granted req q.now = some idx) (hip : t.ipFor idx = .ok ip)
    (hstep : t.step q = some u) : t.AcksTo q req.chaddr ip := by
  have hhandle : t.handle q.bytes q.now q.out = t.handleRequest req q.now q.out := by
    rw [handle, hreq]
    exact (if_neg (by rw [htype]; decide)).trans (if_pos htype)
  rw [step, hhandle] at hstep
  rw [AcksTo, replyTo, hhandle]
  split at hstep
  · rename_i reply u' hrequest
    rw [handleRequest, if_neg (by rcases hours with h | h <;> simp [h]), hgranted] at hrequest
    obtain ⟨committed, hcommit, hrequest⟩ := Except.exists_of_bind_eq_ok hrequest
    obtain ⟨ip', hip', hrequest⟩ := Except.exists_of_bind_eq_ok hrequest
    obtain ⟨ack, hack, hrequest⟩ := Except.exists_of_bind_eq_ok hrequest
    obtain ⟨rfl, -⟩ := Prod.mk.inj (Except.ok.inj hrequest)
    obtain ⟨expiresAt, -, hcommit⟩ := Except.exists_of_bind_eq_ok hcommit
    obtain rfl := Except.ok.inj hcommit
    obtain rfl := Except.ok.inj (hip'.symm.trans hip)
    obtain ⟨htype, hyiaddr, hchaddr⟩ := reads_of_buildReply hack
    exact ⟨ack, rfl, htype, hyiaddr, hchaddr⟩
  · cases hstep

/-- Behind an ACK, and before that lease expires, a REQUEST of the client for its address is
acknowledged again, whatever others ask for meanwhile, unless the client gave the address up. -/
theorem renewal_acked {between : List Packet}
    (hclock : (p :: (between ++ [q])).Pairwise fun x y => x.now ≤ y.now)
    (hp : s.AcksTo p mac ip) (hrun : Runs.run step s (p :: between) = some t)
    (hkeeps : ∀ r ∈ between, ¬ Releases r.bytes mac)
    (hlease : q.now < p.now + s.cfg.leaseSecs.toNat) (hreq : parseRequest q.bytes = some req)
    (htype : req.msgType = msgRequest) (hmac : req.chaddr = mac) (hwanted : wanted req = some ip)
    (hours : req.serverId = none ∨ req.serverId = some s.cfg.serverIp)
    (hstep : t.step q = some u) : t.AcksTo q mac ip := by
  obtain ⟨reply, s₁, hhandle, hacks⟩ := hp.exists_handle
  obtain ⟨idx, -, hip, hcfg, hleased⟩ := (handled hhandle).leased hacks
  have hrun' : Runs.run step s₁ between = some t := by
    rwa [Runs.run, step, hhandle] at hrun
  obtain ⟨hfirst, hclock⟩ := List.pairwise_cons.mp hclock
  obtain ⟨-, -, hlast⟩ := List.pairwise_append.mp hclock
  obtain ⟨hcfg', l, hl, hholder, -⟩ := hleased.run (fun r hr =>
    ⟨(hlast r hr q (.head _)).trans_lt hlease, hcfg ▸ Nat.add_le_add_right
      (hfirst r (List.mem_append_left _ hr)) _, hkeeps r hr⟩) hrun'
  have hsame := hcfg'.trans hcfg
  have hip' : t.ipFor idx = .ok ip := (ipFor_of_cfg_eq hsame idx).trans hip
  have hgranted : t.granted req q.now = some idx := by
    rw [granted, hwanted, Option.bind_some, idxForIp_of_ipFor hip']
    simp [hl, hholder, hmac]
  exact hmac ▸ acksTo_of_granted hreq htype (hsame ▸ hours) hgranted hip' hstep

end Renewal

theorem renewal_acked_contended : ∃ t ∈ Runs.run step poolOfOne
      [packetAt msgRequest macA 0, requestFor offered macB 100],
    t.AcksTo (requestFor offered macA 300) macA offered := by
  have h : poolOfOne.AcksTo (packetAt msgRequest macA 0) macA offered ∧
      ∃ t ∈ Runs.run step poolOfOne [packetAt msgRequest macA 0, requestFor offered macB 100],
        (t.step (requestFor offered macA 300)).isSome ∧
        ∃ req ∈ parseRequest (requestFor offered macA 300).bytes, req.msgType = msgRequest ∧
          req.chaddr = macA ∧ wanted req = some offered ∧ req.serverId = none := by
    decide +kernel
  obtain ⟨hp, t, hrun, hstep, req, hreq, htype, hmac, hwanted, hours⟩ := h
  obtain ⟨u, hu⟩ := Option.isSome_iff_exists.mp hstep
  have hother : ∀ r ∈ [requestFor offered macB 100], ∀ req ∈ parseRequest r.bytes,
      req.chaddr ≠ macA := by
    decide +kernel
  have hkeeps : ∀ r ∈ [requestFor offered macB 100], ¬ Releases r.bytes macA := by
    rintro r hr ⟨req, hreq, -, hmac⟩
    exact hother r hr req hreq hmac
  exact ⟨t, hrun, renewal_acked (by decide +kernel) hp hrun hkeeps (by decide +kernel) hreq htype
    hmac hwanted (.inl hours) hu⟩

end DhcpServer
end Ap
end Microfips
