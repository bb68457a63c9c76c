import Mathlib.Data.Fin.Tuple.Basic
import Microfips.Data.Buffer
import Microfips.Data.Runs

/-!
# The DHCP server of the access point

`DhcpServer` of `microfips-esp-common`, file `dhcp_server.rs`: the parser of requests, the lease
table and the replies.  `usize` has the 32 bits of the targets, and an overflow in `+` panics.  The
one thing that a client learns is the reply, so what it was promised is read off the reply's bytes.
-/

namespace Microfips
namespace Ap

def magicCookie : Bytes := [99, 130, 83, 99]

def opRequest : UInt8 := 1

def opReply : UInt8 := 2

def optSubnet : UInt8 := 1

def optRouter : UInt8 := 3

def optDns : UInt8 := 6

def optRequestedIp : UInt8 := 50

def optLeaseTime : UInt8 := 51

def optMsgType : UInt8 := 53

def optServerId : UInt8 := 54

def optEnd : UInt8 := 255

def msgDiscover : UInt8 := 1

def msgOffer : UInt8 := 2

def msgRequest : UInt8 := 3

def msgAck : UInt8 := 5

def msgNak : UInt8 := 6

def msgRelease : UInt8 := 7

def headerLen : ℕ := 236

def minReplyLen : ℕ := 300

def fromBeBytes (b : Bytes) : ℕ :=
  Bytes.toNat b.reverse

def toBeBytes (x : ℕ) : Bytes :=
  (Bytes.ofNat 4 x).reverse

structure DhcpServerConfig where
  serverIp : Block 4
  subnetMask : Block 4
  poolStart : Block 4
  leaseSecs : UInt32
  deriving DecidableEq

/-- The fields of `Request` that come from options. -/
structure Options where
  msgType : UInt8 := 0
  requestedIp : Option (Block 4) := none
  serverId : Option (Block 4) := none
  deriving DecidableEq

structure Request extends Options where
  xid : Block 4
  flags : Block 2
  chaddr : Block 6
  ciaddr : Block 4
  deriving DecidableEq

namespace Options

/-- One option; one of another length than it should have is passed over. -/
def set (self : Options) (code : UInt8) (value : Bytes) : Options :=
  if code = optMsgType ∧ value.length = 1 then
    { self with msgType := value.getD 0 0 }
  else if code = optRequestedIp ∧ value.length = 4 then
    { self with requestedIp := some (Block.ofBytes 4 value) }
  else if code = optServerId ∧ value.length = 4 then
    { self with serverId := some (Block.ofBytes 4 value) }
  else
    self

/-- The loop of `parse_request` over what is left of the packet.  Every round takes at least one
byte, so that as many rounds as bytes are enough. -/
def parse : ℕ → Bytes → Options → Option Options
  | 0, _, self => some self
  | _ + 1, [], self => some self
  | fuel + 1, code :: rest, self =>
      if code = optEnd then
        some self
      else if code = 0 then
        parse fuel rest self
      else
        match rest with
        | [] => none
        | len :: rest =>
            if len.toNat ≤ rest.length then
              parse fuel (rest.drop len.toNat) (self.set code (rest.take len.toNat))
            else
              none

end Options

def parseRequest (packet : Bytes) : Option Request :=
  if packet.length < headerLen + 4 ∨ packet.getD 0 0 ≠ opRequest then
    none
  else if Bytes.slice headerLen (headerLen + 4) packet ≠ magicCookie then
    none
  else
    (Options.parse packet.length (packet.drop (headerLen + 4)) {}).bind fun options =>
      if options.msgType = 0 then
        none
      else
        some { options with
          xid := Block.ofBytes 4 (Bytes.slice 4 8 packet)
          flags := Block.ofBytes 2 (Bytes.slice 10 12 packet)
          chaddr := Block.ofBytes 6 (Bytes.slice 28 34 packet)
          ciaddr := Block.ofBytes 4 (Bytes.slice 12 16 packet) }

structure Lease where
  mac : Block 6
  expiresAt : ℕ
  deriving DecidableEq

structure DhcpServer (N : UInt32) where
  cfg : DhcpServerConfig
  leases : Fin N.toNat → Option Lease

namespace DhcpServer

variable {N : UInt32}

def new (N : UInt32) (cfg : DhcpServerConfig) : DhcpServer N where
  cfg := cfg
  leases := fun _ => none

def ipFor (self : DhcpServer N) (idx : Fin N.toNat) : Except (Fault Empty) (Block 4) := do
  let host ← Bytes.plus 32 (fromBeBytes self.cfg.poolStart.bytes) idx.val
  return Block.ofBytes 4 (toBeBytes host)

def idxForIp (self : DhcpServer N) (ip : Block 4) : Option (Fin N.toNat) :=
  let start := fromBeBytes self.cfg.poolStart.bytes
  let v := fromBeBytes ip.bytes
  if h : start ≤ v ∧ v - start < N.toNat then some ⟨v - start, h.2⟩ else none

def holds (mac : Block 6) (now : ℕ) : Option Lease → Bool
  | none => false
  | some l => decide (l.mac = mac ∧ now < l.expiresAt)

def free (now : ℕ) : Option Lease → Bool
  | none => true
  | some l => decide (l.expiresAt ≤ now)

def findLease (self : DhcpServer N) (mac : Block 6) (now : ℕ) : Option (Fin N.toNat) :=
  Fin.find? fun idx => holds mac now (self.leases idx)

/-- The part of `allocate` for a client without a lease. -/
def allocateFree (self : DhcpServer N) (now : ℕ) (preferred : Option (Block 4)) :
    Option (Fin N.toNat) :=
  match (preferred.bind self.idxForIp).filter fun idx => free now (self.leases idx) with
  | some idx => some idx
  | none => Fin.find? fun idx => free now (self.leases idx)

def allocate (self : DhcpServer N) (mac : Block 6) (now : ℕ) (preferred : Option (Block 4)) :
    Option (Fin N.toNat) :=
  match self.findLease mac now with
  | some idx => some idx
  | none => self.allocateFree now preferred

def commit (self : DhcpServer N) (idx : Fin N.toNat) (mac : Block 6) (now : ℕ) :
    Except (Fault Empty) (DhcpServer N) := do
  let expiresAt ← Bytes.plus 64 now self.cfg.leaseSecs.toNat
  return { self with leases := Function.update self.leases idx (some ⟨mac, expiresAt⟩) }

def put (code : UInt8) (value : Bytes) (out : Bytes × ℕ) : Except (Fault Empty) (Bytes × ℕ) := do
  let buf ← Bytes.copyInto out.2 (code :: UInt8.ofNat value.length :: value) out.1
  return (buf, out.2 + (2 + value.length))

def replyOptions (cfg : DhcpServerConfig) (msgType : UInt8) : List (UInt8 × Bytes) :=
  [(optMsgType, [msgType]), (optServerId, cfg.serverIp.bytes)] ++
    if msgType = msgNak then
      []
    else
      [(optLeaseTime, toBeBytes cfg.leaseSecs.toNat), (optSubnet, cfg.subnetMask.bytes),
        (optRouter, cfg.serverIp.bytes), (optDns, cfg.serverIp.bytes)]

def replyFields (cfg : DhcpServerConfig) (req : Request) (yiaddr : Block 4) : List (ℕ × Bytes) :=
  [(0, [opReply]), (1, [1]), (2, [6]), (4, req.xid.bytes),
    (10, [req.flags.bytes.getD 0 0 ||| 0x80]), (11, [req.flags.bytes.getD 1 0]),
    (16, yiaddr.bytes), (20, cfg.serverIp.bytes), (28, req.chaddr.bytes), (headerLen, magicCookie)]

def buildReply (self : DhcpServer N) (req : Request) (msgType : UInt8) (yiaddr : Block 4)
    (out : Bytes) : Except (Fault Empty) (ℕ × Bytes) := do
  let zeroed := List.replicate (min minReplyLen out.length) 0 ++ out.drop minReplyLen
  let header ← Bytes.copyAll (replyFields self.cfg req yiaddr) zeroed
  let written ← (replyOptions self.cfg msgType).foldlM (fun out o => put o.1 o.2 out)
    (header, headerLen + 4)
  let ended ← Bytes.copyInto written.2 [optEnd] written.1
  return (max (written.2 + 1) minReplyLen, ended)

def handleDiscover (self : DhcpServer N) (req : Request) (now : ℕ) (out : Bytes) :
    Except (Fault Empty) (Option (ℕ × Bytes) × DhcpServer N) :=
  match self.allocate req.chaddr now req.requestedIp with
  | none => .ok (none, self)
  | some idx => do
      let ip ← self.ipFor idx
      let reply ← self.buildReply req msgOffer ip out
      return (some reply, self)

def wanted (req : Request) : Option (Block 4) :=
  req.requestedIp.or (if req.ciaddr ≠ Block.replicate 4 0 then some req.ciaddr else none)

/-- The slot that a REQUEST is granted; there is none where it is to be refused. -/
def granted (self : DhcpServer N) (req : Request) (now : ℕ) : Option (Fin N.toNat) :=
  match (wanted req).bind self.idxForIp with
  | some idx =>
      match self.leases idx with
      | none => some idx
      | some l => if l.mac = req.chaddr ∨ l.expiresAt ≤ now then some idx else none
  | none =>
      match self.allocate req.chaddr now none with
      | some idx => if (wanted req).isNone then some idx else none
      | none => none

def handleRequest (self : DhcpServer N) (req : Request) (now : ℕ) (out : Bytes) :
    Except (Fault Empty) (Option (ℕ × Bytes) × DhcpServer N) :=
  if req.serverId.any (fun sid => decide (sid ≠ self.cfg.serverIp)) then
    .ok (none, self)
  else
    match self.granted req now with
    | none => do
        let reply ← self.buildReply req msgNak (Block.replicate 4 0) out
        return (some reply, self)
    | some idx => do
        let committed ← self.commit idx req.chaddr now
        let ip ← committed.ipFor idx
        let reply ← committed.buildReply req msgAck ip out
        return (some reply, committed)

def handleRelease (self : DhcpServer N) (req : Request) (now : ℕ) : DhcpServer N :=
  match self.findLease req.chaddr now with
  | some idx => { self with leases := Function.update self.leases idx none }
  | none => self

def handle (self : DhcpServer N) (packet : Bytes) (now : ℕ) (out : Bytes) :
    Except (Fault Empty) (Option (ℕ × Bytes) × DhcpServer N) :=
  match parseRequest packet with
  | none => .ok (none, self)
  | some req =>
      if req.msgType = msgDiscover then
        self.handleDiscover req now out
      else if req.msgType = msgRequest then
        self.handleRequest req now out
      else if req.msgType = msgRelease then
        .ok (none, self.handleRelease req now)
      else
        .ok (none, self)

def optionBytes (options : List (UInt8 × Bytes)) : Bytes :=
  options.flatMap fun o => o.1 :: UInt8.ofNat o.2.length :: o.2

/-- An option that can be told from the padding and from the end, and whose length fits its byte. -/
def Writable (o : UInt8 × Bytes) : Prop :=
  o.1 ≠ optEnd ∧ o.1 ≠ 0 ∧ o.2.length < 256

theorem parse_optionBytes {options : List (UInt8 × Bytes)} (h : ∀ o ∈ options, Writable o)
    (rest : Bytes) {fuel : ℕ} (hfuel : (optionBytes options).length < fuel) (read : Options) :
    Options.parse fuel (optionBytes options ++ optEnd :: rest) read =
      some (options.foldl (fun read o => read.set o.1 o.2) read) := by
  induction options generalizing fuel read with
  | nil =>
      obtain ⟨fuel, rfl⟩ := Nat.exists_eq_add_one_of_ne_zero (Nat.ne_zero_of_lt hfuel)
      rfl
  | cons o options ih =>
      obtain ⟨fuel, rfl⟩ := Nat.exists_eq_add_one_of_ne_zero (Nat.ne_zero_of_lt hfuel)
      obtain ⟨hend, hpad, hlength⟩ := h o (.head _)
      have hlen : (UInt8.ofNat o.2.length).toNat = o.2.length := by
        rw [UInt8.toNat_ofNat', Nat.mod_eq_of_lt hlength]
      have hbytes : optionBytes (o :: options) ++ optEnd :: rest =
          o.1 :: UInt8.ofNat o.2.length :: (o.2 ++ (optionBytes options ++ optEnd :: rest)) := by
        simp [optionBytes]
      have hfuel' : (optionBytes options).length < fuel := by
        simp only [optionBytes, List.flatMap_cons, List.length_append, List.length_cons] at hfuel ⊢
        omega
      rw [hbytes, Options.parse, if_neg hend, if_neg hpad, hlen, if_pos (by simp), List.drop_left,
        List.take_left]
      exact ih (fun o' ho' => h o' (.tail o ho')) hfuel' _

theorem put_eq_ok {code : UInt8} {value : Bytes} {out out' : Bytes × ℕ}
    (h : put code value out = .ok out') :
    out'.1.take out'.2 = out.1.take out.2 ++ code :: UInt8.ofNat value.length :: value := by
  obtain ⟨buf, hcopy, hbuf⟩ := Except.exists_of_bind_eq_ok h
  obtain rfl := Except.ok.inj hbuf
  have htake := Bytes.take_copyInto hcopy
  rw [List.length_cons, List.length_cons, Nat.add_assoc, Nat.add_comm value.length] at htake
  exact htake

theorem puts_eq_ok {options : List (UInt8 × Bytes)} {out out' : Bytes × ℕ}
    (h : options.foldlM (fun out o => put o.1 o.2 out) out = .ok out') :
    out'.1.take out'.2 = out.1.take out.2 ++ optionBytes options := by
  induction options generalizing out with
  | nil =>
      obtain rfl := Except.ok.inj h
      rw [optionBytes, List.flatMap_nil, List.append_nil]
  | cons o options ih =>
      rw [List.foldlM_cons] at h
      obtain ⟨out₁, hfirst, hrest⟩ := Except.exists_of_bind_eq_ok h
      rw [ih hrest, put_eq_ok hfirst, List.append_assoc]
      rfl

def replyType (reply : Bytes) : Option UInt8 :=
  (Options.parse reply.length (reply.drop (headerLen + 4)) {}).map Options.msgType

theorem writable_replyOptions (cfg : DhcpServerConfig) (msgType : UInt8) :
    ∀ o ∈ replyOptions cfg msgType, Writable o := by
  have hlease : (toBeBytes cfg.leaseSecs.toNat).length = 4 := by simp [toBeBytes]
  rw [replyOptions]
  split
  · simp [Writable, optMsgType, optServerId, optEnd]
  · simp [Writable, optMsgType, optServerId, optLeaseTime, optSubnet, optRouter, optDns, optEnd,
      hlease]

theorem msgType_replyOptions (cfg : DhcpServerConfig) (msgType : UInt8) :
    ((replyOptions cfg msgType).foldl (fun read o => read.set o.1 o.2) ({} : Options)).msgType =
      msgType := by
  rw [replyOptions]
  split
  · simp [Options.set, optMsgType, optServerId, optRequestedIp]
  · simp [Options.set, optMsgType, optServerId, optRequestedIp, optLeaseTime, optSubnet, optRouter,
      optDns]

variable {req : Request} {msgType : UInt8} {yiaddr : Block 4} {out packet : Bytes}
  {reply : ℕ × Bytes}

/-- What the buffer of a reply holds: the fields, the options, the end, and what does not matter. -/
theorem exists_of_buildReply {self : DhcpServer N}
    (h : self.buildReply req msgType yiaddr out = .ok reply) :
    ∃ header rest, header.length = headerLen + 4 ∧
      Bytes.slice 16 20 header = yiaddr.bytes ∧ Bytes.slice 28 34 header = req.chaddr.bytes ∧
      reply.2.take reply.1 =
        header ++ (optionBytes (replyOptions self.cfg msgType) ++ optEnd :: rest) := by
  obtain ⟨header, hheader, h⟩ := Except.exists_of_bind_eq_ok h
  obtain ⟨written, hwritten, h⟩ := Except.exists_of_bind_eq_ok h
  obtain ⟨ended, hended, h⟩ := Except.exists_of_bind_eq_ok h
  obtain rfl := Except.ok.inj h
  have hordered : (replyFields self.cfg req yiaddr).Pairwise fun f g => f.1 + f.2.length ≤ g.1 := by
    simp [replyFields, headerLen]
  have hread {f : ℕ × Bytes} (hf : f ∈ replyFields self.cfg req yiaddr) :
      Bytes.slice f.1 (f.1 + f.2.length) header = f.2 :=
    Bytes.slice_copyAll hheader hordered hf
  have hyiaddr := hread (f := (16, yiaddr.bytes)) (by simp [replyFields])
  have hchaddr := hread (f := (28, req.chaddr.bytes)) (by simp [replyFields])
  have hcookie := hread (f := (headerLen, magicCookie)) (by simp [replyFields])
  rw [Block.length_bytes] at hyiaddr hchaddr
  -- The last field ends where the options begin, so that the buffer goes as far at least.
  have hlength : (header.take (headerLen + 4)).length = headerLen + 4 := by
    have hlen := congrArg List.length hcookie
    simp only [Bytes.slice, List.length_take, List.length_drop, magicCookie, List.length_cons,
      List.length_nil, headerLen] at hlen ⊢
    omega
  have hfront : ended.take (written.2 + 1) =
      header.take (headerLen + 4) ++
        (optionBytes (replyOptions self.cfg msgType) ++ [optEnd]) := by
    rw [← List.append_assoc, ← puts_eq_ok hwritten]
    exact Bytes.take_copyInto hended
  refine ⟨header.take (headerLen + 4),
    (ended.take (max (written.2 + 1) minReplyLen)).drop (written.2 + 1), hlength, ?_, ?_, ?_⟩
  · rw [Bytes.slice_take (by decide), hyiaddr]
  · rw [Bytes.slice_take (by decide), hchaddr]
  · have hsplit := List.take_append_drop (written.2 + 1)
      (ended.take (max (written.2 + 1) minReplyLen))
    rw [List.take_take, Nat.min_eq_left (Nat.le_max_left _ _), hfront, List.append_assoc,
      List.append_assoc, List.singleton_append] at hsplit
    exact hsplit.symm

theorem reads_of_buildReply {self : DhcpServer N}
    (h : self.buildReply req msgType yiaddr out = .ok reply) :
    replyType (reply.2.take reply.1) = some msgType ∧
      Bytes.slice 16 20 (reply.2.take reply.1) = yiaddr.bytes ∧
      Bytes.slice 28 34 (reply.2.take reply.1) = req.chaddr.bytes := by
  obtain ⟨header, rest, hlength, hyiaddr, hchaddr, hreply⟩ := exists_of_buildReply h
  have hslice {i j : ℕ} (hj : j ≤ headerLen + 4) (tail : Bytes) :
      Bytes.slice i j (header ++ tail) = Bytes.slice i j header := by
    rw [← Bytes.slice_take hj, List.take_left' hlength]
  rw [hreply, hslice (by decide), hslice (by decide), hyiaddr, hchaddr, replyType,
    List.drop_left' hlength, parse_optionBytes (writable_replyOptions _ _) _ (by simp; omega),
    Option.map_some, msgType_replyOptions]
  exact ⟨rfl, rfl, rfl⟩

def Open (self : DhcpServer N) (idx : Fin N.toNat) (mac : Block 6) (now : ℕ) : Prop :=
  ∀ l ∈ self.leases idx, l.mac = mac ∨ l.expiresAt ≤ now

variable {s t : DhcpServer N} {idx : Fin N.toNat} {mac : Block 6} {now : ℕ}

theorem Open.of_free (h : free now (s.leases idx) = true) : s.Open idx mac now := by
  intro l hl
  rw [hl] at h
  exact .inr (of_decide_eq_true h)

theorem findLease_eq_some (h : s.findLease mac now = some idx) :
    ∃ l, s.leases idx = some l ∧ l.mac = mac ∧ now < l.expiresAt := by
  have hholds := (Fin.find?_eq_some_iff.mp h).1
  cases hl : s.leases idx with
  | none =>
      rw [hl] at hholds
      cases hholds
  | some l =>
      rw [hl] at hholds
      exact ⟨l, rfl, of_decide_eq_true hholds⟩

theorem open_of_allocate {preferred : Option (Block 4)}
    (h : s.allocate mac now preferred = some idx) : s.Open idx mac now := by
  rw [allocate] at h
  split at h
  · rename_i found hfound
    obtain rfl := Option.some.inj h
    obtain ⟨l, hl, hmac, -⟩ := findLease_eq_some hfound
    intro l' hl'
    exact .inl (Option.some.inj (hl.symm.trans hl') ▸ hmac)
  · rw [allocateFree] at h
    split at h
    · rename_i found hfound
      obtain rfl := Option.some.inj h
      exact .of_free (Option.filter_eq_some_iff.mp hfound).2
    · exact .of_free (Fin.find?_eq_some_iff.mp h).1

theorem open_of_granted (h : s.granted req now = some idx) : s.Open idx req.chaddr now := by
  rw [granted] at h
  split at h
  · rename_i asked _
    split at h
    · rename_i hnone
      obtain rfl := Option.some.inj h
      intro l hl
      rw [hnone] at hl
      cases hl
    · rename_i l hl
      split at h
      · rename_i hok
        obtain rfl := Option.some.inj h
        intro l' hl'
        exact Option.some.inj (hl.symm.trans hl') ▸ hok
      · cases h
  · split at h
    · rename_i found hfound
      split at h
      · obtain rfl := Option.some.inj h
        exact open_of_allocate hfound
      · cases h
    · cases h

/-- The promise that a reply carries: the address goes to the client. -/
structure Acks (reply : ℕ × Bytes) (mac : Block 6) (ip : Block 4) : Prop where
  type : replyType (reply.2.take reply.1) = some msgAck
  yiaddr : Bytes.slice 16 20 (reply.2.take reply.1) = ip.bytes
  chaddr : Bytes.slice 28 34 (reply.2.take reply.1) = mac.bytes

instance (reply : ℕ × Bytes) (mac : Block 6) (ip : Block 4) : Decidable (Acks reply mac ip) :=
  decidable_of_iff (_ ∧ _ ∧ _)
    ⟨fun ⟨htype, hyiaddr, hchaddr⟩ => ⟨htype, hyiaddr, hchaddr⟩,
      fun h => ⟨h.type, h.yiaddr, h.chaddr⟩⟩

variable {ip : Block 4}

theorem not_acks_of_buildReply (h : s.buildReply req msgType yiaddr out = .ok reply)
    (hne : msgType ≠ msgAck) : ¬ Acks reply mac ip := by
  intro hacks
  have htype := (reads_of_buildReply h).1.symm.trans hacks.type
  exact hne (Option.some.inj htype)

/-- The packet is a RELEASE that carries the client's address. -/
def Releases (packet : Bytes) (mac : Block 6) : Prop :=
  ∃ req, parseRequest packet = some req ∧ req.msgType = msgRelease ∧ req.chaddr = mac

/-- What one packet does to the table and what it is answered with: nothing is promised and the
table stays; or a client gives up one of its leases; or a client is promised the address of a slot,
which becomes its lease. -/
inductive Handled (s : DhcpServer N) (packet : Bytes) (now : ℕ) :
    Option (ℕ × Bytes) → DhcpServer N → Prop where
  | unchanged {reply : Option (ℕ × Bytes)}
      (h : ∀ r ∈ reply, ∀ mac ip, ¬ Acks r mac ip) : Handled s packet now reply s
  | released {idx : Fin N.toNat} {l : Lease} (hl : s.leases idx = some l)
      (h : Releases packet l.mac) :
      Handled s packet now none { s with leases := Function.update s.leases idx none }
  | committed {reply : ℕ × Bytes} {idx : Fin N.toNat} {mac : Block 6} {ip : Block 4}
      (hopen : s.Open idx mac now) (hip : s.ipFor idx = .ok ip) (h : Acks reply mac ip) :
      Handled s packet now (some reply) { s with
        leases := Function.update s.leases idx (some ⟨mac, now + s.cfg.leaseSecs.toNat⟩) }

theorem handled_discover {reply : Option (ℕ × Bytes)}
    (h : s.handleDiscover req now out = .ok (reply, t)) : s.Handled packet now reply t := by
  rw [handleDiscover] at h
  split at h
  · obtain ⟨rfl, rfl⟩ := Prod.mk.inj (Except.ok.inj h)
    exact .unchanged (fun _ hr => nomatch hr)
  · obtain ⟨ip, -, h⟩ := Except.exists_of_bind_eq_ok h
    obtain ⟨offer, hoffer, h⟩ := Except.exists_of_bind_eq_ok h
    obtain ⟨rfl, rfl⟩ := Prod.mk.inj (Except.ok.inj h)
    refine .unchanged fun r hr mac ip => ?_
    obtain rfl := Option.some.inj hr
    exact not_acks_of_buildReply hoffer (by decide)

theorem handled_request {reply : Option (ℕ × Bytes)}
    (h : s.handleRequest req now out = .ok (reply, t)) : s.Handled packet now reply t := by
  rw [handleRequest] at h
  split at h
  · obtain ⟨rfl, rfl⟩ := Prod.mk.inj (Except.ok.inj h)
    exact .unchanged (fun _ hr => nomatch hr)
  · split at h
    · obtain ⟨nak, hnak, h⟩ := Except.exists_of_bind_eq_ok h
      obtain ⟨rfl, rfl⟩ := Prod.mk.inj (Except.ok.inj h)
      refine .unchanged fun r hr mac ip => ?_
      obtain rfl := Option.some.inj hr
      exact not_acks_of_buildReply hnak (by decide)
    · rename_i idx hgranted
      obtain ⟨committed, hcommit, h⟩ := Except.exists_of_bind_eq_ok h
      obtain ⟨ip, hip, h⟩ := Except.exists_of_bind_eq_ok h
      obtain ⟨ack, hack, h⟩ := Except.exists_of_bind_eq_ok h
      obtain ⟨rfl, rfl⟩ := Prod.mk.inj (Except.ok.inj h)
      obtain ⟨expiresAt, hexpires, hcommit⟩ := Except.exists_of_bind_eq_ok hcommit
      obtain rfl := Except.ok.inj hcommit
      obtain ⟨rfl, -⟩ := Bytes.plus_eq_ok hexpires
      obtain ⟨htype, hyiaddr, hchaddr⟩ := reads_of_buildReply hack
      exact .committed (open_of_granted hgranted) hip ⟨htype, hyiaddr, hchaddr⟩

theorem handled_release (hreq : parseRequest packet = some req) (htype : req.msgType = msgRelease) :
    s.Handled packet now none (s.handleRelease req now) := by
  rw [handleRelease]
  split
  · rename_i idx hfound
    obtain ⟨l, hl, hmac, -⟩ := findLease_eq_some hfound
    exact .released hl ⟨req, hreq, htype, hmac.symm⟩
  · exact .unchanged (fun _ hr => nomatch hr)

theorem handled {reply : Option (ℕ × Bytes)} (h : s.handle packet now out = .ok (reply, t)) :
    s.Handled packet now reply t := by
  rw [handle] at h
  split at h
  · obtain ⟨rfl, rfl⟩ := Prod.mk.inj (Except.ok.inj h)
    exact .unchanged (fun _ hr => nomatch hr)
  · rename_i req hreq
    split at h
    · exact handled_discover h
    · split at h
      · exact handled_request h
      · split at h
        · rename_i htype
          obtain ⟨rfl, rfl⟩ := Prod.mk.inj (Except.ok.inj h)
          exact handled_release hreq htype
        · obtain ⟨rfl, rfl⟩ := Prod.mk.inj (Except.ok.inj h)
          exact .unchanged (fun _ hr => nomatch hr)

theorem ipFor_injective {idx' : Fin N.toNat} (h : s.ipFor idx = .ok ip)
    (h' : s.ipFor idx' = .ok ip) : idx = idx' := by
  obtain ⟨host, hhost, h⟩ := Except.exists_of_bind_eq_ok h
  obtain ⟨host', hhost', h'⟩ := Except.exists_of_bind_eq_ok h'
  obtain ⟨rfl, hlt⟩ := Bytes.plus_eq_ok hhost
  obtain ⟨rfl, hlt'⟩ := Bytes.plus_eq_ok hhost'
  have hbytes := congrArg Block.bytes (Except.ok.inj (h.trans h'.symm))
  rw [Block.ofBytes_bytes_of_length_eq (by simp [toBeBytes]),
    Block.ofBytes_bytes_of_length_eq (by simp [toBeBytes])] at hbytes
  have hsum := Bytes.ofNat_injOn (w := 4) hlt hlt' (List.reverse_injective hbytes)
  exact Fin.ext (Nat.add_left_cancel hsum)

theorem Acks.unique {mac mac' : Block 6} {ip' : Block 4} (h : Acks reply mac ip)
    (h' : Acks reply mac' ip') : mac = mac' ∧ ip = ip' :=
  ⟨Block.ext (h.chaddr.symm.trans h'.chaddr), Block.ext (h.yiaddr.symm.trans h'.yiaddr)⟩

/-- The client has a lease on the slot that does not expire before `expiry`. -/
def Leased (self : DhcpServer N) (idx : Fin N.toNat) (mac : Block 6) (expiry : ℕ) : Prop :=
  ∃ l, self.leases idx = some l ∧ l.mac = mac ∧ expiry ≤ l.expiresAt

theorem Handled.leased (h : s.Handled packet now (some reply) t) (hacks : Acks reply mac ip) :
    ∃ idx, s.Open idx mac now ∧ s.ipFor idx = .ok ip ∧ t.cfg = s.cfg ∧
      t.Leased idx mac (now + s.cfg.leaseSecs.toNat) := by
  cases h with
  | unchanged h => exact absurd hacks (h reply rfl mac ip)
  | committed hopen hip h =>
      obtain ⟨rfl, rfl⟩ := hacks.unique h
      exact ⟨_, hopen, hip, rfl, _, Function.update_self .., rfl, le_refl _⟩

theorem Leased.handled {reply : Option (ℕ × Bytes)} {expiry : ℕ} (h : s.Leased idx mac expiry)
    (hhandled : s.Handled packet now reply t) (hruns : now < expiry)
    (hclock : expiry ≤ now + s.cfg.leaseSecs.toNat) (hkeeps : ¬ Releases packet mac) :
    t.cfg = s.cfg ∧ t.Leased idx mac expiry := by
  obtain ⟨l, hl, rfl, hexpiry⟩ := h
  cases hhandled with
  | unchanged => exact ⟨rfl, l, hl, rfl, hexpiry⟩
  | @released idx' l' hl' hreleases =>
      refine ⟨rfl, l, ?_, rfl, hexpiry⟩
      dsimp only
      rw [Function.update_of_ne, hl]
      rintro rfl
      obtain rfl := Option.some.inj (hl.symm.trans hl')
      exact hkeeps hreleases
  | @committed _ idx' mac' _ hopen =>
      refine ⟨rfl, ?_⟩
      by_cases hidx : idx = idx'
      · -- Only the client itself is let in on its slot, and it renews.
        subst hidx
        have hmac := (hopen l hl).resolve_right (not_le.mpr (hruns.trans_le hexpiry))
        exact ⟨_, Function.update_self .., hmac.symm, hclock⟩
      · exact ⟨l, (Function.update_of_ne hidx ..).trans hl, rfl, hexpiry⟩

/-- A packet as the server receives it: its bytes, the time, and the buffer for the reply. -/
structure Packet where
  bytes : Bytes
  now : ℕ
  out : Bytes
  deriving DecidableEq

def step (self : DhcpServer N) (p : Packet) : Option (DhcpServer N) :=
  match self.handle p.bytes p.now p.out with
  | .ok (_, t) => some t
  | .error _ => none

def replyTo (self : DhcpServer N) (p : Packet) : Option (ℕ × Bytes) :=
  match self.handle p.bytes p.now p.out with
  | .ok (reply, _) => reply
  | .error _ => none

def AcksTo (self : DhcpServer N) (p : Packet) (mac : Block 6) (ip : Block 4) : Prop :=
  ∃ reply ∈ self.replyTo p, Acks reply mac ip

instance (self : DhcpServer N) (p : Packet) (mac : Block 6) (ip : Block 4) :
    Decidable (self.AcksTo p mac ip) :=
  inferInstanceAs (Decidable (∃ _ ∈ _, _))

theorem AcksTo.exists_handle {p : Packet} (h : s.AcksTo p mac ip) :
    ∃ reply t, s.handle p.bytes p.now p.out = .ok (some reply, t) ∧ Acks reply mac ip := by
  obtain ⟨reply, hreply, hacks⟩ := h
  rw [Option.mem_def, replyTo] at hreply
  split at hreply
  · rename_i reply' t hhandle
    exact ⟨reply, t, hreply ▸ hhandle, hacks⟩
  · cases hreply

theorem handled_step {p : Packet} (h : s.step p = some t) :
    ∃ reply, s.Handled p.bytes p.now reply t := by
  rw [step] at h
  split at h
  · rename_i reply t' hhandle
    obtain rfl := Option.some.inj h
    exact ⟨reply, handled hhandle⟩
  · cases h

theorem ipFor_of_cfg_eq (h : t.cfg = s.cfg) (idx : Fin N.toNat) : t.ipFor idx = s.ipFor idx := by
  rw [ipFor, ipFor, h]

/-- Along packets that come while the lease runs, none of them a RELEASE of its client. -/
theorem Leased.run {packets : List Packet} {expiry : ℕ} (h : s.Leased idx mac expiry)
    (hpackets : ∀ p ∈ packets, p.now < expiry ∧ expiry ≤ p.now + s.cfg.leaseSecs.toNat ∧
      ¬ Releases p.bytes mac)
    (hrun : Runs.run step s packets = some t) : t.cfg = s.cfg ∧ t.Leased idx mac expiry := by
  refine (Runs.guarded_of_forall hpackets s).invariant
    (I := fun t => t.cfg = s.cfg ∧ t.Leased idx mac expiry) ?_ ⟨rfl, h⟩ hrun
  rintro r p u ⟨hcfg, hleased⟩ ⟨hruns, hclock, hkeeps⟩ hstep
  obtain ⟨reply, hhandled⟩ := handled_step hstep
  obtain ⟨hcfg', hleased'⟩ := hleased.handled hhandled hruns (hcfg ▸ hclock) hkeeps
  exact ⟨hcfg'.trans hcfg, hleased'⟩

/-- From any lease table and on any clock that does not go back: behind an ACK of an address to one
client, and before that lease expires, the server acknowledges the address to another client only if
a RELEASE with the address of the first came in between. -/
theorem ack_exclusive {p q : Packet} {between : List Packet} {a b : Block 6} {ip : Block 4}
    (hclock : (p :: (between ++ [q])).Pairwise fun x y => x.now ≤ y.now)
    (hp : s.AcksTo p a ip) (hrun : Runs.run step s (p :: between) = some t)
    (hq : t.AcksTo q b ip) (hab : a ≠ b) (hlease : q.now < p.now + s.cfg.leaseSecs.toNat) :
    ∃ r ∈ between, Releases r.bytes a := by
  by_contra hnone
  obtain ⟨reply, s₁, hhandle, hacks⟩ := hp.exists_handle
  obtain ⟨reply', t', hhandle', hacks'⟩ := hq.exists_handle
  obtain ⟨idx, -, hip, hcfg, hleased⟩ := (handled hhandle).leased hacks
  obtain ⟨idx', hopen, hip', -⟩ := (handled hhandle').leased hacks'
  -- The table behind the ACK keeps the lease up to the second packet.
  have hrun' : Runs.run step s₁ between = some t := by
    rwa [Runs.run, step, hhandle] at hrun
  obtain ⟨hfirst, hclock⟩ := List.pairwise_cons.mp hclock
  obtain ⟨-, -, hlast⟩ := List.pairwise_append.mp hclock
  obtain ⟨hcfg', l, hl, hmac, hexpiry⟩ := hleased.run (fun r hr =>
    ⟨(hlast r hr q (.head _)).trans_lt hlease, hcfg ▸ Nat.add_le_add_right
      (hfirst r (List.mem_append_left _ hr)) _, fun hreleases => hnone ⟨r, hr, hreleases⟩⟩) hrun'
  -- The second ACK is for the same slot, which is not open to its client.
  obtain rfl : idx = idx' :=
    ipFor_injective hip ((ipFor_of_cfg_eq (hcfg'.trans hcfg) idx').symm.trans hip')
  obtain hsame | hexpired := hopen l hl
  · exact hab (hmac.symm.trans hsame)
  · exact absurd (hlease.trans_le hexpiry) (not_lt.mpr hexpired)

def requestOf (msgType : UInt8) (mac : Block 6) : Bytes :=
  opRequest :: List.replicate 27 0 ++ mac.bytes ++ List.replicate 202 0 ++ magicCookie ++
    [optMsgType, 1, msgType, optEnd]

def macA : Block 6 := Block.replicate 6 0xAA

def macB : Block 6 := Block.replicate 6 0xBB

def poolOfOne : DhcpServer 1 :=
  new 1 ⟨Block.ofBytes 4 [192, 168, 4, 1], Block.ofBytes 4 [255, 255, 255, 0],
    Block.ofBytes 4 [192, 168, 4, 10], 600⟩

def offered : Block 4 := Block.ofBytes 4 [192, 168, 4, 10]

def packetAt (msgType : UInt8) (mac : Block 6) (now : ℕ) : Packet :=
  ⟨requestOf msgType mac, now, List.replicate 320 7⟩

theorem ack_exclusive_poolOfOne :
    ∃ r ∈ [packetAt msgRelease macA 10], Releases r.bytes macA := by
  have hp : poolOfOne.AcksTo (packetAt msgRequest macA 0) macA offered := by
    decide +kernel
  have hq : ∃ t ∈ Runs.run step poolOfOne [packetAt msgRequest macA 0, packetAt msgRelease macA 10],
      t.AcksTo (packetAt msgRequest macB 20) macB offered := by
    decide +kernel
  obtain ⟨t, hrun, hq⟩ := hq
  have hclock : [packetAt msgRequest macA 0, packetAt msgRelease macA 10,
      packetAt msgRequest macB 20].Pairwise fun x y => x.now ≤ y.now := by
    decide +kernel
  exact ack_exclusive hclock hp hrun hq (by decide +kernel) (by decide +kernel)

end DhcpServer

end Ap
end Microfips
