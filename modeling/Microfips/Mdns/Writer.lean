import Microfips.Data.BigEndian
import Microfips.Data.Buffer
import Microfips.Data.DnsName
import Microfips.Data.Text
import Microfips.Mdns.Query

/-!
# The advert as it is written

`build_fips_response` writes four records one behind the other into a buffer that may be too short
for them, and goes back for the length of each record once it is known.  A call that succeeds has
written the header and the four records as they are listed here.
-/

namespace Microfips
namespace Mdns

def ttlShort : UInt32 := 120

def ttlLong : UInt32 := 4500

def classIn : UInt16 := 1

def classInFlush : UInt16 := 0x8001

def u16Bytes (v : UInt16) : Bytes :=
  Bytes.ofNatBe 2 v.toNat

@[simp]
theorem length_u16Bytes (v : UInt16) : (u16Bytes v).length = 2 :=
  Bytes.length_ofNatBe 2 _

structure Writer where
  buf : Bytes
  off : ℕ

/-- Code with a `Writer`.  The error is `None`. -/
abbrev WriterM (α : Type) : Type :=
  EStateM (Fault Unit) Writer α

namespace Writer

def put (b : Bytes) : WriterM PUnit := fun w =>
  if w.off + b.length ≤ w.buf.length then
    .ok ⟨⟩ ⟨w.buf.take w.off ++ (b ++ w.buf.drop (w.off + b.length)), w.off + b.length⟩
  else
    .error (.err ()) w

def u16 (v : UInt16) : WriterM PUnit :=
  put (u16Bytes v)

def u32 (v : UInt32) : WriterM PUnit :=
  put (Bytes.ofNatBe 4 v.toNat)

def label (l : Bytes) : WriterM PUnit := do
  put [UInt8.ofNat l.length]
  put l

def name (first : Option Bytes) (labels : List Bytes) : WriterM PUnit := do
  first.toList.forM label
  labels.forM label
  put [0]

def rrHeader (rtype cls : UInt16) (ttl : UInt32) : WriterM ℕ := do
  u16 rtype
  u16 cls
  u32 ttl
  let w ← get
  u16 0
  return w.off

def patchLen (lenAt : ℕ) : WriterM PUnit := fun w =>
  match (Bytes.copyInto lenAt (Bytes.ofNatBe 2 (w.off - lenAt - 2)) w.buf :
    Except (Fault Unit) Bytes) with
  | .ok buf => .ok ⟨⟩ { w with buf }
  | .error e => .error e w

def txt (key value : String) : WriterM PUnit :=
  let len := (Bytes.ofString key).length + 1 + (Bytes.ofString value).length
  if 255 < len then
    throw (.err ())
  else do
    put [UInt8.ofNat len]
    put (Bytes.ofString key)
    put (Bytes.ofString "=")
    put (Bytes.ofString value)

def record (first : Option Bytes) (labels : List Bytes) (rtype cls : UInt16) (ttl : UInt32)
    (rdata : WriterM PUnit) : WriterM PUnit := do
  name first labels
  let l ← rrHeader rtype cls ttl
  rdata
  patchLen l

end Writer

def localLabels : List Bytes :=
  [Bytes.ofString "local"]

open Writer in
def writeFipsResponse (id : UInt16) (inst host : String) (ip : Block 4) (port : UInt16)
    (npub : String) (scope : Option String) : WriterM PUnit := do
  let inst := Bytes.ofString inst
  let hst := Bytes.ofString host
  u16 id
  u16 0x8400
  u16 0
  u16 1
  u16 0
  u16 3
  -- PTR _fips._udp.local -> <instance>._fips._udp.local
  record none serviceLabels typePtr classIn ttlLong do
    name (some inst) serviceLabels
  -- SRV <instance>._fips._udp.local -> <host>.local:port
  record (some inst) serviceLabels typeSrv classInFlush ttlShort do
    u16 0
    u16 0
    u16 port
    name (some hst) localLabels
  -- TXT <instance>._fips._udp.local
  record (some inst) serviceLabels typeTxt classInFlush ttlLong do
    txt "npub" npub
    scope.toList.forM (txt "scope")
    txt "v" "1"
  -- A <host>.local -> ip
  record (some hst) localLabels typeA classInFlush ttlShort do
    put ip.bytes

def buildFipsResponse (id : UInt16) (inst host : String) (ip : Block 4) (port : UInt16)
    (npub : String) (scope : Option String) : EStateM (Fault Unit) Bytes ℕ := fun out =>
  if 63 < (Bytes.ofString inst).length ∨ 63 < (Bytes.ofString host).length ∨
      Bytes.ofString inst = [] ∨ Bytes.ofString host = [] then
    .error (.err ()) out
  else
    EStateM.Result.mapState Writer.buf <| EStateM.run (do
      writeFipsResponse id inst host ip port npub scope
      let w ← get
      return w.off) ⟨out, 0⟩

namespace Writer

def Holds (w : Writer) (b : Bytes) : Prop :=
  w.off = b.length ∧ b <+: w.buf

/-- The call succeeds only with `P`, and writes `c` behind what was written so far. -/
def Writes {α : Type} (m : WriterM α) (P : Prop) (c : Bytes) : Prop :=
  ∀ ⦃w b a w'⦄, Holds w b → m.run w = .ok a w' → P ∧ Holds w' (b ++ c)

variable {α β : Type} {P Q : Prop} {b c d : Bytes}

theorem writes_pure (a : α) : Writes (pure a) True [] := by
  intro w b a' w' hw hrun
  cases hrun
  rw [List.append_nil]
  exact ⟨trivial, hw⟩

variable {m : WriterM α}

theorem Writes.bind {f : α → WriterM β} (hm : Writes m P c) (hf : ∀ a, Writes (f a) Q d) :
    Writes (m >>= f) (P ∧ Q) (c ++ d) := by
  intro w b r w' hw hrun
  obtain ⟨a, v, hfirst, hrest⟩ := EStateM.exists_of_run_bind hrun
  obtain ⟨hP, hv⟩ := hm hw hfirst
  obtain ⟨hQ, hw'⟩ := hf a hv hrest
  rw [← List.append_assoc]
  exact ⟨⟨hP, hQ⟩, hw'⟩

theorem Writes.imp (hm : Writes m P c) (h : P → Q) : Writes m Q c := by
  intro w b r w' hw hrun
  exact (hm hw hrun).imp_left h

theorem Writes.seq {m' : WriterM β} (hm : Writes m P c) (hm' : Writes m' Q d) :
    Writes (m >>= fun _ => m') Q (c ++ d) :=
  (hm.bind fun _ => hm').imp And.right

theorem writes_forM {f : α → WriterM PUnit} {P : α → Prop} {c : α → Bytes}
    (hf : ∀ x, Writes (f x) (P x) (c x)) (xs : List α) :
    Writes (xs.forM f) (∀ x ∈ xs, P x) (xs.flatMap c) := by
  induction xs with
  | nil => exact (writes_pure _).imp fun _ => List.forall_mem_nil _
  | cons x xs ih =>
      rw [List.flatMap_cons]
      exact ((hf x).bind fun _ => ih).imp List.forall_mem_cons.mpr

theorem writes_put (c : Bytes) : Writes (put c) True c := by
  rintro ⟨buf, off⟩ b a w' ⟨hoff, rest, hbuf⟩ hrun
  subst hoff hbuf
  rw [EStateM.run, put] at hrun
  dsimp only at hrun
  split at hrun
  · cases hrun
    refine ⟨trivial, (List.length_append ..).symm, ?_⟩
    rw [List.take_left, ← List.append_assoc]
    exact List.prefix_append _ _
  · cases hrun

theorem writes_label (l : Bytes) : Writes (label l) True (Dns.encodeLabel l) :=
  (writes_put [UInt8.ofNat l.length]).seq (writes_put l)

theorem writes_name (first : Option Bytes) (labels : List Bytes) :
    Writes (name first labels) True (Dns.encodeName (first.toList ++ labels)) := by
  rw [Dns.encodeName, List.flatMap_append, List.append_assoc]
  exact (writes_forM writes_label _).seq ((writes_forM writes_label _).seq (writes_put [0]))

def entry (key value : String) : Bytes :=
  Bytes.ofString key ++ (Bytes.ofString "=" ++ Bytes.ofString value)

theorem writes_txt (key value : String) : Writes (txt key value)
    ((entry key value).length ≤ 255) (Dns.encodeLabel (entry key value)) := by
  have hlen : (Bytes.ofString key).length + 1 + (Bytes.ofString value).length =
      (entry key value).length := by
    simp only [entry, List.length_append, show (Bytes.ofString "=").length = 1 from rfl]
    omega
  rw [txt, hlen]
  split
  · intro w b a w' _ hrun
    cases hrun
  · rename_i hle
    have hwrites := (writes_put [UInt8.ofNat (entry key value).length]).seq
      ((writes_put (Bytes.ofString key)).seq
        ((writes_put (Bytes.ofString "=")).seq (writes_put (Bytes.ofString value))))
    exact hwrites.imp fun _ => not_lt.mp hle

theorem holds_of_patchLen {w w' : Writer} {zeros : Bytes} {u : PUnit} (hzeros : zeros.length = 2)
    (hw : Holds w (b ++ (zeros ++ d))) (hrun : (patchLen b.length).run w = .ok u w') :
    Holds w' (b ++ (Bytes.ofNatBe 2 d.length ++ d)) := by
  obtain ⟨buf, off⟩ := w
  obtain ⟨hoff, rest, hbuf⟩ := hw
  subst hoff hbuf
  have hlen : (b ++ (zeros ++ d)).length - b.length - 2 = d.length := by
    simp only [List.length_append, hzeros]
    omega
  rw [EStateM.run, patchLen] at hrun
  dsimp only at hrun
  rw [hlen] at hrun
  split at hrun
  · rename_i buf' hcopy
    cases hrun
    obtain ⟨_, rfl⟩ := Bytes.copyInto_eq_ok hcopy
    refine ⟨by simp [hzeros], rest, ?_⟩
    rw [Bytes.length_ofNatBe, ← hzeros, ← List.length_append]
    simp only [List.append_assoc, List.take_left, List.append_cancel_left_eq]
    rw [← List.append_assoc b, List.drop_left]
  · cases hrun

def fixedBytes (rtype cls : UInt16) (ttl : UInt32) : Bytes :=
  u16Bytes rtype ++ (u16Bytes cls ++ Bytes.ofNatBe 4 ttl.toNat)

theorem holds_of_rrHeader {w w' : Writer} {rtype cls : UInt16} {ttl : UInt32} {l : ℕ}
    (hw : Holds w b) (hrun : (rrHeader rtype cls ttl).run w = .ok l w') :
    l = (b ++ fixedBytes rtype cls ttl).length ∧
      Holds w' (b ++ fixedBytes rtype cls ttl ++ u16Bytes 0) := by
  have hfixed : Writes (do u16 rtype; u16 cls; u32 ttl) True (fixedBytes rtype cls ttl) :=
    (writes_put _).seq ((writes_put _).seq (writes_put _))
  have hrun' : ((do u16 rtype; u16 cls; u32 ttl) >>= fun _ : PUnit => do
      let w ← get; u16 0; return w.off : WriterM ℕ).run w = .ok l w' := by
    simpa only [rrHeader, bind_assoc] using hrun
  obtain ⟨_, v, hfirst, hrest⟩ := EStateM.exists_of_run_bind hrun'
  obtain ⟨-, hv⟩ := hfixed hw hfirst
  obtain ⟨_, v', hget, hrest⟩ := EStateM.exists_of_run_bind hrest
  cases hget
  obtain ⟨_, v'', hput, hrest⟩ := EStateM.exists_of_run_bind hrest
  cases hrest
  exact ⟨hv.1, (writes_put _ hv hput).2⟩

def recordBytes (labels : List Bytes) (rtype cls : UInt16) (ttl : UInt32) (rdata : Bytes) : Bytes :=
  Dns.encodeName labels ++ (fixedBytes rtype cls ttl ++ (Bytes.ofNatBe 2 rdata.length ++ rdata))

theorem writes_record {first : Option Bytes} {labels : List Bytes} {rtype cls : UInt16}
    {ttl : UInt32} {rdata : WriterM PUnit} (hrdata : Writes rdata P c) :
    Writes (record first labels rtype cls ttl rdata) P
      (recordBytes (first.toList ++ labels) rtype cls ttl c) := by
  intro w b a w' hw hrun
  obtain ⟨_, w₁, hname, hrun⟩ := EStateM.exists_of_run_bind hrun
  obtain ⟨l, w₂, hheader, hrun⟩ := EStateM.exists_of_run_bind hrun
  obtain ⟨_, w₃, hbody, hpatch⟩ := EStateM.exists_of_run_bind hrun
  obtain ⟨-, hw₁⟩ := writes_name first labels hw hname
  obtain ⟨rfl, hw₂⟩ := holds_of_rrHeader hw₁ hheader
  obtain ⟨hP, hw₃⟩ := hrdata hw₂ hbody
  rw [List.append_assoc _ _ c] at hw₃
  have hw' := holds_of_patchLen (length_u16Bytes 0) hw₃ hpatch
  rw [List.append_assoc, List.append_assoc] at hw'
  exact ⟨hP, hw'⟩

end Writer

/-- A resource record whose name and whose length can be written. -/
structure Record where
  labels : List Bytes
  rtype : UInt16
  cls : UInt16
  ttl : UInt32
  rdata : Bytes
  wellformed : Dns.Wellformed labels
  length_rdata : rdata.length < 65536

def Record.bytes (r : Record) : Bytes :=
  Writer.recordBytes r.labels r.rtype r.cls r.ttl r.rdata

def txtEntries (npub : String) (scope : Option String) : List Bytes :=
  Writer.entry "npub" npub :: (scope.toList.map (Writer.entry "scope") ++ [Writer.entry "v" "1"])

structure Endpoint where
  inst : String
  host : String
  ip : Block 4
  port : UInt16
  npub : String
  scope : Option String
  length_inst : 0 < (Bytes.ofString inst).length ∧ (Bytes.ofString inst).length ≤ 63
  length_host : 0 < (Bytes.ofString host).length ∧ (Bytes.ofString host).length ≤ 63
  length_entry : ∀ e ∈ txtEntries npub scope, e.length ≤ 255

theorem wellformed_serviceLabels : Dns.Wellformed serviceLabels := by
  simp only [Dns.Wellformed, serviceLabels, List.forall_mem_cons]
  exact ⟨by decide, by decide, by decide, List.forall_mem_nil _⟩

theorem wellformed_localLabels : Dns.Wellformed localLabels := by
  simp only [Dns.Wellformed, localLabels, List.forall_mem_cons]
  exact ⟨by decide, List.forall_mem_nil _⟩

namespace Endpoint

variable (e : Endpoint)

def instLabels : List Bytes :=
  Bytes.ofString e.inst :: serviceLabels

def hostLabels : List Bytes :=
  Bytes.ofString e.host :: localLabels

theorem wellformed_instLabels : Dns.Wellformed e.instLabels :=
  List.forall_mem_cons.mpr ⟨e.length_inst, wellformed_serviceLabels⟩

theorem wellformed_hostLabels : Dns.Wellformed e.hostLabels :=
  List.forall_mem_cons.mpr ⟨e.length_host, wellformed_localLabels⟩

def ptr : Record where
  labels := serviceLabels
  rtype := typePtr
  cls := classIn
  ttl := ttlLong
  rdata := Dns.encodeName e.instLabels
  wellformed := wellformed_serviceLabels
  length_rdata := by
    have hinst := e.length_inst.2
    have hservice : (Dns.encodeName serviceLabels).length = 18 := by decide
    rw [instLabels, Dns.encodeName_cons, List.length_append, Dns.length_encodeLabel, hservice]
    omega

def srv : Record where
  labels := e.instLabels
  rtype := typeSrv
  cls := classInFlush
  ttl := ttlShort
  rdata := u16Bytes 0 ++ (u16Bytes 0 ++ (u16Bytes e.port ++ Dns.encodeName e.hostLabels))
  wellformed := e.wellformed_instLabels
  length_rdata := by
    have hhost := e.length_host.2
    have hlocal : (Dns.encodeName localLabels).length = 7 := by decide
    simp only [List.length_append, length_u16Bytes, hostLabels, Dns.encodeName_cons,
      Dns.length_encodeLabel, hlocal]
    omega

def txt : Record where
  labels := e.instLabels
  rtype := typeTxt
  cls := classInFlush
  ttl := ttlLong
  rdata := (txtEntries e.npub e.scope).flatMap Dns.encodeLabel
  wellformed := e.wellformed_instLabels
  length_rdata := by
    have hfew : (txtEntries e.npub e.scope).length ≤ 3 := by
      cases e.scope <;> simp [txtEntries]
    have hle := Dns.length_flatMap_encodeLabel_le e.length_entry
    omega

def a : Record where
  labels := e.hostLabels
  rtype := typeA
  cls := classInFlush
  ttl := ttlShort
  rdata := e.ip.bytes
  wellformed := e.wellformed_hostLabels
  length_rdata := by
    rw [Block.length_bytes]
    omega

def records : List Record :=
  [e.ptr, e.srv, e.txt, e.a]

def response (id : UInt16) : Bytes :=
  [id, 0x8400, 0, 1, 0, 3].flatMap u16Bytes ++ e.records.flatMap Record.bytes

end Endpoint

section Response

open Writer

variable {id : UInt16} {inst host : String} {ip : Block 4} {port : UInt16} {npub : String}
  {scope : Option String}

theorem writes_txtEntries :
    Writes (do txt "npub" npub; scope.toList.forM (txt "scope"); txt "v" "1")
    (∀ e ∈ txtEntries npub scope, e.length ≤ 255)
    ((txtEntries npub scope).flatMap Dns.encodeLabel) := by
  have hwrites := (writes_txt "npub" npub).bind fun _ =>
    (writes_forM (writes_txt "scope") scope.toList).bind fun _ => writes_txt "v" "1"
  have hbytes : (txtEntries npub scope).flatMap Dns.encodeLabel =
      Dns.encodeLabel (entry "npub" npub) ++
        (scope.toList.flatMap (fun s => Dns.encodeLabel (entry "scope" s)) ++
          Dns.encodeLabel (entry "v" "1")) := by
    rw [txtEntries, List.flatMap_cons, List.flatMap_append, List.flatMap_map,
      List.flatMap_singleton]
  rw [hbytes]
  refine hwrites.imp fun ⟨hnpub, hscope, hversion⟩ => ?_
  rw [txtEntries, List.forall_mem_cons, List.forall_mem_append, List.forall_mem_map,
    List.forall_mem_singleton]
  exact ⟨hnpub, hscope, hversion⟩

variable (id ip port npub scope) in
/-- The calls of the writer succeed only where there is an endpoint to advertise, and they write its
response. -/
theorem writes_response
    (hinst : 0 < (Bytes.ofString inst).length ∧ (Bytes.ofString inst).length ≤ 63)
    (hhost : 0 < (Bytes.ofString host).length ∧ (Bytes.ofString host).length ≤ 63) :
    ∃ c, Writes (writeFipsResponse id inst host ip port npub scope)
        (∀ e ∈ txtEntries npub scope, e.length ≤ 255) c ∧
      ∀ hentry, c = Endpoint.response
        ⟨inst, host, ip, port, npub, scope, hinst, hhost, hentry⟩ id := by
  have hsrv := (writes_put (u16Bytes 0)).seq <| (writes_put (u16Bytes 0)).seq <|
    (writes_put (u16Bytes port)).seq (writes_name (some (Bytes.ofString host)) localLabels)
  refine ⟨_, (writes_put _).seq <| (writes_put _).seq <| (writes_put _).seq <| (writes_put _).seq <|
    (writes_put _).seq <| (writes_put _).seq <| (writes_record (writes_name _ _)).seq <|
    (writes_record hsrv).seq <| ((writes_record writes_txtEntries).bind fun _ =>
      writes_record (writes_put ip.bytes)).imp And.left, ?_⟩
  intro hentry
  simp only [Endpoint.response, Endpoint.records, List.flatMap_cons, List.flatMap_nil,
    List.append_nil, List.append_assoc]
  rfl

theorem response_of_build {out out' : Bytes} {n : ℕ}
    (hbuild : (buildFipsResponse id inst host ip port npub scope).run out = .ok n out') :
    ∃ hinst hhost hentry, out'.take n = Endpoint.response
      ⟨inst, host, ip, port, npub, scope, hinst, hhost, hentry⟩ id ∧ n ≤ out'.length := by
  rw [EStateM.run, buildFipsResponse] at hbuild
  split at hbuild
  · cases hbuild
  rename_i hlabels
  simp only [not_or, not_lt, ← List.length_pos_iff] at hlabels
  obtain ⟨hinst, hhost, hinst', hhost'⟩ := hlabels
  obtain ⟨c, hwrites, hc⟩ :=
    writes_response id ip port npub scope ⟨hinst', hinst⟩ ⟨hhost', hhost⟩
  generalize hrun : EStateM.run _ _ = r at hbuild
  cases r with
  | error e w => cases hbuild
  | ok n' w' =>
      cases hbuild
      obtain ⟨_, w, hwrite, hrest⟩ := EStateM.exists_of_run_bind hrun
      cases hrest
      obtain ⟨hentry, hoff, hbuf⟩ := hwrites (b := []) ⟨rfl, List.nil_prefix⟩ hwrite
      rw [List.nil_append] at hoff hbuf
      refine ⟨⟨hinst', hinst⟩, ⟨hhost', hhost⟩, hentry, ?_, ?_⟩
      · rw [← hc hentry, hoff]
        exact (List.prefix_iff_eq_take.mp hbuf).symm
      · rw [hoff]
        exact hbuf.length_le

end Response

end Mdns
end Microfips
