import Microfips.Mdns.Writer

/-!
# The advert as it is read

`parse_fips_response` walks over the records of a packet and keeps the first port, the first address
and the first of each TXT key.  Writer and reader share no code, only the layout of the records.
-/

namespace Microfips
namespace Mdns

structure FipsAdvert where
  addr : Block 4
  port : UInt16
  npub : String
  scope : Option String
  version : Option String

def txtValue (entry : Bytes) (key : String) : Option String :=
  match Bytes.fromUtf8 entry with
  | none => none
  | some entry =>
      match Text.stripPrefix entry key with
      | none => none
      | some rest =>
          match Text.stripPrefix rest "=" with
          | some value => some value
          | none => if entry = key then some "" else none

structure Found where
  addr : Option (Block 4) := none
  port : Option UInt16 := none
  npub : Option String := none
  scope : Option String := none
  version : Option String := none

namespace Found

def entry (f : Found) (e : Bytes) : Found :=
  { f with
    npub := f.npub.or (txtValue e "npub")
    scope := f.scope.or (txtValue e "scope")
    version := f.version.or (txtValue e "v") }

def txtLoop (rdata : Bytes) (t : ℕ) (f : Found) : Found :=
  match _h : rdata[t]? with
  | none => f
  | some len =>
      if rdata.length < t + 1 + len.toNat then
        f
      else
        txtLoop rdata (t + (1 + len.toNat))
          (f.entry (Bytes.slice (t + 1) (t + 1 + len.toNat) rdata))
  termination_by rdata.length - t
  decreasing_by
    have ht : t < rdata.length := (List.getElem?_eq_some_iff.mp _h).1
    omega

def record (f : Found) (rtype : UInt16) (rdata : Bytes) : Found :=
  if rtype = typeSrv ∧ 6 ≤ rdata.length ∧ f.port = none then
    { f with port := some (UInt16.ofNat (Bytes.toNatBe (Bytes.slice 4 6 rdata))) }
  else if rtype = typeA ∧ rdata.length = 4 ∧ f.addr = none then
    { f with addr := some (Block.ofBytes 4 rdata) }
  else if rtype = typeTxt then
    txtLoop rdata 0 f
  else
    f

end Found

def skipQuestions (packet : Bytes) : ℕ → ℕ → Except MdnsParseError ℕ
  | 0, off => .ok off
  | n + 1, off => do
      let off ← skipName packet off
      skipQuestions packet n (off + 4)

def recordLoop (packet : Bytes) : ℕ → ℕ → Found → Except MdnsParseError (ℕ × Found)
  | 0, off, f => .ok (off, f)
  | n + 1, off, f => do
      let off ← skipName packet off
      let rtype ← readU16 packet off
      let rdlen ← readU16 packet (off + 8)
      if packet.length < off + 10 + rdlen.toNat then
        throw .truncated
      else
        recordLoop packet n (off + (10 + rdlen.toNat))
          (f.record rtype (Bytes.slice (off + 10) (off + 10 + rdlen.toNat) packet))

def saturatingAdd (a b : ℕ) : ℕ :=
  min (a + b) 65535

/-- What `parse_fips_response` reads in front of the records: how many there are, and where they
start. -/
def parseHeader (packet : Bytes) : Except MdnsParseError (ℕ × ℕ) := do
  let flags ← readU16 packet 2
  if flags &&& 0x8000 = 0 then
    throw .notAResponse
  else
    let qd ← readU16 packet 4
    let an ← readU16 packet 6
    let ns ← readU16 packet 8
    let ar ← readU16 packet 10
    let off ← skipQuestions packet qd.toNat 12
    return (saturatingAdd (saturatingAdd an.toNat ns.toNat) ar.toNat, off)

def parseFipsResponse (packet : Bytes) : Except MdnsParseError FipsAdvert := do
  let (records, off) ← parseHeader packet
  let (_, found) ← recordLoop packet records off {}
  match found.addr, found.port, found.npub with
  | some addr, some port, some npub => return ⟨addr, port, npub, found.scope, found.version⟩
  | _, _, _ => throw .incompleteAdvert

section Fields

theorem readU16_append_right (a b : Bytes) (off : ℕ) :
    readU16 (a ++ b) (a.length + off) = readU16 b off := by
  have hslice : Bytes.slice (a.length + off) (a.length + off + 2) (a ++ b) =
      Bytes.slice off (off + 2) b := by
    rw [Bytes.slice, Bytes.slice, ← List.drop_drop, List.drop_left, Nat.add_sub_cancel_left,
      Nat.add_sub_cancel_left]
  have hin : a.length + off + 2 ≤ (a ++ b).length ↔ off + 2 ≤ b.length := by
    rw [List.length_append]
    omega
  simp only [readU16, hslice, hin]

theorem ofNat_toNatBe_u16Bytes (v : UInt16) : UInt16.ofNat (Bytes.toNatBe (u16Bytes v)) = v := by
  have hlt : v.toNat < 256 ^ 2 := v.toNat_lt
  rw [u16Bytes, Bytes.toNatBe_ofNatBe, Nat.mod_eq_of_lt hlt, UInt16.ofNat_toNat]

theorem readU16_u16Bytes (v : UInt16) (rest : Bytes) : readU16 (u16Bytes v ++ rest) 0 = .ok v := by
  have hslice : Bytes.slice 0 (0 + 2) (u16Bytes v ++ rest) = u16Bytes v := by
    rw [Bytes.slice, List.drop_zero]
    exact List.take_left' (length_u16Bytes v)
  rw [readU16, hslice, ofNat_toNatBe_u16Bytes]
  simp

theorem readU16_append {off : ℕ} {a : Bytes} (v : UInt16) (rest : Bytes) (hoff : a.length = off) :
    readU16 (a ++ (u16Bytes v ++ rest)) off = .ok v := by
  subst hoff
  exact (readU16_append_right a _ 0).trans (readU16_u16Bytes v rest)

theorem readU16_flatMap {fields : List UInt16} {i : ℕ} {v : UInt16} (h : fields[i]? = some v)
    (rest : Bytes) : readU16 (fields.flatMap u16Bytes ++ rest) (2 * i) = .ok v := by
  induction fields generalizing i with
  | nil => cases h
  | cons field fields ih =>
      rw [List.flatMap_cons, List.append_assoc]
      cases i with
      | zero =>
          cases h
          exact readU16_u16Bytes _ _
      | succ i =>
          have hshift : 2 * (i + 1) = (u16Bytes field).length + 2 * i := by
            rw [length_u16Bytes]
            omega
          rw [hshift, readU16_append_right]
          exact ih h

end Fields

section Txt

theorem fromUtf8_entry (key value : String) :
    Bytes.fromUtf8 (Writer.entry key value) = some (key ++ ("=" ++ value)) := by
  rw [Writer.entry, ← Bytes.ofString_append, ← Bytes.ofString_append, Bytes.fromUtf8_ofString]

theorem txtValue_entry (key value : String) :
    txtValue (Writer.entry key value) key = some value := by
  simp only [txtValue, fromUtf8_entry, Text.stripPrefix_append]

theorem txtValue_entry_of_ne (value : String) {key key' : String}
    (h : key.toList.head? ≠ key'.toList.head?) (hkey : key.toList ≠ [])
    (hkey' : key'.toList ≠ []) : txtValue (Writer.entry key' value) key = none := by
  have hnot : ¬ key.toList <+: (key' ++ ("=" ++ value)).toList := by
    rintro ⟨rest, hrest⟩
    rw [String.toList_append] at hrest
    apply h
    rw [← List.head?_append_of_ne_nil _ hkey, hrest, List.head?_append_of_ne_nil _ hkey']
  simp only [txtValue, fromUtf8_entry, Text.stripPrefix_of_not hnot]

theorem txtLoop_encode {entries : List Bytes} (hentries : ∀ e ∈ entries, e.length ≤ 255)
    (before : Bytes) (f : Found) :
    Found.txtLoop (before ++ entries.flatMap Dns.encodeLabel) before.length f =
      entries.foldl Found.entry f := by
  induction entries generalizing before f with
  | nil =>
      rw [Found.txtLoop]
      split
      · rfl
      · simp_all
  | cons e entries ih =>
      obtain ⟨he, hentries⟩ := List.forall_mem_cons.mp hentries
      have hbyte : (before ++ (e :: entries).flatMap Dns.encodeLabel)[before.length]? =
          some (UInt8.ofNat e.length) := by
        simp [Dns.encodeLabel]
      have hsplit : before ++ (e :: entries).flatMap Dns.encodeLabel =
          before ++ [UInt8.ofNat e.length] ++ (e ++ entries.flatMap Dns.encodeLabel) := by
        simp [Dns.encodeLabel]
      have hentry : Bytes.slice (before.length + 1) (before.length + 1 + e.length)
          (before ++ (e :: entries).flatMap Dns.encodeLabel) = e := by
        rw [hsplit]
        exact Bytes.slice_append e _ (by simp)
      have hin : before.length + 1 + e.length ≤
          (before ++ (e :: entries).flatMap Dns.encodeLabel).length := by
        simp only [hsplit, List.length_append, List.length_singleton]
        omega
      have hrest : before ++ (e :: entries).flatMap Dns.encodeLabel =
          before ++ Dns.encodeLabel e ++ entries.flatMap Dns.encodeLabel := by
        rw [List.flatMap_cons, List.append_assoc]
      have hnext : before.length + (1 + e.length) = (before ++ Dns.encodeLabel e).length := by
        rw [List.length_append, Dns.length_encodeLabel, Nat.add_comm 1]
      rw [Found.txtLoop]
      split
      · simp_all
      · rename_i len hlen
        cases Option.some.inj (hbyte.symm.trans hlen)
        rw [Dns.toNat_ofNat_length he, if_neg hin.not_gt, hentry, hrest, hnext, ih hentries]
        rfl

end Txt

section Records

theorem length_fixedBytes (rtype cls : UInt16) (ttl : UInt32) :
    (Writer.fixedBytes rtype cls ttl).length = 8 := by
  simp [Writer.fixedBytes]

theorem recordLoop_record (r : Record) (before behind : Bytes) (n : ℕ) (f : Found) :
    recordLoop (before ++ (r.bytes ++ behind)) (n + 1) before.length f =
      recordLoop (before ++ (r.bytes ++ behind)) n (before.length + r.bytes.length)
        (f.record r.rtype r.rdata) := by
  obtain ⟨rdlen, hrdlen⟩ : ∃ rdlen : UInt16, rdlen.toNat = r.rdata.length :=
    ⟨UInt16.ofNat r.rdata.length, by rw [UInt16.toNat_ofNat', Nat.mod_eq_of_lt r.length_rdata]⟩
  let named := before ++ Dns.encodeName r.labels
  let fixed := Writer.fixedBytes r.rtype r.cls r.ttl
  have hnamed : named.length = before.length + (Dns.encodeName r.labels).length :=
    List.length_append ..
  have hfixed : fixed.length = 8 := length_fixedBytes ..
  have hbytes : r.bytes = Dns.encodeName r.labels ++ (fixed ++ (u16Bytes rdlen ++ r.rdata)) := by
    rw [Record.bytes, Writer.recordBytes, u16Bytes, hrdlen]
  have hlength : r.bytes.length = (Dns.encodeName r.labels).length + (10 + rdlen.toNat) := by
    simp only [hbytes, List.length_append, hfixed, length_u16Bytes, hrdlen]
    omega
  -- the packet, split at each of the fields that are read
  have hpacket : before ++ (r.bytes ++ behind) =
      named ++ (fixed ++ (u16Bytes rdlen ++ (r.rdata ++ behind))) := by
    simp only [hbytes, named, List.append_assoc]
  have hskip : skipName (before ++ (r.bytes ++ behind)) before.length = .ok named.length := by
    rw [skipName_eq_ok_iff, hnamed, hbytes, List.append_assoc]
    exact Dns.skips_encodeName before _ r.wellformed
  have htype : readU16 (before ++ (r.bytes ++ behind)) named.length = .ok r.rtype := by
    rw [hpacket]
    simp only [fixed, Writer.fixedBytes, List.append_assoc]
    exact readU16_append _ _ rfl
  have hlen : readU16 (before ++ (r.bytes ++ behind)) (named.length + 8) = .ok rdlen := by
    rw [hpacket, ← List.append_assoc named]
    exact readU16_append _ _ (by rw [List.length_append, hfixed])
  have hrdata : Bytes.slice (named.length + 10) (named.length + 10 + rdlen.toNat)
      (before ++ (r.bytes ++ behind)) = r.rdata := by
    rw [hpacket, ← List.append_assoc named, ← List.append_assoc (named ++ fixed), hrdlen]
    refine Bytes.slice_append _ _ ?_
    simp only [List.length_append, hfixed, length_u16Bytes]
  have hin : named.length + 10 + rdlen.toNat ≤ (before ++ (r.bytes ++ behind)).length := by
    rw [hnamed, List.length_append, List.length_append, hlength]
    omega
  have hnext : named.length + (10 + rdlen.toNat) = before.length + r.bytes.length := by
    rw [hlength, hnamed, Nat.add_assoc]
  rw [recordLoop, hskip, Except.ok_bind, htype, Except.ok_bind, hlen, Except.ok_bind,
    if_neg hin.not_gt, hrdata, hnext]

theorem recordLoop_records (records : List Record) (before : Bytes) (f : Found) :
    recordLoop (before ++ records.flatMap Record.bytes) records.length before.length f =
      .ok ((before ++ records.flatMap Record.bytes).length,
        records.foldl (fun f r => f.record r.rtype r.rdata) f) := by
  induction records generalizing before f with
  | nil => rw [List.flatMap_nil, List.append_nil]; rfl
  | cons r records ih =>
      rw [List.flatMap_cons, List.length_cons, recordLoop_record, ← List.append_assoc,
        ← List.length_append, ih]
      rfl

end Records

/-! What the reader finds in the records of an endpoint. -/

namespace Found

variable (f : Found)

theorem record_ptr (rdata : Bytes) : f.record typePtr rdata = f := by
  rw [record, if_neg (by simp [typePtr, typeSrv]), if_neg (by simp [typePtr, typeA]),
    if_neg (by decide)]

theorem record_srv (h : f.port = none) (port : UInt16) (rest : Bytes) :
    f.record typeSrv (u16Bytes 0 ++ (u16Bytes 0 ++ (u16Bytes port ++ rest))) =
      { f with port := some port } := by
  have hslice : Bytes.slice 4 6 (u16Bytes 0 ++ (u16Bytes 0 ++ (u16Bytes port ++ rest))) =
      u16Bytes port := by
    rw [← List.append_assoc]
    exact Bytes.slice_append (u16Bytes port) rest rfl
  have hlength : 6 ≤ (u16Bytes 0 ++ (u16Bytes 0 ++ (u16Bytes port ++ rest))).length := by
    simp only [List.length_append, length_u16Bytes]
    omega
  rw [record, if_pos ⟨rfl, hlength, h⟩, hslice, ofNat_toNatBe_u16Bytes]

theorem record_a (h : f.addr = none) (ip : Block 4) :
    f.record typeA ip.bytes = { f with addr := some ip } := by
  rw [record, if_neg (by simp [typeA, typeSrv]), if_pos ⟨rfl, ip.length_bytes, h⟩,
    Block.ofBytes_bytes]

theorem record_txt {entries : List Bytes} (hentries : ∀ e ∈ entries, e.length ≤ 255) :
    f.record typeTxt (entries.flatMap Dns.encodeLabel) = entries.foldl Found.entry f := by
  rw [record, if_neg (by simp [typeTxt, typeSrv]), if_neg (by simp [typeTxt, typeA]), if_pos rfl]
  exact txtLoop_encode hentries [] f

theorem foldl_txtEntries (npub : String) (scope : Option String) (addr : Option (Block 4))
    (port : Option UInt16) :
    (txtEntries npub scope).foldl Found.entry ⟨addr, port, none, none, none⟩ =
      ⟨addr, port, some npub, scope, some "1"⟩ := by
  have hscope : ∀ value, txtValue (Writer.entry "npub" value) "scope" = none := fun value =>
    txtValue_entry_of_ne value (by decide) (by decide) (by decide)
  have hversion : ∀ value, txtValue (Writer.entry "npub" value) "v" = none := fun value =>
    txtValue_entry_of_ne value (by decide) (by decide) (by decide)
  have hversion' : ∀ value, txtValue (Writer.entry "scope" value) "v" = none := fun value =>
    txtValue_entry_of_ne value (by decide) (by decide) (by decide)
  have hscope' : txtValue (Writer.entry "v" "1") "scope" = none :=
    txtValue_entry_of_ne "1" (by decide) (by decide) (by decide)
  cases scope with
  | none => simp [txtEntries, entry, txtValue_entry, hscope, hversion, hscope']
  | some scope => simp [txtEntries, entry, txtValue_entry, hscope, hversion, hversion']

theorem foldl_records (e : Endpoint) :
    e.records.foldl (fun (f : Found) (r : Record) => f.record r.rtype r.rdata) {} =
      ⟨some e.ip, some e.port, some e.npub, e.scope, some "1"⟩ := by
  change ((((({} : Found).record typePtr _).record typeSrv (u16Bytes 0 ++ (u16Bytes 0 ++
    (u16Bytes e.port ++ _)))).record typeTxt ((txtEntries e.npub e.scope).flatMap
      Dns.encodeLabel)).record typeA e.ip.bytes) = _
  rw [record_ptr, record_srv _ rfl, record_txt _ e.length_entry, foldl_txtEntries, record_a _ rfl]

end Found

section Response

variable (e : Endpoint) (id : UInt16)

theorem readU16_response {i : ℕ} {v : UInt16} (h : [id, 0x8400, 0, 1, 0, 3][i]? = some v) :
    readU16 (e.response id) (2 * i) = .ok v :=
  readU16_flatMap h _

theorem parseHeader_response : parseHeader (e.response id) = .ok (4, 12) := by
  rw [parseHeader, readU16_response e id (i := 1) rfl, readU16_response e id (i := 2) rfl,
    readU16_response e id (i := 3) rfl, readU16_response e id (i := 4) rfl,
    readU16_response e id (i := 5) rfl]
  rfl

theorem recordLoop_response : recordLoop (e.response id) 4 12 {} =
    .ok ((e.response id).length, ⟨some e.ip, some e.port, some e.npub, e.scope, some "1"⟩) := by
  rw [← Found.foldl_records]
  exact recordLoop_records e.records ([id, 0x8400, 0, 1, 0, 3].flatMap u16Bytes) {}

theorem parseFipsResponse_response :
    parseFipsResponse (e.response id) = .ok ⟨e.ip, e.port, e.npub, e.scope, some "1"⟩ := by
  rw [parseFipsResponse, parseHeader_response, Except.ok_bind]
  dsimp only
  rw [recordLoop_response]
  rfl

theorem parseFipsQuery_response (inst host : String) :
    parseFipsQuery (e.response id) inst host = .ok none := by
  rw [parseFipsQuery, readU16_response e id (i := 0) rfl, readU16_response e id (i := 1) rfl]
  rfl

end Response

section Prefixes

variable {p q : Bytes} (hpq : p <+: q)

include hpq

variable {off last n : ℕ}

theorem readU16_of_isPrefix {v : UInt16} (h : readU16 p off = .ok v) : readU16 q off = .ok v := by
  rw [readU16] at h ⊢
  split at h
  · rename_i hin
    rw [if_pos (hin.trans hpq.length_le), Bytes.slice_of_isPrefix hpq hin]
    exact h
  · cases h

theorem skipName_of_isPrefix (h : skipName p off = .ok last) : skipName q off = .ok last :=
  skipName_eq_ok_iff.mpr ((skipName_eq_ok_iff.mp h).of_isPrefix hpq)

theorem skipQuestions_of_isPrefix (h : skipQuestions p n off = .ok last) :
    skipQuestions q n off = .ok last := by
  induction n generalizing off with
  | zero => exact h
  | succ n ih =>
      obtain ⟨next, hname, hrest⟩ := Except.exists_of_bind_eq_ok h
      rw [skipQuestions, skipName_of_isPrefix hpq hname]
      exact ih hrest

theorem parseHeader_of_isPrefix {r : ℕ × ℕ} (h : parseHeader p = .ok r) :
    parseHeader q = .ok r := by
  obtain ⟨flags, hflags, h⟩ := Except.exists_of_bind_eq_ok h
  split at h
  · cases h
  rename_i hresponse
  obtain ⟨qd, hqd, h⟩ := Except.exists_of_bind_eq_ok h
  obtain ⟨an, han, h⟩ := Except.exists_of_bind_eq_ok h
  obtain ⟨ns, hns, h⟩ := Except.exists_of_bind_eq_ok h
  obtain ⟨ar, har, h⟩ := Except.exists_of_bind_eq_ok h
  obtain ⟨off, hoff, h⟩ := Except.exists_of_bind_eq_ok h
  rw [parseHeader, readU16_of_isPrefix hpq hflags, readU16_of_isPrefix hpq hqd,
    readU16_of_isPrefix hpq han, readU16_of_isPrefix hpq hns, readU16_of_isPrefix hpq har]
  simp only [Except.ok_bind, if_neg hresponse, skipQuestions_of_isPrefix hpq hoff]
  exact h

theorem exists_of_recordLoop {f : Found} {r : ℕ × Found} (h : recordLoop p (n + 1) off f = .ok r) :
    ∃ next f', next ≤ p.length ∧
      recordLoop q (n + 1) off f = recordLoop q n next f' ∧ recordLoop p n next f' = .ok r := by
  obtain ⟨named, hnamed, h⟩ := Except.exists_of_bind_eq_ok h
  obtain ⟨rtype, htype, h⟩ := Except.exists_of_bind_eq_ok h
  obtain ⟨rdlen, hrdlen, h⟩ := Except.exists_of_bind_eq_ok h
  split at h
  · cases h
  rename_i hin
  refine ⟨named + (10 + rdlen.toNat), _, by omega, ?_, h⟩
  rw [recordLoop, skipName_of_isPrefix hpq hnamed, Except.ok_bind, readU16_of_isPrefix hpq htype,
    Except.ok_bind, readU16_of_isPrefix hpq hrdlen, Except.ok_bind,
    if_neg ((not_lt.mp hin).trans hpq.length_le).not_gt,
      Bytes.slice_of_isPrefix hpq (not_lt.mp hin)]

/-- A walk over records of a shorter packet is one over those of the longer packet, and it ends
inside the shorter one. -/
theorem recordLoop_of_isPrefix {f found : Found}
    (h : recordLoop p (n + 1) off f = .ok (last, found)) :
    recordLoop q (n + 1) off f = .ok (last, found) ∧ last ≤ p.length := by
  induction n generalizing off f with
  | zero =>
      obtain ⟨next, f', hin, hstep, hrest⟩ := exists_of_recordLoop hpq h
      cases hrest
      exact ⟨hstep.trans rfl, hin⟩
  | succ n ih =>
      obtain ⟨next, f', _, hstep, hrest⟩ := exists_of_recordLoop hpq h
      rw [hstep]
      exact ih hrest

end Prefixes

/-- The walk over the records of a response ends where it ends, so that no beginning of it is
accepted. -/
theorem exists_error_of_take (e : Endpoint) (id : UInt16) {k : ℕ}
    (hk : k < (e.response id).length) :
    ∃ err, parseFipsResponse ((e.response id).take k) = .error err := by
  have hpre : (e.response id).take k <+: e.response id := List.take_prefix k _
  rcases hparse : parseFipsResponse ((e.response id).take k) with err | advert
  · exact ⟨err, rfl⟩
  obtain ⟨header, hheader, h⟩ := Except.exists_of_bind_eq_ok hparse
  cases (parseHeader_of_isPrefix hpre hheader).symm.trans (parseHeader_response e id)
  obtain ⟨⟨last, found⟩, hloop, -⟩ := Except.exists_of_bind_eq_ok h
  obtain ⟨hloop, hlast⟩ := recordLoop_of_isPrefix hpre hloop
  have hend : last = (e.response id).length :=
    congrArg Prod.fst (Except.ok.inj (hloop.symm.trans (recordLoop_response e id)))
  rw [List.length_take, hend] at hlast
  omega

/-- What is read back from a response is what was written, no strict beginning of it is accepted,
and it is not taken for a query. -/
theorem advert_roundtrip {id port : UInt16} {inst host npub : String} {ip : Block 4}
    {scope : Option String} {out out' : Bytes} {n : ℕ}
    (hbuild : (buildFipsResponse id inst host ip port npub scope).run out = .ok n out') :
    parseFipsResponse (out'.take n) = .ok ⟨ip, port, npub, scope, some "1"⟩ ∧
      (∀ k < n, ∃ err, parseFipsResponse (out'.take k) = .error err) ∧
      ∀ inst' host', parseFipsQuery (out'.take n) inst' host' = .ok none := by
  obtain ⟨hinst, hhost, hentry, hresponse, hn⟩ := response_of_build hbuild
  refine ⟨?_, ?_, ?_⟩
  · rw [hresponse]
    exact parseFipsResponse_response _ id
  · intro k hk
    have hlength := congrArg List.length hresponse
    rw [List.length_take, Nat.min_eq_left hn] at hlength
    rw [← Nat.min_eq_left hk.le, ← List.take_take, hresponse]
    exact exists_error_of_take _ id (hlength ▸ hk)
  · intro inst' host'
    rw [hresponse]
    exact parseFipsQuery_response _ id inst' host'

theorem advert_roundtrip_scoped : ∃ n out',
    (buildFipsResponse 7 "r" "h" ⟨[192, 168, 4, 1], rfl⟩ 2121 "npub1" (some "s")).run
      (List.replicate 200 0) = .ok n out' ∧
    parseFipsResponse (out'.take n) =
      .ok ⟨⟨[192, 168, 4, 1], rfl⟩, 2121, "npub1", some "s", some "1"⟩ := by
  obtain ⟨n, out', hbuild⟩ := EStateM.Result.exists_of_isOk (r := (buildFipsResponse 7 "r" "h"
    ⟨[192, 168, 4, 1], rfl⟩ 2121 "npub1" (some "s")).run (List.replicate 200 0)) (by decide +kernel)
  exact ⟨n, out', hbuild, (advert_roundtrip hbuild).1⟩

end Mdns
end Microfips
