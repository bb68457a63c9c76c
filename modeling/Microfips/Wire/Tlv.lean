import Microfips.Data.StreamDecoder
import Microfips.Wire.Negotiation

/-!
# The TLV region of a negotiation payload

Behind the header of a negotiation payload stand entries, each a field number, a length and a
value.  `find_tlv` of `negotiation.rs` scans them with the lengths the peer wrote.  The scan is
compared with the decoder of entries: what it returns is a function of the entries at the front
of the region and of what is left behind the last whole one.
-/

namespace Microfips
namespace Wire

def tlvRekeyOf : UInt16 := 1

def findTlvLoop (fieldNum : UInt16) : ℕ → Bytes → Except NegotiationError (Option Bytes)
  | 0, _ => .error .truncatedTlv
  | fuel + 1, rest =>
      if rest = [] then
        .ok none
      else if rest.length < 4 then
        .error .truncatedTlv
      else
        let num := UInt16.ofNat (Bytes.toNat (Bytes.slice 0 2 rest))
        let len := Bytes.toNat (Bytes.slice 2 4 rest)
        if rest.length < 4 + len then
          .error .truncatedTlv
        else if num = fieldNum then
          .ok (some (Bytes.slice 4 (4 + len) rest))
        else
          findTlvLoop fieldNum fuel (rest.drop (4 + len))

/-- `find_tlv`; every round of its loop takes at least four bytes. -/
def findTlv (data : Bytes) (fieldNum : UInt16) : Except NegotiationError (Option Bytes) :=
  if data.length < negotiationHeaderSize then
    .error .tooShort
  else
    findTlvLoop fieldNum (data.length + 1) (data.drop negotiationHeaderSize)

def rekeyOf (data : Bytes) : Except NegotiationError (Option UInt32) :=
  match findTlv data tlvRekeyOf with
  | .error e => .error e
  | .ok (some value) =>
      if value.length = 4 then
        .ok (some (UInt32.ofNat (Bytes.toNat value)))
      else
        .error .badRekeyMarker
  | .ok none => .ok none

/-- The entry that `encode_payload` writes for a rekey marker. -/
def rekeyMarker (idx : UInt32) : Bytes :=
  Bytes.ofNat 2 tlvRekeyOf.toNat ++ Bytes.ofNat 2 4 ++ Bytes.ofNat 4 idx.toNat

def neededSize (rekeyOf : Option UInt32) : ℕ :=
  negotiationHeaderSize + if rekeyOf.isSome then 4 + 4 else 0

def encodePayloadWith (outLen : ℕ) (versionMin versionMax : UInt8) (features : UInt64)
    (rekeyOf : Option UInt32) : Option Bytes :=
  if outLen < neededSize rekeyOf then
    none
  else
    some (((0 : UInt8) :: (versionMin <<< 4 ||| versionMax &&& 0x0F) ::
      Bytes.ofNat 8 features.toNat) ++ rekeyOf.elim [] rekeyMarker)

theorem encodePayloadWith_none (outLen : ℕ) (versionMin versionMax : UInt8) (features : UInt64) :
    encodePayloadWith outLen versionMin versionMax features none =
      encodePayload outLen versionMin versionMax features := by
  simp [encodePayloadWith, neededSize, encodePayload]

/-- An entry of the TLV region; the length of its value fits the field it is written to. -/
@[ext]
structure TlvEntry where
  num : UInt16
  value : Bytes
  length_lt : value.length < 256 ^ 2

namespace TlvEntry

def encode (e : TlvEntry) : Bytes :=
  Bytes.ofNat 2 e.num.toNat ++ Bytes.ofNat 2 e.value.length ++ e.value

theorem length_encode (e : TlvEntry) : e.encode.length = 4 + e.value.length := by
  simp [encode]
  omega

theorem slice_num (e : TlvEntry) (more : Bytes) :
    UInt16.ofNat (Bytes.toNat (Bytes.slice 0 2 (e.encode ++ more))) = e.num := by
  have hslice : Bytes.slice 0 2 (e.encode ++ more) = Bytes.ofNat 2 e.num.toNat := by
    rw [encode, List.append_assoc, List.append_assoc]
    exact List.take_left' (Bytes.ofNat_length 2 _)
  have hlt : e.num.toNat < 256 ^ 2 := e.num.toNat_lt
  rw [hslice, Bytes.toNat_ofNat, Nat.mod_eq_of_lt hlt, UInt16.ofNat_toNat]

theorem slice_len (e : TlvEntry) (more : Bytes) :
    Bytes.toNat (Bytes.slice 2 4 (e.encode ++ more)) = e.value.length := by
  have hslice : Bytes.slice 2 4 (e.encode ++ more) = Bytes.ofNat 2 e.value.length := by
    rw [Bytes.slice, encode, List.append_assoc, List.append_assoc,
      List.drop_left' (Bytes.ofNat_length 2 _)]
    exact List.take_left' (Bytes.ofNat_length 2 _)
  rw [hslice, Bytes.toNat_ofNat, Nat.mod_eq_of_lt e.length_lt]

theorem slice_value (e : TlvEntry) (more : Bytes) :
    Bytes.slice 4 (4 + e.value.length) (e.encode ++ more) = e.value := by
  rw [Bytes.slice, encode, List.append_assoc, List.drop_left' (by simp), Nat.add_sub_cancel_left]
  exact List.take_left' rfl

theorem drop_encode (e : TlvEntry) (more : Bytes) :
    (e.encode ++ more).drop (4 + e.value.length) = more :=
  List.drop_left' e.length_encode

theorem length_slice_value (rest : Bytes) :
    (Bytes.slice 4 (4 + Bytes.toNat (Bytes.slice 2 4 rest)) rest).length < 256 ^ 2 := by
  have hlen : (Bytes.slice 2 4 rest).length ≤ 2 := by simp [Bytes.slice]
  have hle : 256 ^ (Bytes.slice 2 4 rest).length ≤ 256 ^ 2 := Nat.pow_le_pow_right (by decide) hlen
  have hlt : Bytes.toNat (Bytes.slice 2 4 rest) < 256 ^ (Bytes.slice 2 4 rest).length :=
    Bytes.toNat_lt _
  apply lt_of_le_of_lt _ (hlt.trans_le hle)
  simp [Bytes.slice]

def read (rest : Bytes) : Option (TlvEntry × ℕ) :=
  let len := Bytes.toNat (Bytes.slice 2 4 rest)
  if rest.length < 4 + len then
    none
  else
    some
      ({ num := UInt16.ofNat (Bytes.toNat (Bytes.slice 0 2 rest))
         value := Bytes.slice 4 (4 + len) rest
         length_lt := length_slice_value rest },
        4 + len)

theorem read_encode_append (e : TlvEntry) (more : Bytes) :
    read (e.encode ++ more) = some (e, 4 + e.value.length) := by
  have hlen : ¬(e.encode ++ more).length < 4 + e.value.length := by
    rw [List.length_append, e.length_encode]
    omega
  rw [read]
  simp only [e.slice_len, if_neg hlen, e.slice_num, e.slice_value]

theorem encode_of_read {rest : Bytes} {e : TlvEntry} {n : ℕ} (h : read rest = some (e, n)) :
    n = 4 + e.value.length ∧ rest = e.encode ++ rest.drop n := by
  rw [read] at h
  split at h
  · cases h
  rename_i hlen
  obtain ⟨rfl, rfl⟩ := Prod.mk.inj (Option.some.inj h)
  set len := Bytes.toNat (Bytes.slice 2 4 rest) with hvalue
  have hlong : 4 + len ≤ rest.length := Nat.le_of_not_lt hlen
  have hsize : (Bytes.slice 4 (4 + len) rest).length = len := by
    rw [Bytes.slice_length hlong]
    omega
  refine ⟨congrArg (4 + ·) hsize.symm, ?_⟩
  have hnum : (Bytes.slice 0 2 rest).length = 2 := Bytes.slice_length (by omega)
  have hofNat : Bytes.ofNat 2 len = Bytes.slice 2 4 rest := by
    have hfield := Bytes.ofNat_toNat (Bytes.slice 2 4 rest)
    rwa [Bytes.slice_length (by omega)] at hfield
  calc
    rest = Bytes.slice 0 (4 + len) rest ++ rest.drop (4 + len) := (List.take_append_drop _ _).symm
    _ = Bytes.slice 0 2 rest ++ Bytes.slice 2 4 rest ++ Bytes.slice 4 (4 + len) rest ++
        rest.drop (4 + len) := by
      rw [Bytes.slice_append_slice (by omega) (by omega),
        Bytes.slice_append_slice (by omega) (by omega)]
    _ = _ := by
      rw [encode, hsize, Bytes.ofNat_ofNat_uint16 hnum, hofNat]

theorem read_eq_some_iff {rest : Bytes} {e : TlvEntry} {n : ℕ} :
    read rest = some (e, n) ↔ n = 4 + e.value.length ∧ e.encode <+: rest := by
  constructor
  · intro h
    obtain ⟨hn, hrest⟩ := encode_of_read h
    exact ⟨hn, hrest ▸ List.prefix_append _ _⟩
  · rintro ⟨rfl, more, rfl⟩
    exact e.read_encode_append more

def decoder : StreamDecoder UInt8 TlvEntry where
  next := read
  pos h := by
    rw [(read_eq_some_iff.mp h).1]
    omega
  le_length h := by
    obtain ⟨rfl, hprefix⟩ := read_eq_some_iff.mp h
    exact length_encode _ ▸ hprefix.length_le
  next_append ys h := by
    obtain ⟨hn, hprefix⟩ := read_eq_some_iff.mp h
    exact read_eq_some_iff.mpr ⟨hn, hprefix.trans (List.prefix_append _ _)⟩

end TlvEntry

def tlvRegion (entries : List TlvEntry) : Bytes :=
  entries.flatMap TlvEntry.encode

theorem decodes_iff {data left : Bytes} {entries : List TlvEntry} :
    TlvEntry.decoder.Decodes data entries left ↔
      data = tlvRegion entries ++ left ∧ TlvEntry.read left = none := by
  constructor
  · intro h
    induction h with
    | stop hnext => exact ⟨rfl, hnext⟩
    | step hnext _ ih =>
        obtain ⟨-, hdata⟩ := TlvEntry.encode_of_read hnext
        refine ⟨?_, ih.2⟩
        rw [hdata, ih.1, ← List.append_assoc]
        rfl
  · rintro ⟨rfl, hleft⟩
    induction entries with
    | nil => exact .stop hleft
    | cons e entries ih =>
        rw [tlvRegion, List.flatMap_cons, List.append_assoc]
        apply StreamDecoder.Decodes.step (e.read_encode_append _)
        rw [e.drop_encode]
        exact ih

/-- What a scan for a field finds in the entries at the front of a region, with `left` behind
them. -/
def scan (fieldNum : UInt16) (entries : List TlvEntry) (left : Bytes) :
    Except NegotiationError (Option Bytes) :=
  match entries.find? (·.num = fieldNum) with
  | some e => .ok (some e.value)
  | none => if left = [] then .ok none else .error .truncatedTlv

variable {fuel : ℕ}

theorem findTlvLoop_read_none {fieldNum : UInt16} {rest : Bytes} (h : TlvEntry.read rest = none) :
    findTlvLoop fieldNum (fuel + 1) rest = scan fieldNum [] rest := by
  rw [TlvEntry.read] at h
  split at h
  · rename_i hlen
    rw [findTlvLoop]
    dsimp only
    rw [if_pos hlen, ite_self]
    rfl
  · cases h

theorem findTlvLoop_encode_append {fieldNum : UInt16} (e : TlvEntry) (more : Bytes) :
    findTlvLoop fieldNum (fuel + 1) (e.encode ++ more) =
      if e.num = fieldNum then .ok (some e.value) else findTlvLoop fieldNum fuel more := by
  have hsize : (e.encode ++ more).length = 4 + e.value.length + more.length := by
    rw [List.length_append, e.length_encode]
  have hne : e.encode ++ more ≠ [] := by
    intro hnil
    rw [hnil] at hsize
    simp at hsize
    omega
  rw [findTlvLoop, if_neg hne, if_neg (by omega)]
  simp only [e.slice_len, e.slice_num, e.slice_value, e.drop_encode]
  rw [if_neg (by omega)]

theorem findTlvLoop_eq_scan {fieldNum : UInt16} {rest left : Bytes} {entries : List TlvEntry}
    (h : TlvEntry.decoder.Decodes rest entries left) (hfuel : rest.length < fuel) :
    findTlvLoop fieldNum fuel rest = scan fieldNum entries left := by
  induction h generalizing fuel with
  | stop hnext =>
      obtain ⟨fuel, rfl⟩ := Nat.exists_eq_add_of_lt hfuel
      exact findTlvLoop_read_none hnext
  | @step xs rest e n es hnext _ ih =>
      obtain ⟨rfl, hxs⟩ := TlvEntry.encode_of_read hnext
      obtain ⟨fuel, rfl⟩ := Nat.exists_eq_add_of_lt (Nat.zero_lt_of_lt hfuel)
      rw [Nat.zero_add] at hfuel ⊢
      have hpos : (xs.drop (4 + e.value.length)).length < fuel := by
        rw [hxs, List.length_append, e.length_encode] at hfuel
        omega
      rw [hxs, findTlvLoop_encode_append]
      by_cases hnum : e.num = fieldNum
      · rw [if_pos hnum, scan, List.find?_cons_of_pos (by simpa using hnum)]
      · rw [if_neg hnum, ih hpos, scan, scan, List.find?_cons_of_neg (by simpa using hnum)]

/-- The region is a sequence of whole entries, none of them with the field number. -/
def Absent (fieldNum : UInt16) (region : Bytes) : Prop :=
  ∃ entries : List TlvEntry, region = tlvRegion entries ∧ ∀ e ∈ entries, e.num ≠ fieldNum

/-- The value is that of the first entry with the field number, and the entries before it are
whole; what stands behind it is left open. -/
def First (fieldNum : UInt16) (region value : Bytes) : Prop :=
  ∃ (before : List TlvEntry) (e : TlvEntry) (behind : Bytes),
    region = tlvRegion before ++ e.encode ++ behind ∧ (∀ x ∈ before, x.num ≠ fieldNum) ∧
      e.num = fieldNum ∧ e.value = value

theorem scan_eq_ok_none {fieldNum : UInt16} {entries : List TlvEntry} {left : Bytes} :
    scan fieldNum entries left = .ok none ↔ left = [] ∧ ∀ e ∈ entries, e.num ≠ fieldNum := by
  rw [scan]
  split
  · rename_i e hfind
    have hnum : e.num = fieldNum := by simpa using List.find?_some hfind
    constructor
    · rintro ⟨⟩
    · rintro ⟨-, hall⟩
      exact absurd hnum (hall e (List.mem_of_find?_eq_some hfind))
  · rename_i hfind
    have hall : ∀ e ∈ entries, e.num ≠ fieldNum := by simpa using List.find?_eq_none.mp hfind
    by_cases hleft : left = []
    · simpa [hleft] using hall
    · simp [hleft]

theorem scan_eq_ok_some {fieldNum : UInt16} {entries : List TlvEntry} {left value : Bytes} :
    scan fieldNum entries left = .ok (some value) ↔
      ∃ e, entries.find? (·.num = fieldNum) = some e ∧ e.value = value := by
  rw [scan]
  cases hfind : entries.find? (·.num = fieldNum) with
  | some e => simp
  | none =>
      by_cases hleft : left = []
      · simp [hleft]
      · simp [hleft]

theorem scan_error {fieldNum : UInt16} {entries : List TlvEntry} {left : Bytes}
    {e : NegotiationError} (h : scan fieldNum entries left = .error e) : e = .truncatedTlv := by
  rw [scan] at h
  split at h
  · cases h
  · split at h
    · cases h
    · cases h
      rfl

section Scan

variable {data left : Bytes} {fieldNum : UInt16} {entries : List TlvEntry}

theorem findTlv_eq_scan (hdata : negotiationHeaderSize ≤ data.length)
    (h : TlvEntry.decoder.Decodes (data.drop negotiationHeaderSize) entries left) :
    findTlv data fieldNum = scan fieldNum entries left := by
  rw [findTlv, if_neg (Nat.not_lt.mpr hdata)]
  apply findTlvLoop_eq_scan h
  rw [List.length_drop]
  omega

theorem findTlv_eq_ok_none (hdata : negotiationHeaderSize ≤ data.length) :
    findTlv data fieldNum = .ok none ↔ Absent fieldNum (data.drop negotiationHeaderSize) := by
  constructor
  · intro h
    obtain ⟨entries, left, hdecodes⟩ :=
      TlvEntry.decoder.exists_decodes (data.drop negotiationHeaderSize)
    rw [findTlv_eq_scan hdata hdecodes, scan_eq_ok_none] at h
    obtain ⟨rfl, hall⟩ := h
    have hregion := (decodes_iff.mp hdecodes).1
    rw [List.append_nil] at hregion
    exact ⟨entries, hregion, hall⟩
  · rintro ⟨entries, hregion, hall⟩
    have hdecodes : TlvEntry.decoder.Decodes (data.drop negotiationHeaderSize) entries [] :=
      decodes_iff.mpr ⟨by rw [hregion, List.append_nil], TlvEntry.decoder.next_nil⟩
    rw [findTlv_eq_scan hdata hdecodes, scan_eq_ok_none]
    exact ⟨rfl, hall⟩

theorem findTlv_eq_ok_some (hdata : negotiationHeaderSize ≤ data.length) {value : Bytes} :
    findTlv data fieldNum = .ok (some value) ↔
      First fieldNum (data.drop negotiationHeaderSize) value := by
  constructor
  · intro h
    obtain ⟨entries, left, hdecodes⟩ :=
      TlvEntry.decoder.exists_decodes (data.drop negotiationHeaderSize)
    rw [findTlv_eq_scan hdata hdecodes, scan_eq_ok_some] at h
    obtain ⟨e, hfind, hvalue⟩ := h
    obtain ⟨hnum, before, after, rfl, hbefore⟩ := List.find?_eq_some_iff_append.mp hfind
    refine ⟨before, e, tlvRegion after ++ left, ?_, ?_, by simpa using hnum, hvalue⟩
    · rw [(decodes_iff.mp hdecodes).1]
      simp [tlvRegion]
    · simpa using hbefore
  · rintro ⟨before, e, behind, hregion, hbefore, hnum, hvalue⟩
    -- What stands behind the entry is decoded as far as it goes.
    obtain ⟨after, left, hbehind⟩ := TlvEntry.decoder.exists_decodes behind
    obtain ⟨rfl, hleft⟩ := decodes_iff.mp hbehind
    have hdecodes : TlvEntry.decoder.Decodes (data.drop negotiationHeaderSize)
        (before ++ e :: after) left :=
      decodes_iff.mpr ⟨by rw [hregion]; simp [tlvRegion], hleft⟩
    rw [findTlv_eq_scan hdata hdecodes, scan_eq_ok_some]
    refine ⟨e, List.find?_eq_some_iff_append.mpr ⟨by simpa using hnum, before, after, rfl, ?_⟩,
      hvalue⟩
    simpa using hbefore

theorem findTlv_eq_error (hdata : negotiationHeaderSize ≤ data.length) :
    findTlv data fieldNum = .error .truncatedTlv ↔
      ¬Absent fieldNum (data.drop negotiationHeaderSize) ∧
        ∀ value, ¬First fieldNum (data.drop negotiationHeaderSize) value := by
  simp only [← findTlv_eq_ok_none hdata, ← findTlv_eq_ok_some hdata]
  obtain ⟨entries, left, hdecodes⟩ :=
    TlvEntry.decoder.exists_decodes (data.drop negotiationHeaderSize)
  rw [findTlv_eq_scan hdata hdecodes]
  cases h : scan fieldNum entries left with
  | error e => simp [scan_error h]
  | ok found =>
      cases found with
      | none => simp
      | some value => simp

end Scan

/-! ### Round trip -/

theorem nibbles {versionMin versionMax : UInt8} (hmin : versionMin < 16) (hmax : versionMax < 16) :
    (versionMin <<< 4 ||| versionMax &&& 0x0F) >>> 4 = versionMin ∧
      (versionMin <<< 4 ||| versionMax &&& 0x0F) &&& 0x0F = versionMax := by
  have hall : ∀ m < 16, ∀ n < 16,
      (UInt8.ofNat m <<< 4 ||| UInt8.ofNat n &&& 0x0F) >>> 4 = UInt8.ofNat m ∧
        (UInt8.ofNat m <<< 4 ||| UInt8.ofNat n &&& 0x0F) &&& 0x0F = UInt8.ofNat n := by
    decide
  have hpair := hall versionMin.toNat hmin versionMax.toNat hmax
  rwa [UInt8.ofNat_toNat, UInt8.ofNat_toNat] at hpair

section Payload

variable {outLen : ℕ} {versionMin versionMax : UInt8} {features : UInt64} {idx : Option UInt32}
  {payload : Bytes}

theorem encodePayloadWith_isSome :
    (encodePayloadWith outLen versionMin versionMax features idx).isSome ↔
      neededSize idx ≤ outLen := by
  rw [encodePayloadWith]
  by_cases hlt : outLen < neededSize idx
  · simp [hlt]
  · simp [hlt, Nat.le_of_not_lt hlt]

theorem encodePayloadWith_eq
    (h : encodePayloadWith outLen versionMin versionMax features idx = some payload) :
    payload = ((0 : UInt8) :: (versionMin <<< 4 ||| versionMax &&& 0x0F) ::
      Bytes.ofNat 8 features.toNat) ++ idx.elim [] rekeyMarker := by
  rw [encodePayloadWith] at h
  split at h
  · cases h
  · exact (Option.some.inj h).symm

theorem parse_encodePayloadWith (hmin : versionMin ≤ versionMax) (hmax : versionMax < 16)
    (h : encodePayloadWith outLen versionMin versionMax features idx = some payload) :
    NegotiationHeader.parse payload = .ok { versionMin, versionMax, features } := by
  have hfeatures : features.toNat < 256 ^ 8 := features.toNat_lt
  have hslice (v : UInt8) (rest more : Bytes) (hrest : rest.length = 8) :
      Bytes.slice 2 10 (0 :: v :: rest ++ more) = rest :=
    List.take_left' hrest
  obtain rfl := encodePayloadWith_eq h
  obtain ⟨hfst, hsnd⟩ := nibbles (UInt8.lt_of_le_of_lt hmin hmax) hmax
  rw [NegotiationHeader.parse, if_neg (by simp [negotiationHeaderSize]),
    if_neg (by simp), hslice _ _ _ (Bytes.ofNat_length 8 _), Bytes.toNat_ofNat,
    Nat.mod_eq_of_lt hfeatures, UInt64.ofNat_toNat]
  simp only [List.cons_append, List.getD_cons_succ, List.getD_cons_zero, hfst, hsnd]
  rw [if_neg (UInt8.not_lt.mpr hmin)]

theorem rekeyOf_encodePayloadWith
    (h : encodePayloadWith outLen versionMin versionMax features idx = some payload) :
    rekeyOf payload = .ok idx := by
  obtain rfl := encodePayloadWith_eq h
  generalize hheader : ((0 : UInt8) :: (versionMin <<< 4 ||| versionMax &&& 0x0F) ::
    Bytes.ofNat 8 features.toNat) = header
  have hlength : header.length = negotiationHeaderSize := by
    rw [← hheader]
    simp [negotiationHeaderSize]
  have hdata (region : Bytes) : negotiationHeaderSize ≤ (header ++ region).length := by
    rw [List.length_append, hlength]
    omega
  have hdrop (region : Bytes) : (header ++ region).drop negotiationHeaderSize = region :=
    List.drop_left' hlength
  cases idx with
  | none =>
      have hnone : findTlv (header ++ []) tlvRekeyOf = .ok none := by
        rw [findTlv_eq_ok_none (hdata _), hdrop]
        exact ⟨[], rfl, by simp⟩
      rw [rekeyOf, Option.elim_none, hnone]
  | some idx =>
      have hsome : findTlv (header ++ rekeyMarker idx) tlvRekeyOf =
          .ok (some (Bytes.ofNat 4 idx.toNat)) := by
        rw [findTlv_eq_ok_some (hdata _), hdrop]
        let e : TlvEntry := ⟨tlvRekeyOf, Bytes.ofNat 4 idx.toNat, by simp⟩
        refine ⟨[], e, [], ?_, by simp, rfl, rfl⟩
        simp [e, TlvEntry.encode, rekeyMarker, tlvRegion]
      rw [rekeyOf, Option.elim_some, hsome]
      simp [Bytes.toNat_ofNat]

end Payload

/-- The scan of the TLV region is exact, and a payload that `encode_payload` wrote is read back. -/
theorem negotiation_scan_exact :
    (∀ (data : Bytes) (fieldNum : UInt16), negotiationHeaderSize ≤ data.length →
      (findTlv data fieldNum = .ok none ↔ Absent fieldNum (data.drop negotiationHeaderSize)) ∧
      (∀ value, findTlv data fieldNum = .ok (some value) ↔
        First fieldNum (data.drop negotiationHeaderSize) value) ∧
      (findTlv data fieldNum = .error .truncatedTlv ↔
        ¬Absent fieldNum (data.drop negotiationHeaderSize) ∧
          ∀ value, ¬First fieldNum (data.drop negotiationHeaderSize) value)) ∧
    ∀ (outLen : ℕ) (versionMin versionMax : UInt8) (features : UInt64) (idx : Option UInt32),
      versionMin ≤ versionMax → versionMax < 16 →
      ((encodePayloadWith outLen versionMin versionMax features idx).isSome ↔
        neededSize idx ≤ outLen) ∧
      ∀ payload, encodePayloadWith outLen versionMin versionMax features idx = some payload →
        NegotiationHeader.parse payload = .ok { versionMin, versionMax, features } ∧
          rekeyOf payload = .ok idx := by
  constructor
  · intro data fieldNum hdata
    exact ⟨findTlv_eq_ok_none hdata, fun _ => findTlv_eq_ok_some hdata, findTlv_eq_error hdata⟩
  · intro outLen versionMin versionMax features idx hmin hmax
    refine ⟨encodePayloadWith_isSome, ?_⟩
    intro payload hpayload
    exact ⟨parse_encodePayloadWith hmin hmax hpayload, rekeyOf_encodePayloadWith hpayload⟩

/-- A payload with the marker 7 is written and read back, and a region that ends in the middle of
an entry is refused. -/
theorem negotiation_scan_exact_seven :
    (∃ payload, encodePayloadWith 64 1 1 0x78 (some 7) = some payload ∧
      NegotiationHeader.parse payload =
        .ok { versionMin := 1, versionMax := 1, features := 0x78 } ∧
      rekeyOf payload = .ok (some 7)) ∧
    findTlv (List.replicate 10 0 ++ [1, 0, 4, 0, 7]) tlvRekeyOf = .error .truncatedTlv ∧
    ∀ value, ¬First tlvRekeyOf [1, 0, 4, 0, 7] value := by
  obtain ⟨hscan, hpayload⟩ := negotiation_scan_exact
  refine ⟨?_, by decide, ?_⟩
  · obtain ⟨hsome, hread⟩ := hpayload 64 1 1 0x78 (some 7) (by decide) (by decide)
    obtain ⟨payload, heq⟩ := Option.isSome_iff_exists.mp (hsome.mpr (by decide))
    exact ⟨payload, heq, hread payload heq⟩
  · exact ((hscan (List.replicate 10 0 ++ [1, 0, 4, 0, 7]) tlvRekeyOf (by decide)).2.2.mp
      (by decide)).2

end Wire
end Microfips
