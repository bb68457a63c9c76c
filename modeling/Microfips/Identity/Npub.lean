import Mathlib.Data.List.Forall2
import Microfips.Identity.Polymod

/-!
# Round trips of the `npub` codec

The 52 values of a key are the digits of the key followed by four zero bits, in both directions.
With the checksum of `Identity.Polymod` the two functions are inverse to each other up to the case
of the data characters, and a single changed character is always refused.
-/

namespace Microfips
namespace Identity

open Register Regroup

/-! ### The characters -/

theorem mapM_eq_some_iff {α β : Type} {f : α → Option β} {xs : List α} {ys : List β} :
    xs.mapM f = some ys ↔ List.Forall₂ (fun x y => f x = some y) xs ys := by
  induction xs generalizing ys with
  | nil =>
      constructor
      · intro h
        cases Option.some.inj h
        exact .nil
      · rintro ⟨⟩
        rfl
  | cons x xs ih =>
      rw [List.mapM_cons]
      constructor
      · intro h
        obtain ⟨y, hy, h⟩ := Option.bind_eq_some_iff.mp h
        obtain ⟨zs, hzs, h⟩ := Option.bind_eq_some_iff.mp h
        cases Option.some.inj h
        exact .cons hy (ih.mp hzs)
      · rintro (_ | ⟨hy, hys⟩)
        rw [hy, ih.mpr hys]
        rfl

variable {c : UInt8} {v : ℕ} {values : List ℕ} {key : Block 32} {s : Bytes}

theorem charset_getElem? (h : charsetRev c = some v) : FiveBit v ∧ charset[v]? = some c := by
  obtain ⟨hlt, hc, -⟩ := List.findIdx?_eq_some_iff_getElem.mp h
  refine ⟨hlt, ?_⟩
  rw [List.getElem?_eq_getElem hlt]
  simpa using hc

theorem charsetRev_of_getElem? (h : charset[v]? = some c) :
    charsetRev (toAsciiLowercase c) = some v := by
  have hall : ∀ v < 32, charsetRev (toAsciiLowercase (charset.getD v 0)) = some v := by
    decide
  have hlt : v < 32 := (List.getElem?_eq_some_iff.mp h).1
  have hget := hall v hlt
  rwa [List.getD_eq_getElem?_getD, h] at hget

theorem charset_isSome (h : FiveBit v) : ∃ c, charset[v]? = some c :=
  ⟨_, List.getElem?_eq_getElem h⟩

theorem exists_mapM_charset (h : ∀ v ∈ values, FiveBit v) :
    ∃ data : Bytes, values.mapM (charset[·]?) = some data ∧
      data.mapM (fun c => charsetRev (toAsciiLowercase c)) = some values := by
  simp only [mapM_eq_some_iff]
  induction values with
  | nil => exact ⟨[], .nil, .nil⟩
  | cons v values ih =>
      obtain ⟨data, hwrite, hread⟩ := ih fun x hx => h x (List.mem_cons_of_mem v hx)
      obtain ⟨c, hc⟩ := charset_isSome (h v List.mem_cons_self)
      exact ⟨c :: data, .cons hc hwrite, .cons (charsetRev_of_getElem? hc) hread⟩

theorem mapM_charset_of_read {data : Bytes}
    (h : data.mapM (fun c => charsetRev (toAsciiLowercase c)) = some values) :
    (∀ v ∈ values, FiveBit v) ∧
      values.mapM (charset[·]?) = some (data.map toAsciiLowercase) := by
  rw [mapM_eq_some_iff] at h ⊢
  induction h with
  | nil => exact ⟨by simp, .nil⟩
  | cons hc _ ih =>
      obtain ⟨hv, hget⟩ := charset_getElem? hc
      exact ⟨List.forall_mem_cons.mpr ⟨hv, ih.1⟩, .cons hget ih.2⟩

/-! ### Regrouping -/

def keyNumber (key : Block 32) : ℕ :=
  number (2 ^ 8) (key.bytes.map UInt8.toNat)

def ofKeyNumber (x : ℕ) : Block 32 :=
  Block.ofBytes 32 ((toDigits (2 ^ 8) 32 x).map UInt8.ofNat)

theorem forall_toNat_lt (b : Bytes) : ∀ d ∈ b.map UInt8.toNat, d < 2 ^ 8 := by
  intro d hd
  obtain ⟨x, -, rfl⟩ := List.mem_map.mp hd
  exact x.toNat_lt

theorem keyNumber_lt (key : Block 32) : keyNumber key < (2 ^ 8) ^ 32 := by
  have hlt := number_lt (by decide) (forall_toNat_lt key.bytes)
  rwa [List.length_map, key.length_eq] at hlt

theorem map_toNat_ofNat {digits : List ℕ} (h : ∀ d ∈ digits, d < 2 ^ 8) :
    (digits.map UInt8.ofNat).map UInt8.toNat = digits := by
  rw [List.map_map]
  conv_rhs => rw [← List.map_id digits]
  apply List.map_congr_left
  intro d hd
  exact UInt8.toNat_ofNat'.trans (Nat.mod_eq_of_lt (h d hd))

theorem bytes_ofKeyNumber (x : ℕ) :
    (ofKeyNumber x).bytes = (toDigits (2 ^ 8) 32 x).map UInt8.ofNat :=
  Block.ofBytes_bytes_of_length_eq (by simp)

theorem keyNumber_ofKeyNumber {x : ℕ} (h : x < (2 ^ 8) ^ 32) : keyNumber (ofKeyNumber x) = x := by
  rw [keyNumber, bytes_ofKeyNumber,
    map_toNat_ofNat fun d hd => lt_of_mem_toDigits (by decide) hd, number_toDigits,
    Nat.mod_eq_of_lt h]

theorem ofKeyNumber_keyNumber (key : Block 32) : ofKeyNumber (keyNumber key) = key := by
  have hdigits := toDigits_number (by decide) (forall_toNat_lt key.bytes)
  rw [List.length_map, key.length_eq] at hdigits
  ext1
  rw [bytes_ofKeyNumber, keyNumber, hdigits, List.map_map]
  conv_rhs => rw [← List.map_id key.bytes]
  apply List.map_congr_left
  intro x _
  exact UInt8.ofNat_toNat

/-- The values of a key are the digits of the key with four zero bits behind it. -/
theorem valuesOfBytes_eq (key : Block 32) :
    valuesOfBytes key = some (toDigits 32 52 (keyNumber key * 16)) := by
  have hlen : (key.bytes.map UInt8.toNat).length = 32 := by simp
  obtain ⟨r, hr, hholds, hbits⟩ := exists_regroup (w := toValues) (by decide) (by decide)
    (forall_toNat_lt key.bytes) (by rw [hlen]; decide)
  have htotal : r.bits + 5 * r.out.length = 256 := by
    rw [show 256 = toValues.source * (key.bytes.map UInt8.toNat).length by rw [hlen]; rfl]
    exact hholds.bits_eq
  have hlt : r.bits < 5 := hbits
  have hone : r.bits = 1 := by omega
  have hout : r.out.length = 51 := by omega
  have hdigits : r.out = toDigits 32 51 (keyNumber key / 2) := by
    rw [hholds.out_eq, hout, hone]
    rfl
  have hlast : (r.acc <<< (5 - r.bits)) % 2 ^ 32 &&& 0x1f = keyNumber key * 16 % 32 := by
    have hacc : r.acc = keyNumber key % 2 ^ 32 := hholds.acc_eq
    rw [Nat.and_two_pow_sub_one_eq_mod _ 5, hacc, hone, Nat.shiftLeft_eq]
    omega
  rw [valuesOfBytes, hr]
  dsimp only
  rw [if_pos (by omega), if_pos (by omega), List.take_left' (by simp [hout]), hlast, hdigits,
    ← show keyNumber key * 16 / 32 = keyNumber key / 2 by omega]
  rfl

/-- The bytes of 52 values are those of their number, without four bits that have to be zero. -/
theorem bytesOfValues_eq {payload : List ℕ} (hlen : payload.length = 52)
    (hpayload : ∀ v ∈ payload, FiveBit v) :
    bytesOfValues payload =
      if number 32 payload % 16 = 0 then some (ofKeyNumber (number 32 payload / 16)) else none := by
  obtain ⟨r, hr, hholds, hbits⟩ := exists_regroup (w := toBytes) (by decide) (by decide)
    hpayload (by rw [hlen]; decide)
  have htotal : r.bits + 8 * r.out.length = 260 := by
    rw [show 260 = toBytes.source * payload.length by rw [hlen]; rfl]
    exact hholds.bits_eq
  have hlt : r.bits < 8 := hbits
  have hfour : r.bits = 4 := by omega
  have hout : r.out.length = 32 := by omega
  have hdigits : r.out = toDigits (2 ^ 8) 32 (number 32 payload / 16) := by
    rw [hholds.out_eq, hout, hfour]
    rfl
  have hpadding : r.acc &&& ((1 <<< r.bits) - 1) = number 32 payload % 16 := by
    have hacc : r.acc = number 32 payload % 2 ^ 32 := hholds.acc_eq
    rw [hfour, hacc, Nat.shiftLeft_eq, Nat.one_mul, Nat.and_two_pow_sub_one_eq_mod]
    omega
  rw [bytesOfValues, hr]
  dsimp only
  rw [hpadding, hdigits]
  by_cases hzero : number 32 payload % 16 = 0
  · rw [if_neg (by simp [hzero]), if_pos hzero, ofKeyNumber]
  · rw [if_pos (.inr hzero), if_neg hzero]

/-! ### The codec -/

theorem fiveBit_toDigits {n x : ℕ} (h : v ∈ toDigits 32 n x) : FiveBit v :=
  lt_of_mem_toDigits (by decide) h

def keyWord (key : Block 32) : List ℕ :=
  toDigits 32 52 (keyNumber key * 16) ++ checksumValues (toDigits 32 52 (keyNumber key * 16))

theorem fiveBit_keyWord (key : Block 32) : ∀ v ∈ keyWord key, FiveBit v := by
  intro v hv
  rcases List.mem_append.mp hv with hv | hv
  · exact fiveBit_toDigits hv
  · exact fiveBit_checksumValues hv

theorem length_keyWord (key : Block 32) : (keyWord key).length = 58 := by
  simp [keyWord, length_checksumValues]

theorem foldl_keyWord (key : Block 32) : (keyWord key).foldl polymodStep hrpChk = 1 := by
  apply (foldl_append_eq_one_iff _ _ _).mpr rfl
  · exact fun v hv => fiveBit_toDigits hv
  · exact length_checksumValues _
  · exact fun v hv => fiveBit_checksumValues hv

theorem eq_keyWord (hlen : values.length = 58) (hvalues : ∀ v ∈ values, FiveBit v)
    (hchk : values.foldl polymodStep hrpChk = 1)
    (hkey : bytesOfValues (values.take 52) = some key) : values = keyWord key := by
  have hpayload : ∀ v ∈ values.take 52, FiveBit v := fun v hv => hvalues v (List.mem_of_mem_take hv)
  have hsum : ∀ v ∈ values.drop 52, FiveBit v := fun v hv => hvalues v (List.mem_of_mem_drop hv)
  have hlen' : (values.take 52).length = 52 := by simp [hlen]
  rw [bytesOfValues_eq hlen' hpayload] at hkey
  split at hkey
  · rename_i hzero
    have hlt := number_lt (by decide) hpayload
    rw [hlen'] at hlt
    have hkeyNumber : keyNumber key = number 32 (values.take 52) / 16 := by
      rw [← Option.some.inj hkey]
      apply keyNumber_ofKeyNumber
      omega
    have hdigits : toDigits 32 52 (keyNumber key * 16) = values.take 52 := by
      rw [hkeyNumber, Nat.div_mul_cancel (Nat.dvd_of_mod_eq_zero hzero)]
      have hback := toDigits_number (by decide) hpayload
      rwa [hlen'] at hback
    rw [← List.take_append_drop 52 values] at hchk
    have hdrop := (foldl_append_eq_one_iff hpayload (by simp [hlen]) hsum).mp hchk
    rw [keyWord, hdigits, ← hdrop, List.take_append_drop]
  · cases hkey

theorem bytesOfValues_keyWord (key : Block 32) :
    bytesOfValues ((keyWord key).take 52) = some key := by
  have hlt : keyNumber key * 16 < 32 ^ 52 := by
    have := keyNumber_lt key
    omega
  rw [keyWord, List.take_left' (length_toDigits _ _ _),
    bytesOfValues_eq (length_toDigits _ _ _) fun v hv => fiveBit_toDigits hv, number_toDigits,
    Nat.mod_eq_of_lt hlt, Nat.mul_mod_left, if_pos rfl, Nat.mul_div_cancel _ (by decide),
    ofKeyNumber_keyNumber]

theorem npubToXOnly_eq_some_iff :
    npubToXOnly s = some key ↔ s.length = 63 ∧ s.take 5 = hrpSeparated ∧
      (s.drop 5).mapM (fun c => charsetRev (toAsciiLowercase c)) = some (keyWord key) := by
  rw [npubToXOnly, npubBech32Len]
  constructor
  · intro h
    split at h
    · cases h
    rename_i hshape
    rw [not_or, not_not, not_not] at hshape
    refine ⟨hshape.1, hshape.2, ?_⟩
    split at h
    · cases h
    · rename_i values hvalues
      split at h
      · cases h
      rename_i hchk
      have hlen : values.length = 58 := by
        rw [← (mapM_eq_some_iff.mp hvalues).length_eq, List.length_drop, hshape.1]
      rw [hlen] at h
      rw [hvalues, eq_keyWord hlen (mapM_charset_of_read hvalues).1 (not_not.mp hchk) h]
  · rintro ⟨hlen, hhrp, hvalues⟩
    rw [if_neg (by simp [hlen, hhrp]), hvalues]
    dsimp only
    rw [if_neg (by simp [foldl_keyWord]), length_keyWord]
    exact bytesOfValues_keyWord key

theorem xOnlyToNpub_eq_some {data : Bytes} (h : (keyWord key).mapM (charset[·]?) = some data) :
    xOnlyToNpub key = some (hrpSeparated ++ data) := by
  rw [xOnlyToNpub, valuesOfBytes_eq]
  dsimp only
  rw [← keyWord, h]

theorem npubToXOnly_xOnlyToNpub (key : Block 32) :
    ∃ npub, xOnlyToNpub key = some npub ∧ npubToXOnly npub = some key := by
  obtain ⟨data, hwrite, hread⟩ := exists_mapM_charset (fiveBit_keyWord key)
  have hlen : data.length = 58 := by
    rw [(mapM_eq_some_iff.mp hread).length_eq, length_keyWord]
  refine ⟨hrpSeparated ++ data, xOnlyToNpub_eq_some hwrite,
    npubToXOnly_eq_some_iff.mpr ⟨?_, ?_, ?_⟩⟩
  · rw [List.length_append, hlen]
    rfl
  · exact List.take_left' rfl
  · rwa [List.drop_left' (by rfl)]

/-- The text that is written for an accepted string is the string in lower case. -/
theorem xOnlyToNpub_npubToXOnly (h : npubToXOnly s = some key) :
    xOnlyToNpub key = some (s.take 5 ++ (s.drop 5).map toAsciiLowercase) := by
  obtain ⟨-, hhrp, hread⟩ := npubToXOnly_eq_some_iff.mp h
  rw [hhrp]
  exact xOnlyToNpub_eq_some (mapM_charset_of_read hread).2

/-! ### A changed character -/

theorem mapM_append_cons {α β : Type} {f : α → Option β} {before after : List α} {x : α}
    {ys : List β} (h : (before ++ x :: after).mapM f = some ys) :
    ∃ us v ws, before.mapM f = some us ∧ f x = some v ∧ after.mapM f = some ws ∧
      ys = us ++ v :: ws := by
  rw [List.mapM_append] at h
  obtain ⟨us, hus, h⟩ := Option.bind_eq_some_iff.mp h
  obtain ⟨vs, hvs, h⟩ := Option.bind_eq_some_iff.mp h
  rw [List.mapM_cons] at hvs
  obtain ⟨v, hv, hvs⟩ := Option.bind_eq_some_iff.mp hvs
  obtain ⟨ws, hws, hvs⟩ := Option.bind_eq_some_iff.mp hvs
  cases Option.some.inj h
  cases Option.some.inj hvs
  exact ⟨us, v, ws, hus, hv, hws, rfl⟩

theorem not_accepted_twice {before after : Bytes} {x y : UInt8} {key' : Block 32}
    (hx : (before ++ x :: after).mapM (fun c => charsetRev (toAsciiLowercase c)) =
      some (keyWord key))
    (hy : (before ++ y :: after).mapM (fun c => charsetRev (toAsciiLowercase c)) =
      some (keyWord key')) : charsetRev (toAsciiLowercase x) = charsetRev (toAsciiLowercase y) := by
  obtain ⟨us, v, ws, hus, hv, hws, hword⟩ := mapM_append_cons hx
  obtain ⟨us', w, ws', hus', hw, hws', hword'⟩ := mapM_append_cons hy
  cases Option.some.inj (hus.symm.trans hus')
  cases Option.some.inj (hws.symm.trans hws')
  have hfive : ∀ z ∈ us ++ v :: ws, FiveBit z := hword ▸ fiveBit_keyWord key
  have hfive' : ∀ z ∈ us ++ w :: ws, FiveBit z := hword' ▸ fiveBit_keyWord key'
  have heq : v = w := by
    by_contra hne
    have hbefore : ∀ z ∈ us, FiveBit z := fun z hz => hfive z (List.mem_append_left _ hz)
    have hafter : ∀ z ∈ ws, FiveBit z := fun z hz => hfive z (by simp [hz])
    have hseen := separates_polymodStep.foldl_replace_ne hrpChk_lt hbefore hafter
      (hfive v (by simp)) (hfive' w (by simp)) hne
    apply hseen
    rw [← hword, ← hword', foldl_keyWord, foldl_keyWord]
  rw [hv, hw, heq]

theorem npubToXOnly_set (h : npubToXOnly s = some key) {i : ℕ} (hi : 5 ≤ i) (hlt : i < 63)
    (hc : charsetRev (toAsciiLowercase c) ≠ charsetRev (toAsciiLowercase (s.getD i 0))) :
    npubToXOnly (s.set i c) = none := by
  obtain ⟨hlen, -, hread⟩ := npubToXOnly_eq_some_iff.mp h
  cases hset : npubToXOnly (s.set i c) with
  | none => rfl
  | some key' =>
      obtain ⟨-, -, hread'⟩ := npubToXOnly_eq_some_iff.mp hset
      have hs : s = s.take i ++ s.getD i 0 :: s.drop (i + 1) := by
        rw [List.getD_eq_getElem _ _ (by omega), List.getElem_cons_drop (by omega),
          List.take_append_drop]
      have hset' : s.set i c = s.take i ++ c :: s.drop (i + 1) := by
        rw [List.set_eq_take_append_cons_drop, if_pos (by omega)]
      have hdrop (x : UInt8) : (s.take i ++ x :: s.drop (i + 1)).drop 5 =
          (s.take i).drop 5 ++ x :: s.drop (i + 1) :=
        List.drop_append_of_le_length (by simp; omega)
      rw [hset', hdrop] at hread'
      rw [hs, hdrop] at hread
      exact absurd (not_accepted_twice hread hread').symm hc

/-- The codec of `npub` texts: a key is read back from its text, an accepted string is the text of
its key up to the case of the data part, and replacing one of the characters behind the
human-readable part by one with another value is seen. -/
theorem npub_codec :
    (∀ key : Block 32, ∃ npub, xOnlyToNpub key = some npub ∧ npubToXOnly npub = some key) ∧
    ∀ (s : Bytes) (key : Block 32), npubToXOnly s = some key →
      xOnlyToNpub key = some (s.take 5 ++ (s.drop 5).map toAsciiLowercase) ∧
      ∀ i, 5 ≤ i → i < 63 → ∀ c ∈ charset,
        charsetRev c ≠ charsetRev (toAsciiLowercase (s.getD i 0)) →
          npubToXOnly (s.set i c) = none := by
  refine ⟨npubToXOnly_xOnlyToNpub, ?_⟩
  intro s key h
  refine ⟨xOnlyToNpub_npubToXOnly h, ?_⟩
  intro i hi hlt c hmem hc
  have hlower : charset.all (fun c => toAsciiLowercase c == c) = true := by
    decide
  have hc' : toAsciiLowercase c = c := eq_of_beq (List.all_eq_true.mp hlower c hmem)
  apply npubToXOnly_set h hi hlt
  rwa [hc']

def sampleNpub : Bytes :=
  ascii ['n', 'p', 'u', 'b', '1', 'V', 'r', 'k', 'u', 's', '8', '9', 'j', 'j', 's', '0', '3', '0',
    'q', 'z', '3', '4', 'd', 'f', '6', 'e', '8', 'n', 'm', 'r', 'd', '9', '6', 'r', 'w', 'p', 'd',
    'e', '6', 'c', '3', 'e', 'c', 'w', 's', 'a', 'f', 'q', 'e', 'h', 'v', 'w', '7', 'm', '4', 'a',
    'q', 't', '7', 'p', '7', 'm', 'n']

/-- The sample is accepted, written back in lower case, and refused with another last character. -/
theorem npub_codec_sample :
    ∃ key, npubToXOnly sampleNpub = some key ∧ key.bytes.take 4 = [0x60, 0xed, 0xc8, 0x1c] ∧
      xOnlyToNpub key = some (hrpSeparated ++ (sampleNpub.drop 5).map toAsciiLowercase) ∧
      npubToXOnly (sampleNpub.set 62 (charset.getD 0 0)) = none := by
  obtain ⟨key, hkey⟩ := Option.isSome_iff_exists.mp
    (show (npubToXOnly sampleNpub).isSome by decide +kernel)
  obtain ⟨hback, hset⟩ := npub_codec.2 sampleNpub key hkey
  refine ⟨key, hkey, ?_, hback, hset 62 (by decide) (by decide) _ (by decide) (by decide)⟩
  have hbytes : (npubToXOnly sampleNpub).map (·.bytes.take 4) =
      some [0x60, 0xed, 0xc8, 0x1c] := by
    decide +kernel
  rw [hkey] at hbytes
  exact Option.some.inj hbytes

end Identity
end Microfips
