import Mathlib.Data.List.Nodup
import Microfips.Data.Hex

/-!
# The peer allowlist

`PeerAllowlist` of `fips-identity` and its parser: a comma-separated list of compressed public keys
in hexadecimal.  Keys are compared without their first byte, the sign.  A list is refused as a whole
when one of its entries is.
-/

namespace Microfips
namespace Identity

def peerAllowlistMax : ℕ := 16

/-- `k[1..33]`: a key without its sign. -/
def xOnly (npub : Block 33) : Bytes :=
  npub.bytes.drop 1

structure PeerAllowlist where
  npubs : List (Block 33)
  length_le : npubs.length ≤ peerAllowlistMax
  nodup : (npubs.map xOnly).Nodup

namespace PeerAllowlist

def new : PeerAllowlist where
  npubs := []
  length_le := Nat.zero_le _
  nodup := List.nodup_nil

def contains (list : PeerAllowlist) (npub : Block 33) : Bool :=
  list.npubs.any fun k => xOnly k == xOnly npub

theorem contains_iff {list : PeerAllowlist} {npub : Block 33} :
    list.contains npub = true ↔ xOnly npub ∈ list.npubs.map xOnly := by
  simp [contains]

def insert (list : PeerAllowlist) (npub : Block 33) : Bool × PeerAllowlist :=
  if h : list.contains npub = true ∨ list.npubs.length = peerAllowlistMax then
    (false, list)
  else
    (true, {
      npubs := list.npubs ++ [npub]
      length_le := by
        have hle := list.length_le
        rw [List.length_append, List.length_singleton]
        omega
      nodup := by
        rw [not_or, contains_iff] at h
        rw [List.map_append, List.nodup_append_comm]
        exact List.nodup_cons.mpr ⟨h.1, list.nodup⟩ })

end PeerAllowlist

def decodeNpub (s : String) : Option (Block 33) :=
  let bytes := Bytes.ofString s
  if bytes.length ≠ 66 then
    none
  else do
    let npub ← Hex.decode (bytes.map Text.asChar)
    if npub.head? ≠ some 0x02 ∧ npub.head? ≠ some 0x03 then none
    else some (Block.ofBytes 33 npub)

/-- The loop of `parse_peer_allowlist`. -/
def insertParts : PeerAllowlist → List (List Char) → Option PeerAllowlist
  | list, [] => some list
  | list, part :: parts => do
      let npub ← decodeNpub (String.ofList (Text.trim part))
      let (inserted, list) := list.insert npub
      if inserted then insertParts list parts else none

def parsePeerAllowlist (s : String) : Option PeerAllowlist := do
  let list ← insertParts .new (s.toList.splitOn ',')
  if list.npubs.isEmpty then none else some list

section Decode

structure IsKeyText (cs : List Char) : Prop where
  length_eq : cs.length = 66
  isDigit : ∀ c ∈ cs, Hex.isDigit c = true
  sign : cs.take 2 = ['0', '2'] ∨ cs.take 2 = ['0', '3']

def keyOf (cs : List Char) : Block 33 :=
  Block.ofBytes 33 (Hex.bytes cs)

def xOnlyText (cs : List Char) : Bytes :=
  Hex.bytes (cs.drop 2)

variable {cs : List Char} {npub : Block 33}

/-- The bytes of a text of digits are its characters, and no other text has such bytes. -/
theorem decode_ofString_iff {b : Bytes} (hlen : (Bytes.ofString (String.ofList cs)).length = 66) :
    Hex.decode ((Bytes.ofString (String.ofList cs)).map Text.asChar) = some b ↔
      cs.length = 66 ∧ (∀ c ∈ cs, Hex.isDigit c = true) ∧ b = Hex.bytes cs := by
  have heven : ((Bytes.ofString (String.ofList cs)).map Text.asChar).length % 2 = 0 := by
    rw [List.length_map, hlen]
  rw [Hex.decode_iff heven]
  constructor
  · rintro ⟨hdigits, rfl⟩
    have hascii : ∀ c ∈ cs, c.toNat < 128 := by
      apply Bytes.forall_lt_of_ofString
      intro x hx
      rw [← Text.toNat_asChar]
      exact Hex.toNat_lt_of_isDigit (hdigits _ (List.mem_map_of_mem hx))
    have hmap := Text.map_asChar_ofString hascii
    rw [hmap] at hdigits ⊢
    refine ⟨?_, hdigits, rfl⟩
    rw [← hlen, ← List.length_map Text.asChar, hmap]
  · rintro ⟨-, hdigits, rfl⟩
    rw [Text.map_asChar_ofString fun c hc => Hex.toNat_lt_of_isDigit (hdigits c hc)]
    exact ⟨hdigits, rfl⟩

theorem length_ofString_of_isDigit (h : ∀ c ∈ cs, Hex.isDigit c = true) :
    (Bytes.ofString (String.ofList cs)).length = cs.length := by
  rw [Bytes.ofString_of_forall_lt fun c hc => Hex.toNat_lt_of_isDigit (h c hc), List.length_map]

theorem head_bytes_iff {c d : Char} (hc : Hex.isDigit c = true) (hd : Hex.isDigit d = true)
    (rest : List Char) {v : Char} (hv : 48 ≤ v.toNat ∧ v.toNat < 58) :
    (Hex.bytes (c :: d :: rest)).head? = some (UInt8.ofNat (v.toNat - 48)) ↔
      [c, d] = ['0', v] := by
  have hc' := Hex.value_lt hc
  have hd' := Hex.value_lt hd
  rw [Hex.bytes, List.head?_cons, Option.some.injEq, List.cons.injEq, List.cons.injEq,
    ← Char.toNat_inj, ← Char.toNat_inj, ← UInt8.toNat_inj, UInt8.toNat_ofNat', UInt8.toNat_ofNat']
  have hzero := Hex.value_eq_iff hc (show 0 < 10 by decide)
  have hlow := Hex.value_eq_iff hd (show v.toNat - 48 < 10 by omega)
  have hchar : '0'.toNat = 48 := rfl
  simp only [and_true, hchar]
  omega

theorem exists_cons_cons (hlen : cs.length = 66) : ∃ c d rest, cs = c :: d :: rest := by
  obtain ⟨c, tail, rfl⟩ := List.exists_cons_of_length_eq_add_one hlen
  obtain ⟨d, rest, rfl⟩ := List.exists_cons_of_length_eq_add_one (Nat.succ.inj hlen)
  exact ⟨c, d, rest, rfl⟩

theorem sign_iff (hlen : cs.length = 66) (hdigits : ∀ c ∈ cs, Hex.isDigit c = true) :
    ¬ ((Hex.bytes cs).head? ≠ some 0x02 ∧ (Hex.bytes cs).head? ≠ some 0x03) ↔
      cs.take 2 = ['0', '2'] ∨ cs.take 2 = ['0', '3'] := by
  obtain ⟨c, d, rest, rfl⟩ := exists_cons_cons hlen
  rw [List.forall_mem_cons, List.forall_mem_cons] at hdigits
  have htwo := head_bytes_iff (v := '2') hdigits.1 hdigits.2.1 rest (by decide)
  have hthree := head_bytes_iff (v := '3') hdigits.1 hdigits.2.1 rest (by decide)
  rw [not_and_or, not_not, not_not]
  exact or_congr htwo hthree

theorem decodeNpub_iff :
    decodeNpub (String.ofList cs) = some npub ↔ IsKeyText cs ∧ npub = keyOf cs := by
  unfold decodeNpub
  dsimp only
  constructor
  · intro h
    split at h
    · cases h
    · next hlen =>
        rw [not_not] at hlen
        obtain ⟨b, hb, h⟩ := Option.bind_eq_some_iff.mp h
        obtain ⟨hlen', hdigits, rfl⟩ := (decode_ofString_iff hlen).mp hb
        split at h
        · cases h
        · next hsign =>
            cases h
            exact ⟨⟨hlen', hdigits, (sign_iff hlen' hdigits).mp hsign⟩, rfl⟩
  · rintro ⟨⟨hlen, hdigits, hsign⟩, rfl⟩
    have hbytes := (length_ofString_of_isDigit hdigits).trans hlen
    rw [if_neg (not_not.mpr hbytes), (decode_ofString_iff hbytes).mpr ⟨hlen, hdigits, rfl⟩]
    exact if_neg ((sign_iff hlen hdigits).mpr hsign)

theorem xOnly_keyOf (h : IsKeyText cs) : xOnly (keyOf cs) = xOnlyText cs := by
  have hlen : (Hex.bytes cs).length = 33 := by rw [Hex.length_bytes, h.length_eq]
  obtain ⟨c, d, rest, rfl⟩ := exists_cons_cons h.length_eq
  rw [xOnly, keyOf, Block.ofBytes_bytes_of_length_eq hlen]
  rfl

end Decode

section Parse

variable {list list' : PeerAllowlist} {parts : List (List Char)} {npub : Block 33}

theorem PeerAllowlist.of_insert (h : list.insert npub = (true, list')) :
    list'.npubs = list.npubs ++ [npub] := by
  unfold insert at h
  split at h
  · cases h
  · cases h
    rfl

theorem PeerAllowlist.insert_of_new (hnew : xOnly npub ∉ list.npubs.map xOnly)
    (hlen : list.npubs.length < peerAllowlistMax) : ∃ list', list.insert npub = (true, list') := by
  unfold insert
  rw [dif_neg]
  · exact ⟨_, rfl⟩
  · rw [not_or, contains_iff]
    exact ⟨hnew, hlen.ne⟩

theorem of_insertParts (h : insertParts list parts = some list') :
    (∀ part ∈ parts, IsKeyText (Text.trim part)) ∧
      list'.npubs = list.npubs ++ parts.map fun part => keyOf (Text.trim part) := by
  induction parts generalizing list with
  | nil =>
      cases h
      exact ⟨List.forall_mem_nil _, (List.append_nil _).symm⟩
  | cons part parts ih =>
      rw [insertParts] at h
      obtain ⟨npub, hnpub, h⟩ := Option.bind_eq_some_iff.mp h
      obtain ⟨hkey, rfl⟩ := decodeNpub_iff.mp hnpub
      split at h
      next inserted next hinsert =>
      split at h
      · next htrue =>
          rw [htrue] at hinsert
          obtain ⟨hkeys, hnpubs⟩ := ih h
          rw [PeerAllowlist.of_insert hinsert, List.append_assoc] at hnpubs
          exact ⟨List.forall_mem_cons.mpr ⟨hkey, hkeys⟩, hnpubs⟩
      · cases h

theorem insertParts_of_keys (list : PeerAllowlist)
    (hkeys : ∀ part ∈ parts, IsKeyText (Text.trim part))
    (hlen : list.npubs.length + parts.length ≤ peerAllowlistMax)
    (hnodup : (list.npubs.map xOnly ++ parts.map fun part => xOnlyText (Text.trim part)).Nodup) :
    ∃ list', insertParts list parts = some list' := by
  induction parts generalizing list with
  | nil => exact ⟨list, rfl⟩
  | cons part parts ih =>
      rw [List.forall_mem_cons] at hkeys
      rw [List.length_cons] at hlen
      rw [List.map_cons, ← xOnly_keyOf hkeys.1] at hnodup
      have hfresh : xOnly (keyOf (Text.trim part)) ∉ list.npubs.map xOnly := fun hmem =>
        List.disjoint_of_nodup_append hnodup hmem List.mem_cons_self
      obtain ⟨next, hnext⟩ := PeerAllowlist.insert_of_new hfresh (by omega)
      have hnpubs := PeerAllowlist.of_insert hnext
      obtain ⟨list', hlist'⟩ := ih next hkeys.2
        (by rw [hnpubs, List.length_append, List.length_singleton]; omega)
        (by rwa [hnpubs, List.map_append, List.append_assoc])
      refine ⟨list', ?_⟩
      rw [insertParts, decodeNpub_iff.mpr ⟨hkeys.1, rfl⟩, Option.bind_eq_bind, Option.bind_some,
        hnext]
      exact hlist'

end Parse

def allowlistParts (s : String) : List (List Char) :=
  (s.toList.splitOn ',').map Text.trim

theorem of_parsePeerAllowlist {s : String} {list : PeerAllowlist}
    (h : parsePeerAllowlist s = some list) :
    (∀ part ∈ allowlistParts s, IsKeyText part) ∧
      list.npubs = (allowlistParts s).map keyOf := by
  rw [parsePeerAllowlist] at h
  obtain ⟨built, hbuilt, h⟩ := Option.bind_eq_some_iff.mp h
  split at h
  · cases h
  · cases h
    obtain ⟨hkeys, hnpubs⟩ := of_insertParts hbuilt
    rw [allowlistParts, List.forall_mem_map, List.map_map]
    exact ⟨hkeys, hnpubs⟩

theorem map_xOnly_keyOf {parts : List (List Char)} (h : ∀ part ∈ parts, IsKeyText part) :
    (parts.map keyOf).map xOnly = parts.map xOnlyText := by
  rw [List.map_map]
  exact List.map_congr_left fun part hpart => xOnly_keyOf (h part hpart)

theorem exists_parsePeerAllowlist {s : String} (hkeys : ∀ part ∈ allowlistParts s, IsKeyText part)
    (hlen : (allowlistParts s).length ≤ peerAllowlistMax)
    (hnodup : ((allowlistParts s).map xOnlyText).Nodup) :
    ∃ list, parsePeerAllowlist s = some list := by
  rw [allowlistParts, List.forall_mem_map] at hkeys
  rw [allowlistParts, List.length_map] at hlen
  rw [allowlistParts, List.map_map] at hnodup
  obtain ⟨list, hlist⟩ := insertParts_of_keys .new hkeys
    ((Nat.zero_add _).trans_le hlen) hnodup
  refine ⟨list, ?_⟩
  have hne : list.npubs ≠ [] := by
    rw [(of_insertParts hlist).2, Ne, List.append_eq_nil_iff, List.map_eq_nil_iff, not_and]
    exact fun _ => List.splitOn_ne_nil ',' s.toList
  rw [parsePeerAllowlist, hlist, Option.bind_eq_bind, Option.bind_some,
    List.isEmpty_eq_false_iff.mpr hne]
  rfl

/-- A list is returned if and only if every part is a key in hexadecimal, there are at most sixteen
and no two are the same key up to the sign; and it contains these keys, with either sign. -/
theorem parsePeerAllowlist_iff (s : String) :
    ((∃ list, parsePeerAllowlist s = some list) ↔
      (∀ part ∈ allowlistParts s, IsKeyText part) ∧
        (allowlistParts s).length ≤ peerAllowlistMax ∧
          ((allowlistParts s).map xOnlyText).Nodup) ∧
    ∀ list, parsePeerAllowlist s = some list →
      ∀ k, list.contains k = true ↔ xOnly k ∈ (allowlistParts s).map xOnlyText := by
  constructor
  · constructor
    · rintro ⟨list, hlist⟩
      obtain ⟨hkeys, hnpubs⟩ := of_parsePeerAllowlist hlist
      refine ⟨hkeys, ?_, ?_⟩
      · rw [← List.length_map keyOf, ← hnpubs]
        exact list.length_le
      · rw [← map_xOnly_keyOf hkeys, ← hnpubs]
        exact list.nodup
    · rintro ⟨hkeys, hlen, hnodup⟩
      exact exists_parsePeerAllowlist hkeys hlen hnodup
  · intro list hlist k
    obtain ⟨hkeys, hnpubs⟩ := of_parsePeerAllowlist hlist
    rw [PeerAllowlist.contains_iff, hnpubs, map_xOnly_keyOf hkeys]

def plainKey (sign digit : Char) : List Char :=
  '0' :: sign :: List.replicate 64 digit

theorem isKeyText_plainKey {sign digit : Char} (hsign : sign = '2' ∨ sign = '3')
    (hdigit : Hex.isDigit digit = true) : IsKeyText (plainKey sign digit) where
  length_eq := rfl
  isDigit := by
    rw [plainKey, List.forall_mem_cons, List.forall_mem_cons]
    refine ⟨by decide, ?_, fun c hc => List.eq_of_mem_replicate hc ▸ hdigit⟩
    rcases hsign with rfl | rfl <;> decide
  sign := by
    rcases hsign with rfl | rfl
    · exact Or.inl rfl
    · exact Or.inr rfl

/-- Two keys with white space around the comma; the first one is found with the other sign. -/
theorem parsePeerAllowlist_iff_two :
    ∃ list, parsePeerAllowlist
        (String.ofList (plainKey '2' 'a' ++ [' ', ',', ' '] ++ plainKey '3' 'B')) = some list ∧
      list.contains (keyOf (plainKey '3' 'A')) = true := by
  have hparts : allowlistParts
      (String.ofList (plainKey '2' 'a' ++ [' ', ',', ' '] ++ plainKey '3' 'B')) =
        [plainKey '2' 'a', plainKey '3' 'B'] := by
    rw [allowlistParts, String.toList_ofList]
    decide +kernel
  obtain ⟨hiff, hcontains⟩ := parsePeerAllowlist_iff
    (String.ofList (plainKey '2' 'a' ++ [' ', ',', ' '] ++ plainKey '3' 'B'))
  rw [hparts] at hiff hcontains
  have hkeys : ∀ part ∈ [plainKey '2' 'a', plainKey '3' 'B'], IsKeyText part := by
    rw [List.forall_mem_cons, List.forall_mem_singleton]
    exact ⟨isKeyText_plainKey (Or.inl rfl) (by decide), isKeyText_plainKey (Or.inr rfl) (by decide)⟩
  obtain ⟨list, hlist⟩ := hiff.mpr ⟨hkeys, by decide, by decide +kernel⟩
  refine ⟨list, hlist, (hcontains list hlist _).mpr ?_⟩
  rw [xOnly_keyOf (isKeyText_plainKey (Or.inr rfl) (by decide))]
  decide +kernel

end Identity
end Microfips
