import Microfips.Data.Bytes

/-!
# Text as bytes

The bytes of a `&str`, what `str::from_utf8` makes of bytes, the removal of a beginning and of white
space.  A text whose bytes are all below 128 is those bytes.
-/

namespace Bytes

/-- The bytes of a `&str`. -/
def ofString (s : String) : Bytes :=
  s.toByteArray.data.toList

def fromUtf8 (b : Bytes) : Option String :=
  String.fromUTF8? ⟨b.toArray⟩

theorem fromUtf8_ofString (s : String) : fromUtf8 (ofString s) = some s := by
  have hbytes : ByteArray.mk (ofString s).toArray = s.toByteArray := by
    rw [ofString, Array.toArray_toList]
  rw [fromUtf8, hbytes, String.fromUTF8?, dif_pos s.isValidUTF8]
  rfl

theorem ofString_append (s t : String) : ofString (s ++ t) = ofString s ++ ofString t := by
  rw [ofString, String.toByteArray_append, ByteArray.data_append, Array.toList_append]
  rfl

theorem ofString_ofList (cs : List Char) :
    ofString (String.ofList cs) = cs.flatMap String.utf8EncodeChar := by
  rw [ofString, String.toByteArray_ofList, List.utf8Encode]
  simp

theorem utf8EncodeChar_of_lt {c : Char} (h : c.toNat < 128) :
    String.utf8EncodeChar c = [UInt8.ofNat c.toNat] :=
  if_pos (Nat.le_of_lt_succ h)

/-- Any other character has a byte of 128 or more. -/
theorem exists_mem_utf8EncodeChar {c : Char} (h : 128 ≤ c.toNat) :
    ∃ b ∈ String.utf8EncodeChar c, 128 ≤ b.toNat := by
  have hlarge : ∀ x : ℕ, x < 64 → 128 ≤ (UInt8.ofNat (x + 128)).toNat := by
    intro x hx
    rw [UInt8.toNat_ofNat']
    omega
  -- the last byte holds the six lowest bits, whatever the length
  refine ⟨UInt8.ofNat (c.toNat % 64 + 128), ?_, hlarge _ (Nat.mod_lt _ (by decide))⟩
  unfold String.utf8EncodeChar
  change 128 ≤ c.val.toNat at h
  change UInt8.ofNat (c.val.toNat % 64 + 128) ∈ _
  dsimp only
  rw [if_neg (by omega)]
  split_ifs <;> simp

theorem ofString_of_forall_lt {cs : List Char} (h : ∀ c ∈ cs, c.toNat < 128) :
    ofString (String.ofList cs) = cs.map fun c => UInt8.ofNat c.toNat := by
  rw [ofString_ofList]
  induction cs with
  | nil => rfl
  | cons c cs ih =>
      rw [List.forall_mem_cons] at h
      rw [List.flatMap_cons, utf8EncodeChar_of_lt h.1, ih h.2]
      rfl

theorem forall_lt_of_ofString {cs : List Char}
    (h : ∀ b ∈ ofString (String.ofList cs), b.toNat < 128) : ∀ c ∈ cs, c.toNat < 128 := by
  intro c hc
  by_contra hge
  obtain ⟨b, hb, hlarge⟩ := exists_mem_utf8EncodeChar (Nat.le_of_not_lt hge)
  have hmem : b ∈ ofString (String.ofList cs) := by
    rw [ofString_ofList]
    exact List.mem_flatMap.mpr ⟨c, hc, hb⟩
  have := h b hmem
  omega

end Bytes

namespace Text

/-- `s.strip_prefix(start)`. -/
def stripPrefix (s start : String) : Option String :=
  if start.toList <+: s.toList then
    some (String.ofList (s.toList.drop start.toList.length))
  else
    none

theorem stripPrefix_append (start s : String) : stripPrefix (start ++ s) start = some s := by
  rw [stripPrefix, String.toList_append, if_pos (List.prefix_append _ _), List.drop_left,
    String.ofList_toList]

theorem stripPrefix_of_not {s start : String} (h : ¬ start.toList <+: s.toList) :
    stripPrefix s start = none :=
  if_neg h

/-- `b as char`. -/
def asChar (b : UInt8) : Char :=
  Char.ofNat b.toNat

theorem toNat_asChar (b : UInt8) : (asChar b).toNat = b.toNat := by
  have hvalid : b.toNat.isValidChar := Or.inl (b.toNat_lt.trans (by decide))
  rw [asChar, Char.ofNat, dif_pos hvalid]
  rfl

theorem asChar_ofNat {c : Char} (h : c.toNat < 128) : asChar (UInt8.ofNat c.toNat) = c := by
  apply Char.toNat_inj.mp
  rw [toNat_asChar, UInt8.toNat_ofNat']
  exact Nat.mod_eq_of_lt (by omega)

/-- The bytes of a text of one-byte characters, read as characters. -/
theorem map_asChar_ofString {cs : List Char} (h : ∀ c ∈ cs, c.toNat < 128) :
    (Bytes.ofString (String.ofList cs)).map asChar = cs := by
  rw [Bytes.ofString_of_forall_lt h, List.map_map]
  calc cs.map (asChar ∘ fun c => UInt8.ofNat c.toNat) = cs.map id :=
        List.map_congr_left fun c hc => asChar_ofNat (h c hc)
    _ = cs := List.map_id cs

def isWhitespace (c : Char) : Bool :=
  let v := c.toNat
  (0x9 ≤ v && v ≤ 0xd) || v == 0x20 || v == 0x85 || v == 0xa0 || v == 0x1680 ||
    (0x2000 ≤ v && v ≤ 0x200a) || v == 0x2028 || v == 0x2029 || v == 0x202f || v == 0x205f ||
    v == 0x3000

/-- `s.trim()`, on the characters. -/
def trim (cs : List Char) : List Char :=
  ((cs.dropWhile isWhitespace).reverse.dropWhile isWhitespace).reverse

end Text
