import Microfips.Data.Bytes

/-!
# Names in DNS messages

A name is a row of labels, each behind the byte that counts it, and ends at a zero byte or at a
compression pointer: two bytes whose upper two bits are set and whose other bits are the offset at
which the name goes on.  Pointers may point anywhere, so that a name need not have an end.
-/

namespace Dns

abbrev IsPointer (x : UInt8) : Prop :=
  x &&& 0xC0 = 0xC0

def target (hi lo : UInt8) : ℕ :=
  (hi &&& 0x3F).toNat <<< 8 ||| lo.toNat

/-- The name at an offset ends in front of another one.  A pointer is not followed. -/
inductive Skips (packet : Bytes) : ℕ → ℕ → Prop
  | root {off : ℕ} (hbyte : packet[off]? = some 0) : Skips packet off (off + 1)
  | pointer {off : ℕ} {hi lo : UInt8} (hhi : packet[off]? = some hi) (hpointer : IsPointer hi)
      (hlo : packet[off + 1]? = some lo) : Skips packet off (off + 2)
  | label {off last : ℕ} {len : UInt8} (hlen : packet[off]? = some len) (hpos : len ≠ 0)
      (hle : len.toNat ≤ 63) (hrest : Skips packet (off + 1 + len.toNat) last) :
      Skips packet off last

/-- The labels of the name at an offset, read through a number of pointers. -/
inductive NameAt (packet : Bytes) : ℕ → ℕ → List Bytes → Prop
  | root {off : ℕ} (hbyte : packet[off]? = some 0) : NameAt packet 0 off []
  | pointer {hops off : ℕ} {hi lo : UInt8} {labels : List Bytes} (hhi : packet[off]? = some hi)
      (hpointer : IsPointer hi) (hlo : packet[off + 1]? = some lo)
      (hrest : NameAt packet hops (target hi lo) labels) : NameAt packet (hops + 1) off labels
  | label {hops off : ℕ} {len : UInt8} {labels : List Bytes} (hlen : packet[off]? = some len)
      (hpos : len ≠ 0) (hle : len.toNat ≤ 63) (hin : off + 1 + len.toNat ≤ packet.length)
      (hrest : NameAt packet hops (off + 1 + len.toNat) labels) :
      NameAt packet hops off (Bytes.slice (off + 1) (off + 1 + len.toNat) packet :: labels)

variable {packet : Bytes} {off last hops : ℕ} {x : UInt8} {labels : List Bytes}

theorem not_isPointer_zero : ¬ IsPointer 0 := by
  decide

theorem IsPointer.lt (h : IsPointer x) : 63 < x.toNat := by
  have hand : x.toNat &&& 192 = 192 := congrArg UInt8.toNat h
  have hle : x.toNat &&& 192 ≤ x.toNat := Nat.and_le_left
  omega

theorem not_isPointer_of_le (h : x.toNat ≤ 63) : ¬ IsPointer x :=
  fun hpointer => hpointer.lt.not_ge h

/-! The byte at the offset says how a name goes on. -/

section Cases

variable {len hi : UInt8}

theorem not_skips_of_none (h : packet[off]? = none) : ¬ Skips packet off last := by
  intro hskips
  cases hskips <;> simp_all

theorem skips_iff_of_zero (h : packet[off]? = some 0) : Skips packet off last ↔ last = off + 1 := by
  constructor
  · intro hskips
    cases hskips with
    | root => rfl
    | pointer hhi hpointer =>
        exact absurd (Option.some.inj (h.symm.trans hhi) ▸ hpointer) not_isPointer_zero
    | label hlen hpos => exact absurd (Option.some.inj (hlen.symm.trans h)) hpos
  · rintro rfl
    exact .root h

theorem skips_iff_of_pointer (h : packet[off]? = some hi) (hpointer : IsPointer hi) :
    Skips packet off last ↔ off + 2 ≤ packet.length ∧ last = off + 2 := by
  constructor
  · intro hskips
    cases hskips with
    | root hbyte =>
        exact absurd (Option.some.inj (h.symm.trans hbyte) ▸ hpointer) not_isPointer_zero
    | pointer _ _ hlo => exact ⟨(List.getElem?_eq_some_iff.mp hlo).1, rfl⟩
    | label hlen _ hle =>
        exact absurd (Option.some.inj (h.symm.trans hlen) ▸ hpointer) (not_isPointer_of_le hle)
  · rintro ⟨hin, rfl⟩
    exact .pointer h hpointer (List.getElem?_eq_getElem (by omega))

theorem skips_iff_of_label (h : packet[off]? = some len) (hpos : len ≠ 0)
    (hpointer : ¬ IsPointer len) :
    Skips packet off last ↔ len.toNat ≤ 63 ∧ Skips packet (off + 1 + len.toNat) last := by
  constructor
  · intro hskips
    cases hskips with
    | root hbyte => exact absurd (Option.some.inj (h.symm.trans hbyte)) hpos
    | pointer hhi hp => exact absurd (Option.some.inj (h.symm.trans hhi) ▸ hp) hpointer
    | label hlen _ hle hrest =>
        cases Option.some.inj (h.symm.trans hlen)
        exact ⟨hle, hrest⟩
  · rintro ⟨hle, hrest⟩
    exact .label h hpos hle hrest

theorem not_nameAt_of_none (h : packet[off]? = none) : ¬ NameAt packet hops off labels := by
  intro hname
  cases hname <;> simp_all

theorem nameAt_iff_of_zero (h : packet[off]? = some 0) :
    NameAt packet hops off labels ↔ hops = 0 ∧ labels = [] := by
  constructor
  · intro hname
    cases hname with
    | root => exact ⟨rfl, rfl⟩
    | pointer hhi hpointer =>
        exact absurd (Option.some.inj (h.symm.trans hhi) ▸ hpointer) not_isPointer_zero
    | label hlen hpos => exact absurd (Option.some.inj (hlen.symm.trans h)) hpos
  · rintro ⟨rfl, rfl⟩
    exact .root h

theorem nameAt_iff_of_pointer (h : packet[off]? = some hi) (hpointer : IsPointer hi) :
    NameAt packet hops off labels ↔ ∃ lo rest, packet[off + 1]? = some lo ∧ hops = rest + 1 ∧
      NameAt packet rest (target hi lo) labels := by
  constructor
  · intro hname
    cases hname with
    | root hbyte =>
        exact absurd (Option.some.inj (h.symm.trans hbyte) ▸ hpointer) not_isPointer_zero
    | pointer hhi _ hlo hrest =>
        cases Option.some.inj (h.symm.trans hhi)
        exact ⟨_, _, hlo, rfl, hrest⟩
    | label hlen _ hle =>
        exact absurd (Option.some.inj (h.symm.trans hlen) ▸ hpointer) (not_isPointer_of_le hle)
  · rintro ⟨lo, rest, hlo, rfl, hrest⟩
    exact .pointer h hpointer hlo hrest

theorem nameAt_iff_of_label (h : packet[off]? = some len) (hpos : len ≠ 0)
    (hpointer : ¬ IsPointer len) :
    NameAt packet hops off labels ↔ len.toNat ≤ 63 ∧ off + 1 + len.toNat ≤ packet.length ∧
      ∃ rest, labels = Bytes.slice (off + 1) (off + 1 + len.toNat) packet :: rest ∧
        NameAt packet hops (off + 1 + len.toNat) rest := by
  constructor
  · intro hname
    cases hname with
    | root hbyte => exact absurd (Option.some.inj (h.symm.trans hbyte)) hpos
    | pointer hhi hp => exact absurd (Option.some.inj (h.symm.trans hhi) ▸ hp) hpointer
    | label hlen _ hle hin hrest =>
        cases Option.some.inj (h.symm.trans hlen)
        exact ⟨hle, hin, _, rfl, hrest⟩
  · rintro ⟨hle, hin, rest, rfl, hrest⟩
    exact .label h hpos hle hin hrest

end Cases

theorem Skips.of_isPrefix {p q : Bytes} (hpq : p <+: q) (h : Skips p off last) :
    Skips q off last := by
  obtain ⟨rest, rfl⟩ := hpq
  have hget : ∀ {i : ℕ} {x : UInt8}, p[i]? = some x → (p ++ rest)[i]? = some x := by
    intro i x hx
    rw [List.getElem?_append_left (List.getElem?_eq_some_iff.mp hx).1, hx]
  induction h with
  | root hbyte => exact .root (hget hbyte)
  | pointer hhi hpointer hlo => exact .pointer (hget hhi) hpointer (hget hlo)
  | label hlen hpos hle _ ih => exact .label (hget hlen) hpos hle ih

def encodeLabel (label : Bytes) : Bytes :=
  UInt8.ofNat label.length :: label

def encodeName (labels : List Bytes) : Bytes :=
  labels.flatMap encodeLabel ++ [0]

def Wellformed (labels : List Bytes) : Prop :=
  ∀ label ∈ labels, 0 < label.length ∧ label.length ≤ 63

@[simp]
theorem encodeName_nil : encodeName [] = [0] :=
  rfl

@[simp]
theorem encodeName_cons (label : Bytes) (labels : List Bytes) :
    encodeName (label :: labels) = encodeLabel label ++ encodeName labels := by
  rw [encodeName, List.flatMap_cons, List.append_assoc, encodeName]

@[simp]
theorem length_encodeLabel (label : Bytes) : (encodeLabel label).length = label.length + 1 :=
  rfl

theorem toNat_ofNat_length {label : Bytes} (h : label.length ≤ 255) :
    (UInt8.ofNat label.length).toNat = label.length := by
  rw [UInt8.toNat_ofNat', Nat.mod_eq_of_lt (by omega)]

theorem length_flatMap_encodeLabel_le {n : ℕ} (h : ∀ label ∈ labels, label.length ≤ n) :
    (labels.flatMap encodeLabel).length ≤ labels.length * (n + 1) := by
  induction labels with
  | nil => exact Nat.zero_le _
  | cons label labels ih =>
      obtain ⟨hlabel, hrest⟩ := List.forall_mem_cons.mp h
      have := ih hrest
      rw [List.flatMap_cons, List.length_append, length_encodeLabel, List.length_cons, Nat.succ_mul]
      omega

theorem skips_encodeName (before behind : Bytes) (h : Wellformed labels) :
    Skips (before ++ (encodeName labels ++ behind)) before.length
      (before.length + (encodeName labels).length) := by
  induction labels generalizing before with
  | nil => exact .root (by simp)
  | cons label labels ih =>
      obtain ⟨⟨hpos, hle⟩, hrest⟩ := List.forall_mem_cons.mp h
      have hlen := toNat_ofNat_length (hle.trans (by omega : 63 ≤ 255))
      have hbyte : (before ++ (encodeName (label :: labels) ++ behind))[before.length]? =
          some (UInt8.ofNat label.length) := by
        simp [encodeLabel]
      have hne : UInt8.ofNat label.length ≠ 0 := by
        intro hzero
        rw [hzero] at hlen
        exact hpos.ne hlen
      have htail := ih (before ++ encodeLabel label) hrest
      rw [List.append_assoc, ← List.append_assoc (encodeLabel label), ← encodeName_cons,
        List.length_append, length_encodeLabel] at htail
      refine .label hbyte hne (hlen.trans_le hle) ?_
      rw [hlen, encodeName_cons, List.length_append, length_encodeLabel, ← encodeName_cons]
      convert htail using 1 <;> omega

end Dns
