import Microfips.Data.Slice

/-!
# Writing into buffers

`copy_from_slice` into a part of a buffer panics where the part is not inside.  The writers of this
file return that panic.  Fields that are written one behind the other can all be read back.
-/

namespace Except

variable {ε α β : Type}

theorem exists_of_bind_eq_ok {x : Except ε α} {f : α → Except ε β} {b : β}
    (h : x >>= f = .ok b) : ∃ a, x = .ok a ∧ f a = .ok b := by
  cases x with
  | ok a => exact ⟨a, rfl, h⟩
  | error e => cases h

end Except

namespace Bytes

variable {ε : Type} {b c v : Bytes} {i j k : ℕ}

def plus (w a b : ℕ) : Except (Fault ε) ℕ :=
  if a + b < 2 ^ w then .ok (a + b) else .error .panic

theorem plus_eq_ok {w m n r : ℕ} (h : (plus w m n : Except (Fault ε) ℕ) = .ok r) :
    r = m + n ∧ m + n < 2 ^ w := by
  rw [plus] at h
  split at h
  · rename_i hlt
    exact ⟨(Except.ok.inj h).symm, hlt⟩
  · cases h

def copyInto (i : ℕ) (v b : Bytes) : Except (Fault ε) Bytes :=
  if i + v.length ≤ b.length then
    .ok (b.take i ++ (v ++ b.drop (i + v.length)))
  else
    .error .panic

theorem copyInto_eq_ok (h : (copyInto i v b : Except (Fault ε) Bytes) = .ok c) :
    i + v.length ≤ b.length ∧ c = b.take i ++ (v ++ b.drop (i + v.length)) := by
  rw [copyInto] at h
  split at h
  · rename_i hle
    exact ⟨hle, (Except.ok.inj h).symm⟩
  · cases h

/-- What a write leaves in front of itself, and what it writes. -/
theorem take_copyInto (h : (copyInto i v b : Except (Fault ε) Bytes) = .ok c) :
    c.take (i + v.length) = b.take i ++ v := by
  obtain ⟨hle, rfl⟩ := copyInto_eq_ok h
  have hi : (b.take i).length = i := List.length_take_of_le (by omega)
  rw [← List.append_assoc]
  exact List.take_left' (by rw [List.length_append, hi])

theorem take_copyInto_of_le (h : (copyInto i v b : Except (Fault ε) Bytes) = .ok c) (hj : j ≤ i) :
    c.take j = b.take j := by
  obtain ⟨hle, rfl⟩ := copyInto_eq_ok h
  have hi : (b.take i).length = i := List.length_take_of_le (by omega)
  rw [List.take_append_of_le_length (hi.symm ▸ hj), List.take_take, Nat.min_eq_left hj]

theorem slice_take (hjk : j ≤ k) : slice i j (b.take k) = slice i j b := by
  rw [slice, slice, List.drop_take, List.take_take, Nat.min_eq_left (Nat.sub_le_sub_right hjk i)]

theorem slice_of_isPrefix (h : b <+: c) (hj : j ≤ b.length) : slice i j c = slice i j b := by
  rw [List.prefix_iff_eq_take.mp h, slice_take hj]

theorem slice_copyInto (h : (copyInto i v b : Except (Fault ε) Bytes) = .ok c) :
    slice i (i + v.length) c = v := by
  have hi : (b.take i).length = i := List.length_take_of_le (by have := (copyInto_eq_ok h).1; omega)
  rw [← slice_take (le_refl _), take_copyInto h, slice, List.drop_left' hi, Nat.add_sub_cancel_left,
    List.take_length]

def copyAll (fields : List (ℕ × Bytes)) (b : Bytes) : Except (Fault ε) Bytes :=
  fields.foldlM (fun b f => copyInto f.1 f.2 b) b

variable {fields : List (ℕ × Bytes)}

theorem copyAll_cons_eq_ok {f : ℕ × Bytes}
    (h : (copyAll (f :: fields) b : Except (Fault ε) Bytes) = .ok c) :
    ∃ b', (copyInto f.1 f.2 b : Except (Fault ε) Bytes) = .ok b' ∧
      (copyAll fields b' : Except (Fault ε) Bytes) = .ok c := by
  rw [copyAll, List.foldlM_cons] at h
  exact Except.exists_of_bind_eq_ok h

theorem take_copyAll_of_le (h : (copyAll fields b : Except (Fault ε) Bytes) = .ok c)
    (hj : ∀ f ∈ fields, j ≤ f.1) : c.take j = b.take j := by
  induction fields generalizing b with
  | nil => rw [Except.ok.inj h]
  | cons f fields ih =>
      obtain ⟨b', hfirst, hrest⟩ := copyAll_cons_eq_ok h
      rw [ih hrest fun g hg => hj g (.tail f hg), take_copyInto_of_le hfirst (hj f (.head _))]

/-- Fields that are written in the order of their offsets do not overwrite each other. -/
theorem slice_copyAll (h : (copyAll fields b : Except (Fault ε) Bytes) = .ok c)
    (hordered : fields.Pairwise fun f g => f.1 + f.2.length ≤ g.1) {f : ℕ × Bytes}
    (hf : f ∈ fields) : slice f.1 (f.1 + f.2.length) c = f.2 := by
  induction fields generalizing b with
  | nil => cases hf
  | cons g fields ih =>
      obtain ⟨b', hfirst, hrest⟩ := copyAll_cons_eq_ok h
      obtain ⟨hbehind, hordered⟩ := List.pairwise_cons.mp hordered
      cases hf with
      | head =>
          rw [← slice_take (le_refl _), take_copyAll_of_le hrest hbehind, slice_take (le_refl _),
            slice_copyInto hfirst]
      | tail _ hf => exact ih hrest hordered hf

end Bytes
