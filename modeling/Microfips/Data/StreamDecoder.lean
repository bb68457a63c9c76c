import Mathlib.Data.List.Basic

/-!
# Decoders of a stream

A decoder takes units off the front of a stream.  What it finds does not depend on how the stream
is cut: feeding it one chunk after another, and keeping what is not a whole unit yet, gives the
units of the whole stream.
-/

/-- A decoder: the next unit and how many symbols it takes, nothing as long as the unit is not
complete.  What is behind a unit does not change it. -/
structure StreamDecoder (α β : Type) where
  next : List α → Option (β × ℕ)
  pos : ∀ {xs : List α} {b : β} {n : ℕ}, next xs = some (b, n) → 0 < n
  le_length : ∀ {xs : List α} {b : β} {n : ℕ}, next xs = some (b, n) → n ≤ xs.length
  next_append : ∀ {xs : List α} {b : β} {n : ℕ} (ys : List α), next xs = some (b, n) →
    next (xs ++ ys) = some (b, n)

namespace StreamDecoder

variable {α β : Type} (D : StreamDecoder α β)

/-- The units at the front of a stream, and what is left where no further unit is complete. -/
inductive Decodes : List α → List β → List α → Prop where
  | stop {xs : List α} (h : D.next xs = none) : Decodes xs [] xs
  | step {xs rest : List α} {b : β} {n : ℕ} {bs : List β} (h : D.next xs = some (b, n))
      (htail : Decodes (xs.drop n) bs rest) : Decodes xs (b :: bs) rest

variable {D}

theorem next_nil : D.next [] = none := by
  cases h : D.next [] with
  | none => rfl
  | some r =>
      have hpos := D.pos h
      have hle := D.le_length h
      simp at hle
      omega

namespace Decodes

variable {xs ys rest rest' : List α} {bs cs : List β}

theorem unique (h : D.Decodes xs bs rest) (h' : D.Decodes xs cs rest') :
    bs = cs ∧ rest = rest' := by
  induction h generalizing cs with
  | stop hnext =>
      cases h' with
      | stop => exact ⟨rfl, rfl⟩
      | step hnext' => rw [hnext] at hnext'; cases hnext'
  | step hnext _ ih =>
      cases h' with
      | stop hnext' => rw [hnext] at hnext'; cases hnext'
      | step hnext' htail' =>
          obtain ⟨rfl, rfl⟩ := Prod.mk.inj (Option.some.inj (hnext.symm.trans hnext'))
          obtain ⟨rfl, rfl⟩ := ih htail'
          exact ⟨rfl, rfl⟩

theorem append (h : D.Decodes xs bs rest) (h' : D.Decodes (rest ++ ys) cs rest') :
    D.Decodes (xs ++ ys) (bs ++ cs) rest' := by
  induction h with
  | stop => exact h'
  | step hnext _ ih =>
      apply Decodes.step (D.next_append ys hnext)
      rw [List.drop_append_of_le_length (D.le_length hnext)]
      exact ih h'

theorem next_rest (h : D.Decodes xs bs rest) : D.next rest = none := by
  induction h with
  | stop hnext => exact hnext
  | step _ _ ih => exact ih

end Decodes

theorem exists_decodes (D : StreamDecoder α β) (xs : List α) :
    ∃ bs rest, D.Decodes xs bs rest := by
  induction hlen : xs.length using Nat.strongRecOn generalizing xs with
  | ind len ih =>
      cases hnext : D.next xs with
      | none => exact ⟨[], xs, .stop hnext⟩
      | some r =>
          have hpos := D.pos hnext
          have hle := D.le_length hnext
          obtain ⟨bs, rest, htail⟩ := ih (xs.drop r.2).length (by simp; omega) _ rfl
          exact ⟨r.1 :: bs, rest, .step hnext htail⟩

/-- Units that are decoded chunk by chunk, from what was left of the chunks before. -/
inductive Feeds (D : StreamDecoder α β) : List α → List (List α) → List β → List α → Prop where
  | nil (held : List α) : Feeds D held [] [] held
  | cons {held held' rest chunk : List α} {chunks : List (List α)} {bs cs : List β}
      (h : D.Decodes (held ++ chunk) bs held') (htail : Feeds D held' chunks cs rest) :
      Feeds D held (chunk :: chunks) (bs ++ cs) rest

theorem exists_feeds (D : StreamDecoder α β) (held : List α) (chunks : List (List α)) :
    ∃ bs rest, D.Feeds held chunks bs rest := by
  induction chunks generalizing held with
  | nil => exact ⟨[], held, .nil held⟩
  | cons chunk chunks ih =>
      obtain ⟨bs, held', hchunk⟩ := D.exists_decodes (held ++ chunk)
      obtain ⟨cs, rest, htail⟩ := ih held'
      exact ⟨bs ++ cs, rest, .cons hchunk htail⟩

theorem Feeds.decodes {held rest : List α} {chunks : List (List α)} {bs : List β}
    (h : D.Feeds held chunks bs rest) (hheld : D.next held = none) :
    D.Decodes (held ++ chunks.flatten) bs rest := by
  induction h with
  | nil held => simpa using Decodes.stop hheld
  | cons hchunk _ ih =>
      rw [List.flatten_cons, ← List.append_assoc]
      exact hchunk.append (ih hchunk.next_rest)

end StreamDecoder
