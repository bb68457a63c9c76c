import Microfips.Data.StreamDecoder
import Microfips.Wire.Frame

/-!
# Frames on a byte stream

The length-prefixed framing of `node.rs` as a decoder of streams, the stream that `send_frame`
writes, and what the frame loop of `steady` takes from its buffer in terms of the decoder.
-/

namespace Microfips
namespace Wire

variable {frame : Bytes}

/-- What `extract_length_prefixed_frame` gives, branch by branch. -/
theorem extractLengthPrefixedFrame_cases {data : Bytes} {n : ℕ}
    (h : extractLengthPrefixedFrame data = some (frame, n)) :
    2 ≤ data.length ∧
      ((frame = [] ∧ n = 2 ∧
          (Bytes.toNat (data.take 2) = 0 ∨ maxFrame < Bytes.toNat (data.take 2))) ∨
        (n = 2 + Bytes.toNat (data.take 2) ∧ n ≤ data.length ∧ frame = Bytes.slice 2 n data ∧
          0 < Bytes.toNat (data.take 2) ∧ Bytes.toNat (data.take 2) ≤ maxFrame)) := by
  rw [extractLengthPrefixedFrame] at h
  split at h
  · cases h
  · rename_i hlen
    have htwo : 2 ≤ data.length := by omega
    refine ⟨htwo, ?_⟩
    simp only at h
    split at h
    · rename_i hml
      obtain ⟨rfl, rfl⟩ := Prod.mk.inj (Option.some.inj h)
      exact .inl ⟨rfl, by omega, hml⟩
    · split at h
      · cases h
      · obtain ⟨rfl, rfl⟩ := Prod.mk.inj (Option.some.inj h)
        exact .inr ⟨rfl, by omega, rfl, by omega, by omega⟩

theorem extractLengthPrefixedFrame_append {data : Bytes} {n : ℕ} (more : Bytes)
    (h : extractLengthPrefixedFrame data = some (frame, n)) :
    extractLengthPrefixedFrame (data ++ more) = some (frame, n) := by
  obtain ⟨htwo, hcases⟩ := extractLengthPrefixedFrame_cases h
  have htake : (data ++ more).take 2 = data.take 2 := List.take_append_of_le_length htwo
  rw [extractLengthPrefixedFrame, if_neg (by simp; omega)]
  simp only [htake]
  rcases hcases with ⟨rfl, rfl, hml⟩ | ⟨hn, hle, rfl, hpos, hmax⟩
  · rw [if_pos hml, List.length_append]
    congr 2
    omega
  · rw [if_neg (by omega), if_neg (by simp; omega), hn]
    simp only [Bytes.slice]
    rw [List.drop_append_of_le_length htwo, List.take_append_of_le_length (by simp; omega)]

/-- `extract_length_prefixed_frame` as a decoder; a bad length is an empty frame. -/
def lengthPrefixed : StreamDecoder UInt8 Bytes where
  next := extractLengthPrefixedFrame
  pos h := by
    obtain ⟨-, ⟨-, rfl, -⟩ | ⟨rfl, -⟩⟩ := extractLengthPrefixedFrame_cases h <;> omega
  le_length h := by
    obtain ⟨htwo, ⟨-, rfl, -⟩ | ⟨-, hle, -⟩⟩ := extractLengthPrefixedFrame_cases h
    · exact htwo
    · exact hle
  next_append := extractLengthPrefixedFrame_append

theorem lengthPrefixed_next (data : Bytes) :
    lengthPrefixed.next data = extractLengthPrefixedFrame data :=
  rfl

/-- What `send_frame` writes for a frame. -/
def encodeFrame (frame : Bytes) : Bytes :=
  Bytes.ofNat 2 frame.length ++ frame

def encodeStream (frames : List Bytes) : Bytes :=
  frames.flatMap encodeFrame

def Carried (frame : Bytes) : Prop :=
  1 ≤ frame.length ∧ frame.length ≤ maxFrame

instance (frame : Bytes) : Decidable (Carried frame) :=
  inferInstanceAs (Decidable (_ ∧ _))

theorem filter_ne_nil_of_carried {frames : List Bytes} (h : ∀ frame ∈ frames, Carried frame) :
    frames.filter (· ≠ []) = frames := by
  apply List.filter_eq_self.mpr
  intro frame hframe
  have hlen : 1 ≤ frame.length := (h frame hframe).1
  simp only [ne_eq, decide_eq_true_eq]
  rintro rfl
  cases hlen

theorem next_encodeFrame_append (h : Carried frame) (more : Bytes) :
    lengthPrefixed.next (encodeFrame frame ++ more) = some (frame, 2 + frame.length) := by
  have hmax : frame.length ≤ 1500 := h.2
  have htake : (encodeFrame frame ++ more).take 2 = Bytes.ofNat 2 frame.length := by
    rw [encodeFrame, List.append_assoc]
    exact List.take_left' (Bytes.ofNat_length 2 _)
  have hlen : Bytes.toNat (Bytes.ofNat 2 frame.length) = frame.length := by
    rw [Bytes.toNat_ofNat]
    exact Nat.mod_eq_of_lt (by omega)
  have hsize : (encodeFrame frame ++ more).length = 2 + frame.length + more.length := by
    simp [encodeFrame, Nat.add_assoc]
  rw [lengthPrefixed_next, extractLengthPrefixedFrame, if_neg (by omega)]
  simp only [htake, hlen]
  rw [if_neg (by have := h.1; simp only [maxFrame]; omega), if_neg (by omega)]
  congr 2
  rw [Bytes.slice, encodeFrame, List.append_assoc,
    List.drop_left' (Bytes.ofNat_length 2 _), Nat.add_sub_cancel_left, List.take_left]

theorem decodes_encodeStream {frames : List Bytes} (h : ∀ frame ∈ frames, Carried frame) :
    lengthPrefixed.Decodes (encodeStream frames) frames [] := by
  induction frames with
  | nil => exact .stop StreamDecoder.next_nil
  | cons frame frames ih =>
      have hnext := next_encodeFrame_append (h frame List.mem_cons_self) (encodeStream frames)
      apply StreamDecoder.Decodes.step hnext
      have hdrop : (encodeFrame frame ++ encodeStream frames).drop (2 + frame.length) =
          encodeStream frames := List.drop_left' (by simp [encodeFrame])
      rw [hdrop]
      exact ih fun f hf => h f (List.mem_cons_of_mem _ hf)

theorem length_le_of_next_eq_none {held : Bytes} (h : lengthPrefixed.next held = none) :
    held.length ≤ maxFrame + 1 := by
  by_contra hlong
  have hmax : maxFrame = 1500 := rfl
  rw [lengthPrefixed_next, extractLengthPrefixedFrame, if_neg (by omega)] at h
  simp only at h
  split at h
  · cases h
  · split at h
    · omega
    · cases h

/-- The frame loop of `steady` on a length-prefixed stream: the frames that are not empty, and the
place at which no further frame is complete. -/
theorem splitFrames_decodes (build : Build) (data : Bytes) {fuel pos : ℕ}
    (hpos : pos ≤ data.length) (hfuel : data.length ≤ pos + fuel) :
    ∃ units, lengthPrefixed.Decodes (data.drop pos) units
        (data.drop (splitFrames build false data fuel pos).2) ∧
      (splitFrames build false data fuel pos).1 = units.filter (· ≠ []) ∧
      (splitFrames build false data fuel pos).2 ≤ data.length := by
  induction fuel generalizing pos with
  | zero =>
      have hend : pos = data.length := by omega
      subst hend
      exact ⟨[], by simpa [splitFrames] using .stop StreamDecoder.next_nil, rfl, hpos⟩
  | succ fuel ih =>
      rw [splitFrames]
      by_cases hlt : pos < data.length
      · simp only [hlt, ↓reduceIte, Bool.false_eq_true]
        cases hnext : extractLengthPrefixedFrame (data.drop pos) with
        | none => exact ⟨[], .stop hnext, rfl, hpos⟩
        | some r =>
            obtain ⟨frame, n⟩ := r
            have hn := lengthPrefixed.pos hnext
            have hle := lengthPrefixed.le_length hnext
            rw [List.length_drop] at hle
            have hpos' : pos + n ≤ data.length := by omega
            obtain ⟨units, hunits, hframes, hstop⟩ := ih hpos' (by omega)
            rw [← List.drop_drop] at hunits
            refine ⟨frame :: units, ?_, ?_, ?_⟩
            · dsimp only
              split <;> exact .step hnext hunits
            · dsimp only
              by_cases hframe : frame = []
              · simp [hframe, hframes]
              · simp [hframe, hframes]
            · dsimp only
              split <;> exact hstop
      · have hend : pos = data.length := by omega
        subst hend
        exact ⟨[], by simpa using .stop StreamDecoder.next_nil, by simp, by simp⟩

end Wire
end Microfips
