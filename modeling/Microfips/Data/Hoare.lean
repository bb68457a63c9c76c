import Microfips.Data.Slice

/-!
# Code that does not panic

Pre- and postconditions for code that changes its state, fails with an error or panics.  A panic
meets no postcondition, so that a rule never has to split on it.
-/

namespace Except

variable {ε ε' α β : Type}

/-- The call does not panic, and what it returns has the property `Q`. -/
def Safe (Q : α → Prop) : Except (Fault ε) α → Prop
  | .ok a => Q a
  | .error (.err _) => True
  | .error .panic => False

namespace Safe

variable {Q Q' : α → Prop} {R : β → Prop}

variable {x : Except (Fault ε) α}

theorem cases (hx : x.Safe Q) : (∃ a, x = .ok a ∧ Q a) ∨ ∃ e, x = .error (.err e) := by
  cases x with
  | ok a => exact .inl ⟨a, rfl, hx⟩
  | error e =>
      cases e with
      | err e => exact .inr ⟨e, rfl⟩
      | panic => exact hx.elim

theorem ne_panic (hx : x.Safe Q) : x ≠ .error .panic := by
  rintro rfl
  exact hx

theorem mono (hx : x.Safe Q) (h : ∀ a, Q a → Q' a) : x.Safe Q' := by
  cases x with
  | ok a => exact h a hx
  | error e => cases e <;> exact hx

theorem bind {f : α → Except (Fault ε) β} (hx : x.Safe Q) (hf : ∀ a, Q a → (f a).Safe R) :
    (x >>= f).Safe R := by
  cases x with
  | ok a => exact hf a hx
  | error e => cases e <;> exact hx

theorem mapError (hx : x.Safe Q) (g : ε → ε') : (x.mapError (Fault.map g)).Safe Q := by
  cases x with
  | ok a => exact hx
  | error e => cases e <;> exact hx

theorem lift {x : Except ε α} (h : ∀ a, x = .ok a → Q a) : (Fault.lift x).Safe Q := by
  cases x with
  | ok a => exact h a rfl
  | error e => trivial

end Safe
end Except

namespace Bytes

variable {ε : Type}

variable {b : Bytes} {i : ℕ}

theorem safe_index (h : i < b.length) :
    (index b i : Except (Fault ε) UInt8).Safe fun x => x = b.getD i 0 := by
  simp [index_eq_ok h, Except.Safe, List.getD, h]

theorem safe_range {j : ℕ} (hij : i ≤ j) (hj : j ≤ b.length) :
    (range b i j : Except (Fault ε) Bytes).Safe fun x => x = slice i j b := by
  simp [range_eq_ok hij hj, Except.Safe]

theorem safe_indexU16 (h : i + 2 ≤ b.length) :
    (indexU16 b i : Except (Fault ε) ℕ).Safe
      fun x => x = (b.getD i 0).toNat + 256 * (b.getD (i + 1) 0).toNat := by
  refine (safe_index (by omega)).bind fun lo hlo => ?_
  refine (safe_index (by omega)).bind fun hi hhi => ?_
  rw [hlo, hhi]
  rfl

end Bytes

namespace EStateM

variable {ε ε' σ τ α β : Type}

/-- The run returned with `Q` or failed with an error in a state with `E`. -/
def Result.Meets (Q : α → σ → Prop) (E : σ → Prop) : Result (Fault ε) σ α → Prop
  | .ok a t => Q a t
  | .error (.err _) t => E t
  | .error .panic _ => False

theorem Result.Meets.mapState {Q : α → τ → Prop} {E : τ → Prop} {f : σ → τ}
    {r : Result (Fault ε) σ α} (h : r.Meets (fun a t => Q a (f t)) fun t => E (f t)) :
    (r.mapState f).Meets Q E := by
  cases r with
  | ok a t => exact h
  | error e t => cases e <;> exact h

/-- The run of `m` from `s` returns with `Q` or fails with an error in a state with `E`. -/
def Meets (s : σ) (Q : α → σ → Prop) (E : σ → Prop) (m : EStateM (Fault ε) σ α) : Prop :=
  (m.run s).Meets Q E

namespace Meets

variable {s : σ} {Q Q' : α → σ → Prop} {R : β → σ → Prop} {E E' : σ → Prop}

variable {a : α} {m : EStateM (Fault ε) σ α} {t : σ} {f : α → EStateM (Fault ε) σ β}

theorem pure (h : Q a s) : Meets s Q E (pure a : EStateM (Fault ε) σ α) :=
  h

theorem throw_err {e : ε} (h : E s) : Meets s Q E (throw (.err e) : EStateM (Fault ε) σ α) :=
  h

theorem cases (h : m.Meets s Q E) :
    (∃ a t, m.run s = .ok a t ∧ Q a t) ∨ ∃ e t, m.run s = .error (.err e) t ∧ E t := by
  unfold Meets at h
  cases hrun : m.run s with
  | ok a t =>
      rw [hrun] at h
      exact .inl ⟨a, t, rfl, h⟩
  | error e t =>
      rw [hrun] at h
      cases e with
      | err e => exact .inr ⟨e, t, rfl, h⟩
      | panic => exact h.elim

theorem of_run_ok (h : m.Meets s Q E) (hrun : m.run s = .ok a t) : Q a t := by
  rw [Meets, hrun] at h
  exact h

theorem of_ok (hrun : m.run s = .ok a t) (h : Q a t) : m.Meets s Q E := by
  rw [Meets, hrun]
  exact h

theorem of_err {e : ε} (hrun : m.run s = .error (.err e) t) (h : E t) : m.Meets s Q E := by
  rw [Meets, hrun]
  exact h

theorem mono (hm : m.Meets s Q E) (hQ : ∀ a t, Q a t → Q' a t) (hE : ∀ t, E t → E' t) :
    m.Meets s Q' E' := by
  obtain ⟨a, t, hrun, h⟩ | ⟨e, t, hrun, h⟩ := hm.cases
  · exact .of_ok hrun (hQ a t h)
  · exact .of_err hrun (hE t h)

theorem bind (hm : m.Meets s Q E) (hf : ∀ a t, Q a t → (f a).Meets t R E) :
    (m >>= f).Meets s R E := by
  obtain ⟨a, t, hrun, h⟩ | ⟨e, t, hrun, h⟩ := hm.cases
  · rw [Meets, EStateM.run_bind_ok hrun]
    exact hf a t h
  · exact .of_err (EStateM.run_bind_error hrun) h

theorem get_bind {f : σ → EStateM (Fault ε) σ β} (h : (f s).Meets s R E) :
    (get >>= f).Meets s R E :=
  h

theorem set_bind {f : PUnit → EStateM (Fault ε) σ β} (h : (f ⟨⟩).Meets t R E) :
    (set t >>= f).Meets s R E :=
  h

theorem modify_bind {g : σ → σ} {f : PUnit → EStateM (Fault ε) σ β}
    (h : (f ⟨⟩).Meets (g s) R E) : (modify g >>= f).Meets s R E :=
  h

theorem ofExcept_bind {x : Except ε α} (hE : E s) (h : ∀ a, x = .ok a → (f a).Meets s R E) :
    (ofExcept x >>= f).Meets s R E := by
  cases x with
  | ok a => exact h a rfl
  | error e => exact hE

theorem unwrap_bind (h : (f a).Meets s R E) : (unwrap (some a) >>= f).Meets s R E :=
  h

/-- The code on a component meets what the code on the whole has to meet. -/
theorem zoom {view : σ → τ} {put : τ → σ → σ} {m : EStateM (Fault ε) τ α}
    (h : m.Meets (view s) (fun a t => Q a (put t s)) fun t => E (put t s)) :
    (zoom view put m).Meets s Q E := by
  obtain ⟨a, t, hrun, h⟩ | ⟨e, t, hrun, h⟩ := h.cases
  · exact .of_ok (by rw [zoom_run, hrun]) h
  · exact .of_err (by rw [zoom_run, hrun]) h

theorem zoom_modify_bind {view : σ → τ} {put : τ → σ → σ} {g : τ → τ}
    {f : PUnit → EStateM (Fault ε) σ β} (h : (f ⟨⟩).Meets (put (g (view s)) s) R E) :
    (EStateM.zoom view put (modify g) >>= f).Meets s R E :=
  h

theorem mapErr (f : ε → ε) (h : m.Meets s Q E) : (mapErr f m).Meets s Q E := by
  obtain ⟨a, t, hrun, h⟩ | ⟨e, t, hrun, h⟩ := h.cases
  · exact .of_ok (by rw [mapErr_run, hrun]) h
  · exact .of_err (by rw [mapErr_run, hrun]) h

theorem mapErr_ofExcept_bind {x : Except ε α} {g : ε → ε} (hE : E s)
    (h : ∀ a, x = .ok a → (f a).Meets s R E) :
    (EStateM.mapErr g (ofExcept x) >>= f).Meets s R E := by
  cases x with
  | ok a => exact h a rfl
  | error e => exact hE

theorem ignore (h : m.Meets s (fun _ t => E' t) E') : (ignore m).Meets s (fun _ t => E' t) E := by
  obtain ⟨a, t, hrun, h⟩ | ⟨e, t, hrun, h⟩ := h.cases
  · exact .of_ok (a := ⟨⟩) (by rw [EStateM.run, EStateM.ignore, hrun]; rfl) h
  · exact .of_ok (a := ⟨⟩) (by rw [EStateM.run, EStateM.ignore, hrun]; rfl) h

theorem call (h : m.Meets s Q E) : (m.call s).Safe fun r => Q r.1 r.2 := by
  obtain ⟨a, t, hrun, h⟩ | ⟨e, t, hrun, -⟩ := h.cases
  · rw [EStateM.call, hrun]
    exact h
  · rw [EStateM.call, hrun]
    trivial

end Meets

/-- From a state with `I` the code does not panic, `I` holds where it returns or fails, and what it
returns has the property `Q`. -/
def Provides (I : σ → Prop) (Q : α → Prop) (m : EStateM (Fault ε) σ α) : Prop :=
  ∀ s, I s → m.Meets s (fun a t => I t ∧ Q a) I

/-- From a state with `I` the code does not panic, and `I` holds where it returns or fails. -/
def Maintains (I : σ → Prop) (m : EStateM (Fault ε) σ α) : Prop :=
  ∀ s, I s → m.Meets s (fun _ t => I t) I

section Invariant

variable {I : σ → Prop} {Q Q' : α → Prop} {R : β → Prop}

namespace Maintains

theorem pure (a : α) : Maintains I (pure a : EStateM (Fault ε) σ α) :=
  fun _ hs => hs

theorem throw_err (e : ε) : Maintains I (throw (.err e) : EStateM (Fault ε) σ α) :=
  fun _ hs => hs

theorem modify {f : σ → σ} (h : ∀ s, I s → I (f s)) :
    Maintains I (modify f : EStateM (Fault ε) σ PUnit) :=
  h

variable {m : EStateM (Fault ε) σ α}

theorem bind {f : α → EStateM (Fault ε) σ β} (hm : Maintains I m) (hf : ∀ a, Maintains I (f a)) :
    Maintains I (m >>= f) :=
  fun s hs => (hm s hs).bind fun a t ht => hf a t ht

theorem get_bind {f : σ → EStateM (Fault ε) σ β}
    (hf : ∀ s, I s → (f s).Meets s (fun _ t => I t) I) : Maintains I (get >>= f) :=
  hf

theorem provides_bind {f : α → EStateM (Fault ε) σ β} (hm : Maintains I m)
    (hf : ∀ a, Provides I R (f a)) : Provides I R (m >>= f) :=
  fun s hs => (hm s hs).bind fun a t ht => hf a t ht

theorem of_forall {ι : Type} {J : ι → σ → Prop} (hm : ∀ i, Maintains (J i) m) :
    Maintains (fun s => ∃ i, J i s) m := by
  rintro s ⟨i, hs⟩
  exact (hm i s hs).mono (fun _ _ ht => ⟨i, ht⟩) fun _ ht => ⟨i, ht⟩

end Maintains

namespace Provides

theorem pure {a : α} (ha : Q a) : Provides I Q (pure a : EStateM (Fault ε) σ α) :=
  fun _ hs => ⟨hs, ha⟩

theorem throw_err (e : ε) : Provides I Q (throw (.err e) : EStateM (Fault ε) σ α) :=
  fun _ hs => hs

theorem bind {m : EStateM (Fault ε) σ α} {f : α → EStateM (Fault ε) σ β} (hm : Provides I Q m)
    (hf : ∀ a, Q a → Provides I R (f a)) : Provides I R (m >>= f) :=
  fun s hs => (hm s hs).bind fun a t ht => hf a ht.2 t ht.1

theorem get_bind {f : σ → EStateM (Fault ε) σ β}
    (hf : ∀ s, I s → (f s).Meets s (fun a t => I t ∧ R a) I) : Provides I R (get >>= f) :=
  hf

theorem maintains_bind {m : EStateM (Fault ε) σ α} {f : α → EStateM (Fault ε) σ β}
    (hm : Provides I Q m) (hf : ∀ a, Q a → Maintains I (f a)) : Maintains I (m >>= f) :=
  fun s hs => (hm s hs).bind fun a t ht => hf a ht.2 t ht.1

end Provides
end Invariant
end EStateM
