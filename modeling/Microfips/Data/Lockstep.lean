import Microfips.Data.Fallible

/-!
# One program from two states

A program that is run from two related states, and does the same in both runs: they return the
same value or fail with the same error, and the states behind are related again.  The relation
says which part of the state the program may not look at.  A program that writes to that part
ends in a finer relation than it began in, and an error may end it before.
-/

namespace EStateM

variable {ε σ τ α β : Type} {R T U E F : σ → σ → Prop}

/-- Two results with the same value or the same error, in related states. -/
def Result.Matches (R E : σ → σ → Prop) : Result ε σ α → Result ε σ α → Prop
  | .ok a s, .ok b t => a = b ∧ R s t
  | .error e s, .error f t => e = f ∧ E s t
  | _, _ => False

/-- From states related by `R`, two runs of `m` do the same: they return in states related by `T`
or fail in states related by `E`. -/
def InStep (R T E : σ → σ → Prop) (m : EStateM ε σ α) : Prop :=
  ∀ ⦃s t⦄, R s t → (m.run s).Matches T E (m.run t)

/-- Two states that differ in one component only, which is related by `Q`. -/
def Through (view : σ → τ) (put : τ → σ → σ) (Q : τ → τ → Prop) (s t : σ) : Prop :=
  ∃ u, Q (view s) u ∧ t = put u s

namespace InStep

variable {m : EStateM ε σ α}

theorem exists_ok (hm : InStep R T E m) {s t s' : σ} (hR : R s t) {a : α}
    (hrun : m.run s = .ok a s') : ∃ t', m.run t = .ok a t' ∧ T s' t' := by
  have h := hm hR
  rw [hrun] at h
  cases ht : m.run t with
  | ok b t' =>
      rw [ht] at h
      obtain ⟨rfl, hT⟩ := h
      exact ⟨t', rfl, hT⟩
  | error f t' =>
      rw [ht] at h
      cases h

theorem exists_error (hm : InStep R T E m) {s t s' : σ} (hR : R s t) {e : ε}
    (hrun : m.run s = .error e s') : ∃ t', m.run t = .error e t' ∧ E s' t' := by
  have h := hm hR
  rw [hrun] at h
  cases ht : m.run t with
  | ok b t' =>
      rw [ht] at h
      cases h
  | error f t' =>
      rw [ht] at h
      obtain ⟨rfl, hE⟩ := h
      exact ⟨t', rfl, hE⟩

theorem mono (hm : InStep R T E m) (hE : ∀ ⦃s t⦄, E s t → F s t) : InStep R T F m := by
  intro s t hR
  cases hs : m.run s with
  | ok a s' =>
      obtain ⟨t', ht, hT⟩ := hm.exists_ok hR hs
      rw [ht]
      exact ⟨rfl, hT⟩
  | error e s' =>
      obtain ⟨t', ht, hF⟩ := hm.exists_error hR hs
      rw [ht]
      exact ⟨rfl, hE hF⟩

theorem pure (a : α) : InStep R R E (pure a : EStateM ε σ α) :=
  fun _ _ hR => ⟨rfl, hR⟩

theorem throw (e : ε) (hE : ∀ ⦃s t⦄, R s t → E s t) : InStep R T E (throw e : EStateM ε σ α) :=
  fun _ _ hR => ⟨rfl, hE hR⟩

theorem bind {f : α → EStateM ε σ β} (hm : InStep R T E m) (hf : ∀ a, InStep T U E (f a)) :
    InStep R U E (m >>= f) := by
  intro s t hR
  cases hs : m.run s with
  | ok a s' =>
      obtain ⟨t', ht, hT⟩ := hm.exists_ok hR hs
      rw [run_bind_ok hs, run_bind_ok ht]
      exact hf a hT
  | error e s' =>
      obtain ⟨t', ht, hE⟩ := hm.exists_error hR hs
      rw [run_bind_error hs, run_bind_error ht]
      exact ⟨rfl, hE⟩

theorem get_bind {f : σ → EStateM ε σ α} (hread : ∀ ⦃s t⦄, R s t → f s = f t)
    (hf : ∀ s, InStep R T E (f s)) : InStep R T E (get >>= f) := by
  intro s t hR
  rw [run_get_bind, run_get_bind, ← hread hR]
  exact hf s hR

theorem modify {g : σ → σ} (hg : ∀ ⦃s t⦄, R s t → T (g s) (g t)) :
    InStep R T E (modify g : EStateM ε σ PUnit) :=
  fun _ _ hR => ⟨rfl, hg hR⟩

theorem ofExcept (x : Except ε α) (hE : ∀ ⦃s t⦄, R s t → E s t) :
    InStep R R E (ofExcept x : EStateM (Fault ε) σ α) := by
  cases x with
  | ok a => exact pure a
  | error e => exact throw _ hE

theorem unwrap (x : Option α) (hE : ∀ ⦃s t⦄, R s t → E s t) :
    InStep R R E (unwrap x : EStateM (Fault ε) σ α) := by
  cases x with
  | none => exact throw _ hE
  | some a => exact pure a

theorem zoom {view : σ → τ} {put : τ → σ → σ} {Q : τ → τ → Prop} {m : EStateM ε τ α}
    (hview : ∀ a s, view (put a s) = a) (hput : ∀ a b s, put a (put b s) = put a s)
    (hm : InStep Q Q Q m) :
    InStep (Through view put Q) (Through view put Q) (Through view put Q) (zoom view put m) := by
  rintro s _ ⟨u, hu, rfl⟩
  rw [zoom_run, zoom_run, hview]
  cases hs : m.run (view s) with
  | ok a s' =>
      obtain ⟨t', ht, hQ⟩ := hm.exists_ok hu hs
      rw [ht]
      exact ⟨rfl, t', by rwa [hview], by rw [hput, hput]⟩
  | error e s' =>
      obtain ⟨t', ht, hQ⟩ := hm.exists_error hu hs
      rw [ht]
      exact ⟨rfl, t', by rwa [hview], by rw [hput, hput]⟩

theorem ignore {m : EStateM (Fault ε) σ α} (hm : InStep R R R m) : InStep R R R (ignore m) := by
  intro s t hR
  rw [EStateM.run, EStateM.run, EStateM.ignore, EStateM.ignore]
  cases hs : m.run s with
  | ok a s' =>
      obtain ⟨t', ht, hT⟩ := hm.exists_ok hR hs
      rw [ht]
      exact ⟨rfl, hT⟩
  | error e s' =>
      obtain ⟨t', ht, hE⟩ := hm.exists_error hR hs
      rw [ht]
      cases e with
      | err e => exact ⟨rfl, hE⟩
      | panic => exact ⟨rfl, hE⟩

end InStep
end EStateM
