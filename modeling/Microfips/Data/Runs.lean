import Mathlib.Data.Option.Basic

/-!
# Guarded runs

A machine takes inputs one after the other; an input may be impossible in a state.  A run is guarded
where every input meets a condition in the state that it comes to, and what every such step
preserves the whole run preserves.
-/

namespace Runs

variable {σ ε : Type*} {step : σ → ε → Option σ} {P : σ → ε → Prop} {s t : σ} {inputs : List ε}

def run (step : σ → ε → Option σ) : σ → List ε → Option σ
  | s, [] => some s
  | s, e :: inputs => (step s e).bind fun t => run step t inputs

theorem run_append (s : σ) (first second : List ε) :
    run step s (first ++ second) = (run step s first).bind fun t => run step t second := by
  induction first generalizing s with
  | nil => rfl
  | cons e first ih =>
      rw [List.cons_append, run, run, Option.bind_assoc]
      congr 1
      funext t
      exact ih t

/-- Every input meets the condition in the state that it comes to. -/
def Guarded (step : σ → ε → Option σ) (P : σ → ε → Prop) : σ → List ε → Prop
  | _, [] => True
  | s, e :: inputs => P s e ∧ ∀ t ∈ step s e, Guarded step P t inputs

def decidableGuarded [∀ s e, Decidable (P s e)] :
    ∀ (inputs : List ε) (s : σ), Decidable (Guarded step P s inputs)
  | [], _ => .isTrue trivial
  | e :: inputs, s =>
      have (t : σ) : Decidable (Guarded step P t inputs) := decidableGuarded inputs t
      inferInstanceAs (Decidable (P s e ∧ ∀ t ∈ step s e, Guarded step P t inputs))

instance [∀ s e, Decidable (P s e)] : Decidable (Guarded step P s inputs) :=
  decidableGuarded inputs s

theorem guarded_of_forall {C : ε → Prop} (h : ∀ e ∈ inputs, C e) (s : σ) :
    Guarded step (fun _ e => C e) s inputs := by
  induction inputs generalizing s with
  | nil => exact trivial
  | cons e inputs ih =>
      exact ⟨h e (.head _), fun t _ => ih (fun e' he' => h e' (.tail e he')) t⟩

theorem Guarded.of_append {first second : List ε} (h : Guarded step P s (first ++ second)) :
    Guarded step P s first ∧ ∀ t, run step s first = some t → Guarded step P t second := by
  induction first generalizing s with
  | nil =>
      refine ⟨trivial, ?_⟩
      rintro t ⟨⟩
      exact h
  | cons e first ih =>
      refine ⟨⟨h.1, fun t ht => (ih (h.2 t ht)).1⟩, fun t hrun => ?_⟩
      obtain ⟨u, hu, hrun⟩ := Option.bind_eq_some_iff.mp hrun
      exact (ih (h.2 u hu)).2 t hrun

theorem Guarded.invariant {I : σ → Prop}
    (hstep : ∀ s e t, I s → P s e → step s e = some t → I t) (hs : I s)
    (h : Guarded step P s inputs) (hrun : run step s inputs = some t) : I t := by
  induction inputs generalizing s with
  | nil => exact Option.some.inj hrun ▸ hs
  | cons e inputs ih =>
      obtain ⟨u, hu, hrest⟩ := Option.bind_eq_some_iff.mp hrun
      exact ih (hstep s e u hs h.1 hu) (h.2 u hu) hrest

theorem run_total (f : σ → ε → σ) (s : σ) (inputs : List ε) :
    run (fun s e => some (f s e)) s inputs = some (inputs.foldl f s) := by
  induction inputs generalizing s with
  | nil => rfl
  | cons e inputs ih => exact ih (f s e)

end Runs
