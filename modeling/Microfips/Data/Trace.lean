import Mathlib.Data.List.Infix
import Mathlib.Logic.Relation
import Microfips.Data.Fallible

/-!
# Invariants of code that writes a trace

Code that records what it does only adds to its trace.  Some invariants of such code hold as
long as the trace stays good, for a property of traces that every trace inherits from its
extensions (no key was installed twice, say).  `Upholds` is the relation between the states
before and after such code; it composes, so that an invariant of a run is proved statement by
statement.  `Along` says of every element of a trace what holds of it and of what came before.
-/

namespace Trace

variable {σ τ : Type} {trace : σ → List τ} {Good : List τ → Prop} {Inv : σ → Prop}

/-- The trace grew, and the invariant survived if the trace is still good. -/
def Upholds (trace : σ → List τ) (Good : List τ → Prop) (Inv : σ → Prop) (s t : σ) : Prop :=
  trace s <:+ trace t ∧ (Inv s → Good (trace t) → Inv t)

theorem Upholds.refl (s : σ) : Upholds trace Good Inv s s :=
  ⟨List.suffix_refl _, fun h _ => h⟩

theorem Upholds.trans (hgood : ∀ {l l' : List τ}, l <:+ l' → Good l' → Good l) {r s t : σ}
    (hrs : Upholds trace Good Inv r s) (hst : Upholds trace Good Inv s t) :
    Upholds trace Good Inv r t := by
  refine ⟨hrs.1.trans hst.1, fun hr ht => ?_⟩
  have hs : Inv s := hrs.2 hr (hgood hst.1 ht)
  exact hst.2 hs ht

theorem Upholds.of_reflTransGen (hgood : ∀ {l l' : List τ}, l <:+ l' → Good l' → Good l)
    {step : σ → σ → Prop} (hstep : ∀ s t, step s t → Upholds trace Good Inv s t) {s t : σ}
    (h : Relation.ReflTransGen step s t) : Upholds trace Good Inv s t := by
  induction h with
  | refl =>
      exact .refl s
  | tail _ ht ih =>
      exact ih.trans hgood (hstep _ _ ht)

/-! ## Elements and what came before them -/

variable {Q : List τ → τ → Prop} {past l l' : List τ}

/-- Every element of the list has `Q` with what came before it, newest first. -/
def Along (Q : List τ → τ → Prop) : List τ → List τ → Prop
  | _, [] => True
  | past, x :: l => Q past x ∧ Along Q (x :: past) l

instance decidableAlong [∀ past x, Decidable (Q past x)] (past l : List τ) :
    Decidable (Along Q past l) :=
  match l with
  | [] => inferInstanceAs (Decidable True)
  | x :: l =>
      have := decidableAlong (x :: past) l
      inferInstanceAs (Decidable (Q past x ∧ Along Q (x :: past) l))

theorem along_append :
    Along Q past (l ++ l') ↔ Along Q past l ∧ Along Q (l.reverse ++ past) l' := by
  induction l generalizing past with
  | nil => simp [Along]
  | cons x l ih => simp [Along, ih, and_assoc]

theorem along_of_forall_mem {P : τ → Prop} (h : ∀ x ∈ l, P x) : Along (fun _ => P) past l := by
  induction l generalizing past with
  | nil => trivial
  | cons x l ih =>
      rw [List.forall_mem_cons] at h
      exact ⟨h.1, ih h.2⟩

theorem Along.of_eq_append {x : τ} (h : Along Q past l) {l₁ l₂ : List τ} (hl : l = l₁ ++ x :: l₂) :
    Q (l₁.reverse ++ past) x := by
  rw [hl, along_append] at h
  exact h.2.1

end Trace
