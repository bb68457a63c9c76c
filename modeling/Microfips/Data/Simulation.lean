import Mathlib.Logic.Relation
import Microfips.Data.Fallible

/-!
# Code simulated by a machine

A machine is a relation on views of the state.  Code is simulated by it when each of its runs,
seen through the view, is a sequence of moves.  The rules of this file follow the statements of
the code; what holds along every sequence of moves then holds along every run.
-/

namespace EStateM

variable {ε σ α β V : Type} {view : σ → V} {Move : V → V → Prop}

/-- The run of `m` from `s` is a sequence of moves, whether it returns or fails. -/
def SimulatedAt (view : σ → V) (Move : V → V → Prop) (s : σ) (m : EStateM ε σ α) : Prop :=
  Relation.ReflTransGen Move (view s) (view (m.run s).state)

def Simulated (view : σ → V) (Move : V → V → Prop) (m : EStateM ε σ α) : Prop :=
  ∀ s, SimulatedAt view Move s m

namespace SimulatedAt

theorem pure (s : σ) (a : α) : SimulatedAt view Move s (pure a : EStateM ε σ α) :=
  .refl

theorem throw (s : σ) (e : ε) : SimulatedAt view Move s (throw e : EStateM ε σ α) :=
  .refl

variable {s : σ}

theorem bind {m : EStateM ε σ α} {f : α → EStateM ε σ β} (hm : SimulatedAt view Move s m)
    (hf : ∀ a t, m.run s = .ok a t → SimulatedAt view Move t (f a)) :
    SimulatedAt view Move s (m >>= f) := by
  rw [SimulatedAt] at hm ⊢
  cases h : m.run s with
  | ok a t =>
      rw [h] at hm
      rw [run_bind_ok h]
      exact hm.trans (hf a t h)
  | error e t =>
      rw [h] at hm
      rw [run_bind_error h]
      exact hm

theorem get_bind {f : σ → EStateM ε σ β} (hf : SimulatedAt view Move s (f s)) :
    SimulatedAt view Move s (get >>= f) :=
  hf

theorem set_bind {t : σ} {f : PUnit → EStateM ε σ β}
    (ht : Relation.ReflTransGen Move (view s) (view t)) (hf : SimulatedAt view Move t (f ⟨⟩)) :
    SimulatedAt view Move s (set t >>= f) :=
  ht.trans hf

theorem modify_bind {g : σ → σ} {f : PUnit → EStateM ε σ β}
    (hg : Relation.ReflTransGen Move (view s) (view (g s)))
    (hf : SimulatedAt view Move (g s) (f ⟨⟩)) : SimulatedAt view Move s (modify g >>= f) :=
  hg.trans hf

end SimulatedAt

namespace Simulated

theorem pure (a : α) : Simulated view Move (pure a : EStateM ε σ α) :=
  fun s => SimulatedAt.pure s a

theorem throw (e : ε) : Simulated view Move (throw e : EStateM ε σ α) :=
  fun s => SimulatedAt.throw s e

theorem bind {m : EStateM ε σ α} {f : α → EStateM ε σ β} (hm : Simulated view Move m)
    (hf : ∀ a, Simulated view Move (f a)) : Simulated view Move (m >>= f) :=
  fun s => (hm s).bind fun a t _ => hf a t

theorem get_bind {f : σ → EStateM ε σ β} (hf : ∀ s, Simulated view Move (f s)) :
    Simulated view Move (get >>= f) :=
  fun s => hf s s

theorem mono {Move' : V → V → Prop} {m : EStateM ε σ α} (hm : Simulated view Move m)
    (h : ∀ v w, Move v w → Move' v w) : Simulated view Move' m :=
  fun s => Relation.ReflTransGen.mono h _ _ (hm s)

theorem modify_bind {g : σ → σ} {f : PUnit → EStateM ε σ β} (hg : ∀ s, view (g s) = view s)
    (hf : Simulated view Move (f ⟨⟩)) : Simulated view Move (modify g >>= f) := by
  intro s
  have h : SimulatedAt view Move (g s) (f ⟨⟩) := hf (g s)
  rw [SimulatedAt, hg s] at h
  exact h

theorem modify {g : σ → σ} (hg : ∀ s, Relation.ReflTransGen Move (view s) (view (g s))) :
    Simulated view Move (modify g : EStateM ε σ PUnit) :=
  hg

end Simulated

/-- Code that always returns and does nothing that the view sees. -/
def Silent (view : σ → V) (m : EStateM ε σ α) : Prop :=
  ∀ s, ∃ a t, m.run s = .ok a t ∧ view t = view s

namespace Silent

theorem pure (a : α) : Silent view (pure a : EStateM ε σ α) :=
  fun s => ⟨a, s, rfl, rfl⟩

theorem modify {g : σ → σ} (hg : ∀ s, view (g s) = view s) :
    Silent view (modify g : EStateM ε σ PUnit) :=
  fun s => ⟨⟨⟩, g s, rfl, hg s⟩

theorem bind {m : EStateM ε σ α} {f : α → EStateM ε σ β} (hm : Silent view m)
    (hf : ∀ a, Silent view (f a)) : Silent view (m >>= f) := by
  intro s
  obtain ⟨a, t, hrun, hview⟩ := hm s
  obtain ⟨b, u, hrun', hview'⟩ := hf a t
  exact ⟨b, u, (run_bind_ok hrun).trans hrun', hview'.trans hview⟩

theorem get_bind {f : σ → EStateM ε σ β} (hf : ∀ s, Silent view (f s)) :
    Silent view (get >>= f) :=
  fun s => hf s s

theorem simulated {m : EStateM ε σ α} (hm : Silent view m) : Simulated view Move m := by
  intro s
  obtain ⟨a, t, hrun, hview⟩ := hm s
  rw [SimulatedAt, hrun, Result.state_ok, hview]

end Silent

def LeavesAt (view : σ → V) (s : σ) (m : EStateM ε σ α) : Prop :=
  view (m.run s).state = view s

namespace LeavesAt

theorem pure (s : σ) (a : α) : LeavesAt view s (pure a : EStateM ε σ α) :=
  rfl

theorem throw (s : σ) (e : ε) : LeavesAt view s (throw e : EStateM ε σ α) :=
  rfl

variable {s : σ} {m : EStateM ε σ α}

theorem bind {f : α → EStateM ε σ β} (hm : LeavesAt view s m)
    (hf : ∀ a t, m.run s = .ok a t → LeavesAt view t (f a)) : LeavesAt view s (m >>= f) := by
  rw [LeavesAt] at hm ⊢
  cases h : m.run s with
  | ok a t =>
      rw [h] at hm
      rw [run_bind_ok h]
      exact (hf a t h).trans hm
  | error e t =>
      rw [h] at hm
      rw [run_bind_error h]
      exact hm

theorem comp {W : Type} (f : V → W) (hm : LeavesAt view s m) : LeavesAt (f ∘ view) s m :=
  congrArg f hm

theorem view_eq {t : σ} {a : α} (hm : LeavesAt view s m) (hrun : m.run s = .ok a t) :
    view t = view s := by
  rw [LeavesAt, hrun] at hm
  exact hm

theorem get_bind {f : σ → EStateM ε σ β} (hf : LeavesAt view s (f s)) :
    LeavesAt view s (get >>= f) :=
  hf

theorem set_bind {t : σ} {f : PUnit → EStateM ε σ β} (ht : view t = view s)
    (hf : LeavesAt view t (f ⟨⟩)) : LeavesAt view s (set t >>= f) :=
  Eq.trans hf ht

theorem modify_bind {g : σ → σ} {f : PUnit → EStateM ε σ β} (hg : view (g s) = view s)
    (hf : LeavesAt view (g s) (f ⟨⟩)) : LeavesAt view s (modify g >>= f) :=
  Eq.trans hf hg

end LeavesAt

/-- No run of `m` does anything that the view sees, whether it returns or fails. -/
def Leaves (view : σ → V) (m : EStateM ε σ α) : Prop :=
  ∀ s, LeavesAt view s m

namespace Leaves

theorem pure (a : α) : Leaves view (pure a : EStateM ε σ α) :=
  fun s => .pure s a

theorem throw (e : ε) : Leaves view (throw e : EStateM ε σ α) :=
  fun s => .throw s e

theorem modify {g : σ → σ} (hg : ∀ s, view (g s) = view s) :
    Leaves view (modify g : EStateM ε σ PUnit) :=
  hg

theorem bind {m : EStateM ε σ α} {f : α → EStateM ε σ β} (hm : Leaves view m)
    (hf : ∀ a, Leaves view (f a)) : Leaves view (m >>= f) :=
  fun s => (hm s).bind fun a t _ => hf a t

theorem get_bind {f : σ → EStateM ε σ β} (hf : ∀ s, LeavesAt view s (f s)) :
    Leaves view (get >>= f) :=
  hf

end Leaves

/-- Code that does `Q`, a relation between the views and the value it returns, and nothing that the
view sees where it fails. -/
def Acts (view : σ → V) (Q : V → α → V → Prop) (m : EStateM ε σ α) : Prop :=
  ∀ s, match m.run s with
    | .ok a t => Q (view s) a (view t)
    | .error _ t => view t = view s

namespace Acts

variable {Q : V → α → V → Prop} {R : V → β → V → Prop}

theorem pure {a : α} (ha : ∀ v, Q v a v) : Acts view Q (pure a : EStateM ε σ α) :=
  fun s => ha (view s)

/-- The code and the code behind it together are moves from `v`, if the start of the code is. -/
theorem moves_bind {v : V} {s : σ} {m : EStateM ε σ α} {f : α → EStateM ε σ β}
    (hm : Acts view Q m) (hs : Relation.ReflTransGen Move v (view s))
    (hf : ∀ a t, Q (view s) a (view t) →
      Relation.ReflTransGen Move v (view ((f a).run t).state)) :
    Relation.ReflTransGen Move v (view ((m >>= f).run s).state) := by
  have hact := hm s
  cases h : m.run s with
  | ok a t =>
      simp only [h] at hact
      rw [run_bind_ok h]
      exact hf a t hact
  | error e t =>
      simp only [h] at hact
      rw [run_bind_error h, Result.state_error, hact]
      exact hs

end Acts

/-- Code that does nothing that the view sees, and whose value has the property `Q` where it
returns. -/
def Yields (view : σ → V) (Q : α → Prop) (m : EStateM ε σ α) : Prop :=
  Acts view (fun v a w => w = v ∧ Q a) m

namespace Yields

variable {Q : α → Prop} {R : β → Prop}

theorem pure {a : α} (ha : Q a) : Yields view Q (pure a : EStateM ε σ α) :=
  fun _ => ⟨rfl, ha⟩

theorem throw (e : ε) : Yields view Q (throw e : EStateM ε σ α) :=
  fun _ => rfl

variable {m : EStateM ε σ α} {f : α → EStateM ε σ β}

theorem acts_bind {R : V → β → V → Prop} (hm : Yields view Q m)
    (hf : ∀ a, Q a → Acts view R (f a)) : Acts view R (m >>= f) := by
  intro s
  have hs := hm s
  cases h : m.run s with
  | ok a t =>
      simp only [h] at hs
      rw [run_bind_ok h, ← hs.1]
      exact hf a hs.2 t
  | error e t =>
      simp only [h] at hs
      rw [run_bind_error h]
      exact hs

theorem bind (hm : Yields view Q m) (hf : ∀ a, Q a → Yields view R (f a)) :
    Yields view R (m >>= f) :=
  hm.acts_bind hf

theorem get_bind {f : σ → EStateM ε σ α} (hf : ∀ s, Yields view Q (f s)) :
    Yields view Q (get >>= f) :=
  fun s => hf s s

theorem of_silent (hm : Silent view m) (hQ : ∀ a, Q a) : Yields view Q m := by
  intro s
  obtain ⟨a, t, hrun, hview⟩ := hm s
  simp only [hrun]
  exact ⟨hview, hQ a⟩

theorem simulatedAt_bind {s : σ} (hm : Yields view Q m)
    (hf : ∀ a t, Q a → view t = view s → SimulatedAt view Move t (f a)) :
    SimulatedAt view Move s (m >>= f) := by
  refine Acts.moves_bind hm .refl fun a t ht => ?_
  have h : SimulatedAt view Move t (f a) := hf a t ht.2 ht.1
  rw [SimulatedAt, ht.1] at h
  exact h

theorem simulated_bind (hm : Yields view Q m) (hf : ∀ a, Q a → Simulated view Move (f a)) :
    Simulated view Move (m >>= f) :=
  fun _ => hm.simulatedAt_bind fun a t ha _ => hf a ha t

end Yields
end EStateM
