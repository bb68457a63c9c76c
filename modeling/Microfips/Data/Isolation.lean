import Microfips.Data.Simulation

/-!
# Code and a part of its state

A component of a state is what a view reads and a write replaces.  Code is blind to a component if
it does the same whatever the component holds, and leaves it as it is.  Code renews a component if
it replaces it by what it has not read from it, and only where it is done; where it fails or goes
on it leaves the component as it is.
-/

/-- A part of a state that can be replaced. -/
structure Component (σ τ : Type) where
  view : σ → τ
  put : τ → σ → σ
  view_put : ∀ x s, view (put x s) = x
  put_view : ∀ s, put (view s) s = s
  put_put : ∀ x y s, put x (put y s) = put x s

namespace Component

open EStateM

variable {ε σ τ α β : Type} (c : Component σ τ)

def BlindAt (s : σ) (m : EStateM ε σ α) : Prop :=
  ∀ x, m.run (c.put x s) = (m.run s).mapState (c.put x)

/-- Every run is the same whatever the component holds, and leaves it as it is. -/
def Blind (m : EStateM ε σ α) : Prop :=
  ∀ s, c.BlindAt s m

/-- The run from `s` leaves the component where it fails or is not done.  Where it is done it ends
in one state, whatever the component held. -/
structure RenewsAt (done : α → Prop) (s : σ) (m : EStateM ε σ α) : Prop where
  of_error : ∀ e t, m.run s = .error e t → ∀ x, m.run (c.put x s) = .error e (c.put x t)
  of_done : ∀ a t, m.run s = .ok a t → done a → ∀ x, m.run (c.put x s) = .ok a t
  of_not_done : ∀ a t, m.run s = .ok a t → ¬ done a → ∀ x, m.run (c.put x s) = .ok a (c.put x t)

variable {c} {s : σ}

namespace BlindAt

theorem pure (s : σ) (a : α) : c.BlindAt s (pure a : EStateM ε σ α) :=
  fun _ => rfl

theorem throw (s : σ) (e : ε) : c.BlindAt s (throw e : EStateM ε σ α) :=
  fun _ => rfl

variable {m : EStateM ε σ α}

theorem run_put {a : α} {t : σ} (h : c.BlindAt s m) (hrun : m.run s = .ok a t) (x : τ) :
    m.run (c.put x s) = .ok a (c.put x t) := by
  rw [h x, hrun]
  rfl

theorem run_put_error {e : ε} {t : σ} (h : c.BlindAt s m) (hrun : m.run s = .error e t) (x : τ) :
    m.run (c.put x s) = .error e (c.put x t) := by
  rw [h x, hrun]
  rfl

theorem bind {f : α → EStateM ε σ β} (hm : c.BlindAt s m) (hf : ∀ a, c.Blind (f a)) :
    c.BlindAt s (m >>= f) := by
  intro x
  cases hrun : m.run s with
  | ok a t =>
      rw [run_bind_ok hrun, run_bind_ok (hm.run_put hrun x)]
      exact hf a t x
  | error e t =>
      rw [run_bind_error hrun, run_bind_error (hm.run_put_error hrun x)]
      rfl

theorem get_bind {f : σ → EStateM ε σ β} (hread : ∀ x, f (c.put x s) = f s)
    (hf : c.BlindAt s (f s)) : c.BlindAt s (get >>= f) := by
  intro x
  rw [run_get_bind, run_get_bind, hread x]
  exact hf x

theorem state_eq (h : c.BlindAt s m) : (m.run s).state = c.put (c.view s) (m.run s).state := by
  have hself := h (c.view s)
  rw [c.put_view] at hself
  cases hrun : m.run s with
  | ok a t =>
      rw [hrun] at hself
      exact (Result.ok.inj hself).2
  | error e t =>
      rw [hrun] at hself
      exact (Result.error.inj hself).2

theorem leavesAt (h : c.BlindAt s m) : LeavesAt c.view s m := by
  rw [LeavesAt, h.state_eq]
  exact c.view_put _ _

end BlindAt

namespace Blind

theorem pure (a : α) : c.Blind (pure a : EStateM ε σ α) :=
  fun s => .pure s a

theorem throw (e : ε) : c.Blind (throw e : EStateM ε σ α) :=
  fun s => .throw s e

theorem modify {g : σ → σ} (hg : ∀ x s, g (c.put x s) = c.put x (g s)) :
    c.Blind (modify g : EStateM ε σ PUnit) := by
  intro s x
  simp [Result.mapState, hg]

theorem bind {m : EStateM ε σ α} {f : α → EStateM ε σ β} (hm : c.Blind m)
    (hf : ∀ a, c.Blind (f a)) : c.Blind (m >>= f) :=
  fun s => (hm s).bind hf

theorem get_bind {f : σ → EStateM ε σ β} (hread : ∀ x s, f (c.put x s) = f s)
    (hf : ∀ s, c.BlindAt s (f s)) : c.Blind (get >>= f) :=
  fun s => .get_bind (hread · s) (hf s)

theorem leaves {m : EStateM ε σ α} (h : c.Blind m) : Leaves c.view m :=
  fun s => (h s).leavesAt

end Blind

variable {done : α → Prop} {done' : β → Prop}

variable {m : EStateM ε σ α} {t : σ}

theorem RenewsAt.view_eq {a : α} (h : c.RenewsAt done s m) (hrun : m.run s = .ok a t)
    (ha : ¬ done a) : c.view t = c.view s := by
  have hself := h.of_not_done a t hrun ha (c.view s)
  rw [c.put_view, hrun] at hself
  rw [(Result.ok.inj hself).2, c.view_put]

theorem RenewsAt.view_eq_of_error {e : ε} (h : c.RenewsAt done s m) (hrun : m.run s = .error e t) :
    c.view t = c.view s := by
  have hself := h.of_error e t hrun (c.view s)
  rw [c.put_view, hrun] at hself
  rw [(Result.error.inj hself).2, c.view_put]

theorem RenewsAt.of_run_error {e : ε} (hrun : m.run s = .error e t)
    (hput : ∀ x, m.run (c.put x s) = .error e (c.put x t)) : c.RenewsAt done s m where
  of_error e' u h := by
    rw [hrun] at h
    obtain ⟨rfl, rfl⟩ := Result.error.inj h
    exact hput
  of_done a u h := by
    rw [hrun] at h
    cases h
  of_not_done a u h := by
    rw [hrun] at h
    cases h

theorem RenewsAt.of_run_eq {m' : EStateM ε σ α} (h : c.RenewsAt done t m')
    (hrun : m.run s = m'.run t) (hput : ∀ x, m.run (c.put x s) = m'.run (c.put x t)) :
    c.RenewsAt done s m where
  of_error e u hu x := by
    rw [hput x]
    exact h.of_error e u (hrun ▸ hu) x
  of_done a u hu ha x := by
    rw [hput x]
    exact h.of_done a u (hrun ▸ hu) ha x
  of_not_done a u hu ha x := by
    rw [hput x]
    exact h.of_not_done a u (hrun ▸ hu) ha x

theorem BlindAt.renewsAt (h : c.BlindAt s m) (hnot : ∀ a t, m.run s = .ok a t → ¬ done a) :
    c.RenewsAt done s m where
  of_error _ _ hrun := h.run_put_error hrun
  of_done a t hrun ha := (hnot a t hrun ha).elim
  of_not_done _ _ hrun _ := h.run_put hrun

theorem BlindAt.bind_renewsAt {f : α → EStateM ε σ β} (hm : c.BlindAt s m)
    (hf : ∀ a t, m.run s = .ok a t → c.RenewsAt done' t (f a)) : c.RenewsAt done' s (m >>= f) := by
  cases hrun : m.run s with
  | ok a t =>
      exact (hf a t hrun).of_run_eq (run_bind_ok hrun) fun x => run_bind_ok (hm.run_put hrun x)
  | error e t =>
      exact .of_run_error (run_bind_error hrun) fun x => run_bind_error (hm.run_put_error hrun x)

/-- Code that goes on where the first part is not done, and returns where it is. -/
theorem RenewsAt.bind {f : α → EStateM ε σ β} (hm : c.RenewsAt done s m)
    (hdone : ∀ a, done a → ∃ b, f a = Pure.pure b ∧ done' b)
    (hf : ∀ a t, m.run s = .ok a t → ¬ done a → c.RenewsAt done' t (f a)) :
    c.RenewsAt done' s (m >>= f) := by
  cases hrun : m.run s with
  | error e t =>
      exact .of_run_error (run_bind_error hrun) fun x => run_bind_error (hm.of_error e t hrun x)
  | ok a t =>
      by_cases ha : done a
      · obtain ⟨b, hb, hdone⟩ := hdone a ha
        have hok : (m >>= f).run s = .ok b t := by
          rw [run_bind_ok hrun, hb]
          rfl
        constructor
        · intro e u h
          rw [hok] at h
          cases h
        · intro b' u h _ x
          rw [run_bind_ok hrun] at h
          rw [run_bind_ok (hm.of_done a t hrun ha x)]
          exact h
        · intro b' u h hnot
          rw [hok] at h
          obtain ⟨rfl, -⟩ := Result.ok.inj h
          exact (hnot hdone).elim
      · exact (hf a t hrun ha).of_run_eq (run_bind_ok hrun) fun x =>
          run_bind_ok (hm.of_not_done a t hrun ha x)

theorem RenewsAt.of_put_bind {x : τ} {f : PUnit → EStateM ε σ α} {a : α}
    (hrun : (f ⟨⟩).run (c.put x s) = .ok a t) (ha : done a) :
    c.RenewsAt done s (modify (c.put x) >>= f) := by
  have hput : ∀ y, (modify (c.put x) >>= f).run (c.put y s) = .ok a t := by
    intro y
    have hmodify : (modify (c.put x) : EStateM ε σ PUnit).run (c.put y s) = .ok ⟨⟩ (c.put x s) := by
      simp [c.put_put]
    rw [run_bind_ok hmodify, hrun]
  have hself := hput (c.view s)
  rw [c.put_view] at hself
  constructor
  · intro e u h
    rw [hself] at h
    cases h
  · intro b u h _ y
    rw [hput y, ← h, hself]
  · intro b u h hb
    rw [hself] at h
    obtain ⟨rfl, -⟩ := Result.ok.inj h
    exact (hb ha).elim

end Component
