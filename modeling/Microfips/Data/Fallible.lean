import Mathlib.Data.List.Basic

/-!
# Code that fails after it has changed its state

A method that takes `&mut self` and returns a `Result` keeps the writes it made before it
failed.  `EStateM` is the monad of such code.  This file adds the part of its interface
used by the models: a panic as an outcome of its own, running code on a component of a
larger state, and relations between the state before and the state after a run.
-/

/-- How a call can fail: with an error of its own type, or by a panic. -/
inductive Fault (ε : Type) where
  | err (e : ε)
  | panic
  deriving DecidableEq

def Fault.map {ε ε' : Type} (f : ε → ε') : Fault ε → Fault ε'
  | .err e => .err (f e)
  | .panic => .panic

def Fault.lift {ε α : Type} (x : Except ε α) : Except (Fault ε) α :=
  x.mapError .err

namespace Except

variable {ε α β : Type}

@[simp]
theorem ok_bind (a : α) (f : α → Except ε β) : ((.ok a : Except ε α) >>= f) = f a :=
  rfl

@[simp]
theorem error_bind (e : ε) (f : α → Except ε β) :
    ((.error e : Except ε α) >>= f) = .error e :=
  rfl

@[simp]
theorem pure_eq_ok (a : α) : (pure a : Except ε α) = .ok a :=
  rfl

@[simp]
theorem toOption_ok (a : α) : (Except.ok a : Except ε α).toOption = some a :=
  rfl

theorem eq_ok_of_toOption {x : Except ε α} {a : α} (h : x.toOption = some a) : x = .ok a := by
  cases x with
  | ok b => rw [Option.some.inj h]
  | error e => cases h

@[simp]
theorem mapError_ok {ε' : Type} (g : ε → ε') (a : α) :
    (Except.ok a : Except ε α).mapError g = .ok a :=
  rfl

end Except

@[simp]
theorem Fault.lift_ok {ε α : Type} (a : α) :
    Fault.lift (.ok a : Except ε α) = .ok a :=
  rfl

namespace EStateM

variable {ε σ τ α β : Type}

def Result.state : Result ε σ α → σ
  | .ok _ s => s
  | .error _ s => s

@[simp]
theorem Result.state_ok (a : α) (s : σ) : (Result.ok a s : Result ε σ α).state = s :=
  rfl

@[simp]
theorem Result.state_error (e : ε) (s : σ) : (Result.error e s : Result ε σ α).state = s :=
  rfl

instance instDecidableEqResult [DecidableEq ε] [DecidableEq σ] [DecidableEq α] :
    DecidableEq (Result ε σ α)
  | .ok a s, .ok b t => decidable_of_iff (a = b ∧ s = t) (by simp)
  | .error e s, .error f t => decidable_of_iff (e = f ∧ s = t) (by simp)
  | .ok _ _, .error _ _ => .isFalse nofun
  | .error _ _, .ok _ _ => .isFalse nofun

def Result.isOk : Result ε σ α → Bool
  | .ok _ _ => true
  | .error _ _ => false

theorem Result.exists_of_isOk {r : Result ε σ α} (h : r.isOk = true) : ∃ a s, r = .ok a s := by
  cases r with
  | ok a s => exact ⟨a, s, rfl⟩
  | error e s => cases h

theorem Result.eq_ok_of_isOk {r : Result ε σ PUnit} (h : r.isOk = true) : r = .ok ⟨⟩ r.state := by
  cases r with
  | ok a s => rfl
  | error e s => cases h

def Result.mapState (f : σ → τ) : Result ε σ α → Result ε τ α
  | .ok a s => .ok a (f s)
  | .error e s => .error e (f s)

/-- `EStateM.run_throw` is stated for code that returns nothing. -/
@[simp]
theorem run_throw_error (e : ε) (s : σ) : (throw e : EStateM ε σ α).run s = .error e s :=
  rfl

@[simp]
theorem run_functor_map (f : α → β) (m : EStateM ε σ α) (s : σ) :
    (f <$> m).run s = match m.run s with
      | .ok a t => .ok (f a) t
      | .error e t => .error e t :=
  rfl

def ofExcept (x : Except ε α) : EStateM (Fault ε) σ α :=
  match x with
  | .ok a => pure a
  | .error e => throw (.err e)

@[simp]
theorem ofExcept_ok (a : α) : (ofExcept (.ok a) : EStateM (Fault ε) σ α) = pure a :=
  rfl

@[simp]
theorem ofExcept_error (e : ε) :
    (ofExcept (.error e) : EStateM (Fault ε) σ α) = throw (.err e) :=
  rfl

variable {s t : σ} {a : α} {m : EStateM ε σ α} {f : α → EStateM ε σ β}

theorem ofExcept_run_ok {x : Except ε α}
    (h : (ofExcept x : EStateM (Fault ε) σ α).run s = .ok a t) : x = .ok a ∧ s = t := by
  cases x with
  | ok b =>
      obtain ⟨rfl, rfl⟩ := Result.ok.inj h
      exact ⟨rfl, rfl⟩
  | error e => cases h

def unwrap (x : Option α) : EStateM (Fault ε) σ α :=
  match x with
  | some a => pure a
  | none => throw .panic

@[simp]
theorem unwrap_some (a : α) : (unwrap (some a) : EStateM (Fault ε) σ α) = pure a :=
  rfl

/-- `let _ = m`: an error is dropped, a panic is not. -/
def ignore (m : EStateM (Fault ε) σ α) : EStateM (Fault ε) σ PUnit := fun s =>
  match m.run s with
  | .error .panic t => .error .panic t
  | r => .ok ⟨⟩ r.state

theorem ignore_run {m : EStateM (Fault ε) σ α} (h : m.run s = .ok a t) :
    (ignore m).run s = .ok ⟨⟩ t := by
  rw [EStateM.run, ignore, h]
  rfl

/-- One call on an object held by the caller: the returned value and the object after it. -/
def call (m : EStateM ε σ α) (s : σ) : Except ε (α × σ) :=
  match m.run s with
  | .ok a t => .ok (a, t)
  | .error e _ => .error e

theorem call_eq_ok (h : m.run s = .ok a t) : m.call s = .ok (a, t) := by
  rw [call, h]

theorem exists_run_of_call (h : (call m s).toOption.map Prod.fst = some a) :
    ∃ t, m.run s = .ok a t := by
  rw [call] at h
  split at h
  · next hrun => exact ⟨_, hrun.trans (congrArg (Result.ok · _) (Option.some.inj h))⟩
  · cases h

/-- Run `m` on the component of the state that `view` reads and `put` writes. -/
def zoom (view : σ → τ) (put : τ → σ → σ) (m : EStateM ε τ α) : EStateM ε σ α := fun s =>
  match m.run (view s) with
  | .ok a t => .ok a (put t s)
  | .error e t => .error e (put t s)

def mapErr (f : ε → ε) (m : EStateM (Fault ε) σ α) : EStateM (Fault ε) σ α := fun s =>
  match m.run s with
  | .error (.err e) t => .error (.err (f e)) t
  | r => r

/-- `m.map_err(f)` between two types of errors. -/
def mapFault {ε' : Type} (f : ε → ε') (m : EStateM (Fault ε) σ α) :
    EStateM (Fault ε') σ α := fun s =>
  match m.run s with
  | .ok a t => .ok a t
  | .error e t => .error (e.map f) t

@[simp]
theorem mapFault_run {ε' : Type} (f : ε → ε') (m : EStateM (Fault ε) σ α) (s : σ) :
    (mapFault f m).run s = match m.run s with
      | .ok a t => .ok a t
      | .error e t => .error (e.map f) t :=
  rfl

@[simp]
theorem mapErr_run (f : ε → ε) (m : EStateM (Fault ε) σ α) (s : σ) :
    (mapErr f m).run s = match m.run s with
      | .error (.err e) t => .error (.err (f e)) t
      | r => r :=
  rfl

@[simp]
theorem zoom_run (view : σ → τ) (put : τ → σ → σ) (m : EStateM ε τ α) (s : σ) :
    (zoom view put m).run s = match m.run (view s) with
      | .ok a t => .ok a (put t s)
      | .error e t => .error e (put t s) :=
  rfl

theorem exists_of_zoom {view : σ → τ} {put : τ → σ → σ} {m : EStateM ε τ α} {u : σ}
    (h : (zoom view put m).run s = .ok a u) : ∃ t, m.run (view s) = .ok a t ∧ u = put t s := by
  rw [zoom_run] at h
  cases hrun : m.run (view s) with
  | ok b t =>
      rw [hrun] at h
      obtain ⟨rfl, rfl⟩ := Result.ok.inj h
      exact ⟨t, rfl, rfl⟩
  | error e t =>
      rw [hrun] at h
      cases h

theorem run_bind_ok (h : m.run s = .ok a t) : (m >>= f).run s = (f a).run t := by
  rw [EStateM.run_bind, h]

theorem run_bind_error {e : ε} (h : m.run s = .error e t) : (m >>= f).run s = .error e t := by
  rw [EStateM.run_bind, h]

theorem exists_of_run_bind {u : σ} {b : β} (h : (m >>= f).run s = .ok b u) :
    ∃ a t, m.run s = .ok a t ∧ (f a).run t = .ok b u := by
  cases hrun : m.run s with
  | ok a t =>
      rw [run_bind_ok hrun] at h
      exact ⟨a, t, rfl, h⟩
  | error e t =>
      rw [run_bind_error hrun] at h
      cases h

theorem run_get_bind (f : σ → EStateM ε σ β) (s : σ) : (get >>= f).run s = (f s).run s :=
  rfl

theorem run_set_bind (t : σ) (f : PUnit → EStateM ε σ β) (s : σ) :
    (set t >>= f).run s = (f ⟨⟩).run t :=
  rfl

theorem run_modify_bind (f : σ → σ) (g : PUnit → EStateM ε σ β) (s : σ) :
    (modify f >>= g).run s = (g ⟨⟩).run (f s) :=
  rfl

/-- Every run of `m` ends in a state that `R` relates to the one it started in. -/
def Keeps (R : σ → σ → Prop) (m : EStateM ε σ α) : Prop :=
  ∀ s, R s (m.run s).state

section Keeps

variable {R : σ → σ → Prop}

theorem Keeps.pure (hrefl : ∀ s, R s s) (a : α) : Keeps R (pure a : EStateM ε σ α) := by
  intro s
  simpa using hrefl s

theorem Keeps.throw_error (hrefl : ∀ s, R s s) (e : ε) :
    Keeps R (throw e : EStateM ε σ α) := by
  intro s
  simpa using hrefl s

theorem Keeps.modify {f : σ → σ} (h : ∀ s, R s (f s)) :
    Keeps R (modify f : EStateM ε σ PUnit) := by
  intro s
  simpa using h s

theorem Keeps.bind {R' R'' : σ → σ → Prop} (hleft : ∀ {r s}, R r s → R'' r s)
    (htrans : ∀ {r s t}, R r s → R' s t → R'' r t) {m : EStateM ε σ α} {f : α → EStateM ε σ β}
    (hm : Keeps R m) (hf : ∀ a, Keeps R' (f a)) : Keeps R'' (m >>= f) := by
  intro s
  have hs : R s (m.run s).state := hm s
  rw [EStateM.run_bind]
  cases h : m.run s with
  | ok a t =>
      rw [h] at hs
      exact htrans hs (hf a t)
  | error e t =>
      rw [h] at hs
      exact hleft hs

theorem Keeps.get_bind {f : σ → EStateM ε σ β} (hf : ∀ s, R s ((f s).run s).state) :
    Keeps R (get >>= f) := by
  intro s
  simpa using hf s

end Keeps

end EStateM
