import Mathlib.Data.Prod.Basic

/-!
# Key rollover between two parties

Each of two parties seals with the keys of one slot and opens with those of up to three: the
current slot, the one before it and a pending one.  A rollover arms a pending slot at the party
that answers it, and then at the party that began it.  The one that began it may promote its slot
at any time, the other one once something has come that was sealed with it.  As long as no slot is
armed over one that is still pending, the parties are never more than one rollover apart.
-/

namespace Rollover

variable {K : Type}

/-- A party.  A slot is the key to seal with and the key to open with; an armed slot is marked if
the rollover is the party's own. -/
structure Party (K : Type) where
  cur : K × K
  pend : Option (Bool × K × K)
  prev : Option (K × K)
  claimed : Bool
  armed : List (Bool × K × K)
  used : List K

namespace Party

def slots (v : Party K) : List (K × K) :=
  v.armed.map Prod.snd

def arm (v : Party K) (p : Bool × K × K) : Party K :=
  { v with pend := some p, claimed := p.1 || v.claimed, armed := p :: v.armed }

def promote (v : Party K) (k : K × K) (claimed : Bool) : Party K :=
  { v with cur := k, pend := none, prev := some v.cur, claimed := claimed }

/-- The slot was armed and does not wait any more. -/
def Promoted (v : Party K) (k : K × K) : Prop :=
  k ∈ v.slots ∧ ∀ p ∈ v.pend, p.2 ≠ k

end Party

/-- One step of a party whose peer is `w`.  A rollover is armed once, and by the party that began
it after the other one; slots with a key in common are of the same rollover. -/
inductive Step (w : Party K) : Party K → Party K → Prop where
  | use (v : Party K) : Step w v { v with used := v.cur.1 :: v.used }
  | arm {v : Party K} {p : Bool × K × K} (hpend : v.pend = none) (hnew : p.2 ∉ v.slots)
      (hpeer : (false, p.2.swap) ∈ w.armed ↔ p.1 = true) : Step w v (v.arm p)
  | cutover {v : Party K} {p : Bool × K × K} (hclaimed : v.claimed = true)
      (hpend : v.pend = some p) : Step w v (v.promote p.2 false)
  | proof {v : Party K} {p : Bool × K × K} (hpend : v.pend = some p) (hused : p.2.2 ∈ w.used)
      (hsame : ∀ k ∈ w.slots, k.1 = p.2.2 → k = p.2.swap) : Step w v (v.promote p.2 v.claimed)
  | drop (v : Party K) : Step w v { v with prev := none }

structure Held (v : Party K) : Prop where
  cur : v.Promoted v.cur
  pend : ∀ p ∈ v.pend, p ∈ v.armed
  used : ∀ u ∈ v.used, ∃ k, v.Promoted k ∧ k.1 = u

structure Backed (v w : Party K) : Prop extends Held v where
  own_armed : ∀ k, (true, k) ∈ v.armed → (false, k.swap) ∈ w.armed
  peer_armed : ∀ k, (false, k) ∈ v.armed → v.pend = some (false, k) ∨ k.swap ∈ w.slots
  claimed : v.claimed = true → ∃ k, v.pend = some (true, k)
  own_pend : ∀ k, v.pend = some (true, k) → w.pend = some (false, k.swap) ∧ v.cur = w.cur.swap
  follows : ∀ k, w.pend = some (false, k) → v.Promoted k.swap → v.cur = k.swap

/-- The peer has yet to promote the counterpart of the current slot. -/
structure Ahead (v w : Party K) : Prop where
  pend : w.pend = some (false, v.cur.swap)
  ne : ∀ p ∈ v.pend, p.2 ≠ w.cur.swap
  prev : ∀ k ∈ v.prev, k = w.cur.swap

/-- Two parties that are at most one rollover apart. -/
structure Paired (v w : Party K) : Prop where
  left : Backed v w
  right : Backed w v
  phase : v.cur = w.cur.swap ∨ Ahead v w ∨ Ahead w v

variable {v v' w : Party K} {p : Bool × K × K} {k : K × K} {claimed : Bool}

theorem Party.mem_slots {own : Bool} (h : (own, k) ∈ v.armed) : k ∈ v.slots :=
  List.mem_map_of_mem h

theorem Party.Promoted.arm (h : v.Promoted k) (hnew : p.2 ∉ v.slots) : (v.arm p).Promoted k := by
  refine ⟨List.mem_cons_of_mem _ h.1, ?_⟩
  rintro q ⟨⟩ rfl
  exact hnew h.1

theorem Party.Promoted.promote (h : v.Promoted k) {l : K × K} :
    (v.promote l claimed).Promoted k :=
  ⟨h.1, by rintro q ⟨⟩⟩

namespace Held

theorem arm (h : Held v) (hnew : p.2 ∉ v.slots) : Held (v.arm p) where
  cur := h.cur.arm hnew
  pend := by
    rintro q ⟨⟩
    exact List.mem_cons_self
  used u hu := (h.used u hu).imp fun _ hk => hk.imp_left fun hk => hk.arm hnew

theorem promote (h : Held v) (hpend : v.pend = some p) : Held (v.promote p.2 claimed) where
  cur := ⟨List.mem_map_of_mem (h.pend p hpend), by rintro q ⟨⟩⟩
  pend := by rintro q ⟨⟩
  used u hu := (h.used u hu).imp fun _ hk => hk.imp_left fun hk => hk.promote

end Held

namespace Backed

/-- The counterpart of a slot that was promoted is armed at the peer. -/
theorem swap_mem (h : Backed v w) (hk : v.Promoted k) : k.swap ∈ w.slots := by
  obtain ⟨⟨own, k⟩, hmem, rfl⟩ := List.mem_map.mp hk.1
  cases own with
  | true => exact Party.mem_slots (h.own_armed _ hmem)
  | false =>
      rcases h.peer_armed _ hmem with hpend | hpeer
      · exact absurd rfl (hk.2 _ hpend)
      · exact hpeer

end Backed

namespace Paired

theorem symm (h : Paired v w) : Paired w v :=
  ⟨h.right, h.left, h.phase.imp (fun h => by rw [h, Prod.swap_swap]) Or.symm⟩

/-- Two parties on the slot of their first handshake. -/
theorem start (k : K × K) :
    Paired ⟨k, none, none, false, [(true, k)], []⟩
      ⟨k.swap, none, none, false, [(false, k.swap)], []⟩ where
  left := by
    refine ⟨⟨?_, ?_, ?_⟩, ?_, ?_, ?_, ?_, ?_⟩ <;> simp [Party.slots, Party.Promoted]
  right := by
    refine ⟨⟨?_, ?_, ?_⟩, ?_, ?_, ?_, ?_, ?_⟩ <;> simp [Party.slots, Party.Promoted]
  phase := .inl (Prod.swap_swap k).symm

/-- The peer of a party that completes its own rollover has answered it and nothing else. -/
theorem sync_of_own (h : Paired v w) (hpend : v.pend = none) (hnew : k ∉ v.slots)
    (hpeer : (false, k.swap) ∈ w.armed) :
    w.pend = some (false, k.swap) ∧ v.cur = w.cur.swap := by
  have hw : w.pend = some (false, k.swap) :=
    (h.right.peer_armed _ hpeer).resolve_right hnew
  refine ⟨hw, ?_⟩
  rcases h.phase with hsync | hahead | hbehind
  · exact hsync
  · have heq : k = v.cur := by simpa [hw] using hahead.pend
    exact absurd (heq ▸ h.left.cur.1) hnew
  · exact absurd hbehind.pend (by simp [hpend])

theorem arm (h : Paired v w) (hpend : v.pend = none) (hnew : p.2 ∉ v.slots)
    (hpeer : (false, p.2.swap) ∈ w.armed ↔ p.1 = true) : Paired (v.arm p) w where
  left := {
    h.left.toHeld.arm hnew with
    own_armed := fun k hk => by
      rcases List.mem_cons.mp hk with rfl | hk
      · exact hpeer.mpr rfl
      · exact h.left.own_armed k hk
    peer_armed := fun k hk => by
      rcases List.mem_cons.mp hk with rfl | hk
      · exact .inl rfl
      · exact .inr ((h.left.peer_armed k hk).resolve_left (by simp [hpend]))
    claimed := fun hclaimed => by
      rcases (Bool.or_eq_true _ _).mp hclaimed with hown | hclaimed
      · exact ⟨p.2, by rw [← hown]; rfl⟩
      · simpa [hpend] using h.left.claimed hclaimed
    own_pend := by
      rintro k ⟨⟩
      exact h.sync_of_own hpend hnew (hpeer.mpr rfl)
    follows := fun k hk hpromoted => by
      rcases List.mem_cons.mp hpromoted.1 with heq | hmem
      · exact absurd heq.symm (hpromoted.2 p rfl)
      · exact h.left.follows k hk ⟨hmem, by simp [hpend]⟩ }
  right := {
    h.right with
    own_armed := fun k hk => List.mem_cons_of_mem _ (h.right.own_armed k hk)
    peer_armed := fun k hk => (h.right.peer_armed k hk).imp_right (List.mem_cons_of_mem _)
    own_pend := fun k hk => by simpa [hpend] using h.right.own_pend k hk
    follows := by
      -- the peer cannot have promoted a rollover that is only answered now
      rintro k ⟨⟩ hpromoted
      exact absurd (h.right.swap_mem hpromoted) hnew }
  phase := by
    rcases h.phase with hsync | hahead | hbehind
    · exact .inl hsync
    · refine .inr (.inl ⟨hahead.pend, ?_, hahead.prev⟩)
      rintro q ⟨⟩ heq
      exact hnew (heq ▸ h.right.swap_mem h.right.cur)
    · exact absurd hbehind.pend (by simp [hpend])

theorem cutover (h : Paired v w) (hclaimed : v.claimed = true) (hpend : v.pend = some p) :
    Paired (v.promote p.2 false) w := by
  obtain ⟨k, hown⟩ := h.left.claimed hclaimed
  obtain rfl : p = (true, k) := by simpa [hpend] using hown
  obtain ⟨hw, hsync⟩ := h.left.own_pend k hpend
  exact {
    left := {
      h.left.toHeld.promote hpend with
      own_armed := h.left.own_armed
      peer_armed := fun l hl => .inr ((h.left.peer_armed l hl).resolve_left (by simp [hpend]))
      claimed := by rintro ⟨⟩
      own_pend := by rintro l ⟨⟩
      follows := fun l hl _ => by
        obtain rfl : k.swap = l := by simpa [hw] using hl
        rfl }
    right := {
      h.right with
      own_pend := fun l hl => by simp [hw] at hl
      follows := by rintro l ⟨⟩ }
    phase := by
      refine .inr (.inl ⟨hw, by rintro q ⟨⟩, ?_⟩)
      rintro l ⟨⟩
      exact hsync }

/-- A slot that is promoted on a proof is one that the peer has gone on to. -/
theorem ahead_of_proof (h : Paired v w) (hpend : v.pend = some p)
    (hpromoted : w.Promoted p.2.swap) : p.1 = false ∧ w.cur = p.2.swap ∧ Ahead w v := by
  obtain ⟨own, k⟩ := p
  cases own with
  | true => exact absurd rfl (hpromoted.2 _ (h.left.own_pend k hpend).1)
  | false =>
      have hcur := h.right.follows k hpend hpromoted
      refine ⟨rfl, hcur, ?_⟩
      rcases h.phase with hsync | hahead | hbehind
      · rw [hcur, Prod.swap_swap] at hsync
        exact absurd hsync.symm (h.left.cur.2 _ hpend)
      · refine absurd ?_ (hahead.ne _ hpend)
        rw [hcur, Prod.swap_swap]
      · exact hbehind

theorem proof (h : Paired v w) (hpend : v.pend = some p) (hpromoted : w.Promoted p.2.swap) :
    Paired (v.promote p.2 v.claimed) w := by
  obtain ⟨hpeer, hcur, hbehind⟩ := h.ahead_of_proof hpend hpromoted
  obtain ⟨own, k⟩ := p
  obtain rfl : own = false := hpeer
  exact {
    left := {
      h.left.toHeld.promote hpend with
      own_armed := h.left.own_armed
      peer_armed := fun l hl => by
        refine .inr ((h.left.peer_armed l hl).elim (fun heq => ?_) id)
        obtain rfl : k = l := by simpa [hpend] using heq
        exact hpromoted.1
      claimed := fun hclaimed => by simpa [hpend] using h.left.claimed hclaimed
      own_pend := by rintro l ⟨⟩
      follows := fun l hl hmem => by
        by_cases heq : k = l.swap
        · exact heq
        · have hv := h.left.follows l hl ⟨hmem.1, by simpa [hpend] using heq⟩
          exact absurd (by rw [hv, Prod.swap_swap]) (hbehind.ne _ hl) }
    right := {
      h.right with
      own_pend := fun l hl => by
        have hv : k = l.swap := by simpa [hpend] using (h.right.own_pend l hl).1
        refine absurd ?_ (h.right.cur.2 _ hl)
        rw [hcur, hv, Prod.swap_swap]
      follows := by rintro l ⟨⟩ }
    phase := .inl (hcur ▸ (Prod.swap_swap k).symm) }

theorem step (h : Paired v w) (hstep : Step w v v') : Paired v' w := by
  cases hstep with
  | use =>
      exact {
        left := {
          h.left with
          used := List.forall_mem_cons.mpr ⟨⟨_, h.left.cur, rfl⟩, h.left.used⟩ }
        right := { h.right with }
        phase := h.phase.imp_right (.imp (fun a => { a with }) (fun a => { a with })) }
  | arm hpend hnew hpeer => exact h.arm hpend hnew hpeer
  | cutover hclaimed hpend => exact h.cutover hclaimed hpend
  | proof hpend hused hsame =>
      obtain ⟨k, hpromoted, heq⟩ := h.right.used _ hused
      exact h.proof hpend (hsame k hpromoted.1 heq ▸ hpromoted)
  | drop =>
      exact {
        left := { h.left with }
        right := { h.right with }
        phase := h.phase.imp_right
          (.imp (fun a => { a with prev := by rintro l ⟨⟩ }) (fun a => { a with })) }

/-- Two parties that wait for nothing are on the same slot. -/
theorem sync (h : Paired v w) (hv : v.pend = none) (hw : w.pend = none) : v.cur = w.cur.swap := by
  rcases h.phase with hsync | hahead | hbehind
  · exact hsync
  · exact absurd hahead.pend (by simp [hw])
  · exact absurd hbehind.pend (by simp [hv])

/-- The peer can open what a party seals, unless it has dropped the slot before its current one
and the party has yet to promote the counterpart of the current one. -/
theorem opens (h : Paired v w) :
    (w.cur = v.cur.swap ∨ (∃ p ∈ w.pend, p.2 = v.cur.swap) ∨ v.cur.swap ∈ w.prev) ∨
      w.prev = none ∧ v.pend = some (false, w.cur.swap) := by
  rcases h.phase with hsync | hahead | hbehind
  · exact .inl (.inl (by rw [hsync, Prod.swap_swap]))
  · exact .inl (.inr (.inl ⟨_, hahead.pend, rfl⟩))
  · cases hprev : w.prev with
    | none => exact .inr ⟨rfl, hbehind.pend⟩
    | some k => exact .inl (.inr (.inr (hbehind.prev k hprev ▸ rfl)))

end Paired
end Rollover
