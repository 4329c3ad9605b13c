import Mathlib

/-!
# Transactions

A transaction reads and writes a state and either commits with a result or aborts, leaving no
trace. `Ensures P m Q` says that from a state in `P`, if `m` commits, its result and the state it
leaves are in `Q`; nothing is asked of an aborted one. A run of a system of transactions is a
sequence of steps, each a commit or nothing (`Runs`), and what every commit preserves holds all
along it.
-/

namespace Transaction

universe u

/-- A transaction over the state `σ`, aborting with an `ε`. -/
abbrev Tx (σ ε : Type u) := StateT σ (Except ε)

variable {σ ε α β : Type u}

/-- The state a transaction leaves: its own if it commits, the one it began in if it aborts. -/
def settle (m : Tx σ ε α) (s : σ) : σ :=
  match m s with
  | .ok (_, s') => s'
  | .error _ => s

/-- What holds of the result and the state whenever `m` commits from a state in `P`. -/
def Ensures (P : σ → Prop) (m : Tx σ ε α) (Q : α → σ → Prop) : Prop :=
  ∀ s a s', P s → m s = .ok (a, s') → Q a s'

theorem bind_ok {m : Tx σ ε α} {f : α → Tx σ ε β} {s s' : σ} {b : β} :
    (m >>= f) s = .ok (b, s') ↔ ∃ a t, m s = .ok (a, t) ∧ f a t = .ok (b, s') := by
  constructor
  · intro h
    rcases hm : m s with e | ⟨a, t⟩
    · simp [bind, StateT.bind, Except.bind, hm] at h
    · refine ⟨a, t, rfl, ?_⟩
      simpa [bind, StateT.bind, Except.bind, hm] using h
  · rintro ⟨a, t, hm, hf⟩
    simpa [bind, StateT.bind, Except.bind, hm] using hf

theorem pure_ok {a b : α} {s s' : σ} :
    (pure a : Tx σ ε α) s = .ok (b, s') ↔ b = a ∧ s' = s := by
  constructor
  · intro h
    injection h with h
    injection h with h₁ h₂
    exact ⟨h₁.symm, h₂.symm⟩
  · rintro ⟨rfl, rfl⟩
    rfl

theorem throw_ok {e : ε} {b : α} {s s' : σ} :
    ¬ (throw e : Tx σ ε α) s = .ok (b, s') := by
  intro h
  cases h

theorem get_ok {s t s' : σ} : (get : Tx σ ε σ) s = .ok (t, s') ↔ t = s ∧ s' = s := by
  constructor
  · intro h
    injection h with h
    injection h with h₁ h₂
    exact ⟨h₁.symm, h₂.symm⟩
  · rintro ⟨rfl, rfl⟩
    rfl

theorem modify_ok {f : σ → σ} {s s' : σ} {u : PUnit} :
    (modify f : Tx σ ε PUnit) s = .ok (u, s') ↔ s' = f s := by
  constructor
  · intro h
    injection h with h
    injection h with h₁ h₂
    exact h₂.symm
  · rintro rfl
    rfl

namespace Ensures

variable {P P' : σ → Prop} {Q Q' : α → σ → Prop}

theorem of_pure {a : α} (h : ∀ s, P s → Q a s) : Ensures P (pure a : Tx σ ε α) Q := by
  intro s b s' hP hr
  obtain ⟨rfl, rfl⟩ := pure_ok.1 hr
  exact h _ hP

theorem of_throw {e : ε} : Ensures P (throw e : Tx σ ε α) Q := by
  intro s b s' _ hr
  exact absurd hr throw_ok

theorem of_modify {f : σ → σ} {Q : PUnit → σ → Prop} (h : ∀ s, P s → Q ⟨⟩ (f s)) :
    Ensures P (modify f : Tx σ ε PUnit) Q := by
  intro s u s' hP hr
  rw [modify_ok.1 hr]
  exact h _ hP

theorem bind {m : Tx σ ε α} {f : α → Tx σ ε β} {R : β → σ → Prop}
    (hm : Ensures P m Q) (hf : ∀ a, Ensures (Q a) (f a) R) : Ensures P (m >>= f) R := by
  intro s b s' hP hr
  obtain ⟨a, t, h₁, h₂⟩ := bind_ok.1 hr
  exact hf a t b s' (hm s a t hP h₁) h₂

theorem mono {m : Tx σ ε α} (h : Ensures P m Q) (hP : ∀ s, P' s → P s)
    (hQ : ∀ a s, Q a s → Q' a s) : Ensures P' m Q' :=
  fun s a s' hp hr => hQ a s' (h s a s' (hP s hp) hr)

/-- A loop over a list keeps what its body keeps. -/
theorem forM {γ : Type u} {l : List γ} {f : γ → Tx σ ε PUnit} {I : σ → Prop}
    (h : ∀ x ∈ l, Ensures I (f x) fun _ s => I s) : Ensures I (ForM.forM l f) fun _ s => I s := by
  induction l with
  | nil => exact of_pure fun _ hs => hs
  | cons x l ih =>
    rw [List.forM_cons]
    exact bind (h x (by simp)) fun _ => ih fun y hy => h y (by simp [hy])

end Ensures

/-! ## Frames -/

/-- Whatever `m` commits, `view` of the state stays as it was. -/
class Preserves {γ : Type*} (view : σ → γ) (m : Tx σ ε α) : Prop where
  eq : ∀ {s a s'}, m s = .ok (a, s') → view s' = view s

namespace Preserves

variable {γ : Type*} {view : σ → γ}

instance of_pure (a : α) : Preserves view (pure a : Tx σ ε α) where
  eq h := by rw [(pure_ok.1 h).2]

instance of_throw (e : ε) : Preserves view (throw e : Tx σ ε α) where
  eq h := absurd h throw_ok

theorem bind {m : Tx σ ε α} {f : α → Tx σ ε β} (hm : Preserves view m)
    (hf : ∀ a, Preserves view (f a)) : Preserves view (m >>= f) where
  eq h := by
    obtain ⟨a, t, h₁, h₂⟩ := bind_ok.1 h
    exact ((hf a).eq h₂).trans (hm.eq h₁)

instance of_bind (m : Tx σ ε α) (f : α → Tx σ ε β) [hm : Preserves view m]
    [hf : ∀ a, Preserves view (f a)] : Preserves view (m >>= f) := bind hm hf

instance of_ite (c : Prop) [Decidable c] (m n : Tx σ ε α) [Preserves view m]
    [Preserves view n] : Preserves view (if c then m else n) where
  eq h := by
    split at h
    · exact eq h
    · exact eq h

theorem forM {ι : Type u} {l : List ι} {f : ι → Tx σ ε PUnit} (h : ∀ x, Preserves view (f x)) :
    Preserves view (ForM.forM l f) := by
  induction l with
  | nil => exact of_pure _
  | cons x l ih =>
    rw [List.forM_cons]
    exact bind (h x) fun _ => ih

/-- A loop whose body only looks commits if the body does at each element. -/
theorem forM_ok {ι : Type u} {l : List ι} {f : ι → Tx σ ε PUnit}
    (h : ∀ x, Preserves (fun s => s) (f x)) {s s' : σ} {u : PUnit}
    (hr : ForM.forM l f s = .ok (u, s')) : s' = s ∧ ∀ x ∈ l, f x s = .ok (⟨⟩, s) := by
  induction l with
  | nil => exact ⟨(pure_ok.1 hr).2, fun _ hx => absurd hx List.not_mem_nil⟩
  | cons x l ih =>
    rw [List.forM_cons, bind_ok] at hr
    obtain ⟨a, t, hx, hr⟩ := hr
    obtain rfl : t = s := (h x).eq hx
    obtain ⟨hs', hl⟩ := ih hr
    refine ⟨hs', fun y hy => ?_⟩
    rcases List.mem_cons.1 hy with rfl | hy
    · exact hx
    · exact hl y hy

theorem of_modify {f : σ → σ} (h : ∀ s, view (f s) = view s) :
    Preserves view (modify f : Tx σ ε PUnit) where
  eq hr := by rw [modify_ok.1 hr, h]

end Preserves

section Runs

variable {Act : Type*} (step : σ → Act → σ)

/-- The states a sequence of steps reaches. -/
inductive Runs : σ → σ → Prop
  | refl (s : σ) : Runs s s
  | tail {s t : σ} (a : Act) : Runs s t → Runs s (step t a)

/-- What every step preserves holds all along a run. -/
theorem Runs.invariant {I : σ → Prop} (hstep : ∀ s a, I s → I (step s a)) {s t : σ}
    (h : Runs step s t) (hs : I s) : I t := by
  induction h with
  | refl => exact hs
  | tail a _ ih => exact hstep _ a ih

end Runs

theorem settle_preserves {P : σ → Prop} {m : Tx σ ε α} (h : Ensures P m fun _ s => P s) {s : σ}
    (hs : P s) : P (settle m s) := by
  unfold settle
  rcases hm : m s with e | ⟨a, t⟩
  · exact hs
  · exact h s a t hs hm

end Transaction
