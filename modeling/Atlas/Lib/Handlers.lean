import Mathlib

/-!
# Handlers that can be called back

A handler runs over a state and may be interrupted at known points by callbacks that run other
handlers. What a handler may rely on at such a point, and has to guarantee in turn, is a
`Contract`: an invariant, and a relation between the states before and after. Both speak of a view
of the state only, so that a handler that does not touch the view keeps every contract.
-/

namespace Handlers

variable {σ ν α β : Type}

/-- An invariant, and what may change while it holds. -/
structure Contract (ν : Type) where
  Inv : ν → Prop
  Rel : ν → ν → Prop
  refl : ∀ v, Rel v v
  trans : ∀ {v v' v''}, Rel v v' → Rel v' v'' → Rel v v''

/-- The handler leaves the view as it is. -/
class Silent (view : σ → ν) (m : StateM σ α) : Prop where
  silent : ∀ s, view (m s).2 = view s

/-- The handler keeps the invariant and moves the view within the relation. -/
class Keeps (view : σ → ν) (C : Contract ν) (m : StateM σ α) : Prop where
  keeps : ∀ s, C.Inv (view s) → C.Inv (view (m s).2) ∧ C.Rel (view s) (view (m s).2)

/-- A handler whose run is known goes on from where that ends. -/
theorem bind_of_eq {m : StateM σ α} {f : α → StateM σ β} {s s' : σ} {a : α} (h : m s = (a, s')) :
    (m >>= f) s = f a s' := by
  show f (m s).1 (m s).2 = f a s'
  rw [h]

namespace Silent

variable {view : σ → ν} {m : StateM σ α} {f : α → StateM σ β}

instance pure (a : α) : Silent view (Pure.pure a : StateM σ α) := ⟨fun _ => rfl⟩

instance get : Silent view (MonadState.get : StateM σ σ) := ⟨fun _ => rfl⟩

instance bind [hm : Silent view m] [hf : ∀ a, Silent view (f a)] : Silent view (m >>= f) :=
  ⟨fun s => ((hf (m s).1).silent (m s).2).trans (hm.silent s)⟩

instance ite {c : Prop} [Decidable c] {m n : StateM σ α} [hm : Silent view m]
    [hn : Silent view n] : Silent view (if c then m else n) := by
  split
  · exact hm
  · exact hn

/-- Either branch of a choice is silent. -/
theorem choose {c : Prop} [Decidable c] {m n : StateM σ α} (hm : Silent view m)
    (hn : Silent view n) : Silent view (if c then m else n) := ite

/-- Pass over a silent step. -/
theorem past [hm : Silent view m] (hf : ∀ a, Silent view (f a)) : Silent view (m >>= f) :=
  have := hf
  bind

theorem forM {γ : Type} {g : γ → StateM σ Unit} (h : ∀ x, Silent view (g x)) :
    ∀ xs : List γ, Silent view (xs.forM g)
  | [] => Silent.pure ()
  | x :: xs => by
    have := h x
    have := forM h xs
    exact Silent.bind (m := g x) (f := fun _ => xs.forM g)

end Silent

namespace Keeps

variable {view : σ → ν} {C : Contract ν} {m : StateM σ α} {f : α → StateM σ β}

instance (priority := low) of_silent [h : Silent view m] : Keeps view C m :=
  ⟨fun s hs => by
    rw [h.silent s]
    exact ⟨hs, C.refl _⟩⟩

instance bind [hm : Keeps view C m] [hf : ∀ a, Keeps view C (f a)] : Keeps view C (m >>= f) where
  keeps s hs := by
    have h₁ := hm.keeps s hs
    have h₂ := (hf (m s).1).keeps (m s).2 h₁.1
    exact ⟨h₂.1, C.trans h₁.2 h₂.2⟩

instance ite {c : Prop} [Decidable c] {m n : StateM σ α} [hm : Keeps view C m]
    [hn : Keeps view C n] : Keeps view C (if c then m else n) := by
  split
  · exact hm
  · exact hn

/-- Pass over a step that keeps the contract. -/
theorem past [hm : Keeps view C m] (hf : ∀ a, Keeps view C (f a)) : Keeps view C (m >>= f) :=
  have := hf
  bind

theorem modify {g : σ → σ}
    (h : ∀ s, C.Inv (view s) → C.Inv (view (g s)) ∧ C.Rel (view s) (view (g s))) :
    Keeps view C (MonadState.modifyGet fun s => ((), g s) : StateM σ Unit) := ⟨h⟩

theorem forM {γ : Type} {g : γ → StateM σ Unit} (h : ∀ x, Keeps view C (g x)) :
    ∀ xs : List γ, Keeps view C (xs.forM g)
  | [] => Keeps.of_silent (h := Silent.pure ())
  | x :: xs => by
    have := h x
    have := forM h xs
    exact Keeps.bind (m := g x) (f := fun _ => xs.forM g)

end Keeps

/-- From every state that looks so, the handler ends as the property says. -/
def Ends (view : σ → ν) (v : ν) (m : StateM σ α) (Q : α → σ → Prop) : Prop :=
  ∀ s, view s = v → Q (m s).1 (m s).2

namespace Ends

variable {view : σ → ν} {v : ν} {m : StateM σ α} {f : α → StateM σ β} {R : α → Prop}
  {Q : β → σ → Prop}

theorem pure {b : β} (h : ∀ s, view s = v → Q b s) : Ends view v (Pure.pure b : StateM σ β) Q := h

theorem bind (hm : Ends view v m fun a s => view s = v ∧ R a)
    (hf : ∀ a, R a → Ends view v (f a) Q) : Ends view v (m >>= f) Q := by
  intro s hs
  obtain ⟨hview, hr⟩ := hm s hs
  exact hf (m s).1 hr (m s).2 hview

theorem choose {c : Prop} [Decidable c] {m n : StateM σ β} (hm : Ends view v m Q)
    (hn : Ends view v n Q) : Ends view v (if c then m else n) Q := by
  split
  · exact hm
  · exact hn

/-- Pass over a silent step, whatever it returns. -/
theorem past [hm : Silent view m] (hf : ∀ a, Ends view v (f a) Q) : Ends view v (m >>= f) Q := by
  intro s hs
  exact hf (m s).1 (m s).2 ((hm.silent s).trans hs)

theorem mono {Q' : β → σ → Prop} {n : StateM σ β} (h : Ends view v n Q)
    (hQ : ∀ b s, Q b s → Q' b s) : Ends view v n Q' := fun s hs => hQ _ _ (h s hs)

/-- A silent handler that ends so still looks the same. -/
theorem and_silent {S : β → Prop} {n : StateM σ β} [hn : Silent view n]
    (h : Ends view v n fun b _ => S b) : Ends view v n fun b s => view s = v ∧ S b :=
  fun s hs => ⟨(hn.silent s).trans hs, h s hs⟩

end Ends

end Handlers
