import Mathlib

/-!
# Programs that keep their writes when they throw

An asynchronous method that throws leaves what it wrote before in place, unlike a transaction that
aborts. `wp m Q E s` says that `m` run from `s` either returns with its result and state in `Q`, or
throws with its exception and state in `E`. A proof about a program reads its text forward: each
statement rewrites the `wp` of the program to the `wp` of what is left of it.
-/

namespace Effects

variable {σ ε α β : Type}

/-- A program over the state `σ`, throwing an `ε` and keeping the state it threw in. -/
abbrev Eff (σ ε α : Type) := ExceptT ε (StateM σ) α

/-- The outcome of a program and the state it leaves. -/
def exec (m : Eff σ ε α) (s : σ) : Except ε α × σ := m.run.run s

def wp (m : Eff σ ε α) (Q : α → σ → Prop) (E : ε → σ → Prop) (s : σ) : Prop :=
  match exec m s with
  | (.ok a, s') => Q a s'
  | (.error e, s') => E e s'

variable {Q Q' : α → σ → Prop} {E E' : ε → σ → Prop} {s : σ}

@[simp]
theorem wp_pure {a : α} : wp (pure a) Q E s ↔ Q a s := Iff.rfl

@[simp]
theorem wp_throw {e : ε} : wp (throw e : Eff σ ε α) Q E s ↔ E e s := Iff.rfl

@[simp]
theorem wp_get {Q : σ → σ → Prop} : wp get Q E s ↔ Q s s := Iff.rfl

@[simp]
theorem wp_modify {f : σ → σ} {Q : Unit → σ → Prop} : wp (modify f) Q E s ↔ Q () (f s) := Iff.rfl

@[simp]
theorem wp_bind {m : Eff σ ε α} {f : α → Eff σ ε β} {Q : β → σ → Prop} :
    wp (m >>= f) Q E s ↔ wp m (fun a => wp (f a) Q E) E s := by
  simp only [wp, exec, ExceptT.run_bind, StateT.run_bind]
  rcases m.run.run s with ⟨_ | _, _⟩ <;> rfl

@[simp]
theorem wp_tryCatch {m : Eff σ ε α} {f : ε → Eff σ ε α} :
    wp (tryCatch m f) Q E s ↔ wp m Q (fun e => wp (f e) Q E) s := by
  unfold wp exec ExceptT.run StateT.run
  simp only [tryCatch, tryCatchThe, MonadExceptOf.tryCatch, ExceptT.tryCatch, ExceptT.mk, bind,
    StateT.bind]
  rcases m s with ⟨_ | _, _⟩ <;> rfl

theorem wp_mono {m : Eff σ ε α} (h : wp m Q E s) (hQ : ∀ a s', Q a s' → Q' a s')
    (hE : ∀ e s', E e s' → E' e s') : wp m Q' E' s := by
  simp only [wp] at h ⊢
  split <;> rename_i heq <;> rw [heq] at h
  · exact hQ _ _ h
  · exact hE _ _ h

/-- What holds whether a program returns or throws holds of the state it leaves. -/
theorem exec_of_wp {m : Eff σ ε α} {I : σ → Prop} (h : wp m (fun _ => I) (fun _ => I) s) :
    I (exec m s).2 := by
  unfold wp at h
  split at h <;> rename_i heq <;> rw [heq] <;> exact h

theorem wp_of_exec {m : Eff σ ε α} {I : σ → Prop} (h : I (exec m s).2) :
    wp m (fun _ => I) (fun _ => I) s := by
  unfold wp
  split <;> rename_i heq <;> rw [heq] at h <;> exact h

theorem of_exec_ok {m : Eff σ ε α} (h : wp m Q E s) {a : α} (ha : (exec m s).1 = .ok a) :
    Q a (exec m s).2 := by
  unfold wp at h
  split at h <;> rename_i heq <;> rw [heq] at ha ⊢
  · exact Except.ok.inj ha ▸ h
  · simp at ha

/-- A program with one possible result returns it unless it cannot have it. -/
theorem exec_ok_iff {m : Eff σ ε α} {P : α → Prop}
    (h : wp m (fun a _ => P a) (fun _ _ => ∀ a, ¬P a) s) (hunique : ∀ a b, P a → P b → a = b)
    {x : α} : (exec m s).1 = .ok x ↔ P x := by
  unfold wp at h
  split at h <;> rename_i heq <;> rw [heq]
  · simp only [Except.ok.injEq]
    exact ⟨fun hax => hax ▸ h, fun hx => hunique _ _ h hx⟩
  · simp only [reduceCtorEq, false_iff]
    exact h x

/-- What two accounts of one program say, it does together. -/
theorem wp_and {m : Eff σ ε α} (h : wp m Q E s) (h' : wp m Q' E' s) :
    wp m (fun a s' => Q a s' ∧ Q' a s') (fun e s' => E e s' ∧ E' e s') s := by
  simp only [wp] at h h' ⊢
  split <;> rename_i heq <;> rw [heq] at h h' <;> exact ⟨h, h'⟩

/-- A loop keeps what every pass of it keeps, and ends as the list does. -/
theorem wp_forM {I : List α → σ → Prop} {f : α → Eff σ ε Unit}
    (step : ∀ x xs s, I (x :: xs) s → wp (f x) (fun _ => I xs) E s) :
    ∀ (xs : List α) (s : σ), I xs s → wp (xs.forM f) (fun _ => I []) E s
  | [], s, h => h
  | x :: xs, s, h => by
    show wp (f x >>= fun _ => xs.forM f) (fun _ => I []) E s
    rw [wp_bind]
    exact wp_mono (step x xs s h) (fun _ s' h' => wp_forM step xs s' h') fun _ _ h' => h'

section Maintains

variable {I : σ → Prop}

/-- A program that keeps `I`, whether it returns or throws. -/
def Maintains (I : σ → Prop) (m : Eff σ ε α) : Prop :=
  ∀ s, I s → wp m (fun _ => I) (fun _ => I) s

theorem Maintains.pure (a : α) : Maintains I (pure a : Eff σ ε α) := fun _ h => h

theorem Maintains.throw (e : ε) : Maintains I (throw e : Eff σ ε α) := fun _ h => h

theorem Maintains.get : Maintains I (get : Eff σ ε σ) := fun _ h => h

theorem Maintains.modify {f : σ → σ} (h : ∀ s, I s → I (f s)) :
    Maintains I (modify f : Eff σ ε Unit) := h

theorem Maintains.bind {m : Eff σ ε α} {f : α → Eff σ ε β} (hm : Maintains I m)
    (hf : ∀ a, Maintains I (f a)) : Maintains I (m >>= f) := by
  intro s hs
  rw [wp_bind]
  exact wp_mono (hm s hs) (fun a s' h => hf a s' h) fun _ _ h => h

theorem Maintains.tryCatch {m : Eff σ ε α} {f : ε → Eff σ ε α} (hm : Maintains I m)
    (hf : ∀ e, Maintains I (f e)) : Maintains I (tryCatch m f) := by
  intro s hs
  rw [wp_tryCatch]
  exact wp_mono (hm s hs) (fun _ _ h => h) fun e s' h => hf e s' h

theorem Maintains.ite {p : Prop} [Decidable p] {m m' : Eff σ ε α} (hm : p → Maintains I m)
    (hm' : ¬p → Maintains I m') : Maintains I (if p then m else m') := by
  split_ifs with h
  · exact hm h
  · exact hm' h

theorem Maintains.forM {xs : List α} {f : α → Eff σ ε Unit} (h : ∀ x ∈ xs, Maintains I (f x)) :
    Maintains I (xs.forM f) := by
  induction xs with
  | nil => exact .pure ()
  | cons x xs ih =>
    exact .bind (h x List.mem_cons_self) fun _ => ih fun y hy => h y (List.mem_cons_of_mem _ hy)

end Maintains

end Effects
