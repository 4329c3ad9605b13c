import Mathlib

/-!
# Programs that run beside each other

A program performs operations one at a time and goes on with their answers; between two operations
others may change the state. What it does alone is `Prog.run`. `Within` says, by recursion on what
is left of a program, that each of its operations is one that a contract allows with what is known
then, whatever the answers are that the contract promises; it reads along `bind`. Where each program
of a pool keeps a contract, and what the others do keeps its promises, all of it holds at any time.
-/

namespace Interleaving

variable {Ω : Type → Type} {σ α β : Type}

/-- A program whose operations answer in types of their own. -/
inductive Prog (Ω : Type → Type) (α : Type) : Type 1 where
  | done (a : α)
  | call {β : Type} (op : Ω β) (next : β → Prog Ω α)

namespace Prog

def bind : Prog Ω α → (α → Prog Ω β) → Prog Ω β
  | done a, f => f a
  | call op next, f => call op fun b => (next b).bind f

instance : Monad (Prog Ω) where
  pure := done
  bind := bind

def ask (op : Ω α) : Prog Ω α := call op done

/-- The program alone with the state. -/
def run (perform : {γ : Type} → Ω γ → σ → γ × σ) : Prog Ω α → σ → α × σ
  | done a, s => (a, s)
  | call op next, s => (next (perform op s).1).run perform (perform op s).2

variable {perform : {γ : Type} → Ω γ → σ → γ × σ}

@[simp]
theorem run_bind (p : Prog Ω α) (f : α → Prog Ω β) (s : σ) :
    (p >>= f).run perform s = (f (p.run perform s).1).run perform (p.run perform s).2 := by
  show (p.bind f).run perform s = _
  induction p generalizing s with
  | done a => rfl
  | call op next ih => exact ih _ _

end Prog

/-- What the operations of a program ask before they are performed, what they promise of their
answers whatever the other programs do, and what is known after them. -/
structure Contract (Ω : Type → Type) (κ : Type) where
  pre : {β : Type} → κ → Ω β → Prop
  post : {β : Type} → κ → Ω β → β → Prop
  after : {β : Type} → κ → Ω β → β → κ

section Within

variable {κ : Type} {C : Contract Ω κ} {Q Q' : α → κ → Prop} {k : κ}

/-- The program only performs operations that the contract allows, and its result is as it should
be. -/
def Within (C : Contract Ω κ) (Q : α → κ → Prop) : Prog Ω α → κ → Prop
  | .done a, k => Q a k
  | .call op next, k => C.pre k op ∧ ∀ b, C.post k op b → Within C Q (next b) (C.after k op b)

theorem Within.mono {p : Prog Ω α} (h : Within C Q p k) (hQ : ∀ a k, Q a k → Q' a k) :
    Within C Q' p k := by
  induction p generalizing k with
  | done a => exact hQ a k h
  | call op next ih => exact ⟨h.1, fun b hb => ih b (h.2 b hb)⟩

theorem Within.bind {p : Prog Ω α} {f : α → Prog Ω β} {R : β → κ → Prop}
    (h : Within C (fun a => Within C R (f a)) p k) : Within C R (p >>= f) k := by
  show Within C R (p.bind f) k
  induction p generalizing k with
  | done a => exact h
  | call op next ih => exact ⟨h.1, fun b hb => ih b (h.2 b hb)⟩

/-- What no operation undoes stays. -/
theorem Within.frame {p : Prog Ω α} {F : κ → Prop}
    (hF : ∀ {β : Type} (k : κ) (op : Ω β) (b : β), F k → F (C.after k op b))
    (h : Within C Q p k) (hk : F k) : Within C (fun a k => Q a k ∧ F k) p k := by
  induction p generalizing k with
  | done a => exact ⟨h, hk⟩
  | call op next ih => exact ⟨h.1, fun b hb => ih b (h.2 b hb) (hF k op b hk)⟩

end Within

section Pool

variable {ι κ : Type} [DecidableEq ι]

/-- Programs beside each other over one state, each with what is known of it. -/
structure Pool (Ω : Type → Type) (ι κ σ α : Type) where
  state : σ
  known : ι → κ
  program : ι → Prog Ω α

variable (performs : {β : Type} → ι → Ω β → σ → β → σ → Prop)
  (after : {β : Type} → κ → Ω β → β → κ)

/-- One of the programs performs its next operation. -/
inductive Pool.Step : Pool Ω ι κ σ α → Pool Ω ι κ σ α → Prop
  | call (pool : Pool Ω ι κ σ α) (i : ι) {β : Type} (op : Ω β) (next : β → Prog Ω α) (b : β) (s : σ)
      (hi : pool.program i = .call op next) (hs : performs i op pool.state b s) :
      Step pool ⟨s, Function.update pool.known i (after (pool.known i) op b),
        Function.update pool.program i (next b)⟩

inductive Pool.Reached (start : Pool Ω ι κ σ α) : Pool Ω ι κ σ α → Prop
  | start : Reached start start
  | step {pool next : Pool Ω ι κ σ α} : Reached start pool → Pool.Step performs after pool next →
      Reached start next

variable {performs after} {C : ι → Contract Ω κ} {Q : ι → α → κ → Prop}
  {J : (ι → κ) → σ → Prop} {start pool : Pool Ω ι κ σ α}

/-- What is left of each program keeps to its contract. -/
def Pool.Keeps (C : ι → Contract Ω κ) (Q : ι → α → κ → Prop) (pool : Pool Ω ι κ σ α) : Prop :=
  ∀ i, Within (C i) (Q i) (pool.program i) (pool.known i)

theorem Pool.Reached.keeps (h : Pool.Reached performs after start pool)
    (hafter : ∀ {β : Type} i k (op : Ω β) b, (C i).after k op b = after k op b)
    (hstep : ∀ {β : Type} i (op : Ω β) known s b s', J known s → (C i).pre (known i) op →
      performs i op s b s' → (C i).post (known i) op b ∧
        J (Function.update known i (after (known i) op b)) s')
    (hstart : start.Keeps C Q) (hJ : J start.known start.state) :
    pool.Keeps C Q ∧ J pool.known pool.state := by
  induction h with
  | start => exact ⟨hstart, hJ⟩
  | step _ hstep' ih =>
    obtain ⟨hkeeps, hJ⟩ := ih
    cases hstep' with
    | call i op next b s hi hs =>
      have hwithin := hkeeps i
      rw [hi] at hwithin
      obtain ⟨hpost, hJ'⟩ := hstep i op _ _ b s hJ hwithin.1 hs
      refine ⟨fun j => ?_, hJ'⟩
      by_cases hj : j = i
      · subst hj
        have hnext := hwithin.2 b hpost
        rw [hafter] at hnext
        simpa only [Function.update_self] using hnext
      · simpa only [Function.update_of_ne hj] using hkeeps j

/-- The next operation of a program is performed. -/
theorem Pool.Reached.call (h : Pool.Reached performs after start pool) {i : ι} {β : Type}
    {op : Ω β} {next : β → Prog Ω α} {b : β} {s : σ} (hi : pool.program i = .call op next)
    (hs : performs i op pool.state b s) : ∃ pool', Pool.Reached performs after start pool' ∧
      pool'.program i = next b ∧ pool'.known i = after (pool.known i) op b ∧ pool'.state = s :=
  ⟨_, h.step (.call pool i op next b s hi hs), Function.update_self .., Function.update_self ..,
    rfl⟩

end Pool

end Interleaving
