import LibcShim.Kit.Run
import Mathlib.Logic.Function.Basic

/-! Threads over shared memory.  A pool is a shared state and a program counter for each thread, of
any type; a step picks one thread and one of its moves.  `pool_history` is the rule for invariants
of all interleavings: a part about the shared state and a part about each thread, both relative to
an auxiliary value, such that a thread's step restores both and disturbs no other thread's part. -/

namespace LibcShim.Kit

variable {ι σ π κ A : Type*}

structure Pool (ι σ π : Type*) where
  shared : σ
  pc : ι → π

variable [DecidableEq ι]

def poolStep (move : σ → π → κ → Option (σ × π)) (s : Pool ι σ π) (l : ι × κ) :
    Option (Pool ι σ π) :=
  (move s.shared (s.pc l.1) l.2).map fun r => ⟨r.1, Function.update s.pc l.1 r.2⟩

variable {move : σ → π → κ → Option (σ × π)}

theorem poolStep_eq {s s' : Pool ι σ π} {t : ι} {c : κ} :
    poolStep move s (t, c) = some s' ↔
      ∃ sh p, move s.shared (s.pc t) c = some (sh, p) ∧ s' = ⟨sh, Function.update s.pc t p⟩ := by
  simp only [poolStep, Option.map_eq_some_iff, Prod.exists]
  constructor
  · rintro ⟨sh, p, h, rfl⟩
    exact ⟨sh, p, h, rfl⟩
  · rintro ⟨sh, p, h, rfl⟩
    exact ⟨sh, p, h, rfl⟩

/-- Moves of one thread, with nothing in between, are a run of the pool. -/
theorem exec_alone {s : Pool ι σ π} {t : ι} {ks : List κ} {sh : σ} {p : π}
    (hRun : exec (fun (m : σ × π) k => move m.1 m.2 k) (s.shared, s.pc t) ks = some (sh, p)) :
    exec (poolStep move) s (ks.map fun k => (t, k)) = some ⟨sh, Function.update s.pc t p⟩ := by
  induction ks generalizing s with
  | nil =>
    obtain ⟨rfl, rfl⟩ := Prod.mk.inj (Option.some.inj hRun)
    simp
  | cons k ks ih =>
    obtain ⟨⟨sh', p'⟩, hMove, hRest⟩ := exec_cons.mp hRun
    refine exec_cons.mpr
      ⟨⟨sh', Function.update s.pc t p'⟩, poolStep_eq.mpr ⟨sh', p', hMove, rfl⟩, ?_⟩
    rw [ih (by simpa using hRest), Function.update_idem]

/-- The rule for interleavings.  `G` is about the moves so far and the shared state, `L` about one
thread; the auxiliary value may change at each step. -/
theorem pool_history {s₀ s : Pool ι σ π} {tr : List (ι × κ)} {G : List (ι × κ) → A → σ → Prop}
    {L : A → ι → σ → π → Prop}
    (h₀ : ∃ a, G [] a s₀.shared ∧ ∀ t, L a t s₀.shared (s₀.pc t))
    (hStep : ∀ tr a t c sh p sh' p', G tr a sh → L a t sh p → move sh p c = some (sh', p') →
      ∃ a', G (tr ++ [(t, c)]) a' sh' ∧ L a' t sh' p' ∧
        ∀ u q, u ≠ t → L a u sh q → L a' u sh' q)
    (hRun : exec (poolStep move) s₀ tr = some s) :
    ∃ a, G tr a s.shared ∧ ∀ t, L a t s.shared (s.pc t) := by
  refine exec_history
    (P := fun tr s => ∃ a, G tr a s.shared ∧ ∀ t, L a t s.shared (s.pc t)) h₀ ?_ hRun
  rintro tr s ⟨t, c⟩ s' - ⟨a, hG, hL⟩ hs
  obtain ⟨sh, p, hMove, rfl⟩ := poolStep_eq.mp hs
  obtain ⟨a', hG', hOwn, hOthers⟩ := hStep tr a t c _ _ sh p hG (hL t) hMove
  refine ⟨a', hG', fun u => ?_⟩
  by_cases hu : u = t
  · subst hu
    simpa using hOwn
  · simpa [hu] using hOthers u (s.pc u) hu (hL u)

end LibcShim.Kit
