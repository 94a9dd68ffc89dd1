import Mathlib.Data.List.Induction

/-! Runs of a labelled transition system.  A step function `step : σ → α → Option σ` gives the state
after a label, if the state admits it; a label carries the choices that the environment makes.  A
run is a list of labels.  The rules derive a fact about every run from a fact about one step. -/

namespace LibcShim.Kit

variable {σ α β : Type*}

/-- The state after the labels `tr` from `s`, when every step is admitted. -/
def exec (step : σ → α → Option σ) : σ → List α → Option σ
  | s, [] => some s
  | s, a :: tr => (step s a).bind fun s' => exec step s' tr

variable {step : σ → α → Option σ}

@[simp] theorem exec_nil (s : σ) : exec step s [] = some s := rfl

theorem exec_cons {s u : σ} {a : α} {tr : List α} :
    exec step s (a :: tr) = some u ↔ ∃ s', step s a = some s' ∧ exec step s' tr = some u :=
  Option.bind_eq_some_iff

theorem exec_append {s u : σ} {tr tr' : List α} :
    exec step s (tr ++ tr') = some u ↔
      ∃ m, exec step s tr = some m ∧ exec step m tr' = some u := by
  induction tr generalizing s with
  | nil => simp
  | cons a tr ih =>
    simp only [List.cons_append, exec_cons, ih]
    constructor
    · rintro ⟨s', hs, m, hm, hu⟩
      exact ⟨m, ⟨s', hs, hm⟩, hu⟩
    · rintro ⟨m, ⟨s', hs, hm⟩, hu⟩
      exact ⟨s', hs, m, hm, hu⟩

theorem exec_snoc {s u : σ} {a : α} {tr : List α} :
    exec step s (tr ++ [a]) = some u ↔ ∃ m, exec step s tr = some m ∧ step m a = some u := by
  simp [exec_append, exec_cons]

/-- A fact about the labels so far and the current state holds after every run when it holds at
the start and each admitted step keeps it. -/
theorem exec_history {s₀ s : σ} {tr : List α} {P : List α → σ → Prop} (h₀ : P [] s₀)
    (hStep : ∀ tr s a s', exec step s₀ tr = some s → P tr s → step s a = some s' →
      P (tr ++ [a]) s')
    (hRun : exec step s₀ tr = some s) : P tr s := by
  induction tr using List.reverseRecOn generalizing s with
  | nil =>
    obtain rfl : s₀ = s := Option.some.inj hRun
    exact h₀
  | append_singleton tr a ih =>
    obtain ⟨m, hm, ha⟩ := exec_snoc.mp hRun
    exact hStep tr m a s hm (ih hm) ha

theorem exec_invariant {s₀ s : σ} {tr : List α} {I : σ → Prop} (h₀ : I s₀)
    (hStep : ∀ s a s', I s → step s a = some s' → I s') (hRun : exec step s₀ tr = some s) : I s :=
  exec_history (P := fun _ s => I s) h₀ (fun _ s a s' _ hI ha => hStep s a s' hI ha) hRun

/-! ### Two systems in step -/

/-- Two systems that take the same steps from related states run alike from related states. -/
theorem exec_lockstep {τ : Type*} {step' : τ → α → Option τ} {R : σ → τ → Prop}
    (hStep : ∀ s t a, R s t → Option.Rel R (step s a) (step' t a)) {s : σ} {t : τ} (hR : R s t)
    (tr : List α) : Option.Rel R (exec step s tr) (exec step' t tr) := by
  induction tr generalizing s t with
  | nil => exact .some hR
  | cons a tr ih =>
    have hNext := hStep s t a hR
    simp only [exec]
    generalize step s a = next, step' t a = next' at hNext
    cases hNext with
    | none => exact .none
    | some hR' => exact ih hR'

/-! ### States visited along a run -/

/-- The run `tr` from `s` passes through `m` (its first and its last state included). -/
def Visits (step : σ → α → Option σ) (s : σ) (tr : List α) (m : σ) : Prop :=
  ∃ before after, tr = before ++ after ∧ exec step s before = some m

theorem visits_start (s : σ) (tr : List α) : Visits step s tr s := ⟨[], tr, rfl, rfl⟩

theorem visits_nil {s m : σ} : Visits step s [] m ↔ m = s := by
  constructor
  · rintro ⟨before, after, hSplit, hRun⟩
    obtain ⟨rfl, rfl⟩ := List.append_eq_nil_iff.mp hSplit.symm
    exact (Option.some.inj hRun).symm
  · rintro rfl
    exact ⟨[], [], rfl, rfl⟩

theorem visits_cons {s m : σ} {a : α} {tr : List α} :
    Visits step s (a :: tr) m ↔ m = s ∨ ∃ s', step s a = some s' ∧ Visits step s' tr m := by
  constructor
  · rintro ⟨before, after, hSplit, hRun⟩
    cases before with
    | nil => exact Or.inl (Option.some.inj hRun).symm
    | cons b before =>
      obtain ⟨rfl, rfl⟩ := List.cons.inj hSplit
      obtain ⟨s', hs, hm⟩ := exec_cons.mp hRun
      exact Or.inr ⟨s', hs, before, after, rfl, hm⟩
  · rintro (rfl | ⟨s', hs, before, after, rfl, hm⟩)
    · exact ⟨[], a :: tr, rfl, rfl⟩
    · exact ⟨a :: before, after, rfl, exec_cons.mpr ⟨s', hs, hm⟩⟩

/-- `C` holds at each step of the run `tr` from `s`, of the state before the step and its label. -/
def Along (step : σ → α → Option σ) (C : σ → α → Prop) : σ → List α → Prop
  | _, [] => True
  | s, a :: tr => C s a ∧ ∀ s', step s a = some s' → Along step C s' tr

theorem along_iff {s : σ} {tr : List α} {C : σ → α → Prop} :
    Along step C s tr ↔
      ∀ before a after m, tr = before ++ a :: after → exec step s before = some m → C m a := by
  induction tr generalizing s with
  | nil => simp [Along]
  | cons a tr ih =>
    simp only [Along, ih]
    constructor
    · rintro ⟨hC, hRest⟩ before b after m hSplit hm
      cases before with
      | nil =>
        obtain ⟨rfl, rfl⟩ := List.cons.inj hSplit
        obtain rfl : s = m := Option.some.inj hm
        exact hC
      | cons c before =>
        obtain ⟨rfl, hTail⟩ := List.cons.inj hSplit
        obtain ⟨s', hs, hm⟩ := exec_cons.mp hm
        exact hRest s' hs before b after m hTail hm
    · intro hAll
      refine ⟨hAll [] a tr s rfl rfl, fun s' hs before b after m hSplit hm => ?_⟩
      exact hAll (a :: before) b after m (by rw [hSplit, List.cons_append])
        (exec_cons.mpr ⟨s', hs, hm⟩)

/-- Two conditions that agree on the steps of the reachable states hold along the same runs. -/
theorem along_congr {s u : σ} {tr : List α} {I : σ → Prop} {C D : σ → α → Prop}
    (hStep : ∀ s a s', I s → step s a = some s' → I s')
    (hAgree : ∀ s a s', I s → step s a = some s' → (C s a ↔ D s a)) (hI : I s)
    (hRun : exec step s tr = some u) : Along step C s tr ↔ Along step D s tr := by
  induction tr generalizing s with
  | nil => exact Iff.rfl
  | cons a tr ih =>
    obtain ⟨s', hs, hu⟩ := exec_cons.mp hRun
    have hRest := ih (hStep s a s' hI hs) hu
    simp only [Along, hs, Option.some.injEq, hAgree s a s' hI hs]
    constructor
    · rintro ⟨hD, hAll⟩
      exact ⟨hD, fun t ht => ht ▸ hRest.mp (hAll s' rfl)⟩
    · rintro ⟨hD, hAll⟩
      exact ⟨hD, fun t ht => ht ▸ hRest.mpr (hAll s' rfl)⟩

/-- A system that takes the steps of another one where these meet `C`, and stops where they do not:
along a run that meets `C` the two run alike, and any other run stops. -/
theorem exec_lockstep_along {τ : Type*} {step' : τ → α → Option τ} {R : σ → τ → Prop}
    {C : τ → α → Prop}
    (hStep : ∀ s t a, R s t → C t a → Option.Rel R (step s a) (step' t a))
    (hStuck : ∀ s t a, R s t → ¬C t a → step s a = none) {s : σ} {t : τ} (hR : R s t)
    (tr : List α) :
    (Along step' C t tr → Option.Rel R (exec step s tr) (exec step' t tr)) ∧
      (¬Along step' C t tr → exec step s tr = none) := by
  induction tr generalizing s t with
  | nil => exact ⟨fun _ => .some hR, fun hNot => absurd trivial hNot⟩
  | cons a tr ih =>
    by_cases hC : C t a
    · have hNext := hStep s t a hR hC
      simp only [exec, Along, hC, true_and]
      generalize step s a = next, step' t a = next' at hNext
      cases hNext with
      | none => exact ⟨fun _ => .none, fun _ => rfl⟩
      | @some s' t' hR' =>
        obtain ⟨hAlike, hStops⟩ := ih hR'
        refine ⟨fun hAlong => hAlike (hAlong t' rfl), fun hNot => hStops fun hAlong => hNot ?_⟩
        rintro u ⟨⟩
        exact hAlong
    · refine ⟨fun hAlong => absurd hAlong.1 hC, fun _ => ?_⟩
      rw [exec, hStuck s t a hR hC]
      rfl

theorem visits_invariant {s m : σ} {tr : List α} {I : σ → Prop} {C : σ → α → Prop}
    (hStep : ∀ s a s', I s → C s a → step s a = some s' → I s') (hI : I s)
    (hC : Along step C s tr) (hm : Visits step s tr m) : I m := by
  induction tr generalizing s with
  | nil =>
    obtain rfl := visits_nil.mp hm
    exact hI
  | cons a tr ih =>
    rcases visits_cons.mp hm with rfl | ⟨s', hs, hm⟩
    · exact hI
    · exact ih (hStep s a s' hI hC.1 hs) (hC.2 s' hs) hm

/-- When a step that fails `C` always breaks the invariant, an admitted run keeps the invariant in
every state exactly when all its steps meet `C`. -/
theorem visits_invariant_iff {s u : σ} {tr : List α} {I : σ → Prop} {C : σ → α → Prop}
    (hStep : ∀ s a s', I s → step s a = some s' → (I s' ↔ C s a)) (hI : I s)
    (hRun : exec step s tr = some u) :
    (∀ m, Visits step s tr m → I m) ↔ Along step C s tr := by
  constructor
  · intro hAll
    induction tr generalizing s with
    | nil => trivial
    | cons a tr ih =>
      obtain ⟨s', hs, hu⟩ := exec_cons.mp hRun
      have hI' : I s' := hAll s' (visits_cons.mpr (Or.inr ⟨s', hs, visits_start s' tr⟩))
      refine ⟨(hStep s a s' hI hs).mp hI', fun t ht => ?_⟩
      obtain rfl : s' = t := Option.some.inj (hs.symm.trans ht)
      exact ih hI' hu fun m hm => hAll m (visits_cons.mpr (Or.inr ⟨s', hs, hm⟩))
  · intro hC m hm
    exact visits_invariant (fun s a s' hI hCa ha => (hStep s a s' hI ha).mpr hCa) hI hC hm

theorem along_iff_forall {s u : σ} {tr : List α} {C : α → Prop} (hRun : exec step s tr = some u) :
    Along step (fun _ a => C a) s tr ↔ ∀ a ∈ tr, C a := by
  induction tr generalizing s with
  | nil => simp [Along]
  | cons a tr ih =>
    obtain ⟨s', hs, hu⟩ := exec_cons.mp hRun
    simp only [Along, hs, Option.some.injEq, List.forall_mem_cons, ← ih hu]
    simp

/-! ### The values that an observation of the state takes -/

/-- The changes of `f` along a run, each as the value before and the value after, in order. -/
def changes [DecidableEq β] (step : σ → α → Option σ) (f : σ → β) : σ → List α → List (β × β)
  | _, [] => []
  | s, a :: tr =>
    match step s a with
    | none => []
    | some s' => (if f s = f s' then [] else [(f s, f s')]) ++ changes step f s' tr

theorem changes_snoc [DecidableEq β] {f : σ → β} {s m u : σ} {a : α} {tr : List α}
    (hRun : exec step s tr = some m) (ha : step m a = some u) :
    changes step f s (tr ++ [a]) =
      changes step f s tr ++ if f m = f u then [] else [(f m, f u)] := by
  induction tr generalizing s with
  | nil =>
    obtain rfl : s = m := Option.some.inj hRun
    simp [changes, ha]
  | cons b tr ih =>
    obtain ⟨s', hs, hm⟩ := exec_cons.mp hRun
    simp [changes, hs, ih hm]

/-- When the changes that led to a value are a function `path` of that value, they are the changes
of the whole run. -/
theorem changes_eq [DecidableEq β] {f : σ → β} {s₀ s : σ} {tr : List α} {path : β → List (β × β)}
    (h₀ : path (f s₀) = [])
    (hStep : ∀ tr s a s', exec step s₀ tr = some s → step s a = some s' → f s ≠ f s' →
      path (f s') = path (f s) ++ [(f s, f s')])
    (hRun : exec step s₀ tr = some s) : changes step f s₀ tr = path (f s) := by
  refine exec_history (P := fun tr s => changes step f s₀ tr = path (f s)) h₀.symm ?_ hRun
  intro tr s a s' hRun ih ha
  rw [changes_snoc hRun ha, ih]
  by_cases h : f s = f s'
  · simp [h]
  · rw [if_neg h, hStep tr s a s' hRun ha h]

end LibcShim.Kit
