import LibcShim.Kit.Pool
import Mathlib.Data.List.Infix
import Mathlib.Logic.ExistsUnique

/-! `pthread_once` on one control word, by any number of concurrent calls.  Each call is an entry of
the pool, so a thread that calls again, or from inside the routine, is another entry. -/

namespace LibcShim.Pthread.Once

open Kit

/-- Where a call of `pthread_once` stands. -/
inductive Pc
  | exchange
  | routine
  | running
  | store
  | test (c : Int)
  | spin
  | returned (ret : Int)
  deriving DecidableEq

inductive Move
  | exchange
  | start
  | finish
  | store
  | test
  | load
  deriving DecidableEq

/-- `pthread_once(control, routine)`, one atomic step at a time. -/
def pthreadOnce (control : Int) : Pc → Move → Option (Int × Pc)
  | .exchange, .exchange =>
    if control = 0 then some (1, .routine) else some (control, .test control)
  | .routine, .start => some (control, .running)
  | .running, .finish => some (control, .store)
  | .store, .store => some (2, .returned 0)
  | .test c, .test => some (control, if c = 2 then .returned 0 else .spin)
  | .spin, .load => some (control, if control = 1 then .spin else .returned 0)
  | _, _ => none

variable {ι : Type*}

def start : Pool ι Int Pc := ⟨0, fun _ => .exchange⟩

def Pc.Between : Pc → Prop
  | .routine | .running | .store => True
  | _ => False

def starts (tr : List (ι × Move)) : Nat := tr.countP fun l => l.2 = .start

def finishes (tr : List (ι × Move)) : Nat := tr.countP fun l => l.2 = .finish

/-! ### The stages of the control word -/

/-- How far the initialisation is, and through which call. -/
inductive Stage (ι : Type*)
  | fresh
  | won (winner : ι)
  | running (winner : ι)
  | ran (winner : ι)
  | done

namespace Stage

def holder : Stage ι → Option ι
  | .won w | .running w | .ran w => some w
  | .fresh | .done => none

def control : Stage ι → Int
  | .fresh => 0
  | .won _ | .running _ | .ran _ => 1
  | .done => 2

def starts : Stage ι → Nat
  | .fresh | .won _ => 0
  | .running _ | .ran _ | .done => 1

def finishes : Stage ι → Nat
  | .fresh | .won _ | .running _ => 0
  | .ran _ | .done => 1

theorem control_zero {a : Stage ι} : a.control = 0 ↔ a = .fresh := by
  cases a <;> simp [control]

theorem control_two {a : Stage ι} : a.control = 2 ↔ a = .done := by
  cases a <;> simp [control]

theorem control_one {a : Stage ι} : a.control = 1 ↔ ∃ w, a.holder = some w := by
  cases a <;> simp [control, holder]

theorem holder_ne {a : Stage ι} {t u : ι} (h : a.holder = some t) (hu : u ≠ t) :
    a.holder ≠ some u := by
  rw [h]
  exact fun hEq => hu (Option.some.inj hEq).symm

theorem not_done {a : Stage ι} (hFresh : a ≠ .fresh) (hOne : a.control ≠ 1) : a = .done := by
  cases a <;> simp_all [control]

end Stage

def Global (tr : List (ι × Move)) (a : Stage ι) (control : Int) : Prop :=
  control = a.control ∧ starts tr = a.starts ∧ finishes tr = a.finishes

/-- What the stage says of the call `t`: only the winner is between its exchange and its store, the
losers know that the exchange is done, and a call that returned knows that all is done. -/
def Local (a : Stage ι) (t : ι) : Pc → Prop
  | .exchange => a.holder ≠ some t
  | .routine => a = .won t
  | .running => a = .running t
  | .store => a = .ran t
  | .test c => a.holder ≠ some t ∧ a ≠ .fresh ∧ (c = 2 → a = .done)
  | .spin => a.holder ≠ some t ∧ a ≠ .fresh
  | .returned ret => ret = 0 ∧ a = .done

/-- A call other than the winner does not see the winner's progress, except that it ends. -/
theorem local_frame {a a' : Stage ι} {u : ι} (h : a.holder ≠ some u) (h' : a'.holder ≠ some u)
    (hFresh : a' ≠ .fresh) (hDone : a = .done → a' = .done) :
    ∀ {p : Pc}, Local a u p → Local a' u p
  | .exchange, _ => h'
  | .routine, hp => absurd (by rw [show a = .won u from hp]; rfl) h
  | .running, hp => absurd (by rw [show a = .running u from hp]; rfl) h
  | .store, hp => absurd (by rw [show a = .ran u from hp]; rfl) h
  | .test _, hp => ⟨h', hFresh, fun hc => hDone (hp.2.2 hc)⟩
  | .spin, _ => ⟨h', hFresh⟩
  | .returned _, hp => ⟨hp.1, hDone hp.2⟩

/-- A move that brings the stage from `a` to `a'` counts as a start or a finish of the routine
exactly when the stage counts one more. -/
theorem Global.snoc {tr : List (ι × Move)} {a a' : Stage ι} {control : Int} {t : ι} {c : Move}
    (h : Global tr a control) (hStarts : a'.starts = a.starts + if c = .start then 1 else 0)
    (hFinishes : a'.finishes = a.finishes + if c = .finish then 1 else 0) :
    Global (tr ++ [(t, c)]) a' a'.control := by
  obtain ⟨-, hs, hf⟩ := h
  refine ⟨rfl, ?_, ?_⟩
  · rw [hStarts, ← hs, starts, starts, List.countP_append]
    cases c <;> rfl
  · rw [hFinishes, ← hf, finishes, finishes, List.countP_append]
    cases c <;> rfl

theorem stage_exists [DecidableEq ι] {s : Pool ι Int Pc} {tr : List (ι × Move)}
    (hRun : exec (poolStep pthreadOnce) start tr = some s) :
    ∃ a : Stage ι, Global tr a s.shared ∧ ∀ t, Local a t (s.pc t) := by
  refine pool_history (L := fun a t _ p => Local a t p)
    ⟨.fresh, ⟨rfl, rfl, rfl⟩, fun t => by simp [start, Local, Stage.holder]⟩ ?_ hRun
  intro tr a t c sh p sh' p' hG hL hMove
  obtain rfl : sh = a.control := hG.1
  cases p with
  | exchange =>
    cases c <;> simp only [pthreadOnce, reduceCtorEq] at hMove
    split at hMove
    · obtain ⟨rfl, rfl⟩ := Prod.mk.inj (Option.some.inj hMove)
      obtain rfl := Stage.control_zero.mp ‹_›
      exact ⟨.won t, hG.snoc rfl rfl, rfl, fun u _ hu hq =>
        local_frame (a := .fresh) (by simp [Stage.holder]) (Stage.holder_ne rfl hu) (by simp)
          (by simp) hq⟩
    · obtain ⟨rfl, rfl⟩ := Prod.mk.inj (Option.some.inj hMove)
      have hFresh : a ≠ .fresh := fun h => ‹¬_› (Stage.control_zero.mpr h)
      exact ⟨a, hG.snoc rfl rfl, ⟨hL, hFresh, Stage.control_two.mp⟩, fun _ _ _ h => h⟩
  | routine =>
    obtain rfl : a = .won t := hL
    cases c <;> simp only [pthreadOnce, reduceCtorEq, Option.some.injEq, Prod.mk.injEq] at hMove
    obtain ⟨rfl, rfl⟩ := hMove
    exact ⟨.running t, hG.snoc rfl rfl, rfl, fun u _ hu hq =>
      local_frame (Stage.holder_ne rfl hu) (Stage.holder_ne rfl hu) (by simp) (by simp) hq⟩
  | running =>
    obtain rfl : a = .running t := hL
    cases c <;> simp only [pthreadOnce, reduceCtorEq, Option.some.injEq, Prod.mk.injEq] at hMove
    obtain ⟨rfl, rfl⟩ := hMove
    exact ⟨.ran t, hG.snoc rfl rfl, rfl, fun u _ hu hq =>
      local_frame (Stage.holder_ne rfl hu) (Stage.holder_ne rfl hu) (by simp) (by simp) hq⟩
  | store =>
    obtain rfl : a = .ran t := hL
    cases c <;> simp only [pthreadOnce, reduceCtorEq, Option.some.injEq, Prod.mk.injEq] at hMove
    obtain ⟨rfl, rfl⟩ := hMove
    exact ⟨.done, hG.snoc rfl rfl, ⟨rfl, rfl⟩, fun u _ hu hq =>
      local_frame (Stage.holder_ne rfl hu) (by simp [Stage.holder]) (by simp) (fun _ => rfl) hq⟩
  | test v =>
    cases c <;> simp only [pthreadOnce, reduceCtorEq, Option.some.injEq, Prod.mk.injEq] at hMove
    obtain ⟨rfl, rfl⟩ := hMove
    refine ⟨a, hG.snoc rfl rfl, ?_, fun _ _ _ h => h⟩
    split
    · exact ⟨rfl, hL.2.2 ‹_›⟩
    · exact ⟨hL.1, hL.2.1⟩
  | spin =>
    cases c <;> simp only [pthreadOnce, reduceCtorEq, Option.some.injEq, Prod.mk.injEq] at hMove
    obtain ⟨rfl, rfl⟩ := hMove
    refine ⟨a, hG.snoc rfl rfl, ?_, fun _ _ _ h => h⟩
    split
    · exact hL
    · exact ⟨rfl, Stage.not_done hL.2 ‹_›⟩
  | returned ret => cases c <;> simp [pthreadOnce] at hMove

/-! ### Once, and a barrier -/

theorem control_step {a : Stage ι} {t : ι} {p p' : Pc} {c : Move} {v : Int} (hL : Local a t p)
    (hMove : pthreadOnce a.control p c = some (v, p')) :
    v = a.control ∨ a.control = 0 ∧ v = 1 ∨ a.control = 1 ∧ v = 2 := by
  cases p <;> cases c <;>
    simp only [pthreadOnce, reduceCtorEq, Option.some.injEq, Prod.mk.injEq] at hMove
  case exchange.exchange =>
    split at hMove <;> obtain ⟨rfl, rfl⟩ := Prod.mk.inj (Option.some.inj hMove)
    · exact Or.inr (Or.inl ⟨‹_›, rfl⟩)
    · exact Or.inl rfl
  case store.store =>
    obtain rfl : a = .ran t := hL
    exact Or.inr (Or.inr ⟨rfl, hMove.1.symm⟩)
  all_goals exact Or.inl hMove.1.symm

def path (control : Int) : List (Int × Int) :=
  if control = 0 then [] else if control = 1 then [(0, 1)] else [(0, 1), (1, 2)]

theorem control_changes [DecidableEq ι] {s : Pool ι Int Pc} {tr : List (ι × Move)}
    (hRun : exec (poolStep pthreadOnce) start tr = some s) :
    changes (poolStep pthreadOnce) Pool.shared start tr = path s.shared := by
  refine changes_eq rfl ?_ hRun
  rintro tr s ⟨t, c⟩ s' h hs hNe
  obtain ⟨a, ⟨hControl, -⟩, hLocal⟩ := stage_exists h
  obtain ⟨v, p, hMove, rfl⟩ := poolStep_eq.mp hs
  rw [hControl] at hMove hNe ⊢
  rcases control_step (hLocal t) hMove with hv | ⟨h0, hv⟩ | ⟨h1, hv⟩
  · exact absurd hv.symm hNe
  · simp [path, h0, hv]
  · simp [path, h1, hv]

theorem local_between {a : Stage ι} {t : ι} {p : Pc} (hL : Local a t p) :
    p.Between ↔ a.holder = some t := by
  cases p with
  | exchange => exact iff_of_false id hL
  | routine | running | store =>
    simp only [Local] at hL
    subst hL
    exact iff_of_true trivial rfl
  | test c => exact iff_of_false id hL.1
  | spin => exact iff_of_false id hL.1
  | returned ret =>
    obtain ⟨-, rfl⟩ := hL
    exact iff_of_false id (by simp [Stage.holder])

/-- `pthread_once` runs its routine once and is a barrier: in every interleaving of any number of
calls, the control word only moves 0, 1, 2; the routine is started at most once; while the word is
1, exactly one call is between its exchange and its store; and a call that has returned finds the
routine started and completed. -/
theorem pthread_once_barrier [DecidableEq ι] {s : Pool ι Int Pc} {tr : List (ι × Move)}
    (hRun : exec (poolStep pthreadOnce) start tr = some s) :
    changes (poolStep pthreadOnce) Pool.shared start tr <+: [(0, 1), (1, 2)] ∧
    starts tr ≤ 1 ∧
    (s.shared = 1 → ∃! t, (s.pc t).Between) ∧
    ∀ t ret, s.pc t = .returned ret → ret = 0 ∧ starts tr = 1 ∧ finishes tr = 1 := by
  obtain ⟨a, ⟨hControl, hStarts, hFinishes⟩, hLocal⟩ := stage_exists hRun
  refine ⟨?_, ?_, ?_, ?_⟩
  · rw [control_changes hRun, path]
    split_ifs
    · exact List.nil_prefix
    · exact ⟨[(1, 2)], rfl⟩
    · exact List.prefix_rfl
  · rw [hStarts]
    cases a <;> simp [Stage.starts]
  · intro hOne
    obtain ⟨w, hw⟩ := Stage.control_one.mp (hControl.symm.trans hOne)
    refine ⟨w, (local_between (hLocal w)).mpr hw, fun t ht => ?_⟩
    have ht' := (local_between (hLocal t)).mp ht
    exact Option.some.inj (ht'.symm.trans hw)
  · intro t ret ht
    have hL := hLocal t
    rw [ht] at hL
    obtain ⟨hRet, rfl⟩ := hL
    exact ⟨hRet, hStarts, hFinishes⟩

/-- Two calls: the second one loses the exchange and spins until the first has stored 2. -/
def twoCalls : List (Bool × Move) :=
  [(true, .exchange), (false, .exchange), (true, .start), (false, .test), (false, .load),
    (true, .finish), (true, .store), (false, .load)]

theorem pthread_once_two_calls : ∃ s, exec (poolStep pthreadOnce) start twoCalls = some s ∧
    s.pc false = .returned 0 ∧
    changes (poolStep pthreadOnce) Pool.shared start twoCalls <+: [(0, 1), (1, 2)] ∧
    starts twoCalls ≤ 1 ∧ (s.shared = 1 → ∃! t, (s.pc t).Between) ∧
    ∀ t ret, s.pc t = .returned ret → ret = 0 ∧ starts twoCalls = 1 ∧ finishes twoCalls = 1 :=
  ⟨_, rfl, rfl, pthread_once_barrier rfl⟩

end LibcShim.Pthread.Once
