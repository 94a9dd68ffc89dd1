import LibcShim.Kit.Heap
import LibcShim.Kit.Run

/-! A family of objects that know nothing of each other.  After any run an object is what its own
uses have made of it. -/

namespace LibcShim.Kit

variable {σ α : Type*}

inductive Use (σ α : Type*)
  | make (v : σ)
  | use (i : Nat) (a : α)
  | drop (i : Nat)

/-- Only an object that is there is used or dropped. -/
def objectsStep (act : σ → α → σ) (h : Heap σ) : Use σ α → Option (Heap σ)
  | .make v => some (h.alloc v)
  | .use i a => (h.load i).map fun v => h.store i (act v a)
  | .drop i => (h.load i).map fun _ => h.free i

/-- The objects at their start; the object `i` is the one made at place `i`. -/
def made (tr : List (Use σ α)) : List σ :=
  tr.filterMap fun | .make v => some v | _ => none

def uses (i : Nat) (tr : List (Use σ α)) : List α :=
  tr.filterMap fun | .use j a => if j = i then some a else none | _ => none

def drops (i : Nat) (tr : List (Use σ α)) : Nat :=
  tr.countP fun | .drop j => decide (j = i) | _ => false

section Projections

variable {i j : Nat} {tr : List (Use σ α)} {v : σ} {a : α}

@[simp] theorem made_make : made (tr ++ [.make v]) = made tr ++ [v] := by simp [made]

@[simp] theorem made_use : made (tr ++ [.use j a]) = made tr := by simp [made]

@[simp] theorem made_drop : made (tr ++ [.drop j]) = made tr := by simp [made]

@[simp] theorem uses_make : uses i (tr ++ [.make v]) = uses i tr := by simp [uses]

@[simp] theorem uses_drop : uses i (tr ++ [.drop j]) = uses i tr := by simp [uses]

theorem uses_use : uses i (tr ++ [.use j a]) = uses i tr ++ if j = i then [a] else [] := by
  unfold uses
  rw [List.filterMap_append]
  split <;> simp [*]

@[simp] theorem drops_make : drops i (tr ++ [.make v]) = drops i tr := by simp [drops]

@[simp] theorem drops_use : drops i (tr ++ [.use j a]) = drops i tr := by simp [drops]

theorem drops_drop : drops i (tr ++ [.drop j]) = drops i tr + if j = i then 1 else 0 := by
  unfold drops
  rw [List.countP_append]
  split <;> simp [*]

end Projections

/-- The heap after `tr`, cell by cell: an object is what its own uses have made of it, and counts
how often it was dropped. -/
structure Accounts (act : σ → α → σ) (tr : List (Use σ α)) (h : Heap σ) : Prop where
  length : h.length = (made tr).length
  cell : ∀ i : Nat, h[i]? = (made tr)[i]?.map fun v =>
    Cell.mk ((uses i tr).foldl act v) (drops i tr)
  once : ∀ i, drops i tr ≤ 1
  unmade : ∀ i, h.length ≤ i → uses i tr = [] ∧ drops i tr = 0

namespace Accounts

variable {act : σ → α → σ} {tr : List (Use σ α)} {h : Heap σ} {i : Nat} {v : σ}

theorem loaded (hAccounts : Accounts act tr h) (hLoad : h.load i = some v) :
    drops i tr = 0 ∧ i < h.length := by
  have hCell := hAccounts.cell i
  rw [Heap.load_eq.mp hLoad] at hCell
  obtain ⟨w, -, hEq⟩ := Option.map_eq_some_iff.mp hCell.symm
  exact ⟨congrArg Cell.frees hEq, Heap.load_lt hLoad⟩

theorem make (hAccounts : Accounts act tr h) (v : σ) :
    Accounts act (tr ++ [.make v]) (h.alloc v) where
  length := by simp [Heap.length_alloc, hAccounts.length]
  cell i := by
    rw [made_make, uses_make, drops_make, Heap.alloc, List.getElem?_append, List.getElem?_append,
      hAccounts.length]
    split
    · exact hAccounts.cell i
    · have hLength := hAccounts.length
      obtain ⟨hUses, hDrops⟩ := hAccounts.unmade i (by omega)
      rw [hUses, hDrops]
      cases i - (made tr).length <;> simp
  once i := by simpa using hAccounts.once i
  unmade i hi := by
    rw [Heap.length_alloc] at hi
    simpa using hAccounts.unmade i (by omega)

theorem use (hAccounts : Accounts act tr h) {j : Nat} (a : α) (hLoad : h.load j = some v) :
    Accounts act (tr ++ [.use j a]) (h.store j (act v a)) where
  length := by simp [hAccounts.length]
  cell i := by
    rw [made_use, drops_use, uses_use]
    have hCell := hAccounts.cell i
    by_cases hij : j = i
    · subst hij
      have hOld := Heap.load_eq.mp hLoad
      have hNew := Heap.load_eq.mp (Heap.load_store_same (v := act v a) hLoad)
      rw [hOld] at hCell
      obtain ⟨w, hMade, hEq⟩ := Option.map_eq_some_iff.mp hCell.symm
      obtain ⟨hValue, hDrops⟩ := Cell.mk.inj hEq
      rw [hNew, hMade, hDrops]
      simp [← hValue]
    · rw [if_neg hij, List.append_nil, ← hCell]
      simp [Heap.store, hij]
  once i := by simpa using hAccounts.once i
  unmade i hi := by
    have hj := (hAccounts.loaded hLoad).2
    have hij : j ≠ i := by
      rw [Heap.length_store] at hi
      omega
    rw [uses_use, if_neg hij]
    simpa using hAccounts.unmade i (by simpa using hi)

theorem drop (hAccounts : Accounts act tr h) {j : Nat} (hLoad : h.load j = some v) :
    Accounts act (tr ++ [.drop j]) (h.free j) where
  length := by simp [hAccounts.length]
  cell i := by
    rw [made_drop, uses_drop, drops_drop]
    have hCell := hAccounts.cell i
    by_cases hij : j = i
    · subst hij
      rw [Heap.getElem?_free_same, hCell]
      cases (made tr)[j]? <;> simp
    · rw [Heap.getElem?_free_ne (Ne.symm hij), hCell]
      simp [hij]
  once i := by
    rw [drops_drop]
    split
    · rename_i hij
      have hDrops := (hAccounts.loaded hLoad).1
      rw [hij] at hDrops
      omega
    · exact hAccounts.once i
  unmade i hi := by
    have hj := (hAccounts.loaded hLoad).2
    rw [Heap.length_free] at hi
    have hij : j ≠ i := by omega
    rw [uses_drop, drops_drop, if_neg hij]
    simpa using hAccounts.unmade i hi

end Accounts

theorem objects_history {act : σ → α → σ} {tr : List (Use σ α)} {h : Heap σ}
    (hRun : exec (objectsStep act) [] tr = some h) : Accounts act tr h := by
  refine exec_history (P := Accounts act) ?_ ?_ hRun
  · constructor <;> simp [made, uses, drops]
  · rintro tr h u h' - hAccounts hStep
    cases u with
    | make v =>
      obtain rfl : h.alloc v = h' := Option.some.inj hStep
      exact hAccounts.make v
    | use j a =>
      obtain ⟨w, hLoad, rfl⟩ := Option.map_eq_some_iff.mp hStep
      exact hAccounts.use a hLoad
    | drop j =>
      obtain ⟨w, hLoad, rfl⟩ := Option.map_eq_some_iff.mp hStep
      exact hAccounts.drop hLoad

end LibcShim.Kit
