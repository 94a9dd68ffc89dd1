import Mathlib.Data.List.Basic

/-! Heaps that remember.  An object is named by its position, so a name is never reused, and a cell
counts how often it was freed: a leak, a double free and a use after free are all visible. -/

namespace LibcShim.Kit

variable {α : Type*}

structure Cell (α : Type*) where
  value : α
  frees : Nat
  deriving DecidableEq

abbrev Heap (α : Type*) := List (Cell α)

theorem getElem?_snoc {l : List α} {x y : α} {i : Nat} :
    (l ++ [x])[i]? = some y ↔ l[i]? = some y ∨ i = l.length ∧ y = x := by
  rw [List.getElem?_append]
  split
  · rename_i hi
    exact ⟨Or.inl, fun h => h.elim id fun h => absurd h.1 (by omega)⟩
  · rename_i hi
    rw [List.getElem?_eq_none (l := l) (by omega)]
    by_cases he : i = l.length
    · subst he
      simp [eq_comm]
    · rw [List.getElem?_eq_none (by simp; omega)]
      simp [he]

namespace Heap

/-- The new object is the one at the old length. -/
def alloc (h : Heap α) (v : α) : Heap α := h ++ [⟨v, 0⟩]

def free (h : Heap α) (i : Nat) : Heap α := h.modify i fun c => { c with frees := c.frees + 1 }

def store (h : Heap α) (i : Nat) (v : α) : Heap α := h.modify i fun c => { c with value := v }

/-- The value of an object that is still allocated. -/
def load (h : Heap α) (i : Nat) : Option α :=
  h[i]?.bind fun c => if c.frees = 0 then some c.value else none

theorem load_eq {h : Heap α} {i : Nat} {v : α} : h.load i = some v ↔ h[i]? = some ⟨v, 0⟩ := by
  unfold load
  cases hc : h[i]? with
  | none => simp
  | some c =>
    obtain ⟨value, frees⟩ := c
    simp
    exact and_comm

theorem length_alloc (h : Heap α) (v : α) : (h.alloc v).length = h.length + 1 := by simp [alloc]

@[simp] theorem length_free (h : Heap α) (i : Nat) : (h.free i).length = h.length := by simp [free]

@[simp] theorem length_store (h : Heap α) (i : Nat) (v : α) : (h.store i v).length = h.length := by
  simp [store]

theorem getElem?_alloc {h : Heap α} {v : α} {i : Nat} {c : Cell α} :
    (h.alloc v)[i]? = some c ↔ h[i]? = some c ∨ i = h.length ∧ c = ⟨v, 0⟩ :=
  getElem?_snoc

theorem getElem?_alloc_old {h : Heap α} {v : α} {i : Nat} {c : Cell α} (hc : h[i]? = some c) :
    (h.alloc v)[i]? = some c := getElem?_alloc.mpr (Or.inl hc)

theorem getElem?_free_ne {h : Heap α} {i j : Nat} (hij : j ≠ i) : (h.free i)[j]? = h[j]? := by
  simp [free, Ne.symm hij]

theorem getElem?_free_same {h : Heap α} {i : Nat} :
    (h.free i)[i]? = h[i]?.map fun c => { c with frees := c.frees + 1 } := by
  simp [free]

theorem getElem?_free {h : Heap α} {i j : Nat} {c' : Cell α} :
    (h.free i)[j]? = some c' ↔
      ∃ c, h[j]? = some c ∧ c' = ⟨c.value, c.frees + if j = i then 1 else 0⟩ := by
  by_cases hij : j = i
  · subst hij
    rw [getElem?_free_same, Option.map_eq_some_iff]
    simp only [if_true]
    exact exists_congr fun c => and_congr_right fun _ => eq_comm
  · simp [getElem?_free_ne hij, hij]

theorem getElem?_store {h : Heap α} {i j : Nat} {v : α} {c' : Cell α} :
    (h.store i v)[j]? = some c' ↔
      ∃ c, h[j]? = some c ∧ c' = ⟨if j = i then v else c.value, c.frees⟩ := by
  simp only [store, List.getElem?_modify, Option.map_eq_map, Option.map_eq_some_iff]
  refine exists_congr fun c => and_congr_right fun _ => ?_
  by_cases hij : j = i
  · simp [hij, eq_comm]
  · simp [hij, Ne.symm hij, eq_comm]

theorem load_alloc_old {h : Heap α} {v w : α} {i : Nat} (hi : h.load i = some w) :
    (h.alloc v).load i = some w := load_eq.mpr (getElem?_alloc_old (load_eq.mp hi))

theorem load_alloc_new (h : Heap α) (v : α) : (h.alloc v).load h.length = some v :=
  load_eq.mpr (getElem?_alloc.mpr (Or.inr ⟨rfl, rfl⟩))

theorem load_free_ne {h : Heap α} {i j : Nat} (hij : j ≠ i) : (h.free i).load j = h.load j := by
  rw [load, getElem?_free_ne hij, load]

theorem load_free_same (h : Heap α) (i : Nat) : (h.free i).load i = none := by
  rw [load, getElem?_free_same]
  cases h[i]? <;> simp

theorem load_store_ne {h : Heap α} {i j : Nat} {v : α} (hij : j ≠ i) :
    (h.store i v).load j = h.load j := by
  simp [load, store, Ne.symm hij]

theorem load_store_same {h : Heap α} {i : Nat} {v w : α} (hi : h.load i = some w) :
    (h.store i v).load i = some v := by
  simp [load, store, load_eq.mp hi]

theorem load_mem {h : Heap α} {i : Nat} {v : α} (hi : h.load i = some v) : ⟨v, 0⟩ ∈ h :=
  List.mem_of_getElem? (load_eq.mp hi)

theorem map_alloc {β : Type*} (f : α → β) (h : Heap α) (v : α) :
    (h.alloc v).map (fun c => f c.value) = h.map (fun c => f c.value) ++ [f v] := by
  simp [alloc]

theorem map_free {β : Type*} (f : α → β) (h : Heap α) (i : Nat) :
    (h.free i).map (fun c => f c.value) = h.map fun c => f c.value := by
  refine List.ext_getElem? fun j => ?_
  by_cases hij : j = i
  · subst hij
    simp [getElem?_free_same, Function.comp_def]
  · simp [getElem?_free_ne hij]

/-- What a store leaves as it was in the object that it changes. -/
theorem map_store {β : Type*} {f : α → β} {h : Heap α} {i : Nat} {v w : α}
    (hi : h.load i = some v) (hf : f w = f v) :
    (h.store i w).map (fun c => f c.value) = h.map fun c => f c.value := by
  refine List.ext_getElem? fun j => ?_
  by_cases hij : i = j
  · subst hij
    simp [store, load_eq.mp hi, hf]
  · simp [store, hij]

theorem load_lt {h : Heap α} {i : Nat} {v : α} (hi : h.load i = some v) : i < h.length :=
  (List.getElem?_eq_some_iff.mp (load_eq.mp hi)).1

end Heap

end LibcShim.Kit
