import LibcShim.Kit.Chain
import Mathlib.Data.List.Perm.Subperm

/-! Who owns which block.  The owned blocks of a heap are those in use; an operation is specified by
the blocks it is given and the blocks it gives back, and leaves every other owned block as it is.
The lists here are linked records that own further blocks. -/

namespace LibcShim.Kit

variable {α β : Type*}

namespace Heap

/-- The blocks in use are `owned`, each named once; every other block was freed exactly once. -/
structure Owns (h : Heap α) (owned : List Nat) : Prop where
  nodup : owned.Nodup
  lt : ∀ i ∈ owned, i < h.length
  frees : ∀ i c, h[i]? = some c → c.frees = if i ∈ owned then 0 else 1

/-- The blocks `ids` have not changed. -/
def Same (h h' : Heap α) (ids : List Nat) : Prop := ∀ i ∈ ids, h'[i]? = h[i]?

theorem Same.refl (h : Heap α) (ids : List Nat) : Same h h ids := fun _ _ => rfl

theorem Same.trans {h h' h'' : Heap α} {ids : List Nat} (hFirst : Same h h' ids)
    (hSecond : Same h' h'' ids) : Same h h'' ids :=
  fun i hi => (hSecond i hi).trans (hFirst i hi)

theorem Same.subset {h h' : Heap α} {ids ids' : List Nat} (hSame : Same h h' ids)
    (hSub : ids' ⊆ ids) : Same h h' ids' :=
  fun i hi => hSame i (hSub hi)

theorem Same.load {h h' : Heap α} {ids : List Nat} (hSame : Same h h' ids) {i : Nat}
    (hi : i ∈ ids) : h'.load i = h.load i := by
  rw [Heap.load, hSame i hi, Heap.load]

section Owns

variable {h : Heap α} {owned owned' rest : List Nat} {i : Nat} {v : α}

theorem owns_empty : Owns ([] : Heap α) [] :=
  ⟨List.nodup_nil, by simp, by simp⟩

theorem Owns.perm (hOwns : Owns h owned) (hPerm : owned.Perm owned') : Owns h owned' where
  nodup := hPerm.nodup_iff.mp hOwns.nodup
  lt i hi := hOwns.lt i (hPerm.mem_iff.mpr hi)
  frees i c hc := by
    rw [hOwns.frees i c hc]
    simp only [hPerm.mem_iff]

/-- A block is in use exactly when it is owned. -/
theorem Owns.load_iff (hOwns : Owns h owned) : (∃ v, h.load i = some v) ↔ i ∈ owned := by
  constructor
  · rintro ⟨v, hLoad⟩
    have hFrees := hOwns.frees i _ (load_eq.mp hLoad)
    by_contra hMem
    simp [hMem] at hFrees
  · intro hMem
    obtain ⟨⟨v, frees⟩, hCell⟩ : ∃ c, h[i]? = some c :=
      ⟨_, List.getElem?_eq_getElem (hOwns.lt i hMem)⟩
    have hFrees : frees = 0 := by simpa [hMem] using hOwns.frees i _ hCell
    exact ⟨v, load_eq.mpr (hFrees ▸ hCell)⟩

theorem Owns.alloc (hOwns : Owns h owned) (v : α) : Owns (h.alloc v) (h.length :: owned) where
  nodup := List.nodup_cons.mpr ⟨fun hMem => Nat.lt_irrefl _ (hOwns.lt _ hMem), hOwns.nodup⟩
  lt i hi := by
    rw [length_alloc]
    rcases List.mem_cons.mp hi with rfl | hi
    · exact Nat.lt_succ_self _
    · exact Nat.lt_succ_of_lt (hOwns.lt i hi)
  frees i c hc := by
    rcases getElem?_alloc.mp hc with hOld | ⟨rfl, rfl⟩
    · have hOther : i ≠ h.length := Nat.ne_of_lt (List.getElem?_eq_some_iff.mp hOld).1
      rw [hOwns.frees i c hOld]
      simp [hOther]
    · simp

theorem Owns.alloc_same (hOwns : Owns h owned) : Same h (h.alloc v) owned := by
  intro i hi
  rw [Heap.alloc, List.getElem?_append_left (hOwns.lt i hi)]

/-- The block given to `free` is the first. -/
theorem Owns.free (hOwns : Owns h (i :: rest)) : Owns (h.free i) rest where
  nodup := hOwns.nodup.of_cons
  lt j hj := by
    rw [length_free]
    exact hOwns.lt j (List.mem_cons_of_mem _ hj)
  frees j c hc := by
    obtain ⟨c, hOld, rfl⟩ := getElem?_free.mp hc
    have hNotRest : i ∉ rest := (List.nodup_cons.mp hOwns.nodup).1
    rw [hOwns.frees j c hOld]
    by_cases hij : j = i
    · subst hij
      simp [hNotRest]
    · simp [hij]

theorem Owns.free_same (hOwns : Owns h (i :: rest)) : Same h (h.free i) rest := by
  intro j hj
  refine getElem?_free_ne ?_
  rintro rfl
  exact (List.nodup_cons.mp hOwns.nodup).1 hj

theorem Owns.modify {f : Cell α → Cell α} (hOwns : Owns h owned)
    (hFrees : ∀ c, (f c).frees = c.frees) : Owns (h.modify i f) owned where
  nodup := hOwns.nodup
  lt j hj := by
    rw [List.length_modify]
    exact hOwns.lt j hj
  frees j c hc := by
    rw [List.getElem?_modify] at hc
    obtain ⟨c, hOld, rfl⟩ := Option.map_eq_some_iff.mp hc
    rw [← hOwns.frees j c hOld]
    split <;> simp [hFrees]

theorem modify_same {f : Cell α → Cell α} (hOther : i ∉ rest) : Same h (h.modify i f) rest := by
  intro j hj
  have hij : i ≠ j := by
    rintro rfl
    exact hOther hj
  simp [hij]

end Owns

end Heap

open Heap

/-- `free` of each of `ids`, in this order. -/
def freeAll (h : Heap α) (ids : List Nat) : Heap α := ids.foldl Heap.free h

theorem freeAll_owns {h : Heap α} {ids rest : List Nat} (hOwns : Owns h (ids ++ rest)) :
    Owns (freeAll h ids) rest ∧ Same h (freeAll h ids) rest := by
  induction ids generalizing h with
  | nil => exact ⟨hOwns, .refl h rest⟩
  | cons i ids ih =>
    obtain ⟨hAfter, hSame⟩ := ih hOwns.free
    exact ⟨hAfter, (hOwns.free_same.subset (List.subset_append_right ids rest)).trans hSame⟩

theorem load_freeAll {h : Heap α} {ids : List Nat} {i : Nat} (hi : i ∈ ids) :
    (freeAll h ids).load i = none := by
  have hGone : ∀ (ids : List Nat) (h : Heap α), h.load i = none →
      (freeAll h ids).load i = none := by
    intro ids
    induction ids with
    | nil => exact fun h hNone => hNone
    | cons j ids ih =>
      intro h hNone
      refine ih (h.free j) ?_
      by_cases hij : i = j
      · rw [hij]
        exact load_free_same h j
      · rw [load_free_ne hij, hNone]
  induction ids generalizing h with
  | nil => cases hi
  | cons j ids ih =>
    rcases List.mem_cons.mp hi with rfl | hi
    · exact hGone ids (h.free i) (load_free_same h i)
    · exact ih (h := h.free j) hi

/-! ### Lists of records that own blocks

`R h v ids b`: in the heap `h` the record `v`, with the blocks `ids`, stands for the item `b`. -/

/-- The nodes from `p` on stand for `items` and take the blocks `ids`; the last link is `q`. -/
inductive Spans (R : Heap (Node α) → α → List Nat → β → Prop) (h : Heap (Node α)) :
    Option Nat → List β → List Nat → Option Nat → Prop
  | nil (q : Option Nat) : Spans R h q [] [] q
  | cons {i : Nat} {node : Node α} {b : β} {parts ids : List Nat} {items : List β} {q : Option Nat}
      (hLoad : h.load i = some node) (hItem : R h node.value parts b)
      (hRest : Spans R h node.next items ids q) :
      Spans R h (some i) (b :: items) (i :: (parts ++ ids)) q

/-- `R` looks at the blocks it names only. -/
def Local (R : Heap (Node α) → α → List Nat → β → Prop) : Prop :=
  ∀ h h' v ids b, R h v ids b → Same h h' ids → R h' v ids b

namespace Spans

variable {R : Heap (Node α) → α → List Nat → β → Prop} {h h' : Heap (Node α)} {p q : Option Nat}
  {items : List β} {ids : List Nat}

theorem same (hLocal : Local R) (hSpans : Spans R h p items ids q) (hSame : Same h h' ids) :
    Spans R h' p items ids q := by
  induction hSpans with
  | nil q => exact .nil q
  | @cons i node b parts ids items q hLoad hItem hRest ih =>
    have hParts : parts ⊆ i :: (parts ++ ids) := fun j hj => by simp [hj]
    have hIds : ids ⊆ i :: (parts ++ ids) := fun j hj => by simp [hj]
    have hNode : h'.load i = some node := (hSame.load List.mem_cons_self).trans hLoad
    exact .cons hNode (hLocal _ _ _ _ _ hItem (hSame.subset hParts)) (ih (hSame.subset hIds))

theorem snoc {i : Nat} {node : Node α} {parts : List Nat} {b : β}
    (hSpans : Spans R h p items ids (some i)) (hLoad : h.load i = some node)
    (hItem : R h node.value parts b) :
    Spans R h p (items ++ [b]) (ids ++ i :: parts) node.next := by
  generalize hEnd : some i = q at hSpans
  induction hSpans with
  | nil q =>
    subst hEnd
    simpa using Spans.cons hLoad hItem (.nil node.next)
  | cons hFirst hItem' hRest ih => simpa using Spans.cons hFirst hItem' (ih hEnd)

theorem length_le (hSpans : Spans R h p items ids q) : items.length ≤ ids.length := by
  induction hSpans with
  | nil q => simp
  | cons hLoad hItem hRest ih =>
    simp
    omega

theorem null (hSpans : Spans R h p [] ids none) : p = none ∧ ids = [] := by
  generalize none = q at hSpans ⊢
  cases hSpans
  exact ⟨rfl, rfl⟩

end Spans

/-- `while (list) { free the parts of *list; tmp = list; list = list->next; delete tmp; }`.  `none`
is a read of a block that is not in use, and more turns than there are blocks need one. -/
def freeLoop (parts : α → Option (List Nat)) :
    Nat → Heap (Node α) → Option Nat → Option (Heap (Node α))
  | _, h, none => some h
  | 0, _, some _ => none
  | fuel + 1, h, some i =>
    (h.load i).bind fun node => (parts node.value).bind fun ids =>
      let h := freeAll h ids
      (h.load i).bind fun node => freeLoop parts fuel (h.free i) node.next

def freeList (parts : α → Option (List Nat)) (h : Heap (Node α)) (p : Option Nat) :
    Option (Heap (Node α)) := freeLoop parts h.length h p

/-- A list under construction: `first` and `last` point to its ends, or are null. -/
inductive Linked (R : Heap (Node α) → α → List Nat → β → Prop) (h : Heap (Node α)) :
    Option Nat → Option Nat → List β → List Nat → Prop
  | empty : Linked R h none none [] []
  | snoc {first : Option Nat} {last : Nat} {v : α} {b : β} {front : List β} {ids parts : List Nat}
      (hFront : Spans R h first front ids (some last)) (hLast : h.load last = some ⟨v, none⟩)
      (hItem : R h v parts b) :
      Linked R h first (some last) (front ++ [b]) (ids ++ last :: parts)

/-- `(last ? last->next : first) = n`. -/
def link (h : Heap (Node α)) (last : Option Nat) (n : Nat) : Heap (Node α) :=
  match last with
  | none => h
  | some last => setNext h last (some n)

section Linked

variable {R : Heap (Node α) → α → List Nat → β → Prop} {h h' : Heap (Node α)}
  {first last : Option Nat} {items : List β} {ids : List Nat}

theorem Linked.spans (hLinked : Linked R h first last items ids) :
    Spans R h first items ids none := by
  cases hLinked with
  | empty => exact .nil none
  | snoc hFront hLast hItem => exact hFront.snoc hLast hItem

theorem Linked.same (hLocal : Local R) (hLinked : Linked R h first last items ids)
    (hSame : Same h h' ids) : Linked R h' first last items ids := by
  cases hLinked with
  | empty => exact .empty
  | @snoc first last v b front ids parts hFront hLast hItem =>
    have hEnd : last :: parts ⊆ ids ++ last :: parts := List.subset_append_right _ _
    have hNode : h'.load last = some ⟨v, none⟩ :=
      (hSame.load (hEnd List.mem_cons_self)).trans hLast
    refine .snoc (hFront.same hLocal (hSame.subset (List.subset_append_left _ _))) hNode ?_
    exact hLocal _ _ _ _ _ hItem (hSame.subset (List.subset_of_cons_subset hEnd))

theorem link_owns {owned : List Nat} {n : Nat} (hOwns : Owns h owned) :
    Owns (link h last n) owned := by
  cases last with
  | none => exact hOwns
  | some last => exact hOwns.modify fun c => rfl

/-- The new node is linked behind the last one; nothing else changes. -/
theorem Linked.push {n : Nat} {v : α} {b : β} {parts rest : List Nat} (hLocal : Local R)
    (hLinked : Linked R h first last items ids) (hOwns : Owns h (ids ++ n :: (parts ++ rest)))
    (hNode : h.load n = some ⟨v, none⟩) (hItem : R h v parts b) :
    Linked R (link h last n) (if last.isSome then first else some n) (some n) (items ++ [b])
      (ids ++ n :: parts) ∧ Same h (link h last n) rest := by
  cases hLinked with
  | empty => exact ⟨.snoc (.nil _) hNode hItem, .refl h rest⟩
  | @snoc first last w c front before own hFront hLast hOld =>
    have hPerm : (before ++ last :: own ++ n :: (parts ++ rest)).Perm
        (last :: (before ++ own ++ n :: parts ++ rest)) := by
      simp
    have hOther := (List.nodup_cons.mp (hPerm.nodup_iff.mp hOwns.nodup)).1
    have hSame : Same h (setNext h last (some n)) (before ++ own ++ n :: parts ++ rest) :=
      modify_same hOther
    have hLink : (setNext h last (some n)).load last = some ⟨w, some n⟩ :=
      load_setNext_same hLast
    have hNode' : (setNext h last (some n)).load n = some ⟨v, none⟩ :=
      (hSame.load (by simp)).trans hNode
    have hBefore := hFront.same hLocal (hSame.subset fun j hj => by simp [hj])
    have hOwn := hLocal _ _ _ _ _ hOld (hSame.subset fun j hj => by simp [hj])
    have hParts := hLocal _ _ _ _ _ hItem (hSame.subset fun j hj => by simp [hj])
    exact ⟨.snoc (hBefore.snoc hLink hOwn) hNode' hParts, hSame.subset fun j hj => by simp [hj]⟩

end Linked

section FreeList

variable {R : Heap (Node α) → α → List Nat → β → Prop} {parts : α → Option (List Nat)}
  {h : Heap (Node α)} {p : Option Nat} {items : List β} {ids rest : List Nat}

theorem freeLoop_spans (hLocal : Local R) (hParts : ∀ h v ids b, R h v ids b → parts v = some ids)
    {fuel : Nat} (hFuel : items.length ≤ fuel) (hSpans : Spans R h p items ids none)
    (hOwns : Owns h (ids ++ rest)) :
    ∃ h', freeLoop parts fuel h p = some h' ∧ Owns h' rest ∧ Same h h' rest := by
  induction fuel generalizing h p items ids with
  | zero =>
    obtain rfl : items = [] := List.length_eq_zero_iff.mp (by omega)
    obtain ⟨rfl, rfl⟩ := hSpans.null
    exact ⟨h, by simp [freeLoop], hOwns, .refl h rest⟩
  | succ fuel ih =>
    generalize hEnd : none = q at hSpans
    cases hSpans with
    | nil q =>
      subst hEnd
      exact ⟨h, by simp [freeLoop], hOwns, .refl h rest⟩
    | @cons i node b own ids items q hLoad hItem hRest =>
      subst hEnd
      have hOwn : Owns h (own ++ i :: (ids ++ rest)) :=
        hOwns.perm (by simpa using List.perm_middle.symm)
      obtain ⟨hAfter, hSame⟩ := freeAll_owns hOwn
      have hNode : (freeAll h own).load i = some node := by
        rw [hSame.load List.mem_cons_self, hLoad]
      have hBoth : Same h ((freeAll h own).free i) (ids ++ rest) :=
        (hSame.subset (List.subset_cons_self _ _)).trans hAfter.free_same
      have hNext := hRest.same hLocal (hBoth.subset (List.subset_append_left _ _))
      obtain ⟨h', hLoop, hOwns', hSame'⟩ := ih (by simpa using hFuel) hNext hAfter.free
      refine ⟨h', ?_, hOwns', (hBoth.subset (List.subset_append_right _ _)).trans hSame'⟩
      simp [freeLoop, hLoad, hParts _ _ _ _ hItem, hNode, hLoop]

theorem Spans.length_le_heap (hSpans : Spans R h p items ids none) (hOwns : Owns h (ids ++ rest)) :
    items.length ≤ h.length := by
  have hOwned : ids.Nodup := (List.nodup_append.mp hOwns.nodup).1
  have hBelow : ids ⊆ List.range h.length := fun i hi =>
    List.mem_range.mpr (hOwns.lt i (List.mem_append_left _ hi))
  have hRoom : ids.length ≤ h.length := by simpa using (hOwned.subperm hBelow).length_le
  exact Nat.le_trans hSpans.length_le hRoom

/-- The loop ends, frees the blocks of the list and no other, and reads none that it has freed. -/
theorem freeList_spans (hLocal : Local R) (hParts : ∀ h v ids b, R h v ids b → parts v = some ids)
    (hSpans : Spans R h p items ids none) (hOwns : Owns h (ids ++ rest)) :
    ∃ h', freeList parts h p = some h' ∧ Owns h' rest ∧ Same h h' rest :=
  freeLoop_spans hLocal hParts (hSpans.length_le_heap hOwns) hSpans hOwns

end FreeList

/-- What a reader finds that goes from node to node. -/
def readLoop (read : Heap (Node α) → α → Option β) (h : Heap (Node α)) :
    Nat → Option Nat → Option (List β)
  | _, none => some []
  | 0, some _ => none
  | fuel + 1, some i =>
    (h.load i).bind fun node => (read h node.value).bind fun b =>
      (readLoop read h fuel node.next).map (b :: ·)

def readList (read : Heap (Node α) → α → Option β) (h : Heap (Node α)) (p : Option Nat) :
    Option (List β) := readLoop read h h.length p

theorem readList_spans {R : Heap (Node α) → α → List Nat → β → Prop}
    {read : Heap (Node α) → α → Option β} {h : Heap (Node α)} {p : Option Nat} {items : List β}
    {ids owned : List Nat} (hRead : ∀ v ids b, R h v ids b → read h v = some b)
    (hSpans : Spans R h p items ids none) (hOwns : Owns h (ids ++ owned)) :
    readList read h p = some items := by
  have hLoop : ∀ fuel, items.length ≤ fuel → readLoop read h fuel p = some items := by
    clear hOwns
    generalize hEnd : none = q at hSpans
    induction hSpans with
    | nil q =>
      subst hEnd
      intro fuel _
      simp [readLoop]
    | cons hLoad hItem hRest ih =>
      intro fuel hFuel
      obtain ⟨fuel, rfl⟩ := Nat.exists_eq_succ_of_ne_zero (Nat.ne_zero_of_lt hFuel)
      have hNext := ih hEnd fuel (by simpa using hFuel)
      simp [readLoop, hLoad, hRead _ _ _ hItem, hNext]
  exact hLoop _ (hSpans.length_le_heap hOwns)

/-! ### Code that allocates

A computation may throw; the heap is as it was at the throw. -/

abbrev HeapM (ν : Type) := EStateM String (Heap (Node ν))

section Build

variable {ν γ δ ρ : Type}

/-- `new` or `malloc`. -/
def new (v : ν) : HeapM ν Nat := fun h => .ok h.length (h.alloc ⟨v, none⟩)

/-- `delete` or `free`. -/
def delete (i : Nat) : HeapM ν Unit := fun h => .ok () (h.free i)

/-- The fields of `*i` are written. -/
def fill (i : Nat) (v : ν) (next : Option Nat) : HeapM ν Unit :=
  fun h => .ok () (h.store i ⟨v, next⟩)

def lift (x : Except String γ) : HeapM ν γ := fun h =>
  match x with
  | .ok a => .ok a h
  | .error e => .error e h

theorem bind_of_ok {m : HeapM ν γ} {f : γ → HeapM ν δ} {h h' : Heap (Node ν)} {a : γ}
    (hOk : m h = .ok a h') : (m >>= f) h = f a h' := by
  simp [bind, EStateM.bind, hOk]

theorem bind_of_error {m : HeapM ν γ} {f : γ → HeapM ν δ} {h h' : Heap (Node ν)} {e : String}
    (hError : m h = .error e h') : (m >>= f) h = .error e h' := by
  simp [bind, EStateM.bind, hError]

theorem tryCatch_of_ok {m : HeapM ν γ} {handler : String → HeapM ν γ} {h h' : Heap (Node ν)}
    {a : γ} (hOk : m h = .ok a h') : (tryCatch m handler) h = .ok a h' := by
  simp [tryCatch, tryCatchThe, MonadExceptOf.tryCatch, EStateM.tryCatch, hOk]

theorem tryCatch_of_error {m : HeapM ν γ} {handler : String → HeapM ν γ} {h h' : Heap (Node ν)}
    {e : String} (hError : m h = .error e h') : (tryCatch m handler) h = handler e h' := by
  simp [tryCatch, tryCatchThe, MonadExceptOf.tryCatch, EStateM.tryCatch, hError,
    EStateM.Backtrackable.restore, EStateM.dummyRestore]

/-- Whatever is owned, `m` returns, `P` holds of the result and of the blocks that it makes, and
what was owned has not changed. -/
def Builds (m : HeapM ν γ) (P : Heap (Node ν) → γ → List Nat → Prop) : Prop :=
  ∀ h owned, Owns h owned → ∃ a h' ids, m h = .ok a h' ∧ Owns h' (ids ++ owned) ∧
    Same h h' owned ∧ P h' a ids

variable {m : HeapM ν γ} {P P' : Heap (Node ν) → γ → List Nat → Prop}

theorem builds_pure {a : γ} (hP : ∀ h, P h a []) : Builds (pure a : HeapM ν γ) P :=
  fun h owned hOwns => ⟨a, h, [], rfl, hOwns, .refl h owned, hP h⟩

theorem Builds.imp (hBuilds : Builds m P) (hImp : ∀ h a ids, P h a ids → P' h a ids) :
    Builds m P' := by
  intro h owned hOwns
  obtain ⟨a, h', ids, hRun, hOwns', hSame, hP⟩ := hBuilds h owned hOwns
  exact ⟨a, h', ids, hRun, hOwns', hSame, hImp h' a ids hP⟩

theorem Builds.bind {f : γ → HeapM ν δ} {Q : γ → Heap (Node ν) → δ → List Nat → Prop}
    (hBuilds : Builds m P)
    (hLocal : ∀ h h' a ids, P h a ids → Same h h' ids → P h' a ids)
    (hNext : ∀ a, Builds (f a) (Q a)) :
    Builds (m >>= f) fun h c all => ∃ a ids ids', all = ids' ++ ids ∧ P h a ids ∧
      Q a h c ids' := by
  intro h owned hOwns
  obtain ⟨a, h', ids, hRun, hOwns', hSame, hP⟩ := hBuilds h owned hOwns
  obtain ⟨c, h'', ids', hRun', hOwns'', hSame', hQ⟩ := hNext a h' (ids ++ owned) hOwns'
  refine ⟨c, h'', ids' ++ ids, (bind_of_ok hRun).trans hRun', by simpa using hOwns'', ?_,
    a, ids, ids', rfl, hLocal _ _ _ _ hP ?_, hQ⟩
  · exact hSame.trans (hSame'.subset (List.subset_append_right ids owned))
  · exact hSame'.subset (List.subset_append_left ids owned)

/-- A block is allocated, `ids` are made, and the block is filled in at last. -/
theorem Heap.Owns.filled {h h' : Heap (Node ν)} {u : ν} {owned ids : List Nat}
    (hOwns : Owns h owned)
    (hOwns' : Owns h' (ids ++ h.length :: owned))
    (hSame : Same (h.alloc ⟨u, none⟩) h' (h.length :: owned)) (node : Node ν) :
    Owns (h'.store h.length node) (h.length :: (ids ++ owned)) ∧
      Same h (h'.store h.length node) owned ∧ Same h' (h'.store h.length node) ids ∧
      (h'.store h.length node).load h.length = some node := by
  have hPerm : Owns h' (h.length :: (ids ++ owned)) := hOwns'.perm List.perm_middle
  obtain ⟨w, hLoad⟩ := hPerm.load_iff.mpr List.mem_cons_self
  have hKept : Same h' (h'.store h.length node) (ids ++ owned) :=
    modify_same (List.nodup_cons.mp hPerm.nodup).1
  have hOld : Same h h' owned :=
    hOwns.alloc_same.trans (hSame.subset (List.subset_cons_self h.length owned))
  exact ⟨hPerm.modify fun c => rfl,
    hOld.trans (hKept.subset (List.subset_append_right ids owned)),
    hKept.subset (List.subset_append_left ids owned), load_store_same hLoad⟩

theorem lift_bind {a : γ} {f : γ → HeapM ν δ} : (lift (.ok a) >>= f) = f a := rfl

/-- What throws before anything is allocated leaves the heap as it was. -/
theorem lift_bind_throws {x : Except String γ} {f : γ → HeapM ν δ} {g : γ → Except String ρ}
    {e : String} {h : Heap (Node ν)} (hError : (x >>= g) = .error e)
    (hNext : ∀ a, x = .ok a → g a = .error e → f a h = .error e h) :
    (lift x >>= f) h = .error e h := by
  cases x with
  | error e' =>
    obtain rfl : e' = e := Except.error.inj hError
    rfl
  | ok a => exact hNext a rfl hError

end Build

end LibcShim.Kit
