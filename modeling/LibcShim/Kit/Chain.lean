import LibcShim.Kit.Heap

/-! Singly linked lists in a heap, and the way to build one from its front: a pointer to the first
node, a pointer to the last, and a new node linked behind it. -/

namespace LibcShim.Kit

variable {α : Type*}

/-- A pointer is the name of an object, or null. -/
structure Node (α : Type*) where
  value : α
  next : Option Nat

/-- The nodes `places` hold `items`, linked in this order from `p` on; the last one's link is
`q`. -/
inductive Segment (h : Heap (Node α)) : Option Nat → List Nat → List α → Option Nat → Prop
  | nil (q : Option Nat) : Segment h q [] [] q
  | cons {i : Nat} {node : Node α} {places : List Nat} {items : List α} {q : Option Nat}
      (hLoad : h.load i = some node) (hRest : Segment h node.next places items q) :
      Segment h (some i) (i :: places) (node.value :: items) q

/-- The list `items` is what a reader finds from `p` on. -/
def Chain (h : Heap (Node α)) (p : Option Nat) (items : List α) : Prop :=
  ∃ places, Segment h p places items none

/-- `p->next = next`. -/
def setNext (h : Heap (Node α)) (i : Nat) (next : Option Nat) : Heap (Node α) :=
  h.modify i fun c => { c with value := { c.value with next } }

/-- A list under construction. -/
structure Tail (α : Type*) where
  heap : Heap (Node α)
  first : Option Nat
  last : Option Nat

/-- `n = new Node; n->next = nullptr; (last ? last->next : first) = n; last = n`. -/
def Tail.push (t : Tail α) (v : α) : Tail α :=
  let heap := t.heap.alloc ⟨v, none⟩
  let n := t.heap.length
  match t.last with
  | none => ⟨heap, some n, some n⟩
  | some last => ⟨setNext heap last (some n), t.first, some n⟩

/-- The list under construction holds `items`; its nodes are objects from `base` on. -/
inductive Tail.Holds (base : Nat) : Tail α → List α → Prop
  | empty (h : Heap (Node α)) (hBase : base ≤ h.length) : Holds base ⟨h, none, none⟩ []
  | snoc {h : Heap (Node α)} {first : Option Nat} {places : List Nat} {items : List α} {last : Nat}
      {v : α} (hBefore : Segment h first places items (some last))
      (hLast : h.load last = some ⟨v, none⟩) (hDistinct : last ∉ places) (hBase : base ≤ last) :
      Holds base ⟨h, first, some last⟩ (items ++ [v])

theorem load_setNext_ne {h : Heap (Node α)} {i j : Nat} {next : Option Nat} (hij : j ≠ i) :
    (setNext h i next).load j = h.load j := by
  simp [Heap.load, setNext, Ne.symm hij]

theorem load_setNext_same {h : Heap (Node α)} {i : Nat} {next : Option Nat} {node : Node α}
    (hi : h.load i = some node) : (setNext h i next).load i = some { node with next } := by
  simp [Heap.load, setNext, Heap.load_eq.mp hi]

namespace Segment

variable {h h' : Heap (Node α)} {p q : Option Nat} {places : List Nat} {items : List α}

theorem mono (hSegment : Segment h p places items q)
    (hKept : ∀ i ∈ places, ∀ node, h.load i = some node → h'.load i = some node) :
    Segment h' p places items q := by
  induction hSegment with
  | nil q => exact .nil q
  | cons hLoad hRest ih =>
    refine .cons (hKept _ List.mem_cons_self _ hLoad) (ih fun i hi => ?_)
    exact hKept i (List.mem_cons_of_mem _ hi)

theorem snoc {i : Nat} {node : Node α} (hSegment : Segment h p places items (some i))
    (hLoad : h.load i = some node) :
    Segment h p (places ++ [i]) (items ++ [node.value]) node.next := by
  generalize hEnd : some i = q at hSegment
  induction hSegment with
  | nil q =>
    subst hEnd
    exact .cons hLoad (.nil _)
  | cons hFirst hRest ih => exact .cons hFirst (ih hEnd)

/-- A reader that stops at null finds one list only. -/
theorem unique {places' : List Nat} {items' : List α} (hSegment : Segment h p places items q)
    (hEnd : q = none) (hOther : Segment h p places' items' none) : items' = items := by
  induction hSegment generalizing places' items' with
  | nil q =>
    subst hEnd
    cases hOther
    rfl
  | cons hLoad hRest ih =>
    cases hOther with
    | cons hLoad' hRest' =>
      obtain rfl := Option.some.inj (hLoad.symm.trans hLoad')
      rw [ih hEnd hRest']

theorem place_lt (hSegment : Segment h p places items q) : ∀ i ∈ places, i < h.length := by
  induction hSegment with
  | nil q => exact nofun
  | cons hLoad hRest ih =>
    intro i hi
    rcases List.mem_cons.mp hi with rfl | hi
    · exact Heap.load_lt hLoad
    · exact ih i hi

end Segment

theorem Chain.unique {h : Heap (Node α)} {p : Option Nat} {items : List α}
    (hChain : Chain h p items) (l : List α) : Chain h p l ↔ l = items := by
  obtain ⟨places, hSegment⟩ := hChain
  constructor
  · rintro ⟨places', hOther⟩
    exact hSegment.unique rfl hOther
  · rintro rfl
    exact ⟨places, hSegment⟩

theorem Chain.null {h : Heap (Node α)} {p : Option Nat} (hChain : Chain h p []) : p = none := by
  obtain ⟨places, hSegment⟩ := hChain
  generalize none = q at hSegment ⊢
  cases hSegment
  rfl

namespace Tail.Holds

variable {base : Nat} {t : Tail α} {items : List α} {v : α}

theorem chain (hHolds : Holds base t items) : Chain t.heap t.first items := by
  cases hHolds with
  | empty h hBase => exact ⟨[], .nil none⟩
  | snoc hBefore hLast hDistinct hBase => exact ⟨_, hBefore.snoc hLast⟩

theorem push (hHolds : Holds base t items) : Holds base (t.push v) (items ++ [v]) := by
  cases hHolds with
  | empty h hBase => exact .snoc (.nil _) (Heap.load_alloc_new h _) (by simp) hBase
  | @snoc h first places front last w hBefore hLast hDistinct hBase =>
    have hNew : last < h.length := Heap.load_lt hLast
    have hLink : (setNext (h.alloc ⟨v, none⟩) last (some h.length)).load last =
        some ⟨w, some h.length⟩ := load_setNext_same (Heap.load_alloc_old hLast)
    have hFront : Segment (setNext (h.alloc ⟨v, none⟩) last (some h.length)) first places front
        (some last) := by
      refine hBefore.mono fun i hi node hLoad => ?_
      have hOther : i ≠ last := fun hEq => hDistinct (hEq ▸ hi)
      rw [load_setNext_ne hOther]
      exact Heap.load_alloc_old hLoad
    have hFresh : (setNext (h.alloc ⟨v, none⟩) last (some h.length)).load h.length =
        some ⟨v, none⟩ := by
      rw [load_setNext_ne (by omega)]
      exact Heap.load_alloc_new h _
    have hAbove : base ≤ h.length := by omega
    refine .snoc (hFront.snoc hLink) hFresh (fun hMem => ?_) hAbove
    rcases List.mem_append.mp hMem with hOld | hOld
    · exact absurd (hBefore.place_lt _ hOld) (Nat.lt_irrefl _)
    · simp at hOld
      omega

/-- Objects older than the list are as they were. -/
theorem push_old (hHolds : Holds base t items) {i : Nat} (hi : i < base) {node : Node α}
    (hLoad : t.heap.load i = some node) : (t.push v).heap.load i = some node := by
  cases hHolds with
  | empty h hBase => exact Heap.load_alloc_old hLoad
  | @snoc h first places front last w hBefore hLast hDistinct hBase =>
    show (setNext (h.alloc ⟨v, none⟩) last (some h.length)).load i = some node
    rw [load_setNext_ne (by omega)]
    exact Heap.load_alloc_old hLoad

end Tail.Holds

end LibcShim.Kit
