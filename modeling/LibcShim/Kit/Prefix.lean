import Mathlib.Data.List.Basic

/-! Loops that work through a vector from its start, one item for each entry, and may stop before
its end.  The relation says what an item makes of its entry. -/

namespace LibcShim.Kit

variable {α β : Type*}

/-- `vec'` is `vec` after the loop: entry `j` is what the `j`-th item made of it, and the entries
that had no item are as they were. -/
structure ExactPrefix (R : β → α → α → Prop) (items : List β) (vec vec' : List α) : Prop where
  fits : items.length ≤ vec.length
  length : vec'.length = vec.length
  written : ∀ (j : Nat) (b : β) (a a' : α), items[j]? = some b → vec[j]? = some a →
    vec'[j]? = some a' → R b a a'
  rest : ∀ j : Nat, items.length ≤ j → vec'[j]? = vec[j]?

namespace ExactPrefix

variable {R S : β → α → α → Prop} {items : List β} {vec vec' : List α} {a a' : α} {b : β}

theorem nothing (R : β → α → α → Prop) (vec : List α) : ExactPrefix R [] vec vec :=
  ⟨Nat.zero_le _, rfl, nofun, fun _ _ => rfl⟩

theorem cons (hHead : R b a a') (hTail : ExactPrefix R items vec vec') :
    ExactPrefix R (b :: items) (a :: vec) (a' :: vec') := by
  refine ⟨?_, ?_, fun j b₁ a₁ a₂ hb ha ha' => ?_, fun j hj => ?_⟩
  · simpa using hTail.fits
  · simpa using hTail.length
  · cases j with
    | zero =>
      obtain rfl := Option.some.inj hb
      obtain rfl := Option.some.inj ha
      obtain rfl := Option.some.inj ha'
      exact hHead
    | succ j => exact hTail.written j b₁ a₁ a₂ hb ha ha'
  · cases j with
    | zero => simp at hj
    | succ j => exact hTail.rest j (by simpa using hj)

theorem mono (h : ExactPrefix R items vec vec')
    (hWeaker : ∀ b ∈ items, ∀ a a', R b a a' → S b a a') : ExactPrefix S items vec vec' where
  fits := h.fits
  length := h.length
  written j b a a' hb ha ha' :=
    hWeaker b (List.mem_of_getElem? hb) a a' (h.written j b a a' hb ha ha')
  rest := h.rest

end ExactPrefix

end LibcShim.Kit
