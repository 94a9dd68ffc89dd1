import Mathlib.Data.List.Basic

/-! Constants with a number on each of two sides.  A `switch` takes a number to the other side, a
word of flags is taken over flag by flag; `src` is undefined where a header lacks the constant.  The
`default` of a switch may throw: `bind_ok` says what a sequence of such steps returns. -/

namespace LibcShim.Kit

universe u

variable {α : Type*}

/-- `switch (n) { case src: return dst; … }`. -/
def renumber (all : List α) (src : α → Option Int) (dst : α → Int) (n : Int) : Option Int :=
  (all.find? fun a => src a == some n).map dst

/-- The word `flags` has the flag `a`. -/
def flagSet {w : Nat} (src : α → Option (BitVec w)) (flags : BitVec w) (a : α) : Bool :=
  (src a).any fun mask => flags &&& mask != 0

/-- `if (flags & src) ret |= dst;`, for each flag. -/
def remask {w : Nat} (all : List α) (src : α → Option (BitVec w)) (dst : α → BitVec w)
    (flags : BitVec w) : BitVec w :=
  all.foldl (fun ret a => if flagSet src flags a then ret ||| dst a else ret) 0

/-- The `default` of a switch that throws. -/
def orThrow {β : Type u} (found : Option β) (what : String) : Except String β :=
  match found with
  | some b => .ok b
  | none => .error what

section Throw

variable {β γ : Type u} {ε : Type*}

theorem orThrow_ok {found : Option β} {what : String} {b : β} :
    orThrow found what = .ok b ↔ found = some b := by
  cases found <;> simp [orThrow]

/-- A sequence returns where both of its parts do. -/
theorem bind_ok {x : Except ε β} {f : β → Except ε γ} {r : γ} :
    (x >>= f) = .ok r ↔ ∃ b, x = .ok b ∧ f b = .ok r := by
  cases x with
  | error e => simp [bind, Except.bind]
  | ok b => simp [bind, Except.bind]

theorem map_ok {x : Except ε β} {f : β → γ} {r : γ} :
    x.map f = .ok r ↔ ∃ b, x = .ok b ∧ f b = r := by
  cases x with
  | error e => simp [Except.map]
  | ok b => simp [Except.map]

end Throw

section Switch

variable {all : List α} {src : α → Option Int} {dst : α → Int} {n m : Int}

theorem renumber_none : renumber all src dst n = none ↔ ∀ a ∈ all, src a ≠ some n := by
  simp [renumber]

theorem renumber_some (hAll : ∀ a, a ∈ all)
    (hDistinct : ∀ a b n, src a = some n → src b = some n → a = b) :
    renumber all src dst n = some m ↔ ∃ a, src a = some n ∧ dst a = m := by
  unfold renumber
  rw [Option.map_eq_some_iff]
  refine exists_congr fun a => and_congr_left fun _ => ⟨fun h => ?_, fun h => ?_⟩
  · exact beq_iff_eq.mp (List.find?_some (p := fun a => src a == some n) h)
  · cases hFound : all.find? fun a => src a == some n with
    | none =>
      have hMissed := List.find?_eq_none.mp hFound a (hAll a)
      simp [h] at hMissed
    | some b =>
      have hCase := beq_iff_eq.mp (List.find?_some (p := fun a => src a == some n) hFound)
      rw [hDistinct a b n h hCase]

/-- The numbers are the same on the two sides. -/
theorem renumber_same {number : α → Int} :
    renumber all (fun a => some (number a)) number n = some m ↔ n ∈ all.map number ∧ m = n := by
  unfold renumber
  rw [Option.map_eq_some_iff]
  constructor
  · rintro ⟨a, hFound, rfl⟩
    have hCase : number a = n := by
      simpa using List.find?_some (p := fun a => some (number a) == some n) hFound
    rw [← hCase]
    exact ⟨List.mem_map_of_mem (List.mem_of_find?_eq_some hFound), rfl⟩
  · rintro ⟨hMem, rfl⟩
    cases hFound : all.find? fun a => some (number a) == some m with
    | none =>
      obtain ⟨a, ha, rfl⟩ := List.mem_map.mp hMem
      have hMissed := List.find?_eq_none.mp hFound a ha
      simp at hMissed
    | some a =>
      refine ⟨a, rfl, ?_⟩
      simpa using List.find?_some (p := fun a => some (number a) == some m) hFound

end Switch

section Word

variable {w : Nat} {all : List α} {src : α → Option (BitVec w)} {dst : α → BitVec w}
  {flags m : BitVec w}

theorem or_and_ne_zero {u v : BitVec w} : (u ||| v) &&& m ≠ 0 ↔ u &&& m ≠ 0 ∨ v &&& m ≠ 0 := by
  rw [BitVec.and_or_distrib_right]
  exact (not_congr BitVec.or_eq_zero_iff).trans not_and_or

/-- A bit that two words have. -/
theorem and_ne_zero_of_getLsbD {u v : BitVec w} {i : Nat} (hu : u.getLsbD i) (hv : v.getLsbD i) :
    u &&& v ≠ 0 := by
  intro hZero
  have hAnd : (u &&& v).getLsbD i = true := by rw [BitVec.getLsbD_and, hu, hv, Bool.and_self]
  rw [hZero] at hAnd
  simp at hAnd

theorem foldl_remask_iff {P : BitVec w → Prop} (hOr : ∀ u v, P (u ||| v) ↔ P u ∨ P v)
    {ret : BitVec w} :
    P (all.foldl (fun ret a => if flagSet src flags a then ret ||| dst a else ret) ret) ↔
      P ret ∨ ∃ a ∈ all, flagSet src flags a ∧ P (dst a) := by
  induction all generalizing ret with
  | nil => simp
  | cons a rest ih =>
    rw [List.foldl_cons, ih, List.exists_mem_cons_iff, ← or_assoc]
    refine or_congr_left ?_
    by_cases hSet : flagSet src flags a
    · simp [hSet, hOr]
    · simp [hSet]

/-- What the new word has, when an `or` has it only from its parts, is what the new flags have. -/
theorem remask_iff {P : BitVec w → Prop} (hOr : ∀ u v, P (u ||| v) ↔ P u ∨ P v) (hZero : ¬P 0) :
    P (remask all src dst flags) ↔ ∃ a ∈ all, flagSet src flags a ∧ P (dst a) := by
  rw [remask, foldl_remask_iff hOr]
  exact or_iff_right hZero

/-- The new word meets `m` in the flags of the old one only. -/
theorem remask_and : remask all src dst flags &&& m ≠ 0 ↔
    ∃ a ∈ all, flagSet src flags a ∧ dst a &&& m ≠ 0 :=
  remask_iff (P := fun word => word &&& m ≠ 0) (fun _ _ => or_and_ne_zero) (by simp)

/-- The bits of the new word are those of the new flags. -/
theorem remask_getLsbD {i : Nat} : (remask all src dst flags).getLsbD i ↔
    ∃ a ∈ all, flagSet src flags a ∧ (dst a).getLsbD i :=
  remask_iff (P := fun word => word.getLsbD i) (fun u v => by simp) (by simp)

/-- Where the new flags have no bit in common, each is set for its own old flag. -/
theorem remask_flag {a : α} (hMem : a ∈ all) (hNonzero : dst a ≠ 0)
    (hDisjoint : ∀ b ∈ all, dst b &&& dst a ≠ 0 → b = a) :
    remask all src dst flags &&& dst a ≠ 0 ↔ flagSet src flags a := by
  rw [remask_and]
  constructor
  · rintro ⟨b, hb, hSet, hMeet⟩
    exact hDisjoint b hb hMeet ▸ hSet
  · intro hSet
    exact ⟨a, hMem, hSet, by rwa [BitVec.and_self]⟩

end Word

end LibcShim.Kit
