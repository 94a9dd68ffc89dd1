import Mathlib.Algebra.Group.Nat.Defs
import Mathlib.Data.List.TakeWhile

/-! Memory seen from the start of a buffer: `memcpy`, little-endian half words and the bytes that a
pointer and a length hand over. -/

namespace LibcShim.Kit

abbrev Bytes := Nat → UInt8

namespace Bytes

def zero : Bytes := fun _ => 0

def store8 (m : Bytes) (i : Nat) (b : UInt8) : Bytes := fun j => if j = i then b else m j

def load16 (m : Bytes) (i : Nat) : Nat := (m i).toNat + 256 * (m (i + 1)).toNat

def store16 (m : Bytes) (i v : Nat) : Bytes :=
  (m.store8 i (UInt8.ofNat v)).store8 (i + 1) (UInt8.ofNat (v / 256))

/-- The little-endian word of `n` bytes at `i`. -/
def loadWord (m : Bytes) (i : Nat) : Nat → Nat
  | 0 => 0
  | n + 1 => (m i).toNat + 256 * m.loadWord (i + 1) n

def storeWord (m : Bytes) (i : Nat) : Nat → Nat → Bytes
  | 0, _ => m
  | n + 1, v => (m.storeWord (i + 1) n (v / 256)).store8 i (UInt8.ofNat v)

/-- `memcpy(dst + i, src + j, n)`. -/
def memcpy (dst : Bytes) (i : Nat) (src : Bytes) (j n : Nat) : Bytes :=
  fun k => if i ≤ k ∧ k < i + n then src (j + (k - i)) else dst k

/-- The memory behind `m + i`, and a memory with another one behind there. -/
def shift (m : Bytes) (i : Nat) : Bytes := fun k => m (i + k)

def graft (m : Bytes) (i : Nat) (tail : Bytes) : Bytes :=
  fun k => if k < i then m k else tail (k - i)

def take (m : Bytes) (n : Nat) : List UInt8 := (List.range n).map m

def slice (m : Bytes) (i n : Nat) : List UInt8 := (List.range n).map fun k => m (i + k)

/-- The string at `i` that ends before the first zero, or after `n` bytes. -/
def cstring (m : Bytes) (i n : Nat) : List UInt8 := (m.slice i n).takeWhile (· ≠ 0)

/-- `strncpy(dst + i, src + j, n)`. -/
def strncpy (dst : Bytes) (i : Nat) (src : Bytes) (j n : Nat) : Bytes :=
  fun k => if i ≤ k ∧ k < i + n then (src.cstring j n).getD (k - i) 0 else dst k

/-- The memory behind a pointer to exactly these bytes. -/
def ofList (l : List UInt8) : Bytes := fun i => l.getD i 0

theorem store8_other {m : Bytes} {i j : Nat} {b : UInt8} (h : j ≠ i) : m.store8 i b j = m j :=
  if_neg h

theorem load16_store16 {m : Bytes} {i v : Nat} (hv : v < 65536) :
    (m.store16 i v).load16 i = v := by
  simp [load16, store16, store8]
  omega

theorem store8_same {m : Bytes} {i : Nat} : m.store8 i (UInt8.ofNat (m i).toNat) = m := by
  funext k
  unfold store8
  split
  · rename_i hk
    rw [hk, UInt8.ofNat_toNat]
  · rfl

theorem store16_same {m : Bytes} {i : Nat} : m.store16 i (m.load16 i) = m := by
  have hLow := (m i).toNat_lt
  have hHigh := (m (i + 1)).toNat_lt
  have hFirst : UInt8.ofNat (m.load16 i) = m i := by
    rw [← UInt8.toNat_inj, UInt8.toNat_ofNat']
    unfold load16
    omega
  have hSecond : UInt8.ofNat (m.load16 i / 256) = m (i + 1) := by
    rw [← UInt8.toNat_inj, UInt8.toNat_ofNat']
    unfold load16
    omega
  funext k
  unfold store16 store8
  by_cases hk : k = i + 1
  · rw [if_pos hk, hSecond, hk]
  · rw [if_neg hk, hFirst]
    split
    · rename_i hk
      rw [hk]
    · rfl

theorem storeWord_outside {m : Bytes} {i n v k : Nat} (h : k < i ∨ i + n ≤ k) :
    m.storeWord i n v k = m k := by
  induction n generalizing i v with
  | zero => rfl
  | succ n ih =>
    rw [storeWord, store8_other (by omega)]
    exact ih (by omega)

theorem loadWord_congr {m m' : Bytes} {i n : Nat} (h : ∀ k, i ≤ k → k < i + n → m k = m' k) :
    m.loadWord i n = m'.loadWord i n := by
  induction n generalizing i with
  | zero => rfl
  | succ n ih =>
    rw [loadWord, loadWord, h i (Nat.le_refl i) (by omega)]
    rw [ih fun k hLow hHigh => h k (by omega) (by omega)]

theorem loadWord_storeWord_disjoint {m : Bytes} {i n j n' v : Nat} (h : i + n ≤ j ∨ j + n' ≤ i) :
    (m.storeWord j n' v).loadWord i n = m.loadWord i n :=
  loadWord_congr fun _ _ _ => storeWord_outside (by omega)

theorem loadWord_storeWord {m : Bytes} {i n v : Nat} (hv : v < 256 ^ n) :
    (m.storeWord i n v).loadWord i n = v := by
  induction n generalizing m i v with
  | zero =>
    obtain rfl : v = 0 := by simpa using hv
    rfl
  | succ n ih =>
    have hRest : v / 256 < 256 ^ n := Nat.div_lt_of_lt_mul (by rwa [Nat.pow_succ'] at hv)
    have hByte : ∀ m : Bytes, m.store8 i (UInt8.ofNat v) i = UInt8.ofNat v := fun _ => if_pos rfl
    have hTail : ∀ m : Bytes, ∀ b, (m.store8 i b).loadWord (i + 1) n = m.loadWord (i + 1) n :=
      fun _ _ => loadWord_congr fun _ hLow _ => store8_other (by omega)
    rw [storeWord, loadWord, hByte, hTail, ih hRest, UInt8.toNat_ofNat']
    omega

theorem memcpy_inside {dst src : Bytes} {i j n k : Nat} (h : i ≤ k ∧ k < i + n) :
    dst.memcpy i src j n k = src (j + (k - i)) := if_pos h

theorem memcpy_outside {dst src : Bytes} {i j n k : Nat} (h : k < i ∨ i + n ≤ k) :
    dst.memcpy i src j n k = dst k := if_neg (by omega)

theorem strncpy_inside {dst src : Bytes} {i j n k : Nat} (h : i ≤ k ∧ k < i + n) :
    dst.strncpy i src j n k = (src.cstring j n).getD (k - i) 0 := if_pos h

theorem strncpy_outside {dst src : Bytes} {i j n k : Nat} (h : k < i ∨ i + n ≤ k) :
    dst.strncpy i src j n k = dst k := if_neg (by omega)

theorem graft_before {m tail : Bytes} {i k : Nat} (h : k < i) : m.graft i tail k = m k := if_pos h

theorem graft_behind {m tail : Bytes} {i k : Nat} : m.graft i tail (i + k) = tail k := by
  rw [graft, if_neg (by omega), Nat.add_sub_cancel_left]

theorem shift_graft {m tail : Bytes} {i : Nat} : (m.graft i tail).shift i = tail :=
  funext fun _ => graft_behind

theorem graft_shift {m : Bytes} {i : Nat} : m.graft i (m.shift i) = m := by
  funext k
  unfold graft shift
  split
  · rfl
  · congr 1
    omega

theorem memcpy_empty (dst src : Bytes) (i j : Nat) : dst.memcpy i src j 0 = dst := by
  funext k
  exact memcpy_outside (by omega)

theorem memcpy_memcpy (dst src : Bytes) (i n n' : Nat) :
    (dst.memcpy i src i n).memcpy (i + n) src (i + n) n' = dst.memcpy i src i (n + n') := by
  funext k
  by_cases h₁ : i + n ≤ k ∧ k < i + n + n'
  · rw [memcpy_inside h₁, memcpy_inside (by omega)]
    congr 1
    omega
  · rw [memcpy_outside (by omega)]
    by_cases h₂ : i ≤ k ∧ k < i + n
    · rw [memcpy_inside h₂, memcpy_inside (by omega)]
    · rw [memcpy_outside (by omega), memcpy_outside (by omega)]

@[simp] theorem length_take (m : Bytes) (n : Nat) : (m.take n).length = n := by simp [take]

theorem take_inj {m m' : Bytes} {n : Nat} : m.take n = m'.take n ↔ ∀ i < n, m i = m' i := by
  simp [take]

theorem ofList_take {m : Bytes} {n i : Nat} (h : i < n) : ofList (m.take n) i = m i := by
  simp [ofList, take, List.getD, h]

@[simp] theorem length_slice (m : Bytes) (i n : Nat) : (m.slice i n).length = n := by simp [slice]

theorem length_of_slice_eq {m m' : Bytes} {i i' n n' : Nat} (h : m.slice i n = m'.slice i' n') :
    n = n' := by
  have hLength := congrArg List.length h
  rwa [length_slice, length_slice] at hLength

theorem slice_congr {m m' : Bytes} {i n : Nat} (h : ∀ k, i ≤ k → k < i + n → m k = m' k) :
    m.slice i n = m'.slice i n := by
  simp only [slice, List.map_inj_left, List.mem_range]
  intro k hk
  exact h (i + k) (by omega) (by omega)

theorem slice_add (m : Bytes) (i n n' : Nat) :
    m.slice i (n + n') = m.slice i n ++ m.slice (i + n) n' := by
  simp [slice, List.range_add, Nat.add_assoc]

theorem cstring_nonzero {m : Bytes} {i n : Nat} {b : UInt8} (hb : b ∈ m.cstring i n) : b ≠ 0 := by
  simpa using List.mem_takeWhile_imp hb

/-- The bytes of `l` with zeros behind them are the string `l`. -/
theorem cstring_eq_of {m : Bytes} {i n : Nat} {l : List UInt8} (hLength : l.length < n)
    (hBytes : ∀ j < n, m (i + j) = l.getD j 0) (hNonzero : ∀ b ∈ l, b ≠ 0) : m.cstring i n = l := by
  have hSlice : m.slice i n = l ++ List.replicate (n - l.length) 0 := by
    refine List.ext_getElem (by simp; omega) fun j hj hj' => ?_
    have hn : j < n := by simpa using hj
    simp only [slice, List.getElem_map, List.getElem_range, hBytes j hn, List.getElem_append]
    split
    · rename_i hl
      simp [List.getD, hl]
    · rename_i hl
      simp [List.getD, hl]
  have hAll : l.takeWhile (· ≠ 0) = l :=
    List.takeWhile_eq_self_iff.mpr fun b hb => by simpa using hNonzero b hb
  have hZeros : (List.replicate (n - l.length) (0 : UInt8)).takeWhile (· ≠ 0) = [] := by
    obtain ⟨d, hd⟩ := Nat.exists_eq_add_of_lt hLength
    rw [show n - l.length = d + 1 by omega, List.replicate_succ]
    simp
  rw [cstring, hSlice, List.takeWhile_append, hAll, if_pos rfl, hZeros, List.append_nil]

/-- Zeros behind a string do not belong to it. -/
theorem cstring_add {m : Bytes} {i n n' : Nat} (h : ∀ k, i + n ≤ k → m k = 0) :
    m.cstring i (n + n') = m.cstring i n := by
  have hZeros : (m.slice (i + n) n').takeWhile (· ≠ 0) = [] := by
    cases n' with
    | zero => rfl
    | succ n' =>
      rw [Nat.add_comm n' 1, slice_add]
      simp [slice, h (i + n) (Nat.le_refl _)]
  rw [cstring, slice_add, List.takeWhile_append, hZeros, List.append_nil]
  split
  · rename_i hAll
    exact (List.takeWhile_sublist _).eq_of_length hAll |>.symm
  · rfl

/-- Reading further does not change a string that has ended before, or just there. -/
theorem cstring_add_iff {m : Bytes} {i n d : Nat} :
    m.cstring i (n + d) = m.cstring i n ↔ d = 0 ∨ ∃ k ≤ n, m (i + k) = 0 := by
  by_cases hEnd : ∃ k < n, m (i + k) = 0
  · obtain ⟨k, hk, hZero⟩ := hEnd
    refine iff_of_true ?_ (Or.inr ⟨k, Nat.le_of_lt hk, hZero⟩)
    have hStops : ¬ ((m.slice i n).takeWhile (· ≠ 0)).length = (m.slice i n).length := by
      intro hLength
      have hAll := (List.takeWhile_sublist (p := (· ≠ 0)) (l := m.slice i n)).eq_of_length hLength
      have hNonzero := List.takeWhile_eq_self_iff.mp hAll (m (i + k))
        (List.mem_map.mpr ⟨k, List.mem_range.mpr hk, rfl⟩)
      simp [hZero] at hNonzero
    rw [cstring, slice_add, List.takeWhile_append, if_neg hStops, cstring]
  · have hNonzero : ∀ k < n, m (i + k) ≠ 0 := fun k hk hZero => hEnd ⟨k, hk, hZero⟩
    have hAll : (m.slice i n).takeWhile (· ≠ 0) = m.slice i n := by
      refine List.takeWhile_eq_self_iff.mpr fun b hb => ?_
      obtain ⟨k, hk, rfl⟩ := List.mem_map.mp hb
      simpa using hNonzero k (List.mem_range.mp hk)
    rw [cstring, slice_add, List.takeWhile_append, if_pos (by rw [hAll]), cstring, hAll,
      List.append_right_eq_self]
    cases d with
    | zero => simp [slice]
    | succ d =>
      have hNext : (∃ k ≤ n, m (i + k) = 0) ↔ m (i + n) = 0 := by
        constructor
        · rintro ⟨k, hk, hZero⟩
          obtain rfl : k = n := by
            by_contra hNe
            exact hNonzero k (by omega) hZero
          exact hZero
        · exact fun hZero => ⟨n, Nat.le_refl n, hZero⟩
      rw [hNext, Nat.add_comm d 1, slice_add]
      by_cases hZero : m (i + n) = 0 <;> simp [slice, hZero]

theorem cstring_eq_iff {m : Bytes} {i n n' : Nat} :
    m.cstring i n = m.cstring i n' ↔ n = n' ∨ ∃ k ≤ min n n', m (i + k) = 0 := by
  rcases Nat.le_total n n' with hLe | hLe
  · obtain ⟨d, rfl⟩ := Nat.exists_eq_add_of_le hLe
    rw [eq_comm, cstring_add_iff, Nat.min_eq_left hLe]
    simp
  · obtain ⟨d, rfl⟩ := Nat.exists_eq_add_of_le hLe
    rw [cstring_add_iff, Nat.min_eq_right hLe]
    simp

end Bytes

end LibcShim.Kit
