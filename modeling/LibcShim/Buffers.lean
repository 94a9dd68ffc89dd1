import LibcShim.Kit.Bytes

/-! Functions that write to a buffer of the guest: `strlcpy`, the copies that are checked against a
declared size, and `arc4random_buf` where the host has none. -/

namespace LibcShim.Buffers

open Kit

/-- The bytes at `i` are a string of length `n` with its terminator. -/
structure IsString (m : Bytes) (i n : Nat) : Prop where
  ends : m (i + n) = 0
  nonzero : ∀ k < n, m (i + k) ≠ 0

theorem IsString.tail {m : Bytes} {i n : Nat} (h : IsString m i (n + 1)) :
    IsString m (i + 1) n where
  ends := by rw [Nat.add_assoc, Nat.add_comm 1]; exact h.ends
  nonzero k hk := by rw [Nat.add_assoc, Nat.add_comm 1]; exact h.nonzero (k + 1) (by omega)

theorem IsString.drop {m : Bytes} {i n k : Nat} (h : IsString m i n) (hk : k ≤ n) :
    IsString m (i + k) (n - k) where
  ends := by rw [Nat.add_assoc, Nat.add_sub_cancel' hk]; exact h.ends
  nonzero j hj := by rw [Nat.add_assoc]; exact h.nonzero (k + j) (by omega)

/-- A prefix of a string, copied and ended. -/
theorem IsString.copied {m m' : Bytes} {i j n k : Nat} (h : IsString m i n) (hk : k ≤ n)
    (hCopied : ∀ l < k, m' (j + l) = m (i + l)) (hEnd : m' (j + k) = 0) : IsString m' j k where
  ends := hEnd
  nonzero l hl := by rw [hCopied l hl]; exact h.nonzero l (by omega)

theorem IsString.congr {m m' : Bytes} {i n : Nat} (h : IsString m i n)
    (hSame : ∀ k, i ≤ k → k ≤ i + n → m' k = m k) : IsString m' i n where
  ends := by rw [hSame _ (by omega) (Nat.le_refl _), h.ends]
  nonzero k hk := by rw [hSame _ (by omega) (by omega)]; exact h.nonzero k hk

/-! ### strlcpy.cpp -/

structure Cursor where
  mem : Bytes
  d : Nat
  s : Nat
  n : Nat

/-- `while (--n != 0) { if ((*d++ = *s++) == '\0') break; }` -/
def copyLoop : Nat → Bytes → Nat → Nat → Cursor
  | 0, mem, d, s => ⟨mem, d, s, 0⟩
  | 1, mem, d, s => ⟨mem, d, s, 0⟩
  | n + 2, mem, d, s =>
    let mem' := mem.store8 d (mem s)
    if mem s = 0 then ⟨mem', d + 1, s + 1, n + 1⟩ else copyLoop (n + 1) mem' (d + 1) (s + 1)

/-- `while (*s++);`, which reads `fuel` bytes at most. -/
def skip (mem : Bytes) : Nat → Nat → Option Nat
  | 0, _ => none
  | fuel + 1, s => if mem s = 0 then some (s + 1) else skip mem fuel (s + 1)

def strlcpy (fuel : Nat) (mem : Bytes) (dst src siz : Nat) : Option (Bytes × Nat) :=
  let c := if siz ≠ 0 then copyLoop siz mem dst src else ⟨mem, dst, src, 0⟩
  if c.n = 0 then
    let mem := if siz ≠ 0 then c.mem.store8 c.d 0 else c.mem
    (skip mem fuel c.s).map fun s => (mem, s - src - 1)
  else
    some (c.mem, c.s - src - 1)

theorem memcpy_step {mem : Bytes} {d s n : Nat} (hApart : d < s + 1 ∨ s + 1 + n ≤ d) :
    (mem.store8 d (mem s)).memcpy (d + 1) (mem.store8 d (mem s)) (s + 1) n =
      mem.memcpy d mem s (n + 1) := by
  funext k
  by_cases hBehind : d + 1 ≤ k ∧ k < d + 1 + n
  · rw [Bytes.memcpy_inside hBehind, Bytes.memcpy_inside (by omega),
      Bytes.store8_other (by omega)]
    congr 1
    omega
  · rw [Bytes.memcpy_outside (by omega)]
    by_cases hFirst : k = d
    · subst hFirst
      rw [Bytes.memcpy_inside (by omega), Nat.sub_self]
      exact if_pos rfl
    · rw [Bytes.store8_other hFirst, Bytes.memcpy_outside (by omega)]

theorem copyLoop_all {n : Nat} {mem : Bytes} {d s len : Nat} (hString : IsString mem s len)
    (hLong : len + 1 < n) (hApart : d + len < s ∨ s + len < d) :
    copyLoop n mem d s =
      ⟨mem.memcpy d mem s (len + 1), d + len + 1, s + len + 1, n - (len + 1)⟩ := by
  induction len generalizing n mem d s with
  | zero =>
    obtain ⟨n, rfl⟩ := Nat.exists_eq_add_of_le' hLong
    have hZero : mem s = 0 := hString.ends
    have hOne : mem.memcpy d mem s 1 = mem.store8 d (mem s) :=
      (memcpy_step (by omega)).symm.trans (Bytes.memcpy_empty ..)
    rw [copyLoop, if_pos hZero, hOne]
    rfl
  | succ len ih =>
    obtain ⟨n, rfl⟩ := Nat.exists_eq_add_of_le' (show 2 ≤ n by omega)
    have hNonzero : mem s ≠ 0 := hString.nonzero 0 (by omega)
    have hTail : IsString (mem.store8 d (mem s)) (s + 1) len :=
      hString.tail.congr fun k hLow hHigh => Bytes.store8_other (by omega)
    rw [copyLoop, if_neg hNonzero, ih hTail (by omega) (by omega), memcpy_step (by omega)]
    congr 1 <;> omega

theorem copyLoop_prefix {n : Nat} {mem : Bytes} {d s len : Nat} (hString : IsString mem s len)
    (hShort : n ≤ len) (hApart : d + n ≤ s ∨ s + len < d) :
    copyLoop (n + 1) mem d s = ⟨mem.memcpy d mem s n, d + n, s + n, 0⟩ := by
  induction n generalizing mem d s len with
  | zero => rw [copyLoop, Bytes.memcpy_empty]; rfl
  | succ n ih =>
    obtain ⟨len, rfl⟩ := Nat.exists_eq_add_of_le' (show 1 ≤ len by omega)
    have hNonzero : mem s ≠ 0 := hString.nonzero 0 (by omega)
    have hTail : IsString (mem.store8 d (mem s)) (s + 1) len :=
      hString.tail.congr fun k hLow hHigh => Bytes.store8_other (by omega)
    rw [copyLoop, if_neg hNonzero, ih hTail (by omega) (by omega), memcpy_step (by omega)]
    congr 1 <;> omega

theorem skip_string {fuel : Nat} {mem : Bytes} {s len : Nat} (hString : IsString mem s len)
    (hFuel : len < fuel) : skip mem fuel s = some (s + len + 1) := by
  induction len generalizing fuel s with
  | zero =>
    obtain ⟨fuel, rfl⟩ := Nat.exists_eq_add_of_le' hFuel
    exact if_pos hString.ends
  | succ len ih =>
    obtain ⟨fuel, rfl⟩ := Nat.exists_eq_add_of_le' (show 1 ≤ fuel by omega)
    rw [skip, if_neg (show mem s ≠ 0 from hString.nonzero 0 (by omega)),
      ih hString.tail (by omega)]
    congr 1
    omega

/-- `strlcpy` gives the length of the source and leaves its longest prefix that fits, with a
terminator, and writes nowhere else. -/
theorem strlcpy_copies {fuel : Nat} {mem : Bytes} {dst src siz len : Nat}
    (hString : IsString mem src len) (hFuel : len < fuel)
    (hApart : siz = 0 ∨ dst + min siz (len + 1) ≤ src ∨ src + len < dst) :
    ∃ mem', strlcpy fuel mem dst src siz = some (mem', len) ∧
      (siz ≠ 0 → IsString mem' dst (min (siz - 1) len)) ∧
      (∀ k < min (siz - 1) len, mem' (dst + k) = mem (src + k)) ∧
      ∀ a, a < dst ∨ dst + min siz (len + 1) ≤ a → mem' a = mem a := by
  rcases Nat.eq_zero_or_eq_succ_pred siz with rfl | hSucc
  · refine ⟨mem, ?_, fun h => absurd rfl h, fun k hk => absurd hk (by omega), fun _ _ => rfl⟩
    simp only [strlcpy, ne_eq, not_true, if_false, if_true, skip_string hString hFuel,
      Option.map_some]
    congr 2
    omega
  generalize hn : siz.pred = n at hSucc
  subst hSucc
  have hApart : dst + min (n + 1) (len + 1) ≤ src ∨ src + len < dst :=
    hApart.resolve_left (by omega)
  by_cases hShort : n ≤ len
  · have hLoop := copyLoop_prefix (d := dst) hString hShort (by omega)
    have hMin : min n len = n := by omega
    have hCopied : ∀ k < n, (mem.memcpy dst mem src n).store8 (dst + n) 0 (dst + k) =
        mem (src + k) := by
      intro k hk
      rw [Bytes.store8_other (by omega), Bytes.memcpy_inside (by omega), Nat.add_sub_cancel_left]
    have hOutside : ∀ a, a < dst ∨ dst + n < a →
        (mem.memcpy dst mem src n).store8 (dst + n) 0 a = mem a := by
      intro a ha
      rw [Bytes.store8_other (by omega), Bytes.memcpy_outside (by omega)]
    have hRest : IsString ((mem.memcpy dst mem src n).store8 (dst + n) 0) (src + n) (len - n) :=
      (hString.drop hShort).congr fun k hLow hHigh => hOutside k (by omega)
    refine ⟨(mem.memcpy dst mem src n).store8 (dst + n) 0, ?_, fun _ => ?_, ?_, fun a ha => ?_⟩
    · simp only [strlcpy, ne_eq, Nat.succ_ne_zero, not_false_eq_true, if_true, hLoop,
        skip_string hRest (show len - n < fuel by omega), Option.map_some]
      congr 2
      omega
    · show IsString _ dst (min n len)
      rw [hMin]
      exact hString.copied hShort hCopied (if_pos rfl)
    · show ∀ k < min n len, _
      rw [hMin]
      exact hCopied
    · exact hOutside a (by omega)
  · have hLoop := copyLoop_all (n := n + 1) (d := dst) hString (by omega) (by omega)
    have hMin : min n len = len := by omega
    have hCopied : ∀ k < len + 1, mem.memcpy dst mem src (len + 1) (dst + k) = mem (src + k) := by
      intro k hk
      rw [Bytes.memcpy_inside (by omega), Nat.add_sub_cancel_left]
    refine ⟨mem.memcpy dst mem src (len + 1), ?_, fun _ => ?_, ?_, fun a ha => ?_⟩
    · simp only [strlcpy, ne_eq, Nat.succ_ne_zero, not_false_eq_true, if_true, hLoop]
      rw [if_neg (by omega)]
      congr 2
      omega
    · show IsString _ dst (min n len)
      rw [hMin]
      exact hString.copied (Nat.le_refl _) (fun k hk => hCopied k (by omega))
        ((hCopied len (by omega)).trans hString.ends)
    · show ∀ k < min n len, _
      rw [hMin]
      exact fun k hk => hCopied k (by omega)
    · exact Bytes.memcpy_outside (by omega)

theorem strlcpy_copies_truncated :
    ∃ mem', strlcpy 9 (fun a => if a = 50 ∨ a = 51 then 97 else 7 * (a == 40).toUInt8) 40 50 2 =
        some (mem', 2) ∧
      IsString mem' 40 1 ∧ mem' 40 = 97 := by
  obtain ⟨mem', hCall, hString, hCopied, -⟩ := @strlcpy_copies 9
    (fun a => if a = 50 ∨ a = 51 then 97 else 7 * (a == 40).toUInt8) 40 50 2 2
    ⟨rfl, by decide⟩ (by decide) (by decide)
  exact ⟨mem', hCall, hString (by decide), hCopied 0 (by decide)⟩

/-! ### The checks of common.cpp -/

/-- A function with the size of its buffer beside the size of its work; `past` is printed before the
program ends. -/
def checked {α : Type} (past : String) (size maxLen : Nat) (call : α) : Except String α :=
  if size > maxLen then .error past else .ok call

def memcpyChk (mem : Bytes) (dst src size maxLen : Nat) : Except String Bytes :=
  checked "detected copy past buffer size" size maxLen (mem.memcpy dst mem src size)

def memmoveChk (mem : Bytes) (dst src size maxLen : Nat) : Except String Bytes :=
  checked "detected copy past buffer size" size maxLen (mem.memcpy dst mem src size)

def memsetChk (mem : Bytes) (dst : Nat) (c : UInt8) (size maxLen : Nat) : Except String Bytes :=
  checked "detected set past buffer size" size maxLen (mem.memcpy dst (fun _ => c) 0 size)

def strlcpyChk (fuel : Nat) (mem : Bytes) (dst src size maxLen : Nat) :
    Except String (Option (Bytes × Nat)) :=
  checked "detected copy past buffer size" size maxLen (strlcpy fuel mem dst src size)

/-- A checked call that returns has kept to the declared size. -/
theorem checked_ok {α : Type} {past : String} {size maxLen : Nat} {call result : α}
    (h : checked past size maxLen call = .ok result) : size ≤ maxLen ∧ result = call := by
  unfold checked at h
  split at h
  · contradiction
  · exact ⟨by omega, (Except.ok.inj h).symm⟩

/-- `memcpyChk`, `memmoveChk` and `memsetChk` are such calls. -/
theorem checked_within {mem mem' src : Bytes} {past : String} {dst i size maxLen : Nat}
    (h : checked past size maxLen (mem.memcpy dst src i size) = .ok mem') :
    ∀ a, a < dst ∨ dst + maxLen ≤ a → mem' a = mem a := by
  obtain ⟨hSize, rfl⟩ := checked_ok h
  exact fun a ha => Bytes.memcpy_outside (by omega)

theorem strlcpyChk_within {fuel : Nat} {mem mem' : Bytes} {dst src size maxLen len ret : Nat}
    (hString : IsString mem src len) (hFuel : len < fuel)
    (hApart : size = 0 ∨ dst + min size (len + 1) ≤ src ∨ src + len < dst)
    (h : strlcpyChk fuel mem dst src size maxLen = .ok (some (mem', ret))) :
    ret = len ∧ ∀ a, a < dst ∨ dst + maxLen ≤ a → mem' a = mem a := by
  obtain ⟨hSize, hCall⟩ := checked_ok h
  obtain ⟨mem'', hCopied, -, -, hOutside⟩ := strlcpy_copies hString hFuel hApart
  obtain ⟨rfl, rfl⟩ := Prod.mk.inj (Option.some.inj (hCall.trans hCopied))
  exact ⟨rfl, fun a ha => hOutside a (by omega)⟩

/-! ### `arc4random_buf` -/

/-- The bytes of an `unsigned int` of the host. -/
def wordBytes (u : BitVec 32) : Bytes := Bytes.zero.storeWord 0 4 u.toNat

/-- The loop from the draw `i` on, with the number of the next draw. -/
def arc4randomLoop (getRand : Nat → BitVec 32) (i : Nat) (mem : Bytes) (buf len : Nat) :
    Bytes × Nat :=
  if len > 0 then
    let n := min len 4
    arc4randomLoop getRand (i + 1) (mem.memcpy buf (wordBytes (getRand i)) 0 n) (buf + n) (len - n)
  else (mem, i)
termination_by len
decreasing_by omega

def arc4randomBuf (getRand : Nat → BitVec 32) (mem : Bytes) (buf len : Nat) : Bytes × Nat :=
  arc4randomLoop getRand 0 mem buf len

theorem arc4randomLoop_fills (getRand : Nat → BitVec 32) (i : Nat) (mem : Bytes) (buf len : Nat) :
    (∀ k < len, (arc4randomLoop getRand i mem buf len).1 (buf + k) =
        wordBytes (getRand (i + k / 4)) (k % 4)) ∧
      (∀ a, a < buf ∨ buf + len ≤ a → (arc4randomLoop getRand i mem buf len).1 a = mem a) ∧
      (arc4randomLoop getRand i mem buf len).2 = i + (len + 3) / 4 := by
  induction len using Nat.strong_induction_on generalizing i mem buf with
  | _ len ih =>
    rw [arc4randomLoop]
    split
    · rename_i hMore
      obtain ⟨hRest, hOutside, hDraws⟩ := ih (len - min len 4) (by omega) (i + 1)
        (mem.memcpy buf (wordBytes (getRand i)) 0 (min len 4)) (buf + min len 4)
      refine ⟨fun k hk => ?_, fun a ha => ?_, ?_⟩
      · by_cases hFirst : k < min len 4
        · rw [hOutside (buf + k) (by omega), Bytes.memcpy_inside (by omega),
            show i + k / 4 = i by omega]
          congr 1
          omega
        · obtain ⟨j, rfl⟩ := Nat.exists_eq_add_of_le (show 4 ≤ k by omega)
          rw [show buf + (4 + j) = buf + min len 4 + j by omega, hRest j (by omega),
            show i + 1 + j / 4 = i + (4 + j) / 4 by omega, show j % 4 = (4 + j) % 4 by omega]
      · rw [hOutside a (by omega), Bytes.memcpy_outside (by omega)]
      · rw [hDraws]
        omega
    · rename_i hDone
      obtain rfl : len = 0 := by omega
      exact ⟨fun k hk => absurd hk (by omega), fun _ _ => rfl, rfl⟩

/-- `arc4random_buf` fills the buffer with the bytes of successive draws, a fresh draw for every
four, and writes nowhere else. -/
theorem arc4random_buf_fills (getRand : Nat → BitVec 32) (mem : Bytes) (buf len : Nat) :
    (∀ k < len, (arc4randomBuf getRand mem buf len).1 (buf + k) =
        wordBytes (getRand (k / 4)) (k % 4)) ∧
      (∀ a, a < buf ∨ buf + len ≤ a → (arc4randomBuf getRand mem buf len).1 a = mem a) ∧
      (arc4randomBuf getRand mem buf len).2 = (len + 3) / 4 := by
  have hLoop := arc4randomLoop_fills getRand 0 mem buf len
  simp only [Nat.zero_add] at hLoop
  exact hLoop

end LibcShim.Buffers
