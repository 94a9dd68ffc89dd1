import LibcShim.Stdio.Eof

/-! `__fread_chk` and `__fwrite_chk` with the machine's `size_t`: the test for a product beyond it,
the test against the declared size of the buffer, and what the host may then touch of the buffer. -/

namespace LibcShim.Stdio.Fortify

open Pthread Eof

variable {abi : Abi}

/-- What a call of the host's `fread` or `fwrite` does: the bytes of the buffer that it goes
through, its result, and the indicator that it leaves. -/
structure Block (abi : Abi) where
  touched : Nat
  result : abi.Word
  eof : Bool

/-- The host's `fread` or `fwrite`.  It multiplies `size` and `count` as words do. -/
structure BlockHost (abi : Abi) where
  call : abi.Word → abi.Word → File → Block abi
  atMost : ∀ size count f, (call size count f).touched ≤ (size * count).toNat

/-- `size != 0 && count > SIZE_MAX / size`. -/
def overflows (size count : abi.Word) : Bool :=
  size != 0 && decide (count > BitVec.allOnes abi.bits / size)

def callHost (host : BlockHost abi) (size count : abi.Word) (f : File) : Block abi × File :=
  let block := host.call size count f
  (block, autoArgRewritten block.eof f)

/-- A product beyond a `size_t` is left to the host.  `past` is what is printed before the program
ends, and `checked` what follows a call that has passed both tests. -/
def blockChk (past : String) (checked : File → File) (host : BlockHost abi) (size count : abi.Word)
    (f : File) (bufSize : abi.Word) : Except String (Block abi × File) :=
  if overflows size count then
    .ok (callHost host size count f)
  else
    let total := size * count
    if total > bufSize then
      .error past
    else
      let (block, f) := callHost host size count f
      .ok (block, checked f)

def freadChk (host : BlockHost abi) (size count : abi.Word) (f : File) (bufSize : abi.Word) :
    Except String (Block abi × File) :=
  blockChk "detected write past buffer" updateFeof host size count f bufSize

def fwriteChk (host : BlockHost abi) (size count : abi.Word) (f : File) (bufSize : abi.Word) :
    Except String (Block abi × File) :=
  blockChk "detected read past buffer" id host size count f bufSize

/-- The call ends the program, or the host goes through `bufSize` bytes at most. -/
def Within (bufSize : abi.Word) : Except String (Block abi × File) → Prop
  | .error _ => True
  | .ok (block, _) => block.touched ≤ bufSize.toNat

/-- A host that goes through all the bytes it is asked for. -/
def eager : BlockHost abi where
  call size count _ := ⟨(size * count).toNat, count, false⟩
  atMost _ _ _ := Nat.le_refl _

section Products

variable {size count bufSize : abi.Word} {f : File}

theorem overflows_eq : overflows size count = Eof.overflows abi size.toNat count.toNat := by
  have hDiv : (BitVec.allOnes abi.bits / size).toNat = sizeMax abi / size.toNat := by
    rw [BitVec.toNat_udiv, BitVec.toNat_allOnes, sizeMax]
  have hZero : (size != 0) = (size.toNat != 0) := by
    rw [Bool.eq_iff_iff]
    simp [← BitVec.toNat_inj]
  simp only [overflows, Eof.overflows, hZero, gt_iff_lt, BitVec.lt_def, hDiv]

theorem overflows_iff : overflows size count = true ↔ 2 ^ abi.bits ≤ size.toNat * count.toNat := by
  have hPos : 0 < 2 ^ abi.bits := Nat.two_pow_pos _
  rw [overflows_eq]
  simp only [Eof.overflows, sizeMax, Bool.and_eq_true, bne_iff_ne, ne_eq, decide_eq_true_eq,
    gt_iff_lt]
  constructor
  · rintro ⟨hSize, hCount⟩
    have := (Nat.div_lt_iff_lt_mul (Nat.pos_of_ne_zero hSize)).mp hCount
    rw [Nat.mul_comm] at this
    omega
  · intro hProduct
    have hSize : size.toNat ≠ 0 := by
      intro h
      rw [h, Nat.zero_mul] at hProduct
      omega
    refine ⟨hSize, (Nat.div_lt_iff_lt_mul (Nat.pos_of_ne_zero hSize)).mpr ?_⟩
    rw [Nat.mul_comm]
    omega

/-- Without an overflow `total` is the product, and no host goes beyond it. -/
theorem blockChk_within_iff {past : String} {checked : File → File} :
    (∀ host : BlockHost abi, Within bufSize (blockChk past checked host size count f bufSize)) ↔
      size.toNat * count.toNat < 2 ^ abi.bits ∨
        size.toNat * count.toNat % 2 ^ abi.bits ≤ bufSize.toNat := by
  have hTotal : (size * count).toNat = size.toNat * count.toNat % 2 ^ abi.bits :=
    BitVec.toNat_mul size count
  by_cases hOver : overflows size count = true
  · have hProduct := overflows_iff.mp hOver
    rw [or_iff_right (Nat.not_lt.mpr hProduct), ← hTotal]
    simp only [blockChk, hOver, if_true]
    constructor
    · intro hWithin
      exact hWithin eager
    · intro hFits host
      exact Nat.le_trans (host.atMost size count f) hFits
  · have hProduct := mt overflows_iff.mpr hOver
    refine iff_of_true (fun host => ?_) (Or.inl (Nat.lt_of_not_le hProduct))
    simp only [blockChk, hOver]
    by_cases hPast : size * count > bufSize
    · simp [hPast, Within]
    · rw [if_neg Bool.false_ne_true, if_neg hPast]
      exact Nat.le_trans (host.atMost size count f) (Nat.le_of_not_lt hPast)

/-- The flag of the stream after the call is that of the run model. -/
theorem freadChk_eof (host : BlockHost abi) :
    Eof.freadChk abi size.toNat count.toNat bufSize.toNat (host.call size count f).eof f =
      (freadChk host size count f bufSize).toOption.map Prod.snd := by
  unfold Eof.freadChk freadChk blockChk
  rw [← overflows_eq]
  by_cases hOver : overflows size count = true
  · rw [if_pos hOver, if_pos hOver]
    rfl
  · have hProduct := mt overflows_iff.mpr hOver
    have hTotal : (size * count).toNat = size.toNat * count.toNat := by
      rw [BitVec.toNat_mul, Nat.mod_eq_of_lt (Nat.lt_of_not_le hProduct)]
    rw [if_neg hOver, if_neg hOver]
    by_cases hPast : size.toNat * count.toNat > bufSize.toNat
    · have hWord : size * count > bufSize := by rwa [gt_iff_lt, BitVec.lt_def, hTotal]
      rw [if_pos hPast, if_pos hWord]
      rfl
    · have hWord : ¬ size * count > bufSize := by rwa [gt_iff_lt, BitVec.lt_def, hTotal]
      rw [if_neg hPast, if_neg hWord]
      rfl

end Products

/-- The two functions keep every host within the buffer, exactly when the product is a `size_t`, or
fits the buffer once it has wrapped around. -/
theorem fortified_within_buffer (size count bufSize : abi.Word) (f : File) :
    ((∀ host : BlockHost abi, Within bufSize (freadChk host size count f bufSize)) ↔
        size.toNat * count.toNat < 2 ^ abi.bits ∨
          size.toNat * count.toNat % 2 ^ abi.bits ≤ bufSize.toNat) ∧
      ((∀ host : BlockHost abi, Within bufSize (fwriteChk host size count f bufSize)) ↔
        size.toNat * count.toNat < 2 ^ abi.bits ∨
          size.toNat * count.toNat % 2 ^ abi.bits ≤ bufSize.toNat) :=
  ⟨blockChk_within_iff, blockChk_within_iff⟩

/-- The product wraps around to 2^32 bytes, all of which go through a buffer of 16. -/
theorem fortified_not_within :
    ¬ Within (16 : Abi.lp64.Word) (freadChk eager 0x100000000 0x100000001 wrapped 16) ∧
      ¬ Within (16 : Abi.lp64.Word) (fwriteChk eager 0x100000000 0x100000001 wrapped 16) := by
  have hOver : overflows (0x100000000 : Abi.lp64.Word) 0x100000001 = true := by decide
  constructor
  · rw [freadChk, blockChk, if_pos hOver]
    show ¬ _ ≤ _
    decide
  · rw [fwriteChk, blockChk, if_pos hOver]
    show ¬ _ ≤ _
    decide

end LibcShim.Stdio.Fortify
