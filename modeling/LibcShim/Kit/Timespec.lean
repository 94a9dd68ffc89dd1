import Mathlib.Algebra.Order.Ring.Int

/-! Times as seconds and nanoseconds. -/

namespace LibcShim.Kit

structure Timespec where
  sec : Int
  nsec : Int
  deriving DecidableEq, Repr

namespace Timespec

/-- In nanoseconds. -/
def total (t : Timespec) : Int := t.sec * 10 ^ 9 + t.nsec

def Normal (t : Timespec) : Prop := 0 ≤ t.nsec ∧ t.nsec < 10 ^ 9

instance (t : Timespec) : Decidable t.Normal := inferInstanceAs (Decidable (_ ∧ _))

variable {t u : Timespec}

theorem total_lt (ht : t.Normal) (hu : u.Normal) :
    t.total < u.total ↔ t.sec < u.sec ∨ t.sec = u.sec ∧ t.nsec < u.nsec := by
  unfold Normal at ht hu
  unfold total
  omega

end Timespec

end LibcShim.Kit
