import Mathlib.Algebra.Ring.Nat
import SrsRan.Support.Interval

/-!
# Resource block groups of a BWP

The sizes of the RBGs, the RBG of a PRB, and the loop that sets the PRBs of the RBGs of a bitmap.  The RBGs are those of
the carrier cut to the BWP, so the first and the last one may be shorter.
-/

namespace SrsRan.Sched

open Support List

inductive NominalRbgSize where
  | p2
  | p4
  | p8
  | p16

def NominalRbgSize.value : NominalRbgSize → ℕ
  | p2 => 2
  | p4 => 4
  | p8 => 8
  | p16 => 16

section Bwp

variable (bwp : Interval) (P : ℕ)

end Bwp

variable {bwp : Interval} {P : ℕ}

section Blocks

variable (hP : P = 2 ∨ P = 4 ∨ P = 8 ∨ P = 16)
include hP

variable (hpos : 1 ≤ bwp.length)
include hpos

end Blocks

section Convert

variable (hP : P = 2 ∨ P = 4 ∨ P = 8 ∨ P = 16) (hlen : bwp.length ≤ 275)
include hP hlen

variable (hpos : 1 ≤ bwp.length)
include hpos

end Convert

end SrsRan.Sched
