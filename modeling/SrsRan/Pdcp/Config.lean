import SrsRan.Support.Bytes

/-!
# PDCP sequence number sizes

The SN sizes of PDCP, and `get_pdcp_sn`, which RLC uses to find the PDCP SN
of an SDU it is handed.
-/

namespace SrsRan.Pdcp

open Support

/-- `pdcp_sn_size`.  The entities refuse `invalid` at construction. -/
inductive PdcpSnSize where
  | size12bits
  | size18bits
deriving DecidableEq

/-- `get_pdcp_sn`: nothing for a control PDU, a set reserved bit or a short PDU. -/
def getPdcpSn (pdcpPdu : Bytes) (snSize : PdcpSnSize) (isSrb : Bool) : Option ℕ :=
  match pdcpPdu with
  | [] => none
  | b0 :: rest =>
    if isSrb ∧ snSize ≠ .size12bits then none
    else if ¬isSrb ∧ b0.toNat / 2 ^ 7 = 0 then none
    else if isSrb ∧ b0.toNat / 2 ^ 7 = 1 then none
    else
      match snSize, rest with
      | .size12bits, b1 :: _ =>
        if b0.toNat / 2 ^ 4 % 2 ^ 3 ≠ 0 then none else some (b0.toNat % 2 ^ 4 * 2 ^ 8 + b1.toNat)
      | .size18bits, b1 :: b2 :: _ =>
        if b0.toNat / 2 ^ 2 % 2 ^ 5 ≠ 0 then none
        else some (b0.toNat % 2 ^ 2 * 2 ^ 16 + b1.toNat * 2 ^ 8 + b2.toNat)
      | _, _ => none

end SrsRan.Pdcp
