import SrsRan.Ofh.UplaneMessage
import SrsRan.Lib.Run

/-!
# The sections of a received User-Plane message

An accepted message is its radio application header, a section and what is left behind it.  The decoder does not compare
the PRBs that a section header names with those of the radio unit.
-/

namespace SrsRan.Ofh

open Support Lib.Run List

namespace UplaneDecoder

variable {Sample : Type} (decoder : UplaneDecoder Sample)

variable {decoder} {message rest : Bytes} {params : CompressionParams} {x : UplaneSection Sample}

end UplaneDecoder

end SrsRan.Ofh
