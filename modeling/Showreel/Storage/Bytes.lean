/-!
Contract: the bytes of a file.

Owns: the text that bytes spell, and bytes written over others from a place on.

Does not own: where files are.
-/

namespace Showreel.Storage

-- Bytes are compared by the built-in decision, whatever others are at hand.
attribute [instance (10000)] ByteArray.instDecidableEq

/-- Bytes with others written over them from a place on; a gap before the place is filled
with zeros. -/
def overwrite (bytes : ByteArray) (place : Nat) (written : ByteArray) : ByteArray :=
  if written.isEmpty then bytes
  else
    let gap : ByteArray := ⟨Array.replicate (place - bytes.size) 0⟩
    bytes.extract 0 place ++ gap ++ written
      ++ bytes.extract (place + written.size) bytes.size

end Showreel.Storage
