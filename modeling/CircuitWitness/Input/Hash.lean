/-
  The hash that addresses an input signal by its name: FNV-1a over the bytes of the name, in
  64-bit words.

  Each byte is first mixed into the low end of the word and then multiplied through it, starting
  from a fixed basis, so the empty name hashes to the basis.
-/

namespace CircuitWitness

/-- One byte's step of the hash. -/
def mixByte (h : UInt64) (b : UInt8) : UInt64 := (h ^^^ b.toUInt64) * 0x100000001b3

/-- The address of an input signal. -/
def inputHash (name : String) : UInt64 :=
  name.toUTF8.toList.foldl mixByte 0xcbf29ce484222325

end CircuitWitness
