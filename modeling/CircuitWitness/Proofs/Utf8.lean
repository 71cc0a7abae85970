import Mathlib.Tactic.SplitIfs
/-
  UTF-8 keeps the order of texts.

  Texts are compared by code point, and their bytes would be compared one by one.  Both come to the
  same.  Of two characters the smaller one has the smaller first byte, or else both have equally
  many bytes, and then the bytes are the digits of the two code points, the first the most
  significant.
-/

namespace CircuitWitness.Text

open String

/-- The bytes of a text. -/
def bytes (s : String) : List UInt8 := s.toUTF8.data.toList

theorem bytes_eq (s : String) : bytes s = s.toList.flatMap utf8EncodeChar := by
  have hbytes : s.toByteArray = s.toList.utf8Encode := by
    rw [← toByteArray_ofList, ofList_toList]
  show s.toByteArray.data.toList = _
  rw [hbytes, List.utf8Encode, List.data_toByteArray]

theorem cons_byte_lt_iff {a b : Nat} {l m : List UInt8} (ha : a < 256) (hb : b < 256) :
    UInt8.ofNat a :: l < UInt8.ofNat b :: m ↔ a < b ∨ a = b ∧ l < m := by
  rw [List.cons_lt_cons_iff, UInt8.lt_iff_toNat_lt, ← UInt8.toNat_inj, UInt8.toNat_ofNat_of_lt' ha,
    UInt8.toNat_ofNat_of_lt' hb]

/-- The smaller of two characters comes first, whatever follows. -/
theorem utf8EncodeChar_lt {c d : Char} (h : c < d) (l m : List UInt8) :
    utf8EncodeChar c ++ l < utf8EncodeChar d ++ m := by
  have hlt : c.val.toNat < d.val.toNat := h
  have hbound : d.val.toNat < 0x110000 := by
    rcases d.valid with hd | hd
    · exact Nat.lt_trans hd (by decide)
    · exact hd.2
  unfold utf8EncodeChar
  dsimp only
  generalize c.val.toNat = v at hlt
  generalize d.val.toNat = w at hlt hbound
  -- The digits to the base 64, from the last one on; the first has three bits.
  have hlast : v / 64 < w / 64 ∨ v / 64 = w / 64 ∧ v % 64 < w % 64 := by omega
  have hthird : v / 64 < w / 64 →
      v / 4096 < w / 4096 ∨ v / 4096 = w / 4096 ∧ v / 64 % 64 < w / 64 % 64 := by omega
  have hsecond : v / 4096 < w / 4096 →
      v / 262144 < w / 262144 ∨ v / 262144 = w / 262144 ∧ v / 4096 % 64 < w / 4096 % 64 := by omega
  have hfirst : v / 262144 % 8 = v / 262144 ∧ w / 262144 % 8 = w / 262144 := by
    constructor <;> exact Nat.mod_eq_of_lt (by omega)
  split_ifs <;> simp (disch := omega) only [List.cons_append, List.nil_append, cons_byte_lt_iff] <;>
    omega

/-- **The smaller of two texts is the one with the smaller bytes.** -/
theorem bytes_lt {s t : String} (h : s < t) : bytes s < bytes t := by
  have hlt : s.toList < t.toList := h
  rw [bytes_eq, bytes_eq]
  generalize s.toList = cs, t.toList = ds at hlt
  induction hlt with
  | @nil d ds =>
    obtain ⟨b, bs, hd⟩ := List.exists_cons_of_ne_nil (utf8EncodeChar_ne_nil (c := d))
    rw [List.flatMap_nil, List.flatMap_cons, hd]
    exact List.nil_lt_cons b _
  | rel hcd => exact utf8EncodeChar_lt hcd _ _
  | cons _ ih => exact List.append_left_lt ih

end CircuitWitness.Text
