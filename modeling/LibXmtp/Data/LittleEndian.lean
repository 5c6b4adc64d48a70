import LibXmtp.Data.BigEndian
import Mathlib.Algebra.Group.Nat.Defs

namespace LibXmtp.Data

def ofLittleEndian (bytes : Bytes) : Nat := ofBigEndian bytes.reverse

def toLittleEndian (length n : Nat) : Bytes := (toBigEndian length n).reverse

theorem ofLittleEndian_toLittleEndian (length n : Nat) :
    ofLittleEndian (toLittleEndian length n) = n % 256 ^ length := by
  rw [ofLittleEndian, toLittleEndian, List.reverse_reverse, ofBigEndian_toBigEndian]

theorem toLittleEndian_ofLittleEndian (bytes : Bytes) :
    toLittleEndian bytes.length (ofLittleEndian bytes) = bytes := by
  have hreverse := toBigEndian_ofBigEndian bytes.reverse
  rw [List.length_reverse] at hreverse
  rw [toLittleEndian, ofLittleEndian, hreverse, List.reverse_reverse]

@[simp] theorem length_toLittleEndian (length n : Nat) : (toLittleEndian length n).length = length := by
  simp [toLittleEndian]

end LibXmtp.Data
