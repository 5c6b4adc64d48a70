import LibXmtp.Data.Hex
import Mathlib.Algebra.Group.Nat.Defs
import Mathlib.Data.List.Induction

namespace LibXmtp.Data

def ofBigEndian (bytes : Bytes) : Nat := bytes.foldl (fun n b => 256 * n + b.toNat) 0

def toBigEndian : Nat → Nat → Bytes
  | 0, _ => []
  | length + 1, n => toBigEndian length (n / 256) ++ [UInt8.ofNat (n % 256)]

theorem ofBigEndian_append (bytes : Bytes) (b : UInt8) :
    ofBigEndian (bytes ++ [b]) = 256 * ofBigEndian bytes + b.toNat := by
  simp [ofBigEndian]

theorem toBigEndian_ofBigEndian (bytes : Bytes) :
    toBigEndian bytes.length (ofBigEndian bytes) = bytes := by
  induction bytes using List.reverseRecOn with
  | nil => rfl
  | append_singleton bytes b ih =>
    have hb : b.toNat < 256 := b.toNat_lt
    have hhigh : (256 * ofBigEndian bytes + b.toNat) / 256 = ofBigEndian bytes := by omega
    have hlow : (256 * ofBigEndian bytes + b.toNat) % 256 = b.toNat := by omega
    rw [List.length_append, List.length_singleton, toBigEndian, ofBigEndian_append, hhigh, hlow, ih,
      UInt8.ofNat_toNat]

theorem ofBigEndian_toBigEndian (length n : Nat) :
    ofBigEndian (toBigEndian length n) = n % 256 ^ length := by
  induction length generalizing n with
  | zero => simp [toBigEndian, ofBigEndian, Nat.mod_one]
  | succ length ih =>
    have hbyte : (UInt8.ofNat (n % 256)).toNat = n % 256 := by simp
    rw [toBigEndian, ofBigEndian_append, ih, hbyte, Nat.pow_succ', Nat.mod_mul]
    omega

@[simp] theorem length_toBigEndian (length n : Nat) : (toBigEndian length n).length = length := by
  induction length generalizing n with
  | zero => rfl
  | succ length ih => simp [toBigEndian, ih]

end LibXmtp.Data
