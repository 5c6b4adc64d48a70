import LibXmtp.Data.Hex
import Mathlib.Data.List.Basic
import Mathlib.Data.Nat.Find

universe u

namespace LibXmtp.Data

theorem append_inj_of_size {s t s' t' : String} (h : s ++ t = s' ++ t')
    (hsize : s.utf8ByteSize = s'.utf8ByteSize) : s = s' ∧ t = t' := by
  have hbytes := congrArg String.toByteArray h
  rw [String.toByteArray_append, String.toByteArray_append,
    ByteArray.append_eq_append_iff_of_size_eq_left hsize] at hbytes
  exact ⟨String.toByteArray_inj.mp hbytes.1, String.toByteArray_inj.mp hbytes.2⟩

theorem isDigit_of_mem_repr {n : Nat} {c : Char} (h : c ∈ (Nat.repr n).toList) :
    c.isDigit = true := by
  rw [Nat.toList_repr] at h
  exact Nat.isDigit_of_mem_toDigits (by decide) (by decide) h

theorem repr_inj {m n : Nat} (h : Nat.repr m = Nat.repr n) : m = n := by
  have hdigits := congrArg (fun s => Nat.ofDigitChars 10 s.toList 0) h
  simpa [Nat.toList_repr, Nat.ofDigitChars_ten_toDigits] using hdigits

theorem append_cons_inj_of_notMem_right {α : Type u} {c : α} {a a' s s' : List α}
    (h : a ++ c :: s = a' ++ c :: s') (hs : c ∉ s) (hs' : c ∉ s') : a = a' ∧ s = s' := by
  rcases List.append_eq_append_iff.mp h with ⟨t, rfl, ht⟩ | ⟨t, rfl, ht⟩
  · cases t with
    | nil => simpa using ht
    | cons d t =>
      obtain ⟨-, rfl⟩ := List.cons.inj ht
      exact absurd (List.mem_append_right _ List.mem_cons_self) hs
  · cases t with
    | nil => simpa [eq_comm] using ht
    | cons d t =>
      obtain ⟨-, rfl⟩ := List.cons.inj ht
      exact absurd (List.mem_append_right _ List.mem_cons_self) hs'

def lines (s : String) : List (List Char) := s.toList.splitOn '\n'

theorem lines_append (s t : String) : lines (s ++ "\n" ++ t) = lines s ++ lines t := by
  have htext : (s ++ "\n" ++ t).toList = s.toList ++ '\n' :: t.toList := by
    simp [String.toList_append]
  rw [lines, htext, List.splitOn_append_cons_self]
  rfl

theorem lines_of_single {s : String} (h : '\n' ∉ s.toList) : lines s = [s.toList] :=
  List.splitOn_eq_singleton h

theorem lines_inj {s t : String} : lines s = lines t ↔ s = t := by
  constructor
  · intro h
    have hjoin := congrArg (List.intercalate ['\n']) h
    rw [lines, lines, List.intercalate_splitOn, List.intercalate_splitOn] at hjoin
    exact String.toList_inj.mp hjoin
  · intro h
    rw [h]

theorem lines_intercalate {texts : List String} (h : texts ≠ []) :
    lines ("\n".intercalate texts) = texts.flatMap lines := by
  induction texts with
  | nil => exact absurd rfl h
  | cons t texts ih =>
    cases texts with
    | nil => simp
    | cons u texts =>
      rw [String.intercalate_cons_cons, lines_append, ih (List.cons_ne_nil u texts)]
      rfl

/-! Where a byte string stops being UTF-8, as `core::str::from_utf8` tells. -/

def isContinuation (byte : UInt8) : Bool := 0x80 ≤ byte && byte ≤ 0xBF

def isSecond (lead second : UInt8) : Bool :=
  if lead = 0xE0 then 0xA0 ≤ second && second ≤ 0xBF
  else if lead = 0xED then 0x80 ≤ second && second ≤ 0x9F
  else if lead = 0xF0 then 0x90 ≤ second && second ≤ 0xBF
  else if lead = 0xF4 then 0x80 ≤ second && second ≤ 0x8F
  else 0xE1 ≤ lead && lead ≤ 0xF3 && isContinuation second

def beginsCharacter : Bytes → Bool
  | [lead] => 0xC2 ≤ lead && lead ≤ 0xF4
  | [lead, second] => isSecond lead second
  | [lead, second, third] => 0xF0 ≤ lead && isSecond lead second && isContinuation third
  | _ => false

example : beginsCharacter [0xE2, 0x82] = true := by decide
example : beginsCharacter [0xE2, 0x28] = false := by decide

structure Utf8Error where
  validUpTo : Nat
  errorLen : Option Nat

namespace Utf8Error

def text (error : Utf8Error) : String :=
  match error.errorLen with
  | some length => s!"invalid utf-8 sequence of {length} bytes from index {error.validUpTo}"
  | none => s!"incomplete utf-8 byte sequence from index {error.validUpTo}"

/-- The error of bytes that are not UTF-8: the longest part of a character is skipped, at least a
byte, unless the bytes end within one. -/
def of (bytes : Bytes) : Utf8Error :=
  let validUpTo := Nat.findGreatest
    (fun length => (String.fromUTF8? ⟨(bytes.take length).toArray⟩).isSome) bytes.length
  let rest := bytes.drop validUpTo
  ⟨validUpTo, if beginsCharacter rest then none
    else some (max 1 (Nat.findGreatest (fun length => beginsCharacter (rest.take length)) 3))⟩

end Utf8Error

def strFromUtf8 (bytes : Bytes) : Except Utf8Error String :=
  match String.fromUTF8? ⟨bytes.toArray⟩ with
  | some text => .ok text
  | none => .error (.of bytes)

end LibXmtp.Data
