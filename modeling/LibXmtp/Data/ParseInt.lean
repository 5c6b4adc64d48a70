import LibXmtp.Data.Result

/-! Reading a number of sixty-four bits from its decimal digits, as `i64::from_str` does, and the
digits it is printed with. -/

namespace LibXmtp.Data

inductive IntErrorKind
  | empty
  | invalidDigit
  | posOverflow
  | negOverflow
  deriving DecidableEq

def IntErrorKind.display : IntErrorKind → String
  | .empty => "cannot parse integer from empty string"
  | .invalidDigit => "invalid digit found in string"
  | .posOverflow => "number too large to fit in target type"
  | .negOverflow => "number too small to fit in target type"

def decimalDigit (c : Char) : Option Nat :=
  if '0' ≤ c ∧ c ≤ '9' then some (c.toNat - '0'.toNat) else none

/-- The digits of a negative number are subtracted one by one, so that the least one fits. -/
def pushDigit (negative : Bool) (value : Int) (c : Char) : Except IntErrorKind Int := do
  let digit ← okOr (decimalDigit c) .invalidDigit
  if negative then do
    rejectIf (10 * value - digit < Int64.minValue.toInt) .negOverflow
    return 10 * value - digit
  else do
    rejectIf (Int64.maxValue.toInt < 10 * value + digit) .posOverflow
    return 10 * value + digit

def parseDigits (negative : Bool) (digits : List Char) : Except IntErrorKind Int64 := do
  let value ← digits.foldlM (pushDigit negative) 0
  return Int64.ofInt value

def parseI64 (text : String) : Except IntErrorKind Int64 :=
  match text.toList with
  | [] => .error .empty
  | ['+'] | ['-'] => .error .invalidDigit
  | '+' :: digits => parseDigits false digits
  | '-' :: digits => parseDigits true digits
  | digits => parseDigits false digits

example : parseI64 "-9223372036854775808" = .ok Int64.minValue := by decide +kernel
example : parseI64 "9223372036854775808" = .error .posOverflow := by decide +kernel

def displayI64 (n : Int64) : String := toString n.toInt

end LibXmtp.Data
