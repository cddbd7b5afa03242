import RequestSchema.Text.Quoted

/-!
Faults: what stops a computation without a diagnostic. Most are faults of rule parameters, of which
no integer or floating point number can be made although they have the form of a number, or which
are missing.
-/
namespace RequestSchema

/-- Why a computation has no result. -/
inductive Fault where
  /-- an integer was asked of an infinite number -/
  | infiniteInteger
  /-- an integer was asked of the undefined number -/
  | undefinedInteger
  /-- a floating point number was asked of an integer beyond the finite ones -/
  | integerTooLarge
  /-- a parameter was asked of a rule that has none -/
  | missingParameter
  /-- an integer was asked of a numeral with more digits than are read -/
  | tooManyDigits (count : Nat)
  /-- the numeral was asked of an integer with more digits than are written -/
  | numeralTooLong
  /-- a text was asked for that is longer than texts can be -/
  | textTooLong
  /-- a text was asked for that the memory does not hold -/
  | outOfMemory
  /-- a file was asked for under a path with a null character -/
  | unusablePath
  /-- a file was asked for under a path that the system does not take -/
  | pathTooLong (path : String)
  /-- code outside of the analysis raised what only ends a program -/
  | raised (kind text : String)
  deriving DecidableEq, Repr

def Fault.message : Fault → String
  | infiniteInteger => "cannot convert float infinity to integer"
  | undefinedInteger => "cannot convert float NaN to integer"
  | integerTooLarge => "int too large to convert to float"
  | missingParameter => "list index out of range"
  | tooManyDigits count =>
      "Exceeds the limit (4300 digits) for integer string conversion: value has " ++
        toString count ++ " digits; use sys.set_int_max_str_digits() to increase the limit"
  | numeralTooLong => "Exceeds the limit (4300 digits) for integer string conversion; " ++
      "use sys.set_int_max_str_digits() to increase the limit"
  | textTooLong => "cannot fit 'int' into an index-sized integer"
  | outOfMemory => ""
  | unusablePath => "embedded null byte"
  | pathTooLong path => "[Errno 36] File name too long: " ++ Text.quoted path
  | raised _ text => text

end RequestSchema
