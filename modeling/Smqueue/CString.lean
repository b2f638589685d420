import Mathlib.Algebra.Group.Nat.Defs
import Mathlib.Algebra.Group.Int.Defs
import Mathlib.Data.List.Basic
import Mathlib.Data.Int.Basic

/-!
# C strings

The program handles text as zero-terminated byte strings. A string is modelled by the bytes before
the terminating zero, and the functions of the C library that the program calls on strings are
given here under their own names.
-/

namespace Smqueue

/-- The bytes of a C string, without the terminating zero. -/
abbrev CString := List UInt8

/-- The C string of a string literal (one byte per character, ISO-8859-1). -/
def str (s : String) : CString := s.toList.map fun c => UInt8.ofNat c.toNat

/-- `isdigit` in the C locale. -/
def isdigit (c : UInt8) : Bool := 48 ≤ c && c ≤ 57

/-- `isalpha` in the C locale. -/
def isalpha (c : UInt8) : Bool := (65 ≤ c && c ≤ 90) || (97 ≤ c && c ≤ 122)

/-- `isspace` in the C locale. -/
def isspace (c : UInt8) : Bool := c = 32 || (9 ≤ c && c ≤ 13)

/-- `tolower` in the C locale. -/
def tolower (c : UInt8) : UInt8 := if 65 ≤ c && c ≤ 90 then c + 32 else c

/-- The decimal digits of `n`, as `operator<<` prints an unsigned number. -/
def decimal (n : Nat) : CString := (Nat.toDigits 10 n).map fun c => UInt8.ofNat c.toNat

/-- The decimal form of `z`, as `operator<<` prints a signed number. -/
def decimalInt (z : Int) : CString :=
  if z < 0 then 45 :: decimal z.natAbs else decimal z.natAbs

/-- The value of a string of decimal digits. -/
def digitsValue (ds : CString) : Nat := ds.foldl (fun n d => 10 * n + (d.toNat - 48)) 0

/-- The digits of `strtol(s, _, 10)`: what follows the white space and an optional sign. -/
def strtolDigits (s : CString) : Bool × CString :=
  match s.dropWhile isspace with
  | 45 :: t => (true, t.takeWhile isdigit)
  | 43 :: t => (false, t.takeWhile isdigit)
  | t => (false, t.takeWhile isdigit)

/-- `strtol(s, NULL, 10)` with a 64-bit `long`: out of range values become the nearest bound. -/
def strtol (s : CString) : Int :=
  let (neg, ds) := strtolDigits s
  let v : Int := digitsValue ds
  if neg then max (-v) (-2 ^ 63) else min v (2 ^ 63 - 1)

/-- `atoi`, which the library defines as `strtol` cut down to an `int`. -/
def atoi (s : CString) : Int := (strtol s).bmod (2 ^ 32)

/-- `strstr`: the part of `s` from the first occurrence of `needle` on. -/
def strstr : CString → CString → Option CString
  | [], needle => if needle = [] then some [] else none
  | c :: s, needle => if needle.isPrefixOf (c :: s) then some (c :: s) else strstr s needle

/-- `strcasestr`: `strstr` without regard to case. -/
def strcasestr : CString → CString → Option CString
  | [], needle => if needle = [] then some [] else none
  | c :: s, needle =>
    if (needle.map tolower).isPrefixOf ((c :: s).map tolower) then some (c :: s)
    else strcasestr s needle

/-- The first `n` bytes of the array that `strncpy` fills from `s`: cut off or padded with zeros. -/
def strncpy (s : CString) (n : Nat) : List UInt8 := s.take n ++ List.replicate (n - s.length) 0

/-- The C string that a byte array holds: the bytes before the first zero. -/
def cstr (bytes : List UInt8) : CString := bytes.takeWhile (· ≠ 0)

example : atoi (str " -42x") = -42 := by decide

example : strcasestr (str "a\r\ncontent: x") (str "\r\nContent") = some (str "\r\ncontent: x") := by
  decide

end Smqueue
