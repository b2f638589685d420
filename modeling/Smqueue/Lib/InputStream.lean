import Mathlib.Data.List.Basic

/-!
# Formatted input streams

An input stream is the input that is left and two flags: `eof` once an operation has run into the end
of the input, `fail` once an operation has failed. A formatted extraction skips white space first. On
a stream with one of the flags set it changes nothing but `fail`.

The second half of the file scans the same input without flags: a field is there, or it is malformed
before the end of the input, or the input ends.
-/

/-- A stream of bytes with its flags. -/
structure InputStream where
  rest : List UInt8
  eof : Bool := false
  fail : Bool := false
deriving DecidableEq, Repr

namespace InputStream

variable (space : UInt8 → Bool)

/-! ## Numbers -/

def isDigit (c : UInt8) : Bool := 48 ≤ c && c ≤ 57

/-- The value of a string of decimal digits. -/
def valueOf (ds : List UInt8) : Nat := ds.foldl (fun n d => 10 * n + (d.toNat - 48)) 0

/-- The sign is a minus, the digits, and what follows them. -/
def scanNumber : List UInt8 → Bool × List UInt8 × List UInt8
  | 45 :: s => (true, s.takeWhile isDigit, s.dropWhile isDigit)
  | 43 :: s => (false, s.takeWhile isDigit, s.dropWhile isDigit)
  | s => (false, s.takeWhile isDigit, s.dropWhile isDigit)

/-- The unsigned number with the given sign and digits: a negative number wraps around. -/
def unsignedValue (max : Nat) (negative : Bool) (v : Nat) : Nat :=
  if negative then (max + 1 - v) % (max + 1) else v

/-! ## Operations -/

/-- The start of a formatted extraction. -/
def skipSpace (f : InputStream) : InputStream :=
  if f.eof || f.fail then { f with fail := true }
  else
    let rest := f.rest.dropWhile space
    ⟨rest, rest.isEmpty, rest.isEmpty⟩

/-- Extract a word; the string is not assigned if the extraction does not start. -/
def extractWord (f : InputStream) : Option (List UInt8) × InputStream :=
  let f := f.skipSpace space
  if f.fail then (none, f)
  else
    let rest := f.rest.dropWhile fun c => !space c
    (some (f.rest.takeWhile fun c => !space c), ⟨rest, rest.isEmpty, false⟩)

/-- Extract an unsigned number with values up to `max`; the variable is not assigned if the
extraction does not start. -/
def extractUnsigned (max : Nat) (f : InputStream) : Option Nat × InputStream :=
  let f := f.skipSpace space
  if f.fail then (none, f)
  else
    let (negative, ds, rest) := scanNumber f.rest
    if ds = [] then (some 0, ⟨rest, rest.isEmpty, true⟩)
    else if max < valueOf ds then (some max, ⟨rest, rest.isEmpty, true⟩)
    else (some (unsignedValue max negative (valueOf ds)), ⟨rest, rest.isEmpty, false⟩)

/-- The loop that takes characters from the stream while the next one is `c`. -/
def skipChar (c : UInt8) (f : InputStream) : InputStream :=
  if f.eof || f.fail then { f with fail := true }
  else
    let rest := f.rest.dropWhile (· = c)
    ⟨rest, rest.isEmpty, false⟩

/-- Take up to `n` characters before the next `delim`. -/
def takeText (n : Nat) (delim : UInt8) (f : InputStream) : List UInt8 × InputStream :=
  if f.eof || f.fail then ([], { f with fail := true })
  else
    let text := (f.rest.take n).takeWhile (· ≠ delim)
    let rest := f.rest.drop text.length
    (text, ⟨rest, rest.isEmpty, text.isEmpty⟩)

end InputStream

/-! ## Scanning -/

/-- The outcome of scanning the input for something. -/
inductive Scan (α : Type) where
  /-- The input ends before anything follows what was scanned. -/
  | ended
  /-- What stands there is malformed, and more input follows. -/
  | malformed
  | found (value : α) (rest : List UInt8)
deriving DecidableEq, Repr

namespace Scan

variable {α β : Type} (space : UInt8 → Bool)

/-- Scan on after something was found. -/
def bind (x : Scan α) (f : α → List UInt8 → Scan β) : Scan β :=
  match x with
  | ended => ended
  | malformed => malformed
  | found a rest => f a rest

def word (s : List UInt8) : Scan (List UInt8) :=
  let s := s.dropWhile space
  let rest := s.dropWhile fun c => !space c
  if rest = [] then ended else found (s.takeWhile fun c => !space c) rest

def unsigned (max : Nat) (s : List UInt8) : Scan Nat :=
  let (negative, ds, rest) := InputStream.scanNumber (s.dropWhile space)
  if rest = [] then ended
  else if ds = [] ∨ max < InputStream.valueOf ds then malformed
  else found (InputStream.unsignedValue max negative (InputStream.valueOf ds)) rest

/-- Any number of characters `c`. -/
def chars (c : UInt8) (s : List UInt8) : Scan Unit :=
  let rest := s.dropWhile (· = c)
  if rest = [] then ended else found () rest

/-- Up to `n` characters before the next `delim`, but at least one. -/
def text (n : Nat) (delim : UInt8) (s : List UInt8) : Scan (List UInt8) :=
  let text := (s.take n).takeWhile (· ≠ delim)
  let rest := s.drop text.length
  if rest = [] then ended else if text = [] then malformed else found text rest

end Scan
