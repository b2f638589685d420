import Smqueue.Routing
import Mathlib.Data.Nat.Digits.Defs

/-!
# Numbers of calls

A message that the program sends on or builds gets the number of a new call in its Call-ID:
`new_call_number` prints a number of `new_random_number`, which reads a random device, or counts where
there is none.
-/

namespace Smqueue

/-! ## `l64a` and `a64l` -/

/-- The digit for a value below 64: a point, a slash, the decimal digits and the letters. -/
def l64aDigit (n : Nat) : UInt8 :=
  UInt8.ofNat (if n < 12 then 46 + n else if n < 38 then 53 + n else 59 + n)

/-- `l64a`: the digits of the lower 32 bits, the last one first, and none for zero. -/
def l64a (n : Nat) : CString := (Nat.digits 64 (n % 2 ^ 32)).map l64aDigit

/-- The value of a digit. -/
def a64lValue (c : UInt8) : Nat :=
  if c.toNat < 58 then c.toNat - 46 else if c.toNat < 91 then c.toNat - 53 else c.toNat - 59

/-- `a64l`: the value of the first six digits. -/
def a64l (s : CString) : Nat := Nat.ofDigits 64 ((s.take 6).map a64lValue)

/-! ## Random numbers -/

/-- What `new_random_number` keeps from one call to the next. -/
structure RandomSource where
  /-- The file descriptor of the random device, which is not open if it is not positive. -/
  randomFd : Int
  fallback : BitVec 32
deriving DecidableEq, Repr

/-- What the operating system gives during one call. -/
structure Randomness where
  /-- The result of `open`. -/
  opened : Int
  /-- What is read in each round of the loop; nothing if fewer than four bytes come. -/
  reads : List (Option (BitVec 32))

namespace RandomSource

variable {α : Type}

/-- The body of the loop: the value of `randnum` at its end. An overflow of an `int` wraps around. -/
def round (r : RandomSource) (randbuf : Option (BitVec 32)) : BitVec 32 × RandomSource :=
  let (randnum, r) :=
    match if 0 < r.randomFd then randbuf else none with
    | some randnum => (randnum, r)
    | none => (r.fallback + 1, { r with fallback := r.fallback + 1 })
  (if randnum.slt 0 then -randnum else randnum, r)

/-- The loop, which goes on until the number is positive. -/
def loop (r : RandomSource) : List (Option (BitVec 32)) → Option (Nat × RandomSource)
  | [] => none
  | randbuf :: reads =>
    let (randnum, r) := r.round randbuf
    if randnum.sle 0 then r.loop reads else some (randnum.toNat, r)

def newRandomNumber (r : RandomSource) (o : Randomness) : Option (Nat × RandomSource) :=
  (if r.randomFd ≤ 0 then { r with randomFd := o.opened } else r).loop o.reads

/-- `new_call_number`, whose result is the array `random_string` up to its terminating zero. -/
def newCallNumber (r : RandomSource) (o : Randomness) : Option (CString × RandomSource) := do
  let (randnum, r) ← r.newRandomNumber o
  return (cstr (strncpy (l64a randnum) 6), r)

/-- The results of several calls, one after the other. -/
def calls (f : RandomSource → Randomness → Option (α × RandomSource)) (r : RandomSource) :
    List Randomness → Option (List α × RandomSource)
  | [] => some ([], r)
  | o :: os => do
    let (a, r) ← f r o
    let (as, r) ← calls f r os
    return (a :: as, r)

end RandomSource

end Smqueue
