import Smqueue.ReadErrors

/-!
# The digit array

`L3BCDDigits::parse` stores the digits of a number in an array of fixed size, and compares their number
with the size only after both digits of an octet are stored. Here the parser is followed store by
store.
-/

namespace Smqueue

/-- What has been stored in `mDigits`, the first store first, and the index `i` of the next store. -/
structure DigitArray where
  i : Nat
  stores : List (Nat × UInt8)
  consecutive : stores.map Prod.fst = List.range i

namespace DigitArray

def empty : DigitArray := ⟨0, [], rfl⟩

/-- `mDigits[i++] = c` -/
def store (a : DigitArray) (c : UInt8) : DigitArray where
  i := a.i + 1
  stores := a.stores ++ [(a.i, c)]
  consecutive := by rw [List.map_append, a.consecutive, List.range_succ]; rfl

/-- The characters in the order of their stores. -/
def chars (a : DigitArray) : CString := a.stores.map Prod.snd

/-- The character at an index after the stores into an array that held `before`. -/
def get (a : DigitArray) (before : Nat → UInt8) (k : Nat) : UInt8 :=
  ((a.stores.find? (·.1 = k)).map Prod.snd).getD (before k)

/-- No store is outside of the array, which has a place for each digit and for the zero. -/
def InBounds (a : DigitArray) : Prop := ∀ s ∈ a.stores, s.1 ≤ maxDigits

/-- Whatever the array held before, it holds a string that ends within it. -/
def Terminated (a : DigitArray) : Prop := ∀ before, ∃ k ≤ maxDigits, a.get before k = 0

end DigitArray

namespace L3BCDDigits

/-- The two nibbles of an octet. -/
def readNibbles (src : List Bool) : Read (Nat × Nat) := do
  let d2 ← readField src 4
  let d1 ← readField src 4
  return (d2, d1)

/-- The loop of `L3BCDDigits::parse` over the octets left, with its array and position. -/
def storeLoop (src : List Bool) : Nat → DigitArray → Nat → DigitArray × Except Fault Nat
  | 0, mDigits, rp => (mDigits, .ok rp)
  | n + 1, mDigits, rp =>
    match readNibbles src rp with
    | .error e => (mDigits, .error e)
    | .ok ((d2, d1), rp) =>
      let mDigits := mDigits.store (bcdChar d1)
      let mDigits := if d2 ≠ 15 then mDigits.store (bcdChar d2) else mDigits
      if mDigits.i > maxDigits then (mDigits, .error .l3ReadError)
      else storeLoop src n mDigits rp

/-- `L3BCDDigits::parse`: the array when it ends, and how it ends. -/
def parseStores (src : List Bool) (rp numOctets : Nat) (international : Bool) :
    DigitArray × Except Fault Nat :=
  let start := if international then DigitArray.empty.store 43 else .empty
  match storeLoop src numOctets start rp with
  | (mDigits, .ok rp) => (mDigits.store 0, .ok rp)
  | (mDigits, .error e) => (mDigits, .error e)

/-- The parser stores in its array only, and throws or leaves a string in it. -/
def StaysInside (src : List Bool) (rp numOctets : Nat) (international : Bool) : Prop :=
  let (mDigits, result) := parseStores src rp numOctets international
  mDigits.InBounds ∧
    (result = .error .l3ReadError ∨ (∃ rp', result = .ok rp') ∧ mDigits.Terminated)

/-- The characters that are stored before octet `k` is read. -/
def storedBefore (src : List Bool) (rp : Nat) (international : Bool) (k : Nat) : Nat :=
  (if international then 1 else 0) + digitCount src rp k

/-- Every octet that is read is there, and one that is read when the array is full has one digit
only. -/
def FitsArray (src : List Bool) (rp numOctets : Nat) (international : Bool) : Prop :=
  ∀ k < numOctets, storedBefore src rp international k ≤ maxDigits →
    rp + 8 * k + 8 ≤ src.length ∧
      (storedBefore src rp international k = maxDigits → fieldAt src (rp + 8 * k) 4 = 15)

end L3BCDDigits

end Smqueue
