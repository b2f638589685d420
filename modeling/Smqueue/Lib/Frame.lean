import Mathlib.Data.List.Basic
import Mathlib.Control.Monad.Basic

/-!
# Bit frames

A frame is a list of bits that is read and written field by field at a bit position which every
field advances. Reading or writing outside the frame fails with an error given by the user of this
file. A frame that is being written is a sheet: a list of bits of which some may not have been
written yet.
-/

namespace Frame

/-- The value of a list of bits, the most significant bit first. -/
def ofBits (bs : List Bool) : Nat := bs.foldl (fun v b => 2 * v + b.toNat) 0

/-- The low `n` bits of `v`, the most significant bit first. -/
def toBits : Nat → Nat → List Bool
  | 0, _ => []
  | n + 1, v => toBits n (v / 2) ++ [v % 2 == 1]

/-- The bits of every whole octet in reverse order; a last incomplete octet stays as it is. -/
def reverseOctets {α : Type} : List α → List α
  | a :: b :: c :: d :: e :: f :: g :: h :: rest =>
    h :: g :: f :: e :: d :: c :: b :: a :: reverseOctets rest
  | rest => rest

/-! ## Reading -/

/-- A computation that reads a frame from a position and may fail. -/
abbrev Reader (ε α : Type) := StateT Nat (Except ε) α

variable {ε : Type}

/-- The field of `n` bits at position `p` of `src`, or the error `outside`. -/
def peek (outside : ε) (src : List Bool) (p n : Nat) : Except ε Nat :=
  if p + n ≤ src.length then .ok (ofBits ((src.drop p).take n)) else .error outside

/-- The field of `n` bits whose least significant bit comes first. -/
def peekReversed (outside : ε) (src : List Bool) (p n : Nat) : Except ε Nat :=
  if p + n ≤ src.length then .ok (ofBits ((src.drop p).take n).reverse) else .error outside

/-- Read the next field of `n` bits. -/
def field (outside : ε) (src : List Bool) (n : Nat) : Reader ε Nat := fun p =>
  (peek outside src p n).map fun v => (v, p + n)

/-- Read the next field of `n` bits, the least significant bit first. -/
def fieldReversed (outside : ε) (src : List Bool) (n : Nat) : Reader ε Nat := fun p =>
  (peekReversed outside src p n).map fun v => (v, p + n)

/-- Read the next `n` bits as they are. -/
def segment (outside : ε) (src : List Bool) (n : Nat) : Reader ε (List Bool) := fun p =>
  if p + n ≤ src.length then .ok ((src.drop p).take n, p + n) else .error outside

/-! ## Writing -/

/-- A frame that is being written. -/
abbrev Sheet := List (Option Bool)

/-- A sheet of `n` bits that have not been written. -/
def blank (n : Nat) : Sheet := List.replicate n none

/-- A computation that writes a sheet from a position on and may fail. -/
abbrev Writer (ε α : Type) := StateT (Sheet × Nat) (Except ε) α

/-- Write `bs` as they are. -/
def putBits (outside : ε) (bs : Sheet) : Writer ε Unit := fun (dest, p) =>
  if p + bs.length ≤ dest.length then
    .ok ((), (dest.take p ++ bs ++ dest.drop (p + bs.length), p + bs.length))
  else .error outside

/-- Write the low `n` bits of `v`. -/
def put (outside : ε) (v n : Nat) : Writer ε Unit := putBits outside ((toBits n v).map some)

/-- Write the bit at position `i`, wherever the next field goes. -/
def setBit (outside : ε) (i : Nat) (b : Bool) : Writer ε Unit := fun (dest, p) =>
  if i < dest.length then .ok ((), (dest.set i (some b), p)) else .error outside

/-- Write all the rest of the sheet by `f`, leaving the position where it is. -/
def editTail (f : Sheet → Except ε Sheet) : Writer ε Unit := fun (dest, p) =>
  (f (dest.drop p)).map fun tail => ((), (dest.take p ++ tail, p))

/-- The bits of a sheet; bits that were never written are taken from `junk`. -/
def develop (junk : Nat → Bool) (s : Sheet) : List Bool :=
  s.mapIdx fun i b => b.getD (junk i)

/-! ## What is read and written -/

/-- `r` finds exactly `bs` at the current position, wherever that is, takes them for `a`, and advances
by them. -/
def Reads {α : Type} (r : List Bool → Reader ε α) (bs : List Bool) (a : α) : Prop :=
  ∀ pre rest : List Bool, r (pre ++ bs ++ rest) pre.length = .ok (a, pre.length + bs.length)

/-- `w` writes exactly `bs` at the current position, wherever that is, and advances by them. -/
def Writes (w : Writer ε Unit) (bs : Sheet) : Prop :=
  ∀ pre rest : Sheet, bs.length ≤ rest.length →
    w (pre ++ rest, pre.length) =
      .ok ((), (pre ++ bs ++ rest.drop bs.length, pre.length + bs.length))

end Frame
