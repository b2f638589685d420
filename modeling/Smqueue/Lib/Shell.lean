import Mathlib.Algebra.GroupWithZero.Nat
import Mathlib.Data.List.Basic

/-!
# Shell command lines

How a POSIX shell reads a line as the words of one simple command. Only lines are accepted whose words
the line alone determines: a line with an operator, an expansion or a comment is not one of them, nor is
one with a word that may stand for the names of files.
-/

namespace Shell

/-- How the next character is read. -/
inductive Mode
  | plain
  /-- After a backslash. -/
  | escaped
  | single
  | double
  /-- After a backslash in double quotes. -/
  | doubleEscaped
deriving DecidableEq, Repr

/-- A character of a word, and whether it was quoted. -/
structure Piece where
  char : UInt8
  quoted : Bool
deriving DecidableEq, Repr

structure Reader where
  mode : Mode := .plain
  /-- The words that have ended. -/
  words : List (List Piece) := []
  /-- The word that has not ended yet. -/
  word : Option (List Piece) := none
deriving DecidableEq, Repr

/-! ## Characters -/

def isBlank (c : UInt8) : Bool := c = 32 || c = 9

/-- The character is an operator or starts one: a newline or one of `&();<>|`. -/
def isOperator (c : UInt8) : Bool := c ∈ [10, 38, 40, 41, 59, 60, 62, 124]

/-- The character starts an expansion: a dollar sign or a backquote. -/
def isExpansion (c : UInt8) : Bool := c = 36 || c = 96

/-- The character is a quote or a backslash. -/
def isQuote (c : UInt8) : Bool := c ∈ [34, 39, 92]

/-- A backslash in double quotes escapes the character. -/
def isEscapable (c : UInt8) : Bool := c ∈ [10, 34, 36, 92, 96]

/-! ## Words -/

namespace Reader

def push (r : Reader) (c : UInt8) (quoted : Bool) : Reader :=
  { r with word := some (r.word.getD [] ++ [⟨c, quoted⟩]) }

/-- A quote starts a word, which may stay empty. -/
def quote (r : Reader) (mode : Mode) : Reader := { r with mode := mode, word := some (r.word.getD []) }

def endWord (r : Reader) : Reader := { r with words := r.words ++ r.word.toList, word := none }

/-- The next character; nothing if the line is not accepted. -/
def next (r : Reader) (c : UInt8) : Option Reader :=
  match r.mode with
  | .plain =>
    if isBlank c then some r.endWord
    else if isOperator c || isExpansion c then none
    else if c = 34 then some (r.quote .double)
    else if c = 39 then some (r.quote .single)
    else if c = 92 then some { r with mode := .escaped }
    -- a number sign at the start of a word starts a comment
    else if c = 35 && r.word.isNone then none
    else some (r.push c false)
  | .escaped =>
    let r := { r with mode := .plain }
    -- an escaped newline is no part of the line
    some (if c = 10 then r else r.push c true)
  | .single => some (if c = 39 then { r with mode := .plain } else r.push c true)
  | .double =>
    if isExpansion c then none
    else if c = 34 then some { r with mode := .plain }
    else if c = 92 then some { r with mode := .doubleEscaped }
    else some (r.push c true)
  | .doubleEscaped =>
    let r := { r with mode := .double }
    some (if c = 10 then r
      else if isEscapable c then r.push c true
      else (r.push 92 true).push c true)

def run (r : Reader) (line : List UInt8) : Option Reader := line.foldlM next r

/-- The words at the end of the line, if no quotes are open. -/
def close (r : Reader) : Option (List (List Piece)) :=
  if r.mode = .plain then some r.endWord.words else none

end Reader

/-- The words of a line. -/
def read (line : List UInt8) : Option (List (List Piece)) := (Reader.run {} line).bind Reader.close

def text (w : List Piece) : List UInt8 := w.map Piece.char

/-! ## Expansions of words -/

/-- The word starts with a tilde that stands for a home directory. -/
def hasTilde (w : List Piece) : Bool := w.head? = some ⟨126, false⟩

/-- What follows an open bracket makes it a bracket expression. -/
def opensBracket (w : List Piece) : Bool :=
  match w.takeWhile (·.char ≠ 47) with
  | ⟨33, false⟩ :: _ :: rest => ⟨93, false⟩ ∈ rest
  | _ :: rest => ⟨93, false⟩ ∈ rest
  | [] => false

/-- The word is a pattern for the names of files. -/
def isPattern : List Piece → Bool
  | [] => false
  | p :: w =>
    !p.quoted && (p.char = 42 || p.char = 63 || p.char = 91 && opensBracket w) || isPattern w

def expands (w : List Piece) : Bool := hasTilde w || isPattern w

/-! ## Simple commands -/

def isNameChar (c : UInt8) : Bool :=
  c = 95 || 48 ≤ c && c ≤ 57 || 65 ≤ c && c ≤ 90 || 97 ≤ c && c ≤ 122

/-- The word starts with a name and an equals sign. -/
def isAssignment (w : List Piece) : Bool :=
  let name := w.takeWhile fun p => !p.quoted && isNameChar p.char
  name.head?.any (fun p => !(48 ≤ p.char && p.char ≤ 57)) &&
    (w.drop name.length).head? = some ⟨61, false⟩

/-- The words that are reserved where a command starts. -/
def reservedWords : List String :=
  ["!", "\x7b", "\x7d", "case", "do", "done", "elif", "else", "esac", "fi", "for", "if", "in", "then",
    "until", "while"]

def isReserved (w : List Piece) : Bool :=
  w.all (!·.quoted) &&
    reservedWords.any fun s => s.toList.map (fun c => UInt8.ofNat c.toNat) = text w

/-- A line with these words is one simple command, and none of them is expanded. -/
def isCommand (words : List (List Piece)) : Bool :=
  words.head?.any (fun w => !(isReserved w || isAssignment w)) && words.all (!expands ·)

/-- The words of a line that is one simple command. -/
def simpleCommand (line : List UInt8) : Option (List (List UInt8)) :=
  (read line).bind fun words => if isCommand words then some (words.map text) else none

/-! ## Texts that stand for themselves -/

/-- The text in double quotes stands for itself. -/
def verbatim : List UInt8 → Bool
  | [] => true
  | c :: s => c ≠ 34 && !isExpansion c && (c ≠ 92 || s.head?.any (!isEscapable ·)) && verbatim s

/-- The character is no quote, blank or operator and starts no expansion. -/
def isOrdinary (c : UInt8) : Bool := !(isBlank c || isOperator c || isExpansion c || isQuote c)

/-- The text, not quoted, is a word that stands for itself. -/
def bare (s : List UInt8) : Bool :=
  !s.isEmpty && s.all isOrdinary && s.head? ≠ some 35 && !expands (s.map (⟨·, false⟩))

end Shell
