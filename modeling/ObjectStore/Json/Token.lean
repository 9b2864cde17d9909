/-
The tokens of a JSON document.

Only what settings are made of is kept of a token: a string's text, if the escapes in it make sense,
and the value of a number that is written as a plain natural number.  A string whose escapes name
half of a surrogate pair is a string all the same, but has no text.
-/
import ObjectStore.Text.Digits

namespace ObjectStore.Json

/-- A token. -/
inductive Token where
  | openBrace
  | closeBrace
  | openBracket
  | closeBracket
  | colon
  | comma
  | string (text : Option String)
  | number (natural : Option Nat)
  | literal
  deriving DecidableEq, Repr

/-! ### Numbers -/

/-- Splits leading decimal digits off. -/
def digits (cs : List Char) : List Char × List Char :=
  (cs.takeWhile Char.isDigit, cs.dropWhile Char.isDigit)

/-- Splits the digits off that must stand here. -/
def digits? (cs : List Char) : Option (List Char × List Char) :=
  match digits cs with
  | ([], _) => none
  | split => some split

/-- Reads past a fraction, if there is one; says whether there is. -/
def fraction? : List Char → Option (Bool × List Char)
  | '.' :: cs => (digits? cs).map fun (_, rest) => (true, rest)
  | cs => some (false, cs)

/-- Reads past an exponent, if there is one; says whether there is. -/
def exponent? : List Char → Option (Bool × List Char)
  | c :: cs =>
    if c = 'e' ∨ c = 'E' then
      let unsigned := match cs with
        | '+' :: rest => rest
        | '-' :: rest => rest
        | rest => rest
      (digits? unsigned).map fun (_, rest) => (true, rest)
    else some (false, c :: cs)
  | [] => some (false, [])

/-- Reads the part before the point: one zero, or digits that do not begin with zero. -/
def whole? : List Char → Option (Nat × List Char)
  | '0' :: cs => if (cs.head?.map Char.isDigit).getD false then none else some (0, cs)
  | cs => (digits? cs).map fun (ds, rest) => (Text.decimal ds, rest)

/-- Reads a number that follows its sign.  Only a plain natural number has a value. -/
def number? (negative : Bool) (cs : List Char) : Option (Token × List Char) := do
  let (n, cs) ← whole? cs
  let (hasFraction, cs) ← fraction? cs
  let (hasExponent, cs) ← exponent? cs
  let plain := !negative && !hasFraction && !hasExponent
  return (.number (if plain then some n else none), cs)

/-! ### Strings -/

/-- The value of four hexadecimal digits. -/
def hexQuad? (a b c d : Char) : Option Nat := do
  let a ← Text.hexDigit? a
  let b ← Text.hexDigit? b
  let c ← Text.hexDigit? c
  let d ← Text.hexDigit? d
  return ((a * 16 + b) * 16 + c) * 16 + d

/-- The character of an escape of one letter. -/
def shortEscape? : Char → Option Char
  | '"' => some '"'
  | '\\' => some '\\'
  | '/' => some '/'
  | 'b' => some '\x08'
  | 'f' => some '\x0c'
  | 'n' => some '\n'
  | 'r' => some '\r'
  | 't' => some '\t'
  | _ => none

/-- A piece of a string: a character, or a unit of an escape by number. -/
inductive Piece where
  | plain (c : Char)
  | unit (n : Nat)
  deriving DecidableEq, Repr

/-- Reads the pieces of a string up to its closing quote. -/
def pieces? : List Char → Option (List Piece × List Char)
  | [] => none
  | '"' :: rest => some ([], rest)
  | '\\' :: 'u' :: a :: b :: c :: d :: rest => do
    let n ← hexQuad? a b c d
    let (ps, rest) ← pieces? rest
    return (.unit n :: ps, rest)
  | '\\' :: e :: rest => do
    let c ← shortEscape? e
    let (ps, rest) ← pieces? rest
    return (.plain c :: ps, rest)
  | c :: rest =>
    if c.toNat < 0x20 ∨ c = '\\' then none
    else do
      let (ps, rest) ← pieces? rest
      return (.plain c :: ps, rest)

/-- Puts pieces together.  A high surrogate must be followed by a low one, and only there may a
low one stand. -/
def joined? : List Piece → Option (List Char)
  | [] => some []
  | .plain c :: rest => do return c :: (← joined? rest)
  | .unit hi :: .unit lo :: rest =>
    if 0xD800 ≤ hi ∧ hi ≤ 0xDBFF then
      if 0xDC00 ≤ lo ∧ lo ≤ 0xDFFF then do
        return Char.ofNat (0x10000 + (hi - 0xD800) * 0x400 + (lo - 0xDC00)) :: (← joined? rest)
      else none
    else if 0xDC00 ≤ hi ∧ hi ≤ 0xDFFF then none
    else do return Char.ofNat hi :: (← joined? (.unit lo :: rest))
  | .unit n :: rest =>
    if 0xD800 ≤ n ∧ n ≤ 0xDFFF then none
    else do return Char.ofNat n :: (← joined? rest)

/-- Reads a string that follows its opening quote. -/
def string? (cs : List Char) : Option (Token × List Char) := do
  let (ps, rest) ← pieces? cs
  return (.string ((joined? ps).map String.ofList), rest)

/-! ### Documents -/

/-- The characters between tokens. -/
def isSpace (c : Char) : Bool :=
  decide (c = ' ' ∨ c = '\t' ∨ c = '\n' ∨ c = '\r')

/-- Reads the token that begins with a character. -/
def token? : Char → List Char → Option (Token × List Char)
  | '\x7b', cs => some (.openBrace, cs)
  | '\x7d', cs => some (.closeBrace, cs)
  | '[', cs => some (.openBracket, cs)
  | ']', cs => some (.closeBracket, cs)
  | ':', cs => some (.colon, cs)
  | ',', cs => some (.comma, cs)
  | '"', cs => string? cs
  | 'n', 'u' :: 'l' :: 'l' :: cs => some (.literal, cs)
  | 't', 'r' :: 'u' :: 'e' :: cs => some (.literal, cs)
  | 'f', 'a' :: 'l' :: 's' :: 'e' :: cs => some (.literal, cs)
  | '-', cs => number? true cs
  | c, cs => if c.isDigit then number? false (c :: cs) else none

/-- Reads tokens, at most as many as there is fuel. -/
def tokensFrom? : Nat → List Char → Option (List Token)
  | _, [] => some []
  | 0, _ :: _ => none
  | fuel + 1, c :: cs =>
    if isSpace c then tokensFrom? fuel cs
    else do
      let (t, rest) ← token? c cs
      return t :: (← tokensFrom? fuel rest)

/-- The tokens of a document.  Every token takes at least one character. -/
def tokens? (s : String) : Option (List Token) :=
  let cs := s.toList
  tokensFrom? cs.length cs

/-! ### Values that do not matter -/

/-- What is open around a place in a document. -/
inductive Frame where
  | array
  | object
  deriving DecidableEq, Repr

/-- What may stand at a place in a document. -/
inductive Place where
  | value
  /-- A value, or the end of the array that has just begun. -/
  | valueOrEnd
  | key
  /-- A key, or the end of the object that has just begun. -/
  | keyOrEnd
  | colon
  /-- A comma, or the end of what is open. -/
  | commaOrEnd
  deriving DecidableEq, Repr

/-- Reads past one value, whatever it is, and gives what follows. -/
def skip? : List Frame → Place → List Token → Option (List Token)
  | _, _, [] => none
  | frames, place, t :: rest =>
    let close := fun (outer : List Frame) =>
      match outer with
      | [] => some rest
      | frames => skip? frames .commaOrEnd rest
    match place, t, frames with
    | .value, .openBracket, frames | .valueOrEnd, .openBracket, frames =>
      skip? (.array :: frames) .valueOrEnd rest
    | .value, .openBrace, frames | .valueOrEnd, .openBrace, frames =>
      skip? (.object :: frames) .keyOrEnd rest
    | .value, .string _, frames | .valueOrEnd, .string _, frames => close frames
    | .value, .number _, frames | .valueOrEnd, .number _, frames => close frames
    | .value, .literal, frames | .valueOrEnd, .literal, frames => close frames
    | .valueOrEnd, .closeBracket, .array :: outer => close outer
    | .key, .string _, frames | .keyOrEnd, .string _, frames => skip? frames .colon rest
    | .keyOrEnd, .closeBrace, .object :: outer => close outer
    | .colon, .colon, frames => skip? frames .value rest
    | .commaOrEnd, .comma, .array :: outer => skip? (.array :: outer) .value rest
    | .commaOrEnd, .comma, .object :: outer => skip? (.object :: outer) .key rest
    | .commaOrEnd, .closeBracket, .array :: outer => close outer
    | .commaOrEnd, .closeBrace, .object :: outer => close outer
    | _, _, _ => none

/-- Reads past one value. -/
def skipValue? (ts : List Token) : Option (List Token) := skip? [] .value ts

end ObjectStore.Json
