import Mathlib.Data.List.Basic

/-!
# JSON String Literals

The string literals the serializer writes. A character is written as itself
unless JSON requires an escape: the quotation mark, the backslash and the
control characters. Everything else that produces or reads JSON in this
development works on these literals.

## Main definitions

* `hexDigit`: The lower-case digit of a nibble.
* `escapeChar`: A character as it stands inside a literal.
* `quote`: A string as a literal, quotation marks included.
* `canonicalTupleKey`: A tuple of strings as one JSON array.
* `compoundTupleKey`: A labelled tuple.
-/

namespace GraphRefly.Json

/-- The lower-case hexadecimal digit of a nibble. -/
def hexDigit (n : Nat) : Char :=
  if n < 10 then Char.ofNat (48 + n) else Char.ofNat (87 + n)

/-- A character as the serializer writes it inside a string literal. -/
def escapeChar (c : Char) : List Char :=
  if c = '\"' then ['\\', '\"']
  else if c = '\\' then ['\\', '\\']
  else if c.toNat = 8 then ['\\', 'b']
  else if c.toNat = 9 then ['\\', 't']
  else if c.toNat = 10 then ['\\', 'n']
  else if c.toNat = 12 then ['\\', 'f']
  else if c.toNat = 13 then ['\\', 'r']
  else if c.toNat < 32 then ['\\', 'u', '0', '0', hexDigit (c.toNat / 16), hexDigit (c.toNat % 16)]
  else [c]

/-- A string as a literal, quotation marks included. -/
def quote (s : String) : List Char :=
  '\"' :: (s.toList.flatMap escapeChar ++ ['\"'])

/-- A tuple of strings as one compact JSON array, the spelling of generated
    compound keys. -/
def canonicalTupleKey (parts : List String) : String :=
  String.ofList ('[' :: ([','].intercalate (parts.map quote) ++ [']']))

/-- A generated compound key: what it is for, and the tuple. -/
def compoundTupleKey (label : String) (parts : List String) : String :=
  label ++ ":" ++ canonicalTupleKey parts

end GraphRefly.Json
