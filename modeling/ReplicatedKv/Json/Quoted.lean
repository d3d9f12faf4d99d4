/-! # Writing strings

The written form of a string in a document: between quotes, with an escape for the quote, the
backslash and control characters, and every other character as itself.
-/

namespace ReplicatedKv.Json

def controlEscape (c : Char) : List Char :=
  ['\\', 'u', '0', '0', Nat.digitChar (c.toNat / 16), Nat.digitChar (c.toNat % 16)]

def escapeChar (c : Char) : List Char :=
  if c = '\"' then ['\\', '\"']
  else if c = '\\' then ['\\', '\\']
  else if c = '\x08' then ['\\', 'b']
  else if c = '\x0c' then ['\\', 'f']
  else if c = '\n' then ['\\', 'n']
  else if c = '\r' then ['\\', 'r']
  else if c = '\t' then ['\\', 't']
  else if c.toNat < 0x20 then controlEscape c
  else [c]

def quoted (s : String) : String := String.ofList ('\"' :: s.toList.flatMap escapeChar ++ ['\"'])

end ReplicatedKv.Json
