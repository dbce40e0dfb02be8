import StyleBuild.Digest.Hex

/-!
# JSON strings

`quote` writes a text between double quotes. The quote, the backslash and the
control characters below U+0020 are escaped, by a letter where JSON has one;
everything else is written as it is.
-/

namespace StyleBuild.Json

def quoteChar (c : Char) : List Char :=
  if c = '"' then ['\\', '"']
  else if c = '\\' then ['\\', '\\']
  else if c = '\x08' then ['\\', 'b']
  else if c = '\t' then ['\\', 't']
  else if c = '\n' then ['\\', 'n']
  else if c = '\x0c' then ['\\', 'f']
  else if c = '\r' then ['\\', 'r']
  else if c.toNat < 0x20 then '\\' :: 'u' :: '0' :: '0' :: Digest.hexByte c.toNat.toUInt8
  else [c]

def quote (s : List Char) : List Char := '"' :: (s.flatMap quoteChar ++ ['"'])

end StyleBuild.Json
