import MapperSchema.Text.Printable

/-! Quoted text: single quotes, or double quotes where that saves an escape. What cannot be
printed is written by its code point. -/
namespace MapperSchema.Text

def hexDigit (n : Nat) : Char := Nat.digitChar (n % 16)

/-- The last `width` hexadecimal digits, in lower case. -/
def hex : Nat → Nat → List Char
  | 0, _ => []
  | width+1, n => hex width (n / 16) ++ [hexDigit n]

def singleQuote : Char := '\x27'
def doubleQuote : Char := '\x22'
def backslash : Char := '\x5c'

/-- Single quotes, unless the text holds one and holds no double quote. -/
def quoteFor (text : List Char) : Char :=
  if text.contains singleQuote && !text.contains doubleQuote then doubleQuote else singleQuote

def escapeByCode (n : Nat) : List Char :=
  if n < 0x100 then backslash :: 'x' :: hex 2 n
  else if n < 0x10000 then backslash :: 'u' :: hex 4 n
  else backslash :: 'U' :: hex 8 n

def escapeChar (quote c : Char) : List Char :=
  if c = quote || c = backslash then [backslash, c]
  else if c = '\n' then [backslash, 'n']
  else if c = '\t' then [backslash, 't']
  else if c = '\r' then [backslash, 'r']
  else if isPrintable c then [c]
  else escapeByCode c.toNat

def quoted (text : String) : String :=
  let quote := quoteFor text.toList
  String.ofList (quote :: text.toList.flatMap (escapeChar quote) ++ [quote])

/-- A byte is written as the character of its code where that is printable ASCII. -/
def escapeByte (quote : Char) (b : UInt8) : List Char :=
  if b < 0x80 then escapeChar quote (Char.ofNat b.toNat) else escapeByCode b.toNat

def quotedBytes (data : List UInt8) : String :=
  let quote := quoteFor (data.map fun b => Char.ofNat b.toNat)
  String.ofList ('b' :: quote :: data.flatMap (escapeByte quote) ++ [quote])

example : quoted "it" = "'it'" := by decide
example : quoted "it's" = "\"it's\"" := by decide
example : quoted "'\"\n" = "'\\'\"\\n'" := by decide
example : quotedBytes [0x61, 0xff, 0x0a] = "b'a\\xff\\n'" := by decide

end MapperSchema.Text
