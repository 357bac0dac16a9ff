import Stylebook.Value

namespace Stylebook.Value.Reader

def skipBlanks (cs : List Char) : List Char :=
  cs.dropWhile fun c => c = ' ' || c = '\t' || c = '\n' || c = '\r'

def literal (word : String) (value : Value) (cs : List Char) : Option (Value × List Char) :=
  if word.toList.isPrefixOf cs then some (value, cs.drop word.length) else none

def hexDigit? (c : Char) : Option Nat :=
  if '0' ≤ c ∧ c ≤ '9' then some (c.toNat - '0'.toNat)
  else if 'a' ≤ c ∧ c ≤ 'f' then some (c.toNat - 'a'.toNat + 10)
  else if 'A' ≤ c ∧ c ≤ 'F' then some (c.toNat - 'A'.toNat + 10)
  else none

/-- The four hexadecimal digits of an escaped code unit. -/
def codeUnit : List Char → Option (Nat × List Char)
  | a :: b :: c :: d :: rest => do
    let a ← hexDigit? a
    let b ← hexDigit? b
    let c ← hexDigit? c
    let d ← hexDigit? d
    return (((a * 16 + b) * 16 + c) * 16 + d, rest)
  | _ => none

/-- The character of an escape after its `u`: a code unit, or a surrogate pair of two escapes. -/
def escapedUnit (cs : List Char) : Option (Char × List Char) := do
  let (high, rest) ← codeUnit cs
  if high < 0xD800 ∨ 0xDFFF < high then return (Char.ofNat high, rest)
  if 0xDBFF < high then none
  match rest with
  | '\\' :: 'u' :: more =>
    let (low, rest) ← codeUnit more
    if low < 0xDC00 ∨ 0xDFFF < low then none
    return (Char.ofNat (0x10000 + (high - 0xD800) * 0x400 + (low - 0xDC00)), rest)
  | _ => none

def escaped : List Char → Option (Char × List Char)
  | '"' :: rest => some ('"', rest)
  | '\\' :: rest => some ('\\', rest)
  | '/' :: rest => some ('/', rest)
  | 'b' :: rest => some ('\x08', rest)
  | 'f' :: rest => some ('\x0c', rest)
  | 'n' :: rest => some ('\n', rest)
  | 'r' :: rest => some ('\r', rest)
  | 't' :: rest => some ('\t', rest)
  | 'u' :: rest => escapedUnit rest
  | _ => none

/-- The characters up to the closing quote; `done` holds those already read, the last first. -/
def quotedText : Nat → List Char → List Char → Option (String × List Char)
  | 0, _, _ => none
  | _ + 1, _, [] => none
  | fuel + 1, done, c :: rest =>
    if c = '"' then some (String.ofList done.reverse, rest)
    else if c = '\\' then do
      let (c, rest) ← escaped rest
      quotedText fuel (c :: done) rest
    else if c.toNat < 0x20 then none
    else quotedText fuel (c :: done) rest

def ofDigits (digits : List Char) : Nat :=
  digits.foldl (fun n c => n * 10 + (c.toNat - '0'.toNat)) 0

def fraction (cs : List Char) : Option ((List Char) × List Char) :=
  let digits := cs.takeWhile Char.isDigit
  if digits.isEmpty then none else some (digits, cs.dropWhile Char.isDigit)

def exponent (cs : List Char) : Option (Int × List Char) := do
  match cs with
  | '-' :: cs => let (digits, rest) ← fraction cs; return (-(ofDigits digits : Int), rest)
  | '+' :: cs => let (digits, rest) ← fraction cs; return (ofDigits digits, rest)
  | cs => let (digits, rest) ← fraction cs; return (ofDigits digits, rest)

def unsignedNumber (negative : Bool) (cs : List Char) : Option (Number × List Char) := do
  let whole := cs.takeWhile Char.isDigit
  let rest := cs.dropWhile Char.isDigit
  if whole.isEmpty then none
  if 1 < whole.length ∧ whole.head? = some '0' then none
  let (places, rest, pointed) ← match rest with
    | '.' :: rest => do let (places, rest) ← fraction rest; pure (places, rest, true)
    | rest => pure ([], rest, false)
  let (power, rest, raised) ← match rest with
    | 'e' :: rest => do let (power, rest) ← exponent rest; pure (power, rest, true)
    | 'E' :: rest => do let (power, rest) ← exponent rest; pure (power, rest, true)
    | rest => pure (0, rest, false)
  if pointed || raised then
    let digits := ofDigits (whole ++ places)
    return (.decimal (Decimal.trimmed ⟨negative, digits, power - places.length⟩), rest)
  return (Number.ofWhole negative (ofDigits whole), rest)

def number : List Char → Option (Number × List Char)
  | '-' :: rest => unsignedNumber true rest
  | cs => unsignedNumber false cs

mutual

def value : Nat → List Char → Option (Value × List Char)
  | 0, _ => none
  | fuel + 1, cs =>
    match skipBlanks cs with
    | 'n' :: rest => literal "null" .null ('n' :: rest)
    | 't' :: rest => literal "true" (.bool true) ('t' :: rest)
    | 'f' :: rest => literal "false" (.bool false) ('f' :: rest)
    | '"' :: rest => do
      let (text, rest) ← quotedText (fuel + 1) [] rest
      return (.string text, rest)
    | '[' :: rest =>
      match skipBlanks rest with
      | ']' :: rest => some (.array [], rest)
      | rest => do
        let (items, rest) ← items fuel rest
        return (.array items, rest)
    | '{' :: rest =>
      match skipBlanks rest with
      | '}' :: rest => some (.object [], rest)
      | rest => do
        let (fields, rest) ← fields fuel rest
        return (.object (Dict.ofList fields).entries, rest)
    | rest => do
      let (n, rest) ← number rest
      return (.number n, rest)

/-- One or more values up to the closing bracket. -/
def items : Nat → List Char → Option ((List Value) × List Char)
  | 0, _ => none
  | fuel + 1, cs => do
    let (item, rest) ← value fuel cs
    match skipBlanks rest with
    | ',' :: rest => let (more, rest) ← items fuel rest; return (item :: more, rest)
    | ']' :: rest => return ([item], rest)
    | _ => none

/-- One or more fields up to the closing brace. -/
def fields : Nat → List Char → Option ((List (String × Value)) × List Char)
  | 0, _ => none
  | fuel + 1, cs =>
    match skipBlanks cs with
    | '"' :: rest => do
      let (name, rest) ← quotedText (fuel + 1) [] rest
      match skipBlanks rest with
      | ':' :: rest =>
        let (field, rest) ← value fuel rest
        match skipBlanks rest with
        | ',' :: rest => let (more, rest) ← fields fuel rest; return ((name, field) :: more, rest)
        | '}' :: rest => return ([(name, field)], rest)
        | _ => none
      | _ => none
    | _ => none

end

end Reader

/-- The value that a whole JSON text stands for. Of several fields with one name the last stays. -/
def read? (text : String) : Option Value := do
  let cs := text.toList
  let (value, rest) ← Reader.value (2 * cs.length + 2) cs
  if (Reader.skipBlanks rest).isEmpty then some value else none

end Stylebook.Value
