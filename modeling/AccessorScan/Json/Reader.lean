import AccessorScan.Json.Basic

/-!
# `AccessorScan.Json.Reader` — reading JSON text

The readers work on the characters that are left and give the value with the rest, `none` where the
text is no JSON. Recursion is on fuel: every call that uses one unit has taken a character, so the
length of the text is enough.

## Contents
- `skipBlanks`, `number?`, `stringBody?`: the lexical forms.
- `value?`, `items?`, `entries?`: the nested forms.
- `Json.parse?`: a whole text.
-/

namespace AccessorScan
namespace Json
namespace Reader

def isBlank (c : Char) : Bool := c == ' ' || c == '\n' || c == '\r' || c == '\t'

def skipBlanks (cs : List Char) : List Char := cs.dropWhile isBlank

/-- The characters that can stand in a number. -/
def isNumberPart (c : Char) : Bool :=
  c.isDigit || c == '-' || c == '+' || c == '.' || c == 'e' || c == 'E'

/-- The value of a run of decimal digits. -/
def digitsValue (ds : List Char) : Nat :=
  ds.foldl (fun n c => 10 * n + (c.toNat - 48)) 0

/-- Digits without a needless leading zero. -/
def isInteger : List Char → Bool
  | [] => false
  | ['0'] => true
  | c :: rest => c != '0' && c.isDigit && rest.all Char.isDigit

/-- `e` or `E`, a sign if any, and digits; or nothing. -/
def isExponent : List Char → Bool
  | [] => true
  | e :: rest =>
      (e == 'e' || e == 'E') &&
        let digits := match rest with
          | '+' :: ds => ds
          | '-' :: ds => ds
          | ds => ds
        !digits.isEmpty && digits.all Char.isDigit

/-- A fraction if any, then an exponent if any. -/
def isTail : List Char → Bool
  | '.' :: rest =>
      !(rest.takeWhile Char.isDigit).isEmpty && isExponent (rest.dropWhile Char.isDigit)
  | cs => isExponent cs

/-- The number written by these characters. A negative zero counts as a decimal. -/
def number? (cs : List Char) : Option Json :=
  let negative := cs.head? == some '-'
  let body := if negative then cs.tail else cs
  let whole := body.takeWhile Char.isDigit
  let tail := body.dropWhile Char.isDigit
  if !isInteger whole then none
  else if tail.isEmpty then
    if !negative then some (.integer (digitsValue whole))
    else if digitsValue whole = 0 then some (.decimal (String.ofList cs))
    else some (.integer (-(digitsValue whole : Int)))
  else if isTail tail then some (.decimal (String.ofList cs))
  else none

def hexValue? (c : Char) : Option Nat :=
  if c.isDigit then some (c.toNat - 48)
  else if 'a' ≤ c ∧ c ≤ 'f' then some (c.toNat - 87)
  else if 'A' ≤ c ∧ c ≤ 'F' then some (c.toNat - 55)
  else none

/-- The code unit of four hexadecimal digits. -/
def unit? (a b c d : Char) : Option Nat := do
  return 4096 * (← hexValue? a) + 256 * (← hexValue? b) + 16 * (← hexValue? c) + (← hexValue? d)

/-- The character of a short escape. -/
def shortEscape? : Char → Option Char
  | '"' => some '"'
  | '\\' => some '\\'
  | '/' => some '/'
  | 'n' => some '\n'
  | 't' => some '\t'
  | 'r' => some '\r'
  | 'b' => some (Char.ofNat 8)
  | 'f' => some (Char.ofNat 12)
  | _ => none

/-- The code values of a string literal after its opening quote, and what follows the closing one.
A character outside the basic plane may be escaped as two values. -/
def stringUnits? : List Char → Option (List Nat × List Char)
  | [] => none
  | '"' :: rest => some ([], rest)
  | '\\' :: 'u' :: a :: b :: c :: d :: rest => do
      let unit ← unit? a b c d
      let (us, r) ← stringUnits? rest
      return (unit :: us, r)
  | '\\' :: c :: rest => do
      let e ← shortEscape? c
      let (us, r) ← stringUnits? rest
      return (e.toNat :: us, r)
  | c :: rest =>
      if c.toNat < 32 then none
      else do
        let (us, r) ← stringUnits? rest
        return (c.toNat :: us, r)

/-- The characters with these code values; two surrogates in the right order are one character, and
any other surrogate is refused. -/
def fromUnits? : List Nat → Option (List Char)
  | [] => some []
  | [u] => if 0xD800 ≤ u ∧ u < 0xE000 then none else some [Char.ofNat u]
  | u :: v :: rest =>
      if 0xD800 ≤ u ∧ u < 0xDC00 ∧ 0xDC00 ≤ v ∧ v < 0xE000 then
        (fromUnits? rest).map
          (Char.ofNat (0x10000 + 0x400 * (u - 0xD800) + (v - 0xDC00)) :: ·)
      else if 0xD800 ≤ u ∧ u < 0xE000 then none
      else (fromUnits? (v :: rest)).map (Char.ofNat u :: ·)

/-- The characters of a string literal after its opening quote, and what follows the closing one. -/
def stringBody? (cs : List Char) : Option (List Char × List Char) := do
  let (us, rest) ← stringUnits? cs
  return (← fromUnits? us, rest)

mutual

/-- One value, after any blanks. -/
def value? : Nat → List Char → Option (Json × List Char)
  | 0, _ => none
  | fuel + 1, cs =>
      match skipBlanks cs with
      | 'n' :: 'u' :: 'l' :: 'l' :: rest => some (.null, rest)
      | 't' :: 'r' :: 'u' :: 'e' :: rest => some (.bool true, rest)
      | 'f' :: 'a' :: 'l' :: 's' :: 'e' :: rest => some (.bool false, rest)
      | '"' :: rest => (stringBody? rest).map fun (s, r) => (.string (String.ofList s), r)
      | '[' :: rest =>
          match skipBlanks rest with
          | ']' :: r => some (.array [], r)
          | _ => (items? fuel rest).map fun (vs, r) => (.array vs, r)
      | '{' :: rest =>
          match skipBlanks rest with
          | '}' :: r => some (.object [], r)
          | _ => (entries? fuel rest).map fun (es, r) => (.object es, r)
      | cs =>
          (number? (cs.takeWhile isNumberPart)).map fun n => (n, cs.dropWhile isNumberPart)

/-- The items of a non-empty array up to its closing bracket. -/
def items? : Nat → List Char → Option (List Json × List Char)
  | 0, _ => none
  | fuel + 1, cs => do
      let (v, rest) ← value? fuel cs
      match skipBlanks rest with
      | ',' :: rest => do
          let (vs, r) ← items? fuel rest
          return (v :: vs, r)
      | ']' :: rest => return ([v], rest)
      | _ => none

/-- The entries of a non-empty object up to its closing brace. -/
def entries? : Nat → List Char → Option (List (String × Json) × List Char)
  | 0, _ => none
  | fuel + 1, cs =>
      match skipBlanks cs with
      | '"' :: rest => do
          let (k, rest) ← stringBody? rest
          match skipBlanks rest with
          | ':' :: rest => do
              let (v, rest) ← value? fuel rest
              match skipBlanks rest with
              | ',' :: rest => do
                  let (es, r) ← entries? fuel rest
                  return ((String.ofList k, v) :: es, r)
              | '}' :: rest => return ([(String.ofList k, v)], rest)
              | _ => none
          | _ => none
      | _ => none

end

end Reader

/-- The value written by a whole text, with blanks around it. -/
def parse? (text : String) : Option Json :=
  match Reader.value? (text.length + 1) text.toList with
  | some (v, rest) => if (Reader.skipBlanks rest).isEmpty then some v else none
  | none => none

end Json
end AccessorScan
