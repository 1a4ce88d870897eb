import AccessorScan.Toml.Value

/-!
# `AccessorScan.Toml.Scalar` — the lexical forms of TOML

Blanks and comments, the four kinds of string, numbers, dates and times.

## Contents
- `skipBlanks`, `skipSpace?`, `skipComment?`: what stands between tokens.
- `basicString?`, `longBasicString?`, `literalString?`, `longLiteralString?`: strings after their
  opening quotes, with the rest of the text.
- `integer?`, `float?`, `isMoment`, `scalar?`: values without quotes.
-/

namespace AccessorScan.Toml

def isBlank (c : Char) : Bool := c == ' ' || c == '\t'

def skipBlanks (cs : List Char) : List Char := cs.dropWhile isBlank

/-- A character that may stand in a comment or in a string without being escaped. -/
def isPlain (c : Char) : Bool := c == '\t' || (32 ≤ c.toNat && c.toNat != 127)

/-- What follows a line end. -/
def afterLineEnd? : List Char → Option (List Char)
  | '\n' :: rest => some rest
  | '\r' :: '\n' :: rest => some rest
  | _ => none

/-- Skips a comment if one starts here, up to the line end. -/
def skipComment? (cs : List Char) : Option (List Char) :=
  match cs with
  | '#' :: rest =>
      let after := rest.dropWhile isPlain
      if after.isEmpty || (afterLineEnd? after).isSome then some after else none
  | _ => some cs

/-- Skips blanks, line ends and comments; `comment` tells whether one has been started. -/
def skipSpace? (comment : Bool) : List Char → Option (List Char)
  | [] => some []
  | '\n' :: rest => skipSpace? false rest
  | '\r' :: '\n' :: rest => skipSpace? false rest
  | c :: rest =>
      if comment then (if isPlain c then skipSpace? true rest else none)
      else if isBlank c then skipSpace? false rest
      else if c = '#' then skipSpace? true rest
      else some (c :: rest)

/-! ## Strings -/

def hexValue? (c : Char) : Option Nat :=
  if c.isDigit then some (c.toNat - 48)
  else if 'a' ≤ c ∧ c ≤ 'f' then some (c.toNat - 87)
  else if 'A' ≤ c ∧ c ≤ 'F' then some (c.toNat - 55)
  else none

/-- The character whose number these hexadecimal digits write. -/
def charOfHex? (digits : List Char) : Option Char := do
  let n ← digits.foldlM (fun n d => (hexValue? d).map (16 * n + ·)) 0
  if n < 0xD800 ∨ (0xDFFF < n ∧ n < 0x110000) then some (Char.ofNat n) else none

def shortEscape? : Char → Option Char
  | 'b' => some (Char.ofNat 8)
  | 't' => some '\t'
  | 'n' => some '\n'
  | 'f' => some (Char.ofNat 12)
  | 'r' => some '\r'
  | 'e' => some (Char.ofNat 27)
  | '"' => some '"'
  | '\\' => some '\\'
  | _ => none

/-- A character put before what a reader of strings gives. -/
def before (c : Char) (r : Option (List Char × List Char)) : Option (List Char × List Char) :=
  r.map fun (s, rest) => (c :: s, rest)

/-- A string with escapes up to its closing quote. -/
def basicString? : List Char → Option (List Char × List Char)
  | [] => none
  | '"' :: rest => some ([], rest)
  | '\\' :: 'x' :: a :: b :: rest => do before (← charOfHex? [a, b]) (basicString? rest)
  | '\\' :: 'u' :: a :: b :: c :: d :: rest => do
      before (← charOfHex? [a, b, c, d]) (basicString? rest)
  | '\\' :: 'U' :: a :: b :: c :: d :: e :: f :: g :: h :: rest => do
      before (← charOfHex? [a, b, c, d, e, f, g, h]) (basicString? rest)
  | '\\' :: c :: rest => do before (← shortEscape? c) (basicString? rest)
  | c :: rest => if isPlain c then before c (basicString? rest) else none

/-- Only blanks stand before the end of the line. -/
def endsLine (cs : List Char) : Bool := (afterLineEnd? (skipBlanks cs)).isSome

/-- A string with escapes up to three closing quotes; two more may stand before them. After a
backslash at the end of a line all blanks and line ends are skipped: `skipping` tells that this is
going on. -/
def longBasicString? (skipping : Bool) : List Char → Option (List Char × List Char)
  | [] => none
  | '\n' :: rest =>
      if skipping then longBasicString? true rest else before '\n' (longBasicString? false rest)
  | '\r' :: '\n' :: rest =>
      if skipping then longBasicString? true rest
      else before '\r' (before '\n' (longBasicString? false rest))
  | '"' :: '"' :: '"' :: '"' :: '"' :: rest => some (['"', '"'], rest)
  | '"' :: '"' :: '"' :: '"' :: rest => some (['"'], rest)
  | '"' :: '"' :: '"' :: rest => some ([], rest)
  | '\\' :: 'x' :: a :: b :: rest => do before (← charOfHex? [a, b]) (longBasicString? false rest)
  | '\\' :: 'u' :: a :: b :: c :: d :: rest => do
      before (← charOfHex? [a, b, c, d]) (longBasicString? false rest)
  | '\\' :: 'U' :: a :: b :: c :: d :: e :: f :: g :: h :: rest => do
      before (← charOfHex? [a, b, c, d, e, f, g, h]) (longBasicString? false rest)
  | '\\' :: c :: rest =>
      if endsLine (c :: rest) then longBasicString? true (c :: rest)
      else do before (← shortEscape? c) (longBasicString? false rest)
  | c :: rest =>
      if skipping && isBlank c then longBasicString? true rest
      else if isPlain c then before c (longBasicString? false rest)
      else none

/-- A string without escapes up to its closing quote. -/
def literalString? : List Char → Option (List Char × List Char)
  | [] => none
  | '\'' :: rest => some ([], rest)
  | c :: rest => if isPlain c then before c (literalString? rest) else none

/-- A string without escapes up to three closing quotes; two more may stand before them. -/
def longLiteralString? : List Char → Option (List Char × List Char)
  | [] => none
  | '\n' :: rest => before '\n' (longLiteralString? rest)
  | '\r' :: '\n' :: rest => before '\r' (before '\n' (longLiteralString? rest))
  | '\'' :: '\'' :: '\'' :: '\'' :: '\'' :: rest => some (['\'', '\''], rest)
  | '\'' :: '\'' :: '\'' :: '\'' :: rest => some (['\''], rest)
  | '\'' :: '\'' :: '\'' :: rest => some ([], rest)
  | c :: rest => if isPlain c then before c (longLiteralString? rest) else none

/-- A line end right after the opening quotes of a long string does not count. -/
def skipFirstLineEnd (cs : List Char) : List Char := (afterLineEnd? cs).getD cs

/-- A string of any kind at the front of the text. -/
def string? : List Char → Option (String × List Char)
  | '"' :: '"' :: '"' :: rest => finish (longBasicString? false (skipFirstLineEnd rest))
  | '"' :: rest => finish (basicString? rest)
  | '\'' :: '\'' :: '\'' :: rest => finish (longLiteralString? (skipFirstLineEnd rest))
  | '\'' :: rest => finish (literalString? rest)
  | _ => none
where
  finish (r : Option (List Char × List Char)) : Option (String × List Char) :=
    r.map fun (s, rest) => (String.ofList s, rest)

/-! ## Numbers -/

/-- Digits with single underscores between them, without the underscores. -/
def digits? (isDigit : Char → Bool) : List Char → Option (List Char)
  | [] => none
  | [c] => if isDigit c then some [c] else none
  | c :: '_' :: d :: rest =>
      if isDigit c then (digits? isDigit (d :: rest)).map (c :: ·) else none
  | c :: rest => if isDigit c then (digits? isDigit rest).map (c :: ·) else none

/-- The number that digits write to a base. -/
def numberOf (base : Nat) (digits : List Char) : Nat :=
  digits.foldl (fun n d => base * n + (hexValue? d).getD 0) 0

/-- A sign, if any, and what follows it. -/
def splitSign : List Char → Option Bool × List Char
  | '+' :: rest => (some false, rest)
  | '-' :: rest => (some true, rest)
  | cs => (none, cs)

/-- Digits without a needless zero in front. -/
def wholeDigits? (cs : List Char) : Option (List Char) := do
  let ds ← digits? Char.isDigit cs
  if ds.head? = some '0' ∧ ds.length > 1 then none else some ds

def based? (base : Nat) (isDigit : Char → Bool) (cs : List Char) : Option Int :=
  (digits? isDigit cs).map fun ds => (numberOf base ds : Int)

def integer? (cs : List Char) : Option Int :=
  match cs with
  | '0' :: 'x' :: rest => based? 16 (fun c => (hexValue? c).isSome) rest
  | '0' :: 'o' :: rest => based? 8 (fun c => '0' ≤ c && c ≤ '7') rest
  | '0' :: 'b' :: rest => based? 2 (fun c => c == '0' || c == '1') rest
  | _ =>
      let (negative, body) := splitSign cs
      (wholeDigits? body).map fun ds =>
        let n : Int := numberOf 10 ds
        if negative = some true then -n else n

/-- The smallest number that is rounded to no finite binary64 number. -/
def floatBound : Nat := (Nat.pow 2 54 - 1) * Nat.pow 2 970

/-- Digits with a power of ten stand for a number that can be represented. -/
def isFiniteDecimal (digits : List Char) (exponent : Int) : Bool :=
  let n := numberOf 10 digits
  if n = 0 then true
  else if exponent + digits.length < 300 then true
  else if exponent > 400 then false
  else if exponent ≥ 0 then n * Nat.pow 10 exponent.toNat < floatBound
  else n < floatBound * Nat.pow 10 (-exponent).toNat

/-- An exponent after its letter; needless zeros may stand in front. -/
def exponent? (cs : List Char) : Option Int := do
  let (negative, body) := splitSign cs
  let n : Int := numberOf 10 (← digits? Char.isDigit body)
  return if negative = some true then -n else n

def isExponentLetter (c : Char) : Bool := c == 'e' || c == 'E'

/-- A number with a fraction or an exponent: whether it can be represented. -/
def float? (cs : List Char) : Option Bool := do
  let (_, body) := splitSign cs
  if body = ['i', 'n', 'f'] ∨ body = ['n', 'a', 'n'] then return true
  let mantissa := body.takeWhile fun c => !isExponentLetter c
  let power := body.dropWhile fun c => !isExponentLetter c
  let whole := mantissa.takeWhile (· != '.')
  let fraction := mantissa.dropWhile (· != '.')
  let exponent ← if power.isEmpty then some 0 else exponent? (power.drop 1)
  if power.isEmpty && fraction.isEmpty then none
  let ws ← wholeDigits? whole
  let fs ← if fraction.isEmpty then some [] else digits? Char.isDigit (fraction.drop 1)
  return isFiniteDecimal (ws ++ fs) (exponent - fs.length)

/-! ## Dates and times -/

/-- The number written by exactly `n` digits at the front, and the rest. -/
def fixedDigits? (n : Nat) (cs : List Char) : Option (Nat × List Char) :=
  let ds := cs.take n
  if ds.length = n ∧ ds.all Char.isDigit then some (numberOf 10 ds, cs.drop n) else none

def skipChar? (c : Char) : List Char → Option (List Char)
  | d :: rest => if c = d then some rest else none
  | [] => none

def isLeapYear (year : Nat) : Bool := year % 4 == 0 && (year % 100 != 0 || year % 400 == 0)

def daysInMonth (year month : Nat) : Nat :=
  if month = 2 then (if isLeapYear year then 29 else 28)
  else if [4, 6, 9, 11].contains month then 30
  else 31

/-- What follows a date. -/
def date? (cs : List Char) : Option (List Char) := do
  let (year, rest) ← fixedDigits? 4 cs
  let (month, rest) ← fixedDigits? 2 (← skipChar? '-' rest)
  let (day, rest) ← fixedDigits? 2 (← skipChar? '-' rest)
  if 1 ≤ month ∧ month ≤ 12 ∧ 1 ≤ day ∧ day ≤ daysInMonth year month then some rest else none

/-- What follows a fraction of a second, if there is one. -/
def fraction? (cs : List Char) : Option (List Char) :=
  match cs with
  | '.' :: rest =>
      let after := rest.dropWhile Char.isDigit
      if after.length < rest.length then some after else none
  | _ => some cs

/-- What follows a time. Seconds may be left out. -/
def time? (cs : List Char) : Option (List Char) := do
  let (hour, rest) ← fixedDigits? 2 cs
  let (minute, rest) ← fixedDigits? 2 (← skipChar? ':' rest)
  if hour > 23 ∨ minute > 59 then none
  match rest with
  | ':' :: rest => do
      let (second, rest) ← fixedDigits? 2 rest
      if second > 60 then none else fraction? rest
  | _ => some rest

/-- A distance from universal time. -/
def isOffset (cs : List Char) : Bool :=
  match cs with
  | ['Z'] | ['z'] => true
  | c :: rest =>
      (c == '+' || c == '-') &&
        match (do
          let (hours, rest) ← fixedDigits? 2 rest
          let (minutes, rest) ← fixedDigits? 2 (← skipChar? ':' rest)
          return hours ≤ 23 && minutes ≤ 59 && rest.isEmpty) with
        | some b => b
        | none => false
  | [] => false

/-- A date, a time, or both with or without a distance from universal time. -/
def isMoment (cs : List Char) : Bool :=
  match date? cs with
  | some [] => true
  | some (separator :: rest) =>
      (separator == 'T' || separator == 't' || separator == ' ') &&
        (time? rest).any fun after => after.isEmpty || isOffset after
  | none => (time? cs).any List.isEmpty

/-- The value of a token without quotes. -/
def scalar? (cs : List Char) : Option Toml :=
  if cs = ['t', 'r', 'u', 'e'] then some (.boolean true)
  else if cs = ['f', 'a', 'l', 's', 'e'] then some (.boolean false)
  else
    match integer? cs with
    | some n => some (.integer n)
    | none =>
        match float? cs with
        | some isFinite => some (.float isFinite)
        | none => if isMoment cs then some .moment else none

end AccessorScan.Toml
