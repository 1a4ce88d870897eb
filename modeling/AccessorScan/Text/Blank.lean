/-!
# `AccessorScan.Text.Blank` — white space

## Contents
- `isWhiteSpace`: the Unicode property White_Space.
- `trimStart`, `trimEnd`, `trim` on lists of characters.
-/

namespace AccessorScan

/-- The Unicode property White_Space. -/
def isWhiteSpace (c : Char) : Bool :=
  let n := c.toNat
  (9 ≤ n && n ≤ 13) || n == 0x20 || n == 0x85 || n == 0xA0 || n == 0x1680 ||
    (0x2000 ≤ n && n ≤ 0x200A) || n == 0x2028 || n == 0x2029 || n == 0x202F || n == 0x205F ||
    n == 0x3000

def trimStart (cs : List Char) : List Char := cs.dropWhile isWhiteSpace

def trimEnd (cs : List Char) : List Char := (cs.reverse.dropWhile isWhiteSpace).reverse

/-- The characters without white space at either end. -/
def trim (cs : List Char) : List Char := trimEnd (trimStart cs)

end AccessorScan
