/-!
# `AccessorScan.Text.Style` — colours on a terminal

## Contents
- `Style`: the parameters of one control sequence.
- `Style.paint`: a text between its opening sequence and the reset sequence, or the bare text where
  colour is off.
-/

namespace AccessorScan

/-- The parameters of a control sequence that changes how text looks. -/
structure Style where
  codes : List String

namespace Style

/-- The characters of the sequence that switches a style on. -/
def opening (s : Style) : List Char :=
  Char.ofNat 27 :: '[' :: ((String.intercalate ";" s.codes).toList ++ ['m'])

/-- The characters of the sequence that switches every style off. -/
def reset : List Char := [Char.ofNat 27, '[', '0', 'm']

/-- The text with `again` after each reset sequence inside it. -/
def reopen (again : List Char) : List Char → List Char
  | c :: '[' :: '0' :: 'm' :: rest =>
      if c = Char.ofNat 27 then reset ++ again ++ reopen again rest
      else c :: '[' :: '0' :: 'm' :: reopen again rest
  | c :: rest => c :: reopen again rest
  | [] => []

/-- The text in this style. A reset sequence inside the text does not end the style. -/
def paint (s : Style) (color : Bool) (text : String) : String :=
  if color then String.ofList (s.opening ++ reopen s.opening text.toList ++ reset) else text

end Style

end AccessorScan
