import HiddenClass.Text.Ranges

/-!
White space in the sense of the Unicode property White_Space, and the cutting of text along it.
-/

namespace HiddenClass.Text

def blankBounds : List Nat :=
  [0x9, 0xe, 0x20, 0x21, 0x85, 0x86, 0xa0, 0xa1, 0x1680, 0x1681, 0x2000, 0x200b, 0x2028, 0x202a,
   0x202f, 0x2030, 0x205f, 0x2060, 0x3000, 0x3001]

def isBlank (c : Char) : Bool := inside blankBounds c.toNat

def trimEnd (text : List Char) : List Char := (text.reverse.dropWhile isBlank).reverse

def trim (text : List Char) : List Char := trimEnd (text.dropWhile isBlank)

/-- Cuts at every separating character; `n` separators leave `n + 1` pieces. -/
def pieces (separates : Char → Bool) : List Char → List (List Char)
  | [] => [[]]
  | c :: rest =>
    match pieces separates rest with
    | [] => [[]]
    | piece :: others => if separates c then [] :: piece :: others else (c :: piece) :: others

/-- The maximal runs without white space. -/
def words (text : List Char) : List (List Char) :=
  (pieces isBlank text).filter fun word => !word.isEmpty

end HiddenClass.Text
