/-!
# Blank characters

`isBlank` is the wide set of white space: the space separators, the line and paragraph separators, the
ASCII controls from tab to carriage return, the four information separators and the next-line control.
`isSpacing` is the narrower set without the information separators.
-/
set_option autoImplicit false

namespace TableSteward.Text

def isSpacing (c : Char) : Bool :=
  let n := c.toNat
  (0x09 ≤ n && n ≤ 0x0D) || n == 0x20 || n == 0x85 || n == 0xA0 || n == 0x1680 ||
  (0x2000 ≤ n && n ≤ 0x200A) || n == 0x2028 || n == 0x2029 || n == 0x202F || n == 0x205F || n == 0x3000

def isBlank (c : Char) : Bool := isSpacing c || (0x1C ≤ c.toNat && c.toNat ≤ 0x1F)

def strip (p : Char → Bool) (cs : List Char) : List Char :=
  ((cs.dropWhile p).reverse.dropWhile p).reverse

def trim (s : String) : String := String.ofList (strip isBlank s.toList)

def wordsOf (p : Char → Bool) : List Char → List Char → List (List Char)
  | [], word => if word.isEmpty then [] else [word.reverse]
  | c :: rest, word =>
      if p c then (if word.isEmpty then [] else [word.reverse]) ++ wordsOf p rest []
      else wordsOf p rest (c :: word)

def oneLine (s : String) : String :=
  " ".intercalate ((wordsOf isBlank s.toList []).map String.ofList)

/-- The pieces between the occurrences of a separating character; one more than there are separators. -/
def splitOn (sep : Char) : List Char → List (List Char)
  | [] => [[]]
  | c :: rest =>
      if c == sep then [] :: splitOn sep rest
      else match splitOn sep rest with
        | [] => [[c]]
        | piece :: pieces => (c :: piece) :: pieces

def occurs (pattern : List Char) : List Char → Bool
  | [] => pattern.isEmpty
  | c :: rest => pattern.isPrefixOf (c :: rest) || occurs pattern rest

def containsText (text fragment : String) : Bool := occurs fragment.toList text.toList

end TableSteward.Text
