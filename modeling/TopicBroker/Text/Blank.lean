/-!
# Blank characters

The characters with the Unicode property `White_Space`, and the texts they pad. Timestamps are
read with blanks around and between their parts dropped, and a line of blanks is no frame.
-/

namespace TopicBroker.Text

/-- The Unicode property `White_Space`. -/
def isBlank (c : Char) : Bool :=
  let n := c.toNat
  (9 ≤ n && n ≤ 13) || n == 0x20 || n == 0x85 || n == 0xA0 || n == 0x1680 ||
    (0x2000 ≤ n && n ≤ 0x200A) || n == 0x2028 || n == 0x2029 || n == 0x202F || n == 0x205F ||
    n == 0x3000

def trimStart (cs : List Char) : List Char :=
  cs.dropWhile isBlank

def trimEnd (cs : List Char) : List Char :=
  (cs.reverse.dropWhile isBlank).reverse

def trim (cs : List Char) : List Char :=
  trimEnd (trimStart cs)

/-- A text of blanks alone, the empty text included. -/
def isAllBlank (text : String) : Bool :=
  text.toList.all isBlank

end TopicBroker.Text
