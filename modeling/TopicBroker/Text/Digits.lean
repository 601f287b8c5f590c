/-!
# Decimal digits

Numbers as decimal digits, with zeros in front up to a given width. `value` reads what `digits`
writes.
-/

namespace TopicBroker.Text

/-- The decimal digits of a number, most significant first. -/
def digits (n : Nat) : List Char :=
  Nat.toDigits 10 n

/-- The decimal digits of a number, with zeros in front up to `width` of them. -/
def padded (width n : Nat) : List Char :=
  List.replicate (width - (digits n).length) '0' ++ digits n

def value (cs : List Char) : Nat :=
  cs.foldl (fun n c => 10 * n + (c.toNat - '0'.toNat)) 0

/-- A whole number in decimal, with a minus sign in front of a negative one. -/
def decimal (n : Int) : List Char :=
  if n < 0 then '-' :: digits n.natAbs else digits n.natAbs

/-- A whole number in decimal in `width` places, of which a minus sign takes one. -/
def paddedInt (width : Nat) (n : Int) : List Char :=
  if n < 0 then '-' :: padded (width - 1) n.natAbs else padded width n.natAbs

example : padded 4 42 = ['0', '0', '4', '2'] := by decide
example : paddedInt 4 (-42) = ['-', '0', '4', '2'] := by decide
example : value (digits 1907) = 1907 := by decide

end TopicBroker.Text
