import TopicBroker.Json.Writer

/-!
# Identifiers

The ids that topics and messages get: 122 free bits in the layout of random UUIDs.
-/

namespace TopicBroker.Identifier

/-- The last digits of a number to the base sixteen, with zeros in front. -/
def hexDigits (width n : Nat) : List Char :=
  (List.range width).reverse.map fun i => Json.hexDigit (n >>> (4 * i) % 16)

/-- The id with the given free bits. -/
def text (n : Nat) : String :=
  let low := n % 1 <<< 62
  let middle := n >>> 62
  let high := n >>> 74
  String.ofList <|
    hexDigits 8 (high >>> 16) ++ '-' :: hexDigits 4 high ++ '-' :: '4' :: hexDigits 3 middle ++
      '-' :: hexDigits 4 (1 <<< 15 + low >>> 48) ++ '-' :: hexDigits 12 low

/-- Ids one after the other. -/
def supply (start i : Nat) : String :=
  text (start + i)

example : text 0 = "00000000-0000-4000-8000-000000000000" := by decide +kernel
example : text (1 <<< 122 - 1) = "ffffffff-ffff-4fff-bfff-ffffffffffff" := by decide +kernel

end TopicBroker.Identifier
