/-!
# Texts as bytes

The UTF-8 bytes of a text, and texts read from bytes: `decode?` refuses anything that is not UTF-8,
`decodeLossy` puts a replacement character for each run of bytes that could not go on.
-/

namespace TopicBroker.Utf8

def encode (text : String) : List UInt8 :=
  text.toUTF8.data.toList

def decode? (bytes : List UInt8) : Option String :=
  String.fromUTF8? ⟨bytes.toArray⟩

/-- Drops the mark that may stand in front of a text. -/
def dropMark : List Char → List Char
  | '\uFEFF' :: cs => cs
  | cs => cs

/-- What may follow a first byte: the range of the second byte, the number of bytes after it, and
the bits that the first byte gives. -/
structure Lead where
  low : Nat
  high : Nat
  more : Nat
  bits : Nat

/-- What may follow a byte outside ASCII, if it is the first of a sequence. -/
def lead? (b : Nat) : Option Lead :=
  if 0xC2 ≤ b ∧ b ≤ 0xDF then some ⟨0x80, 0xBF, 0, b - 0xC0⟩
  else if 0xE0 ≤ b ∧ b ≤ 0xEF then
    some ⟨if b = 0xE0 then 0xA0 else 0x80, if b = 0xED then 0x9F else 0xBF, 1, b - 0xE0⟩
  else if 0xF0 ≤ b ∧ b ≤ 0xF4 then
    some ⟨if b = 0xF0 then 0x90 else 0x80, if b = 0xF4 then 0x8F else 0xBF, 2, b - 0xF0⟩
  else none

def isContinuation (b : UInt8) : Bool :=
  0x80 ≤ b && b ≤ 0xBF

/-- The bytes that a first byte claims, as far as they fit. -/
def claimed (lead : Lead) : List UInt8 → List UInt8
  | [] => []
  | b :: rest =>
    if lead.low ≤ b.toNat ∧ b.toNat ≤ lead.high then
      b :: (rest.take lead.more).takeWhile isContinuation
    else []

/-- The character that stands for bytes that are no character. -/
def replacement : Char := '\uFFFD'

def decodeLossyFrom : Nat → List UInt8 → List Char
  | 0, _ | _, [] => []
  | fuel + 1, b :: rest =>
    if b < 0x80 then Char.ofNat b.toNat :: decodeLossyFrom fuel rest
    else
      match lead? b.toNat with
      | none => replacement :: decodeLossyFrom fuel rest
      | some lead =>
        let run := claimed lead rest
        let c :=
          if run.length = lead.more + 1 then
            Char.ofNat (run.foldl (fun n b => n * 64 + b.toNat % 64) lead.bits)
          else replacement
        c :: decodeLossyFrom fuel (rest.drop run.length)

/-- The text of bytes, with a replacement character wherever they are not UTF-8. -/
def decodeLossy (bytes : List UInt8) : String :=
  String.ofList (decodeLossyFrom bytes.length bytes)

example : decodeLossyFrom 4 [0x61, 0xE2, 0x82, 0x62] = ['a', replacement, 'b'] := by decide
example : decodeLossyFrom 3 [0xE2, 0x82, 0xAC] = ['€'] := by decide

end TopicBroker.Utf8
