import TopicBroker.Text.Printable

/-!
# Quoted texts

A text between quotes as refusals show it: quotes, backslashes and the usual controls are escaped
by a letter, any other character that leaves no mark of its own by its number.
-/

namespace TopicBroker.Text

def numbered (c : Char) : List Char :=
  '\\' :: 'u' :: '\x7b' :: Nat.toDigits 16 c.toNat ++ ['\x7d']

def shown (c : Char) : List Char :=
  match c with
  | '"' => ['\\', '"']
  | '\\' => ['\\', '\\']
  | '\n' => ['\\', 'n']
  | '\r' => ['\\', 'r']
  | '\t' => ['\\', 't']
  | '\x00' => ['\\', '0']
  | c => if isPrintable c then [c] else numbered c

def quoted (s : String) : String :=
  String.ofList ('"' :: s.toList.flatMap shown ++ ['"'])

example : shown '"' = ['\\', '"'] := rfl
example : shown '\x01' = ['\\', 'u', '\x7b', '1', '\x7d'] := by decide +kernel

end TopicBroker.Text
