/-!
# Writing XML

Elements without attributes, and without white space between them. Brackets and ampersands are
escaped, all other characters stand for themselves.
-/

namespace TopicBroker.Xml

def escape (c : Char) : List Char :=
  match c with
  | '<' => ['&', 'l', 't', ';']
  | '>' => ['&', 'g', 't', ';']
  | '&' => ['&', 'a', 'm', 'p', ';']
  | c => [c]

def escapeText (s : String) : List Char :=
  s.toList.flatMap escape

/-- An element with its content; one without content closes itself. -/
def element (name : String) (content : List Char) : List Char :=
  if content.isEmpty then '<' :: name.toList ++ ['/', '>']
  else '<' :: name.toList ++ '>' :: content ++ '<' :: '/' :: name.toList ++ ['>']

end TopicBroker.Xml
