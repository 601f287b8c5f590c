import TopicBroker.Binary64.Basic

/-!
# TOML values

The values of TOML, the format of the settings file. A table keeps its members in the order in which
they were given; their names are distinct.
-/

namespace TopicBroker

/-- A value. Dates and times are held as texts, set out in the usual way. -/
inductive Toml where
  | boolean (b : Bool)
  | integer (n : Int)
  | float (x : Binary64)
  | text (s : String)
  | moment (s : String)
  | array (items : List Toml)
  | table (members : List (String × Toml))
  deriving Repr, Inhabited

end TopicBroker
