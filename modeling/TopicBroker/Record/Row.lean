import TopicBroker.Record.Fault
import TopicBroker.Record.Schema

/-!
# Rows from slots

While a record is read its values are held in slots. Closing the slots fills in what was left out,
and fails at the first field, in order, that had to be given.
-/

namespace TopicBroker.Record

variable {κ : Type} {V : κ → Type}

/-- The value of a field that was left out. -/
def Field.absent : (f : Field V) → Except Fault f.Value
  | ⟨name, _, .required⟩ => .error (.missing name)
  | ⟨_, _, .defaulted value⟩ => .ok value
  | ⟨_, _, .optional⟩ => .ok none
  | ⟨_, _, .nullable⟩ => .ok none

/-- The row of the values found, with the values of the fields that were left out. -/
def Slots.close : (fs : List (Field V)) → Slots fs → Except Fault (Row fs)
  | [], () => .ok ()
  | f :: fs, (slot, slots) => do
    let value ← match slot with
      | some value => .ok value
      | none => f.absent
    let row ← close fs slots
    .ok (value, row)

end TopicBroker.Record
