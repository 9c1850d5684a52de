import Mentions.Text.Units

/-!
# Outcomes

What a host is told about an edit: to go on as usual, or to leave its own handling out and take over
a cursor, or a buffer and a cursor, instead.
-/

namespace Mentions

/-- What becomes of an edit. -/
structure Outcome where
  /-- Whether the host leaves its own handling out. -/
  intercepted : Bool := false
  /-- The cursor that the host takes over. -/
  cursor? : Option Nat := none
  /-- The buffer that the host takes over. -/
  buffer? : Option Text := none
  deriving DecidableEq, Repr

namespace Outcome

/-- The host goes on as usual. -/
def pass : Outcome := {}

/-- Nothing happens. -/
def suppress : Outcome := ⟨true, none, none⟩

/-- The cursor moves, and the text stays as it is. -/
def moveTo (cursor : Nat) : Outcome := ⟨true, some cursor, none⟩

/-- The text is replaced and the cursor moves. -/
def replace (buffer : Text) (cursor : Nat) : Outcome := ⟨true, some cursor, some buffer⟩

end Outcome

/-- A buffer and a cursor after an insertion that was guarded. -/
structure Edit where
  buffer : Text
  cursor : Nat
  /-- Whether the insertion has been made. -/
  applied : Bool
  deriving DecidableEq, Repr

end Mentions
