import Mentions.Text.Units

/-!
# Directories of display names

A directory knows the names under which users are shown. It holds one entry for each username, the
one that was inserted last.
-/

namespace Mentions.Overlay

/-- A user and the name to show. -/
structure User where
  username : Text
  displayName : Text
  deriving DecidableEq, Repr

/-- Display names by username. -/
structure Directory where
  users : List User := []
  deriving DecidableEq, Repr

namespace Directory

/-- The name under which a user is shown, if the user is known. -/
def displayName? (d : Directory) (username : Text) : Option Text :=
  (d.users.find? (·.username = username)).map User.displayName

/-- Adds an entry, which replaces the one with the same username. -/
def insert (d : Directory) (user : User) : Directory :=
  ⟨user :: d.users.filter (·.username ≠ user.username)⟩

/-- The directory of a list of entries, of which later ones replace earlier ones. -/
def ofList (users : List User) : Directory := users.foldl insert {}

/-- The number of entries. -/
def size (d : Directory) : Nat := d.users.length

/-- Whether there is no entry. -/
def isEmpty (d : Directory) : Bool := d.users.isEmpty

end Directory

end Mentions.Overlay
