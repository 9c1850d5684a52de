import Mentions.Intent
import Mentions.Log.Level
import Mentions.Text.Quoted

/-!
# Log records and the events behind them

A record has a level, a target and a message, and is written as a line of text. Three things are
worth a record: an edit that was intercepted, mentions that were cut, and an overlay that could not
be measured. `Event.record` words them.
-/

namespace Mentions.Log

/-- What is written to the log. -/
structure Record where
  level : Level
  /-- The part of the program that the record comes from. -/
  target : Text
  message : Text
  deriving DecidableEq, Repr

namespace Record

/-- A text with blanks behind it, up to a width. -/
def pad (width : Nat) (t : Text) : Text := t ++ List.replicate (width - t.length) ' '

/-- The text that a record is written as. -/
def text (r : Record) : Text :=
  pad 5 r.level.name ++ " [".toList ++ r.target ++ "] ".toList ++ r.message

end Record

/-- A line without the carriage return at its end, which belongs to the line break. -/
def dropReturn (line : Text) : Text :=
  if line.getLast? = some '\r' then line.dropLast else line

/-- The lines of a text, without the line breaks between them. -/
def splitLines : Text → List Text
  | [] => [[]]
  | c :: t =>
    if c = '\n' then [] :: splitLines t
    else
      match splitLines t with
      | line :: rest => (c :: line) :: rest
      | [] => [[c]]

/-- The lines of those records that a threshold lets through: one for each record, unless there are
line breaks in its text. -/
def lines (threshold : Threshold) (records : List Record) : List Text :=
  (records.filter fun r => threshold.admits r.level).flatMap fun r =>
    (splitLines r.text).map dropReturn

/-! ## Words for values -/

/-- A number in decimal. -/
def natText (n : Nat) : Text := Nat.toDigits 10 n

/-- A truth value. -/
def boolText (b : Bool) : Text := if b then "true".toList else "false".toList

/-- A number that may be missing. -/
def optionText : Option Nat → Text
  | none => "None".toList
  | some n => "Some(".toList ++ natText n ++ [')']

/-- A list of numbers. -/
def listText (ns : List Nat) : Text :=
  '[' :: (", ".toList).intercalate (ns.map natText) ++ [']']

/-- An intent's name and modifiers. -/
def modifiersText (name : Text) (m : Modifiers) : Text :=
  name ++ "(Modifiers \x7b ctrl: ".toList ++ boolText m.ctrl ++ ", meta: ".toList ++
    boolText m.command ++ " \x7d)".toList

/-- An intent. -/
def intentText : Intent → Text
  | .moveLeft m => modifiersText "MoveLeft".toList m
  | .moveRight m => modifiersText "MoveRight".toList m
  | .moveHome => "MoveHome".toList
  | .moveEnd => "MoveEnd".toList
  | .deleteBackward m => modifiersText "DeleteBackward".toList m
  | .deleteForward m => modifiersText "DeleteForward".toList m
  | .insertChar c => "InsertChar \x7b ch: ".toList ++ Text.quoteChar c ++ " \x7d".toList

/-! ## Events -/

/-- What is worth a record. -/
inductive Event
  /-- An edit at a cursor was intercepted, and the cursor may have been moved. -/
  | intercepted (intent : Intent) (cursor : Nat) (moved : Option Nat)
  /-- Mentions were cut at the given offsets. -/
  | separated (cuts : List Nat)
  /-- An overlay was given up, for the given reason. -/
  | degraded (reason : Text)
  deriving DecidableEq, Repr

/-- The record of an event. -/
def Event.record : Event → Record
  | intercepted intent cursor moved =>
    { level := .debug
      target := "mentioncore::mention::policy".toList
      message := "intercepted ".toList ++ intentText intent ++ " at ".toList ++ natText cursor ++
        " -> ".toList ++ optionText moved }
  | separated cuts =>
    { level := .debug
      target := "mentioncore::mention::guard".toList
      message := "split ".toList ++ natText cuts.length ++ " grown mention(s) at ".toList ++
        listText cuts }
  | degraded reason =>
    { level := .warn
      target := "mentioncore::overlay::layout".toList
      message := "overlay degraded to raw text: ".toList ++ reason }

end Mentions.Log
