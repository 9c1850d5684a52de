import Mentions.Editing
import Mentions.Log.Event

/-!
# What editing writes to the log

Editing is pure; what it is worth a record is computed here, from the same input.
-/

namespace Mentions

/-- The event of an intercepted edit. -/
def Outcome.events (o : Outcome) (cursor : Nat) (intent : Intent) : List Log.Event :=
  if o.intercepted then [.intercepted intent cursor o.cursor?] else []

namespace Config

/-- What a decision on a movement or deletion is worth. -/
def interceptEvents (config : Config) (buffer : Text) (cursor : Nat) (intent : Intent)
    (words : Word.Segmenter := .standard) : List Log.Event :=
  (Atomic.intercept config buffer cursor intent words).events cursor intent

/-- What an edit is worth: insertions leave no record. -/
def applyEvents (config : Config) (buffer : Text) (cursor : Nat) (intent : Intent)
    (words : Word.Segmenter := .standard) : List Log.Event :=
  match intent with
  | .insertChar _ => []
  | intent => config.interceptEvents buffer cursor intent words

/-- What a key press is worth. -/
def keyEvents (config : Config) (buffer : Text) (cursor : Nat) (e : KeyEvent)
    (words : Word.Segmenter := .standard) : List Log.Event :=
  match e.intent? with
  | some intent => config.applyEvents buffer cursor intent words
  | none => []

/-- What a repair is worth: nothing unless there was something to cut. -/
def repairEvents (config : Config) (buffer : Text) (previous? : Option Text) : List Log.Event :=
  match Growth.cuts config buffer previous? with
  | [] => []
  | cuts => [.separated cuts]

end Config

end Mentions
