import Mentions.Editing.Events

/-!
# An input widget

A `Widget` is the least host that there can be: a buffer, a cursor and the buffer before the last
edit. Each step sends what the user does through the library and applies what comes back; where an
edit is not intercepted, it does what a text field does by default, one character at a time.
-/

namespace Mentions

/-- The state of an input widget. -/
structure Widget where
  buffer : Text := []
  cursor : Nat := 0
  /-- The buffer before the last edit, if there was one. -/
  previous? : Option Text := none
  deriving DecidableEq, Repr

namespace Widget

/-! ## Default actions -/

/-- Replaces the text between two offsets and puts the cursor behind the new text. Nothing happens
if the offsets address no such text. -/
def edit (w : Widget) (start stop : Nat) (new : Text) : Widget :=
  match w.buffer.splice? start stop new with
  | some text => { w with buffer := text, cursor := start + Text.units new }
  | none => w

/-- The start of the character before the cursor, or the cursor itself. -/
def before (w : Widget) : Nat :=
  match w.buffer.cut? w.cursor with
  | some (l, _) =>
    match l.getLast? with
    | some c => w.cursor - Text.unitsOf c
    | none => w.cursor
  | none => w.cursor

/-- The end of the character at the cursor, or the cursor itself. -/
def past (w : Widget) : Nat :=
  match w.buffer.charAt? w.cursor with
  | some c => w.cursor + Text.unitsOf c
  | none => w.cursor

/-- What a text field does by default. Modifiers are not looked at. -/
def defaultAction (w : Widget) : Intent → Widget
  | .moveLeft _ => { w with cursor := w.before }
  | .moveRight _ => { w with cursor := w.past }
  | .moveHome => { w with cursor := 0 }
  | .moveEnd => { w with cursor := Text.units w.buffer }
  | .deleteBackward _ => w.edit w.before w.cursor []
  | .deleteForward _ => w.edit w.cursor w.past []
  | .insertChar c => w.edit w.cursor w.cursor [c]

/-- Takes over what an outcome holds. -/
def take (w : Widget) (o : Outcome) : Widget :=
  { w with buffer := o.buffer?.getD w.buffer, cursor := o.cursor?.getD w.cursor }

/-- What happens when a key is pressed. -/
def press (config : Config) (w : Widget) (e : KeyEvent) (words : Word.Segmenter := .standard) :
    Widget :=
  let o := config.handleKey w.buffer w.cursor e words
  if o.intercepted then w.take o
  else
    match e.intent? with
    | some intent => w.defaultAction intent
    | none => w

/-- Puts a new buffer in place, and the cursor where it may stand. -/
def replace (config : Config) (w : Widget) (buffer : Text) : Widget :=
  { w with buffer := buffer, cursor := config.clamp buffer w.cursor }

/-! ## Steps -/

/-- What may happen to a widget. -/
inductive Step
  /-- The program puts a buffer and a cursor in place. -/
  | set (buffer : Text) (cursor : Nat)
  | press (e : KeyEvent)
  | paste (text : Text)
  /-- Mentions that have grown since the last edit are cut. -/
  | repair
  /-- Mentions that look wrong are cut. -/
  | repairShape
  /-- Invisible separators are removed. -/
  | clean
  | click (cursor : Nat)
  /-- A character is inserted if it has to be kept apart from a mention. -/
  | guardInsertion (c : Char)
  /-- The mentions of the buffer are asked for. -/
  | scan
  /-- The visible text is asked for. -/
  | display
  deriving DecidableEq, Repr

/-- What a step answers. -/
inductive Reply
  | nothing
  | outcome (o : Outcome)
  | edit (e : Edit)
  | spans (spans : List Span)
  | text (t : Text)
  deriving DecidableEq, Repr

/-- The widget with the given buffer as the one before the last edit. -/
def remember (w : Widget) (buffer : Text) : Widget := { w with previous? := some buffer }

/-- The answer to a step, and the widget after it. -/
def step (config : Config) (w : Widget) (step : Step) (words : Word.Segmenter := .standard) :
    Reply × Widget :=
  match step with
  | .set buffer cursor => (.nothing, ⟨buffer, cursor, some w.buffer⟩)
  | .press e =>
    (.outcome (config.handleKey w.buffer w.cursor e words),
      (w.press config e words).remember w.buffer)
  | .paste text => (.nothing, (w.edit w.cursor w.cursor text).remember w.buffer)
  | .repair => (.nothing, w.replace config (Growth.repair config w.buffer w.previous?))
  | .repairShape => (.nothing, w.replace config (Growth.repair config w.buffer none))
  | .clean => (.nothing, w.replace config (strip w.buffer))
  | .click cursor => (.nothing, { w with cursor := config.clamp w.buffer cursor })
  | .guardInsertion c =>
    let e := Growth.insertGuarded config w.buffer w.cursor c
    (.edit e, ⟨e.buffer, e.cursor, some w.buffer⟩)
  | .scan => (.spans (Mentions.scan config.marker w.buffer), w)
  | .display => (.text (strip w.buffer), w)

/-- What a step is worth a record. -/
def events (config : Config) (w : Widget) (step : Step) (words : Word.Segmenter := .standard) :
    List Log.Event :=
  match step with
  | .press e => config.keyEvents w.buffer w.cursor e words
  | .repair => config.repairEvents w.buffer w.previous?
  | .repairShape => config.repairEvents w.buffer none
  | _ => []

/-- The answers to a list of steps, each with the widget after it. -/
def run (config : Config) (w : Widget) (steps : List Step) (words : Word.Segmenter := .standard) :
    List (Reply × Widget) :=
  match steps with
  | [] => []
  | s :: rest =>
    let (reply, w') := w.step config s words
    (reply, w') :: w'.run config rest words

/-- What a list of steps is worth a record. -/
def runEvents (config : Config) (w : Widget) (steps : List Step)
    (words : Word.Segmenter := .standard) : List Log.Event :=
  match steps with
  | [] => []
  | s :: rest => w.events config s words ++ (w.step config s words).2.runEvents config rest words

end Widget

end Mentions
