import Mentions.Config
import Mentions.Intent
import Mentions.Json.Codec
import Mentions.Json.Decode
import Mentions.Outcome
import Mentions.Overlay.Directory
import Mentions.Overlay.Layout

/-!
# JSON forms of the library's types

Hosts exchange configurations, key presses, intents, outcomes and layouts as JSON. For each type
`toJson` is the form that is written, with optional fields left out where they have no value, and
`ofJson?` reads every accepted form: an object in any order, or an array of the fields.

Lengths have a form of their own, which `Caret` and `Layout` take as an argument, and how a form is
spelled as text is for a codec to say.
-/

namespace Mentions

open Json (required withDefault)

/-- A member that is written only if it has a value. -/
def Json.optionalMember (name : String) : Option Json → List (String × Json)
  | some j => [(name, j)]
  | none => []

/-! ## Configurations -/

namespace Config

/-- The form of a configuration. -/
def toJson (config : Config) : Json :=
  .ofMembers
    [("marker", .ofText [config.marker]), ("max_mention_len", .ofNat config.maxLength),
      ("guard_body_chars_only", .bool config.guardBodyOnly),
      ("trailing_space_guard", .bool config.guardTrailingSpace)]

/-- Reads a configuration, of which every field has a default. -/
def ofJson? (j : Json) : Option Config := do
  let [marker, maxLength, guardBodyOnly, guardTrailingSpace] ← j.fields?
    ["marker", "max_mention_len", "guard_body_chars_only", "trailing_space_guard"] | none
  let marker ← withDefault Json.char? defaultMarker marker
  let maxLength ← withDefault Json.offset? defaultMaxLength maxLength
  let guardBodyOnly ← withDefault Json.bool? false guardBodyOnly
  let guardTrailingSpace ← withDefault Json.bool? true guardTrailingSpace
  some { marker, maxLength, guardBodyOnly, guardTrailingSpace }

/-- Reads a configuration from text and accepts it only if a scan can honour it. -/
def ofText (t : Text) (codec : Json.Codec := .standard) : Except ConfigError Config :=
  match codec.decode? ofJson? t with
  | none => .error (.unreadable "not the JSON form of a configuration".toList)
  | some config =>
    match config.validate with
    | .ok () => .ok config
    | .error e => .error e

end Config

/-! ## Key presses and intents -/

/-- The form of modifiers. -/
def Modifiers.toJson (m : Modifiers) : Json :=
  .ofMembers [("ctrl", .bool m.ctrl), ("meta", .bool m.command)]

/-- Reads modifiers; those that are not named are not held. -/
def Modifiers.ofJson? (j : Json) : Option Modifiers := do
  let [ctrl, command] ← j.fields? ["ctrl", "meta"] | none
  let ctrl ← withDefault Json.bool? false ctrl
  let command ← withDefault Json.bool? false command
  some { ctrl, command }

/-- The form of a key press. -/
def KeyEvent.toJson (e : KeyEvent) : Json :=
  .ofMembers
    [("key", .ofText e.key), ("ctrl", .bool e.mods.ctrl), ("meta", .bool e.mods.command)]

/-- Reads a key press. -/
def KeyEvent.ofJson? (j : Json) : Option KeyEvent := do
  let [key, ctrl, command] ← j.fields? ["key", "ctrl", "meta"] | none
  let key ← required Json.text? key
  let ctrl ← withDefault Json.bool? false ctrl
  let command ← withDefault Json.bool? false command
  some { key, mods := { ctrl, command } }

namespace Intent

/-- The form of an intent with modifiers, which stand beside the name of its kind. -/
def modifiedJson (kind : String) (m : Modifiers) : Json :=
  .ofMembers [("kind", .ofText kind.toList), ("ctrl", .bool m.ctrl), ("meta", .bool m.command)]

/-- The form of an intent. -/
def toJson : Intent → Json
  | moveLeft m => modifiedJson "move_left" m
  | moveRight m => modifiedJson "move_right" m
  | moveHome => .ofMembers [("kind", .ofText "move_home".toList)]
  | moveEnd => .ofMembers [("kind", .ofText "move_end".toList)]
  | deleteBackward m => modifiedJson "delete_backward" m
  | deleteForward m => modifiedJson "delete_forward" m
  | insertChar c => .ofMembers [("kind", .ofText "insert_char".toList), ("ch", .ofText [c])]

/-- Whether the fields of an intent without fields are as they should be. -/
def isEmptyBody : Json → Bool
  | .array items => items.isEmpty
  | .object _ => true
  | _ => false

/-- Reads an intent of a given kind from its fields. -/
def ofKind? (kind : Text) (body : Json) : Option Intent :=
  if kind = "move_left".toList then (Modifiers.ofJson? body).map moveLeft
  else if kind = "move_right".toList then (Modifiers.ofJson? body).map moveRight
  else if kind = "move_home".toList then if isEmptyBody body then some moveHome else none
  else if kind = "move_end".toList then if isEmptyBody body then some moveEnd else none
  else if kind = "delete_backward".toList then (Modifiers.ofJson? body).map deleteBackward
  else if kind = "delete_forward".toList then (Modifiers.ofJson? body).map deleteForward
  else if kind = "insert_char".toList then do
    let [c] ← body.fields? ["ch"] | none
    let c ← required Json.char? c
    some (insertChar c)
  else none

/-- Reads an intent. The name of its kind may stand anywhere among the members, or first in an
array. Since the kind decides how the rest is read, all of it has to be readable. -/
def ofJson? (j : Json) : Option Intent :=
  if j.isReadable && j.depth ≤ Json.maxDepth then
    match j with
    | .array (kind :: fields) => kind.text?.bind fun k => ofKind? k (.array fields)
    | .object members =>
      match Json.member? members "kind" with
      | some (some kind) =>
        kind.text?.bind fun k =>
          ofKind? k (.object (members.filter fun m => m.1 ≠ some "kind".toList))
      | _ => none
    | _ => none
  else none

end Intent

/-! ## Outcomes and edits -/

/-- The form of an outcome. -/
def Outcome.toJson (o : Outcome) : Json :=
  .ofMembers
    (("intercepted", .bool o.intercepted) ::
      Json.optionalMember "new_cursor" (o.cursor?.map .ofNat) ++
      Json.optionalMember "new_buffer" (o.buffer?.map .ofText))

/-- Reads an outcome. -/
def Outcome.ofJson? (j : Json) : Option Outcome := do
  let [intercepted, cursor, buffer] ← j.fields? ["intercepted", "new_cursor", "new_buffer"] | none
  let intercepted ← required Json.bool? intercepted
  let cursor? ← withDefault (Json.nullable? Json.offset?) none cursor
  let buffer? ← withDefault (Json.nullable? Json.text?) none buffer
  some { intercepted, cursor?, buffer? }

/-- The form of an edit. -/
def Edit.toJson (e : Edit) : Json :=
  .ofMembers
    [("buffer", .ofText e.buffer), ("cursor", .ofNat e.cursor), ("applied", .bool e.applied)]

/-- Reads an edit. -/
def Edit.ofJson? (j : Json) : Option Edit := do
  let [buffer, cursor, applied] ← j.fields? ["buffer", "cursor", "applied"] | none
  let buffer ← required Json.text? buffer
  let cursor ← required Json.offset? cursor
  let applied ← required Json.bool? applied
  some { buffer, cursor, applied }

/-! ## Spans -/

/-- The form of a span. -/
def Span.toJson (s : Span) : Json :=
  .ofMembers [("start", .ofNat s.start), ("end", .ofNat s.stop), ("text", .ofText s.text)]

/-- Reads a span. -/
def Span.ofJson? (j : Json) : Option Span := do
  let [start, stop, text] ← j.fields? ["start", "end", "text"] | none
  let start ← required Json.offset? start
  let stop ← required Json.offset? stop
  let text ← required Json.text? text
  some { start, stop, text }

namespace Overlay

/-! ## Overlays -/

/-- The form of a kind of segment. -/
def SegmentKind.toJson (k : SegmentKind) : Json := .ofText k.name

/-- The kind of the given name. -/
def SegmentKind.ofName? (t : Text) : Option SegmentKind :=
  if t = SegmentKind.text.name then some .text
  else if t = SegmentKind.mention.name then some .mention
  else none

/-- Reads a kind of segment: its name, or an object with the name for its only member and no value
under it. -/
def SegmentKind.ofJson? : Json → Option SegmentKind
  | .string (some t) => ofName? t
  | .object [(some t, .null)] => ofName? t
  | _ => none

/-- The form of a segment. -/
def Segment.toJson (s : Segment) : Json :=
  .ofMembers
    ([("kind", s.kind.toJson), ("content", .ofText s.content), ("start", .ofNat s.start),
      ("end", .ofNat s.stop)] ++ Json.optionalMember "span" (s.span?.map Span.toJson))

/-- Reads a segment. -/
def Segment.ofJson? (j : Json) : Option Segment := do
  let [kind, content, start, stop, span] ← j.fields? ["kind", "content", "start", "end", "span"]
    | none
  let kind ← required SegmentKind.ofJson? kind
  let content ← required Json.text? content
  let start ← required Json.offset? start
  let stop ← required Json.offset? stop
  let span? ← withDefault (Json.nullable? Span.ofJson?) none span
  some { kind, content, start, stop, span? }

/-- The form of a caret, given the form of lengths. -/
def Caret.toJson {α : Type} (length : α → Json) (c : Caret α) : Json :=
  .ofMembers [("left", length c.left), ("top", length c.top)]

/-- Reads a caret, given how lengths are read. -/
def Caret.ofJson? {α : Type} (length? : Json → Option α) (j : Json) : Option (Caret α) := do
  let [left, top] ← j.fields? ["left", "top"] | none
  let left ← required length? left
  let top ← required length? top
  some { left, top }

/-- The form of a layout, given the form of lengths. -/
def Layout.toJson {α : Type} (length : α → Json) (l : Layout α) : Json :=
  .ofMembers
    (("segments", .array (l.segments.map Segment.toJson)) ::
      Json.optionalMember "caret" (l.caret?.map (Caret.toJson length)) ++
      [("degraded", .bool l.degraded)])

/-- Reads a layout, given how lengths are read. -/
def Layout.ofJson? {α : Type} (length? : Json → Option α) (j : Json) : Option (Layout α) := do
  let [segments, caret, degraded] ← j.fields? ["segments", "caret", "degraded"] | none
  let segments ← required (Json.list? Segment.ofJson?) segments
  let caret? ← withDefault (Json.nullable? (Caret.ofJson? length?)) none caret
  let degraded ← required Json.bool? degraded
  some { segments, caret?, degraded }

/-- The form of a user. -/
def User.toJson (u : User) : Json :=
  .ofMembers [("username", .ofText u.username), ("display_name", .ofText u.displayName)]

/-- Reads a user. -/
def User.ofJson? (j : Json) : Option User := do
  let [username, displayName] ← j.fields? ["username", "display_name"] | none
  let username ← required Json.text? username
  let displayName ← required Json.text? displayName
  some { username, displayName }

end Overlay

end Mentions
