import Mentions.Json.Forms
import Mentions.Proofs.Json.Codec

/-!
# Forms that decode back

A host gets back what it has written: the JSON form of a configuration, an intent, a key press,
modifiers, an outcome, an edit, a span or a segment, written as text, is read as the same value
(`forms_decode_back`). Two things are needed for it. The text has to give the form back, which any
codec sees to that reads back what it writes, since each form is a plain value (`IsPlain`). And the
form has to give the value back, which it does field by field: no name occurs twice in it, so that
looking up a name finds the member that was written, or none if it was left out
(`fields?_ofMembers`).

Offsets are bounded where they are read, and so they have to be where they are written.
-/

namespace Mentions

namespace Json

variable {α : Type} {d n : Nat} {j : Json} {ms : List (String × Json)} {codec : Codec}

/-! ## Members by name -/

/-- Among members with names of their own, the one of a given name is what a look-up finds. -/
theorem filter_name_eq (h : (ms.map Prod.fst).Nodup) (name : String) :
    ms.filter (fun m => m.1 == name) = (ms.lookup name).toList.map (name, ·) := by
  induction ms with
  | nil => rfl
  | cons m ms ih =>
    obtain ⟨first, j⟩ := m
    obtain ⟨hfirst, hms⟩ := List.nodup_cons.1 h
    by_cases hname : name = first
    · subst hname
      have hrest : ms.filter (fun m => m.1 == name) = [] := by
        refine List.filter_eq_nil_iff.2 fun m hm heq => hfirst ?_
        exact List.mem_map.2 ⟨m, hm, beq_iff_eq.1 heq⟩
      rw [List.filter_cons_of_pos (by simp), hrest, List.lookup_cons_self]
      rfl
    · have hskip : (name == first) = false := beq_false_of_ne hname
      rw [List.filter_cons_of_neg (by simpa using Ne.symm hname), ih hms, List.lookup_cons, hskip]

/-- A name is looked up among members with names of their own. -/
theorem member?_of_nodup (h : (ms.map Prod.fst).Nodup) (name : String) :
    member? (ms.map fun (name, j) => (some name.toList, j)) name = some (ms.lookup name) := by
  have hnames : (fun m : Option Text × Json => decide (m.1 = some name.toList)) ∘
      (fun m : String × Json => (some m.1.toList, m.2)) = fun m => m.1 == name := by
    funext m
    simp [String.toList_inj, beq_eq_decide]
  rw [member?, List.filter_map, hnames, filter_name_eq h]
  cases ms.lookup name <;> rfl

/-- The fields of an object whose names are distinct are looked up by their names. -/
theorem fields?_ofMembers (h : (ms.map Prod.fst).Nodup) (names : List String) :
    (ofMembers ms).fields? names = some (names.map fun name => ms.lookup name) := by
  have hlookup : member? (ms.map fun (name, j) => (some name.toList, j)) =
      fun name => pure (ms.lookup name) := funext (member?_of_nodup h)
  rw [ofMembers, fields?, if_pos, hlookup, List.mapM_pure]
  · rfl
  · simp

/-! ## What is written and read -/

/-- Members with flat values make up a readable object of depth one. -/
theorem readable_ofMembers (h : ∀ m ∈ ms, m.2.isReadable = true ∧ m.2.depth = 0) :
    (ofMembers ms).isReadable = true ∧ (ofMembers ms).depth = 1 := by
  induction ms with
  | nil => exact ⟨rfl, rfl⟩
  | cons m ms ih =>
    obtain ⟨⟨hm, hflat⟩, hms⟩ := List.forall_mem_cons.1 h
    obtain ⟨ihread, ihdepth⟩ := ih hms
    simp only [ofMembers, isReadable, depth] at ihread ihdepth
    simp only [ofMembers, List.map_cons, isReadable, haveReadable, depth, depthOfMembers,
      Option.isSome_some, Bool.true_and, hm, hflat, Nat.zero_max]
    exact ⟨ihread, ihdepth⟩

/-- A natural number in the range of offsets is read as itself. -/
theorem offset?_ofNat (h : n ≤ maxOffset) : (ofNat n).offset? = some n := by
  rw [ofNat, offset?, Numeral.natural?_ofNat]
  exact if_pos h

theorem optionalMember_map (name : String) (toJson : α → Json) (x? : Option α) :
    optionalMember name (x?.map toJson) = (x?.map fun x => (name, toJson x)).toList := by
  cases x? <;> rfl

/-- A member that may be left out is as plain as its value. -/
theorem isPlain_of_mem_optionalMember {toJson : α → Json} {x? : Option α}
    (h : ∀ x ∈ x?, IsPlain d (toJson x)) (name : String) :
    ∀ m ∈ optionalMember name (x?.map toJson), IsPlain d m.2 := by
  cases x? with
  | none => exact nofun
  | some x => exact List.forall_mem_singleton.2 (h x rfl)

/-- A member that is left out where it has no value is read back, as no value is written as
`null`. -/
theorem withDefault_nullable? {toJson : α → Json} {ofJson? : Json → Option α} {x? : Option α}
    (hnull : ∀ x, toJson x ≠ .null) (h : ∀ x ∈ x?, ofJson? (toJson x) = some x) :
    withDefault (nullable? ofJson?) none (x?.map toJson) = some x? := by
  cases x? with
  | none => rfl
  | some x =>
    have hform : nullable? ofJson? (toJson x) = (ofJson? (toJson x)).map some := by
      unfold nullable?
      split
      · next heq => exact absurd heq (hnull x)
      · rfl
    rw [Option.map_some, withDefault, hform, h x rfl]
    rfl

/-- A form that its text gives back and that is read as the value. -/
structure IsFormOf (ofJson? : Json → Option α) (j : Json) (x : α) : Prop where
  plain : IsPlain maxDepth j
  decoded : ofJson? j = some x

/-- A value is read back from the text of its form. -/
theorem IsFormOf.decode?_write {ofJson? : Json → Option α} {x : α} (h : IsFormOf ofJson? j x)
    (hcodec : codec.ReadsBack) : codec.decode? ofJson? (codec.write j) = some x := by
  rw [Codec.decode?, hcodec j h.plain]
  exact h.decoded

end Json

open Json (Codec IsFormOf IsPlain fields?_ofMembers offset?_ofNat required withDefault
  withDefault_nullable?)

variable {codec : Codec}

/-! ## Configurations -/

theorem Config.isFormOf_toJson {config : Config} (h : config.maxLength ≤ maxOffset) :
    IsFormOf ofJson? config.toJson config where
  plain := .ofMembers (by simp) (by simp [h])
  decoded := by
    have hfields : config.toJson.fields?
        ["marker", "max_mention_len", "guard_body_chars_only", "trailing_space_guard"] =
          some [some (.ofText [config.marker]), some (.ofNat config.maxLength),
            some (.bool config.guardBodyOnly), some (.bool config.guardTrailingSpace)] :=
      fields?_ofMembers (by simp) _
    rw [ofJson?, hfields]
    simp only [Option.bind_eq_bind, Option.bind_some, withDefault, offset?_ofNat h]
    rfl

/-- A configuration is accepted or refused from its text as it is itself. -/
theorem Config.ofText_write {config : Config} (hcodec : codec.ReadsBack)
    (h : config.maxLength ≤ maxOffset) :
    ofText (codec.write config.toJson) codec = config.validate.map fun _ => config := by
  rw [ofText, (isFormOf_toJson h).decode?_write hcodec]
  cases hvalid : config.validate <;> simp only [hvalid, Except.map]

/-! ## Key presses and intents -/

theorem Modifiers.isFormOf_toJson (m : Modifiers) : IsFormOf ofJson? m.toJson m where
  plain := .ofMembers (by simp) (by simp)
  decoded := by
    have hfields : m.toJson.fields? ["ctrl", "meta"] =
        some [some (.bool m.ctrl), some (.bool m.command)] := fields?_ofMembers (by simp) _
    rw [ofJson?, hfields]
    rfl

theorem KeyEvent.isFormOf_toJson (e : KeyEvent) : IsFormOf ofJson? e.toJson e where
  plain := .ofMembers (by simp) (by simp)
  decoded := by
    have hfields : e.toJson.fields? ["key", "ctrl", "meta"] =
        some [some (.ofText e.key), some (.bool e.mods.ctrl), some (.bool e.mods.command)] :=
      fields?_ofMembers (by simp) _
    rw [ofJson?, hfields]
    rfl

/-- An object with one member more, in front of the others. -/
def Json.tagged (name : String) (tag : Json) : (j : Json) → Json
  | .object members => .object ((some name.toList, tag) :: members)
  | j => j

namespace Intent

/-- An intent is read by the kind that one of its members names, from its other members. -/
theorem ofJson?_object {kind : Text} {members : List (Option Text × Json)}
    (hread : (Json.object members).isReadable = true)
    (hdepth : (Json.object members).depth ≤ Json.maxDepth)
    (hkind : Json.member? members "kind" = some (some (.ofText kind))) :
    ofJson? (.object members) =
      ofKind? kind (.object (members.filter fun m => m.1 ≠ some "kind".toList)) := by
  rw [ofJson?, if_pos (by simp [hread, hdepth])]
  simp only [hkind]
  rfl

theorem ofJson?_ofMembers {kind : Text} {ms : List (String × Json)}
    (hnames : ((("kind", Json.ofText kind) :: ms).map Prod.fst).Nodup)
    (hflat : ∀ m ∈ ms, m.2.isReadable = true ∧ m.2.depth = 0) :
    ofJson? (.ofMembers (("kind", .ofText kind) :: ms)) = ofKind? kind (.ofMembers ms) := by
  have hall : ∀ m ∈ ("kind", Json.ofText kind) :: ms, m.2.isReadable = true ∧ m.2.depth = 0 :=
    List.forall_mem_cons.2 ⟨⟨rfl, rfl⟩, hflat⟩
  obtain ⟨hread, hdepth⟩ := Json.readable_ofMembers hall
  have hkind := Json.member?_of_nodup hnames "kind"
  have hothers : (ms.map fun (name, j) => (some name.toList, j)).filter
      (fun m => m.1 ≠ some "kind".toList) = ms.map fun (name, j) => (some name.toList, j) := by
    refine List.filter_eq_self.2 fun m hm => decide_eq_true ?_
    obtain ⟨⟨name, j⟩, hmem, rfl⟩ := List.mem_map.1 hm
    intro heq
    obtain rfl : name = "kind" := String.toList_inj.1 (Option.some.inj heq)
    exact (List.nodup_cons.1 hnames).1 (List.mem_map.2 ⟨_, hmem, rfl⟩)
  refine (ofJson?_object hread (by rw [← Json.ofMembers, hdepth]; decide) hkind).trans ?_
  rw [List.map_cons, List.filter_cons_of_neg (by simp), hothers]
  rfl

/-- An intent with modifiers has their form with its kind beside them. -/
theorem isFormOf_tagged (kind : String) (m : Modifiers) {i : Intent}
    (h : ofKind? kind.toList m.toJson = some i) :
    IsFormOf ofJson? (.tagged "kind" (.ofText kind.toList) m.toJson) i := by
  have hform : .tagged "kind" (.ofText kind.toList) m.toJson = modifiedJson kind m := rfl
  rw [hform]
  exact ⟨.ofMembers (by simp) (by simp),
    (ofJson?_ofMembers (by simp) (by simp [Json.isReadable, Json.depth])).trans h⟩

theorem isFormOf_toJson (i : Intent) : IsFormOf ofJson? i.toJson i := by
  have hmods (m : Modifiers) := m.isFormOf_toJson.decoded
  cases i with
  | moveLeft m =>
    exact isFormOf_tagged "move_left" m (congrArg (Option.map moveLeft) (hmods m))
  | moveRight m =>
    exact isFormOf_tagged "move_right" m (congrArg (Option.map moveRight) (hmods m))
  | deleteBackward m =>
    exact isFormOf_tagged "delete_backward" m (congrArg (Option.map deleteBackward) (hmods m))
  | deleteForward m =>
    exact isFormOf_tagged "delete_forward" m (congrArg (Option.map deleteForward) (hmods m))
  | moveHome => exact ⟨.ofMembers (by simp) (by simp), ofJson?_ofMembers (by simp) (by simp)⟩
  | moveEnd => exact ⟨.ofMembers (by simp) (by simp), ofJson?_ofMembers (by simp) (by simp)⟩
  | insertChar c =>
    have hflat : ∀ m ∈ [("ch", Json.ofText [c])], m.2.isReadable = true ∧ m.2.depth = 0 :=
      List.forall_mem_singleton.2 ⟨rfl, rfl⟩
    exact ⟨.ofMembers (by simp) (by simp), ofJson?_ofMembers (by simp) hflat⟩

end Intent

/-! ## Outcomes and edits -/

/-- The fields of an outcome's form. -/
theorem Outcome.fields?_toJson (o : Outcome) :
    o.toJson.fields? ["intercepted", "new_cursor", "new_buffer"] =
      some [some (.bool o.intercepted), o.cursor?.map .ofNat, o.buffer?.map .ofText] := by
  obtain ⟨intercepted, cursor?, buffer?⟩ := o
  cases cursor? <;> cases buffer? <;> exact fields?_ofMembers (by simp [Json.optionalMember]) _

theorem Outcome.isPlain_toJson {o : Outcome} (h : ∀ n ∈ o.cursor?, n ≤ maxOffset) :
    IsPlain Json.maxDepth o.toJson := by
  obtain ⟨intercepted, cursor?, buffer?⟩ := o
  refine .ofMembers ?_ (List.forall_mem_append.2 ⟨List.forall_mem_cons.2 ⟨.bool _, ?_⟩, ?_⟩)
  · cases cursor? <;> cases buffer? <;> simp [Json.optionalMember]
  · exact Json.isPlain_of_mem_optionalMember (fun n hn => .ofNat (h n hn)) _
  · exact Json.isPlain_of_mem_optionalMember (fun t _ => .ofText t) _

theorem Outcome.isFormOf_toJson {o : Outcome} (h : ∀ n ∈ o.cursor?, n ≤ maxOffset) :
    IsFormOf ofJson? o.toJson o where
  plain := isPlain_toJson h
  decoded := by
    have hcursor : withDefault (Json.nullable? Json.offset?) none (o.cursor?.map .ofNat) =
        some o.cursor? := withDefault_nullable? nofun fun n hn => offset?_ofNat (h n hn)
    have hbuffer : withDefault (Json.nullable? Json.text?) none (o.buffer?.map .ofText) =
        some o.buffer? := withDefault_nullable? nofun fun _ _ => rfl
    rw [ofJson?, fields?_toJson]
    simp only [Option.bind_eq_bind, Option.bind_some, hcursor, hbuffer]
    rfl

theorem Edit.isFormOf_toJson {e : Edit} (h : e.cursor ≤ maxOffset) :
    IsFormOf ofJson? e.toJson e where
  plain := .ofMembers (by simp) (by simp [h])
  decoded := by
    have hfields : e.toJson.fields? ["buffer", "cursor", "applied"] =
        some [some (.ofText e.buffer), some (.ofNat e.cursor), some (.bool e.applied)] :=
      fields?_ofMembers (by simp) _
    rw [ofJson?, hfields]
    simp only [Option.bind_eq_bind, Option.bind_some, required, offset?_ofNat h]
    rfl

/-! ## Spans and segments -/

theorem Span.isPlain_toJson {s : Span} {d : Nat} (hstart : s.start ≤ maxOffset)
    (hstop : s.stop ≤ maxOffset) : IsPlain (d + 1) s.toJson :=
  .ofMembers (by simp) (by simp [hstart, hstop])

theorem Span.isFormOf_toJson {s : Span} (hstart : s.start ≤ maxOffset)
    (hstop : s.stop ≤ maxOffset) : IsFormOf ofJson? s.toJson s where
  plain := isPlain_toJson hstart hstop
  decoded := by
    have hfields : s.toJson.fields? ["start", "end", "text"] =
        some [some (.ofNat s.start), some (.ofNat s.stop), some (.ofText s.text)] :=
      fields?_ofMembers (by simp) _
    rw [ofJson?, hfields]
    simp only [Option.bind_eq_bind, Option.bind_some, required, offset?_ofNat hstart,
      offset?_ofNat hstop]
    rfl

namespace Overlay

theorem SegmentKind.isFormOf_toJson (k : SegmentKind) : IsFormOf ofJson? k.toJson k := by
  cases k <;> exact ⟨.ofText _, by decide⟩

/-- The fields of a segment's form. -/
theorem Segment.fields?_toJson (s : Segment) :
    s.toJson.fields? ["kind", "content", "start", "end", "span"] =
      some [some s.kind.toJson, some (.ofText s.content), some (.ofNat s.start),
        some (.ofNat s.stop), s.span?.map Span.toJson] := by
  obtain ⟨kind, content, start, stop, span?⟩ := s
  cases span? <;> exact fields?_ofMembers (by simp [Json.optionalMember]) _

theorem Segment.isPlain_toJson {s : Segment} (hstart : s.start ≤ maxOffset)
    (hstop : s.stop ≤ maxOffset)
    (hspan : ∀ span ∈ s.span?, span.start ≤ maxOffset ∧ span.stop ≤ maxOffset) :
    IsPlain Json.maxDepth s.toJson := by
  obtain ⟨kind, content, start, stop, span?⟩ := s
  refine .ofMembers ?_ (List.forall_mem_append.2 ⟨?_, ?_⟩)
  · cases span? <;> simp [Json.optionalMember]
  · simp only [List.forall_mem_cons]
    exact ⟨.ofText _, .ofText _, .ofNat hstart, .ofNat hstop, nofun⟩
  · refine Json.isPlain_of_mem_optionalMember (fun span hs => ?_) _
    exact Span.isPlain_toJson (hspan span hs).1 (hspan span hs).2

theorem Segment.isFormOf_toJson {s : Segment} (hstart : s.start ≤ maxOffset)
    (hstop : s.stop ≤ maxOffset)
    (hspan : ∀ span ∈ s.span?, span.start ≤ maxOffset ∧ span.stop ≤ maxOffset) :
    IsFormOf ofJson? s.toJson s where
  plain := isPlain_toJson hstart hstop hspan
  decoded := by
    have hoptional : withDefault (Json.nullable? Span.ofJson?) none (s.span?.map Span.toJson) =
        some s.span? := withDefault_nullable? nofun fun span hs =>
      (Span.isFormOf_toJson (hspan span hs).1 (hspan span hs).2).decoded
    rw [ofJson?, fields?_toJson]
    simp only [Option.bind_eq_bind, Option.bind_some, required, s.kind.isFormOf_toJson.decoded,
      offset?_ofNat hstart, offset?_ofNat hstop, hoptional]
    rfl

end Overlay

/-! ## All forms -/

/-- Over any codec that reads back what it writes, the text of every form is read as the value that
was written, if its offsets fit into 64 bits, and a configuration's text is accepted or refused as
the configuration is. An intent with modifiers has the form of these with the name of its kind
beside them. The cursor and buffer of an outcome and the span of a segment are members of the text
exactly where there is one. -/
theorem forms_decode_back (codec : Codec) (hcodec : codec.ReadsBack) :
    (∀ config : Config, config.maxLength ≤ maxOffset →
      codec.decode? Config.ofJson? (codec.write config.toJson) = some config ∧
      (config.validate = .ok () →
        Config.ofText (codec.write config.toJson) codec = .ok config) ∧
      ∀ e, config.validate = .error e →
        Config.ofText (codec.write config.toJson) codec = .error e) ∧
    (∀ m : Modifiers,
      codec.decode? Modifiers.ofJson? (codec.write m.toJson) = some m ∧
      ∀ p ∈ [(Intent.moveLeft m, "move_left"), (Intent.moveRight m, "move_right"),
          (Intent.deleteBackward m, "delete_backward"), (Intent.deleteForward m, "delete_forward")],
        p.1.toJson = .tagged "kind" (.ofText p.2.toList) m.toJson) ∧
    (∀ i : Intent, codec.decode? Intent.ofJson? (codec.write i.toJson) = some i) ∧
    (∀ e : KeyEvent, codec.decode? KeyEvent.ofJson? (codec.write e.toJson) = some e) ∧
    (∀ o : Outcome, (∀ n ∈ o.cursor?, n ≤ maxOffset) →
      codec.decode? Outcome.ofJson? (codec.write o.toJson) = some o ∧
      codec.read (codec.write o.toJson) =
        some (.ofMembers ([("intercepted", .bool o.intercepted)] ++
          (o.cursor?.map fun n => ("new_cursor", .ofNat n)).toList ++
          (o.buffer?.map fun t => ("new_buffer", .ofText t)).toList))) ∧
    (∀ e : Edit, e.cursor ≤ maxOffset →
      codec.decode? Edit.ofJson? (codec.write e.toJson) = some e) ∧
    (∀ s : Span, s.start ≤ maxOffset → s.stop ≤ maxOffset →
      codec.decode? Span.ofJson? (codec.write s.toJson) = some s) ∧
    ∀ s : Overlay.Segment, s.start ≤ maxOffset → s.stop ≤ maxOffset →
      (∀ span ∈ s.span?, span.start ≤ maxOffset ∧ span.stop ≤ maxOffset) →
      codec.decode? Overlay.Segment.ofJson? (codec.write s.toJson) = some s ∧
      codec.read (codec.write s.toJson) =
        some (.ofMembers ([("kind", s.kind.toJson), ("content", .ofText s.content),
          ("start", .ofNat s.start), ("end", .ofNat s.stop)] ++
          (s.span?.map fun span => ("span", span.toJson)).toList)) := by
  refine ⟨?config, ?modifiers, ?intent, ?press, ?outcome, ?edit, ?span, ?segment⟩
  case config =>
    intro config h
    have htext := Config.ofText_write hcodec h
    refine ⟨(Config.isFormOf_toJson h).decode?_write hcodec, fun hvalid => ?_, fun e hvalid => ?_⟩
    · rw [htext, hvalid]
      rfl
    · rw [htext, hvalid]
      rfl
  case modifiers =>
    intro m
    refine ⟨m.isFormOf_toJson.decode?_write hcodec, ?_⟩
    simp only [List.forall_mem_cons]
    exact ⟨rfl, rfl, rfl, rfl, nofun⟩
  case intent => exact fun i => i.isFormOf_toJson.decode?_write hcodec
  case press => exact fun e => e.isFormOf_toJson.decode?_write hcodec
  case outcome =>
    intro o h
    refine ⟨(Outcome.isFormOf_toJson h).decode?_write hcodec, ?_⟩
    rw [hcodec _ (Outcome.isPlain_toJson h), Outcome.toJson, Json.optionalMember_map,
      Json.optionalMember_map]
    rfl
  case edit => exact fun e h => (Edit.isFormOf_toJson h).decode?_write hcodec
  case span =>
    exact fun s hstart hstop => (Span.isFormOf_toJson hstart hstop).decode?_write hcodec
  case segment =>
    intro s hstart hstop hspan
    refine ⟨(Overlay.Segment.isFormOf_toJson hstart hstop hspan).decode?_write hcodec, ?_⟩
    rw [hcodec _ (Overlay.Segment.isPlain_toJson hstart hstop hspan), Overlay.Segment.toJson,
      Json.optionalMember_map]

/-- The library's own codec reads back what it writes. A segment with a quote, a control character
and a pictograph is read back with the greatest offset within it, a configuration is refused from
its text for its marker, and an outcome without a cursor is written with its other members only. -/
theorem forms_decode_back_extreme :
    Codec.standard.ReadsBack ∧
    Codec.standard.decode? Overlay.Segment.ofJson? (Codec.standard.write (Overlay.Segment.toJson
      ⟨.mention, "\"\x00😀".toList, 0, maxOffset, some ⟨0, maxOffset, "@a".toList⟩⟩)) =
        some ⟨.mention, "\"\x00😀".toList, 0, maxOffset, some ⟨0, maxOffset, "@a".toList⟩⟩ ∧
    Config.ofText (Codec.standard.write (Config.toJson ⟨'a', maxOffset, true, false⟩)) .standard =
      .error (.invalidMarker 'a') ∧
    Config.ofText (Codec.standard.write (Config.toJson ⟨'@', 2, true, false⟩)) .standard =
      .ok ⟨'@', 2, true, false⟩ ∧
    Codec.standard.write (Outcome.toJson ⟨true, none, some "a\n".toList⟩) =
      "\x7b\"intercepted\":true,\"new_buffer\":\"a\\n\"\x7d".toList ∧
    Codec.standard.decode? Outcome.ofJson?
      (Codec.standard.write (Outcome.toJson ⟨true, none, some "a\n".toList⟩)) =
        some ⟨true, none, some "a\n".toList⟩ := by
  obtain ⟨hconfig, -, -, -, houtcome, -, -, hsegment⟩ :=
    forms_decode_back .standard Codec.standard_readsBack
  obtain ⟨-, -, hrefused⟩ := hconfig ⟨'a', maxOffset, true, false⟩ (by decide)
  obtain ⟨-, haccepted, -⟩ := hconfig ⟨'@', 2, true, false⟩ (by decide)
  refine ⟨Codec.standard_readsBack, ?_, hrefused _ (by decide), haccepted (by decide), by decide,
    (houtcome ⟨true, none, some "a\n".toList⟩ nofun).1⟩
  exact (hsegment _ (by decide) (by decide) (by simp [maxOffset])).1

end Mentions
