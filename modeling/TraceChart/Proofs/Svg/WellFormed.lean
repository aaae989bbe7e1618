import TraceChart.Proofs.Chart.Assembly
import TraceChart.Proofs.Chart.Room
import TraceChart.Proofs.Number.Letters
import TraceChart.Proofs.Svg.Grammar
import TraceChart.Proofs.Trace.Acceptance

/-!
# Charts are well formed

The document of a chart is well formed but for the characters of the names of its tracks: whatever a
name is, nothing in it closes or opens a tag, since the characters that mark tags up are written as
references. All others are written as they are. So a chart is a well-formed document if all names
keep to the characters that documents may have, and, as each track has a group with its name, it is
none if one of them does not.
-/

namespace TraceChart.Svg

open Xml (isChar isName Data Content Document)

/-! ### Texts -/

/-- A text whose characters are all allowed. -/
def Clean (allowed : Char → Prop) (text : String) : Prop :=
  ∀ char ∈ text.toList, allowed char

section Markup

variable {allowed : Char → Prop}

theorem Clean.append {left right : String} (first : Clean allowed left)
    (second : Clean allowed right) : Clean allowed (left ++ right) := by
  rw [Clean, String.toList_append, List.forall_mem_append]
  exact ⟨first, second⟩

/-- What is excluded from data is written as a reference, so only characters that are not allowed
could keep a text from being data. -/
theorem data_escape {excluded : List Char}
    (special : excluded.all (['&', '<', '>', '"', '\''].contains ·) = true) {text : List Char}
    (clean : ∀ char ∈ text, allowed char) : Data allowed excluded (escape text) := by
  induction text with
  | nil => exact .nil
  | cons char text ih =>
    obtain ⟨first, later⟩ := List.forall_mem_cons.mp clean
    have rest := ih later
    have split : escape (char :: text) = escapeChar char ++ escape text := rfl
    rw [split]
    -- One of the five characters becomes a reference, any other character stays what it is.
    by_cases marked : char ∈ ['&', '<', '>', '"', '\'']
    · simp only [List.mem_cons, List.not_mem_nil, or_false] at marked
      rcases marked with rfl | rfl | rfl | rfl | rfl
      · exact .reference (show "amp" ∈ Xml.entities by decide) rest
      · exact .reference (show "lt" ∈ Xml.entities by decide) rest
      · exact .reference (show "gt" ∈ Xml.entities by decide) rest
      · exact .reference (show "quot" ∈ Xml.entities by decide) rest
      · exact .reference (show "apos" ∈ Xml.entities by decide) rest
    · rw [escapeChar_of_plain marked]
      exact .char first (fun member => marked (List.contains_iff_mem.mp
        (List.all_eq_true.mp special char member))) rest

/-! ### Markup -/

/-- An attribute as it is written. -/
def Attribute.entry (given : Attribute) : Xml.Attribute :=
  ⟨given.name.toList, escape given.value.toList⟩

/-- Markup that is written as what may stand inside an element. -/
def Written (allowed : Char → Prop) (markup : List Markup) : Prop :=
  Content allowed (markup.flatMap Markup.chars)

theorem Written.nil : Written allowed [] :=
  Content.nil

theorem Written.append {left right : List Markup} (first : Written allowed left)
    (second : Written allowed right) : Written allowed (left ++ right) := by
  rw [Written, List.flatMap_append]
  exact Content.append first second

theorem Written.flatMap {δ : Type} {items : List δ} {write : δ → List Markup}
    (each : ∀ item ∈ items, Written allowed (write item)) :
    Written allowed (items.flatMap write) := by
  induction items with
  | nil => exact .nil
  | cons item items ih =>
    obtain ⟨first, later⟩ := List.forall_mem_cons.mp each
    exact first.append (ih later)

theorem written_text {content : String} (clean : Clean allowed content) :
    Written allowed [.text content] :=
  .data (data_escape rfl clean) .nil

section Tags

variable {name : String} {attributes : List Attribute}

/-- Whether a tag is one depends on the names in it, while its values only need allowed characters.
-/
theorem tag_of_names (names : List String) (named : isName name.toList = true)
    (listed : attributes.map Attribute.name = names)
    (keyed : names.all (fun key => isName key.toList) = true) (distinct : names.Nodup)
    (clean : ∀ given ∈ attributes, Clean allowed given.value) :
    Xml.Tag allowed name.toList (attributes.map Attribute.entry) where
  named := named
  keyed := by
    rw [List.forall_mem_map]
    intro given member
    refine List.all_eq_true.mp keyed given.name ?_
    rw [← listed]
    exact List.mem_map_of_mem member
  distinct := by
    have keys : (attributes.map Attribute.entry).map Xml.Attribute.name =
        names.map String.toList := by
      rw [← listed, List.map_map, List.map_map]
      rfl
    rw [keys]
    exact distinct.map fun _ _ => String.toList_inj.mp
  values := by
    rw [List.forall_mem_map]
    exact fun given member => data_escape rfl (clean given member)

theorem attributeChars_eq (given : Attribute) :
    Markup.attributeChars given = given.entry.chars := by
  simp [Markup.attributeChars, Xml.Attribute.chars, Attribute.entry]

theorem chars_front :
    '<' :: name.toList ++ attributes.flatMap Markup.attributeChars =
      Xml.front name.toList (attributes.map Attribute.entry) := by
  rw [Xml.front, List.flatMap_map, funext attributeChars_eq]
  rfl

theorem written_empty (tag : Xml.Tag allowed name.toList (attributes.map Attribute.entry)) :
    Written allowed [.empty name attributes] := by
  have content := Content.empty tag .nil
  rw [← chars_front] at content
  simpa [Written, Markup.chars] using content

theorem written_element (tag : Xml.Tag allowed name.toList (attributes.map Attribute.entry))
    {inside : List Markup} (within : Written allowed inside) :
    Written allowed ([.start name attributes] ++ inside ++ [.finish name]) := by
  have content := Content.element tag within .nil
  rw [← chars_front] at content
  simpa [Written, Markup.chars, Xml.endTag] using content

theorem document_of_written (tag : Xml.Tag allowed name.toList (attributes.map Attribute.entry))
    {inside : List Markup} (within : Written allowed inside) :
    Document allowed
      (Markup.write ([.start name attributes] ++ inside ++ [.finish name])).toList := by
  refine ⟨_, _, _, tag, within, ?_⟩
  rw [← chars_front, Markup.write, String.toList_ofList]
  simp [Markup.chars, Xml.endTag]

end Tags

theorem written_title {hover : Option String}
    (clean : ∀ text ∈ hover.toList, Clean allowed text) : Written allowed (titleMarkup hover) := by
  cases hover with
  | none => exact .nil
  | some text =>
    have tag : Xml.Tag allowed "title".toList (([] : List Attribute).map Attribute.entry) :=
      tag_of_names [] rfl rfl rfl List.nodup_nil (List.forall_mem_nil _)
    exact written_element tag (written_text (clean text (by simp)))

end Markup

/-! ### Commands -/

section Commands

variable {allowed : Char → Prop} (known : ∀ char, isChar char = true → allowed char)
include known

theorem clean_of_isChar {text : String} (each : text.toList.all isChar = true) :
    Clean allowed text :=
  Xml.all_of_isChar known each

theorem clean_of_isNumeric {text : String} (numeric : isNumeric text.toList = true) :
    Clean allowed text := by
  have letters : numberLetters.all isChar = true := rfl
  refine clean_of_isChar known (List.all_eq_true.mpr fun char member => ?_)
  have letter := List.all_eq_true.mp numeric char member
  exact List.all_eq_true.mp letters char (List.contains_iff_mem.mp letter)

theorem clean_number (name : String) (value : Binary64) :
    Clean allowed (number name value).value :=
  clean_of_isNumeric known (isNumeric_plainText value)

theorem clean_color (theme : Theme) (token : Token) : Clean allowed (theme.color token) := by
  refine clean_of_isChar known ?_
  cases theme <;> cases token <;> rfl

theorem clean_paint (theme : Theme) {paint : Paint}
    (clean : ∀ text ∈ paint.texts, Clean allowed text) :
    Clean allowed (theme.paint paint) := by
  cases paint with
  | token token => exact clean_color known theme token
  | named name => exact clean name (List.mem_singleton_self name)

theorem clean_inkOn (theme : Theme) (fill : Paint) : Clean allowed (theme.inkOn fill) := by
  cases fill with
  | token token => exact clean_color known theme .textPrimary
  | named name =>
    rw [Theme.inkOn]
    split <;> exact clean_of_isChar known rfl

/-- A label is cut before anything is written, and the ellipsis is a character like others. -/
theorem clean_cutLabel {label : String} (clean : Clean allowed label) (capacity : Nat) :
    Clean allowed (cutLabel label capacity) := by
  unfold cutLabel
  split
  · rw [Clean, String.toList_ofList, List.forall_mem_append]
    exact ⟨fun char member => clean char (List.mem_of_mem_take member),
      Xml.all_of_isChar known rfl⟩
  · exact clean

theorem written_label (theme : Theme) (rect : Rect Binary64) (fill : Paint) {label : Option String}
    (clean : ∀ text ∈ label.toList, Clean allowed text) :
    Written allowed (label.elim [] (labelMarkup theme rect fill)) := by
  cases label with
  | none => exact .nil
  | some text =>
    simp only [Option.elim, labelMarkup]
    -- In a narrow rectangle there is no label at all.
    split
    · refine written_element (tag_of_names ["x", "y", "fill", "style"] rfl rfl rfl (by decide) ?_)
        (written_text (clean_cutLabel known (clean text (by simp)) _))
      simp only [List.forall_mem_cons]
      exact ⟨clean_number known _ _, clean_number known _ _, clean_inkOn known theme fill,
        clean_of_isChar known rfl, List.forall_mem_nil _⟩
    · exact .nil

theorem written_rect (theme : Theme) (rect : Rect Binary64) {fill : Paint} (border : Option Token)
    {hover : Option String} (filled : ∀ text ∈ fill.texts, Clean allowed text)
    (titled : ∀ text ∈ hover.toList, Clean allowed text) :
    Written allowed ([.start "rect"
      ([number "x" rect.x, number "y" rect.y, number "width" rect.width,
        number "height" rect.height, ⟨"fill", theme.paint fill⟩] ++
          borderAttributes theme border)] ++
      titleMarkup hover ++ [.finish "rect"]) := by
  have bounds : ∀ given ∈ [number "x" rect.x, number "y" rect.y, number "width" rect.width,
      number "height" rect.height, ⟨"fill", theme.paint fill⟩], Clean allowed given.value := by
    simp only [List.forall_mem_cons]
    exact ⟨clean_number known _ _, clean_number known _ _, clean_number known _ _,
      clean_number known _ _, clean_paint known theme filled, List.forall_mem_nil _⟩
  refine written_element ?_ (written_title titled)
  cases border with
  | none =>
    refine tag_of_names ["x", "y", "width", "height", "fill"] rfl rfl rfl (by decide) ?_
    rw [List.forall_mem_append]
    exact ⟨bounds, List.forall_mem_nil _⟩
  | some edge =>
    refine tag_of_names ["x", "y", "width", "height", "fill", "stroke", "stroke-width"] rfl rfl rfl
      (by decide) ?_
    rw [List.forall_mem_append, borderAttributes]
    refine ⟨bounds, ?_⟩
    simp only [List.forall_mem_cons]
    exact ⟨clean_color known theme edge, clean_of_isChar known rfl, List.forall_mem_nil _⟩

/-- A command that is no part of a group is written as elements of its own. -/
theorem written_command (theme : Theme) {command : Command Binary64}
    (plain : command.isGroup = false) (clean : ∀ text ∈ command.texts, Clean allowed text) :
    Written allowed (markup theme command) := by
  cases command with
  | rect rect fill border label hover =>
    simp only [Command.texts, List.forall_mem_append] at clean
    obtain ⟨⟨filled, labelled⟩, titled⟩ := clean
    exact (written_rect known theme rect border filled titled).append
      (written_label known theme rect fill labelled)
  | text position text color size align =>
    obtain ⟨shown, colored⟩ := List.forall_mem_cons.mp clean
    refine written_element (tag_of_names ["x", "y", "fill", "font-size", "text-anchor"] rfl rfl rfl
      (by decide) ?_) (written_text shown)
    simp only [List.forall_mem_cons]
    refine ⟨clean_number known _ _, clean_number known _ _, clean_paint known theme colored,
      clean_number known _ _, clean_of_isChar known ?_, List.forall_mem_nil _⟩
    cases align <;> rfl
  | line start finish color width =>
    refine written_empty (tag_of_names ["x1", "y1", "x2", "y2", "stroke", "stroke-width"] rfl rfl
      rfl (by decide) ?_)
    simp only [List.forall_mem_cons]
    exact ⟨clean_number known _ _, clean_number known _ _, clean_number known _ _,
      clean_number known _ _, clean_color known theme color, clean_number known _ _,
      List.forall_mem_nil _⟩
  | beginGroup id label => cases plain
  | endGroup => cases plain

theorem written_row (theme : Theme) {track : Track Binary64} {row : List (Command Binary64)}
    (owns : track.Owns row) (named : Clean allowed track.name)
    (clean : ∀ interval ∈ track.intervals, ∀ text ∈ interval.texts, Clean allowed text) :
    Written allowed (row.flatMap (markup theme)) := by
  obtain ⟨body, rfl, within⟩ := owns
  have group : Xml.Tag allowed "g".toList ([⟨"id", track.groupId⟩].map Attribute.entry) := by
    refine tag_of_names ["id"] rfl rfl rfl (List.nodup_singleton _) ?_
    exact List.forall_mem_singleton.mpr ((clean_of_isChar known rfl).append named)
  have inside : Written allowed (body.flatMap (markup theme)) := by
    refine .flatMap fun command member => ?_
    obtain ⟨plain, texts⟩ := within command member
    refine written_command known theme plain fun text shown => ?_
    rcases texts text shown with rfl | ⟨interval, included, listed⟩
    · exact named
    · exact clean interval included text listed
  rw [List.flatMap_append, List.flatMap_cons]
  exact written_element group inside

theorem written_ruler (theme : Theme) {ruler : List (Command Binary64)}
    (labelled : ∀ command ∈ ruler, command.Within (Ruler.Labels Binary64)) :
    Written allowed (ruler.flatMap (markup theme)) := by
  refine .flatMap fun command member => ?_
  obtain ⟨plain, texts⟩ := labelled command member
  refine written_command known theme plain fun text shown => ?_
  obtain ⟨places, number, rfl⟩ := texts text shown
  have digits := clean_of_isNumeric known (number.isNumeric_fixed places)
  exact digits.append (clean_of_isChar known rfl)

/-- A document is well formed if what is written between its background and its end is. -/
theorem document_of_commands (theme : Theme) (width height : Binary64)
    {commands : List (Command Binary64)}
    (written : Written allowed (commands.flatMap (markup theme))) :
    Document allowed (document theme width height commands).toList := by
  have size (number : Binary64) : Clean allowed (Scalar.plainText number) :=
    clean_of_isNumeric known (isNumeric_plainText number)
  have origin : Clean allowed "0 0 " := clean_of_isChar known rfl
  have blank : Clean allowed " " := clean_of_isChar known rfl
  have frame : Xml.Tag allowed "svg".toList ([⟨"xmlns", "http://www.w3.org/2000/svg"⟩,
      ⟨"viewBox", s!"0 0 {Scalar.plainText width} {Scalar.plainText height}"⟩,
      ⟨"width", Scalar.plainText width⟩, ⟨"height", Scalar.plainText height⟩,
      ⟨"style", "font-family:system-ui,-apple-system,sans-serif;font-size:11px"⟩].map
        Attribute.entry) := by
    refine tag_of_names ["xmlns", "viewBox", "width", "height", "style"] rfl rfl rfl (by decide) ?_
    simp only [List.forall_mem_cons]
    exact ⟨clean_of_isChar known rfl,
      ((origin.append (size width)).append blank).append (size height), size width, size height,
      clean_of_isChar known rfl, List.forall_mem_nil _⟩
  have ground : Xml.Tag allowed "rect".toList ([⟨"width", Scalar.plainText width⟩,
      ⟨"height", Scalar.plainText height⟩, ⟨"fill", theme.color .background⟩].map
        Attribute.entry) := by
    refine tag_of_names ["width", "height", "fill"] rfl rfl rfl (by decide) ?_
    simp only [List.forall_mem_cons]
    exact ⟨size width, size height, clean_color known theme .background, List.forall_mem_nil _⟩
  exact document_of_written frame ((written_empty ground).append written)

/-- The parts of a drawing are written one after the other. -/
theorem written_parts (theme : Theme) {tracks : List (Track Binary64)}
    {commands ruler : List (Command Binary64)} {rows : List (List (Command Binary64))}
    (parts : Chart.Parts tracks commands rows ruler)
    (named : ∀ track ∈ tracks, Clean allowed track.name)
    (clean : ∀ track ∈ tracks, ∀ interval ∈ track.intervals, ∀ text ∈ interval.texts,
      Clean allowed text) :
    Written allowed (commands.flatMap (markup theme)) := by
  have listed : Written allowed (rows.flatten.flatMap (markup theme)) := by
    rw [List.flatten_eq_flatMap, List.flatMap_assoc]
    refine .flatMap fun row member => ?_
    obtain ⟨track, included, owns⟩ := forall₂_exists parts.owned.flip row member
    exact written_row known theme owns (named track included) (clean track included)
  rw [parts.whole, List.flatMap_append]
  exact listed.append (written_ruler known theme parts.labelled)

/-! ### Charts -/

/-- The texts of intervals are put together from the registry, which is known, and numbers. -/
theorem clean_interval {counter : Counter Binary64} {intervals : List (Interval Binary64)}
    (returned : counter.intervals .standard = .ok intervals) :
    ∀ interval ∈ intervals, ∀ text ∈ interval.texts, Clean allowed text := by
  -- The registry is a small table, so its names and colors can all be looked through.
  have markers : ∀ category : Category, ∀ marker ∈ category.markers,
      marker.name.toList.all isChar = true := by
    intro category
    cases category <;> decide +kernel
  have colors : ∀ entry ∈ Palette.standard.entries, entry.2.toList.all isChar = true := by
    decide +kernel
  obtain ⟨_, described⟩ := (Counter.intervals_ok_iff _ _ _).mp returned
  intro interval member
  obtain ⟨_, _, _, _, marker, _, _, found, _, _, _, _, label, before, after, assigned, _⟩ :=
    forall₂_exists described.flip interval member
  have labelled : Clean allowed interval.label := by
    rw [label]
    exact clean_of_isChar known (markers _ marker (Category.mem_markers found))
  have colored : Clean allowed interval.color := by
    refine clean_of_isChar known (colors (marker.name, interval.color) ?_)
    rw [assigned]
    exact List.mem_append_right _ List.mem_cons_self
  have opening : Clean allowed " [" := clean_of_isChar known rfl
  have closing : Clean allowed " s]" := clean_of_isChar known rfl
  have number := clean_of_isNumeric known (isNumeric_durationText interval.duration)
  rw [Interval.texts]
  simp only [List.forall_mem_cons]
  exact ⟨colored, labelled, ((labelled.append opening).append number).append closing,
    List.forall_mem_nil _⟩

theorem document_of_counters {counters : List (Counter Binary64)} {timeline : Timeline Binary64}
    (built : Timeline.ofCounters .standard counters = .ok timeline)
    (named : ∀ counter ∈ counters, Clean allowed counter.name) {theme : Theme} {width : Binary64}
    {text : String} (drawn : timeline.svg theme width = .ok text) :
    Document allowed text.toList := by
  obtain ⟨commands, drawing, rfl⟩ := (Timeline.svg_ok_iff _ _ _ _).mp drawn
  obtain ⟨shown, rows, ruler, initial, parts, -⟩ := Timeline.parts_of_drawing drawing
  obtain ⟨_, each⟩ := (Timeline.ofCounters_ok_iff _ _ _).mp built
  -- However many tracks are shown, each of them comes from a counter.
  have origin : ∀ track ∈ shown, ∃ counter ∈ counters, track.name = counter.name ∧
      counter.intervals .standard = .ok track.intervals :=
    fun track member => forall₂_exists each.flip track (initial.subset member)
  refine document_of_commands known theme width _ (written_parts known theme parts ?_ ?_)
  · intro track member
    obtain ⟨counter, registered, name, -⟩ := origin track member
    rw [name]
    exact named counter registered
  · intro track member
    obtain ⟨counter, -, -, returned⟩ := origin track member
    exact clean_interval known returned

end Commands

/-! ### Names in charts -/

/-- What may not stand in a document is no character with a meaning in markup, so it is written as
it is. -/
theorem mem_escape {text : List Char} {char : Char} (member : char ∈ text)
    (unknown : isChar char = false) : char ∈ escape text := by
  refine List.mem_flatMap.mpr ⟨char, member, ?_⟩
  have special : ['&', '<', '>', '"', '\''].all isChar = true := rfl
  rw [escapeChar_of_plain fun marked => ?_]
  · exact List.mem_singleton_self char
  · rw [List.all_eq_true.mp special char marked] at unknown
    cases unknown

theorem mem_document {theme : Theme} {width height : Binary64} {commands : List (Command Binary64)}
    {command : Command Binary64} (listed : command ∈ commands) {item : Markup}
    (written : item ∈ markup theme command) {char : Char} (shown : char ∈ item.chars) :
    char ∈ (document theme width height commands).toList := by
  rw [document, Markup.write, String.toList_ofList, documentMarkup]
  refine List.mem_flatMap.mpr ⟨item, List.mem_append_left _ (List.mem_append_right _ ?_), shown⟩
  exact List.mem_flatMap.mpr ⟨command, listed, written⟩

/-- A character of a name that may not stand in a document stands in it all the same. -/
theorem mem_of_parts {theme : Theme} {width height : Binary64} {tracks : List (Track Binary64)}
    {commands ruler : List (Command Binary64)} {rows : List (List (Command Binary64))}
    (parts : Chart.Parts tracks commands rows ruler) {track : Track Binary64}
    (listed : track ∈ tracks) {char : Char} (shown : char ∈ track.name.toList)
    (unknown : isChar char = false) :
    char ∈ (document theme width height commands).toList := by
  obtain ⟨row, member, body, rfl, -⟩ := forall₂_exists parts.owned track listed
  have command : Command.beginGroup track.groupId (some track.name) ∈ commands := by
    rw [parts.whole]
    exact List.mem_append_left _ (List.mem_flatten.mpr ⟨_, member, List.mem_cons_self⟩)
  have value : char ∈ track.groupId.toList := by
    rw [Track.groupId]
    exact String.toList_append ▸ List.mem_append_right _ shown
  refine mem_document command (List.mem_singleton_self _) ?_
  simp [Markup.chars, Markup.attributeChars, mem_escape value unknown]

/-- The chart of a trace that is read and built is well formed but for the characters of names. It
is a well-formed document if all characters of names are allowed, and, with a row for each of its
tracks, only then. -/
theorem wellFormed_of_counters {counters : List (Counter Binary64)} {timeline : Timeline Binary64}
    (built : Timeline.ofCounters .standard counters = .ok timeline) {theme : Theme}
    {width : Binary64} {text : String} (drawn : timeline.svg theme width = .ok text) :
    Document (fun char => isChar char = true ∨ ∃ counter ∈ counters, char ∈ counter.name.toList)
      text.toList ∧
    ((∀ counter ∈ counters, ∀ char ∈ counter.name.toList, isChar char = true) →
      Xml.WellFormed text ∧ ∀ char ∈ text.toList, isChar char = true) ∧
    (counters.length < rowLimit → Xml.WellFormed text →
      ∀ counter ∈ counters, ∀ char ∈ counter.name.toList, isChar char = true) := by
  refine ⟨?_, ?_, ?_⟩
  · exact document_of_counters (fun _ => .inl) built
      (fun counter member char shown => .inr ⟨counter, member, shown⟩) drawn
  · intro named
    have whole : Xml.WellFormed text := document_of_counters (fun _ => id) built named drawn
    exact ⟨whole, Document.all (fun _ => id) whole⟩
  · intro small whole counter member
    obtain ⟨commands, drawing, rfl⟩ := (Timeline.svg_ok_iff _ _ _ _).mp drawn
    obtain ⟨_, each⟩ := (Timeline.ofCounters_ok_iff _ _ _).mp built
    rw [each.length_eq] at small
    obtain ⟨rows, ruler, parts⟩ := Timeline.parts_of_tracks small drawing
    obtain ⟨track, listed, name, -⟩ := forall₂_exists each counter member
    rw [← name]
    intro char shown
    -- If it were not allowed, it would stand in the group of its track and so in the document.
    by_contra unknown
    exact unknown (Document.all (fun _ => id) whole char
      (mem_of_parts parts listed shown (by simpa using unknown)))

/-- A name that would open a tag, and one that would end a section. -/
theorem wellFormed_of_marked_names :
    let content := "\x7b\"A<&é\": [3, [[2, 0], [1, 1]]], \"]]>\": [3, []]\x7d".toUTF8.toList
    let counters : List (Counter Binary64) :=
      [⟨"A<&é", .computeUnit, [⟨0.0, 2⟩, ⟨1.0, 1⟩]⟩, ⟨"]]>", .computeUnit, []⟩]
    readTrace .stepwise content = .ok counters ∧
    ∃ timeline text, Timeline.ofCounters .standard counters = .ok timeline ∧
      timeline.svg .dark 100.0 = .ok text ∧ Xml.WellFormed text := by
  intro content counters
  let timeline : Timeline Binary64 :=
    ⟨[⟨"A<&é", [⟨"A<&é", 0.0, 1.0, "CU_EXECUTION", "darkviolet"⟩]⟩, ⟨"]]>", []⟩]⟩
  have built : Timeline.ofCounters .standard counters = .ok timeline := by decide +kernel
  obtain ⟨text, drawn⟩ :=
    (exists_ok_iff_isOk (timeline.svg .dark 100.0)).mpr (by decide +kernel)
  obtain ⟨-, whole, -⟩ := wellFormed_of_counters built drawn
  refine ⟨by decide +kernel, timeline, text, built, drawn, (whole ?_).1⟩
  exact List.forall_mem_cons.mpr ⟨List.all_eq_true.mp rfl,
    List.forall_mem_singleton.mpr (List.all_eq_true.mp rfl)⟩

/-- A trace can name a character that no document may hold, and its chart has that character in it.
-/
theorem svg_of_control_character :
    let content := "\x7b\"\\u0001\":\x7b\"counter type\":0\x7d\x7d".toUTF8.toList
    let counters : List (Counter Binary64) := [⟨"\x01", .system, []⟩]
    readTrace .stepwise content = .ok counters ∧
    ∃ timeline text, Timeline.ofCounters .standard counters = .ok timeline ∧
      timeline.svg .light 100.0 = .ok text ∧ '\x01' ∈ text.toList ∧ ¬Xml.WellFormed text := by
  intro content counters
  let timeline : Timeline Binary64 := ⟨[⟨"\x01", []⟩]⟩
  have built : Timeline.ofCounters .standard counters = .ok timeline := by decide +kernel
  obtain ⟨commands, drawing⟩ :=
    (exists_ok_iff_isOk (timeline.drawing 100.0)).mpr (by decide +kernel)
  obtain ⟨rows, ruler, parts⟩ := Timeline.parts_of_tracks (by decide) drawing
  have shown : '\x01' ∈
      (document .light 100.0 (Chart.height timeline.series.length) commands).toList :=
    mem_of_parts parts (List.mem_singleton_self _) (List.mem_singleton_self _) rfl
  refine ⟨by decide +kernel, timeline, _, built, ?_, shown, fun whole => ?_⟩
  · exact (Timeline.svg_ok_iff _ _ _ _).mpr ⟨commands, drawing, rfl⟩
  · cases Document.all (fun _ => id) whole '\x01' shown

end TraceChart.Svg
