import TraceChart.Proofs.Svg.Scanning

/-!
# Entities in passes

Text may be escaped in passes, each of which goes over the whole text and puts an entity in the
place of one character. A pass sees what the passes before it have written, so their order matters:
the ampersand comes first, for every entity holds one. In that order no entity is touched again, and
the passes together do what is done to each character once and by itself.
-/

namespace TraceChart.Svg

/-! ### Passes -/

/-- A pass over a text: every occurrence of a character gives way to an entity. -/
def replaceAll (char : Char) (entity : List Char) (text : List Char) : List Char :=
  text.flatMap fun other => if other = char then entity else [other]

/-- Passes over a text, one after the other. -/
def inPasses (passes : List (Char × List Char)) (text : List Char) : List Char :=
  passes.foldl (fun text (char, entity) => replaceAll char entity text) text

/-- What becomes of a character in the first pass that is for it. -/
def substitute : List (Char × List Char) → Char → List Char
  | [], char => [char]
  | (source, entity) :: passes, char =>
    if char = source then entity else substitute passes char

/-- No pass is for a character that a pass before it writes. -/
def Apart (passes : List (Char × List Char)) : Prop :=
  passes.Pairwise fun earlier later => later.1 ∉ earlier.2

theorem substitute_of_absent {passes : List (Char × List Char)} {char : Char}
    (absent : ∀ pass ∈ passes, pass.1 ≠ char) : substitute passes char = [char] := by
  induction passes with
  | nil => rfl
  | cons pass passes ih =>
    obtain ⟨other, rest⟩ := List.forall_mem_cons.mp absent
    rw [substitute, if_neg other.symm, ih rest]

/-- Passes for other characters leave a text as it is. -/
theorem flatMap_substitute_of_absent {passes : List (Char × List Char)} {text : List Char}
    (absent : ∀ pass ∈ passes, pass.1 ∉ text) : text.flatMap (substitute passes) = text := by
  have each : ∀ char ∈ text, substitute passes char = [char] := fun char member =>
    substitute_of_absent fun pass listed same => absent pass listed (same ▸ member)
  rw [List.flatMap_congr each, List.flatMap_singleton']

/-- Passes that do not touch what passes before them have written are one substitution for each
character. -/
theorem inPasses_eq_flatMap {passes : List (Char × List Char)} (apart : Apart passes)
    (text : List Char) : inPasses passes text = text.flatMap (substitute passes) := by
  induction passes generalizing text with
  | nil => exact (List.flatMap_singleton' text).symm
  | cons pass passes ih =>
    obtain ⟨untouched, rest⟩ := List.pairwise_cons.mp apart
    have later : inPasses (pass :: passes) text =
        inPasses passes (replaceAll pass.1 pass.2 text) := rfl
    rw [later, ih rest, replaceAll, List.flatMap_assoc]
    refine List.flatMap_congr fun char _ => ?_
    rw [substitute]
    split
    -- What the first pass writes is left alone by the others.
    next => exact flatMap_substitute_of_absent untouched
    next => exact List.flatMap_singleton (substitute passes) char

/-! ### The five entities -/

/-- The characters that have a meaning in markup with their entities, in the order of the passes. -/
def entities : List (Char × List Char) :=
  [('&', ['&', 'a', 'm', 'p', ';']), ('<', ['&', 'l', 't', ';']), ('>', ['&', 'g', 't', ';']),
    ('"', ['&', 'q', 'u', 'o', 't', ';']), ('\'', ['&', 'a', 'p', 'o', 's', ';'])]

theorem apart_entities : Apart entities := by
  unfold Apart entities
  decide

theorem substitute_entities (char : Char) : substitute entities char = escapeChar char := by
  by_cases special : char ∈ ['&', '<', '>', '"', '\'']
  · simp only [List.mem_cons, List.not_mem_nil, or_false] at special
    rcases special with rfl | rfl | rfl | rfl | rfl <;> rfl
  · rw [escapeChar_of_plain special]
    simp only [List.mem_cons, List.not_mem_nil, or_false, not_or] at special
    simp [entities, substitute, special]

theorem inPasses_entities (text : List Char) : inPasses entities text = escape text := by
  rw [inPasses_eq_flatMap apart_entities, escape]
  exact List.flatMap_congr fun char _ => substitute_entities char

/-! ### Escaped text -/

/-- A character stands for itself, and is none of the five, or becomes an entity, which holds none
of them but the ampersand at its front. -/
theorem escapeChar_cases (char : Char) :
    (escapeChar char = [char] ∧ char ∉ ['&', '<', '>', '"', '\'']) ∨
      ∃ tail, ('&' :: tail) ∈ entities.map Prod.snd ∧ escapeChar char = '&' :: tail ∧
        ∀ other ∈ tail, other ∉ ['&', '<', '>', '"', '\''] := by
  by_cases special : char ∈ ['&', '<', '>', '"', '\'']
  · right
    simp only [List.mem_cons, List.not_mem_nil, or_false] at special
    rcases special with rfl | rfl | rfl | rfl | rfl <;>
      exact ⟨_, by simp [entities], rfl, by simp⟩
  · exact Or.inl ⟨escapeChar_of_plain special, special⟩

theorem escape_append (left right : List Char) :
    escape (left ++ right) = escape left ++ escape right :=
  List.flatMap_append

theorem escape_cons (char : Char) (text : List Char) :
    escape (char :: text) = escapeChar char ++ escape text :=
  List.flatMap_cons

/-- Nothing that could open, close or quote a tag is left. -/
theorem not_mem_escape {char : Char} (marks : char ∈ ['<', '>', '"', '\'']) (text : List Char) :
    char ∉ escape text := by
  intro member
  obtain ⟨source, _, written⟩ := List.mem_flatMap.mp member
  have special : char ∈ ['&', '<', '>', '"', '\''] := List.mem_cons_of_mem _ marks
  rcases escapeChar_cases source with ⟨same, plain⟩ | ⟨tail, _, entity, clean⟩
  · rw [same, List.mem_singleton] at written
    exact plain (written ▸ special)
  · rw [entity] at written
    rcases List.mem_cons.mp written with rfl | behind
    · simp at marks
    · exact clean char behind special

/-- An ampersand in escaped text is the front of an entity. -/
theorem entity_of_ampersand {text before after : List Char}
    (found : escape text = before ++ '&' :: after) :
    ∃ entity ∈ entities.map Prod.snd, entity <+: '&' :: after := by
  induction text generalizing before with
  | nil => simp [escape] at found
  | cons char text ih =>
    rw [escape_cons] at found
    rcases escapeChar_cases char with ⟨same, plain⟩ | ⟨tail, listed, entity, clean⟩
    · rw [same, List.singleton_append] at found
      cases before with
      | nil =>
        obtain ⟨rfl, _⟩ := List.cons_eq_cons.mp found
        simp at plain
      | cons first before => exact ih (List.cons_eq_cons.mp found).2
    · rw [entity, List.cons_append] at found
      cases before with
      | nil => exact ⟨'&' :: tail, listed, escape text, found⟩
      | cons first before =>
        -- The rest of the entity holds no ampersand, so this one stands behind it.
        rcases List.append_eq_append_iff.mp (List.cons_eq_cons.mp found).2 with
          ⟨between, _, rest⟩ | ⟨between, split, rest⟩
        · exact ih rest
        · cases between with
          | nil => exact @ih [] rest.symm
          | cons next between =>
            obtain ⟨rfl, _⟩ := List.cons_eq_cons.mp rest
            exact absurd (by simp) (clean '&' (by simp [split]))

/-- Escaping in five passes is escaping each character once and by itself. Of the five characters
only ampersands are left, each at the front of an entity. Texts may be escaped part by part, and
what was escaped can be read off, so different texts stay different. -/
theorem escape_of_passes (text : List Char) :
    inPasses entities text = text.flatMap escapeChar ∧ inPasses entities text = escape text ∧
    (∀ char ∈ ['<', '>', '"', '\''], char ∉ escape text) ∧
    (∀ before after, escape text = before ++ '&' :: after →
      ∃ entity ∈ entities.map Prod.snd, entity <+: '&' :: after) ∧
    (∀ more, escape (text ++ more) = escape text ++ escape more) ∧
    unescape (escape text) = text ∧
    ∀ other, escape text = escape other → text = other := by
  refine ⟨inPasses_entities text, inPasses_entities text, fun _ marks => not_mem_escape marks text,
    fun _ _ found => entity_of_ampersand found, escape_append text, unescape_escape text, ?_⟩
  intro other same
  rw [← unescape_escape text, same, unescape_escape]

/-- A text that looks escaped already is escaped all the same. -/
theorem escape_of_passes_of_entity :
    inPasses entities ['<', '&', 'l', 't', ';'] =
        ['&', 'l', 't', ';', '&', 'a', 'm', 'p', ';', 'l', 't', ';'] ∧
      ∃ entity ∈ entities.map Prod.snd, entity <+: ['&', 'a', 'm', 'p', ';', 'l', 't', ';'] := by
  obtain ⟨passes, _, _, starts, _⟩ := escape_of_passes ['<', '&', 'l', 't', ';']
  exact ⟨passes, starts ['&', 'l', 't', ';'] ['a', 'm', 'p', ';', 'l', 't', ';'] rfl⟩

end TraceChart.Svg
