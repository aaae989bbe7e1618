import Mathlib
import TraceChart.Roster

/-!
# Rosters

A roster has each key once. Keys that come for the first time are put at its end, so what is put
under distinct keys stays as it is.
-/

namespace TraceChart.Roster

variable {κ δ : Type} [DecidableEq κ]

theorem keys_put (key : κ) (value : δ) (roster : Roster κ δ) :
    (put key value roster).map Prod.fst =
      if key ∈ roster.map Prod.fst then roster.map Prod.fst else roster.map Prod.fst ++ [key] := by
  induction roster with
  | nil => rfl
  | cons entry entries ih =>
    unfold put
    by_cases found : entry.1 = key
    · simp [found]
    · -- The first entry stays, so the key is put into the rest or behind it.
      have other : ¬key = entry.1 := fun same => found same.symm
      rw [if_neg found, List.map_cons, ih]
      by_cases later : key ∈ entries.map Prod.fst
      · simp [later]
      · rw [if_neg later, if_neg (by simp [other, later])]
        rfl

theorem eraseDups_concat (keys : List κ) (key : κ) :
    (keys ++ [key]).eraseDups = if key ∈ keys then keys.eraseDups else keys.eraseDups ++ [key] := by
  rw [List.eraseDups_append]
  by_cases known : key ∈ keys
  · simp [List.removeAll, known]
  · simp [List.removeAll, known, List.eraseDups_cons]

theorem put_of_notMem (key : κ) (value : δ) (roster : Roster κ δ)
    (absent : key ∉ roster.map Prod.fst) : put key value roster = roster ++ [(key, value)] := by
  induction roster with
  | nil => rfl
  | cons entry entries ih =>
    rw [List.map_cons, List.mem_cons, not_or] at absent
    rw [put, if_neg (Ne.symm absent.1), ih absent.2]
    rfl

theorem mem_put {key : κ} {value : δ} {roster : Roster κ δ} {entry : κ × δ}
    (member : entry ∈ put key value roster) : entry = (key, value) ∨ entry ∈ roster := by
  induction roster with
  | nil => exact Or.inl (List.mem_singleton.mp member)
  | cons first entries ih =>
    rw [put] at member
    split at member
    · rcases List.mem_cons.mp member with same | later
      · exact Or.inl same
      · exact Or.inr (List.mem_cons_of_mem _ later)
    · rcases List.mem_cons.mp member with same | later
      · exact Or.inr (same ▸ List.mem_cons_self)
      · rcases ih later with same | later
        · exact Or.inl same
        · exact Or.inr (List.mem_cons_of_mem _ later)

theorem mem_put_self (key : κ) (value : δ) (roster : Roster κ δ) :
    (key, value) ∈ put key value roster := by
  induction roster with
  | nil => exact List.mem_cons_self
  | cons first entries ih =>
    rw [put]
    split
    · exact List.mem_cons_self
    · exact List.mem_cons_of_mem _ ih

theorem nodup_put (key : κ) (value : δ) (roster : Roster κ δ)
    (distinct : (roster.map Prod.fst).Nodup) : ((put key value roster).map Prod.fst).Nodup := by
  rw [keys_put]
  split
  · exact distinct
  case isFalse absent =>
    exact List.nodup_append.mpr ⟨distinct, List.nodup_singleton key, by
      intro earlier member last same
      rw [List.mem_singleton] at same
      exact fun equal => absent (same ▸ equal ▸ member)⟩

theorem lookup_cons_ite [BEq κ] [LawfulBEq κ] (other : κ) (entry : κ × δ) (entries : Roster κ δ) :
    (entry :: entries).lookup other =
      if other = entry.1 then some entry.2 else entries.lookup other := by
  rw [List.lookup_cons]
  by_cases same : other = entry.1
  · rw [if_pos same, beq_iff_eq.mpr same]
  · rw [if_neg same, beq_false_of_ne same]

/-- Putting a value changes what is found under its own key and nothing else. -/
theorem lookup_put [BEq κ] [LawfulBEq κ] (key other : κ) (value : δ) (roster : Roster κ δ) :
    (put key value roster).lookup other =
      if other = key then some value else roster.lookup other := by
  induction roster with
  | nil => exact lookup_cons_ite other (key, value) []
  | cons entry entries ih =>
    rw [put]
    by_cases found : entry.1 = key
    · rw [if_pos found, lookup_cons_ite, lookup_cons_ite, found]
      by_cases same : other = key <;> simp [same]
    · rw [if_neg found, lookup_cons_ite, lookup_cons_ite, ih]
      by_cases first : other = entry.1
      · simp [first, found]
      · simp [first]

/-- A roster stays as it is under other names for its keys. -/
theorem put_map {μ : Type} [DecidableEq μ] {rename : κ → μ} (injective : rename.Injective)
    (key : κ) (value : δ) (roster : Roster κ δ) :
    put (rename key) value (roster.map (Prod.map rename id)) =
      (put key value roster).map (Prod.map rename id) := by
  induction roster with
  | nil => rfl
  | cons entry entries ih =>
    rw [List.map_cons, put, put, ih, Prod.map_fst]
    by_cases found : entry.1 = key
    · rw [if_pos found, if_pos (congrArg rename found)]
      rfl
    · rw [if_neg found, if_neg fun same => found (injective same)]
      rfl

/-! ### Many entries -/

/-- A roster after some entries have been put into it one by one. -/
def putAll (roster : Roster κ δ) (entries : List (κ × δ)) : Roster κ δ :=
  entries.foldl (fun roster (key, value) => put key value roster) roster

theorem nodup_putAll (roster : Roster κ δ) (entries : List (κ × δ))
    (distinct : (roster.map Prod.fst).Nodup) : ((putAll roster entries).map Prod.fst).Nodup := by
  induction entries generalizing roster with
  | nil => exact distinct
  | cons entry entries ih => exact ih _ (nodup_put entry.1 entry.2 roster distinct)

theorem putAll_of_nodup (roster : Roster κ δ) (entries : List (κ × δ))
    (distinct : ((roster ++ entries).map Prod.fst).Nodup) :
    putAll roster entries = roster ++ entries := by
  induction entries generalizing roster with
  | nil => exact (List.append_nil roster).symm
  | cons entry entries ih =>
    have absent : entry.1 ∉ roster.map Prod.fst := by
      rw [List.map_append, List.nodup_append] at distinct
      exact fun member => distinct.2.2 _ member _ List.mem_cons_self rfl
    have placed : put entry.1 entry.2 roster = roster ++ [entry] := put_of_notMem _ _ _ absent
    change putAll (put entry.1 entry.2 roster) entries = _
    rw [placed, ih (roster ++ [entry]) (by simpa using distinct), ← List.append_cons]

theorem putAll_map {μ : Type} [DecidableEq μ] {rename : κ → μ} (injective : rename.Injective)
    (roster : Roster κ δ) (entries : List (κ × δ)) :
    putAll (roster.map (Prod.map rename id)) (entries.map (Prod.map rename id)) =
      (putAll roster entries).map (Prod.map rename id) := by
  induction entries generalizing roster with
  | nil => rfl
  | cons entry entries ih =>
    change putAll (put (rename entry.1) entry.2 (roster.map (Prod.map rename id))) _ = _
    rw [put_map injective, ih]
    rfl

/-! ### The latest entries -/

/-- A roster of some entries: each key in the place where it came first, with the value that came
last. -/
structure Collected (entries : List (κ × δ)) (roster : Roster κ δ) : Prop where
  keys : roster.map Prod.fst = (entries.map Prod.fst).eraseDups
  latest : ∀ entry ∈ roster, ∃ before after, entries = before ++ entry :: after ∧
    entry.1 ∉ after.map Prod.fst

theorem collected_putAll (entries : List (κ × δ)) : Collected entries (putAll [] entries) := by
  induction entries using List.reverseRecOn with
  | nil => exact ⟨rfl, nofun⟩
  | append_singleton entries entry ih =>
    obtain ⟨key, value⟩ := entry
    have distinct : ((putAll [] entries).map Prod.fst).Nodup :=
      nodup_putAll [] entries List.nodup_nil
    have unfolded : putAll [] (entries ++ [(key, value)]) = put key value (putAll [] entries) := by
      rw [putAll, List.foldl_append]
      rfl
    rw [unfolded]
    constructor
    · rw [keys_put, ih.keys, List.map_append, List.map_singleton, eraseDups_concat]
      simp only [List.mem_eraseDups]
    · intro other member
      by_cases same : other.1 = key
      · -- The key has one entry in the roster, so this is the one that was put.
        have equal : other = (key, value) :=
          List.inj_on_of_nodup_map (nodup_put key value _ distinct) member
            (mem_put_self key value _) same
        exact ⟨entries, [], by rw [equal], List.not_mem_nil⟩
      · rcases mem_put member with rfl | earlier
        · exact absurd rfl same
        · obtain ⟨before, after, rfl, last⟩ := ih.latest other earlier
          refine ⟨before, after ++ [(key, value)], by simp, ?_⟩
          simp only [List.map_append, List.map_singleton, List.mem_append, List.mem_singleton,
            not_or]
          exact ⟨last, same⟩

omit [DecidableEq κ] in
/-- The last entry of a key is one. -/
private theorem latest_unique {entries : List (κ × δ)} {key : κ} {value otherValue : δ}
    (latest : ∃ before after, entries = before ++ (key, value) :: after ∧
      key ∉ after.map Prod.fst)
    (other : ∃ before after, entries = before ++ (key, otherValue) :: after ∧
      key ∉ after.map Prod.fst) : value = otherValue := by
  obtain ⟨before, after, rfl, last⟩ := latest
  obtain ⟨otherBefore, otherAfter, split, otherLast⟩ := other
  -- Were one of the two entries behind the other, the other would not be the last.
  rw [List.append_eq_append_iff] at split
  rcases split with ⟨between, rfl, rest⟩ | ⟨between, rfl, rest⟩
  · cases between with
    | nil =>
      cases rest
      rfl
    | cons first between =>
      cases rest
      exact absurd (by simp) last
  · cases between with
    | nil =>
      cases rest
      rfl
    | cons first between =>
      cases rest
      exact absurd (by simp) otherLast

theorem Collected.unique {entries : List (κ × δ)} {roster other : Roster κ δ}
    (collected : Collected entries roster) (again : Collected entries other) : roster = other := by
  have keys : roster.map Prod.fst = other.map Prod.fst := collected.keys.trans again.keys.symm
  have latest := collected.latest
  have otherLatest := again.latest
  -- The entries stay as they are while the two rosters are compared from the front.
  clear collected again
  induction roster generalizing other with
  | nil => exact (List.map_eq_nil_iff.mp keys.symm).symm
  | cons first roster ih =>
    cases other with
    | nil => cases keys
    | cons second other =>
      obtain ⟨key, value⟩ := first
      obtain ⟨otherKey, otherValue⟩ := second
      obtain ⟨rfl, later⟩ := List.cons.inj keys
      have same := latest_unique (latest _ List.mem_cons_self) (otherLatest _ List.mem_cons_self)
      rw [same, ih later (List.forall_mem_of_forall_mem_cons latest)
        (List.forall_mem_of_forall_mem_cons otherLatest)]

theorem Collected.nodup {entries : List (κ × δ)} {roster : Roster κ δ}
    (collected : Collected entries roster) : (roster.map Prod.fst).Nodup := by
  rw [collected.unique (collected_putAll entries)]
  exact nodup_putAll [] entries List.nodup_nil

theorem putAll_eq_iff (entries : List (κ × δ)) (roster : Roster κ δ) :
    putAll [] entries = roster ↔ Collected entries roster := by
  constructor
  · rintro rfl
    exact collected_putAll entries
  · exact fun collected => (collected_putAll entries).unique collected

theorem Collected.subset {entries : List (κ × δ)} {roster : Roster κ δ}
    (collected : Collected entries roster) : roster ⊆ entries := by
  intro entry member
  obtain ⟨before, after, rfl, _⟩ := collected.latest entry member
  exact List.mem_append_right before List.mem_cons_self

/-- A roster is the roster of its own entries. -/
theorem Collected.again {entries : List (κ × δ)} {roster : Roster κ δ}
    (collected : Collected entries roster) : Collected roster roster :=
  (putAll_eq_iff roster roster).mp (putAll_of_nodup [] roster collected.nodup)

/-- The value of an entry whose key comes again is never seen. -/
theorem Collected.overwrite {before after : List (κ × δ)} {key : κ} {value : δ}
    {roster : Roster κ δ} (collected : Collected (before ++ (key, value) :: after) roster)
    (again : key ∈ after.map Prod.fst) (other : δ) :
    Collected (before ++ (key, other) :: after) roster := by
  refine ⟨by simpa using collected.keys, fun entry member => ?_⟩
  obtain ⟨front, back, split, last⟩ := collected.latest entry member
  -- The latest entry of a key stands before the one that is overwritten or behind it.
  rw [List.append_eq_append_iff] at split
  rcases split with ⟨between, rfl, rest⟩ | ⟨between, rfl, rest⟩
  · cases between with
    | nil =>
      cases rest
      exact absurd again last
    | cons first between =>
      cases rest
      exact ⟨before ++ (key, other) :: between, back, by simp, last⟩
  · cases between with
    | nil =>
      cases rest
      exact absurd again last
    | cons first between =>
      cases rest
      exact ⟨front, between ++ (key, other) :: after, by simp, by simpa using last⟩

/-! ### Related values -/

/-- Entries of one key with related values. -/
def Pair {ζ : Type} (related : δ → ζ → Prop) (entry : κ × δ) (other : κ × ζ) : Prop :=
  entry.1 = other.1 ∧ related entry.2 other.2

section Pairs

variable {ζ : Type} {related : δ → ζ → Prop} {roster : Roster κ δ} {others : Roster κ ζ}

theorem pairs_put {key : κ} {value : δ} {other : ζ} (agree : related value other)
    (each : List.Forall₂ (Pair related) roster others) :
    List.Forall₂ (Pair related) (put key value roster) (put key other others) := by
  induction each with
  | nil => exact .cons ⟨rfl, agree⟩ .nil
  | cons first rest ih =>
    -- Both rosters have the same keys, so the value goes to the same place.
    rw [put, put, first.1]
    split
    · exact .cons ⟨rfl, agree⟩ rest
    · exact .cons first ih

theorem pairs_putAll {entries : List (κ × δ)} {otherEntries : List (κ × ζ)}
    (entered : List.Forall₂ (Pair related) entries otherEntries)
    (each : List.Forall₂ (Pair related) roster others) :
    List.Forall₂ (Pair related) (putAll roster entries) (putAll others otherEntries) := by
  induction entered generalizing roster others with
  | nil => exact each
  | @cons entry other _ _ first _ ih =>
    obtain ⟨key, value⟩ := entry
    obtain ⟨_, otherValue⟩ := other
    obtain ⟨rfl, agree⟩ := first
    exact ih (pairs_put agree each)

end Pairs

end TraceChart.Roster
