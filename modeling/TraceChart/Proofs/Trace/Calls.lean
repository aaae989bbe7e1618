import TraceChart.Proofs.Chart.Assembly
import TraceChart.Proofs.Roster

/-!
# Tracks after any calls

Calls that register tracks and attach intervals come in any order, and some of them fail. What the
table of tracks holds after them can be read off the calls: a track for each name that was
registered, in the order in which the names first were, with what was attached to it from then on.

Each call is looked at behind all that came before it, so the induction is on the calls from the
back.
-/

namespace TraceChart

variable {α : Type}

/-- A call on a table of tracks. -/
inductive Call (α : Type) where
  | register (name : String)
  | attach (name : String) (interval : Interval α)
  | attachAll (name : String) (intervals : List (Interval α))

namespace Tracks

/-- The table that a call asks for. -/
def after (tracks : Tracks α) : Call α → Except (Problem α) (Tracks α)
  | .register name => tracks.register name
  | .attach name interval => tracks.attach name interval
  | .attachAll name intervals => tracks.attachAll name intervals

/-- Make a call on a table that is kept: the table behind the call, which goes on to be used also
where the call fails, and the problem of a call that fails. -/
def perform (tracks : Tracks α) (call : Call α) : Tracks α × Option (Problem α) :=
  match tracks.after call with
  | .ok next => (next, none)
  | .error problem => (tracks, some problem)

/-- The table after some calls. -/
def performAll (tracks : Tracks α) (calls : List (Call α)) : Tracks α :=
  calls.foldl (fun tracks call => (tracks.perform call).1) tracks

end Tracks

namespace Call

/-! ### What calls say -/

def registered? : Call α → Option String
  | .register name => some name
  | _ => none

/-- The track that a call attaches to. -/
def attachesTo? : Call α → Option String
  | .register _ => none
  | .attach name _ => some name
  | .attachAll name _ => some name

/-- The intervals that a call brings, in their order. -/
def intervals : Call α → List (Interval α)
  | .register _ => []
  | .attach _ interval => [interval]
  | .attachAll _ intervals => intervals

/-- The intervals that a call brings for a track. -/
def intervalsFor (name : String) (call : Call α) : List (Interval α) :=
  if call.attachesTo? = some name then call.intervals else []

/-- The names that calls register, each where it comes first. -/
def registeredNames (calls : List (Call α)) : List String :=
  (calls.filterMap registered?).eraseDups

/-- What calls attach to a track from its first registration on. -/
def attached (name : String) (calls : List (Call α)) : List (Interval α) :=
  (calls.dropWhile fun call => call.registered? != some name).flatMap (intervalsFor name)

/-- The track of a name after some calls. -/
def track (calls : List (Call α)) (name : String) : Track α :=
  ⟨name, attached name calls⟩

/-- What is wrong with a call after others: a name may be registered once, and must have been
before anything is attached to it. -/
def problem? (calls : List (Call α)) : Call α → Option (Problem α)
  | .register name => if name ∈ registeredNames calls then some (.duplicateTrack name) else none
  | .attach name _ => if name ∈ registeredNames calls then none else some (.unknownTrack name)
  | .attachAll name _ => if name ∈ registeredNames calls then none else some (.unknownTrack name)

theorem mem_registeredNames_iff (calls : List (Call α)) (name : String) :
    name ∈ registeredNames calls ↔ .register name ∈ calls := by
  rw [registeredNames, List.mem_eraseDups, List.mem_filterMap]
  constructor
  · rintro ⟨call, member, registers⟩
    cases call <;> cases registers
    exact member
  · intro member
    exact ⟨.register name, member, rfl⟩

theorem registeredNames_register (calls : List (Call α)) (name : String) :
    registeredNames (calls ++ [.register name]) =
      if name ∈ registeredNames calls then registeredNames calls
      else registeredNames calls ++ [name] := by
  have appended : (calls ++ [Call.register name]).filterMap registered? =
      calls.filterMap registered? ++ [name] := by
    rw [List.filterMap_append]
    rfl
  simp only [registeredNames, appended, Roster.eraseDups_concat, List.mem_eraseDups]

theorem registeredNames_of_attaching (calls : List (Call α)) (call : Call α)
    (attaching : call.registered? = none) :
    registeredNames (calls ++ [call]) = registeredNames calls := by
  simp [registeredNames, attaching]

/-- A track that is registered takes what a further call brings for it. -/
theorem attached_concat {calls : List (Call α)} {name : String}
    (known : name ∈ registeredNames calls) (call : Call α) :
    attached name (calls ++ [call]) = attached name calls ++ call.intervalsFor name := by
  have registered := (mem_registeredNames_iff calls name).mp known
  -- The registration is among the calls, so what is dropped ends before the last one.
  have kept : calls.dropWhile (fun call => call.registered? != some name) ≠ [] := by
    intro dropped
    have others := List.dropWhile_eq_nil_iff.mp dropped _ registered
    simp [registered?] at others
  have split : (calls ++ [call]).dropWhile (fun call => call.registered? != some name) =
      calls.dropWhile (fun call => call.registered? != some name) ++ [call] := by
    rw [List.dropWhile_append, if_neg (by simpa using kept)]
  rw [attached, split, List.flatMap_append, List.flatMap_singleton]
  rfl

/-- What was tried before its registration is not attached to a track. -/
theorem attached_register {calls : List (Call α)} {name : String}
    (fresh : name ∉ registeredNames calls) : attached name (calls ++ [.register name]) = [] := by
  have others : calls.dropWhile (fun call => call.registered? != some name) = [] := by
    rw [List.dropWhile_eq_nil_iff]
    intro call member
    cases call with
    | register other =>
      have different : other ≠ name := by
        rintro rfl
        exact fresh ((mem_registeredNames_iff calls other).mpr member)
      simpa [registered?] using different
    | attach => rfl
    | attachAll => rfl
  rw [attached, List.dropWhile_append, others]
  simp [registered?, intervalsFor, attachesTo?]

/-- Tracks stay as they are where a call brings nothing for them. -/
theorem map_track_concat {calls : List (Call α)} {call : Call α}
    (nothing : ∀ name ∈ registeredNames calls, call.intervalsFor name = []) :
    (registeredNames calls).map (track (calls ++ [call])) =
      (registeredNames calls).map (track calls) := by
  apply List.map_congr_left
  intro name known
  rw [track, attached_concat known, nothing name known, List.append_nil]
  rfl

end Call

namespace Tracks

open Call

/-! ### One call after others -/

/-- The table shows what calls say. -/
def Shows (tracks : Tracks α) (calls : List (Call α)) : Prop :=
  tracks.toList = (registeredNames calls).map (track calls)

theorem Shows.names_eq {tracks : Tracks α} {calls : List (Call α)} (shows : tracks.Shows calls) :
    tracks.names = registeredNames calls := by
  have rows : tracks.toList = (registeredNames calls).map (track calls) := shows
  rw [names, rows, List.map_map]
  exact List.map_id _

theorem perform_ok {tracks next : Tracks α} (call : Call α)
    (returned : tracks.after call = .ok next) : tracks.perform call = (next, none) := by
  rw [perform, returned]

theorem perform_error {tracks : Tracks α} (call : Call α) {problem : Problem α}
    (failed : tracks.after call = .error problem) :
    tracks.perform call = (tracks, some problem) := by
  rw [perform, failed]

theorem attachAll_error {tracks : Tracks α} {name : String} (unknown : name ∉ tracks.names)
    (intervals : List (Interval α)) :
    tracks.attachAll name intervals = .error (.unknownTrack name) :=
  dif_neg unknown

theorem exists_attachAll {tracks : Tracks α} {name : String} (known : name ∈ tracks.names)
    (intervals : List (Interval α)) :
    ∃ next, tracks.attachAll name intervals = .ok next :=
  ⟨_, dif_pos known⟩

theorem Shows.register {tracks : Tracks α} {calls : List (Call α)} (shows : tracks.Shows calls)
    (name : String) :
    (tracks.perform (.register name)).1.Shows (calls ++ [.register name]) ∧
      (tracks.perform (.register name)).2 = problem? calls (.register name) := by
  have unchanged : (registeredNames calls).map (track (calls ++ [.register name])) =
      (registeredNames calls).map (track calls) := map_track_concat fun _ _ => rfl
  cases returned : tracks.after (.register name) with
  | error problem =>
    obtain ⟨known, rfl⟩ := (register_error_iff _ _ _).mp returned
    rw [shows.names_eq] at known
    rw [perform_error _ returned]
    constructor
    · rw [Shows, registeredNames_register, if_pos known, unchanged]
      exact shows
    · rw [problem?, if_pos known]
  | ok next =>
    obtain ⟨fresh, added⟩ := (register_ok_iff _ _ _).mp returned
    rw [shows.names_eq] at fresh
    rw [perform_ok _ returned]
    constructor
    · -- The new row stands behind the others, and nothing has been attached to it.
      have empty : track (calls ++ [.register name]) name = ⟨name, []⟩ := by
        rw [track, attached_register fresh]
      rw [Shows, added, registeredNames_register, if_neg fresh, List.map_append, unchanged, shows,
        List.map_singleton, empty]
    · rw [problem?, if_neg fresh]

theorem Shows.attachAll {tracks : Tracks α} {calls : List (Call α)} (shows : tracks.Shows calls)
    (name : String) (intervals : List (Interval α)) :
    (tracks.perform (.attachAll name intervals)).1.Shows (calls ++ [.attachAll name intervals]) ∧
      (tracks.perform (.attachAll name intervals)).2 =
        problem? calls (.attachAll name intervals) := by
  have names := registeredNames_of_attaching calls (.attachAll name intervals) rfl
  by_cases known : name ∈ registeredNames calls
  · obtain ⟨next, returned⟩ := exists_attachAll (shows.names_eq ▸ known) intervals
    have changed := ((attachAll_ok_iff _ _ _ _).mp returned).2
    rw [perform_ok (.attachAll name intervals) returned]
    constructor
    · rw [Shows, changed, shows, names, List.map_map]
      apply List.map_congr_left
      intro other member
      rw [track, attached_concat member]
      by_cases same : name = other
      · simp [append, track, intervalsFor, attachesTo?, Call.intervals, same]
      · simp [append, track, intervalsFor, attachesTo?, same, Ne.symm same]
    · rw [problem?, if_pos known]
  · have failed := attachAll_error (shows.names_eq ▸ known) intervals
    -- The call names no track that there is, so it brings nothing for any of them.
    have nothing : ∀ other ∈ registeredNames calls,
        (Call.attachAll name intervals).intervalsFor other = [] := by
      intro other member
      have different : name ≠ other := fun same => known (same ▸ member)
      simp [intervalsFor, attachesTo?, different]
    rw [perform_error (.attachAll name intervals) failed]
    constructor
    · rw [Shows, names, map_track_concat nothing]
      exact shows
    · rw [problem?, if_neg known]

/-- Whatever the call is, the table goes on to show what the calls say. -/
theorem Shows.perform {tracks : Tracks α} {calls : List (Call α)} (shows : tracks.Shows calls)
    (call : Call α) :
    (tracks.perform call).1.Shows (calls ++ [call]) ∧
      (tracks.perform call).2 = problem? calls call := by
  cases call with
  | register name => exact shows.register name
  | attachAll name intervals => exact shows.attachAll name intervals
  | attach name interval =>
    -- One interval is attached as a batch of one.
    obtain ⟨shown, failed⟩ := shows.attachAll name [interval]
    refine ⟨?_, failed⟩
    have rows : (tracks.perform (.attach name interval)).1.toList =
        (registeredNames calls).map (track (calls ++ [.attachAll name [interval]])) := by
      rw [← registeredNames_of_attaching calls (.attachAll name [interval]) rfl]
      exact shown
    rw [Shows, rows, registeredNames_of_attaching calls (.attach name interval) rfl]
    apply List.map_congr_left
    intro other known
    rw [track, track, attached_concat known, attached_concat known]
    rfl

theorem shows_performAll (calls : List (Call α)) : (empty.performAll calls).Shows calls := by
  induction calls using List.reverseRecOn with
  | nil => simp [Shows, performAll, empty, registeredNames]
  | append_singleton calls call ih =>
    rw [performAll, List.foldl_append]
    exact (ih.perform call).1

/-! ### Calls that fail, and calls that commute -/

theorem perform_of_failed {tracks : Tracks α} {call : Call α}
    (failed : (tracks.perform call).2 ≠ none) : (tracks.perform call).1 = tracks := by
  unfold perform at failed ⊢
  split at failed
  · exact absurd rfl failed
  · rfl

/-- An attaching call changes the row of its name, if there is one, and nothing else. -/
theorem perform_attaching (tracks : Tracks α) {call : Call α} {name : String}
    (attaching : call.attachesTo? = some name) :
    (tracks.perform call).1.toList = tracks.toList.map (append name call.intervals) ∧
      (tracks.perform call).2 = if name ∈ tracks.names then none else some (.unknownTrack name) := by
  have asBatch : tracks.after call = tracks.attachAll name call.intervals := by
    cases call <;> cases attaching <;> rfl
  by_cases known : name ∈ tracks.names
  · obtain ⟨next, returned⟩ := exists_attachAll known call.intervals
    rw [perform_ok _ (asBatch.trans returned), if_pos known]
    exact ⟨((attachAll_ok_iff _ _ _ _).mp returned).2, rfl⟩
  · rw [perform_error _ (asBatch.trans (attachAll_error known call.intervals)), if_neg known]
    exact ⟨(map_append_of_notMem _ _ _ known).symm, rfl⟩

theorem names_perform_attaching (tracks : Tracks α) {call : Call α} {name : String}
    (attaching : call.attachesTo? = some name) : (tracks.perform call).1.names = tracks.names := by
  rw [names, (tracks.perform_attaching attaching).1, List.map_map, names]
  exact List.map_congr_left fun row _ => name_append name call.intervals row

theorem append_comm {left right : String} (different : left ≠ right)
    (leftIntervals rightIntervals : List (Interval α)) (row : Track α) :
    append right rightIntervals (append left leftIntervals row) =
      append left leftIntervals (append right rightIntervals row) := by
  by_cases atLeft : row.name = left
  · have notRight : row.name ≠ right := fun same => different (atLeft.symm.trans same)
    simp [append, atLeft, different]
  · simp only [append, atLeft, if_false]
    split <;> simp

theorem perform_comm (tracks : Tracks α) {first second : Call α} {left right : String}
    (attachesLeft : first.attachesTo? = some left) (attachesRight : second.attachesTo? = some right)
    (different : left ≠ right) :
    ((tracks.perform first).1.perform second).1 = ((tracks.perform second).1.perform first).1 := by
  have rows : ((tracks.perform first).1.perform second).1.toList =
      ((tracks.perform second).1.perform first).1.toList := by
    rw [(perform_attaching _ attachesRight).1, (perform_attaching _ attachesLeft).1,
      (perform_attaching _ attachesLeft).1, (perform_attaching _ attachesRight).1, List.map_map,
      List.map_map]
    exact List.map_congr_left fun row _ => append_comm different _ _ row
  generalize ((tracks.perform first).1.perform second).1 = one at rows ⊢
  generalize ((tracks.perform second).1.perform first).1 = other at rows ⊢
  cases one
  cases other
  simpa using rows

/-- After any calls on an empty table there is a track for each name that was registered, once, in
the order of the first registrations, with what the calls on this name attached from then on. A
further call fails where the calls say so, and then leaves the table as it is. Calls that attach
to different tracks may change places: the table is the same, and each of them fails or not as it
would without the other. -/
theorem tracks_of_calls (calls : List (Call α)) :
    (empty.performAll calls).toList =
        (registeredNames calls).map (fun name => ⟨name, attached name calls⟩) ∧
    (∀ name, name ∈ registeredNames calls ↔ .register name ∈ calls) ∧
    (∀ call, ((empty.performAll calls).perform call).2 = problem? calls call) ∧
    (∀ call, ((empty.performAll calls).perform call).2 ≠ none →
      ((empty.performAll calls).perform call).1 = empty.performAll calls) ∧
    (∀ first second left right, first.attachesTo? = some left → second.attachesTo? = some right →
      left ≠ right →
        (empty.performAll (calls ++ [first, second])) =
          (empty.performAll (calls ++ [second, first])) ∧
        ((empty.performAll (calls ++ [first])).perform second).2 =
          ((empty.performAll calls).perform second).2 ∧
        ((empty.performAll (calls ++ [second])).perform first).2 =
          ((empty.performAll calls).perform first).2) := by
  have shows := shows_performAll calls
  refine ⟨shows, mem_registeredNames_iff calls, fun call => (shows.perform call).2,
    fun call => perform_of_failed, ?_⟩
  intro first second left right attachesLeft attachesRight different
  have appended (more : List (Call α)) :
      empty.performAll (calls ++ more) = (empty.performAll calls).performAll more :=
    List.foldl_append
  rw [appended, appended, appended, appended]
  -- Whether an attaching call fails depends on the names, which the other call does not change.
  refine ⟨perform_comm _ attachesLeft attachesRight different, ?_, ?_⟩
  · change (((empty.performAll calls).perform first).1.perform second).2 = _
    rw [(perform_attaching _ attachesRight).2, (perform_attaching _ attachesRight).2,
      names_perform_attaching _ attachesLeft]
  · change (((empty.performAll calls).perform second).1.perform first).2 = _
    rw [(perform_attaching _ attachesLeft).2, (perform_attaching _ attachesLeft).2,
      names_perform_attaching _ attachesRight]

end Tracks

end TraceChart
