import TraceChart.Chart.Timeline
import TraceChart.Proofs.Trace.Intervals

/-!
# Assembly of timelines

A timeline is put together in three phases that meet in a table under track names. The main result
says that nothing of the table is left to see: the tracks are the counters, one by one and in
their order, each with the intervals that it has on its own.

Registering keeps the rows that are there and adds empty ones behind them. Attaching then fills
the rows from the front: what has been filled is never touched again, since names are distinct.
-/

namespace TraceChart

variable {α : Type}

/-- The row of a counter before intervals are attached to it. -/
def Counter.emptyTrack (counter : Counter α) : Track α :=
  ⟨counter.name, []⟩

namespace Tracks

/-! ### One operation -/

theorem register_ok_iff (tracks next : Tracks α) (name : String) :
    tracks.register name = .ok next ↔
      name ∉ tracks.names ∧ next.toList = tracks.toList ++ [⟨name, []⟩] := by
  cases next
  unfold register names
  split
  next known => simp [known]
  next fresh => simp [fresh, eq_comm]

theorem register_error_iff (tracks : Tracks α) (name : String) (problem : Problem α) :
    tracks.register name = .error problem ↔
      name ∈ tracks.names ∧ problem = .duplicateTrack name := by
  unfold register names
  split
  next known => simp [known, eq_comm]
  next fresh => simp [fresh]

theorem attachAll_ok_iff (tracks next : Tracks α) (name : String) (intervals : List (Interval α)) :
    tracks.attachAll name intervals = .ok next ↔
      name ∈ tracks.names ∧ next.toList = tracks.toList.map (append name intervals) := by
  cases next
  unfold attachAll names
  split
  next known => simp [known, eq_comm]
  next unknown => simp [unknown]

/-- Rows under other names do not change. -/
theorem map_append_of_notMem (name : String) (intervals : List (Interval α))
    (rows : List (Track α)) (absent : name ∉ rows.map Track.name) :
    rows.map (append name intervals) = rows := by
  have unchanged : ∀ row ∈ rows, append name intervals row = row := by
    intro row member
    have other : row.name ≠ name := fun same => absent (List.mem_map.mpr ⟨row, member, same⟩)
    simp [append, other]
  rw [List.map_congr_left unchanged, List.map_id']

/-! ### Registering all counters -/

/-- Register the tracks of counters, in order. -/
def registerCounters (tracks : Tracks α) (counters : List (Counter α)) :
    Except (Problem α) (Tracks α) :=
  counters.foldlM (fun tracks counter => tracks.register counter.name) tracks

theorem registerCounters_ok (tracks next : Tracks α) (counters : List (Counter α))
    (returned : tracks.registerCounters counters = .ok next) :
    (tracks.names ++ counters.map Counter.name).Nodup ∧
      next.toList = tracks.toList ++ counters.map Counter.emptyTrack := by
  induction counters generalizing tracks with
  | nil =>
    cases returned
    simpa [names] using next.distinct
  | cons counter counters ih =>
    simp only [registerCounters, List.foldlM_cons, bind_ok_iff] at returned
    obtain ⟨middle, registered, rest⟩ := returned
    obtain ⟨_, added⟩ := (register_ok_iff _ _ _).mp registered
    have later := ih middle rest
    simp only [names, added, List.map_append, List.append_assoc] at later
    simpa [names, Counter.emptyTrack] using later

/-- The first counter whose name is known already or that of an earlier counter. -/
def FirstRepeat (known : List String) (counters : List (Counter α)) (name : String) : Prop :=
  ∃ before counter after, counters = before ++ counter :: after ∧
    (known ++ before.map Counter.name).Nodup ∧
    counter.name ∈ known ++ before.map Counter.name ∧ name = counter.name

theorem registerCounters_error (tracks : Tracks α) (counters : List (Counter α))
    (problem : Problem α) (failed : tracks.registerCounters counters = .error problem) :
    ∃ name, FirstRepeat tracks.names counters name ∧ problem = .duplicateTrack name := by
  induction counters generalizing tracks with
  | nil => cases failed
  | cons counter counters ih =>
    simp only [registerCounters, List.foldlM_cons, bind_error_iff] at failed
    rcases failed with failed | ⟨middle, registered, failed⟩
    · obtain ⟨known, rfl⟩ := (register_error_iff _ _ _).mp failed
      have start : (tracks.names ++ ([] : List (Counter α)).map Counter.name).Nodup := by
        simpa [names] using tracks.distinct
      exact ⟨counter.name, ⟨[], counter, counters, rfl, start, by simpa using known, rfl⟩, rfl⟩
    · obtain ⟨_, added⟩ := (register_ok_iff _ _ _).mp registered
      obtain ⟨name, ⟨before, again, after, rfl, fresh, seen, rfl⟩, rfl⟩ := ih middle failed
      have grown : middle.names = tracks.names ++ [counter.name] := by simp [names, added]
      refine ⟨again.name, ⟨counter :: before, again, after, rfl, ?_, ?_, rfl⟩, rfl⟩
      · simpa [grown] using fresh
      · simpa [grown] using seen

/-- A name that repeats is no part of distinct names. -/
theorem FirstRepeat.not_nodup {known : List String} {counters : List (Counter α)} {name : String}
    (again : FirstRepeat known counters name) :
    ¬ (known ++ counters.map Counter.name).Nodup := by
  obtain ⟨before, counter, after, rfl, _, seen, _⟩ := again
  intro distinct
  rw [List.map_append, List.map_cons, ← List.append_assoc] at distinct
  exact (List.nodup_append.mp distinct).2.2 _ seen _ List.mem_cons_self rfl

/-! ### Attaching all intervals -/

/-- Rows that have been filled stay, and the empty ones behind them are filled from the front. -/
theorem attachCounters_ok (tracks : Tracks α) (filled : List (Track α))
    (read : List (Counter α × List (Interval α)))
    (rows : tracks.toList = filled ++ read.map fun entry => entry.1.emptyTrack) :
    ∃ next, tracks.attachCounters read = .ok next ∧
      next.toList = filled ++ read.map fun entry => ⟨entry.1.name, entry.2⟩ := by
  induction read generalizing tracks filled with
  | nil => exact ⟨tracks, rfl, rows⟩
  | cons entry read ih =>
    obtain ⟨counter, intervals⟩ := entry
    have known : counter.name ∈ tracks.names := by simp [names, rows, Counter.emptyTrack]
    have distinct := tracks.distinct
    rw [rows, List.map_append, List.map_cons, List.map_cons, List.nodup_middle] at distinct
    have absent := (List.nodup_cons.mp distinct).1
    have front : counter.name ∉ filled.map Track.name :=
      fun member => absent (List.mem_append_left _ member)
    have back := map_append_of_notMem counter.name intervals _
      fun member => absent (List.mem_append_right _ member)
    -- Only the first empty row carries the name, so only it changes.
    obtain ⟨middle, attached⟩ : ∃ middle, tracks.attachAll counter.name intervals = .ok middle := by
      unfold attachAll
      exact ⟨_, dif_pos known⟩
    have changed := ((attachAll_ok_iff _ _ _ _).mp attached).2
    rw [rows, List.map_append, map_append_of_notMem _ _ _ front, List.map_cons, List.map_cons,
      back] at changed
    obtain ⟨next, rest, final⟩ := ih middle (filled ++ [⟨counter.name, intervals⟩]) (by
      simpa [append, Counter.emptyTrack] using changed)
    refine ⟨next, ?_, by simpa using final⟩
    simp only [attachCounters, List.foldlM_cons, attached]
    exact rest

end Tracks

/-- Counters with distinct names all find a place. -/
theorem Tracks.registerCounters_of_nodup (counters : List (Counter α))
    (distinct : (counters.map Counter.name).Nodup) :
    ∃ registered, Tracks.empty.registerCounters counters = .ok registered ∧
      registered.toList = counters.map Counter.emptyTrack := by
  cases registered : Tracks.empty.registerCounters counters with
  | error problem =>
    obtain ⟨_, again, _⟩ := registerCounters_error _ _ _ registered
    exact absurd distinct again.not_nodup
  | ok tracks => exact ⟨tracks, rfl, (registerCounters_ok _ _ _ registered).2⟩

variable [Scalar α]

namespace Counter

/-- The row of a counter on its own. -/
def track (palette : Palette) (counter : Counter α) : Except (Problem α) (Track α) := do
  let intervals ← counter.intervals palette
  pure ⟨counter.name, intervals⟩

theorem track_ok_iff (palette : Palette) (counter : Counter α) (track : Track α) :
    counter.track palette = .ok track ↔
      track.name = counter.name ∧ counter.intervals palette = .ok track.intervals := by
  simp only [Counter.track, bind_ok_iff, pure_eq_ok, Except.ok.injEq]
  constructor
  · rintro ⟨intervals, returned, rfl⟩
    exact ⟨rfl, returned⟩
  · rintro ⟨named, returned⟩
    exact ⟨track.intervals, returned, by rw [← named]⟩

theorem track_error_iff (palette : Palette) (counter : Counter α) (problem : Problem α) :
    counter.track palette = .error problem ↔ counter.intervals palette = .error problem := by
  simp [Counter.track, bind_error_iff]

/-- A counter on its own never asks for a track. -/
theorem intervals_ne_unknownTrack (counter : Counter α) (palette : Palette) (name : String) :
    counter.intervals palette ≠ .error (.unknownTrack name) := by
  intro failed
  rcases counter.intervals_error palette _ failed with ⟨_, refused⟩ | ⟨_, _, _, _, refused⟩ |
    ⟨_, _, _, refused⟩ | ⟨_, _, _, _, _, _, _, _, refused⟩ <;> cases refused

end Counter

namespace Timeline

/-! ### The whole timeline -/

/-- After registration only the counters themselves can fail: the intervals that were read find
their tracks in place. -/
theorem ofCounters_of_nodup (palette : Palette) (counters : List (Counter α))
    (distinct : (counters.map Counter.name).Nodup) :
    ofCounters palette counters =
      counters.mapM (Counter.track palette) >>= fun tracks => pure ⟨tracks⟩ := by
  obtain ⟨registered, added, rows⟩ := Tracks.registerCounters_of_nodup counters distinct
  let read (counter : Counter α) : Except (Problem α) (Counter α × List (Interval α)) :=
    counter.intervals palette >>= fun intervals => pure (counter, intervals)
  have phases : ofCounters palette counters = Tracks.empty.registerCounters counters >>=
      fun registered => counters.mapM read >>= fun entries =>
        registered.attachCounters entries >>= fun attached => pure ⟨attached.toList⟩ := rfl
  have viewed : counters.mapM (Counter.track palette) = counters.mapM read >>= fun entries =>
      pure (entries.map fun entry => ⟨entry.1.name, entry.2⟩) := by
    rw [← mapM_view]
    congr 1
    funext counter
    cases traversed : counter.intervals palette <;> simp [Counter.track, read, traversed]
  rw [phases, viewed, added, ok_bind]
  -- What is attached are the counters themselves, so every row that waits is filled.
  cases traversed : counters.mapM read with
  | error problem => rfl
  | ok entries =>
    have same : counters = entries.map Prod.fst := by
      have each := (mapM_ok_iff _ _ _).mp traversed
      rw [← List.forall₂_eq_eq_eq, List.forall₂_map_right_iff]
      apply each.imp
      intro counter entry returned
      obtain ⟨intervals, _, paired⟩ := (bind_ok_iff _ _ _).mp returned
      cases paired
      rfl
    obtain ⟨attached, found, final⟩ := registered.attachCounters_ok [] entries (by
      rw [rows, same, List.map_map, List.nil_append]
      rfl)
    simp only [pure_eq_ok, ok_bind, found, final, List.nil_append]

/-- A repeated name stops everything else. -/
theorem ofCounters_of_not_nodup (palette : Palette) (counters : List (Counter α))
    (repeated : ¬ (counters.map Counter.name).Nodup) :
    ∃ name, Tracks.FirstRepeat [] counters name ∧
      ofCounters palette counters = .error (.duplicateTrack name) := by
  cases registered : Tracks.empty.registerCounters counters with
  | ok tracks => exact absurd (Tracks.registerCounters_ok _ _ _ registered).1 repeated
  | error problem =>
    obtain ⟨name, again, rfl⟩ := Tracks.registerCounters_error _ _ _ registered
    refine ⟨name, again, ?_⟩
    change Tracks.empty.registerCounters counters >>= _ = _
    rw [registered, error_bind]

theorem ofCounters_ok_iff (palette : Palette) (counters : List (Counter α))
    (timeline : Timeline α) : ofCounters palette counters = .ok timeline ↔
      (counters.map Counter.name).Nodup ∧
      List.Forall₂ (fun counter track => track.name = counter.name ∧
        counter.intervals palette = .ok track.intervals) counters timeline.tracks := by
  obtain ⟨tracks⟩ := timeline
  by_cases distinct : (counters.map Counter.name).Nodup
  · simp only [ofCounters_of_nodup palette counters distinct, bind_ok_iff, mapM_ok_iff,
      Counter.track_ok_iff, pure_eq_ok, Except.ok.injEq, mk.injEq, exists_eq_right, distinct,
      true_and]
  · obtain ⟨name, _, failed⟩ := ofCounters_of_not_nodup palette counters distinct
    simp [failed, distinct]

theorem exists_ofCounters_iff (palette : Palette) (counters : List (Counter α)) :
    (∃ timeline, ofCounters palette counters = .ok timeline) ↔
      (counters.map Counter.name).Nodup ∧
        ∀ counter ∈ counters, ∃ intervals, counter.intervals palette = .ok intervals := by
  constructor
  · rintro ⟨timeline, built⟩
    obtain ⟨distinct, rows⟩ := (ofCounters_ok_iff _ _ _).mp built
    refine ⟨distinct, fun counter member => ?_⟩
    obtain ⟨track, _, _, returned⟩ := forall₂_exists rows counter member
    exact ⟨track.intervals, returned⟩
  · rintro ⟨distinct, returned⟩
    rw [ofCounters_of_nodup palette counters distinct, exists_ok_iff]
    intro problem failed
    obtain failed | ⟨_, _, failed⟩ := (bind_error_iff _ _ _).mp failed
    · obtain ⟨before, counter, after, rfl, _, refused⟩ := (mapM_error_iff _ _ _).mp failed
      obtain ⟨intervals, found⟩ := returned counter (by simp)
      rw [Counter.track_error_iff, found] at refused
      cases refused
    · cases failed

theorem ofCounters_error_iff (palette : Palette) (counters : List (Counter α))
    (distinct : (counters.map Counter.name).Nodup) (problem : Problem α) :
    ofCounters palette counters = .error problem ↔
      FirstError (fun counter => counter.intervals palette) counters problem := by
  simp only [ofCounters_of_nodup palette counters distinct, bind_error_iff, mapM_error_iff,
    FirstError, exists_ok_iff, ne_eq, Counter.track_error_iff, pure_eq_ok, reduceCtorEq, and_false,
    exists_false, or_false]

theorem ofCounters_ne_unknownTrack (palette : Palette) (counters : List (Counter α))
    (name : String) : ofCounters palette counters ≠ .error (.unknownTrack name) := by
  intro failed
  by_cases distinct : (counters.map Counter.name).Nodup
  · obtain ⟨_, counter, _, _, _, refused⟩ := (ofCounters_error_iff _ _ distinct _).mp failed
    exact counter.intervals_ne_unknownTrack palette name refused
  · obtain ⟨_, _, duplicate⟩ := ofCounters_of_not_nodup palette counters distinct
    rw [duplicate] at failed
    cases failed

/-- Counters in another order give their tracks in that order. -/
theorem ofCounters_permuted (palette : Palette) (counters : List (Counter α))
    (timeline : Timeline α) (built : ofCounters palette counters = .ok timeline)
    (same : timeline.tracks.length = counters.length)
    (order : Equiv.Perm (Fin counters.length)) :
    ofCounters palette (List.ofFn fun place => counters.get (order place)) =
      .ok ⟨List.ofFn fun place => timeline.tracks.get ((order place).cast same.symm)⟩ := by
  obtain ⟨distinct, rows⟩ := (ofCounters_ok_iff _ _ _).mp built
  apply (ofCounters_ok_iff _ _ _).mpr
  constructor
  · have shuffled : (List.ofFn fun place => counters.get (order place)).Perm counters := by
      have moved := order.ofFn_comp_perm counters.get
      rwa [List.ofFn_get] at moved
    exact (shuffled.map Counter.name).nodup_iff.mpr distinct
  · have each := (List.forall₂_iff_get.mp rows).2
    apply List.forall₂_iff_get.mpr
    refine ⟨by simp, fun place first second => ?_⟩
    simpa using each (order ⟨place, by simpa using first⟩) (Fin.isLt _) (by simp [same])

/-- A timeline has the tracks of its counters, one by one, or there is none. A repeated name
counts before anything that is wrong with events, and then the first counter that is at fault;
no interval ever lacks its track. The order of the counters is the order of the tracks and
nothing else. -/
theorem tracks_of_counters (palette : Palette) (counters : List (Counter α)) :
    ((∃ timeline, ofCounters palette counters = .ok timeline) ↔
      (counters.map Counter.name).Nodup ∧
        ∀ counter ∈ counters, ∃ intervals, counter.intervals palette = .ok intervals) ∧
    (∀ timeline, ofCounters palette counters = .ok timeline →
      List.Forall₂ (fun counter track => track.name = counter.name ∧
        counter.intervals palette = .ok track.intervals) counters timeline.tracks) ∧
    (¬ (counters.map Counter.name).Nodup → ∃ name, Tracks.FirstRepeat [] counters name ∧
      ofCounters palette counters = .error (.duplicateTrack name)) ∧
    ((counters.map Counter.name).Nodup → ∀ problem,
      ofCounters palette counters = .error problem ↔
        FirstError (fun counter => counter.intervals palette) counters problem) ∧
    (∀ name, ofCounters palette counters ≠ .error (.unknownTrack name)) ∧
    (∀ timeline, ofCounters palette counters = .ok timeline →
      ∃ same : timeline.tracks.length = counters.length,
        ∀ order : Equiv.Perm (Fin counters.length),
          ofCounters palette (List.ofFn fun place => counters.get (order place)) =
            .ok ⟨List.ofFn fun place => timeline.tracks.get ((order place).cast same.symm)⟩) := by
  refine ⟨exists_ofCounters_iff palette counters, ?_, ofCounters_of_not_nodup palette counters,
    ofCounters_error_iff palette counters, ofCounters_ne_unknownTrack palette counters, ?_⟩
  · intro timeline built
    exact ((ofCounters_ok_iff _ _ _).mp built).2
  · intro timeline built
    have same := ((ofCounters_ok_iff _ _ _).mp built).2.length_eq.symm
    exact ⟨same, ofCounters_permuted palette counters timeline built same⟩

end Timeline

end TraceChart
