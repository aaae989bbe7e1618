import TraceChart.CommandLine.Directory
import TraceChart.Proofs.Roster
import TraceChart.Proofs.Traversal

/-!
# What a write changes

Whether a file can be written does not depend on what is written, and neither does its place. A
file is only ever put into a folder that is there, so no folder comes or goes, and every path leads
where it led before. Reading a path after writing it gives what was written, and every other place
is as it was.
-/

namespace TraceChart.CommandLine

namespace Directory

variable {directory : Directory}

/-! ### Places of files -/

/-- The place that is written to under a path. -/
def target (directory : Directory) (path : String) : Except FileError Path := do
  if path.endsWith "/" then
    let place ← directory.resolve path (namesBeforeLast path)
    let _ ← directory.follow place "."
    throw .isFolder
  let place ← directory.resolve path (path.splitOn "/")
  if directory.isFolder place then throw .isFolder
  pure place

/-- A directory after a file has been put into a place. -/
def stored (directory : Directory) (place : Path) (content : List UInt8) : Directory :=
  ⟨directory.files.put place content⟩

theorem content?_stored (directory : Directory) (place other : Path) (content : List UInt8) :
    (directory.stored place content).content? other =
      if other = place then some content else directory.content? other :=
  Roster.lookup_put place other content directory.files

theorem write_eq (directory : Directory) (path : String) (content : List UInt8) :
    directory.write path content =
      (directory.target path).map fun place => directory.stored place content := by
  unfold write target
  split
  · cases directory.resolve path (namesBeforeLast path) with
    | error error => rfl
    | ok place =>
      simp only [ok_bind]
      cases directory.follow place "." <;> rfl
  · simp only [pure_eq_ok]
    cases directory.resolve path (path.splitOn "/") with
    | error error => rfl
    | ok place =>
      simp only [ok_bind]
      split <;> rfl

theorem write_ok_iff (path : String) (content : List UInt8) (written : Directory) :
    directory.write path content = .ok written ↔
      ∃ place, directory.target path = .ok place ∧ written = directory.stored place content := by
  rw [write_eq]
  cases directory.target path <;> simp [Except.map, eq_comm]

theorem write_error_iff (path : String) (content : List UInt8) (error : FileError) :
    directory.write path content = .error error ↔ directory.target path = .error error := by
  rw [write_eq]
  cases directory.target path <;> simp [Except.map]

theorem resolve_of_target {path : String} {place : Path}
    (found : directory.target path = .ok place) :
    directory.resolve path (path.splitOn "/") = .ok place ∧ directory.isFolder place = false := by
  unfold target at found
  split at found
  · obtain ⟨_, _, found⟩ := (bind_ok_iff _ _ _).mp found
    obtain ⟨_, _, found⟩ := (bind_ok_iff _ _ _).mp found
    cases found
  · simp only [pure_eq_ok] at found
    obtain ⟨reached, resolved, found⟩ := (bind_ok_iff _ _ _).mp found
    split at found
    · cases found
    next file =>
      cases found
      exact ⟨resolved, by simpa using file⟩

/-! ### Folders -/

theorem isFolder_iff (place : Path) : directory.isFolder place = true ↔
    place.isAbove = true ∨ ∃ file ∈ directory.files, place <+: file.1 ∧ place ≠ file.1 := by
  simp [isFolder]

/-- What a folder lies in is a folder. -/
theorem isFolder_of_append {front rest : Path}
    (folder : directory.isFolder (front ++ rest) = true) : directory.isFolder front = true := by
  rw [isFolder_iff] at folder ⊢
  rcases folder with above | ⟨file, member, below, other⟩
  · left
    cases front with
    | nil => rfl
    | cons name names =>
      rw [Path.isAbove, Bool.or_eq_true, beq_iff_eq, List.all_eq_true] at above ⊢
      rcases above with root | steps
      · left
        rw [List.cons_append, List.cons.injEq, List.append_eq_nil_iff] at root
        rw [root.1, root.2.1]
      · exact .inr fun step included => steps step (List.mem_append_left _ included)
  · refine .inr ⟨file, member, (List.prefix_append front rest).trans below, ?_⟩
    rintro rfl
    exact other (below.eq_of_length_le (by simp))

theorem isFolder_parent {place : Path} (folder : directory.isFolder place = true) :
    directory.isFolder place.parent = true := by
  unfold Path.parent
  split
  next root => rwa [root] at folder
  next =>
    split
    next above =>
      rw [isFolder_iff]
      left
      rw [Path.isAbove, Bool.or_eq_true, beq_iff_eq] at above ⊢
      rcases above with root | steps
      · contradiction
      · exact .inr (by simpa using steps)
    next =>
      obtain ⟨last, same⟩ := List.dropLast_prefix place
      exact isFolder_of_append (by rwa [same])

/-! ### Following a path -/

theorem folder_of_follow {place next : Path} {name : String}
    (followed : directory.follow place name = .ok next) : directory.isFolder place = true := by
  unfold follow at followed
  split at followed
  next folder => exact folder
  next => split at followed <;> cases followed

/-- A step leads to a folder or to a name in one. -/
theorem next_of_follow {place next : Path} {name : String}
    (followed : directory.follow place name = .ok next) :
    directory.isFolder next = true ∨ next = place ++ [name] := by
  have folder := folder_of_follow followed
  rw [follow, if_pos folder] at followed
  split at followed
  · cases followed
    exact .inl folder
  split at followed
  · cases followed
    exact .inl (isFolder_parent folder)
  split at followed
  · cases followed
  · cases followed
    exact .inr rfl

/-- A path that leads to no folder leads to a name in a folder. -/
theorem parent_of_resolve {path : String} {names : List String} {place : Path}
    (resolved : directory.resolve path names = .ok place)
    (file : directory.isFolder place = false) :
    ∃ folder name, place = folder ++ [name] ∧ directory.isFolder folder = true := by
  unfold resolve at resolved
  split at resolved
  · cases resolved
  split at resolved
  · cases resolved
  cases names using List.reverseRec with
  | nil =>
    -- No step has been taken from the directory itself or from the root.
    cases resolved
    split at file <;> simp [isFolder, Path.isAbove] at file
  | append_singleton names name =>
    rw [List.foldlM_append] at resolved
    obtain ⟨folder, _, last⟩ := (bind_ok_iff _ _ _).mp resolved
    simp only [List.foldlM_cons, List.foldlM_nil, bind_pure] at last
    rcases next_of_follow last with reached | same
    · simp [reached] at file
    · exact ⟨folder, name, same, folder_of_follow last⟩

/-! ### After a write -/

section Stored

variable {folder : Path} {name : String}

/-- A file in a folder that is there makes no folder. -/
theorem isFolder_stored (known : directory.isFolder folder = true) (content : List UInt8)
    (place : Path) :
    (directory.stored (folder ++ [name]) content).isFolder place = directory.isFolder place := by
  rw [Bool.eq_iff_iff]
  constructor
  · intro reached
    rcases (isFolder_iff place).mp reached with above | ⟨file, member, below, other⟩
    · exact (isFolder_iff place).mpr (.inl above)
    rcases Roster.mem_put member with rfl | old
    · rcases List.prefix_concat_iff.mp below with same | ⟨rest, rfl⟩
      · exact absurd same other
      · exact isFolder_of_append known
    · exact (isFolder_iff place).mpr (.inr ⟨file, old, below, other⟩)
  · intro reached
    rcases (isFolder_iff place).mp reached with above | ⟨file, member, below, other⟩
    · exact (isFolder_iff place).mpr (.inl above)
    · -- A file that was there has its place still, whatever its content is now.
      have kept : file.1 ∈
          (Roster.put (folder ++ [name]) content directory.files).map Prod.fst := by
        have listed := List.mem_map_of_mem (f := Prod.fst) member
        rw [Roster.keys_put]
        split
        · exact listed
        · exact List.mem_append_left _ listed
      obtain ⟨entry, included, same⟩ := List.mem_map.mp kept
      exact (isFolder_iff place).mpr (.inr ⟨entry, included, by rwa [same], by rwa [same]⟩)

theorem follow_stored (known : directory.isFolder folder = true) (content : List UInt8)
    {place next : Path} {step : String} (followed : directory.follow place step = .ok next) :
    (directory.stored (folder ++ [name]) content).follow place step = .ok next := by
  have reached := folder_of_follow followed
  rw [follow, if_pos reached] at followed
  rw [follow, isFolder_stored known, if_pos reached]
  exact followed

theorem resolve_stored (known : directory.isFolder folder = true) (content : List UInt8)
    {path : String} {names : List String} {place : Path}
    (resolved : directory.resolve path names = .ok place) :
    (directory.stored (folder ++ [name]) content).resolve path names = .ok place := by
  have steps (start : Path) (walked : names.foldlM directory.follow start = .ok place) :
      names.foldlM (directory.stored (folder ++ [name]) content).follow start = .ok place := by
    clear resolved
    induction names generalizing start with
    | nil => exact walked
    | cons step names ih =>
      rw [List.foldlM_cons] at walked ⊢
      obtain ⟨next, followed, rest⟩ := (bind_ok_iff _ _ _).mp walked
      rw [follow_stored known content followed]
      exact ih next rest
  unfold resolve at resolved ⊢
  split at resolved
  · cases resolved
  next named =>
    split at resolved
    · cases resolved
    next short =>
      rw [if_neg named, if_neg short]
      exact steps _ resolved

end Stored

/-- A write replaces the file under its path, as a read finds, and no other. -/
theorem read_of_write {path : String} {content : List UInt8} {written : Directory}
    (returned : directory.write path content = .ok written) :
    written.read path = .ok content ∧ ∃ place, directory.target path = .ok place ∧
      written.content? place = some content ∧
      ∀ other, other ≠ place → written.content? other = directory.content? other := by
  obtain ⟨place, found, rfl⟩ := (write_ok_iff _ _ _).mp returned
  obtain ⟨resolved, file⟩ := resolve_of_target found
  have held : (directory.stored place content).content? place = some content := by
    rw [content?_stored, if_pos rfl]
  have others (other : Path) (different : other ≠ place) :
      (directory.stored place content).content? other = directory.content? other := by
    rw [content?_stored, if_neg different]
  refine ⟨?_, place, found, held, others⟩
  obtain ⟨folder, name, same, known⟩ := parent_of_resolve resolved file
  subst same
  rw [read, resolve_stored known content resolved, ok_bind, held]
  rfl

end Directory

end TraceChart.CommandLine
