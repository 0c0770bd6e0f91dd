import EmbToolkit.Makedevs.Program
import EmbToolkit.Proofs.TableLines

/-! The device nodes that a range entry creates. The loop of `main` counts up to `count` and not up to
`start + count`, so an entry gets the nodes it asks for only when it starts at 0. -/

namespace EmbToolkit.Proofs.DeviceRanges
open EmbToolkit.Makedevs EmbToolkit.Proofs.TableLines Scanf

variable (sys : System)

/-- The nodes that the calls so far have attempted to create: path, major and minor number. -/
def nodesOf (events : List Event) : List (Text × Nat × Nat) :=
  events.filterMap fun event => match event with
    | .mknod path _ major minor _ => some (path, major, minor)
    | _ => none

/-- The nodes of a range as the documentation describes it. -/
def documentedRange (columns : Columns) (full_name : Text) : List (Text × Nat × Nat) :=
  (List.range columns.count).map fun k =>
    (full_name ++ decimal (columns.start + k), columns.major, columns.minor + k * columns.increment)

/-! ### What is logged -/

private theorem nodesOf_append (first second : List Event) : nodesOf (first ++ second) = nodesOf first ++ nodesOf second :=
  List.filterMap_append

private theorem setMode_nodes (path : Text) (mode : Nat) (p : Process) : nodesOf (setMode sys path mode p).events = nodesOf p.events := by
  unfold setMode
  split
  · rfl
  · simp only [apply_ite Process.events, Process.fail_events, ite_self, chmod_events, nodesOf_append]
    exact List.append_nil _

private theorem makeNode_nodes (path : Text) (mode major minor uid gid : Nat) (p : Process) :
    nodesOf (makeNode sys path mode major minor uid gid p).events = nodesOf p.events ++ [(path, major, minor)] := by
  rw [makeNode, setMode_nodes]
  simp only [apply_ite Process.events, Process.fail_events, ite_self, chown_events, mknod_events, apply_ite nodesOf, nodesOf_append]
  exact (congrArg₂ _ (List.append_nil _) rfl).trans (ite_self _)

private theorem makeNodes_nodes (columns : Columns) (full_name : Text) (mode uid gid : Nat) (indices : List Nat) (p : Process) :
    nodesOf (makeNodes sys columns full_name mode uid gid indices p).events = nodesOf p.events ++ indices.map fun i =>
      (full_name ++ decimal i, columns.major, nodeMinor columns.minor columns.start columns.increment i) := by
  induction indices generalizing p with
  | nil => simp [makeNodes]
  | cons i rest ih =>
    rw [makeNodes, ih, makeNode_nodes, List.append_assoc]
    rfl

private theorem groupOf_nodes {columns : Columns} {p p' : Process} {gid : Option Nat} (found : groupOf sys columns p = (gid, p')) :
    nodesOf p'.events = nodesOf p.events := by
  obtain rfl : (groupOf sys columns p).2 = p' := congrArg Prod.snd found
  unfold groupOf get_ug_id
  split
  · rfl
  · split <;> simp [my_getgrnam, nodesOf]

private theorem userOf_nodes {columns : Columns} {p p' : Process} {uid : Option Nat} (found : userOf sys columns p = (uid, p')) :
    nodesOf p'.events = nodesOf p.events := by
  obtain rfl : (userOf sys columns p).2 = p' := congrArg Prod.snd found
  unfold userOf get_ug_id
  split
  · rfl
  · split <;> simp [my_getpwnam, nodesOf]

/-! ### Ranges -/

/-- What the loop makes of a range entry. -/
def loopedRange (columns : Columns) (full_name : Text) : List (Text × Nat × Nat) :=
  (List.range' columns.start (columns.count - columns.start)).map fun i =>
    (full_name ++ decimal i, columns.major, nodeMinor columns.minor columns.start columns.increment i)

private theorem actOn_range {columns : Columns} (node : columns.type = 'c' ∨ columns.type = 'b' ∨ columns.type = 'p')
    (counted : 0 < columns.count) (linenum : Nat) (full_name : Text) (uid gid : Nat) (p : Process) :
    nodesOf (actOn sys linenum columns full_name uid gid p).events = nodesOf p.events ++ loopedRange columns full_name := by
  rcases node with type | type | type <;>
    simp only [actOn, type, nodeEntry, if_pos counted, makeNodes_nodes] <;> rfl

/-- Every accepted line of a range attempts the nodes of the loop. -/
theorem range_attempted {rootdir : Text} {memory : Memory} {linenum : Nat} {line : Text} {columns : Columns} {p p' : Process}
    (read : readLine memory line = .entry columns) (node : columns.type = 'c' ∨ columns.type = 'b' ∨ columns.type = 'p')
    (counted : 0 < columns.count) (handled : handleLine sys rootdir memory linenum line p = .ok p') :
    nodesOf p'.events = nodesOf p.events ++ loopedRange columns (concat_path_file rootdir columns.name) := by
  simp only [handleLine, read] at handled
  split at handled
  · simp at handled
  · next gid p₁ grouped =>
    split at handled
    · simp at handled
    · next uid p₂ owned =>
      obtain rfl := Except.ok.inj handled
      rw [actOn_range sys node counted, userOf_nodes sys owned, groupOf_nodes sys grouped]

theorem entry_small {memory : Memory} {line : Text} {columns : Columns} (read : readLine memory line = .entry columns) :
    columns.minor ≤ 255 ∧ columns.start ≤ 255 ∧ columns.increment ≤ 255 ∧ columns.count ≤ 255 := by
  unfold readLine at read
  split at read
  · split at read <;> simp at read
  · next accepted =>
    split at read
    · simp at read
    · obtain rfl := Reading.entry.inj read
      have small := accepted_numbers (mt (refused_iff memory line).mpr accepted) memory
      simp only [numbersOf, List.forall_mem_cons] at small
      exact ⟨small.2.1, small.2.2.1, small.2.2.2.1, small.2.2.2.2.1⟩

private theorem loopedRange_eq {columns : Columns} (minor : columns.minor ≤ 255) (increment : columns.increment ≤ 255)
    (count : columns.count ≤ 255) (counted : 0 < columns.count) (full_name : Text) :
    loopedRange columns full_name = documentedRange columns full_name ↔ columns.start = 0 := by
  constructor
  · intro same
    have lengths := congrArg List.length same
    simp only [loopedRange, documentedRange, List.length_map, List.length_range', List.length_range] at lengths
    omega
  · intro zero
    rw [loopedRange, documentedRange, zero, Nat.sub_zero, ← List.range_eq_range']
    refine List.map_congr_left fun k inside => ?_
    have below : k ≤ 255 := by
      have := List.mem_range.mp inside
      omega
    have product : k * columns.increment ≤ 255 * 255 := Nat.mul_le_mul below increment
    have exact_minor : nodeMinor columns.minor 0 columns.increment k = columns.minor + k * columns.increment := by
      unfold nodeMinor
      rw [Nat.cast_zero, Int.sub_zero, ← Nat.cast_mul]
      omega
    rw [exact_minor, Nat.zero_add]

/-- The nodes attempted for a range are the documented ones exactly when it starts at 0. -/
theorem range_created_iff {rootdir : Text} {memory : Memory} {linenum : Nat} {line : Text} {columns : Columns} {p p' : Process}
    (read : readLine memory line = .entry columns) (node : columns.type = 'c' ∨ columns.type = 'b' ∨ columns.type = 'p')
    (counted : 0 < columns.count) (handled : handleLine sys rootdir memory linenum line p = .ok p') :
    nodesOf p'.events = nodesOf p.events ++ documentedRange columns (concat_path_file rootdir columns.name) ↔ columns.start = 0 := by
  obtain ⟨minor, -, increment, count⟩ := entry_small read
  rw [range_attempted sys read node counted handled, List.append_right_inj]
  exact loopedRange_eq minor increment count counted _

/-! ### The ranges of the usage text -/

theorem handle_entry {rootdir : Text} {memory : Memory} {linenum : Nat} {line : Text} {columns : Columns} {p p₁ p₂ : Process} {uid gid : Nat}
    (read : readLine memory line = .entry columns) (group : groupOf sys columns p = (some gid, p₁))
    (user : userOf sys columns p₁ = (some uid, p₂)) : handleLine sys rootdir memory linenum line p =
      .ok (actOn sys linenum columns (concat_path_file rootdir columns.name) uid gid p₂) := by
  simp only [handleLine, read, group, user]

/-- A system on which every call succeeds. -/
def obliging : System where
  mkdir _ _ := none
  stat _ _ := some .S_IFREG
  chmod _ _ _ := true
  chown _ _ _ _ := true
  mknod _ _ _ _ _ := true
  getpwnam _ := some 0
  getgrnam _ := some 0
  getuid := 0
  getgid := 0

private def cleared : Memory := { name := [], type := ' ', user := [], group := [] }

private def begun : Process := { events := [], umask := 0, ret := false }

private def hda (minor start increment count : Nat) : Columns where
  name := "/dev/hda".toList
  type := 'b'
  mode := 0o640
  user := ['0']
  group := ['0']
  major := 3
  minor := minor
  start := start
  increment := increment
  count := count

private theorem hda_handled {line : Text} {minor start increment count : Nat}
    (read : readLine cleared line = .entry (hda minor start increment count)) :
    handleLine obliging "rootfs".toList cleared 1 line begun = .ok (actOn obliging 1 (hda minor start increment count)
      (concat_path_file "rootfs".toList (hda minor start increment count).name) 0 0 begun) :=
  handle_entry obliging read rfl rfl

/-- The range that starts at 0 is created. -/
theorem hda_from_zero : ∃ p', handleLine obliging "rootfs".toList cleared 1 "/dev/hda b 640 0 0 3 0 0 1 16".toList begun = .ok p' ∧
    nodesOf p'.events = nodesOf begun.events ++ documentedRange (hda 0 0 1 16) (concat_path_file "rootfs".toList (hda 0 0 1 16).name) := by
  have read : readLine cleared "/dev/hda b 640 0 0 3 0 0 1 16".toList = .entry (hda 0 0 1 16) := by decide +kernel
  have zero : (hda 0 0 1 16).start = 0 := rfl
  refine ⟨_, hda_handled read, ?_⟩
  rw [range_created_iff obliging read (Or.inr (Or.inl rfl)) (by decide) (hda_handled read)]
  exact zero

/-- The range of the usage text is not: `/dev/hda15` is missing. -/
theorem hda_from_one_short : ∃ p', handleLine obliging "rootfs".toList cleared 1 "/dev/hda b 640 0 0 3 1 1 1 15".toList begun = .ok p' ∧
    nodesOf p'.events ≠ nodesOf begun.events ++ documentedRange (hda 1 1 1 15) (concat_path_file "rootfs".toList (hda 1 1 1 15).name) := by
  have read : readLine cleared "/dev/hda b 640 0 0 3 1 1 1 15".toList = .entry (hda 1 1 1 15) := by decide +kernel
  have late : (hda 1 1 1 15).start ≠ 0 := Nat.one_ne_zero
  refine ⟨_, hda_handled read, ?_⟩
  rw [range_attempted obliging read (Or.inr (Or.inl rfl)) (by decide) (hda_handled read)]
  exact fun same => late ((loopedRange_eq (by decide) (by decide) (by decide) (by decide) _).mp (List.append_cancel_left same))

end EmbToolkit.Proofs.DeviceRanges
