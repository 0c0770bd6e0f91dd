import EmbToolkit.Download
import EmbToolkit.Library.Script

/-! The patched source tree of a package over several attempts at fetching and unpacking it. The tree is marked
unpacked before it is patched and marked patched whether or not that worked, so that from the first mark on everything
has to succeed. -/

namespace EmbToolkit.Proofs.PatchedTree
open EmbToolkit.Download Shell

/-- An attempt at one of the two recipes, each command ending as its reply says. -/
inductive Step where
  | download (replies : Command → Reply)
  | decompress (replies : Command → Reply)

variable (m : Makefile) (c : Config) (o : Remote)

namespace Step

def replies : Step → Command → Reply
  | .download replies => replies
  | .decompress replies => replies

def lines : Step → List (Script Command)
  | .download _ => embtk_download_pkg m c
  | .decompress _ => embtk_decompress_pkg m c

def result (s : Step) (w : World) : Status × World := attempt o s.replies (s.lines m c) w

def apply (s : Step) (w : World) : World := (s.result m c o w).2

/-- The step whose success means that the source tree is there: the checkout from svn, else the unpacking. -/
def completes : Step → Bool
  | .download _ => m.usesvn c
  | .decompress _ => !m.usesvn c

end Step

/-- The upstream tree with the whole patch applied once. -/
def Patched (w : World) : Prop := w.nodes .srcdir = some (.tree true [.patch])

/-- Neither mark is on any other tree. -/
structure Marked (w : World) : Prop where
  patched : w.nodes .dotpatched_f ≠ none → Patched w
  decompressed : w.nodes .dotdecompressed_f ≠ none → Patched w

/-- What an attempt should have done, however it ended. -/
structure Right (s : Step) (result : Status × World) : Prop where
  marked : Marked result.2
  complete : s.completes m c = true → result.1 = .ok → Patched result.2

/-! ### Safe attempts -/

/-- The whole patch is in the download directory. -/
def PatchWhole (w : World) : Prop := ∃ url, w.nodes .patch_f = some (.file (some url))

/-- Nothing is done, or unpacking or marking does not come about, or all goes well up to the end of the patch. -/
def SafeDecompress (replies : Command → Reply) (w : World) : Prop :=
  w.nodes .dotdecompressed_f ≠ none ∨ replies .tar ≠ .done ∨
    (∃ extent, extent ≠ .whole ∧
      (replies (.touch .dotdecompressed_f) = .fails extent ∨ replies (.touch .dotdecompressed_f) = .killed extent)) ∨
    ((∀ extent, replies (.missing .dotpatched_f) ≠ .killed extent) ∧ replies (.touch .dotdecompressed_f) = .done ∧
      replies (.cd .patches .srcdir) = .done ∧ replies .patch = .done ∧ PatchWhole w)

/-- There is no checkout, or a complete one that is not edited, or a patched one with its mark; the patch is not there
in part; and where the mark is not there, neither entering the tree nor patching fails. -/
structure SafeSvn (replies : Command → Reply) (w : World) : Prop where
  tree : w.nodes .srcdir = none ∨ w.nodes .srcdir = some (.tree true []) ∨ (Patched w ∧ w.nodes .dotpatched_f ≠ none)
  patch : w.nodes .patch_f = none ∨ PatchWhole w
  entered : w.nodes .dotpatched_f = none → ∀ extent, replies (.cd .patches .srcdir) ≠ .fails extent
  applied : w.nodes .dotpatched_f = none → ∀ extent, replies .patch ≠ .fails extent

def Safe : Step → World → Prop
  | .download replies, w => m.usesvn c = true → SafeSvn replies w
  | .decompress replies, w => m.usesvn c = false → SafeDecompress replies w

/-! ### Commands that leave the tree alone -/

/-- The tree and its marks. -/
def source (w : World) : Option Node × Option Node × Option Node :=
  (w.nodes .srcdir, w.nodes .dotdecompressed_f, w.nodes .dotpatched_f)

private theorem source_parts {w w' : World} (same : source w' = source w) : w'.nodes .srcdir = w.nodes .srcdir ∧
    w'.nodes .dotdecompressed_f = w.nodes .dotdecompressed_f ∧ w'.nodes .dotpatched_f = w.nodes .dotpatched_f := by
  simpa [source] using same

theorem Patched.congr {w w' : World} (same : source w' = source w) (patched : Patched w) : Patched w' :=
  (congrArg Prod.fst same).trans patched

theorem Marked.congr {w w' : World} (same : source w' = source w) (marked : Marked w) : Marked w' := by
  obtain ⟨-, decompressed, patched⟩ := source_parts same
  exact ⟨fun there => (marked.patched (patched ▸ there)).congr same, fun there => (marked.decompressed (decompressed ▸ there)).congr same⟩

def Elsewhere : Command → Prop
  | .exists_ _ | .missing _ | .true_ | .echo => True
  | .rm path => path = .package_f ∨ path = .patch_f
  | .wget _ _ out _ => out = .package_f ∨ out = .patch_f
  | _ => False

section
variable {o}

private theorem effect_elsewhere {command : Command} (elsewhere : Elsewhere command) (w : World) (extent : Extent) :
    source (effect o w command extent) = source w := by
  cases command <;> simp only [Elsewhere] at elsewhere
  case rm path => rcases elsewhere with rfl | rfl <;> cases extent <;> simp [effect, source, World.set]
  case wget purpose passive out url => rcases elsewhere with rfl | rfl <;> cases extent <;> simp [effect, source, World.set]
  all_goals rfl

private theorem perform_elsewhere {command : Command} (elsewhere : Elsewhere command) (replies : Command → Reply) (w : World) :
    source (perform o replies command w).2 = source w := by
  have kept : Ends (perform o replies) leave (.cmd command) (fun _ w' => source w' = source w) w := by
    refine ends_command o (fun extent _ => ?_) (fun _ extent _ => effect_elsewhere elsewhere _ extent)
      (fun _ _ => effect_elsewhere elsewhere _ _) fun _ => effect_elsewhere elsewhere _ _
    split
    · rfl
    · exact effect_elsewhere elsewhere _ extent
  exact kept

end

private theorem elsewhere_firstOf {last : Script Command} {scripts : List (Script Command)}
    (lastly : ∀ command ∈ last.commands, Elsewhere command) (all : ∀ script ∈ scripts, ∀ command ∈ script.commands, Elsewhere command) :
    ∀ command ∈ (firstOf last scripts).commands, Elsewhere command := by
  induction scripts with
  | nil => exact lastly
  | cons script rest ih =>
    intro command member
    rcases List.mem_append.mp member with here | later
    · exact all script List.mem_cons_self command here
    · exact ih (fun other inside => all other (List.mem_cons_of_mem script inside)) command later

private theorem elsewhere_wget {purpose : Purpose} {out : Path} {site file : String} (download : out = .package_f ∨ out = .patch_f) :
    ∀ command ∈ (embtk_wget purpose out site file).commands, Elsewhere command := by
  simp [embtk_wget, Script.commands, Elsewhere, download]

private theorem elsewhere_exitfailure {path : Path} {named : Bool} (download : path = .package_f ∨ path = .patch_f) :
    ∀ command ∈ (download_pkg_exitfailure path named).commands, Elsewhere command := by
  cases named <;> simp [download_pkg_exitfailure, Script.commands, Elsewhere, download]

private theorem elsewhere_tarballLine : ∀ command ∈ (tarballLine m).commands, Elsewhere command := by
  refine elsewhere_firstOf (elsewhere_exitfailure (Or.inl rfl)) fun script member => ?_
  simp only [List.mem_append, List.mem_cons, List.not_mem_nil, or_false, List.mem_ite_nil_right] at member
  rcases member with ((((rfl | rfl) | ⟨-, rfl⟩) | ⟨-, rfl⟩) | ⟨-, rfl⟩) | rfl
  · simp [Script.commands, Elsewhere]
  all_goals exact elsewhere_wget (Or.inl rfl)

private theorem elsewhere_patchLine : ∀ command ∈ (patchLine m c).commands, Elsewhere command := by
  intro command member
  rcases List.mem_append.mp member with fetch | failure
  · unfold download_pkg_patches at fetch
    split at fetch
    · rcases List.mem_append.mp fetch with test | wget
      · obtain rfl := List.mem_singleton.mp test
        trivial
      · exact elsewhere_wget (Or.inr rfl) command wget
    · obtain rfl := List.mem_singleton.mp fetch
      trivial
  · exact elsewhere_exitfailure (Or.inr rfl) command failure

/-! ### Unpacking -/

/-- The marks are right, and an unmarked tree has not been patched. -/
structure Sound (w : World) : Prop extends Marked w where
  unmarked : w.nodes .dotdecompressed_f = none → treeOf (w.nodes .srcdir) = []

/-- As `Right`, of a script of the unpacking that has ended so. -/
private def Unpacks (status : Status) (w : World) : Prop := Sound w ∧ (status = .ok → Patched w)

private theorem sound_bad {status : Status} (bad : status ≠ .ok) {w : World} (sound : Sound w) : Unpacks status w :=
  ⟨sound, fun ok => absurd ok bad⟩

private theorem sound_patched {w : World} (patched : Patched w) (marked : w.nodes .dotdecompressed_f ≠ none) : Sound w :=
  ⟨⟨fun _ => patched, fun _ => patched⟩, fun unmarked => absurd unmarked marked⟩

/-- No marks and no edits. -/
private structure Fresh (w : World) : Prop where
  decompressed : w.nodes .dotdecompressed_f = none
  patched : w.nodes .dotpatched_f = none
  edits : treeOf (w.nodes .srcdir) = []

private theorem Sound.congr {w w' : World} (same : source w' = source w) (sound : Sound w) : Sound w' := by
  obtain ⟨tree, decompressed, -⟩ := source_parts same
  exact ⟨sound.toMarked.congr same, fun unmarked => tree ▸ sound.unmarked (decompressed ▸ unmarked)⟩

private theorem Fresh.congr {w w' : World} (same : source w' = source w) (fresh : Fresh w) : Fresh w' := by
  obtain ⟨tree, decompressed, patched⟩ := source_parts same
  exact ⟨decompressed.trans fresh.decompressed, patched.trans fresh.patched, tree ▸ fresh.edits⟩

private theorem Fresh.sound {w : World} (fresh : Fresh w) : Sound w :=
  ⟨⟨fun there => absurd fresh.patched there, fun there => absurd fresh.decompressed there⟩, fun _ => fresh.edits⟩

private theorem Sound.fresh {w : World} (sound : Sound w) (unmarked : w.nodes .dotdecompressed_f = none) : Fresh w := by
  refine ⟨unmarked, ?_, sound.unmarked unmarked⟩
  by_contra there
  have edits := sound.unmarked unmarked
  rw [sound.patched there] at edits
  cases edits

section
variable {o} {replies : Command → Reply} {w : World}

private theorem touch_patched (w : World) (extent : Extent) :
    (effect o w (.touch .dotpatched_f) extent).nodes .srcdir = w.nodes .srcdir ∧
      (effect o w (.touch .dotpatched_f) extent).nodes .dotdecompressed_f = w.nodes .dotdecompressed_f := by
  cases extent <;> simp [effect, World.set]

/-- Whatever becomes of the mark of a patched tree. -/
private theorem mark_ends {post : Status → World → Prop} (held : ∀ status w', w'.nodes .srcdir = w.nodes .srcdir →
    w'.nodes .dotdecompressed_f = w.nodes .dotdecompressed_f → post status w') :
    Ends (perform o replies) leave (.cmd (.touch .dotpatched_f)) post w := by
  have touched := touch_patched (o := o) (w.begin (.touch .dotpatched_f))
  refine ends_command o (fun extent _ => ?_) (fun _ extent _ => ?_) (fun _ _ => ?_) fun _ => ?_
  · split
    · exact held _ _ rfl rfl
    · exact held _ _ (touched extent).1 (touched extent).2
  · exact held _ _ (touched extent).1 (touched extent).2
  · exact held _ _ (touched _).1 (touched _).2
  · exact held _ _ (touched _).1 (touched _).2

/-- The tree is unpacked and marked so; from here on nothing may go wrong until it is patched. -/
private theorem applypatch_ends (needed : m.needpatch c = true) (fresh : w.nodes .dotpatched_f = none)
    (marked : w.nodes .dotdecompressed_f ≠ none) (tree : w.nodes .srcdir = some (.tree true []))
    (tested : ∀ extent, replies (.missing .dotpatched_f) ≠ .killed extent) (entered : replies (.cd .patches .srcdir) = .done)
    (applied : replies .patch = .done) (whole : PatchWhole w) :
    Ends (perform o replies) leave (applypatch_pkg m c) Unpacks w := by
  obtain ⟨url, whole⟩ := whole
  rw [applypatch_pkg, if_pos needed]
  refine ends_cond.mpr (ends_command o (fun extent reply => absurd reply (tested extent)) (fun noisy => ?_) (fun _ _ => ?_) fun absent => ?_)
  · simp [steady] at noisy
  · rw [if_pos rfl]
    refine ends_seq.mpr (ends_command o (fun extent reply => ?_) (fun _ extent reply => ?_) (fun _ _ => ?_) fun absent => ?_)
    · simp [entered] at reply
    · simp [entered] at reply
    · rw [if_pos (Or.inl rfl)]
      refine ends_seq.mpr (ends_command o (fun extent reply => ?_) (fun _ extent reply => ?_) (fun _ _ => ?_) fun absent => ?_)
      · simp [applied] at reply
      · simp [applied] at reply
      · rw [if_pos (Or.inl rfl)]
        refine mark_ends fun status w' same still => ?_
        have patched : Patched w' := by
          rw [Patched, same]
          simp [effect, World.set, World.begin, tree, whole]
        have kept : w'.nodes .dotdecompressed_f ≠ none := by
          rw [still]
          simpa [effect, World.set, World.begin, tree, whole] using marked
        exact ⟨sound_patched patched kept, fun _ => patched⟩
      · simp [possible, World.begin, effect, whole] at absent
    · simp [possible, World.begin, effect, tree] at absent
  · simp [possible, World.begin, fresh] at absent

private theorem tar_fresh {w : World} (fresh : Fresh w) (extent : Extent) : Fresh (effect o w .tar extent) := by
  obtain ⟨unmarked, unpatched, edits⟩ := fresh
  cases extent <;> refine ⟨?_, ?_, ?_⟩ <;> simp [effect, World.set, unmarked, unpatched, edits]

private theorem tar_ends {post : Status → World → Prop} (fresh : Fresh w) (bad : ∀ status, status ≠ .ok → ∀ w', Fresh w' → post status w')
    (done : replies .tar = .done → ∀ w', Fresh w' → w'.nodes .srcdir = some (.tree true []) → w'.nodes .patch_f = w.nodes .patch_f → post .ok w') :
    Ends (perform o replies) leave (decompress_pkg m) post w := by
  have begun (command : Command) : Fresh (w.begin command) := Fresh.congr (w := w) rfl fresh
  unfold decompress_pkg
  split
  · refine ends_command o (fun extent _ => bad _ (by decide) _ ?_) (fun _ extent _ => bad _ (by decide) _ (tar_fresh (begun _) extent))
      (fun reply _ => done (reply rfl) _ (tar_fresh (begun _) _) ?_ ?_) fun _ => bad _ (by decide) _ (tar_fresh (begun _) _)
    · split
      · exact fresh
      · exact tar_fresh (begun _) extent
    · simp [effect, World.set, (begun .tar).edits]
    · simp [effect, World.set, World.begin]
  · have quiet (extent : Extent) : Fresh (effect o (w.begin .echo) .echo extent) := Fresh.congr (w := w) rfl fresh
    refine ends_seq.mpr (ends_command o (fun extent _ => ?_) (fun noisy => ?_) (fun _ _ => ?_) fun unable => ?_)
    · rw [if_neg (by decide)]
      refine bad _ (by decide) _ ?_
      split
      · exact fresh
      · exact quiet extent
    · simp [steady] at noisy
    · rw [if_pos (Or.inl rfl)]
      exact bad .exited (by decide) _ (quiet .whole)
    · simp [possible] at unable

private theorem decompress_ends (needed : m.needpatch c = true) (safe : SafeDecompress replies w) (sound : Sound w) :
    Ends (perform o replies) leave (.cond (.cmd (.missing .dotdecompressed_f))
      (.and (decompress_pkg m) (.and (.cmd (.touch .dotdecompressed_f)) (applypatch_pkg m c)))) Unpacks w := by
  have begun : Sound (w.begin (.missing .dotdecompressed_f)) := Sound.congr (w := w) rfl sound
  refine ends_cond.mpr (ends_command o (fun extent _ => ?_) (fun noisy => ?_) (fun _ absent => ?_) fun there => ?_)
  · refine sound_bad (by decide) ?_
    split
    · exact sound
    · exact begun
  · simp [steady] at noisy
  · have unmarked : w.nodes .dotdecompressed_f = none := of_decide_eq_true absent
    rw [if_pos rfl]
    refine ends_and.mpr (tar_ends m (begun.fresh unmarked) (fun status bad w' fresh => ?_) fun unpacked w₁ fresh₁ tree₁ patch₁ => ?_)
    · rw [if_neg bad]
      exact sound_bad bad fresh.sound
    · rw [if_pos rfl]
      have half (extent : Extent) (some : extent ≠ .whole) (status : Status) (bad : status ≠ .ok) :
          Unpacks status (effect o (w₁.begin (.touch .dotdecompressed_f)) (.touch .dotdecompressed_f) extent) := by
        have same : source (effect o (w₁.begin (.touch .dotdecompressed_f)) (.touch .dotdecompressed_f) extent) = source w₁ := by
          cases extent <;> first | rfl | exact absurd rfl some
        exact sound_bad bad (fresh₁.congr same).sound
      rcases safe with marked | packed | ⟨extent, some, reply⟩ | ⟨tested, touched, entered, applied, whole⟩
      · exact absurd unmarked marked
      · exact absurd unpacked packed
      · refine ends_and.mpr (ends_command o (fun other killed => ?_) (fun _ other fails => ?_) (fun done _ => ?_) fun unable => ?_)
        · obtain rfl : extent = other := by
            rcases reply with fails | same
            · simp [fails] at killed
            · simpa [same] using killed
          rw [if_neg (by decide)]
          split
          · exact sound_bad (by decide) fresh₁.sound
          · exact half extent some .stopped (by decide)
        · obtain rfl : extent = other := by
            rcases reply with same | killed
            · simpa [same] using fails
            · simp [killed] at fails
          rw [if_neg (by decide)]
          exact half extent some .failed (by decide)
        · have reply' := done rfl
          rcases reply with fails | killed
          · simp [fails] at reply'
          · simp [killed] at reply'
        · simp [possible, World.begin, tree₁] at unable
      · refine ends_and.mpr (ends_command o (fun other killed => ?_) (fun _ other fails => ?_) (fun _ _ => ?_) fun unable => ?_)
        · simp [touched] at killed
        · simp [touched] at fails
        · rw [if_pos rfl]
          obtain ⟨url, whole⟩ := whole
          refine applypatch_ends m c needed ?_ ?_ ?_ tested entered applied ⟨url, ?_⟩
          · simpa [effect, World.set, World.begin] using fresh₁.patched
          · simp [effect, World.set, World.begin]
          · simpa [effect, World.set, World.begin] using tree₁
          · simpa [effect, World.set, World.begin, whole] using patch₁
        · simp [possible, World.begin, tree₁] at unable
  · have marked : w.nodes .dotdecompressed_f ≠ none := of_decide_eq_false there
    exact ⟨begun, fun _ => begun.decompressed marked⟩

/-! ### Checking out from svn -/

/-- As `Right`, of a script of the checkout that has ended so. -/
private def Checks (status : Status) (w : World) : Prop := Marked w ∧ (status = .ok → Patched w)

private theorem marked_bad {status : Status} (bad : status ≠ .ok) {w : World} (marked : Marked w) : Checks status w :=
  ⟨marked, fun ok => absurd ok bad⟩

private theorem marked_unmarked {w : World} (unpatched : w.nodes .dotpatched_f = none) (unpacked : w.nodes .dotdecompressed_f = none) :
    Marked w :=
  ⟨fun there => absurd unpatched there, fun there => absurd unpacked there⟩

/-- A tree that is not patched has no marks. -/
private theorem Marked.unmarked {w : World} (marked : Marked w) (different : ¬ Patched w) :
    w.nodes .dotpatched_f = none ∧ w.nodes .dotdecompressed_f = none :=
  ⟨not_not.mp fun there => different (marked.patched there), not_not.mp fun there => different (marked.decompressed there)⟩

private theorem elsewhere_ends {script : Script Command} (elsewhere : ∀ command ∈ script.commands, Elsewhere command) :
    Ends (perform o replies) leave script (fun _ w' => source w' = source w) w :=
  exec_preserves (perform o replies) leave (fun w' => source w' = source w) (fun _ _ _ inner => inner)
    (fun command member w' same => (perform_elsewhere (elsewhere command member) replies w').trans same) rfl

private theorem exitfailure_bad (path : Path) (named : Bool) :
    Ends (perform o replies) leave (download_pkg_exitfailure path named) (fun status _ => status ≠ .ok) w := by
  refine ends_sub.mpr (ends_and.mpr (ends_command o (fun _ _ => by simp) (fun noisy => ?_) (fun _ _ => ?_) fun unable => ?_))
  · simp [steady] at noisy
  · rw [if_pos rfl]
    cases named with
    | false => exact (by decide : Status.failed ≠ .ok)
    | true =>
      exact ends_and.mpr (ends_command o (fun _ _ => by simp) (fun _ _ _ => by simp) (fun _ _ => (by decide : Status.failed ≠ .ok))
        fun _ => by simp)
  · simp [possible] at unable

private theorem wget_whole (site file : String) :
    Ends (perform o replies) leave (embtk_wget .patches .patch_f site file) (fun status w' => status = .ok → PatchWhole w') w := by
  have whole (w : World) (url : String) (passive : Bool) :
      PatchWhole (effect o (w.begin (.wget .patches passive .patch_f url)) (.wget .patches passive .patch_f url) .whole) :=
    ⟨url, by simp [effect, World.set]⟩
  have again (w : World) (url : String) : Ends (perform o replies) leave (.cmd (.wget .patches false .patch_f url))
      (fun status w' => status = .ok → PatchWhole w') w :=
    ends_command o (fun _ _ => by simp) (fun _ _ _ => by simp) (fun _ _ _ => whole w url false) fun _ => by simp
  refine ends_or.mpr (ends_command o (fun _ _ => ?_) (fun _ _ _ => ?_) (fun _ _ => ?_) fun _ => ?_)
  · rw [if_neg (by decide)]
    simp
  · rw [if_pos rfl]
    exact again _ _
  · rw [if_neg (by decide)]
    exact fun _ => whole w _ true
  · rw [if_pos rfl]
    exact again _ _

private theorem patchLine_whole (needed : m.needpatch c = true) (patch : w.nodes .patch_f = none ∨ PatchWhole w) :
    Ends (perform o replies) leave (patchLine m c) (fun status w' => status = .ok → PatchWhole w') w := by
  have failure (w' : World) : Ends (perform o replies) leave (download_pkg_exitfailure .patch_f true)
      (fun status w' => status = .ok → PatchWhole w') w' :=
    (exitfailure_bad .patch_f true).weaken fun _ _ bad ok => absurd ok bad
  rw [patchLine, download_pkg_patches, if_pos needed]
  refine ends_or.mpr (ends_or.mpr (ends_command o (fun _ _ => ?_) (fun noisy => ?_) (fun _ there => ?_) fun _ => ?_))
  · simp
  · simp [steady] at noisy
  · rw [if_neg (by decide), if_neg (by decide)]
    exact fun _ => patch.resolve_left (of_decide_eq_true there)
  · rw [if_pos rfl]
    refine (wget_whole _ _).weaken fun status w' fetched => ?_
    split
    · exact failure w'
    · exact fetched

private theorem svn_effect (url revision : String) (w : World) (extent : Extent) :
    let w' := effect o w (.svnCheckout url revision) extent
    w'.nodes .dotpatched_f = w.nodes .dotpatched_f ∧ w'.nodes .dotdecompressed_f = w.nodes .dotdecompressed_f ∧
      w'.nodes .patch_f = w.nodes .patch_f := by
  cases extent <;> simp [effect, World.set]

/-- A checkout or a patched tree is there, or the line has ended badly and left no marks where they do not belong. -/
private theorem checkout_ends {url revision : String} (safe : SafeSvn replies w) (marked : Marked w) :
    Ends (perform o replies) leave (.or (.cmd (.exists_ .srcdir)) (.or (.cmd (.svnCheckout url revision))
      (download_pkg_exitfailure .package_f m.package_named))) (fun status w' => Marked w' ∧ (status = .ok →
        w'.nodes .dotpatched_f = w.nodes .dotpatched_f ∧ w'.nodes .patch_f = w.nodes .patch_f ∧
          (w'.nodes .srcdir = some (.tree true []) ∨ (Patched w' ∧ w'.nodes .dotpatched_f ≠ none)))) w := by
  have begun (command : Command) : Marked (w.begin command) := Marked.congr (w := w) rfl marked
  refine ends_or.mpr (ends_command o (fun extent _ => ?_) (fun noisy => ?_) (fun _ there => ?_) fun absent => ?_)
  · rw [if_neg (by decide)]
    refine ⟨?_, by simp⟩
    split
    · exact marked
    · exact begun _
  · simp [steady] at noisy
  · rw [if_neg (by decide)]
    exact ⟨begun _, fun _ => ⟨rfl, rfl, safe.tree.resolve_left (of_decide_eq_true there)⟩⟩
  · have nothing : w.nodes .srcdir = none := not_not.mp (of_decide_eq_false absent)
    obtain ⟨unpatched, unpacked⟩ := marked.unmarked (by simp [Patched, nothing])
    rw [if_pos rfl]
    have bare (extent : Extent) : Marked (effect o ((w.begin (.exists_ .srcdir)).begin (.svnCheckout url revision))
        (.svnCheckout url revision) extent) := by
      obtain ⟨patched, packed, -⟩ := svn_effect (o := o) url revision ((w.begin (.exists_ .srcdir)).begin (.svnCheckout url revision)) extent
      exact marked_unmarked (patched.trans unpatched) (packed.trans unpacked)
    have failure (w' : World) (marked' : Marked w') : Ends (perform o replies) leave (download_pkg_exitfailure .package_f m.package_named)
        (fun status w'' => Marked w'' ∧ (status = .ok → w''.nodes .dotpatched_f = w.nodes .dotpatched_f ∧ w''.nodes .patch_f = w.nodes .patch_f ∧
          (w''.nodes .srcdir = some (.tree true []) ∨ (Patched w'' ∧ w''.nodes .dotpatched_f ≠ none)))) w' :=
      ⟨marked'.congr (elsewhere_ends (elsewhere_exitfailure (Or.inl rfl))), fun ok => absurd ok (exitfailure_bad .package_f m.package_named)⟩
    refine ends_or.mpr (ends_command o (fun extent _ => ?_) (fun _ extent _ => ?_) (fun _ _ => ?_) fun unable => ?_)
    · rw [if_neg (by decide)]
      refine ⟨?_, by simp⟩
      split
      · exact begun _
      · exact bare extent
    · rw [if_pos rfl]
      exact failure _ (bare extent)
    · rw [if_neg (by decide)]
      obtain ⟨mark, -, patch⟩ := svn_effect (o := o) url revision ((w.begin (.exists_ .srcdir)).begin (.svnCheckout url revision)) .whole
      exact ⟨bare _, fun _ => ⟨mark, patch, Or.inl (by simp [effect, World.set, World.begin, nothing, treeOf])⟩⟩
    · simp [possible] at unable

/-- Patching a checkout: it has no mark of being unpacked, so that being killed on the way does no harm yet. -/
private theorem svn_applypatch_ends (needed : m.needpatch c = true) (marked : Marked w) (whole : PatchWhole w)
    (tree : w.nodes .srcdir = some (.tree true []) ∨ (Patched w ∧ w.nodes .dotpatched_f ≠ none))
    (entered : w.nodes .dotpatched_f = none → ∀ extent, replies (.cd .patches .srcdir) ≠ .fails extent)
    (applied : w.nodes .dotpatched_f = none → ∀ extent, replies .patch ≠ .fails extent) :
    Ends (perform o replies) leave (applypatch_pkg m c) Checks w := by
  have begun (command : Command) : Marked (w.begin command) := Marked.congr (w := w) rfl marked
  obtain ⟨url, whole⟩ := whole
  rw [applypatch_pkg, if_pos needed]
  refine ends_cond.mpr (ends_command o (fun extent _ => ?_) (fun noisy => ?_) (fun _ absent => ?_) fun there => ?_)
  · refine marked_bad (by decide) ?_
    split
    · exact marked
    · exact begun _
  · simp [steady] at noisy
  · have unpatched : w.nodes .dotpatched_f = none := of_decide_eq_true absent
    have plain : w.nodes .srcdir = some (.tree true []) := tree.resolve_right fun patched => patched.2 unpatched
    obtain ⟨-, unpacked⟩ := marked.unmarked (by simp [Patched, plain])
    rw [if_pos rfl]
    refine ends_seq.mpr (ends_command o (fun extent _ => ?_) (fun _ extent reply => absurd reply (entered unpatched extent)) (fun _ _ => ?_) fun unable => ?_)
    · rw [if_neg (by decide)]
      refine marked_bad (by decide) ?_
      split
      · exact begun _
      · exact marked_unmarked (by cases extent <;> exact unpatched) (by cases extent <;> exact unpacked)
    · rw [if_pos (Or.inl rfl)]
      refine ends_seq.mpr (ends_command o (fun extent _ => ?_) (fun _ extent reply => absurd reply (applied unpatched extent)) (fun _ _ => ?_) fun unable => ?_)
      · rw [if_neg (by decide)]
        refine marked_bad (by decide) ?_
        split
        · exact marked_unmarked unpatched unpacked
        · refine marked_unmarked ?_ ?_
          · cases extent <;> simp [effect, World.set, World.begin, plain, unpatched]
          · cases extent <;> simp [effect, World.set, World.begin, plain, unpacked]
      · rw [if_pos (Or.inl rfl)]
        refine mark_ends fun status w' same _ => ?_
        have patched : Patched w' := by
          rw [Patched, same]
          simp [effect, World.set, World.begin, plain, whole]
        exact ⟨⟨fun _ => patched, fun _ => patched⟩, fun _ => patched⟩
      · simp [possible, World.begin, effect, whole] at unable
    · simp [possible, World.begin, effect, plain] at unable
  · have mark : w.nodes .dotpatched_f ≠ none := of_decide_eq_false there
    exact ⟨begun _, fun _ => (begun _).patched mark⟩

private theorem checks_leave (before : World) {status : Status} (checks : Checks status w) : Checks status (leave before w) :=
  ⟨Marked.congr (w := w) rfl checks.1, checks.2⟩

private theorem svn_ends (needed : m.needpatch c = true) (svn : m.usesvn c = true) (git : m.usegit c = false)
    (safe : SafeSvn replies w) (marked : Marked w) : RecipeEnds (perform o replies) leave (embtk_download_pkg m c) Checks w := by
  rw [embtk_download_pkg, if_neg (by simp [git]), if_pos svn, download_pkg_from_svn]
  refine recipeEnds_cons.mpr ((checkout_ends m safe marked).weaken fun status w₁ ⟨marked₁, there⟩ => ?_)
  split
  · next ok =>
    obtain ⟨mark, patch, tree⟩ := there ok
    have usable : (leave w w₁).nodes .patch_f = none ∨ PatchWhole (leave w w₁) := by
      unfold PatchWhole leave
      rw [patch]
      exact safe.patch
    have alone : Ends (perform o replies) leave (patchLine m c) (fun _ w' => source w' = source (leave w w₁)) (leave w w₁) :=
      elsewhere_ends (elsewhere_patchLine m c)
    refine recipeEnds_cons.mpr ((alone.both (patchLine_whole m c needed usable)).weaken fun status w₂ ⟨same, whole⟩ => ?_)
    have marked₂ : Marked w₂ := Marked.congr (w := w₁) same marked₁
    have mark₂ : w₂.nodes .dotpatched_f = w.nodes .dotpatched_f := (source_parts same).2.2.trans mark
    have tree₂ : w₂.nodes .srcdir = some (.tree true []) ∨ (Patched w₂ ∧ w₂.nodes .dotpatched_f ≠ none) := by
      obtain ⟨srcdir, -, mark⟩ := source_parts same
      exact tree.imp srcdir.trans fun patched => ⟨srcdir.trans patched.1, mark ▸ patched.2⟩
    split
    · next ok =>
      have start : Marked (leave (leave w w₁) w₂) := Marked.congr (w := w₂) rfl marked₂
      refine recipeEnds_cons.mpr ((svn_applypatch_ends (w := leave (leave w w₁) w₂) m c needed start (whole ok) tree₂
        (fun unpatched => safe.entered (mark₂ ▸ unpatched)) fun unpatched => safe.applied (mark₂ ▸ unpatched)).weaken fun status w₃ checks => ?_)
      split
      · next ok =>
        rw [ok] at checks
        exact checks_leave _ checks
      · exact checks_leave _ checks
    · next bad => exact checks_leave _ (marked_bad bad marked₂)
  · next bad => exact checks_leave _ (marked_bad bad marked₁)

end

/-! ### Sequences of attempts -/

/-- The marks are right, and an unpacked tree without its mark has not been patched. -/
private structure Valid (m : Makefile) (c : Config) (w : World) : Prop where
  marked : Marked w
  unmarked : m.usesvn c = false → w.nodes .dotdecompressed_f = none → treeOf (w.nodes .srcdir) = []

private theorem Valid.congr {m : Makefile} {c : Config} {w w' : World} (same : source w' = source w) (valid : Valid m c w) : Valid m c w' := by
  obtain ⟨tree, decompressed, -⟩ := source_parts same
  exact ⟨valid.marked.congr same, fun tarball unmarked => tree ▸ valid.unmarked tarball (decompressed ▸ unmarked)⟩

private theorem elsewhere_result {o : Remote} {replies : Command → Reply} {w : World} {lines : List (Script Command)}
    (elsewhere : ∀ line ∈ lines, ∀ command ∈ line.commands, Elsewhere command) : source (attempt o replies lines w).2 = source w :=
  recipe_preserves (perform o replies) leave (fun w' => source w' = source w) (fun _ _ _ inner => inner)
    (fun line member command inside w' same => (perform_elsewhere (elsewhere line member command inside) replies w').trans same) rfl

private theorem step_right {m : Makefile} {c : Config} {o : Remote} (needed : m.needpatch c = true) (git : m.usegit c = false) {s : Step}
    {w : World} (safe : Safe m c s w) (valid : Valid m c w) : Valid m c (s.apply m c o w) ∧ Right m c s (s.result m c o w) := by
  cases s with
  | download replies =>
    cases svn : m.usesvn c with
    | true =>
      obtain ⟨marked, complete⟩ := svn_ends (o := o) m c needed svn git (safe svn) valid.marked
      exact ⟨⟨marked, fun tarball => by simp [svn] at tarball⟩, ⟨marked, fun _ => complete⟩⟩
    | false =>
      have same : source (attempt o replies (embtk_download_pkg m c) w).2 = source w := by
        refine elsewhere_result fun line member => ?_
        simp only [embtk_download_pkg, git, svn, Bool.false_eq_true, if_false, download_pkg_from_tarball, List.mem_cons,
          List.not_mem_nil, or_false] at member
        rcases member with rfl | rfl
        · exact elsewhere_tarballLine m
        · exact elsewhere_patchLine m c
      exact ⟨valid.congr same, ⟨valid.marked.congr same, fun completes => by simp [Step.completes, svn] at completes⟩⟩
  | decompress replies =>
    cases svn : m.usesvn c with
    | true =>
      have same : source (attempt o replies (embtk_decompress_pkg m c) w).2 = source w := by
        refine elsewhere_result fun line member => ?_
        obtain rfl : line = .cmd .true_ := by simpa [embtk_decompress_pkg, svn] using member
        simp [Script.commands, Elsewhere]
      exact ⟨valid.congr same, ⟨valid.marked.congr same, fun completes => by simp [Step.completes, svn] at completes⟩⟩
    | false =>
      have sound : Sound w := ⟨valid.marked, valid.unmarked svn⟩
      have ends : RecipeEnds (perform o replies) leave (embtk_decompress_pkg m c) Unpacks w := by
        rw [embtk_decompress_pkg, if_neg (by simp [git, svn])]
        refine recipeEnds_cons.mpr ((decompress_ends m c needed (safe svn) sound).weaken fun status w' unpacks => ?_)
        have left : Unpacks status (leave w w') := ⟨Sound.congr (w := w') rfl unpacks.1, unpacks.2⟩
        split
        · next ok =>
          rw [ok] at left
          exact left
        · exact left
      obtain ⟨after, complete⟩ := ends
      exact ⟨⟨after.toMarked, fun _ => after.unmarked⟩, ⟨after.toMarked, fun _ => complete⟩⟩

/-- Throughout a sequence of safe attempts that begins with nothing, the marks are on no other tree than the patched
one, and that is what a successful last step leaves. -/
theorem attempts_patched (needed : m.needpatch c = true) (git : m.usegit c = false) (history : List Step) {w : World}
    (nothing : w.nodes = fun _ => none)
    (safe : Script.Throughout (Step.apply m c o) (fun _ before s => Safe m c s before) history w) :
    Script.Throughout (Step.apply m c o) (fun _ before s => Right m c s (s.result m c o before)) history w := by
  refine Script.throughout_of_invariant (fun _ state => Valid m c state) (fun _ before s => Safe m c s before) ?_ ?_ ?_ history safe
  · exact ⟨⟨by simp [nothing], by simp [nothing]⟩, fun _ _ => by simp [nothing, treeOf]⟩
  · exact fun _ _ _ valid safe => (step_right needed git safe valid).1
  · exact fun _ _ _ valid safe => (step_right needed git safe valid).2

/-! ### Examples of attempts -/

/-- The makefile of tslib, as far as the two recipes read it. -/
def tslib : Makefile where
  PKGV := "TSLIB"
  value name :=
    if name = "TSLIB_SITE" then "http://download.berlios.de/tslib"
    else if name = "TSLIB_PACKAGE" then "tslib-1.0.tar.bz2"
    else if name = "TSLIB_VERSION" then "1.0"
    else ""

/-- The configuration with the only version of tslib there is. -/
def tslibConfig : Config where
  lines := [.assigned "CONFIG_EMBTK_BINUTILS_REFSPEC" "\"toolchain\"", .assigned "CONFIG_EMBTK_HAVE_TSLIB" "y",
    .assigned "CONFIG_EMBTK_TSLIB_VERSION_1_0" "y", .assigned "CONFIG_EMBTK_TSLIB_VERSION_STRING" "\"1.0\"",
    .assigned "CONFIG_EMBTK_TSLIB_NEED_PATCH" "y", .assigned "CONFIG_EMBTK_TSLIB_NEED_AUTORECONF" "y"]
  binutils := by simp [ConfigLine.defines]

private def everythingServed : Remote where
  served _ := true
  defaultBranch := "master"

private def noFiles : World where
  nodes _ := none
  cwd := none
  log := []

private def undisturbed (_ : Command) : Reply := .done

/-- One attempt at each recipe, and nothing fails. -/
theorem attempts_patched_once : Script.Throughout (Step.apply tslib tslibConfig everythingServed)
    (fun _ before s => Right tslib tslibConfig s (s.result tslib tslibConfig everythingServed before))
    [.download undisturbed, .decompress undisturbed] noFiles := by
  have tarball : tslib.usesvn tslibConfig = false := by decide +kernel
  refine attempts_patched tslib tslibConfig everythingServed (by decide +kernel) (by decide +kernel) _ rfl ?_
  rw [← List.singleton_append, Script.throughout_concat, ← List.nil_append [_], Script.throughout_concat]
  refine ⟨⟨Script.throughout_nil _ _, fun svn => ?_⟩, fun _ => ?_⟩
  · rw [tarball] at svn
    cases svn
  · rw [List.nil_append, Script.run_cons, Script.run_nil]
    have fetched : ((Step.download undisturbed).apply tslib tslibConfig everythingServed noFiles).nodes .patch_f =
        some (.file (some "ftp://ftp.embtoolkit.org/embtoolkit.org/tslib/1.0/tslib-1.0-*.patch")) := by decide +kernel
    exact Or.inr (Or.inr (Or.inr ⟨fun _ => by simp [undisturbed], rfl, rfl, rfl, _, fetched⟩))

/-- The patch does not apply. -/
private def patchFails (command : Command) : Reply := if command = .patch then .fails .part else .done

/-- The unpacking goes on after a patch that failed, marks the tree patched and succeeds. -/
theorem failed_patch_marked : ¬ Script.Throughout (Step.apply tslib tslibConfig everythingServed)
    (fun _ before s => Right tslib tslibConfig s (s.result tslib tslibConfig everythingServed before))
    [.download undisturbed, .decompress patchFails] noFiles := by
  intro right
  have last := right [.download undisturbed] (.decompress patchFails) [] rfl
  rw [Script.run_cons, Script.run_nil] at last
  have unpatched : ((Step.decompress patchFails).result tslib tslibConfig everythingServed
      ((Step.download undisturbed).apply tslib tslibConfig everythingServed noFiles)).2.nodes .srcdir =
        some (.tree true [.partOfPatch]) := by decide +kernel
  have succeeded : ((Step.decompress patchFails).result tslib tslibConfig everythingServed
      ((Step.download undisturbed).apply tslib tslibConfig everythingServed noFiles)).1 = .ok := by decide +kernel
  have patched := last.complete (by decide +kernel) succeeded
  rw [Patched, unpatched] at patched
  cases patched

end EmbToolkit.Proofs.PatchedTree
