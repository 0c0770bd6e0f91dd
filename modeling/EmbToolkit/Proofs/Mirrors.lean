import EmbToolkit.Download
import EmbToolkit.Library.Script

/-! Fetching a tarball from the first of its sites that serves it. The macro tries the sites in the declared order and
removes the file after the last failure, so that it does what it should as long as it starts from no unfinished file
and knows of all the sites that the package declares. -/

namespace EmbToolkit.Proofs.Mirrors
open EmbToolkit.Download MakeText Shell

/-- An attempt that may be interrupted at any command, but whose commands do not fail without a reason. -/
structure Try where
  replies : Command → Reply
  unfailing : ∀ command extent, replies command ≠ .fails extent

/-! ### Sites -/

/-- A site with the name of the file there. -/
structure Source where
  purpose : Purpose
  site : String
  file : String
  deriving DecidableEq

def Source.url (source : Source) : String := dropSuffix "/" source.site ++ "/" ++ source.file

section
variable (m : Makefile)

/-- The mirror with the given number as the makefile declares it, under either name in use. -/
def declaredMirror (number : String) : String :=
  orElse (m.pkgVariable ("_MIRROR" ++ number)) (m.pkgVariable ("_SITE_MIRROR" ++ number))

def mirrorSource (purpose : Purpose) (site : String) : List Source := if site ≠ "" then [⟨purpose, site, m.package_remote⟩] else []

def readSources : List Source :=
  ⟨.site, m.site, m.package_remote⟩ :: (mirrorSource m .mirror1 m.mirror1 ++ mirrorSource m .mirror2 m.mirror2 ++
    mirrorSource m .mirror3 m.mirror3 ++ [⟨.mirror, Makefile.mirror, m.package⟩])

def declaredSources : List Source :=
  ⟨.site, m.site, m.package_remote⟩ :: (mirrorSource m .mirror1 (declaredMirror m "1") ++ mirrorSource m .mirror2 (declaredMirror m "2") ++
    mirrorSource m .mirror3 (declaredMirror m "3") ++ [⟨.mirror, Makefile.mirror, m.package⟩])

end

variable (o : Remote)

/-- The first URL of the sources from which the tarball can be had. -/
def firstServed (sources : List Source) : Option String := (sources.map Source.url).find? o.served

/-! ### Commands -/

variable {o} {t : Try}

/-- The script is interrupted, or ends so and leaves the files so. -/
private def Leads (o : Remote) (t : Try) (script : Script Command) (w : World) (status : Status) (nodes : Path → Option Node) : Prop :=
  (exec (perform o t.replies) leave script w).1 = .stopped ∨
    ((exec (perform o t.replies) leave script w).1 = status ∧ (exec (perform o t.replies) leave script w).2.nodes = nodes)

private theorem leads_cmd (t : Try) {command : Command} {w : World} {status : Status} {nodes : Path → Option Node}
    (does : ∀ log, (if possible o { w with log } command then (Status.ok, effect o { w with log } command .whole)
      else (Status.failed, effect o { w with log } command (wasted { w with log } command))).1 = status ∧
      (if possible o { w with log } command then (Status.ok, effect o { w with log } command .whole)
      else (Status.failed, effect o { w with log } command (wasted { w with log } command))).2.nodes = nodes) :
    Leads o t (.cmd command) w status nodes := by
  unfold Leads exec perform
  cases reply : t.replies command with
  | done => exact Or.inr (does _)
  | fails extent => exact absurd reply (t.unfailing command extent)
  | killed extent => exact Or.inl rfl

private theorem leads_exists (t : Try) (path : Path) (w : World) :
    Leads o t (.cmd (.exists_ path)) w (if w.nodes path = none then .failed else .ok) w.nodes := by
  refine leads_cmd t fun log => ?_
  by_cases absent : w.nodes path = none <;> simp [possible, effect, absent]

private theorem leads_echo (t : Try) (w : World) : Leads o t (.cmd .echo) w .ok w.nodes :=
  leads_cmd t fun _ => ⟨rfl, rfl⟩

private theorem leads_rm (t : Try) (path : Path) (w : World) :
    Leads o t (.cmd (.rm path)) w .ok (Function.update w.nodes path none) :=
  leads_cmd t fun _ => ⟨rfl, rfl⟩

private theorem leads_wget (t : Try) (purpose : Purpose) (passive : Bool) (out : Path) (url : String) (w : World) :
    Leads o t (.cmd (.wget purpose passive out url)) w (if o.served url then .ok else .failed)
      (Function.update w.nodes out (some (.file (if o.served url then some url else none)))) := by
  refine leads_cmd t fun log => ?_
  by_cases served : o.served url = true <;> simp [possible, effect, wasted, served, World.set]

section
variable {first second : Script Command} {w : World} {status : Status} {nodes between : Path → Option Node}

private theorem leads_or (failing : Leads o t first w .failed between)
    (next : ∀ w', w'.nodes = between → Leads o t second w' status nodes) : Leads o t (.or first second) w status nodes := by
  rcases ended : exec (perform o t.replies) leave first w with ⟨outcome, w'⟩
  rcases failing with stopped | ⟨failed, same⟩
  · refine Or.inl ?_
    rw [ended] at stopped
    obtain rfl : outcome = .stopped := stopped
    rw [or_ends ended (by decide)]
  · rw [ended] at failed same
    obtain rfl : outcome = .failed := failed
    unfold Leads
    rw [or_goes_on ended]
    exact next w' same

private theorem leads_or_ok (working : Leads o t first w .ok nodes) : Leads o t (.or first second) w .ok nodes := by
  rcases ended : exec (perform o t.replies) leave first w with ⟨outcome, w'⟩
  unfold Leads at working ⊢
  rw [ended] at working
  have good : outcome ≠ .failed := by rcases working with stopped | ⟨ok, -⟩ <;> simp_all
  rwa [or_ends ended good]

private theorem leads_and (working : Leads o t first w .ok between)
    (next : ∀ w', w'.nodes = between → Leads o t second w' status nodes) : Leads o t (.and first second) w status nodes := by
  rcases ended : exec (perform o t.replies) leave first w with ⟨outcome, w'⟩
  rcases working with stopped | ⟨ok, same⟩
  · refine Or.inl ?_
    rw [ended] at stopped
    obtain rfl : outcome = .stopped := stopped
    rw [and_ends ended (by decide)]
  · rw [ended] at ok same
    obtain rfl : outcome = .ok := ok
    unfold Leads
    rw [and_goes_on ended]
    exact next w' same

private theorem leads_sub (leaving : Leads o t first w .exited nodes) : Leads o t (.sub first) w .failed nodes := by
  unfold Leads at leaving ⊢
  rcases ended : exec (perform o t.replies) leave first w with ⟨outcome, w'⟩
  rw [ended] at leaving
  rcases leaving with stopped | ⟨exited, same⟩
  · obtain rfl : outcome = .stopped := stopped
    exact Or.inl (by simp only [exec, ended])
  · obtain rfl : outcome = .exited := exited
    exact Or.inr (by simpa only [exec, ended, true_and, leave] using same)

end

/-! ### The sites one after another -/

private theorem leads_embtk_wget (t : Try) (source : Source) (out : Path) (w : World) :
    Leads o t (embtk_wget source.purpose out source.site source.file) w (if o.served source.url then .ok else .failed)
      (Function.update w.nodes out (some (.file (if o.served source.url then some source.url else none)))) := by
  by_cases served : o.served source.url = true
  · have once := leads_wget (o := o) t source.purpose true out source.url w
    rw [if_pos served] at once ⊢
    exact leads_or_ok once
  · have once := leads_wget (o := o) t source.purpose true out source.url w
    rw [if_neg served] at once ⊢
    refine leads_or once fun w' same => ?_
    have twice := leads_wget (o := o) t source.purpose false out source.url w'
    rwa [if_neg served, same, Function.update_idem] at twice

private theorem leads_exitfailure (t : Try) (path : Path) (named : Bool) (w : World) :
    Leads o t (download_pkg_exitfailure path named) w .failed (if named then Function.update w.nodes path none else w.nodes) := by
  refine leads_sub (leads_and (leads_echo t w) fun w' same => ?_)
  cases named with
  | true =>
    refine leads_and (leads_rm t path w') fun w'' removed => Or.inr ⟨rfl, ?_⟩
    rw [same] at removed
    exact removed
  | false => exact Or.inr ⟨rfl, same⟩

/-- What the attempts at the sites lead to: the file of the first that serves it, or else what the last resort does. -/
private theorem leads_sources (t : Try) (out : Path) (sources : List Source) {last : Script Command} {status : Status}
    (after : (Path → Option Node) → Path → Option Node) (lastly : ∀ w, Leads o t last w status (after w.nodes)) (w : World) :
    Leads o t (firstOf last (sources.map fun source => embtk_wget source.purpose out source.site source.file)) w
      (if (firstServed o sources).isSome then .ok else status)
      (match firstServed o sources with
        | some url => Function.update w.nodes out (some (.file (some url)))
        | none => after (if sources = [] then w.nodes else Function.update w.nodes out (some (.file none)))) := by
  induction sources generalizing w with
  | nil => exact lastly w
  | cons source rest ih =>
    have here := leads_embtk_wget (o := o) t source out w
    by_cases served : o.served source.url = true
    · have found : firstServed o (source :: rest) = some source.url := List.find?_cons_of_pos served
      simp only [found, Option.isSome_some, if_true]
      rw [if_pos served, if_pos served] at here
      exact leads_or_ok here
    · have passed : firstServed o (source :: rest) = firstServed o rest := List.find?_cons_of_neg served
      rw [passed, if_neg (List.cons_ne_nil source rest)]
      rw [if_neg served, if_neg served] at here
      refine leads_or here fun w' same => ?_
      have next := ih w'
      rw [same, Function.update_idem, ite_self] at next
      cases found : firstServed o rest with
      | none => simpa only [found] using next
      | some url => simpa only [found, Function.update_idem] using next

section
variable (m : Makefile) (c : Config)

private theorem tarballLine_eq : tarballLine m = .or (.cmd (.exists_ .package_f))
    (firstOf (download_pkg_exitfailure .package_f m.package_named)
      ((readSources m).map fun source => embtk_wget source.purpose .package_f source.site source.file)) := by
  simp only [tarballLine, readSources, mirrorSource]
  split_ifs <;> rfl

private theorem leads_tarball_there (t : Try) {w : World} {node : Node} (there : w.nodes .package_f = some node) :
    Leads o t (tarballLine m) w .ok w.nodes := by
  rw [tarballLine_eq]
  have test := leads_exists (o := o) t .package_f w
  rw [there, if_neg (Option.some_ne_none node)] at test
  exact leads_or_ok test

private theorem leads_tarball_absent (t : Try) {w : World} (absent : w.nodes .package_f = none) :
    Leads o t (tarballLine m) w (if (firstServed o (readSources m)).isSome then .ok else .failed)
      (Function.update w.nodes .package_f (match firstServed o (readSources m) with
        | some url => some (.file (some url))
        | none => if m.package_named then none else some (.file none))) := by
  rw [tarballLine_eq]
  have test := leads_exists (o := o) t .package_f w
  rw [absent, if_pos rfl] at test
  refine leads_or test fun w' same => ?_
  have through := leads_sources (o := o) t .package_f (readSources m)
    (fun nodes => if m.package_named then Function.update nodes .package_f none else nodes)
    (leads_exitfailure (o := o) t .package_f m.package_named) w'
  have some_source : readSources m ≠ [] := List.cons_ne_nil _ _
  simp only [same, if_neg some_source] at through
  cases found : firstServed o (readSources m) with
  | some url => simpa only [found] using through
  | none =>
    simp only [found] at through ⊢
    cases named : m.package_named with
    | true => simpa only [named, if_true, Function.update_idem] using through
    | false => simpa only [named, Bool.false_eq_true, if_false] using through

/-- The patch is not needed, or there, or can be fetched. -/
def patchReady (o : Remote) (w : World) : Bool :=
  !m.needpatch c || w.nodes .patch_f ≠ none ||
    o.served (dropSuffix "/" (m.patch_site c) ++ "/" ++ (m.name ++ "-" ++ m.version c ++ "-*.patch"))

private theorem leads_patch (t : Try) (w : World) : ∃ nodes, nodes .package_f = w.nodes .package_f ∧
    Leads o t (patchLine m c) w (if patchReady m c o w then .ok else .failed) nodes := by
  unfold patchLine download_pkg_patches patchReady
  cases m.needpatch c with
  | false => exact ⟨w.nodes, rfl, leads_or_ok (leads_cmd t fun _ => ⟨rfl, rfl⟩)⟩
  | true =>
    have test := leads_exists (o := o) t .patch_f w
    cases there : w.nodes .patch_f with
    | some node =>
      rw [there, if_neg (Option.some_ne_none node)] at test
      exact ⟨w.nodes, rfl, leads_or_ok (leads_or_ok test)⟩
    | none =>
      rw [there, if_pos rfl] at test
      have fetch := fun w' => leads_embtk_wget (o := o) t ⟨.patches, m.patch_site c, m.name ++ "-" ++ m.version c ++ "-*.patch"⟩ .patch_f w'
      simp only [Source.url] at fetch
      cases served : o.served (dropSuffix "/" (m.patch_site c) ++ "/" ++ (m.name ++ "-" ++ m.version c ++ "-*.patch")) with
      | true =>
        simp only [served, if_true] at fetch
        refine ⟨_, ?_, leads_or_ok (leads_or test fun w' same => same ▸ fetch w')⟩
        exact Function.update_of_ne (by decide) _ _
      | false =>
        simp only [served, Bool.false_eq_true, if_false] at fetch
        refine ⟨_, ?_, leads_or (leads_or test fun w' same => same ▸ fetch w') fun w' same => same ▸ leads_exitfailure t .patch_f true w'⟩
        rw [if_pos rfl, Function.update_idem]
        exact Function.update_of_ne (by decide) _ _

end

/-! ### Whole attempts -/

section
variable (m : Makefile) (c : Config)

private theorem recipe_fails {first : Script Command} (second : Script Command) {t : Try} {w : World} {after : Path → Option Node}
    (fails : Leads o t first w .failed after) :
    (attempt o t.replies [first, second] w).1 = .stopped ∨
      ((attempt o t.replies [first, second] w).1 = .failed ∧ (attempt o t.replies [first, second] w).2.nodes = after) := by
  unfold attempt
  rcases ended : exec (perform o t.replies) leave first w with ⟨outcome, w'⟩
  unfold Leads at fails
  rw [ended] at fails
  rcases fails with stopped | ⟨failed, same⟩
  · obtain rfl : outcome = .stopped := stopped
    rw [recipe_ends ended (by decide)]
    exact Or.inl rfl
  · obtain rfl : outcome = .failed := failed
    rw [recipe_ends ended (by decide)]
    exact Or.inr ⟨rfl, same⟩

private theorem patchReady_congr {w w' : World} (same : w'.nodes .patch_f = w.nodes .patch_f) :
    patchReady m c o w' = patchReady m c o w := by
  rw [patchReady, patchReady, same]

/-- The patch line after a tarball line that has left the patch alone. -/
private theorem recipe_patch {t : Try} {w : World} {between : Path → Option Node} (begins : Leads o t (tarballLine m) w .ok between)
    (alone : between .patch_f = w.nodes .patch_f) (ended : (attempt o t.replies (download_pkg_from_tarball m c) w).1 ≠ .stopped) :
    (attempt o t.replies (download_pkg_from_tarball m c) w).1 = (if patchReady m c o w then .ok else .failed) ∧
      (attempt o t.replies (download_pkg_from_tarball m c) w).2.nodes .package_f = between .package_f := by
  unfold attempt download_pkg_from_tarball at ended ⊢
  rcases first : exec (perform o t.replies) leave (tarballLine m) w with ⟨outcome, w'⟩
  unfold Leads at begins
  rw [first] at begins
  rcases begins with stopped | ⟨ok, same⟩
  · obtain rfl : outcome = .stopped := stopped
    rw [recipe_ends first (by decide)] at ended
    exact absurd rfl ended
  · obtain rfl : outcome = .ok := ok
    rw [recipe_goes_on first, recipe_last rfl] at ended ⊢
    obtain ⟨nodes, kept, stopped | ⟨status, after⟩⟩ := leads_patch (o := o) m c t (leave w w')
    · exact absurd stopped ended
    · refine ⟨?_, ?_⟩
      · have unchanged : (leave w w').nodes .patch_f = w.nodes .patch_f := (congrFun same .patch_f).trans alone
        rw [status, ← patchReady_congr m c unchanged]
      · exact (congrFun after .package_f).trans (kept.trans (congrFun same .package_f))

/-- What an attempt that is not interrupted makes of a file that is there already. -/
theorem attempt_there (t : Try) {w : World} {node : Node} (there : w.nodes .package_f = some node)
    (ended : (attempt o t.replies (download_pkg_from_tarball m c) w).1 ≠ .stopped) :
    (attempt o t.replies (download_pkg_from_tarball m c) w).1 = (if patchReady m c o w then .ok else .failed) ∧
      (attempt o t.replies (download_pkg_from_tarball m c) w).2.nodes .package_f = some node := by
  rw [← there]
  exact recipe_patch m c (leads_tarball_there m t there) rfl ended

/-- And of one that is not. -/
theorem attempt_absent (t : Try) {w : World} (absent : w.nodes .package_f = none)
    (ended : (attempt o t.replies (download_pkg_from_tarball m c) w).1 ≠ .stopped) :
    (attempt o t.replies (download_pkg_from_tarball m c) w).1 =
        (if (firstServed o (readSources m)).isSome && patchReady m c o w then .ok else .failed) ∧
      (attempt o t.replies (download_pkg_from_tarball m c) w).2.nodes .package_f = match firstServed o (readSources m) with
        | some url => some (.file (some url))
        | none => if m.package_named then none else some (.file none) := by
  have begins := leads_tarball_absent (o := o) m t absent
  cases found : firstServed o (readSources m) with
  | some url =>
    simp only [found, Option.isSome_some, if_true, Bool.true_and] at begins ⊢
    obtain ⟨status, kept⟩ := recipe_patch m c begins (Function.update_of_ne (by decide) _ _) ended
    exact ⟨status, kept.trans (Function.update_self _ _ _)⟩
  | none =>
    simp only [found, Option.isSome_none, Bool.false_eq_true, if_false, Bool.false_and] at begins ⊢
    rcases recipe_fails (patchLine m c) begins with stopped | ⟨failed, same⟩
    · exact absurd stopped ended
    · exact ⟨failed, by rw [download_pkg_from_tarball, same, Function.update_self]⟩

/-! ### Right attempts -/

/-- The whole of some tarball is in the download directory. -/
def Complete (w : World) : Prop := ∃ url, w.nodes .package_f = some (.file (some url))

/-- What an attempt should have done. -/
structure Fetched (o : Remote) (w : World) (result : Status × World) : Prop where
  succeeds : result.1 = .ok ↔ Complete w ∨ ∃ source ∈ declaredSources m, o.served source.url = true
  kept : result.1 = .ok → Complete w → result.2.nodes .package_f = w.nodes .package_f
  fetched : result.1 = .ok → ¬ Complete w →
    result.2.nodes .package_f = (firstServed o (declaredSources m)).map fun url => .file (some url)
  clean : result.1 ≠ .ok → result.2.nodes .package_f = none

/-- There is no unfinished file, the first declared site that serves the tarball is the first that the macro tries,
and the patch can be had whenever the tarball can. -/
def Ready (o : Remote) (w : World) : Prop :=
  (Complete w ∧ patchReady m c o w = true) ∨
    (w.nodes .package_f = none ∧ firstServed o (readSources m) = firstServed o (declaredSources m) ∧
      if (firstServed o (declaredSources m)).isSome then patchReady m c o w = true else m.package_named = true)

private theorem served_iff (sources : List Source) :
    (∃ source ∈ sources, o.served source.url = true) ↔ (firstServed o sources).isSome = true := by
  simp [firstServed, List.find?_isSome]

private theorem fetched_there (t : Try) {w : World} {node : Node} (there : w.nodes .package_f = some node)
    (ended : (attempt o t.replies (download_pkg_from_tarball m c) w).1 ≠ .stopped) :
    Fetched m o w (attempt o t.replies (download_pkg_from_tarball m c) w) ↔ Complete w ∧ patchReady m c o w = true := by
  obtain ⟨status, same⟩ := attempt_there m c t there ended
  cases ready : patchReady m c o w with
  | false =>
    rw [ready, if_neg Bool.false_ne_true] at status
    refine iff_of_false (fun right => ?_) (by simp)
    have gone := right.clean (by simp [status])
    simp [same] at gone
  | true =>
    rw [ready, if_pos rfl] at status
    refine ⟨fun right => ⟨?_, rfl⟩, fun ⟨complete, _⟩ => ?_⟩
    · by_contra unfinished
      have whole := right.fetched status unfinished
      rw [same, eq_comm, Option.map_eq_some_iff] at whole
      obtain ⟨url, -, rfl⟩ := whole
      exact unfinished ⟨url, there⟩
    · exact ⟨iff_of_true status (Or.inl complete), fun _ _ => same.trans there.symm, fun _ unfinished => absurd complete unfinished,
        fun bad => absurd status bad⟩

private theorem fetched_absent (t : Try) {w : World} (absent : w.nodes .package_f = none)
    (ended : (attempt o t.replies (download_pkg_from_tarball m c) w).1 ≠ .stopped) :
    Fetched m o w (attempt o t.replies (download_pkg_from_tarball m c) w) ↔
      firstServed o (readSources m) = firstServed o (declaredSources m) ∧
        if (firstServed o (declaredSources m)).isSome then patchReady m c o w = true else m.package_named = true := by
  have unfinished : ¬ Complete w := by
    rintro ⟨url, there⟩
    simp [absent] at there
  obtain ⟨status, file⟩ := attempt_absent (o := o) m c t absent ended
  cases found : firstServed o (readSources m) with
  | none =>
    simp only [found, Option.isSome_none, Bool.false_and, Bool.false_eq_true, if_false] at status file
    refine ⟨fun right => ?_, fun ⟨same, named⟩ => ?_⟩
    · have nowhere : firstServed o (declaredSources m) = none := by
        have served := mt right.succeeds.mpr (by simp [status])
        rw [not_or, served_iff, Bool.not_eq_true, Option.isSome_eq_false_iff, Option.isNone_iff_eq_none] at served
        exact served.2
      refine ⟨nowhere.symm, ?_⟩
      have gone := right.clean (by simp [status])
      rw [file] at gone
      simpa [nowhere] using gone
    · rw [← same] at named
      have nowhere : ¬ ∃ source ∈ declaredSources m, o.served source.url = true := by
        rw [served_iff, ← same]
        simp
      refine ⟨iff_of_false (by simp [status]) (not_or.mpr ⟨unfinished, nowhere⟩), fun ok => ?_, fun ok => ?_, fun _ => ?_⟩
      · simp [status] at ok
      · simp [status] at ok
      · rw [file, if_pos (by simpa using named)]
  | some url =>
    simp only [found, Option.isSome_some, Bool.true_and] at status file
    cases ready : patchReady m c o w with
    | false =>
      rw [ready, if_neg Bool.false_ne_true] at status
      refine iff_of_false (fun right => ?_) ?_
      · have gone := right.clean (by simp [status])
        simp [file] at gone
      · rintro ⟨same, patched⟩
        simp [← same] at patched
    | true =>
      rw [ready, if_pos rfl] at status
      refine ⟨fun right => ?_, fun ⟨same, _⟩ => ?_⟩
      · have first := right.fetched status unfinished
        rw [file, eq_comm, Option.map_eq_some_iff] at first
        obtain ⟨other, declared, equal⟩ := first
        obtain rfl : other = url := by simpa using equal
        exact ⟨declared.symm, by simp [declared]⟩
      · refine ⟨iff_of_true status (Or.inr ?_), fun _ complete => absurd complete unfinished, fun _ _ => ?_, fun bad => absurd status bad⟩
        · rw [served_iff, ← same]
          rfl
        · rw [file, ← same]
          rfl

/-- An attempt that is not interrupted is right exactly when it was ready. -/
theorem fetched_iff (t : Try) (w : World) (ended : (attempt o t.replies (download_pkg_from_tarball m c) w).1 ≠ .stopped) :
    Fetched m o w (attempt o t.replies (download_pkg_from_tarball m c) w) ↔ Ready m c o w := by
  cases there : w.nodes .package_f with
  | some node =>
    rw [fetched_there m c t there ended, Ready]
    simp [there]
  | none =>
    have unfinished : ¬ Complete w := by
      rintro ⟨url, whole⟩
      simp [there] at whole
    rw [fetched_absent m c t there ended, Ready]
    simp [there, unfinished]

/-! ### Sequences of attempts -/

/-- The world after an attempt, which may have been interrupted. -/
def Try.apply (o : Remote) (t : Try) (w : World) : World := (attempt o t.replies (download_pkg_from_tarball m c) w).2

/-- Throughout a sequence of attempts each that comes to its end is right exactly when each such attempt is ready. -/
theorem attempts_right_iff (o : Remote) (history : List Try) (w : World) :
    Script.Throughout (Try.apply m c o) (fun _ before t => (attempt o t.replies (download_pkg_from_tarball m c) before).1 ≠ .stopped →
        Fetched m o before (attempt o t.replies (download_pkg_from_tarball m c) before)) history w ↔
      Script.Throughout (Try.apply m c o) (fun _ before t => (attempt o t.replies (download_pkg_from_tarball m c) before).1 ≠ .stopped →
        Ready m c o before) history w := by
  refine Script.throughout_iff (fun _ _ => True) trivial (fun _ before t _ => ?_) (fun _ _ _ _ _ => trivial) history
  exact forall_congr' fun ended => fetched_iff m c t before ended

end

/-! ### A mirror that is not read -/

/-- The makefile of libsigsegv, which declares its mirrors as `LIBSIGSEGV_SITE_MIRROR1` and `LIBSIGSEGV_SITE_MIRROR3`. -/
def libsigsegv : Makefile where
  PKGV := "LIBSIGSEGV"
  value name :=
    if name = "LIBSIGSEGV_NAME" then "libsigsegv"
    else if name = "LIBSIGSEGV_SITE" then "ftp://ftp.gnu.org/pub/gnu/libsigsegv"
    else if name = "LIBSIGSEGV_SITE_MIRROR1" then "http://ftp.gnu.org/gnu/libsigsegv"
    else if name = "LIBSIGSEGV_SITE_MIRROR3" then "ftp://ftp.embtoolkit.org/embtoolkit.org/packages-mirror"
    else if name = "LIBSIGSEGV_VERSION" then "2.10"
    else if name = "LIBSIGSEGV_PACKAGE" then "libsigsegv-2.10.tar.gz"
    else ""

/-- A configuration without patches. -/
def unpatched : Config where
  lines := [.assigned "CONFIG_EMBTK_BINUTILS_REFSPEC" "\"toolchain\""]
  binutils := List.mem_singleton.mpr rfl

def uninterrupted : Try where
  replies _ := .done
  unfailing _ _ := by simp

def emptyWorld : World where
  nodes _ := none
  cwd := none
  log := []

/-- Where only the declared HTTP mirror of libsigsegv serves it, the download fails. -/
theorem libsigsegv_mirror_ignored :
    let gnuMirror : Remote := { served := fun url => url = "http://ftp.gnu.org/gnu/libsigsegv/libsigsegv-2.10.tar.gz", defaultBranch := "master" }
    ¬ Script.Throughout (Try.apply libsigsegv unpatched gnuMirror)
      (fun _ before t => (attempt gnuMirror t.replies (download_pkg_from_tarball libsigsegv unpatched) before).1 ≠ .stopped →
        Fetched libsigsegv gnuMirror before (attempt gnuMirror t.replies (download_pkg_from_tarball libsigsegv unpatched) before))
      [uninterrupted] emptyWorld := by
  intro gnuMirror right
  have failed : (attempt gnuMirror uninterrupted.replies (download_pkg_from_tarball libsigsegv unpatched) emptyWorld).1 = .failed := by
    decide +kernel
  have served : ∃ source ∈ declaredSources libsigsegv, gnuMirror.served source.url = true := by
    exact ⟨⟨.mirror1, "http://ftp.gnu.org/gnu/libsigsegv", "libsigsegv-2.10.tar.gz"⟩, by decide +kernel, by decide +kernel⟩
  have good := right [] uninterrupted [] rfl (by rw [Script.run_nil, failed]; decide)
  exact absurd (good.succeeds.mpr (Or.inr served)) (by rw [Script.run_nil, failed]; decide)

end EmbToolkit.Proofs.Mirrors
