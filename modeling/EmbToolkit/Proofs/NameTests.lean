import EmbToolkit.NameTests

/-! The tests for a name against the lists they search. Each finds the name also inside a longer word, so it is right
as long as no word of the list contains the name without being it. -/

namespace EmbToolkit.Proofs.NameTests
open MakeText
open Download (findstring)

/-- No other word of the text contains the name, unless the name is a word of the text itself. -/
def Unshadowed (name text : String) : Prop := (∃ w ∈ words text, name.toList <:+: w.toList) → name ∈ words text

private theorem findstring_word {name text : String} (word : IsWord name) :
    findstring name text = true ↔ ∃ w ∈ words text, name.toList <:+: w.toList := by
  rw [findstring, decide_eq_true_iff, infix_words word]

/-- Searching for a name is looking it up in the words exactly when it is not shadowed. -/
private theorem found_iff {name text : String} (word : IsWord name) :
    (findstring name text = true ↔ name ∈ words text) ↔ Unshadowed name text := by
  rw [findstring_word word]
  exact ⟨fun same found => same.mp found, fun plain => ⟨plain, fun listed => ⟨name, listed, List.infix_rfl⟩⟩⟩

private theorem isWord_append {a b : String} (first : IsWord a) (second : ∀ c ∈ b.toList, isBlank c = false) : IsWord (a ++ b) := by
  refine ⟨fun empty => first.1 ?_, fun c inside => ?_⟩
  · have letters := congrArg String.toList empty
    rw [String.toList_append] at letters
    exact String.toList_injective (List.append_eq_nil_iff.mp letters).1
  · rw [String.toList_append] at inside
    exact (List.mem_append.mp inside).elim (first.2 c) (second c)

private theorem isWord_prepend {a b : String} (first : ∀ c ∈ a.toList, isBlank c = false) (second : IsWord b) : IsWord (a ++ b) := by
  refine ⟨fun empty => second.1 ?_, fun c inside => ?_⟩
  · have letters := congrArg String.toList empty
    rw [String.toList_append] at letters
    exact String.toList_injective (List.append_eq_nil_iff.mp letters).2
  · rw [String.toList_append] at inside
    exact (List.mem_append.mp inside).elim (first c) (second.2 c)

section
variable (value : String → String)

/-! ### Dependents -/

private theorem depof_iff (p : PackageName) :
    pkgDepof value p = unwords (sortWords ((listedPackages value).filter fun q => p.text ++ "_install" ∈ words (depsText value q))) ↔
      ∀ q ∈ listedPackages value, Unshadowed (p.text ++ "_install") (depsText value q) := by
  have goal : IsWord (p.text ++ "_install") := isWord_append p.word (visible_of_all (by decide +kernel))
  have sorted (test : String → Bool) : ∀ w ∈ sortWords ((listedPackages value).filter test), IsWord w := by
    intro w member
    exact isWord_of_mem (List.mem_filter.mp (mem_sortWords.mp member)).1
  have recovered : pkgDepof value p = unwords (sortWords ((listedPackages value).filter fun q => p.text ++ "_install" ∈ words (depsText value q))) ↔
      ∀ q, q ∈ (listedPackages value).filter (fun q => findstring (p.text ++ "_install") (depsText value q)) ↔
        q ∈ (listedPackages value).filter fun q => p.text ++ "_install" ∈ words (depsText value q) := by
    rw [← sortWords_eq_iff]
    refine ⟨fun same => ?_, fun same => by rw [pkgDepof, same]⟩
    have back := congrArg words same
    rwa [pkgDepof, words_unwords, words_unwords, words_of_words (sorted _), words_of_words (sorted _)] at back
  rw [recovered]
  simp only [List.mem_filter, decide_eq_true_eq, and_congr_right_iff, found_iff goal]

/-! ### Dispatching -/

private theorem dispatch_iff (p : PackageName) :
    installXpkg p.text = (if "_host".toList <:+ p.text.toList then "embtk_install_hostpkg" else "embtk_install_pkg") ↔
      (findstring "host" p.text = true → "_host".toList <:+ p.text.toList) := by
  have ends_found : "_host".toList <:+ p.text.toList → findstring "host" p.text = true := by
    intro ends
    have inner : "host".toList <:+: "_host".toList := by decide +kernel
    exact decide_eq_true (inner.trans ends.isInfix)
  unfold installXpkg
  by_cases ends : "_host".toList <:+ p.text.toList
  · rw [if_pos (ends_found ends), if_pos ends]
    simp only [ends, implies_true, iff_true]
    decide +kernel
  · rw [if_neg ends]
    by_cases found : findstring "host" p.text = true
    · rw [if_pos found]
      simp only [ends, found, forall_const, iff_false]
      decide +kernel
    · rw [if_neg found]
      have target : "embtk_install_" ++ "" ++ "pkg" = "embtk_install_pkg" := by decide +kernel
      exact iff_of_true target fun here => absurd here found

/-! ### Including -/

private theorem include_iff {incmk : String} (word : incmk ≠ "" → IsWord incmk) :
    (∀ wanted, includes value incmk wanted = (wanted && incmk ∉ words (value "MAKEFILE_LIST"))) ↔
      incmk = "" ∨ Unshadowed incmk (value "MAKEFILE_LIST") := by
  by_cases given : incmk = ""
  · subst given
    have unlisted : "" ∉ words (value "MAKEFILE_LIST") := fun listed => (isWord_of_mem listed).1 rfl
    simp [includes, unlisted]
  · rw [or_iff_right given, ← found_iff (word given)]
    by_cases listed : incmk ∈ words (value "MAKEFILE_LIST") <;>
      by_cases found : findstring incmk (value "MAKEFILE_LIST") = true <;> simp [includes, given, listed, found]

private theorem incmk0_word (directory : IncludeDirectory) {p : String} (plain : ∀ c ∈ p.toList, isBlank c = false) :
    IsWord (incmk0 directory p) := by
  have mk : IsWord ".mk" := ⟨by decide, visible_of_all (by decide +kernel)⟩
  have slash : ∀ c ∈ "/".toList, isBlank c = false := visible_of_all (by decide +kernel)
  have front : ∀ c ∈ (directory.path ++ "/" ++ p ++ "/" ++ p).toList, isBlank c = false := by
    intro c inside
    simp only [String.toList_append, List.mem_append] at inside
    rcases inside with (((at_path | at_slash) | at_name) | at_slash) | at_name
    · exact directory.plain c at_path
    · exact slash c at_slash
    · exact plain c at_name
    · exact slash c at_slash
    · exact plain c at_name
  exact isWord_prepend front mk

private theorem hostIncmk_word (wildcard : String → Bool) (directory : IncludeDirectory) (p : PackageName)
    (given : hostIncmk wildcard directory p.text ≠ "") : IsWord (hostIncmk wildcard directory p.text) := by
  unfold hostIncmk at given ⊢
  split
  · exact incmk0_word directory p.word.2
  · split
    · refine incmk0_word directory fun c inside => p.word.2 c ?_
      unfold dropSuffix at inside
      split at inside
      · rw [String.toList_ofList] at inside
        exact List.mem_of_mem_take inside
      · exact inside
    · next absent₀ absent₁ => simp [absent₀, absent₁] at given

end

/-! ### The three tests -/

/-- The tests for names are exact where no longer name gets in the way: no dependency of a listed package that contains
`<p>_install`, no `host` in a name but at its end, no makefile whose path contains that of the package. -/
theorem name_tests_iff (value : String → String) (wildcard : String → Bool) (directory : IncludeDirectory) (p : PackageName) :
    (pkgDepof value p = unwords (sortWords ((listedPackages value).filter fun q => p.text ++ "_install" ∈ words (depsText value q))) ↔
      ∀ q ∈ listedPackages value, Unshadowed (p.text ++ "_install") (depsText value q)) ∧
    (installXpkg p.text = (if "_host".toList <:+ p.text.toList then "embtk_install_hostpkg" else "embtk_install_pkg") ↔
      (findstring "host" p.text = true → "_host".toList <:+ p.text.toList)) ∧
    ∀ incmk ∈ [incmk0 directory p.text, hostIncmk wildcard directory p.text],
      (∀ wanted, includes value incmk wanted = (wanted && incmk ∉ words (value "MAKEFILE_LIST"))) ↔
        incmk = "" ∨ Unshadowed incmk (value "MAKEFILE_LIST") := by
  refine ⟨depof_iff value p, dispatch_iff p, fun incmk listed => include_iff value fun given => ?_⟩
  rcases List.mem_cons.mp listed with rfl | host
  · exact incmk0_word directory p.word.2
  · obtain rfl := List.mem_singleton.mp host
    exact hostIncmk_word wildcard directory p given

private def lua : PackageName where
  text := "lua"
  word := ⟨by decide, visible_of_all (by decide +kernel)⟩
  lower := by simp

private def ghostscript : PackageName where
  text := "ghostscript"
  word := ⟨by decide, visible_of_all (by decide +kernel)⟩
  lower := by simp

private def lua_modules : IncludeDirectory where
  path := "lua"
  plain := visible_of_all (by decide +kernel)

/-- Make variables of a tree with a package whose name ends in that of another. -/
private def shadowing : String → String
  | "ROOTFS_COMPONENTS-y" => "rings_install"
  | "RINGS_DEPS" => "xlua_install"
  | "MAKEFILE_LIST" => " Makefile packages/lua/lua/lua.mk"
  | _ => ""

/-- A package that depends on `xlua` is taken for one that depends on `lua`, `ghostscript` for a package of the host,
and a makefile is taken for read because it is in a directory of the same name. -/
theorem names_shadowed :
    pkgDepof shadowing lua ≠ unwords (sortWords ((listedPackages shadowing).filter fun q => "lua_install" ∈ words (depsText shadowing q))) ∧
    installXpkg ghostscript.text ≠ (if "_host".toList <:+ ghostscript.text.toList then "embtk_install_hostpkg" else "embtk_install_pkg") ∧
    includes shadowing (incmk0 lua_modules "lua") true ≠ (true && incmk0 lua_modules "lua" ∉ words (shadowing "MAKEFILE_LIST")) := by
  refine ⟨by decide +kernel, by decide +kernel, by decide +kernel⟩

end EmbToolkit.Proofs.NameTests
