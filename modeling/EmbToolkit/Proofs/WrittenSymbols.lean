import EmbToolkit.Menus.Packages

/-! A `.config` that is written for a few symbols of the Kconfig tree gives the tree these symbols back. -/

namespace EmbToolkit.Proofs.WrittenSymbols
open Menu Menus

def refspec : String := "CONFIG_EMBTK_BINUTILS_REFSPEC"

/-- Symbols to set, and texts. -/
structure Sheet where
  set : List Symbol
  texts : List (Symbol × String)

namespace Sheet
variable (s : Sheet)

def lines : List (Symbol × String) := s.set.map (fun name => (name, "y")) ++ s.texts.map fun t => (t.1, "\"" ++ t.2 ++ "\"")

/-- The `.config` with these lines. -/
def config : Config where
  lines := .assigned refspec "\"HEAD\"" :: s.lines.map fun l => .assigned l.1.variable l.2
  binutils := List.mem_cons_self

def values : Values Symbol :=
  { on := fun name => name ∈ s.set, text := fun name => if name ∈ s.set then "y" else (s.texts.lookup name).getD "" }

/-- The value of a symbol's last line. -/
def last (name : Symbol) : List (Symbol × String) → Option String
  | [] => none
  | l :: rest => (last name rest).or (if l.1 = name then some l.2 else none)

end Sheet

/-- A number for a text. -/
def code (text : String) : Nat := text.toByteArray.data.toList.foldl (fun n b => n * 256 + b.toNat) 0

theorem assignment_last {name : Symbol} {lines : List (Symbol × String)}
    (distinct : (lines.all fun l => l.1 = name || code l.1.variable ≠ code name.variable) = true) :
    assignment name.variable (lines.map fun l => .assigned l.1.variable l.2) = Sheet.last name lines := by
  induction lines with
  | nil => rfl
  | cons l rest ih =>
    simp only [List.all_cons, Bool.and_eq_true, Bool.or_eq_true, decide_eq_true_eq] at distinct
    have same : l.1.variable = name.variable ↔ l.1 = name := by
      refine ⟨fun here => distinct.1.resolve_right fun other => other (by rw [here]), fun here => by rw [here]⟩
    simp only [List.map_cons, assignment, Sheet.last, ih distinct.2, same]

theorem last_missing {name : Symbol} {lines : List (Symbol × String)} (missing : name ∉ lines.map Prod.fst) :
    Sheet.last name lines = none := by
  induction lines with
  | nil => rfl
  | cons l rest ih =>
    simp only [List.map_cons, List.mem_cons, not_or] at missing
    simp only [Sheet.last, ih missing.2, if_neg (Ne.symm missing.1), Option.or_none]

/-- The names of the tree read back from the file what the sheet says. -/
theorem Sheet.agree {s : Sheet} {names : List Symbol} (distinct : (names.all fun name => code refspec ≠ code name.variable &&
      s.lines.all fun l => l.1 = name || code l.1.variable ≠ code name.variable) = true)
    (written : ((s.lines.map Prod.fst).all fun name => decide ((last name s.lines).getD "" = "y") = s.values.on name &&
      uquote ((last name s.lines).getD "") = s.values.text name) = true) : Values.Agree names (Menus.values s.config) s.values := by
  intro name listed
  have apart := List.all_eq_true.mp distinct name listed
  simp only [Bool.and_eq_true, decide_eq_true_eq] at apart
  have other : refspec ≠ name.variable := fun same => apart.1 (by rw [same])
  have value : s.config.value name.variable = (last name s.lines).getD "" := by
    simp only [Config.value, Sheet.config, assignment, assignment_last apart.2, if_neg other, Option.or_none]
  have read : Menus.values s.config = { on := fun n => s.config.isYes n.variable, text := fun n => uquote (s.config.value n.variable) } := rfl
  simp only [read, Config.isYes, value]
  by_cases inside : name ∈ s.lines.map Prod.fst
  · simpa using List.all_eq_true.mp written name inside
  · rw [last_missing inside]
    simp only [Sheet.lines, List.map_append, List.map_map, List.mem_append, not_or] at inside
    have unset : name ∉ s.set := fun set => inside.1 (List.mem_map.mpr ⟨name, set, rfl⟩)
    have silent : s.texts.lookup name = none := by
      refine List.lookup_eq_none_iff.mpr fun t text => ?_
      exact bne_iff_ne.mpr fun same => inside.2 (List.mem_map.mpr ⟨t, text, same.symm⟩)
    simp only [Sheet.values, unset, silent, if_false, Option.getD_none]
    decide

/-- An ARM target with the core that no default names, and with one package, which lacks a library. -/
def exampleSheet : Sheet where
  set := [Setting.osLinux, Setting.archArm, .armFamily .cortex, .armCore .cortex12, Setting.gccOnly, Setting.clibUclibc, .has .gcc,
    .version .gcc "4_9_X", .version .gcc "4_9_2", .version .uclibc "0_9_33_2", .has .binutils, .version .binutils "2_24",
    .version .linux "3_16_X", .version .linux "3_16_7", .has .mkimage, .hostHas .zlib, .hostHas .gmp, .hostHas .mpfr, .hostHas .mpc,
    Setting.rootfs, .has .fontconfig, .version .fontconfig "2_8_0", .has .libxml2, .version .libxml2 "2_7_7", .version .atk "ALL",
    .version .atk "1_28_X", .version .atk "1_30_X", .version .atk "1_32_X"]
  texts := [(.versionString .gcc, "4.9.2"), (.versionString .uclibc, "0.9.33.2"), (.versionString .binutils, "2.24"),
    (.versionString .linux, "3.16.7"), (.versionString .fontconfig, "2.8.0"), (.versionString .libxml2, "2.7.7")]

theorem example_agrees : Values.Agree tree.names (values exampleSheet.config) exampleSheet.values :=
  Sheet.agree (by decide +kernel) (by decide +kernel)

theorem example_admitted : tree.Admits exampleSheet.values := by decide +kernel

theorem example_config_admitted : tree.Admits (values exampleSheet.config) := example_admitted.congr example_agrees

end EmbToolkit.Proofs.WrittenSymbols
