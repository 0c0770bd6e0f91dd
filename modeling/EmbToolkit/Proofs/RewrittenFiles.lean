import EmbToolkit.Proofs.LibtoolFiles
import Mathlib.Logic.Function.Iterate

/-! The script of `__embtk_fix_pkgconfig_files` run on its own outcome, of lines that hold one assignment at most. The
commands do not leave their own outcome alone: one that sets `prefix`, say, also matches in the path of the sysroot that
has just been put after `includedir=`. What counts is the part of that path before `libdir=`, for the last command
cuts off the rest. -/

namespace EmbToolkit.Proofs.RewrittenFiles
open Sed LibtoolFiles

variable {s : Sysroot} {d : Libdir} {line u v w a b more : Line}

/-! ### The assignments of a line -/

/-- The variables whose assignments the commands look for. -/
inductive Field
  | root
  | headers
  | libs
  deriving DecidableEq

def Field.key : Field → Key '='
  | .root => ⟨"prefix".toList, by simp⟩
  | .headers => ⟨"includedir".toList, by simp⟩
  | .libs => ⟨"libdir".toList, by simp⟩

abbrev Field.text (f : Field) : Line := f.key.text

private def usrInclude : Line := "/usr/include".toList

private def variableInclude : Line := "$\x7bprefix\x7d/include".toList

/-- The texts of the scripts, put together from names and directories. -/
private theorem texts_eq : "prefix=".toList = Field.root.text ∧ "includedir=".toList = Field.headers.text ∧ "libdir=".toList = Field.libs.text ∧
    "includedir=$\x7bprefix\x7d/include".toList = Field.headers.text ++ variableInclude ∧
    "includedir=/usr/include".toList = Field.headers.text ++ usrInclude ∧ usrInclude = '/' :: ("usr".toList ++ '/' :: "include".toList) ∧
    variableInclude = '$' :: ("\x7bprefix\x7d/".toList ++ "include".toList) := by decide +kernel

private theorem root_text : "prefix=".toList = Field.root.text := texts_eq.1

private theorem headers_text : "includedir=".toList = Field.headers.text := texts_eq.2.1

private theorem libs_text : "libdir=".toList = Field.libs.text := texts_eq.2.2.1

private theorem variable_text : "includedir=$\x7bprefix\x7d/include".toList = Field.headers.text ++ variableInclude := texts_eq.2.2.2.1

private theorem fixed_text : "includedir=/usr/include".toList = Field.headers.text ++ usrInclude := texts_eq.2.2.2.2.1

private theorem usrInclude_eq : usrInclude = '/' :: ("usr".toList ++ '/' :: "include".toList) := texts_eq.2.2.2.2.2.1

private theorem variableInclude_eq : variableInclude = '$' :: ("\x7bprefix\x7d/".toList ++ "include".toList) := texts_eq.2.2.2.2.2.2

variable {f g : Field}

private theorem text_ne_nil (f : Field) : f.text ≠ [] := by simp [Field.text, Key.text]

private theorem include_facts : '=' ∉ usrInclude ∧ '=' ∉ variableInclude ∧ '$' ∉ usrInclude ∧ '$' ∉ Field.headers.text ∧
    usrInclude.getLast? = some 'e' ∧ variableInclude.getLast? = some 'e' ∧ '$' ∉ Field.root.text ∧ 'p' ∉ usrInclude ∧
    Field.root.text = 'p' :: "refix=".toList := by decide +kernel

private def fields : List Field := [.root, .headers, .libs]

private theorem mem_fields (f : Field) : f ∈ fields := by cases f <;> simp [fields]

/-- No name of the three ends with another, and none holds a slash or is part of a directory. -/
private theorem field_facts (f : Field) : '/' ∉ f.text ∧ ¬ f.text <:+: "usr".toList ∧ ¬ f.text <:+: "include".toList ∧
    ∀ g : Field, g.key.name <:+ f.key.name → f = g := by
  have checked : (fields.all fun f => '/' ∉ f.text && (¬ f.text <:+: "usr".toList : Bool) && (¬ f.text <:+: "include".toList : Bool) &&
      fields.all fun g => (g.key.name <:+ f.key.name → f = g : Bool)) = true := by decide +kernel
  have here := List.all_eq_true.mp checked f (mem_fields f)
  simp only [Bool.and_eq_true, decide_eq_true_eq, List.all_eq_true] at here
  exact ⟨here.1.1.1, here.1.1.2, here.1.2, fun g => here.2 g (mem_fields g)⟩

private theorem same_of_suffix (ends : g.key.name <:+ f.key.name) : f = g := (field_facts f).2.2.2 g ends

private theorem place_field (same : a ++ (f.text ++ b) = u ++ (g.text ++ v)) :
    (∃ t, u = a ++ (f.text ++ t) ∧ b = t ++ (g.text ++ v)) ∨ (f = g ∧ a = u ∧ b = v) ∨ ∃ t, a = u ++ (g.text ++ t) ∧ v = t ++ (f.text ++ b) := by
  rcases Key.place same with earlier | ⟨names, rest⟩ | later
  · exact Or.inl earlier
  · refine Or.inr (Or.inl ?_)
    rcases List.append_eq_append_iff.mp names with ⟨t, front, name⟩ | ⟨t, front, name⟩
    · obtain rfl := same_of_suffix ⟨t, name.symm⟩
      have none : t = [] := by simpa using name
      exact ⟨rfl, by rw [front, none, List.append_nil], rest⟩
    · obtain rfl := same_of_suffix ⟨t, name.symm⟩
      have none : t = [] := by simpa using name
      exact ⟨rfl, by rw [front, none, List.append_nil], rest⟩
  · exact Or.inr (Or.inr later)

/-- Where an assignment with something after it can stand in a line that has another. -/
private theorem infix_field (occurs : f.text ++ more <:+: u ++ (g.text ++ v)) :
    f.text <:+: u ∨ (f = g ∧ more <+: v) ∨ f.text ++ more <:+: v := by
  obtain ⟨a, b, same⟩ := occurs
  rw [List.append_assoc, List.append_assoc] at same
  rcases place_field same with ⟨t, rfl, -⟩ | ⟨rfl, -, rest⟩ | ⟨t, -, rfl⟩
  · exact Or.inl ⟨a, t, by simp⟩
  · exact Or.inr (Or.inl ⟨rfl, b, rest⟩)
  · exact Or.inr (Or.inr ⟨t, b, by simp⟩)

private theorem infix_first (occurs : f.text ++ more <:+: g.text ++ v) : (f = g ∧ more <+: v) ∨ f.text ++ more <:+: v := by
  rcases infix_field (u := []) occurs with none | onward
  · exact absurd (List.infix_nil.mp none) (text_ne_nil f)
  · exact onward

private theorem absent_front (different : f ≠ g) (absent : ¬ f.text <:+: u) : ¬ f.text ++ more <:+: u ++ g.text := by
  intro occurs
  rw [← List.append_nil g.text] at occurs
  rcases infix_field occurs with inside | ⟨same, -⟩ | beyond
  · exact absent inside
  · exact different same
  · exact absurd (List.append_eq_nil_iff.mp (List.infix_nil.mp beyond)).1 (text_ne_nil f)

private theorem absent_key_front (different : f ≠ g) (absent : ¬ f.text <:+: u) : ¬ f.text <:+: u ++ g.text := fun occurs =>
  absent_front different absent (List.append_nil f.text ▸ occurs)

/-- A command that looks for one variable leaves a front that ends with another. -/
private theorem keeps {rule : Line → Option Line} (needs : Needs (f.text ++ more) rule) (plain : '=' ∉ more) (different : f ≠ g)
    (absent : ¬ f.text ++ more <:+: u ++ g.text) : once rule (u ++ (g.text ++ v)) = u ++ (g.text ++ once rule v) := by
  refine once_keeps needs plain ?_ absent
  rintro ⟨a, same⟩
  have places : a ++ (f.text ++ []) = u ++ (g.text ++ []) := by simpa using same
  rcases place_field places with ⟨t, -, none⟩ | ⟨equal, -⟩ | ⟨t, -, none⟩
  · simp [text_ne_nil] at none
  · exact different equal
  · simp [text_ne_nil] at none

private theorem keeps_key {rule : Line → Option Line} (needs : Needs f.text rule) (different : f ≠ g) (absent : ¬ f.text <:+: u ++ g.text) :
    once rule (u ++ (g.text ++ v)) = u ++ (g.text ++ once rule v) := by
  rw [← List.append_nil f.text] at needs absent
  exact keeps needs List.not_mem_nil different absent

/-- A line with one assignment at most has none, or one with nothing of the kind before and after it. -/
private theorem single_cases (single : assignments line ≤ 1) : (∀ f : Field, ¬ f.text <:+: line) ∨
    ∃ (f : Field) (u v : Line), line = u ++ (f.text ++ v) ∧ ∀ g : Field, ¬ g.text <:+: u ∧ ¬ g.text <:+: v := by
  by_cases some_field : ∃ f : Field, f.text <:+: line
  · obtain ⟨f, occurs⟩ := some_field
    rcases through_cases f.key line with ⟨absent, -⟩ | ⟨u, v, split, -⟩
    · exact absurd occurs absent
    · obtain rfl : line = u ++ (f.text ++ v) := split
      refine Or.inr ⟨f, u, v, rfl, ?_⟩
      have parts (g : Field) : occurrences g.text u + (occurrences g.text f.text + occurrences g.text v) ≤
          occurrences g.text (u ++ (f.text ++ v)) := by
        have outer := occurrences_append g.text u (f.text ++ v)
        have inner := occurrences_append g.text f.text v
        omega
      have here : 0 < occurrences f.text f.text := (occurrences_pos (text_ne_nil f)).mpr List.infix_rfl
      have roots := parts .root
      have headers := parts .headers
      have libs := parts .libs
      rw [assignments, root_text, headers_text, libs_text] at single
      have none (g : Field) : occurrences g.text u = 0 ∧ occurrences g.text v = 0 := by
        cases f <;> cases g <;> omega
      intro g
      constructor
      · intro inside
        have := (occurrences_pos (text_ne_nil g)).mpr inside
        have := none g
        omega
      · intro inside
        have := (occurrences_pos (text_ne_nil g)).mpr inside
        have := none g
        omega
  · exact Or.inl fun f occurs => some_field ⟨f, occurs⟩

/-! ### The four commands -/

section
variable (s : Sysroot) (d : Libdir)

private def assignRoot : Line → Line := once (toEnd Field.root.text (Field.root.text ++ (s.path ++ "/usr".toList)))

private def assignVariable : Line → Line :=
  once (Sed.text (Field.headers.text ++ variableInclude) (Field.headers.text ++ (s.path ++ usrInclude)))

private def assignHeaders : Line → Line :=
  once (Sed.text (Field.headers.text ++ usrInclude) (Field.headers.text ++ (s.path ++ usrInclude)))

private def newLibs : Line := s.path ++ ("/usr/".toList ++ d.text)

private def assignLibs : Line → Line := once (toEnd Field.libs.text (Field.libs.text ++ newLibs s d))

private theorem fix_eq (line : Line) :
    fixPkgconfigLine s d line = assignLibs s d (assignHeaders s (assignVariable s (assignRoot s line))) := by
  have root_new : pkgconfigPrefix s = Field.root.text ++ (s.path ++ "/usr".toList) := congrArg (· ++ _) root_text
  have headers_new : pkgconfigIncludedir s = Field.headers.text ++ (s.path ++ usrInclude) := congrArg (· ++ _) headers_text
  have libs_new : pkgconfigLibdir s d = Field.libs.text ++ newLibs s d := congrArg (· ++ _) libs_text
  unfold fixPkgconfigLine
  rw [root_new, headers_new, libs_new, variable_text, fixed_text, root_text, libs_text]
  rfl

end

private theorem root_keeps (different : Field.root ≠ g) (absent : ¬ Field.root.text <:+: u ++ g.text) :
    assignRoot s (u ++ (g.text ++ v)) = u ++ (g.text ++ assignRoot s v) :=
  keeps_key (needs_toEnd _ _) different absent

private theorem variable_keeps (different : Field.headers ≠ g) (absent : ¬ Field.headers.text ++ variableInclude <:+: u ++ g.text) :
    assignVariable s (u ++ (g.text ++ v)) = u ++ (g.text ++ assignVariable s v) :=
  keeps (needs_text _ _) include_facts.2.1 different absent

private theorem headers_keeps (different : Field.headers ≠ g) (absent : ¬ Field.headers.text ++ usrInclude <:+: u ++ g.text) :
    assignHeaders s (u ++ (g.text ++ v)) = u ++ (g.text ++ assignHeaders s v) :=
  keeps (needs_text _ _) include_facts.1 different absent

private theorem libs_keeps (different : Field.libs ≠ g) (absent : ¬ Field.libs.text <:+: u ++ g.text) :
    assignLibs s d (u ++ (g.text ++ v)) = u ++ (g.text ++ assignLibs s d v) :=
  keeps_key (needs_toEnd _ _) different absent

private theorem libs_reset (first : ¬ Field.libs.text <:+: u) : assignLibs s d (u ++ (Field.libs.text ++ v)) = u ++ (Field.libs.text ++ newLibs s d) :=
  once_key (needs_toEnd _ _) first (if_pos (List.prefix_append _ v))

/-- A line that sets `prefix`: the first command alone decides what the others are given. -/
private theorem fix_root (alone : ∀ g : Field, ¬ g.text <:+: u) :
    ∃ out, ∀ v, fixPkgconfigLine s d (u ++ (Field.root.text ++ v)) = u ++ (Field.root.text ++ out) := by
  refine ⟨assignLibs s d (assignHeaders s (assignVariable s (s.path ++ "/usr".toList))), fun v => ?_⟩
  have set : assignRoot s (u ++ (Field.root.text ++ v)) = u ++ (Field.root.text ++ (s.path ++ "/usr".toList)) :=
    once_key (needs_toEnd _ _) (alone .root) (if_pos (List.prefix_append _ v))
  have front (more : Line) : ¬ Field.headers.text ++ more <:+: u ++ Field.root.text := absent_front (by decide) (alone .headers)
  rw [fix_eq, set, variable_keeps (by decide) (front _), headers_keeps (by decide) (front _),
    libs_keeps (by decide) (absent_key_front (by decide) (alone .libs))]

/-- A line in which the last command decides. -/
private theorem fix_libs (roots : ¬ Field.root.text <:+: u ++ Field.libs.text)
    (variables_ : ¬ Field.headers.text ++ variableInclude <:+: u ++ Field.libs.text)
    (headers : ¬ Field.headers.text ++ usrInclude <:+: u ++ Field.libs.text) (first : ¬ Field.libs.text <:+: u) (v : Line) :
    fixPkgconfigLine s d (u ++ (Field.libs.text ++ v)) = u ++ (Field.libs.text ++ newLibs s d) := by
  rw [fix_eq, root_keeps (by decide) roots, variable_keeps (by decide) variables_, headers_keeps (by decide) headers, libs_reset first]

/-! ### A path without texts that the commands look for -/

/-- What the condition is about: the part of the new directory of the headers that the last command leaves. -/
private def kept (s : Sysroot) : Line := through Field.libs.text (s.path ++ usrInclude)

/-- The path holds neither a `prefix=` nor an `includedir=/usr/include` before its first `libdir=`, the directory of the
headers being taken with it. -/
def Unmatched (s : Sysroot) : Prop :=
  ∀ searched ∈ ["prefix=".toList, "includedir=/usr/include".toList],
    ¬ searched <:+: through "libdir=".toList (s.path ++ "/usr/include".toList)

private theorem unmatched_iff : Unmatched s ↔ ¬ Field.root.text <:+: kept s ∧ ¬ Field.headers.text ++ usrInclude <:+: kept s := by
  rw [Unmatched, List.forall_mem_cons, List.forall_mem_singleton, root_text, fixed_text, libs_text]
  rfl

/-- An assignment in the path with something after it, where no assignment starts behind the path. -/
private theorem infix_path (after : ¬ f.text <:+: "include".toList ++ v) (occurs : f.text ++ more <:+: s.path ++ (usrInclude ++ v)) :
    ∃ t t', s.path = t ++ (f.text ++ t') ∧ more <+: t' ++ (usrInclude ++ v) := by
  obtain ⟨a, b, same⟩ := occurs
  have shape : usrInclude ++ v = '/' :: ("usr".toList ++ '/' :: ("include".toList ++ v)) := by
    rw [usrInclude_eq, List.cons_append, List.append_assoc, List.cons_append]
  rw [List.append_assoc, List.append_assoc, shape] at same
  rcases place (field_facts f).1 same with ⟨t, path, rest⟩ | ⟨t, -, rest⟩
  · exact ⟨a, t, path, b, by rw [shape, rest]⟩
  · have behind : f.text <:+: "usr".toList ++ '/' :: ("include".toList ++ v) := ⟨t, more ++ b, by rw [rest]; simp⟩
    rcases (infix_around (field_facts f).1).mp behind with inside | later
    · exact absurd inside (field_facts f).2.1
    · exact absurd later after

/-- No dollar stands where the path of the sysroot is, so the second command finds nothing there. -/
private theorem no_variable {t : Line} (clean : '$' ∉ t) : ¬ variableInclude <+: t ++ (usrInclude ++ v) := by
  rw [variableInclude_eq, usrInclude_eq]
  intro starts
  rcases t with _ | ⟨c, t⟩
  · exact absurd (List.cons_prefix_cons.mp starts).1 (by decide)
  · obtain ⟨rfl, -⟩ := List.cons_prefix_cons.mp starts
    simp at clean

private theorem include_apart (r : Line) : ¬ usrInclude <+: s.path ++ (usrInclude ++ r) :=
  path_apart s.headers (by decide +kernel) r

/-- What the second or the third command has made of a line. -/
private def inserted (s : Sysroot) (u v : Line) : Line := u ++ (Field.headers.text ++ (s.path ++ (usrInclude ++ v)))

private theorem absent_inserted (alone : ¬ f.text <:+: u) (after : ¬ f.text <:+: "include".toList ++ v)
    (first : f = .headers → ¬ more <+: s.path ++ (usrInclude ++ v))
    (inner : ∀ t t', s.path = t ++ (f.text ++ t') → ¬ more <+: t' ++ (usrInclude ++ v)) : ¬ f.text ++ more <:+: inserted s u v := by
  intro occurs
  rcases infix_field occurs with before | ⟨same, here⟩ | later
  · exact alone before
  · exact first same here
  · obtain ⟨t, t', path, starts⟩ := infix_path after later
    exact inner t t' path starts

/-- Where the path holds no `libdir=`, such a line is left alone. -/
private theorem settled_whole (unmatched : Unmatched s) (whole : ¬ Field.libs.text <:+: s.path ++ usrInclude)
    (alone : ∀ g : Field, ¬ g.text <:+: u) (after : ∀ g : Field, ¬ g.text <:+: "include".toList ++ v) :
    assignRoot s (inserted s u v) = inserted s u v ∧ assignVariable s (inserted s u v) = inserted s u v ∧
      assignHeaders s (inserted s u v) = inserted s u v ∧ assignLibs s d (inserted s u v) = inserted s u v := by
  have all : kept s = s.path ++ usrInclude := by
    rcases through_cases Field.libs.key (s.path ++ usrInclude) with ⟨-, same⟩ | ⟨x, y, split, -⟩
    · exact same
    · exact absurd ⟨x, y, by rw [split, List.append_assoc]⟩ whole
  rw [unmatched_iff, all] at unmatched
  have in_path {f : Field} {t t' : Line} (path : s.path = t ++ (f.text ++ t')) : f.text <:+: s.path ++ usrInclude :=
    ⟨t, t' ++ usrInclude, by rw [path]; simp⟩
  refine ⟨once_absent (needs_toEnd _ _) ?_, once_absent (needs_text _ _) ?_, once_absent (needs_text _ _) ?_,
    once_absent (needs_toEnd _ _) ?_⟩
  · rw [← List.append_nil Field.root.text]
    exact absent_inserted (alone _) (after _) (by simp) fun t t' path => absurd (in_path path) unmatched.1
  · refine absent_inserted (alone _) (after _) (fun _ => no_variable no_dollar) fun t t' path => no_variable fun dollar => ?_
    exact no_dollar (show '$' ∈ s.path by rw [path]; simp [dollar])
  · refine absent_inserted (alone _) (after _) (fun _ => include_apart v) fun t t' path starts => unmatched.2 ?_
    have short : usrInclude <+: t' ++ usrInclude := by
      rw [← List.append_assoc] at starts
      exact List.prefix_of_prefix_length_le starts (List.prefix_append _ v) (by simp)
    obtain ⟨r, shape⟩ := short
    exact ⟨t, r, by rw [path]; simp [shape]⟩
  · rw [← List.append_nil Field.libs.text]
    exact absent_inserted (alone _) (after _) (by simp) fun t t' path => absurd (in_path path) whole

/-- The first `libdir=` of the new directory is one of the path. -/
private theorem path_split (occurs : Field.libs.text <:+: s.path ++ usrInclude) :
    ∃ x y, s.path = x ++ (Field.libs.text ++ y) ∧ ¬ Field.libs.text <:+: x ∧ kept s = x ++ Field.libs.text := by
  rcases through_cases Field.libs.key (s.path ++ usrInclude) with ⟨absent, -⟩ | ⟨x, z, split, first, cut⟩
  · exact absurd occurs absent
  · have shape : x ++ (Field.libs.text ++ z) = s.path ++ '/' :: ("usr".toList ++ '/' :: "include".toList) := by
      rw [← usrInclude_eq]
      exact split.symm
    rcases place (field_facts .libs).1 shape with ⟨y, path, -⟩ | ⟨y, -, rest⟩
    · exact ⟨x, y, path, first, cut⟩
    · have behind : Field.libs.text <:+: "usr".toList ++ '/' :: "include".toList := ⟨y, z, by rw [rest]; simp⟩
      rcases (infix_around (field_facts .libs).1).mp behind with inside | later
      · exact absurd inside (field_facts .libs).2.1
      · exact absurd later (field_facts .libs).2.2.1

/-- Where it holds one, the last command decides about such a line from the first `libdir=` of the path on. -/
private theorem settled_cut {x y : Line} (unmatched : Unmatched s) (path : s.path = x ++ (Field.libs.text ++ y))
    (first : ¬ Field.libs.text <:+: x) (cut : kept s = x ++ Field.libs.text) (alone : ∀ g : Field, ¬ g.text <:+: u) :
    ¬ Field.root.text <:+: (u ++ (Field.headers.text ++ x)) ++ Field.libs.text ∧
      ¬ Field.headers.text ++ variableInclude <:+: (u ++ (Field.headers.text ++ x)) ++ Field.libs.text ∧
      ¬ Field.headers.text ++ usrInclude <:+: (u ++ (Field.headers.text ++ x)) ++ Field.libs.text ∧
      ¬ Field.libs.text <:+: u ++ (Field.headers.text ++ x) := by
  rw [unmatched_iff, cut] at unmatched
  have front : x ++ Field.libs.text <+: s.path := ⟨y, by rw [path, List.append_assoc]⟩
  have clean {p : Line} (dollar : '$' ∈ p) : ¬ p <:+: x ++ Field.libs.text := fun inside =>
    no_dollar (front.subset (inside.subset dollar))
  have variable_dollar : '$' ∈ variableInclude := by simp [variableInclude_eq]
  refine ⟨fun occurs => ?_, fun occurs => ?_, fun occurs => ?_, fun occurs => ?_⟩
  · rw [List.append_assoc, List.append_assoc, ← List.append_nil Field.root.text] at occurs
    rcases infix_field occurs with before | ⟨same, -⟩ | later
    · exact alone _ before
    · exact Field.noConfusion same
    · exact unmatched.1 (by simpa using later)
  · rw [List.append_assoc, List.append_assoc] at occurs
    rcases infix_field occurs with before | ⟨-, here⟩ | later
    · exact alone _ before
    · exact clean variable_dollar here.isInfix
    · exact clean (List.mem_append_right _ variable_dollar) later
  · rw [List.append_assoc, List.append_assoc] at occurs
    rcases infix_field occurs with before | ⟨-, here⟩ | later
    · exact alone _ before
    · exact s.headers (here.trans front)
    · exact unmatched.2 later
  · rw [← List.append_nil Field.libs.text] at occurs
    rcases infix_field occurs with before | ⟨same, -⟩ | later
    · exact alone _ before
    · exact Field.noConfusion same
    · exact first (by simpa using later)

/-- Whichever of two commands has put the path in, the rest of the script comes to one line, which it leaves alone. -/
private theorem inserted_settles (unmatched : Unmatched s) (alone : ∀ g : Field, ¬ g.text <:+: u)
    (after : ∀ g : Field, ¬ g.text <:+: "include".toList ++ v) : ∃ out, assignLibs s d (inserted s u v) = out ∧
      assignLibs s d (assignHeaders s (inserted s u v)) = out ∧ fixPkgconfigLine s d out = out := by
  by_cases occurs : Field.libs.text <:+: s.path ++ usrInclude
  · obtain ⟨x, y, path, first, cut⟩ := path_split occurs
    obtain ⟨roots, by_variable, headers, libs⟩ := settled_cut unmatched path first cut alone
    have split : inserted s u v = (u ++ (Field.headers.text ++ x)) ++ (Field.libs.text ++ (y ++ (usrInclude ++ v))) := by
      rw [inserted, path]
      simp
    refine ⟨_, rfl, ?_, ?_⟩
    · rw [split, headers_keeps (by decide) headers, libs_reset libs, libs_reset libs]
    · rw [split, libs_reset libs, fix_libs roots by_variable headers libs]
  · obtain ⟨roots, by_variable, headers, libs⟩ := settled_whole (d := d) unmatched occurs alone after
    refine ⟨inserted s u v, libs, by rw [headers, libs], ?_⟩
    rw [fix_eq, roots, by_variable, headers, libs]

private theorem put_path {rest : Line} (alone : ¬ Field.headers.text <:+: u) :
    once (Sed.text (Field.headers.text ++ more) (Field.headers.text ++ (s.path ++ usrInclude))) (u ++ (Field.headers.text ++ (more ++ rest))) =
      inserted s u rest := by
  have applies : Sed.text (Field.headers.text ++ more) (Field.headers.text ++ (s.path ++ usrInclude)) (Field.headers.text ++ (more ++ rest)) =
      some (Field.headers.text ++ (s.path ++ usrInclude) ++ rest) := by
    rw [← List.append_assoc Field.headers.text more rest]
    exact (if_pos (List.prefix_append _ rest)).trans (by rw [List.drop_left])
  rw [once_key (needs_text _ _).front alone applies, inserted]
  simp only [List.append_assoc]

/-- A line that sets `includedir`. -/
private theorem fix_headers (unmatched : Unmatched s) (alone : ∀ g : Field, ¬ g.text <:+: u ∧ ¬ g.text <:+: v) :
    fixPkgconfigLine s d (fixPkgconfigLine s d (u ++ (Field.headers.text ++ v))) = fixPkgconfigLine s d (u ++ (Field.headers.text ++ v)) := by
  have other (f : Field) (more : Line) (different : f ≠ .headers) : ¬ f.text ++ more <:+: u ++ (Field.headers.text ++ v) := fun occurs => by
    rcases infix_field occurs with before | ⟨same, -⟩ | later
    · exact (alone f).1 before
    · exact different same
    · exact (alone f).2 ((List.prefix_append _ more).isInfix.trans later)
  have follows {more : Line} (occurs : Field.headers.text ++ more <:+: u ++ (Field.headers.text ++ v)) : more <+: v := by
    rcases infix_field occurs with before | ⟨-, here⟩ | later
    · exact absurd before (alone _).1
    · exact here
    · exact absurd ((List.prefix_append _ more).isInfix.trans later) (alone .headers).2
  have roots : assignRoot s (u ++ (Field.headers.text ++ v)) = u ++ (Field.headers.text ++ v) :=
    once_absent (needs_toEnd _ _) (by simpa using other .root [] (by decide))
  have include_suffix : "include".toList <:+ usrInclude := ⟨'/' :: ("usr".toList ++ ['/']), by simp [usrInclude_eq]⟩
  have variable_suffix : "include".toList <:+ variableInclude := ⟨'$' :: "\x7bprefix\x7d/".toList, by simp [variableInclude_eq]⟩
  have behind {more rest : Line} (ends : "include".toList <:+ more) (within : more ++ rest = v) (g : Field) :
      ¬ g.text <:+: "include".toList ++ rest := by
    obtain ⟨start, rfl⟩ := ends
    intro occurs
    exact (alone g).2 (occurs.trans ⟨start, [], by rw [← within]; simp⟩)
  -- What follows the assignment decides which of two commands puts the path in.
  by_cases by_variable : variableInclude <+: v
  · obtain ⟨rest, rfl⟩ := by_variable
    have put : assignVariable s (u ++ (Field.headers.text ++ (variableInclude ++ rest))) = inserted s u rest := put_path (alone _).1
    obtain ⟨out, -, through_headers, fixed⟩ := inserted_settles (d := d) unmatched (fun g => (alone g).1) (behind variable_suffix rfl)
    have here : fixPkgconfigLine s d (u ++ (Field.headers.text ++ (variableInclude ++ rest))) = out := by
      rw [fix_eq, roots, put, through_headers]
    rw [here, fixed]
  · have skipped : assignVariable s (u ++ (Field.headers.text ++ v)) = u ++ (Field.headers.text ++ v) :=
      once_absent (needs_text _ _) fun occurs => by_variable (follows occurs)
    by_cases by_path : usrInclude <+: v
    · obtain ⟨rest, rfl⟩ := by_path
      have put : assignHeaders s (u ++ (Field.headers.text ++ (usrInclude ++ rest))) = inserted s u rest := put_path (alone _).1
      obtain ⟨out, directly, -, fixed⟩ := inserted_settles (d := d) unmatched (fun g => (alone g).1) (behind include_suffix rfl)
      have here : fixPkgconfigLine s d (u ++ (Field.headers.text ++ (usrInclude ++ rest))) = out := by
        rw [fix_eq, roots, skipped, put, directly]
      rw [here, fixed]
    · have passed : assignHeaders s (u ++ (Field.headers.text ++ v)) = u ++ (Field.headers.text ++ v) :=
        once_absent (needs_text _ _) fun occurs => by_path (follows occurs)
      have left : assignLibs s d (u ++ (Field.headers.text ++ v)) = u ++ (Field.headers.text ++ v) :=
        once_absent (needs_toEnd _ _) (by simpa using other .libs [] (by decide))
      have here : fixPkgconfigLine s d (u ++ (Field.headers.text ++ v)) = u ++ (Field.headers.text ++ v) := by
        rw [fix_eq, roots, skipped, passed, left]
      rw [here, here]

/-- In a path without the texts every line with one assignment at most is rewritten once and for all. -/
theorem pkgconfig_again (unmatched : Unmatched s) (d : Libdir) (single : assignments line ≤ 1) :
    fixPkgconfigLine s d (fixPkgconfigLine s d line) = fixPkgconfigLine s d line := by
  rcases single_cases single with absent | ⟨f, u, v, rfl, alone⟩
  · have roots : assignRoot s line = line := once_absent (needs_toEnd _ _) (absent .root)
    have by_variable : assignVariable s line = line := once_absent (needs_text _ _).front (absent .headers)
    have by_path : assignHeaders s line = line := once_absent (needs_text _ _).front (absent .headers)
    have libs : assignLibs s d line = line := once_absent (needs_toEnd _ _) (absent .libs)
    have unchanged : fixPkgconfigLine s d line = line := by rw [fix_eq, roots, by_variable, by_path, libs]
    rw [unchanged, unchanged]
  · cases f with
    | root =>
      obtain ⟨out, fixed⟩ := fix_root (s := s) (d := d) fun g => (alone g).1
      rw [fixed, fixed]
    | headers => exact fix_headers unmatched alone
    | libs =>
      have fixed := fix_libs (s := s) (d := d) (absent_key_front (by decide) (alone .root).1)
        (absent_front (by decide) (alone .headers).1) (absent_front (by decide) (alone .headers).1) (alone .libs).1
      rw [fixed, fixed]

/-! ### A path with one of the texts -/

private theorem last_text {pattern new : Line} {c : Char} (old : pattern.getLast? = some c) (put : new.getLast? = some c) :
    (once (Sed.text pattern new) line).getLast? = line.getLast? := by
  rcases once_cases (Sed.text pattern new) line with ⟨-, same⟩ | ⟨u, w, out, rfl, applied, result⟩
  · rw [same]
  · unfold Sed.text at applied
    split at applied
    · next starts =>
      obtain ⟨rest, rfl⟩ := starts
      obtain rfl := Option.some.inj applied
      rw [result, List.drop_left]
      simp [List.getLast?_append, old, put]
    · simp at applied

private theorem usrInclude_last : usrInclude.getLast? = some 'e' := include_facts.2.2.2.2.1

private theorem libs_last : ∃ c, (newLibs s d).getLast? = some c ∧ c ≠ 'e' := by
  cases d with
  | lib => exact ⟨'b', by simp [newLibs, Libdir.text, List.getLast?_append], by decide⟩
  | lib32 => exact ⟨'2', by simp [newLibs, Libdir.text, List.getLast?_append], by decide⟩

private theorem last_headers : (assignHeaders s line).getLast? = line.getLast? := by
  exact last_text (c := 'e') (by simp [usrInclude_last]) (by simp [usrInclude_last])

private theorem last_variable : (assignVariable s line).getLast? = line.getLast? := by
  exact last_text (c := 'e') (by simp [include_facts.2.2.2.2.2.1]) (by simp [usrInclude_last])

/-- The last command has done nothing to a line that ends as the directory of the headers does. -/
private theorem libs_unless_last (ends : (assignLibs s d line).getLast? = some 'e') : assignLibs s d line = line := by
  rcases once_cases (toEnd Field.libs.text (Field.libs.text ++ newLibs s d)) line with ⟨-, same⟩ | ⟨u, w, out, rfl, applied, result⟩
  · exact same
  · unfold toEnd at applied
    split at applied
    · obtain rfl := Option.some.inj applied
      obtain ⟨c, last, other⟩ := libs_last (s := s) (d := d)
      rw [assignLibs, result, ← List.append_assoc, List.getLast?_append, last, Option.some_or] at ends
      exact absurd (Option.some.inj ends) other
    · simp at applied

private theorem no_variable_in (clean : '$' ∉ line) : assignVariable s line = line := by
  refine once_absent (needs_text _ _) fun occurs => clean (occurs.subset (List.mem_append_right _ ?_))
  simp [variableInclude_eq]

/-- The line `includedir=/usr/include` after the first run, but for the last command. -/
private theorem first_run : fixPkgconfigLine s d (Field.headers.text ++ usrInclude) = assignLibs s d (inserted s [] []) := by
  have roots : assignRoot s (Field.headers.text ++ usrInclude) = Field.headers.text ++ usrInclude :=
    once_absent (needs_toEnd _ _) (by decide +kernel)
  have by_variable : assignVariable s (Field.headers.text ++ usrInclude) = Field.headers.text ++ usrInclude :=
    no_variable_in (by simp [include_facts])
  have put : assignHeaders s (Field.headers.text ++ usrInclude) = inserted s [] [] := by
    have alone : ¬ Field.headers.text <:+: [] := by simp [text_ne_nil]
    have placed : assignHeaders s ([] ++ (Field.headers.text ++ (usrInclude ++ []))) = inserted s [] [] := put_path alone
    rwa [List.append_nil] at placed
  rw [fix_eq, roots, by_variable, put]

/-- Without a `libdir=` in the path, the second run lengthens that line or ends it otherwise. -/
private theorem unmatched_whole (whole : ¬ Field.libs.text <:+: s.path ++ usrInclude)
    (again : fixPkgconfigLine s d (fixPkgconfigLine s d (Field.headers.text ++ usrInclude)) = fixPkgconfigLine s d (Field.headers.text ++ usrInclude)) :
    Unmatched s := by
  have all : kept s = s.path ++ usrInclude := by
    rcases through_cases Field.libs.key (s.path ++ usrInclude) with ⟨-, same⟩ | ⟨x, y, split, -⟩
    · exact same
    · exact absurd ⟨x, y, by rw [split, List.append_assoc]⟩ whole
  have shape : inserted s [] [] = Field.headers.text ++ (s.path ++ usrInclude) := by simp [inserted]
  have first : fixPkgconfigLine s d (Field.headers.text ++ usrInclude) = inserted s [] [] := by
    rw [first_run]
    refine once_absent (needs_toEnd _ _) fun occurs => ?_
    rw [shape, ← List.append_nil Field.libs.text] at occurs
    rcases infix_first occurs with ⟨same, -⟩ | later
    · exact Field.noConfusion same
    · exact whole (by simpa using later)
  rw [first, fix_eq] at again
  have ends : (inserted s [] []).getLast? = some 'e' := by
    simp [shape, List.getLast?_append, usrInclude_last]
  have unlast := libs_unless_last (by rw [again, ends])
  rw [unlast] at again
  have clean : '$' ∉ inserted s [] [] := by
    rw [shape, List.mem_append, List.mem_append]
    rintro (dollar | dollar | dollar)
    · exact include_facts.2.2.2.1 dollar
    · exact no_dollar dollar
    · exact include_facts.2.2.1 dollar
  rw [unmatched_iff, all]
  have no_root : ¬ Field.root.text <:+: s.path ++ usrInclude := fun occurs => by
    have inside : Field.root.text <:+: inserted s [] [] := by
      rw [shape]
      exact occurs.trans (List.suffix_append _ _).isInfix
    obtain ⟨x, y, -, set⟩ := once_within (v := []) (needs_toEnd Field.root.text (Field.root.text ++ (s.path ++ "/usr".toList)))
      (fun rest => if_pos (List.prefix_append _ rest)) (text_ne_nil _) inside
    have last := congrArg List.getLast? again
    rw [last_headers, last_variable, assignRoot, ← List.append_nil (inserted s [] []), set, List.append_nil, ends] at last
    simp [List.getLast?_append] at last
  refine ⟨no_root, fun occurs => ?_⟩
  have roots : assignRoot s (inserted s [] []) = inserted s [] [] := by
    refine once_absent (needs_toEnd _ _) fun inside => ?_
    rw [shape, ← List.append_nil Field.root.text] at inside
    rcases infix_first inside with ⟨same, -⟩ | later
    · exact Field.noConfusion same
    · exact no_root (by simpa using later)
  have within : Field.headers.text ++ usrInclude <:+: inserted s [] [] := by
    rw [shape]
    exact occurs.trans (List.suffix_append _ _).isInfix
  obtain ⟨x, y, split, put⟩ := once_within (v := []) (needs_text (Field.headers.text ++ usrInclude) (Field.headers.text ++ (s.path ++ usrInclude)))
    (fun rest => (if_pos (List.prefix_append _ rest)).trans (by rw [List.drop_left])) (by simp [text_ne_nil]) within
  have longer := congrArg List.length again
  rw [roots, no_variable_in clean, assignHeaders, ← List.append_nil (inserted s [] []), put, List.append_nil, List.append_nil, split] at longer
  have nonempty : s.path ≠ [] := fun empty => by simpa [empty] using s.rooted
  have := List.length_pos_iff.mpr nonempty
  simp only [List.length_append] at longer
  omega

/-- Where the third command matches before a `libdir=`, it brings the first `libdir=` of the path with it. -/
private theorem headers_fires {x y : Line} (path : s.path = x ++ (Field.libs.text ++ y)) (first : ¬ Field.libs.text <:+: x)
    (alone : ¬ Field.libs.text <:+: u) (occurs : Field.headers.text ++ usrInclude <:+: u ++ Field.libs.text) (v : Line) :
    ∃ a b rest, u ++ Field.libs.text = a ++ (Field.headers.text ++ usrInclude ++ b) ∧ ¬ Field.libs.text <:+: a ++ (Field.headers.text ++ x) ∧
      assignHeaders s (u ++ (Field.libs.text ++ v)) = (a ++ (Field.headers.text ++ x)) ++ (Field.libs.text ++ rest) := by
  obtain ⟨a, b, split, put⟩ := once_within (v := v) (needs_text (Field.headers.text ++ usrInclude) (Field.headers.text ++ (s.path ++ usrInclude)))
    (fun rest => (if_pos (List.prefix_append _ rest)).trans (by rw [List.drop_left])) (by simp [text_ne_nil]) occurs
  refine ⟨a, b, y ++ (usrInclude ++ (b ++ v)), split, fun inside => ?_, ?_⟩
  · rw [← List.append_nil Field.libs.text] at inside
    rcases infix_field inside with before | ⟨same, -⟩ | later
    · obtain ⟨t, t', rfl⟩ := before
      have places : t ++ (Field.libs.text ++ (t' ++ (Field.headers.text ++ usrInclude ++ b))) = u ++ (Field.libs.text ++ []) := by
        rw [List.append_nil, split]
        simp
      rcases place_field places with ⟨r, rfl, -⟩ | ⟨-, -, none⟩ | ⟨r, -, none⟩
      · exact alone ⟨t, r, by simp⟩
      · simp [text_ne_nil] at none
      · simp [text_ne_nil] at none
    · exact Field.noConfusion same
    · exact first (by simpa using later)
  · rw [← List.append_assoc u, assignHeaders, put, path]
    simp

/-- The second run has to come to the same place for its last `libdir=` as the first. -/
private theorem same_front {out : Line} (again : assignLibs s d (u ++ (Field.libs.text ++ v)) = out ++ (Field.libs.text ++ newLibs s d))
    (alone : ¬ Field.libs.text <:+: u) : u = out := by
  rw [libs_reset alone] at again
  exact List.append_cancel_right again

/-- With a `prefix=` before the first `libdir=` of the path, the second run leaves more in front of the last assignment. -/
private theorem no_root_cut {x y : Line} (path : s.path = x ++ (Field.libs.text ++ y)) (first : ¬ Field.libs.text <:+: x)
    (again : assignLibs s d (assignHeaders s (assignVariable s (assignRoot s ((Field.headers.text ++ x) ++ (Field.libs.text ++ newLibs s d))))) =
      (Field.headers.text ++ x) ++ (Field.libs.text ++ newLibs s d)) : ¬ Field.root.text <:+: x := by
  intro occurs
  obtain ⟨-, -, -, headers_clean, -, -, root_clean, no_p, root_eq⟩ := include_facts
  obtain ⟨e, b, split, set⟩ := once_within (v := Field.libs.text ++ newLibs s d)
    (needs_toEnd Field.root.text (Field.root.text ++ (s.path ++ "/usr".toList))) (fun rest => if_pos (List.prefix_append _ rest)) (text_ne_nil _)
    (occurs.trans (List.suffix_append Field.headers.text x).isInfix)
  obtain ⟨t, rfl, shape⟩ : ∃ t, e = Field.headers.text ++ t ∧ x = t ++ (Field.root.text ++ b) := by
    have places : e ++ (Field.root.text ++ b) = [] ++ (Field.headers.text ++ x) := split.symm
    rcases place_field places with ⟨t, none, -⟩ | ⟨same, -⟩ | ⟨t, front, rest⟩
    · simp [text_ne_nil] at none
    · exact Field.noConfusion same
    · exact ⟨t, by simpa using front, rest⟩
  have second : assignRoot s ((Field.headers.text ++ x) ++ (Field.libs.text ++ newLibs s d)) =
      (Field.headers.text ++ (t ++ (Field.root.text ++ x))) ++ (Field.libs.text ++ (y ++ "/usr".toList)) := by
    rw [assignRoot, set, path]
    simp only [List.append_assoc]
  have front : t <+: s.path := ⟨Field.root.text ++ (b ++ (Field.libs.text ++ y)), by rw [path, shape]; simp⟩
  have cut : x ++ Field.libs.text <+: s.path := ⟨y, by rw [path, List.append_assoc]⟩
  have alone : ¬ Field.libs.text <:+: Field.headers.text ++ (t ++ (Field.root.text ++ x)) := fun inside => by
    rw [← List.append_nil Field.libs.text] at inside
    rcases infix_first inside with ⟨same, -⟩ | later
    · exact Field.noConfusion same
    · rcases infix_field later with before | ⟨same, -⟩ | behind
      · exact first (before.trans ⟨[], Field.root.text ++ b, by rw [shape]; simp⟩)
      · exact Field.noConfusion same
      · exact first (by simpa using behind)
  have regrouped : (Field.headers.text ++ (t ++ (Field.root.text ++ x))) ++ Field.libs.text =
      Field.headers.text ++ (t ++ (Field.root.text ++ (x ++ Field.libs.text))) := by simp only [List.append_assoc]
  have clean : ¬ Field.headers.text ++ variableInclude <:+: (Field.headers.text ++ (t ++ (Field.root.text ++ x))) ++ Field.libs.text := fun inside => by
    have dollar := inside.subset (List.mem_append_right _ (by simp [variableInclude_eq] : '$' ∈ variableInclude))
    rw [regrouped, List.mem_append, List.mem_append, List.mem_append] at dollar
    rcases dollar with here | here | here | here
    · exact headers_clean here
    · exact no_dollar (front.subset here)
    · exact root_clean here
    · exact no_dollar (cut.subset here)
  rw [second, variable_keeps (by decide) clean] at again
  by_cases fires : Field.headers.text ++ usrInclude <:+: (Field.headers.text ++ (t ++ (Field.root.text ++ x))) ++ Field.libs.text
  · obtain ⟨a, b, rest, places, apart, fired⟩ := headers_fires path first alone fires (assignVariable s (y ++ "/usr".toList))
    rw [fired] at again
    have none : a = [] := by simpa using same_front again apart
    rw [none, List.nil_append, regrouped, List.append_assoc] at places
    have starts : usrInclude <+: t ++ 'p' :: ("refix=".toList ++ (x ++ Field.libs.text)) :=
      ⟨b, by rw [← List.cons_append, ← root_eq]; exact (List.append_cancel_left places).symm⟩
    exact s.headers (((prefix_before no_p).mp starts).trans front)
  · rw [headers_keeps (by decide) fires] at again
    have same := List.append_cancel_left (same_front again alone)
    have lengths := congrArg List.length same
    have := List.length_pos_iff.mpr (text_ne_nil .root)
    simp only [List.length_append] at lengths
    omega

private theorem unmatched_cut {x y : Line} (path : s.path = x ++ (Field.libs.text ++ y)) (first : ¬ Field.libs.text <:+: x)
    (cut : kept s = x ++ Field.libs.text)
    (again : fixPkgconfigLine s d (fixPkgconfigLine s d (Field.headers.text ++ usrInclude)) = fixPkgconfigLine s d (Field.headers.text ++ usrInclude)) :
    Unmatched s := by
  have alone : ¬ Field.libs.text <:+: Field.headers.text ++ x := fun occurs => by
    rw [← List.append_nil Field.libs.text] at occurs
    rcases infix_first occurs with ⟨same, -⟩ | later
    · exact Field.noConfusion same
    · exact first (by simpa using later)
  have split : inserted s [] [] = (Field.headers.text ++ x) ++ (Field.libs.text ++ (y ++ usrInclude)) := by
    rw [inserted, path]
    simp
  have once : fixPkgconfigLine s d (Field.headers.text ++ usrInclude) = (Field.headers.text ++ x) ++ (Field.libs.text ++ newLibs s d) := by
    rw [first_run, split, libs_reset alone]
  rw [once, fix_eq] at again
  have front : x ++ Field.libs.text <+: s.path := ⟨y, by rw [path, List.append_assoc]⟩
  have x_clean : '$' ∉ x ++ Field.libs.text := fun dollar => no_dollar (front.subset dollar)
  rw [unmatched_iff, cut]
  have no_root : ¬ Field.root.text <:+: x ++ Field.libs.text := fun occurs => by
    rw [← List.append_nil Field.root.text, ← List.append_nil Field.libs.text] at occurs
    rcases infix_field occurs with inside | ⟨same, -⟩ | none
    · exact no_root_cut path first again inside
    · exact Field.noConfusion same
    · simp [text_ne_nil] at none
  refine ⟨no_root, fun occurs => ?_⟩
  have roots : ¬ Field.root.text <:+: (Field.headers.text ++ x) ++ Field.libs.text := fun inside => by
    rw [List.append_assoc, ← List.append_nil Field.root.text] at inside
    rcases infix_first inside with ⟨same, -⟩ | later
    · exact Field.noConfusion same
    · exact no_root (by simpa using later)
  have by_variable : ¬ Field.headers.text ++ variableInclude <:+: (Field.headers.text ++ x) ++ Field.libs.text := fun inside => by
    have dollar : '$' ∈ (Field.headers.text ++ x) ++ Field.libs.text := inside.subset (by simp [variableInclude_eq])
    rw [List.append_assoc] at dollar
    exact (List.mem_append.mp dollar).elim include_facts.2.2.2.1 x_clean
  have within : Field.headers.text ++ usrInclude <:+: (Field.headers.text ++ x) ++ Field.libs.text := by
    rw [List.append_assoc]
    exact occurs.trans (List.suffix_append _ _).isInfix
  rw [root_keeps (by decide) roots, variable_keeps (by decide) by_variable] at again
  obtain ⟨a, b, rest, places, apart, fired⟩ := headers_fires path first alone within (assignVariable s (assignRoot s (newLibs s d)))
  rw [fired] at again
  have same := same_front again apart
  have none : a = [] := by simpa using same
  have starts : usrInclude <+: x ++ Field.libs.text := by
    rw [none, List.nil_append, List.append_assoc, List.append_assoc] at places
    exact ⟨b, (List.append_cancel_left places).symm⟩
  exact s.headers (starts.trans front)

/-- If the line `includedir=/usr/include` is rewritten once and for all, the path has none of the texts. -/
theorem unmatched_of_again
    (again : fixPkgconfigLine s d (fixPkgconfigLine s d (Field.headers.text ++ usrInclude)) = fixPkgconfigLine s d (Field.headers.text ++ usrInclude)) :
    Unmatched s := by
  by_cases occurs : Field.libs.text <:+: s.path ++ usrInclude
  · obtain ⟨x, y, path, first, cut⟩ := path_split occurs
    exact unmatched_cut path first cut again
  · exact unmatched_whole occurs again

/-! ### The files -/

/-- A `.pc` file with one assignment in a line at most. -/
def SingleAssignments (file : List Line) : Prop := ∀ line ∈ file, assignments line ≤ 1

/-- A file as libtool writes it, with the directory of a library once in a line at most. -/
def LibtoolFile (d : Libdir) (file : List Line) : Prop := ∀ line ∈ file, occurrences (ltlibdirold d) line ≤ 1

/-- Any number of runs comes to one run. -/
def SettlesAtOnce (fix : List Line → List Line) (file : List Line) : Prop := ∀ n, 1 ≤ n → fix^[n] file = fix file

private theorem settles_iff {fix : Line → Line} {file : List Line} :
    SettlesAtOnce (List.map fix) file ↔ ∀ line ∈ file, fix (fix line) = fix line := by
  constructor
  · intro settles line inside
    have twice : (file.map fix).map fix = file.map fix := settles 2 (by decide)
    rw [List.map_map] at twice
    exact List.map_inj_left.mp twice line inside
  · intro again n positive
    obtain ⟨m, rfl⟩ := Nat.exists_eq_succ_of_ne_zero (Nat.one_le_iff_ne_zero.mp positive)
    rw [Function.iterate_succ_apply]
    refine Function.iterate_fixed ?_ m
    rw [List.map_map]
    exact List.map_congr_left again

/-- Both scripts settle a file in one run, whatever its lines, exactly when the path has none of the texts. -/
theorem settles_at_once_iff (s : Sysroot) (d : Libdir) :
    ((∀ file, SingleAssignments file → SettlesAtOnce (fixPkgconfigFile s d) file) ∧
      (∀ file, LibtoolFile d file → SettlesAtOnce (fixLibtoolFile s d) file)) ↔ Unmatched s := by
  constructor
  · rintro ⟨pkgconfig, -⟩
    have single : SingleAssignments [Field.headers.text ++ usrInclude] := by
      intro line inside
      obtain rfl := List.mem_singleton.mp inside
      decide +kernel
    exact unmatched_of_again (settles_iff.mp (pkgconfig _ single) _ List.mem_cons_self)
  · intro unmatched
    refine ⟨fun file single => ?_, fun file libtool => ?_⟩
    · exact settles_iff.mpr fun line inside => pkgconfig_again unmatched d (single line inside)
    · exact settles_iff.mpr fun line inside => libtool_again s (libtool line inside)

private def prefixed : Sysroot where
  path := "/opt/prefix=arm/sysroot".toList
  rooted := by decide +kernel
  plain c inside := by
    have checked : ("/opt/prefix=arm/sysroot".toList.all fun c => c ∉ " \t\n;&\\$\x22\x27\x60".toList) = true := by decide +kernel
    simpa using List.all_eq_true.mp checked c inside
  libs := by decide +kernel
  headers := by decide +kernel

/-- The second run takes the end of the directory away. -/
theorem headers_line_cut : SingleAssignments ["includedir=/usr/include".toList] ∧
    ¬ SettlesAtOnce (fixPkgconfigFile prefixed .lib) ["includedir=/usr/include".toList] := by
  refine ⟨fun line inside => ?_, fun settles => ?_⟩
  · obtain rfl := List.mem_singleton.mp inside
    decide +kernel
  · have twice := settles 2 (by decide)
    revert twice
    decide +kernel

end EmbToolkit.Proofs.RewrittenFiles
