import EmbToolkit.Library.Text
import Mathlib.Data.List.Infix

/-! The substitutions of a stream editor on one line, and the places at which a text occurs in a line that is put
together from others. A key is a text that ends with a character it holds nowhere else, such as a name and its `=`:
of two keys in one line, each stands wholly before the other unless one name ends with the other. -/

namespace Sed

abbrev Line := List Char

/-- `s;pattern;new;`. The rule is what becomes of a text that starts with the pattern, and the leftmost such place is taken. -/
def once (rule : Line → Option Line) : Line → Line
  | [] => []
  | c :: s =>
    match rule (c :: s) with
    | some rewritten => rewritten
    | none => c :: once rule s

/-- `pattern` and `new`. With `pattern\(.*\)` and `new\1` the rest of the line is taken and put back, which is the same. -/
def text (pattern new s : Line) : Option Line :=
  if pattern <+: s then some (new ++ s.drop pattern.length) else none

/-- `pattern.*` and `new` -/
def toEnd (pattern new s : Line) : Option Line := if pattern <+: s then some new else none

/-- `pattern\(.*\)c` and `new\1c`: there has to be a `c` later in the line, and nothing after the pattern changes. -/
def before (c : Char) (pattern new s : Line) : Option Line :=
  if pattern <+: s ∧ c ∈ s.drop pattern.length then some (new ++ s.drop pattern.length) else none

/-- The number of places at which a text occurs. -/
def occurrences (pattern : Line) : Line → Nat
  | [] => 0
  | c :: s => (if pattern <+: c :: s then 1 else 0) + occurrences pattern s

/-- A line up to the first place of a text, with that text. -/
def through (pattern : Line) : Line → Line
  | [] => []
  | c :: s => if pattern <+: c :: s then pattern else c :: through pattern s

/-- What `s;c ahead;c new ahead;g` does with a text that starts with `c` and holds no other: it inserts. -/
def insertAfter (c : Char) (ahead new : Line) : Line → Line
  | [] => []
  | d :: s => if d = c ∧ ahead <+: s then c :: (new ++ insertAfter c ahead new s) else d :: insertAfter c ahead new s

/-! ### Where a text stands -/

/-- A text without `c` stands before a `c` of the line or after it. -/
theorem place {a p b x y : Line} {c : Char} (free : c ∉ p) (same : a ++ (p ++ b) = x ++ c :: y) :
    (∃ t, x = a ++ (p ++ t) ∧ b = t ++ c :: y) ∨ ∃ t, a = x ++ c :: t ∧ y = t ++ (p ++ b) := by
  rcases List.append_eq_append_iff.mp same with ⟨t, rfl, rest⟩ | ⟨t, rfl, rest⟩
  · rcases List.append_eq_append_iff.mp rest with ⟨s, rfl, rfl⟩ | ⟨s, rfl, onward⟩
    · exact Or.inl ⟨s, rfl, rfl⟩
    · rcases s with _ | ⟨d, s⟩
      · exact Or.inl ⟨[], by simp, onward.symm⟩
      · obtain ⟨rfl, -⟩ := List.cons.inj onward
        simp at free
  · rcases t with _ | ⟨d, t⟩
    · rcases p with _ | ⟨d, p⟩
      · exact Or.inl ⟨[], by simp, by simpa using rest.symm⟩
      · obtain ⟨rfl, -⟩ := List.cons.inj rest
        simp at free
    · obtain ⟨rfl, rfl⟩ := List.cons.inj rest
      exact Or.inr ⟨t, rfl, rfl⟩

/-- A text without `c` occurs on one side of a `c`. -/
theorem infix_around {p x y : Line} {c : Char} (free : c ∉ p) : p <:+: x ++ c :: y ↔ p <:+: x ∨ p <:+: y := by
  constructor
  · rintro ⟨a, b, same⟩
    rw [List.append_assoc] at same
    rcases place free same with ⟨t, rfl, -⟩ | ⟨t, -, rfl⟩
    · exact Or.inl ⟨a, t, by simp⟩
    · exact Or.inr ⟨t, b, by simp⟩
  · rintro (left | right)
    · exact left.trans (List.infix_append' [] x _)
    · exact right.trans ⟨x ++ [c], [], by simp⟩

/-- A name and the mark that ends it. -/
structure Key (mark : Char) where
  name : Line
  plain : mark ∉ name

def Key.text {mark : Char} (key : Key mark) : Line := key.name ++ [mark]

/-- A beginning without `c` ends before the first `c`. -/
theorem prefix_before {p x y : Line} {c : Char} (free : c ∉ p) : p <+: x ++ c :: y ↔ p <+: x := by
  constructor
  · rintro ⟨r, same⟩
    rcases place (a := []) free same with ⟨t, rfl, -⟩ | ⟨t, none, -⟩
    · exact List.prefix_append p t
    · simp at none
  · exact fun starts => starts.trans (List.prefix_append x _)

variable {mark : Char} {key other : Key mark} {a b u v : Line}

theorem Key.text_append (key : Key mark) (v : Line) : key.text ++ v = key.name ++ mark :: v := by simp [Key.text]

/-- One of two keys of a line stands before the other, or they share their mark. -/
theorem Key.place (same : a ++ (key.text ++ b) = u ++ (other.text ++ v)) :
    (∃ t, u = a ++ (key.text ++ t) ∧ b = t ++ (other.text ++ v)) ∨ (a ++ key.name = u ++ other.name ∧ b = v) ∨
      ∃ t, a = u ++ (other.text ++ t) ∧ v = t ++ (key.text ++ b) := by
  simp only [Key.text_append] at *
  rw [← List.append_assoc u] at same
  rcases Sed.place key.plain same with ⟨t, front, rest⟩ | ⟨t, rfl, rfl⟩
  · rcases t with _ | ⟨d, t⟩
    · exact Or.inr (Or.inl ⟨by simpa using front.symm, by simpa using rest⟩)
    · obtain ⟨rfl, rfl⟩ := List.cons.inj rest
      have marked : u ++ (other.name ++ []) = (a ++ key.name) ++ mark :: t := by simpa using front
      rcases Sed.place other.plain marked with ⟨s, -, none⟩ | ⟨s, rfl, rfl⟩
      · simp at none
      · exact Or.inl ⟨s, by simp, by simp⟩
  · exact Or.inr (Or.inr ⟨t, by simp, by simp⟩)

/-- The first place of a key, with what stands before and after it. -/
theorem through_cases (key : Key mark) (line : Line) : (¬ key.text <:+: line ∧ through key.text line = line) ∨
    ∃ a b, line = a ++ (key.text ++ b) ∧ ¬ key.text <:+: a ∧ through key.text line = a ++ key.text := by
  have nonempty : key.text ≠ [] := by simp [Key.text]
  induction line with
  | nil => exact Or.inl ⟨by simpa using nonempty, rfl⟩
  | cons c s ih =>
    by_cases starts : key.text <+: c :: s
    · obtain ⟨b, shape⟩ := starts
      exact Or.inr ⟨[], b, shape.symm, by simpa using nonempty, if_pos ⟨b, shape⟩⟩
    · have onward : through key.text (c :: s) = c :: through key.text s := if_neg starts
      rcases ih with ⟨absent, whole⟩ | ⟨a, b, rfl, first, cut⟩
      · refine Or.inl ⟨fun occurs => ?_, by rw [onward, whole]⟩
        exact (List.infix_cons_iff.mp occurs).elim starts absent
      · refine Or.inr ⟨c :: a, b, rfl, fun occurs => ?_, by rw [onward, cut]; rfl⟩
        rcases List.infix_cons_iff.mp occurs with front | later
        · exact starts (front.trans (List.prefix_append (c :: a) _))
        · exact first later

/-! ### Counting places -/

theorem occurrences_append (pattern a b : Line) : occurrences pattern a + occurrences pattern b ≤ occurrences pattern (a ++ b) := by
  induction a with
  | nil => simp [occurrences]
  | cons c a ih =>
    have grows : pattern <+: c :: a → pattern <+: c :: (a ++ b) := fun starts => starts.trans (List.prefix_append (c :: a) b)
    simp only [List.cons_append, occurrences]
    by_cases starts : pattern <+: c :: a
    · rw [if_pos starts, if_pos (grows starts)]
      omega
    · rw [if_neg starts]
      omega

theorem occurrences_pos {pattern line : Line} (nonempty : pattern ≠ []) : 0 < occurrences pattern line ↔ pattern <:+: line := by
  induction line with
  | nil => simp [occurrences, nonempty]
  | cons c line ih =>
    rw [List.infix_cons_iff, ← ih, occurrences]
    by_cases starts : pattern <+: c :: line
    · simp only [starts, if_pos, true_or, iff_true]
      omega
    · simp [starts]

/-- A text that occurs once at most has one place. -/
theorem place_unique {pattern a b u v : Line} (same : a ++ (pattern ++ b) = u ++ (pattern ++ v)) (nonempty : pattern ≠ [])
    (once : occurrences pattern (a ++ (pattern ++ b)) ≤ 1) : a = u := by
  have again {c : Char} {s rest front : Line} (starts : pattern <+: c :: s) (tail : s = front ++ (pattern ++ rest)) :
      2 ≤ occurrences pattern (c :: s) := by
    have later : 0 < occurrences pattern s := (occurrences_pos nonempty).mpr (tail ▸ ⟨front, rest, by simp⟩)
    rw [occurrences, if_pos starts]
    omega
  induction a generalizing u with
  | nil =>
    rcases u with _ | ⟨c, u⟩
    · rfl
    · have twice := again (c := c) ⟨b, by simpa using same⟩ rfl
      simp only [List.nil_append, List.cons_append] at same once
      rw [same] at once
      omega
  | cons c a ih =>
    rcases u with _ | ⟨d, u⟩
    · have twice := again (c := c) ⟨v, by simpa using same.symm⟩ rfl
      simp only [List.cons_append] at once
      omega
    · obtain ⟨rfl, rest⟩ := List.cons.inj same
      have fewer : occurrences pattern (a ++ (pattern ++ b)) ≤ 1 := by
        simp only [List.cons_append, occurrences] at once
        omega
      rw [ih rest fewer]

/-! ### What a substitution leaves and what it changes -/

/-- A rule applies to nothing but texts that start with the pattern. -/
def Needs (pattern : Line) (rule : Line → Option Line) : Prop := ∀ s, ¬ pattern <+: s → rule s = none

variable {rule : Line → Option Line} {pattern more new line : Line}

theorem needs_text (pattern new : Line) : Needs pattern (text pattern new) := fun _ absent => if_neg absent

theorem needs_toEnd (pattern new : Line) : Needs pattern (toEnd pattern new) := fun _ absent => if_neg absent

theorem needs_before (c : Char) (pattern new : Line) : Needs pattern (before c pattern new) :=
  fun _ absent => if_neg fun both => absent both.1

theorem Needs.front (needs : Needs (pattern ++ more) rule) : Needs pattern rule :=
  fun s absent => needs s fun starts => absent ((List.prefix_append pattern more).trans starts)

theorem once_skip (quiet : ∀ w, w ≠ [] → w <:+ u → rule (w ++ v) = none) : once rule (u ++ v) = u ++ once rule v := by
  induction u with
  | nil => rfl
  | cons c u ih =>
    have here := quiet (c :: u) (List.cons_ne_nil c u) List.suffix_rfl
    have later := ih fun w nonempty inside => quiet w nonempty (inside.trans (List.suffix_cons c u))
    rw [List.cons_append] at here
    simp only [List.cons_append, once, here, later]

theorem once_absent (needs : Needs pattern rule) (absent : ¬ pattern <:+: line) : once rule line = line := by
  have whole : once rule (line ++ []) = line ++ once rule [] := by
    refine once_skip fun w _ inside => needs _ fun starts => absent ?_
    rw [List.append_nil] at starts
    exact starts.isInfix.trans inside.isInfix
  simpa [once] using whole

/-- Where the pattern occurs, the outcome is at least as long as what the rule puts. -/
theorem once_long {size : Nat} (needs : Needs pattern rule) (nonempty : pattern ≠ [])
    (long : ∀ s, pattern <+: s → ∃ r, rule s = some r ∧ size ≤ r.length) (occurs : pattern <:+: line) : size ≤ (once rule line).length := by
  induction line with
  | nil => exact absurd (List.infix_nil.mp occurs) nonempty
  | cons c line ih =>
    by_cases starts : pattern <+: c :: line
    · obtain ⟨r, applied, bound⟩ := long (c :: line) starts
      simpa only [once, applied] using bound
    · have later := ih ((List.infix_cons_iff.mp occurs).resolve_left starts)
      simp only [once, needs _ starts, List.length_cons]
      omega

/-- A front that ends with a key, and in which the rest of the pattern never follows its own key, whatever comes behind. -/
theorem once_front (needs : Needs (key.text ++ more) rule)
    (never : ∀ a b, u ++ other.text = a ++ (key.text ++ b) → ¬ more <+: b ++ v) :
    once rule (u ++ (other.text ++ v)) = u ++ (other.text ++ once rule v) := by
  rw [← List.append_assoc, ← List.append_assoc]
  refine once_skip ?_
  rintro w nonempty ⟨a, split⟩
  refine needs _ ?_
  rintro ⟨r, same⟩
  have places : a ++ (key.text ++ (more ++ r)) = u ++ (other.text ++ v) := by
    rw [← List.append_assoc u, ← split, List.append_assoc a, ← same, List.append_assoc]
  rcases Key.place places with ⟨t, rfl, rest⟩ | ⟨names, rest⟩ | ⟨t, rfl, -⟩
  · exact never a (t ++ other.text) (by simp) ⟨r, by rw [rest, List.append_assoc]⟩
  · exact never a [] (by simp [Key.text, ← List.append_assoc, names]) ⟨r, rest⟩
  · have lengths := congrArg List.length split
    have longer : 0 < w.length := List.length_pos_iff.mpr nonempty
    simp only [List.length_append] at lengths
    omega

/-- A front in which the pattern does not occur stays, although the line goes on. -/
theorem once_keeps (needs : Needs (key.text ++ more) rule) (plain : mark ∉ more) (apart : ¬ key.text <:+ u ++ other.text)
    (absent : ¬ key.text ++ more <:+: u ++ other.text) : once rule (u ++ (other.text ++ v)) = u ++ (other.text ++ once rule v) := by
  refine once_front needs fun a b split starts => ?_
  rcases List.eq_nil_or_concat b with rfl | ⟨b, c, rfl⟩
  · exact apart ⟨a, by rw [split, List.append_nil]⟩
  · have last : c = mark := by
      have ends := congrArg List.getLast? split
      simpa [Key.text, ← List.append_assoc] using ends.symm
    subst last
    rw [List.concat_eq_append, List.append_assoc, List.singleton_append, prefix_before plain] at starts
    obtain ⟨r, rfl⟩ := starts
    exact absent ⟨a, r ++ [c], by rw [split]; simp⟩

/-- The rule applies at the first place of the key. -/
theorem once_key (needs : Needs key.text rule) (first : ¬ key.text <:+: u) (applies : rule (key.text ++ v) = some new) :
    once rule (u ++ (key.text ++ v)) = u ++ new := by
  have quiet : ∀ w, w ≠ [] → w <:+ u → rule (w ++ (key.text ++ v)) = none := by
    rintro w nonempty ⟨a, rfl⟩
    refine needs _ ?_
    rintro ⟨r, same⟩
    have longer : 0 < w.length := List.length_pos_iff.mpr nonempty
    have places : a ++ (key.text ++ r) = (a ++ w) ++ (key.text ++ v) := by rw [same, List.append_assoc]
    rcases Key.place places with ⟨t, front, -⟩ | ⟨names, -⟩ | ⟨t, front, -⟩
    · exact first ⟨a, t, by rw [front, List.append_assoc]⟩
    · have lengths := congrArg List.length names
      simp only [List.length_append] at lengths
      omega
    · have lengths := congrArg List.length front
      simp only [List.length_append] at lengths
      omega
  rw [once_skip quiet]
  obtain ⟨c, s, shape⟩ := List.exists_cons_of_ne_nil (l := key.text ++ v) (by simp [Key.text])
  rw [shape] at applies ⊢
  simp only [once, applies]

/-- The first place lies in the front of a line if the front has one. -/
theorem once_within {put : Line → Line} (needs : Needs pattern rule) (applies : ∀ s, rule (pattern ++ s) = some (put s))
    (nonempty : pattern ≠ []) (occurs : pattern <:+: u) :
    ∃ a b, u = a ++ (pattern ++ b) ∧ once rule (u ++ v) = a ++ put (b ++ v) := by
  induction u with
  | nil => exact absurd (List.infix_nil.mp occurs) nonempty
  | cons c u ih =>
    by_cases starts : pattern <+: c :: u
    · obtain ⟨b, shape⟩ := starts
      have here : rule (c :: (u ++ v)) = some (put (b ++ v)) := by
        rw [← List.cons_append, ← shape, List.append_assoc]
        exact applies (b ++ v)
      exact ⟨[], b, shape.symm, by simp only [List.cons_append, once, here]; rfl⟩
    · have later : pattern <:+: u := (List.infix_cons_iff.mp occurs).resolve_left starts
      -- A place that starts earlier ends earlier, and so within the front.
      have not_here : ¬ pattern <+: c :: (u ++ v) := fun beyond => by
        refine starts (List.prefix_of_prefix_length_le beyond (List.prefix_append (c :: u) v) ?_)
        exact Nat.le_succ_of_le later.length_le
      obtain ⟨a, b, split, rest⟩ := ih later
      refine ⟨c :: a, b, by rw [split]; rfl, ?_⟩
      simp only [List.cons_append, once, needs _ not_here, rest]

/-- Either the rule applies nowhere or it has been applied at one place. -/
theorem once_cases (rule : Line → Option Line) (line : Line) : ((∀ u v, line = u ++ v → v ≠ [] → rule v = none) ∧ once rule line = line) ∨
    ∃ u v new, line = u ++ v ∧ rule v = some new ∧ once rule line = u ++ new := by
  induction line with
  | nil =>
    refine Or.inl ⟨fun u v split nonempty => ?_, rfl⟩
    exact absurd (List.append_eq_nil_iff.mp split.symm).2 nonempty
  | cons c line ih =>
    cases applied : rule (c :: line) with
    | some new => exact Or.inr ⟨[], c :: line, new, rfl, applied, by simp only [once, applied]; rfl⟩
    | none =>
      have onward : once rule (c :: line) = c :: once rule line := by simp only [once, applied]
      rcases ih with ⟨never, same⟩ | ⟨u, v, new, rfl, here, rest⟩
      · refine Or.inl ⟨fun u v split nonempty => ?_, by rw [onward, same]⟩
        rcases u with _ | ⟨d, u⟩
        · exact (show c :: line = v from split) ▸ applied
        · exact never u v (List.cons.inj split).2 nonempty
      · exact Or.inr ⟨c :: u, v, new, rfl, here, by rw [onward, rest]; rfl⟩

/-! ### Insertions -/

section
variable {c : Char} {ahead new : Line}

theorem insertAfter_front (free : c ∉ u) (v : Line) : insertAfter c ahead new (u ++ v) = u ++ insertAfter c ahead new v := by
  induction u with
  | nil => rfl
  | cons d u ih =>
    obtain ⟨here, later⟩ : c ≠ d ∧ c ∉ u := by simpa using free
    rw [List.cons_append, insertAfter, if_neg fun both => here both.1.symm, ih later, List.cons_append]

/-- A global substitution that puts back what it finds. -/
theorem replaceAll_eq_insertAfter (free : c ∉ ahead) (line : Line) :
    MakeText.replaceAll (c :: ahead) (c :: (new ++ ahead)) 0 line = insertAfter c ahead new line := by
  suffices every : ∀ skip, MakeText.replaceAll (c :: ahead) (c :: (new ++ ahead)) skip line = insertAfter c ahead new (line.drop skip) from
    every 0
  induction line with
  | nil => intro skip; cases skip <;> rfl
  | cons d line ih =>
    intro skip
    cases skip with
    | succ skip => exact ih skip
    | zero =>
      by_cases here : d = c ∧ ahead <+: line
      · obtain ⟨rfl, r, rfl⟩ := here
        have found : (d :: ahead).isPrefixOf (d :: (ahead ++ r)) = true :=
          List.isPrefixOf_iff_prefix.mpr (List.prefix_append (d :: ahead) r)
        rw [MakeText.replaceAll, if_pos found, ih, List.drop_zero, insertAfter, if_pos ⟨rfl, List.prefix_append ahead r⟩, insertAfter_front free]
        simp
      · have missed : ¬ (c :: ahead).isPrefixOf (d :: line) = true := fun found => by
          obtain ⟨same, starts⟩ := List.cons_prefix_cons.mp (List.isPrefixOf_iff_prefix.mp found)
          exact here ⟨same.symm, starts⟩
        rw [MakeText.replaceAll, if_neg missed, ih, List.drop_zero, List.drop_zero, insertAfter, if_neg here]

/-- Insertions are made at the places of the character, so that what stands before the first of them stays. -/
theorem prefix_of_insertAfter (free : c ∉ u) (starts : u <+: insertAfter c ahead new line) : u <+: line := by
  induction line generalizing u with
  | nil => exact starts
  | cons d line ih =>
    rcases u with _ | ⟨e, u⟩
    · exact List.nil_prefix
    · obtain ⟨here, later⟩ : c ≠ e ∧ c ∉ u := by simpa using free
      unfold insertAfter at starts
      split at starts
      · exact absurd (List.cons_prefix_cons.mp starts).1.symm here
      · obtain ⟨rfl, onward⟩ := List.cons_prefix_cons.mp starts
        exact List.cons_prefix_cons.mpr ⟨rfl, ih later onward⟩

theorem mem_of_mem_insertAfter {d : Char} (member : d ∈ insertAfter c ahead new line) : d ∈ line ∨ d ∈ new := by
  induction line with
  | nil => exact Or.inl member
  | cons e line ih =>
    unfold insertAfter at member
    split at member
    · next here =>
      obtain ⟨rfl, -⟩ := here
      simp only [List.mem_cons, List.mem_append] at member ⊢
      tauto
    · simp only [List.mem_cons] at member ⊢
      tauto

theorem insertAfter_idempotent (free : c ∉ ahead) (plain : c ∉ new) (apart : ∀ r, ¬ ahead <+: new ++ (ahead ++ r)) (line : Line) :
    insertAfter c ahead new (insertAfter c ahead new line) = insertAfter c ahead new line := by
  induction line with
  | nil => rfl
  | cons d line ih =>
    by_cases here : d = c ∧ ahead <+: line
    · obtain ⟨rfl, r, rfl⟩ := here
      have inserted : insertAfter d ahead new (d :: (ahead ++ r)) = d :: (new ++ insertAfter d ahead new (ahead ++ r)) :=
        if_pos ⟨rfl, List.prefix_append ahead r⟩
      have settled : ¬ (d = d ∧ ahead <+: new ++ insertAfter d ahead new (ahead ++ r)) := fun both => by
        rw [insertAfter_front free] at both
        exact apart _ both.2
      rw [inserted, insertAfter, if_neg settled, insertAfter_front plain, ih]
    · have kept : insertAfter c ahead new (d :: line) = d :: insertAfter c ahead new line := if_neg here
      have settled : ¬ (d = c ∧ ahead <+: insertAfter c ahead new line) := fun both =>
        here ⟨both.1, prefix_of_insertAfter free both.2⟩
      rw [kept, insertAfter, if_neg settled, ih]

end

end Sed
