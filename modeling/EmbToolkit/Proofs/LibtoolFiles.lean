import EmbToolkit.SysrootFiles

/-! The script of `__embtk_fix_libtool_files` run on its own outcome. No blank and no quote comes with the path that it
inserts, so what the two commands look for is nowhere new, and the places they have changed no longer match. -/

namespace EmbToolkit.Proofs.LibtoolFiles
open Sed

variable {s : Sysroot} {d : Libdir} {line u v : Line}

/-! ### A path that is put in front of one of the directories -/

/-- A directory whose ends differ from its beginnings does not show up earlier when the path is put in front of it. -/
theorem path_apart {directory : Line} (outside : ¬ directory <+: s.path)
    (unbordered : ∀ n < directory.length, n ≠ 0 → ¬ directory.drop n <+: directory) (r : Line) : ¬ directory <+: s.path ++ (directory ++ r) := by
  intro starts
  rcases List.prefix_or_prefix_of_prefix starts (List.prefix_append s.path _) with inside | ⟨rest, shape⟩
  · exact outside inside
  · have nonempty : s.path ≠ [] := fun empty => by simpa [empty] using s.rooted
    have rest_eq : directory.drop s.path.length = rest := by rw [← shape]; simp
    have lengths := congrArg List.length shape
    rw [List.length_append] at lengths
    have more : rest ≠ [] := fun empty => outside (by rw [← shape, empty, List.append_nil])
    have longer := List.length_pos_iff.mpr more
    have border : rest <+: directory ++ r := by
      rw [← shape, List.append_assoc] at starts
      rw [← shape, List.append_assoc]
      rw [List.prefix_append_right_inj] at starts
      simpa [List.append_assoc] using starts
    refine unbordered s.path.length (by omega) (by simpa using nonempty) ?_
    rw [rest_eq]
    exact List.prefix_of_prefix_length_le border (List.prefix_append directory r) (by omega)

private theorem plain_path {c : Char} (special : c ∈ " \t\n;&\\$\x22\x27\x60".toList) : c ∉ s.path :=
  fun inside => s.plain c inside special

private theorem no_quote : '\x27' ∉ s.path := plain_path (by decide +kernel)

private theorem no_blank : ' ' ∉ s.path := plain_path (by decide +kernel)

theorem no_dollar : '$' ∉ s.path := plain_path (by decide +kernel)

/-! ### Libtool files -/

/-- What `libdir` is set to in front of. -/
private def quoted : Key '\x27' where
  name := "libdir=".toList
  plain := by decide +kernel

/-- The directory of the libraries. -/
private def libraries (d : Libdir) : Line := "/usr/".toList ++ d.text

private theorem old_eq : ltlibdirold d = quoted.text ++ libraries d := rfl

private theorem new_eq : ltlibdirnew s d = quoted.text ++ (s.path ++ libraries d) := rfl

private theorem libraries_facts : '\x27' ∉ libraries d ∧ ' ' ∉ libraries d ∧ ∃ rest, libraries d = '/' :: rest := by
  cases d
  · exact ⟨by decide +kernel, by decide +kernel, "usr/lib".toList, by decide +kernel⟩
  · exact ⟨by decide +kernel, by decide +kernel, "usr/lib32".toList, by decide +kernel⟩

private theorem libraries_apart (r : Line) : ¬ libraries d <+: s.path ++ (libraries d ++ r) := by
  refine path_apart (fun inside => s.libs (List.IsPrefix.trans ?_ inside)) ?_ r
  · cases d <;> decide +kernel
  · cases d <;> decide +kernel

private theorem slashed_apart (r : Line) : ¬ libraries d ++ "/".toList <+: s.path ++ (libraries d ++ "/".toList ++ r) := by
  rw [List.append_assoc]
  exact fun starts => libraries_apart _ ((List.prefix_append (libraries d) _).trans starts)

/-- A line in which the first command has something to do. -/
private def Followed (d : Libdir) (line : Line) : Prop := ∃ u v, line = u ++ (ltlibdirold d ++ v) ∧ '\x27' ∈ v

private theorem once_unmatched (unmatched : ¬ Followed d line) : once (before '\x27' (ltlibdirold d) (ltlibdirnew s d)) line = line := by
  rcases once_cases (before '\x27' (ltlibdirold d) (ltlibdirnew s d)) line with ⟨-, same⟩ | ⟨u, v, new, rfl, applied, -⟩
  · exact same
  · unfold before at applied
    split at applied
    · next both =>
      obtain ⟨⟨w, rfl⟩, later⟩ := both
      exact absurd ⟨u, w, rfl, by simpa using later⟩ unmatched
    · simp at applied

/-- One text `libdir='/usr/lib`, once it is rewritten, leaves none that is followed by a quote. -/
private theorem unmatched_once (single : occurrences (ltlibdirold d) line ≤ 1) :
    ¬ Followed d (once (before '\x27' (ltlibdirold d) (ltlibdirnew s d)) line) := by
  have nonempty : ltlibdirold d ≠ [] := by simp [old_eq, Key.text]
  obtain ⟨no_quote_here, -, slashed, libraries_eq⟩ := libraries_facts (d := d)
  rcases once_cases (before '\x27' (ltlibdirold d) (ltlibdirnew s d)) line with ⟨never, same⟩ | ⟨u, v, new, rfl, applied, result⟩
  · rw [same]
    rintro ⟨u, v, rfl, later⟩
    have none := never u (ltlibdirold d ++ v) rfl (by simp [nonempty])
    simp [before, later] at none
  · unfold before at applied
    split at applied
    · next both =>
      obtain ⟨⟨w, rfl⟩, -⟩ := both
      obtain rfl := Option.some.inj applied
      rw [result, List.drop_left]
      rintro ⟨a, b, same, -⟩
      rw [old_eq, new_eq, List.append_assoc, List.append_assoc, List.append_assoc] at same
      rw [old_eq] at single nonempty
      rcases Key.place same.symm with ⟨t, rfl, rest⟩ | ⟨names, rest⟩ | ⟨t, rfl, rest⟩
      · have onward : libraries d ++ b = (t ++ quoted.name) ++ '\x27' :: (s.path ++ (libraries d ++ w)) := by
          rw [rest, Key.text_append, List.append_assoc]
        obtain ⟨b', front⟩ := (prefix_before no_quote_here).mp ⟨b, onward⟩
        have early : a ++ ((quoted.text ++ libraries d) ++ (b' ++ '\x27' :: (libraries d ++ w))) =
            (a ++ (quoted.text ++ t)) ++ ((quoted.text ++ libraries d) ++ w) := by
          have joined : libraries d ++ (b' ++ '\x27' :: (libraries d ++ w)) = t ++ (quoted.text ++ (libraries d ++ w)) := by
            rw [← List.append_assoc, front, List.append_assoc, Key.text_append]
          simp only [List.append_assoc, joined]
        have alone := place_unique early nonempty (early ▸ single)
        have lengths := congrArg List.length alone
        simp [Key.text] at lengths
      · exact libraries_apart w ⟨b, rest⟩
      · rw [libraries_eq, List.cons_append] at rest
        rcases place (by decide +kernel : '/' ∉ quoted.text) rest.symm with ⟨r, inside, -⟩ | ⟨r, rfl, onward⟩
        · exact no_quote (s := s) (by rw [inside]; simp [Key.text])
        · have again : (u ++ (quoted.text ++ '/' :: r)) ++ ((quoted.text ++ libraries d) ++ b) =
              u ++ ((quoted.text ++ libraries d) ++ w) := by
            simp only [List.append_assoc, libraries_eq, List.cons_append] at onward ⊢
            rw [onward]
          have alone := place_unique again nonempty (again ▸ single)
          simp [Key.text] at alone
    · simp at applied

private theorem followed_cons {c : Char} : Followed d (c :: line) ↔
    (∃ v, c :: line = ltlibdirold d ++ v ∧ '\x27' ∈ v) ∨ Followed d line := by
  constructor
  · rintro ⟨u, v, split, later⟩
    rcases u with _ | ⟨e, u⟩
    · exact Or.inl ⟨v, split, later⟩
    · exact Or.inr ⟨u, v, (List.cons.inj split).2, later⟩
  · rintro (⟨v, split, later⟩ | ⟨u, v, rfl, later⟩)
    · exact ⟨[], v, split, later⟩
    · exact ⟨c :: u, v, rfl, later⟩

/-- The second command gives the first nothing to do: it writes neither quotes nor a name in front of one. -/
private theorem followed_of_inserted (followed : Followed d (insertAfter ' ' (libraries d ++ "/".toList) s.path line)) :
    Followed d line := by
  obtain ⟨-, no_blank_here, slashed, libraries_eq⟩ := libraries_facts (d := d)
  have free : ' ' ∉ libraries d ++ "/".toList := by simp [no_blank_here]
  have old_free : ' ' ∉ ltlibdirold d := by
    rw [old_eq, List.mem_append, not_or]
    exact ⟨by decide +kernel, no_blank_here⟩
  induction line with
  | nil => exact followed
  | cons c line ih =>
    by_cases here : c = ' ' ∧ libraries d ++ "/".toList <+: line
    · rw [insertAfter, if_pos here] at followed
      refine followed_cons.mpr (Or.inr (ih ?_))
      rcases followed_cons.mp followed with ⟨v, split, -⟩ | ⟨a, b, split, later⟩
      · obtain ⟨r, shape⟩ : ∃ r, ltlibdirold d = 'l' :: r := ⟨_, rfl⟩
        rw [shape] at split
        exact absurd (List.cons.inj split).1 (by decide)
      · obtain ⟨-, r, rfl⟩ := here
        have slash_first : insertAfter ' ' (libraries d ++ "/".toList) s.path (libraries d ++ "/".toList ++ r) =
            '/' :: (slashed ++ ("/".toList ++ insertAfter ' ' (libraries d ++ "/".toList) s.path r)) := by
          rw [insertAfter_front free, List.append_assoc]
          simp only [libraries_eq, List.cons_append]
        rw [slash_first, old_eq, List.append_assoc] at split
        rw [slash_first]
        rcases place (by decide +kernel : '/' ∉ quoted.text) split.symm with ⟨t, inside, -⟩ | ⟨t, rfl, onward⟩
        · exact absurd (show '\x27' ∈ s.path by rw [inside]; simp [Key.text]) no_quote
        · exact ⟨'/' :: t, b, by rw [onward, old_eq, List.append_assoc, List.cons_append], later⟩
    · rw [insertAfter, if_neg here] at followed
      rcases followed_cons.mp followed with ⟨v, split, later⟩ | onward
      · obtain ⟨r, shape⟩ : ∃ r, ltlibdirold d = c :: r := by
          cases old : ltlibdirold d with
          | nil => simp [old_eq, Key.text] at old
          | cons e r => exact ⟨r, by rw [old] at split; rw [(List.cons.inj split).1]⟩
        rw [shape] at split old_free
        have same : insertAfter ' ' (libraries d ++ "/".toList) s.path line = r ++ v := (List.cons.inj split).2
        have no_blank_rest : ' ' ∉ r := fun inside => old_free (List.mem_cons_of_mem c inside)
        obtain ⟨w, rfl⟩ := prefix_of_insertAfter no_blank_rest ⟨v, same.symm⟩
        rw [insertAfter_front no_blank_rest] at same
        have rest := List.append_cancel_left same
        refine ⟨[], w, by rw [shape]; rfl, ?_⟩
        exact (mem_of_mem_insertAfter (rest ▸ later)).resolve_right no_quote
      · exact followed_cons.mpr (Or.inr (ih onward))

theorem libtool_again (s : Sysroot) (single : occurrences (ltlibdirold d) line ≤ 1) :
    fixLibtoolLine s d (fixLibtoolLine s d line) = fixLibtoolLine s d line := by
  have free : ' ' ∉ libraries d ++ "/".toList := by simp [libraries_facts.2.1]
  have inserted (line : Line) : MakeText.replaceAll (ltUsrLib d) (ltSysrootUsrLib s d) 0 line =
      insertAfter ' ' (libraries d ++ "/".toList) s.path line := replaceAll_eq_insertAfter free line
  simp only [fixLibtoolLine, inserted]
  rw [once_unmatched fun followed => unmatched_once single (followed_of_inserted followed),
    insertAfter_idempotent free no_blank slashed_apart]

end EmbToolkit.Proofs.LibtoolFiles
