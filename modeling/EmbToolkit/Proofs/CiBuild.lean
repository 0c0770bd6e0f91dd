import EmbToolkit.CiBuild

/-! What the option loop of `ci-build.sh` makes of arguments `--name=value`. It takes two words for an option, so it
reads the arguments as they were given exactly when each of them comes to two words. -/

namespace EmbToolkit.Proofs.CiBuild
open EmbToolkit.CiBuild MakeText

theorem recognise_word (o : Opt) : recognise o.word = some o := by
  cases o <;> decide +kernel

variable {sh : Shell}

/-! ### Rounds -/

private theorem Ends.unique {s first second : State} (one : Ends sh s first) (other : Ends sh s second) : first = second := by
  induction one with
  | left here =>
    cases other with
    | left here' => exact Turn.left.inj (here.symm.trans here')
    | again here' => simp [here] at here'
  | again here later ih =>
    cases other with
    | left here' => simp [here] at here'
    | again here' later' =>
      obtain rfl := Turn.again.inj (here.symm.trans here')
      exact ih later'

/-! ### Arguments of two words -/

/-- With one parameter left the loop does not get away from it. -/
theorem stuck {s final : State} {o : Opt} {place : Nat} (words : s.words = [(o.word, place)]) : ¬ Ends sh s final := by
  intro ends
  induction ends with
  | left here =>
    simp only [turn, words, recognise_word] at here
    split at here <;> simp at here
  | again here later ih =>
    simp only [turn, words, recognise_word] at here
    split at here
    · simp at here
    · obtain rfl := Turn.again.inj here
      exact ih words

/-! ### Values -/

private theorem unchanged {text : String} (plain : '=' ∉ text.toList) : text.toList.map (fun c => if c = '=' then ' ' else c) = text.toList := by
  refine (List.map_congr_left fun c inside => if_neg ?_).trans (List.map_id _)
  rintro rfl
  exact plain inside

end EmbToolkit.Proofs.CiBuild
