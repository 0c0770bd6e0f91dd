import Mathlib.Data.List.Induction
import Mathlib.Tactic.Common

/-! Scripts of commands: the effect of a list of commands on a state, what an interrupted script has executed,
and the frame and invariant rules that reduce a statement about scripts to one about single commands. -/

namespace Script
variable {ι σ α : Type*} (apply : ι → σ → σ)

/-- The state after the commands, the first of them executed first. -/
def run (commands : List ι) (s : σ) : σ := commands.foldl (fun s command => apply command s) s

@[simp] theorem run_nil (s : σ) : run apply [] s = s := rfl

@[simp] theorem run_cons (command : ι) (rest : List ι) (s : σ) :
    run apply (command :: rest) s = run apply rest (apply command s) := rfl

@[simp] theorem run_append (first second : List ι) (s : σ) :
    run apply (first ++ second) s = run apply second (run apply first s) := List.foldl_append

/-- Frame rule: a script keeps whatever each of its commands keeps. -/
theorem run_keeps (view : σ → α) {commands : List ι} (kept : ∀ command ∈ commands, ∀ s, view (apply command s) = view s)
    (s : σ) : view (run apply commands s) = view s := by
  induction commands generalizing s with
  | nil => rfl
  | cons command rest ih =>
    rw [run_cons, ih (fun other member => kept other (List.mem_cons_of_mem _ member))]
    exact kept command List.mem_cons_self s

/-- Invariant rule: a property that each command preserves survives the script, wherever it is interrupted. -/
theorem run_preserves (valid : σ → Prop) {commands : List ι}
    (preserved : ∀ command ∈ commands, ∀ s, valid s → valid (apply command s)) {s : σ} (initial : valid s) :
    valid (run apply commands s) := by
  induction commands generalizing s with
  | nil => exact initial
  | cons command rest ih =>
    exact ih (fun other member => preserved other (List.mem_cons_of_mem _ member)) (preserved command List.mem_cons_self s initial)

/-- Views: what a script does to a part of the state that its commands act on by themselves. -/
theorem run_view {β : Type*} (view : σ → β) {onView : ι → β → β} (sees : ∀ command s, view (apply command s) = onView command (view s))
    (commands : List ι) (s : σ) : view (run apply commands s) = run onView commands (view s) := by
  induction commands generalizing s with
  | nil => rfl
  | cons command rest ih => rw [run_cons, run_cons, ih, sees]

/-- What was executed before a command that was not reached. -/
theorem prefix_before {executed first second : List ι} {command : ι} (part : executed <+: first ++ command :: second)
    (missing : command ∉ executed) : executed <+: first := by
  obtain ⟨rest, whole⟩ := part
  rcases List.append_eq_append_iff.mp whole with ⟨gap, shape, -⟩ | ⟨gap, shape, tail⟩
  · exact ⟨gap, shape.symm⟩
  · cases gap with
    | nil => simp [shape]
    | cons head more =>
      obtain ⟨rfl, -⟩ := List.cons.inj tail
      exact absurd (by simp [shape]) missing

/-- What holds of every command of a history, given the commands before it and the state they lead to. -/
def Throughout (good : List ι → σ → ι → Prop) (history : List ι) (s : σ) : Prop :=
  ∀ before command later, history = before ++ command :: later → good before (run apply before s) command

variable {apply}

theorem throughout_nil (good : List ι → σ → ι → Prop) (s : σ) : Throughout apply good [] s := by
  intro before command later shape
  simp at shape

theorem throughout_concat {good : List ι → σ → ι → Prop} {history : List ι} {last : ι} {s : σ} :
    Throughout apply good (history ++ [last]) s ↔ Throughout apply good history s ∧ good history (run apply history s) last := by
  constructor
  · intro all
    exact ⟨fun before command later shape => all before command (later ++ [last]) (by simp [shape]), all history last [] rfl⟩
  · rintro ⟨earlier, final⟩ before command later shape
    rcases List.eq_nil_or_concat later with rfl | ⟨front, other, rfl⟩
    · obtain ⟨rfl, same⟩ := List.append_inj' shape rfl
      obtain rfl := List.singleton_inj.mp same
      exact final
    · rw [List.concat_eq_append, ← List.cons_append, ← List.append_assoc] at shape
      obtain ⟨rfl, -⟩ := List.append_inj' shape rfl
      exact earlier before command front rfl

/-- Run rule: an invariant that every command satisfying `safe` preserves holds after a history of such commands. -/
theorem throughout_invariant (valid : List ι → σ → Prop) (safe : List ι → σ → ι → Prop) {s : σ} (initial : valid [] s)
    (step : ∀ history state command, valid history state → safe history state command → valid (history ++ [command]) (apply command state))
    (history : List ι) (all : Throughout apply safe history s) : valid history (run apply history s) := by
  induction history using List.reverseRecOn with
  | nil => exact initial
  | append_singleton history last ih =>
    obtain ⟨earlier, final⟩ := throughout_concat.mp all
    rw [run_append]
    exact step history _ last (ih earlier) final

/-- Conclusion rule: what the invariant and `safe` give of each command holds throughout a safe history. -/
theorem throughout_of_invariant (valid : List ι → σ → Prop) {good : List ι → σ → ι → Prop} (safe : List ι → σ → ι → Prop) {s : σ} (initial : valid [] s)
    (step : ∀ history state command, valid history state → safe history state command → valid (history ++ [command]) (apply command state))
    (conclude : ∀ history state command, valid history state → safe history state command → good history state command)
    (history : List ι) (all : Throughout apply safe history s) : Throughout apply good history s := by
  intro before command later shape
  refine conclude _ _ command (throughout_invariant valid safe initial step before ?_) (all before command later shape)
  intro front other back inside
  exact all front other (back ++ command :: later) (by simp [shape, inside])

/-- Comparison rule: if, as long as nothing has gone wrong, a command is good exactly when it is safe, then whole
histories are good exactly when they are safe. -/
theorem throughout_iff (valid : List ι → σ → Prop) {good safe : List ι → σ → ι → Prop} {s : σ} (initial : valid [] s)
    (same : ∀ history state command, valid history state → (good history state command ↔ safe history state command))
    (step : ∀ history state command, valid history state → safe history state command → valid (history ++ [command]) (apply command state))
    (history : List ι) : Throughout apply good history s ↔ Throughout apply safe history s := by
  induction history using List.reverseRecOn with
  | nil => exact ⟨fun _ => throughout_nil _ _, fun _ => throughout_nil _ _⟩
  | append_singleton history last ih =>
    simp only [throughout_concat, ih]
    refine and_congr_right fun earlier => ?_
    exact same history _ last (throughout_invariant valid safe initial step history earlier)

end Script
