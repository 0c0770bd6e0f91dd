import Mathlib.Tactic.Common

/-! Command lists of the POSIX shell as the recipes of a makefile use them. The commands are given by what they do to
a state and how they end, being killed included. A line is executed by a shell of its own, and so is a subshell: what
the parent keeps of a child's state is a parameter. -/

namespace Shell

inductive Status where
  | ok
  | failed
  /-- `exit` with a failure, on its way out of the shell -/
  | exited
  /-- killed -/
  | stopped
  deriving DecidableEq

inductive Script (ι : Type*) where
  | cmd (command : ι)
  /-- `first && second` -/
  | and (first second : Script ι)
  /-- `first || second` -/
  | or (first second : Script ι)
  /-- `first; second` -/
  | seq (first second : Script ι)
  /-- `( body )` -/
  | sub (body : Script ι)
  /-- `if test; then body; fi` -/
  | cond (test body : Script ι)
  /-- `exit 1` -/
  | exit

variable {ι σ : Type*} (perform : ι → σ → Status × σ) (leave : σ → σ → σ)

/-- How the script ends and the state then. `leave before after` is what is left for the parent of a subshell. -/
def exec : Script ι → σ → Status × σ
  | .cmd command, s => perform command s
  | .and first second, s =>
    match exec first s with
    | (.ok, s') => exec second s'
    | ended => ended
  | .or first second, s =>
    match exec first s with
    | (.failed, s') => exec second s'
    | ended => ended
  | .seq first second, s =>
    match exec first s with
    | (.ok, s') => exec second s'
    | (.failed, s') => exec second s'
    | ended => ended
  | .sub body, s =>
    match exec body s with
    | (.exited, s') => (.failed, leave s s')
    | (status, s') => (status, leave s s')
  | .cond test body, s =>
    match exec test s with
    | (.ok, s') => exec body s'
    | (.failed, s') => (.ok, s')
    | ended => ended
  | .exit, s => (.exited, s)

/-- A recipe: its lines until one of them does not succeed. -/
def recipe : List (Script ι) → σ → Status × σ
  | [], s => (.ok, s)
  | line :: rest, s =>
    match exec perform leave line s with
    | (.ok, s') => recipe rest (leave s s')
    | (status, s') => (status, leave s s')

attribute [local simp] exec recipe

/-- `a || b || c` -/
def firstOf (last : Script ι) : List (Script ι) → Script ι
  | [] => last
  | script :: rest => .or script (firstOf last rest)

section
variable {perform leave}
variable {first second : Script ι} {s s' : σ}

theorem and_goes_on (succeeds : exec perform leave first s = (.ok, s')) :
    exec perform leave (.and first second) s = exec perform leave second s' := by
  simp only [exec, succeeds]

theorem and_ends {status : Status} (ended : exec perform leave first s = (status, s')) (bad : status ≠ .ok) :
    exec perform leave (.and first second) s = (status, s') := by
  cases status <;> simp_all

theorem or_ends {status : Status} (ended : exec perform leave first s = (status, s')) (good : status ≠ .failed) :
    exec perform leave (.or first second) s = (status, s') := by
  cases status <;> simp_all

theorem or_goes_on (fails : exec perform leave first s = (.failed, s')) :
    exec perform leave (.or first second) s = exec perform leave second s' := by
  simp only [exec, fails]

variable {rest : List (Script ι)}

theorem recipe_goes_on (succeeds : exec perform leave first s = (.ok, s')) :
    recipe perform leave (first :: rest) s = recipe perform leave rest (leave s s') := by
  simp only [recipe, succeeds]

theorem recipe_ends {status : Status} (ended : exec perform leave first s = (status, s')) (bad : status ≠ .ok) :
    recipe perform leave (first :: rest) s = (status, leave s s') := by
  cases status <;> simp_all

theorem recipe_last {status : Status} (ended : exec perform leave first s = (status, s')) :
    recipe perform leave [first] s = (status, leave s s') := by
  cases status <;> simp_all

end

/-! ### Postconditions -/

/-- The script ends, in this status and state, as the postcondition says. -/
def Ends (script : Script ι) (post : Status → σ → Prop) (s : σ) : Prop :=
  post (exec perform leave script s).1 (exec perform leave script s).2

section
variable {perform leave}
variable {first second body test : Script ι} {post : Status → σ → Prop} {s : σ}

/-- Consequence rule. -/
theorem Ends.weaken {script : Script ι} {post' : Status → σ → Prop} (ends : Ends perform leave script post s)
    (weaker : ∀ status s', post status s' → post' status s') : Ends perform leave script post' s :=
  weaker _ _ ends

theorem Ends.both {script : Script ι} {post' : Status → σ → Prop} (ends : Ends perform leave script post s)
    (also : Ends perform leave script post' s) : Ends perform leave script (fun status s' => post status s' ∧ post' status s') s :=
  ⟨ends, also⟩

theorem ends_and : Ends perform leave (.and first second) post s ↔
    Ends perform leave first (fun status s' => if status = .ok then Ends perform leave second post s' else post status s') s := by
  unfold Ends
  rcases ended : exec perform leave first s with ⟨status, s'⟩
  cases status <;> simp [ended]

theorem ends_or : Ends perform leave (.or first second) post s ↔
    Ends perform leave first (fun status s' => if status = .failed then Ends perform leave second post s' else post status s') s := by
  unfold Ends
  rcases ended : exec perform leave first s with ⟨status, s'⟩
  cases status <;> simp [ended]

theorem ends_seq : Ends perform leave (.seq first second) post s ↔
    Ends perform leave first
      (fun status s' => if status = .ok ∨ status = .failed then Ends perform leave second post s' else post status s') s := by
  unfold Ends
  rcases ended : exec perform leave first s with ⟨status, s'⟩
  cases status <;> simp [ended]

theorem ends_sub : Ends perform leave (.sub body) post s ↔
    Ends perform leave body (fun status s' => post (if status = .exited then .failed else status) (leave s s')) s := by
  unfold Ends
  rcases ended : exec perform leave body s with ⟨status, s'⟩
  cases status <;> simp [ended]

theorem ends_cond : Ends perform leave (.cond test body) post s ↔
    Ends perform leave test (fun status s' => if status = .ok then Ends perform leave body post s'
      else post (if status = .failed then .ok else status) s') s := by
  unfold Ends
  rcases ended : exec perform leave test s with ⟨status, s'⟩
  cases status <;> simp [ended]

/-- As `Ends`, of a recipe. -/
def RecipeEnds (perform : ι → σ → Status × σ) (leave : σ → σ → σ) (lines : List (Script ι)) (post : Status → σ → Prop) (s : σ) : Prop :=
  post (recipe perform leave lines s).1 (recipe perform leave lines s).2

theorem recipeEnds_cons {rest : List (Script ι)} : RecipeEnds perform leave (first :: rest) post s ↔
    Ends perform leave first (fun status s' => if status = .ok then RecipeEnds perform leave rest post (leave s s')
      else post status (leave s s')) s := by
  unfold RecipeEnds Ends
  rcases ended : exec perform leave first s with ⟨status, s'⟩
  cases status <;> simp [ended]

end

/-! ### What every command preserves -/

/-- The commands of a script. -/
def Script.commands : Script ι → List ι
  | .cmd command => [command]
  | .and first second => first.commands ++ second.commands
  | .or first second => first.commands ++ second.commands
  | .seq first second => first.commands ++ second.commands
  | .sub body => body.commands
  | .cond test body => test.commands ++ body.commands
  | .exit => []

/-- Invariant rule: what all commands of a script preserve, and leaving a subshell does, the script preserves. -/
theorem exec_preserves (valid : σ → Prop) (left : ∀ s s', valid s → valid s' → valid (leave s s')) {script : Script ι}
    (preserved : ∀ command ∈ script.commands, ∀ s, valid s → valid (perform command s).2) {s : σ} (initial : valid s) :
    valid (exec perform leave script s).2 := by
  induction script generalizing s with
  | cmd command => exact preserved command (by simp [Script.commands]) s initial
  | and first second ihFirst ihSecond =>
    have half := ihFirst (fun command member => preserved command (List.mem_append_left _ member)) initial
    simp only [exec]
    split
    next s' ended =>
      rw [ended] at half
      exact ihSecond (fun command member => preserved command (List.mem_append_right _ member)) half
    next => exact half
  | or first second ihFirst ihSecond =>
    have half := ihFirst (fun command member => preserved command (List.mem_append_left _ member)) initial
    simp only [exec]
    split
    next s' ended =>
      rw [ended] at half
      exact ihSecond (fun command member => preserved command (List.mem_append_right _ member)) half
    next => exact half
  | seq first second ihFirst ihSecond =>
    have half := ihFirst (fun command member => preserved command (List.mem_append_left _ member)) initial
    simp only [exec]
    split
    next s' ended =>
      rw [ended] at half
      exact ihSecond (fun command member => preserved command (List.mem_append_right _ member)) half
    next s' ended =>
      rw [ended] at half
      exact ihSecond (fun command member => preserved command (List.mem_append_right _ member)) half
    next => exact half
  | sub body ih =>
    have inner := ih preserved initial
    simp only [exec]
    split
    all_goals
      next ended =>
        rw [ended] at inner
        exact left s _ initial inner
  | cond test body ihTest ihBody =>
    have half := ihTest (fun command member => preserved command (List.mem_append_left _ member)) initial
    simp only [exec]
    split
    next s' ended =>
      rw [ended] at half
      exact ihBody (fun command member => preserved command (List.mem_append_right _ member)) half
    next s' ended =>
      rw [ended] at half
      exact half
    next => exact half
  | exit => exact initial

theorem recipe_preserves (valid : σ → Prop) (left : ∀ s s', valid s → valid s' → valid (leave s s')) {lines : List (Script ι)}
    (preserved : ∀ line ∈ lines, ∀ command ∈ line.commands, ∀ s, valid s → valid (perform command s).2) {s : σ} (initial : valid s) :
    valid (recipe perform leave lines s).2 := by
  induction lines generalizing s with
  | nil => exact initial
  | cons line rest ih =>
    have here := exec_preserves perform leave valid left (preserved line List.mem_cons_self) initial
    simp only [recipe]
    split
    next s' ended =>
      rw [ended] at here
      exact ih (fun other member => preserved other (List.mem_cons_of_mem line member)) (left s s' initial here)
    next ended =>
      rw [ended] at here
      exact left s _ initial here

end Shell
