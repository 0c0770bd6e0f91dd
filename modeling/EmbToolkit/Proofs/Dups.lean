import EmbToolkit.Proofs.Rewrites

/-! The loop of `expr_eliminate_dups`. Every change leaves a constant for `expr_eliminate_yn`, so a round that changes
anything makes the expression smaller, and the loop ends with a round that changes nothing. -/

namespace EmbToolkit.Conf.Expr

variable {σ : Type*} [DecidableEq σ] {symbols : Symbols σ}

/-! ### What goes with the constants -/

variable (symbols) in
theorem joinYn_cases (j : Junction) (l r : Expr σ) :
    joinYn symbols j l r = symbol (symbols.zero j) ∨ joinYn symbols j l r = l ∨ joinYn symbols j l r = r ∨
      joinYn symbols j l r = two j l r := by
  unfold joinYn
  split_ifs with zero unit zero' unit'
  · exact .inl rfl
  · exact .inr (.inr (.inl rfl))
  · exact .inl rfl
  · exact .inr (.inl rfl)
  · exact .inr (.inr (.inr rfl))

variable (symbols) in
theorem joinYn_size (j : Junction) (l r : Expr σ) : (joinYn symbols j l r).size ≤ l.size + r.size + 1 := by
  have left := size_pos l
  rcases joinYn_cases symbols j l r with done | done | done | done <;> rw [done]
  · simp only [size]
    omega
  · omega
  · omega
  · exact Nat.le_refl _

variable (symbols) in
theorem eliminateYn_size (e : Expr σ) : (eliminateYn symbols e).size ≤ e.size := by
  induction e with
  | symbol | not | comp => exact Nat.le_refl _
  | two j l r ihl ihr =>
    have joined := joinYn_size symbols j (eliminateYn symbols l) (eliminateYn symbols r)
    simp only [eliminateYn, size]
    omega

/-- A junction with a constant is replaced by less. -/
theorem joinYn_lt (j : Junction) {l r : Expr σ}
    (constant : (∃ k, l = symbol (symbols.unit k)) ∨ ∃ k, r = symbol (symbols.unit k)) :
    (joinYn symbols j l r).size < l.size + r.size + 1 := by
  have left := size_pos l
  have kinds (k : Junction) : symbols.unit k = symbols.zero j ∨ symbols.unit k = symbols.unit j := by
    cases k <;> cases j <;> first | exact .inl rfl | exact .inr rfl
  unfold joinYn
  split_ifs with zero unit zero' unit'
  · simp only [size]
    omega
  · omega
  · simp only [size]
    omega
  · omega
  · rcases constant with ⟨k, rfl⟩ | ⟨k, rfl⟩
    · rcases kinds k with same | same
      · exact absurd (congrArg symbol same) zero
      · exact absurd (congrArg symbol same) unit
    · rcases kinds k with same | same
      · exact absurd (congrArg symbol same) zero'
      · exact absurd (congrArg symbol same) unit'

theorem eliminateYn_lt {e : Expr σ} (loose : Loose symbols e) : (eliminateYn symbols e).size < e.size := by
  induction e with
  | symbol | not | comp => exact loose.elim
  | two j l r ihl ihr =>
    have joined := joinYn_size symbols j (eliminateYn symbols l) (eliminateYn symbols r)
    have left := eliminateYn_size symbols l
    have right := eliminateYn_size symbols r
    have constant (found : (∃ k, l = symbol (symbols.unit k)) ∨ ∃ k, r = symbol (symbols.unit k)) :
        (joinYn symbols j (eliminateYn symbols l) (eliminateYn symbols r)).size < l.size + r.size + 1 := by
      refine (joinYn_lt j ?_).trans_le (by omega)
      rcases found with ⟨k, rfl⟩ | ⟨k, rfl⟩
      · exact .inl ⟨k, rfl⟩
      · exact .inr ⟨k, rfl⟩
    simp only [eliminateYn, size]
    rcases loose with found | found | inside | inside
    · exact constant (.inl found)
    · exact constant (.inr found)
    · have smaller := ihl inside
      omega
    · have smaller := ihr inside
      omega

theorem eliminateYn_holds {holds : Expr σ → Prop} (hereditary : Hereditary holds)
    (constant : ∀ j, holds (symbol (symbols.unit j))) {e : Expr σ} (before : holds e) : holds (eliminateYn symbols e) := by
  induction e with
  | symbol | not | comp => exact before
  | two j l r ihl ihr =>
    have left := ihl ((hereditary ..).mp before).1
    have right := ihr ((hereditary ..).mp before).2
    rw [eliminateYn]
    rcases joinYn_cases symbols j (eliminateYn symbols l) (eliminateYn symbols r) with done | done | done | done <;>
      rw [done]
    · exact constant j.dual
    · exact left
    · exact right
    · exact (hereditary ..).mpr ⟨left, right⟩

/-! ### One round -/

theorem Changes.size_le {d d' : Counted σ} (changes : Changes symbols d d') : d'.expr.size ≤ d.expr.size := by
  induction changes with
  | refl => exact Nat.le_refl _
  | tail _ change ih => exact change.2.size_le.trans ih

theorem Changes.count_le {d d' : Counted σ} (changes : Changes symbols d d') : d.count ≤ d'.count := by
  induction changes with
  | refl => exact Nat.le_refl _
  | tail _ change ih => exact ih.trans (change.1 ▸ Nat.le_succ _)

theorem Changes.holds {holds : Expr σ → Prop} {d d' : Counted σ} (changes : Changes symbols d d')
    (kept : ∀ e e', Rewrite symbols e e' → holds e → holds e') (before : holds d.expr) : holds d'.expr := by
  induction changes with
  | refl => exact before
  | tail _ change ih => exact kept _ _ change.2 ih

/-- Nothing was counted and nothing changed, or a constant was left. -/
theorem Changes.loose {d d' : Counted σ} (changes : Changes symbols d d') : d' = d ∨ d.count < d'.count ∧ Loose symbols d'.expr := by
  cases changes with
  | refl => exact .inl rfl
  | tail before change =>
    have counted := Changes.count_le before
    exact .inr ⟨by rw [change.1]; omega, change.2.loose⟩

theorem dupsRound_zero {e : Expr σ} (none : (dupsRound symbols e).count = 0) : dupsRound symbols e = ⟨0, e⟩ := by
  rcases (dupsRound_changes symbols e).loose with same | ⟨counted, -⟩
  · exact same
  · exact absurd none counted.ne'

theorem dupsRound_lt {e : Expr σ} (some : (dupsRound symbols e).count ≠ 0) :
    (eliminateYn symbols (dupsRound symbols e).expr).size < e.size := by
  have changes := dupsRound_changes symbols e
  rcases changes.loose with same | ⟨-, loose⟩
  · exact absurd (congrArg Counted.count same) some
  · exact (eliminateYn_lt loose).trans_le changes.size_le

/-! ### The loop -/

/-- Enough rounds end in one that changes nothing. -/
theorem dupsRounds_ended {rounds : Nat} {e : Expr σ} (enough : e.size ≤ rounds) :
    dupsRound symbols (dupsRounds symbols rounds e) = ⟨0, dupsRounds symbols rounds e⟩ := by
  induction rounds generalizing e with
  | zero => exact absurd (size_pos e) (by omega)
  | succ rounds ih =>
    rw [dupsRounds]
    split_ifs with none
    · have same := dupsRound_zero none
      rw [same]
      exact same
    · have smaller := dupsRound_lt none
      exact ih (by omega)

/-- Whatever a change and `expr_eliminate_yn` keep is kept by the loop. -/
theorem dupsRounds_holds {holds : Expr σ → Prop} (yn : ∀ e, holds e → holds (eliminateYn symbols e))
    (changes : ∀ e e', Rewrite symbols e e' → holds e → holds e') (rounds : Nat) {e : Expr σ} (before : holds e) :
    holds (dupsRounds symbols rounds e) := by
  induction rounds generalizing e with
  | zero => exact before
  | succ rounds ih =>
    have round : holds (dupsRound symbols e).expr := (dupsRound_changes symbols e).holds changes before
    rw [dupsRounds]
    split_ifs
    · exact round
    · exact ih (yn _ round)

theorem dupsRounds_enough {n m : Nat} {e : Expr σ} (first : e.size ≤ n) (second : e.size ≤ m) :
    dupsRounds symbols n e = dupsRounds symbols m e := by
  induction n generalizing m e with
  | zero => exact absurd (size_pos e) (by omega)
  | succ n ih =>
    obtain ⟨m, rfl⟩ : ∃ k, m = k + 1 := ⟨m - 1, by have := size_pos e; omega⟩
    rw [dupsRounds, dupsRounds]
    split_ifs with none
    · rfl
    · have smaller := dupsRound_lt none
      exact ih (by omega) (by omega)

/-! The bound on the depth of the two walks is never reached either: a leaf is smaller than the whole, and no change makes
anything larger. -/

namespace Counted
variable {work work' : Junction → Counted σ → Counted σ} {j : Junction} {e : Expr σ} {d : Counted σ} {p q : Slot}

omit [DecidableEq σ] in
theorem inside_congr (same : ∀ k, work k ⟨d.count, d.expr.get p⟩ = work' k ⟨d.count, d.expr.get p⟩) :
    d.inside work p = d.inside work' p := by
  unfold Counted.inside
  split
  · rw [same]
  · rfl

variable (symbols) in
theorem foldl_congr {step step' : Counted σ → Slot × Slot → Counted σ} {pairs : List (Slot × Slot)} {bound : Nat}
    (steps : ∀ pair ∈ pairs, ∀ d, Shaped j e d → Changes symbols d (step d pair) ∧ Shaped j e (step d pair))
    (same : ∀ pair ∈ pairs, ∀ d, Shaped j e d → d.expr.size ≤ bound → step d pair = step' d pair)
    (shaped : Shaped j e d) (small : d.expr.size ≤ bound) : pairs.foldl step d = pairs.foldl step' d := by
  induction pairs generalizing d with
  | nil => rfl
  | cons pair rest ih =>
    obtain ⟨change, next⟩ := steps pair List.mem_cons_self d shaped
    rw [List.foldl_cons, List.foldl_cons, ← same pair List.mem_cons_self d shaped small]
    exact ih (fun pair later => steps pair (List.mem_cons_of_mem _ later))
      (fun pair later => same pair (List.mem_cons_of_mem _ later)) next (change.size_le.trans small)

theorem dups₁_enough {n m : Nat} (first : d.expr.size ≤ n) (second : d.expr.size ≤ m) (j : Junction) :
    dups₁ symbols n j d = dups₁ symbols m j d := by
  induction n generalizing m d j with
  | zero => exact absurd (size_pos d.expr) (by omega)
  | succ n ih =>
    obtain ⟨m, rfl⟩ : ∃ k, m = k + 1 := ⟨m - 1, by have := size_pos d.expr; omega⟩
    have shaped : Shaped j d.expr d := ⟨rfl, rfl⟩
    refine foldl_congr symbols ?_ ?_ shaped (Nat.le_refl _)
    · intro pair member d shaped
      obtain ⟨left, right⟩ := List.mem_product.mp member
      exact dupsStep₁_changes (dups₁_changes n) shaped left right
    · intro pair member d' shaped small
      obtain ⟨left, right⟩ := List.mem_product.mp member
      unfold dupsStep₁
      split_ifs with apart
      · rfl
      · have leaf := leaf_of_mem (shaped.1 ▸ left)
        have below := leaf.size_get (leaf.ne_nil (leaf_of_mem (shaped.1 ▸ right)) apart)
        have inner (k : Junction) : dups₁ symbols n k ⟨d'.count, d'.expr.get pair.1⟩ =
            dups₁ symbols m k ⟨d'.count, d'.expr.get pair.1⟩ :=
          ih (by simp only; omega) (by simp only; omega) k
        rw [inside_congr inner]

theorem dups₂_enough {n m : Nat} (first : d.expr.size ≤ n) (second : d.expr.size ≤ m) (j : Junction) :
    dups₂ symbols n j d = dups₂ symbols m j d := by
  induction n generalizing m d j with
  | zero => exact absurd (size_pos d.expr) (by omega)
  | succ n ih =>
    obtain ⟨m, rfl⟩ : ∃ k, m = k + 1 := ⟨m - 1, by have := size_pos d.expr; omega⟩
    have shaped : Shaped j d.expr d := ⟨rfl, rfl⟩
    refine foldl_congr symbols ?_ ?_ shaped (Nat.le_refl _)
    · intro pair member d shaped
      obtain ⟨left, right⟩ := List.mem_product.mp member
      exact dupsStep₂_changes (dups₂_changes n) shaped left right
    · intro pair member d' shaped small
      obtain ⟨left, right⟩ := List.mem_product.mp member
      unfold dupsStep₂
      split_ifs with apart
      · rfl
      · have leaf := leaf_of_mem (shaped.1 ▸ left)
        have below := leaf.size_get (leaf.ne_nil_of_subtree (subtree_of_mem (shaped.2 ▸ right)) apart)
        have inner (k : Junction) : dups₂ symbols n k ⟨d'.count, d'.expr.get pair.1⟩ =
            dups₂ symbols m k ⟨d'.count, d'.expr.get pair.1⟩ :=
          ih (by simp only; omega) (by simp only; omega) k
        rw [inside_congr inner]

end Counted

/-! ### The result -/

theorem eliminateDups_typed {e : Expr σ} (typed : Typed symbols e) : Typed symbols (eliminateDups symbols e) :=
  dupsRounds_holds (fun _ before => eliminateYn_holds typed_hereditary unit_typed before)
    (fun _ _ change before => change.holds typed_hereditary unit_typed (fun join => (join_joined join).typed) before)
    _ typed

theorem eliminateDups_plain {values : Values symbols} {e : Expr σ} (plain : Plain values e) :
    Plain values (eliminateDups symbols e) ∧ calcValue values (eliminateDups symbols e) = calcValue values e := by
  have keeps : ∀ e', Plain values e' ∧ calcValue values e' = calcValue values e →
      Plain values (eliminateYn symbols e') ∧ calcValue values (eliminateYn symbols e') = calcValue values e := by
    intro e' before
    exact ⟨eliminateYn_holds plain_hereditary (unit_plain values) before.1, (eliminateYn_value values e').trans before.2⟩
  refine dupsRounds_holds keeps ?_ _ ⟨plain, rfl⟩
  intro e' e'' change before
  exact ⟨change.holds plain_hereditary (unit_plain values) (fun join => (join_joined join).plain) before.1,
    (change.value before.1).trans before.2⟩

theorem eliminateDups_size (e : Expr σ) : (eliminateDups symbols e).size ≤ e.size := by
  have yn : ∀ e', e'.size ≤ e.size → (eliminateYn symbols e').size ≤ e.size :=
    fun e' before => (eliminateYn_size symbols e').trans before
  exact dupsRounds_holds yn (fun _ _ change before => change.size_le.trans before) _ (Nat.le_refl _)

/-- The loop ends by its own test, with an expression that is no larger and on which another run changes nothing. Where no
symbol that stands alone is `m`, it has the same value. -/
theorem eliminateDups_result (symbols : Symbols σ) (e : Expr σ) :
    dupsRound symbols (eliminateDups symbols e) = ⟨0, eliminateDups symbols e⟩ ∧
      eliminateDups symbols (eliminateDups symbols e) = eliminateDups symbols e ∧
      (eliminateDups symbols e).size ≤ e.size ∧
      ∀ values : Values symbols, Plain values e → calcValue values (eliminateDups symbols e) = calcValue values e := by
  have ended : dupsRound symbols (eliminateDups symbols e) = ⟨0, eliminateDups symbols e⟩ := dupsRounds_ended (Nat.le_refl _)
  refine ⟨ended, ?_, eliminateDups_size e, fun values plain => (eliminateDups_plain plain).2⟩
  obtain ⟨size, same⟩ : ∃ size, (eliminateDups symbols e).size = size + 1 :=
    ⟨_, (Nat.succ_pred_eq_of_pos (size_pos _)).symm⟩
  rw [eliminateDups, same, dupsRounds, ended]
  rfl

theorem eliminateDups_result_example :
    let foo : Expr Named := symbol (.config "FOO")
    let bar : Expr Named := symbol (.config "BAR")
    let values := switches (· = "FOO")
    calcValue values (eliminateDups (named fun _ => .boolean) (two .and (two .or foo bar) (two .and bar foo))) = .no := by
  intro foo bar values
  have first : values.tri (.config "FOO") ≠ .mod := by decide
  have second : values.tri (.config "BAR") ≠ .mod := by decide
  exact (eliminateDups_result _ _).2.2.2 values ⟨⟨first, second⟩, second, first⟩

end EmbToolkit.Conf.Expr
