import Mathlib.Data.List.Sort
import Mathlib.Data.List.Dedup
import Mathlib.Data.String.Basic
import Mathlib.Tactic.Common

/-! The text functions of GNU make that a makefile computes with: blank-separated words, `sort`, `subst` and
prefix filters. Two results carry the users of this file: deleting each of two texts from the other leaves
nothing only when they are equal, and a sorted list of plain words can be recovered from its text. -/

namespace MakeText

def isBlank (c : Char) : Bool := c = ' ' || c = '\t' || c = '\n'

/-- The stretches between blanks, empty stretches included. -/
def pieces : List Char → List (List Char)
  | [] => [[]]
  | c :: s =>
    if isBlank c then [] :: pieces s
    else match pieces s with
      | [] => [[c]]
      | piece :: rest => (c :: piece) :: rest

def words (text : String) : List String := ((pieces text.toList).filter (· ≠ [])).map String.ofList

def unwords (ws : List String) : String := " ".intercalate ws

/-- `$(strip text)` -/
def strip (text : String) : String := unwords (words text)

/-- The ordering and duplicate removal of `$(sort list)`. -/
def sortWords (ws : List String) : List String := ws.dedup.insertionSort (· ≤ ·)

def hasPrefix (start text : String) : Bool := start.toList.isPrefixOf text.toList

/-- Replaces the occurrences of a nonempty `pattern` from left to right. The counter is the number of characters
of the current occurrence that are still to be passed over. -/
def replaceAll (pattern new : List Char) : Nat → List Char → List Char
  | _, [] => []
  | skip + 1, _ :: s => replaceAll pattern new skip s
  | 0, c :: s =>
    if pattern.isPrefixOf (c :: s) then new ++ replaceAll pattern new (pattern.length - 1) s
    else c :: replaceAll pattern new 0 s

/-- `$(subst pattern,new,text)`. Make takes the one occurrence of an empty pattern to be the end of the text. -/
def subst (pattern new text : String) : String :=
  if pattern.toList = [] then text ++ new
  else String.ofList (replaceAll pattern.toList new.toList 0 text.toList)

def upper (text : String) : String := String.ofList (text.toList.map Char.toUpper)

/-- `$(patsubst %suffix,%,word)` -/
def dropSuffix (suffix word : String) : String :=
  if suffix.toList.isSuffixOf word.toList then String.ofList (word.toList.take (word.toList.length - suffix.toList.length))
  else word

/-! ### Words -/

private theorem pieces_ne_nil (s : List Char) : pieces s ≠ [] := by
  cases s with
  | nil => simp [pieces]
  | cons c s =>
    unfold pieces
    split
    · simp
    · split <;> simp

private theorem pieces_append (s t : List Char) : pieces (s ++ ' ' :: t) = pieces s ++ pieces t := by
  induction s with
  | nil => rfl
  | cons c s ih =>
    by_cases blank : isBlank c = true
    · simp [pieces, blank, ih]
    · obtain ⟨piece, rest, shape⟩ := List.exists_cons_of_ne_nil (pieces_ne_nil s)
      simp [pieces, blank, ih, shape]

private theorem flatten_pieces (s : List Char) : (pieces s).flatten = s.filter fun c => !isBlank c := by
  induction s with
  | nil => rfl
  | cons c s ih =>
    by_cases blank : isBlank c = true
    · simp [pieces, blank, ih]
    · obtain ⟨piece, rest, shape⟩ := List.exists_cons_of_ne_nil (pieces_ne_nil s)
      simp only [shape, List.flatten_cons] at ih
      simp [pieces, blank, shape, ← ih]

private theorem pieces_plain {s : List Char} (plain : ∀ c ∈ s, isBlank c = false) : pieces s = [s] := by
  induction s with
  | nil => rfl
  | cons c s ih =>
    have here := plain c List.mem_cons_self
    simp [pieces, here, ih (fun d member => plain d (List.mem_cons_of_mem _ member))]

theorem words_append (a b : String) : words (a ++ " " ++ b) = words a ++ words b := by
  simp [words, pieces_append, List.append_assoc]

/-- The words of a joined list are the words of its members. -/
theorem words_unwords (ws : List String) : words (unwords ws) = ws.flatMap words := by
  induction ws with
  | nil => rfl
  | cons w rest ih =>
    cases rest with
    | nil => simp [unwords]
    | cons v rest =>
      have joined : unwords (w :: v :: rest) = w ++ " " ++ unwords (v :: rest) := String.intercalate_cons_cons
      rw [joined, words_append, ih]
      rfl

/-- A word: not empty, and without blanks. -/
def IsWord (w : String) : Prop := w ≠ "" ∧ ∀ c ∈ w.toList, isBlank c = false

/-- Read off the characters of a given text. -/
theorem visible_of_all {text : String} (all : (text.toList.all fun c => !isBlank c) = true) : ∀ c ∈ text.toList, isBlank c = false := by
  simpa using all

theorem IsWord.words {w : String} (word : IsWord w) : words w = [w] := by
  have nonempty : w.toList ≠ [] := fun empty => word.1 (String.toList_injective empty)
  simp [MakeText.words, pieces_plain word.2, nonempty]

theorem mem_of_mem_words {c : Char} {w text : String} (member : w ∈ words text) (inside : c ∈ w.toList) :
    c ∈ text.toList ∧ isBlank c = false := by
  simp only [words, List.mem_map, List.mem_filter, decide_eq_true_eq] at member
  obtain ⟨piece, ⟨member, -⟩, rfl⟩ := member
  have kept : c ∈ (pieces text.toList).flatten := List.mem_flatten.mpr ⟨piece, member, by simpa using inside⟩
  rw [flatten_pieces] at kept
  simpa using kept

theorem isWord_of_mem {w text : String} (member : w ∈ words text) : IsWord w := by
  refine ⟨?_, fun c inside => (mem_of_mem_words member inside).2⟩
  simp only [words, List.mem_map, List.mem_filter, decide_eq_true_eq] at member
  obtain ⟨piece, ⟨-, nonempty⟩, rfl⟩ := member
  exact fun empty => nonempty (by simpa using congrArg String.toList empty)

theorem words_of_words {ws : List String} (all : ∀ w ∈ ws, IsWord w) : ws.flatMap words = ws := by
  induction ws with
  | nil => rfl
  | cons w rest ih =>
    rw [List.flatMap_cons, (all w List.mem_cons_self).words, ih (fun v member => all v (List.mem_cons_of_mem _ member))]
    rfl

private theorem pieces_cons {c : Char} {text piece : List Char} {rest : List (List Char)} (shape : pieces text = piece :: rest) :
    pieces (c :: text) = if isBlank c then [] :: piece :: rest else (c :: piece) :: rest := by
  simp only [pieces, shape]

private theorem prefix_first_piece {pattern text piece : List Char} {rest : List (List Char)} (shape : pieces text = piece :: rest)
    (visible : ∀ c ∈ pattern, isBlank c = false) : pattern <+: text ↔ pattern <+: piece := by
  induction text generalizing pattern piece rest with
  | nil =>
    obtain ⟨rfl, -⟩ := List.cons.inj shape
    exact Iff.rfl
  | cons c text ih =>
    obtain ⟨first, others, onward⟩ := List.exists_cons_of_ne_nil (pieces_ne_nil text)
    rw [pieces_cons onward] at shape
    rcases pattern with _ | ⟨d, pattern⟩
    · simp
    · have head : isBlank d = false := visible d List.mem_cons_self
      split at shape
      · next blank =>
        obtain ⟨rfl, -⟩ := List.cons.inj shape
        have different : d ≠ c := by
          rintro rfl
          simp [head] at blank
        simp [List.cons_prefix_cons, different]
      · obtain ⟨rfl, -⟩ := List.cons.inj shape
        rw [List.cons_prefix_cons, List.cons_prefix_cons, ih onward fun e inside => visible e (List.mem_cons_of_mem d inside)]

private theorem infix_pieces {pattern text : List Char} (some_char : pattern ≠ []) (visible : ∀ c ∈ pattern, isBlank c = false) :
    pattern <:+: text ↔ ∃ piece ∈ pieces text, pattern <:+: piece := by
  induction text with
  | nil => simp [pieces]
  | cons c text ih =>
    obtain ⟨first, others, onward⟩ := List.exists_cons_of_ne_nil (pieces_ne_nil text)
    rw [List.infix_cons_iff, ih, onward, pieces_cons onward]
    split
    · next blank =>
      have stops : ¬ pattern <+: c :: text := by
        rintro ⟨rest, shape⟩
        obtain ⟨d, pattern, rfl⟩ := List.exists_cons_of_ne_nil some_char
        obtain ⟨rfl, -⟩ := List.cons.inj shape
        simp [visible d List.mem_cons_self] at blank
      simp [stops, some_char]
    · next visible_char =>
      have front : pattern <+: c :: text ↔ pattern <+: c :: first :=
        prefix_first_piece (by rw [pieces_cons onward, if_neg visible_char]) visible
      have grown : pattern <:+: c :: first ↔ pattern <+: c :: first ∨ pattern <:+: first := List.infix_cons_iff
      simp only [front, grown, List.mem_cons, exists_eq_or_imp, or_assoc]

/-- A word occurs in a text where it occurs in one of its words. -/
theorem infix_words {pattern text : String} (word : IsWord pattern) :
    pattern.toList <:+: text.toList ↔ ∃ w ∈ words text, pattern.toList <:+: w.toList := by
  have some_char : pattern.toList ≠ [] := fun empty => word.1 (String.toList_injective empty)
  rw [infix_pieces some_char word.2]
  constructor
  · rintro ⟨piece, inside, occurs⟩
    have nonempty : piece ≠ [] := by
      rintro rfl
      exact some_char (List.infix_nil.mp occurs)
    refine ⟨String.ofList piece, ?_, by simpa using occurs⟩
    exact List.mem_map_of_mem (List.mem_filter.mpr ⟨inside, by simpa using nonempty⟩)
  · rintro ⟨w, inside, occurs⟩
    obtain ⟨piece, member, rfl⟩ := List.mem_map.mp inside
    exact ⟨piece, (List.mem_filter.mp member).1, by simpa using occurs⟩

/-! ### Comparing texts by deletion -/

private theorem deleted_head {pattern text : List Char} (gone : replaceAll pattern [] 0 text = []) :
    text = [] ∨ pattern <+: text := by
  cases text with
  | nil => exact .inl rfl
  | cons c s =>
    right
    by_cases found : pattern.isPrefixOf (c :: s)
    · exact List.isPrefixOf_iff_prefix.mp found
    · simp [replaceAll, found] at gone

/-- A text that a deletion empties is empty or starts with what was deleted. -/
theorem prefix_of_subst_empty {pattern text : String} (gone : subst pattern "" text = "") :
    text.toList = [] ∨ pattern.toList <+: text.toList := by
  unfold subst at gone
  split at gone
  next empty =>
    left
    simpa using congrArg String.toList gone
  next => exact deleted_head (by simpa using congrArg String.toList gone)

private theorem replaceAll_skip (pattern text rest : List Char) :
    replaceAll pattern [] text.length (text ++ rest) = replaceAll pattern [] 0 rest := by
  induction text with
  | nil => rfl
  | cons c s ih => simpa [replaceAll] using ih

theorem subst_self (text : String) : subst text "" text = "" := by
  unfold subst
  split
  next empty => simpa using String.toList_injective empty
  next nonempty =>
    obtain ⟨c, s, shape⟩ := List.exists_cons_of_ne_nil nonempty
    have skipped := replaceAll_skip text.toList s []
    rw [List.append_nil] at skipped
    have here : text.toList.isPrefixOf (c :: s) = true := by rw [shape]; exact List.isPrefixOf_iff_prefix.mpr List.prefix_rfl
    have emptied : replaceAll text.toList [] 0 text.toList = [] := by
      conv_lhs => rw [show replaceAll text.toList [] 0 text.toList = replaceAll text.toList [] 0 (c :: s) by rw [shape]]
      rw [replaceAll, if_pos here]
      simpa [shape, replaceAll] using skipped
    simp [emptied]

/-- Deleting each text from the other leaves nothing exactly when they are the same text: the shorter of two
different texts cannot contain the longer one, and an empty pattern deletes nothing. -/
theorem deletions_empty_iff {a b : String} : subst a "" b = "" ∧ subst b "" a = "" ↔ a = b := by
  constructor
  · rintro ⟨first, second⟩
    rcases prefix_of_subst_empty first, prefix_of_subst_empty second with ⟨empty | front, empty' | back⟩
    · exact String.toList_injective (empty'.trans empty.symm)
    · have none : b = "" := String.toList_injective (by simpa using empty)
      subst none
      simpa [subst] using second.symm
    · have none : a = "" := String.toList_injective (by simpa using empty')
      subst none
      simpa [subst] using first.symm
    · exact String.toList_injective (front.eq_of_length_le back.length_le)
  · rintro rfl
    exact ⟨subst_self a, subst_self a⟩

/-! ### Sorted lists of words -/

theorem mem_sortWords {w : String} {ws : List String} : w ∈ sortWords ws ↔ w ∈ ws := by
  simp [sortWords]

/-- A sorted list says which words there are, and nothing more. -/
theorem sortWords_eq_iff {vs ws : List String} : sortWords vs = sortWords ws ↔ ∀ word, word ∈ vs ↔ word ∈ ws := by
  constructor
  · intro same word
    rw [← mem_sortWords, same, mem_sortWords]
  · intro same
    have members : vs.dedup.Perm ws.dedup :=
      (List.perm_ext_iff_of_nodup vs.nodup_dedup ws.nodup_dedup).mpr fun word => by rw [List.mem_dedup, List.mem_dedup, same]
    have sorted (us : List String) : List.Pairwise (· ≤ ·) (sortWords us) := List.pairwise_insertionSort _ _
    refine List.Perm.eq_of_pairwise (fun a b _ _ => le_antisymm) (sorted vs) (sorted ws) ?_
    exact (List.perm_insertionSort _ _).trans (members.trans (List.perm_insertionSort _ _).symm)

end MakeText
