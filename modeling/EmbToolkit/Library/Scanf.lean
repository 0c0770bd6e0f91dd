import Mathlib.Algebra.Group.Int.Defs
import Mathlib.Algebra.Group.Nat.Defs
import Mathlib.Data.List.TakeWhile
import Mathlib.Tactic.Common

/-! `sscanf` of the C library for formats made of strings of limited width, characters and unsigned numbers, and
the whitespace-separated tokens of a text. A conversion takes a whole token only if nothing stops it before the
token's end, and the first conversion that fails ends the scan, so the results relate it to the tokens it meets. -/

namespace Scanf

/-- A byte string without its terminator, each byte as the character of its code. -/
abbrev Text := List Char

/-- `isspace` in the C locale. -/
def isSpace (c : Char) : Bool := c = ' ' || (9 ≤ c.toNat && c.toNat ≤ 13)

def skipSpace (text : Text) : Text := text.dropWhile isSpace

/-- The maximal stretches without whitespace. -/
def tokens : Text → List Text
  | [] => []
  | [c] => if isSpace c then [] else [[c]]
  | c :: d :: rest =>
    if isSpace c then tokens (d :: rest)
    else if isSpace d then [c] :: tokens (d :: rest)
    else match tokens (d :: rest) with
      | [] => [[c]]
      | token :: others => (c :: token) :: others

/-! ### Numbers -/

def isDigit (base : Nat) (c : Char) : Bool := 48 ≤ c.toNat && c.toNat < 48 + base

def ofDigits (base : Nat) (digits : Text) : Nat := digits.foldl (fun value c => value * base + (c.toNat - 48)) 0

def splitSign : Text → Bool × Text
  | '-' :: rest => (true, rest)
  | '+' :: rest => (false, rest)
  | rest => (false, rest)

/-- An `unsigned long` of 64 bits: saturated when the digits overflow it, else negated modulo its range. -/
def unsignedLong (negative : Bool) (magnitude : Nat) : Nat :=
  if 2 ^ 64 ≤ magnitude then 2 ^ 64 - 1 else if negative then (2 ^ 64 - magnitude) % 2 ^ 64 else magnitude

/-- The value and the unread rest, or nothing when the text does not start with a number. -/
def strtoul (base : Nat) (text : Text) : Option (Nat × Text) :=
  let (negative, body) := splitSign (skipSpace text)
  let digits := body.takeWhile (isDigit base)
  if digits = [] then none else some (unsignedLong negative (ofDigits base digits), body.drop digits.length)

/-- The integer that a token spells, if it is a number from its first to its last character. -/
def number (base : Nat) (token : Text) : Option Int :=
  let (negative, digits) := splitSign token
  if digits = [] || !digits.all (isDigit base) then none
  else some (if negative then -(ofDigits base digits : Int) else ofDigits base digits)

/-! ### Conversions -/

/-- A conversion of the format with the assignment it makes. -/
inductive Conversion (σ : Type*) where
  /-- `%<width>s` -/
  | string (width : Nat) (store : Text → σ → σ)
  /-- ` %c`, the blank of the format included -/
  | char (store : Char → σ → σ)
  /-- `%u` or `%o` -/
  | unsigned (base : Nat) (store : Nat → σ → σ)

variable {σ : Type*}

/-- The assigned variables and the unread text, or nothing when the conversion fails. -/
def Conversion.convert (text : Text) (s : σ) : Conversion σ → Option (σ × Text)
  | .string width store =>
    let body := skipSpace text
    let word := (body.takeWhile fun c => !isSpace c).take width
    if word = [] then none else some (store word s, body.drop word.length)
  | .char store =>
    match skipSpace text with
    | [] => none
    | c :: rest => some (store c s, rest)
  | .unsigned base store =>
    match strtoul base text with
    | none => none
    | some (value, rest) => some (store (value % 2 ^ 32) s, rest)

/-- The number of conversions made and the variables after them. At the end of the text before the first
conversion this is 0, where C returns `EOF`: both are less than any number of conversions asked for. -/
def sscanf : List (Conversion σ) → Text → σ → Nat × σ
  | [], _, s => (0, s)
  | conversion :: rest, text, s =>
    match conversion.convert text s with
    | none => (0, s)
    | some (s', text') => ((sscanf rest text' s').1 + 1, (sscanf rest text' s').2)

theorem sscanf_stops {conversion : Conversion σ} {rest : List (Conversion σ)} {text : Text} {s : σ}
    (fails : conversion.convert text s = none) : sscanf (conversion :: rest) text s = (0, s) := by
  simp only [sscanf, fails]

theorem sscanf_goes_on {conversion : Conversion σ} {rest : List (Conversion σ)} {text text' : Text} {s s' : σ}
    (converts : conversion.convert text s = some (s', text')) :
    sscanf (conversion :: rest) text s = ((sscanf rest text' s').1 + 1, (sscanf rest text' s').2) := by
  simp only [sscanf, converts]

/-- An assignment of the conversion keeps two variable states related. -/
def Conversion.Respects (related : σ → σ → Prop) : Conversion σ → Prop
  | .string _ store => ∀ token s t, related s t → related (store token s) (store token t)
  | .char store => ∀ c s t, related s t → related (store c s) (store c t)
  | .unsigned _ store => ∀ value s t, related s t → related (store value s) (store value t)

/-- Neither the number of conversions nor the related part of the variables depends on what else they held. -/
theorem sscanf_related (related : σ → σ → Prop) {format : List (Conversion σ)}
    (respected : ∀ conversion ∈ format, conversion.Respects related) (text : Text) {s t : σ} (initial : related s t) :
    (sscanf format text s).1 = (sscanf format text t).1 ∧ related (sscanf format text s).2 (sscanf format text t).2 := by
  induction format generalizing text s t with
  | nil => exact ⟨rfl, initial⟩
  | cons conversion rest ih =>
    have here := respected conversion List.mem_cons_self
    have later := fun {text s t} => @ih (fun other member => respected other (List.mem_cons_of_mem conversion member)) text s t
    have goes : (conversion.convert text s = none ∧ conversion.convert text t = none) ∨
        ∃ s' t' text', conversion.convert text s = some (s', text') ∧ conversion.convert text t = some (t', text') ∧ related s' t' := by
      cases conversion with
      | string width store =>
        simp only [Conversion.convert]
        split
        · exact Or.inl ⟨rfl, rfl⟩
        · exact Or.inr ⟨_, _, _, rfl, rfl, here _ s t initial⟩
      | char store =>
        simp only [Conversion.convert]
        split
        · exact Or.inl ⟨rfl, rfl⟩
        · exact Or.inr ⟨_, _, _, rfl, rfl, here _ s t initial⟩
      | unsigned base store =>
        simp only [Conversion.convert]
        split
        · exact Or.inl ⟨rfl, rfl⟩
        · exact Or.inr ⟨_, _, _, rfl, rfl, here _ s t initial⟩
    rcases goes with ⟨fails, failsToo⟩ | ⟨s', t', text', converts, convertsToo, both⟩
    · rw [sscanf_stops fails, sscanf_stops failsToo]
      exact ⟨rfl, initial⟩
    · rw [sscanf_goes_on converts, sscanf_goes_on convertsToo]
      exact ⟨congrArg (· + 1) (later both).1, (later both).2⟩

/-- An assignment of the conversion preserves a property of the variables. -/
def Conversion.Preserves (P : σ → Prop) : Conversion σ → Prop
  | .string width store => ∀ token s, token.length ≤ width → P s → P (store token s)
  | .char store => ∀ c s, P s → P (store c s)
  | .unsigned _ store => ∀ value s, P s → P (store value s)

private theorem convert_preserves {P : σ → Prop} {conversion : Conversion σ} (preserved : conversion.Preserves P) {text rest : Text} {s s' : σ}
    (converts : conversion.convert text s = some (s', rest)) (initial : P s) : P s' := by
  cases conversion with
  | string width store =>
    simp only [Conversion.convert, Option.ite_none_left_eq_some, Option.some.injEq, Prod.mk.injEq] at converts
    rw [← converts.2.1]
    exact preserved _ s (List.length_take_le _ _) initial
  | char store =>
    simp only [Conversion.convert] at converts
    split at converts
    · simp at converts
    · next c _ _ =>
      obtain rfl : store c s = s' := (Prod.mk.inj (Option.some.inj converts)).1
      exact preserved c s initial
  | unsigned base store =>
    simp only [Conversion.convert] at converts
    split at converts
    · simp at converts
    · next value _ _ =>
      obtain rfl : store (value % 2 ^ 32) s = s' := (Prod.mk.inj (Option.some.inj converts)).1
      exact preserved _ s initial

theorem sscanf_preserves {P : σ → Prop} {format : List (Conversion σ)} (preserved : ∀ conversion ∈ format, conversion.Preserves P)
    (text : Text) {s : σ} (initial : P s) : P (sscanf format text s).2 := by
  induction format generalizing text s with
  | nil => exact initial
  | cons conversion rest ih =>
    have later := fun {text s} => @ih (fun other member => preserved other (List.mem_cons_of_mem conversion member)) text s
    cases converts : conversion.convert text s with
    | none => rwa [sscanf_stops converts]
    | some result =>
      rw [sscanf_goes_on converts]
      exact later (convert_preserves (preserved conversion List.mem_cons_self) converts initial)

/-! ### Runs of numbers -/

/-- Nothing, or a text at whose start a token ends. -/
def Ends (rest : Text) : Prop := ∀ c ∈ rest.head?, isSpace c = true

/-- The text is its first token, after any whitespace, and a rest. -/
structure Starts (text token rest : Text) : Prop where
  body : skipSpace text = token ++ rest
  plain : ∀ c ∈ token, isSpace c = false
  word : token ≠ []
  ends : Ends rest

private theorem tokens_space {c : Char} (space : isSpace c = true) (rest : Text) : tokens (c :: rest) = tokens rest := by
  cases rest <;> simp [tokens, space]

theorem tokens_skipSpace (text : Text) : tokens (skipSpace text) = tokens text := by
  induction text with
  | nil => rfl
  | cons c rest ih =>
    unfold skipSpace at ih ⊢
    by_cases space : isSpace c = true
    · rw [List.dropWhile_cons_of_pos space, ih, tokens_space space]
    · rw [List.dropWhile_cons_of_neg space]

private theorem tokens_word {token rest : Text} (plain : ∀ c ∈ token, isSpace c = false) (word : token ≠ []) (ends : Ends rest) :
    tokens (token ++ rest) = token :: tokens rest := by
  induction token with
  | nil => exact absurd rfl word
  | cons c more ih =>
    have here : isSpace c = false := plain c List.mem_cons_self
    have later : ∀ d ∈ more, isSpace d = false := fun d member => plain d (List.mem_cons_of_mem c member)
    cases more with
    | nil =>
      cases rest with
      | nil => simp [tokens, here]
      | cons d rest => simp [tokens, here, ends d rfl]
    | cons d more =>
      have next := ih later (List.cons_ne_nil d more)
      have follows : isSpace d = false := later d List.mem_cons_self
      simp only [List.cons_append] at next ⊢
      simp [tokens, here, follows, next]

theorem Starts.tokens {text token rest : Text} (starts : Starts text token rest) : Scanf.tokens text = token :: Scanf.tokens rest := by
  rw [← tokens_skipSpace, starts.body, tokens_word starts.plain starts.word starts.ends]

end Scanf
