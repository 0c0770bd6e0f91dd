import EmbToolkit.Proofs.Images

/-! Images of several files. The layout that the header file of the source describes gives the files back, and the offsets
that are printed for scripts are never those of the files. -/

namespace EmbToolkit.Proofs.MultiImages
open Mkimage Scanf Images

/-- A size rounded up to whole words. -/
def wordsOf (size : Nat) : Nat := (size + 3) / 4 * 4

/-- The files that stand one behind the other, each but the last one filled up to whole words. -/
def unpackFiles : List Nat → List UInt8 → Option (List (List UInt8))
  | [], data => if data = [] then some [] else none
  | [size], data => if data.length = size then some [data] else none
  | size :: next :: rest, data =>
    if wordsOf size ≤ data.length then (unpackFiles (next :: rest) (data.drop (wordsOf size))).map (data.take size :: ·) else none

/-- The files in the data of an image: the list of sizes up to a zero, and immediately behind it the files. -/
def unpack (data : List UInt8) : Option (List (List UInt8)) :=
  (lenPtr data).bind fun sizes => unpackFiles (sizes.map UInt32.toNat) (data.drop (4 * (sizes.length + 1)))

/-- The files as `copy_file` lays them one behind the other. -/
def laid : List (List UInt8) → List UInt8
  | [] => []
  | [part] => part
  | part :: next :: rest => part ++ List.replicate (wordsOf part.length - part.length) 0 ++ laid (next :: rest)

theorem length_filled (part : List UInt8) :
    (part ++ List.replicate (wordsOf part.length - part.length) (0 : UInt8)).length = wordsOf part.length := by
  rw [List.length_append, List.length_replicate]
  unfold wordsOf
  omega

theorem lenPtr_zero (rest : List UInt8) : lenPtr (htonl 0 ++ rest) = some [] := by
  have zero : htonl 0 = [0, 0, 0, 0] := by decide
  rw [zero, List.cons_append, List.cons_append, List.cons_append, List.cons_append, lenPtr, if_pos (by decide)]

theorem lenPtr_word {size : UInt32} (some : size ≠ 0) (rest : List UInt8) : lenPtr (htonl size ++ rest) = (lenPtr rest).map (size :: ·) := by
  obtain ⟨a, b, c, d, word⟩ : ∃ a b c d, htonl size = [a, b, c, d] := ⟨_, _, _, _, rfl⟩
  have read : ntohl [a, b, c, d] = size := word ▸ ntohl_htonl size
  rw [word, List.cons_append, List.cons_append, List.cons_append, List.cons_append, lenPtr, read, if_neg some, List.nil_append]

theorem lenPtr_words {sizes : List UInt32} (some : ∀ size ∈ sizes, size ≠ 0) (rest : List UInt8) :
    lenPtr (sizes.flatMap htonl ++ htonl 0 ++ rest) = .some sizes := by
  induction sizes with
  | nil => exact lenPtr_zero rest
  | cons size others ih =>
    rw [List.flatMap_cons, List.append_assoc, List.append_assoc, lenPtr_word (some size List.mem_cons_self), ← List.append_assoc,
      ih fun size inside => some size (List.mem_cons_of_mem _ inside)]
    rfl

theorem length_words (sizes : List UInt32) : (sizes.flatMap htonl ++ htonl 0).length = 4 * (sizes.length + 1) := by
  induction sizes with
  | nil => rfl
  | cons size others ih =>
    rw [List.flatMap_cons, List.append_assoc, List.length_append, ih, length_htonl, List.length_cons]
    omega

/-- The part of a file that is left out in front. -/
def offset (xflag : Bool) : Nat := if xflag then headerSize else 0

variable {w : World}

/-- The names and what is in the files. -/
def Contents (w : World) (names : List Text) (parts : List (List UInt8)) : Prop := names.map w.file = parts.map some

/-- Files that can be copied. -/
structure Copied (xflag : Bool) (part : List UInt8) : Prop where
  filled : part ≠ []
  short : part.length < 2 ^ 31
  room : offset xflag ≤ part.length

theorem copied {xflag pad : Bool} {file : Text} {out : List UInt8} (small : ∀ file part, w.file file = some part → part.length < 2 ^ 31)
    (written : copyFile w xflag file pad = .ok out) : ∃ part, w.file file = some part ∧ Copied xflag part ∧
      out = part.drop (offset xflag) ++
        if pad then List.replicate (wordsOf (part.drop (offset xflag)).length - (part.drop (offset xflag)).length) 0 else [] := by
  unfold copyFile at written
  cases there : w.file file with
  | none => rw [there] at written; exact absurd written nofun
  | some part =>
    rw [there] at written
    dsimp only at written
    have short := small file part there
    split at written
    · exact absurd written nofun
    · next filled =>
      split at written
      · exact absurd written nofun
      · next long =>
        split at written
        · exact absurd written nofun
        · have room : offset xflag ≤ part.length := by
            unfold offset
            cases xflag with
            | false => exact Nat.zero_le _
            | true =>
              simp only [true_and, not_lt] at long
              exact long.trans (Nat.mod_le _ _)
          refine ⟨part, rfl, ⟨filled, short, room⟩, ?_⟩
          have size : toInt ((part.length : Int) - (if xflag then headerSize else 0 : Nat)) = ((part.drop (offset xflag)).length : Nat) := by
            rw [List.length_drop, toInt]
            unfold offset at room ⊢
            omega
          have whole : (part.drop (offset xflag)).take (part.drop (offset xflag)).length = part.drop (offset xflag) := List.take_length
          rw [size, if_neg (by omega), Int.toNat_natCast] at written
          obtain rfl := Except.ok.inj written
          rw [show (if xflag then headerSize else 0) = offset xflag from rfl, whole]
          generalize part.drop (offset xflag) = rest
          have fill : wordsOf rest.length - rest.length = if rest.length % 4 = 0 then 0 else 4 - rest.length % 4 := by
            unfold wordsOf
            split <;> omega
          rw [fill]
          cases pad with
          | false => simp
          | true =>
            by_cases even : rest.length % 4 = 0
            · simp [even, show ((rest.length : Int) % 4) = 0 by omega]
            · simp [even, show ((rest.length : Int) % 4) ≠ 0 by omega]

theorem copied_files {xflag : Bool} {names : List Text} {out : List UInt8} (small : ∀ file part, w.file file = some part → part.length < 2 ^ 31)
    (written : copyFiles w xflag names = .ok out) : ∃ parts, Contents w names parts ∧ (∀ part ∈ parts, Copied xflag part) ∧
      out = laid (parts.map (List.drop (offset xflag))) := by
  induction names generalizing out with
  | nil =>
    cases written
    exact ⟨[], rfl, by simp, rfl⟩
  | cons file rest ih =>
    cases rest with
    | nil =>
      obtain ⟨part, there, kept, rfl⟩ := copied small written
      exact ⟨[part], by simp [Contents, there], by simpa using kept, by simp [laid]⟩
    | cons next rest =>
      rw [copyFiles] at written
      cases first : copyFile w xflag file true with
      | error failure => rw [first] at written; exact absurd written nofun
      | ok front =>
        cases others : copyFiles w xflag (next :: rest) with
        | error failure => rw [first, others] at written; exact absurd written nofun
        | ok back =>
          rw [first, others] at written
          obtain rfl := Except.ok.inj written
          obtain ⟨part, there, kept, rfl⟩ := copied small first
          obtain ⟨parts, contents, all, rfl⟩ := ih others
          refine ⟨part :: parts, by simpa [Contents, there] using contents, by simpa using ⟨kept, all⟩, ?_⟩
          cases parts with
          | nil => simp [Contents] at contents
          | cons second parts => simp [laid]

theorem size_words {names : List Text} {parts : List (List UInt8)} (contents : Contents w names parts) :
    sizeWords w names = .ok ((parts.map fun part => UInt32.ofNat part.length).flatMap htonl ++ htonl 0) := by
  induction names generalizing parts with
  | nil =>
    obtain rfl : parts = [] := by simpa [Contents] using contents.symm
    rfl
  | cons file rest ih =>
    cases parts with
    | nil => simp [Contents] at contents
    | cons part parts =>
      simp only [Contents, List.map_cons, List.cons.injEq] at contents
      rw [sizeWords, contents.1, ih contents.2]
      simp [Except.map]

/-- The settings ask for an image of several files. -/
def Several (s : Settings) : Prop := s.optType = IH_TYPE_MULTI ∨ s.optType = IH_TYPE_SCRIPT

variable {s : Settings} {data : List UInt8}

/-- The list of sizes, and the files behind it. -/
theorem payload_several (several : Several s) (small : ∀ file part, w.file file = some part → part.length < 2 ^ 31)
    (filled : payload w s = .ok data) : ∃ parts, Contents w (s.datafile.splitOn ':') parts ∧ (∀ part ∈ parts, Copied s.xflag part) ∧
      data = (parts.map fun part => UInt32.ofNat part.length).flatMap htonl ++ htonl 0 ++ laid (parts.map (List.drop (offset s.xflag))) := by
  have chosen : s.optType = IH_TYPE_MULTI ∨ s.optType = IH_TYPE_SCRIPT := several
  rw [payload, if_pos chosen] at filled
  cases sizes : sizeWords w (s.datafile.splitOn ':') with
  | error failure => rw [sizes] at filled; exact absurd filled nofun
  | ok front =>
    cases files : copyFiles w s.xflag (s.datafile.splitOn ':') with
    | error failure => rw [sizes, files] at filled; exact absurd filled nofun
    | ok back =>
      rw [sizes, files] at filled
      obtain rfl := Except.ok.inj filled
      obtain ⟨parts, contents, all, rfl⟩ := copied_files small files
      refine ⟨parts, contents, all, ?_⟩
      rw [Except.ok.inj (sizes.symm.trans (size_words contents))]

theorem sizes_filled {xflag : Bool} {parts : List (List UInt8)} (all : ∀ part ∈ parts, Copied xflag part) :
    (∀ size ∈ parts.map fun part => UInt32.ofNat part.length, size ≠ 0) ∧
      (parts.map fun part => UInt32.ofNat part.length).map UInt32.toNat = parts.map List.length := by
  have number : ∀ part ∈ parts, (UInt32.ofNat part.length).toNat = part.length := fun part inside =>
    toNat_ofNat_of_lt ((all part inside).short.trans (by norm_num))
  constructor
  · intro size listed zero
    obtain ⟨part, inside, rfl⟩ := List.mem_map.mp listed
    have length := number part inside
    rw [zero] at length
    exact (all part inside).filled (List.eq_nil_of_length_eq_zero length.symm)
  · rw [List.map_map]
    exact List.map_congr_left number

/-! ### What is listed -/

theorem type_kept (known : Known s) (w : World) (data : List UInt8) : (buildHeader w s data).ihType.toNat = s.optType := by
  obtain ⟨e, listed, same⟩ := known.type
  have small : ∀ e ∈ typeName, e.val < 256 := by decide
  have byte : (buildHeader w s data).ihType = UInt8.ofNat s.optType := rfl
  rw [byte, UInt8.toNat_ofNat', Nat.mod_eq_of_lt (same ▸ small e listed)]

theorem listing_several {sizeofLong : Nat} {sizes : List UInt32} {rest : List UInt8} {listing : Listing} (known : Known s) (several : Several s)
    (some : ∀ size ∈ sizes, size ≠ 0) (same : data = sizes.flatMap htonl ++ htonl 0 ++ rest)
    (printed : printHeader sizeofLong (buildHeader w s data) data = .ok listing) :
    listing.contents = contents (s.optType = IH_TYPE_SCRIPT) 0 (.ofNat (headerSize + sizes.length * sizeofLong)) sizes := by
  have chosen : s.optType = IH_TYPE_MULTI ∨ s.optType = IH_TYPE_SCRIPT := several
  have read : lenPtr data = .some sizes := same ▸ lenPtr_words some rest
  unfold printHeader at printed
  rw [type_kept known, if_pos chosen, read] at printed
  rw [← Except.ok.inj printed]
  rfl

theorem example_small : ∀ file part, exampleWorld.file file = some part → part.length < 2 ^ 31 := by
  intro file part there
  unfold exampleWorld at there
  dsimp only at there
  split at there
  · cases there
    decide
  · split at there
    · cases there
      decide
    · exact absurd there nofun

theorem example_settings {path : Text} {listing : Listing} (written : Written exampleWorld exampleCall path s data listing) :
    s.optType = IH_TYPE_SCRIPT ∧ s.xflag = false ∧ s.datafile = ['a', ':', 'b'] := by
  have settled : ((options {} exampleCall).toOption.all fun read => read.1.complete.toOption.all fun s =>
      decide (s.optType = IH_TYPE_SCRIPT ∧ s.xflag = false ∧ s.datafile = ['a', ':', 'b'])) = true := by decide +kernel
  obtain ⟨given, read, completed⟩ := written.read
  simpa [read, completed, Except.toOption] using settled

theorem example_contents {parts : List (List UInt8)} (contents : Contents exampleWorld (List.splitOn ':' ['a', ':', 'b']) parts) :
    parts = [[1, 2, 3, 4, 5], [6, 7]] := by
  have files : (List.splitOn ':' ['a', ':', 'b']).map exampleWorld.file = [[1, 2, 3, 4, 5], [6, 7]].map some := by decide
  exact List.map_injective_iff.mpr (Option.some_injective _) (contents.symm.trans files)

/-- Where the `i`th file begins in the image. -/
def position (parts : List (List UInt8)) (i : Nat) : Nat :=
  headerSize + 4 * (parts.length + 1) + ((parts.take i).map fun part => wordsOf part.length).sum

theorem laid_position (parts : List (List UInt8)) {i : Nat} {part : List UInt8} (here : parts[i]? = some part) :
    ((laid parts).drop ((parts.take i).map fun part => wordsOf part.length).sum).take part.length = part := by
  induction parts generalizing i with
  | nil => simp at here
  | cons first rest ih =>
    cases i with
    | zero =>
      obtain rfl : first = part := by simpa using here
      cases rest with
      | nil => simp [laid]
      | cons next rest => simp [laid]
    | succ i =>
      cases rest with
      | nil => simp at here
      | cons next rest =>
        have behind : (laid (first :: next :: rest)).drop (wordsOf first.length) = laid (next :: rest) := by
          rw [laid, List.drop_left' (length_filled first)]
        rw [List.take_succ_cons, List.map_cons, List.sum_cons, ← List.drop_drop, behind]
        exact ih (by simpa using here)

private theorem and_high {n : Nat} (small : n < 2 ^ 32) : n &&& 4294967292 = n / 4 * 4 := by
  apply Nat.eq_of_testBit_eq
  intro i
  rw [Nat.testBit_and, show 4294967292 = 2 ^ 2 * (2 ^ 30 - 1) by norm_num, Nat.mul_comm (n / 4), show 4 = 2 ^ 2 by norm_num,
    Nat.testBit_two_pow_mul, Nat.testBit_two_pow_mul, Nat.testBit_two_pow_sub_one, Nat.testBit_div_two_pow]
  by_cases low : 2 ≤ i
  · by_cases high : i < 32
    · simp [low, show i - 2 < 30 by omega, show i - 2 + 2 = i by omega]
    · have above : n.testBit i = false := Nat.testBit_lt_two_pow (small.trans_le (Nat.pow_le_pow_right (by omega) (by omega)))
      simp [low, show i - 2 + 2 = i by omega, above]
  · simp [low]

theorem round_toNat {size : UInt32} (small : size.toNat < 2 ^ 31) : ((size + 3) &&& ~~~3).toNat = wordsOf size.toNat := by
  have sum : (size + 3).toNat = size.toNat + 3 := by
    rw [UInt32.toNat_add]
    exact Nat.mod_eq_of_lt (by simp; omega)
  have mask : (~~~(3 : UInt32)).toNat = 4294967292 := by decide
  rw [UInt32.toNat_and, sum, mask, and_high (by omega), wordsOf]

theorem contents_line (script : Bool) (i : Nat) (pos : UInt32) {sizes : List UInt32} (small : ∀ size ∈ sizes, size.toNat < 2 ^ 31) {j : Nat}
    {size : UInt32} (here : sizes[j]? = some size) : ∃ at', (contents script i pos sizes)[j]? = some ⟨size, if script && 0 < i + j then some at' else none⟩ ∧
      at' = pos + .ofNat ((sizes.take j).map fun size => wordsOf size.toNat).sum := by
  induction sizes generalizing i pos j with
  | nil => simp at here
  | cons first rest ih =>
    cases j with
    | zero =>
      obtain rfl : first = size := by simpa using here
      exact ⟨pos, by simp [contents], by simp⟩
    | succ j =>
      obtain ⟨at', line, same⟩ := ih (i + 1) (pos + ((first + 3) &&& ~~~3)) (fun size inside => small size (List.mem_cons_of_mem _ inside)) (by simpa using here)
      refine ⟨at', ?_, ?_⟩
      · rw [contents, List.getElem?_cons_succ, line, show i + 1 + j = i + (j + 1) by omega]
      · have word : (first + 3) &&& ~~~3 = UInt32.ofNat (wordsOf first.toNat) := by
          rw [← round_toNat (small first List.mem_cons_self), UInt32.ofNat_toNat]
        rw [same, word, List.take_succ_cons, List.map_cons, List.sum_cons, UInt32.ofNat_add, UInt32.add_assoc]

/-- A script's listing does not say where its files are. In front of the first file it counts a `long` for every file, where
the image has a word for every file and one more for the zero. -/
theorem offset_wrong {argv : List Text} {listing : Listing} {image : List UInt8} (called : main w argv = .ok (listing, some image))
    (small : ∀ file part, w.file file = some part → part.length < 2 ^ 31) (long : w.sizeofLong = 4 ∨ w.sizeofLong = 8) :
    ∃ path s data, Written w argv path s data listing ∧ (s.optType = IH_TYPE_SCRIPT → s.xflag = false →
      ∃ parts, Contents w (s.datafile.splitOn ':') parts ∧ (parts.length < 2 ^ 30 → ∀ i part, parts[i]? = some part →
        (image.drop (position parts i)).take part.length = part ∧
          (0 < i → ∃ printed, listing.contents[i]? = some ⟨.ofNat part.length, some printed⟩ ∧ printed ≠ .ofNat (position parts i)))) := by
  obtain ⟨path, s, data, written, rfl⟩ := written_of_main called
  refine ⟨path, s, data, written, fun script plain => ?_⟩
  obtain ⟨parts, contents, all, same⟩ := payload_several (.inr script) small written.filled
  obtain ⟨filled, numbers⟩ := sizes_filled all
  have whole : parts.map (List.drop (offset s.xflag)) = parts := by
    rw [offset, plain]
    exact List.map_id'' (fun _ => rfl) parts
  rw [whole] at same
  refine ⟨parts, contents, fun few i part here => ⟨?_, fun later => ?_⟩⟩
  · have front : ((buildHeader w s data).bytes ++ ((parts.map fun part => UInt32.ofNat part.length).flatMap htonl ++ htonl 0)).length =
        headerSize + 4 * (parts.length + 1) := by
      rw [List.length_append, length_bytes, length_words, List.length_map]
    rw [position, ← List.drop_drop]
    conv_lhs => rw [same]
    rw [← List.append_assoc, ← same, List.drop_left' front]
    exact laid_position parts here
  · have sizes : (parts.map fun part => UInt32.ofNat part.length)[i]? = some (UInt32.ofNat part.length) := by simp [here]
    have bounded : ∀ size ∈ parts.map fun part => UInt32.ofNat part.length, size.toNat < 2 ^ 31 := by
      intro size listed
      have inside : size.toNat ∈ parts.map List.length := numbers ▸ List.mem_map_of_mem listed
      obtain ⟨other, member, length⟩ := List.mem_map.mp inside
      rw [← length]
      exact (all other member).short
    obtain ⟨printed, line, begins⟩ := contents_line (s.optType = IH_TYPE_SCRIPT) 0
      (.ofNat (headerSize + (parts.map fun part => UInt32.ofNat part.length).length * w.sizeofLong)) bounded sizes
    refine ⟨printed, ?_, fun right => ?_⟩
    · rw [listing_several written.known (.inr script) filled same written.printed, line]
      simp [script, later]
    · have sums : ((parts.map fun part => UInt32.ofNat part.length).take i).map (fun size => wordsOf size.toNat) =
          (parts.take i).map fun part => wordsOf part.length := by
        rw [← List.map_take, List.map_map]
        refine List.map_congr_left fun part inside => ?_
        rw [Function.comp_apply, toNat_ofNat_of_lt ((all part (List.mem_of_mem_take inside)).short.trans (by norm_num))]
      have files : 2 ≤ parts.length := by
        have inside : i < parts.length := (List.getElem?_eq_some_iff.mp here).1
        omega
      have numbers := congrArg UInt32.toNat (begins.symm.trans right)
      rw [sums, ← UInt32.ofNat_add, UInt32.toNat_ofNat', UInt32.toNat_ofNat', List.length_map, position] at numbers
      generalize ((parts.take i).map fun part => wordsOf part.length).sum = before at numbers
      rcases long with four | eight
      · rw [four] at numbers
        omega
      · rw [eight] at numbers
        omega

theorem offset_wrong_example : ∃ listing image printed, main exampleWorld exampleCall = .ok (listing, some image) ∧
    listing.contents[1]? = some ⟨2, some printed⟩ ∧ printed ≠ 84 ∧ (image.drop 84).take 2 = [6, 7] := by
  obtain ⟨listing, image, called, -⟩ := example_called
  obtain ⟨path, s, data, written, listed⟩ := offset_wrong called example_small (.inr rfl)
  obtain ⟨script, plain, files⟩ := example_settings written
  obtain ⟨parts, contents, lines⟩ := listed script plain
  rw [files] at contents
  obtain rfl := example_contents contents
  obtain ⟨there, later⟩ := lines (by decide) 1 [6, 7] rfl
  obtain ⟨printed, line, wrong⟩ := later (by decide)
  exact ⟨listing, image, printed, called, line, wrong, there⟩

end EmbToolkit.Proofs.MultiImages
