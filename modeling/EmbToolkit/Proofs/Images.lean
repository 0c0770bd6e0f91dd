import EmbToolkit.Mkimage.Image
import EmbToolkit.Proofs.Checksums

/-! Images from `mkimage`: what one call writes another one lists, and what is altered afterwards within a few octets is
refused. -/

namespace EmbToolkit.Proofs.Images
open Mkimage Scanf Checksums

/-! ### The header in octets -/

theorem length_htonl (x : UInt32) : (htonl x).length = 4 := Octets.length_encode _ _

theorem ntohl_htonl (x : UInt32) : ntohl (htonl x) = x := by
  apply UInt32.toNat_inj.mp
  have small : x.toNat % 256 ^ 4 = x.toNat := Nat.mod_eq_of_lt x.toNat_lt
  rw [ntohl, htonl, Octets.decode_encode, small, UInt32.toNat_ofNat', Nat.mod_eq_of_lt x.toNat_lt]

theorem htonl_ntohl {octets : List UInt8} (four : octets.length = 4) : htonl (ntohl octets) = octets := by
  have small : Octets.decode octets < 2 ^ 32 := by simpa [four] using Octets.decode_lt octets
  rw [ntohl, htonl, UInt32.toNat_ofNat', Nat.mod_eq_of_lt small, ← four, Octets.encode_decode]

theorem length_bytes (h : ImageHeader) : h.bytes.length = headerSize := by
  simp only [ImageHeader.bytes, List.length_append, length_htonl, h.named]
  rfl

/-- A header comes back from its octets, whatever stands behind them. -/
theorem ofBytes_bytes (h : ImageHeader) (rest : List UInt8) : ImageHeader.ofBytes (h.bytes ++ rest) = h := by
  have behind : ∀ (x : UInt32) (n : Nat), 4 ≤ n → (htonl x).drop n = [] :=
    fun x n long => List.drop_eq_nil_of_le (by rw [length_htonl]; exact long)
  ext1 <;> simp [ImageHeader.ofBytes, ImageHeader.bytes, List.drop_append, length_htonl, behind, ntohl_htonl, List.getElem?_append]
  exact List.takeD_left' h.named

theorem bytes_ofBytes {data : List UInt8} (room : headerSize ≤ data.length) : (ImageHeader.ofBytes data).bytes = data.take headerSize := by
  have long : 64 ≤ data.length := room
  have word : ∀ n, n + 4 ≤ 64 → htonl (ntohl ((data.drop n).take 4)) = (data.drop n).take 4 :=
    fun n inside => htonl_ntohl (by rw [List.length_take, List.length_drop]; omega)
  have four : [data.getD 28 0, data.getD 29 0, data.getD 30 0, data.getD 31 0] = (data.drop 28).take 4 := by
    apply List.ext_getElem (by simp; omega)
    intro i first _
    simp only [List.length_cons, List.length_nil] at first
    have cases : i = 0 ∨ i = 1 ∨ i = 2 ∨ i = 3 := by omega
    rcases cases with rfl | rfl | rfl | rfl <;> simp [show 28 < data.length by omega, show 29 < data.length by omega,
      show 30 < data.length by omega, show 31 < data.length by omega]
  have name : (data.drop 32).takeD IH_NMLEN 0 = (data.drop 32).take 32 := List.takeD_eq_take _ (by rw [List.length_drop]; exact Nat.le_sub_of_add_le long)
  have first := word 0 (by omega)
  rw [List.drop_zero] at first
  simp only [ImageHeader.bytes, ImageHeader.ofBytes, first, word _ (show 4 + 4 ≤ 64 by omega), word _ (show 8 + 4 ≤ 64 by omega),
    word _ (show 12 + 4 ≤ 64 by omega), word _ (show 16 + 4 ≤ 64 by omega), word _ (show 20 + 4 ≤ 64 by omega),
    word _ (show 24 + 4 ≤ 64 by omega), four, name, ← List.take_add]
  rfl

theorem bytes_hcrc (h : ImageHeader) (x : UInt32) : { h with ihHcrc := x }.bytes = h.bytes.take 4 ++ htonl x ++ h.bytes.drop 8 := by
  simp only [ImageHeader.bytes, List.append_assoc]
  rw [List.take_left' (length_htonl _), ← List.append_assoc (htonl h.ihMagic) (htonl h.ihHcrc),
    List.drop_left' (by rw [List.length_append, length_htonl, length_htonl])]

/-- The octets of a header whose own checksum is cleared. -/
theorem cleared_bytes {data : List UInt8} (room : headerSize ≤ data.length) :
    { ImageHeader.ofBytes data with ihHcrc := 0 }.bytes = data.take 4 ++ htonl 0 ++ (data.drop 8).take 56 := by
  rw [bytes_hcrc, bytes_ofBytes room, List.take_take, List.drop_take]
  rfl

/-! ### Writing and checking -/

theorem checksum_lt (data : List UInt8) : checksum data < 2 ^ 32 := crc32_lt _

theorem toNat_ofNat_of_lt {n : Nat} (small : n < 2 ^ 32) : (UInt32.ofNat n).toNat = n := by
  rw [UInt32.toNat_ofNat', Nat.mod_eq_of_lt small]

variable {w : World} {s : Settings} {data : List UInt8}

/-- All checks of `-l` but the one of the size let a header pass that `-d` has built for the data. -/
theorem check_built (sizeofLong : Nat) (w : World) (s : Settings) (data : List UInt8) :
    check sizeofLong ((buildHeader w s data).bytes ++ data) =
      if ((buildHeader w s data).bytes ++ data).length % 2 ^ 32 < headerSize then .error .badSize
      else printHeader sizeofLong (buildHeader w s data) data := by
  have behind : ((buildHeader w s data).bytes ++ data).drop headerSize = data := List.drop_left' (length_bytes _)
  have own : crc32 0 { buildHeader w s data with ihHcrc := 0 }.bytes = (buildHeader w s data).ihHcrc.toNat :=
    (toNat_ofNat_of_lt (crc32_lt _)).symm
  have whole : checksum data = (buildHeader w s data).ihDcrc.toNat := (toNat_ofNat_of_lt (checksum_lt data)).symm
  rw [check, ofBytes_bytes, behind]
  split
  · rfl
  · simp only [own, whole, ne_eq, not_true_eq_false, if_false]
    rfl

/-- What an image has to be like to be listed. -/
structure Accepted (image : List UInt8) : Prop where
  room : headerSize ≤ image.length
  magic : ntohl (image.take 4) = IH_MAGIC
  header : crc32 0 (image.take 4 ++ htonl 0 ++ (image.drop 8).take 56) = (ntohl ((image.drop 4).take 4)).toNat
  data : checksum (image.drop headerSize) = (ntohl ((image.drop 24).take 4)).toNat

theorem accepted_of_check {sizeofLong : Nat} {image : List UInt8} {listing : Listing} (listed : check sizeofLong image = .ok listing) :
    Accepted image := by
  unfold check at listed
  split at listed
  · exact absurd listed nofun
  · next long =>
    have room : headerSize ≤ image.length := (Nat.le_of_not_lt long).trans (Nat.mod_le _ _)
    dsimp only at listed
    split at listed
    · exact absurd listed nofun
    · next magic =>
      split at listed
      · exact absurd listed nofun
      · next header =>
        split at listed
        · exact absurd listed nofun
        · next whole =>
          rw [cleared_bytes room] at header
          exact ⟨room, not_not.mp magic, not_not.mp header, not_not.mp whole⟩

/-! ### Altered images -/

/-- The lists differ in four adjacent places at the most. -/
def Near (a b : List UInt8) : Prop :=
  ∃ front x y back, a = front ++ x ++ back ∧ b = front ++ y ++ back ∧ x.length = y.length ∧ x.length ≤ 4

variable {a b : List UInt8}

theorem Near.take (near : Near a b) (n : Nat) : Near (a.take n) (b.take n) := by
  obtain ⟨front, x, y, back, rfl, rfl, long, short⟩ := near
  refine ⟨front.take n, x.take (n - front.length), y.take (n - front.length), back.take (n - (front ++ x).length), ?_, ?_, ?_, ?_⟩
  · rw [List.take_append, List.take_append]
  · rw [List.take_append, List.take_append, List.length_append, List.length_append, long]
  · rw [List.length_take, List.length_take, long]
  · rw [List.length_take]
    omega

theorem Near.drop (near : Near a b) (n : Nat) : Near (a.drop n) (b.drop n) := by
  obtain ⟨front, x, y, back, rfl, rfl, long, short⟩ := near
  refine ⟨front.drop n, x.drop (n - front.length), y.drop (n - front.length), back.drop (n - (front ++ x).length), ?_, ?_, ?_, ?_⟩
  · rw [List.drop_append, List.drop_append]
  · rw [List.drop_append, List.drop_append, List.length_append, List.length_append, long]
  · rw [List.length_drop, List.length_drop, long]
  · rw [List.length_drop]
    omega

theorem Near.append_left (near : Near a b) (start : List UInt8) : Near (start ++ a) (start ++ b) := by
  obtain ⟨front, x, y, back, rfl, rfl, long, short⟩ := near
  exact ⟨start ++ front, x, y, back, by simp, by simp, long, short⟩

theorem Near.same (near : Near a b) (crc : crc32 0 a = crc32 0 b) : a = b := by
  obtain ⟨front, x, y, back, rfl, rfl, long, short⟩ := near
  rw [crc32_burst front back long short crc]

theorem Near.length (near : Near a b) : a.length = b.length := by
  obtain ⟨front, x, y, back, rfl, rfl, long, -⟩ := near
  simp [long]

theorem checksum_whole {image : List UInt8} (size : image.length < 2 ^ 32 + headerSize) :
    checksum (image.drop headerSize) = crc32 0 (image.drop headerSize) := by
  have small : (image.drop headerSize).length < 2 ^ 32 := by
    rw [List.length_drop]
    omega
  rw [checksum, Nat.mod_eq_of_lt small, List.take_length]

/-- An image in its parts. -/
theorem image_parts (image : List UInt8) :
    image = image.take 4 ++ (image.drop 4).take 4 ++ ((image.drop 8).take 56 ++ image.drop headerSize) := by
  have eight : image.take 4 ++ (image.drop 4).take 4 = image.take 8 := (List.take_add (i := 4) (j := 4)).symm
  have rest : (image.drop 8).take 56 ++ image.drop headerSize = image.drop 8 := by
    have later : image.drop headerSize = (image.drop 8).drop 56 := by rw [List.drop_drop]; rfl
    rw [later, List.take_append_drop]
  rw [eight, rest, List.take_append_drop]

/-- Behind the checksum of the header everything counts. -/
theorem same_behind (accepted : Accepted a) (accepted' : Accepted b) (near : Near a b) (size : a.length < 2 ^ 32 + headerSize)
    (front : a.take 8 = b.take 8) : a = b := by
  have magic : a.take 4 = b.take 4 := by simpa [List.take_take] using congrArg (List.take 4) front
  have own : (a.drop 4).take 4 = (b.drop 4).take 4 := by simpa [List.drop_take] using congrArg (List.drop 4) front
  have headers : (a.drop 8).take 56 = (b.drop 8).take 56 := by
    have crc := accepted.header.trans ((congrArg (fun l => (ntohl l).toNat) own).trans accepted'.header.symm)
    rw [magic] at crc
    exact List.append_cancel_left ((((near.drop 8).take 56).append_left _).same crc)
  have sums : (a.drop 24).take 4 = (b.drop 24).take 4 := by
    simpa [List.drop_take, List.take_take] using congrArg (fun l => (l.drop 16).take 4) headers
  have rest : a.drop headerSize = b.drop headerSize := by
    have crc := accepted.data.trans ((congrArg (fun l => (ntohl l).toNat) sums).trans accepted'.data.symm)
    rw [checksum_whole size, checksum_whole (near.length ▸ size)] at crc
    exact (near.drop headerSize).same crc
  rw [image_parts a, image_parts b, magic, own, headers, rest]

/-- The magic number is fixed, and the checksum in front of the rest follows from it. -/
theorem same_front (accepted : Accepted a) (accepted' : Accepted b) (rest : a.drop 8 = b.drop 8) : a = b := by
  have long : 64 ≤ a.length ∧ 64 ≤ b.length := ⟨accepted.room, accepted'.room⟩
  have first : ∀ image : List UInt8, Accepted image → image.take 4 = htonl IH_MAGIC := by
    intro image passed
    have room : 64 ≤ image.length := passed.room
    rw [← passed.magic, htonl_ntohl]
    rw [List.length_take]
    omega
  have crc := accepted.header
  rw [first a accepted, rest, ← first b accepted', accepted'.header] at crc
  have own : (a.drop 4).take 4 = (b.drop 4).take 4 := by
    have words := congrArg htonl (UInt32.toNat_inj.mp crc)
    rw [htonl_ntohl (by simp; omega), htonl_ntohl (by simp; omega)] at words
    exact words.symm
  have later : a.drop headerSize = b.drop headerSize := by simpa [headerSize] using congrArg (List.drop 56) rest
  rw [image_parts a, image_parts b, first a accepted, first b accepted', own, rest, later]

/-- An image that passes all checks passes them no longer once up to four adjacent octets are altered, unless they begin
in the checksum of the header and end behind it. -/
theorem alteration_refused {sizeofLong : Nat} {front x y back : List UInt8} {listing : Listing}
    (listed : check sizeofLong (front ++ x ++ back) = .ok listing) (size : (front ++ x ++ back).length < 2 ^ 32 + headerSize)
    (long : x.length = y.length) (short : x.length ≤ 4) (aside : 8 ≤ front.length ∨ front.length + x.length ≤ 8) (other : x ≠ y) :
    ∀ listing', check sizeofLong (front ++ y ++ back) ≠ .ok listing' := by
  intro listing' listed'
  have accepted := accepted_of_check listed
  have accepted' := accepted_of_check listed'
  have same : front ++ x ++ back = front ++ y ++ back := by
    rcases aside with behind | before
    · refine same_behind accepted accepted' ⟨front, x, y, back, rfl, rfl, long, short⟩ size ?_
      simp [List.take_append, show 8 - front.length = 0 by omega, ← long]
    · refine same_front accepted accepted' ?_
      rw [List.append_assoc, List.append_assoc, List.drop_append, List.drop_append, List.drop_append, List.drop_append]
      rw [List.drop_eq_nil_of_le (show x.length ≤ 8 - front.length by omega), List.drop_eq_nil_of_le (show y.length ≤ 8 - front.length by omega), long]
  exact other (List.append_cancel_left (List.append_cancel_right same))

theorem alteration_refused_example : ∃ front back : List UInt8, (front ++ [2] ++ back).length = 67 ∧
    (∃ listing, check 8 (front ++ [2] ++ back) = .ok listing) ∧ ∀ listing, check 8 (front ++ [5] ++ back) ≠ .ok listing := by
  let header := buildHeader ⟨fun _ => none, fun _ => false, 0, 8⟩ {} [1, 2, 3]
  have same : header.bytes ++ [1] ++ [2] ++ [3] = header.bytes ++ [1, 2, 3] := by simp
  have size : (header.bytes ++ [1] ++ [2] ++ [3]).length = 67 := by
    rw [same, List.length_append, length_bytes]
    rfl
  have listed : check 8 (header.bytes ++ [1] ++ [2] ++ [3]) = .ok (header.listing []) := by
    rw [same, check_built, ← same, size]
    rfl
  refine ⟨header.bytes ++ [1], [3], size, ⟨_, listed⟩, ?_⟩
  refine alteration_refused listed (by rw [size]; decide) rfl (by decide) (.inl ?_) (by decide)
  rw [List.length_append, length_bytes]
  decide

/-- The exception is there: a change of the creation time that only moves the lower octets of its checksum. -/
theorem straddling_unnoticed : ∃ front x y back : List UInt8, front.length = 5 ∧ x.length = 4 ∧ y.length = 4 ∧ x ≠ y ∧
    (check 8 (front ++ x ++ back)).isOk = true ∧ (check 8 (front ++ y ++ back)).isOk = true := by
  refine ⟨[0x27, 0x05, 0x19, 0x56, 0x33], [0xa9, 0x13, 0x15, 0x00], [0xfd, 0x43, 0xec, 0xe1], List.replicate 55 0, ?_⟩
  decide +kernel

/-! ### From the command line -/

/-- The numbers in the settings are those of entries of the tables. -/
structure Known (s : Settings) : Prop where
  arch : ∃ e ∈ archName, e.val = s.optArch
  os : ∃ e ∈ osName, e.val = s.optOs
  type : ∃ e ∈ typeName, e.val = s.optType
  comp : ∃ e ∈ compName, e.val = s.optComp

theorem known_default : Known {} where
  arch := ⟨_, List.mem_of_getElem? (i := 11) rfl, rfl⟩
  os := ⟨_, List.mem_of_getElem? (i := 7) rfl, rfl⟩
  type := ⟨_, List.mem_of_getElem? (i := 3) rfl, rfl⟩
  comp := ⟨_, List.mem_of_getElem? (i := 2) rfl, rfl⟩

theorem entry_of_get {table : List TableEntry} {name : Text} {n : Nat} (found : getTableEntry table name = some n) :
    ∃ e ∈ table, e.val = n := by
  obtain ⟨e, here, same⟩ := Option.map_eq_some_iff.mp found
  exact ⟨e, List.mem_of_find?_eq_some here, same⟩

theorem set_known {s s' : Settings} {value : Text} {option : Valued} (known : Known s) (set : option.set s value = .ok s') : Known s' := by
  have looked : ∀ {table : List TableEntry} {take : Nat → Settings},
      (getTableEntry table value).elim (.error .usage) (fun n => .ok (take n)) = (.ok s' : Except Failure Settings) →
        ∃ n, s' = take n ∧ ∃ e ∈ table, e.val = n := by
    intro table take found
    cases here : getTableEntry table value with
    | none => rw [here] at found; exact absurd found nofun
    | some n =>
      rw [here] at found
      exact ⟨n, (Except.ok.inj found).symm, entry_of_get here⟩
  cases option with
  | arch =>
    obtain ⟨n, rfl, entry⟩ := looked set
    exact { known with arch := entry }
  | comp =>
    obtain ⟨n, rfl, entry⟩ := looked set
    exact { known with comp := entry }
  | os =>
    obtain ⟨n, rfl, entry⟩ := looked set
    exact { known with os := entry }
  | type =>
    obtain ⟨n, rfl, entry⟩ := looked set
    exact { known with type := entry }
  | load =>
    simp only [Valued.set] at set
    split at set
    · cases set
      exact { known with }
    · exact absurd set nofun
  | data =>
    cases set
    exact { known with }
  | entry =>
    simp only [Valued.set] at set
    split at set
    · cases set
      exact { known with }
    · exact absurd set nofun
  | name =>
    cases set
    exact { known with }

theorem letters_known {s s' : Settings} {arg : Text} {option : Option Valued} (known : Known s) (read : letters s arg = .ok (s', option)) :
    Known s' := by
  fun_induction letters s arg with
  | case2 s rest ih => exact ih { known with } read
  | case3 s rest ih => exact ih known read
  | case4 s rest ih => exact ih { known with } read
  | case13 => exact absurd read nofun
  | _ =>
    cases read
    exact known

/-- What the options leave over is the end of the command line, and is no option. -/
theorem options_rest {s s' : Settings} {argv rest : List Text} (known : Known s) (read : options s argv = .ok (s', rest)) :
    Known s' ∧ rest <:+ argv ∧ ∀ arg ∈ rest.head?, arg.head? ≠ some '-' := by
  fun_induction options s argv with
  | case1 => exact absurd read nofun
  | case2 s arg others s₁ here ih =>
    obtain ⟨after, inside, plain⟩ := ih (letters_known known here) read
    exact ⟨after, inside.trans (List.suffix_cons _ _), plain⟩
  | case3 => exact absurd read nofun
  | case4 => exact absurd read nofun
  | case5 s arg s₁ option here value others s₂ set ih =>
    obtain ⟨after, inside, plain⟩ := ih (set_known (letters_known known here) set) read
    exact ⟨after, (inside.trans (List.suffix_cons _ _)).trans (List.suffix_cons _ _), plain⟩
  | case6 s others none =>
    cases read
    refine ⟨known, List.suffix_rfl, fun arg first dash => ?_⟩
    cases arg with
    | nil => exact absurd dash nofun
    | cons c arg =>
      obtain rfl : c = '-' := by simpa using dash
      obtain ⟨others, rfl⟩ := List.head?_eq_some_iff.mp first
      exact none arg others rfl

/-- The tables give a number back as the name of its only entry. -/
theorem put_entry {table : List TableEntry} (apart : (table.map TableEntry.val).Nodup) {e : TableEntry} (listed : e ∈ table) (msg : String) :
    putTableEntry table msg e.val = e.lname := by
  induction table with
  | nil => exact absurd listed List.not_mem_nil
  | cons first rest ih =>
    simp only [List.map_cons, List.nodup_cons] at apart
    rcases List.mem_cons.mp listed with rfl | later
    · simp [putTableEntry]
    · have other : first.val ≠ e.val := fun same => apart.1 (same ▸ List.mem_map_of_mem later)
      rw [putTableEntry, List.find?_cons_of_neg (by simpa using other)]
      exact ih apart.2 later

theorem takeWhile_takeD (n : Nat) (text : List UInt8) :
    (text.takeD n 0).takeWhile (· ≠ 0) = (text.take n).takeWhile (· ≠ 0) := by
  induction n generalizing text with
  | zero => rfl
  | succ n ih =>
    cases text with
    | nil => simp
    | cons b rest =>
      rw [List.takeD_succ, List.head?_cons, Option.getD_some, List.take_succ_cons, List.takeWhile_cons, List.takeWhile_cons, List.tail_cons, ih]

/-- A listing that shows what was asked for. -/
structure Shows (w : World) (s : Settings) (data : List UInt8) (listing : Listing) : Prop where
  name : listing.name = ((s.name.map fun c => UInt8.ofNat c.toNat).take IH_NMLEN).takeWhile (· ≠ 0)
  created : listing.created = .ofNat w.mtime
  arch : ∃ e ∈ archName, e.val = s.optArch ∧ listing.arch = e.lname
  os : ∃ e ∈ osName, e.val = s.optOs ∧ listing.os = e.lname
  type : ∃ e ∈ typeName, e.val = s.optType ∧ listing.type = e.lname
  comp : ∃ e ∈ compName, e.val = s.optComp ∧ listing.comp = e.lname
  size : listing.size = .ofNat data.length
  load : listing.load = s.addr
  entry : listing.entry = s.ep

theorem put_shows {table : List TableEntry} (apart : (table.map TableEntry.val).Nodup) (small : ∀ e ∈ table, e.val < 256) {n : Nat}
    (known : ∃ e ∈ table, e.val = n) (msg : String) : ∃ e ∈ table, e.val = n ∧ putTableEntry table msg (UInt8.ofNat n).toNat = e.lname := by
  obtain ⟨e, listed, rfl⟩ := known
  refine ⟨e, listed, rfl, ?_⟩
  rw [UInt8.toNat_ofNat', Nat.mod_eq_of_lt (small e listed), put_entry apart listed]

theorem shows_built {sizeofLong : Nat} {listing : Listing} (known : Known s)
    (printed : printHeader sizeofLong (buildHeader w s data) data = .ok listing) : Shows w s data listing := by
  have lines : ∃ lines, listing = (buildHeader w s data).listing lines := by
    unfold printHeader at printed
    split at printed
    · split at printed
      · exact absurd printed nofun
      · exact ⟨_, (Except.ok.inj printed).symm⟩
    · exact ⟨_, (Except.ok.inj printed).symm⟩
  obtain ⟨lines, rfl⟩ := lines
  exact {
    name := takeWhile_takeD _ _
    created := rfl
    arch := put_shows (by decide) (by decide) known.arch _
    os := put_shows (by decide) (by decide) known.os _
    type := put_shows (by decide) (by decide) known.type _
    comp := put_shows (by decide) (by decide) known.comp _
    size := rfl
    load := rfl
    entry := rfl }

theorem complete_known {s s' : Settings} (known : Known s) (completed : s.complete = .ok s') : Known s' := by
  unfold Settings.complete at completed
  split at completed
  · exact absurd completed nofun
  · cases completed
    unfold Settings.withEntry
    split
    · exact known
    · exact { known with }

/-- A call that has written an image. -/
structure Written (w : World) (argv : List Text) (path : Text) (s : Settings) (data : List UInt8) (listing : Listing) : Prop where
  last : ∃ front, argv = front ++ [path]
  plain : path.head? ≠ some '-'
  read : ∃ given, options {} argv = .ok (given, [path]) ∧ given.complete = .ok s
  known : Known s
  filled : payload w s = .ok data
  printed : printHeader w.sizeofLong (buildHeader w s data) data = .ok listing

theorem create_cases {image : List UInt8} {listing : Listing} (created : create w s = .ok (image, listing)) :
    ∃ data, payload w s = .ok data ∧ printHeader w.sizeofLong (buildHeader w s data) data = .ok listing ∧
      image = (buildHeader w s data).bytes ++ data := by
  unfold create at created
  cases filled : payload w s with
  | error failure => rw [filled] at created; exact absurd created nofun
  | ok data =>
    rw [filled] at created
    cases printed : printHeader w.sizeofLong (buildHeader w s data) data with
    | error failure => simp [bind, Except.bind, printed] at created
    | ok shown =>
      simp only [bind, Except.bind, printed, pure, Except.pure, Except.ok.injEq, Prod.mk.injEq] at created
      obtain ⟨rfl, rfl⟩ := created
      exact ⟨data, rfl, printed, rfl⟩

theorem written_of_main {argv : List Text} {listing : Listing} {image : List UInt8} (called : main w argv = .ok (listing, some image)) :
    ∃ path s data, Written w argv path s data listing ∧ image = (buildHeader w s data).bytes ++ data := by
  unfold main at called
  split at called
  · exact absurd called nofun
  · next given path read =>
    obtain ⟨known, ⟨front, split⟩, plain⟩ := options_rest known_default read
    split at called
    · exact absurd called nofun
    · cases completed : given.complete with
      | error failure => rw [completed] at called; exact absurd called nofun
      | ok s =>
        rw [completed] at called
        change act w s path = _ at called
        unfold act at called
        split at called
        · split at called
          · exact absurd called nofun
          · next old _ =>
            cases listed : check w.sizeofLong old with
            | error failure => rw [listed] at called; exact absurd called nofun
            | ok shown => rw [listed] at called; simp [Except.map] at called
        · split at called
          · cases created : create w s with
            | error failure => rw [created] at called; exact absurd called nofun
            | ok made =>
              rw [created] at called
              obtain ⟨rfl, rfl⟩ : made.2 = listing ∧ made.1 = image := by simpa [Except.map] using called
              obtain ⟨data, filled, printed, same⟩ := create_cases created
              exact ⟨path, s, data, ⟨⟨front, split.symm⟩, plain path rfl, ⟨given, read, completed⟩, complete_known known completed, filled, printed⟩, same⟩
          · exact absurd called nofun
  · exact absurd called nofun

theorem main_list {w : World} {path : Text} {image : List UInt8} (plain : path.head? ≠ some '-') (there : w.file path = some image) :
    main w [['-', 'l'], path] = (check w.sizeofLong image).map fun listing => (listing, none) := by
  have read : options {} [['-', 'l'], path] = .ok ({ lflag := true }, [path]) := by
    cases path with
    | nil => rfl
    | cons c rest =>
      have other : c ≠ '-' := by simpa using plain
      simp [options, letters, other]
  have act : act w { lflag := true } path = (check w.sizeofLong image).map fun listing => (listing, none) := by simp [act, there]
  rw [main, read]
  exact act

/-- Whatever options an image is written with, the call prints what they ask for, and `-l` finds the image sound and
prints the same again. Only an image whose size is next to nothing modulo 2^32 is taken for a broken one. -/
theorem written_listed {argv : List Text} {listing : Listing} {image : List UInt8} (called : main w argv = .ok (listing, some image)) :
    ∃ path s data, Written w argv path s data listing ∧ Shows w s data listing ∧
      ∀ w' : World, w'.file path = some image → w'.sizeofLong = w.sizeofLong →
        main w' [['-', 'l'], path] = if image.length % 2 ^ 32 < headerSize then .error .badSize else .ok (listing, none) := by
  obtain ⟨path, s, data, written, rfl⟩ := written_of_main called
  refine ⟨path, s, data, written, shows_built written.known written.printed, fun w' there long => ?_⟩
  rw [main_list written.plain there, check_built, long, written.printed]
  split <;> rfl

def exampleWorld : World where
  file name := if name = ['a'] then some [1, 2, 3, 4, 5] else if name = ['b'] then some [6, 7] else none
  writable _ := true
  mtime := 0
  sizeofLong := 8

def exampleCall : List Text := ["-A".toList, "arm".toList, "-T".toList, "script".toList, "-d".toList, "a:b".toList, "image".toList]

theorem example_called : ∃ listing image, main exampleWorld exampleCall = .ok (listing, some image) ∧ image.length = 86 := by
  have made : ((main exampleWorld exampleCall).toOption.any fun made => made.2.any fun image => image.length = 86) = true := by
    decide +kernel
  cases called : main exampleWorld exampleCall with
  | error failure => rw [called] at made; exact absurd made nofun
  | ok shown =>
    rw [called, Except.toOption, Option.any_some] at made
    cases here : shown.2 with
    | none => simp [here] at made
    | some image => exact ⟨shown.1, image, by rw [← here], by simpa [here] using made⟩

theorem written_listed_example : ∃ listing image path, main exampleWorld exampleCall = .ok (listing, some image) ∧
    ∀ w' : World, w'.file path = some image → w'.sizeofLong = 8 → main w' [['-', 'l'], path] = .ok (listing, none) := by
  obtain ⟨listing, image, called, size⟩ := example_called
  obtain ⟨path, -, -, -, -, again⟩ := written_listed called
  refine ⟨listing, image, path, called, fun w' there long => ?_⟩
  rw [again w' there long, size]
  rfl

end EmbToolkit.Proofs.Images
