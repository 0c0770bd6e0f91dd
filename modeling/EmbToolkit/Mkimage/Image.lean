import EmbToolkit.Library.Octets
import EmbToolkit.Library.Scanf
import EmbToolkit.Mkimage.Crc32

/-! `mkimage`: the options, the header of an image, and the two ways of the program, to write an image and to check one.
A call that fails leaves by the error it reports. -/

namespace EmbToolkit.Mkimage
open Scanf

/-- The errors, with the argument or the file that the message names. -/
inductive Failure
  | usage
  | loadAddress (text : Text)
  | entryPoint (text : Text)
  | xipEntry
  | cantOpen (file : Text)
  | cantStat (file : Text)
  | cantRead (file : Text)
  | badSize
  | badMagic
  | badHeaderChecksum
  | corruptedData
  | tooSmallForXip (file : Text)
  | badBuffer (file : Text)
  | writeError
  /-- The list of sizes has no end within the file, and the source reads on behind it. -/
  | pastEnd
  deriving DecidableEq

/-! ### Names of numbers -/

/-- `table_entry_t`. A table ends with its list. -/
structure TableEntry where
  val : Nat
  sname : Option String
  lname : String

def archName : List TableEntry :=
  [⟨0, none, "Invalid CPU"⟩, ⟨1, "alpha", "Alpha"⟩, ⟨2, "arm", "ARM"⟩, ⟨3, "x86", "Intel x86"⟩, ⟨4, "ia64", "IA64"⟩,
   ⟨12, "m68k", "MC68000"⟩, ⟨14, "microblaze", "MicroBlaze"⟩, ⟨5, "mips", "MIPS"⟩, ⟨6, "mips64", "MIPS 64 Bit"⟩,
   ⟨13, "nios", "NIOS"⟩, ⟨15, "nios2", "NIOS II"⟩, ⟨7, "ppc", "PowerPC"⟩, ⟨8, "s390", "IBM S390"⟩, ⟨9, "sh", "SuperH"⟩,
   ⟨10, "sparc", "SPARC"⟩, ⟨11, "sparc64", "SPARC 64 Bit"⟩, ⟨16, "blackfin", "Blackfin"⟩, ⟨17, "avr32", "AVR32"⟩]

def osName : List TableEntry :=
  [⟨0, none, "Invalid OS"⟩, ⟨4, "4_4bsd", "4_4BSD"⟩, ⟨19, "artos", "ARTOS"⟩, ⟨11, "dell", "Dell"⟩, ⟨7, "esix", "Esix"⟩,
   ⟨3, "freebsd", "FreeBSD"⟩, ⟨9, "irix", "Irix"⟩, ⟨5, "linux", "Linux"⟩, ⟨13, "lynxos", "LynxOS"⟩, ⟨12, "ncr", "NCR"⟩,
   ⟨2, "netbsd", "NetBSD"⟩, ⟨1, "openbsd", "OpenBSD"⟩, ⟨15, "psos", "pSOS"⟩, ⟨16, "qnx", "QNX"⟩, ⟨18, "rtems", "RTEMS"⟩,
   ⟨10, "sco", "SCO"⟩, ⟨8, "solaris", "Solaris"⟩, ⟨6, "svr4", "SVR4"⟩, ⟨17, "u-boot", "U-Boot"⟩, ⟨14, "vxworks", "VxWorks"⟩]

def typeName : List TableEntry :=
  [⟨0, none, "Invalid Image"⟩, ⟨7, "filesystem", "Filesystem Image"⟩, ⟨5, "firmware", "Firmware"⟩, ⟨2, "kernel", "Kernel Image"⟩,
   ⟨4, "multi", "Multi-File Image"⟩, ⟨3, "ramdisk", "RAMDisk Image"⟩, ⟨6, "script", "Script"⟩,
   ⟨1, "standalone", "Standalone Program"⟩, ⟨8, "flat_dt", "Flat Device Tree"⟩]

def compName : List TableEntry :=
  [⟨0, "none", "uncompressed"⟩, ⟨2, "bzip2", "bzip2 compressed"⟩, ⟨1, "gzip", "gzip compressed"⟩, ⟨3, "lzma", "lzma compressed"⟩]

def strcasecmp (a b : Text) : Bool := a.map Char.toLower = b.map Char.toLower

/-- Nothing stands for the -1 of the source, after which its callers call `usage`. -/
def getTableEntry (table : List TableEntry) (name : Text) : Option Nat :=
  (table.find? fun t => t.sname.any fun sname => strcasecmp sname.toList name).map TableEntry.val

def putTableEntry (table : List TableEntry) (msg : String) (type : Nat) : String :=
  ((table.find? fun t => t.val = type).map TableEntry.lname).getD msg

/-! ### The header -/

/-- `htonl`, with the number as the octets that it is written by. -/
def htonl (x : UInt32) : List UInt8 := Octets.encode 4 x.toNat

def ntohl (octets : List UInt8) : UInt32 := .ofNat (Octets.decode octets)

def IH_MAGIC : UInt32 := 0x27051956

def IH_NMLEN : Nat := 32

def IH_TYPE_MULTI : Nat := 4

def IH_TYPE_SCRIPT : Nat := 6

/-- `image_header_t`. -/
@[ext]
structure ImageHeader where
  ihMagic : UInt32
  ihHcrc : UInt32
  ihTime : UInt32
  ihSize : UInt32
  ihLoad : UInt32
  ihEp : UInt32
  ihDcrc : UInt32
  ihOs : UInt8
  ihArch : UInt8
  ihType : UInt8
  ihComp : UInt8
  ihName : List UInt8
  named : ihName.length = IH_NMLEN

/-- `sizeof (image_header_t)`. -/
def headerSize : Nat := 64

def ImageHeader.bytes (h : ImageHeader) : List UInt8 :=
  htonl h.ihMagic ++ htonl h.ihHcrc ++ htonl h.ihTime ++ htonl h.ihSize ++ htonl h.ihLoad ++ htonl h.ihEp ++ htonl h.ihDcrc ++
    [h.ihOs, h.ihArch, h.ihType, h.ihComp] ++ h.ihName

/-- The first octets of a file, taken as a header. -/
def ImageHeader.ofBytes (data : List UInt8) : ImageHeader where
  ihMagic := ntohl (data.take 4)
  ihHcrc := ntohl ((data.drop 4).take 4)
  ihTime := ntohl ((data.drop 8).take 4)
  ihSize := ntohl ((data.drop 12).take 4)
  ihLoad := ntohl ((data.drop 16).take 4)
  ihEp := ntohl ((data.drop 20).take 4)
  ihDcrc := ntohl ((data.drop 24).take 4)
  ihOs := data.getD 28 0
  ihArch := data.getD 29 0
  ihType := data.getD 30 0
  ihComp := data.getD 31 0
  ihName := (data.drop 32).takeD IH_NMLEN 0
  named := List.takeD_length _ _ _

/-- `crc32 (0, data, len)`, where the length is an `unsigned int`. -/
def checksum (data : List UInt8) : Nat := crc32 0 (data.take (data.length % 2 ^ 32))

/-! ### Listing -/

/-- A line of the contents: the size and, for a script behind another one, the offset. -/
structure Content where
  size : UInt32
  offset : Option UInt32
  deriving DecidableEq

/-- What `print_header` shows. -/
structure Listing where
  name : List UInt8
  created : UInt32
  arch : String
  os : String
  type : String
  comp : String
  size : UInt32
  load : UInt32
  entry : UInt32
  contents : List Content
  deriving DecidableEq

/-- The sizes in front of the first zero, if there is one. -/
def lenPtr : List UInt8 → Option (List UInt32)
  | a :: b :: c :: d :: rest => if ntohl [a, b, c, d] = 0 then some [] else (lenPtr rest).map (ntohl [a, b, c, d] :: ·)
  | _ => none

/-- The lines of the contents from the `i`th on, with the position that they begin at. -/
def contents (script : Bool) (i : Nat) (pos : UInt32) : List UInt32 → List Content
  | [] => []
  | size :: rest => ⟨size, if script && 0 < i then some pos else none⟩ :: contents script (i + 1) (pos + ((size + 3) &&& ~~~3)) rest

def ImageHeader.listing (h : ImageHeader) (lines : List Content) : Listing where
  name := h.ihName.takeWhile (· ≠ 0)
  created := h.ihTime
  arch := putTableEntry archName "Unknown Architecture" h.ihArch.toNat
  os := putTableEntry osName "Unknown OS" h.ihOs.toNat
  type := putTableEntry typeName "Unknown Image" h.ihType.toNat
  comp := putTableEntry compName "Unknown Compression" h.ihComp.toNat
  size := h.ihSize
  load := h.ihLoad
  entry := h.ihEp
  contents := lines

/-- `print_header`, for a header and the data that follow it in memory. -/
def printHeader (sizeofLong : Nat) (h : ImageHeader) (data : List UInt8) : Except Failure Listing :=
  if h.ihType.toNat = IH_TYPE_MULTI ∨ h.ihType.toNat = IH_TYPE_SCRIPT then
    match lenPtr data with
    | none => .error .pastEnd
    | some sizes => .ok (h.listing (contents (h.ihType.toNat = IH_TYPE_SCRIPT) 0 (.ofNat (headerSize + sizes.length * sizeofLong)) sizes))
  else .ok (h.listing [])

/-! ### Options -/

/-- The variables that the options set. -/
structure Settings where
  lflag : Bool := false
  dflag : Bool := false
  eflag : Bool := false
  xflag : Bool := false
  optOs : Nat := 5
  optArch : Nat := 7
  optType : Nat := 2
  optComp : Nat := 1
  addr : UInt32 := 0
  ep : UInt32 := 0
  datafile : Text := []
  name : Text := []

def isHex (c : Char) : Bool := isDigit 10 c || ('a' ≤ c && c ≤ 'f') || ('A' ≤ c && c ≤ 'F')

def hexDigit (c : Char) : Nat := if isDigit 10 c then c.toNat - 48 else if c ≤ 'F' then c.toNat - 55 else c.toNat - 87

/-- `strtoul` to the base 16: the value and the unread rest, which is the whole text where there is no number. -/
def strtoulHex (text : Text) : Nat × Text :=
  let (negative, body) := splitSign (skipSpace text)
  let digits := match body with
    | '0' :: x :: d :: rest => if (x = 'x' || x = 'X') && isHex d then d :: rest else body
    | _ => body
  if (digits.takeWhile isHex).isEmpty then (0, text)
  else (unsignedLong negative ((digits.takeWhile isHex).foldl (fun value c => value * 16 + hexDigit c) 0), digits.dropWhile isHex)

/-- The options that take the next argument. -/
inductive Valued | arch | comp | os | type | load | data | entry | name
  deriving DecidableEq

def Valued.set (s : Settings) (value : Text) : Valued → Except Failure Settings
  | .arch => (getTableEntry archName value).elim (.error .usage) fun n => .ok { s with optArch := n }
  | .comp => (getTableEntry compName value).elim (.error .usage) fun n => .ok { s with optComp := n }
  | .os => (getTableEntry osName value).elim (.error .usage) fun n => .ok { s with optOs := n }
  | .type => (getTableEntry typeName value).elim (.error .usage) fun n => .ok { s with optType := n }
  | .load => if (strtoulHex value).2 = [] then .ok { s with addr := .ofNat (strtoulHex value).1 } else .error (.loadAddress value)
  | .data => .ok { s with datafile := value, dflag := true }
  | .entry => if (strtoulHex value).2 = [] then .ok { s with ep := .ofNat (strtoulHex value).1, eflag := true } else .error (.entryPoint value)
  | .name => .ok { s with name := value }

/-- The letters of an argument, up to the first one that takes the next argument. -/
def letters (s : Settings) : Text → Except Failure (Settings × Option Valued)
  | [] => .ok (s, none)
  | 'l' :: rest => letters { s with lflag := true } rest
  | 'v' :: rest => letters s rest
  | 'x' :: rest => letters { s with xflag := true } rest
  | 'A' :: _ => .ok (s, some .arch)
  | 'C' :: _ => .ok (s, some .comp)
  | 'O' :: _ => .ok (s, some .os)
  | 'T' :: _ => .ok (s, some .type)
  | 'a' :: _ => .ok (s, some .load)
  | 'd' :: _ => .ok (s, some .data)
  | 'e' :: _ => .ok (s, some .entry)
  | 'n' :: _ => .ok (s, some .name)
  | _ => .error .usage

/-- The loop over the arguments: the settings and the arguments that are left. -/
def options (s : Settings) : List Text → Except Failure (Settings × List Text)
  | ('-' :: arg) :: rest =>
    match letters s arg with
    | .error failure => .error failure
    | .ok (s, none) => options s rest
    | .ok (s, some option) =>
      match rest with
      | [] => .error .usage
      | value :: rest => match option.set s value with
        | .error failure => .error failure
        | .ok s => options s rest
  | rest => .ok (s, rest)

/-- Without `-e` the entry point is the load address, or behind the header of an image that is executed in place. -/
def Settings.withEntry (s : Settings) : Settings :=
  if s.eflag then s else { s with ep := if s.xflag then s.addr + .ofNat headerSize else s.addr }

/-- What `main` makes of the settings once all options are read. -/
def Settings.complete (s : Settings) : Except Failure Settings :=
  if s.withEntry.xflag ∧ s.withEntry.ep.toNat ≠ s.withEntry.addr.toNat + headerSize then .error .xipEntry else .ok s.withEntry

/-! ### Images -/

/-- What the program meets outside: the files it can read, whether it can write the image, the time, and the size of a
`long`. -/
structure World where
  file : Text → Option (List UInt8)
  writable : Text → Bool
  mtime : Nat
  sizeofLong : Nat

/-- `size = sbuf.st_size - offset` as an `int`. -/
def toInt (n : Int) : Int := (n + 2 ^ 31) % 2 ^ 32 - 2 ^ 31

/-- `copy_file`: what goes into the image. An empty file cannot be mapped, and of a negative size nothing can be written. -/
def copyFile (w : World) (xflag : Bool) (file : Text) (pad : Bool) : Except Failure (List UInt8) :=
  match w.file file with
  | none => .error (.cantOpen file)
  | some data =>
    if data = [] then .error (.cantRead file)
    else if xflag ∧ data.length % 2 ^ 32 < headerSize then .error (.tooSmallForXip file)
    else if xflag ∧ ¬ (data.take headerSize).all (· = 0xff) then .error (.badBuffer file)
    else
      let offset := if xflag then headerSize else 0
      let size := toInt ((data.length : Int) - offset)
      if size < 0 then .error .writeError
      else
        let written := (data.drop offset).take size.toNat
        .ok (if pad ∧ size % 4 ≠ 0 then written ++ List.replicate (4 - size.toNat % 4) 0 else written)

/-- The list of sizes, with the zero at its end. -/
def sizeWords (w : World) : List Text → Except Failure (List UInt8)
  | [] => .ok (htonl 0)
  | file :: rest =>
    match w.file file with
    | none => .error (.cantStat file)
    | some data => (sizeWords w rest).map (htonl (.ofNat data.length) ++ ·)

/-- The files one behind the other, each but the last one padded. -/
def copyFiles (w : World) (xflag : Bool) : List Text → Except Failure (List UInt8)
  | [] => .ok []
  | [file] => copyFile w xflag file false
  | file :: next :: rest => do
    let first ← copyFile w xflag file true
    let others ← copyFiles w xflag (next :: rest)
    return first ++ others

/-- All that follows the header. -/
def payload (w : World) (s : Settings) : Except Failure (List UInt8) :=
  if s.optType = IH_TYPE_MULTI ∨ s.optType = IH_TYPE_SCRIPT then do
    let sizes ← sizeWords w (s.datafile.splitOn ':')
    let files ← copyFiles w s.xflag (s.datafile.splitOn ':')
    return sizes ++ files
  else copyFile w s.xflag s.datafile false

/-- The header in front of the data. Its own checksum is taken while the field for it is still clear. -/
def buildHeader (w : World) (s : Settings) (data : List UInt8) : ImageHeader :=
  let h : ImageHeader :=
    { ihMagic := IH_MAGIC, ihHcrc := 0, ihTime := .ofNat w.mtime, ihSize := .ofNat data.length, ihLoad := s.addr, ihEp := s.ep
      ihDcrc := .ofNat (checksum data), ihOs := .ofNat s.optOs, ihArch := .ofNat s.optArch, ihType := .ofNat s.optType
      ihComp := .ofNat s.optComp, ihName := (s.name.map fun c => UInt8.ofNat c.toNat).takeD IH_NMLEN 0, named := List.takeD_length _ _ _ }
  { h with ihHcrc := .ofNat (crc32 0 h.bytes) }

/-- `-d`: writes an image and lists it. -/
def create (w : World) (s : Settings) : Except Failure (List UInt8 × Listing) := do
  let data ← payload w s
  let listing ← printHeader w.sizeofLong (buildHeader w s data) data
  return ((buildHeader w s data).bytes ++ data, listing)

/-- `-l`: checks an image and lists it. -/
def check (sizeofLong : Nat) (image : List UInt8) : Except Failure Listing :=
  if image.length % 2 ^ 32 < headerSize then .error .badSize
  else
    let h := ImageHeader.ofBytes image
    if h.ihMagic ≠ IH_MAGIC then .error .badMagic
    else if crc32 0 { h with ihHcrc := 0 }.bytes ≠ h.ihHcrc.toNat then .error .badHeaderChecksum
    else if checksum (image.drop headerSize) ≠ h.ihDcrc.toNat then .error .corruptedData
    else printHeader sizeofLong h (image.drop headerSize)

/-- What `main` does once the settings are complete: what it prints, and the image where it writes one. -/
def act (w : World) (s : Settings) (imagefile : Text) : Except Failure (Listing × Option (List UInt8)) :=
  if s.lflag then
    match w.file imagefile with
    | none => .error (.cantOpen imagefile)
    | some image => (check w.sizeofLong image).map fun listing => (listing, none)
  else if w.writable imagefile then (create w s).map fun (image, listing) => (listing, some image)
  else .error (.cantOpen imagefile)

def main (w : World) (argv : List Text) : Except Failure (Listing × Option (List UInt8)) :=
  match options {} argv with
  | .error failure => .error failure
  | .ok (s, [imagefile]) => if s.lflag = s.dflag then .error .usage else s.complete.bind fun s => act w s imagefile
  | .ok _ => .error .usage

end EmbToolkit.Mkimage
