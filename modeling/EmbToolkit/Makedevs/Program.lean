import EmbToolkit.Makedevs.Table

/-! `makedevs` after its arguments are parsed. The system may answer each call as it likes, also depending on all
calls before, so the state of a process is the calls it has made with their answers, its umask and the variable `ret`. -/

namespace EmbToolkit.Makedevs
open Scanf

inductive Errno where
  | EEXIST
  | EISDIR
  | other
  deriving DecidableEq

inductive FileType where
  | S_IFDIR
  | S_IFREG
  | other
  deriving DecidableEq

/-- A system call with its answer, or a diagnostic of the program. -/
inductive Event where
  | mkdir (path : Text) (mode : Nat) (error : Option Errno)
  | stat (path : Text) (found : Option FileType)
  | chmod (path : Text) (mode : Nat) (ok : Bool)
  | chown (path : Text) (uid gid : Nat) (ok : Bool)
  | mknod (path : Text) (mode major minor : Nat) (ok : Bool)
  | getpwnam (name : Text) (uid : Option Nat)
  | getgrnam (name : Text) (gid : Option Nat)
  | makeDirectory (path : Text) (ok : Bool)
  | missingFile (linenum : Nat)
  | invalidLine (linenum : Nat)
  | unsupportedType (linenum : Nat)
  deriving DecidableEq

/-- What the environment answers after the events so far. -/
structure System where
  mkdir : List Event → Text → Option Errno
  stat : List Event → Text → Option FileType
  chmod : List Event → Text → Nat → Bool
  chown : List Event → Text → Nat → Nat → Bool
  mknod : List Event → Text → Nat → Nat → Nat → Bool
  getpwnam : Text → Option Nat
  getgrnam : Text → Option Nat
  getuid : Nat
  getgid : Nat

structure Process where
  events : List Event
  umask : Nat
  /-- `ret == EXIT_FAILURE` -/
  ret : Bool

namespace Process

def log (p : Process) (event : Event) : Process := { p with events := p.events ++ [event] }

def fail (p : Process) : Process := { p with ret := true }

@[simp] theorem log_events (p : Process) (event : Event) : (p.log event).events = p.events ++ [event] := rfl

@[simp] theorem fail_events (p : Process) : p.fail.events = p.events := rfl

end Process

def S_IFDIR : Nat := 0o040000
def S_IFCHR : Nat := 0o020000
def S_IFBLK : Nat := 0o060000
def S_IFIFO : Nat := 0o010000

section
variable (sys : System)

def chmod (path : Text) (mode : Nat) (p : Process) : Bool × Process :=
  (sys.chmod p.events path mode, p.log (.chmod path mode (sys.chmod p.events path mode)))

def chown (path : Text) (uid gid : Nat) (p : Process) : Bool × Process :=
  (sys.chown p.events path uid gid, p.log (.chown path uid gid (sys.chown p.events path uid gid)))

def stat (path : Text) (p : Process) : Option FileType × Process :=
  (sys.stat p.events path, p.log (.stat path (sys.stat p.events path)))

def mkdir (path : Text) (mode : Nat) (p : Process) : Option Errno × Process :=
  (sys.mkdir p.events path, p.log (.mkdir path mode (sys.mkdir p.events path)))

def mknod (path : Text) (mode major minor : Nat) (p : Process) : Bool × Process :=
  (sys.mknod p.events path mode major minor, p.log (.mknod path mode major minor (sys.mknod p.events path mode major minor)))

section
variable (p : Process) (path : Text) (mode major minor uid gid : Nat)

@[simp] theorem chmod_events : (chmod sys path mode p).2.events = p.events ++ [.chmod path mode (chmod sys path mode p).1] := rfl

@[simp] theorem chown_events : (chown sys path uid gid p).2.events = p.events ++ [.chown path uid gid (chown sys path uid gid p).1] := rfl

@[simp] theorem mkdir_events : (mkdir sys path mode p).2.events = p.events ++ [.mkdir path mode (mkdir sys path mode p).1] := rfl

@[simp] theorem mknod_events : (mknod sys path mode major minor p).2.events =
    p.events ++ [.mknod path mode major minor (mknod sys path mode major minor p).1] := rfl

end

/-! ### `bb_make_directory` -/

/-- The texts to which the recursive mode cuts the path, one after another: each ends after a run of slashes that
something follows, and the last is the whole path. -/
def cuts (passed : Text) : Text → List Text
  | [] => [passed]
  | [c] => [passed ++ [c]]
  | c :: d :: rest =>
    if c = '/' && d ≠ '/' then (passed ++ [c]) :: cuts (passed ++ [c]) (d :: rest) else cuts (passed ++ [c]) (d :: rest)

/-- What `bb_make_directory` leaves behind: its result, the string that the caller's buffer then holds, and the process. -/
structure Made where
  ok : Bool
  left : Text
  process : Process

/-- The loop of `bb_make_directory` over the cut paths. `mask` is the umask to restore, `mode` the one to set. Each
way out leaves the buffer at the cut it has come to: the null written there is put back only on the way on. -/
def makeDirectories (mode mask : Nat) (recursive : Bool) : List Text → Process → Made
  | [], p => ⟨true, [], p⟩
  | path :: rest, p =>
    let (error, p) := mkdir sys path 0o777 p
    match error with
    | none =>
      if rest = [] then
        let (set, p) := chmod sys path mode { p with umask := mask }
        ⟨set, path, p⟩
      else makeDirectories mode mask recursive rest p
    | some error =>
      if (error ≠ .EEXIST && error ≠ .EISDIR) || !recursive then ⟨false, path, { p with umask := mask }⟩
      else
        let (found, p) := stat sys path p
        if found ≠ some .S_IFDIR then ⟨false, path, { p with umask := mask }⟩
        else if rest = [] then ⟨true, path, { p with umask := mask }⟩
        else makeDirectories mode mask recursive rest p

/-- `bb_make_directory(path, mode, recursive ? FILEUTILS_RECUR : 0)`, no mode standing for -1. -/
def bb_make_directory (path : Text) (mode : Option Nat) (recursive : Bool) (p : Process) : Made :=
  let mask := p.umask
  let (chosen, p) := match mode with
    | none => (0o777 ^^^ (mask &&& 0o777), p)
    | some mode => (mode, { p with umask := mask &&& 0o477 })
  let made := makeDirectories sys chosen mask recursive (if recursive then cuts [] path else [path]) p
  { made with process := made.process.log (.makeDirectory path made.ok) }

/-! ### Owners and paths -/

def my_getpwnam (name : Text) (p : Process) : Option Nat × Process := (sys.getpwnam name, p.log (.getpwnam name (sys.getpwnam name)))

def my_getgrnam (name : Text) (p : Process) : Option Nat × Process := (sys.getgrnam name, p.log (.getgrnam name (sys.getgrnam name)))

/-- The identity, of which `main` keeps 32 bits, or nothing where the lookup of the name exits. -/
def get_ug_id (s : Text) (my_getxxnam : Text → Process → Option Nat × Process) (p : Process) : Option Nat × Process :=
  match strtoul 10 s with
  | some (r, []) => (some (r % 2 ^ 32), p)
  | _ => my_getxxnam s p

end

def concat_path_file (path filename : Text) : Text :=
  path ++ (if path.getLast? = some '/' then [] else ['/']) ++ filename.dropWhile (· = '/')

/-- `%d` of a number that is not negative. -/
def decimal (i : Nat) : Text := (Nat.repr i).toList

/-! ### Entries -/

section
variable (sys : System)

/-- `if ((mode != -1) && (chmod(path, mode) < 0))` with its failure branch. -/
def setMode (path : Text) (mode : Nat) (p : Process) : Process :=
  if mode = 2 ^ 32 - 1 then p
  else
    let (set, p) := chmod sys path mode p
    if set then p else p.fail

/-- The owner and the mode go to the file that the buffer names after `bb_make_directory`. -/
def directoryEntry (full_name : Text) (mode uid gid : Nat) (p : Process) : Process :=
  let made := bb_make_directory sys full_name (some (mode ||| S_IFDIR)) true p
  let (owned, p) := chown sys made.left uid gid made.process
  if owned then setMode sys made.left mode p else p.fail

def fileEntry (linenum : Nat) (full_name : Text) (mode uid gid : Nat) (p : Process) : Process :=
  let (found, p) := stat sys full_name p
  if found ≠ some .S_IFREG then (p.log (.missingFile linenum)).fail
  else
    let (owned, p) := chown sys full_name uid gid p
    if owned then setMode sys full_name mode p else p.fail

/-- The mode is set whether or not the node could be made and given away. -/
def makeNode (path : Text) (mode major minor uid gid : Nat) (p : Process) : Process :=
  let (made, p) := mknod sys path mode major minor p
  let p :=
    if made then
      let (owned, p) := chown sys path uid gid p
      if owned then p else p.fail
    else p.fail
  setMode sys path mode p

/-- `minor + (i * increment - start)` in the arithmetic of `unsigned int`. -/
def nodeMinor (minor start increment i : Nat) : Nat := ((minor + ((i : Int) * increment - start)) % 2 ^ 32).toNat

/-- The loop of a device range over the values of `i`. -/
def makeNodes (columns : Columns) (full_name : Text) (mode uid gid : Nat) : List Nat → Process → Process
  | [], p => p
  | i :: rest, p =>
    makeNodes columns full_name mode uid gid rest
      (makeNode sys (full_name ++ decimal i) mode columns.major (nodeMinor columns.minor columns.start columns.increment i) uid gid p)

def nodeEntry (columns : Columns) (full_name : Text) (mode uid gid : Nat) (p : Process) : Process :=
  if 0 < columns.count then
    makeNodes sys columns full_name mode uid gid (List.range' columns.start (columns.count - columns.start)) p
  else makeNode sys full_name mode columns.major columns.minor uid gid p

def actOn (linenum : Nat) (columns : Columns) (full_name : Text) (uid gid : Nat) (p : Process) : Process :=
  match columns.type with
  | 'd' => directoryEntry sys full_name columns.mode uid gid p
  | 'f' => fileEntry sys linenum full_name columns.mode uid gid p
  | 'p' => nodeEntry sys columns full_name (columns.mode ||| S_IFIFO) uid gid p
  | 'c' => nodeEntry sys columns full_name (columns.mode ||| S_IFCHR) uid gid p
  | 'b' => nodeEntry sys columns full_name (columns.mode ||| S_IFBLK) uid gid p
  | _ => (p.log (.unsupportedType linenum)).fail

/-- The group, or nothing where its lookup exits. -/
def groupOf (columns : Columns) (p : Process) : Option Nat × Process :=
  if columns.group = [] then (some sys.getgid, p) else get_ug_id columns.group (my_getgrnam sys) p

def userOf (columns : Columns) (p : Process) : Option Nat × Process :=
  if columns.user = [] then (some sys.getuid, p) else get_ug_id columns.user (my_getpwnam sys) p

/-- One round of the loop of `main`. An error is the process that has called `exit(1)`. -/
def handleLine (rootdir : Text) (memory : Memory) (linenum : Nat) (line : Text) (p : Process) : Except Process Process :=
  match readLine memory line with
  | .skipped => .ok p
  | .invalid => .ok (p.log (.invalidLine linenum)).fail
  | .entry columns =>
    match groupOf sys columns p with
    | (none, p) => .error p
    | (some gid, p) =>
      match userOf sys columns p with
      | (none, p) => .error p
      | (some uid, p) => .ok (actOn sys linenum columns (concat_path_file rootdir columns.name) uid gid p)

/-- The loop of `main` over the lines from the one after `linenum` on. -/
def handleLines (rootdir : Text) (memory : Nat → Memory) : Nat → List Text → Process → Except Process Process
  | _, [], p => .ok p
  | linenum, line :: rest, p =>
    match handleLine sys rootdir (memory (linenum + 1)) (linenum + 1) line p with
    | .error p => .error p
    | .ok p => handleLines rootdir memory (linenum + 1) rest p

/-- The exit status and the last state. The table is absent when it cannot be opened, else it is the list of the
lines that `bb_get_chomped_line_from_file` returns. -/
def main (table : Option (List Text)) (rootdir : Text) (chdir : Bool) (memory : Nat → Memory) (umask : Nat) : Nat × Process :=
  let p : Process := { events := [], umask, ret := false }
  match table with
  | none => (1, p)
  | some lines =>
    if chdir then
      match handleLines sys rootdir memory 0 lines { p with umask := 0 } with
      | .error p => (1, p)
      | .ok p => (0, p)
    else (1, p)

end
end EmbToolkit.Makedevs
