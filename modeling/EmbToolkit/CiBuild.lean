import EmbToolkit.Library.Text

/-! The options of `ci-build.sh`. The arguments are printed on one line, every `=` in it becomes a space, and the shell
splits the line again, so that the loop only sees words and takes two of them for an option. -/

namespace EmbToolkit.CiBuild
open MakeText

inductive Opt
  | abi
  | arch
  | archvariant
  | clibrary
  | endian
  | float
  | os
  | toolchain
  | workspace
  | downloaddir
  | makecmd
  deriving DecidableEq, Repr

def Opt.all : List Opt := [.abi, .arch, .archvariant, .clibrary, .endian, .float, .os, .toolchain, .workspace, .downloaddir, .makecmd]

/-- The pattern of the option in the `case` of the loop. -/
def Opt.word : Opt → String
  | .abi => "--abi"
  | .arch => "--arch"
  | .archvariant => "--archvariant"
  | .clibrary => "--clibrary"
  | .endian => "--endian"
  | .float => "--float"
  | .os => "--os"
  | .toolchain => "--toolchain"
  | .workspace => "--workspace"
  | .downloaddir => "--downloaddir"
  | .makecmd => "--makecmd"

def recognise (word : String) : Option Opt := Opt.all.find? fun o => o.word = word

/-- An argument `--name=value` of the script. -/
structure Argument where
  opt : Opt
  value : String
  deriving DecidableEq

def Argument.text (a : Argument) : String := a.opt.word ++ "=" ++ a.value

/-- The shell that runs the script: what pathname expansion makes of a field, and whether a failed `shift` ends it. -/
structure Shell where
  glob : String → List String
  fatal : Bool

/-- `sed 's/=/ /g'` -/
def spaced (text : String) : String := String.ofList (text.toList.map fun c => if c = '=' then ' ' else c)

/-- An unquoted expansion: split at blanks, then the fields expanded to file names. -/
def Shell.expand (sh : Shell) (text : String) : List String := (words text).flatMap sh.glob

/-- What becomes of one argument: `$*` unquoted, printed by `echo` and rewritten by `sed`, then `$options` unquoted. -/
def Shell.fields (sh : Shell) (a : Argument) : List String := (sh.expand a.text).flatMap fun field => sh.expand (spaced field)

/-- The positional parameters after `set -- $options`. Each is kept with the place of the argument that it comes from. -/
def Shell.parameters (sh : Shell) (args : List Argument) (k : Nat) : List (String × Nat) :=
  (args.zipIdx k).flatMap fun placed => (sh.fields placed.1).map fun word => (word, placed.2)

/-- An assignment that the loop has made, with the places of the arguments that its two words come from. -/
structure Assignment where
  opt : Opt
  value : String
  from_opt : Nat
  from_value : Option Nat
  deriving DecidableEq

structure State where
  words : List (String × Nat)
  vars : Opt → String
  made : List Assignment

def State.assign (s : State) (a : Assignment) : State :=
  { s with vars := fun o => if o = a.opt then a.value else s.vars o, made := s.made ++ [a] }

inductive Turn
  | again (s : State)
  | left (s : State)
  | exited

/-- One turn of the loop. What comes after `--` is not looked at, and so is left with it. -/
def turn (sh : Shell) (s : State) : Turn :=
  match s.words with
  | [] => .left s
  | (word, place) :: rest =>
    match recognise word with
    | none => .left s
    | some opt =>
      match rest with
      | [] =>
        -- `shift 2` fails with one parameter left, and shifts nothing
        if sh.fatal then .exited else .again (s.assign ⟨opt, "", place, none⟩)
      | (value, place') :: rest => .again ({ s with words := rest }.assign ⟨opt, value, place, some place'⟩)

/-- The loop is left in a state. -/
inductive Ends (sh : Shell) : State → State → Prop
  | left {s final : State} (here : turn sh s = .left final) : Ends sh s final
  | again {s next final : State} (here : turn sh s = .again next) (later : Ends sh next final) : Ends sh s final

/-- The state in which the loop is entered. `environment` is what the variables hold when the script is started. -/
def start (sh : Shell) (environment : Opt → String) (args : List Argument) : State where
  words := sh.parameters args 0
  vars := environment
  made := []

end EmbToolkit.CiBuild
