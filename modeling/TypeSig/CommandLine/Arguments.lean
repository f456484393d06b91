import TypeSig.Text.Blank
import TypeSig.Text.Similarity

/-!
# Arguments

The arguments of the command are read from left to right into an `Invocation`, up to the first
fault or the first request for help or for the version.

The value of a setting may be attached to it or be the next argument. A value that is an argument
of its own is checked when the argument after it is taken up, so a further argument that has no
place is reported before a fault in that value.
-/

namespace TypeSig.CommandLine

/-- How a result is printed. -/
inductive Format where
  | listing
  | json
  deriving DecidableEq, Repr

namespace Format

def all : List Format := [listing, json]

def name : Format → String
  | listing => "debug"
  | json => "json"

def ofText? (t : Text) : Option Format := all.find? fun f => f.name.toList = t

/-- The format that was perhaps meant. -/
def similar? (t : Text) : Option Format := Text.closest? (fun f : Format => f.name.toList) t all

end Format

/-- A type token that stands for another one. -/
structure Alias where
  old : Text
  new : Text
  deriving DecidableEq, Repr

/-- Reads `FROM=TO`, where `FROM` is not blank. Blanks around the two sides do not count. -/
def Alias.ofText? (t : Text) : Option Alias :=
  match t.dropWhile (· != '=') with
  | [] => none
  | _ :: new =>
    let old := Text.trim (t.takeWhile (· != '='))
    if old.isEmpty then none else some ⟨old, Text.trim new⟩

/-- Options without a value. -/
inductive Switch where
  | typeOnly
  | lenient
  | verbose
  deriving DecidableEq, Repr

/-- Options with a value. -/
inductive Setting where
  | format
  | aliases
  deriving DecidableEq, Repr

/-- An option, of any sort. -/
inductive OptionName where
  | switch (s : Switch)
  | setting (s : Setting)
  | help
  | version
  deriving DecidableEq, Repr

namespace OptionName

def all : List OptionName :=
  [switch .typeOnly, setting .format, setting .aliases, switch .lenient, switch .verbose, help,
    version]

/-- The name that stands after two hyphens. -/
def long : OptionName → String
  | switch .typeOnly => "type"
  | setting .format => "format"
  | setting .aliases => "alias"
  | switch .lenient => "lenient"
  | switch .verbose => "verbose"
  | help => "help"
  | version => "version"

def ofText? (t : Text) : Option OptionName := all.find? fun o => o.long.toList = t

/-- The option that was perhaps meant. -/
def similar? (t : Text) : Option OptionName :=
  Text.closest? (fun o : OptionName => o.long.toList) t all

end OptionName

inductive Argument where
  | switch (s : Switch)
  /-- A setting, with its value if that is attached. -/
  | setting (s : Setting) (value : Option Text)
  | help
  | version
  /-- A word that can be the input or the value of a setting. -/
  | word (t : Text)
  /-- A word after `--`, which can only be the input. -/
  | operand (t : Text)
  /-- A value attached to an option that takes none. -/
  | surplus (option : OptionName) (value : Text)
  | unknownName (name : Text)
  | unknownLetter (letter : Char)
  deriving DecidableEq, Repr

namespace Argument

/-- The argument `--name` or `--name=value`, without its hyphens. -/
def ofLong (t : Text) : Argument :=
  let name := t.takeWhile (· != '=')
  match OptionName.ofText? name, (t.dropWhile (· != '=')).tail? with
  | some (.switch s), none => switch s
  | some (.setting s), value => setting s value
  | some .help, none => help
  | some .version, none => version
  | some option, some value => surplus option value
  | none, _ => unknownName name

def ofShort (c : Char) : Argument :=
  match c with
  | 'v' => switch .verbose
  | 'h' => help
  | 'V' => version
  | c => unknownLetter c

/-- The arguments that one argument text stands for; letters after one hyphen stand for one each. -/
def ofText : Text → List Argument
  | '-' :: '-' :: t => [ofLong t]
  | '-' :: c :: t => (c :: t).map ofShort
  | t => [word t]

/-- The arguments of the command. -/
def ofTexts : List Text → List Argument
  | [] => []
  | ['-', '-'] :: ts => ts.map operand
  | t :: ts => ofText t ++ ofTexts ts

end Argument

/-- What the command is asked to do. -/
structure Invocation where
  input : Text
  typeOnly : Bool := false
  format : Format := .listing
  aliases : List Alias := []
  lenient : Bool := false
  verbose : Bool := false
  deriving DecidableEq, Repr

inductive Request where
  | invoke (i : Invocation)
  | help
  | version
  deriving DecidableEq, Repr

inductive UsageError where
  | invalidAlias (raw : Text)
  | invalidFormat (raw : Text)
  | missingValue (s : Setting)
  | repeated (option : OptionName)
  /-- A word that has no place. -/
  | unexpected (t : Text)
  | unknownLetter (letter : Char)
  /-- There is no option of this name; `given` are the options that were there. -/
  | unknownName (name : Text) (given : List OptionName)
  /-- The option takes no value; `given` are the options that were there. -/
  | surplus (option : OptionName) (value : Text) (given : List OptionName)
  /-- There is no input; `given` are the options that were there. -/
  | missingInput (given : List OptionName)
  deriving DecidableEq, Repr

/-- The arguments read so far. -/
structure Draft where
  input : Option Text := none
  typeOnly : Bool := false
  format : Option Format := none
  aliases : List Alias := []
  lenient : Bool := false
  verbose : Bool := false
  /-- The options in the order in which they were first given. -/
  given : List OptionName := []
  /-- A value that is not checked yet. -/
  pending : Option (Setting × Text) := none

namespace Draft

def give (option : OptionName) (d : Draft) : Draft :=
  if option ∈ d.given then d else { d with given := d.given ++ [option] }

/-- Takes up a switch, which may be given once. -/
def turnOn (s : Switch) (d : Draft) : Except UsageError Draft :=
  if .switch s ∈ d.given then .error (.repeated (.switch s))
  else
    let d := d.give (.switch s)
    .ok <| match s with
      | .typeOnly => { d with typeOnly := true }
      | .lenient => { d with lenient := true }
      | .verbose => { d with verbose := true }

/-- Takes up a setting; only aliases may be given more than once. -/
def set (s : Setting) (value : Text) (d : Draft) : Except UsageError Draft :=
  match s with
  | .format =>
    if .setting .format ∈ d.given then .error (.repeated (.setting .format))
    else
      match Format.ofText? value with
      | some format => .ok { d.give (.setting .format) with format := some format }
      | none => .error (.invalidFormat value)
  | .aliases =>
    match Alias.ofText? value with
    | some a => .ok { d.give (.setting .aliases) with aliases := d.aliases ++ [a] }
    | none => .error (.invalidAlias value)

/-- Takes up the pending value. -/
def settle (d : Draft) : Except UsageError Draft :=
  match d.pending with
  | none => .ok d
  | some (s, value) => set s value { d with pending := none }

/-- The options given so far, that of the pending value among them. -/
def named (d : Draft) : List OptionName :=
  match d.pending with
  | none => d.given
  | some (s, _) => (d.give (.setting s)).given

/-- Takes up the input, unless there is one. -/
def place (t : Text) (d : Draft) : Except UsageError Draft :=
  if d.input.isSome then .error (.unexpected t)
  else return { ← d.settle with input := some t }

def invocation (d : Draft) (input : Text) : Invocation where
  input
  typeOnly := d.typeOnly
  format := d.format.getD .listing
  aliases := d.aliases
  lenient := d.lenient
  verbose := d.verbose

/-- Reads the arguments from left to right. -/
def read (d : Draft) : List Argument → Except UsageError Request
  | [] => do
    let d ← d.settle
    match d.input with
    | none => .error (.missingInput d.given)
    | some input => return .invoke (d.invocation input)
  | .help :: _ => do
    let _ ← d.settle
    return .help
  | .version :: _ => do
    let _ ← d.settle
    return .version
  | .switch s :: rest => do read (← (← d.settle).turnOn s) rest
  | .setting s (some value) :: rest => do read (← (← d.settle).set s value) rest
  | .setting s none :: .word value :: rest => do
    read { ← d.settle with pending := some (s, value) } rest
  | .setting _ none :: .unknownLetter c :: _ => do
    let _ ← d.settle
    .error (.unknownLetter c)
  | .setting _ none :: .unknownName name :: _ => do
    .error (.unknownName name (← d.settle).given)
  | .setting _ none :: .surplus option value :: _ => do
    .error (.surplus option value (← d.settle).given)
  | .setting s none :: _ => do
    let _ ← d.settle
    .error (.missingValue s)
  | .word t :: rest => do read (← d.place t) rest
  | .operand t :: rest => do read (← d.place t) rest
  | .unknownLetter c :: _ => .error (.unknownLetter c)
  | .unknownName name :: _ => .error (.unknownName name d.named)
  | .surplus option value :: _ => .error (.surplus option value d.given)

end Draft

/-- What the arguments of the command ask for. -/
def Request.ofArguments (arguments : List Text) : Except UsageError Request :=
  Draft.read {} (Argument.ofTexts arguments)

end TypeSig.CommandLine
