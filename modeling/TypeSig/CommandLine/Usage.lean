import TypeSig.CommandLine.Arguments
import TypeSig.Text.Terminal

/-!
# Usage texts

The texts about the command itself: its help, its version and the messages for bad arguments. The
messages are composed for a terminal, with what the user gave in bold type, and printed plain.
-/

namespace TypeSig.CommandLine

def helpText : String :=
  "Parse signet type signatures

Usage: signet [OPTIONS] <INPUT>

Arguments:
  <INPUT>  Signature (or type token with --type) to parse

Options:
      --type             Parse INPUT as a single type token
      --format <FORMAT>  Output format [default: debug] [possible values: debug, json]
      --alias <FROM=TO>  Replace a whole type token FROM with TO before parsing
      --lenient          Accept signatures without an output stage
  -v, --verbose          Enable debug logging
  -h, --help             Print help
  -V, --version          Print version
"

def versionText : String := "signet 0.1.0\n"

namespace OptionName

/-- The option as it is written, with a name for its value. -/
def label : OptionName → String
  | setting .format => "--format <FORMAT>"
  | setting .aliases => "--alias <FROM=TO>"
  | option => "--" ++ option.long

end OptionName

/-- The values among which a setting chooses, if they are few. -/
def Setting.choices : Setting → List String
  | format => ["  [possible values: " ++ ", ".intercalate (Format.all.map Format.name) ++ "]"]
  | aliases => []

/-- The usage of the command with the options that were given, or with any. -/
def usage (given : List OptionName) : String :=
  let options := if given.isEmpty then ["[OPTIONS]"] else given.map OptionName.label
  " ".intercalate (["Usage: signet"] ++ options ++ ["<INPUT>"])

namespace UsageError

def quoted (t : Text) : String := "'" ++ Text.bold (String.ofList t) ++ "'"

/-- A value that a setting cannot have. -/
def invalid (s : Setting) (raw : Text) : String :=
  "error: invalid value " ++ quoted raw ++ " for '" ++ (OptionName.setting s).label ++ "'"

def missing (s : Setting) : String :=
  "error: a value is required for '" ++ (OptionName.setting s).label ++ "' but none was supplied"

/-- An argument that has no place and looks like an option could be meant as the input. -/
def asValue (t : Text) : String :=
  "  tip: to pass " ++ quoted t ++ " as a value, use " ++ quoted ("-- ".toList ++ t)

def unexpectedArgument (t : Text) : String := "error: unexpected argument " ++ quoted t ++ " found"

/-- What is wrong, line by line. -/
def lines : UsageError → List String
  | invalidAlias raw =>
    [invalid .aliases raw ++ ": expected FROM=TO, got '" ++ String.ofList raw ++ "'"]
  | invalidFormat raw =>
    (if raw.isEmpty then missing .format else invalid .format raw) :: Setting.format.choices
      ++ match Format.similar? raw with
        | some f => ["", "  tip: a similar value exists: '" ++ f.name ++ "'"]
        | none => []
  | missingValue s => missing s :: s.choices
  | repeated option =>
    ["error: the argument '" ++ option.label ++ "' cannot be used multiple times", "", usage []]
  | unexpected t => [unexpectedArgument t, "", usage []]
  | unknownLetter c => [unexpectedArgument ['-', c], "", asValue ['-', c], "", usage []]
  | unknownName name given =>
    let t := "--".toList ++ name
    match OptionName.similar? name with
    | some option =>
      [unexpectedArgument t, "", "  tip: a similar argument exists: '--" ++ option.long ++ "'", "",
        usage (if option ∈ given then given else given ++ [option])]
    | none => [unexpectedArgument t, "", asValue t, "", usage given]
  | surplus option value given =>
    ["error: unexpected value " ++ quoted value ++ " for '" ++ option.label
      ++ "' found; no more were expected", "", usage given]
  | missingInput given =>
    ["error: the following required arguments were not provided:", "  <INPUT>", "",
      " ".intercalate (["Usage: signet"] ++ given.map OptionName.label ++ ["<INPUT>"])]

/-- The message as it is printed. -/
def message (e : UsageError) : String :=
  let hint := "For more information, try " ++ quoted "--help".toList ++ "."
  let styled := String.join ((e.lines ++ ["", hint]).map (· ++ "\n"))
  String.ofList (Text.plain styled.toList)

end UsageError

end TypeSig.CommandLine
