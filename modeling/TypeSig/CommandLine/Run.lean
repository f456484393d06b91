import TypeSig.CommandLine.Usage
import TypeSig.Layout.Json
import TypeSig.Parser
import TypeSig.Report

/-!
# Running the command

The command reads its input with a fresh parser that knows the aliases, and prints the result or
reports the error. Its exit code is zero, the code of the error, or two for bad arguments.
-/

namespace TypeSig.CommandLine

/-- What a run of the command leaves for its caller. -/
structure Outcome where
  exit : Nat
  stdout : String := ""
  stderr : String := ""
  deriving DecidableEq, Repr

namespace Invocation

/-- The parser before it reads the input. -/
def parser (i : Invocation) : Parser :=
  i.aliases.foldl
    (fun p a => (p.note (.registeringAlias a.old a.new)).register .typeToken (.ofAlias a.old a.new))
    (.new { requireOutput := !i.lenient })

def renderType (i : Invocation) (d : TypeDescriptor) : String :=
  match i.format with
  | .listing => Listing.pretty d.listing
  | .json => Json.pretty d.json

def renderSignature (i : Invocation) (s : Signature) : String :=
  match i.format with
  | .listing => Listing.pretty s.listing
  | .json => Json.pretty s.json

/-- The event that a signature was read. -/
def parsed (s : Signature) : Event :=
  .parsedSignature s.inputs.length ((s.output?.map fun stage => stage.types.length).getD 0)

/-- The printed result of reading the input, and the parser after it. -/
def read (i : Invocation) : Except ParseError String × Parser :=
  if i.typeOnly then
    let (result, p) := i.parser.parseType i.input
    (result.map i.renderType, p)
  else
    let (result, p) := i.parser.parseSignature i.input
    match result with
    | .ok s => (.ok (i.renderSignature s), p.note (parsed s))
    | .error e => (.error e, p)

/-- The log as it is printed. -/
def printedLog (i : Invocation) (p : Parser) : String :=
  if i.verbose then
    String.join ((p.note (.cacheState p.stats)).journal.log.map fun e => e.line ++ "\n")
  else ""

def run (i : Invocation) : Outcome :=
  let (result, p) := i.read
  let log := i.printedLog p
  match result with
  | .ok text => { exit := 0, stdout := text ++ "\n", stderr := log }
  | .error e =>
    { exit := e.exitCode, stderr := log ++ Report.render "<input>".toList i.input e }

end Invocation

def Request.run : Request → Outcome
  | invoke i => i.run
  | help => { exit := 0, stdout := helpText }
  | version => { exit := 0, stdout := versionText }

/-- Runs the command. -/
def run (arguments : List Text) : Outcome :=
  match Request.ofArguments arguments with
  | .ok request => request.run
  | .error e => { exit := 2, stderr := e.message }

end TypeSig.CommandLine
