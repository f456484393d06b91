import TypeSig.Journal

/-!
# Parsers

A parser reads types, stages and signatures under its rules: whether an output is required, whether
results are kept, and which macros are applied first. Its journal holds what reading leaves behind,
the two memos and the log. Reading can change only the journal, and registration only happens
between two readings.

Results are kept under the text after the macros. So a new type macro cannot outdate a kept type,
but it outdates every kept signature; a new signature macro outdates nothing.
-/

namespace TypeSig

structure Options where
  /-- Refuse signatures without an output stage. -/
  requireOutput : Bool := true
  /-- Keep results. -/
  memoize : Bool := true
  deriving DecidableEq, Repr

structure Rules where
  options : Options := {}
  macros : Registry := {}

namespace Rules

open Reading

/-- The text after the macros of a level. -/
def expand (r : Rules) (level : Level) (t : Text) : Reading Text := do
  let chain := r.macros.chain level
  note ((Chain.changes 0 chain t).map (.changedByMacro level))
  ofExcept (Chain.apply chain t)

/-- Keeps results only if the options ask for it. -/
def remembering {α : Type} (r : Rules) (table : Table α) (key : Text) (build : Reading α) :
    Reading α :=
  if r.options.memoize then remember table key build else build

def parseType (r : Rules) (token : Text) : Reading TypeDescriptor := do
  let t ← r.expand .typeToken token
  r.remembering .types t (return .parse t)

def parseStage (r : Rules) (t : Text) : Reading Stage := do
  (← ofExcept (Stage.outline t)).fill r.parseType

def parseSignature (r : Rules) (signature : Text) : Reading Signature := do
  let t ← r.expand .signature signature
  note [.parsingSignature t]
  r.remembering .signatures t (Signature.parseWith r.options.requireOutput r.parseType t)

end Rules

structure Parser where
  rules : Rules := {}
  journal : Journal := {}

/-- What can be asked of a parser. -/
inductive Operation where
  | register (level : Level) (m : Macro)
  | parseType (token : Text)
  | parseStage (t : Text)
  | parseSignature (t : Text)
  | clearCache

/-- What a parser answers. -/
inductive Answer where
  | done
  | type (result : Except ParseError TypeDescriptor)
  | stage (result : Except ParseError Stage)
  | signature (result : Except ParseError Signature)

namespace Parser

def new (options : Options) : Parser := { rules := { options } }

def note (e : Event) (p : Parser) : Parser :=
  { p with journal := { p.journal with log := p.journal.log ++ [e] } }

def stats (p : Parser) : CacheStats := p.journal.cache.stats

/-- The result of a reading, and the parser after it. -/
def read {α : Type} (reading : Reading α) (p : Parser) : Except ParseError α × Parser :=
  let (result, journal) := reading.run.run p.journal
  (result, { p with journal })

def parseType (token : Text) (p : Parser) : Except ParseError TypeDescriptor × Parser :=
  p.read (p.rules.parseType token)

def parseStage (t : Text) (p : Parser) : Except ParseError Stage × Parser :=
  p.read (p.rules.parseStage t)

def parseSignature (t : Text) (p : Parser) : Except ParseError Signature × Parser :=
  p.read (p.rules.parseSignature t)

def updateCache (f : Cache → Cache) (p : Parser) : Parser :=
  { p with journal := { p.journal with cache := f p.journal.cache } }

def clearCache (p : Parser) : Parser := p.updateCache Cache.clear

/-- Registers a macro. Kept signatures were read with the old macros for type tokens, so a new one
of those clears them. -/
def register (level : Level) (m : Macro) (p : Parser) : Parser :=
  let macros := p.rules.macros.register level m
  let p := note (.registeredMacro level (macros.count level))
    { p with rules := { p.rules with macros } }
  match level with
  | .typeToken => p.updateCache Cache.clearSignatures
  | .signature => p

/-- One operation. -/
def perform (p : Parser) : Operation → Answer × Parser
  | .register level m => (.done, p.register level m)
  | .parseType token =>
    let (result, p) := p.parseType token
    (.type result, p)
  | .parseStage t =>
    let (result, p) := p.parseStage t
    (.stage result, p)
  | .parseSignature t =>
    let (result, p) := p.parseSignature t
    (.signature result, p)
  | .clearCache => (.done, p.clearCache)

/-- A sequence of operations. -/
def run (p : Parser) : List Operation → List Answer × Parser
  | [] => ([], p)
  | o :: os =>
    let (answer, p) := p.perform o
    let (answers, p) := p.run os
    (answer :: answers, p)

end Parser

end TypeSig
