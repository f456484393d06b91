import TypeSig.Layout.Listing
import TypeSig.Registry
import TypeSig.Text.Terminal

/-!
# Events

What a parser records in its log, and the lines in which the log is printed.
-/

namespace TypeSig

/-- The counts of the two memos of a parser. -/
structure CacheStats where
  typeHits : Nat
  typeMisses : Nat
  signatureHits : Nat
  signatureMisses : Nat
  deriving DecidableEq, Repr

def CacheStats.listing (s : CacheStats) : Block :=
  Listing.record "CacheStats"
    [("type_hits", Listing.nat s.typeHits), ("type_misses", Listing.nat s.typeMisses),
      ("signature_hits", Listing.nat s.signatureHits),
      ("signature_misses", Listing.nat s.signatureMisses)]

def Registry.listing (r : Registry) : Block :=
  Listing.record "MacroRegistry"
    [("type_level", Listing.nat (r.count .typeToken)),
      ("signature_level", Listing.nat (r.count .signature))]

inductive Event where
  | registeringAlias (old new : Text)
  | registeredMacro (level : Level) (count : Nat)
  | changedByMacro (level : Level) (change : Chain.Change)
  | parsingSignature (text : Text)
  | cacheHit (key : Text)
  | cacheMiss (key : Text)
  | parsedSignature (inputs outputs : Nat)
  | cacheState (stats : CacheStats)
  deriving DecidableEq, Repr

namespace Event

/-- A text in a printed log, which has no styles. -/
def shown (t : Text) : String := String.ofList t.unstyled

/-- The line of an event in a printed log. -/
def line : Event → String
  | registeringAlias old new =>
    "DEBUG signet: registering alias from=" ++ shown old ++ " to=" ++ shown new
  | registeredMacro level count =>
    "DEBUG parser::parser: registered " ++ level.label ++ " macro count=" ++ toString count
  | changedByMacro level change =>
    "DEBUG parser::macros: macro rewrote input chain=" ++ Text.quote level.label.toList
      ++ " index=" ++ toString change.index ++ " from=" ++ shown change.old
      ++ " to=" ++ shown change.new
  | parsingSignature text =>
    "DEBUG parser::parser: parsing signature signature=" ++ shown text
  | cacheHit key => "DEBUG parser::cache: cache hit key=" ++ key.quote
  | cacheMiss key => "DEBUG parser::cache: cache miss key=" ++ key.quote
  | parsedSignature inputs outputs =>
    "DEBUG signet: parsed signature inputs=" ++ toString inputs ++ " outputs=" ++ toString outputs
  | cacheState stats => "DEBUG signet: cache stats=" ++ stats.listing.inline

end Event

end TypeSig
