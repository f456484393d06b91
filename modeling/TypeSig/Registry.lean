import TypeSig.ParseError
import TypeSig.Text.Blank
import TypeSig.Text.Occurrence

/-!
# Macros

A macro turns a text into an output. Macros form two chains, one for type tokens and one for whole
signatures; a chain gives each macro the text of the one before it, and stops at the first output
that is no text.
-/

namespace TypeSig

abbrev Macro := Text → MacroOutput

namespace Macro

def identity : Macro := .text

/-- Always the same output. -/
def always (o : MacroOutput) : Macro := fun _ => o

/-- Replaces the text `old`. -/
def exactly (old new : Text) : Macro := fun t => .text (if t = old then new else t)

/-- Replaces the text `old`, whatever blanks surround it. -/
def ofAlias (old new : Text) : Macro := fun t => .text (if t.trim = old then new else t)

/-- Replaces every occurrence of a non-empty `old`. -/
def replaceAll (old new : Text) : Macro := fun t => .text (Text.replaceAll old new t)

/-- Adds texts at the two ends. -/
def wrap (before after : Text) : Macro := fun t => .text (before ++ t ++ after)

/-- Gives an output for the texts in which `needle` occurs. -/
def whenContains (needle : Text) (o : MacroOutput) : Macro :=
  fun t => if Text.contains needle t then o else .text t

end Macro

/-- What the macros of a chain are applied to. -/
inductive Level where
  | typeToken
  | signature
  deriving DecidableEq, Repr

def Level.label : Level → String
  | typeToken => "type"
  | signature => "signature"

namespace Chain

/-- The text that a chain of macros makes of a text. -/
def apply (chain : List Macro) (t : Text) : Except ParseError Text :=
  chain.foldlM (fun t m => (m t).toText) t

@[simp] theorem apply_nil (t : Text) : apply [] t = .ok t := rfl

@[simp] theorem apply_cons (m : Macro) (ms : List Macro) (t : Text) :
    apply (m :: ms) t = (m t).toText >>= apply ms := rfl

theorem apply_append (ms ns : List Macro) (t : Text) :
    apply (ms ++ ns) t = apply ms t >>= apply ns :=
  List.foldlM_append

/-- A text that a macro changed, with the place of the macro in its chain. -/
structure Change where
  index : Nat
  old : Text
  new : Text
  deriving DecidableEq, Repr

/-- The changes that a chain makes before it ends or fails, when its first macro has the place
`index`. -/
def changes (index : Nat) : List Macro → Text → List Change
  | [], _ => []
  | m :: ms, t =>
    match (m t).toText with
    | .error _ => []
    | .ok u =>
      if u = t then changes (index + 1) ms u else ⟨index, t, u⟩ :: changes (index + 1) ms u

end Chain

/-- The registered macros, in the order of their registration. -/
structure Registry where
  typeLevel : List Macro := []
  signatureLevel : List Macro := []

namespace Registry

def chain (r : Registry) : Level → List Macro
  | .typeToken => r.typeLevel
  | .signature => r.signatureLevel

/-- Appends a macro to a chain. -/
def register (level : Level) (m : Macro) (r : Registry) : Registry :=
  match level with
  | .typeToken => { r with typeLevel := r.typeLevel ++ [m] }
  | .signature => { r with signatureLevel := r.signatureLevel ++ [m] }

theorem chain_register_self (level : Level) (m : Macro) (r : Registry) :
    (r.register level m).chain level = r.chain level ++ [m] := by
  cases level <;> rfl

theorem chain_register_of_ne {level level' : Level} (h : level' ≠ level) (m : Macro)
    (r : Registry) : (r.register level m).chain level' = r.chain level' := by
  cases level <;> cases level' <;> simp_all [chain, register]

def count (level : Level) (r : Registry) : Nat := (r.chain level).length

def apply (level : Level) (r : Registry) (t : Text) : Except ParseError Text :=
  Chain.apply (r.chain level) t

end Registry

end TypeSig
