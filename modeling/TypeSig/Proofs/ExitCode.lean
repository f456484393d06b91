import TypeSig.CommandLine.Run
import TypeSig.Proofs.Arguments
import TypeSig.Proofs.ErrorRegion
import TypeSig.Proofs.TypeMacros

/-!
# The exit code of the command

The exit code tells a caller how the input was read: zero if it was, 202 if its output is missing,
and 203 if a constraint is malformed. Aliases have no say in it, since they always give a text and
are applied to type tokens only, and a single type is always read (`Invocation.run_contract`).

An alias can change the length of a token, but the span of a malformed constraint counts the bytes
of the input as it was given. So the region that the report marks is the constraint
(`Text.Covers.locate`, `Text.Covers.charSpan?`).

Every invocation can be asked for: `Invocation.arguments` lists arguments that are read as it.
-/

namespace TypeSig

namespace CommandLine

/-- The exit code for a result. -/
def exitOf {α : Type} : Except ParseError α → Nat
  | .ok _ => 0
  | .error e => e.exitCode

/-! ## The parser of an invocation -/

namespace Alias

def rewrite (a : Alias) : Macro := .ofAlias a.old a.new

/-- The parser after an alias. -/
def addTo (a : Alias) (p : Parser) : Parser :=
  (p.note (.registeringAlias a.old a.new)).register .typeToken a.rewrite

theorem addTo_spec {p : Parser} (hp : p.Sound) (a : Alias) : (a.addTo p).Sound ∧ (a.addTo p).rules
    = ⟨p.rules.options, { p.rules.macros with
      typeLevel := p.rules.macros.typeLevel ++ [a.rewrite] }⟩ := by
  obtain ⟨-, -, hs⟩ := Parser.perform_spec (p := p.note (.registeringAlias a.old a.new)) hp
    (.register .typeToken a.rewrite)
  exact ⟨hs, rfl⟩

theorem foldl_addTo_spec : ∀ (aliases : List Alias) {p : Parser}, p.Sound →
    (aliases.foldl (fun p a => a.addTo p) p).Sound
      ∧ (aliases.foldl (fun p a => a.addTo p) p).rules
        = ⟨p.rules.options, { p.rules.macros with
          typeLevel := p.rules.macros.typeLevel ++ aliases.map rewrite }⟩
  | [], p, hp => ⟨hp, by simp⟩
  | a :: aliases, p, hp => by
    obtain ⟨hs, hrules⟩ := addTo_spec hp a
    obtain ⟨hs', hrules'⟩ := foldl_addTo_spec aliases hs
    refine ⟨hs', hrules'.trans ?_⟩
    rw [hrules]
    simp

end Alias

namespace Invocation

variable {i : Invocation}

theorem parser_spec (i : Invocation) : i.parser.Sound ∧ i.parser.rules
    = ⟨{ requireOutput := !i.lenient }, { typeLevel := i.aliases.map Alias.rewrite }⟩ :=
  Alias.foldl_addTo_spec i.aliases (Parser.sound_new _)

theorem exists_typeOf (i : Invocation) : ∃ f : Text → TypeDescriptor, ∀ token,
    i.parser.rules.macros.typeOf token = .ok (f token) := by
  apply Registry.exists_typeOf
  rw [i.parser_spec.2]
  intro m hm t
  obtain ⟨a, -, rfl⟩ := List.mem_map.1 hm
  exact ⟨_, rfl⟩

/-! ## What is read -/

/-- The signature that the input is without aliases. -/
def structural (i : Invocation) : Except ParseError Signature :=
  Signature.parseWith (!i.lenient) (fun token => .ok (.parse token)) i.input

theorem read_of_typeOnly (h : i.typeOnly = true) : ∃ text, i.read.1 = .ok text := by
  obtain ⟨f, hf⟩ := i.exists_typeOf
  have hresult : (i.parser.parseType i.input).1 = .ok (f i.input) := by
    rw [Parser.parseType, (Parser.read_spec i.parser_spec.1 (Rules.yields_parseType i.input)).1, hf]
  exact ⟨i.renderType (f i.input), by simp [read, h, hresult, Except.map]⟩

/-- With and without aliases the input is refused for the same error, or not at all. -/
theorem read_of_not_typeOnly (h : i.typeOnly = false) :
    (∃ e, i.structural = .error e ∧ i.read.1 = .error e)
      ∨ ∃ s text, i.structural = .ok s ∧ i.read.1 = .ok text := by
  obtain ⟨f, hf⟩ := i.exists_typeOf
  have hresult : (i.parser.parseSignature i.input).1
      = Signature.parseWith (!i.lenient) i.parser.rules.macros.typeOf i.input := by
    rw [Parser.result_of_sound (u := i.input) i.parser_spec.1 (by rw [i.parser_spec.2]; rfl),
      i.parser_spec.2]
  rcases Signature.same_shape_of_total hf (fun _ => rfl) (!i.lenient) i.input with
    ⟨e, he, he'⟩ | ⟨s, s', hs, hs', -⟩
  · refine .inl ⟨e, he', ?_⟩
    simp [read, h, hresult, he]
  · refine .inr ⟨s', i.renderSignature s, hs', ?_⟩
    simp [read, h, hresult, hs]

theorem structural_eq_error {e : ParseError} (h : i.structural = .error e) :
    (e = .missingOutput ∧ i.lenient = false)
      ∨ ∃ c found span, e = .malformedConstraint c found span := by
  rcases Signature.parseWith_eq_error h with ⟨he, hr, -⟩ | he | ⟨token, he⟩
  · exact .inl ⟨he, by simpa using hr⟩
  · exact .inr he
  · injection he

/-! ## The exit code -/

theorem run_exit (i : Invocation) : i.run.exit = exitOf i.read.1 := by
  rw [run]
  rcases i.read with ⟨_ | _, _⟩ <;> rfl

theorem exit_of_typeOnly (h : i.typeOnly = true) : i.run.exit = 0 := by
  obtain ⟨text, htext⟩ := read_of_typeOnly h
  rw [run_exit, htext, exitOf]

theorem exit_of_not_typeOnly (h : i.typeOnly = false) : i.run.exit = exitOf i.structural := by
  rw [run_exit]
  rcases read_of_not_typeOnly h with ⟨e, he, he'⟩ | ⟨s, text, hs, htext⟩
  · rw [he, he']
    rfl
  · rw [hs, htext]
    rfl

/-- What a caller of the command can rely on. -/
structure Contract (i : Invocation) (o : Outcome) : Prop where
  codes : o.exit = 0 ∨ o.exit = 202 ∨ o.exit = 203
  typeOnly : i.typeOnly = true → o.exit = 0
  signature : i.typeOnly = false → o.exit = exitOf i.structural
  aliases : i.typeOnly = false → o.exit = { i with aliases := [] }.run.exit
  lenient : i.lenient = true → o.exit ≠ 202
  /-- The error of a malformed constraint is the one without aliases, and the region of the input
  that it is about holds the constraint. -/
  region : o.exit = 203 → ∃ c found span, i.read.1 = .error (.malformedConstraint c found span)
    ∧ i.structural = .error (.malformedConstraint c found span)
    ∧ Signature.FirstMalformed Stage.parse i.input c found span
    ∧ (c ≠ [] → (ParseError.malformedConstraint c found span).locate i.input = some span
      ∧ ∃ region, i.input.charSpan? span = some region ∧ i.input.between region = c)

theorem run_cases (i : Invocation) : i.run.exit = 0 ∨ (i.run.exit = 202 ∧ i.lenient = false)
    ∨ (i.run.exit = 203 ∧ ∃ c found span, i.read.1 = .error (.malformedConstraint c found span)
      ∧ i.structural = .error (.malformedConstraint c found span)) := by
  rcases h : i.typeOnly with _ | _
  · rw [exit_of_not_typeOnly h]
    rcases read_of_not_typeOnly h with ⟨e, he, he'⟩ | ⟨s, text, hs, -⟩
    · rcases structural_eq_error he with ⟨rfl, hl⟩ | ⟨c, found, span, rfl⟩
      · exact .inr (.inl ⟨by rw [he]; rfl, hl⟩)
      · exact .inr (.inr ⟨by rw [he]; rfl, c, found, span, he', he⟩)
    · exact .inl (by rw [hs]; rfl)
  · exact .inl (exit_of_typeOnly h)

theorem run_contract (i : Invocation) : i.Contract i.run where
  codes := i.run_cases.imp id (Or.imp And.left And.left)
  typeOnly := exit_of_typeOnly
  signature := exit_of_not_typeOnly
  aliases h := (exit_of_not_typeOnly h).trans
    (exit_of_not_typeOnly (i := { i with aliases := [] }) h).symm
  lenient hl := by
    rcases i.run_cases with h | ⟨-, hl'⟩ | ⟨h, -⟩
    · omega
    · simp [hl] at hl'
    · omega
  region h203 := by
    rcases i.run_cases with h | ⟨h, -⟩ | ⟨-, c, found, span, hread, hs⟩
    · omega
    · omega
    · have hfirst : Signature.FirstMalformed Stage.parse i.input c found span :=
        Signature.firstMalformed_of_parseWith (fun _ _ _ _ h => by injection h) hs
      exact ⟨c, found, span, hread, hs, hfirst,
        fun hc => ⟨hfirst.covers.locate hc found, hfirst.covers.charSpan?⟩⟩

end Invocation

/-- Whatever arguments are accepted, the run keeps the contract of what they ask for, and every
invocation whose aliases can be written is asked for by some arguments. -/
theorem contract_of_arguments :
    (∀ arguments i, Request.ofArguments arguments = .ok (.invoke i) → i.Contract (run arguments))
      ∧ ∀ (i : Invocation) (raws : List Text),
        List.Forall₂ (fun raw a => Alias.ofText? raw = some a) raws i.aliases →
        Request.ofArguments (i.arguments raws) = .ok (.invoke i) := by
  refine ⟨fun arguments i h => ?_, fun i raws => Request.ofArguments_arguments⟩
  have hrun : run arguments = i.run := by
    rw [run, h]
    rfl
  rw [hrun]
  exact i.run_contract

/-- With an alias for `é`, the input `é=>é b ::é` is refused for the constraint `é b`. -/
theorem contract_of_arguments_two_words : ∃ i : Invocation,
    i = { input := "é=>é b ::é".toList, aliases := [⟨['é'], "int".toList⟩] }
      ∧ Request.ofArguments (i.arguments ["é= int".toList]) = .ok (.invoke i)
      ∧ (run (i.arguments ["é= int".toList])).exit = 203
      ∧ (run (i.arguments ["é= int".toList])).exit = { i with aliases := [] }.run.exit
      ∧ ∃ span region, (ParseError.malformedConstraint "é b".toList 2 span).locate i.input
          = some span
        ∧ i.input.charSpan? span = some region ∧ i.input.between region = "é b".toList := by
  let i : Invocation := { input := "é=>é b ::é".toList, aliases := [⟨['é'], "int".toList⟩] }
  have harguments : Request.ofArguments (i.arguments ["é= int".toList]) = .ok (.invoke i) :=
    contract_of_arguments.2 i ["é= int".toList] (.cons rfl .nil)
  have hcontract := contract_of_arguments.1 _ _ harguments
  have hs : i.structural = .error (.malformedConstraint "é b".toList 2 ⟨4, 8⟩) := by rfl
  have hexit : (run (i.arguments ["é= int".toList])).exit = 203 := by
    rw [hcontract.signature rfl, hs]
    rfl
  obtain ⟨c, found, span, -, hs', -, hregion⟩ := hcontract.region hexit
  rw [hs] at hs'
  injection hs' with hs'
  injection hs' with hc hfound hspan
  subst hc hfound hspan
  obtain ⟨hlocate, region, hspan, hbetween⟩ := hregion (by decide)
  exact ⟨i, rfl, harguments, hexit, hcontract.aliases rfl, _, region, hlocate, hspan, hbetween⟩

end CommandLine

end TypeSig
