import TypeSig.Proofs.Structure

/-!
# Strict and lenient parsers

A parser that requires an output and one that does not, with the same macros, differ in one way
only: where there are fewer than two stages, the strict one finds the output missing, and the lenient
one reads on (`strict_and_lenient`). The strict parser looks at the number of stages before it reads
any of them, so there it hides whatever the lenient one finds. What the two parsers kept from earlier
readings has no influence, because each answers as a reader without memory (`result_of_run`).
-/

namespace TypeSig

namespace Signature

variable {read : Text → Except ParseError TypeDescriptor} {t : Text}

theorem parseWith_strict_eq (h : 2 ≤ (Piece.split (· == .arrow) t).length) :
    parseWith true read t = parseWith false read t := by
  have hfew : ¬ (true && decide ((Piece.split (· == .arrow) t).length < 2)) = true := by
    simp only [Bool.true_and, decide_eq_true_eq]
    omega
  rw [parseWith_eq, parseWith_eq, if_neg hfew, if_neg (by simp)]

end Signature

namespace Registry

theorem signatureOf_eq_error {r : Registry} {t : Text} {e : ParseError}
    (h : Chain.apply r.signatureLevel t = .error e) (requireOutput : Bool) :
    r.signatureOf requireOutput t = .error e := by
  rw [signatureOf, h]
  rfl

theorem signatureOf_eq {r : Registry} {t u : Text} (h : Chain.apply r.signatureLevel t = .ok u)
    (requireOutput : Bool) :
    r.signatureOf requireOutput t = Signature.parseWith requireOutput r.typeOf u := by
  rw [signatureOf, h]
  rfl

theorem signatureOf_lenient_ne (r : Registry) (t : Text) :
    r.signatureOf false t ≠ .error .missingOutput := by
  intro h
  rcases bind_eq_error.1 h with h | ⟨u, -, h⟩
  · obtain ⟨value, kind, he⟩ := Chain.apply_eq_error h
    injection he
  · have := (Signature.parseWith_eq_missingOutput_iff r.typeOf_ne_missingOutput).1 h
    simp at this

end Registry

namespace Parser

theorem result_of_run {options : Options} {ops : List Operation} {p : Parser}
    (hp : p = ((new options).run ops).2) (t : Text) :
    (p.parseSignature t).1 = p.rules.macros.signatureOf options.requireOutput t := by
  obtain ⟨-, hrules, hsound⟩ := run_spec ops (sound_new options)
  rw [← hp] at hrules hsound
  rw [parseSignature, (read_spec hsound (Rules.yields_parseSignature t)).1, hrules]
  rfl

/-- A strict and a lenient parser with the same macros fail alike in their macros, and answer alike
where there are two stages or more, whatever was asked of each of them before. Otherwise the strict
one finds the output missing, and the lenient one never does. -/
theorem strict_and_lenient (memoize memoize' : Bool) (ops ops' : List Operation) (p q : Parser)
    (hp : p = ((new ⟨true, memoize⟩).run ops).2) (hq : q = ((new ⟨false, memoize'⟩).run ops').2)
    (hmacros : q.rules.macros = p.rules.macros) (t : Text) :
    (∀ e, Chain.apply p.rules.macros.signatureLevel t = .error e →
      (p.parseSignature t).1 = .error e ∧ (q.parseSignature t).1 = .error e)
    ∧ (∀ u, Chain.apply p.rules.macros.signatureLevel t = .ok u →
      ((Piece.split (· == .arrow) u).length < 2 →
        (p.parseSignature t).1 = .error .missingOutput) ∧
      (2 ≤ (Piece.split (· == .arrow) u).length →
        (p.parseSignature t).1 = (q.parseSignature t).1))
    ∧ (q.parseSignature t).1 ≠ .error .missingOutput := by
  rw [result_of_run hp, result_of_run hq, hmacros]
  refine ⟨fun e he => ?_, fun u hu => ⟨fun hfew => ?_, fun hmany => ?_⟩, ?_⟩
  · exact ⟨Registry.signatureOf_eq_error he true, Registry.signatureOf_eq_error he false⟩
  · rw [Registry.signatureOf_eq hu]
    exact Signature.parseWith_eq_error_iff.2 (.inl ⟨rfl, hfew, rfl⟩)
  · rw [Registry.signatureOf_eq hu, Registry.signatureOf_eq hu]
    exact Signature.parseWith_strict_eq hmany
  · exact Registry.signatureOf_lenient_ne _ t

/-- A macro writes `f` for `a=>b`. The strict parser has kept `f` and the lenient one `a`; they
agree about `f`, and differ about `a`. -/
theorem strict_and_lenient_kept : ∃ p q : Parser,
    p = ((new ⟨true, true⟩).run [.register .signature (Macro.exactly ['f'] ['a', '=', '>', 'b']),
        .parseSignature ['f']]).2
      ∧ q = ((new ⟨false, true⟩).run
        [.register .signature (Macro.exactly ['f'] ['a', '=', '>', 'b']), .parseSignature ['a']]).2
      ∧ (p.parseSignature ['f']).1 = (q.parseSignature ['f']).1
      ∧ (p.parseSignature ['a']).1 = .error .missingOutput
      ∧ (q.parseSignature ['a']).1 ≠ .error .missingOutput := by
  let m := Macro.exactly ['f'] ['a', '=', '>', 'b']
  let p := ((new ⟨true, true⟩).run [.register .signature m, .parseSignature ['f']]).2
  let q := ((new ⟨false, true⟩).run [.register .signature m, .parseSignature ['a']]).2
  have h := strict_and_lenient true true _ _ p q rfl rfl rfl
  refine ⟨p, q, rfl, rfl, ?_, ?_, ?_⟩
  · exact ((h ['f']).2.1 ['a', '=', '>', 'b'] rfl).2 (by decide)
  · exact ((h ['a']).2.1 ['a'] rfl).1 (by decide)
  · exact (h ['a']).2.2

end Parser

end TypeSig
