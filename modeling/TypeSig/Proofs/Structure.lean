import TypeSig.Proofs.ErrorSpan

/-!
# What the text alone decides

The pieces of a text and their outlines decide whether a signature is read, with which error it is
refused otherwise, and how many types each stage has. A reader of type tokens that never fails has
no say in this: it only supplies the types (`parseWith_of_total`).

The errors keep apart. An outline is refused only for a malformed constraint, so an output is
missing exactly if one is required and there are fewer than two pieces
(`parseWith_eq_missingOutput_iff`).
-/

namespace TypeSig

/-! ## The kinds of errors -/

theorem Stage.exists_malformed_of_outline {t : Text} {e : ParseError} (h : outline t = .error e) :
    ∃ c found span, e = .malformedConstraint c found span := by
  obtain ⟨block, types, e', -, -, hb, rfl⟩ := outline_eq_error h
  obtain ⟨good, bad, rest, -, -, -, rfl⟩ := Constraint.parsePieces_eq_error hb
  exact ⟨_, _, _, rfl⟩

theorem Registry.typeOf_eq_error {r : Registry} {token : Text} {e : ParseError}
    (h : r.typeOf token = .error e) : ∃ value kind, e = .macroContract value kind := by
  rcases bind_eq_error.1 h with h | ⟨u, -, h⟩
  · exact Chain.apply_eq_error h
  · injection h

theorem Registry.typeOf_ne_missingOutput (r : Registry) (token : Text) :
    r.typeOf token ≠ .error .missingOutput := by
  intro h
  obtain ⟨value, kind, he⟩ := typeOf_eq_error h
  injection he

namespace Signature

variable {read : Text → Except ParseError TypeDescriptor} {requireOutput : Bool} {t : Text}
  {e : ParseError}

theorem readPiece_eq_error {p : Piece} (h : Stage.readPiece read p = .error e) :
    (∃ c found span, e = .malformedConstraint c found span) ∨ ∃ token, read token = .error e := by
  rcases bind_eq_error.1 h with h | ⟨o, -, h⟩
  · left
    rcases ho : Stage.outline p.text with e' | o
    · obtain ⟨c, found, span, rfl⟩ := Stage.exists_malformed_of_outline ho
      rw [ho] at h
      injection h with h
      exact ⟨_, _, _, h.symm⟩
    · rw [ho] at h
      injection h
  · right
    rcases bind_eq_error.1 h with h | ⟨types, -, h⟩
    · obtain ⟨-, token, -, -, -, he⟩ := mapM_eq_error_iff.1 h
      exact ⟨token, he⟩
    · injection h

theorem parseWith_eq_error (h : parseWith requireOutput read t = .error e) :
    (e = .missingOutput ∧ requireOutput = true ∧ (Piece.split (· == .arrow) t).length < 2)
      ∨ (∃ c found span, e = .malformedConstraint c found span)
      ∨ ∃ token, read token = .error e := by
  rcases parseWith_eq_error_iff.1 h with ⟨hr, hl, he⟩ | ⟨-, earlier, p, later, -, -, he⟩
  · exact .inl ⟨he, hr, hl⟩
  · exact .inr (readPiece_eq_error he)

theorem parseWith_eq_missingOutput_iff (hread : ∀ token, read token ≠ .error .missingOutput) :
    parseWith requireOutput read t = .error .missingOutput ↔
      requireOutput = true ∧ (Piece.split (· == .arrow) t).length < 2 := by
  constructor
  · intro h
    rcases parseWith_eq_error h with ⟨-, h⟩ | ⟨c, found, span, h⟩ | ⟨token, h⟩
    · exact h
    · injection h
    · exact absurd h (hread token)
  · rintro ⟨hr, hl⟩
    exact parseWith_eq_error_iff.2 (.inl ⟨hr, hl, rfl⟩)

end Signature

/-! ## Readers that never fail -/

/-- The stage whose types `f` makes of the tokens. -/
def Stage.Outline.withTypes (f : Text → TypeDescriptor) (o : Outline) : Stage :=
  ⟨o.tokens.map f, o.dependent⟩

namespace Signature

/-- The outlines of all stages, or the error of the first stage that has none. -/
def frame (requireOutput : Bool) (t : Text) : Except ParseError (List Stage.Outline) := do
  (← outlines requireOutput t).mapM id

/-- The number of types of each stage, and its constraints. -/
def shape (s : Signature) : List (Nat × Option (List Constraint)) :=
  s.stages.map fun stage => (stage.types.length, stage.dependent)

variable {read : Text → Except ParseError TypeDescriptor} {f : Text → TypeDescriptor}

theorem mapM_of_total (h : ∀ token, read token = .ok (f token)) (tokens : List Text) :
    tokens.mapM read = .ok (tokens.map f) := by
  rw [mapM_eq_ok_iff, List.forall₂_map_right_iff, List.forall₂_same]
  exact fun token _ => h token

theorem fill_of_total (h : ∀ token, read token = .ok (f token)) (o : Stage.Outline) :
    o.fill read = .ok (o.withTypes f) := by
  rw [Stage.Outline.fill, mapM_of_total h]
  rfl

theorem mapM_fill_of_total (h : ∀ token, read token = .ok (f token)) :
    ∀ outlines : List (Except ParseError Stage.Outline),
      (outlines.mapM fun o => o >>= fun o => o.fill read)
        = (outlines.mapM id).map fun os => os.map (Stage.Outline.withTypes f)
  | [] => rfl
  | .error e :: os => rfl
  | .ok o :: os => by
    rw [List.mapM_cons, List.mapM_cons, ok_bind, fill_of_total h, ok_bind, mapM_fill_of_total h os,
      id, ok_bind]
    rcases os.mapM id with e | os <;> rfl

theorem parseWith_of_total (h : ∀ token, read token = .ok (f token)) (requireOutput : Bool)
    (t : Text) : parseWith requireOutput read t
      = (frame requireOutput t).map fun os => ⟨os.map (Stage.Outline.withTypes f)⟩ := by
  simp only [parseWith, frame, fill, ofExcept_eq]
  rcases outlines requireOutput t with e | os
  · rfl
  · rw [ok_bind, ok_bind, mapM_fill_of_total h]
    rcases os.mapM id with e | os <;> rfl

theorem shape_withTypes (os : List Stage.Outline) :
    shape ⟨os.map (Stage.Outline.withTypes f)⟩
      = os.map fun o => (o.tokens.length, o.dependent) := by
  simp [shape, Stage.Outline.withTypes]

end Signature

end TypeSig
