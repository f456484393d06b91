import TypeSig.Proofs.Nesting
import TypeSig.Proofs.Scanning
import TypeSig.Proofs.Structure

/-!
# When an output stage is missing

A strict signature is refused for want of an output exactly if no arrow outside every clause is
followed by anything (`missing_output_iff`): there is no such arrow, or only one, which ends the
text.

What follows the arrow need not be an output, nor need the arrow be the last. A blank stage counts
as a stage, and so does the stage between two arrows, even if the text ends with the second
(`parse_of_dangling_arrow`).
-/

namespace TypeSig

namespace Piece

open Lexeme

variable {test : Symbol → Bool}

/-- The lexeme after `xs` is a cut, when the depth before them is `d`. -/
def IsCut (test : Symbol → Bool) (d : Nat) (xs : List Lexeme) (x : Lexeme) : Prop :=
  test x.symbol = true ∧ x.symbol.depth (depthAfter d xs) = 0

theorem isCut_cons {d : Nat} {x y : Lexeme} {xs : List Lexeme} :
    IsCut test d (x :: xs) y ↔ IsCut test (x.symbol.depth d) xs y := Iff.rfl

theorem cut_eq_nil {zs : List Lexeme} {d start : Nat} : cut test d start zs = [] ↔ zs = [] := by
  rcases zs with _ | ⟨z, zs⟩
  · simp [cut]
  · simp only [cut, reduceCtorEq, iff_false]
    split_ifs
    · simp
    · rcases cut test (z.symbol.depth d) (start + z.text.bytes) zs with _ | ⟨p, ps⟩ <;> simp [grow]

theorem length_grow_lt_two {start : Nat} {t : Text} {ps : List Piece} :
    (grow start t ps).length < 2 ↔ ps.length < 2 := by
  rcases ps with _ | ⟨p, ps⟩ <;> simp [grow]

/-- There are fewer than two pieces exactly if nothing follows a cut. -/
theorem length_cut_lt_two_iff : ∀ (zs : List Lexeme) (d start : Nat),
    (cut test d start zs).length < 2 ↔
      ∀ xs x ys, zs = xs ++ x :: ys → IsCut test d xs x → ys = []
  | [], d, start => by simp [cut]
  | z :: zs, d, start => by
    by_cases hz : test z.symbol = true ∧ z.symbol.depth d = 0
    · have hlen : (cut test d start (z :: zs)).length < 2 ↔ zs = [] := by
        simp only [cut, hz.1, hz.2, beq_self_eq_true, Bool.and_self, if_true, List.length_cons]
        rw [show ∀ n : Nat, n + 1 < 2 ↔ n = 0 by omega, List.length_eq_zero_iff, cut_eq_nil]
      rw [hlen]
      constructor
      · rintro rfl xs x ys h -
        rcases xs with _ | ⟨x', xs⟩ <;> simp_all
      · intro h
        exact h [] z zs rfl hz
    · have hcut : (test z.symbol && z.symbol.depth d == 0) = false := by simpa using hz
      have ih := length_cut_lt_two_iff zs (z.symbol.depth d) (start + z.text.bytes)
      simp only [cut, hcut, Bool.false_eq_true, if_false, length_grow_lt_two, ih]
      constructor
      · intro h xs x ys he hx
        rcases xs with _ | ⟨x', xs⟩
        · obtain ⟨rfl, -⟩ : z = x ∧ zs = ys := by simpa using he
          exact absurd hx hz
        · obtain ⟨rfl, rfl⟩ : z = x' ∧ zs = xs ++ x :: ys := by simpa using he
          exact h xs x ys rfl (isCut_cons.1 hx)
      · intro h xs x ys he hx
        exact h (z :: xs) x ys (by rw [he]; rfl) (isCut_cons.2 hx)

end Piece

namespace Signature

open Lexeme Piece

/-- The arrow `x` stands outside every clause of a text, between the lexemes `xs` and `ys`. -/
structure ArrowAt (t : Text) (xs : List Lexeme) (x : Lexeme) (ys : List Lexeme) : Prop where
  scan_eq : scan t = xs ++ x :: ys
  isArrow : x.symbol = .arrow
  outside : depthAfter 0 xs = 0

theorem isCut_arrow {d : Nat} {xs : List Lexeme} {x : Lexeme} :
    IsCut (· == .arrow) d xs x ↔ x.symbol = .arrow ∧ depthAfter d xs = 0 := by
  simp only [IsCut, beq_iff_eq]
  refine and_congr_right fun h => ?_
  rw [h]
  rfl

/-- An output is missing exactly if every arrow outside the clauses ends the text. So of a text that
is read, some such arrow is followed by something. -/
theorem missing_output_iff (t : Text) :
    (parse t = .error .missingOutput ↔ ∀ xs x ys, ArrowAt t xs x ys → ys = [])
      ∧ ∀ s, parse t = .ok s → ∃ xs x ys, ArrowAt t xs x ys ∧ ys ≠ [] := by
  have hiff : parse t = .error .missingOutput ↔ ∀ xs x ys, ArrowAt t xs x ys → ys = [] := by
    rw [parse, parseWith_eq_missingOutput_iff (fun _ h => by injection h), Piece.split,
      length_cut_lt_two_iff]
    simp only [isCut_arrow, true_and]
    constructor
    · exact fun h xs x ys hx => h xs x ys hx.scan_eq ⟨hx.isArrow, hx.outside⟩
    · exact fun h xs x ys ht hx => h xs x ys ⟨ht, hx.1, hx.2⟩
  refine ⟨hiff, fun s hs => ?_⟩
  by_contra hno
  have hmissing : parse t = .error .missingOutput := by
    refine hiff.2 fun xs x ys hx => ?_
    by_contra hys
    exact hno ⟨xs, x, ys, hx, hys⟩
  rw [hs] at hmissing
  injection hmissing

/-- The first arrow of `a<=>>=>` is inside a clause and the second ends the text, so its output is
missing; `a=>b` has one. -/
theorem missing_output_iff_clause_arrow :
    (parse ['a', '<', '=', '>', '>', '=', '>'] = .error .missingOutput
      ∧ ∀ xs x ys, ArrowAt ['a', '<', '=', '>', '>', '=', '>'] xs x ys → ys = [])
    ∧ ∃ xs x ys, ArrowAt ['a', '=', '>', 'b'] xs x ys ∧ ys ≠ [] := by
  have hmissing : parse ['a', '<', '=', '>', '>', '=', '>'] = .error .missingOutput := rfl
  exact ⟨⟨hmissing, (missing_output_iff _).1.1 hmissing⟩, (missing_output_iff _).2 _ rfl⟩

/-- Only a blank follows the last arrow of `int => `, and nothing at all that of `a=>b=>`; both are
read. -/
theorem parse_of_dangling_arrow :
    (∃ s xs x ys, parse ['i', 'n', 't', ' ', '=', '>', ' '] = .ok s
      ∧ ArrowAt ['i', 'n', 't', ' ', '=', '>', ' '] xs x ys ∧ Quiet (· == .arrow) 0 ys
      ∧ (source ys).AllBlank)
    ∧ ∃ s xs x, parse ['a', '=', '>', 'b', '=', '>'] = .ok s
      ∧ ArrowAt ['a', '=', '>', 'b', '=', '>'] xs x [] := by
  refine ⟨⟨_, [single 'i', single 'n', single 't', single ' '], ⟨.arrow, ['=', '>']⟩, [single ' '],
    rfl, ⟨by decide, rfl, rfl⟩, ?_, ?_⟩, ⟨_, [single 'a', ⟨.arrow, ['=', '>']⟩, single 'b'],
    ⟨.arrow, ['=', '>']⟩, rfl, ⟨by decide, rfl, rfl⟩⟩⟩
  · exact ⟨by decide, trivial⟩
  · exact Text.allBlank_space

end Signature

end TypeSig
