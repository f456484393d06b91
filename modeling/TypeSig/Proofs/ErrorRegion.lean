import TypeSig.Proofs.ErrorSpan
import TypeSig.Report

/-!
# The region that a report marks

An error tells a span of bytes, and a report marks characters. An error need not come from reading
the source that it is reported with, so its span may be anything: empty, reversed, too long, or with
an end inside a character. An error is only located if its span is a non-empty part of the source
with its ends on boundaries, and then the marked characters are those bytes (`region_of_error`).
-/

namespace TypeSig

namespace Text

/-- The bytes of the UTF-8 form. -/
def utf8 (t : Text) : List UInt8 := t.flatMap String.utf8EncodeChar

/-- A character begins at byte `n`, or the text ends there. -/
def IsBoundary (t : Text) (n : Nat) : Prop := ∃ a b, t = a ++ b ∧ a.bytes = n

/-- The characters of a range. -/
def between (t : Text) (region : Span) : Text :=
  (t.drop region.start).take (region.stop - region.start)

/-- The region of characters is the span of bytes, and it is not empty. -/
structure Marks (t : Text) (span region : Span) : Prop where
  nonempty : region.start < region.stop
  inside : region.stop ≤ t.length
  before : (utf8 (t.take region.start)).length = span.start
  marked : (t.between region).utf8 = (t.utf8.drop span.start).take (span.stop - span.start)

variable {t c : Text} {span : Span}

@[simp] theorem utf8_append (a b : Text) : utf8 (a ++ b) = utf8 a ++ utf8 b := List.flatMap_append

@[simp] theorem length_utf8 (t : Text) : t.utf8.length = t.bytes := by
  induction t with
  | nil => rfl
  | cons c t ih =>
    rw [utf8, List.flatMap_cons, List.length_append, String.length_utf8EncodeChar, bytes_cons, ← ih]
    rfl

theorem bytes_pos (h : c ≠ []) : 0 < c.bytes := by
  obtain ⟨x, c, rfl⟩ := List.exists_cons_of_ne_nil h
  have := x.utf8Size_pos
  rw [bytes_cons]
  omega

theorem isSome_cutAt?_iff {n : Nat} : (t.cutAt? n).isSome = true ↔ t.IsBoundary n := by
  rw [Option.isSome_iff_exists, Prod.exists]
  exact exists₂_congr fun a b => cutAt?_eq_some_iff

instance (t : Text) (n : Nat) : Decidable (t.IsBoundary n) := decidable_of_iff _ isSome_cutAt?_iff

theorem exists_of_slice? {before : Text} (h : t.slice? span = some (before, c)) :
    ∃ after, t = before ++ c ++ after ∧ before.bytes = span.start
      ∧ c.bytes = span.stop - span.start := by
  simp only [slice?, Option.bind_eq_bind, Option.bind_eq_some_iff, Option.pure_def,
    Option.some.injEq, Prod.mk.injEq, Prod.exists] at h
  obtain ⟨_, rest, hbefore, _, after, hc, rfl, rfl⟩ := h
  obtain ⟨rfl, hstart⟩ := cutAt?_eq_some_iff.1 hbefore
  obtain ⟨rfl, hbytes⟩ := cutAt?_eq_some_iff.1 hc
  exact ⟨after, by rw [List.append_assoc], hstart, hbytes⟩

theorem Covers.charSpan? (h : t.Covers span c) :
    ∃ region, t.charSpan? span = some region ∧ t.between region = c := by
  obtain ⟨before, hslice⟩ := h.slice
  obtain ⟨after, ht, -⟩ := exists_of_slice? hslice
  refine ⟨⟨before.length, before.length + c.length⟩, by rw [Text.charSpan?, hslice]; rfl, ?_⟩
  simp [between, ht]

theorem Covers.marks (h : t.Covers span c) (hc : c ≠ []) {region : Span}
    (hregion : t.charSpan? span = some region) : t.Marks span region := by
  obtain ⟨before, hslice⟩ := h.slice
  obtain ⟨after, ht, hbefore, hbytes⟩ := exists_of_slice? hslice
  obtain rfl : ⟨before.length, before.length + c.length⟩ = region := by
    simpa [Text.charSpan?, hslice] using hregion
  have hpos := List.length_pos_of_ne_nil hc
  refine ⟨by simpa using hpos, by simp [ht], by simp [ht, hbefore], ?_⟩
  have hdrop : t.utf8.drop span.start = c.utf8 ++ after.utf8 := by
    rw [ht, utf8_append, utf8_append, List.append_assoc, ← hbefore, ← length_utf8, List.drop_left]
  have hbetween : t.between ⟨before.length, before.length + c.length⟩ = c := by simp [between, ht]
  rw [hdrop, hbetween, ← hbytes, ← length_utf8, List.take_left]

theorem Covers.locate (h : t.Covers span c) (hc : c ≠ []) (found : Nat) :
    (ParseError.malformedConstraint c found span).locate t = some span := by
  obtain ⟨before, hslice⟩ := h.slice
  obtain ⟨-, -, -, hbytes⟩ := exists_of_slice? hslice
  -- an empty span is never located, so the constraint must have a byte
  have hlt : span.start < span.stop := by
    have := bytes_pos hc
    omega
  simp [ParseError.locate, hlt, h.start_boundary, h.stop_boundary]

/-- A part of the text ends at each of two boundaries; the first part begins the second. -/
theorem exists_covers (hlt : span.start < span.stop) (hstart : t.IsBoundary span.start)
    (hstop : t.IsBoundary span.stop) : ∃ c, c ≠ [] ∧ t.Covers span c := by
  obtain ⟨a, r, ht, ha⟩ := hstart
  obtain ⟨p, q, ht', hp⟩ := hstop
  have hpre : a <+: p := by
    refine (List.prefix_or_prefix_of_prefix ⟨r, ht.symm⟩ ⟨q, ht'.symm⟩).resolve_right ?_
    rintro ⟨s, rfl⟩
    rw [bytes_append] at ha
    omega
  obtain ⟨c, rfl⟩ := hpre
  rw [bytes_append] at hp
  refine ⟨c, ?_, covers_of_eq ht' ha.symm (by omega)⟩
  rintro rfl
  simp at hp
  omega

end Text

namespace ParseError

open Text

variable {source : Text} {e : ParseError} {span : Span}

theorem locate_malformedConstraint (c : Text) (found : Nat) :
    (malformedConstraint c found span).locate source
      = if span.start < span.stop ∧ source.IsBoundary span.start ∧ source.IsBoundary span.stop
        then some span else none := by
  simp only [locate, Bool.and_eq_true, decide_eq_true_eq, isSome_cutAt?_iff, and_assoc]

theorem exists_covers_of_locate (h : e.locate source = some span) :
    ∃ c, c ≠ [] ∧ source.Covers span c := by
  cases e with
  | macroContract => simp [locate] at h
  | missingOutput =>
    simp only [locate, List.isEmpty_iff] at h
    split_ifs at h with hne
    obtain rfl : ⟨0, source.bytes⟩ = span := by simpa using h
    exact ⟨source, hne, covers_of_eq (a := []) (b := []) (by simp) rfl (by simp)⟩
  | malformedConstraint c found span' =>
    rw [locate_malformedConstraint] at h
    split_ifs at h with hspan
    obtain rfl : span' = span := by simpa using h
    exact exists_covers hspan.1 hspan.2.1 hspan.2.2

/-- Whatever an error says, what is located is a non-empty part of the source that ends on
boundaries, and the region of the report is that part. A malformed constraint is not located
exactly if its span is no such part. -/
theorem region_of_error (source : Text) (e : ParseError) :
    (∀ span, e.locate source = some span →
      span.start < span.stop ∧ span.stop ≤ source.utf8.length
        ∧ source.IsBoundary span.start ∧ source.IsBoundary span.stop
        ∧ ∃ region, source.charSpan? span = some region ∧ Report.region? source e = some region
          ∧ source.Marks span region)
    ∧ (e.locate source = none → Report.region? source e = none)
    ∧ ∀ c found span, e = malformedConstraint c found span →
      (e.locate source = none ↔ span.stop ≤ span.start ∨ ¬ source.IsBoundary span.start
        ∨ ¬ source.IsBoundary span.stop) := by
  refine ⟨fun span h => ?_, fun h => ?_, ?_⟩
  · obtain ⟨c, hc, hcovers⟩ := exists_covers_of_locate h
    obtain ⟨before, hslice⟩ := hcovers.slice
    obtain ⟨-, -, -, hbytes⟩ := exists_of_slice? hslice
    obtain ⟨region, hregion, -⟩ := hcovers.charSpan?
    have hpos := bytes_pos hc
    refine ⟨by omega, ?_, isSome_cutAt?_iff.1 hcovers.start_boundary,
      isSome_cutAt?_iff.1 hcovers.stop_boundary, region, hregion, ?_, hcovers.marks hc hregion⟩
    · rw [length_utf8]
      exact hcovers.inside
    · rw [Report.region?, h]
      exact hregion
  · rw [Report.region?, h]
    rfl
  · rintro c found span rfl
    rw [locate_malformedConstraint]
    simp only [ite_eq_right_iff, reduceCtorEq, imp_false, not_and_or, Nat.not_lt]

/-- The `é` of `aé` is marked by its two bytes, and not by the second of them alone. -/
theorem region_of_error_two_bytes :
    Text.Marks ['a', 'é'] ⟨1, 3⟩ ⟨1, 2⟩
      ∧ ¬ Text.IsBoundary ['a', 'é'] 2 := by
  have hlocate : (malformedConstraint ['é'] 1 ⟨1, 3⟩).locate ['a', 'é'] = some ⟨1, 3⟩ := by decide
  obtain ⟨-, -, -, -, region, hregion, -, hmarks⟩ := (region_of_error _ _).1 _ hlocate
  obtain rfl : ⟨1, 2⟩ = region := by
    rw [← Option.some.injEq, ← hregion]
    decide
  refine ⟨hmarks, ?_⟩
  have hnone : (malformedConstraint ['é'] 1 ⟨1, 2⟩).locate ['a', 'é'] = none := by decide
  rcases ((region_of_error _ _).2.2 _ _ _ rfl).1 hnone with h | h | h
  · exact absurd h (by decide)
  · exact absurd (isSome_cutAt?_iff.1 (by decide)) h
  · exact h

end ParseError

end TypeSig
