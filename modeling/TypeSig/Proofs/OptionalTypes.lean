import TypeSig.Proofs.ClausePieces
import TypeSig.Proofs.DescriptorForm

/-!
# Optional types

A type is optional exactly if the text after its name is a text in square brackets that `Fills`
them: there is something, no right bracket, and no `%` at the end, which would protect the last
bracket (`optional_iff_fills`). The brackets change the flag and nothing else.

The brackets are taken off in three ways, to find the flag, the base and the clause. All three agree
because a text that fills brackets is read inside them as it is read alone (`Fills.scan_enclosed`).
-/

namespace TypeSig

open Lexeme

namespace Wrapper

/-- A text that a pair of square brackets can enclose. -/
structure Fills (t : Text) : Prop where
  ne_nil : t ≠ []
  symbols : ∀ x ∈ scan t, x.symbol ≠ .rightBracket
  last_ne : (scan t).getLast? ≠ some (single '%')

def enclosed (t : Text) : Text := '[' :: t ++ [']']

variable {t u : Text}

theorem Fills.scan_enclosed (h : Fills t) :
    scan (enclosed t) = single '[' :: scan t ++ [single ']'] := by
  have hopen : Complete ['['] := complete_singleton (by decide) (by decide) (by decide)
  have hclose : scan (t ++ [']']) = scan t ++ scan [']'] := by
    refine scan_append fun x hx => ⟨?_, by simp, by simp⟩
    rintro rfl
    exact h.last_ne hx
  have := hopen (t ++ [']'])
  rw [hclose, scan_singleton, scan_singleton] at this
  exact this

theorem inner?_eq_some_iff_fills : inner? u = some t ↔ Fills t ∧ u = enclosed t := by
  rw [inner?_eq_some_iff]
  constructor
  · rintro ⟨l, r, hu, hl, hr, hne, hin⟩
    have hltext : l.text = ['['] := text_of_spelling (t := u) (by simp [hu]) (by rw [hl]; rfl)
    have hrtext : r.text = [']'] := text_of_spelling (t := u) (by simp [hu]) (by rw [hr]; rfl)
    refine ⟨⟨hne, hin, fun hlast => ?_⟩, ?_⟩
    · -- a `%` that protects nothing is the last lexeme, but the bracket comes after it
      have hpair := pairwise_scan u
      rw [hu, List.pairwise_append] at hpair
      have hmem : single '%' ∈ l :: scan t := List.mem_cons_of_mem _ (List.mem_of_getLast? hlast)
      exact hpair.2.2 _ hmem r List.mem_cons_self rfl
    · rw [← source_scan u, hu]
      simp [enclosed, hltext, hrtext, source_scan]
  · rintro ⟨h, rfl⟩
    exact ⟨single '[', single ']', h.scan_enclosed, rfl, rfl, h.ne_nil, h.symbols⟩

theorem Fills.inner?_enclosed (h : Fills t) : inner? (enclosed t) = some t :=
  inner?_eq_some_iff_fills.2 ⟨h, rfl⟩

theorem Fills.inner?_eq_none (h : Fills t) : inner? t = none := by
  rw [Option.eq_none_iff_forall_ne_some]
  intro u hu
  obtain ⟨l, r, ht, -, hr, -⟩ := inner?_eq_some_iff.1 hu
  exact h.symbols r (by simp [ht]) hr

theorem trimmed_enclosed (t : Text) : (enclosed t).Trimmed := by
  refine ⟨fun c hc => ?_, fun c hc => ?_⟩
  · obtain rfl : '[' = c := by simpa [enclosed] using hc
    decide
  · rw [enclosed, List.getLast?_concat] at hc
    obtain rfl : ']' = c := by simpa using hc
    decide

end Wrapper

namespace TypeDescriptor

open Wrapper

variable {t : Text}

/-- The text after the name of a token and its colon; the whole token if it has no name. -/
def AfterName (token rest : Text) : Prop :=
  (∃ xs x ys, NameAt token xs x ys ∧ rest = source ys)
    ∨ (¬ ∃ xs x ys, NameAt token xs x ys) ∧ rest = token

theorem NameAt.splitName_eq {token : Text} {x : Lexeme} {xs ys : List Lexeme}
    (h : NameAt token xs x ys) : splitName token = (some (source xs).trim, source ys) := by
  have hmem : x ∈ scan token := by simp [h.scan_eq]
  have hx : x = single ':' := by
    have htext := text_of_spelling hmem (by rw [h.isColon]; rfl)
    rcases x with ⟨s, text⟩
    rw [show s = .colon from h.isColon, show text = [':'] from htext]
    rfl
  have hscan : scan token = (xs ++ [x]) ++ ys := by simp [h.scan_eq]
  obtain ⟨hxs, -⟩ := scan_source_of_append h.scan_eq
  obtain ⟨-, hys⟩ := scan_source_of_append hscan
  refine splitName_of_scan ?_ (fun y hy => ?_) h.name_ne_nil h.rest_ne_nil
  · rw [hxs, hys, ← hx, h.scan_eq]
  · rw [hxs] at hy
    simpa [inName] using h.first y hy

theorem afterName_iff {token rest : Text} : AfterName token rest ↔ rest = (splitName token).2 := by
  constructor
  · rintro (⟨xs, x, ys, h, rfl⟩ | ⟨hno, rfl⟩)
    · rw [h.splitName_eq]
    · rcases splitName_cases rest with hsplit | ⟨xs, x, ys, h, -⟩
      · rw [hsplit]
      · exact absurd ⟨xs, x, ys, h⟩ hno
  · rintro rfl
    by_cases hname : ∃ xs x ys, NameAt token xs x ys
    · obtain ⟨xs, x, ys, h⟩ := hname
      exact .inl ⟨xs, x, ys, h, by rw [h.splitName_eq]⟩
    · rcases splitName_cases token with hsplit | ⟨xs, x, ys, h, -⟩
      · exact .inr ⟨hname, by rw [hsplit]⟩
      · exact absurd ⟨xs, x, ys, h⟩ hname

theorem parse_eq (token : Text) : parse token =
    ⟨(splitName token).1, baseOf (splitName token).2.trim, Clause.subtypes (splitName token).2.trim,
      (inner? (splitName token).2.trim).isSome⟩ := by
  unfold parse
  rcases splitName token with ⟨name, rest⟩
  rfl

/-! ## A type in brackets -/

theorem splitName_of_no_colon (h : ∀ x ∈ beforeClause t, x.symbol ≠ .colon) :
    splitName t = (none, t) := by
  refine (splitName_cases t).resolve_right ?_
  rintro ⟨xs, x, ys, hname, -⟩
  refine h x ?_ hname.isColon
  have hxs : ∀ y ∈ xs, (y.symbol != .leftAngle) = true :=
    fun y hy => by simpa using (hname.first y hy).2
  rw [beforeClause, hname.scan_eq, List.takeWhile_append_of_pos hxs,
    List.takeWhile_cons_of_pos (by simp [hname.isColon])]
  simp

/-- The last bracket stands before the clause only if there is none. -/
theorem beforeClause_enclosed (h : Fills t) : ∃ zs, (zs = [] ∨ zs = [single ']'])
    ∧ beforeClause (enclosed t) = single '[' :: (beforeClause t ++ zs) := by
  simp only [beforeClause, h.scan_enclosed, List.cons_append]
  rw [List.takeWhile_cons_of_pos (by rfl), List.takeWhile_append]
  split_ifs with hall
  · refine ⟨[single ']'], .inr rfl, ?_⟩
    rw [(List.takeWhile_prefix _).eq_of_length hall]
    rfl
  · exact ⟨[], .inl rfl, by rw [List.append_nil]⟩

theorem baseOf_enclosed (h : Fills t) : baseOf (enclosed t) = baseOf t := by
  obtain ⟨zs, hzs, hbefore⟩ := beforeClause_enclosed h
  have hbase : ∀ u : Text, baseOf u
    = (source ((beforeClause u).filter fun x => !isBracket x.symbol)).trim := fun _ => rfl
  rw [hbase, hbase, hbefore]
  rcases hzs with rfl | rfl <;> simp [isBracket, single, Symbol.ofChar]

theorem subtypes_enclosed (h : Fills t) (ht : t.Trimmed) :
    Clause.subtypes (enclosed t) = Clause.subtypes t := by
  simp only [Clause.subtypes, (trimmed_enclosed t).trim_eq, ht.trim_eq, h.inner?_enclosed,
    h.inner?_eq_none, Option.getD_some, Option.getD_none]

theorem parse_enclosed (h : Fills t) (ht : t.Trimmed)
    (hcolon : ∀ x ∈ beforeClause t, x.symbol ≠ .colon) :
    parse (enclosed t) = { parse t with optional := true } := by
  have hcolon' : ∀ x ∈ beforeClause (enclosed t), x.symbol ≠ .colon := by
    obtain ⟨zs, hzs, hbefore⟩ := beforeClause_enclosed h
    rw [hbefore]
    simp only [List.mem_cons, List.mem_append]
    rintro x (rfl | hx | hx)
    · decide
    · exact hcolon x hx
    · rcases hzs with rfl | rfl
      · simp at hx
      · rw [List.mem_singleton.1 hx]
        decide
  simp only [parse_eq, splitName_of_no_colon hcolon, splitName_of_no_colon hcolon',
    (trimmed_enclosed t).trim_eq, ht.trim_eq, baseOf_enclosed h, subtypes_enclosed h ht,
    h.inner?_enclosed, Option.isSome_some]

/-- A type is optional exactly if a text in brackets is left of its token after the name, and to put
a type without a name in brackets makes it optional and changes nothing else. -/
theorem optional_iff_fills :
    (∀ token, (parse token).optional = true ↔
      ∃ rest t, AfterName token rest ∧ Fills t ∧ rest.trim = enclosed t)
    ∧ ∀ t, Fills t → t.Trimmed → (∀ x ∈ beforeClause t, x.symbol ≠ .colon) →
      parse (enclosed t) = { parse t with optional := true } := by
  refine ⟨fun token => ?_, fun t => parse_enclosed⟩
  simp only [afterName_iff, exists_and_left, exists_eq_left, ← inner?_eq_some_iff_fills, parse_eq]
  exact Option.isSome_iff_exists

/-- Of `n:[[a%]<b:c]` the inner left bracket, the escaped right one and the open clause all stand in
the wrapper. Without the name, the descriptor is that of `[a%]<b:c` but for the flag. -/
theorem optional_iff_fills_open_clause :
    (parse ['n', ':', '[', '[', 'a', '%', ']', '<', 'b', ':', 'c', ']']).optional = true
      ∧ parse ['[', '[', 'a', '%', ']', '<', 'b', ':', 'c', ']']
        = ⟨none, ['a', '%', ']'], [['b', ':', 'c']], true⟩ := by
  have hfills : Fills ['[', 'a', '%', ']', '<', 'b', ':', 'c'] :=
    ⟨by simp, by decide, by decide⟩
  obtain ⟨hiff, hparse⟩ := optional_iff_fills
  refine ⟨(hiff _).2 ⟨_, _, afterName_iff.2 rfl, hfills, rfl⟩, ?_⟩
  exact (hparse _ hfills (Text.trimmed_trim ['[', 'a', '%', ']', '<', 'b', ':', 'c'])
    (by decide)).trans rfl

end TypeDescriptor

end TypeSig
