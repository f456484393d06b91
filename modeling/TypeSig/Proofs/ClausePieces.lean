import TypeSig.Proofs.Joining
import TypeSig.Proofs.Splitting

/-!
# Where the splitter cuts a nested clause

The subtypes of a type are read from the pieces of its outermost clause. If the angle brackets of
the type are paired, those of the clause are, and those of every piece, unless a separator inside a
nested clause follows a `::` with no clause open since (`paired_pieces_iff`). There the splitter
counts from zero again, as if the `::` ended a block of constraints, and cuts the nested clause in
two (`pieces_of_qualified_name`).

A piece is paired if it begins and ends outside every nested clause, so the question is whether the
splitter cuts inside one (`Parts.walk_iff`). It cuts where its own count is zero, and this is the
count of open clauses as long as every `::` stands outside them (`depthAfter_of_walk_outside`).
-/

namespace TypeSig

namespace Lexeme

def leftAngles (xs : List Lexeme) : Nat := xs.countP (·.symbol == .leftAngle)

def rightAngles (xs : List Lexeme) : Nat := xs.countP (·.symbol == .rightAngle)

/-- No part from the beginning has more right than left angle brackets, and the whole has as many of
the ones as of the others. -/
structure Paired (xs : List Lexeme) : Prop where
  prefixes : ∀ ys, ys <+: xs → rightAngles ys ≤ leftAngles ys
  totals : leftAngles xs = rightAngles xs

/-! ## Counting brackets -/

theorem leftAngles_cons (x : Lexeme) (xs : List Lexeme) :
    leftAngles (x :: xs) = leftAngles [x] + leftAngles xs := by
  simp [leftAngles, List.countP_cons, Nat.add_comm]

theorem rightAngles_cons (x : Lexeme) (xs : List Lexeme) :
    rightAngles (x :: xs) = rightAngles [x] + rightAngles xs := by
  simp [rightAngles, List.countP_cons, Nat.add_comm]

theorem nesting_add_rightAngles {x : Lexeme} {d : Nat} (h : ¬ (x.symbol = .rightAngle ∧ d = 0)) :
    x.symbol.nesting d + rightAngles [x] = d + leftAngles [x] := by
  cases hx : x.symbol <;> simp_all [leftAngles, rightAngles, Symbol.nesting]
  omega

theorem closes_iff {x : Lexeme} {d : Nat} :
    x.symbol = .rightAngle ∧ d = 0 ↔ d + leftAngles [x] < rightAngles [x] := by
  cases hx : x.symbol <;> simp [leftAngles, rightAngles, hx]

theorem walk_eq_some_iff {xs : List Lexeme} {d e : Nat} : walk d xs = some e ↔
    (∀ ys, ys <+: xs → rightAngles ys ≤ d + leftAngles ys)
      ∧ d + leftAngles xs = e + rightAngles xs := by
  induction xs generalizing d with
  | nil => simp [walk, leftAngles, rightAngles]
  | cons x xs ih =>
    rw [walk_cons_eq_some, ih, leftAngles_cons x xs, rightAngles_cons x xs]
    constructor
    · rintro ⟨hx, hpre, htotal⟩
      have hstep := nesting_add_rightAngles hx
      refine ⟨fun ys hys => ?_, by omega⟩
      rcases List.prefix_cons_iff.1 hys with rfl | ⟨ys, rfl, htail⟩
      · simp [rightAngles]
      · have := hpre ys htail
        rw [leftAngles_cons, rightAngles_cons]
        omega
    · rintro ⟨hpre, htotal⟩
      have hx : ¬ (x.symbol = .rightAngle ∧ d = 0) := by
        rw [closes_iff, Nat.not_lt]
        exact hpre [x] (by simp)
      have hstep := nesting_add_rightAngles hx
      refine ⟨hx, fun ys hys => ?_, by omega⟩
      have := hpre (x :: ys) (by simpa using hys)
      rw [leftAngles_cons, rightAngles_cons] at this
      omega

theorem paired_iff {xs : List Lexeme} : Paired xs ↔ walk 0 xs = some 0 := by
  rw [walk_eq_some_iff]
  simp only [Nat.zero_add]
  exact ⟨fun h => ⟨h.prefixes, h.totals⟩, fun h => ⟨h.1, h.2⟩⟩

/-! ## What surrounds the outermost clause -/

theorem walk_scan_blanks {w : Text} (hw : w.AllBlank) (d : Nat) : walk d (scan w) = some d :=
  walk_of_level (inert_of_allBlank hw).level d

/-- Blanks after a text leave its brackets, though a `%` at the end of it protects the first. -/
theorem walk_scan_append_blanks {w : Text} (hw : w.AllBlank) (t : Text) (d : Nat) :
    walk d (scan (t ++ w)) = walk d (scan t) := by
  rcases scan_append_blanks t hw with happ | ⟨xs, b, w', ht, rfl, happ⟩
  · rw [happ, walk_append]
    simp only [walk_scan_blanks hw, Option.bind_fun_some]
  · have hw' : Text.AllBlank w' := fun c hc => hw c (List.mem_cons_of_mem _ hc)
    rw [happ, ht, walk_append, walk_append]
    refine congrArg (walk d xs).bind (funext fun e => ?_)
    exact (walk_cons_of_isLevel rfl e _).trans (walk_scan_blanks hw' e)

theorem walk_scan_trim (t : Text) (d : Nat) : walk d (scan t.trim) = walk d (scan t) := by
  obtain ⟨v, w, hv, hw, hscan⟩ := scan_trim_append t
  rw [hscan, walk_append, walk_scan_blanks hv]
  exact (walk_scan_append_blanks hw _ d).symm

/-- Where lexemes are divided, each of them stands on one side. -/
theorem before_or_after {xs ys as bs : List Lexeme} {x : Lexeme} (h : xs ++ x :: ys = as ++ bs) :
    (∃ zs, as = xs ++ x :: zs ∧ ys = zs ++ bs) ∨ ∃ zs, xs = as ++ zs ∧ bs = zs ++ x :: ys := by
  rcases List.append_eq_append_iff.1 h with ⟨zs, has, hys⟩ | hafter
  · rcases zs with _ | ⟨z, zs⟩
    · exact .inr ⟨[], by simpa using has.symm, by simpa using hys.symm⟩
    · obtain ⟨rfl, rfl⟩ : x = z ∧ ys = zs ++ bs := by simpa using hys
      exact .inl ⟨zs, has, rfl⟩
  · exact .inr hafter

/-- The lexemes up to the first with a symbol, that one, and the others. -/
theorem first_of_dropWhile {s : Symbol} {x : Lexeme} {ys zs : List Lexeme}
    (h : zs.dropWhile (·.symbol != s) = x :: ys) :
    zs = zs.takeWhile (·.symbol != s) ++ x :: ys ∧ x.symbol = s
      ∧ ∀ y ∈ zs.takeWhile (·.symbol != s), y.symbol ≠ s := by
  refine ⟨?_, ?_, fun y hy => ?_⟩
  · rw [← h, List.takeWhile_append_dropWhile]
  · have := List.head?_dropWhile_not (·.symbol != s) zs
    rw [h] at this
    simpa using this
  · simpa using List.mem_takeWhile_imp hy

end Lexeme

open Lexeme

/-- A wrapper is a bracket at each end, with something between them and no right bracket there. -/
theorem Wrapper.inner?_eq_some_iff {t u : Text} : inner? t = some u ↔
    ∃ l r, scan t = l :: scan u ++ [r] ∧ l.symbol = .leftBracket ∧ r.symbol = .rightBracket
      ∧ u ≠ [] ∧ ∀ x ∈ scan u, x.symbol ≠ .rightBracket := by
  constructor
  · intro h
    unfold inner? at h
    split at h
    next text rest ht =>
      simp only at h
      split at h
      next r hr =>
        split_ifs at h with hempty
        injection h with h
        obtain ⟨hrest, hr, hinner⟩ := first_of_dropWhile hr
        have hscan : scan t = [⟨.leftBracket, text⟩]
            ++ rest.takeWhile (·.symbol != .rightBracket) ++ [r] := by
          rw [ht, List.append_assoc, ← hrest]
          rfl
        have hu : scan u = rest.takeWhile (·.symbol != .rightBracket) := by
          rw [← h, scan_slice hscan]
        refine ⟨⟨.leftBracket, text⟩, r, by rw [hu, hscan]; rfl, rfl, hr, ?_, by rwa [hu]⟩
        rintro rfl
        exact hempty (by rw [← hu]; rfl)
      · simp at h
    · simp at h
  · rintro ⟨⟨_, text⟩, r, ht, rfl, hr, hne, hu⟩
    have hu : ∀ x ∈ scan u, (x.symbol != .rightBracket) = true := fun x hx => by simpa using hu x hx
    have hr : (r.symbol != .rightBracket) = false := by simp [hr]
    unfold inner?
    rw [ht, List.cons_append]
    simp only [List.takeWhile_append_of_pos hu, List.dropWhile_append_of_pos hu]
    simp [hr, scan_ne_nil hne, source_scan]

theorem Wrapper.walk_inner {t u : Text} (h : inner? t = some u) (d : Nat) :
    walk d (scan u) = walk d (scan t) := by
  obtain ⟨l, r, ht, hl, hr, -⟩ := inner?_eq_some_iff.1 h
  have hlast : ∀ e, walk e [r] = some e := walk_of_level (by simp [hr, Symbol.isLevel])
  rw [ht, List.cons_append, walk_cons_of_isLevel (by simp [hl, Symbol.isLevel]), walk_append]
  simp only [hlast]
  cases walk d (scan u) <;> rfl

namespace Clause

theorem untilClosed_cons {x : Lexeme} {d : Nat} (h : ¬ (x.symbol = .rightAngle ∧ d = 0))
    (xs : List Lexeme) : untilClosed d (x :: xs) = x :: untilClosed (x.symbol.nesting d) xs := by
  obtain ⟨s, text⟩ := x
  rcases d with _ | d <;> cases s <;> first | rfl | simp at h

/-- The search ends before the first bracket that closes nothing, or passes over all lexemes. -/
theorem untilClosed_spec : ∀ (xs : List Lexeme) (d : Nat), ∃ e rest,
    xs = untilClosed d xs ++ rest ∧ walk d (untilClosed d xs) = some e
      ∧ (rest = [] ∨ e = 0 ∧ ∃ r rs, rest = r :: rs ∧ r.symbol = .rightAngle)
  | [], d => ⟨d, [], rfl, rfl, .inl rfl⟩
  | ⟨s, text⟩ :: xs, d => by
    by_cases hend : s = .rightAngle ∧ d = 0
    · obtain ⟨rfl, rfl⟩ := hend
      exact ⟨0, ⟨.rightAngle, text⟩ :: xs, rfl, rfl, .inr ⟨rfl, _, _, rfl, rfl⟩⟩
    · obtain ⟨e, rest, hxs, hwalk, hrest⟩ := untilClosed_spec xs (s.nesting d)
      rw [untilClosed_cons hend]
      refine ⟨e, rest, ?_, walk_cons_eq_some.2 ⟨hend, hwalk⟩, hrest⟩
      rw [List.cons_append, ← hxs]

theorem interior?_of_first {t : Text} {front after : List Lexeme} {l : Lexeme}
    (ht : scan t = front ++ l :: after) (hfront : ∀ x ∈ front, x.symbol ≠ .leftAngle)
    (hl : l.symbol = .leftAngle) : interior? t = some (source (untilClosed 0 after)) := by
  have hpass : ∀ x ∈ front, (x.symbol != .leftAngle) = true := by simpa using hfront
  unfold interior?
  rw [ht, List.dropWhile_append_of_pos hpass, List.dropWhile_cons_of_neg (by simp [hl])]

theorem exists_of_interior? {t u : Text} (h : interior? t = some u) : ∃ front l e rest,
    scan t = front ++ l :: (scan u ++ rest) ∧ (∀ x ∈ front, x.symbol ≠ .leftAngle)
      ∧ l.symbol = .leftAngle ∧ walk 0 (scan u) = some e
      ∧ (rest = [] ∨ e = 0 ∧ ∃ r rs, rest = r :: rs ∧ r.symbol = .rightAngle) := by
  unfold interior? at h
  split at h
  · simp at h
  next l rest hdrop =>
    injection h with h
    obtain ⟨ht, hl, hfront⟩ := first_of_dropWhile hdrop
    obtain ⟨e, tail, hrest, hwalk, htail⟩ := untilClosed_spec rest 0
    set front := (scan t).takeWhile (·.symbol != .leftAngle)
    have hscan : scan t = (front ++ [l]) ++ untilClosed 0 rest ++ tail := by
      rw [List.append_assoc, ← hrest, ht]
      simp
    have hu : scan u = untilClosed 0 rest := by rw [← h, scan_slice hscan]
    refine ⟨front, l, e, tail, ?_, hfront, hl, ?_, htail⟩
    · rw [hu, ← hrest]
      exact ht
    · rw [hu]
      exact hwalk

/-- In front of the clause no bracket opens, so none closes, and the clause is closed again. -/
theorem walk_interior {t u : Text} (h : interior? t = some u) (ht : walk 0 (scan t) = some 0) :
    walk 0 (scan u) = some 0 := by
  obtain ⟨front, l, e, rest, hscan, hfront, hl, hwalk, hrest⟩ := exists_of_interior? h
  rw [hscan] at ht
  obtain ⟨a, ha, hclause⟩ := exists_walk_of_append ht
  have hleft : leftAngles front = 0 := by
    rw [leftAngles, List.countP_eq_zero]
    simpa using hfront
  obtain rfl : a = 0 := by
    have := (walk_eq_some_iff.1 ha).2
    omega
  obtain ⟨-, hclause⟩ := walk_cons_eq_some.1 hclause
  rw [hl] at hclause
  rcases hrest with rfl | ⟨rfl, -⟩
  · rw [List.append_nil, Symbol.nesting, walk_succ hwalk] at hclause
    simp at hclause
  · exact hwalk

/-- The text of the outermost clause of a type. -/
def outermost? (t : Text) : Option Text := interior? ((Wrapper.inner? t.trim).getD t.trim)

/-- The pieces of the outermost clause, from which the subtypes are read. -/
def pieces (t : Text) : List Text :=
  (outermost? t).elim [] (Piece.splitTexts Symbol.separatesSubtypes)

theorem subtypes_eq (t : Text) : subtypes t = (pieces t).map fun p => normalize 0 (scan p) := by
  simp only [subtypes, pieces, outermost?]
  cases interior? ((Wrapper.inner? t.trim).getD t.trim) <;> rfl

theorem walk_outermost {t u : Text} (h : outermost? t = some u) (ht : walk 0 (scan t) = some 0) :
    walk 0 (scan u) = some 0 := by
  rw [← walk_scan_trim] at ht
  refine walk_interior h ?_
  cases hinner : Wrapper.inner? t.trim with
  | none => exact ht
  | some v => exact (Wrapper.walk_inner hinner 0).trans ht

theorem exists_walk_of_outermost {t u : Text} {xs ys : List Lexeme} (h : outermost? t = some u)
    (ht : Paired (scan t)) (hu : scan u = xs ++ ys) : ∃ e, walk 0 xs = some e := by
  have hwalk := walk_outermost h (paired_iff.1 ht)
  rw [hu] at hwalk
  obtain ⟨e, he, -⟩ := exists_walk_of_append hwalk
  exact ⟨e, he⟩

end Clause

/-! ## Cuts inside a clause -/

namespace Piece

variable {test : Symbol → Bool}

/-- A cut is the first one or a cut of what follows the first one. -/
theorem IsCut.first_or_later {xs ys as bs : List Lexeme} {x c : Lexeme} (hc : IsCut test 0 as c)
    (hq : Quiet test 0 xs) (hx : IsCut test 0 xs x) (h : xs ++ x :: ys = as ++ c :: bs) :
    as = xs ∨ ∃ as', as = xs ++ x :: as' ∧ ys = as' ++ c :: bs ∧ IsCut test 0 as' c := by
  rcases before_or_after h with ⟨zs, has, hys⟩ | ⟨zs, hxs, hbs⟩
  · refine .inr ⟨zs, has, hys, ?_⟩
    rwa [IsCut, has, depthAfter_append, depthAfter, List.foldl_cons, hx.2] at hc
  · rcases zs with _ | ⟨z, zs⟩
    · exact .inl (by rw [hxs, List.append_nil])
    · obtain ⟨rfl, -⟩ : c = z ∧ bs = zs ++ x :: ys := by simpa using hbs
      exact absurd hc (quiet_iff.1 hq as c zs hxs)

/-- Parts of paired lexemes are paired exactly if every cut stands outside every clause. -/
theorem Parts.walk_iff {zs : List Lexeme} {parts : List (List Lexeme)} (h : Parts test zs parts)
    (htest : ∀ s, test s = true → s.isLevel = true) (hz : walk 0 zs = some 0) :
    (∀ part ∈ parts, walk 0 part = some 0) ↔
      ∀ xs x ys, zs = xs ++ x :: ys → IsCut test 0 xs x → walk 0 xs = some 0 := by
  induction h with
  | nil => simp
  | @whole zs hq _ =>
    refine ⟨fun _ xs x ys hzs hx => ?_, fun _ part hp => ?_⟩
    · exact absurd hx (quiet_iff.1 hq xs x ys hzs)
    · rwa [List.mem_singleton.1 hp]
  | @cut xs ys x parts hq hx _ ih =>
    have hlevel := htest _ hx.1
    -- after a part that is paired, the count goes on from zero
    have hafter : walk 0 xs = some 0 → ∀ as, walk 0 (xs ++ x :: as) = walk 0 as := by
      intro hxs as
      rw [walk_append, hxs]
      exact walk_cons_of_isLevel hlevel 0 as
    rw [List.forall_mem_cons]
    constructor
    · rintro ⟨hxs, hparts⟩ as c bs hzs hc
      rcases hc.first_or_later hq hx hzs with rfl | ⟨as', rfl, hys, hc'⟩
      · exact hxs
      · rw [hafter hxs] at hz ⊢
        exact (ih hz).1 hparts as' c bs hys hc'
    · intro hcuts
      have hxs : walk 0 xs = some 0 := hcuts xs x ys rfl hx
      rw [hafter hxs] at hz
      refine ⟨hxs, (ih hz).2 fun as c bs hys hc => ?_⟩
      rw [← hafter hxs]
      refine hcuts (xs ++ x :: as) c bs (by rw [hys]; simp) ?_
      rwa [IsCut, depthAfter_append, depthAfter, List.foldl_cons, hx.2]

end Piece

namespace Clause

open Piece

theorem isLevel_of_separatesSubtypes (s : Symbol) (h : s.separatesSubtypes = true) :
    s.isLevel = true := by
  cases s <;> first | rfl | simp [Symbol.separatesSubtypes] at h

theorem isCut_separator {xs : List Lexeme} {x : Lexeme} : IsCut Symbol.separatesSubtypes 0 xs x ↔
    x.symbol.separatesSubtypes = true ∧ depthAfter 0 xs = 0 := by
  refine and_congr_right fun h => ?_
  cases hx : x.symbol <;> simp_all [Symbol.separatesSubtypes, Symbol.depth, Symbol.nesting]

theorem pieces_of_parts {t u : Text} {parts : List (List Lexeme)} (hu : outermost? t = some u)
    (h : Parts Symbol.separatesSubtypes (scan u) parts) : pieces t = parts.map source := by
  rw [pieces, hu, ← h.map_text 0]
  rfl

theorem paired_pieces_iff_cuts {t : Text} (ht : Paired (scan t)) :
    (∀ p ∈ pieces t, Paired (scan p)) ↔ ∀ u, outermost? t = some u →
      ∀ xs x ys, scan u = xs ++ x :: ys → x.symbol.separatesSubtypes = true →
        depthAfter 0 xs = 0 → Paired xs := by
  rcases hu : outermost? t with _ | u
  · simp [pieces, hu]
  · obtain ⟨parts, hparts⟩ := exists_parts Symbol.separatesSubtypes (scan u)
    have hwalk := hparts.walk_iff isLevel_of_separatesSubtypes (walk_outermost hu (paired_iff.1 ht))
    simp only [isCut_separator, and_imp] at hwalk
    simp only [pieces_of_parts hu hparts, List.forall_mem_map, paired_iff, Option.some.injEq,
      forall_eq', ← hwalk]
    exact forall₂_congr fun part hpart => by rw [hparts.scan_source hpart]

/-- The pieces of a paired type are paired, except where a separator inside a nested clause follows
a `::` and no clause is open since. In particular they are if every `::` of the outermost clause
stands outside the nested ones. -/
theorem paired_pieces_iff (t : Text) (ht : Paired (scan t)) :
    subtypes t = (pieces t).map (fun p => normalize 0 (scan p))
      ∧ ((∀ p ∈ pieces t, Paired (scan p)) ↔
        ∀ u, outermost? t = some u → ∀ as c bs x ys, scan u = as ++ c :: bs ++ x :: ys →
          c.symbol = .doubleColon → x.symbol.separatesSubtypes = true → depthAfter 0 bs = 0 →
            Paired (as ++ c :: bs))
      ∧ ((∀ u, outermost? t = some u → ∀ as c bs, scan u = as ++ c :: bs →
          c.symbol = .doubleColon → Paired as) → ∀ p ∈ pieces t, Paired (scan p)) := by
  refine ⟨subtypes_eq t, ?_, fun hout => ?_⟩
  · rw [paired_pieces_iff_cuts ht]
    constructor
    · intro h u hu as c bs x ys hscan hc hx hdepth
      exact h u hu _ x ys hscan hx ((depthAfter_doubleColon hc 0 as bs).trans hdepth)
    · intro h u hu xs x ys hscan hx hdepth
      by_cases hcolon : ∃ c ∈ xs, c.symbol = .doubleColon
      · obtain ⟨c, hmem, hc⟩ := hcolon
        obtain ⟨as, bs, rfl⟩ := List.append_of_mem hmem
        rw [depthAfter_doubleColon hc] at hdepth
        exact h u hu as c bs x ys hscan hc hx hdepth
      · obtain ⟨e, he⟩ := exists_walk_of_outermost hu ht hscan
        push Not at hcolon
        rw [paired_iff, he, ← depthAfter_of_walk he hcolon, hdepth]
  · rw [paired_pieces_iff_cuts ht]
    intro u hu xs x ys hscan hx hdepth
    obtain ⟨e, he⟩ := exists_walk_of_outermost hu ht hscan
    have hcount : depthAfter 0 xs = e := by
      refine depthAfter_of_walk_outside he fun as c bs hxs hc => ?_
      rw [hxs, List.append_assoc, List.cons_append] at hscan
      exact paired_iff.1 (hout u hu as c _ hscan hc)
    rw [paired_iff, he, ← hcount, hdepth]

/-- The nested clause of `a<b<c;d>;e>` stays whole. That of `a<b<c::d;e>>` does not, because the
separator follows the `::` inside it. -/
theorem paired_pieces_iff_qualified_name :
    (∀ p ∈ pieces ['a', '<', 'b', '<', 'c', ';', 'd', '>', ';', 'e', '>'], Paired (scan p))
      ∧ ¬ ∀ p ∈ pieces ['a', '<', 'b', '<', 'c', ':', ':', 'd', ';', 'e', '>', '>'],
        Paired (scan p) := by
  refine ⟨(paired_pieces_iff _ (paired_iff.2 (by decide))).2.2 ?_, fun h => ?_⟩
  · intro u hu as c bs hscan hc
    obtain rfl : ['b', '<', 'c', ';', 'd', '>', ';', 'e'] = u := by
      rw [← Option.some.injEq, ← hu]
      decide
    have hno : ∀ x ∈ scan ['b', '<', 'c', ';', 'd', '>', ';', 'e'], x.symbol ≠ .doubleColon := by
      decide
    exact absurd hc (hno c (by rw [hscan]; simp))
  · have hcut := ((paired_pieces_iff _ (paired_iff.2 (by decide))).2.1.1 h)
      ['b', '<', 'c', ':', ':', 'd', ';', 'e', '>'] (by decide)
      [single 'b', single '<', single 'c'] ⟨.doubleColon, [':', ':']⟩ [single 'd'] (single ';')
      [single 'e', single '>'] (by decide) rfl rfl rfl
    exact absurd (paired_iff.1 hcut) (by decide)

/-- The type `a<b<c::d;e>>` is paired, but its one subtype `b<c::d;e>` is read as the two unpaired
ones `b<c::d` and `e>`. -/
theorem pieces_of_qualified_name :
    Paired (scan ['a', '<', 'b', '<', 'c', ':', ':', 'd', ';', 'e', '>', '>'])
      ∧ pieces ['a', '<', 'b', '<', 'c', ':', ':', 'd', ';', 'e', '>', '>']
        = [['b', '<', 'c', ':', ':', 'd'], ['e', '>']]
      ∧ subtypes ['a', '<', 'b', '<', 'c', ':', ':', 'd', ';', 'e', '>', '>']
        = [['b', '<', 'c', ':', ':', 'd'], ['e', '>']]
      ∧ ¬ Paired (scan ['b', '<', 'c', ':', ':', 'd']) ∧ ¬ Paired (scan ['e', '>']) := by
  simp only [paired_iff]
  decide

end Clause

end TypeSig
