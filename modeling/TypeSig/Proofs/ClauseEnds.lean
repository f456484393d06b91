import TypeSig.Proofs.ClausePieces
import TypeSig.Proofs.Tiling

/-!
# Where a clause ends

The clause of a text begins after the first left angle bracket and ends at its partner: at the first
right one that brings the count of open clauses back to zero, or at the end of the text if there is
none (`interior?_iff_encloses`). The count is never taken below zero, because the search ends where
it comes to zero (`search?_succ`).

What the search passes over is told by `walk`, the strict count. It does not end inside the clause,
so each part of the clause from its beginning has at least as many left brackets as right ones
(`walk_eq_some_iff`). Hence a bracket that closes the clause stands behind all of it
(`prefix_of_closesAfter`), and the first lexeme behind it is one, if there is any at all.
-/

namespace TypeSig

open Lexeme

namespace Clause

/-- The search for the end of a clause, with a count of the clauses that are open, its own among
them. There is no result if a bracket would take the count below zero. -/
def search? : Nat → List Lexeme → Option (List Lexeme)
  | _, [] => some []
  | n, x :: xs =>
    if x.symbol = .rightAngle ∧ n = 0 then none
    else if x.symbol = .rightAngle ∧ n = 1 then some []
    else (search? (x.symbol.nesting n) xs).map (x :: ·)

/-- Among the lexemes behind the bracket that opens a clause, `zs` is followed by a right angle
bracket that leaves no clause open: with it, as many are closed as were opened, the first one
included. -/
def ClosesAfter (xs zs : List Lexeme) : Prop :=
  ∃ r ys, xs = zs ++ r :: ys ∧ r.symbol = .rightAngle
    ∧ 1 + leftAngles (zs ++ [r]) = rightAngles (zs ++ [r])

/-- The byte at which the last lexemes of a text begin. -/
def startOf (t : Text) (rest : List (Lexeme × Span)) : Nat := rest.head?.elim t.bytes (·.2.start)

/-- The first of the lexemes is a right angle bracket. -/
def BeginsClosed (rest : List (Lexeme × Span)) : Prop := ∃ r ∈ rest.head?, r.1.symbol = .rightAngle

/-- The lexemes behind the bracket that opens a clause with the text `u`. -/
def behind (u : Text) (rest : List (Lexeme × Span)) : List Lexeme := scan u ++ rest.map Prod.fst

/-- The text `u` stands in `t` between the first left angle bracket `l` and its partner, or the end
of the text; `rest` are the lexemes from there on. -/
structure Encloses (t u : Text) (front : List (Lexeme × Span)) (l : Lexeme × Span)
    (rest : List (Lexeme × Span)) : Prop where
  /-- The lexemes of `u` are lexemes of `t`, from the byte behind the bracket on. -/
  spans : withSpans 0 (scan t) = front ++ l :: (moved l.2.stop (withSpans 0 (scan u)) ++ rest)
  covers : t.Covers ⟨l.2.stop, startOf t rest⟩ u
  first : ∀ x ∈ front, x.1.symbol ≠ .leftAngle
  opens : l.1.symbol = .leftAngle
  prefixes : ∀ ys, ys <+: scan u → rightAngles ys ≤ leftAngles ys
  closed_iff : BeginsClosed rest ↔ ∃ zs, ClosesAfter (behind u rest) zs
  totals : BeginsClosed rest → leftAngles (scan u) = rightAngles (scan u)
  /-- No other bracket that leaves no clause open stands before the partner. -/
  shortest : ∀ zs, ClosesAfter (behind u rest) zs → scan u <+: zs
  unclosed : (¬ ∃ zs, ClosesAfter (behind u rest) zs) → rest = []

/-- The count is one more than that of the clauses open inside, so it is never zero. -/
theorem search?_succ : ∀ (xs : List Lexeme) (d : Nat), search? (d + 1) xs = some (untilClosed d xs)
  | [], _ => rfl
  | x :: xs, d => by
    rw [search?, if_neg (by simp)]
    by_cases hend : x.symbol = .rightAngle ∧ d = 0
    · obtain ⟨hx, rfl⟩ := hend
      simp [untilClosed, hx]
    · rw [if_neg (by simpa using hend), Symbol.nesting_succ hend, search?_succ xs,
        untilClosed_cons hend]
      rfl

/-! ## The bracket that closes the clause -/

section Brackets

variable {xs zs rest : List Lexeme} {e : Nat}

theorem prefix_of_closesAfter (hwalk : walk 0 xs = some e) (h : ClosesAfter (xs ++ rest) zs) :
    xs <+: zs := by
  obtain ⟨r, ys, hxs, -, hcount⟩ := h
  rcases before_or_after hxs.symm with ⟨ws, hws, -⟩ | ⟨ws, hzs, -⟩
  · -- up to a bracket inside, no more clauses are closed than opened there
    have hpre := (walk_eq_some_iff.1 hwalk).1 (zs ++ [r]) ⟨ws, by simp [hws]⟩
    omega
  · exact ⟨ws, hzs.symm⟩

theorem ne_nil_of_closesAfter (hwalk : walk 0 xs = some e) (h : ClosesAfter (xs ++ rest) zs) :
    rest ≠ [] := by
  rintro rfl
  have hlong := (prefix_of_closesAfter hwalk h).length_le
  obtain ⟨r, ys, hxs, -⟩ := h
  have hshort := congrArg List.length hxs
  simp only [List.append_nil, List.length_append, List.length_cons] at hshort
  omega

theorem closesAfter_of_walk {r : Lexeme} (hwalk : walk 0 xs = some 0) (hr : r.symbol = .rightAngle)
    (ys : List Lexeme) : ClosesAfter (xs ++ r :: ys) xs := by
  have htotal := (walk_eq_some_iff.1 hwalk).2
  have hleft : leftAngles (xs ++ [r]) = leftAngles xs := by simp [leftAngles, hr]
  have hright : rightAngles (xs ++ [r]) = rightAngles xs + 1 := by simp [rightAngles, hr]
  exact ⟨r, ys, rfl, hr, by omega⟩

theorem exists_closesAfter_iff (hwalk : walk 0 xs = some e)
    (hrest : rest = [] ∨ e = 0 ∧ ∃ r rs, rest = r :: rs ∧ r.symbol = .rightAngle) :
    (∃ zs, ClosesAfter (xs ++ rest) zs) ↔ rest ≠ [] := by
  constructor
  · rintro ⟨zs, h⟩
    exact ne_nil_of_closesAfter hwalk h
  · intro hne
    obtain ⟨rfl, r, rs, rfl, hr⟩ := hrest.resolve_left hne
    exact ⟨xs, closesAfter_of_walk hwalk hr rs⟩

end Brackets

/-! ## The bytes of a clause -/

section Bytes

variable {t u : Text} {front rest : List Lexeme} {l : Lexeme}

theorem withSpans_of_scan (ht : scan t = front ++ l :: (scan u ++ rest)) :
    withSpans 0 (scan t) = withSpans 0 front
      ++ (l, ⟨(source front).bytes, (source (front ++ [l])).bytes⟩)
        :: (moved (source (front ++ [l])).bytes (withSpans 0 (scan u))
          ++ withSpans ((source (front ++ [l])).bytes + u.bytes) rest) := by
  have hstop : (source front).bytes + l.text.bytes = (source (front ++ [l])).bytes := by simp
  rw [ht, withSpans_append, Nat.zero_add, withSpans, hstop, withSpans_append, source_scan,
    ← withSpans_add, Nat.zero_add]

theorem covers_of_scan (ht : scan t = front ++ l :: (scan u ++ rest)) :
    t.Covers ⟨(source (front ++ [l])).bytes,
      startOf t (withSpans ((source (front ++ [l])).bytes + u.bytes) rest)⟩ u := by
  have hsource : t = source (front ++ [l]) ++ u ++ source rest := by
    rw [← source_scan t, ht]
    simp [source_scan]
  refine Text.covers_of_eq hsource rfl ?_
  rcases rest with _ | ⟨r, rs⟩
  · simp [startOf, withSpans, hsource, Nat.add_assoc]
  · rfl

theorem beginsClosed_withSpans {n : Nat}
    (hrest : rest = [] ∨ ∃ r rs, rest = r :: rs ∧ r.symbol = .rightAngle) :
    BeginsClosed (withSpans n rest) ↔ rest ≠ [] := by
  rcases hrest with rfl | ⟨r, rs, rfl, hr⟩
  · simp [BeginsClosed, withSpans]
  · simp [BeginsClosed, withSpans, hr]

end Bytes

/-! ## The clause that is found -/

variable {t u : Text} {front rest : List (Lexeme × Span)} {l : Lexeme × Span}

theorem encloses_of_interior? (h : interior? t = some u) :
    ∃ front l rest, Encloses t u front l rest := by
  obtain ⟨front, l, e, rest, ht, hfront, hl, hwalk, hrest⟩ := exists_of_interior? h
  have hexists := exists_closesAfter_iff hwalk hrest
  set start := (source (front ++ [l])).bytes
  have hbehind : behind u (withSpans (start + u.bytes) rest) = scan u ++ rest := by
    rw [behind, map_fst_withSpans]
  have hclosed : BeginsClosed (withSpans (start + u.bytes) rest) ↔ rest ≠ [] :=
    beginsClosed_withSpans (hrest.imp_right And.right)
  refine ⟨withSpans 0 front, (l, ⟨(source front).bytes, start⟩), withSpans (start + u.bytes) rest,
    ⟨withSpans_of_scan ht, covers_of_scan ht, fun x hx => hfront x.1 ?_, hl, ?_, ?_, ?_, ?_, ?_⟩⟩
  · rw [← map_fst_withSpans front 0]
    exact List.mem_map_of_mem hx
  · simpa using (walk_eq_some_iff.1 hwalk).1
  · rw [hclosed, hbehind, hexists]
  · rw [hclosed]
    intro hne
    obtain ⟨rfl, -⟩ := hrest.resolve_left hne
    exact (paired_iff.2 hwalk).totals
  · rw [hbehind]
    exact fun zs => prefix_of_closesAfter hwalk
  · rw [hbehind, hexists, not_not]
    rintro rfl
    rfl

theorem Encloses.scan_eq (h : Encloses t u front l rest) :
    scan t = front.map Prod.fst ++ l.1 :: behind u rest := by
  have hlex := congrArg (List.map Prod.fst) h.spans
  simpa [map_fst_withSpans, map_fst_moved, behind] using hlex

/-- The brackets alone decide where the search ends. -/
theorem Encloses.untilClosed_eq (h : Encloses t u front l rest) :
    untilClosed 0 (behind u rest) = scan u := by
  by_cases hrest : rest = []
  · obtain ⟨e, he⟩ := Nat.exists_eq_add_of_le' (h.prefixes (scan u) List.prefix_rfl)
    have hwalk : walk 0 (scan u) = some e :=
      walk_eq_some_iff.2 ⟨by simpa using h.prefixes, by simpa using he⟩
    rw [behind, untilClosed_append hwalk, hrest]
    simp [untilClosed]
  · have hclosed : BeginsClosed rest := by
      rw [h.closed_iff]
      by_contra hno
      exact hrest (h.unclosed hno)
    have hwalk : walk 0 (scan u) = some 0 := paired_iff.1 ⟨h.prefixes, h.totals hclosed⟩
    obtain ⟨r, hr, hsymbol⟩ := hclosed
    obtain ⟨rs, rfl⟩ := List.head?_eq_some_iff.1 hr
    rw [behind, untilClosed_append hwalk]
    simp [untilClosed, hsymbol]

theorem Encloses.interior?_eq (h : Encloses t u front l rest) : interior? t = some u := by
  have hfront : ∀ x ∈ front.map Prod.fst, x.symbol ≠ .leftAngle := by
    simpa only [List.forall_mem_map] using h.first
  rw [interior?_of_first h.scan_eq hfront h.opens, h.untilClosed_eq, source_scan]

theorem isSome_interior?_iff : (interior? t).isSome ↔ ∃ x ∈ scan t, x.symbol = .leftAngle := by
  constructor
  · intro h
    obtain ⟨u, hu⟩ := Option.isSome_iff_exists.1 h
    obtain ⟨front, l, e, rest, ht, -, hl, -⟩ := exists_of_interior? hu
    exact ⟨l, by simp [ht], hl⟩
  · rintro ⟨x, hx, hsymbol⟩
    unfold interior?
    split
    next hdrop =>
      have := List.dropWhile_eq_nil_iff.1 hdrop x hx
      simp [hsymbol] at this
    next => rfl

/-- A text has a clause exactly if it has a left angle bracket that is not escaped. The clause is
what stands between the first one and its partner, and the count of open clauses that finds it is
never taken below zero. -/
theorem interior?_iff_encloses (t : Text) :
    ((interior? t).isSome ↔ ∃ x ∈ scan t, x.symbol = .leftAngle)
      ∧ (∀ u, interior? t = some u ↔ ∃ front l rest, Encloses t u front l rest)
      ∧ ∀ xs, search? 1 xs = some (untilClosed 0 xs) := by
  refine ⟨isSome_interior?_iff, fun u => ⟨encloses_of_interior?, ?_⟩, fun xs => search?_succ xs 0⟩
  rintro ⟨front, l, rest, h⟩
  exact h.interior?_eq

/-- Neither the escaped bracket of `>a<%>b<=>c>d>e>` nor that of the arrow closes anything. -/
example : interior? ['>', 'a', '<', '%', '>', 'b', '<', '=', '>', 'c', '>', 'd', '>', 'e', '>']
    = some ['%', '>', 'b', '<', '=', '>', 'c', '>', 'd'] := by
  decide

end Clause

end TypeSig
