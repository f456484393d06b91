import TypeSig.Proofs.ClausePieces

/-!
# Blanks between the subtypes of a clause

A blank at the top level of the outermost clause does not count: it can stand next to a bracket of
the clause, next to a separator or anywhere between two lexemes of a subtype, and the subtypes are
the same. There is one exception (`subtypes_blank_iff`). A separator in front of the end of the
clause has no subtype after it, but a blank between the two is read as a subtype with an empty text,
and so is a blank in a clause that holds nothing else.

The exception is due to the order in which a clause is read: it is cut first, and a last piece
without any lexeme is dropped there, but the blanks of a piece are dropped afterwards. So the proof
follows the blank through the trimming of the text (`Inside.trim`), the wrapper and the search for
the end of the clause (`Inside.exists_interior?`) to the parts of the clause, where the blank joins
a part that is there already or makes one of its own (`Parts.insert_blank`).
-/

namespace TypeSig

namespace Lexeme

theorem scan_insert_blank {x y : Text} {w : Char} (h : scan (x ++ y) = scan x ++ scan y)
    (hy : y ≠ []) (hw : Text.isBlank w = true) :
    scan (x ++ w :: y) = scan x ++ single w :: scan y := by
  have hone := Text.allBlank_singleton hw
  have hapart : Apart x (w :: y) := by
    intro z hz
    -- `x` does not end with a bare `%`, which would protect the first character of `y`
    have hpair := pairwise_scan (x ++ y)
    rw [h, List.pairwise_append] at hpair
    obtain ⟨r, hr⟩ := List.exists_mem_of_ne_nil _ (scan_ne_nil hy)
    refine ⟨hpair.2.2 z (List.mem_of_getLast? hz) r hr, fun _ => ?_, fun _ => ?_⟩
    · exact head?_ne_of_allBlank hone rfl
    · exact head?_ne_of_allBlank hone rfl
  rw [scan_append hapart, ← List.singleton_append, (inert_of_allBlank hone).complete,
    scan_singleton]
  rfl

end Lexeme

open Lexeme

/-! ## The parts of a clause -/

theorem Symbol.depth_le_nesting {s : Symbol} {d e : Nat} (h : d ≤ e) : s.depth d ≤ s.nesting e := by
  cases s <;> simp only [depth, nesting] <;> omega

theorem Symbol.nesting_le {s : Symbol} {d e : Nat} (h : d ≤ e) : s.nesting d ≤ s.nesting e := by
  cases s <;> simp only [nesting] <;> omega

/-- The splitter never counts more open clauses than there are. -/
theorem Lexeme.depthAfter_le_of_walk : ∀ {xs : List Lexeme} {d k e : Nat}, walk k xs = some e →
    d ≤ k → depthAfter d xs ≤ e
  | [], d, k, e, h, hd => by
    obtain rfl : k = e := by simpa [walk] using h
    exact hd
  | x :: xs, d, k, e, h, hd => by
    obtain ⟨-, h⟩ := walk_cons_eq_some.1 h
    rw [depthAfter, List.foldl_cons]
    exact depthAfter_le_of_walk h (Symbol.depth_le_nesting hd)

theorem Clause.normalize_insert {b : Lexeme} (hb : b.symbol = .blank) (ys : List Lexeme) :
    ∀ {xs : List Lexeme} {d k : Nat}, walk k xs = some 0 → d ≤ k →
      normalize d (xs ++ b :: ys) = normalize d (xs ++ ys)
  | [], d, k, h, hd => by
    obtain rfl : d = 0 := by
      have : k = 0 := by simpa [walk] using h
      omega
    simp [normalize, resolve, hb, Symbol.nesting]
  | x :: xs, d, k, h, hd => by
    obtain ⟨-, h⟩ := walk_cons_eq_some.1 h
    simp only [List.cons_append, normalize,
      normalize_insert hb ys h (Symbol.nesting_le (s := x.symbol) hd)]

namespace Piece

/-- No lexeme of a piece stands after the last separator. -/
def BareEnd (xs : List Lexeme) : Prop := ∀ x ∈ xs.getLast?, x.symbol.separatesSubtypes = true

theorem bareEnd_append_cons {xs ys : List Lexeme} {x : Lexeme}
    (hx : x.symbol.separatesSubtypes = true) : BareEnd (xs ++ x :: ys) ↔ BareEnd ys := by
  rcases List.eq_nil_or_concat ys with rfl | ⟨ys, y, rfl⟩
  · simp [BareEnd, hx]
  · rw [List.concat_eq_append, ← List.cons_append, ← List.append_assoc]
    simp only [BareEnd, List.getLast?_concat]

theorem depthAfter_insert {b : Lexeme} (hb : b.symbol = .blank) (d : Nat) (xs ys : List Lexeme) :
    depthAfter d (xs ++ b :: ys) = depthAfter d (xs ++ ys) := by
  rw [depthAfter_append, depthAfter_append, depthAfter, List.foldl_cons, hb]
  rfl

theorem quiet_insert {b : Lexeme} (hb : b.symbol = .blank) {d : Nat} {xs ys : List Lexeme}
    (h : Quiet Symbol.separatesSubtypes d (xs ++ ys)) :
    Quiet Symbol.separatesSubtypes d (xs ++ b :: ys) := by
  rw [quiet_append] at h ⊢
  refine ⟨h.1, by simp [hb, Symbol.separatesSubtypes], ?_⟩
  rw [hb]
  exact h.2

theorem not_bareEnd_of_quiet {xs : List Lexeme} {k : Nat} (hne : xs ≠ [])
    (hwalk : walk k xs = some 0) (hq : Quiet Symbol.separatesSubtypes 0 xs) : ¬ BareEnd xs := by
  intro hbare
  rcases List.eq_nil_or_concat xs with rfl | ⟨xs, x, rfl⟩
  · exact hne rfl
  · have hdepth := depthAfter_le_of_walk hwalk (Nat.zero_le k)
    rw [List.concat_eq_append, depthAfter_append] at hdepth
    refine quiet_iff.1 hq xs x [] (List.concat_eq_append ..) ⟨hbare x (by simp), ?_⟩
    exact Nat.le_zero.1 hdepth

/-- A blank outside the nested clauses joins the part in which it stands. Only at the end, where no
part has begun, it is a part of its own. -/
theorem Parts.insert_blank {b : Lexeme} (hb : b.symbol = .blank) {zs : List Lexeme}
    {parts : List (List Lexeme)} (h : Parts Symbol.separatesSubtypes zs parts) :
    ∀ {content tail : List Lexeme} {k : Nat}, zs = content ++ tail → walk k content = some 0 →
      ∃ parts', Parts Symbol.separatesSubtypes (content ++ b :: tail) parts' ∧
        ((BareEnd content ∧ tail = []) ∧
            parts'.map (Clause.normalize 0) = parts.map (Clause.normalize 0) ++ [[]]
          ∨ ¬ (BareEnd content ∧ tail = []) ∧
            parts'.map (Clause.normalize 0) = parts.map (Clause.normalize 0)) := by
  -- the splitter may cut inside a nested clause, so `content` begins with any number of open ones
  induction h with
  | nil =>
    intro content tail k hzs _
    obtain ⟨rfl, rfl⟩ : content = [] ∧ tail = [] := by simpa using hzs
    refine ⟨[[b]], .whole (by simp [Quiet, hb, Symbol.separatesSubtypes]) (by simp), .inl ?_⟩
    simp [BareEnd, Clause.normalize, Clause.resolve, hb, Symbol.nesting]
  | whole hq hne =>
    rintro content tail k rfl hwalk
    refine ⟨[content ++ b :: tail], .whole (quiet_insert hb hq) (by simp), .inr ⟨?_, ?_⟩⟩
    · rintro ⟨hbare, rfl⟩
      rw [List.append_nil] at hq hne
      exact not_bareEnd_of_quiet hne hwalk hq hbare
    · simp [Clause.normalize_insert hb tail hwalk (Nat.zero_le k)]
  | @cut xs ys x parts hq hx hparts ih =>
    intro content tail k hzs hwalk
    rcases before_or_after hzs with ⟨as, rfl, hys⟩ | ⟨bs, rfl, rfl⟩
    · obtain ⟨a, -, hrest⟩ := exists_walk_of_append hwalk
      obtain ⟨parts', hparts', hmap⟩ := ih hys (walk_cons_eq_some.1 hrest).2
      refine ⟨xs :: parts', by simpa using hparts'.cut hq hx, ?_⟩
      rw [bareEnd_append_cons hx.1]
      simpa using hmap
    · refine ⟨(content ++ b :: bs) :: parts, ?_, .inr ⟨by simp, ?_⟩⟩
      · have hcut : IsCut Symbol.separatesSubtypes 0 (content ++ b :: bs) x := by
          rw [IsCut, depthAfter_insert hb]
          exact hx
        simpa using hparts.cut (quiet_insert hb hq) hcut
      · simp [Clause.normalize_insert hb bs hwalk (Nat.zero_le k)]

end Piece

/-! ## The wrapper and the search for the end of the clause -/

/-- A wrapper around a text with a clause is still one if the clause changes inside, as long as no
right bracket is new. -/
theorem Wrapper.exists_inner? {t t' u : Text} {front mid mid' rest : List Lexeme} {l : Lexeme}
    (ht : scan t = front ++ l :: (mid ++ rest)) (ht' : scan t' = front ++ l :: (mid' ++ rest))
    (hl : l.symbol = .leftAngle) (hrest : rest ≠ [])
    (hmid : ∀ z ∈ mid', z.symbol = .rightBracket → z ∈ mid) (hu : inner? t = some u) :
    ∃ o front' rest' r u', front = o :: front' ∧ rest = rest' ++ [r] ∧ r.symbol = .rightBracket
      ∧ (∀ z ∈ rest', z.symbol ≠ .rightBracket) ∧ scan u = front' ++ l :: (mid ++ rest')
      ∧ inner? t' = some u' ∧ scan u' = front' ++ l :: (mid' ++ rest') := by
  obtain ⟨o, r, heq, ho, hr, -, hno⟩ := inner?_eq_some_iff.1 hu
  rw [ht] at heq
  obtain ⟨rest', r', rfl⟩ := (List.eq_nil_or_concat' rest).resolve_left hrest
  rcases front with _ | ⟨o', front'⟩
  · obtain ⟨rfl, -⟩ : l = o ∧ _ := by simpa using heq
    simp [hl] at ho
  · have hends : (o' :: (front' ++ l :: (mid ++ rest'))) ++ [r'] = (o :: scan u) ++ [r] := by
      simpa using heq
    obtain ⟨hcons, hlast⟩ := List.append_inj' hends rfl
    obtain ⟨rfl, hu⟩ := List.cons.inj hcons
    obtain rfl : r' = r := by simpa using hlast
    have hslice : scan t' = [o'] ++ (front' ++ l :: (mid' ++ rest')) ++ [r'] := by simpa using ht'
    refine ⟨o', front', rest', r', source (front' ++ l :: (mid' ++ rest')), rfl, rfl, hr, ?_,
      hu.symm, inner?_eq_some_iff.2 ⟨o', r', ?_, ho, hr, ?_, ?_⟩, scan_slice hslice⟩
    · exact fun z hz => hno z (by simp [← hu, hz])
    · rw [scan_slice hslice, hslice]
      rfl
    · intro h
      have := scan_slice hslice
      rw [h] at this
      simp [scan] at this
    · intro z hz hzr
      rw [scan_slice hslice] at hz
      refine hno z ?_ hzr
      rw [← hu]
      simp only [List.mem_append, List.mem_cons] at hz ⊢
      exact hz.imp_right (.imp_right (.imp_left fun hz => hmid z hz hzr))

/-- The lexemes `rest` end the text `t`, and `rest'` is what a wrapper around it leaves of them. -/
def Wrapper.Leaves (t : Text) (rest rest' : List Lexeme) : Prop :=
  inner? t = none ∧ rest' = rest ∨ (inner? t).isSome = true ∧ ∃ r, rest = rest' ++ [r]
    ∧ r.symbol = .rightBracket ∧ ∀ z ∈ rest', z.symbol ≠ .rightBracket

theorem Wrapper.exists_leaves {t t' : Text} {front content rest : List Lexeme} {l b : Lexeme}
    (ht : scan t = front ++ l :: (content ++ rest))
    (ht' : scan t' = front ++ l :: ((content ++ [b]) ++ rest)) (hl : l.symbol = .leftAngle)
    (hb : b.symbol = .blank) (hrest : rest ≠ []) :
    ∃ front' rest', (∀ z ∈ front', z ∈ front) ∧ Leaves t rest rest'
      ∧ scan ((inner? t).getD t) = front' ++ l :: (content ++ rest')
      ∧ scan ((inner? t').getD t') = front' ++ l :: ((content ++ [b]) ++ rest') := by
  rcases hu : inner? t with _ | u
  · have hu' : inner? t' = none := by
      rw [Option.eq_none_iff_forall_ne_some]
      intro u' hu'
      obtain ⟨-, -, -, -, v, -, -, -, -, -, hv, -⟩ :=
        exists_inner? ht' ht hl hrest (fun z hz _ => by simp [hz]) hu'
      simp [hu] at hv
    exact ⟨front, rest, fun _ hz => hz, .inl ⟨hu, rfl⟩, ht, by rwa [hu']⟩
  · have hmid : ∀ z ∈ content ++ [b], z.symbol = .rightBracket → z ∈ content := by
      intro z hz hzr
      rcases List.mem_append.1 hz with hz | hz
      · exact hz
      · simp [List.mem_singleton.1 hz, hb] at hzr
    obtain ⟨o, front', rest', r, u', rfl, rfl, hr, hno, hscan, hu', hscan'⟩ :=
      exists_inner? ht ht' hl hrest hmid hu
    refine ⟨front', rest', fun z hz => by simp [hz], .inr ⟨by simp [hu], r, rfl, hr, hno⟩, hscan,
      ?_⟩
    rwa [hu']

namespace Clause

theorem exists_interior? {t : Text} {front mid rest : List Lexeme} {l : Lexeme}
    (ht : scan t = front ++ l :: (mid ++ rest)) (hfront : ∀ x ∈ front, x.symbol ≠ .leftAngle)
    (hl : l.symbol = .leftAngle) (hmid : walk 0 mid = some 0) :
    ∃ u, interior? t = some u ∧ scan u = mid ++ untilClosed 0 rest := by
  obtain ⟨e, tail, hrest, -⟩ := untilClosed_spec rest 0
  have hslice : scan t = (front ++ [l]) ++ (mid ++ untilClosed 0 rest) ++ tail := by
    rw [List.append_assoc, List.append_assoc mid, ← hrest, ht]
    simp
  refine ⟨source (mid ++ untilClosed 0 rest), ?_, scan_slice hslice⟩
  rw [interior?_of_first ht hfront hl, untilClosed_append hmid]

theorem untilClosed_zero_eq_nil {xs : List Lexeme} :
    untilClosed 0 xs = [] ↔ ∀ x ∈ xs.head?, x.symbol = .rightAngle := by
  rcases xs with _ | ⟨⟨s, t⟩, xs⟩
  · simp [untilClosed]
  · cases s <;> simp [untilClosed]

theorem subtypes_of_parts {t u : Text} {parts : List (List Lexeme)} (hu : outermost? t = some u)
    (h : Piece.Parts Symbol.separatesSubtypes (scan u) parts) :
    subtypes t = parts.map (normalize 0) := by
  rw [subtypes_eq, pieces_of_parts hu h, List.map_map]
  exact List.map_congr_left fun part hpart => congrArg (normalize 0) (h.scan_source hpart)

/-- The text `x` ends in the outermost clause of `x ++ y`, between two lexemes of it and outside
every nested clause. The clause begins with `l`, and `content` is what it holds so far. -/
structure Inside (x y : Text) (front : List Lexeme) (l : Lexeme) (content : List Lexeme) :
    Prop where
  apart : scan (x ++ y) = scan x ++ scan y
  scan_eq : scan x = front ++ l :: content
  first : ∀ z ∈ front, z.symbol ≠ .leftAngle
  opens : l.symbol = .leftAngle
  paired : Paired content

/-- The clause ends where `x` does, before its bracket or that of the wrapper. -/
def EndsAt (x y : Text) : Prop :=
  y.head? = some '>' ∨ y.head? = some ']' ∧ (Wrapper.inner? (Text.trim (x ++ y))).isSome = true

open Piece

variable {x y : Text} {front content : List Lexeme} {l : Lexeme} {w : Char}

theorem head?_eq_some_iff {c : Char} (hc : Complete [c])
    (hs : (Symbol.ofChar c).spelling? = some [c]) :
    y.head? = some c ↔ ∃ z ∈ (scan y).head?, z.symbol = .ofChar c := by
  constructor
  · intro h
    obtain ⟨y', rfl⟩ := List.head?_eq_some_iff.1 h
    refine ⟨single c, ?_, rfl⟩
    rw [← List.singleton_append, hc, scan_singleton]
    rfl
  · rintro ⟨z, hz, hsymbol⟩
    obtain ⟨zs, hscan⟩ := List.head?_eq_some_iff.1 hz
    have htext : z.text = [c] := text_of_spelling (List.mem_of_mem_head? hz) (by rw [hsymbol, hs])
    obtain ⟨rest, rfl, -⟩ := scan_eq_cons hscan
    rw [htext]
    rfl

theorem Inside.not_allBlank (h : Inside x y front l content) : ¬ x.AllBlank := by
  intro hx
  have hinert := (inert_of_allBlank hx).symbols l (by rw [h.scan_eq]; simp)
  simp [h.opens, Symbol.isInert] at hinert

theorem Inside.trim (h : Inside x y front l content) :
    ∃ front', Inside x.trimStart y.trimEnd front' l content := by
  have hend : y.trimEnd <+: source (scan y) := by
    rw [source_scan]
    exact List.rdropWhile_prefix _ _
  have hapart : scan (x ++ y.trimEnd) = scan x ++ scan y.trimEnd := by
    have := scan_source_append h.apart hend
    rwa [source_scan] at this
  have hx : x.takeWhile Text.isBlank ++ x.trimStart = x := List.takeWhile_append_dropWhile
  have hblank : Text.AllBlank (x.takeWhile Text.isBlank) := fun c hc => List.mem_takeWhile_imp hc
  have hinert := inert_of_allBlank hblank
  have hscan : scan x = scan (x.takeWhile Text.isBlank) ++ scan x.trimStart := by
    rw [← hinert.complete, hx]
  -- the blanks before `x` hold no bracket, so they all stand before `l`
  rcases before_or_after (h.scan_eq.symm.trans hscan) with ⟨zs, hv, -⟩ | ⟨front', rfl, hfront⟩
  · have hl := hinert.symbols l (by rw [hv]; simp)
    simp [h.opens, Symbol.isInert] at hl
  · refine ⟨front', ?_, hfront, fun z hz => h.first z (by simp [hz]), h.opens, h.paired⟩
    rw [← hx, List.append_assoc, hinert.complete, hx, hscan, List.append_assoc] at hapart
    exact List.append_cancel_left hapart

/-- The clause ends at once if what follows is its bracket or that of the wrapper. -/
theorem untilClosed_leaves {t : Text} {rest : List Lexeme} (hy : y ≠ [])
    (h : Wrapper.Leaves t (scan y) rest) : untilClosed 0 rest = [] ↔
      y.head? = some '>' ∨ y.head? = some ']' ∧ (Wrapper.inner? t).isSome = true := by
  rw [untilClosed_zero_eq_nil, head?_eq_some_iff complete_rightAngle rfl,
    head?_eq_some_iff (complete_singleton (by decide) (by decide) (by decide)) rfl]
  rcases h with ⟨hnone, rfl⟩ | ⟨hsome, r, hscan, hr, hno⟩
  · obtain ⟨z, zs, hz⟩ := List.exists_cons_of_ne_nil (scan_ne_nil hy)
    simp [hnone, hz, Symbol.ofChar]
  · rcases rest with _ | ⟨z, zs⟩
    · simp [hsome, hscan, hr, Symbol.ofChar]
    · have hz : z.symbol ≠ .rightBracket := hno z (by simp)
      simp [hscan, hz, Symbol.ofChar]

/-- The blank is added to the lexemes of the clause, behind those that stand before it. None stands
after it if the clause ends there. -/
theorem Inside.exists_interior? (h : Inside x y front l content) (hy : y ≠ [])
    (hw : Text.isBlank w = true) : ∃ u u' tail,
      interior? ((Wrapper.inner? (x ++ y)).getD (x ++ y)) = some u
      ∧ interior? ((Wrapper.inner? (x ++ w :: y)).getD (x ++ w :: y)) = some u'
      ∧ scan u = content ++ tail ∧ scan u' = content ++ single w :: tail
      ∧ (tail = [] ↔ y.head? = some '>'
        ∨ y.head? = some ']' ∧ (Wrapper.inner? (x ++ y)).isSome = true) := by
  have ht : scan (x ++ y) = front ++ l :: (content ++ scan y) := by
    rw [h.apart, h.scan_eq]
    simp
  have ht' : scan (x ++ w :: y) = front ++ l :: ((content ++ [single w]) ++ scan y) := by
    rw [scan_insert_blank h.apart hy hw, h.scan_eq]
    simp
  obtain ⟨front', rest, hfront, hleaves, hv, hv'⟩ :=
    Wrapper.exists_leaves ht ht' h.opens (symbol_single hw) (scan_ne_nil hy)
  have hfront : ∀ z ∈ front', z.symbol ≠ .leftAngle := fun z hz => h.first z (hfront z hz)
  have hwalk := paired_iff.1 h.paired
  have hwalk' : walk 0 (content ++ [single w]) = some 0 := by
    rw [walk_append, hwalk]
    exact walk_cons_of_isLevel (by simp [symbol_single hw, Symbol.isLevel]) 0 []
  obtain ⟨u, hu, hscan⟩ := Clause.exists_interior? hv hfront h.opens hwalk
  obtain ⟨u', hu', hscan'⟩ := Clause.exists_interior? hv' hfront h.opens hwalk'
  exact ⟨u, u', untilClosed 0 rest, hu, hu', hscan, by simpa using hscan',
    untilClosed_leaves hy hleaves⟩

theorem Inside.subtypes_insert (h : Inside x y front l content) (hw : Text.isBlank w = true) :
    (BareEnd content ∧ EndsAt x y) ∧ subtypes (x ++ w :: y) = subtypes (x ++ y) ++ [[]]
      ∨ ¬ (BareEnd content ∧ EndsAt x y) ∧ subtypes (x ++ w :: y) = subtypes (x ++ y) := by
  by_cases hy : y.AllBlank
  · -- the blank is trimmed with those of `y`
    have hall : Text.AllBlank (w :: y) := List.forall_mem_cons.2 ⟨hw, hy⟩
    refine .inr ⟨?_, ?_⟩
    · rintro ⟨-, hend | ⟨hend, -⟩⟩
      · exact head?_ne_of_allBlank hy (by decide) hend
      · exact head?_ne_of_allBlank hy (by decide) hend
    · simp only [subtypes, Text.trim_append_blanks x hall, Text.trim_append_blanks x hy]
  · obtain ⟨front', htrim⟩ := h.trim
    have ht : Text.trim (x ++ y) = x.trimStart ++ y.trimEnd := by
      simpa using Text.trim_between h.not_allBlank hy []
    have ht' : Text.trim (x ++ w :: y) = x.trimStart ++ w :: y.trimEnd := by
      simpa using Text.trim_between h.not_allBlank hy [w]
    obtain ⟨u, u', tail, hu, hu', hscan, hscan', hend⟩ :=
      htrim.exists_interior? (Text.trimEnd_ne_nil hy) hw
    rw [← ht, Text.head?_trimEnd hy] at hend
    change tail = [] ↔ EndsAt x y at hend
    rw [← ht] at hu
    rw [← ht'] at hu'
    obtain ⟨parts, hparts⟩ := exists_parts Symbol.separatesSubtypes (scan u)
    obtain ⟨parts', hparts', hmap⟩ :=
      hparts.insert_blank (symbol_single hw) hscan (paired_iff.1 h.paired)
    rw [← hscan'] at hparts'
    rw [← subtypes_of_parts hu' hparts', ← subtypes_of_parts hu hparts, hend] at hmap
    exact hmap

/-- A blank at the top level of a clause does not count, unless the clause ends there with nothing
after its last separator, or with nothing in it at all. Then the blank is one more subtype, with an
empty text. -/
theorem subtypes_blank_iff (x y : Text) (w : Char) (front : List Lexeme) (l : Lexeme)
    (content : List Lexeme) (hw : Text.isBlank w = true) (h : Inside x y front l content) :
    (subtypes (x ++ w :: y) = subtypes (x ++ y) ↔ ¬ (BareEnd content ∧ EndsAt x y))
      ∧ (BareEnd content ∧ EndsAt x y → subtypes (x ++ w :: y) = subtypes (x ++ y) ++ [[]]) := by
  rcases h.subtypes_insert hw with ⟨hend, heq⟩ | ⟨hend, heq⟩
  · simp [heq, hend]
  · exact ⟨iff_of_true heq hend, fun h => absurd h hend⟩

/-- A blank before the separator of `[a<b<c;d>;% >]` does not count, but in `[a<b;]` the wrapper
ends the clause, and a blank after the separator is a second subtype. -/
theorem subtypes_blank_iff_wrapped :
    subtypes ['[', 'a', '<', 'b', '<', 'c', ';', 'd', '>', ' ', ';', '%', ' ', '>', ']']
        = subtypes ['[', 'a', '<', 'b', '<', 'c', ';', 'd', '>', ';', '%', ' ', '>', ']']
      ∧ subtypes ['[', 'a', '<', 'b', ';', ' ', ']']
        = subtypes ['[', 'a', '<', 'b', ';', ']'] ++ [[]] := by
  constructor
  · have hinside : Inside ['[', 'a', '<', 'b', '<', 'c', ';', 'd', '>'] [';', '%', ' ', '>', ']']
        [single '[', single 'a'] (single '<')
        [single 'b', single '<', single 'c', single ';', single 'd', single '>'] :=
      ⟨by decide, by decide, by decide, rfl, paired_iff.2 (by decide)⟩
    refine (subtypes_blank_iff _ _ ' ' _ _ _ (by decide) hinside).1.2 fun h => ?_
    exact absurd (h.1 (single '>') rfl) (by decide)
  · have hinside : Inside ['[', 'a', '<', 'b', ';'] [']'] [single '[', single 'a'] (single '<')
        [single 'b', single ';'] := ⟨by decide, by decide, by decide, rfl, paired_iff.2 (by decide)⟩
    refine (subtypes_blank_iff _ _ ' ' _ _ _ (by decide) hinside).2 ⟨?_, .inr ⟨rfl, by decide⟩⟩
    intro z hz
    obtain rfl : single ';' = z := by simpa using hz
    rfl

/-- The blank of `a<b; >` stands after a separator of the clause and that of `a< >` after its left
bracket, both before its right bracket; each adds a subtype that `a<b;>` and `a<>` do not have. -/
theorem subtypes_of_blank_end :
    Inside ['a', '<', 'b', ';'] ['>'] [single 'a'] (single '<') [single 'b', single ';']
      ∧ subtypes ['a', '<', 'b', ';', '>'] = [['b']]
      ∧ subtypes ['a', '<', 'b', ';', ' ', '>'] = [['b'], []]
      ∧ Inside ['a', '<'] ['>'] [single 'a'] (single '<') []
      ∧ subtypes ['a', '<', '>'] = [] ∧ subtypes ['a', '<', ' ', '>'] = [[]] := by
  have hseparator :
      Inside ['a', '<', 'b', ';'] ['>'] [single 'a'] (single '<') [single 'b', single ';'] :=
    ⟨by decide, by decide, by decide, rfl, paired_iff.2 (by decide)⟩
  have hbracket : Inside ['a', '<'] ['>'] [single 'a'] (single '<') [] :=
    ⟨by decide, by decide, by decide, rfl, paired_iff.2 rfl⟩
  exact ⟨hseparator, by decide, by decide, hbracket, by decide, by decide⟩

end Clause

end TypeSig
