import TypeSig.Proofs.OutputStage

/-!
# The pieces of a text tile it

Between two pieces of a text stands one lexeme, at which the splitter cuts, and the last piece ends
the text or is followed by one more such lexeme (`tiles_split`). The splitter finds all of them: a
piece that is split again is left whole (`splitTexts_of_piece`).

The splitter counts from depth zero at the beginning of every piece, also if the test accepts
brackets or `::`, because a cut is made only where the depth is zero once it is counted. So the
lexemes of a text fall into `Parts` that the splitter passes over from depth zero, and every fact
about the pieces is an induction on the parts. A part that is read alone gives the same lexemes, so
what holds of it in the text holds of the piece.
-/

namespace TypeSig

/-- The text of a symbol that can be spelled in one way only. -/
def Symbol.spelling? : Symbol → Option Text
  | arrow => some ['=', '>']
  | doubleColon => some [':', ':']
  | leftAngle => some ['<']
  | rightAngle => some ['>']
  | leftBracket => some ['[']
  | rightBracket => some [']']
  | comma => some [',']
  | semicolon => some [';']
  | colon => some [':']
  | escape | blank | plain => none

namespace Lexeme

theorem map_fst_withSpans : ∀ (xs : List Lexeme) (start : Nat),
    (withSpans start xs).map Prod.fst = xs
  | [], _ => rfl
  | x :: xs, start => by simp [withSpans, map_fst_withSpans xs]

theorem withSpans_append : ∀ (xs ys : List Lexeme) (start : Nat), withSpans start (xs ++ ys)
    = withSpans start xs ++ withSpans (start + (source xs).bytes) ys
  | [], _, _ => rfl
  | x :: xs, ys, start => by
    simp [withSpans, withSpans_append xs, Nat.add_assoc]

theorem text_ofChar {c : Char} {w : Text} (h : (Symbol.ofChar c).spelling? = some w) : [c] = w := by
  unfold Symbol.ofChar at h
  split at h
  case h_8 => split at h <;> simp [Symbol.spelling?] at h
  all_goals simpa [Symbol.spelling?] using h

theorem text_of_spelling {t w : Text} {x : Lexeme} (hx : x ∈ scan t)
    (hw : x.symbol.spelling? = some w) : x.text = w := by
  rcases mem_scan_cases hx with rfl | rfl | ⟨c, rfl⟩ | ⟨c, rfl⟩
  · simpa [Symbol.spelling?] using hw
  · simpa [Symbol.spelling?] using hw
  · simp [Symbol.spelling?] at hw
  · exact text_ofChar hw

end Lexeme

namespace Piece

open Lexeme

variable {test : Symbol → Bool}

/-! ## Parts -/

theorem quiet_iff {zs : List Lexeme} {d : Nat} : Quiet test d zs ↔
    ∀ xs x ys, zs = xs ++ x :: ys → ¬ IsCut test d xs x := by
  constructor
  · rintro h xs x ys rfl
    exact ((quiet_append d xs (x :: ys)).1 h).2.1
  · intro h
    induction zs generalizing d with
    | nil => trivial
    | cons z zs ih =>
      refine ⟨h [] z zs rfl, ih fun xs x ys hzs hx => ?_⟩
      exact h (z :: xs) x ys (by rw [hzs]; rfl) (isCut_cons.2 hx)

theorem quiet_or_cut (test : Symbol → Bool) : ∀ (zs : List Lexeme) (d : Nat), Quiet test d zs ∨
    ∃ xs x ys, zs = xs ++ x :: ys ∧ Quiet test d xs ∧ IsCut test d xs x
  | [], _ => .inl trivial
  | z :: zs, d => by
    by_cases hz : IsCut test d [] z
    · exact .inr ⟨[], z, zs, rfl, trivial, hz⟩
    · rcases quiet_or_cut test zs (z.symbol.depth d) with h | ⟨xs, x, ys, rfl, hq, hx⟩
      · exact .inl ⟨hz, h⟩
      · exact .inr ⟨z :: xs, x, ys, rfl, ⟨hz, hq⟩, hx⟩

/-- The lexemes between the cuts. Nothing is a part after a cut that ends the lexemes. -/
inductive Parts (test : Symbol → Bool) : List Lexeme → List (List Lexeme) → Prop
  | nil : Parts test [] []
  | whole {xs : List Lexeme} : Quiet test 0 xs → xs ≠ [] → Parts test xs [xs]
  | cut {xs ys : List Lexeme} {x : Lexeme} {parts : List (List Lexeme)} : Quiet test 0 xs →
      IsCut test 0 xs x → Parts test ys parts → Parts test (xs ++ x :: ys) (xs :: parts)

variable {zs : List Lexeme} {parts : List (List Lexeme)}

theorem exists_parts (test : Symbol → Bool) (zs : List Lexeme) : ∃ parts, Parts test zs parts := by
  rcases quiet_or_cut test zs 0 with h | ⟨xs, x, ys, hzs, hq, hx⟩
  · rcases eq_or_ne zs [] with rfl | hne
    · exact ⟨[], .nil⟩
    · exact ⟨[zs], .whole h hne⟩
  · have hlt : ys.length < zs.length := by
      rw [hzs, List.length_append, List.length_cons]
      omega
    obtain ⟨parts, hparts⟩ := exists_parts test ys
    rw [hzs]
    exact ⟨xs :: parts, .cut hq hx hparts⟩
termination_by zs.length

theorem Parts.map_text (h : Parts test zs parts) (start : Nat) :
    (Piece.cut test 0 start zs).map text = parts.map source := by
  induction h generalizing start with
  | nil => rfl
  | whole hq hne => rw [cut_of_quiet hq hne]; rfl
  | cut hq hx _ ih => rw [cut_append_cons hq hx.1 hx.2, List.map_cons, ih]; rfl

theorem Parts.quiet {part : List Lexeme} (h : Parts test zs parts) (hp : part ∈ parts) :
    Quiet test 0 part ∧ ∃ xs ys, zs = xs ++ part ++ ys := by
  induction h with
  | nil => simp at hp
  | @whole xs hq _ =>
    obtain rfl := List.mem_singleton.1 hp
    exact ⟨hq, [], [], by simp⟩
  | @cut xs ys x parts hq _ _ ih =>
    rcases List.mem_cons.1 hp with rfl | hp
    · exact ⟨hq, [], x :: ys, rfl⟩
    · obtain ⟨hpart, as, bs, rfl⟩ := ih hp
      exact ⟨hpart, xs ++ x :: as, bs, by simp⟩

theorem Parts.scan_source {t : Text} {part : List Lexeme} (h : Parts test (scan t) parts)
    (hp : part ∈ parts) : scan (source part) = part := by
  obtain ⟨-, xs, ys, ht⟩ := h.quiet hp
  exact scan_slice ht

theorem quiet_of_mem_splitTexts {t p : Text} (h : p ∈ splitTexts test t) :
    Quiet test 0 (scan p) := by
  obtain ⟨parts, hparts⟩ := exists_parts test (scan t)
  rw [splitTexts, split, hparts.map_text, List.mem_map] at h
  obtain ⟨part, hmem, rfl⟩ := h
  rw [hparts.scan_source hmem]
  exact (hparts.quiet hmem).1

/-! ## Tiling -/

/-- The bytes of one lexeme of the text, at which the splitter cuts. -/
def CutAt (test : Symbol → Bool) (t : Text) (span : Span) : Prop :=
  ∃ before x after, withSpans 0 (scan t) = before ++ (x, span) :: after
    ∧ IsCut test 0 (before.map Prod.fst) x

/-- The pieces cover the text from byte `n` on, but for one cut between any two of them and perhaps
one at the end. -/
structure Tiles (test : Symbol → Bool) (t : Text) (n : Nat) (ps : List Piece) : Prop where
  covers : ∀ p ∈ ps, t.Covers p.span p.text
  first : ∀ p ∈ ps.head?, p.start = n
  between : ps.IsChain fun p q => CutAt test t ⟨p.stop, q.start⟩
  last : ∀ p ∈ ps.getLast?, p.stop = t.bytes ∨ CutAt test t ⟨p.stop, t.bytes⟩

theorem cutAt_of_scan {t : Text} {xs ys : List Lexeme} {x : Lexeme} (ht : scan t = xs ++ x :: ys)
    (hx : IsCut test 0 xs x) :
    CutAt test t ⟨(source xs).bytes, (source xs).bytes + x.text.bytes⟩ := by
  refine ⟨withSpans 0 xs, x, withSpans ((source xs).bytes + x.text.bytes) ys, ?_, ?_⟩
  · rw [ht, withSpans_append, Nat.zero_add]
    rfl
  · rwa [map_fst_withSpans]

theorem Tiles.cons {t : Text} {n m : Nat} {p : Piece} {ps : List Piece} (h : Tiles test t m ps)
    (hp : t.Covers p.span p.text) (hstart : p.start = n) (hcut : CutAt test t ⟨p.stop, m⟩)
    (hend : ps = [] → m = t.bytes) : Tiles test t n (p :: ps) := by
  refine ⟨?_, ?_, ?_, ?_⟩
  · exact List.forall_mem_cons.2 ⟨hp, h.covers⟩
  · rintro q hq
    obtain rfl : p = q := by simpa using hq
    exact hstart
  · refine List.isChain_cons.2 ⟨fun q hq => ?_, h.between⟩
    rw [h.first q hq]
    exact hcut
  · rcases ps with _ | ⟨q, ps⟩
    · rintro q hq
      obtain rfl : p = q := by simpa using hq
      rw [← hend rfl]
      exact .inr hcut
    · simpa using h.last

theorem Parts.tiles {t : Text} (h : Parts test zs parts) : ∀ before : List Lexeme,
    scan t = before ++ zs → depthAfter 0 before = 0 →
      Tiles test t (source before).bytes (Piece.cut test 0 (source before).bytes zs) := by
  -- the lexemes before the parts give the bytes and the depth at which the parts begin
  induction h with
  | nil => exact fun _ _ _ => ⟨by simp [Piece.cut], by simp [Piece.cut], .nil, by simp [Piece.cut]⟩
  | @whole xs hq hne =>
    intro before ht _
    have htext : t = source before ++ source xs ++ [] := by
      rw [List.append_nil, ← source_append, ← ht, source_scan]
    rw [cut_of_quiet hq hne]
    refine ⟨?_, by simp, .singleton _, ?_⟩
    · simpa using Text.covers_of_eq htext rfl rfl
    · simp [stop, htext]
  | @cut xs ys x parts hq hx hparts ih =>
    intro before ht hd
    have hnext : (source before).bytes + (source xs).bytes + x.text.bytes
        = (source (before ++ xs ++ [x])).bytes := by simp [Nat.add_assoc]
    have htext : t = source before ++ source xs ++ (x.text ++ source ys) := by
      rw [← source_scan t, ht]
      simp
    have hcut : IsCut test 0 (before ++ xs) x := by
      rw [IsCut, depthAfter_append, hd]
      exact hx
    rw [cut_append_cons hq hx.1 hx.2, hnext]
    refine Tiles.cons (ih _ (by simpa using ht) ?_) ?_ rfl ?_ ?_
    · rw [depthAfter_append]
      exact hcut.2
    · exact Text.covers_of_eq htext rfl rfl
    · simpa [stop, Nat.add_assoc] using cutAt_of_scan (by simpa using ht) hcut
    · intro hnil
      rw [cut_eq_nil.1 hnil] at htext
      simp [htext]

/-- The parts with the text of the cuts between them spell the text, but for a cut that ends it. -/
theorem Parts.joined {w : Text} (h : Parts test zs parts)
    (hw : ∀ x ∈ zs, test x.symbol = true → x.text = w) :
    source zs = w.intercalate (parts.map source)
      ∨ source zs = w.intercalate (parts.map source) ++ w := by
  induction h with
  | nil => exact .inl rfl
  | @whole xs => exact .inl (by simp)
  | @cut xs ys x parts _ hx hparts ih =>
    have hxw : x.text = w := hw x (by simp) hx.1
    rcases parts with _ | ⟨part, parts⟩
    · cases hparts
      exact .inr (by simp [hxw])
    · have hcons : w.intercalate ((xs :: part :: parts).map source)
          = source xs ++ w ++ w.intercalate ((part :: parts).map source) := by
        simp [List.intercalate_cons_cons]
      rw [hcons, source_append, source_cons, hxw]
      refine (ih fun y hy => hw y (by simp [hy])).imp ?_ ?_ <;> intro hys <;> rw [hys] <;> simp

/-- The pieces tile the text, and only the empty text has none. Where the cuts can be spelled in one
way only, the text is joined from the pieces, but for a cut that ends it. -/
theorem tiles_split (test : Symbol → Bool) (t : Text) :
    Tiles test t 0 (split test t) ∧ (split test t = [] ↔ t = [])
      ∧ ∀ s w, Symbol.spelling? s = some w →
        t = w.intercalate (splitTexts (· == s) t)
          ∨ t = w.intercalate (splitTexts (· == s) t) ++ w := by
  refine ⟨?_, ?_, fun s w hw => ?_⟩
  · obtain ⟨parts, hparts⟩ := exists_parts test (scan t)
    exact hparts.tiles [] rfl rfl
  · rw [split, cut_eq_nil]
    refine ⟨fun h => ?_, fun h => by rw [h]; rfl⟩
    by_contra hne
    exact scan_ne_nil hne h
  · obtain ⟨parts, hparts⟩ := exists_parts (· == s) (scan t)
    have hjoined := hparts.joined fun x hx hs =>
      text_of_spelling hx (by rw [eq_of_beq hs, hw])
    rwa [source_scan, ← hparts.map_text 0] at hjoined

example : split (· == .arrow) ['é', '=', '>', '=', '>', 'b', '=', '>']
    = [⟨['é'], 0⟩, ⟨[], 4⟩, ⟨['b'], 6⟩] := by decide

/-- A piece that is split again is left whole, because no lexeme of it is a cut. -/
theorem splitTexts_of_piece (test : Symbol → Bool) (t p : Text) (hp : p ∈ splitTexts test t) :
    (p ≠ [] → splitTexts test p = [p]) ∧
      ∀ xs x ys, scan p = xs ++ x :: ys → ¬ IsCut test 0 xs x := by
  have hq := quiet_of_mem_splitTexts hp
  refine ⟨fun hne => ?_, quiet_iff.1 hq⟩
  rw [splitTexts, split, cut_of_quiet hq (scan_ne_nil hne), source_scan]
  rfl

/-- The first bracket of `<a>>::b` that closes is counted before the cut, the second closes nothing;
each of the two leaves a piece that is not split again. -/
theorem splitTexts_of_piece_right_angle :
    splitTexts (· == .rightAngle) ['<', 'a', '>', '>', ':', ':', 'b']
        = [['<', 'a'], [], [':', ':', 'b']]
      ∧ splitTexts (· == .rightAngle) ['<', 'a'] = [['<', 'a']]
      ∧ splitTexts (· == .rightAngle) [':', ':', 'b'] = [[':', ':', 'b']] := by
  have hsplit : splitTexts (· == .rightAngle) ['<', 'a', '>', '>', ':', ':', 'b']
      = [['<', 'a'], [], [':', ':', 'b']] := by decide
  refine ⟨hsplit, ?_, ?_⟩
  · exact (splitTexts_of_piece _ _ _ (by rw [hsplit]; simp)).1 (by simp)
  · exact (splitTexts_of_piece _ _ _ (by rw [hsplit]; simp)).1 (by simp)

end Piece

end TypeSig
