import TypeSig.Proofs.ErrorRegion
import TypeSig.Proofs.Splitting

/-!
# The lexemes of a text are its only greedy tiling

A text can be cut into the texts of symbols in many ways: `:::` is a colon and a `::`, or a `::` and
a colon, or three colons. Only one way misses no sequence, and it is also the one where every symbol
takes as much of the text as any symbol could (`only_tiling`). The first rule is about two lexemes
in a row, the second about a lexeme and the text that is left. Both come down to `Apart`: a lexeme
is read before a text exactly if no sequence begins with the one and goes on in the other
(`scan_text_append`, `apart_of_scan_append`).

So it does not matter where a text is cut, as long as no lexeme is: what is read in a slice is what
was read there (`scan_of_slice`).
-/

namespace TypeSig

/-- `w` is a text that the symbol can be read from. -/
def Symbol.Spells : Symbol → Text → Prop
  | escape, w => ∃ c, w = ['%', c]
  | blank, w => ∃ c, Text.isBlank c = true ∧ w = [c]
  | plain, w => ∃ c, Text.isBlank c = false ∧ c ∉ ['<', '>', '[', ']', ',', ';', ':'] ∧ w = [c]
  | s, w => s.spelling? = some w

/-- Spans that follow one another from position `n` to position `m`. -/
inductive Span.Consecutive : Nat → List Span → Nat → Prop
  | nil (n : Nat) : Consecutive n [] n
  | cons {s : Span} {ss : List Span} {m : Nat} : s.start ≤ s.stop → Consecutive s.stop ss m →
      Consecutive s.start (s :: ss) m

namespace Lexeme

/-- No sequence that is read eagerly begins with `x` and goes on in `y`. -/
structure Parted (x y : Lexeme) : Prop where
  colon : x.symbol = .colon → y.text.head? ≠ some ':'
  equals : x = ⟨.plain, ['=']⟩ → y.text.head? ≠ some '>'
  percent : x ≠ ⟨.plain, ['%']⟩

/-- Lexemes with spans that cover a text from its first byte to its last and miss no sequence. -/
structure Tiling (t : Text) (xs : List (Lexeme × Span)) : Prop where
  texts : source (xs.map Prod.fst) = t
  spans : Span.Consecutive 0 (xs.map Prod.snd) t.bytes
  covers : ∀ x ∈ xs, t.Covers x.2 x.1.text
  spelled : ∀ x ∈ xs, x.1.symbol.Spells x.1.text
  greedy : (xs.map Prod.fst).IsChain Parted

/-- Reading by the longest match: no symbol can be read from a longer part of the text, counted from
its beginning, than the one that is read. -/
inductive LongestMatch : Text → List Lexeme → Prop
  | nil : LongestMatch [] []
  | cons {x : Lexeme} {rest : Text} {xs : List Lexeme} : x.symbol.Spells x.text →
      (∀ s w, Symbol.Spells s w → w <+: x.text ++ rest → w.length ≤ x.text.length) →
      LongestMatch rest xs → LongestMatch (x.text ++ rest) (x :: xs)

/-- The lexemes with their spans moved `n` bytes to the right. -/
def moved (n : Nat) (xs : List (Lexeme × Span)) : List (Lexeme × Span) :=
  xs.map fun x => (x.1, x.2.shift n)

/-! ## One lexeme -/

variable {t rest : Text} {x : Lexeme} {xs : List Lexeme}

theorem spells_single (c : Char) : (single c).symbol.Spells (single c).text := by
  simp only [single]
  unfold Symbol.ofChar
  split
  case h_8 =>
    split_ifs with hblank
    · exact ⟨c, hblank, rfl⟩
    · exact ⟨c, by simpa using hblank, by simp_all, rfl⟩
  all_goals rfl

theorem ofChar_of_plain {c : Char} (hblank : Text.isBlank c = false)
    (hc : c ∉ ['<', '>', '[', ']', ',', ';', ':']) : Symbol.ofChar c = .plain := by
  unfold Symbol.ofChar
  split <;> simp_all

theorem spells_iff : x.symbol.Spells x.text ↔ x = ⟨.arrow, ['=', '>']⟩
    ∨ x = ⟨.doubleColon, [':', ':']⟩ ∨ (∃ c, x = ⟨.escape, ['%', c]⟩) ∨ ∃ c, x = single c := by
  constructor
  · obtain ⟨s, w⟩ := x
    intro h
    cases s
    case escape =>
      obtain ⟨c, rfl⟩ := h
      exact .inr (.inr (.inl ⟨c, rfl⟩))
    case blank =>
      obtain ⟨c, hc, rfl⟩ := h
      exact .inr (.inr (.inr ⟨c, congrArg (mk · [c]) (symbol_single hc).symm⟩))
    case plain =>
      obtain ⟨c, hblank, hc, rfl⟩ := h
      exact .inr (.inr (.inr ⟨c, by rw [single, ofChar_of_plain hblank hc]⟩))
    case arrow =>
      obtain rfl := Option.some.inj h
      exact .inl rfl
    case doubleColon =>
      obtain rfl := Option.some.inj h
      exact .inr (.inl rfl)
    all_goals
      obtain rfl := Option.some.inj h
      simp [single, Symbol.ofChar]
  · rintro (rfl | rfl | ⟨c, rfl⟩ | ⟨c, rfl⟩)
    · rfl
    · rfl
    · exact ⟨c, rfl⟩
    · exact spells_single c

theorem spells_of_mem_scan (h : x ∈ scan t) : x.symbol.Spells x.text :=
  spells_iff.2 (mem_scan_cases h)

theorem spells_of_scan_eq_cons (h : scan t = x :: xs) : x.symbol.Spells x.text :=
  spells_of_mem_scan (t := t) (by simp [h])

theorem text_ne_nil (h : x.symbol.Spells x.text) : x.text ≠ [] := by
  rcases spells_iff.1 h with rfl | rfl | ⟨c, rfl⟩ | ⟨c, rfl⟩ <;> simp [single]

theorem scan_text (h : x.symbol.Spells x.text) : scan x.text = [x] := by
  rcases spells_iff.1 h with rfl | rfl | ⟨c, rfl⟩ | ⟨c, rfl⟩
  · rfl
  · rfl
  · rfl
  · exact scan_singleton

theorem apart_text_iff (h : x.symbol.Spells x.text) : Apart x.text rest ↔ x ≠ single '%'
    ∧ (x = single '=' → rest.head? ≠ some '>') ∧ (x = single ':' → rest.head? ≠ some ':') := by
  simp [Apart, scan_text h]

theorem scan_text_append (h : x.symbol.Spells x.text) (hrest : rest ≠ [] → Apart x.text rest) :
    scan (x.text ++ rest) = x :: scan rest := by
  by_cases hne : rest = []
  · rw [hne, List.append_nil, scan_text h]
    rfl
  · rw [scan_append (hrest hne), scan_text h]
    rfl

/-- A text that is read after another is apart from it, unless it is empty. -/
theorem apart_of_scan_append {a b : Text} (hb : b ≠ []) (h : scan (a ++ b) = scan a ++ scan b) :
    Apart a b := by
  intro x hx
  obtain ⟨xs, hxs⟩ := List.getLast?_eq_some_iff.1 hx
  have hcut : scan (a ++ b) = xs ++ x :: scan b := by simp [h, hxs]
  have hlast : scan (x.text ++ b) = x :: scan b := by
    simpa [source_scan] using (scan_source_of_append hcut).2
  obtain ⟨c, b, rfl⟩ := List.exists_cons_of_ne_nil hb
  refine ⟨?_, ?_, ?_⟩
  · rintro rfl
    simp [single, scan] at hlast
  · rintro rfl hc
    obtain rfl : c = '>' := by simpa using hc
    simp [single, scan] at hlast
  · rintro rfl hc
    obtain rfl : c = ':' := by simpa using hc
    simp [single, scan] at hlast

theorem head?_text_of_scan {y : Lexeme} {ys : List Lexeme} (h : scan t = y :: ys) :
    y.text.head? = t.head? := by
  have hy := text_ne_nil (spells_of_scan_eq_cons h)
  obtain ⟨rest, rfl, -⟩ := scan_eq_cons h
  rw [List.head?_append_of_ne_nil _ hy]

/-! ## The greedy tiling -/

theorem Parted.apart {y : Lexeme} (h : Parted x y) (hx : x.symbol.Spells x.text)
    (hy : y.symbol.Spells y.text) (rest : Text) : Apart x.text (y.text ++ rest) := by
  rw [apart_text_iff hx, List.head?_append_of_ne_nil _ (text_ne_nil hy)]
  refine ⟨h.percent, h.equals, ?_⟩
  rintro rfl
  exact h.colon rfl

theorem scan_source_of_greedy : ∀ {xs : List Lexeme}, (∀ x ∈ xs, x.symbol.Spells x.text) →
    xs.IsChain Parted → scan (source xs) = xs
  | [], _, _ => rfl
  | x :: xs, hs, hc => by
    have hx := hs x List.mem_cons_self
    have hs' : ∀ y ∈ xs, y.symbol.Spells y.text := fun y hy => hs y (List.mem_cons_of_mem _ hy)
    rw [source_cons, scan_text_append hx, scan_source_of_greedy hs' hc.of_cons]
    intro hne
    rcases xs with _ | ⟨y, ys⟩
    · exact absurd rfl hne
    · rw [List.isChain_cons_cons] at hc
      exact hc.1.apart hx (hs' y List.mem_cons_self) (source ys)

theorem isChain_of_scan : ∀ {xs : List Lexeme} {t : Text}, scan t = xs → xs.IsChain Parted
  | [], _, _ => .nil
  | [x], _, _ => .singleton x
  | x :: y :: ys, t, h => by
    have hx := spells_of_scan_eq_cons h
    obtain ⟨rest, rfl, hrest, -⟩ := scan_eq_cons h
    have hne : rest ≠ [] := by
      rintro rfl
      simp [scan] at hrest
    have happ : scan (x.text ++ rest) = scan x.text ++ scan rest := by
      rw [h, scan_text hx, hrest]
      rfl
    obtain ⟨hpercent, hequals, hcolon⟩ := (apart_text_iff hx).1 (apart_of_scan_append hne happ)
    rw [← head?_text_of_scan hrest] at hequals hcolon
    refine .cons_cons ⟨fun hs => ?_, hequals, hpercent⟩ (isChain_of_scan hrest)
    -- a colon is spelled in one way only
    refine hcolon ?_
    obtain ⟨s, w⟩ := x
    obtain rfl : s = .colon := hs
    obtain rfl := Option.some.inj hx
    rfl

/-! ## The longest match -/

theorem apart_of_longest (hx : x.symbol.Spells x.text)
    (h : ∀ s w, Symbol.Spells s w → w <+: x.text ++ rest → w.length ≤ x.text.length)
    (hne : rest ≠ []) : Apart x.text rest := by
  obtain ⟨c, rest, rfl⟩ := List.exists_cons_of_ne_nil hne
  refine (apart_text_iff hx).2 ⟨?_, ?_, ?_⟩
  · rintro rfl
    have := h .escape ['%', c] ⟨c, rfl⟩ ⟨rest, rfl⟩
    simp [single] at this
  · rintro rfl hc
    obtain rfl : c = '>' := by simpa using hc
    have := h .arrow ['=', '>'] rfl ⟨rest, rfl⟩
    simp [single] at this
  · rintro rfl hc
    obtain rfl : c = ':' := by simpa using hc
    have := h .doubleColon [':', ':'] rfl ⟨rest, rfl⟩
    simp [single] at this

theorem length_le_of_scan (h : scan t = x :: xs) {s : Symbol} {w : Text} (hw : s.Spells w)
    (hpre : w <+: t) : w.length ≤ x.text.length := by
  have hx := List.length_pos_of_ne_nil (text_ne_nil (spells_of_scan_eq_cons h))
  obtain ⟨rest, rfl⟩ := hpre
  by_contra hlt
  have hlong : ∀ c, (⟨s, w⟩ : Lexeme) ≠ single c := by
    intro c hc
    have := congrArg (·.text.length) hc
    simp only [single, List.length_singleton] at this
    omega
  have hscan : scan (w ++ rest) = ⟨s, w⟩ :: scan rest :=
    scan_text_append (x := ⟨s, w⟩) hw fun _ =>
      (apart_text_iff hw).2 ⟨hlong '%', fun hc => absurd hc (hlong '='),
        fun hc => absurd hc (hlong ':')⟩
  rw [h] at hscan
  obtain ⟨rfl, -⟩ := List.cons.inj hscan
  exact hlt le_rfl

theorem longestMatch_of_scan : ∀ {xs : List Lexeme} {t : Text}, scan t = xs → LongestMatch t xs
  | [], t, h => by
    obtain rfl : t = [] := by
      rw [← source_scan t, h]
      rfl
    exact .nil
  | x :: xs, t, h => by
    have hx := spells_of_scan_eq_cons h
    have hlong := fun s w => length_le_of_scan h (s := s) (w := w)
    obtain ⟨rest, rfl, hrest, -⟩ := scan_eq_cons h
    exact .cons hx hlong (longestMatch_of_scan hrest)

theorem LongestMatch.eq_scan (h : LongestMatch t xs) : xs = scan t := by
  induction h with
  | nil => rfl
  | cons hx hlong _ ih => rw [scan_text_append hx (apart_of_longest hx hlong), ih]

/-! ## Spans -/

theorem withSpans_add (k : Nat) : ∀ (xs : List Lexeme) (n : Nat),
    withSpans (n + k) xs = moved k (withSpans n xs)
  | [], _ => rfl
  | x :: xs, n => by
    simp only [withSpans, moved, List.map_cons, Span.shift, Nat.add_right_comm n k]
    rw [withSpans_add k xs]
    rfl

theorem map_fst_moved (k : Nat) (ps : List (Lexeme × Span)) :
    (moved k ps).map Prod.fst = ps.map Prod.fst := by
  simp [moved]

theorem withSpans_eq_append {ps qs : List (Lexeme × Span)} {n : Nat}
    (h : withSpans n xs = ps ++ qs) : xs = ps.map Prod.fst ++ qs.map Prod.fst
      ∧ ps = withSpans n (ps.map Prod.fst)
      ∧ qs = withSpans (n + (source (ps.map Prod.fst)).bytes) (qs.map Prod.fst) := by
  have hxs : xs = ps.map Prod.fst ++ qs.map Prod.fst := by
    rw [← List.map_append, ← h, map_fst_withSpans]
  have hlen : ps.length = (withSpans n (ps.map Prod.fst)).length := by
    have := congrArg List.length (map_fst_withSpans (ps.map Prod.fst) n)
    simpa only [List.length_map] using this.symm
  rw [hxs, withSpans_append] at h
  exact ⟨hxs, List.append_inj h.symm hlen⟩

theorem start_of_head? {n : Nat} {p : Lexeme × Span} (h : p ∈ (withSpans n xs).head?) :
    p.2.start = n := by
  rcases xs with _ | ⟨x, xs⟩
  · simp [withSpans] at h
  · simp only [withSpans, List.head?_cons, Option.mem_def, Option.some.injEq] at h
    rw [← h]

theorem stop_of_getLast? : ∀ {xs : List Lexeme} {n : Nat} {p : Lexeme × Span},
    p ∈ (withSpans n xs).getLast? → p.2.stop = n + (source xs).bytes
  | [], _, _, h => by simp [withSpans] at h
  | [x], n, p, h => by
    simp only [withSpans, List.getLast?_singleton, Option.mem_def, Option.some.injEq] at h
    simp [← h]
  | x :: y :: ys, n, p, h => by
    have hlast : p ∈ (withSpans (n + x.text.bytes) (y :: ys)).getLast? := by
      simpa only [withSpans, List.getLast?_cons_cons] using h
    rw [stop_of_getLast? hlast, source_cons x, Text.bytes_append]
    omega

/-- Lexemes in a row cover the text from the first to the last of them, and are read in it. -/
theorem exists_covers_of_run {ps qs rs : List (Lexeme × Span)}
    (h : withSpans 0 (scan t) = ps ++ qs ++ rs) {first last : Lexeme × Span}
    (hfirst : first ∈ qs.head?) (hlast : last ∈ qs.getLast?) :
    ∃ u, t.Covers ⟨first.2.start, last.2.stop⟩ u ∧ qs = withSpans first.2.start (scan u) := by
  rw [List.append_assoc] at h
  obtain ⟨hscan, -, hrun⟩ := withSpans_eq_append h
  obtain ⟨-, hqs, -⟩ := withSpans_eq_append hrun.symm
  rw [Nat.zero_add] at hqs
  rw [List.map_append, ← List.append_assoc] at hscan
  rw [hqs] at hfirst hlast
  have hstart := start_of_head? hfirst
  have ht : t = source (ps.map Prod.fst) ++ source (qs.map Prod.fst)
      ++ source (rs.map Prod.fst) := by
    rw [← source_scan t, hscan, source_append, source_append]
  refine ⟨_, Text.covers_of_eq ht hstart (stop_of_getLast? hlast), ?_⟩
  rw [scan_slice hscan, hstart]
  exact hqs

theorem consecutive_withSpans : ∀ (xs : List Lexeme) (n : Nat),
    Span.Consecutive n ((withSpans n xs).map Prod.snd) (n + (source xs).bytes)
  | [], n => .nil n
  | x :: xs, n => by
    have ih := consecutive_withSpans xs (n + x.text.bytes)
    rw [Nat.add_assoc, ← Text.bytes_append] at ih
    exact .cons (s := ⟨n, n + x.text.bytes⟩) (Nat.le_add_right _ _) ih

theorem eq_withSpans_of_covers : ∀ {ps : List (Lexeme × Span)} {n m : Nat},
    Span.Consecutive n (ps.map Prod.snd) m → (∀ p ∈ ps, t.Covers p.2 p.1.text) →
      ps = withSpans n (ps.map Prod.fst)
  | [], _, _, _, _ => rfl
  | (x, span) :: ps, n, m, hc, hcov => by
    have hx := hcov _ List.mem_cons_self
    obtain ⟨before, hslice⟩ := hx.slice
    obtain ⟨-, -, -, hbytes⟩ := Text.exists_of_slice? hslice
    have hstop : span.stop = span.start + x.text.bytes := by
      have := hx.ordered
      simp only at this hbytes
      omega
    rw [List.map_cons] at hc
    cases hc with
    | cons _ hrest =>
      have ih := eq_withSpans_of_covers hrest fun p hp => hcov p (List.mem_cons_of_mem _ hp)
      simp only [List.map_cons, withSpans]
      rw [← hstop, ← ih]

theorem tiling_withSpans (t : Text) : Tiling t (withSpans 0 (scan t)) := by
  have hlex : ∀ p ∈ withSpans 0 (scan t), p.1 ∈ scan t := by
    intro p hp
    rw [← map_fst_withSpans (scan t) 0]
    exact List.mem_map_of_mem hp
  refine ⟨?_, ?_, fun p hp => ?_, fun p hp => spells_of_mem_scan (hlex p hp), ?_⟩
  · rw [map_fst_withSpans, source_scan]
  · have := consecutive_withSpans (scan t) 0
    rwa [source_scan, Nat.zero_add] at this
  · obtain ⟨ps, rs, hsplit⟩ := List.append_of_mem hp
    have hrun : withSpans 0 (scan t) = ps ++ [p] ++ rs := by simpa using hsplit
    obtain ⟨u, hcovers, hu⟩ := exists_covers_of_run hrun rfl rfl
    have htext : p.1.text = u := by
      have := congrArg (fun qs => source (qs.map Prod.fst)) hu
      simpa [map_fst_withSpans, source_scan] using this
    rwa [htext]
  · rw [map_fst_withSpans]
    exact isChain_of_scan rfl

theorem Tiling.eq_withSpans {ps : List (Lexeme × Span)} (h : Tiling t ps) :
    ps = withSpans 0 (scan t) := by
  have hlex : ps.map Prod.fst = scan t := by
    rw [← h.texts]
    refine (scan_source_of_greedy (fun x hx => ?_) h.greedy).symm
    obtain ⟨p, hp, rfl⟩ := List.mem_map.1 hx
    exact h.spelled p hp
  rw [← hlex]
  exact eq_withSpans_of_covers h.spans h.covers

/-- The lexemes of a text with their bytes are the one tiling of it that misses no sequence, and the
one reading of it by the longest match. -/
theorem only_tiling (t : Text) :
    (∀ ps, Tiling t ps ↔ ps = withSpans 0 (scan t)) ∧ ∀ xs, LongestMatch t xs ↔ xs = scan t := by
  refine ⟨fun ps => ⟨Tiling.eq_withSpans, ?_⟩, fun xs => ⟨LongestMatch.eq_scan, ?_⟩⟩
  · rintro rfl
    exact tiling_withSpans t
  · rintro rfl
    exact longestMatch_of_scan rfl

example : withSpans 0 (scan ['%', 'é', ':', ':', ':', '=', '>', '%'])
    = [(⟨.escape, ['%', 'é']⟩, ⟨0, 3⟩), (⟨.doubleColon, [':', ':']⟩, ⟨3, 5⟩),
      (⟨.colon, [':']⟩, ⟨5, 6⟩), (⟨.arrow, ['=', '>']⟩, ⟨6, 8⟩), (⟨.plain, ['%']⟩, ⟨8, 9⟩)] := by
  decide

/-! ## Slices -/

theorem withSpans_scan_append {a b : Text} (h : scan (a ++ b) = scan a ++ scan b) :
    withSpans 0 (scan (a ++ b))
      = withSpans 0 (scan a) ++ moved a.bytes (withSpans 0 (scan b)) := by
  rw [h, withSpans_append, source_scan, withSpans_add]

/-- Lexemes in a row are read again from the text that they cover, with their bytes counted from its
first. Two texts in a row are read one after the other if they are apart, and only then unless the
second is empty. -/
theorem scan_of_slice :
    (∀ (t : Text) (ps qs rs : List (Lexeme × Span)), withSpans 0 (scan t) = ps ++ qs ++ rs →
      ∀ first ∈ qs.head?, ∀ last ∈ qs.getLast?,
        ∃ u, t.Covers ⟨first.2.start, last.2.stop⟩ u
          ∧ moved first.2.start (withSpans 0 (scan u)) = qs)
    ∧ ∀ a b : Text,
      (Apart a b → withSpans 0 (scan (a ++ b))
        = withSpans 0 (scan a) ++ moved a.bytes (withSpans 0 (scan b)))
      ∧ (b ≠ [] → withSpans 0 (scan (a ++ b))
        = withSpans 0 (scan a) ++ moved a.bytes (withSpans 0 (scan b)) → Apart a b) := by
  refine ⟨fun t ps qs rs h first hfirst last hlast => ?_, fun a b => ⟨fun h => ?_, fun hb h => ?_⟩⟩
  · obtain ⟨u, hcovers, hqs⟩ := exists_covers_of_run h hfirst hlast
    exact ⟨u, hcovers, by rw [hqs, ← withSpans_add, Nat.zero_add]⟩
  · exact withSpans_scan_append (scan_append h)
  · refine apart_of_scan_append hb ?_
    have hlex := congrArg (List.map Prod.fst) h
    rw [List.map_append, map_fst_withSpans, map_fst_withSpans, moved, List.map_map] at hlex
    exact hlex.trans (congrArg _ (map_fst_withSpans _ 0))

/-- Of `é:::%>` the last two lexemes are read again as they stand, from the fifth byte on. The `>`
after `%=` is read alone, because the `=` is escaped; the colon after a colon is not. -/
theorem scan_of_slice_escaped :
    (∃ u, Text.Covers ['é', ':', ':', ':', '%', '>'] ⟨4, 7⟩ u
      ∧ moved 4 (withSpans 0 (scan u))
        = [(⟨.colon, [':']⟩, ⟨4, 5⟩), (⟨.escape, ['%', '>']⟩, ⟨5, 7⟩)])
    ∧ (Apart ['%', '='] ['>'] ∧ withSpans 0 (scan ['%', '=', '>'])
      = withSpans 0 (scan ['%', '=']) ++ moved 2 (withSpans 0 (scan ['>'])))
    ∧ withSpans 0 (scan [':', ':'])
      ≠ withSpans 0 (scan [':']) ++ moved 1 (withSpans 0 (scan [':'])) := by
  obtain ⟨hslice, hrow⟩ := scan_of_slice
  have hapart : Apart ['%', '='] ['>'] := by simp [Apart, scan, single]
  refine ⟨?_, ⟨hapart, (hrow ['%', '='] ['>']).1 hapart⟩, fun h => ?_⟩
  · exact hslice _ [(⟨.plain, ['é']⟩, ⟨0, 2⟩), (⟨.doubleColon, [':', ':']⟩, ⟨2, 4⟩)]
      [(⟨.colon, [':']⟩, ⟨4, 5⟩), (⟨.escape, ['%', '>']⟩, ⟨5, 7⟩)] [] (by decide) _ rfl _ rfl
  · have hcolons := (hrow [':'] [':']).2 (by simp) h
    simp [Apart, scan_singleton] at hcolons

end Lexeme

end TypeSig
