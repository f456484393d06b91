import TypeSig.Proofs.Blanks
import TypeSig.Proofs.MacroChains
import TypeSig.Proofs.Memoization

/-!
# The place of a malformed constraint

The error for a malformed constraint tells a span of bytes. It was put together from the place of a
constraint in its block, of the block in its stage and of the stage in the signature.
`FirstMalformed` says that the span is right: it covers the constraint, which has no blanks at its
ends and not three words, and everything before it was in order. `firstMalformed_of_parse` proves
this of every such error, with and without a parser.

A piece of a text stands in it where its first byte says (`exists_of_mem_split`). Of the pieces of
a block all before the refused one are constraints (`parsePieces_eq_error`). The errors of a reader
of type tokens are errors of macros, so they are not mistaken for errors of constraints.
-/

namespace TypeSig

/-- The span covers `c` in `t`, from one character boundary to another. -/
structure Text.Covers (t : Text) (span : Span) (c : Text) : Prop where
  ordered : span.start ≤ span.stop
  inside : span.stop ≤ t.bytes
  start_boundary : (t.cutAt? span.start).isSome
  stop_boundary : (t.cutAt? span.stop).isSome
  slice : ∃ before, t.slice? span = some (before, c)

/-- The first text of the block of a stage that is not made of three words is `c`, with blanks
around it, and `c` begins at byte `n` of the stage. -/
def Stage.FirstMalformed (stage c : Text) (n : Nat) : Prop :=
  ∃ (block : Piece) (types : List Piece) (good rest : List Text) (v w : Text),
    Piece.split (· == .doubleColon) stage = block :: types ∧ types ≠ []
      ∧ block.text.splitOn ',' = good ++ (v ++ c ++ w) :: rest
      ∧ (∀ g ∈ good, Text.runs false g = 3) ∧ v.AllBlank ∧ w.AllBlank
      ∧ n = Text.bytes (good.flatMap (· ++ [','])) + v.bytes

/-- The span covers the first malformed constraint `c` of a signature, which has `found` words.
`parse` reads the stages before it. -/
structure Signature.FirstMalformed (parse : Text → Except ParseError Stage) (t c : Text)
    (found : Nat) (span : Span) : Prop where
  covers : t.Covers span c
  trimmed : c.Trimmed
  found_eq : found = Text.runs false c
  found_ne : found ≠ 3
  leftmost : ∃ (earlier : List Piece) (stage : Piece) (later : List Piece) (n : Nat),
    Piece.split (· == .arrow) t = earlier ++ stage :: later
      ∧ (∃ a b, t = a ++ stage.text ++ b ∧ stage.start = a.bytes)
      ∧ (∀ p ∈ earlier, ∃ s, parse p.text = .ok s)
      ∧ Stage.FirstMalformed stage.text c n ∧ span.start = stage.start + n

theorem Text.covers_of_eq {t a c b : Text} {span : Span} (ht : t = a ++ c ++ b)
    (hstart : span.start = a.bytes) (hstop : span.stop = a.bytes + c.bytes) : t.Covers span c := by
  have h1 : cutAt? span.start t = some (a, c ++ b) := by
    rw [hstart, ht, List.append_assoc, cutAt?_bytes_append]
  have h2 : cutAt? span.stop t = some (a ++ c, b) := by
    rw [hstop, ht, ← bytes_append, cutAt?_bytes_append]
  have h3 : cutAt? (span.stop - span.start) (c ++ b) = some (c, b) := by
    rw [hstart, hstop, Nat.add_sub_cancel_left, cutAt?_bytes_append]
  refine ⟨by omega, ?_, by simp [h1], by simp [h2], a, ?_⟩
  · rw [hstop, ht]
    simp only [bytes_append]
    omega
  · simp [slice?, h1, h3]

/-! ## Pieces in their text -/

namespace Piece

open Lexeme

variable {test : Symbol → Bool}

theorem exists_of_cut_eq_cons : ∀ {xs : List Lexeme} {d start : Nat} {p : Piece} {ps : List Piece},
    cut test d start xs = p :: ps → p.start = start ∧ ∃ b, source xs = p.text ++ b
  | [], _, _, _, _, h => by simp [cut] at h
  | x :: xs, d, start, p, ps, h => by
    simp only [cut] at h
    split_ifs at h
    · obtain ⟨rfl, -⟩ : ⟨[], start⟩ = p ∧ _ := by simpa using h
      exact ⟨rfl, _, rfl⟩
    · rcases hr : cut test (x.symbol.depth d) (start + x.text.bytes) xs with _ | ⟨q, qs⟩
      · rw [hr] at h
        obtain ⟨rfl, -⟩ : ⟨x.text, start⟩ = p ∧ _ := by simpa [grow] using h
        exact ⟨rfl, _, rfl⟩
      · rw [hr] at h
        obtain ⟨rfl, -⟩ : ⟨x.text ++ q.text, start⟩ = p ∧ _ := by simpa [grow] using h
        obtain ⟨-, b, hb⟩ := exists_of_cut_eq_cons hr
        exact ⟨rfl, b, by simp [hb]⟩

theorem exists_of_mem_cut : ∀ {xs : List Lexeme} {d start : Nat} {p : Piece},
    p ∈ cut test d start xs → ∃ a b, source xs = a ++ p.text ++ b ∧ p.start = start + a.bytes
  | [], _, _, _, h => by simp [cut] at h
  | x :: xs, d, start, p, h => by
    rcases hc : cut test d start (x :: xs) with _ | ⟨q, qs⟩
    · simp [hc] at h
    · rw [hc] at h
      rcases List.mem_cons.1 h with rfl | h
      · obtain ⟨hs, b, hb⟩ := exists_of_cut_eq_cons hc
        exact ⟨[], b, hb, hs⟩
      · -- a later piece is a piece of the later lexemes, whether the first lexeme is a cut or not
        have hrest : p ∈ cut test (x.symbol.depth d) (start + x.text.bytes) xs := by
          simp only [cut] at hc
          split_ifs at hc
          · obtain ⟨-, rfl⟩ : _ ∧ cut test _ _ xs = qs := by simpa using hc
            exact h
          · rcases hr : cut test (x.symbol.depth d) (start + x.text.bytes) xs with _ | ⟨r, rs⟩
            · rw [hr] at hc
              obtain ⟨-, rfl⟩ : _ ∧ [] = qs := by simpa [grow] using hc
              simp at h
            · rw [hr] at hc
              obtain ⟨-, rfl⟩ : _ ∧ rs = qs := by simpa [grow] using hc
              exact List.mem_cons_of_mem _ h
        obtain ⟨a, b, hab, hs⟩ := exists_of_mem_cut hrest
        exact ⟨x.text ++ a, b, by simp [hab], by simp [hs, Nat.add_assoc]⟩

theorem exists_of_mem_split {t : Text} {p : Piece} (h : p ∈ split test t) :
    ∃ a b, t = a ++ p.text ++ b ∧ p.start = a.bytes := by
  obtain ⟨a, b, hab, hs⟩ := exists_of_mem_cut h
  exact ⟨a, b, by rw [← hab, source_scan], by rw [hs, Nat.zero_add]⟩

theorem exists_of_split_eq_cons {t : Text} {p : Piece} {ps : List Piece}
    (h : split test t = p :: ps) : p.start = 0 ∧ ∃ b, t = p.text ++ b := by
  obtain ⟨hs, b, hb⟩ := exists_of_cut_eq_cons h
  exact ⟨hs, b, by rw [← hb, source_scan]⟩

end Piece

/-! ## The first error of a block -/

namespace Constraint

theorem parse_eq_ok {start : Nat} {t : Text} {c : Constraint} (h : parse start t = .ok c) :
    Text.runs false t = 3 := by
  rw [← Text.length_words]
  unfold parse at h
  split at h
  · rename_i hw
    rw [hw]
    rfl
  · simp at h

theorem parse_eq_error {start : Nat} {t : Text} {e : ParseError} (h : parse start t = .error e) :
    Text.runs false t ≠ 3 ∧ e = malformed start t := by
  rw [← Text.length_words]
  unfold parse at h
  split at h
  · simp at h
  · rename_i hw
    injection h with h
    refine ⟨fun h3 => ?_, h.symm⟩
    obtain ⟨a, b, c, habc⟩ := List.length_eq_three.1 h3
    exact hw a b c habc

theorem parsePieces_eq_error : ∀ {ts : List Text} {start : Nat} {e : ParseError},
    parsePieces start ts = .error e → ∃ good bad rest, ts = good ++ bad :: rest
      ∧ (∀ g ∈ good, Text.runs false g = 3) ∧ Text.runs false bad ≠ 3
      ∧ e = malformed (start + Text.bytes (good.flatMap (· ++ [',']))) bad
  | [], _, _, h => by simp [parsePieces] at h
  | t :: ts, start, e, h => by
    rw [parsePieces] at h
    rcases bind_eq_error.1 h with h | ⟨c, hc, h⟩
    · obtain ⟨hne, he⟩ := parse_eq_error h
      exact ⟨[], t, ts, rfl, by simp, hne, he⟩
    · rcases bind_eq_error.1 h with h | ⟨cs, -, h⟩
      · obtain ⟨good, bad, rest, rfl, hgood, hbad, he⟩ := parsePieces_eq_error h
        refine ⟨t :: good, bad, rest, rfl, ?_, hbad, ?_⟩
        · rintro g hg
          rcases List.mem_cons.1 hg with rfl | hg
          · exact parse_eq_ok hc
          · exact hgood g hg
        · have hcomma : Text.bytes [','] = 1 := by decide
          rw [he, List.flatMap_cons, Text.bytes_append, Text.bytes_append, hcomma]
          simp only [Nat.add_assoc]
      · injection h

theorem malformed_pad (start : Nat) (t : Text) : ∃ v w : Text, v.AllBlank ∧ w.AllBlank
    ∧ t = v ++ t.trim ++ w ∧ malformed start t = .malformedConstraint t.trim
      (Text.runs false t.trim) ⟨start + v.bytes, start + v.bytes + t.trim.bytes⟩ := by
  obtain ⟨v, w, hv, hw, ht, hstart⟩ := Text.exists_pad t
  refine ⟨v, w, hv, hw, ht, ?_⟩
  have hbytes : t.bytes - t.trimStart.bytes = v.bytes := by
    have := congrArg Text.bytes ht
    rw [hstart, this]
    simp only [Text.bytes_append]
    omega
  rw [malformed, hbytes, ← Text.length_words, Text.words_trim]

end Constraint

theorem intercalate_append_cons (good rest : List Text) (bad : Text) :
    ∃ tail, [','].intercalate (good ++ bad :: rest)
      = good.flatMap (· ++ [',']) ++ bad ++ tail := by
  induction good with
  | nil =>
    rcases rest with _ | ⟨r, rest⟩
    · exact ⟨[], by simp [List.intercalate]⟩
    · exact ⟨',' :: [','].intercalate (r :: rest), by simp [List.intercalate]⟩
  | cons g good ih =>
    obtain ⟨tail, ih⟩ := ih
    refine ⟨tail, ?_⟩
    have hne : good ++ bad :: rest ≠ [] := by simp
    obtain ⟨x, xs, hx⟩ := List.exists_cons_of_ne_nil hne
    rw [List.flatMap_cons, List.append_assoc, List.append_assoc, ← List.append_assoc _ bad, ← ih,
      List.cons_append, hx]
    simp [List.intercalate]

theorem Stage.outline_eq_error {t : Text} {e : ParseError} (h : outline t = .error e) :
    ∃ block types e', Piece.split (· == .doubleColon) t = block :: types ∧ types ≠ []
      ∧ Constraint.parseBlock block.text = .error e' ∧ e = e'.shift block.start := by
  unfold outline at h
  split at h
  · rename_i block p ps hsplit
    rcases hb : Constraint.parseBlock block.text with e' | cs
    · rw [hb] at h
      injection h with h
      exact ⟨block, p :: ps, e', hsplit, by simp, hb, h.symm⟩
    · rw [hb] at h
      injection h
  · injection h

/-- The first malformed constraint of a stage, and the bytes of the stage that it covers. -/
theorem Stage.firstMalformed_of_outline {t c : Text} {found : Nat} {span : Span}
    (h : outline t = .error (.malformedConstraint c found span)) :
    c.Trimmed ∧ found = Text.runs false c ∧ found ≠ 3 ∧ FirstMalformed t c span.start
      ∧ ∃ a b, t = a ++ c ++ b ∧ span = ⟨a.bytes, a.bytes + c.bytes⟩ := by
  obtain ⟨block, types, e, hsplit, hne, hb, he⟩ := outline_eq_error h
  obtain ⟨good, bad, rest, hts, hgood, hbad, rfl⟩ := Constraint.parsePieces_eq_error hb
  obtain ⟨v, w, hv, hw, hpad, hmal⟩ :=
    Constraint.malformed_pad (0 + Text.bytes (good.flatMap (· ++ [',']))) bad
  obtain ⟨hstart, b, ht⟩ := Piece.exists_of_split_eq_cons hsplit
  rw [hmal, hstart, ParseError.shift, Span.shift] at he
  simp only [Nat.add_zero, Nat.zero_add] at he
  injection he with hc hfound hspan
  subst hc hspan
  have hruns : Text.runs false bad.trim = Text.runs false bad := by
    rw [← Text.length_words, ← Text.length_words, Text.words_trim]
  refine ⟨Text.trimmed_trim bad, hfound, by rw [hfound, hruns]; exact hbad, ?_, ?_⟩
  · exact ⟨block, types, good, rest, v, w, hsplit, hne, by rw [hts, ← hpad], hgood, hv, hw, rfl⟩
  · obtain ⟨tail, htail⟩ := intercalate_append_cons good rest bad
    have hblock : block.text = good.flatMap (· ++ [',']) ++ bad ++ tail := by
      rw [← htail, ← hts, List.intercalate_splitOn]
    refine ⟨good.flatMap (· ++ [',']) ++ v, w ++ tail ++ b, ?_, ?_⟩
    · rw [ht, hblock]
      nth_rewrite 1 [hpad]
      simp only [List.append_assoc]
    · simp only [Text.bytes_append]

/-! ## The error of a signature -/

theorem ParseError.exists_of_shift {e : ParseError} {n : Nat} {c : Text} {found : Nat} {span : Span}
    (h : e.shift n = .malformedConstraint c found span) :
    ∃ span', e = .malformedConstraint c found span' ∧ span = span'.shift n := by
  cases e with
  | macroContract | missingOutput => simp [shift] at h
  | malformedConstraint c' found' span' =>
    injection h with hc hfound hspan
    exact ⟨span', by rw [hc, hfound], hspan.symm⟩

theorem Chain.apply_eq_error {chain : List Macro} {t : Text} {e : ParseError}
    (h : apply chain t = .error e) : ∃ value kind, e = .macroContract value kind := by
  obtain ⟨before, m, u, -, he⟩ := apply_eq_error_iff.1 h
  exact ⟨_, _, he⟩

theorem Registry.typeOf_ne_malformed (r : Registry) (token c : Text) (found : Nat) (span : Span) :
    r.typeOf token ≠ .error (.malformedConstraint c found span) := by
  intro h
  rcases bind_eq_error.1 h with h | ⟨u, -, h⟩
  · obtain ⟨value, kind, he⟩ := Chain.apply_eq_error h
    injection he
  · injection h

namespace Signature

variable {read : Text → Except ParseError TypeDescriptor} {requireOutput : Bool} {t c : Text}
  {found : Nat} {span : Span}
  (hread : ∀ token c found span, read token ≠ .error (.malformedConstraint c found span))

include hread in
theorem outline_of_readPiece {p : Piece}
    (h : Stage.readPiece read p = .error (.malformedConstraint c found span)) :
    ∃ span', Stage.outline p.text = .error (.malformedConstraint c found span')
      ∧ span = span'.shift p.start := by
  rcases bind_eq_error.1 h with h | ⟨o, -, h⟩
  · rcases ho : Stage.outline p.text with e | o
    · rw [ho] at h
      injection h with h
      obtain ⟨span', rfl, hspan⟩ := ParseError.exists_of_shift h
      exact ⟨span', rfl, hspan⟩
    · rw [ho] at h
      injection h
  · rcases bind_eq_error.1 h with h | ⟨types, -, h⟩
    · obtain ⟨-, token, -, -, -, he⟩ := mapM_eq_error_iff.1 h
      exact absurd he (hread token c found span)
    · injection h

include hread in
theorem firstMalformed_of_parseWith
    (h : parseWith requireOutput read t = .error (.malformedConstraint c found span)) :
    FirstMalformed (Stage.readWith read) t c found span := by
  rcases parseWith_eq_error_iff.1 h with ⟨-, -, he⟩ | ⟨-, earlier, p, later, hsplit, hok, he⟩
  · injection he
  · obtain ⟨span, ho, rfl⟩ := outline_of_readPiece hread he
    obtain ⟨htrim, hfound, hne, hfirst, a, b, hab, rfl⟩ := Stage.firstMalformed_of_outline ho
    obtain ⟨a', b', ht, hstart⟩ := Piece.exists_of_mem_split (p := p) (by rw [hsplit]; simp)
    have ht' : t = (a' ++ a) ++ c ++ (b ++ b') := by
      rw [ht, hab]
      simp only [List.append_assoc]
    refine ⟨Text.covers_of_eq ht' ?_ ?_, htrim, hfound, hne,
      earlier, p, later, a.bytes, hsplit, ⟨a', b', ht, hstart⟩, hok, hfirst, ?_⟩
    · rw [hstart, Text.bytes_append]
      exact Nat.add_comm _ _
    · rw [hstart, Text.bytes_append]
      simp only [Span.shift]
      omega
    · exact Nat.add_comm _ _

/-- The error for a malformed constraint is about the first one, and tells where it is; of a parser
this holds for the text after the macros, whatever was asked of the parser before. -/
theorem firstMalformed_of_parse :
    (∀ t c found span, parse t = .error (.malformedConstraint c found span) →
      FirstMalformed Stage.parse t c found span) ∧
    ∀ (options : Options) (ops : List Operation) (p : Parser),
      p = ((Parser.new options).run ops).2 → ∀ t c found span,
        (p.parseSignature t).1 = .error (.malformedConstraint c found span) →
        ∃ u, Chain.apply p.rules.macros.signatureLevel t = .ok u
          ∧ FirstMalformed (fun s => (p.parseStage s).1) u c found span := by
  refine ⟨fun t c found span h => ?_, ?_⟩
  · exact firstMalformed_of_parseWith (fun _ _ _ _ h => by injection h) h
  · rintro options ops p rfl t c found span h
    set p := ((Parser.new options).run ops).2
    have hp : p.Sound := (Parser.run_spec ops (Parser.sound_new options)).2.2
    have hstage : (fun s => (p.parseStage s).1) = Stage.readWith p.rules.macros.typeOf :=
      funext fun s => (Parser.read_spec hp (Rules.yields_parseStage s)).1
    rw [Parser.parseSignature, (Parser.read_spec hp (Rules.yields_parseSignature t)).1] at h
    rcases bind_eq_error.1 h with h | ⟨u, hu, h⟩
    · obtain ⟨value, kind, he⟩ := Chain.apply_eq_error h
      injection he
    · rw [hstage]
      exact ⟨u, hu, firstMalformed_of_parseWith p.rules.macros.typeOf_ne_malformed h⟩

/-- In `a=>x y z , é b ::t` the second constraint of the second stage is refused. A parser that puts
the first stage in front finds it in the same place. -/
theorem firstMalformed_of_parse_later_stage :
    FirstMalformed Stage.parse ['a', '=', '>', 'x', ' ', 'y', ' ', 'z', ' ', ',', ' ', 'é', ' ',
      'b', ' ', ':', ':', 't'] ['é', ' ', 'b'] 2 ⟨11, 15⟩ ∧
    ∃ u, FirstMalformed (fun s => (((Parser.new {}).run
      [.register .signature (Macro.wrap ['a', '=', '>'] [])]).2.parseStage s).1) u
      ['é', ' ', 'b'] 2 ⟨11, 15⟩ := by
  refine ⟨firstMalformed_of_parse.1 _ _ _ _ (by rfl), ?_⟩
  obtain ⟨u, -, hu⟩ := firstMalformed_of_parse.2 {}
    [.register .signature (Macro.wrap ['a', '=', '>'] [])] _ rfl
    ['x', ' ', 'y', ' ', 'z', ' ', ',', ' ', 'é', ' ', 'b', ' ', ':', ':', 't'] ['é', ' ', 'b'] 2
    ⟨11, 15⟩ (by rfl)
  exact ⟨u, hu⟩

end Signature

end TypeSig
