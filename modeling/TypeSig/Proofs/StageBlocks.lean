import TypeSig.Proofs.Splitting

/-!
# The block of a stage and its types

The first `::` of a stage ends its block of constraints, unless nothing follows it; the text after
it is the text of the types. `parse_of_blocks` says this of every stage. The reader cuts the stage at
every `::` and joins the pieces after the first again, so each later `::` is there as before, except
that a `::` at the very end is lost (`intercalate_parts`).

What stands in the block has no influence on what follows it (`parse_after_block`). Its angle
brackets may leave any depth behind, and the `::` after it sets the depth to zero; so the stage and
the signature go on as if the block were not there.
-/

namespace TypeSig

open Lexeme

namespace Lexeme

/-- The lexemes without a `::` that ends them. -/
def dropFinal (xs : List Lexeme) : List Lexeme :=
  if xs.getLast?.any (·.symbol == .doubleColon) then xs.dropLast else xs

theorem dropFinal_concat {x : Lexeme} (hx : x.symbol = .doubleColon) (xs : List Lexeme) :
    dropFinal (xs ++ [x]) = xs := by
  simp [dropFinal, hx]

theorem dropFinal_append_cons {ys : List Lexeme} (hne : ys ≠ []) (xs : List Lexeme) (x : Lexeme) :
    dropFinal (xs ++ x :: ys) = xs ++ x :: dropFinal ys := by
  have hlast : (xs ++ x :: ys).getLast? = ys.getLast? := by
    rw [List.getLast?_append, List.getLast?_cons, List.getLast?_eq_some_getLast hne]
    rfl
  unfold dropFinal
  rw [hlast]
  split_ifs
  · rw [List.dropLast_append_of_ne_nil (by simp), List.dropLast_cons_of_ne_nil hne]
  · rfl

theorem dropFinal_of_forall {xs : List Lexeme} (h : ∀ x ∈ xs, x.symbol ≠ .doubleColon) :
    dropFinal xs = xs := by
  unfold dropFinal
  rw [if_neg]
  simp only [Option.any_eq_true, beq_iff_eq, not_exists, not_and]
  exact fun x hx => h x (List.mem_of_getLast? hx)

end Lexeme

namespace Piece

variable {test : Symbol → Bool}

/-- A `::` is always a cut, because it closes every clause. -/
theorem isCut_doubleColon {d : Nat} {xs : List Lexeme} {x : Lexeme} :
    IsCut (· == .doubleColon) d xs x ↔ x.symbol = .doubleColon := by
  simp only [IsCut, beq_iff_eq]
  refine ⟨fun h => h.1, fun h => ⟨h, ?_⟩⟩
  rw [h]
  rfl

theorem quiet_doubleColon {d : Nat} {xs : List Lexeme} :
    Quiet (· == .doubleColon) d xs ↔ ∀ x ∈ xs, x.symbol ≠ .doubleColon := by
  rw [quiet_iff]
  simp only [isCut_doubleColon]
  constructor
  · intro h x hx
    obtain ⟨as, bs, rfl⟩ := List.append_of_mem hx
    exact h as x bs rfl
  · rintro h as x bs rfl
    exact h x (by simp)

/-- The parts between the `::`, joined with `::`, are the lexemes without a `::` that ends them. -/
theorem intercalate_parts {zs : List Lexeme} {parts : List (List Lexeme)}
    (h : Parts (· == .doubleColon) zs parts)
    (hzs : ∀ x ∈ zs, x.symbol = .doubleColon → x.text = [':', ':']) :
    [':', ':'].intercalate (parts.map source) = source (dropFinal zs) := by
  induction h with
  | nil => rfl
  | whole hq _ => simp [dropFinal_of_forall (quiet_doubleColon.1 hq)]
  | @cut xs ys x parts _ hx hparts ih =>
    have hdouble := isCut_doubleColon.1 hx
    rcases parts with _ | ⟨part, parts⟩
    · cases hparts
      simp [dropFinal_concat hdouble]
    · have hne : ys ≠ [] := by
        rintro rfl
        simpa [Piece.cut] using hparts.map_text 0
      have ih := ih fun y hy => hzs y (by simp [hy])
      rw [dropFinal_append_cons hne, List.map_cons, List.map_cons, List.intercalate_cons_cons,
        ← List.map_cons, ih, source_append, source_cons, hzs x (by simp) hdouble, List.append_assoc]

theorem map_text_cut (test : Symbol → Bool) (t : Text) (start : Nat) :
    (cut test 0 start (scan t)).map text = splitTexts test t := by
  obtain ⟨parts, hparts⟩ := exists_parts test (scan t)
  rw [splitTexts, split, hparts.map_text, hparts.map_text]

theorem grow_grow (start start' : Nat) (a b : Text) (ps : List Piece) :
    grow start a (grow start' b ps) = grow start (a ++ b) ps := by
  rcases ps with _ | ⟨p, ps⟩ <;> simp [grow]

theorem map_text_grow {ps : List Piece} (hne : ps ≠ []) (start : Nat) (t : Text) :
    (grow start t ps).map text = (ps.map text).modifyHead (t ++ ·) := by
  obtain ⟨p, ps, rfl⟩ := List.exists_cons_of_ne_nil hne
  rfl

/-- What the splitter passes over belongs to the first piece of what follows. -/
theorem cut_append {xs ys : List Lexeme} {d : Nat} (hq : Quiet test d xs) (hne : ys ≠ [])
    (start : Nat) : cut test d start (xs ++ ys) = grow start (source xs)
      (cut test (depthAfter d xs) (start + (source xs).bytes) ys) := by
  induction xs generalizing d start with
  | nil =>
    rcases hys : cut test d start ys with _ | ⟨p, ps⟩
    · exact absurd (cut_eq_nil.1 hys) hne
    · obtain ⟨rfl, -⟩ := exists_of_cut_eq_cons hys
      simp [depthAfter, hys, grow]
  | cons x xs ih =>
    have hx : (test x.symbol && x.symbol.depth d == 0) = false := by simpa using hq.1
    rw [List.cons_append, cut, ih hq.2]
    simp only [hx, Bool.false_eq_true, if_false, grow_grow, source_cons, Text.bytes_append,
      Nat.add_assoc]
    rfl

end Piece

theorem ParseError.shift_zero (e : ParseError) : e.shift 0 = e := by
  cases e <;> rfl

namespace Stage

/-- The first `::` of the text stands between the lexemes `xs` and `ys`, and does not end the
text. -/
structure BlockAt (t : Text) (xs : List Lexeme) (x : Lexeme) (ys : List Lexeme) : Prop where
  scan_eq : scan t = xs ++ x :: ys
  isDoubleColon : x.symbol = .doubleColon
  first : ∀ y ∈ xs, y.symbol ≠ .doubleColon
  ne_nil : ys ≠ []

/-- The text without a `::` that ends it. -/
def withoutFinal (t : Text) : Text := source (dropFinal (scan t))

theorem intercalate_splitTexts (t : Text) :
    [':', ':'].intercalate (Piece.splitTexts (· == .doubleColon) t) = withoutFinal t := by
  obtain ⟨parts, hparts⟩ := Piece.exists_parts (· == .doubleColon) (scan t)
  rw [Piece.splitTexts, Piece.split, hparts.map_text]
  refine Piece.intercalate_parts hparts fun x hx hdouble => ?_
  exact text_of_spelling hx (by rw [hdouble]; rfl)

variable {t : Text} {xs ys : List Lexeme} {x : Lexeme}

theorem BlockAt.text_eq (h : BlockAt t xs x ys) : t = source xs ++ [':', ':'] ++ source ys := by
  have hx : x.text = [':', ':'] :=
    text_of_spelling (t := t) (by rw [h.scan_eq]; simp) (by rw [h.isDoubleColon]; rfl)
  rw [← source_scan t, h.scan_eq, source_append, source_cons, hx, List.append_assoc]

theorem split_of_first (ht : scan t = xs ++ x :: ys) (hx : x.symbol = .doubleColon)
    (hfirst : ∀ y ∈ xs, y.symbol ≠ .doubleColon) :
    ∃ start, Piece.split (· == .doubleColon) t
      = ⟨source xs, 0⟩ :: Piece.cut (· == .doubleColon) 0 start ys := by
  have hq : Piece.Quiet (· == .doubleColon) 0 xs := Piece.quiet_doubleColon.2 hfirst
  have hcut : Piece.IsCut (· == .doubleColon) 0 xs x := Piece.isCut_doubleColon.2 hx
  exact ⟨_, by rw [Piece.split, ht, Piece.cut_append_cons hq hcut.1 hcut.2]⟩

theorem BlockAt.outline_eq (h : BlockAt t xs x ys) :
    outline t = (Constraint.parseBlock (source xs)).map fun cs =>
      ⟨tokensOf (withoutFinal (source ys)), some cs⟩ := by
  have hys : scan (source ys) = ys := by
    have ht : scan t = xs ++ [x] ++ ys := by simp [h.scan_eq]
    exact (scan_source_of_append ht).2
  obtain ⟨start, hsplit⟩ := split_of_first h.scan_eq h.isDoubleColon h.first
  rcases hrest : Piece.cut (· == .doubleColon) 0 start ys with _ | ⟨p, ps⟩
  · exact absurd (Piece.cut_eq_nil.1 hrest) h.ne_nil
  · have htypes : [':', ':'].intercalate ((p :: ps).map Piece.text)
        = withoutFinal (source ys) := by
      rw [← hrest, ← intercalate_splitTexts, ← Piece.map_text_cut _ _ start, hys]
    simp only [outline, hsplit, hrest, htypes]
    rcases Constraint.parseBlock (source xs) with e | cs
    · simp [Except.mapError, bind, Except.bind, Except.map, ParseError.shift_zero]
    · rfl

/-- Without a block there is at most one piece, and the types are all of it. -/
theorem outline_of_not_blockAt (h : ¬ ∃ xs x ys, BlockAt t xs x ys) :
    outline t = .ok ⟨tokensOf (withoutFinal t), none⟩ := by
  have hfew : Piece.split (· == .doubleColon) t = []
      ∨ ∃ p, Piece.split (· == .doubleColon) t = [p] := by
    rcases Piece.quiet_or_cut (· == .doubleColon) (scan t) 0 with hq | ⟨xs, x, ys, ht, hq, hx⟩
    · rcases eq_or_ne t [] with rfl | hne
      · exact .inl rfl
      · exact .inr ⟨_, Piece.cut_of_quiet hq (scan_ne_nil hne) 0⟩
    · rcases eq_or_ne ys [] with rfl | hne
      · obtain ⟨start, hsplit⟩ := split_of_first ht (Piece.isCut_doubleColon.1 hx)
          (Piece.quiet_doubleColon.1 hq)
        exact .inr ⟨_, hsplit⟩
      · exact absurd ⟨xs, x, ys, ht, Piece.isCut_doubleColon.1 hx, Piece.quiet_doubleColon.1 hq,
          hne⟩ h
  rw [← intercalate_splitTexts, Piece.splitTexts]
  rcases hfew with hsplit | ⟨p, hsplit⟩
  · simp only [outline, hsplit]
    rfl
  · simp only [outline, hsplit, List.flatMap_cons, List.flatMap_nil, List.append_nil,
      List.map_cons, List.map_nil, List.intercalate_singleton]
    rfl

theorem parse_eq (t : Text) :
    parse t = (outline t).map fun o => o.withTypes TypeDescriptor.parse := by
  unfold parse
  rcases outline t with e | o
  · rfl
  · exact Signature.fill_of_total (fun _ => rfl) o

theorem BlockAt.parse_eq (h : BlockAt t xs x ys) :
    parse t = (Constraint.parseBlock (source xs)).map fun cs =>
      ⟨(tokensOf (withoutFinal (source ys))).map TypeDescriptor.parse, some cs⟩ := by
  rw [Stage.parse_eq, h.outline_eq]
  rcases Constraint.parseBlock (source xs) with e | cs <;> rfl

theorem parse_of_not_blockAt (h : ¬ ∃ xs x ys, BlockAt t xs x ys) :
    parse t = .ok ⟨(tokensOf (withoutFinal t)).map TypeDescriptor.parse, none⟩ := by
  rw [parse_eq, outline_of_not_blockAt h]
  rfl

theorem parse_eq_ok {s : Stage} (h : parse t = .ok s) :
    (∃ xs x ys cs, BlockAt t xs x ys
      ∧ s = ⟨(tokensOf (withoutFinal (source ys))).map TypeDescriptor.parse, some cs⟩)
    ∨ (¬ ∃ xs x ys, BlockAt t xs x ys)
      ∧ s = ⟨(tokensOf (withoutFinal t)).map TypeDescriptor.parse, none⟩ := by
  by_cases hblock : ∃ xs x ys, BlockAt t xs x ys
  · obtain ⟨xs, x, ys, hat⟩ := hblock
    rw [hat.parse_eq] at h
    rcases hb : Constraint.parseBlock (source xs) with e | cs <;> rw [hb] at h
    · injection h
    · injection h with h
      exact .inl ⟨xs, x, ys, cs, hat, h.symm⟩
  · rw [parse_of_not_blockAt hblock] at h
    injection h with h
    exact .inr ⟨hblock, h.symm⟩

/-- A stage has a block exactly if something follows its first `::`. The block is the text before
that `::`, and the types are those of the text after it, or else of the whole text; in both cases a
final `::` is left out. -/
theorem parse_of_blocks (t : Text) :
    (∀ xs x ys, BlockAt t xs x ys → t = source xs ++ [':', ':'] ++ source ys ∧
      parse t = (Constraint.parseBlock (source xs)).map fun cs =>
        ⟨(tokensOf (withoutFinal (source ys))).map TypeDescriptor.parse, some cs⟩)
    ∧ ((¬ ∃ xs x ys, BlockAt t xs x ys) →
      parse t = .ok ⟨(tokensOf (withoutFinal t)).map TypeDescriptor.parse, none⟩)
    ∧ ∀ s, parse t = .ok s → (s.dependent.isSome ↔ ∃ xs x ys, BlockAt t xs x ys) := by
  refine ⟨fun xs x ys h => ⟨h.text_eq, h.parse_eq⟩, parse_of_not_blockAt, fun s hs => ?_⟩
  rcases parse_eq_ok hs with ⟨xs, x, ys, cs, hat, rfl⟩ | ⟨hno, rfl⟩
  · simpa using ⟨xs, x, ys, hat⟩
  · simpa using hno

/-- In `a < b::c::d,e::` the first `::` ends the block, the second belongs to a type and the last is
lost. The `::` of `a::` ends no block. -/
theorem parse_of_blocks_final :
    parse ['a', ' ', '<', ' ', 'b', ':', ':', 'c', ':', ':', 'd', ',', 'e', ':', ':']
      = .ok ⟨[.parse ['c', ':', ':', 'd'], .parse ['e']], some [⟨['a'], ['<'], ['b']⟩]⟩
    ∧ parse ['a', ':', ':'] = .ok ⟨[.parse ['a']], none⟩ := by
  refine ⟨?_, ?_⟩
  · have hat : BlockAt ['a', ' ', '<', ' ', 'b', ':', ':', 'c', ':', ':', 'd', ',', 'e', ':', ':']
        (scan ['a', ' ', '<', ' ', 'b']) ⟨.doubleColon, [':', ':']⟩
        (scan ['c', ':', ':', 'd', ',', 'e', ':', ':']) :=
      ⟨by decide, rfl, by decide, by decide⟩
    exact ((parse_of_blocks _).1 _ _ _ hat).2
  · refine (parse_of_blocks _).2.1 ?_
    rintro ⟨xs, x, ys, ht, hx, -, hne⟩
    rcases xs with _ | ⟨y, xs⟩
    · obtain rfl : single 'a' = x := (List.cons.inj ht).1
      exact absurd hx (by decide)
    · have hlen : 2 = (y :: xs ++ x :: ys).length := congrArg List.length ht
      have := List.length_pos_iff.2 hne
      simp only [List.length_append, List.length_cons] at hlen
      omega

/-! ## What follows the block -/

/-- A text that the `::` after it ends: it has neither a `::` nor an arrow, and its last lexeme is
not read together with the `::`. -/
structure Separable (m : Text) : Prop where
  symbols : ∀ x ∈ scan m, x.symbol ≠ .doubleColon ∧ x.symbol ≠ .arrow
  last : ∀ x ∈ (scan m).getLast?, x.symbol ≠ .colon ∧ x.text ≠ ['%']

variable {m m' : Text}

theorem Separable.scan_eq (h : Separable m) (t : Text) : scan (m ++ [':', ':'] ++ t)
    = scan m ++ ⟨.doubleColon, [':', ':']⟩ :: scan t := by
  rw [List.append_assoc, scan_append]
  · rfl
  · intro x hx
    obtain ⟨hcolon, hescape⟩ := h.last x hx
    refine ⟨?_, fun _ => by simp, ?_⟩
    · rintro rfl
      exact hescape rfl
    · rintro rfl
      exact absurd rfl hcolon

theorem Separable.blockAt (h : Separable m) (ht : t ≠ []) :
    BlockAt (m ++ [':', ':'] ++ t) (scan m) ⟨.doubleColon, [':', ':']⟩ (scan t) :=
  ⟨h.scan_eq t, rfl, fun x hx => (h.symbols x hx).1, scan_ne_nil ht⟩

theorem Separable.splitTexts_eq (h : Separable m) (ht : t ≠ []) :
    Piece.splitTexts (· == .arrow) (m ++ [':', ':'] ++ t)
      = (Piece.splitTexts (· == .arrow) t).modifyHead (m ++ [':', ':'] ++ ·) := by
  have hq : Piece.Quiet (· == .arrow) 0 (scan m ++ [⟨.doubleColon, [':', ':']⟩]) := by
    refine Piece.quiet_of_forall (fun x hx => ?_) 0
    rcases List.mem_append.1 hx with hx | hx
    · simpa using (h.symbols x hx).2
    · rw [List.mem_singleton.1 hx]
      rfl
  have hdepth : depthAfter 0 (scan m ++ [⟨.doubleColon, [':', ':']⟩]) = 0 :=
    depthAfter_doubleColon rfl 0 (scan m) []
  have hscan : scan (m ++ [':', ':'] ++ t)
      = (scan m ++ [⟨.doubleColon, [':', ':']⟩]) ++ scan t := by
    rw [h.scan_eq, List.append_assoc]
    rfl
  rw [Piece.splitTexts, Piece.split, hscan, Piece.cut_append hq (scan_ne_nil ht), hdepth,
    Piece.map_text_grow, Piece.map_text_cut, source_append, source_scan]
  · rfl
  · rw [Ne, Piece.cut_eq_nil]
    exact scan_ne_nil ht

theorem Separable.readWith_eq (h : Separable m) (ht : t ≠ [])
    (read : Text → Except ParseError TypeDescriptor) {cs : List Constraint}
    (hcs : Constraint.parseBlock m = .ok cs) :
    readWith read (m ++ [':', ':'] ++ t)
      = ((tokensOf (withoutFinal t)).mapM read).map fun types => ⟨types, some cs⟩ := by
  unfold readWith
  rw [(h.blockAt ht).outline_eq, source_scan, source_scan, hcs]
  rfl

/-- The arrows of a text are found after a block as they are without it, and its types do not
depend on the constraints in the block, whatever brackets are in it; of a parser this holds whatever
was asked of it before. -/
theorem parse_after_block (m t : Text) (hm : Separable m) (ht : t ≠ []) :
    Piece.splitTexts (· == .arrow) (m ++ [':', ':'] ++ t)
        = (Piece.splitTexts (· == .arrow) t).modifyHead (m ++ [':', ':'] ++ ·)
      ∧ ∀ m' cs cs', Separable m' → Constraint.parseBlock m = .ok cs →
        Constraint.parseBlock m' = .ok cs' →
          (∃ types, parse (m ++ [':', ':'] ++ t) = .ok ⟨types, some cs⟩
            ∧ parse (m' ++ [':', ':'] ++ t) = .ok ⟨types, some cs'⟩)
          ∧ ∀ options ops p, p = ((Parser.new options).run ops).2 →
            (p.parseStage (m ++ [':', ':'] ++ t)).1.map types
              = (p.parseStage (m' ++ [':', ':'] ++ t)).1.map types := by
  refine ⟨hm.splitTexts_eq ht, fun m' cs cs' hm' hcs hcs' => ⟨?_, ?_⟩⟩
  · rw [(hm.blockAt ht).parse_eq, (hm'.blockAt ht).parse_eq, source_scan, source_scan, source_scan,
      hcs, hcs']
    exact ⟨_, rfl, rfl⟩
  · rintro options ops p rfl
    set p := ((Parser.new options).run ops).2
    have hp : p.Sound := (Parser.run_spec ops (Parser.sound_new options)).2.2
    have hstage : ∀ u, (p.parseStage u).1 = readWith p.rules.macros.typeOf u :=
      fun u => (Parser.read_spec hp (Rules.yields_parseStage u)).1
    rw [hstage, hstage, hm.readWith_eq ht _ hcs, hm'.readWith_eq ht _ hcs']
    rcases (tokensOf (withoutFinal t)).mapM p.rules.macros.typeOf with e | types <;> rfl

/-- The bracket of `a < b` stays open and that of `c > d` closes nothing. After either of them `x=>y`
has its arrow, and the same types if it is read as one stage. -/
theorem parse_after_block_open_bracket :
    Piece.splitTexts (· == .arrow)
        ['a', ' ', '<', ' ', 'b', ':', ':', 'x', '=', '>', 'y']
      = [['a', ' ', '<', ' ', 'b', ':', ':', 'x'], ['y']]
    ∧ ∃ types, parse ['a', ' ', '<', ' ', 'b', ':', ':', 'x', '=', '>', 'y']
        = .ok ⟨types, some [⟨['a'], ['<'], ['b']⟩]⟩
      ∧ parse ['c', ' ', '>', ' ', 'd', ':', ':', 'x', '=', '>', 'y']
        = .ok ⟨types, some [⟨['c'], ['>'], ['d']⟩]⟩ := by
  have hm : Separable ['a', ' ', '<', ' ', 'b'] := ⟨by decide, by decide⟩
  have hm' : Separable ['c', ' ', '>', ' ', 'd'] := ⟨by decide, by decide⟩
  obtain ⟨hsplit, hparse⟩ := parse_after_block _ ['x', '=', '>', 'y'] hm (by simp)
  exact ⟨hsplit, (hparse _ _ _ hm' rfl rfl).1⟩

end Stage

end TypeSig
