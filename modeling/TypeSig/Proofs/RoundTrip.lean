import Mathlib.Data.List.Infix
import TypeSig.Proofs.Outlines
import TypeSig.Proofs.TypeToken

/-!
# Every spelling of a signature is read back

A signature is spelled with arrows between its stages, `::` after the constraints of a stage,
commas between constraints and between types, and each type as `name:[base<subtype;subtype>]`.
Subtypes are arbitrary texts, escaped. Blanks can stand around every one of these delimiters, and
between the words of a constraint. `parse_spells` says that reading any such spelling gives the
signature back.

The constraints are where the depth of the splitter runs wild: their words may hold angle brackets
that close nothing or are never closed. They hold no `::` and no arrow, though, and the `::` after
them sets the depth to zero (`sealed_block`).
-/

namespace TypeSig

open Lexeme

/-! ## Spellings -/

/-- A text that neither a blank nor a comma breaks up. -/
structure Constraint.Unbroken (w : Text) : Prop where
  ne_nil : w ≠ []
  solid : ∀ c ∈ w, Text.isBlank c = false
  comma_notMem : ',' ∉ w

structure Constraint.Readable (c : Constraint) : Prop where
  left : Unbroken c.left
  operator : Unbroken c.operator
  right : Unbroken c.right

/-- A word of a constraint. Its angle brackets need no partners. -/
structure Constraint.IsWord (w : Text) : Prop where
  ne_nil : w ≠ []
  solid : ∀ c ∈ w, Text.isBlank c = false
  comma_notMem : ',' ∉ w
  colon_notMem : ':' ∉ w
  escape_notMem : '%' ∉ w
  noArrow : ¬ ['=', '>'] <:+: w

structure Constraint.WellFormed (c : Constraint) : Prop where
  left : IsWord c.left
  operator : IsWord c.operator
  right : IsWord c.right

structure TypeDescriptor.WellFormed (d : TypeDescriptor) : Prop where
  name : ∀ n ∈ d.name, n.IsLabel
  base : d.base.IsLabel
  last : ∀ s ∈ d.subtypes.getLast?, s ≠ []

structure Stage.WellFormed (s : Stage) : Prop where
  types_ne_nil : s.types ≠ []
  types : ∀ d ∈ s.types, d.WellFormed
  dependent : ∀ cs ∈ s.dependent, cs ≠ [] ∧ ∀ c ∈ cs, c.WellFormed

structure Signature.WellFormed (s : Signature) : Prop where
  two_le : 2 ≤ s.stages.length
  stages : ∀ st ∈ s.stages, st.WellFormed

/-- Three words with blanks between and perhaps around them. -/
def Constraint.Spells (c : Constraint) (t : Text) : Prop :=
  ∃ v g g' w : Text, v.AllBlank ∧ (g.AllBlank ∧ g ≠ []) ∧ (g'.AllBlank ∧ g' ≠ []) ∧ w.AllBlank
    ∧ t = v ++ c.left ++ g ++ c.operator ++ g' ++ c.right ++ w

/-- An escaped text, perhaps with blanks around it. -/
def Clause.SpellsSubtype (s p : Text) : Prop :=
  ∃ v e w : Text, v.AllBlank ∧ s.Escapes e ∧ w.AllBlank ∧ p = v ++ e ++ w

def TypeDescriptor.Spells (d : TypeDescriptor) (t : Text) : Prop :=
  ∃ ps clause body, List.Forall₂ Clause.SpellsSubtype d.subtypes ps ∧ Clause.Spells ps clause
    ∧ Frames d.base clause d.optional body ∧ Names body d.name t

/-- The constraints of a stage, up to and with the `::`. -/
def Stage.SpellsBlock : Option (List Constraint) → Text → Prop
  | none, t => t = []
  | some cs, t => ∃ ts block, List.Forall₂ Constraint.Spells cs ts ∧ Text.Joined [[',']] ts block
      ∧ t = block ++ [':', ':']

def Stage.Spells (s : Stage) (t : Text) : Prop :=
  ∃ block tokens types, SpellsBlock s.dependent block
    ∧ List.Forall₂ TypeDescriptor.Spells s.types tokens ∧ Text.Joined [[',']] tokens types
    ∧ t = block ++ types

def Signature.Spells (s : Signature) (t : Text) : Prop :=
  ∃ ts, List.Forall₂ Stage.Spells s.stages ts ∧ Text.Joined [['=', '>']] ts t

/-! ## Subtypes -/

theorem Clause.exists_spellsSubtype (s : Text) : ∃ p, SpellsSubtype s p := by
  obtain ⟨e, he⟩ := Text.exists_escapes s
  exact ⟨_, [], e, [], Text.allBlank_nil, he, Text.allBlank_nil, rfl⟩

theorem Clause.SpellsSubtype.normalize {s p : Text} (h : SpellsSubtype s p) :
    Clause.normalize 0 (scan p) = s := by
  obtain ⟨v, e, w, hv, he, hw, rfl⟩ := h
  have hvi := inert_of_allBlank hv
  have hei := inert_of_escapes he
  rw [(hvi.append hei).complete, normalize_append _ _ (hvi.append hei).level, hvi.complete,
    normalize_append _ _ hvi.level, normalize_blank hv, normalize_blank hw, normalize_escapes he]
  simp

theorem Clause.SpellsSubtype.fits {s p : Text} (h : SpellsSubtype s p) : Fits p := by
  obtain ⟨v, e, w, hv, he, hw, rfl⟩ := h
  exact fits_of_inert (((inert_of_allBlank hv).append (inert_of_escapes he)).append
    (inert_of_allBlank hw))

theorem Clause.fits_of_forall₂ {ss ps : List Text} (h : List.Forall₂ SpellsSubtype ss ps) :
    ∀ p ∈ ps, Fits p := by
  intro p hp
  obtain ⟨s, -, hs⟩ := forall₂_mem_right h hp
  exact hs.fits

theorem Clause.SpellsSubtype.ne_nil {s p : Text} (h : SpellsSubtype s p) (hs : s ≠ []) :
    p ≠ [] := by
  obtain ⟨v, e, w, -, he, -, rfl⟩ := h
  have : e ≠ [] := by
    rintro rfl
    cases he
    exact hs rfl
  simp [this]

/-! ## Types -/

namespace TypeDescriptor

variable {d : TypeDescriptor} {t : Text}

theorem exists_spells (d : TypeDescriptor) : ∃ t, d.Spells t := by
  have hnil := Text.allBlank_nil
  obtain ⟨ps, hps⟩ := exists_forall₂ fun s (_ : s ∈ d.subtypes) => Clause.exists_spellsSubtype s
  obtain ⟨t, ht⟩ := Text.exists_joined [[';'], [',']] (by simp) ps
  have hf : ∃ body, Frames d.base ([] ++ '<' :: t ++ ['>']) d.optional body := by
    cases d.optional
    · exact ⟨_, .bare⟩
    · exact ⟨_, .wrapped hnil hnil⟩
  obtain ⟨body, hbody⟩ := hf
  have hn : ∃ token, Names body d.name token := by
    cases d.name
    · exact ⟨_, .none hnil hnil⟩
    · exact ⟨_, .some hnil hnil hnil hnil⟩
  obtain ⟨token, htoken⟩ := hn
  exact ⟨token, ps, _, body, hps, .present hnil ht, hbody, htoken⟩

theorem parse_of_spells (hd : d.WellFormed) (h : d.Spells t) : parse t = d := by
  obtain ⟨ps, clause, body, hps, hc, hf, hn⟩ := h
  have hlast : ∀ p ∈ ps.getLast?, p ≠ [] := by
    intro p hp
    obtain ⟨s, hs, hsp⟩ := forall₂_getLast? hps hp
    exact hsp.ne_nil (hd.last s hs)
  rw [parse_spelled hd.base hc (Clause.fits_of_forall₂ hps) hf hd.name hn hlast,
    map_eq_of_forall₂ hps fun s _ p hp => hp.normalize]

theorem sealed_of_spells (hd : d.WellFormed) (h : d.Spells t) {test : Symbol → Bool}
    (htest : ∀ s, test s = true → s.isSeparator = true) : Piece.Sealed test t := by
  obtain ⟨ps, clause, body, hps, hc, hf, hn⟩ := h
  exact sealed_spelled hd.base hc (Clause.fits_of_forall₂ hps) hf hd.name hn htest

theorem ne_nil_of_spells (hd : d.WellFormed) (h : d.Spells t) : t ≠ [] := by
  obtain ⟨ps, clause, body, -, hc, hf, hn⟩ := h
  exact spelled_ne_nil hd.base hc hf hn

end TypeDescriptor

/-! ## Constraints -/

namespace Constraint

/-- A text that is read character by character in front of a `::`. -/
structure IsBlock (m : Text) : Prop where
  chain : m.IsChain NoArrow
  colon_notMem : ':' ∉ m
  escape_notMem : '%' ∉ m

theorem IsBlock.append {a b : Text} (ha : IsBlock a) (hb : IsBlock b)
    (hseam : ∀ x ∈ a.getLast?, ∀ y ∈ b.head?, NoArrow x y) : IsBlock (a ++ b) := by
  refine ⟨List.isChain_append.2 ⟨ha.chain, hb.chain, hseam⟩, ?_, ?_⟩
  · simp [ha.colon_notMem, hb.colon_notMem]
  · simp [ha.escape_notMem, hb.escape_notMem]

theorem chain_noArrow : ∀ {w : Text}, ¬ ['=', '>'] <:+: w → w.IsChain NoArrow
  | [], _ => List.isChain_nil
  | [c], _ => List.isChain_singleton c
  | c :: d :: w, h => by
    rw [List.isChain_cons_cons]
    refine ⟨?_, chain_noArrow fun hi => h (hi.trans (List.suffix_cons _ _).isInfix)⟩
    rintro ⟨rfl, rfl⟩
    exact h ⟨[], w, rfl⟩

theorem IsWord.isBlock {w : Text} (h : IsWord w) : IsBlock w :=
  ⟨chain_noArrow h.noArrow, h.colon_notMem, h.escape_notMem⟩

theorem isBlock_of_plain {t : Text} (h : ∀ c ∈ t, c ≠ '=' ∧ c ≠ ':' ∧ c ≠ '%') : IsBlock t := by
  refine ⟨chain_noArrow fun hi => ?_, fun hm => (h _ hm).2.1 rfl, fun hm => (h _ hm).2.2 rfl⟩
  exact (h '=' (hi.subset List.mem_cons_self)).1 rfl

theorem isBlock_of_allBlank {v : Text} (h : v.AllBlank) : IsBlock v := by
  refine isBlock_of_plain fun c hc => ?_
  have hd := not_isDelimiter_of_isBlank (h c hc)
  obtain ⟨-, -, -, -, -, -, h1, h2, h3⟩ := not_isDelimiter_iff.1 hd
  exact ⟨h3, h1, h2⟩

theorem noArrow_of_blank_left {v : Text} (h : v.AllBlank) {x : Char} (hx : x ∈ v.getLast?)
    (y : Char) : NoArrow x y := by
  rintro ⟨rfl, -⟩
  exact absurd (h _ (List.mem_of_getLast? hx)) (by decide)

theorem noArrow_of_blank_right {v : Text} (h : v.AllBlank) {y : Char} (hy : y ∈ v.head?)
    (x : Char) : NoArrow x y := by
  rintro ⟨-, rfl⟩
  exact absurd (h _ (List.mem_of_head? hy)) (by decide)

theorem getLast?_append_gap {g : Text} (hg : g ≠ []) (a : Text) :
    (a ++ g).getLast? = g.getLast? := by
  rw [List.getLast?_append, List.getLast?_eq_some_getLast hg]
  rfl

theorem exists_spells (c : Constraint) : ∃ t, c.Spells t := by
  have hnil := Text.allBlank_nil
  have hgap := Text.allBlank_space
  exact ⟨_, [], [' '], [' '], [], hnil, ⟨hgap, by simp⟩, ⟨hgap, by simp⟩, hnil, rfl⟩

theorem WellFormed.readable {c : Constraint} (h : c.WellFormed) : c.Readable :=
  have hword {w : Text} (hw : IsWord w) : Unbroken w := ⟨hw.ne_nil, hw.solid, hw.comma_notMem⟩
  ⟨hword h.left, hword h.operator, hword h.right⟩

variable {c : Constraint} {t : Text}

theorem isBlock_of_spells (hc : c.WellFormed) (h : c.Spells t) : IsBlock t := by
  obtain ⟨v, g, g', w, hv, ⟨hg, hgn⟩, ⟨hg', hgn'⟩, hw, rfl⟩ := h
  have h1 := (isBlock_of_allBlank hv).append hc.left.isBlock
    fun x hx y _ => noArrow_of_blank_left hv hx y
  have h2 := h1.append (isBlock_of_allBlank hg) fun x _ y hy => noArrow_of_blank_right hg hy x
  have h3 := h2.append hc.operator.isBlock fun x hx y _ =>
    noArrow_of_blank_left hg (by rwa [getLast?_append_gap hgn] at hx) y
  have h4 := h3.append (isBlock_of_allBlank hg') fun x _ y hy => noArrow_of_blank_right hg' hy x
  have h5 := h4.append hc.right.isBlock fun x hx y _ =>
    noArrow_of_blank_left hg' (by rwa [getLast?_append_gap hgn'] at hx) y
  exact h5.append (isBlock_of_allBlank hw) fun x _ y hy => noArrow_of_blank_right hw hy x

theorem words_of_spells (hc : c.Readable) (h : c.Spells t) :
    t.words = [c.left, c.operator, c.right] := by
  obtain ⟨v, g, g', w, hv, ⟨hg, hgn⟩, ⟨hg', hgn'⟩, hw, rfl⟩ := h
  rw [Text.words_append_blank hw, Text.words_append_gap hg' hgn', Text.words_append_gap hg hgn,
    Text.words_blank_append hv, Text.words_of_solid hc.left.ne_nil hc.left.solid,
    Text.words_of_solid hc.operator.ne_nil hc.operator.solid,
    Text.words_of_solid hc.right.ne_nil hc.right.solid]
  rfl

theorem comma_notMem_of_spells (hc : c.Readable) (h : c.Spells t) : ',' ∉ t := by
  obtain ⟨v, g, g', w, hv, ⟨hg, -⟩, ⟨hg', -⟩, hw, rfl⟩ := h
  have hb : ∀ {v : Text}, v.AllBlank → ',' ∉ v := fun hv hm => absurd (hv _ hm) (by decide)
  simp [hb hv, hb hg, hb hg', hb hw, hc.left.comma_notMem, hc.operator.comma_notMem,
    hc.right.comma_notMem]

variable {cs : List Constraint} {ts : List Text} {block : Text}

theorem isBlock_joined (hts : ∀ t ∈ ts, IsBlock t) (hj : Text.Joined [[',']] ts block) :
    IsBlock block := by
  induction hj with
  | nil => exact isBlock_of_plain (by simp)
  | single t => exact hts t List.mem_cons_self
  | @cons t s u v us hs _ ih =>
    obtain rfl : s = [','] := by simpa using hs
    have hv := ih fun w hw => hts w (List.mem_cons_of_mem _ hw)
    have hcomma : IsBlock [','] := isBlock_of_plain (by simp)
    refine ((hts t List.mem_cons_self).append hcomma ?_).append hv ?_
    · rintro x - y hy ⟨-, rfl⟩
      simp at hy
    · rintro x hx y - ⟨rfl, -⟩
      simp at hx

theorem isBlock_of_joined (hcs : ∀ c ∈ cs, c.WellFormed) (h : List.Forall₂ Spells cs ts)
    (hj : Text.Joined [[',']] ts block) : IsBlock block := by
  refine isBlock_joined (fun t ht => ?_) hj
  obtain ⟨c, hc, hct⟩ := forall₂_mem_right h ht
  exact isBlock_of_spells (hcs c hc) hct

theorem splitOn_joined (h : Text.Joined [[',']] ts block) (hne : ts ≠ [])
    (hts : ∀ t ∈ ts, ',' ∉ t) : block.splitOn ',' = ts := by
  induction h with
  | nil => exact absurd rfl hne
  | single t => exact List.splitOn_eq_singleton (hts t List.mem_cons_self)
  | @cons t s u v us hs _ ih =>
    obtain rfl : s = [','] := by simpa using hs
    rw [List.append_assoc, List.singleton_append,
      List.splitOn_append_cons_self_of_not_mem (hts t List.mem_cons_self),
      ih (by simp) fun w hw => hts w (List.mem_cons_of_mem _ hw)]

theorem parsePieces_of_spells (hcs : ∀ c ∈ cs, c.Readable) (h : List.Forall₂ Spells cs ts) :
    ∀ start, parsePieces start ts = .ok cs := by
  induction h with
  | nil => exact fun _ => rfl
  | @cons c t cs ts hct _ ih =>
    intro start
    have hc : parse start t = .ok c := by
      unfold parse
      rw [words_of_spells (hcs c List.mem_cons_self) hct]
    rw [parsePieces, hc, ok_bind, ih fun c hc => hcs c (List.mem_cons_of_mem _ hc)]
    rfl

theorem parseBlock_of_spells (hne : cs ≠ []) (hcs : ∀ c ∈ cs, c.Readable)
    (h : List.Forall₂ Spells cs ts) (hj : Text.Joined [[',']] ts block) :
    parseBlock block = .ok cs := by
  have hts : ts ≠ [] := by
    rintro rfl
    exact hne (List.forall₂_nil_right_iff.1 h)
  rw [parseBlock, splitOn_joined hj hts, parsePieces_of_spells hcs h]
  intro t ht
  obtain ⟨c, hc, hct⟩ := forall₂_mem_right h ht
  exact comma_notMem_of_spells (hcs c hc) hct

end Constraint

/-! ## Stages -/

namespace Stage

theorem not_separator_single {m : Text} {x : Lexeme} (hx : x ∈ m.map single) :
    x.symbol ≠ .arrow ∧ x.symbol ≠ .doubleColon := by
  obtain ⟨c, -, rfl⟩ := List.mem_map.1 hx
  unfold single Symbol.ofChar
  refine ⟨?_, ?_⟩ <;> dsimp only <;> split <;> try simp
  all_goals split <;> simp

theorem source_map_single (m : Text) : source (m.map single) = m := by
  induction m with
  | nil => rfl
  | cons c m ih => rw [List.map_cons, source_cons, ih]; rfl

/-- However deep the brackets of the constraints go, the stage goes on at depth zero. -/
theorem sealed_block {m types : Text} (hm : Constraint.IsBlock m)
    (ht : Piece.Sealed (· == .arrow) types) :
    Piece.Sealed (· == .arrow) (m ++ [':', ':'] ++ types) := by
  have hscan : ∀ rest, scan (m ++ [':', ':'] ++ types ++ rest)
      = m.map single ++ ⟨.doubleColon, [':', ':']⟩ :: scan (types ++ rest) := by
    intro rest
    rw [← scan_block _ hm.chain hm.colon_notMem hm.escape_notMem]
    simp
  have h0 : scan (m ++ [':', ':'] ++ types)
      = m.map single ++ ⟨.doubleColon, [':', ':']⟩ :: scan types := by
    simpa using hscan []
  have hq : Piece.Quiet (· == .arrow) 0 (m.map single) :=
    Piece.quiet_of_forall (fun x hx => by simpa using (not_separator_single hx).1) 0
  refine ⟨fun rest => ?_, ?_, ?_⟩
  · rw [hscan, h0, ht.complete]
    simp
  · rw [h0, Piece.quiet_append]
    exact ⟨hq, by simp, ht.quiet⟩
  · rw [h0, depthAfter_append]
    exact ht.depth

theorem split_block {m types : Text} (hm : Constraint.IsBlock m)
    (ht : Piece.Sealed (· == .doubleColon) types) (hne : types ≠ []) :
    Piece.split (· == .doubleColon) (m ++ [':', ':'] ++ types)
      = [⟨m, 0⟩, ⟨types, m.bytes + 2⟩] := by
  have hscan : scan (m ++ [':', ':'] ++ types)
      = m.map single ++ ⟨.doubleColon, [':', ':']⟩ :: scan types := by
    rw [← scan_block _ hm.chain hm.colon_notMem hm.escape_notMem]
    simp
  have hq : Piece.Quiet (· == .doubleColon) 0 (m.map single) :=
    Piece.quiet_of_forall (fun x hx => by simpa using (not_separator_single hx).2) 0
  rw [Piece.split, hscan, Piece.cut_append_cons hq rfl rfl, source_map_single,
    Piece.cut_of_quiet ht.quiet (scan_ne_nil hne), source_scan, Nat.zero_add]
  rfl

variable {s : Stage} {t : Text} {tokens : List Text} {types : Text}

theorem sealed_types (hs : s.WellFormed) (h : List.Forall₂ TypeDescriptor.Spells s.types tokens)
    (hj : Text.Joined [[',']] tokens types) {test : Symbol → Bool}
    (htest : ∀ s, test s = true → s.isSeparator = true) (hcomma : test .comma = false) :
    Piece.Sealed test types := by
  refine hj.all Piece.sealed_nil (fun _ _ => Piece.Sealed.append) (fun u hu => ?_) fun u hu => ?_
  · obtain rfl : u = [','] := by simpa using hu
    refine Piece.sealed_of_closed
      (closed_singleton (by decide) (by decide) (by decide) rfl) fun x hx => ?_
    rw [scan_singleton, List.mem_singleton] at hx
    rw [hx]
    exact hcomma
  · obtain ⟨d, hd, hdu⟩ := forall₂_mem_right h hu
    exact TypeDescriptor.sealed_of_spells (hs.types d hd) hdu htest

theorem types_ne_nil_of_spells (hs : s.WellFormed)
    (h : List.Forall₂ TypeDescriptor.Spells s.types tokens)
    (hj : Text.Joined [[',']] tokens types) : types ≠ [] := by
  cases hj with
  | nil => exact absurd (List.forall₂_nil_right_iff.1 h) hs.types_ne_nil
  | single t =>
    obtain ⟨d, hd, hdt⟩ := forall₂_mem_right h List.mem_cons_self
    exact TypeDescriptor.ne_nil_of_spells (hs.types d hd) hdt
  | cons t hu _ =>
    obtain ⟨d, hd, hdt⟩ := forall₂_mem_right h List.mem_cons_self
    simp [TypeDescriptor.ne_nil_of_spells (hs.types d hd) hdt]

theorem tokensOf_joined (hs : s.WellFormed)
    (h : List.Forall₂ TypeDescriptor.Spells s.types tokens)
    (hj : Text.Joined [[',']] tokens types) : tokensOf types = tokens := by
  refine Piece.splitTexts_joined (fun u hu => ?_) hj (fun u hu => ?_) fun u hu => ?_
  · obtain rfl : u = [','] := by simpa using hu
    exact ⟨complete_singleton (by decide) (by decide) (by decide), _, scan_singleton, rfl, rfl⟩
  · obtain ⟨d, hd, hdu⟩ := forall₂_mem_right h hu
    exact TypeDescriptor.sealed_of_spells (hs.types d hd) hdu (by simp [Symbol.isSeparator])
  · obtain ⟨d, hd, hdu⟩ := forall₂_mem_right h (List.mem_of_getLast? hu)
    exact TypeDescriptor.ne_nil_of_spells (hs.types d hd) hdu

theorem outline_of_spells (hs : s.WellFormed) (h : s.Spells t) :
    ∃ tokens, List.Forall₂ TypeDescriptor.Spells s.types tokens
      ∧ outline t = .ok ⟨tokens, s.dependent⟩ := by
  obtain ⟨block, tokens, types, hb, hd, hj, rfl⟩ := h
  refine ⟨tokens, hd, ?_⟩
  have hq : Piece.Sealed (· == .doubleColon) types :=
    sealed_types hs hd hj (by simp [Symbol.isSeparator]) rfl
  have hne := types_ne_nil_of_spells hs hd hj
  rcases hdep : s.dependent with _ | cs
  · rw [hdep] at hb
    obtain rfl : block = [] := hb
    have hsplit : Piece.split (· == .doubleColon) types = [⟨types, 0⟩] := by
      rw [Piece.split, Piece.cut_of_quiet hq.quiet (scan_ne_nil hne), source_scan]
    simp only [outline, List.nil_append, hsplit, List.flatMap_cons, List.flatMap_nil,
      List.append_nil, tokensOf_joined hs hd hj]
    rfl
  · rw [hdep] at hb
    obtain ⟨ts, m, hts, hjm, rfl⟩ := hb
    obtain ⟨hcn, hcs⟩ := hs.dependent cs hdep
    have hm := Constraint.isBlock_of_joined hcs hts hjm
    have hp := Constraint.parseBlock_of_spells hcn (fun c hc => (hcs c hc).readable) hts hjm
    have htypes : [':', ':'].intercalate [types] = types := by simp [List.intercalate]
    simp only [outline, split_block hm hq hne, hp, List.map_cons, List.map_nil, htypes,
      tokensOf_joined hs hd hj]
    rfl

theorem sealed_of_spells (hs : s.WellFormed) (h : s.Spells t) :
    Piece.Sealed (· == .arrow) t := by
  obtain ⟨block, tokens, types, hb, hd, hj, rfl⟩ := h
  have hq : Piece.Sealed (· == .arrow) types :=
    sealed_types hs hd hj (by simp [Symbol.isSeparator]) rfl
  rcases hdep : s.dependent with _ | cs
  · rw [hdep] at hb
    obtain rfl : block = [] := hb
    exact hq
  · rw [hdep] at hb
    obtain ⟨ts, m, hts, hjm, rfl⟩ := hb
    exact sealed_block (Constraint.isBlock_of_joined (hs.dependent cs hdep).2 hts hjm) hq

theorem ne_nil_of_spells (hs : s.WellFormed) (h : s.Spells t) : t ≠ [] := by
  obtain ⟨block, tokens, types, -, hd, hj, rfl⟩ := h
  simp [types_ne_nil_of_spells hs hd hj]

theorem exists_spells (s : Stage) : ∃ t, s.Spells t := by
  obtain ⟨tokens, htokens⟩ :=
    exists_forall₂ fun (d : TypeDescriptor) (_ : d ∈ s.types) => d.exists_spells
  obtain ⟨types, htypes⟩ := Text.exists_joined [[',']] (by simp) tokens
  have hb : ∃ block, SpellsBlock s.dependent block := by
    rcases s.dependent with _ | cs
    · exact ⟨[], rfl⟩
    · obtain ⟨ts, hts⟩ := exists_forall₂ fun (c : Constraint) (_ : c ∈ cs) => c.exists_spells
      obtain ⟨m, hm⟩ := Text.exists_joined [[',']] (by simp) ts
      exact ⟨_, ts, m, hts, hm, rfl⟩
  obtain ⟨block, hblock⟩ := hb
  exact ⟨_, block, tokens, types, hblock, htokens, htypes, rfl⟩

theorem readWith_of_spells (hs : s.WellFormed) (h : s.Spells t) :
    readWith (fun token => .ok (.parse token)) t = .ok s := by
  obtain ⟨tokens, hd, ho⟩ := outline_of_spells hs h
  have htypes : tokens.map TypeDescriptor.parse = s.types :=
    map_eq_of_forall₂ hd fun d hm t ht => TypeDescriptor.parse_of_spells (hs.types d hm) ht
  have hm : tokens.mapM (fun token => (.ok (.parse token) : Except ParseError TypeDescriptor))
      = .ok s.types := by
    rw [← htypes]
    exact List.mapM_pure
  rw [readWith, ho, ok_bind, Outline.fill, hm]
  rfl

end Stage

/-! ## Signatures -/

namespace Signature

theorem splitTexts_of_spells {s : Signature} {ts : List Text} {t : Text} (hs : s.WellFormed)
    (h : List.Forall₂ Stage.Spells s.stages ts) (hj : Text.Joined [['=', '>']] ts t) :
    Piece.splitTexts (· == .arrow) t = ts := by
  refine Piece.splitTexts_joined (fun u hu => ?_) hj (fun u hu => ?_) fun u hu => ?_
  · obtain rfl : u = ['=', '>'] := by simpa using hu
    exact ⟨complete_arrow, ⟨.arrow, ['=', '>']⟩, rfl, rfl, rfl⟩
  · obtain ⟨st, hst, hu⟩ := forall₂_mem_right h hu
    exact Stage.sealed_of_spells (hs.stages st hst) hu
  · obtain ⟨st, hst, hu⟩ := forall₂_mem_right h (List.mem_of_getLast? hu)
    exact Stage.ne_nil_of_spells (hs.stages st hst) hu

theorem exists_spells (s : Signature) : ∃ t, s.Spells t := by
  obtain ⟨ts, hts⟩ := exists_forall₂ fun (st : Stage) (_ : st ∈ s.stages) => st.exists_spells
  obtain ⟨t, ht⟩ := Text.exists_joined [['=', '>']] (by simp) ts
  exact ⟨t, ts, hts, ht⟩

/-- A signature has a spelling, and reading any of its spellings gives it back. -/
theorem parse_spells {s : Signature} (hs : s.WellFormed) :
    (∃ t, s.Spells t) ∧ ∀ t, s.Spells t → parse t = .ok s := by
  refine ⟨s.exists_spells, ?_⟩
  rintro t ⟨ts, hts, hj⟩
  have hsplit : (Piece.split (· == .arrow) t).map Piece.text = ts := splitTexts_of_spells hs hts hj
  have hlen : (Piece.split (· == .arrow) t).length = s.stages.length := by
    rw [← List.length_map (f := Piece.text), hsplit, hts.length_eq]
  have hread : List.Forall₂ (fun st p => Stage.readWith (fun token => .ok (.parse token)) p.text
      = .ok st) s.stages (Piece.split (· == .arrow) t) := by
    rw [← hsplit, List.forall₂_map_right_iff] at hts
    exact ((List.forall₂_and_left _ _).2 ⟨hs.stages, hts⟩).imp
      fun st p h => Stage.readWith_of_spells h.1 h.2
  rw [parse, parseWith_eq_ok_iff]
  exact ⟨fun _ => hlen ▸ hs.two_le, hread.flip⟩

/-- Read back: an angle bracket without a partner among the constraints, blanks around delimiters,
and a subtype that consists of a separator and a blank. -/
theorem parse_spells_open_bracket :
    parse ['a', ' ', '<', ' ', 'b', ' ', ':', ':', 'x', ':', ' ', '[', 'l', '<', '%', ';', '%', ' ',
      ' ', '>', ']', '=', '>', ' ', 'i'] =
      .ok ⟨[⟨[⟨some ['x'], ['l'], [[';', ' ']], true⟩], some [⟨['a'], ['<'], ['b']⟩]⟩,
        ⟨[⟨none, ['i'], [], false⟩], none⟩]⟩ := by
  have hnil := Text.allBlank_nil
  have hgap := Text.allBlank_space
  have hlabel : ∀ c ∈ ['x', 'l', 'i'], Text.IsLabel [c] := by
    intro c hc
    simp only [List.mem_cons, List.not_mem_nil, or_false] at hc
    rcases hc with rfl | rfl | rfl <;>
      refine ⟨by simp, ⟨?_, ?_⟩, List.forall_mem_singleton.2 (by decide)⟩ <;>
      simpa using (by decide)
  have hword : ∀ c ∈ ['a', '<', 'b'], Constraint.IsWord [c] := by
    intro c hc
    simp only [List.mem_cons, List.not_mem_nil, or_false] at hc
    rcases hc with rfl | rfl | rfl <;>
      exact ⟨by simp, List.forall_mem_singleton.2 (by decide), by decide, by decide, by decide,
        by decide⟩
  let c : Constraint := ⟨['a'], ['<'], ['b']⟩
  let d : TypeDescriptor := ⟨some ['x'], ['l'], [[';', ' ']], true⟩
  let d' : TypeDescriptor := ⟨none, ['i'], [], false⟩
  have hc : c.WellFormed := ⟨hword _ (by simp), hword _ (by simp), hword _ (by simp)⟩
  have hd : d.WellFormed :=
    ⟨by simpa [d] using hlabel 'x' (by simp), hlabel _ (by simp), by simp [d]⟩
  have hd' : d'.WellFormed := ⟨by simp [d'], hlabel _ (by simp), by simp [d']⟩
  have hcs : c.Spells ['a', ' ', '<', ' ', 'b', ' '] :=
    ⟨[], [' '], [' '], [' '], hnil, ⟨hgap, by simp⟩, ⟨hgap, by simp⟩, hgap, rfl⟩
  have hsub : Clause.SpellsSubtype [';', ' '] ['%', ';', '%', ' ', ' '] :=
    ⟨[], ['%', ';', '%', ' '], [' '], hnil, .escaped _ (.escaped _ .nil), hgap, rfl⟩
  have hds : d.Spells ['x', ':', ' ', '[', 'l', '<', '%', ';', '%', ' ', ' ', '>', ']'] :=
    ⟨_, _, _, .cons hsub .nil, .present hnil (.single _), .wrapped hnil hnil,
      @TypeDescriptor.Names.some _ [] [] [' '] [] _ hnil hnil hgap hnil⟩
  have hds' : d'.Spells [' ', 'i'] :=
    ⟨[], [], _, .nil, .absent, .bare, .none (v := [' ']) (w := []) hgap hnil⟩
  have hst : Stage.Spells ⟨[d], some [c]⟩ _ :=
    ⟨_, _, _, ⟨_, _, .cons hcs .nil, .single _, rfl⟩, .cons hds .nil, .single _, rfl⟩
  have hst' : Stage.Spells ⟨[d'], none⟩ _ := ⟨_, _, _, rfl, .cons hds' .nil, .single _, rfl⟩
  have hs : WellFormed ⟨[⟨[d], some [c]⟩, ⟨[d'], none⟩]⟩ := by
    refine ⟨by simp, fun st hm => ?_⟩
    simp only [List.mem_cons, List.not_mem_nil, or_false] at hm
    rcases hm with rfl | rfl
    · exact ⟨by simp, by simpa using hd, by simpa using hc⟩
    · exact ⟨by simp, by simpa using hd', by simp⟩
  exact (parse_spells hs).2 _
    ⟨_, .cons hst (.cons hst' .nil), .cons _ (List.mem_singleton.2 rfl) (.single _)⟩

end Signature

end TypeSig
