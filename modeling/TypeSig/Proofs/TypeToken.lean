import TypeSig.Proofs.Joining
import TypeSig.TypeDescriptor

/-!
# Reading a type token from its parts

A type token is an optional name with a colon, and a base with an optional clause, which may be
wrapped in square brackets; blanks may stand around each of these parts. `parse_spelled` reads the
parts off such a token, and `sealed_spelled` says that a splitter passes over it.

What stands before the clause is a `Front`: it has neither colons nor angle brackets, so the name,
the base and the clause can be told apart by it.
-/

namespace TypeSig

open Lexeme

/-- A text without delimiters and without blanks at its ends. -/
structure Text.IsLabel (l : Text) : Prop where
  ne_nil : l ≠ []
  trimmed : l.Trimmed
  plain : ∀ c ∈ l, isDelimiter c = false

namespace Clause

/-- A text that can stand between two separators of a clause. -/
structure Fits (p : Text) : Prop where
  closed : Closed p
  quiet : Piece.Sealed Symbol.separatesSubtypes p
  symbols : ∀ x ∈ scan p, x.symbol ≠ .rightBracket

/-- A clause in which the texts `ps` are separated; it may be missing if there are none. -/
inductive Spells : List Text → Text → Prop
  | absent : Spells [] []
  | present {v t : Text} {ps : List Text} : v.AllBlank → Text.Joined [[';'], [',']] ps t →
      Spells ps (v ++ '<' :: t ++ ['>'])

end Clause

namespace TypeDescriptor

/-- A base and its clause, wrapped or not. -/
inductive Frames (base clause : Text) : Bool → Text → Prop
  | bare : Frames base clause false (base ++ clause)
  | wrapped {v w : Text} : v.AllBlank → w.AllBlank →
      Frames base clause true ('[' :: (v ++ (base ++ clause) ++ w) ++ [']'])

/-- A type with its name, if it has one. -/
inductive Names (body : Text) : Option Text → Text → Prop
  | none {v w : Text} : v.AllBlank → w.AllBlank → Names body none (v ++ body ++ w)
  | some {u v v' w n : Text} : u.AllBlank → v.AllBlank → v'.AllBlank → w.AllBlank →
      Names body (some n) (u ++ n ++ v ++ ':' :: (v' ++ body ++ w))

/-- A complete text with inert symbols and square brackets only. -/
structure Front (t : Text) : Prop where
  complete : Complete t
  symbols : ∀ x ∈ scan t, x.symbol.isInert = true ∨ isBracket x.symbol = true

/-! ## What stands before a clause -/

theorem front_of_inert {t : Text} (h : Inert t) : Front t :=
  ⟨h.complete, fun x hx => .inl (h.symbols x hx)⟩

theorem Front.append {a b : Text} (ha : Front a) (hb : Front b) : Front (a ++ b) := by
  refine ⟨ha.complete.append hb.complete, fun x hx => ?_⟩
  rw [ha.complete, List.mem_append] at hx
  rcases hx with hx | hx
  · exact ha.symbols x hx
  · exact hb.symbols x hx

theorem front_bracket {c : Char} (h : c = '[' ∨ c = ']') : Front [c] := by
  refine ⟨complete_singleton ?_ ?_ ?_, fun x hx => .inr ?_⟩
  · rcases h with rfl | rfl <;> decide
  · rcases h with rfl | rfl <;> decide
  · rcases h with rfl | rfl <;> decide
  · rw [scan_singleton, List.mem_singleton] at hx
    rcases h with rfl | rfl <;> rw [hx] <;> rfl

theorem Front.level {f : Text} (h : Front f) : ∀ x ∈ scan f, x.symbol.isLevel = true := by
  intro x hx
  rcases h.symbols x hx with hi | hb
  · exact isLevel_of_isInert hi
  · cases hs : x.symbol <;> simp_all [isBracket, Symbol.isLevel]

theorem Front.inName {f : Text} (h : Front f) : ∀ x ∈ scan f, inName x.symbol = true := by
  intro x hx
  rcases h.symbols x hx with hi | hb
  · cases hs : x.symbol <;> simp_all [TypeDescriptor.inName, Symbol.isInert]
  · cases hs : x.symbol <;> simp_all [TypeDescriptor.inName, isBracket]

theorem Front.beforeClause {f : Text} (h : Front f) :
    ∀ x ∈ scan f, (x.symbol != .leftAngle) = true := by
  intro x hx
  have := h.level x hx
  cases hs : x.symbol <;> simp_all [Symbol.isLevel]

theorem Front.scan_clause {f : Text} (h : Front f) (u : Text) :
    scan (f ++ '<' :: u) = scan f ++ ⟨.leftAngle, ['<']⟩ :: scan u := by
  rw [h.complete, scan_leftAngle]

theorem splitName_front {f : Text} (h : Front f) : splitName f = (none, f) := by
  have : (scan f).dropWhile (fun x => TypeDescriptor.inName x.symbol) = [] :=
    List.dropWhile_eq_nil_iff.2 h.inName
  simp only [splitName, this]

theorem splitName_front_clause {f : Text} (h : Front f) (u : Text) :
    splitName (f ++ '<' :: u) = (none, f ++ '<' :: u) := by
  have : (scan (f ++ '<' :: u)).dropWhile (fun x => TypeDescriptor.inName x.symbol)
      = ⟨.leftAngle, ['<']⟩ :: scan u := by
    rw [h.scan_clause, List.dropWhile_append_of_pos h.inName]
    rfl
  simp only [splitName, this]

theorem baseOf_front_clause {f : Text} (h : Front f) (u : Text) :
    baseOf (f ++ '<' :: u) = baseOf f := by
  have hf : (scan f).takeWhile (·.symbol != .leftAngle) = scan f :=
    List.takeWhile_eq_self_iff.2 h.beforeClause
  simp only [baseOf, h.scan_clause, List.takeWhile_append_of_pos h.beforeClause, hf]
  simp

/-- A wrapper around an inert text, closed or not, is no part of the base. -/
theorem baseOf_brackets {f : Text} (hf : f = [] ∨ f = ['[']) {i : Text} (hi : Inert i) {g : Text}
    (hg : g = [] ∨ g = [']']) : baseOf (f ++ i ++ g) = i.trim := by
  have hff : Front f := by
    rcases hf with rfl | rfl
    · exact front_of_inert inert_nil
    · exact front_bracket (.inl rfl)
  have hgf : Front g := by
    rcases hg with rfl | rfl
    · exact front_of_inert inert_nil
    · exact front_bracket (.inr rfl)
  have hall := (hff.append (front_of_inert hi)).append hgf
  have hkeep : (scan i).filter (fun x => !isBracket x.symbol) = scan i := by
    refine List.filter_eq_self.2 fun x hx => ?_
    have := hi.symbols x hx
    cases hs : x.symbol <;> simp_all [isBracket, Symbol.isInert]
  have hdrop : (scan f).filter (fun x => !isBracket x.symbol) = []
      ∧ (scan g).filter (fun x => !isBracket x.symbol) = [] := by
    rcases hf with rfl | rfl <;> rcases hg with rfl | rfl <;> exact ⟨rfl, rfl⟩
  unfold baseOf
  rw [List.takeWhile_eq_self_iff.2 hall.beforeClause, List.append_assoc, hff.complete, hi.complete]
  simp only [List.filter_append, hkeep, hdrop.1, hdrop.2, List.nil_append, List.append_nil,
    source_scan]

theorem interior?_front {f : Text} (h : Front f) : Clause.interior? f = none := by
  have : (scan f).dropWhile (·.symbol != .leftAngle) = [] :=
    List.dropWhile_eq_nil_iff.2 h.beforeClause
  simp only [Clause.interior?, this]

theorem interior?_front_clause {f t : Text} (h : Front f) (ht : Closed t) (g : Text) :
    Clause.interior? (f ++ '<' :: (t ++ '>' :: g)) = some t := by
  have hd : (scan (f ++ '<' :: (t ++ '>' :: g))).dropWhile (·.symbol != .leftAngle)
      = ⟨.leftAngle, ['<']⟩ :: (scan t ++ ⟨.rightAngle, ['>']⟩ :: scan g) := by
    rw [h.scan_clause, List.dropWhile_append_of_pos h.beforeClause, ht.complete, scan_rightAngle]
    rfl
  simp only [Clause.interior?, hd]
  rw [untilClosed_append ht.balanced.walk_eq]
  simp [Clause.untilClosed, source_scan]

end TypeDescriptor

/-! ## Wrappers -/

namespace Wrapper

theorem inner?_wrapped {i : Text} (hc : Complete i) (hne : i ≠ [])
    (hb : ∀ x ∈ scan i, x.symbol ≠ .rightBracket) : inner? ('[' :: i ++ [']']) = some i := by
  have hb' : ∀ x ∈ scan i, (x.symbol != .rightBracket) = true := fun x hx => by simpa using hb x hx
  have hl : Complete ['['] := complete_singleton (by decide) (by decide) (by decide)
  have hscan : scan ('[' :: i ++ [']'])
      = ⟨.leftBracket, ['[']⟩ :: (scan i ++ [⟨.rightBracket, [']']⟩]) := by
    have := hl (i ++ [']'])
    rw [hc] at this
    exact this
  unfold inner?
  rw [hscan]
  simp only [List.takeWhile_append_of_pos hb', List.dropWhile_append_of_pos hb']
  simp [scan_ne_nil hne, source_scan]

theorem inner?_cons_of_plain {c : Char} (h : Text.isDelimiter c = false) (t : Text) :
    inner? (c :: t) = none := by
  have hs : scan (c :: t) = single c :: scan t := by
    rw [show c :: t = [c] ++ t from rfl, (inert_singleton h).complete, scan_singleton]
    rfl
  have hi := isInert_ofChar h
  unfold inner?
  rw [hs, single]
  cases hsym : Symbol.ofChar c <;> simp_all [Symbol.isInert]

end Wrapper

/-! ## Escaped texts -/

theorem normalize_blank {v : Text} (hv : v.AllBlank) : Clause.normalize 0 (scan v) = [] := by
  induction v with
  | nil => rfl
  | cons c v ih =>
    have hc := hv c List.mem_cons_self
    have hi := inert_singleton (not_isDelimiter_of_isBlank hc)
    have hs : Symbol.ofChar c = .blank := by
      have := not_isDelimiter_of_isBlank hc
      unfold Symbol.ofChar
      split <;> first | exact absurd this (by decide) | simp [hc]
    have hn : Clause.normalize 0 (scan [c]) = [] := by
      rw [scan_singleton, single, hs]
      rfl
    rw [show c :: v = [c] ++ v from rfl, hi.complete, normalize_append _ _ hi.level, hn,
      ih fun d hd => hv d (List.mem_cons_of_mem _ hd)]
    rfl

theorem normalize_escapes {s e : Text} (h : s.Escapes e) : Clause.normalize 0 (scan e) = s := by
  induction h with
  | nil => rfl
  | @escaped c s e _ ih =>
    rw [show '%' :: c :: e = ['%', c] ++ e from rfl, complete_escape,
      normalize_append _ _ (inert_escape c).level, ih]
    rfl
  | @bare c s e hb hd _ ih =>
    have hi := inert_singleton hd
    have hs : Symbol.ofChar c = .plain := by
      unfold Symbol.ofChar
      split <;> first | exact absurd hd (by decide) | simp [hb]
    rw [show c :: e = [c] ++ e from rfl, hi.complete, normalize_append _ _ hi.level, ih,
      scan_singleton, single, hs]
    rfl

/-! ## Clauses -/

namespace Clause

variable {ps : List Text} {clause : Text}

theorem separatesSubtypes_isSeparator (s : Symbol) (h : s.separatesSubtypes = true) :
    s.isSeparator = true := by
  cases s <;> simp_all [Symbol.separatesSubtypes, Symbol.isSeparator]

theorem fits_of_inert {t : Text} (h : Inert t) : Fits t := by
  refine ⟨h.closed, Piece.sealed_of_inert separatesSubtypes_isSeparator h, fun x hx => ?_⟩
  have := h.symbols x hx
  rintro hb
  simp [hb, Symbol.isInert] at this

theorem splitTexts_clause {t : Text} (h : Text.Joined [[';'], [',']] ps t) (hp : ∀ p ∈ ps, Fits p)
    (hlast : ∀ p ∈ ps.getLast?, p ≠ []) : Piece.splitTexts Symbol.separatesSubtypes t = ps := by
  refine Piece.splitTexts_joined ?_ h (fun p hm => (hp p hm).quiet) hlast
  intro s hs
  simp only [List.mem_cons, List.not_mem_nil, or_false] at hs
  rcases hs with rfl | rfl
  · exact ⟨complete_singleton (by decide) (by decide) (by decide), _, scan_singleton, rfl, rfl⟩
  · exact ⟨complete_singleton (by decide) (by decide) (by decide), _, scan_singleton, rfl, rfl⟩

theorem closed_separator {s : Text} (h : s ∈ [[';'], [',']]) : Closed s := by
  simp only [List.mem_cons, List.not_mem_nil, or_false] at h
  rcases h with rfl | rfl
  · exact closed_singleton (by decide) (by decide) (by decide) rfl
  · exact closed_singleton (by decide) (by decide) (by decide) rfl

theorem closed_joined {t : Text} (h : Text.Joined [[';'], [',']] ps t) (hp : ∀ p ∈ ps, Fits p) :
    Closed t :=
  h.all closed_nil (fun _ _ => Closed.append) (fun _ => closed_separator)
    fun p hm => (hp p hm).closed

/-- A text that can stand in a wrapper. -/
def Unbracketed (t : Text) : Prop := Complete t ∧ ∀ x ∈ scan t, x.symbol ≠ .rightBracket

theorem Unbracketed.append {a b : Text} (ha : Unbracketed a) (hb : Unbracketed b) :
    Unbracketed (a ++ b) := by
  refine ⟨ha.1.append hb.1, fun x hx => ?_⟩
  rw [ha.1, List.mem_append] at hx
  rcases hx with hx | hx
  · exact ha.2 x hx
  · exact hb.2 x hx

theorem Fits.unbracketed {p : Text} (h : Fits p) : Unbracketed p := ⟨h.closed.complete, h.symbols⟩

theorem unbracketed_singleton {c : Char} (ha : c ≠ '=') (hd : c ≠ ':') (he : c ≠ '%')
    (hb : Symbol.ofChar c ≠ .rightBracket) : Unbracketed [c] := by
  refine ⟨complete_singleton ha hd he, fun x hx => ?_⟩
  rw [scan_singleton, List.mem_singleton] at hx
  rw [hx]
  exact hb

theorem unbracketed_joined {t : Text} (h : Text.Joined [[';'], [',']] ps t)
    (hp : ∀ p ∈ ps, Fits p) : Unbracketed t := by
  refine h.all ⟨complete_nil, by simp [scan]⟩ (fun _ _ => Unbracketed.append) (fun s hs => ?_)
    fun p hm => (hp p hm).unbracketed
  simp only [List.mem_cons, List.not_mem_nil, or_false] at hs
  rcases hs with rfl | rfl
  · exact unbracketed_singleton (by decide) (by decide) (by decide) (by decide)
  · exact unbracketed_singleton (by decide) (by decide) (by decide) (by decide)

theorem Spells.unbracketed (h : Spells ps clause) (hp : ∀ p ∈ ps, Fits p) : Unbracketed clause := by
  cases h with
  | absent => exact ⟨complete_nil, by simp [scan]⟩
  | @present v t _ hv hj =>
    have hl : Unbracketed ['<'] :=
      unbracketed_singleton (by decide) (by decide) (by decide) (by decide)
    have hr : Unbracketed ['>'] :=
      unbracketed_singleton (by decide) (by decide) (by decide) (by decide)
    have := (((fits_of_inert (inert_of_allBlank hv)).unbracketed.append hl).append
      (unbracketed_joined hj hp)).append hr
    simpa using this

theorem Spells.closed (h : Spells ps clause) (hp : ∀ p ∈ ps, Fits p) : Closed clause := by
  cases h with
  | absent => exact closed_nil
  | present hv hj =>
    rw [List.append_assoc]
    exact (inert_of_allBlank hv).closed.append (closed_joined hj hp).clause

theorem Spells.sealed (h : Spells ps clause) (hp : ∀ p ∈ ps, Fits p) {test : Symbol → Bool}
    (htest : ∀ s, test s = true → s.isSeparator = true) : Piece.Sealed test clause := by
  cases h with
  | absent => exact Piece.sealed_nil
  | present hv hj =>
    rw [List.append_assoc]
    exact (Piece.sealed_of_inert htest (inert_of_allBlank hv)).append
      (Piece.sealed_clause htest (closed_joined hj hp))

/-- The subtypes of a clause are read piece by piece, whatever blanks surround it. -/
theorem subtypes_of_content {body f w : Text} (h : Spells ps clause) (hp : ∀ p ∈ ps, Fits p)
    (hlast : ∀ p ∈ ps.getLast?, p ≠ []) (hf : Inert f) (hw : Inert w) (ht : body.trim = body)
    (hbody : (Wrapper.inner? body).getD body = f ++ clause ++ w) :
    subtypes body = ps.map fun p => normalize 0 (scan p) := by
  simp only [subtypes, ht, hbody]
  cases h with
  | absent =>
    rw [TypeDescriptor.interior?_front
      (TypeDescriptor.front_of_inert (by simpa using hf.append hw))]
    rfl
  | @present v t _ hv hj =>
    have hfront := TypeDescriptor.front_of_inert (hf.append (inert_of_allBlank hv))
    have := TypeDescriptor.interior?_front_clause hfront (closed_joined hj hp) w
    rw [show f ++ (v ++ '<' :: t ++ ['>']) ++ w = f ++ v ++ '<' :: (t ++ '>' :: w) by simp, this]
    simp only [splitTexts_clause hj hp hlast]

end Clause

/-! ## Types and their names -/

namespace TypeDescriptor

variable {ps : List Text} {name : Option Text} {base clause body token : Text} {optional : Bool}

/-- The text of a type without its name and without blanks around it. -/
structure IsBody (body : Text) : Prop where
  ne_nil : body ≠ []
  trimmed : body.Trimmed
  head_ne : body.head? ≠ some ':'

theorem isLabel_isBody (h : base.IsLabel) (hc : Clause.Spells ps clause) :
    IsBody (base ++ clause) := by
  obtain ⟨c, l, rfl⟩ := List.exists_cons_of_ne_nil h.ne_nil
  refine ⟨by simp, ⟨?_, ?_⟩, ?_⟩
  · simpa using h.trimmed.1 c rfl
  · cases hc with
    | absent =>
      rw [List.append_nil]
      exact h.trimmed.2
    | present hv hj =>
      intro d hd
      rw [← List.append_assoc, List.getLast?_concat] at hd
      obtain rfl : '>' = d := by simpa using hd
      decide
  · have := h.plain c List.mem_cons_self
    rintro hd
    obtain rfl : c = ':' := by simpa using hd
    exact absurd this (by decide)

theorem Frames.isBody (h : Frames base clause optional body) (hb : base.IsLabel)
    (hc : Clause.Spells ps clause) : IsBody body := by
  cases h with
  | bare => exact isLabel_isBody hb hc
  | wrapped hv hw =>
    refine ⟨by simp, ⟨fun c hc => ?_, fun c hc => ?_⟩, by simp⟩
    · obtain rfl : '[' = c := by simpa using hc
      decide
    · rw [List.getLast?_concat] at hc
      obtain rfl : ']' = c := by simpa using hc
      decide

theorem Frames.inner? (h : Frames base clause optional body) (hb : base.IsLabel)
    (hc : Clause.Spells ps clause) (hp : ∀ p ∈ ps, Clause.Fits p) :
    (Wrapper.inner? body).isSome = optional ∧ ∃ v w, v.AllBlank ∧ w.AllBlank
      ∧ (Wrapper.inner? body).getD body = v ++ base ++ clause ++ w := by
  have hbase : Inert base := inert_of_forall hb.plain
  cases h with
  | bare =>
    obtain ⟨c, l, rfl⟩ := List.exists_cons_of_ne_nil hb.ne_nil
    have hn : Wrapper.inner? (c :: l ++ clause) = none :=
      Wrapper.inner?_cons_of_plain (hb.plain c List.mem_cons_self) _
    rw [hn]
    exact ⟨rfl, [], [], Text.allBlank_nil, Text.allBlank_nil, by simp⟩
  | @wrapped v w hv hw =>
    have hu : Clause.Unbracketed (v ++ (base ++ clause) ++ w) :=
      (((Clause.fits_of_inert (inert_of_allBlank hv)).unbracketed.append
        ((Clause.fits_of_inert hbase).unbracketed.append (hc.unbracketed hp))).append
        (Clause.fits_of_inert (inert_of_allBlank hw)).unbracketed)
    rw [Wrapper.inner?_wrapped hu.1 (by simp [hb.ne_nil]) hu.2]
    exact ⟨rfl, v, w, hv, hw, by simp⟩

theorem Frames.baseOf (h : Frames base clause optional body) (hb : base.IsLabel)
    (hc : Clause.Spells ps clause) : TypeDescriptor.baseOf body = base := by
  have hbase : Inert base := inert_of_forall hb.plain
  have hnil := Text.allBlank_nil
  cases h with
  | bare =>
    cases hc with
    | absent =>
      have := baseOf_brackets (.inl rfl) hbase (.inl rfl)
      rw [hb.trimmed.trim_eq] at this
      simpa using this
    | @present v t _ hv hj =>
      have hi := hbase.append (inert_of_allBlank hv)
      have := baseOf_front_clause (front_of_inert hi) (t ++ ['>'])
      rw [show base ++ (v ++ '<' :: t ++ ['>']) = base ++ v ++ '<' :: (t ++ ['>']) by simp, this]
      have := baseOf_brackets (.inl rfl) hi (.inl rfl)
      rw [show (base ++ v).trim = base from Text.trim_pad hnil hb.trimmed hv] at this
      simpa using this
  | @wrapped v w hv hw =>
    cases hc with
    | absent =>
      have hi := ((inert_of_allBlank hv).append hbase).append (inert_of_allBlank hw)
      have := baseOf_brackets (.inr rfl) hi (.inr rfl)
      rw [Text.trim_pad hv hb.trimmed hw] at this
      simpa using this
    | @present v' t _ hv' hj =>
      have hi := ((inert_of_allBlank hv).append hbase).append (inert_of_allBlank hv')
      have hf := (front_bracket (.inl rfl)).append (front_of_inert hi)
      have := baseOf_front_clause hf (t ++ '>' :: (w ++ [']']))
      rw [show '[' :: (v ++ (base ++ (v' ++ '<' :: t ++ ['>'])) ++ w) ++ [']']
        = ['['] ++ (v ++ base ++ v') ++ '<' :: (t ++ '>' :: (w ++ [']'])) by simp, this]
      have := baseOf_brackets (.inr rfl) hi (.inl rfl)
      rw [Text.trim_pad hv hb.trimmed hv'] at this
      simpa using this

theorem Frames.subtypes (h : Frames base clause optional body) (hb : base.IsLabel)
    (hc : Clause.Spells ps clause) (hp : ∀ p ∈ ps, Clause.Fits p)
    (hlast : ∀ p ∈ ps.getLast?, p ≠ []) :
    Clause.subtypes body = ps.map fun p => Clause.normalize 0 (scan p) := by
  obtain ⟨-, v, w, hv, hw, hi⟩ := h.inner? hb hc hp
  have hf := (inert_of_allBlank hv).append (inert_of_forall hb.plain)
  exact Clause.subtypes_of_content hc hp hlast hf (inert_of_allBlank hw)
    (h.isBody hb hc).trimmed.trim_eq hi

/-- A type without a name begins with a front, and nothing follows that but its clause. -/
theorem Frames.splitName (h : Frames base clause optional body) (hb : base.IsLabel)
    (hc : Clause.Spells ps clause) {v w : Text} (hv : v.AllBlank) (hw : w.AllBlank) :
    TypeDescriptor.splitName (v ++ body ++ w) = (none, v ++ body ++ w) := by
  have hfront : ∃ f g, Front f ∧ Front g ∧ v ++ body ++ w = f ++ clause ++ g := by
    have hvf := front_of_inert (inert_of_allBlank hv)
    have hwf := front_of_inert (inert_of_allBlank hw)
    have hbf := front_of_inert (inert_of_forall hb.plain)
    cases h with
    | bare => exact ⟨v ++ base, w, hvf.append hbf, hwf, by simp⟩
    | @wrapped v' w' hv' hw' =>
      have hvf' := front_of_inert (inert_of_allBlank hv')
      have hwf' := front_of_inert (inert_of_allBlank hw')
      refine ⟨v ++ ['['] ++ v' ++ base, w' ++ [']'] ++ w, ?_, ?_, by simp⟩
      · exact ((hvf.append (front_bracket (.inl rfl))).append hvf').append hbf
      · exact (hwf'.append (front_bracket (.inr rfl))).append hwf
  obtain ⟨f, g, hf, hg, heq⟩ := hfront
  rw [heq]
  cases hc with
  | absent => exact splitName_front (by simpa using hf.append hg)
  | @present v' t _ hv' hj =>
    have := splitName_front_clause (hf.append (front_of_inert (inert_of_allBlank hv')))
      (t ++ '>' :: g)
    simpa using this

theorem splitName_of_scan {token name rest : Text}
    (hscan : scan token = scan name ++ single ':' :: scan rest)
    (hin : ∀ x ∈ scan name, TypeDescriptor.inName x.symbol = true) (hn : name.trim ≠ [])
    (hr : rest.trim ≠ []) : TypeDescriptor.splitName token = (some name.trim, rest) := by
  have hd : (scan token).dropWhile (fun x => TypeDescriptor.inName x.symbol)
      = ⟨.colon, [':']⟩ :: scan rest := by
    rw [hscan, List.dropWhile_append_of_pos hin]
    rfl
  have ht : (scan token).takeWhile (fun x => TypeDescriptor.inName x.symbol) = scan name := by
    rw [hscan, List.takeWhile_append_of_pos hin, List.takeWhile_cons_of_neg (by decide),
      List.append_nil]
  simp only [TypeDescriptor.splitName, hd, ht, source_scan]
  simp [hn, hr]

theorem splitName_colon {n u v r : Text} (hu : u.AllBlank) (hn : n.IsLabel) (hv : v.AllBlank)
    (hscan : scan (':' :: r) = single ':' :: scan r) (hr : r.trim ≠ []) :
    TypeDescriptor.splitName (u ++ n ++ v ++ ':' :: r) = (some n, r) := by
  have hi := ((inert_of_allBlank hu).append (inert_of_forall hn.plain)).append
    (inert_of_allBlank hv)
  have hall : scan (u ++ n ++ v ++ ':' :: r) = scan (u ++ n ++ v) ++ single ':' :: scan r := by
    rw [hi.complete, hscan]
  have htrim : (u ++ n ++ v).trim = n := Text.trim_pad hu hn.trimmed hv
  rw [splitName_of_scan hall (front_of_inert hi).inName (by rw [htrim]; exact hn.ne_nil) hr, htrim]

theorem IsBody.head_pad (h : IsBody body) {v : Text} (hv : v.AllBlank) (w : Text) :
    (v ++ body ++ w).head? ≠ some ':' := by
  rcases v with _ | ⟨c, v⟩
  · obtain ⟨c, l, rfl⟩ := List.exists_cons_of_ne_nil h.ne_nil
    simpa using h.head_ne
  · rintro hc
    obtain rfl : c = ':' := by simpa using hc
    exact absurd (hv ':' List.mem_cons_self) (by decide)

variable (hb : base.IsLabel) (hc : Clause.Spells ps clause) (hp : ∀ p ∈ ps, Clause.Fits p)
  (hf : Frames base clause optional body) (hn : ∀ n ∈ name, n.IsLabel)
  (ht : Names body name token)

section Sealed

variable {test : Symbol → Bool} (htest : ∀ s, test s = true → s.isSeparator = true)

include htest in
theorem Front.sealed {f : Text} (h : Front f) : Piece.Sealed test f := by
  refine Piece.sealed_of_closed ⟨h.complete, balanced_of_level h.level⟩ fun x hx => ?_
  by_contra hx'
  have hs := htest _ (by simpa using hx')
  rcases h.symbols x hx with hi | hi
  · cases hsym : x.symbol <;> simp_all [Symbol.isInert, Symbol.isSeparator]
  · cases hsym : x.symbol <;> simp_all [isBracket, Symbol.isSeparator]

include htest in
theorem sealed_colon_cons {r : Text} (hr : Piece.Sealed test r) (hne : r ≠ [])
    (hh : r.head? ≠ some ':') : Piece.Sealed test (':' :: r) := by
  obtain ⟨hscan, hcomp⟩ := hr.complete.colon_cons hne hh
  have hcolon : test .colon ≠ true := fun h => by simpa [Symbol.isSeparator] using htest _ h
  refine ⟨hcomp, ?_, ?_⟩
  · rw [hscan]
    exact ⟨fun h => hcolon h.1, hr.quiet⟩
  · rw [hscan]
    exact hr.depth

include hb hc hp hf htest in
theorem Frames.sealed : Piece.Sealed test body := by
  have hbc := (Piece.sealed_of_inert htest (inert_of_forall hb.plain)).append (hc.sealed hp htest)
  cases hf with
  | bare => exact hbc
  | @wrapped v w hv hw =>
    have hv := Piece.sealed_of_inert htest (inert_of_allBlank hv)
    have hw := Piece.sealed_of_inert htest (inert_of_allBlank hw)
    have := (((front_bracket (.inl rfl)).sealed htest).append ((hv.append hbc).append hw)).append
      ((front_bracket (.inr rfl)).sealed htest)
    simpa using this

include hb hc hp hf hn ht htest in
theorem sealed_spelled : Piece.Sealed test token := by
  have hbody := hf.sealed hb hc hp htest
  cases ht with
  | none hv hw =>
    exact ((Piece.sealed_of_inert htest (inert_of_allBlank hv)).append hbody).append
      (Piece.sealed_of_inert htest (inert_of_allBlank hw))
  | @some u v v' w n hu hv hv' hw =>
    have hi := ((inert_of_allBlank hu).append (inert_of_forall (hn n rfl).plain)).append
      (inert_of_allBlank hv)
    have hB := hf.isBody hb hc
    have hr := ((Piece.sealed_of_inert htest (inert_of_allBlank hv')).append hbody).append
      (Piece.sealed_of_inert htest (inert_of_allBlank hw))
    exact (Piece.sealed_of_inert htest hi).append
      (sealed_colon_cons htest hr (by simp [hB.ne_nil]) (hB.head_pad hv' w))

end Sealed

include hb hc hf ht in
theorem spelled_ne_nil : token ≠ [] := by
  have hB := (hf.isBody hb hc).ne_nil
  cases ht <;> simp [hB]

include hb hc hp hf hn ht in
theorem parse_spelled (hlast : ∀ p ∈ ps.getLast?, p ≠ []) :
    parse token = ⟨name, base, ps.map fun p => Clause.normalize 0 (scan p), optional⟩ := by
  have hB := hf.isBody hb hc
  have hsplit : ∃ r, splitName token = (name, r) ∧ r.trim = body := by
    cases ht with
    | @none v w hv hw => exact ⟨_, hf.splitName hb hc hv hw, Text.trim_pad hv hB.trimmed hw⟩
    | @some u v v' w n hu hv hv' hw =>
      have htrim := Text.trim_pad hv' hB.trimmed hw
      have hseal : Piece.Sealed Symbol.separatesSubtypes body :=
        hf.sealed hb hc hp Clause.separatesSubtypes_isSeparator
      have hcomp := ((inert_of_allBlank hv').complete.append hseal.complete).append
        (inert_of_allBlank hw).complete
      have hscan := (hcomp.colon_cons (by simp [hB.ne_nil]) (hB.head_pad hv' w)).1
      exact ⟨_, splitName_colon hu (hn n rfl) hv hscan (by rw [htrim]; exact hB.ne_nil), htrim⟩
  obtain ⟨r, hr, htrim⟩ := hsplit
  simp only [parse, hr, htrim, hf.baseOf hb hc, hf.subtypes hb hc hp hlast, (hf.inner? hb hc hp).1]

end TypeDescriptor

end TypeSig
