import Mathlib.Data.List.Chain
import TypeSig.Lexeme
import TypeSig.Proofs.Blanks

/-!
# Reading a text apart from what follows it

A character is a lexeme of its own unless it begins one of the three sequences (`scan_cons`). A
text is `Complete` if it is read in the same way whatever follows it; such texts can be read one
after the other. Inert texts are complete and have no symbol that any later step acts on: labels,
blanks and escaped texts are inert.

What is cut from a text at the ends of lexemes is read as it was read there (`scan_slice`). A step
of reading looks at most one character ahead, and to leave that character out does not change it
(`scan_eq_cons`). Two texts in a row are read one after the other unless a sequence begins at the
end of the first (`scan_append`). So the blanks around a text leave its lexemes, but for a final `%`
that may protect one of them (`scan_append_blanks`, `mem_scan_trim`).
-/

namespace TypeSig

/-- The characters that can stand in an inert text only as escapes. -/
def Text.isDelimiter (c : Char) : Bool := ['<', '>', '[', ']', ',', ';', ':', '%', '='].contains c

/-- `e` spells `s` with a `%` before every blank and every delimiter, and perhaps before other
characters. -/
inductive Text.Escapes : Text → Text → Prop
  | nil : Escapes [] []
  | escaped (c : Char) {s e : Text} : Escapes s e → Escapes (c :: s) ('%' :: c :: e)
  | bare {c : Char} {s e : Text} : isBlank c = false → isDelimiter c = false → Escapes s e →
      Escapes (c :: s) (c :: e)

theorem Text.exists_escapes : ∀ s : Text, ∃ e, s.Escapes e
  | [] => ⟨[], .nil⟩
  | c :: s => by
    obtain ⟨e, he⟩ := exists_escapes s
    exact ⟨_, .escaped c he⟩

theorem Text.escapes_self : ∀ {t : Text},
    (∀ c ∈ t, isBlank c = false) → (∀ c ∈ t, isDelimiter c = false) → t.Escapes t
  | [], _, _ => .nil
  | c :: _, hb, hd => .bare (hb c List.mem_cons_self) (hd c List.mem_cons_self)
      (escapes_self (fun d h => hb d (List.mem_cons_of_mem _ h))
        fun d h => hd d (List.mem_cons_of_mem _ h))

/-- The symbols that neither open, close nor separate anything. -/
def Symbol.isInert : Symbol → Bool
  | plain | blank | escape => true
  | _ => false

namespace Lexeme

def single (c : Char) : Lexeme := ⟨.ofChar c, [c]⟩

/-- A text that is read in the same way whatever follows it. -/
def Complete (t : Text) : Prop := ∀ rest, scan (t ++ rest) = scan t ++ scan rest

/-- No sequence that is read eagerly begins at the end of `a` and goes on in `b`. -/
def Apart (a b : Text) : Prop := ∀ x ∈ (scan a).getLast?,
  x ≠ single '%' ∧ (x = single '=' → b.head? ≠ some '>') ∧ (x = single ':' → b.head? ≠ some ':')

/-- A complete text with inert symbols only. -/
structure Inert (t : Text) : Prop where
  complete : Complete t
  symbols : ∀ x ∈ scan t, x.symbol.isInert = true

/-! ## Characters -/

theorem scan_cons {c : Char} {t : Text} (ha : c = '=' → t.head? ≠ some '>')
    (hd : c = ':' → t.head? ≠ some ':') (he : c = '%' → t = []) :
    scan (c :: t) = single c :: scan t := by
  rw [scan.eq_5]
  · rfl
  · rintro t' rfl rfl
    exact ha rfl rfl
  · rintro t' rfl rfl
    exact hd rfl rfl
  · rintro c' t' rfl rfl
    simp at he

theorem scan_singleton {c : Char} : scan [c] = [single c] :=
  scan_cons (by simp) (by simp) (by simp)

theorem scan_ne_nil {t : Text} (h : t ≠ []) : scan t ≠ [] := by
  intro h0
  have := source_scan t
  rw [h0] at this
  exact h this.symm

theorem not_isDelimiter_iff {c : Char} : Text.isDelimiter c = false ↔ c ≠ '<' ∧ c ≠ '>' ∧ c ≠ '['
    ∧ c ≠ ']' ∧ c ≠ ',' ∧ c ≠ ';' ∧ c ≠ ':' ∧ c ≠ '%' ∧ c ≠ '=' := by
  simp [Text.isDelimiter]

theorem not_isDelimiter_of_isBlank {c : Char} (h : Text.isBlank c = true) :
    Text.isDelimiter c = false := by
  rw [not_isDelimiter_iff]
  refine ⟨?_, ?_, ?_, ?_, ?_, ?_, ?_, ?_, ?_⟩ <;> rintro rfl <;> exact absurd h (by decide)

theorem symbol_single {w : Char} (hw : Text.isBlank w = true) : (single w).symbol = .blank := by
  have hinert := not_isDelimiter_iff.1 (not_isDelimiter_of_isBlank hw)
  simp only [single, Symbol.ofChar]
  split <;> simp_all

theorem isBlank_of_symbol_single {c : Char} (h : (single c).symbol = .blank) :
    Text.isBlank c = true := by
  by_contra hc
  simp only [single, Symbol.ofChar] at h
  split at h <;> simp_all

theorem isInert_ofChar {c : Char} (h : Text.isDelimiter c = false) :
    (Symbol.ofChar c).isInert = true := by
  obtain ⟨h1, h2, h3, h4, h5, h6, h7, -, -⟩ := not_isDelimiter_iff.1 h
  unfold Symbol.ofChar
  split <;> try contradiction
  split <;> rfl

theorem mem_scan_cases {t : Text} {x : Lexeme} (h : x ∈ scan t) :
    x = ⟨.arrow, ['=', '>']⟩ ∨ x = ⟨.doubleColon, [':', ':']⟩ ∨ (∃ c, x = ⟨.escape, ['%', c]⟩)
      ∨ ∃ c, x = single c := by
  fun_induction scan t with
  | case1 => simp at h
  | case2 t ih =>
    rcases List.mem_cons.1 h with rfl | h
    · exact .inl rfl
    · exact ih h
  | case3 t ih =>
    rcases List.mem_cons.1 h with rfl | h
    · exact .inr (.inl rfl)
    · exact ih h
  | case4 c t ih =>
    rcases List.mem_cons.1 h with rfl | h
    · exact .inr (.inr (.inl ⟨c, rfl⟩))
    · exact ih h
  | case5 c t _ _ _ ih =>
    rcases List.mem_cons.1 h with rfl | h
    · exact .inr (.inr (.inr ⟨c, rfl⟩))
    · exact ih h

/-- Only the last lexeme can be a `%` that protects nothing. -/
theorem pairwise_scan (t : Text) : (scan t).Pairwise fun x _ => x ≠ single '%' := by
  fun_induction scan t with
  | case1 => exact .nil
  | case2 t ih | case3 t ih | case4 c t ih =>
    exact .cons (fun _ _ h => by simp [single] at h) ih
  | case5 c t ha hd he ih =>
    refine .cons (fun y hy h => ?_) ih
    obtain rfl : c = '%' := by simpa [single] using congrArg text h
    rcases t with _ | ⟨b, t⟩
    · simp [scan] at hy
    · exact he b t rfl rfl

/-! ## Slices -/

/-- What the first step of reading does. It does not depend on how far the text goes on. -/
theorem scan_eq_cons {t : Text} {x : Lexeme} {xs : List Lexeme} (h : scan t = x :: xs) :
    ∃ rest, t = x.text ++ rest ∧ scan rest = xs
      ∧ ∀ rest', rest' <+: rest → scan (x.text ++ rest') = x :: scan rest' := by
  fun_cases scan t with
  | case1 => simp [scan] at h
  | case2 rest | case3 rest | case4 c rest =>
    obtain ⟨rfl, rfl⟩ := List.cons.inj h
    exact ⟨rest, rfl, rfl, fun _ _ => rfl⟩
  | case5 c rest ha hd he =>
    have hstep : ∀ rest', rest' <+: rest → scan (c :: rest') = single c :: scan rest' := by
      rintro rest' ⟨tail, rfl⟩
      refine scan_cons ?_ ?_ ?_ <;> rintro rfl <;> rcases rest' with _ | ⟨b, rest'⟩ <;> simp_all
    obtain ⟨rfl, rfl⟩ := List.cons.inj ((hstep rest List.prefix_rfl).symm.trans h)
    exact ⟨rest, rfl, rfl, hstep⟩

/-- The lexemes before a cut do not depend on how far the text goes on behind it. -/
theorem scan_source_append {t u : Text} {xs ys : List Lexeme} (h : scan t = xs ++ ys)
    (hu : u <+: source ys) : scan (source xs ++ u) = xs ++ scan u := by
  induction xs generalizing t with
  | nil => rfl
  | cons x xs ih =>
    rw [List.cons_append] at h
    obtain ⟨rest, -, hrest, hstep⟩ := scan_eq_cons h
    have hpre : source xs ++ u <+: rest := by
      rw [← source_scan rest, hrest, source_append]
      exact (List.prefix_append_right_inj _).2 hu
    rw [source_cons, List.append_assoc, hstep _ hpre, ih hrest]
    rfl

theorem scan_source_of_append {t : Text} {xs ys : List Lexeme} (h : scan t = xs ++ ys) :
    scan (source xs) = xs ∧ scan (source ys) = ys := by
  constructor
  · simpa [scan] using scan_source_append h List.nil_prefix
  · have hall := scan_source_append h List.prefix_rfl
    rw [← source_append, ← h, source_scan, h] at hall
    exact (List.append_cancel_left hall).symm

theorem scan_slice {t : Text} {xs ys zs : List Lexeme} (h : scan t = xs ++ ys ++ zs) :
    scan (source ys) = ys :=
  (scan_source_of_append (scan_source_of_append h).1).2

/-! ## Complete texts -/

theorem complete_nil : Complete [] := fun _ => rfl

theorem Complete.append {a b : Text} (ha : Complete a) (hb : Complete b) : Complete (a ++ b) := by
  intro rest
  rw [List.append_assoc, ha, hb, ha, List.append_assoc]

theorem complete_singleton {c : Char} (ha : c ≠ '=') (hd : c ≠ ':') (he : c ≠ '%') :
    Complete [c] := by
  intro rest
  rw [List.singleton_append, scan_cons (fun h => absurd h ha) (fun h => absurd h hd)
    (fun h => absurd h he), scan_cons (fun h => absurd h ha) (fun h => absurd h hd)
    (fun h => absurd h he)]
  rfl

theorem complete_arrow : Complete ['=', '>'] := fun _ => rfl

theorem complete_escape (c : Char) : Complete ['%', c] := fun _ => rfl

theorem Complete.colon_cons {t : Text} (ht : Complete t) (hne : t ≠ []) (hh : t.head? ≠ some ':') :
    scan (':' :: t) = single ':' :: scan t ∧ Complete (':' :: t) := by
  have h : ∀ rest, scan (':' :: (t ++ rest)) = single ':' :: scan (t ++ rest) := by
    intro rest
    refine scan_cons (fun h => absurd h (by decide)) (fun _ => ?_) (fun h => absurd h (by decide))
    obtain ⟨c, t, rfl⟩ := List.exists_cons_of_ne_nil hne
    simpa using hh
  have h0 : scan (':' :: t) = single ':' :: scan t := by simpa using h []
  refine ⟨h0, fun rest => ?_⟩
  rw [List.cons_append, h, ht, h0, List.cons_append]

/-! ## Inert texts -/

theorem inert_nil : Inert [] := ⟨complete_nil, by simp [scan]⟩

theorem Inert.append {a b : Text} (ha : Inert a) (hb : Inert b) : Inert (a ++ b) := by
  refine ⟨ha.complete.append hb.complete, fun x hx => ?_⟩
  rw [ha.complete, List.mem_append] at hx
  rcases hx with hx | hx
  · exact ha.symbols x hx
  · exact hb.symbols x hx

theorem inert_singleton {c : Char} (h : Text.isDelimiter c = false) : Inert [c] := by
  obtain ⟨-, -, -, -, -, -, hd, he, ha⟩ := not_isDelimiter_iff.1 h
  refine ⟨complete_singleton ha hd he, fun x hx => ?_⟩
  rw [scan_cons (fun h => absurd h ha) (fun h => absurd h hd) (fun h => absurd h he)] at hx
  obtain rfl : x = single c := by simpa [scan] using hx
  exact isInert_ofChar h

theorem inert_escape (c : Char) : Inert ['%', c] := by
  refine ⟨complete_escape c, fun x hx => ?_⟩
  obtain rfl : x = ⟨.escape, ['%', c]⟩ := by simpa [scan] using hx
  rfl

theorem inert_of_forall : ∀ {t : Text}, (∀ c ∈ t, Text.isDelimiter c = false) → Inert t
  | [], _ => inert_nil
  | c :: _, h =>
    (inert_singleton (h c List.mem_cons_self)).append
      (inert_of_forall fun d hd => h d (List.mem_cons_of_mem _ hd))

theorem inert_of_allBlank {t : Text} (h : Text.AllBlank t) : Inert t :=
  inert_of_forall fun c hc => not_isDelimiter_of_isBlank (h c hc)

theorem inert_of_escapes {s e : Text} (h : Text.Escapes s e) : Inert e := by
  induction h with
  | nil => exact inert_nil
  | escaped c _ ih => exact (inert_escape c).append ih
  | bare _ hc _ ih => exact (inert_singleton hc).append ih

/-! ## Two texts in a row -/

theorem Apart.of_scan_cons {a a' b : Text} {x : Lexeme} (h : Apart a b)
    (ha : scan a = x :: scan a') : Apart a' b := by
  intro y hy
  refine h y ?_
  rw [ha, List.getLast?_cons, hy]
  rfl

theorem scan_append {a b : Text} (h : Apart a b) : scan (a ++ b) = scan a ++ scan b := by
  fun_induction scan a with
  | case1 => rfl
  | case2 a ih | case3 a ih | case4 c a ih =>
    simp only [List.cons_append, scan, ih (h.of_scan_cons rfl)]
  | case5 c a ha hd he ih =>
    have hscan : scan (c :: a) = single c :: scan a := scan.eq_5 c a ha hd he
    -- the character after `c` is in `a`, or else `c` is the last lexeme of the first text
    have hend : a = [] → single c ≠ single '%' ∧ (single c = single '=' → b.head? ≠ some '>')
        ∧ (single c = single ':' → b.head? ≠ some ':') := by
      rintro rfl
      exact h (single c) (by rw [hscan]; rfl)
    rw [List.cons_append, scan_cons, ih (h.of_scan_cons hscan)]
    · rfl
    · rintro rfl
      rcases a with _ | ⟨d, a⟩
      · exact (hend rfl).2.1 rfl
      · simpa using ha a rfl
    · rintro rfl
      rcases a with _ | ⟨d, a⟩
      · exact (hend rfl).2.2 rfl
      · simpa using hd a rfl
    · rintro rfl
      rcases a with _ | ⟨d, a⟩
      · exact absurd rfl (hend rfl).1
      · exact absurd rfl (he d a rfl)

theorem head?_ne_of_allBlank {w : Text} (hw : w.AllBlank) {c : Char}
    (hc : Text.isBlank c = false) : w.head? ≠ some c := by
  intro h
  rw [hw c (List.mem_of_mem_head? h)] at hc
  simp at hc

/-- In front of a final `%` that protects nothing, the text is read as it is without it. -/
theorem of_scan_eq_percent {a : Text} {xs : List Lexeme} (h : scan a = xs ++ [single '%']) :
    a = source xs ++ ['%'] ∧ scan (source xs) = xs ∧ single '%' ∉ xs := by
  refine ⟨?_, (scan_source_of_append h).1, fun hmem => ?_⟩
  · rw [← source_scan a, h, source_append]
    rfl
  · have hpair := pairwise_scan a
    rw [h, List.pairwise_append] at hpair
    exact hpair.2.2 _ hmem _ List.mem_cons_self rfl

/-- Blanks after a text are read on their own, but for one that a final `%` protects. -/
theorem scan_append_blanks (a : Text) {w : Text} (hw : w.AllBlank) :
    scan (a ++ w) = scan a ++ scan w ∨ ∃ xs b w', scan a = xs ++ [single '%'] ∧ w = b :: w'
      ∧ scan (a ++ w) = xs ++ ⟨.escape, ['%', b]⟩ :: scan w' := by
  by_cases hlast : (scan a).getLast? = some (single '%')
  · obtain ⟨xs, hxs⟩ := List.getLast?_eq_some_iff.1 hlast
    rcases w with _ | ⟨b, w⟩
    · exact .inl (by simp [scan])
    · refine .inr ⟨xs, b, w, hxs, rfl, ?_⟩
      obtain ⟨ha, hsource, hnot⟩ := of_scan_eq_percent hxs
      have hapart : Apart (source xs) ('%' :: b :: w) := by
        intro x hx
        rw [hsource] at hx
        refine ⟨?_, by simp, by simp⟩
        rintro rfl
        exact hnot (List.mem_of_getLast? hx)
      rw [ha, List.append_assoc, List.singleton_append, scan_append hapart, hsource]
      rfl
  · left
    refine scan_append fun x hx => ⟨?_, fun _ => ?_, fun _ => ?_⟩
    · rintro rfl
      exact hlast hx
    · exact head?_ne_of_allBlank hw rfl
    · exact head?_ne_of_allBlank hw rfl

theorem scan_trim_append (t : Text) : ∃ v w : Text, v.AllBlank ∧ w.AllBlank
    ∧ scan t = scan v ++ scan (t.trim ++ w) := by
  obtain ⟨v, w, hv, hw, ht, -⟩ := Text.exists_pad t
  refine ⟨v, w, hv, hw, ?_⟩
  rw [← (inert_of_allBlank hv).complete, ← List.append_assoc, ← ht]

theorem mem_scan_trim {t : Text} {x : Lexeme} (h : x ∈ scan t.trim) :
    x ∈ scan t ∨ x = single '%' := by
  obtain ⟨v, w, -, hw, hscan⟩ := scan_trim_append t
  rw [hscan, List.mem_append]
  rcases scan_append_blanks t.trim hw with happ | ⟨xs, b, w', hxs, -, happ⟩
  · rw [happ, List.mem_append]
    exact .inl (.inr (.inl h))
  · rw [hxs, List.mem_append, List.mem_singleton] at h
    rw [happ, List.mem_append]
    exact h.imp_left fun h => .inr (.inl h)

/-! ## Blocks of constraints -/

/-- Whether two characters in a row are not an arrow. -/
def NoArrow (a b : Char) : Prop := ¬ (a = '=' ∧ b = '>')

/-- Without colons, escapes and arrows, a text before a `::` is read character by character. -/
theorem scan_block {m : Text} (rest : Text) (ha : m.IsChain NoArrow) (hd : ':' ∉ m)
    (he : '%' ∉ m) : scan (m ++ ':' :: ':' :: rest) =
      m.map single ++ ⟨.doubleColon, [':', ':']⟩ :: scan rest := by
  induction m with
  | nil => rfl
  | cons c m ih =>
    simp only [List.mem_cons, not_or] at hd he
    rw [List.cons_append, scan_cons, ih ha.of_cons hd.2 he.2]
    · rfl
    · rintro rfl
      rcases m with _ | ⟨b, m⟩
      · simp
      · simp only [List.isChain_cons_cons] at ha
        simpa [NoArrow] using ha.1
    · exact fun h => absurd h.symm hd.1
    · exact fun h => absurd h.symm he.1

end Lexeme

end TypeSig
