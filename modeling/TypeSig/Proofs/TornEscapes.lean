import TypeSig.Proofs.OptionalTypes

/-!
# Escapes that are torn apart

A name and a base are trimmed character by character, so at their end a blank that an escape
protects counts like any other. It is dropped, and of the escape a `%` is left that protects
nothing. This is the only way in which an escape of a token is torn apart: the name ends in a lone
`%` exactly if the last lexeme before the colon, but for blanks, is such an escape, and for the base
the same holds of the lexemes before the clause (`lone_percent_iff`). It happens in front of the
colon, in front of the clause and at the end of the token (`parse_of_escaped_blank`).

Whether a text ends in a lone `%` is seen from its characters that no escape protects, and these do
not depend on how the text was put together (`exposed_source`). The blanks before a text are among
them, so only its end matters (`percent_mem_exposed_trim`).
-/

namespace TypeSig

open Lexeme

/-! ## The end of a text -/

namespace Text

variable {a b s t : Text}

theorem exposed_append (h : '%' ∉ exposed a) : exposed (a ++ b) = exposed a ++ exposed b := by
  fun_induction exposed a with
  | case1 => rfl
  | case2 c t ih => simpa [exposed] using ih h
  | case3 c t _ ih =>
    simp only [List.mem_cons, not_or] at h
    rw [List.cons_append, exposed_cons (Ne.symm h.1), ih h.2, List.cons_append]

theorem exposed_eq_self (h : '%' ∉ t) : exposed t = t := by
  induction t with
  | nil => rfl
  | cons c t ih =>
    simp only [List.mem_cons, not_or] at h
    rw [exposed_cons (Ne.symm h.1), ih h.2]

theorem AllBlank.percent_notMem (h : AllBlank t) : '%' ∉ t := fun hmem =>
  absurd (h '%' hmem) (by decide)

/-- To trim a text that does not end with a blank drops only blanks at its beginning. -/
theorem percent_mem_exposed_trim {c : Char} (hc : isBlank c = false) :
    '%' ∈ exposed (s ++ [c]).trim ↔ '%' ∈ exposed (s ++ [c]) := by
  obtain ⟨v, w, hv, hw, ht, -⟩ := exists_pad (s ++ [c])
  have hend : w = [] := by
    rcases List.eq_nil_or_concat' w with rfl | ⟨w, d, rfl⟩
    · rfl
    · rw [← List.append_assoc] at ht
      obtain rfl : c = d := by simpa using (List.append_inj' ht rfl).2
      simp [hw c (by simp)] at hc
  have hexposed : exposed (s ++ [c]) = v ++ exposed (s ++ [c]).trim := by
    conv_lhs => rw [ht, hend, List.append_nil]
    rw [exposed_append, exposed_eq_self hv.percent_notMem]
    rw [exposed_eq_self hv.percent_notMem]
    exact hv.percent_notMem
  rw [hexposed, List.mem_append]
  simp [hv.percent_notMem]

end Text

namespace Lexeme

/-- The last lexeme that is not a blank protects one. -/
def EndsInBlankEscape (xs : List Lexeme) : Prop :=
  ∃ b, Text.isBlank b = true
    ∧ (xs.filter (·.symbol != .blank)).getLast? = some ⟨.escape, ['%', b]⟩

variable {t : Text} {x : Lexeme} {xs : List Lexeme}

theorem eq_single_of_percent_mem (hx : x ∈ scan t) (h : '%' ∈ Text.exposed x.text) :
    x = single '%' := by
  rcases mem_scan_cases hx with rfl | rfl | ⟨c, rfl⟩ | ⟨c, rfl⟩
  · simp [Text.exposed] at h
  · simp [Text.exposed] at h
  · simp [Text.exposed] at h
  · by_cases hc : c = '%'
    · rw [hc]
    · simp [single, Text.exposed_cons hc, Text.exposed, Ne.symm hc] at h

theorem percent_mem_exposed_source (h : xs.Sublist (scan t)) :
    '%' ∈ Text.exposed (source xs) ↔ single '%' ∈ xs := by
  rw [exposed_source h, List.mem_flatMap]
  constructor
  · rintro ⟨x, hx, hmem⟩
    rwa [← eq_single_of_percent_mem (h.subset hx) hmem]
  · intro hmem
    exact ⟨single '%', hmem, by simp [single, Text.exposed]⟩

theorem percent_mem_exposed_iff : '%' ∈ Text.exposed t ↔ single '%' ∈ scan t := by
  have := percent_mem_exposed_source (List.Sublist.refl (scan t))
  rwa [source_scan] at this

theorem exists_last_solid (xs : List Lexeme) : (∀ x ∈ xs, x.symbol = .blank) ∨
    ∃ zs x ws, xs = zs ++ x :: ws ∧ x.symbol ≠ .blank ∧ ∀ w ∈ ws, w.symbol = .blank := by
  induction xs with
  | nil => exact .inl (by simp)
  | cons x xs ih =>
    rcases ih with hall | ⟨zs, y, ws, rfl, hy, hws⟩
    · by_cases hx : x.symbol = .blank
      · exact .inl (List.forall_mem_cons.2 ⟨hx, hall⟩)
      · exact .inr ⟨[], x, xs, rfl, hx, hall⟩
    · exact .inr ⟨x :: zs, y, ws, rfl, hy, hws⟩

theorem allBlank_source (hmem : ∀ x ∈ xs, x ∈ scan t) (h : ∀ x ∈ xs, x.symbol = .blank) :
    (source xs).AllBlank := by
  intro c hc
  obtain ⟨x, hx, hcx⟩ := List.mem_flatMap.1 hc
  have hblank := h x hx
  rcases mem_scan_cases (hmem x hx) with rfl | rfl | ⟨d, rfl⟩ | ⟨d, rfl⟩
  · simp at hblank
  · simp at hblank
  · simp at hblank
  · obtain rfl : c = d := by simpa [single] using hcx
    exact isBlank_of_symbol_single hblank

/-- A lexeme that is not a blank ends with a character that is not, unless it is the escape of
one. -/
theorem ends_solid (hx : x ∈ scan t) (hs : x.symbol ≠ .blank) :
    (∃ b, Text.isBlank b = true ∧ x = ⟨.escape, ['%', b]⟩) ∨
      (∃ u c, x.text = u ++ [c] ∧ Text.isBlank c = false)
        ∧ ∀ b, Text.isBlank b = true → x ≠ ⟨.escape, ['%', b]⟩ := by
  rcases mem_scan_cases hx with rfl | rfl | ⟨c, rfl⟩ | ⟨c, rfl⟩
  · exact .inr ⟨⟨['='], '>', rfl, by decide⟩, by simp⟩
  · exact .inr ⟨⟨[':'], ':', rfl, by decide⟩, by simp⟩
  · by_cases hc : Text.isBlank c = true
    · exact .inl ⟨c, hc, rfl⟩
    · refine .inr ⟨⟨['%'], c, rfl, by simpa using hc⟩, ?_⟩
      intro b hb heq
      obtain rfl : c = b := by simpa using heq
      exact hc hb
  · refine .inr ⟨⟨[], c, rfl, ?_⟩, by simp [single]⟩
    by_contra hc
    exact hs (symbol_single (by simpa using hc))

theorem endsInBlankEscape_append {zs ws : List Lexeme} (hx : x.symbol ≠ .blank)
    (hws : ∀ w ∈ ws, w.symbol = .blank) : EndsInBlankEscape (zs ++ x :: ws) ↔
      ∃ b, Text.isBlank b = true ∧ x = ⟨.escape, ['%', b]⟩ := by
  have hfilter : ws.filter (·.symbol != .blank) = [] :=
    List.filter_eq_nil_iff.2 fun w hw => by simp [hws w hw]
  simp [EndsInBlankEscape, List.filter_append, hx, hfilter]

/-- Trimming what is left of a text makes a lone `%` of an escape exactly if it protects the blank
at the end. -/
theorem percent_mem_scan_trim_iff (h : xs.Sublist (scan t)) (hno : single '%' ∉ xs) :
    single '%' ∈ scan (source xs).trim ↔ EndsInBlankEscape xs := by
  rw [← percent_mem_exposed_iff]
  have hquiet : ∀ {ys : List Lexeme}, ys.Sublist xs → '%' ∉ Text.exposed (source ys) := by
    intro ys hys
    rw [percent_mem_exposed_source (hys.trans h)]
    exact fun hmem => hno (hys.subset hmem)
  rcases exists_last_solid xs with hall | ⟨zs, x, ws, rfl, hx, hws⟩
  · have hblank := allBlank_source (fun x hx => h.subset hx) hall
    have htrim : (source xs).trim = [] := Text.trim_append_blanks [] hblank
    have hfilter : xs.filter (·.symbol != .blank) = [] :=
      List.filter_eq_nil_iff.2 fun x hx => by simp [hall x hx]
    simp [htrim, Text.exposed, EndsInBlankEscape, hfilter]
  · have hblank : (source ws).AllBlank :=
      allBlank_source (fun w hw => h.subset (by simp [hw])) hws
    rw [endsInBlankEscape_append hx hws, source_append, source_cons, ← List.append_assoc,
      Text.trim_append_blanks _ hblank]
    rcases ends_solid (h.subset (by simp)) hx with ⟨b, hb, rfl⟩ | ⟨⟨u, c, hu, hc⟩, hne⟩
    · -- the protected blank is trimmed too, and the `%` is the end
      have htrim : (source zs ++ ['%', b]).trim = (source zs ++ ['%']).trim := by
        simpa using Text.trim_append_blanks (source zs ++ ['%']) (Text.allBlank_singleton hb)
      refine iff_of_true ?_ ⟨b, hb, rfl⟩
      rw [htrim, Text.percent_mem_exposed_trim (by decide),
        Text.exposed_append (hquiet (List.sublist_append_left _ _))]
      simp [Text.exposed]
    · have hsub : (zs ++ [x]).Sublist (zs ++ x :: ws) := by simp
      have hsolid := hquiet hsub
      simp only [source_append, source_cons, source_nil, List.append_nil] at hsolid
      rw [hu, ← List.append_assoc] at hsolid ⊢
      rw [Text.percent_mem_exposed_trim hc]
      refine iff_of_false hsolid ?_
      rintro ⟨b, hb, heq⟩
      exact hne b hb heq

theorem EndsInBlankEscape.exists_mem (h : EndsInBlankEscape xs) :
    ∃ b, Text.isBlank b = true ∧ ⟨.escape, ['%', b]⟩ ∈ xs := by
  obtain ⟨b, hb, hlast⟩ := h
  exact ⟨b, hb, List.mem_of_mem_filter (List.mem_of_getLast? hlast)⟩

end Lexeme

/-! ## Names and bases -/

namespace TypeDescriptor

/-- The lexemes before the first clause that are not brackets. -/
def unbracketed (xs : List Lexeme) : List Lexeme :=
  (xs.takeWhile (·.symbol != .leftAngle)).filter fun x => !isBracket x.symbol

variable {token rest t : Text} {xs : List Lexeme}

theorem baseOf_eq (t : Text) : baseOf t = (source (unbracketed (scan t))).trim := rfl

theorem unbracketed_sublist (xs : List Lexeme) : (unbracketed xs).Sublist xs :=
  List.filter_sublist.trans (List.takeWhile_sublist _)

theorem unbracketed_append_of_forall (h : ∀ x ∈ xs, x.symbol ≠ .leftAngle) (ys : List Lexeme) :
    unbracketed (xs ++ ys) = unbracketed xs ++ unbracketed ys := by
  have hpass : ∀ x ∈ xs, (x.symbol != .leftAngle) = true := by simpa using h
  simp only [unbracketed, List.takeWhile_append_of_pos hpass, List.takeWhile_eq_self_iff.2 hpass,
    List.filter_append]

theorem unbracketed_append_of_mem {x : Lexeme} (hx : x ∈ xs) (hs : x.symbol = .leftAngle)
    (ys : List Lexeme) : unbracketed (xs ++ ys) = unbracketed xs := by
  have hstop : (xs.takeWhile (·.symbol != .leftAngle)).length ≠ xs.length := by
    intro hlen
    have hall := (List.takeWhile_prefix (p := (·.symbol != .leftAngle)) (l := xs)).eq_of_length hlen
    have := List.takeWhile_eq_self_iff.1 hall x hx
    simp [hs] at this
  simp only [unbracketed, List.takeWhile_append, if_neg hstop]

theorem unbracketed_of_inert (h : ∀ x ∈ xs, x.symbol.isInert = true) : unbracketed xs = xs := by
  have hsymbol : ∀ x ∈ xs, x.symbol ≠ .leftAngle ∧ isBracket x.symbol = false := by
    intro x hx
    have hx := h x hx
    cases hs : x.symbol <;> simp_all [Symbol.isInert, isBracket]
  rw [unbracketed, List.takeWhile_eq_self_iff.2 fun x hx => by simpa using (hsymbol x hx).1]
  exact List.filter_eq_self.2 fun x hx => by simp [(hsymbol x hx).2]

/-- The blanks around a text are around what is left for its base, though one of them may be
protected by a `%` at the end. -/
theorem exists_source_unbracketed (t : Text) : ∃ v w : Text, v.AllBlank ∧ w.AllBlank ∧
    source (unbracketed (scan t)) = v ++ (source (unbracketed (scan t.trim)) ++ w) := by
  obtain ⟨v, w, hv, hw, hscan⟩ := scan_trim_append t
  have hinert := (inert_of_allBlank hv).symbols
  have hfront : ∀ x ∈ scan v, x.symbol ≠ .leftAngle := by
    intro x hx hs
    have hx := hinert x hx
    simp [hs, Symbol.isInert] at hx
  refine ⟨v, ?_⟩
  rw [hscan, unbracketed_append_of_forall hfront, unbracketed_of_inert hinert, source_append,
    source_scan]
  rcases scan_append_blanks t.trim hw with happ | ⟨xs, b, w, hxs, rfl, happ⟩
  · by_cases hclause : ∃ x ∈ scan t.trim, x.symbol = .leftAngle
    · obtain ⟨x, hx, hs⟩ := hclause
      exact ⟨[], hv, Text.allBlank_nil, by simp [happ, unbracketed_append_of_mem hx hs]⟩
    · push Not at hclause
      refine ⟨w, hv, hw, ?_⟩
      rw [happ, unbracketed_append_of_forall hclause,
        unbracketed_of_inert (inert_of_allBlank hw).symbols, source_append, source_scan]
  · rw [happ, hxs]
    by_cases hclause : ∃ x ∈ xs, x.symbol = .leftAngle
    · obtain ⟨x, hx, hs⟩ := hclause
      exact ⟨[], hv, Text.allBlank_nil, by simp [unbracketed_append_of_mem hx hs]⟩
    · push Not at hclause
      have hw' : Text.AllBlank w := fun c hc => hw c (List.mem_cons_of_mem _ hc)
      have hescape : ∀ x ∈ (⟨.escape, ['%', b]⟩ : Lexeme) :: scan w, x.symbol.isInert = true :=
        List.forall_mem_cons.2 ⟨rfl, (inert_of_allBlank hw').symbols⟩
      have hpercent : ∀ x ∈ [single '%'], x.symbol.isInert = true :=
        List.forall_mem_singleton.2 rfl
      refine ⟨b :: w, hv, hw, ?_⟩
      rw [unbracketed_append_of_forall hclause, unbracketed_append_of_forall hclause,
        unbracketed_of_inert hescape, unbracketed_of_inert hpercent]
      simp [single, source_scan]

theorem baseOf_trim (t : Text) : baseOf t.trim = baseOf t := by
  obtain ⟨v, w, hv, hw, hsource⟩ := exists_source_unbracketed t
  rw [baseOf_eq, baseOf_eq t, hsource, ← Text.trim_append_blanks _ hw]
  exact (congrArg Text.trimEnd (Text.trimStart_append hv _)).symm

theorem percent_mem_baseOf_iff (hno : single '%' ∉ scan t) :
    single '%' ∈ scan (baseOf t.trim) ↔ EndsInBlankEscape (unbracketed (scan t)) := by
  rw [baseOf_trim, baseOf_eq]
  exact percent_mem_scan_trim_iff (unbracketed_sublist _)
    fun hmem => hno ((unbracketed_sublist _).subset hmem)

theorem scan_subset_of_afterName (h : AfterName token rest) : scan rest ⊆ scan token := by
  rcases h with ⟨xs, x, ys, hname, rfl⟩ | ⟨-, rfl⟩
  · have hscan : scan token = (xs ++ [x]) ++ ys := by simp [hname.scan_eq]
    rw [(scan_source_of_append hscan).2, hscan]
    exact List.subset_append_right _ _
  · exact List.Subset.refl _

theorem percent_mem_base_iff (hno : single '%' ∉ scan token) (h : AfterName token rest) :
    single '%' ∈ scan (parse token).base ↔ EndsInBlankEscape (unbracketed (scan rest)) := by
  rw [base_parse, ← afterName_iff.1 h]
  exact percent_mem_baseOf_iff fun hmem => hno (scan_subset_of_afterName h hmem)

theorem percent_mem_name_iff (hno : single '%' ∉ scan token) {n : Text}
    (hn : n ∈ (parse token).name) :
    single '%' ∈ scan n ↔ ∃ xs x ys, NameAt token xs x ys ∧ EndsInBlankEscape xs := by
  have hiff : ∀ {xs x ys}, NameAt token xs x ys →
      (single '%' ∈ scan n ↔ EndsInBlankEscape xs) := by
    intro xs x ys hname
    rw [name_parse, hname.splitName_eq] at hn
    obtain rfl : (source xs).trim = n := by simpa using hn
    have hsub : xs.Sublist (scan token) := by simp [hname.scan_eq]
    exact percent_mem_scan_trim_iff hsub fun hmem => hno (hsub.subset hmem)
  constructor
  · intro hmem
    rcases splitName_cases token with hsplit | ⟨xs, x, ys, hname, -⟩
    · simp [name_parse, hsplit] at hn
    · exact ⟨xs, x, ys, hname, (hiff hname).1 hmem⟩
  · rintro ⟨xs, x, ys, hname, hends⟩
    exact (hiff hname).2 hends

/-- Of a token without a lone `%`, a name has one exactly if the last lexeme before the colon, but
for blanks, protects a blank, and a base exactly if the last lexeme before the clause does, but for
blanks and brackets. So neither has one if no blank of the token is escaped. -/
theorem lone_percent_iff (token : Text) (hno : single '%' ∉ scan token) :
    (∀ n ∈ (parse token).name, single '%' ∈ scan n ↔
      ∃ xs x ys, NameAt token xs x ys ∧ EndsInBlankEscape xs)
    ∧ (∀ rest, AfterName token rest →
      (single '%' ∈ scan (parse token).base ↔ EndsInBlankEscape (unbracketed (scan rest))))
    ∧ ((∀ b, Text.isBlank b = true → (⟨.escape, ['%', b]⟩ : Lexeme) ∉ scan token) →
      single '%' ∉ scan (parse token).base ∧ ∀ n ∈ (parse token).name, single '%' ∉ scan n) := by
  refine ⟨fun n hn => percent_mem_name_iff hno hn, fun rest h => percent_mem_base_iff hno h,
    fun hescaped => ⟨fun hmem => ?_, fun n hn hmem => ?_⟩⟩
  · have hrest : AfterName token (splitName token).2 := afterName_iff.2 rfl
    obtain ⟨b, hb, hx⟩ := ((percent_mem_base_iff hno hrest).1 hmem).exists_mem
    exact hescaped b hb (scan_subset_of_afterName hrest ((unbracketed_sublist _).subset hx))
  · obtain ⟨xs, x, ys, hname, hends⟩ := (percent_mem_name_iff hno hn).1 hmem
    obtain ⟨b, hb, hx⟩ := hends.exists_mem
    exact hescaped b hb (by simp [hname.scan_eq, hx])

/-- The name of `n% :[a%  ]` is `n%` and its base `a%`, as the brackets and the second blank do not
count. The base of `a%% <b>` keeps its escape, and so does that of `a%<`, where no blank is
escaped. -/
theorem lone_percent_iff_wrapped :
    (single '%' ∈ scan ['n', '%']
      ∧ single '%' ∈ scan (parse ['n', '%', ' ', ':', '[', 'a', '%', ' ', ' ', ']']).base)
    ∧ single '%' ∉ scan (parse ['a', '%', '%', ' ', '<', 'b', '>']).base
    ∧ single '%' ∉ scan (parse ['a', '%', '<']).base := by
  obtain ⟨hname, hbase, -⟩ := lone_percent_iff ['n', '%', ' ', ':', '[', 'a', '%', ' ', ' ', ']']
    (by decide)
  obtain ⟨-, hkept, -⟩ := lone_percent_iff ['a', '%', '%', ' ', '<', 'b', '>'] (by decide)
  obtain ⟨-, -, hescaped⟩ := lone_percent_iff ['a', '%', '<'] (by decide)
  have hat : NameAt ['n', '%', ' ', ':', '[', 'a', '%', ' ', ' ', ']']
      [single 'n', ⟨.escape, ['%', ' ']⟩] (single ':')
      [single '[', single 'a', ⟨.escape, ['%', ' ']⟩, single ' ', single ']'] :=
    ⟨by decide, rfl, by decide, by decide, by decide⟩
  refine ⟨⟨(hname ['n', '%'] rfl).2 ⟨_, _, _, hat, ' ', rfl, rfl⟩, ?_⟩, fun hmem => ?_,
    (hescaped fun b hb hmem => ?_).1⟩
  · exact (hbase ['[', 'a', '%', ' ', ' ', ']'] (afterName_iff.2 rfl)).2 ⟨' ', rfl, rfl⟩
  · obtain ⟨b, hb, hlast⟩ := (hkept _ (afterName_iff.2 rfl)).1 hmem
    have hlast : some (⟨.escape, ['%', '%']⟩ : Lexeme) = some ⟨.escape, ['%', b]⟩ := hlast
    obtain rfl : '%' = b := by simpa using hlast
    exact absurd hb (by decide)
  · obtain rfl : b = '<' := by simpa [scan, Symbol.ofChar] using hmem
    exact absurd hb (by decide)

/-- No `%` of `a% <b>`, of `a% :b` and of `a% ` stands alone, but the base of the first and of the
last and the name of the second are `a%`. -/
theorem parse_of_escaped_blank :
    (single '%' ∉ scan ['a', '%', ' ', '<', 'b', '>']
      ∧ (parse ['a', '%', ' ', '<', 'b', '>']).base = ['a', '%'])
    ∧ (single '%' ∉ scan ['a', '%', ' ', ':', 'b']
      ∧ (parse ['a', '%', ' ', ':', 'b']).name = some ['a', '%'])
    ∧ (single '%' ∉ scan ['a', '%', ' '] ∧ (parse ['a', '%', ' ']).base = ['a', '%'])
    ∧ single '%' ∈ scan ['a', '%'] := by
  decide

end TypeDescriptor

end TypeSig
