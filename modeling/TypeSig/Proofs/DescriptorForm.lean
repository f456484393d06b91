import TypeSig.Proofs.StageBlocks
import TypeSig.Proofs.TypeToken

/-!
# The form of a descriptor

Whatever its token, a descriptor has a base without blanks at its ends and without brackets that
open a clause or belong to a wrapper, and a name without a colon (`Tidy`). Nothing else is true of
all names and bases: any two of this form are read from some token (`exists_token_of_tidy`). A
descriptor in a stage or in a signature has no comma in them either (`CommaFree`).

The base is put together from the lexemes that are left of a token, so its lexemes need not be
among those: `[=]>` has the base `=>`, which is an arrow, and trimming may leave a `%` with nothing
to protect. But the characters that an escape protects are the same for the lexemes and for the text
they spell (`exposed_source`), and a bracket or a comma is never read together with its neighbours.
So none of these comes back when the base is read again (`mem_of_mem_scan_source`).
-/

namespace TypeSig

open Lexeme

/-- The characters that no escape protects. -/
def Text.exposed : Text → Text
  | [] => []
  | '%' :: _ :: t => exposed t
  | c :: t => c :: exposed t

theorem Text.exposed_cons {c : Char} (hc : c ≠ '%') (t : Text) :
    exposed (c :: t) = c :: exposed t := by
  rw [exposed.eq_3]
  rintro d t' rfl
  exact absurd rfl hc

/-- The symbols whose character is in none of the sequences. -/
def Symbol.standsAlone : Symbol → Bool
  | leftAngle | leftBracket | rightBracket | comma | semicolon => true
  | _ => false

/-! ## Reading what is left -/

namespace Lexeme

variable {t : Text} {xs : List Lexeme} {x : Lexeme}

theorem exposed_source (h : xs.Sublist (scan t)) :
    Text.exposed (source xs) = xs.flatMap fun x => Text.exposed x.text := by
  have hmem : ∀ x ∈ xs, x ∈ scan t := fun x hx => h.subset hx
  have hpair := (pairwise_scan t).sublist h
  clear h
  induction xs with
  | nil => rfl
  | cons x xs ih =>
    obtain ⟨hx, hpair⟩ := List.pairwise_cons.1 hpair
    have ih := ih (fun y hy => hmem y (List.mem_cons_of_mem _ hy)) hpair
    rw [source_cons, List.flatMap_cons, ← ih]
    rcases mem_scan_cases (hmem x List.mem_cons_self) with rfl | rfl | ⟨c, rfl⟩ | ⟨c, rfl⟩
    · rfl
    · rfl
    · rfl
    · by_cases hc : c = '%'
      · -- only the last lexeme can be a `%` that protects nothing
        obtain rfl : xs = [] := List.eq_nil_iff_forall_not_mem.2 fun y hy => hx y hy (by rw [hc])
        simp [single, Text.exposed]
      · simp [single, Text.exposed_cons hc, Text.exposed]

theorem eq_single_of_standsAlone (hx : x ∈ scan t) (hs : x.symbol.standsAlone = true) :
    ∃ c, x = single c ∧ c ∉ ['=', '>', ':', '%'] := by
  rcases mem_scan_cases hx with rfl | rfl | ⟨c, rfl⟩ | ⟨c, rfl⟩
  · simp [Symbol.standsAlone] at hs
  · simp [Symbol.standsAlone] at hs
  · simp [Symbol.standsAlone] at hs
  · refine ⟨c, rfl, fun hc => ?_⟩
    simp only [List.mem_cons, List.not_mem_nil, or_false] at hc
    rcases hc with rfl | rfl | rfl | rfl <;> exact absurd hs (by decide)

/-- Lexemes that are left of a text may be read together with new neighbours, but a symbol that
stands alone is found only where it was. -/
theorem mem_of_mem_scan_source (h : xs.Sublist (scan t)) (hx : x ∈ scan (source xs))
    (hs : x.symbol.standsAlone = true) : x ∈ xs := by
  obtain ⟨c, rfl, hc⟩ := eq_single_of_standsAlone hx hs
  simp only [List.mem_cons, List.not_mem_nil, or_false, not_or] at hc
  have hexposed : c ∈ Text.exposed (source xs) := by
    rw [← source_scan (source xs), exposed_source (List.Sublist.refl _), List.mem_flatMap]
    exact ⟨single c, hx, by simp [single, Text.exposed_cons hc.2.2.2]⟩
  rw [exposed_source h, List.mem_flatMap] at hexposed
  obtain ⟨y, hy, hcy⟩ := hexposed
  rcases mem_scan_cases (h.subset hy) with rfl | rfl | ⟨d, rfl⟩ | ⟨d, rfl⟩
  · simp [Text.exposed, hc] at hcy
  · simp [Text.exposed, hc] at hcy
  · simp [Text.exposed] at hcy
  · obtain rfl : c = d := by
      by_cases hd : d = '%'
      · simp [single, hd, Text.exposed, hc] at hcy
      · simpa [single, Text.exposed_cons hd, Text.exposed] using hcy
    exact hy

theorem mem_of_mem_scan_trim (hx : x ∈ scan t.trim) (hs : x.symbol.standsAlone = true) :
    x ∈ scan t := by
  rcases mem_scan_trim hx with hx | rfl
  · exact hx
  · exact absurd hs (by decide)

end Lexeme

/-! ## Names and bases -/

namespace TypeDescriptor

/-- The form that the descriptor of every token has. -/
structure Tidy (d : TypeDescriptor) : Prop where
  base_trimmed : d.base.Trimmed
  base_symbols : ∀ x ∈ scan d.base,
    x.symbol ≠ .leftAngle ∧ x.symbol ≠ .leftBracket ∧ x.symbol ≠ .rightBracket
  baseOf_base : baseOf d.base = d.base
  name_ne_nil : ∀ n ∈ d.name, n ≠ []
  name_trimmed : ∀ n ∈ d.name, n.Trimmed
  name_symbols : ∀ n ∈ d.name, ∀ x ∈ scan n, x.symbol ≠ .colon ∧ x.symbol ≠ .leftAngle

/-- Neither the base nor the name has a comma that is not escaped. -/
structure CommaFree (d : TypeDescriptor) : Prop where
  base : ∀ x ∈ scan d.base, x.symbol ≠ .comma
  name : ∀ n ∈ d.name, ∀ x ∈ scan n, x.symbol ≠ .comma

variable {t n : Text} {x : Lexeme}

/-- The lexemes before the first clause. -/
def beforeClause (t : Text) : List Lexeme := (scan t).takeWhile (·.symbol != .leftAngle)

theorem ne_leftAngle_of_mem_beforeClause (h : x ∈ beforeClause t) : x.symbol ≠ .leftAngle := by
  simpa using List.mem_takeWhile_imp h

theorem mem_scan_baseOf (hx : x ∈ scan (baseOf t)) (hs : x.symbol.standsAlone = true) :
    x ∈ beforeClause t ∧ isBracket x.symbol = false := by
  have hsub : ((beforeClause t).filter fun x => !isBracket x.symbol).Sublist (scan t) :=
    List.filter_sublist.trans (List.takeWhile_sublist _)
  simpa using mem_of_mem_scan_source hsub (mem_of_mem_scan_trim hx hs) hs

theorem trimmed_baseOf (t : Text) : (baseOf t).Trimmed := Text.trimmed_trim _

theorem symbols_baseOf (t : Text) : ∀ x ∈ scan (baseOf t),
    x.symbol ≠ .leftAngle ∧ x.symbol ≠ .leftBracket ∧ x.symbol ≠ .rightBracket := by
  intro x hx
  refine ⟨fun hs => ?_, fun hs => ?_, fun hs => ?_⟩ <;>
    obtain ⟨hmem, hbracket⟩ := mem_scan_baseOf hx (by rw [hs]; rfl)
  · exact ne_leftAngle_of_mem_beforeClause hmem hs
  · simp [hs, isBracket] at hbracket
  · simp [hs, isBracket] at hbracket

theorem baseOf_eq_self (ht : t.Trimmed) (hs : ∀ x ∈ scan t,
    x.symbol ≠ .leftAngle ∧ x.symbol ≠ .leftBracket ∧ x.symbol ≠ .rightBracket) :
    baseOf t = t := by
  have hbefore : (scan t).takeWhile (·.symbol != .leftAngle) = scan t :=
    List.takeWhile_eq_self_iff.2 fun x hx => by simpa using (hs x hx).1
  have hfilter : (scan t).filter (fun x => !isBracket x.symbol) = scan t :=
    List.filter_eq_self.2 fun x hx => by simpa [isBracket] using (hs x hx).2
  simp only [baseOf, hbefore, hfilter, source_scan, ht.trim_eq]

/-- The colon `x` of a token ends its name: no clause and no other colon stands before it, and
neither side of it is blank. -/
structure NameAt (token : Text) (xs : List Lexeme) (x : Lexeme) (ys : List Lexeme) : Prop where
  scan_eq : scan token = xs ++ x :: ys
  isColon : x.symbol = .colon
  first : ∀ y ∈ xs, y.symbol ≠ .colon ∧ y.symbol ≠ .leftAngle
  name_ne_nil : (source xs).trim ≠ []
  rest_ne_nil : (source ys).trim ≠ []

theorem splitName_cases (token : Text) : splitName token = (none, token) ∨
    ∃ xs x ys, NameAt token xs x ys
      ∧ splitName token = (some (source xs).trim, source ys) := by
  simp only [splitName]
  split
  · rename_i text ys hdrop
    split_ifs with hblank
    · exact .inl rfl
    · simp only [Bool.or_eq_true, List.isEmpty_iff, not_or] at hblank
      refine .inr ⟨_, ⟨.colon, text⟩, ys, ⟨?_, rfl, fun y hy => ?_, hblank.1, hblank.2⟩, rfl⟩
      · rw [← hdrop, List.takeWhile_append_dropWhile]
      · simpa [inName] using List.mem_takeWhile_imp hy
  · exact .inl rfl

theorem base_parse (token : Text) : (parse token).base = baseOf (splitName token).2.trim := by
  unfold parse
  rcases splitName token with ⟨name, rest⟩
  rfl

theorem name_parse (token : Text) : (parse token).name = (splitName token).1 := by
  unfold parse
  rcases splitName token with ⟨name, rest⟩
  rfl

theorem form_of_name {token : Text} (hn : n ∈ (splitName token).1) :
    n ≠ [] ∧ n.Trimmed ∧ ∀ x ∈ scan n, x.symbol ≠ .colon ∧ x.symbol ≠ .leftAngle := by
  rcases splitName_cases token with hsplit | ⟨xs, x, ys, hname, hsplit⟩ <;>
    simp only [hsplit, Option.mem_def, Option.some.injEq, reduceCtorEq] at hn
  subst hn
  refine ⟨hname.name_ne_nil, Text.trimmed_trim _, fun y hy => ?_⟩
  rcases mem_scan_trim hy with hy | rfl
  · rw [(scan_source_of_append hname.scan_eq).1] at hy
    exact hname.first y hy
  · decide

theorem tidy_parse (token : Text) : (parse token).Tidy := by
  refine ⟨?_, ?_, ?_, ?_, ?_, ?_⟩ <;> simp only [base_parse, name_parse]
  · exact trimmed_baseOf _
  · exact symbols_baseOf _
  · exact baseOf_eq_self (trimmed_baseOf _) (symbols_baseOf _)
  · exact fun n hn => (form_of_name hn).1
  · exact fun n hn => (form_of_name hn).2.1
  · exact fun n hn => (form_of_name hn).2.2

/-- A blank after a name is the last lexeme, or is in the last one with a `%` of the name. -/
theorem scan_append_space (n : Text) : ∃ xs x, scan (n ++ [' ']) = xs ++ [x]
    ∧ (∀ y ∈ xs, y ∈ scan n) ∧ (x = single ' ' ∨ x = ⟨.escape, ['%', ' ']⟩) := by
  rcases scan_append_blanks n Text.allBlank_space with happ | ⟨xs, b, w, hxs, hspace, happ⟩
  · exact ⟨scan n, single ' ', happ, fun y hy => hy, .inl rfl⟩
  · obtain ⟨rfl, rfl⟩ : ' ' = b ∧ [] = w := by simpa using hspace
    exact ⟨xs, _, happ, fun y hy => by simp [hxs, hy], .inr rfl⟩

/-- With blanks around the colon, any name and any base can be read from one token. -/
theorem exists_token_of_tidy {d : TypeDescriptor} (hd : d.Tidy) (hname : d.name.isSome = true)
    (hbase : d.base ≠ []) :
    ∃ token, (parse token).name = d.name ∧ (parse token).base = d.base := by
  obtain ⟨n, hn⟩ := Option.isSome_iff_exists.1 hname
  obtain ⟨xs, x, hscan, hxs, hx⟩ := scan_append_space n
  have hin : ∀ y ∈ scan (n ++ [' ']), inName y.symbol = true := by
    intro y hy
    rw [hscan, List.mem_append, List.mem_singleton] at hy
    rcases hy with hy | rfl
    · simpa [inName] using hd.name_symbols n hn y (hxs y hy)
    · rcases hx with rfl | rfl <;> rfl
  have hapart : Apart (n ++ [' ']) (':' :: ' ' :: d.base) := by
    intro y hy
    obtain rfl : x = y := by simpa [hscan] using hy
    rcases hx with rfl | rfl <;> simp [single]
  have htoken : scan (n ++ [' '] ++ ':' :: ' ' :: d.base)
      = scan (n ++ [' ']) ++ single ':' :: scan (' ' :: d.base) := by
    rw [scan_append hapart]
    rfl
  have htrim : (n ++ [' ']).trim = n :=
    Text.trim_pad Text.allBlank_nil (hd.name_trimmed n hn) Text.allBlank_space
  have hrest : Text.trim (' ' :: d.base) = d.base := by
    simpa using Text.trim_pad Text.allBlank_space hd.base_trimmed Text.allBlank_nil
  have hsplit := splitName_of_scan htoken hin (by rw [htrim]; exact hd.name_ne_nil n hn)
    (by rw [hrest]; exact hbase)
  refine ⟨n ++ [' '] ++ ':' :: ' ' :: d.base, ?_, ?_⟩
  · rw [name_parse, hsplit, htrim, hn]
  · rw [base_parse, hsplit, hrest, hd.baseOf_base]

end TypeDescriptor

/-! ## Commas -/

theorem Symbol.depth_zero {s : Symbol} (h : s ≠ .leftAngle) : s.depth 0 = 0 := by
  cases s <;> first | rfl | exact absurd rfl h

namespace Piece

variable {t : Text} {xs : List Lexeme}

theorem depthAfter_of_ne_leftAngle (h : ∀ x ∈ xs, x.symbol ≠ .leftAngle) : depthAfter 0 xs = 0 := by
  induction xs with
  | nil => rfl
  | cons x xs ih =>
    rw [depthAfter, List.foldl_cons, Symbol.depth_zero (h x List.mem_cons_self)]
    exact ih fun y hy => h y (List.mem_cons_of_mem _ hy)

/-- Before the first clause every comma is a cut. -/
theorem ne_comma_of_quiet (hq : Quiet (· == .comma) 0 xs)
    (h : ∀ x ∈ xs, x.symbol ≠ .leftAngle) : ∀ x ∈ xs, x.symbol ≠ .comma := by
  intro x hx hcomma
  obtain ⟨as, bs, rfl⟩ := List.append_of_mem hx
  refine quiet_iff.1 hq as x bs rfl ⟨by simp [hcomma], ?_⟩
  rw [depthAfter_of_ne_leftAngle fun y hy => h y (List.mem_append_left _ hy), hcomma]
  rfl

theorem Quiet.trim (hq : Quiet (· == .comma) 0 (scan t)) :
    Quiet (· == .comma) 0 (scan t.trim) := by
  obtain ⟨v, w, hv, hw, hscan⟩ := scan_trim_append t
  have hdepth : depthAfter 0 (scan v) = 0 := by
    refine depthAfter_of_ne_leftAngle fun x hx hs => ?_
    have := (inert_of_allBlank hv).symbols x hx
    rw [hs] at this
    simp [Symbol.isInert] at this
  rw [hscan, quiet_append, hdepth] at hq
  rcases scan_append_blanks t.trim hw with happ | ⟨xs, b, w', hxs, -, happ⟩
  · rw [happ, quiet_append] at hq
    exact hq.2.1
  · -- the last lexeme is a `%` that protected a blank before
    rw [happ, quiet_append] at hq
    rw [hxs, quiet_append]
    refine ⟨hq.2.1, quiet_of_forall (fun x hx => ?_) _⟩
    rw [List.mem_singleton.1 hx]
    rfl

end Piece

namespace TypeDescriptor

theorem ne_comma_of_mem_baseOf {rest : Text} (hq : Piece.Quiet (· == .comma) 0 (scan rest)) :
    ∀ x ∈ scan (baseOf rest.trim), x.symbol ≠ .comma := by
  intro x hx hcomma
  have hsplit : beforeClause rest.trim ++ (scan rest.trim).dropWhile (·.symbol != .leftAngle)
      = scan rest.trim := List.takeWhile_append_dropWhile
  have hbefore := hq.trim
  rw [← hsplit, Piece.quiet_append] at hbefore
  have hmem := (mem_scan_baseOf hx (by rw [hcomma]; rfl)).1
  exact Piece.ne_comma_of_quiet hbefore.1 (fun y hy => ne_leftAngle_of_mem_beforeClause hy) x hmem
    hcomma

theorem commaFree_of_quiet {token : Text} (hq : Piece.Quiet (· == .comma) 0 (scan token)) :
    (parse token).CommaFree := by
  rcases splitName_cases token with hsplit | ⟨xs, x, ys, ⟨ht, hx, hxs, -, -⟩, hsplit⟩
  · refine ⟨?_, ?_⟩ <;> simp only [base_parse, name_parse, hsplit]
    · exact ne_comma_of_mem_baseOf hq
    · simp
  · -- up to the colon no clause is opened, so the text after it is counted from zero too
    have hangle : ∀ y ∈ xs ++ [x], y.symbol ≠ .leftAngle := by
      intro y hy
      rcases List.mem_append.1 hy with hy | hy
      · exact (hxs y hy).2
      · rw [List.mem_singleton.1 hy, hx]
        decide
    have ht' : scan token = (xs ++ [x]) ++ ys := by simpa using ht
    rw [ht', Piece.quiet_append, Piece.depthAfter_of_ne_leftAngle hangle, Piece.quiet_append] at hq
    obtain ⟨⟨hqxs, -⟩, hqys⟩ := hq
    refine ⟨?_, ?_⟩ <;> simp only [base_parse, name_parse, hsplit]
    · refine ne_comma_of_mem_baseOf ?_
      rwa [(scan_source_of_append ht').2]
    · rintro n hn y hy hcomma
      obtain rfl : (source xs).trim = n := by simpa using hn
      have hy := mem_of_mem_scan_trim hy (by rw [hcomma]; rfl)
      rw [(scan_source_of_append ht).1] at hy
      exact Piece.ne_comma_of_quiet hqxs (fun z hz => (hxs z hz).2) y hy hcomma

end TypeDescriptor

theorem Stage.commaFree_of_parse {t : Text} {s : Stage} (h : parse t = .ok s) :
    ∀ d ∈ s.types, d.CommaFree := by
  obtain ⟨u, hu⟩ : ∃ u, s.types = (tokensOf u).map TypeDescriptor.parse := by
    rcases parse_eq_ok h with ⟨xs, x, ys, cs, -, rfl⟩ | ⟨-, rfl⟩
    · exact ⟨_, rfl⟩
    · exact ⟨_, rfl⟩
  intro d hd
  rw [hu, List.mem_map] at hd
  obtain ⟨token, htoken, rfl⟩ := hd
  exact TypeDescriptor.commaFree_of_quiet (Piece.quiet_of_mem_splitTexts htoken)

namespace TypeDescriptor

/-- Every descriptor is tidy, and any name and base of this form occur together. Those of a stage or
of a signature have no comma either. -/
theorem form_of_parse :
    (∀ token, (parse token).Tidy)
    ∧ (∀ d : TypeDescriptor, d.Tidy → d.name.isSome = true → d.base ≠ [] →
      ∃ token, (parse token).name = d.name ∧ (parse token).base = d.base)
    ∧ (∀ t s, Stage.parse t = .ok s → ∀ d ∈ s.types, d.CommaFree)
    ∧ ∀ t s, Signature.parse t = .ok s → ∀ stage ∈ s.stages, ∀ d ∈ stage.types, d.CommaFree := by
  refine ⟨tidy_parse, fun d => exists_token_of_tidy, fun t s h => Stage.commaFree_of_parse h,
    fun t s h stage hstage => ?_⟩
  obtain ⟨p, -, hp⟩ := forall₂_mem_right (Signature.parseWith_eq_ok_iff.1 h).2 hstage
  exact Stage.commaFree_of_parse hp

/-- The base of the first type of `n:[=]>% <b,c>,d` is `=>%`: the `=` and the `>` have become an
arrow, and the `%` has lost the blank it protected. In `n:[=]>% <b,c>,d=>e` it is the same. Some
token has the name `a%` and the base `:b`. -/
theorem form_of_parse_new_neighbours :
    (∃ d : TypeDescriptor, d.base = ['=', '>', '%'] ∧ d.Tidy ∧ d.CommaFree
      ∧ Stage.parse ['n', ':', '[', '=', ']', '>', '%', ' ', '<', 'b', ',', 'c', '>', ',', 'd']
        = .ok ⟨[d, .parse ['d']], none⟩
      ∧ ∃ s, Signature.parse ['n', ':', '[', '=', ']', '>', '%', ' ', '<', 'b', ',', 'c', '>', ',',
        'd', '=', '>', 'e'] = .ok s ∧ ∀ stage ∈ s.stages, ∀ d ∈ stage.types, d.CommaFree)
    ∧ ∃ token, (parse token).name = some ['a', '%'] ∧ (parse token).base = [':', 'b'] := by
  obtain ⟨htidy, htoken, hstages, hsignatures⟩ := form_of_parse
  have hstage : Stage.parse ['n', ':', '[', '=', ']', '>', '%', ' ', '<', 'b', ',', 'c', '>', ',',
      'd'] = .ok ⟨[.parse ['n', ':', '[', '=', ']', '>', '%', ' ', '<', 'b', ',', 'c', '>'],
        .parse ['d']], none⟩ := rfl
  have hsignature : ∃ s, Signature.parse ['n', ':', '[', '=', ']', '>', '%', ' ', '<', 'b', ',',
      'c', '>', ',', 'd', '=', '>', 'e'] = .ok s := ⟨_, rfl⟩
  obtain ⟨s, hs⟩ := hsignature
  refine ⟨⟨_, rfl, htidy _, hstages _ _ hstage _ List.mem_cons_self, hstage, s, hs,
    hsignatures _ _ hs⟩, ?_⟩
  have hd : Tidy ⟨some ['a', '%'], [':', 'b'], [], false⟩ := by
    refine ⟨Text.trimmed_trim [':', 'b'], by decide, by decide, ?_, ?_, ?_⟩ <;>
      simp only [Option.mem_def, Option.some.injEq, forall_eq']
    · simp
    · exact Text.trimmed_trim ['a', '%']
    · decide
  exact htoken _ hd rfl (by simp)

end TypeDescriptor

end TypeSig
