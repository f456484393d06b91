import TypeSig.Proofs.ErrorSpan
import TypeSig.Proofs.RoundTrip

/-!
# The grammar of a block of constraints

A block is read exactly if it consists of one or more constraints with commas between them, each of
them three words with blanks between and perhaps around them. Otherwise the error is about the first
text between the commas that does not have three words (`parseBlock_grammar`).

Three descriptions of a constraint agree: the grammar `Spells`, the list of words of the text, and
`greedy?`, which takes each word and each gap as long as it can and never goes back. The words of a
text can be peeled off one by one (`Text.words_eq_cons`), and a greedy reader peels off the same ones,
because a word ends only where a blank begins.
-/

namespace TypeSig

/-- The characters at the front of a text that pass a test, at least one, and the text after
them. -/
def Text.run? (test : Char → Bool) (t : Text) : Option (Text × Text) :=
  if (t.takeWhile test).isEmpty then none else some (t.takeWhile test, t.dropWhile test)

theorem Text.run?_append {test : Char → Bool} {a b : Text} (hne : a ≠ [])
    (ha : ∀ c ∈ a, test c = true) (hb : ∀ c ∈ b.head?, test c = false) :
    run? test (a ++ b) = some (a, b) := by
  have htake : b.takeWhile test = [] ∧ b.dropWhile test = b := by
    rcases b with _ | ⟨c, b⟩
    · exact ⟨rfl, rfl⟩
    · simp [hb c rfl]
  simp [run?, List.takeWhile_append_of_pos ha, List.dropWhile_append_of_pos ha, htake, hne]

theorem Text.run?_eq_some {test : Char → Bool} {t a b : Text} (h : run? test t = some (a, b)) :
    t = a ++ b ∧ a ≠ [] ∧ (∀ c ∈ a, test c = true) ∧ ∀ c ∈ b.head?, test c = false := by
  unfold run? at h
  split_ifs at h with hne
  obtain ⟨rfl, rfl⟩ : t.takeWhile test = a ∧ t.dropWhile test = b := by simpa using h
  refine ⟨List.takeWhile_append_dropWhile.symm, by simpa using hne, ?_, ?_⟩
  · exact fun c hc => List.mem_takeWhile_imp hc
  · intro c hc
    have := List.head?_dropWhile_not test t
    rw [hc] at this
    simpa using this

theorem Text.forall_head?_append {P : Char → Prop} {a : Text} (hne : a ≠ []) (ha : ∀ c ∈ a, P c)
    (b : Text) : ∀ c ∈ (a ++ b).head?, P c := by
  obtain ⟨d, a, rfl⟩ := List.exists_cons_of_ne_nil hne
  simpa using ha d List.mem_cons_self

namespace Constraint

/-- Reads a constraint from left to right without going back. -/
def greedy? (t : Text) : Option Constraint := do
  let (left, t) ← Text.run? (!Text.isBlank ·) t.trimStart
  let (_, t) ← Text.run? Text.isBlank t
  let (operator, t) ← Text.run? (!Text.isBlank ·) t
  let (_, t) ← Text.run? Text.isBlank t
  let (right, t) ← Text.run? (!Text.isBlank ·) t
  if t.trimStart.isEmpty then some ⟨left, operator, right⟩ else none

/-- The block spells the constraints, with commas between them. -/
structure BlockOf (cs : List Constraint) (block : Text) : Prop where
  ne_nil : cs ≠ []
  readable : ∀ c ∈ cs, c.Readable
  spelled : ∃ ts, List.Forall₂ Spells cs ts ∧ Text.Joined [[',']] ts block

/-- The error is about the first text between the commas of the block that does not have three
words: it tells that text without the blanks around it, the number of its words and its bytes. -/
def RefusesFirst (block : Text) (e : ParseError) : Prop :=
  ∃ (good rest : List Text) (v c w : Text) (n : Nat),
    block.splitOn ',' = good ++ (v ++ c ++ w) :: rest ∧ (∀ g ∈ good, Text.runs false g = 3)
      ∧ Text.runs false c ≠ 3 ∧ v.AllBlank ∧ w.AllBlank ∧ c.Trimmed
      ∧ n = Text.bytes (good.flatMap (· ++ [','])) + v.bytes
      ∧ e = .malformedConstraint c (Text.runs false c) ⟨n, n + c.bytes⟩

/-! ## One constraint -/

theorem parse_eq_ok_iff {start : Nat} {t : Text} {c : Constraint} :
    parse start t = .ok c ↔ t.words = [c.left, c.operator, c.right] := by
  unfold parse
  split
  · rename_i left operator right hw
    rw [hw]
    cases c
    simp
  · rename_i hno
    simp only [reduceCtorEq, false_iff]
    exact fun hw => hno _ _ _ hw

variable {c : Constraint} {t : Text}

/-- Between two words stands a gap, because the first ends where a blank begins. -/
theorem spells_of_words (h : t.words = [c.left, c.operator, c.right]) :
    c.Spells t ∧ ∀ w ∈ t.words, w ≠ [] ∧ ∀ b ∈ w, Text.isBlank b = false := by
  obtain ⟨v, r, hv, hlne, hl, hr, rfl, h₁⟩ := Text.words_eq_cons h
  obtain ⟨g, r', hg, hone, ho, hr', rfl, h₂⟩ := Text.words_eq_cons h₁
  obtain ⟨g', w, hg', hrne, hright, -, rfl, h₃⟩ := Text.words_eq_cons h₂
  have hgap : ∀ {g w r : Text}, w ≠ [] → (∀ b ∈ w, Text.isBlank b = false) →
      (∀ b ∈ (g ++ w ++ r).head?, Text.isBlank b = true) → g ≠ [] := by
    rintro g w r hne hw hhead rfl
    obtain ⟨b, w, rfl⟩ := List.exists_cons_of_ne_nil hne
    have := hw b List.mem_cons_self
    rw [hhead b rfl] at this
    simp at this
  refine ⟨⟨v, g, g', w, hv, ⟨hg, hgap hone ho hr⟩, ⟨hg', hgap hrne hright hr'⟩,
    Text.words_eq_nil h₃, by simp⟩, ?_⟩
  rw [h]
  simpa using ⟨⟨hlne, hl⟩, ⟨hone, ho⟩, hrne, hright⟩

theorem parse_eq_ok_iff_spells {start : Nat} (ht : ',' ∉ t) :
    parse start t = .ok c ↔ c.Readable ∧ c.Spells t := by
  rw [parse_eq_ok_iff]
  constructor
  · intro h
    obtain ⟨hspells, hsolid⟩ := spells_of_words h
    refine ⟨?_, hspells⟩
    obtain ⟨v, g, g', w, -, -, -, -, rfl⟩ := hspells
    simp only [List.mem_append, not_or] at ht
    rw [h] at hsolid
    simp only [List.forall_mem_cons] at hsolid
    obtain ⟨hl, ho, hr, -⟩ := hsolid
    exact ⟨⟨hl.1, hl.2, by simp [ht]⟩, ⟨ho.1, ho.2, by simp [ht]⟩, ⟨hr.1, hr.2, by simp [ht]⟩⟩
  · exact fun h => words_of_spells h.1 h.2

/-! ## The greedy reader -/

theorem run?_word {w r : Text} (hne : w ≠ []) (hw : ∀ b ∈ w, Text.isBlank b = false)
    (hr : ∀ b ∈ r.head?, Text.isBlank b = true) :
    Text.run? (!Text.isBlank ·) (w ++ r) = some (w, r) :=
  Text.run?_append hne (fun b hb => by rw [hw b hb]; rfl) fun b hb => by rw [hr b hb]; rfl

theorem words_of_run? {w r : Text} (h : Text.run? (!Text.isBlank ·) t = some (w, r)) :
    t.words = w :: r.words := by
  obtain ⟨rfl, hne, hw, hr⟩ := Text.run?_eq_some h
  exact Text.words_append_of_solid hne (by simpa using hw) (by simpa using hr)

theorem words_of_gap {g r : Text} (h : Text.run? Text.isBlank t = some (g, r)) :
    t.words = r.words := by
  obtain ⟨rfl, -, hg, -⟩ := Text.run?_eq_some h
  exact Text.words_blank_append hg r

theorem words_of_greedy? (h : greedy? t = some c) : t.words = [c.left, c.operator, c.right] := by
  simp only [greedy?, Option.bind_eq_bind, Option.bind_eq_some_iff, Prod.exists] at h
  obtain ⟨left, t₁, h₁, g, t₂, h₂, operator, t₃, h₃, g', t₄, h₄, right, t₅, h₅, h⟩ := h
  split_ifs at h with hend
  injection h with h
  subst h
  have hlast : t₅.words = [] := by
    rw [← Text.words_trimStart, List.isEmpty_iff.1 hend, Text.words_nil]
  rw [← Text.words_trimStart, words_of_run? h₁, words_of_gap h₂, words_of_run? h₃, words_of_gap h₄,
    words_of_run? h₅, hlast]

theorem greedy?_of_words (h : t.words = [c.left, c.operator, c.right]) : greedy? t = some c := by
  obtain ⟨⟨v, g, g', w, hv, ⟨hg, hgne⟩, ⟨hg', hgne'⟩, hw, rfl⟩, hsolid⟩ := spells_of_words h
  rw [h] at hsolid
  simp only [List.forall_mem_cons] at hsolid
  obtain ⟨⟨hlne, hl⟩, ⟨hone, ho⟩, ⟨hrne, hr⟩, -⟩ := hsolid
  have hstart := Text.trimStart_eq_self
    (Text.forall_head?_append hlne hl (g ++ (c.operator ++ (g' ++ (c.right ++ w)))))
  have hleft := run?_word hlne hl
    (Text.forall_head?_append hgne hg (c.operator ++ (g' ++ (c.right ++ w))))
  have hgap := Text.run?_append hgne hg
    (Text.forall_head?_append hone ho (g' ++ (c.right ++ w)))
  have hop := run?_word hone ho (Text.forall_head?_append hgne' hg' (c.right ++ w))
  have hgap' := Text.run?_append hgne' hg' (Text.forall_head?_append hrne hr w)
  have hright := run?_word hrne hr fun b hb => hw b (List.mem_of_mem_head? hb)
  have hend : Text.trimStart w = [] := List.dropWhile_eq_nil_iff.2 hw
  simp only [greedy?, List.append_assoc, Text.trimStart_append hv, hstart]
  simp [hleft, hgap, hop, hgap', hright, hend]

theorem toOption_parse (start : Nat) (t : Text) : (parse start t).toOption = greedy? t := by
  ext c
  have hok : (parse start t).toOption = some c ↔ parse start t = .ok c := by
    rcases parse start t with e | c' <;> simp [Except.toOption]
  rw [hok, parse_eq_ok_iff]
  exact ⟨greedy?_of_words, words_of_greedy?⟩

theorem toOption_parsePieces : ∀ (ts : List Text) (start : Nat),
    (parsePieces start ts).toOption = ts.mapM greedy?
  | [], _ => rfl
  | t :: ts, start => by
    rw [parsePieces, List.mapM_cons, ← toOption_parse start t,
      ← toOption_parsePieces ts (start + t.bytes + 1)]
    rcases parse start t with e | c
    · rfl
    · rcases parsePieces (start + t.bytes + 1) ts with e | cs <;> rfl

/-! ## The block -/

theorem exists_joined_commas : ∀ block : Text, ∃ t ts, Text.Joined [[',']] (t :: ts) block
    ∧ ∀ u ∈ t :: ts, ',' ∉ u
  | [] => ⟨[], [], .single [], by simp⟩
  | c :: block => by
    obtain ⟨t, ts, hj, hts⟩ := exists_joined_commas block
    by_cases hc : c = ','
    · subst hc
      refine ⟨[], t :: ts, .cons [] List.mem_cons_self hj, ?_⟩
      simpa using hts
    · refine ⟨c :: t, ts, hj.cons_head c, ?_⟩
      simpa [Ne.symm hc] using hts

theorem parsePieces_eq_ok : ∀ {ts : List Text} {start : Nat} {cs : List Constraint},
    (∀ t ∈ ts, ',' ∉ t) → parsePieces start ts = .ok cs →
      (∀ c ∈ cs, c.Readable) ∧ List.Forall₂ Spells cs ts
  | [], _, cs, _, h => by
    obtain rfl : [] = cs := by simpa [parsePieces] using h
    exact ⟨by simp, .nil⟩
  | t :: ts, start, cs, hts, h => by
    obtain ⟨c, hc, h⟩ := bind_eq_ok.1 h
    obtain ⟨cs', hcs, h⟩ := bind_eq_ok.1 h
    injection h with h
    subst h
    simp only [List.forall_mem_cons] at hts ⊢
    obtain ⟨hreadable, hspells⟩ := (parse_eq_ok_iff_spells hts.1).1 hc
    obtain ⟨hreadables, hall⟩ := parsePieces_eq_ok hts.2 hcs
    exact ⟨⟨hreadable, hreadables⟩, .cons hspells hall⟩

theorem blockOf_of_parseBlock {block : Text} {cs : List Constraint}
    (h : parseBlock block = .ok cs) : BlockOf cs block := by
  obtain ⟨t, ts, hj, hts⟩ := exists_joined_commas block
  rw [parseBlock, splitOn_joined hj (by simp) hts] at h
  obtain ⟨hreadable, hall⟩ := parsePieces_eq_ok hts h
  refine ⟨?_, hreadable, t :: ts, hall, hj⟩
  rintro rfl
  simp at hall

theorem refusesFirst_of_parseBlock {block : Text} {e : ParseError}
    (h : parseBlock block = .error e) : RefusesFirst block e := by
  obtain ⟨good, bad, rest, hsplit, hgood, hbad, rfl⟩ := parsePieces_eq_error h
  obtain ⟨v, w, hv, hw, hpad, hmal⟩ :=
    malformed_pad (0 + Text.bytes (good.flatMap (· ++ [',']))) bad
  refine ⟨good, rest, v, bad.trim, w, _, by rw [hsplit, ← hpad], hgood, ?_, hv, hw,
    Text.trimmed_trim bad, rfl, ?_⟩
  · rwa [← Text.length_words, Text.words_trim, Text.length_words]
  · rw [hmal, Nat.zero_add]

/-- A block is read exactly if it spells constraints, and then as these; otherwise the first text
between its commas that does not have three words is refused. A greedy reader would accept the same
blocks. -/
theorem parseBlock_grammar (block : Text) :
    (∀ cs, parseBlock block = .ok cs ↔ BlockOf cs block)
      ∧ ((∀ cs, ¬ BlockOf cs block) → ∃ e, parseBlock block = .error e ∧ RefusesFirst block e)
      ∧ (parseBlock block).toOption = (block.splitOn ',').mapM greedy? := by
  refine ⟨fun cs => ⟨blockOf_of_parseBlock, fun h => ?_⟩, fun hno => ?_, ?_⟩
  · obtain ⟨ts, hall, hj⟩ := h.spelled
    exact parseBlock_of_spells h.ne_nil h.readable hall hj
  · rcases h : parseBlock block with e | cs
    · exact ⟨e, rfl, refusesFirst_of_parseBlock h⟩
    · exact absurd (blockOf_of_parseBlock h) (hno cs)
  · exact toOption_parsePieces _ 0

/-- The block ` a < b` spells a constraint. In `a < b,, c` the text between the two commas is
refused, although the one after them has one word only. -/
theorem parseBlock_grammar_two_commas :
    BlockOf [⟨['a'], ['<'], ['b']⟩] [' ', 'a', ' ', '<', ' ', 'b']
      ∧ (∀ cs, ¬ BlockOf cs ['a', ' ', '<', ' ', 'b', ',', ',', ' ', 'c'])
      ∧ ∃ e, parseBlock ['a', ' ', '<', ' ', 'b', ',', ',', ' ', 'c'] = .error e
        ∧ RefusesFirst ['a', ' ', '<', ' ', 'b', ',', ',', ' ', 'c'] e := by
  have hno : ∀ cs, ¬ BlockOf cs ['a', ' ', '<', ' ', 'b', ',', ',', ' ', 'c'] := by
    intro cs h
    have hok := ((parseBlock_grammar _).1 cs).2 h
    rw [show parseBlock ['a', ' ', '<', ' ', 'b', ',', ',', ' ', 'c']
      = .error (.malformedConstraint [] 0 ⟨6, 6⟩) from rfl] at hok
    injection hok
  exact ⟨((parseBlock_grammar _).1 _).1 rfl, hno, (parseBlock_grammar _).2.1 hno⟩

end Constraint

end TypeSig
