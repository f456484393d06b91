import TypeSig.Proofs.TornEscapes

/-!
# Resolving escapes in one pass

The escapes of a text are resolved lexeme by lexeme, but only the `%` matters for it: an arrow or a
`::` stands for the characters it is made of. So resolving is one pass over the characters, in which
a `%` gives way to the character after it (`unescape_eq_onePass`). Two texts in a row are resolved
one after the other, although their lexemes may join, unless the first ends with a `%` that
protects nothing yet (`unescape_append`). The texts without such a `%` that are resolved to a text
are all those that spell it with a `%` before each of its own and perhaps before other characters
(`guards_iff`).

The `%` that protects nothing is known by the characters that no escape protects (`endsOpen_iff`).
With this, the proofs go along the characters and need not know where a lexeme ends.
-/

namespace TypeSig

open Lexeme

theorem Lexeme.literal_single (c : Char) : (single c).literal = [c] := by
  have hne : Symbol.ofChar c ≠ .escape := by
    unfold Symbol.ofChar
    repeat' split
    all_goals simp
  unfold literal
  split
  next h => exact absurd h hne
  next => rfl

namespace Text

/-- The text without the `%` of its escapes, read character by character. -/
def onePass : Text → Text
  | [] => []
  | '%' :: c :: t => c :: onePass t
  | c :: t => c :: onePass t

/-- `e` spells `s` with a `%` before every `%`, and perhaps before other characters. -/
inductive Guards : Text → Text → Prop
  | nil : Guards [] []
  | escaped (c : Char) {s e : Text} : Guards s e → Guards (c :: s) ('%' :: c :: e)
  | bare {c : Char} {s e : Text} : c ≠ '%' → Guards s e → Guards (c :: s) (c :: e)

/-- The last lexeme of the text is a `%` that protects nothing. -/
def EndsOpen (t : Text) : Prop := (scan t).getLast? = some (single '%')

variable {a b s e t : Text}

/-! ## One pass over the characters -/

theorem onePass_cons {c : Char} (hc : c ≠ '%') (t : Text) : onePass (c :: t) = c :: onePass t := by
  rw [onePass.eq_3]
  rintro d t' rfl
  exact absurd rfl hc

theorem unescape_eq_onePass (t : Text) : t.unescape = t.onePass := by
  unfold unescape
  fun_induction scan t with
  | case1 => rfl
  | case2 t ih | case3 t ih | case4 c t ih =>
    rw [List.flatMap_cons, ih]
    rfl
  | case5 c t ha hd he ih =>
    rw [List.flatMap_cons, ih, onePass.eq_3 c t he]
    exact congrArg (· ++ onePass t) (literal_single c)

/-! ## The end of the first of two texts -/

/-- Only the last lexeme can be a `%` that protects nothing. -/
theorem endsOpen_iff : EndsOpen t ↔ '%' ∈ exposed t := by
  rw [percent_mem_exposed_iff]
  refine ⟨List.mem_of_getLast?, fun h => ?_⟩
  obtain ⟨xs, ys, hscan⟩ := List.append_of_mem h
  have hpair := pairwise_scan t
  rw [hscan, List.pairwise_append, List.pairwise_cons] at hpair
  obtain rfl : ys = [] := List.eq_nil_iff_forall_not_mem.2 fun y hy => hpair.2.1.1 y hy rfl
  rw [EndsOpen, hscan, List.getLast?_concat]

theorem EndsOpen.exists_append (h : EndsOpen t) : ∃ u, t = u ++ ['%'] ∧ ¬ EndsOpen u := by
  obtain ⟨xs, hscan⟩ := List.getLast?_eq_some_iff.1 h
  obtain ⟨ht, hsource, hnot⟩ := of_scan_eq_percent hscan
  refine ⟨source xs, ht, fun hopen => ?_⟩
  rw [EndsOpen, hsource] at hopen
  exact hnot (List.mem_of_getLast? hopen)

theorem onePass_append (h : '%' ∉ exposed a) (b : Text) :
    onePass (a ++ b) = onePass a ++ onePass b := by
  fun_induction exposed a with
  | case1 => rfl
  | case2 c t ih => simp only [List.cons_append, onePass, ih h]
  | case3 c t _ ih =>
    simp only [List.mem_cons, not_or] at h
    rw [List.cons_append, onePass_cons (Ne.symm h.1), onePass_cons (Ne.symm h.1), ih h.2]
    rfl

theorem unescape_append (h : ¬ EndsOpen a) (b : Text) :
    unescape (a ++ b) = a.unescape ++ b.unescape := by
  rw [endsOpen_iff] at h
  simp only [unescape_eq_onePass, onePass_append h]

/-- A `%` at the end of the first text protects the first character of the second. -/
theorem EndsOpen.unescape_append_cons (h : EndsOpen a) (c : Char) (b : Text) :
    unescape (a ++ c :: b) = a.unescape.dropLast ++ c :: b.unescape := by
  obtain ⟨u, rfl, hu⟩ := h.exists_append
  have hescape : unescape ('%' :: c :: b) = c :: b.unescape := by
    simp only [unescape_eq_onePass, onePass]
  have hpercent : unescape ['%'] = ['%'] := rfl
  rw [List.append_assoc, List.singleton_append, unescape_append hu, unescape_append hu, hescape,
    hpercent, List.dropLast_concat]

/-! ## Texts with guarded characters -/

theorem Guards.onePass_eq (h : Guards s e) : onePass e = s := by
  induction h with
  | nil => rfl
  | escaped c _ ih => rw [onePass, ih]
  | bare hc _ ih => rw [onePass_cons hc, ih]

theorem Guards.percent_notMem_exposed (h : Guards s e) : '%' ∉ exposed e := by
  induction h with
  | nil => simp [exposed]
  | escaped c _ ih => simpa [exposed] using ih
  | bare hc _ ih => simpa [exposed_cons hc, Ne.symm hc] using ih

theorem guards_onePass (h : '%' ∉ exposed e) : Guards (onePass e) e := by
  fun_induction exposed e with
  | case1 => exact .nil
  | case2 c t ih => exact .escaped c (ih h)
  | case3 c t _ ih =>
    simp only [List.mem_cons, not_or] at h
    rw [onePass_cons (Ne.symm h.1)]
    exact .bare (Ne.symm h.1) (ih h.2)

theorem guards_iff : Guards s e ↔ e.unescape = s ∧ ¬ EndsOpen e := by
  rw [unescape_eq_onePass, endsOpen_iff]
  constructor
  · intro h
    exact ⟨h.onePass_eq, h.percent_notMem_exposed⟩
  · rintro ⟨rfl, h⟩
    exact guards_onePass h

/-- Resolving the escapes of a text is one pass over its characters. Two texts in a row are resolved
one after the other, but for a `%` at the end of the first, which protects a character of the
second; and the texts without such a `%` that are resolved to `s` are those that spell `s` with
a `%` before each of its own. -/
theorem unescape_in_one_pass :
    (∀ t : Text, t.unescape = t.onePass)
      ∧ (∀ a b : Text, ¬ EndsOpen a → unescape (a ++ b) = a.unescape ++ b.unescape)
      ∧ (∀ (a : Text) (c : Char) (b : Text), EndsOpen a →
        unescape (a ++ c :: b) = a.unescape.dropLast ++ c :: b.unescape)
      ∧ ∀ s e : Text, Guards s e ↔ e.unescape = s ∧ ¬ EndsOpen e :=
  ⟨unescape_eq_onePass, fun _ b h => unescape_append h b,
    fun _ c b h => h.unescape_append_cons c b, fun _ _ => guards_iff⟩

/-- The arrow between `%%=` and `>%:` is in neither of them, and yet they are resolved one after the
other. The third `%` of `%%%` protects the `%` that follows, but not the character after it. -/
theorem unescape_in_one_pass_seams :
    (¬ EndsOpen ['%', '%', '='] ∧ unescape ['%', '%', '=', '>', '%', ':'] = ['%', '=', '>', ':'])
      ∧ (EndsOpen ['%', '%', '%'] ∧ unescape ['%', '%', '%', '%', 'a'] = ['%', '%', 'a'])
      ∧ unescape ['%', '%', 'a', '%', 'b'] = ['%', 'a', 'b'] := by
  obtain ⟨-, hapart, hopen, hguards⟩ := unescape_in_one_pass
  have hequals : ¬ EndsOpen ['%', '%', '='] := by unfold EndsOpen; decide
  have hpercent : EndsOpen ['%', '%', '%'] := by unfold EndsOpen; decide
  refine ⟨⟨hequals, hapart ['%', '%', '='] ['>', '%', ':'] hequals⟩,
    ⟨hpercent, hopen ['%', '%', '%'] '%' ['a'] hpercent⟩, ?_⟩
  have hb : Guards ['b'] ['%', 'b'] := .escaped 'b' .nil
  exact ((hguards _ _).1 (.escaped '%' (.bare (by decide) hb))).1

end Text

end TypeSig
