import Mathlib.Data.List.DropRight
import Mathlib.Data.List.TakeWhile
import TypeSig.Text.Blank

/-!
# Blanks around a text and between its words

A text is the blanks before it, its trimmed part and the blanks after it (`exists_pad`), and what
blanks surround is trimmed to itself if it neither begins nor ends with one (`trim_pad`). What stands
between two texts that are not blank is kept (`trim_between`). Words are cut apart at every blank
(`words_append_cons`), so the blanks around a text do not count (`words_trim`), and there are as many
words as places where a run of other characters begins (`length_words`). The first word can be taken
off a text, and the other words are those of what follows it (`words_eq_cons`).
-/

namespace TypeSig.Text

/-- Nothing but blanks. -/
def AllBlank (t : Text) : Prop := ∀ c ∈ t, isBlank c = true

/-- No blank at either end. -/
def Trimmed (t : Text) : Prop :=
  (∀ c ∈ t.head?, isBlank c = false) ∧ ∀ c ∈ t.getLast?, isBlank c = false

/-- The number of places where a run of characters that are not blank begins; `inside` tells
whether the text goes on with a run that began before it. -/
def runs (inside : Bool) : Text → Nat
  | [] => 0
  | c :: t => if isBlank c then runs false t else (if inside then 0 else 1) + runs true t

theorem allBlank_nil : AllBlank [] := by simp [AllBlank]

theorem allBlank_singleton {b : Char} (hb : isBlank b = true) : AllBlank [b] :=
  List.forall_mem_singleton.2 hb

theorem allBlank_space : AllBlank [' '] := allBlank_singleton (by decide)

/-! ## Trimming -/

theorem trimStart_append {v : Text} (hv : AllBlank v) (t : Text) :
    trimStart (v ++ t) = trimStart t :=
  List.dropWhile_append_of_pos hv

theorem trimEnd_append {w : Text} (hw : AllBlank w) (t : Text) : trimEnd (t ++ w) = trimEnd t := by
  unfold trimEnd
  rw [List.reverse_append, List.dropWhile_append_of_pos]
  intro c hc
  exact hw c (List.mem_reverse.1 hc)

theorem trimStart_eq_self {t : Text} (h : ∀ c ∈ t.head?, isBlank c = false) : trimStart t = t := by
  rcases t with _ | ⟨c, t⟩
  · rfl
  · simp [trimStart, h c rfl]

theorem Trimmed.trimStart_append {t : Text} (h : Trimmed t) (hne : t ≠ []) (w : Text) :
    trimStart (t ++ w) = t ++ w := by
  obtain ⟨c, t, rfl⟩ := List.exists_cons_of_ne_nil hne
  simp [trimStart, h.1 c rfl]

theorem Trimmed.trimEnd_eq {t : Text} (h : Trimmed t) : trimEnd t = t := by
  refine List.rdropWhile_eq_self_iff.2 fun hne => ?_
  simp [h.2 _ (List.getLast?_eq_some_getLast hne)]

theorem trim_pad {v t w : Text} (hv : AllBlank v) (ht : Trimmed t) (hw : AllBlank w) :
    trim (v ++ t ++ w) = t := by
  rw [trim, List.append_assoc, trimStart_append hv]
  rcases eq_or_ne t [] with rfl | hne
  · rw [List.nil_append, show trimStart w = [] from List.dropWhile_eq_nil_iff.2 hw]
    rfl
  · rw [ht.trimStart_append hne, trimEnd_append hw, ht.trimEnd_eq]

theorem Trimmed.trim_eq {t : Text} (h : Trimmed t) : t.trim = t := by
  simpa using trim_pad allBlank_nil h allBlank_nil

theorem trimmed_trim (t : Text) : Trimmed t.trim := by
  refine ⟨fun c hc => ?_, fun c hc => ?_⟩
  · obtain ⟨w, hw⟩ : trimEnd (trimStart t) <+: trimStart t := List.rdropWhile_prefix _ _
    have hh : (trimStart t).head? = some c := by
      rw [← hw, List.head?_append]
      simp only [trim, Option.mem_def] at hc
      simp [hc]
    have := List.head?_dropWhile_not isBlank t
    rw [show (t.dropWhile isBlank).head? = some c from hh] at this
    exact this
  · have hne : trimEnd (trimStart t) ≠ [] := by
      rintro h
      rw [trim, h] at hc
      simp at hc
    have := List.rdropWhile_last_not isBlank (trimStart t) hne
    rw [trim, List.getLast?_eq_some_getLast hne] at hc
    simp only [Option.mem_def, Option.some.injEq] at hc
    rw [← hc]
    exact Bool.eq_false_iff.2 this

theorem exists_pad (t : Text) : ∃ v w, AllBlank v ∧ AllBlank w ∧ t = v ++ t.trim ++ w
    ∧ trimStart t = t.trim ++ w := by
  refine ⟨t.takeWhile isBlank, (trimStart t).rtakeWhile isBlank, ?_, ?_, ?_, ?_⟩
  · exact fun c hc => List.mem_takeWhile_imp hc
  · exact fun c hc => List.mem_rtakeWhile_imp hc
  · rw [trim, List.append_assoc]
    have : trimEnd (trimStart t) ++ (trimStart t).rtakeWhile isBlank = trimStart t :=
      List.rdropWhile_append_rtakeWhile
    rw [this]
    exact List.takeWhile_append_dropWhile.symm
  · exact (List.rdropWhile_append_rtakeWhile).symm

theorem trim_append_blanks (t : Text) {w : Text} (hw : w.AllBlank) : trim (t ++ w) = t.trim := by
  obtain ⟨v, w', hv, hw', ht, -⟩ := exists_pad t
  have hall : AllBlank (w' ++ w) := fun c hc => (List.mem_append.1 hc).elim (hw' c) (hw c)
  conv_lhs => rw [ht, List.append_assoc]
  exact trim_pad hv (trimmed_trim t) hall

theorem trimEnd_ne_nil {y : Text} (hy : ¬ y.AllBlank) : y.trimEnd ≠ [] := by
  intro h
  exact hy (List.rdropWhile_eq_nil_iff.1 h)

theorem head?_trimEnd {y : Text} (hy : ¬ y.AllBlank) : y.trimEnd.head? = y.head? := by
  obtain ⟨w, hw⟩ : y.trimEnd <+: y := List.rdropWhile_prefix _ _
  conv_rhs => rw [← hw]
  rw [List.head?_append_of_ne_nil _ (trimEnd_ne_nil hy)]

theorem trim_between {x y : Text} (hx : ¬ x.AllBlank) (hy : ¬ y.AllBlank) (u : Text) :
    trim (x ++ u ++ y) = x.trimStart ++ u ++ y.trimEnd := by
  have hstart : x.dropWhile isBlank ≠ [] := fun h => hx (List.dropWhile_eq_nil_iff.1 h)
  have hend : y.reverse.dropWhile isBlank ≠ [] := by simpa [trimEnd] using trimEnd_ne_nil hy
  simp only [trim, trimStart, trimEnd, List.append_assoc, List.dropWhile_append, List.isEmpty_iff,
    hstart, hend, if_false, List.reverse_append, List.reverse_reverse]

/-! ## Words -/

@[simp] theorem words_nil : words [] = [] := rfl

theorem words_append_cons {b : Char} (hb : isBlank b = true) (a c : Text) :
    words (a ++ b :: c) = words a ++ words c := by
  unfold words
  rw [List.splitOnP_append_cons a c hb, List.filter_append]

theorem words_blank_append : ∀ {v : Text}, AllBlank v → ∀ t, words (v ++ t) = words t
  | [], _, t => rfl
  | b :: v, hv, t => by
    have hb := words_append_cons (hv b List.mem_cons_self) [] (v ++ t)
    rw [List.nil_append] at hb
    rw [List.cons_append, hb, words_blank_append fun c hc => hv c (List.mem_cons_of_mem _ hc)]
    rfl

theorem words_append_blank {w : Text} (hw : AllBlank w) (t : Text) : words (t ++ w) = words t := by
  rcases w with _ | ⟨b, w⟩
  · rw [List.append_nil]
  · have hn : words w = [] := by
      have := words_blank_append (fun c hc => hw c (List.mem_cons_of_mem _ hc)) []
      rwa [List.append_nil, words_nil] at this
    rw [words_append_cons (hw b List.mem_cons_self), hn, List.append_nil]

theorem words_append_gap {g : Text} (hg : AllBlank g) (hne : g ≠ []) (a c : Text) :
    words (a ++ g ++ c) = words a ++ words c := by
  obtain ⟨b, g, rfl⟩ := List.exists_cons_of_ne_nil hne
  rw [List.append_assoc, List.cons_append, words_append_cons (hg b List.mem_cons_self),
    words_blank_append fun c hc => hg c (List.mem_cons_of_mem _ hc)]

theorem words_of_solid {t : Text} (hne : t ≠ []) (h : ∀ c ∈ t, isBlank c = false) :
    words t = [t] := by
  rw [words, List.splitOnP_eq_singleton h]
  simp [hne]

theorem words_trimStart (t : Text) : words t.trimStart = words t := by
  have h := words_blank_append (v := t.takeWhile isBlank)
    (fun _ hc => List.mem_takeWhile_imp hc) t.trimStart
  rw [← h]
  exact congrArg words List.takeWhile_append_dropWhile

theorem words_trim (t : Text) : words t.trim = words t := by
  obtain ⟨v, w, hv, hw, ht, -⟩ := exists_pad t
  rw [ht, words_append_blank hw, words_blank_append hv, ← ht]

theorem words_append_of_solid {w r : Text} (hne : w ≠ []) (hw : ∀ c ∈ w, isBlank c = false)
    (hr : ∀ c ∈ r.head?, isBlank c = true) : words (w ++ r) = w :: words r := by
  rcases r with _ | ⟨b, r⟩
  · rw [List.append_nil, words_of_solid hne hw, words_nil]
  · have hb := words_append_cons (hr b rfl) [] r
    rw [List.nil_append, words_nil, List.nil_append] at hb
    rw [words_append_cons (hr b rfl), words_of_solid hne hw, hb]
    rfl

/-- A text that is not blank is the blanks before its first word, that word and what follows it. -/
theorem exists_word (t : Text) : AllBlank t ∨ ∃ v w r, AllBlank v ∧ w ≠ []
    ∧ (∀ c ∈ w, isBlank c = false) ∧ (∀ c ∈ r.head?, isBlank c = true) ∧ t = v ++ w ++ r := by
  rcases hs : trimStart t with _ | ⟨c, s⟩
  · exact .inl (List.dropWhile_eq_nil_iff.1 hs)
  · have hc := List.head?_dropWhile_not isBlank t
    rw [show t.dropWhile isBlank = c :: s from hs] at hc
    have hsplit : (c :: s).takeWhile (!isBlank ·) ++ (c :: s).dropWhile (!isBlank ·) = c :: s :=
      List.takeWhile_append_dropWhile
    refine .inr ⟨t.takeWhile isBlank, (c :: s).takeWhile (!isBlank ·),
      (c :: s).dropWhile (!isBlank ·), fun b hb => List.mem_takeWhile_imp hb, ?_, ?_, ?_, ?_⟩
    · rw [List.takeWhile_cons_of_pos (by simpa using hc)]
      simp
    · intro b hb
      simpa using List.mem_takeWhile_imp hb
    · intro b hb
      have := List.head?_dropWhile_not (!isBlank ·) (c :: s)
      rw [hb] at this
      simpa using this
    · rw [List.append_assoc, hsplit, ← hs]
      exact List.takeWhile_append_dropWhile.symm

theorem words_eq_nil {t : Text} (h : words t = []) : AllBlank t := by
  rcases exists_word t with ht | ⟨v, w, r, hv, hne, hw, hr, rfl⟩
  · exact ht
  · rw [List.append_assoc, words_blank_append hv, words_append_of_solid hne hw hr] at h
    simp at h

theorem words_eq_cons {t w : Text} {ws : List Text} (h : words t = w :: ws) :
    ∃ v r, AllBlank v ∧ w ≠ [] ∧ (∀ c ∈ w, isBlank c = false) ∧ (∀ c ∈ r.head?, isBlank c = true)
      ∧ t = v ++ w ++ r ∧ words r = ws := by
  rcases exists_word t with ht | ⟨v, w', r, hv, hne, hw, hr, rfl⟩
  · have := words_blank_append ht []
    rw [List.append_nil, h] at this
    simp at this
  · rw [List.append_assoc, words_blank_append hv, words_append_of_solid hne hw hr] at h
    obtain ⟨rfl, rfl⟩ := List.cons.inj h
    exact ⟨v, r, hv, hne, hw, hr, rfl, rfl⟩

/-- Only the pieces after the first blank add words to a text that begins with none. -/
theorem length_words_cons {c : Char} (hc : isBlank c = false) (t : Text) :
    (words (c :: t)).length
      = 1 + ((t.splitOnP isBlank).tail.filter fun w => !w.isEmpty).length := by
  unfold words
  rw [List.splitOnP_cons_eq_if_modifyHead, if_neg (by simp [hc])]
  obtain ⟨h, r, hr⟩ := List.exists_cons_of_ne_nil (List.splitOnP_ne_nil isBlank t)
  rw [hr]
  simp [Nat.add_comm]

theorem length_words_cons_cons {b c : Char} (hb : isBlank b = false) (hc : isBlank c = false)
    (t : Text) : (words (c :: b :: t)).length = (words (b :: t)).length := by
  rw [length_words_cons hc, length_words_cons hb, List.splitOnP_cons_eq_if_modifyHead,
    if_neg (by simp [hb])]
  obtain ⟨h, r, hr⟩ := List.exists_cons_of_ne_nil (List.splitOnP_ne_nil isBlank t)
  rw [hr]
  simp

theorem length_words_runs : ∀ t : Text, (words t).length = runs false t
    ∧ ∀ c, isBlank c = false → (words (c :: t)).length = 1 + runs true t
  | [] => ⟨rfl, fun c hc => by rw [words_of_solid (t := [c]) (by simp) (by simpa using hc)]; rfl⟩
  | b :: t => by
    obtain ⟨ih, ihc⟩ := length_words_runs t
    by_cases hb : isBlank b = true
    · refine ⟨?_, fun c hc => ?_⟩
      · have := words_append_cons hb [] t
        rw [List.nil_append, words_nil, List.nil_append] at this
        rw [this, ih, runs, if_pos hb]
      · have := words_append_cons hb [c] t
        rw [words_of_solid (t := [c]) (by simp) (by simpa using hc)] at this
        rw [show c :: b :: t = [c] ++ b :: t from rfl, this, runs, if_pos hb, ← ih,
          List.length_append, List.length_singleton]
    · have hb : isBlank b = false := by simpa using hb
      refine ⟨by simp [runs, hb, ihc b hb], fun c hc => ?_⟩
      rw [length_words_cons_cons hb hc, ihc b hb]
      simp [runs, hb]

theorem length_words (t : Text) : (words t).length = runs false t := (length_words_runs t).1

end TypeSig.Text
