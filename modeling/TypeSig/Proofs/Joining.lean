import Mathlib.Data.List.Forall2
import TypeSig.Proofs.Nesting
import TypeSig.Proofs.Scanning

/-!
# Texts put together with separators

`Joined` texts stand one after the other with a separator between any two. The splitter takes them
apart again (`splitTexts_joined`) if each of them is `Sealed`: it can be read on its own, the
splitter passes over it without a cut, and it leaves no clause open. Only an empty text at the very
end would be lost.

A `Closed` text is complete and balanced. Put in angle brackets it is sealed, whatever it separates
inside (`sealed_clause`).
-/

namespace TypeSig

/-- The text `t` consists of the texts `ts` in their order, with one of the separators between any
two of them. -/
inductive Text.Joined (separators : List Text) : List Text → Text → Prop
  | nil : Joined separators [] []
  | single (t : Text) : Joined separators [t] t
  | cons (t : Text) {s u v : Text} {us : List Text} : s ∈ separators →
      Joined separators (u :: us) v → Joined separators (t :: u :: us) (t ++ s ++ v)

/-- What holds of the joined texts and of the separators, and of texts put together, holds of the
joined text. -/
theorem Text.Joined.all {separators ts : List Text} {t : Text} {P : Text → Prop}
    (h : Joined separators ts t) (hnil : P []) (happ : ∀ a b, P a → P b → P (a ++ b))
    (hsep : ∀ s ∈ separators, P s) (hts : ∀ u ∈ ts, P u) : P t := by
  induction h with
  | nil => exact hnil
  | single t => exact hts t List.mem_cons_self
  | cons t hs _ ih =>
    refine happ _ _ (happ _ _ (hts t List.mem_cons_self) (hsep _ hs)) ?_
    exact ih fun u hu => hts u (List.mem_cons_of_mem _ hu)

theorem Text.Joined.cons_head {separators ts : List Text} {t u : Text} (c : Char)
    (h : Joined separators (t :: ts) u) : Joined separators ((c :: t) :: ts) (c :: u) := by
  cases h with
  | single => exact .single _
  | cons t hs h => exact .cons (c :: t) hs h

theorem Text.exists_joined (separators : List Text) (h : separators ≠ []) :
    ∀ ts : List Text, ∃ t, Joined separators ts t
  | [] => ⟨[], .nil⟩
  | [t] => ⟨t, .single t⟩
  | t :: u :: us => by
    obtain ⟨v, hv⟩ := exists_joined separators h (u :: us)
    obtain ⟨s, hs⟩ := List.exists_mem_of_ne_nil separators h
    exact ⟨_, .cons t hs hv⟩

/-! ## Lists that correspond -/

section Forall₂

variable {α β : Type} {R : α → β → Prop} {as : List α} {bs : List β}

theorem forall₂_mem_right (h : List.Forall₂ R as bs) {b : β} (hb : b ∈ bs) :
    ∃ a ∈ as, R a b := by
  induction h with
  | nil => simp at hb
  | @cons a b' as bs hab _ ih =>
    rcases List.mem_cons.1 hb with rfl | hb
    · exact ⟨a, List.mem_cons_self, hab⟩
    · obtain ⟨a', ha', h'⟩ := ih hb
      exact ⟨a', List.mem_cons_of_mem _ ha', h'⟩

theorem forall₂_getLast? (h : List.Forall₂ R as bs) {b : β} (hb : b ∈ bs.getLast?) :
    ∃ a ∈ as.getLast?, R a b := by
  have hr := List.forall₂_reverse_iff.2 h
  rw [← List.head?_reverse] at hb
  obtain ⟨bs', hbs⟩ : ∃ bs', bs.reverse = b :: bs' := by
    rcases hrev : bs.reverse with _ | ⟨b', bs'⟩
    · simp [hrev] at hb
    · rw [hrev] at hb
      obtain rfl : b' = b := by simpa using hb
      exact ⟨bs', rfl⟩
  rw [hbs, List.forall₂_cons_right_iff] at hr
  obtain ⟨a, as', hab, -, has⟩ := hr
  refine ⟨a, ?_, hab⟩
  rw [← List.head?_reverse, has]
  rfl

theorem exists_forall₂ (h : ∀ a ∈ as, ∃ b, R a b) : ∃ bs, List.Forall₂ R as bs := by
  induction as with
  | nil => exact ⟨[], .nil⟩
  | cons a as ih =>
    obtain ⟨b, hb⟩ := h a List.mem_cons_self
    obtain ⟨bs, hbs⟩ := ih fun a ha => h a (List.mem_cons_of_mem _ ha)
    exact ⟨b :: bs, .cons hb hbs⟩

theorem map_eq_of_forall₂ {f : β → α} (h : List.Forall₂ R as bs)
    (hf : ∀ a ∈ as, ∀ b, R a b → f b = a) : bs.map f = as := by
  induction h with
  | nil => rfl
  | @cons a b as bs hab _ ih =>
    rw [List.map_cons, hf a List.mem_cons_self b hab,
      ih fun a ha => hf a (List.mem_cons_of_mem _ ha)]

end Forall₂

/-- The symbols at which some splitter cuts. -/
def Symbol.isSeparator : Symbol → Bool
  | arrow | doubleColon | comma | semicolon => true
  | _ => false

namespace Lexeme

/-- A complete and balanced text. -/
structure Closed (t : Text) : Prop where
  complete : Complete t
  balanced : Balanced (scan t)

theorem isLevel_of_isInert {s : Symbol} (h : s.isInert = true) : s.isLevel = true := by
  cases s <;> first | rfl | simp [Symbol.isInert] at h

theorem Inert.level {t : Text} (h : Inert t) : ∀ x ∈ scan t, x.symbol.isLevel = true :=
  fun x hx => isLevel_of_isInert (h.symbols x hx)

theorem closed_nil : Closed [] := ⟨complete_nil, balanced_nil⟩

theorem Closed.append {a b : Text} (ha : Closed a) (hb : Closed b) : Closed (a ++ b) := by
  refine ⟨ha.complete.append hb.complete, ?_⟩
  rw [ha.complete]
  exact ha.balanced.append hb.balanced

theorem Inert.closed {t : Text} (h : Inert t) : Closed t := ⟨h.complete, balanced_of_level h.level⟩

theorem closed_singleton {c : Char} (ha : c ≠ '=') (hd : c ≠ ':') (he : c ≠ '%')
    (h : (Symbol.ofChar c).isLevel = true) : Closed [c] := by
  refine ⟨complete_singleton ha hd he, balanced_of_level fun x hx => ?_⟩
  rw [scan_singleton, List.mem_singleton] at hx
  rw [hx]
  exact h

theorem complete_leftAngle : Complete ['<'] :=
  complete_singleton (by decide) (by decide) (by decide)

theorem complete_rightAngle : Complete ['>'] :=
  complete_singleton (by decide) (by decide) (by decide)

theorem scan_leftAngle (t : Text) : scan ('<' :: t) = ⟨.leftAngle, ['<']⟩ :: scan t :=
  complete_leftAngle t

theorem scan_rightAngle (t : Text) : scan ('>' :: t) = ⟨.rightAngle, ['>']⟩ :: scan t :=
  complete_rightAngle t

theorem Closed.scan_clause {t : Text} (h : Closed t) : scan ('<' :: t ++ ['>']) =
    ⟨.leftAngle, ['<']⟩ :: scan t ++ [⟨.rightAngle, ['>']⟩] := by
  rw [List.cons_append, scan_leftAngle, h.complete, scan_rightAngle]
  rfl

theorem Closed.clause {t : Text} (h : Closed t) : Closed ('<' :: t ++ ['>']) := by
  refine ⟨?_, ?_⟩
  · exact (complete_leftAngle.append h.complete).append complete_rightAngle
  · rw [h.scan_clause]
    exact h.balanced.clause _ _

end Lexeme

namespace Piece

open Lexeme

variable {test : Symbol → Bool}

/-- A complete text that the splitter passes over without a cut, leaving no clause open. -/
structure Sealed (test : Symbol → Bool) (t : Text) : Prop where
  complete : Complete t
  quiet : Quiet test 0 (scan t)
  depth : depthAfter 0 (scan t) = 0

theorem sealed_nil : Sealed test [] := ⟨complete_nil, trivial, rfl⟩

theorem Sealed.append {a b : Text} (ha : Sealed test a) (hb : Sealed test b) :
    Sealed test (a ++ b) := by
  refine ⟨ha.complete.append hb.complete, ?_, ?_⟩
  · rw [ha.complete, quiet_append, ha.depth]
    exact ⟨ha.quiet, hb.quiet⟩
  · rw [ha.complete, depthAfter_append, ha.depth, hb.depth]

theorem sealed_of_closed {t : Text} (h : Closed t) (ht : ∀ x ∈ scan t, test x.symbol = false) :
    Sealed test t :=
  ⟨h.complete, quiet_of_forall ht 0,
    depthAfter_of_walk h.balanced.walk_eq h.balanced.ne_doubleColon⟩

variable (htest : ∀ s, test s = true → s.isSeparator = true)

include htest in
theorem sealed_of_inert {t : Text} (h : Inert t) : Sealed test t := by
  refine sealed_of_closed h.closed fun x hx => ?_
  have hs := h.symbols x hx
  by_contra ht
  have := htest _ (by simpa using ht)
  cases hsym : x.symbol <;> simp_all [Symbol.isInert, Symbol.isSeparator]

include htest in
theorem sealed_clause {t : Text} (h : Closed t) : Sealed test ('<' :: t ++ ['>']) := by
  obtain ⟨hq, hd⟩ : Quiet test (0 + 1) (scan t) ∧ depthAfter (0 + 1) (scan t) = 0 + 1 :=
    quiet_nested h.balanced.walk_eq h.balanced.ne_doubleColon
  have hl : test .leftAngle ≠ true := fun h => by simpa [Symbol.isSeparator] using htest _ h
  have hr : test .rightAngle ≠ true := fun h => by simpa [Symbol.isSeparator] using htest _ h
  refine ⟨h.clause.complete, ?_, ?_⟩
  · rw [h.scan_clause, quiet_append]
    refine ⟨⟨fun h => hl h.1, hq⟩, ⟨fun h => hr h.1, trivial⟩⟩
  · exact depthAfter_of_walk h.clause.balanced.walk_eq h.clause.balanced.ne_doubleColon

/-- The splitter takes sealed texts apart where they were joined. -/
theorem splitTexts_joined {separators ts : List Text} {t : Text}
    (hsep : ∀ s ∈ separators, Complete s ∧ ∃ x, scan s = [x] ∧ test x.symbol = true
      ∧ x.symbol.depth 0 = 0)
    (h : Text.Joined separators ts t) (hts : ∀ u ∈ ts, Sealed test u)
    (hlast : ∀ u ∈ ts.getLast?, u ≠ []) : splitTexts test t = ts := by
  have key : ∀ start, (cut test 0 start (scan t)).map text = ts := by
    induction h with
    | nil => exact fun _ => rfl
    | single t =>
      intro start
      rw [cut_of_quiet (hts t List.mem_cons_self).quiet (scan_ne_nil (hlast t rfl)), source_scan]
      rfl
    | @cons t s u v us hs _ ih =>
      intro start
      obtain ⟨hc, x, hx, htx, hz⟩ := hsep s hs
      have ht := hts t List.mem_cons_self
      have hscan : scan (t ++ s ++ v) = scan t ++ x :: scan v := by
        rw [List.append_assoc, ht.complete, hc, hx]
        rfl
      rw [hscan, cut_append_cons ht.quiet htx (by rw [ht.depth, hz]), List.map_cons, source_scan,
        ih (fun w hw => hts w (List.mem_cons_of_mem _ hw)) (by simpa using hlast)]
  exact key 0

end Piece

end TypeSig
