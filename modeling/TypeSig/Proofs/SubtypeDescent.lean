import Mathlib.Algebra.Order.BigOperators.Group.List
import Mathlib.Algebra.Order.Ring.Nat
import TypeSig.Proofs.DescriptorForm
import TypeSig.Proofs.SubtypeBoundaries
import TypeSig.Proofs.Tiling
import TypeSig.TypeTree

/-!
# Subtypes are shorter than their type

The subtypes of a type are texts, and reading them again may find clauses that were not there: of
`a<b%<c>` the subtype is `b<c`, which has the subtype `c`. So the nesting of the brackets does not
tell how often a type can be read. Its length does: each subtype with one character more, for the
bracket or the separator before it, finds room in the type (`sum_length_subtypes`). The room is
lost nowhere on the way, as trimming, the wrapper, the search for the clause, the cuts and the
escapes all take characters away.

Hence reading all subtypes of a type, theirs, and so on, comes to an end (`descent_of_subtypes`). It
reads at most one type for each character, and one for the whole.
-/

namespace TypeSig

open Lexeme

/-! ## Lengths -/

theorem Lexeme.length_of_scan {t : Text} {xs : List Lexeme} (h : scan t = xs) :
    t.length = (source xs).length := by
  rw [← h, source_scan]

theorem Text.length_trim_le (t : Text) : t.trim.length ≤ t.length := by
  obtain ⟨v, w, -, -, ht, -⟩ := exists_pad t
  have := congrArg List.length ht
  simp only [List.length_append] at this
  omega

theorem Wrapper.length_inner_le {t u : Text} (h : inner? t = some u) : u.length ≤ t.length := by
  obtain ⟨l, r, ht, -⟩ := inner?_eq_some_iff.1 h
  have hlen := length_of_scan ht
  simp only [source_scan, source_append, source_cons, source_nil, List.length_append] at hlen
  omega

namespace Clause

theorem length_resolve_le (d : Nat) (x : Lexeme) : (resolve d x).length ≤ x.text.length := by
  unfold resolve literal
  split_ifs
  · simp
  · split <;> simp
  · simp

theorem length_normalize_le (xs : List Lexeme) (d : Nat) :
    (normalize d xs).length ≤ (source xs).length := by
  induction xs generalizing d with
  | nil => simp [normalize]
  | cons x xs ih =>
    have hx := length_resolve_le (x.symbol.nesting d) x
    have hxs := ih (x.symbol.nesting d)
    simp only [normalize, source_cons, List.length_append]
    omega

theorem length_interior_lt {t u : Text} (h : interior? t = some u) : u.length < t.length := by
  obtain ⟨front, l, e, rest, ht, -, hl, -⟩ := exists_of_interior? h
  have hl : l.text = ['<'] := text_of_spelling (t := t) (by simp [ht]) (by rw [hl]; rfl)
  have hlen := length_of_scan ht
  simp only [source_scan, source_append, source_cons, List.length_append, hl,
    List.length_singleton] at hlen
  omega

theorem length_outermost_lt {t u : Text} (h : outermost? t = some u) : u.length < t.length := by
  have htrim := Text.length_trim_le t
  have hlt := length_interior_lt h
  cases hinner : Wrapper.inner? t.trim with
  | none =>
    rw [hinner, Option.getD_none] at hlt
    omega
  | some v =>
    have := Wrapper.length_inner_le hinner
    rw [hinner, Option.getD_some] at hlt
    omega

end Clause

/-- Each part but the last is followed by a cut, which has a character at least. -/
theorem Piece.Parts.sum_length {test : Symbol → Bool} {zs : List Lexeme}
    {parts : List (List Lexeme)} (h : Parts test zs parts) (hz : ∀ z ∈ zs, z.text ≠ []) :
    (parts.map fun part => (source part).length + 1).sum ≤ (source zs).length + 1 := by
  induction h with
  | nil => simp
  | whole => simp
  | @cut xs ys x parts _ _ _ ih =>
    have hx := List.length_pos_of_ne_nil (hz x (by simp))
    have hys := ih fun z hz' => hz z (by simp [hz'])
    simp only [List.map_cons, List.sum_cons, source_append, source_cons, List.length_append]
    omega

theorem Clause.sum_length_subtypes (t : Text) :
    ((subtypes t).map fun s => s.length + 1).sum ≤ t.length := by
  cases hu : outermost? t with
  | none => simp [subtypes_eq, pieces, hu]
  | some u =>
    obtain ⟨parts, hparts⟩ := Piece.exists_parts Symbol.separatesSubtypes (scan u)
    have hroom := hparts.sum_length fun z hz => text_ne_nil (spells_of_mem_scan hz)
    have hlt := length_outermost_lt hu
    have hsmaller : ((parts.map (normalize 0)).map fun s => s.length + 1).sum
        ≤ (parts.map fun part => (source part).length + 1).sum := by
      rw [List.map_map]
      exact List.sum_le_sum fun part _ => Nat.succ_le_succ (length_normalize_le part 0)
    rw [source_scan] at hroom
    rw [subtypes_of_parts hu hparts]
    omega

/-! ## Reading to the end -/

namespace TypeDescriptor

theorem length_splitName_le (token : Text) : (splitName token).2.length ≤ token.length := by
  rcases splitName_cases token with hsplit | ⟨xs, x, ys, hname, hsplit⟩
  · simp [hsplit]
  · have hlen := length_of_scan hname.scan_eq
    simp only [source_append, source_cons, List.length_append] at hlen
    simp only [hsplit]
    omega

theorem sum_length_subtypes (token : Text) :
    ((parse token).subtypes.map fun s => s.length + 1).sum ≤ token.length := by
  have hsum := Clause.sum_length_subtypes (splitName token).2.trim
  have htrim := Text.length_trim_le (splitName token).2
  have hname := length_splitName_le token
  unfold parse
  simp only
  omega

/-- `s` is a subtype of the type `t`. -/
def HasSubtype (t s : Text) : Prop := s ∈ (parse t).subtypes

theorem HasSubtype.length_lt {t s : Text} (h : HasSubtype t s) : s.length < t.length := by
  have hroom := sum_length_subtypes t
  have hs : s.length + 1 ≤ ((parse t).subtypes.map fun s => s.length + 1).sum :=
    List.le_sum_of_mem (List.mem_map_of_mem h)
  omega

theorem length_le_of_isChain : ∀ {chain : List Text} {token : Text},
    (token :: chain).IsChain HasSubtype → chain.length ≤ token.length
  | [], _, _ => Nat.zero_le _
  | s :: chain, token, h => by
    rw [List.isChain_cons_cons] at h
    have hs := h.1.length_lt
    have hchain := length_le_of_isChain h.2
    rw [List.length_cons]
    omega

end TypeDescriptor

namespace TypeTree

open TypeDescriptor

/-- Reads the subtypes of a token, theirs, and so on, without a bound. -/
def whole (token : Text) : TypeTree :=
  node (.parse token) ((TypeDescriptor.parse token).subtypes.attach.map fun s => whole s.1)
termination_by token.length
decreasing_by exact HasSubtype.length_lt s.2

theorem whole_eq (token : Text) :
    whole token = node (.parse token) ((TypeDescriptor.parse token).subtypes.map whole) := by
  rw [whole, List.attach_map_val]

/-- The number of types in a tree. -/
def size : TypeTree → Nat
  | leaf _ => 1
  | node _ children => (children.map size).sum + 1

theorem parse_eq_whole : ∀ {depth : Nat} {token : Text}, token.length < depth →
    parse depth token = whole token
  | 0, _, h => absurd h (Nat.not_lt_zero _)
  | depth + 1, token, h => by
    rw [parse, whole_eq]
    refine congrArg (node _) (List.map_congr_left fun s hs => parse_eq_whole ?_)
    have := HasSubtype.length_lt hs
    omega

theorem size_whole_le (token : Text) : (whole token).size ≤ token.length + 1 := by
  have hroom := sum_length_subtypes token
  have hchildren : (((TypeDescriptor.parse token).subtypes.map whole).map size).sum
      ≤ ((TypeDescriptor.parse token).subtypes.map fun s => s.length + 1).sum := by
    rw [List.map_map]
    exact List.sum_le_sum fun s hs => size_whole_le s
  rw [whole_eq, size]
  omega
termination_by token.length
decreasing_by exact HasSubtype.length_lt hs

/-- Every subtype is shorter than its type, so a chain of types, each a subtype of the one before,
ends. Reading to a depth beyond the length of a token leaves no subtype unread, and reads no more
types than the token has characters, and one. -/
theorem descent_of_subtypes (token : Text) :
    (∀ s ∈ (TypeDescriptor.parse token).subtypes, s.length < token.length)
    ∧ (∀ chain : List Text, (token :: chain).IsChain HasSubtype → chain.length ≤ token.length)
    ∧ (∀ depth, token.length < depth → parse depth token = whole token)
    ∧ (whole token).size ≤ token.length + 1 :=
  ⟨fun _ hs => HasSubtype.length_lt hs, fun _ hchain => length_le_of_isChain hchain,
    fun _ hdepth => parse_eq_whole hdepth, size_whole_le token⟩

/-- The subtype `b<c` of `a<b%<c>` has a clause that the token does not have, and a subtype in it.
Reading to depth 8 finds both, and nothing below them. -/
theorem descent_of_subtypes_new_clause :
    List.IsChain HasSubtype [['a', '<', 'b', '%', '<', 'c', '>'], ['b', '<', 'c'], ['c']]
    ∧ [['b', '<', 'c'], ['c']].length ≤ ['a', '<', 'b', '%', '<', 'c', '>'].length
    ∧ ['b', '<', 'c'].length < ['a', '<', 'b', '%', '<', 'c', '>'].length
    ∧ parse 8 ['a', '<', 'b', '%', '<', 'c', '>'] = whole ['a', '<', 'b', '%', '<', 'c', '>'] := by
  obtain ⟨hsubtypes, hchains, hdepths, -⟩ :=
    descent_of_subtypes ['a', '<', 'b', '%', '<', 'c', '>']
  have hfirst : (TypeDescriptor.parse ['a', '<', 'b', '%', '<', 'c', '>']).subtypes
      = [['b', '<', 'c']] := rfl
  have hsecond : (TypeDescriptor.parse ['b', '<', 'c']).subtypes = [['c']] := rfl
  have hchain : List.IsChain HasSubtype
      [['a', '<', 'b', '%', '<', 'c', '>'], ['b', '<', 'c'], ['c']] := by
    simp [HasSubtype, hfirst, hsecond]
  exact ⟨hchain, hchains _ hchain, hsubtypes _ (by simp [hfirst]), hdepths 8 (by simp)⟩

end TypeTree

end TypeSig
