import TypeSig.Proofs.TypeToken
import TypeSig.TypeTree

/-!
# Nested generics are read at every depth

A generic is a label with other generics in its clause, and arbitrary texts at its leaves. It is
spelled with every leaf escaped once, however deep the leaf is. Reading the spelling of a generic
gives its label and, in order, one subtype for each child: the text of a leaf, without its escapes,
and the spelling of a generic as it stands (`parse_spells_node`). Reading the subtypes in turn,
deep enough, gives the whole of the generic (`recovers_typeTree`).
-/

namespace TypeSig

open Lexeme

/-- A type with clauses inside clauses, and texts at the leaves. -/
inductive Generic where
  | leaf (text : Text)
  | node (label : Text) (children : List Generic)

namespace Generic

/-- A text that neither blanks nor delimiters occur in. -/
structure IsTag (l : Text) : Prop where
  ne_nil : l ≠ []
  solid : ∀ c ∈ l, Text.isBlank c = false
  plain : ∀ c ∈ l, Text.isDelimiter c = false

inductive WellFormed : Generic → Prop
  | leaf (s : Text) : WellFormed (leaf s)
  | node {l : Text} {cs : List Generic} : IsTag l → (∀ c ∈ cs.getLast?, c ≠ leaf []) →
      (∀ c ∈ cs, WellFormed c) → WellFormed (node l cs)

inductive Spells : Generic → Text → Prop
  | leaf {s e : Text} : s.Escapes e → Spells (leaf s) e
  | node {l : Text} {cs : List Generic} {ts : List Text} {t : Text} : List.Forall₂ Spells cs ts →
      Text.Joined [[';'], [',']] ts t → Spells (node l cs) (l ++ '<' :: t ++ ['>'])

/-- The subtype that a child is in its parent, where the child is spelled `t`. -/
def asSubtype : Generic → Text → Text
  | leaf s, _ => s
  | node _ _, t => t

mutual

/-- How often clauses are nested. -/
def height : Generic → Nat
  | leaf _ => 0
  | node _ cs => heights cs + 1

/-- The greatest height of some generics. -/
def heights : List Generic → Nat
  | [] => 0
  | c :: cs => max c.height (heights cs)

end

mutual

/-- A text and the tree that was read from it hold all of a generic. The text of a leaf is the text
itself; what else can be read from it does not matter. -/
inductive Recovers : Generic → Text → TypeTree → Prop
  | leaf (s : Text) (tree : TypeTree) : Recovers (leaf s) s tree
  | node {l t : Text} {cs : List Generic} {ss : List Text} {trees : List TypeTree} :
      RecoversAll cs ss trees → Recovers (node l cs) t (.node ⟨none, l, ss, false⟩ trees)

inductive RecoversAll : List Generic → List Text → List TypeTree → Prop
  | nil : RecoversAll [] [] []
  | cons {c : Generic} {cs : List Generic} {s : Text} {ss : List Text} {tree : TypeTree}
      {trees : List TypeTree} : Recovers c s tree → RecoversAll cs ss trees →
      RecoversAll (c :: cs) (s :: ss) (tree :: trees)

end

/-! ## Spellings in a clause -/

theorem IsTag.inert {l : Text} (h : IsTag l) : Inert l := inert_of_forall h.plain

theorem IsTag.isLabel {l : Text} (h : IsTag l) : l.IsLabel := by
  refine ⟨h.ne_nil, ⟨fun c hc => ?_, fun c hc => ?_⟩, h.plain⟩
  · exact h.solid c (List.mem_of_head? hc)
  · exact h.solid c (List.mem_of_getLast? hc)

theorem IsTag.escapes {l : Text} (h : IsTag l) : l.Escapes l := Text.escapes_self h.solid h.plain

theorem fits_clause {l t : Text} {ts : List Text} (hl : IsTag l) (hts : ∀ p ∈ ts, Clause.Fits p)
    (hj : Text.Joined [[';'], [',']] ts t) : Clause.Fits (l ++ '<' :: t ++ ['>']) := by
  have hfit := Clause.fits_of_inert hl.inert
  have hspell : Clause.Spells ts ([] ++ '<' :: t ++ ['>']) :=
    .present Text.allBlank_nil hj
  have hsym := hfit.unbracketed.append (hspell.unbracketed hts)
  rw [List.append_assoc]
  exact ⟨hfit.closed.append (hspell.closed hts),
    hfit.quiet.append (hspell.sealed hts Clause.separatesSubtypes_isSeparator), hsym.2⟩

theorem fits_of_spells : ∀ {g : Generic} {t : Text}, g.WellFormed → g.Spells t → Clause.Fits t
  | _, _, _, .leaf h => Clause.fits_of_inert (inert_of_escapes h)
  | .node l cs, _, .node hl _ hcs, .node hts hj => by
    refine fits_clause hl (fun p hp => ?_) hj
    obtain ⟨c, hc, hcp⟩ := forall₂_mem_right hts hp
    exact fits_of_spells (hcs c hc) hcp
termination_by g => sizeOf g
decreasing_by
  have := List.sizeOf_lt_of_mem hc
  simp only [node.sizeOf_spec]
  omega

theorem fits_all {cs : List Generic} {ts : List Text} (hcs : ∀ c ∈ cs, c.WellFormed)
    (hts : List.Forall₂ Spells cs ts) : ∀ p ∈ ts, Clause.Fits p := by
  intro p hp
  obtain ⟨c, hc, hcp⟩ := forall₂_mem_right hts hp
  exact fits_of_spells (hcs c hc) hcp

/-- Nothing in the spelling of a generic is resolved: the label has nothing to resolve, and the rest
stands in a clause. -/
theorem normalize_clause {l t : Text} (hl : IsTag l) (ht : Closed t) :
    Clause.normalize 0 (scan (l ++ '<' :: t ++ ['>'])) = l ++ '<' :: t ++ ['>'] := by
  have hscan : scan (l ++ '<' :: t ++ ['>'])
      = scan l ++ ⟨.leftAngle, ['<']⟩ :: (scan t ++ [⟨.rightAngle, ['>']⟩]) := by
    rw [List.append_assoc, hl.inert.complete, ht.scan_clause]
    rfl
  have hclause : Clause.normalize 0 (⟨.leftAngle, ['<']⟩ :: (scan t ++ [⟨.rightAngle, ['>']⟩]))
      = '<' :: Clause.normalize 1 (scan t ++ [⟨.rightAngle, ['>']⟩]) := rfl
  rw [hscan, normalize_append _ _ hl.inert.level, normalize_escapes hl.escapes, hclause,
    normalize_nested ht.balanced.walk_eq, source_scan, List.append_assoc]
  rfl

theorem normalize_spells {g : Generic} {t : Text} (hg : g.WellFormed) (h : g.Spells t) :
    Clause.normalize 0 (scan t) = g.asSubtype t := by
  cases h with
  | leaf he => exact normalize_escapes he
  | node hts hj =>
    cases hg with
    | node hl _ hcs => exact normalize_clause hl (Clause.closed_joined hj (fits_all hcs hts))

theorem spells_ne_nil {g : Generic} {t : Text} (hg : g ≠ leaf []) (h : g.Spells t) : t ≠ [] := by
  cases h with
  | leaf he =>
    rintro rfl
    cases he
    exact hg rfl
  | node => simp

/-! ## Reading a generic -/

variable {l t : Text} {cs : List Generic} {ts : List Text}

theorem map_normalize (hcs : ∀ c ∈ cs, c.WellFormed) (hts : List.Forall₂ Spells cs ts) :
    (ts.map fun p => Clause.normalize 0 (scan p)) = List.zipWith asSubtype cs ts := by
  induction hts with
  | nil => rfl
  | @cons c p cs ts hcp _ ih =>
    rw [List.map_cons, List.zipWith_cons_cons, normalize_spells (hcs c List.mem_cons_self) hcp,
      ih fun d hd => hcs d (List.mem_cons_of_mem _ hd)]

theorem parse_node (hg : (node l cs).WellFormed) (hts : List.Forall₂ Spells cs ts)
    (hj : Text.Joined [[';'], [',']] ts t) :
    TypeDescriptor.parse (l ++ '<' :: t ++ ['>'])
      = ⟨none, l, List.zipWith asSubtype cs ts, false⟩ := by
  cases hg with
  | node hl hlast hcs =>
    have hlast' : ∀ p ∈ ts.getLast?, p ≠ [] := fun p hp => by
      obtain ⟨c, hc, hcp⟩ := forall₂_getLast? hts hp
      exact spells_ne_nil (hlast c hc) hcp
    have hnil := Text.allBlank_nil
    have hclause : Clause.Spells ts ([] ++ '<' :: t ++ ['>']) := .present hnil hj
    have hparse := TypeDescriptor.parse_spelled hl.isLabel hclause (fits_all hcs hts) .bare
      (by simp) (.none hnil hnil) hlast'
    rw [map_normalize hcs hts] at hparse
    simpa using hparse

theorem height_le_heights : ∀ {cs : List Generic} {c : Generic}, c ∈ cs → c.height ≤ heights cs
  | d :: cs, c, h => by
    rw [heights]
    rcases List.mem_cons.1 h with rfl | h
    · exact Nat.le_max_left _ _
    · exact (height_le_heights h).trans (Nat.le_max_right _ _)

theorem recoversAll_map {f : Text → TypeTree} (hts : List.Forall₂ Spells cs ts)
    (hf : ∀ c ∈ cs, ∀ p, c.Spells p → c.Recovers (c.asSubtype p) (f (c.asSubtype p))) :
    RecoversAll cs (List.zipWith asSubtype cs ts) ((List.zipWith asSubtype cs ts).map f) := by
  induction hts with
  | nil => exact .nil
  | @cons c p cs ts hcp _ ih =>
    exact .cons (hf c List.mem_cons_self p hcp) (ih fun d hd => hf d (List.mem_cons_of_mem _ hd))

theorem recovers_typeTree : ∀ (depth : Nat) {g : Generic} {t : Text}, g.WellFormed → g.Spells t →
    g.height ≤ depth → g.Recovers (g.asSubtype t) (TypeTree.parse depth (g.asSubtype t))
  | _, .leaf s, _, _, _, _ => .leaf s _
  | 0, .node _ _, _, _, _, h => by simp [height] at h
  | depth + 1, .node l cs, _, hg, .node hts hj, h => by
    -- the subtype of a child is the text that the induction hypothesis speaks of
    have hcs : ∀ c ∈ cs, c.WellFormed := by
      cases hg with
      | node _ _ hcs => exact hcs
    rw [asSubtype, TypeTree.parse, parse_node hg hts hj]
    refine .node (recoversAll_map hts fun c hc p hcp => recovers_typeTree depth (hcs c hc) hcp ?_)
    have := height_le_heights hc
    rw [height] at h
    omega

theorem exists_spells : ∀ g : Generic, ∃ t, g.Spells t
  | .leaf s => by
    obtain ⟨e, he⟩ := Text.exists_escapes s
    exact ⟨e, .leaf he⟩
  | .node l cs => by
    obtain ⟨ts, hts⟩ := exists_forall₂ (R := Spells) fun c (_ : c ∈ cs) => exists_spells c
    obtain ⟨t, hj⟩ := Text.exists_joined [[';'], [',']] (by simp) ts
    exact ⟨_, .node hts hj⟩
termination_by g => sizeOf g
decreasing_by
  have := List.sizeOf_lt_of_mem ‹c ∈ cs›
  simp only [node.sizeOf_spec]
  omega

/-- A generic has a spelling, and from each of its spellings its label and its children are read: a
leaf as its own text, and a generic as the spelling that it has. Reading on gives all of it. -/
theorem parse_spells_node {l : Text} {cs : List Generic} (hg : (node l cs).WellFormed) :
    (∃ t, (node l cs).Spells t) ∧
    ∀ (ts : List Text) (t : Text), List.Forall₂ Spells cs ts → Text.Joined [[';'], [',']] ts t →
      TypeDescriptor.parse (l ++ '<' :: t ++ ['>'])
          = ⟨none, l, List.zipWith asSubtype cs ts, false⟩ ∧
      (List.zipWith asSubtype cs ts).length = cs.length ∧
      ∀ depth, (node l cs).height ≤ depth → (node l cs).Recovers (l ++ '<' :: t ++ ['>'])
        (TypeTree.parse depth (l ++ '<' :: t ++ ['>'])) := by
  refine ⟨exists_spells _, fun ts t hts hj => ⟨parse_node hg hts hj, ?_, fun depth hd => ?_⟩⟩
  · rw [List.length_zipWith, ← hts.length_eq, Nat.min_self]
  · exact recovers_typeTree depth hg (.node hts hj) hd

/-- The escapes of the inner leaf are kept in `b<%<% >` and resolved when that is read. -/
theorem parse_spells_node_escape :
    TypeDescriptor.parse ['a', '<', ';', 'b', '<', '%', '<', '%', ' ', '>', '>']
      = ⟨none, ['a'], [[], ['b', '<', '%', '<', '%', ' ', '>']], false⟩ ∧
    (node ['a'] [leaf [], node ['b'] [leaf ['<', ' ']]]).Recovers
      ['a', '<', ';', 'b', '<', '%', '<', '%', ' ', '>', '>']
      (TypeTree.parse 2 ['a', '<', ';', 'b', '<', '%', '<', '%', ' ', '>', '>']) := by
  have htag : ∀ c ∈ ['a', 'b'], IsTag [c] := by
    intro c hc
    simp only [List.mem_cons, List.not_mem_nil, or_false] at hc
    rcases hc with rfl | rfl <;> exact ⟨by simp, List.forall_mem_singleton.2 (by decide),
      List.forall_mem_singleton.2 (by decide)⟩
  have hb : (node ['b'] [leaf ['<', ' ']]).WellFormed :=
    .node (htag 'b' (by simp)) (by simp) (by simpa using .leaf _)
  have ha : (node ['a'] [leaf [], node ['b'] [leaf ['<', ' ']]]).WellFormed :=
    .node (htag 'a' (by simp)) (by simp) (by simpa using ⟨.leaf _, hb⟩)
  have hleaf : (leaf ['<', ' ']).Spells ['%', '<', '%', ' '] := .leaf (.escaped _ (.escaped _ .nil))
  have hnode : (node ['b'] [leaf ['<', ' ']]).Spells ['b', '<', '%', '<', '%', ' ', '>'] :=
    .node (.cons hleaf .nil) (.single _)
  have hread := (parse_spells_node ha).2 _ _ (.cons (.leaf .nil) (.cons hnode .nil))
    (.cons [] (List.mem_cons_self (a := [';'])) (.single _))
  exact ⟨hread.1, hread.2.2 2 (by decide)⟩

end Generic

end TypeSig
