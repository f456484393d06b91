import TypeSig.Proofs.Structure
import TypeSig.Proofs.TypeTexts

/-!
# Macros for type tokens leave the structure alone

Whatever texts the macros for type tokens give, a signature is refused as it is without them, or
has the same stages, as many types in each, and the same constraints (`structure_of_typeMacros`).
The stages and tokens are cut from the text before any of these macros is applied, and the text of a
macro is read as one type, whatever it contains.

A parser that lost its macros and kept its journal may answer from a signature that was read with
them. The structure of the answer is the same (`result_without_typeMacros`).
-/

namespace TypeSig

theorem Chain.exists_apply : ∀ {chain : List Macro}, (∀ m ∈ chain, ∀ t, ∃ u, m t = .text u) →
    ∀ t, ∃ u, apply chain t = .ok u
  | [], _, t => ⟨t, rfl⟩
  | m :: chain, h, t => by
    obtain ⟨u, hu⟩ := h m List.mem_cons_self t
    obtain ⟨v, hv⟩ := exists_apply (fun m' hm' => h m' (List.mem_cons_of_mem _ hm')) u
    refine ⟨v, ?_⟩
    rw [apply_cons, hu]
    exact hv

theorem Registry.exists_typeOf {r : Registry} (h : ∀ m ∈ r.typeLevel, ∀ t, ∃ u, m t = .text u) :
    ∃ f : Text → TypeDescriptor, ∀ token, r.typeOf token = .ok (f token) := by
  choose g hg using Chain.exists_apply h
  refine ⟨fun token => .parse (g token), fun token => ?_⟩
  rw [typeOf, hg]
  rfl

/-- The stage of a piece, each of whose types is read from what the chain makes of its token. -/
def Stage.ReadBy (chain : List Macro) (p : Piece) (stage : Stage) : Prop :=
  ∃ o, outline p.text = .ok o ∧ stage.dependent = o.dependent
    ∧ List.Forall₂ (fun token type => ∃ t, Chain.apply chain token = .ok t ∧ type = .parse t)
      o.tokens stage.types

theorem Stage.readBy_of_readWith {r : Registry} {p : Piece} {stage : Stage}
    (h : readWith r.typeOf p.text = .ok stage) : stage.ReadBy r.typeLevel p := by
  obtain ⟨o, ho, h⟩ := bind_eq_ok.1 h
  obtain ⟨types, htypes, h⟩ := bind_eq_ok.1 h
  injection h with h
  rw [mapM_eq_ok_iff] at htypes
  rw [← h]
  refine ⟨o, ho, rfl, htypes.imp fun token type ht => ?_⟩
  obtain ⟨t, ht, hp⟩ := bind_eq_ok.1 ht
  injection hp with hp
  exact ⟨t, ht, hp.symm⟩

/-- Two readers that never fail are refused alike, or give signatures of the same shape. -/
theorem Signature.same_shape_of_total {read read' : Text → Except ParseError TypeDescriptor}
    {f f' : Text → TypeDescriptor} (h : ∀ token, read token = .ok (f token))
    (h' : ∀ token, read' token = .ok (f' token)) (requireOutput : Bool) (t : Text) :
    (∃ e, parseWith requireOutput read t = .error e ∧ parseWith requireOutput read' t = .error e)
      ∨ ∃ s s', parseWith requireOutput read t = .ok s ∧ parseWith requireOutput read' t = .ok s'
        ∧ s.shape = s'.shape := by
  rw [parseWith_of_total h, parseWith_of_total h']
  rcases frame requireOutput t with e | os
  · exact .inl ⟨e, rfl, rfl⟩
  · exact .inr ⟨_, _, rfl, rfl, by rw [shape_withTypes, shape_withTypes]⟩

/-- The rules without macros for type tokens. -/
def Rules.withoutTypeMacros (r : Rules) : Rules :=
  { r with macros := { r.macros with typeLevel := [] } }

namespace Parser

variable {p : Parser} {t u : Text}

theorem result_of_sound (hp : p.Sound) (hu : Chain.apply p.rules.macros.signatureLevel t = .ok u) :
    (p.parseSignature t).1
      = Signature.parseWith p.rules.options.requireOutput p.rules.macros.typeOf u := by
  rw [parseSignature, (read_spec hp (Rules.yields_parseSignature t)).1, Registry.signatureOf, hu]
  rfl

/-- A parser whose kept types are right reads the text, unless it keeps a signature for it. -/
theorem result_of_parsed (hp : p.journal.cache.types.Parsed)
    (hu : Chain.apply p.rules.macros.signatureLevel t = .ok u) :
    (p.parseSignature t).1
        = Signature.parseWith p.rules.options.requireOutput p.rules.macros.typeOf u
      ∨ ∃ s, p.journal.cache.signatures.find? u = some s ∧ (p.parseSignature t).1 = .ok s := by
  rw [← Rules.recordSignature_result]
  rcases hm : p.rules.options.memoize with _ | _
  · left
    refine ((Rules.follows_parseSignature hm t).run hp).1.trans ?_
    rw [hu]
    rfl
  · rcases hs : p.journal.cache.signatures.find? u with _ | s
    · exact .inl (Rules.run_parseSignature_of_new hm hp hu hs).1
    · exact .inr ⟨s, rfl, (Rules.run_parseSignature_of_kept hm hu hs).1⟩

/-- With the macros for type tokens taken away, a parser reads without them or answers as before.
The latter can happen only if it kept signatures that were read with them. -/
theorem result_without_typeMacros {q : Parser} (hp : p.Sound)
    (hu : Chain.apply p.rules.macros.signatureLevel t = .ok u)
    (hq : q.rules = p.rules.withoutTypeMacros) (hj : q.journal = p.journal ∨ q.Sound) :
    (q.parseSignature t).1
        = Signature.parseWith p.rules.options.requireOutput q.rules.macros.typeOf u
      ∨ (q.parseSignature t).1 = (p.parseSignature t).1 := by
  have hu' : Chain.apply q.rules.macros.signatureLevel t = .ok u := by
    rw [hq]
    exact hu
  have hoptions : q.rules.options = p.rules.options := by
    rw [hq]
    rfl
  rw [← hoptions]
  rcases hj with hj | hsound
  · have hparsed : q.journal.cache.types.Parsed := by
      rw [hj]
      exact hp.types
    refine (result_of_parsed hparsed hu').imp id ?_
    rintro ⟨s, hs, hresult⟩
    rw [hj] at hs
    rw [hresult, result_of_sound hp hu, hp.signatures u s (Rules.mem_of_find? hs)]
  · exact .inl (result_of_sound hsound hu')

theorem readBy_of_result {s : Signature} (hp : p.Sound)
    (hu : Chain.apply p.rules.macros.signatureLevel t = .ok u)
    (hs : (p.parseSignature t).1 = .ok s) : List.Forall₂
      (fun piece stage => stage.ReadBy p.rules.macros.typeLevel piece)
      (Piece.split (· == .arrow) u) s.stages := by
  rw [result_of_sound hp hu] at hs
  exact (Signature.parseWith_eq_ok_iff.1 hs).2.imp fun piece stage => Stage.readBy_of_readWith

/-- With macros for type tokens that always give texts, a signature is refused as it is without
them, or it has the same structure; and each type is read from what the macros make of its token. -/
theorem structure_of_typeMacros (options : Options) (ops : List Operation) (p q : Parser)
    (hp : p = ((new options).run ops).2)
    (hq : q.rules = p.rules.withoutTypeMacros)
    (hj : q.journal = p.journal ∨ ∃ ops', q = ((new options).run ops').2)
    (hchain : ∀ m ∈ p.rules.macros.typeLevel, ∀ t, ∃ u, m t = .text u)
    (t u : Text) (hu : Chain.apply p.rules.macros.signatureLevel t = .ok u) :
    (∃ e, (p.parseSignature t).1 = .error e ∧ (q.parseSignature t).1 = .error e)
      ∨ ∃ s s', (p.parseSignature t).1 = .ok s ∧ (q.parseSignature t).1 = .ok s'
        ∧ s.shape = s'.shape
        ∧ List.Forall₂ (fun piece stage => stage.ReadBy p.rules.macros.typeLevel piece)
          (Piece.split (· == .arrow) u) s.stages := by
  have hreached : ∀ ops, ((new options).run ops).2.Sound :=
    fun ops => (run_spec ops (sound_new options)).2.2
  have hsound : p.Sound := by
    rw [hp]
    exact hreached ops
  have hother := result_without_typeMacros hsound hu hq
    (hj.imp id fun ⟨ops', hops'⟩ => by rw [hops']; exact hreached ops')
  -- both readers of tokens are total, so the outlines decide
  obtain ⟨f, hf⟩ := Registry.exists_typeOf hchain
  have hf' : ∀ token, q.rules.macros.typeOf token = .ok (.parse token) := by
    rw [hq]
    exact fun token => rfl
  rcases hother with hother | hother
  · rcases Signature.same_shape_of_total hf hf' p.rules.options.requireOutput u with
      ⟨e, he, he'⟩ | ⟨s, s', hs, hs', hshape⟩
    · exact .inl ⟨e, (result_of_sound hsound hu).trans he, hother.trans he'⟩
    · have hs := (result_of_sound hsound hu).trans hs
      exact .inr ⟨s, s', hs, hother.trans hs', hshape, readBy_of_result hsound hu hs⟩
  · rcases hs : (p.parseSignature t).1 with e | s
    · exact .inl ⟨e, rfl, hother.trans hs⟩
    · exact .inr ⟨s, s, rfl, hother.trans hs, rfl, readBy_of_result hsound hu hs⟩

/-- A macro that puts `=>,<` in front of every token leaves `a,b=>c` with two types and one, also
when it is taken away and the signature is still kept. -/
theorem structure_of_typeMacros_arrow_text : ∃ p q : Parser,
    p = ((new {}).run [.register .typeToken (Macro.wrap ['=', '>', ',', '<'] []),
        .parseSignature ['a', ',', 'b', '=', '>', 'c']]).2
      ∧ q = ⟨p.rules.withoutTypeMacros, p.journal⟩
      ∧ ∃ s s', (p.parseSignature ['a', ',', 'b', '=', '>', 'c']).1 = .ok s
        ∧ (q.parseSignature ['a', ',', 'b', '=', '>', 'c']).1 = .ok s'
        ∧ s.shape = s'.shape ∧ s.shape = [(2, none), (1, none)] := by
  let p := ((new {}).run [.register .typeToken (Macro.wrap ['=', '>', ',', '<'] []),
    .parseSignature ['a', ',', 'b', '=', '>', 'c']]).2
  refine ⟨p, ⟨p.rules.withoutTypeMacros, p.journal⟩, rfl, rfl, ?_⟩
  have hchain : ∀ m ∈ p.rules.macros.typeLevel, ∀ t, ∃ u, m t = .text u := by
    intro m hm t
    obtain rfl := List.mem_singleton.1 hm
    exact ⟨_, rfl⟩
  have hshape : (p.parseSignature ['a', ',', 'b', '=', '>', 'c']).1.map Signature.shape
      = .ok [(2, none), (1, none)] := by rfl
  rcases structure_of_typeMacros {} _ p ⟨p.rules.withoutTypeMacros, p.journal⟩ rfl rfl (.inl rfl)
    hchain ['a', ',', 'b', '=', '>', 'c'] _ rfl with ⟨e, he, -⟩ | ⟨s, s', hs, hs', hsame, -⟩
  · rw [he] at hshape
    injection hshape
  · rw [hs] at hshape
    injection hshape with hshape
    exact ⟨s, s', hs, hs', hsame, hshape⟩

end Parser

end TypeSig
