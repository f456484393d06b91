import TypeSig.Parser
import TypeSig.Proofs.Outlines

/-!
# Kept results are the results

A parser that keeps results answers as one that keeps none (`answers_of_run`). Both answer as a
reader without memory, which applies the macros that are registered so far and reads on.

A cache is `Sound` under some rules if every kept value is the one that would be read again. A
reading `Yields` a result if it gives this result from every sound cache and leaves a sound cache.
The readings of a parser yield what the reader without memory gives, one step at a time
(`yields_parseType`, `yields_parseSignature`). Between two readings only a macro for type tokens can
make a kept value wrong, and it makes only signatures so, which are cleared then (`perform_spec`).
-/

namespace TypeSig

namespace Registry

variable (r : Registry)

/-- What a type token is read as. -/
def typeOf (token : Text) : Except ParseError TypeDescriptor := do
  return .parse (← Chain.apply r.typeLevel token)

def stageOf (t : Text) : Except ParseError Stage := Stage.readWith r.typeOf t

def signatureOf (requireOutput : Bool) (t : Text) : Except ParseError Signature := do
  Signature.parseWith requireOutput r.typeOf (← Chain.apply r.signatureLevel t)

end Registry

namespace Operation

/-- The macro that an operation registers at a level. -/
def registered? (level : Level) : Operation → Option Macro
  | register level' m => if level' = level then some m else none
  | _ => none

/-- What a reader without memory answers, when the macros `r` are registered. -/
def answer (requireOutput : Bool) (r : Registry) : Operation → Answer
  | register _ _ | clearCache => .done
  | parseType token => .type (r.typeOf token)
  | parseStage t => .stage (r.stageOf t)
  | parseSignature t => .signature (r.signatureOf requireOutput t)

end Operation

/-- The registered macros after some operations. -/
def Registry.extend (r : Registry) (ops : List Operation) : Registry :=
  ⟨r.typeLevel ++ ops.filterMap (Operation.registered? .typeToken),
    r.signatureLevel ++ ops.filterMap (Operation.registered? .signature)⟩

/-- Every kept type is the one that its key reads as, and every kept signature the one that its key
reads as with the macros for type tokens. -/
structure Cache.Sound (r : Rules) (c : Cache) : Prop where
  types : ∀ key type, (key, type) ∈ c.types.entries → type = .parse key
  signatures : ∀ key signature, (key, signature) ∈ c.signatures.entries →
    Signature.parseWith r.options.requireOutput r.macros.typeOf key = .ok signature

namespace Rules

variable {α β : Type} {r : Rules}

/-- From every sound cache a reading gives `result`, and leaves a sound cache. -/
def Yields (r : Rules) (x : Reading α) (result : Except ParseError α) : Prop :=
  ∀ j : Journal, j.cache.Sound r →
    (x.run.run j).1 = result ∧ (x.run.run j).2.cache.Sound r

/-! ## Readings step by step -/

theorem yields_pure (a : α) : r.Yields (pure a) (.ok a) := fun _ h => ⟨rfl, h⟩

theorem yields_ofExcept (x : Except ParseError α) : r.Yields (ofExcept x) x := by
  intro j h
  rcases x with e | a <;> exact ⟨rfl, h⟩

theorem Yields.note {x : Reading α} {result : Except ParseError α} (hx : r.Yields x result)
    (events : List Event) : r.Yields (do Reading.note events; x) result := by
  intro j h
  rw [Reading.run_bind, Reading.run_note]
  exact hx _ h

theorem Yields.bind {x : Reading α} {result : Except ParseError α} {f : α → Reading β}
    {g : α → Except ParseError β} (hx : r.Yields x result) (hf : ∀ a, r.Yields (f a) (g a)) :
    r.Yields (x >>= f) (result >>= g) := by
  intro j h
  obtain ⟨hr, hs⟩ := hx j h
  rw [Reading.run_bind]
  rcases hrun : x.run.run j with ⟨e | a, j'⟩ <;> rw [hrun] at hr hs <;> rw [← hr]
  · exact ⟨rfl, hs⟩
  · exact hf a j' hs

theorem Yields.mapM {f : α → Reading β} {g : α → Except ParseError β}
    (h : ∀ a, r.Yields (f a) (g a)) : ∀ xs : List α, r.Yields (xs.mapM f) (xs.mapM g)
  | [] => by
    rw [List.mapM_nil, List.mapM_nil]
    exact yields_pure []
  | x :: xs => by
    rw [List.mapM_cons, List.mapM_cons]
    exact (h x).bind fun b => (Yields.mapM h xs).bind fun bs => yields_pure (b :: bs)

/-- Reading through a memo yields what building yields, if the memo holds nothing else under the
key. -/
theorem Yields.remembering {table : Table α} {key : Text} {build : Reading α}
    {result : Except ParseError α} (hbuild : r.Yields build result)
    (hfind : ∀ c a, c.Sound r → (table.memo c).find? key = some a → result = .ok a)
    (hhit : ∀ c, c.Sound r → (table.update Memo.hit c).Sound r)
    (hstore : ∀ c a, c.Sound r → result = .ok a → (table.update (Memo.store key a) c).Sound r) :
    r.Yields (r.remembering table key build) result := by
  unfold Rules.remembering
  split_ifs
  · intro j h
    rw [Reading.run_remember]
    rcases hf : (table.memo j.cache).find? key with _ | a
    · obtain ⟨hr, hs⟩ := hbuild j h
      rcases hrun : build.run.run j with ⟨e | a, j'⟩ <;> rw [hrun] at hr hs
      · exact ⟨hr, hs⟩
      · exact ⟨hr, hstore _ _ hs hr.symm⟩
    · exact ⟨(hfind _ _ h hf).symm, hhit _ h⟩
  · exact hbuild

/-! ## The readings of a parser -/

theorem yields_expand (level : Level) (t : Text) :
    r.Yields (r.expand level t) (Chain.apply (r.macros.chain level) t) :=
  (yields_ofExcept _).note _

theorem mem_of_find? {key : Text} {m : Memo α} {a : α} (h : m.find? key = some a) :
    (key, a) ∈ m.entries := by
  obtain ⟨l, l', hl, -⟩ := List.lookup_eq_some_iff.1 h
  simp [hl]

theorem yields_parseType (token : Text) : r.Yields (r.parseType token) (r.macros.typeOf token) := by
  refine (yields_expand .typeToken token).bind fun t => ?_
  refine (yields_pure (TypeDescriptor.parse t)).remembering ?_ ?_ ?_
  · intro c a hc hf
    rw [hc.types t a (mem_of_find? hf)]
  · exact fun c hc => ⟨hc.types, hc.signatures⟩
  · rintro c a hc ha
    injection ha with ha
    refine ⟨fun key type hm => ?_, hc.signatures⟩
    rcases List.mem_cons.1 hm with hm | hm
    · obtain ⟨rfl, rfl⟩ : key = t ∧ type = a := by simpa using hm
      exact ha.symm
    · exact hc.types key type hm

theorem yields_fill (o : Stage.Outline) : r.Yields (o.fill r.parseType) (o.fill r.macros.typeOf) :=
  (Yields.mapM yields_parseType o.tokens).bind fun types => yields_pure (Stage.mk types o.dependent)

theorem yields_parseStage (t : Text) : r.Yields (r.parseStage t) (r.macros.stageOf t) :=
  (yields_ofExcept (Stage.outline t)).bind yields_fill

theorem yields_parseWith (requireOutput : Bool) (t : Text) :
    r.Yields (Signature.parseWith requireOutput r.parseType t)
      (Signature.parseWith requireOutput r.macros.typeOf t) := by
  unfold Signature.parseWith Signature.fill
  simp only [ofExcept_eq]
  refine (yields_ofExcept _).bind fun outlines => ?_
  refine (Yields.mapM (fun o => ?_) outlines).bind fun stages => yields_pure (Signature.mk stages)
  exact (yields_ofExcept o).bind yields_fill

theorem yields_parseSignature (t : Text) : r.Yields (r.parseSignature t)
    (r.macros.signatureOf r.options.requireOutput t) := by
  refine (yields_expand .signature t).bind fun u => ?_
  refine Yields.note ?_ [.parsingSignature u]
  refine (yields_parseWith r.options.requireOutput u).remembering ?_ ?_ ?_
  · exact fun c a hc hf => hc.signatures u a (mem_of_find? hf)
  · exact fun c hc => ⟨hc.types, hc.signatures⟩
  · rintro c a hc ha
    refine ⟨hc.types, fun key signature hm => ?_⟩
    rcases List.mem_cons.1 hm with hm | hm
    · obtain ⟨rfl, rfl⟩ : key = u ∧ signature = a := by simpa using hm
      exact ha
    · exact hc.signatures key signature hm

end Rules

/-! ## Operations -/

namespace Registry

theorem extend_nil (r : Registry) : r.extend [] = r := by
  simp [extend]

theorem extend_eq_self {o : Operation} (h : ∀ level, o.registered? level = none) (r : Registry) :
    r.extend [o] = r := by
  simp [extend, h]

theorem extend_cons (r : Registry) (o : Operation) (ops : List Operation) :
    r.extend (o :: ops) = (r.extend [o]).extend ops := by
  simp only [extend, ← List.singleton_append (l := ops), List.filterMap_append, List.append_assoc]

end Registry

namespace Parser

def Sound (p : Parser) : Prop := p.journal.cache.Sound p.rules

theorem sound_new (options : Options) : (new options).Sound :=
  ⟨fun _ _ h => by simp [new] at h, fun _ _ h => by simp [new] at h⟩

theorem read_spec {α : Type} {p : Parser} {x : Reading α} {result : Except ParseError α}
    (hp : p.Sound) (hx : p.rules.Yields x result) :
    (p.read x).1 = result ∧ (p.read x).2.rules = p.rules ∧ (p.read x).2.Sound :=
  ⟨(hx p.journal hp).1, rfl, (hx p.journal hp).2⟩

/-- One operation: the answer of the reader without memory, the macros with the one that is
registered, and a sound cache. -/
theorem perform_spec {p : Parser} (hp : p.Sound) : ∀ o : Operation,
    (p.perform o).1 = o.answer p.rules.options.requireOutput p.rules.macros
      ∧ (p.perform o).2.rules = ⟨p.rules.options, p.rules.macros.extend [o]⟩
      ∧ (p.perform o).2.Sound
  | .register .typeToken m => by
    refine ⟨rfl, ?_, ⟨hp.types, fun _ _ h => ?_⟩⟩
    · simp [perform, register, note, updateCache, Registry.register, Registry.extend,
        Operation.registered?]
    · simp [perform, register, updateCache, Cache.clearSignatures, Memo.clear] at h
  | .register .signature m => by
    refine ⟨rfl, ?_, ⟨hp.types, hp.signatures⟩⟩
    simp [perform, register, note, Registry.register, Registry.extend, Operation.registered?]
  | .parseType token => by
    obtain ⟨hr, hrules, hs⟩ := read_spec hp (Rules.yields_parseType token)
    refine ⟨congrArg Answer.type hr, hrules.trans ?_, hs⟩
    rw [Registry.extend_eq_self fun _ => rfl]
  | .parseStage t => by
    obtain ⟨hr, hrules, hs⟩ := read_spec hp (Rules.yields_parseStage t)
    refine ⟨congrArg Answer.stage hr, hrules.trans ?_, hs⟩
    rw [Registry.extend_eq_self fun _ => rfl]
  | .parseSignature t => by
    obtain ⟨hr, hrules, hs⟩ := read_spec hp (Rules.yields_parseSignature t)
    refine ⟨congrArg Answer.signature hr, hrules.trans ?_, hs⟩
    rw [Registry.extend_eq_self fun _ => rfl]
  | .clearCache => by
    refine ⟨rfl, ?_, ⟨fun _ _ h => ?_, fun _ _ h => ?_⟩⟩
    · rw [Registry.extend_eq_self fun _ => rfl]
      rfl
    · simp [perform, clearCache, updateCache, Cache.clear, Memo.clear] at h
    · simp [perform, clearCache, updateCache, Cache.clear, Memo.clear] at h

theorem run_spec : ∀ (ops : List Operation) {p : Parser}, p.Sound →
    (∀ i, (p.run ops).1[i]? = ops[i]?.map
        (Operation.answer p.rules.options.requireOutput (p.rules.macros.extend (ops.take i))))
      ∧ (p.run ops).2.rules = ⟨p.rules.options, p.rules.macros.extend ops⟩
      ∧ (p.run ops).2.Sound
  | [], p, hp => by
    refine ⟨fun i => by simp [run], ?_, hp⟩
    rw [Registry.extend_nil]
    rfl
  | o :: ops, p, hp => by
    obtain ⟨hanswer, hrules, hsound⟩ := perform_spec hp o
    obtain ⟨ihanswers, ihrules, ihsound⟩ := run_spec ops hsound
    rw [hrules] at ihanswers ihrules
    refine ⟨fun i => ?_, ?_, ihsound⟩
    · rcases i with _ | i
      · simp [run, hanswer, Registry.extend_nil]
      · rw [List.take_succ_cons, Registry.extend_cons]
        exact ihanswers i
    · rw [Registry.extend_cons]
      exact ihrules

/-- Whether results are kept cannot be told from the answers. Each of them is that of a reader
without memory with the macros that are registered by then, and every kept value is the one that
would be read again. -/
theorem answers_of_run (requireOutput : Bool) (ops : List Operation) :
    ((new ⟨requireOutput, true⟩).run ops).1 = ((new ⟨requireOutput, false⟩).run ops).1
      ∧ ∀ memoize,
        (∀ i, ((new ⟨requireOutput, memoize⟩).run ops).1[i]? = ops[i]?.map
          (Operation.answer requireOutput (Registry.extend {} (ops.take i))))
        ∧ ((new ⟨requireOutput, memoize⟩).run ops).2.rules
          = ⟨⟨requireOutput, memoize⟩, Registry.extend {} ops⟩
        ∧ ((new ⟨requireOutput, memoize⟩).run ops).2.journal.cache.Sound
          ⟨⟨requireOutput, memoize⟩, Registry.extend {} ops⟩ := by
  have hrun := fun memoize => run_spec ops (sound_new ⟨requireOutput, memoize⟩)
  refine ⟨List.ext_getElem? fun i => ?_, fun memoize => ?_⟩
  · exact ((hrun true).1 i).trans ((hrun false).1 i).symm
  · obtain ⟨hanswers, hrules, hsound⟩ := hrun memoize
    refine ⟨hanswers, hrules, ?_⟩
    rw [Sound, hrules] at hsound
    exact hsound

end Parser

end TypeSig
