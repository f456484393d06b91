import Mathlib.Algebra.Ring.Nat
import Mathlib.Data.List.Dedup
import TypeSig.Proofs.Structure
import TypeSig.Proofs.TypeTexts

/-!
# What each operation does to the cache

`CacheEffects` says for each operation what it does to the two tables and the four counts, and
`cache_of_run` that it holds in every state of a parser that keeps results.

Reading a type or a stage only sends the recorded texts through the memo of types. A signature that
is not kept is read in the same way, and the memo of signatures changes only after that, and only if
all of its types were read (`cacheAfter_parseSignature`). So a signature that is refused in the
middle leaves the types before the fault, and nothing else.

While the cache is never cleared, the table of types has one entry, and one miss was counted, for
each text that was ever read as a type (`Memo.Tallies`). A signature that is kept is not read again,
and its texts are in the table already; this is what `Cache.Tallied` adds, and a new macro for type
tokens does not break it, since it clears the kept signatures.
-/

namespace TypeSig

/-! ## Counting -/

namespace Memo

/-- How often a value was handed out. -/
def uses {α : Type} (m : Memo α) : Nat := m.hits + m.misses

theorem uses_readType (m : Memo TypeDescriptor) (t : Text) :
    (m.readType t).uses = m.uses + 1 := by
  unfold readType
  split_ifs
  · exact Nat.add_right_comm _ _ _
  · exact (Nat.add_assoc _ _ _).symm

theorem mem_keys_readType {m : Memo TypeDescriptor} {t u : Text} :
    u ∈ (m.readType t).keys ↔ u ∈ m.keys ∨ u = t := by
  unfold readType
  split_ifs with h
  · constructor
    · exact .inl
    · rintro (hu | rfl)
      · exact hu
      · exact h
  · rw [or_comm]
    exact List.mem_cons

end Memo

theorem Rules.uses_readTypes {r : Rules} (hm : r.options.memoize = true)
    (m : Memo TypeDescriptor) (ts : List Text) :
    (r.readTypes m ts).uses = m.uses + ts.length := by
  rw [readTypes, if_pos hm]
  induction ts generalizing m with
  | nil => rfl
  | cons t ts ih =>
    rw [List.foldl_cons, ih, Memo.uses_readType, List.length_cons, Nat.add_assoc, Nat.add_comm 1]

/-- The table of types has one entry for each text that was read, and each was one miss. -/
structure Memo.Tallies (m : Memo TypeDescriptor) (ts : List Text) : Prop where
  misses_eq : m.misses = m.entries.length
  nodup : m.keys.Nodup
  mem_keys : ∀ t, t ∈ m.keys ↔ t ∈ ts

theorem Memo.Tallies.readType {m : Memo TypeDescriptor} {ts : List Text} (h : m.Tallies ts)
    (t : Text) : (m.readType t).Tallies (ts ++ [t]) := by
  refine ⟨?_, ?_, fun u => ?_⟩
  · unfold Memo.readType
    split_ifs
    · exact h.misses_eq
    · exact congrArg (· + 1) h.misses_eq
  · unfold Memo.readType
    split_ifs with hk
    · exact h.nodup
    · exact List.nodup_cons.2 ⟨hk, h.nodup⟩
  · rw [Memo.mem_keys_readType, h.mem_keys, List.mem_append, List.mem_singleton]

theorem Memo.Tallies.foldl {m : Memo TypeDescriptor} {ts : List Text} (h : m.Tallies ts) :
    ∀ us : List Text, (us.foldl Memo.readType m).Tallies (ts ++ us)
  | [] => by rwa [List.append_nil]
  | u :: us => by
    rw [← List.singleton_append, ← List.append_assoc]
    exact Memo.Tallies.foldl (h.readType u) us

theorem Memo.Tallies.length_eq {m : Memo TypeDescriptor} {ts : List Text} (h : m.Tallies ts) :
    m.entries.length = ts.dedup.length := by
  have hp : m.keys.Perm ts.dedup := by
    refine (List.perm_ext_iff_of_nodup h.nodup ts.nodup_dedup).2 fun t => ?_
    rw [h.mem_keys, List.mem_dedup]
  rw [← hp.length_eq, Memo.keys, List.length_map]

namespace Recording

variable {α β : Type}

/-- When the recording succeeds, it lists `size a` texts for the result `a`. -/
def Counts (x : Recording α) (size : α → Nat) : Prop :=
  ∀ ts a, (x.run.run ts).1 = .ok a → (x.run.run ts).2.length = ts.length + size a

theorem counts_ofExcept_bind {x : Except ParseError α} {f : α → Recording β} {size : β → Nat}
    (h : ∀ a, (f a).Counts size) : Counts (do f (← ofExcept x)) size := by
  intro ts b hb
  rcases x with e | a
  · rw [run_bind] at hb
    injection hb
  · rw [run_bind] at hb ⊢
    exact h a ts b hb

theorem Counts.map {x : Recording α} {g : α → β} {size : α → Nat} {size' : β → Nat}
    (h : x.Counts size) (hg : ∀ a, size' (g a) = size a) :
    Counts (do return g (← x)) size' := by
  intro ts b hb
  rw [run_bind] at hb ⊢
  rcases hx : x.run.run ts with ⟨e | a, ts'⟩ <;> rw [hx] at hb
  · injection hb
  · injection hb with hb
    have := h ts a (by rw [hx])
    rw [hx] at this
    rw [← hb, hg]
    exact this

theorem Counts.mapM {f : α → Recording β} {size : β → Nat} (h : ∀ a, (f a).Counts size) :
    ∀ xs : List α, (xs.mapM f).Counts fun bs => (bs.map size).sum
  | [] => by
    intro ts bs hbs
    rw [List.mapM_nil] at hbs ⊢
    injection hbs with hbs
    rw [← hbs]
    rfl
  | x :: xs => by
    intro ts bs hbs
    rw [List.mapM_cons, run_bind] at hbs ⊢
    rcases hx : (f x).run.run ts with ⟨e | b, ts'⟩ <;> rw [hx] at hbs
    · injection hbs
    · have hb := h x ts b (by rw [hx])
      rw [hx] at hb
      simp only [run_bind] at hb hbs ⊢
      rcases hxs : (xs.mapM f).run.run ts' with ⟨e | bs', ts''⟩ <;> rw [hxs] at hbs
      · injection hbs
      · injection hbs with hbs
        have hbs' := Counts.mapM h xs ts' bs' (by rw [hxs])
        rw [hxs] at hbs'
        simp only at hbs'
        rw [← hbs, List.map_cons, List.sum_cons]
        change ts''.length = _
        omega

theorem Counts.length_texts {x : Recording α} {size : α → Nat} {a : α} (h : x.Counts size)
    (ha : (x.run.run []).1 = .ok a) : x.texts.length = size a := by
  rw [texts, h [] a ha, List.length_nil, Nat.zero_add]

end Recording

/-- The number of types in a signature. -/
def Signature.typeCount (s : Signature) : Nat := (s.stages.map fun stage => stage.types.length).sum

namespace Registry

open Recording

variable (r : Registry)

theorem counts_record (token : Text) : (r.record token).Counts fun _ => 1 := by
  refine counts_ofExcept_bind fun t ts d _ => ?_
  exact List.length_append

theorem texts_record_of_ok {token t : Text} (h : Chain.apply r.typeLevel token = .ok t) :
    (r.record token).texts = [t] := by
  rw [record, h]
  rfl

theorem texts_record_of_error {token : Text} {e : ParseError}
    (h : Chain.apply r.typeLevel token = .error e) : (r.record token).texts = [] := by
  rw [record, h]
  rfl

theorem counts_fill (o : Stage.Outline) :
    Counts (o.fill r.record) fun stage => stage.types.length := by
  refine (Counts.mapM r.counts_record o.tokens).map fun types => ?_
  simp

end Registry

theorem Rules.counts_recordStage (r : Rules) (t : Text) :
    (r.recordStage t).Counts fun stage => stage.types.length :=
  Recording.counts_ofExcept_bind r.macros.counts_fill

theorem Rules.counts_recordSignature (r : Rules) (t : Text) :
    (r.recordSignature t).Counts Signature.typeCount := by
  refine Recording.counts_ofExcept_bind fun outlines => ?_
  refine (Recording.Counts.mapM (fun o => ?_) outlines).map fun stages => rfl
  exact Recording.counts_ofExcept_bind r.macros.counts_fill

/-! ## One operation -/

namespace Operation

/-- The texts that an operation reads as types, if nothing is kept. -/
def texts (r : Rules) : Operation → List Text
  | register _ _ | clearCache => []
  | parseType token => (r.macros.record token).texts
  | parseStage t => (r.recordStage t).texts
  | parseSignature t => Recording.texts do
    r.recordSignature (← ofExcept (Chain.apply r.macros.signatureLevel t))

/-- The texts that a sequence of operations reads as types, if nothing is kept. -/
def textsOf (r : Rules) : List Operation → List Text
  | [] => []
  | o :: ops => o.texts r ++ textsOf ⟨r.options, r.macros.extend [o]⟩ ops

end Operation

namespace Parser

abbrev cache (p : Parser) : Cache := p.journal.cache

/-- The cache after an operation. -/
def cacheAfter (p : Parser) (o : Operation) : Cache := (p.perform o).2.cache

/-- What each operation does to the tables and to the counts of a parser that keeps results. -/
structure CacheEffects (p : Parser) : Prop where
  type_failed : ∀ token e, Chain.apply p.rules.macros.typeLevel token = .error e →
    p.cacheAfter (.parseType token) = p.cache
  type_kept : ∀ token t, Chain.apply p.rules.macros.typeLevel token = .ok t →
    t ∈ p.cache.types.keys → p.cacheAfter (.parseType token) =
      { p.cache with types := { p.cache.types with hits := p.cache.types.hits + 1 } }
  type_new : ∀ token t, Chain.apply p.rules.macros.typeLevel token = .ok t →
    t ∉ p.cache.types.keys → p.cacheAfter (.parseType token) =
      { p.cache with
        types := { p.cache.types with
          entries := (t, .parse t) :: p.cache.types.entries
          misses := p.cache.types.misses + 1 } }
  stage_signatures : ∀ t, (p.cacheAfter (.parseStage t)).signatures = p.cache.signatures
  stage_uses : ∀ t stage, (p.parseStage t).1 = .ok stage →
    (p.cacheAfter (.parseStage t)).types.uses = p.cache.types.uses + stage.types.length
  signature_failed : ∀ t e, Chain.apply p.rules.macros.signatureLevel t = .error e →
    p.cacheAfter (.parseSignature t) = p.cache
  signature_missing : ∀ t, (p.parseSignature t).1 = .error .missingOutput →
    p.cacheAfter (.parseSignature t) = p.cache
  signature_kept : ∀ t u, Chain.apply p.rules.macros.signatureLevel t = .ok u →
    u ∈ p.cache.signatures.keys → p.cacheAfter (.parseSignature t) =
      { p.cache with
        signatures := { p.cache.signatures with hits := p.cache.signatures.hits + 1 } }
  signature_refused : ∀ t e, (p.parseSignature t).1 = .error e →
    (p.cacheAfter (.parseSignature t)).signatures = p.cache.signatures
  signature_new : ∀ t u s, Chain.apply p.rules.macros.signatureLevel t = .ok u →
    u ∉ p.cache.signatures.keys → (p.parseSignature t).1 = .ok s →
      (p.cacheAfter (.parseSignature t)).signatures =
          { p.cache.signatures with
            entries := (u, s) :: p.cache.signatures.entries
            misses := p.cache.signatures.misses + 1 }
        ∧ (p.cacheAfter (.parseSignature t)).types.uses = p.cache.types.uses + s.typeCount
  clear : p.cacheAfter .clearCache =
    ⟨{ p.cache.types with entries := [] }, { p.cache.signatures with entries := [] }⟩
  register_stats : ∀ level m, (p.cacheAfter (.register level m)).stats = p.cache.stats
  register_type : ∀ m, p.cacheAfter (.register .typeToken m) =
    { p.cache with signatures := { p.cache.signatures with entries := [] } }
  register_signature : ∀ m, p.cacheAfter (.register .signature m) = p.cache

variable {p : Parser}

theorem cacheAfter_parseType (hp : p.Sound) (token : Text) : p.cacheAfter (.parseType token) =
    { p.cache with
      types := p.rules.readTypes p.cache.types (p.rules.macros.record token).texts } :=
  ((Rules.follows_parseType token).run hp.types).2

theorem cacheAfter_parseStage (hp : p.Sound) (t : Text) : p.cacheAfter (.parseStage t) =
    { p.cache with types := p.rules.readTypes p.cache.types (p.rules.recordStage t).texts } :=
  ((Rules.follows_parseStage t).run hp.types).2

/-- What reading a signature does to the cache: nothing if the macros fail, a hit if it is kept, and
otherwise what reading its types does, and keeping it if it could be read. -/
theorem cacheAfter_parseSignature (hm : p.rules.options.memoize = true) (hp : p.Sound) (t : Text) :
    (∃ e, Chain.apply p.rules.macros.signatureLevel t = .error e
      ∧ (p.parseSignature t).1 = .error e ∧ p.cacheAfter (.parseSignature t) = p.cache)
    ∨ ∃ u, Chain.apply p.rules.macros.signatureLevel t = .ok u ∧
      ((∃ s, p.cache.signatures.find? u = some s ∧ (p.parseSignature t).1 = .ok s
        ∧ p.cacheAfter (.parseSignature t) = ⟨p.cache.types, p.cache.signatures.hit⟩)
      ∨ p.cache.signatures.find? u = none
        ∧ (p.parseSignature t).1 = ((p.rules.recordSignature u).run.run []).1
        ∧ p.cacheAfter (.parseSignature t) =
          ⟨p.rules.readTypes p.cache.types (p.rules.recordSignature u).texts,
            match (p.parseSignature t).1 with
            | .ok s => p.cache.signatures.store u s
            | .error _ => p.cache.signatures⟩) := by
  rcases hu : Chain.apply p.rules.macros.signatureLevel t with e | u
  · exact .inl ⟨e, rfl, Rules.run_parseSignature_of_error p.journal hu⟩
  · refine .inr ⟨u, rfl, ?_⟩
    rcases hs : p.cache.signatures.find? u with _ | s
    · obtain ⟨hr, hc⟩ := Rules.run_parseSignature_of_new hm hp.types hu hs
      rw [← hr] at hc
      exact .inr ⟨rfl, hr, hc⟩
    · exact .inl ⟨s, rfl, Rules.run_parseSignature_of_kept hm hu hs⟩

theorem texts_of_missingOutput {r : Rules} {u : Text}
    (h : ((r.recordSignature u).run.run []).1 = .error .missingOutput) :
    (r.recordSignature u).texts = [] := by
  rw [Rules.recordSignature_result, Signature.parseWith_eq_missingOutput_iff
    r.macros.typeOf_ne_missingOutput] at h
  obtain ⟨hr, hl⟩ := h
  rw [Rules.recordSignature, Signature.parseWith, Signature.outlines, hr]
  simp only [Bool.true_and, hl, decide_true, if_true]
  rfl

theorem cacheEffects (hm : p.rules.options.memoize = true) (hp : p.Sound) : p.CacheEffects where
  type_failed token e he := by
    rw [cacheAfter_parseType hp, Registry.texts_record_of_error _ he, Rules.readTypes_nil]
  type_kept token t ht hk := by
    rw [cacheAfter_parseType hp, Registry.texts_record_of_ok _ ht, Rules.readTypes, if_pos hm,
      List.foldl_cons, List.foldl_nil, Memo.readType, if_pos hk]
    rfl
  type_new token t ht hk := by
    rw [cacheAfter_parseType hp, Registry.texts_record_of_ok _ ht, Rules.readTypes, if_pos hm,
      List.foldl_cons, List.foldl_nil, Memo.readType, if_neg hk]
    rfl
  stage_signatures t := by rw [cacheAfter_parseStage hp]
  stage_uses t stage hs := by
    have hr : (p.parseStage t).1 = ((p.rules.recordStage t).run.run []).1 :=
      ((Rules.follows_parseStage t).run hp.types).1
    rw [hr] at hs
    rw [cacheAfter_parseStage hp, Rules.uses_readTypes hm,
      (p.rules.counts_recordStage t).length_texts hs]
  signature_failed t e he := (Rules.run_parseSignature_of_error p.journal he).2
  signature_missing t h := by
    rcases cacheAfter_parseSignature hm hp t with
      ⟨e, -, -, hc⟩ | ⟨u, -, ⟨s, -, hr, -⟩ | ⟨-, hr, hc⟩⟩
    · exact hc
    · rw [h] at hr
      injection hr
    · rw [hc, h, texts_of_missingOutput (hr.symm.trans h), Rules.readTypes_nil]
  signature_kept t u hu hk := by
    rcases hs : p.cache.signatures.find? u with _ | s
    · exact absurd hk (Memo.find?_eq_none_iff.1 hs)
    · exact (Rules.run_parseSignature_of_kept hm hu hs).2
  signature_refused t e h := by
    rcases cacheAfter_parseSignature hm hp t with
      ⟨e, -, -, hc⟩ | ⟨u, -, ⟨s, -, hr, -⟩ | ⟨-, hr, hc⟩⟩
    · rw [hc]
    · rw [h] at hr
      injection hr
    · rw [hc, h]
  signature_new t u s hu hk hs := by
    obtain ⟨hr, hc⟩ := Rules.run_parseSignature_of_new hm hp.types hu (Memo.find?_eq_none_iff.2 hk)
    rw [← hr, show ((p.rules.parseSignature t).run.run p.journal).1 = .ok s from hs] at hc
    refine ⟨congrArg Cache.signatures hc, ?_⟩
    rw [show p.cacheAfter (.parseSignature t) = _ from hc, Rules.uses_readTypes hm,
      (p.rules.counts_recordSignature u).length_texts (hr.symm.trans hs)]
  clear := rfl
  register_stats level m := by cases level <;> rfl
  register_type m := rfl
  register_signature m := rfl

end Parser

/-! ## Sequences of operations -/

/-- The table of types holds the texts `ts`, each after one miss, and the texts of every kept
signature are among them. -/
structure Cache.Tallied (r : Rules) (c : Cache) (ts : List Text) : Prop where
  types : c.types.Tallies ts
  kept : ∀ key s, (key, s) ∈ c.signatures.entries → ∀ t ∈ (r.recordSignature key).texts, t ∈ ts

namespace Cache.Tallied

variable {r : Rules} {c : Cache} {ts : List Text}

theorem of_subset (h : c.Tallied r ts) {us : List Text} (hus : ∀ u ∈ us, u ∈ ts) :
    c.Tallied r (ts ++ us) := by
  refine ⟨⟨h.types.misses_eq, h.types.nodup, fun t => ?_⟩, fun key s hs t ht => ?_⟩
  · rw [h.types.mem_keys, List.mem_append]
    exact ⟨.inl, fun ht => ht.elim id (hus t)⟩
  · exact List.mem_append_left us (h.kept key s hs t ht)

theorem readTypes (h : c.Tallied r ts) (hm : r.options.memoize = true) (us : List Text) :
    Tallied r ⟨r.readTypes c.types us, c.signatures⟩ (ts ++ us) := by
  refine ⟨?_, fun key s hs t ht => List.mem_append_left us (h.kept key s hs t ht)⟩
  rw [Rules.readTypes, if_pos hm]
  exact h.types.foldl us

theorem store {s : Signature} {u : Text} (h : c.Tallied r ts)
    (hu : ∀ t ∈ (r.recordSignature u).texts, t ∈ ts) :
    Tallied r ⟨c.types, c.signatures.store u s⟩ ts := by
  refine ⟨h.types, fun key s' hs t ht => ?_⟩
  rcases List.mem_cons.1 hs with hs | hs
  · obtain ⟨rfl, rfl⟩ : key = u ∧ s' = s := by simpa using hs
    exact hu t ht
  · exact h.kept key s' hs t ht

end Cache.Tallied

namespace Parser

variable {p : Parser} {ts : List Text}

theorem tallied_parseSignature (hm : p.rules.options.memoize = true) (hp : p.Sound)
    (h : p.cache.Tallied p.rules ts) (t : Text) : (p.cacheAfter (.parseSignature t)).Tallied p.rules
      (ts ++ (Operation.parseSignature t).texts p.rules) := by
  rw [Operation.texts]
  rcases cacheAfter_parseSignature hm hp t with
    ⟨e, hu, -, hc⟩ | ⟨u, hu, ⟨s, hs, -, hc⟩ | ⟨-, -, hc⟩⟩ <;> rw [hc, hu]
  · exact h.of_subset fun _ ht => absurd ht List.not_mem_nil
  · -- the signature is kept, so its types were read before
    have hsub := h.of_subset (h.kept u s (Rules.mem_of_find? hs))
    exact ⟨hsub.types, hsub.kept⟩
  · have hread := h.readTypes hm (p.rules.recordSignature u).texts
    rcases (p.parseSignature t).1 with e | s
    · exact hread
    · exact hread.store fun t ht => List.mem_append_right ts ht

theorem tallied_perform (hm : p.rules.options.memoize = true) (hp : p.Sound)
    (h : p.cache.Tallied p.rules ts) : ∀ o : Operation, o ≠ .clearCache →
      (p.cacheAfter o).Tallied (p.perform o).2.rules (ts ++ o.texts p.rules)
  | .register .typeToken m, _ => by
    -- under the new rules a kept signature could list other texts, but none is kept
    refine ⟨?_, fun key s hs => absurd hs List.not_mem_nil⟩
    rw [Operation.texts, List.append_nil]
    exact h.types
  | .register .signature m, _ => by
    rw [Operation.texts, List.append_nil]
    exact ⟨h.types, h.kept⟩
  | .parseType token, _ => by
    rw [cacheAfter_parseType hp]
    exact h.readTypes hm _
  | .parseStage t, _ => by
    rw [cacheAfter_parseStage hp]
    exact h.readTypes hm _
  | .parseSignature t, _ => tallied_parseSignature hm hp h t
  | .clearCache, hne => absurd rfl hne

theorem tallied_run : ∀ (ops : List Operation) {p : Parser} {ts : List Text},
    p.rules.options.memoize = true → p.Sound → p.cache.Tallied p.rules ts →
    (∀ o ∈ ops, o ≠ .clearCache) →
      (p.run ops).2.cache.types.Tallies (ts ++ Operation.textsOf p.rules ops)
  | [], p, ts, _, _, h, _ => by
    rw [Operation.textsOf, List.append_nil]
    exact h.types
  | o :: ops, p, ts, hm, hp, h, hne => by
    obtain ⟨-, hrules, hsound⟩ := perform_spec hp o
    have hstep := tallied_perform hm hp h o (hne o List.mem_cons_self)
    have hrun := tallied_run ops (by rw [hrules]; exact hm) hsound hstep
      fun o' ho' => hne o' (List.mem_cons_of_mem _ ho')
    rw [hrules, List.append_assoc] at hrun
    exact hrun

theorem cache_of_follows {α : Type} {x : Reading α} {y : Recording α} {j : Journal} {r : Rules}
    (hm : r.options.memoize = false) (h : j.cache = {}) (hx : r.Follows x y) :
    (x.run.run j).2.cache = {} := by
  have hparsed : j.cache.types.Parsed := by
    rw [h]
    exact fun _ _ hd => absurd hd List.not_mem_nil
  rw [(hx.run hparsed).2, Rules.readTypes, hm, if_neg Bool.false_ne_true, h]

theorem cacheAfter_of_not_memoize (hm : p.rules.options.memoize = false) (h : p.cache = {}) :
    ∀ o : Operation, p.cacheAfter o = {}
  | .register .typeToken m => by
    change p.cache.clearSignatures = {}
    rw [h]
    rfl
  | .register .signature m => h
  | .clearCache => by
    change p.cache.clear = {}
    rw [h]
    rfl
  | .parseType token => cache_of_follows (j := p.journal) hm h (Rules.follows_parseType token)
  | .parseStage t => cache_of_follows (j := p.journal) hm h (Rules.follows_parseStage t)
  | .parseSignature t => cache_of_follows (j := p.journal) hm h (Rules.follows_parseSignature hm t)

theorem cache_run_of_not_memoize : ∀ (ops : List Operation) {p : Parser},
    p.rules.options.memoize = false → p.cache = {} → (p.run ops).2.cache = {}
  | [], _, _, h => h
  | o :: ops, p, hm, h => by
    have hm' : (p.perform o).2.rules.options.memoize = false := by
      rcases o with ⟨_ | _⟩ <;> exact hm
    exact cache_run_of_not_memoize ops hm' (cacheAfter_of_not_memoize hm h o)

/-- In every state of a parser that keeps results, each operation has its exact effect on the cache.
While the cache is never cleared, a miss is counted for each text that was ever read as a type, and
these texts are the keys of the table. A parser that keeps no results has an empty cache. -/
theorem cache_of_run (requireOutput : Bool) (ops : List Operation) :
    ((new ⟨requireOutput, true⟩).run ops).2.CacheEffects
      ∧ ((∀ o ∈ ops, o ≠ .clearCache) →
        ((new ⟨requireOutput, true⟩).run ops).2.cache.types.Tallies
            (Operation.textsOf ⟨⟨requireOutput, true⟩, {}⟩ ops)
          ∧ ((new ⟨requireOutput, true⟩).run ops).2.cache.types.misses
            = (Operation.textsOf ⟨⟨requireOutput, true⟩, {}⟩ ops).dedup.length)
      ∧ ((new ⟨requireOutput, false⟩).run ops).2.cache = {} := by
  have hsound : (new ⟨requireOutput, true⟩).Sound := sound_new _
  refine ⟨?_, fun hne => ?_, cache_run_of_not_memoize ops rfl rfl⟩
  · obtain ⟨-, hrules, hrun⟩ := run_spec ops hsound
    exact cacheEffects (by rw [hrules]; rfl) hrun
  · have hempty : (new ⟨requireOutput, true⟩).cache.Tallied (new ⟨requireOutput, true⟩).rules [] :=
      ⟨⟨rfl, List.nodup_nil, fun t => Iff.rfl⟩, fun _ _ hs => absurd hs List.not_mem_nil⟩
    have h := tallied_run ops rfl hsound hempty hne
    rw [List.nil_append] at h
    exact ⟨h, h.misses_eq.trans h.length_eq⟩

/-- After `a,b=>a` two texts were read as types. Then `b` is a hit, and `c` is a third miss. -/
theorem cache_of_run_two_texts :
    ((new ⟨true, true⟩).run [.parseSignature ['a', ',', 'b', '=', '>', 'a']]).2.cache.types.misses
        = 2
      ∧ (((new ⟨true, true⟩).run [.parseSignature ['a', ',', 'b', '=', '>', 'a']]).2.cacheAfter
        (.parseType ['b'])).types.hits = 2
      ∧ (((new ⟨true, true⟩).run [.parseSignature ['a', ',', 'b', '=', '>', 'a']]).2.cacheAfter
        (.parseType ['c'])).types.misses = 3 := by
  obtain ⟨heffects, htally, -⟩ :=
    cache_of_run true [.parseSignature ['a', ',', 'b', '=', '>', 'a']]
  refine ⟨?_, ?_, ?_⟩
  · rw [(htally (by simp)).2]
    rfl
  · rw [heffects.type_kept ['b'] ['b'] rfl (by decide)]
    rfl
  · rw [heffects.type_new ['c'] ['c'] rfl (by decide)]
    rfl

end Parser

end TypeSig
