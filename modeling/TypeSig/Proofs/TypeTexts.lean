import TypeSig.Proofs.Memoization

/-!
# The texts that are read as types

A `Recording` reads without a memo and lists the texts that it reads as types, after the macros, in
their order. Every reading of a parser that goes token by token `Follows` a recording: it gives the
same result, and changes the cache only in that the listed texts went through the memo of types one
after the other (`follows_parseType`, `follows_parseStage`, `follows_parseWith`). What the memo of
signatures holds plays no part in this.
-/

namespace TypeSig

/-! ## The memo of types -/

namespace Memo

variable {α : Type}

/-- The keys under which values are kept. -/
def keys (m : Memo α) : List Text := m.entries.map Prod.fst

theorem find?_eq_none_iff {key : Text} {m : Memo α} : m.find? key = none ↔ key ∉ m.keys := by
  simp only [find?, keys, List.lookup_eq_none_iff, List.mem_map, not_exists, not_and, bne_iff_ne]
  exact forall₂_congr fun p _ => ne_comm

/-- The memo after a text was read as a type: a hit if it is kept, and kept otherwise. -/
def readType (m : Memo TypeDescriptor) (t : Text) : Memo TypeDescriptor :=
  if t ∈ m.keys then m.hit else m.store t (.parse t)

/-- Every kept type is the one that its key reads as. -/
def Parsed (m : Memo TypeDescriptor) : Prop :=
  ∀ key type, (key, type) ∈ m.entries → type = .parse key

theorem Parsed.readType {m : Memo TypeDescriptor} (h : m.Parsed) (t : Text) :
    (m.readType t).Parsed := by
  unfold Memo.readType
  split_ifs
  · exact h
  · intro key type hm
    rcases List.mem_cons.1 hm with hm | hm
    · obtain ⟨rfl, rfl⟩ : key = t ∧ type = .parse t := by simpa using hm
      rfl
    · exact h key type hm

end Memo

namespace Rules

/-- The memo of types after some texts were read as types. -/
def readTypes (r : Rules) (m : Memo TypeDescriptor) (ts : List Text) : Memo TypeDescriptor :=
  if r.options.memoize then ts.foldl Memo.readType m else m

variable {r : Rules}

theorem readTypes_nil (m : Memo TypeDescriptor) : r.readTypes m [] = m := by
  simp [readTypes]

theorem readTypes_append (m : Memo TypeDescriptor) (ts us : List Text) :
    r.readTypes m (ts ++ us) = r.readTypes (r.readTypes m ts) us := by
  unfold readTypes
  split_ifs <;> simp

theorem parsed_readTypes {m : Memo TypeDescriptor} (h : m.Parsed) (ts : List Text) :
    (r.readTypes m ts).Parsed := by
  unfold readTypes
  split_ifs
  · induction ts generalizing m with
    | nil => exact h
    | cons t ts ih => exact ih (h.readType t)
  · exact h

end Rules

/-! ## Recordings -/

/-- A reading that lists the texts it reads as types. -/
abbrev Recording := ExceptT ParseError (StateM (List Text))

namespace Recording

variable {α β : Type}

theorem run_bind (x : Recording α) (f : α → Recording β) (ts : List Text) :
    (x >>= f).run.run ts = match x.run.run ts with
      | (.ok a, ts) => (f a).run.run ts
      | (.error e, ts) => (.error e, ts) := by
  simp only [ExceptT.run_bind, StateT.run_bind]
  rcases x.run.run ts with ⟨_ | _, _⟩ <;> rfl

/-- The texts that a recording lists. -/
def texts (x : Recording α) : List Text := (x.run.run []).2

end Recording

/-- Reads a type token and lists its text after the macros. -/
def Registry.record (r : Registry) (token : Text) : Recording TypeDescriptor := do
  let t ← ofExcept (Chain.apply r.typeLevel token)
  modify (· ++ [t])
  return .parse t

namespace Rules

variable {α β : Type} {r : Rules}

/-- From every cache with the right types, `x` gives the result of `y` and leaves the cache in which
the texts that `y` lists were read as types. -/
def Follows (r : Rules) (x : Reading α) (y : Recording α) : Prop :=
  ∀ (j : Journal) (ts : List Text), j.cache.types.Parsed →
    (x.run.run j).1 = (y.run.run ts).1 ∧ ∃ new, (y.run.run ts).2 = ts ++ new
      ∧ (x.run.run j).2.cache = { j.cache with types := r.readTypes j.cache.types new }

theorem Follows.run {x : Reading α} {y : Recording α} (h : r.Follows x y) {j : Journal}
    (hj : j.cache.types.Parsed) : (x.run.run j).1 = (y.run.run []).1
      ∧ (x.run.run j).2.cache = { j.cache with types := r.readTypes j.cache.types y.texts } := by
  obtain ⟨hr, new, hnew, hc⟩ := h j [] hj
  rw [List.nil_append] at hnew
  exact ⟨hr, by rw [hc, Recording.texts, hnew]⟩

theorem follows_pure (a : α) : r.Follows (pure a) (pure a) := by
  intro j ts _
  exact ⟨rfl, [], (List.append_nil ts).symm, by rw [readTypes_nil]; rfl⟩

theorem follows_ofExcept (x : Except ParseError α) : r.Follows (ofExcept x) (ofExcept x) := by
  intro j ts _
  rcases x with e | a <;>
    exact ⟨rfl, [], (List.append_nil ts).symm, by rw [readTypes_nil]; rfl⟩

theorem Follows.note {x : Reading α} {y : Recording α} (hx : r.Follows x y) (events : List Event) :
    r.Follows (do Reading.note events; x) y := by
  intro j ts hj
  rw [Reading.run_bind, Reading.run_note]
  exact hx _ ts hj

theorem Follows.bind {x : Reading α} {y : Recording α} {f : α → Reading β} {g : α → Recording β}
    (hx : r.Follows x y) (hf : ∀ a, r.Follows (f a) (g a)) : r.Follows (x >>= f) (y >>= g) := by
  intro j ts hj
  obtain ⟨hr, new, hnew, hc⟩ := hx j ts hj
  rw [Reading.run_bind, Recording.run_bind]
  rcases hrun : x.run.run j with ⟨result, j'⟩
  rcases hrec : y.run.run ts with ⟨result', ts'⟩
  rw [hrun, hrec] at hr
  rw [hrec] at hnew
  rw [hrun] at hc
  simp only at hr hnew hc
  subst hr
  rcases result with e | a
  · exact ⟨rfl, new, hnew, hc⟩
  · -- the texts listed so far were read, so the kept types are still right for the rest
    have hj' : j'.cache.types.Parsed := by
      rw [hc]
      exact parsed_readTypes hj new
    obtain ⟨hr', new', hnew', hc'⟩ := hf a j' ts' hj'
    refine ⟨hr', new ++ new', by rw [hnew', hnew, List.append_assoc], ?_⟩
    rw [hc', hc, readTypes_append]

theorem Follows.mapM {f : α → Reading β} {g : α → Recording β} (h : ∀ a, r.Follows (f a) (g a)) :
    ∀ xs : List α, r.Follows (xs.mapM f) (xs.mapM g)
  | [] => by
    rw [List.mapM_nil, List.mapM_nil]
    exact follows_pure []
  | x :: xs => by
    rw [List.mapM_cons, List.mapM_cons]
    exact (h x).bind fun b => (Follows.mapM h xs).bind fun bs => follows_pure (b :: bs)

/-! ## The readings of a parser -/

theorem follows_remembering (t : Text) : r.Follows
    (r.remembering .types t (return .parse t)) (do modify (· ++ [t]); return .parse t) := by
  intro j ts hj
  rw [remembering]
  split_ifs with hm
  · rcases hf : (Table.types.memo j.cache).find? t with _ | d
    · have hk : t ∉ j.cache.types.keys := Memo.find?_eq_none_iff.1 hf
      refine ⟨by rw [Reading.run_remember, hf]; rfl, [t], rfl, ?_⟩
      rw [Reading.run_remember, hf, readTypes, if_pos hm, List.foldl_cons, List.foldl_nil,
        Memo.readType, if_neg hk]
      rfl
    · have hk : t ∈ j.cache.types.keys := List.mem_map_of_mem (mem_of_find? hf)
      have hd : d = .parse t := hj t d (mem_of_find? hf)
      refine ⟨by rw [Reading.run_remember, hf, hd]; rfl, [t], rfl, ?_⟩
      rw [Reading.run_remember, hf, readTypes, if_pos hm, List.foldl_cons, List.foldl_nil,
        Memo.readType, if_pos hk]
      rfl
  · refine ⟨rfl, [t], rfl, ?_⟩
    rw [readTypes, if_neg hm]
    rfl

theorem follows_parseType (token : Text) :
    r.Follows (r.parseType token) (r.macros.record token) := by
  refine Follows.bind (Follows.note (follows_ofExcept _) _) fun t => ?_
  exact follows_remembering t

theorem follows_fill (o : Stage.Outline) :
    r.Follows (o.fill r.parseType) (o.fill r.macros.record) :=
  (Follows.mapM follows_parseType o.tokens).bind fun types =>
    follows_pure (Stage.mk types o.dependent)

/-- Reads a stage without a memo, and lists the texts that it reads as types. -/
def recordStage (r : Rules) (t : Text) : Recording Stage := do
  (← ofExcept (Stage.outline t)).fill r.macros.record

theorem follows_parseStage (t : Text) : r.Follows (r.parseStage t) (r.recordStage t) :=
  (follows_ofExcept (Stage.outline t)).bind follows_fill

theorem follows_parseWith (requireOutput : Bool) (t : Text) :
    r.Follows (Signature.parseWith requireOutput r.parseType t)
      (Signature.parseWith requireOutput r.macros.record t) := by
  unfold Signature.parseWith Signature.fill
  refine (follows_ofExcept _).bind fun outlines => ?_
  refine (Follows.mapM (fun o => ?_) outlines).bind fun stages => follows_pure (Signature.mk stages)
  exact (follows_ofExcept o).bind follows_fill

/-- Reads a signature without a memo, and lists the texts that it reads as types. -/
def recordSignature (r : Rules) (t : Text) : Recording Signature :=
  Signature.parseWith r.options.requireOutput r.macros.record t

theorem recordSignature_result (t : Text) : ((r.recordSignature t).run.run []).1
    = Signature.parseWith r.options.requireOutput r.macros.typeOf t := by
  have hempty : Cache.Sound r {} :=
    ⟨fun _ _ h => absurd h List.not_mem_nil, fun _ _ h => absurd h List.not_mem_nil⟩
  have hfollows := (follows_parseWith (r := r) r.options.requireOutput t).run (j := {}) hempty.types
  exact hfollows.1.symm.trans (yields_parseWith r.options.requireOutput t {} hempty).1

theorem follows_parseSignature (hm : r.options.memoize = false) (t : Text) :
    r.Follows (r.parseSignature t)
      (do r.recordSignature (← ofExcept (Chain.apply r.macros.signatureLevel t))) := by
  refine Follows.bind (Follows.note (follows_ofExcept _) _) fun u => ?_
  refine Follows.note ?_ [.parsingSignature u]
  rw [remembering, hm, if_neg Bool.false_ne_true]
  exact follows_parseWith r.options.requireOutput u

theorem run_expand (level : Level) (t : Text) (j : Journal) : ∃ log,
    (r.expand level t).run.run j = (Chain.apply (r.macros.chain level) t, { j with log }) := by
  rw [expand, Reading.run_bind, Reading.run_note]
  rcases Chain.apply (r.macros.chain level) t with e | u <;> exact ⟨_, rfl⟩

theorem run_parseSignature_of_error {t : Text} {e : ParseError} (j : Journal)
    (h : Chain.apply r.macros.signatureLevel t = .error e) :
    ((r.parseSignature t).run.run j).1 = .error e
      ∧ ((r.parseSignature t).run.run j).2.cache = j.cache := by
  obtain ⟨log, hlog⟩ := run_expand (r := r) .signature t j
  rw [show r.macros.chain .signature = r.macros.signatureLevel from rfl, h] at hlog
  rw [parseSignature, Reading.run_bind, hlog]
  exact ⟨rfl, rfl⟩

theorem run_parseSignature_of_ok {t u : Text} (j : Journal)
    (h : Chain.apply r.macros.signatureLevel t = .ok u) : ∃ log,
    (r.parseSignature t).run.run j = (r.remembering .signatures u
      (Signature.parseWith r.options.requireOutput r.parseType u)).run.run { j with log } := by
  obtain ⟨log, hlog⟩ := run_expand (r := r) .signature t j
  rw [show r.macros.chain .signature = r.macros.signatureLevel from rfl, h] at hlog
  rw [parseSignature, Reading.run_bind, hlog]
  simp only [Reading.run_bind, Reading.run_note]
  exact ⟨_, rfl⟩

theorem run_parseSignature_of_kept {t u : Text} {s : Signature} {j : Journal}
    (hm : r.options.memoize = true) (h : Chain.apply r.macros.signatureLevel t = .ok u)
    (hs : j.cache.signatures.find? u = some s) :
    ((r.parseSignature t).run.run j).1 = .ok s ∧ ((r.parseSignature t).run.run j).2.cache
      = { j.cache with signatures := j.cache.signatures.hit } := by
  obtain ⟨log, hlog⟩ := run_parseSignature_of_ok j h
  rw [hlog, remembering, if_pos hm, Reading.run_remember,
    show (Table.signatures.memo j.cache).find? u = some s from hs]
  exact ⟨rfl, rfl⟩

/-- A signature that is not kept is read, and then kept if it could be. -/
theorem run_parseSignature_of_new {t u : Text} {j : Journal} (hm : r.options.memoize = true)
    (hj : j.cache.types.Parsed) (h : Chain.apply r.macros.signatureLevel t = .ok u)
    (hs : j.cache.signatures.find? u = none) :
    ((r.parseSignature t).run.run j).1 = ((r.recordSignature u).run.run []).1
      ∧ ((r.parseSignature t).run.run j).2.cache =
        ⟨r.readTypes j.cache.types (r.recordSignature u).texts,
          match ((r.recordSignature u).run.run []).1 with
          | .ok s => j.cache.signatures.store u s
          | .error _ => j.cache.signatures⟩ := by
  obtain ⟨log, hlog⟩ := run_parseSignature_of_ok j h
  obtain ⟨hr, hc⟩ := (follows_parseWith r.options.requireOutput u).run
    (j := { j with log }) hj
  rw [hlog, remembering, if_pos hm, Reading.run_remember,
    show (Table.signatures.memo j.cache).find? u = none from hs]
  rcases hrun : (Signature.parseWith r.options.requireOutput r.parseType u).run.run { j with log }
    with ⟨e | s, j'⟩ <;> rw [hrun] at hr hc <;> rw [recordSignature, ← hr]
  · exact ⟨rfl, hc⟩
  · refine ⟨rfl, ?_⟩
    change Cache.mk j'.cache.types (j'.cache.signatures.store u s) = _
    rw [hc]

end Rules

end TypeSig
