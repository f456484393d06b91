import TypeSig.Event
import TypeSig.Memo
import TypeSig.Signature

/-!
# Journals

The journal of a parser is what reading leaves behind: a memo for types, a memo for signatures, and
the log. A `Reading` can fail, and keeps the journal also then (`run_bind`). `run_remember` tells
what a reading through a memo does to the journal.
-/

namespace TypeSig

structure Cache where
  types : Memo TypeDescriptor := {}
  signatures : Memo Signature := {}

namespace Cache

def clear (c : Cache) : Cache := ⟨c.types.clear, c.signatures.clear⟩

def clearSignatures (c : Cache) : Cache := { c with signatures := c.signatures.clear }

def stats (c : Cache) : CacheStats :=
  ⟨c.types.hits, c.types.misses, c.signatures.hits, c.signatures.misses⟩

end Cache

/-- What reading leaves behind. -/
structure Journal where
  cache : Cache := {}
  log : List Event := []

/-- One of the memos of a cache. -/
structure Table (α : Type) where
  memo : Cache → Memo α
  update : (Memo α → Memo α) → Cache → Cache

def Table.types : Table TypeDescriptor where
  memo := Cache.types
  update := fun f c => { c with types := f c.types }

def Table.signatures : Table Signature where
  memo := Cache.signatures
  update := fun f c => { c with signatures := f c.signatures }

/-- A reading that can fail; the journal is kept also then. -/
abbrev Reading := ExceptT ParseError (StateM Journal)

namespace Reading

variable {α β : Type}

theorem run_bind (x : Reading α) (f : α → Reading β) (j : Journal) :
    (x >>= f).run.run j = match x.run.run j with
      | (.ok a, j) => (f a).run.run j
      | (.error e, j) => (.error e, j) := by
  simp only [ExceptT.run_bind, StateT.run_bind]
  rcases x.run.run j with ⟨_ | _, _⟩ <;> rfl

/-- Adds events to the log. -/
def note (events : List Event) : Reading Unit :=
  modify fun j => { j with log := j.log ++ events }

@[simp] theorem run_note (events : List Event) (j : Journal) :
    (note events).run.run j = (.ok (), { j with log := j.log ++ events }) := rfl

def updateTable (table : Table α) (f : Memo α → Memo α) : Reading Unit :=
  modify fun j => { j with cache := table.update f j.cache }

/-- The kept value for a key, or the value of `build`, which is kept then. -/
def remember (table : Table α) (key : Text) (build : Reading α) : Reading α := do
  match (table.memo (← get).cache).find? key with
  | some a =>
    updateTable table Memo.hit
    note [.cacheHit key]
    return a
  | none =>
    let a ← build
    updateTable table (Memo.store key a)
    note [.cacheMiss key]
    return a

/-- A kept value is counted as a hit, a built one is kept and counted as a miss, and a build that
fails leaves what it did itself. -/
theorem run_remember (table : Table α) (key : Text) (build : Reading α) (j : Journal) :
    (remember table key build).run.run j = match (table.memo j.cache).find? key with
      | some a => (.ok a, ⟨table.update Memo.hit j.cache, j.log ++ [.cacheHit key]⟩)
      | none =>
        match build.run.run j with
        | (.ok a, j) =>
          (.ok a, ⟨table.update (Memo.store key a) j.cache, j.log ++ [.cacheMiss key]⟩)
        | (.error e, j) => (.error e, j) := by
  rw [remember, run_bind]
  change (match (table.memo j.cache).find? key with
    | some a => _
    | none => _ : Reading α).run.run j = _
  cases (table.memo j.cache).find? key with
  | some a => rfl
  | none =>
    simp only [run_bind]
    rcases build.run.run j with ⟨_ | a, j'⟩ <;> rfl

end Reading

end TypeSig
