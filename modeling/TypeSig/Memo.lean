import TypeSig.Text.Basic

/-!
# Memos

A memo keeps the value that was built for a key, and counts how often a value was found and how
often one was built. A build that fails leaves no trace. `clear` forgets the values and keeps the
counts.
-/

namespace TypeSig

structure Memo (α : Type) where
  entries : List (Text × α) := []
  hits : Nat := 0
  misses : Nat := 0

namespace Memo

variable {ε α : Type}

/-- The value kept for a key. -/
def find? (key : Text) (m : Memo α) : Option α := m.entries.lookup key

/-- Counts a value that was found. -/
def hit (m : Memo α) : Memo α := { m with hits := m.hits + 1 }

/-- Keeps a value that was built, and counts it. -/
def store (key : Text) (a : α) (m : Memo α) : Memo α :=
  { m with entries := (key, a) :: m.entries, misses := m.misses + 1 }

def clear (m : Memo α) : Memo α := { m with entries := [] }

@[simp] theorem find?_hit (key : Text) (m : Memo α) : m.hit.find? key = m.find? key := rfl

@[simp] theorem find?_clear (key : Text) (m : Memo α) : m.clear.find? key = none := rfl

theorem find?_store (key key' : Text) (a : α) (m : Memo α) :
    (m.store key a).find? key' = if key' = key then some a else m.find? key' := by
  by_cases h : key' = key
  · simp [find?, store, h]
  · simp [find?, store, List.lookup_cons, beq_false_of_ne h, h]

/-- The value for a key, built if none is kept, and the memo after that. -/
def get (key : Text) (build : Except ε α) (m : Memo α) : Except ε α × Memo α :=
  match m.find? key with
  | some a => (.ok a, m.hit)
  | none =>
    match build with
    | .ok a => (.ok a, m.store key a)
    | .error e => (.error e, m)

end Memo

end TypeSig
