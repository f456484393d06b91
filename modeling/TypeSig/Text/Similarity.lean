import TypeSig.Text.Basic

/-!
# Similar texts

How alike two texts are. Equal characters that stand close enough together are matched one to one.
The similarity is the mean of three shares: of the first text that is matched, of the second text
that is matched, and of the matches that are in the same order in both.
-/

namespace TypeSig.Text

/-- How far apart two matched characters may stand. -/
def reach (a b : Text) : Nat := max a.length b.length / 2 - 1

/-- Matches the characters of a text that starts at index `i`, from the left: each with the first
equal character of `b` in reach whose index is not `taken`. Gives the matched characters with the
indices of their partners. -/
def matchFrom (reach : Nat) (b : Text) : (i : Nat) → (taken : List Nat) → Text → List (Char × Nat)
  | _, _, [] => []
  | i, taken, c :: a =>
    let partner := (List.range b.length).find? fun j =>
      i ≤ j + reach && j ≤ i + reach && b[j]? == some c && !taken.contains j
    match partner with
    | some j => (c, j) :: matchFrom reach b (i + 1) (j :: taken) a
    | none => matchFrom reach b (i + 1) taken a

/-- The matched characters of `a` with the indices of their partners in `b`. -/
def matched (a b : Text) : List (Char × Nat) := matchFrom (reach a b) b 0 [] a

/-- Half the number of places at which the matched characters of the two texts differ. -/
def transpositions (a b : Text) : Nat :=
  let found := matched a b
  let partners := (b.zipIdx.filter fun (_, j) => (found.map Prod.snd).contains j).map Prod.fst
  ((found.map Prod.fst).zip partners).countP (fun (x, y) => x != y) / 2

/-- A share of a whole. -/
structure Share where
  part : Nat
  whole : Nat

/-- Whether the first share is at most the second. -/
def Share.le (s t : Share) : Bool := s.part * t.whole ≤ t.part * s.whole

/-- How alike two texts are, from zero without a match to one for equal texts. -/
def similarity (a b : Text) : Share :=
  let m := (matched a b).length
  if m = 0 then ⟨0, 1⟩
  else
    ⟨m * m * b.length + m * m * a.length + (m - transpositions a b) * a.length * b.length,
      3 * m * a.length * b.length⟩

/-- The least similarity at which one text is taken for a slip of the other. -/
def slip : Share := ⟨7, 10⟩

/-- Of the things whose names are similar to `t`, the one whose name is most similar to it, and of
two such the later one. -/
def closest? {α : Type} (name : α → Text) (t : Text) (things : List α) : Option α :=
  let score (x : α) : Share := similarity t (name x)
  (things.filter fun x => slip.le (score x)).foldl
    (fun best x =>
      match best with
      | none => some x
      | some y => if (score y).le (score x) then some x else some y)
    none

end TypeSig.Text
