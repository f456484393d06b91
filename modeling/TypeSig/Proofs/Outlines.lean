import Mathlib.Data.List.Forall2
import TypeSig.Signature

/-!
# Reading stage by stage

A reader of type tokens that has no memory reads a signature piece by piece: it succeeds with the
stages of all pieces (`parseWith_eq_ok_iff`), or it fails as the first piece does that has no stage
(`parseWith_eq_error_iff`).
-/

namespace TypeSig

section MapM

variable {α β ε : Type} {f : α → Except ε β}

theorem ok_bind (a : α) (g : α → Except ε β) : (Except.ok a >>= g) = g a := rfl

theorem bind_eq_ok {x : Except ε α} {g : α → Except ε β} {b : β} :
    x >>= g = .ok b ↔ ∃ a, x = .ok a ∧ g a = .ok b := by
  rcases x with e | a <;> simp [bind, Except.bind]

theorem bind_eq_error {x : Except ε α} {g : α → Except ε β} {e : ε} :
    x >>= g = .error e ↔ x = .error e ∨ ∃ a, x = .ok a ∧ g a = .error e := by
  rcases x with e | a <;> simp [bind, Except.bind]

theorem ofExcept_eq (x : Except ε α) : (ofExcept x : Except ε α) = x := by
  cases x <;> rfl

theorem mapM_eq_ok_iff {xs : List α} {ys : List β} :
    xs.mapM f = .ok ys ↔ List.Forall₂ (fun x y => f x = .ok y) xs ys := by
  induction xs generalizing ys with
  | nil =>
    rw [List.mapM_nil, List.forall₂_nil_left_iff]
    refine ⟨fun h => ?_, fun h => by rw [h]; rfl⟩
    injection h with h
    exact h.symm
  | cons x xs ih =>
    rw [List.mapM_cons, bind_eq_ok, List.forall₂_cons_left_iff]
    refine exists_congr fun b => ?_
    rw [bind_eq_ok]
    constructor
    · rintro ⟨hb, bs, hbs, h⟩
      injection h with h
      exact ⟨bs, hb, ih.1 hbs, h.symm⟩
    · rintro ⟨bs, hb, hbs, rfl⟩
      exact ⟨hb, bs, ih.2 hbs, rfl⟩

theorem mapM_eq_error_iff {xs : List α} {e : ε} : xs.mapM f = .error e ↔
    ∃ as x bs, xs = as ++ x :: bs ∧ (∀ a ∈ as, ∃ b, f a = .ok b) ∧ f x = .error e := by
  induction xs with
  | nil =>
    rw [List.mapM_nil]
    refine ⟨fun h => by injection h, ?_⟩
    rintro ⟨as, x, bs, h, -⟩
    simp at h
  | cons x xs ih =>
    rw [List.mapM_cons, bind_eq_error]
    constructor
    · rintro (h | ⟨b, hb, h⟩)
      · exact ⟨[], x, xs, rfl, by simp, h⟩
      · rcases bind_eq_error.1 h with h | ⟨bs, -, h⟩
        · obtain ⟨as, y, bs, rfl, hok, hy⟩ := ih.1 h
          refine ⟨x :: as, y, bs, rfl, ?_, hy⟩
          simpa [hb] using hok
        · injection h
    · rintro ⟨as, y, bs, h, hok, hy⟩
      rcases as with _ | ⟨a, as⟩
      · obtain ⟨rfl, -⟩ : x = y ∧ xs = bs := by simpa using h
        exact .inl hy
      · obtain ⟨rfl, rfl⟩ : x = a ∧ xs = as ++ y :: bs := by simpa using h
        obtain ⟨b, hb⟩ := hok x List.mem_cons_self
        refine .inr ⟨b, hb, bind_eq_error.2 (.inl (ih.2 ?_))⟩
        exact ⟨as, y, bs, rfl, fun a ha => hok a (List.mem_cons_of_mem _ ha), hy⟩

end MapM

variable (read : Text → Except ParseError TypeDescriptor)

/-- Reads a stage with a reader of type tokens. -/
def Stage.readWith (t : Text) : Except ParseError Stage := do (← Stage.outline t).fill read

/-- Reads the stage of a piece, and places its errors in the whole text. -/
def Stage.readPiece (p : Piece) : Except ParseError Stage := do
  (← (Stage.outline p.text).mapError (·.shift p.start)).fill read

variable {read}

theorem Stage.readPiece_eq_ok {p : Piece} {s : Stage} :
    readPiece read p = .ok s ↔ readWith read p.text = .ok s := by
  unfold readPiece readWith
  rcases outline p.text with e | o <;> simp [Except.mapError, bind, Except.bind]

theorem Signature.parseWith_eq (requireOutput : Bool) (t : Text) :
    parseWith requireOutput read t =
      if requireOutput && (Piece.split (· == .arrow) t).length < 2 then .error .missingOutput
      else (Piece.split (· == .arrow) t).mapM (Stage.readPiece read) >>= fun ss => .ok ⟨ss⟩ := by
  simp only [parseWith, outlines, fill, ofExcept_eq]
  split_ifs
  · rfl
  · rw [ok_bind, List.mapM_map]
    rfl

theorem Signature.parseWith_eq_ok_iff {requireOutput : Bool} {t : Text} {s : Signature} :
    parseWith requireOutput read t = .ok s ↔
      (requireOutput = true → 2 ≤ (Piece.split (· == .arrow) t).length)
        ∧ List.Forall₂ (fun p st => Stage.readWith read p.text = .ok st)
          (Piece.split (· == .arrow) t) s.stages := by
  rw [parseWith_eq]
  split_ifs with h
  · simp only [Bool.and_eq_true, decide_eq_true_eq] at h
    simp only [false_iff, not_and]
    intro h2
    have := h2 h.1
    omega
  · simp only [Bool.and_eq_true, decide_eq_true_eq, not_and, Nat.not_lt] at h
    rw [bind_eq_ok]
    simp only [mapM_eq_ok_iff, Stage.readPiece_eq_ok]
    constructor
    · rintro ⟨ss, hss, hs⟩
      injection hs with hs
      rw [← hs]
      exact ⟨h, hss⟩
    · exact fun hss => ⟨s.stages, hss.2, rfl⟩

theorem Signature.parseWith_eq_error_iff {requireOutput : Bool} {t : Text} {e : ParseError} :
    parseWith requireOutput read t = .error e ↔
      (requireOutput = true ∧ (Piece.split (· == .arrow) t).length < 2 ∧ e = .missingOutput)
      ∨ ((requireOutput = true → 2 ≤ (Piece.split (· == .arrow) t).length)
        ∧ ∃ earlier p later, Piece.split (· == .arrow) t = earlier ++ p :: later
          ∧ (∀ q ∈ earlier, ∃ st, Stage.readWith read q.text = .ok st)
          ∧ Stage.readPiece read p = .error e) := by
  rw [parseWith_eq]
  split_ifs with h
  · simp only [Bool.and_eq_true, decide_eq_true_eq] at h
    constructor
    · intro he
      injection he with he
      exact .inl ⟨h.1, h.2, he.symm⟩
    · rintro (⟨-, -, rfl⟩ | ⟨h2, -⟩)
      · rfl
      · have := h2 h.1
        omega
  · simp only [Bool.and_eq_true, decide_eq_true_eq, not_and, Nat.not_lt] at h
    rw [bind_eq_error]
    simp only [mapM_eq_error_iff, Stage.readPiece_eq_ok, reduceCtorEq, and_false, exists_false,
      or_false]
    constructor
    · exact fun hm => .inr ⟨h, hm⟩
    · rintro (⟨hr, hl, -⟩ | ⟨-, hm⟩)
      · have := h hr
        omega
      · exact hm

end TypeSig
