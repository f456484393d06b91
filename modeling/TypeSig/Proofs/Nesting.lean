import Mathlib.Tactic.SplitIfs
import TypeSig.Clause

/-!
# The three counters of open clauses

The splitter, the search for the end of a clause and the reading of a subtype each count the
clauses that are open. They differ at a bracket that closes nothing and at a `::`. `walk` counts
strictly: it ends at a bracket that closes nothing. Where it does not end, the other counters
follow it: the search passes over the lexemes (`untilClosed_append`), a subtype keeps them as they
stand inside a clause (`normalize_nested`), and the splitter does not cut there (`quiet_nested`).

The splitter is described by what it passes over. `Quiet` lexemes have no cut, and the pieces of a
text are its quiet parts, one after the other (`cut_append_cons`, `cut_of_quiet`).
-/

namespace TypeSig

namespace Symbol

/-- Whether a symbol leaves every count of open clauses as it is. -/
def isLevel : Symbol → Bool
  | leftAngle | rightAngle | doubleColon => false
  | _ => true

theorem nesting_of_isLevel {s : Symbol} (h : s.isLevel = true) (d : Nat) : s.nesting d = d := by
  cases s <;> first | rfl | simp [isLevel] at h

theorem depth_of_ne {s : Symbol} (h : s ≠ .doubleColon) (d : Nat) : s.depth d = s.nesting d := by
  cases s <;> first | rfl | exact absurd rfl h

theorem nesting_succ {d : Nat} {s : Symbol} (h : ¬ (s = .rightAngle ∧ d = 0)) :
    s.nesting (d + 1) = s.nesting d + 1 := by
  cases s <;> simp only [nesting]
  simp only [true_and] at h
  omega

end Symbol

namespace Lexeme

/-- The number of open clauses after lexemes, when `d` were open before them. There is none if one
of the lexemes closes a clause and none is open. -/
def walk : Nat → List Lexeme → Option Nat
  | d, [] => some d
  | d, x :: xs =>
    if x.symbol = .rightAngle ∧ d = 0 then none else walk (x.symbol.nesting d) xs

/-- Every clause that the lexemes open is closed among them, and no other; there is no `::`. -/
structure Balanced (xs : List Lexeme) : Prop where
  walk_eq : walk 0 xs = some 0
  ne_doubleColon : ∀ x ∈ xs, x.symbol ≠ .doubleColon

/-- The depth that the splitter counts after lexemes, when it was `d` before them. -/
def depthAfter (d : Nat) (xs : List Lexeme) : Nat := xs.foldl (fun d x => x.symbol.depth d) d

/-! ## Strict counting -/

theorem walk_append (d : Nat) (xs ys : List Lexeme) :
    walk d (xs ++ ys) = (walk d xs).bind fun e => walk e ys := by
  induction xs generalizing d with
  | nil => rfl
  | cons x xs ih =>
    simp only [List.cons_append, walk]
    split_ifs
    · rfl
    · exact ih _

theorem exists_walk_of_append {xs ys : List Lexeme} {d e : Nat} (h : walk d (xs ++ ys) = some e) :
    ∃ a, walk d xs = some a ∧ walk a ys = some e := by
  rw [walk_append] at h
  exact Option.bind_eq_some_iff.1 h

theorem walk_cons_eq_some {d e : Nat} {x : Lexeme} {xs : List Lexeme} :
    walk d (x :: xs) = some e ↔
      ¬ (x.symbol = .rightAngle ∧ d = 0) ∧ walk (x.symbol.nesting d) xs = some e := by
  simp only [walk]
  split_ifs with h <;> simp [h]

theorem walk_succ : ∀ {xs : List Lexeme} {d e : Nat}, walk d xs = some e →
    walk (d + 1) xs = some (e + 1)
  | [], d, e, h => by
    simp only [walk, Option.some.injEq] at h
    rw [h]
    rfl
  | x :: xs, d, e, h => by
    obtain ⟨hx, h⟩ := walk_cons_eq_some.1 h
    refine walk_cons_eq_some.2 ⟨by omega, ?_⟩
    rw [Symbol.nesting_succ hx]
    exact walk_succ h

theorem walk_cons_of_isLevel {x : Lexeme} (h : x.symbol.isLevel = true) (d : Nat)
    (xs : List Lexeme) : walk d (x :: xs) = walk d xs := by
  have hr : x.symbol ≠ .rightAngle := by
    intro hr
    simp [hr, Symbol.isLevel] at h
  simp [walk, hr, Symbol.nesting_of_isLevel h]

theorem walk_of_level : ∀ {xs : List Lexeme}, (∀ x ∈ xs, x.symbol.isLevel = true) →
    ∀ d, walk d xs = some d
  | [], _, _ => rfl
  | x :: xs, h, d => by
    rw [walk_cons_of_isLevel (h x List.mem_cons_self)]
    exact walk_of_level (fun y hy => h y (List.mem_cons_of_mem _ hy)) d

theorem balanced_nil : Balanced [] := ⟨rfl, by simp⟩

theorem Balanced.append {xs ys : List Lexeme} (hx : Balanced xs) (hy : Balanced ys) :
    Balanced (xs ++ ys) := by
  refine ⟨?_, fun x h => ?_⟩
  · rw [walk_append, hx.walk_eq]
    exact hy.walk_eq
  · rcases List.mem_append.1 h with h | h
    · exact hx.ne_doubleColon x h
    · exact hy.ne_doubleColon x h

theorem balanced_of_level {xs : List Lexeme} (h : ∀ x ∈ xs, x.symbol.isLevel = true) :
    Balanced xs := by
  refine ⟨walk_of_level h 0, fun x hx hd => ?_⟩
  have := h x hx
  simp [hd, Symbol.isLevel] at this

theorem Balanced.clause {xs : List Lexeme} (h : Balanced xs) (t u : Text) :
    Balanced (⟨.leftAngle, t⟩ :: xs ++ [⟨.rightAngle, u⟩]) := by
  refine ⟨?_, fun x hx => ?_⟩
  · rw [walk_append, show walk 0 (⟨.leftAngle, t⟩ :: xs) = some 1 from walk_succ h.walk_eq]
    rfl
  · simp only [List.cons_append, List.mem_cons, List.mem_append, List.not_mem_nil, or_false] at hx
    rcases hx with rfl | hx | rfl
    · simp
    · exact h.ne_doubleColon x hx
    · simp

/-! ## The search for the end of a clause -/

theorem untilClosed_append : ∀ {xs : List Lexeme} {d e : Nat}, walk d xs = some e →
    ∀ ys, Clause.untilClosed d (xs ++ ys) = xs ++ Clause.untilClosed e ys
  | [], d, e, h, ys => by
    simp only [walk, Option.some.injEq] at h
    rw [h]
    rfl
  | ⟨s, t⟩ :: xs, d, e, h, ys => by
    obtain ⟨hx, h⟩ := walk_cons_eq_some.1 h
    have ih := untilClosed_append h ys
    rcases d with _ | d <;> cases s <;>
      simp_all [Clause.untilClosed, Symbol.nesting]

/-! ## The reading of a subtype -/

theorem normalize_nested : ∀ {xs : List Lexeme} {d e : Nat}, walk d xs = some e →
    ∀ ys, Clause.normalize (d + 1) (xs ++ ys) = source xs ++ Clause.normalize (e + 1) ys
  | [], d, e, h, ys => by
    simp only [walk, Option.some.injEq] at h
    rw [h]
    rfl
  | x :: xs, d, e, h, ys => by
    obtain ⟨hx, h⟩ := walk_cons_eq_some.1 h
    rw [List.cons_append, Clause.normalize, Symbol.nesting_succ hx, normalize_nested h ys]
    simp [Clause.resolve]

theorem normalize_append : ∀ (xs : List Lexeme) (d : Nat), (∀ x ∈ xs, x.symbol.isLevel = true) →
    ∀ ys, Clause.normalize d (xs ++ ys) = Clause.normalize d xs ++ Clause.normalize d ys
  | [], _, _, _ => rfl
  | x :: xs, d, h, ys => by
    have ih := normalize_append xs d fun y hy => h y (List.mem_cons_of_mem _ hy)
    simp only [List.cons_append, Clause.normalize,
      Symbol.nesting_of_isLevel (h x List.mem_cons_self), ih, List.append_assoc]

/-! ## The splitter -/

theorem depthAfter_append (d : Nat) (xs ys : List Lexeme) :
    depthAfter d (xs ++ ys) = depthAfter (depthAfter d xs) ys := List.foldl_append

theorem depthAfter_doubleColon {c : Lexeme} (hc : c.symbol = .doubleColon) (d : Nat)
    (as bs : List Lexeme) : depthAfter d (as ++ c :: bs) = depthAfter 0 bs := by
  rw [depthAfter_append, depthAfter, List.foldl_cons, hc]
  rfl

end Lexeme

namespace Piece

open Lexeme

variable {test : Symbol → Bool}

/-- The splitter makes no cut in the lexemes, when the depth before them is `d`. -/
def Quiet (test : Symbol → Bool) : Nat → List Lexeme → Prop
  | _, [] => True
  | d, x :: xs =>
    ¬ (test x.symbol = true ∧ x.symbol.depth d = 0) ∧ Quiet test (x.symbol.depth d) xs

theorem quiet_append : ∀ (d : Nat) (xs ys : List Lexeme),
    Quiet test d (xs ++ ys) ↔ Quiet test d xs ∧ Quiet test (depthAfter d xs) ys
  | _, [], _ => by simp [Quiet, depthAfter]
  | d, x :: xs, ys => by
    have ih := quiet_append (x.symbol.depth d) xs ys
    simp only [List.cons_append, Quiet, ih, and_assoc]
    rfl

theorem quiet_of_forall : ∀ {xs : List Lexeme}, (∀ x ∈ xs, test x.symbol = false) →
    ∀ d, Quiet test d xs
  | [], _, _ => trivial
  | x :: _, h, d =>
    ⟨by simp [h x List.mem_cons_self],
      quiet_of_forall (fun y hy => h y (List.mem_cons_of_mem _ hy)) _⟩

theorem quiet_nested : ∀ {xs : List Lexeme} {d e : Nat}, walk d xs = some e →
    (∀ x ∈ xs, x.symbol ≠ .doubleColon) →
      Quiet test (d + 1) xs ∧ depthAfter (d + 1) xs = e + 1
  | [], d, e, h, _ => by
    simp only [walk, Option.some.injEq] at h
    exact ⟨trivial, by rw [h]; rfl⟩
  | x :: xs, d, e, h, hd => by
    obtain ⟨hx, h⟩ := walk_cons_eq_some.1 h
    obtain ⟨ihq, ihd⟩ := quiet_nested h fun y hy => hd y (List.mem_cons_of_mem _ hy)
    have hs : x.symbol.depth (d + 1) = x.symbol.nesting d + 1 := by
      rw [Symbol.depth_of_ne (hd x List.mem_cons_self), Symbol.nesting_succ hx]
    simp only [Quiet, depthAfter, List.foldl_cons, hs]
    exact ⟨⟨by simp, ihq⟩, ihd⟩

/-- The splitter counts what the strict count does, where that does not end and every `::` stands
outside the clauses. -/
theorem depthAfter_of_walk_outside : ∀ {xs : List Lexeme} {d e : Nat}, walk d xs = some e →
    (∀ as c bs, xs = as ++ c :: bs → c.symbol = .doubleColon → walk d as = some 0) →
      depthAfter d xs = e
  | [], d, e, h, _ => by simpa [walk, depthAfter] using h
  | x :: xs, d, e, h, hout => by
    obtain ⟨hx, h⟩ := walk_cons_eq_some.1 h
    have hdepth : x.symbol.depth d = x.symbol.nesting d := by
      by_cases hc : x.symbol = .doubleColon
      · have hd : walk d [] = some 0 := hout [] x xs rfl hc
        simp only [walk, Option.some.injEq] at hd
        rw [hc, hd]
        rfl
      · exact Symbol.depth_of_ne hc d
    rw [depthAfter, List.foldl_cons, hdepth]
    refine depthAfter_of_walk_outside h fun as c bs hxs hc => ?_
    exact (walk_cons_eq_some.1 (hout (x :: as) c bs (by rw [hxs]; rfl) hc)).2

theorem depthAfter_of_walk {xs : List Lexeme} {d e : Nat} (h : walk d xs = some e)
    (hd : ∀ x ∈ xs, x.symbol ≠ .doubleColon) : depthAfter d xs = e := by
  refine depthAfter_of_walk_outside h fun as c bs hxs hc => ?_
  exact absurd hc (hd c (by rw [hxs]; simp))

/-- The first piece ends at the first cut, and the others are those of what follows it. -/
theorem cut_append_cons {x : Lexeme} : ∀ {xs : List Lexeme} {d : Nat}, Quiet test d xs →
    test x.symbol = true → x.symbol.depth (depthAfter d xs) = 0 →
    ∀ (start : Nat) (ys : List Lexeme), cut test d start (xs ++ x :: ys) =
      ⟨source xs, start⟩ :: cut test 0 (start + (source xs).bytes + x.text.bytes) ys
  | [], d, _, ht, hz, start, ys => by
    simp only [depthAfter, List.foldl_nil] at hz
    simp [cut, ht, hz]
  | y :: xs, d, hq, ht, hz, start, ys => by
    have ih := cut_append_cons hq.2 ht hz (start + y.text.bytes) ys
    have hy : (test y.symbol && y.symbol.depth d == 0) = false := by
      simpa using hq.1
    simp only [List.cons_append, cut, hy, ih, grow, source_cons, Text.bytes_append,
      Bool.false_eq_true, if_false, Nat.add_assoc]

theorem cut_of_quiet : ∀ {xs : List Lexeme} {d : Nat}, Quiet test d xs → xs ≠ [] → ∀ start,
    cut test d start xs = [⟨source xs, start⟩]
  | [], _, _, hne, _ => absurd rfl hne
  | y :: xs, d, hq, _, start => by
    have hy : (test y.symbol && y.symbol.depth d == 0) = false := by
      simpa using hq.1
    rcases xs with _ | ⟨z, xs⟩
    · simp [cut, hy, grow]
    · rw [cut, cut_of_quiet hq.2 (by simp)]
      simp [hy, grow]

end Piece

end TypeSig
