/-!
# Text

A text is the list of its characters. Positions in a text are counted in bytes of its UTF-8 form:
`bytes` is the length in bytes, and `cutAt?` cuts a text after so many bytes. `cutAt?_eq_some_iff`
says that it gives every way to cut the text, and only those.
-/

namespace TypeSig

/-- A text, as the list of its characters. -/
abbrev Text := List Char

namespace Text

/-- The number of bytes of the UTF-8 form. -/
def bytes : Text → Nat
  | [] => 0
  | c :: t => c.utf8Size + bytes t

@[simp] theorem bytes_nil : bytes [] = 0 := rfl

@[simp] theorem bytes_cons (c : Char) (t : Text) : bytes (c :: t) = c.utf8Size + bytes t := rfl

@[simp] theorem bytes_append (a b : Text) : bytes (a ++ b) = bytes a + bytes b := by
  induction a with
  | nil => simp
  | cons c a ih => simp [ih, Nat.add_assoc]

/-- The two parts of a text around byte `n`. There is no such cut inside a character or past the
end of the text. -/
def cutAt? : Nat → Text → Option (Text × Text)
  | 0, t => some ([], t)
  | _ + 1, [] => none
  | n + 1, c :: t =>
    if c.utf8Size ≤ n + 1 then
      (cutAt? (n + 1 - c.utf8Size) t).map fun (a, b) => (c :: a, b)
    else none

theorem cutAt?_cons_add (c : Char) (n : Nat) (t : Text) :
    cutAt? (c.utf8Size + n) (c :: t) = (cutAt? n t).map fun (a, b) => (c :: a, b) := by
  obtain ⟨k, hk⟩ : ∃ k, c.utf8Size + n = k + 1 :=
    ⟨c.utf8Size + n - 1, by have := c.utf8Size_pos; omega⟩
  rw [hk, cutAt?, if_pos (by omega), show k + 1 - c.utf8Size = n by omega]

theorem cutAt?_bytes_append (a b : Text) : cutAt? (bytes a) (a ++ b) = some (a, b) := by
  induction a with
  | nil => simp [cutAt?]
  | cons c a ih => rw [bytes_cons, List.cons_append, cutAt?_cons_add, ih]; rfl

theorem cutAt?_eq_some_iff {n : Nat} {t a b : Text} :
    cutAt? n t = some (a, b) ↔ t = a ++ b ∧ bytes a = n := by
  constructor
  · intro h
    fun_induction cutAt? n t generalizing a with
    | case1 t =>
      obtain ⟨rfl, rfl⟩ : [] = a ∧ t = b := by simpa using h
      simp
    | case2 => simp at h
    | case3 n c t hc ih =>
      obtain ⟨⟨a', b'⟩, h', hab⟩ := Option.map_eq_some_iff.1 h
      obtain ⟨rfl, rfl⟩ : c :: a' = a ∧ b' = b := by simpa using hab
      obtain ⟨rfl, ha⟩ := ih h'
      exact ⟨rfl, by rw [bytes_cons, ha]; omega⟩
    | case4 => simp at h
  · rintro ⟨rfl, rfl⟩
    exact cutAt?_bytes_append a b

end Text

end TypeSig
