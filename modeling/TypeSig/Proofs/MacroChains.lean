import TypeSig.Proofs.Outlines
import TypeSig.Registry

/-!
# Chains of macros

A registry keeps the macros of the two levels apart, in whatever order they are registered: what it
makes of a text at a level is what the macros of this level make of it, one after the other
(`chain_registered`). A chain gives a text exactly if every macro does (`apply_eq_ok_iff`). It fails
exactly if some macro gives no text for what the macros before it made, and the error tells the
output of the first such macro (`apply_eq_error_iff`). The macros behind it are not asked
(`StopsAt.apply_eq`).
-/

namespace TypeSig

namespace MacroOutput

theorem toText_eq_ok_iff {o : MacroOutput} {t : Text} : o.toText = .ok t ↔ o = .text t := by
  cases o <;> simp [toText]

theorem toText_eq_error_iff {o : MacroOutput} {e : ParseError} :
    o.toText = .error e ↔ (∀ t, o ≠ .text t) ∧ e = .macroContract o.display o.kind := by
  cases o <;> simp [toText, eq_comm]

end MacroOutput

namespace Chain

/-- Every macro gives a text for the text of the one before it; the first has `t` and the last
gives `u`. -/
inductive Passes : List Macro → Text → Text → Prop
  | nil (t : Text) : Passes [] t t
  | cons {m : Macro} {ms : List Macro} {t u v : Text} : m t = .text u → Passes ms u v →
      Passes (m :: ms) t v

/-- The first macro of the chain that gives no text is `m`, behind the macros `before`, which make
`u` of `t`. -/
structure StopsAt (chain : List Macro) (t : Text) (before : List Macro) (m : Macro) (u : Text) :
    Prop where
  begins : before ++ [m] <+: chain
  passes : Passes before t u
  no_text : ∀ v, m u ≠ .text v

variable {chain before : List Macro} {m : Macro} {t u v : Text} {e : ParseError}

theorem apply_eq_ok_iff : apply chain t = .ok v ↔ Passes chain t v := by
  induction chain generalizing t with
  | nil =>
    rw [apply_nil]
    constructor
    · intro h
      injection h with h
      rw [h]
      exact .nil v
    · rintro ⟨⟩
      rfl
  | cons m ms ih =>
    rw [apply_cons, bind_eq_ok]
    constructor
    · rintro ⟨u, hu, hv⟩
      exact .cons (MacroOutput.toText_eq_ok_iff.1 hu) (ih.1 hv)
    · rintro (_ | ⟨hu, hv⟩)
      exact ⟨_, MacroOutput.toText_eq_ok_iff.2 hu, ih.2 hv⟩

/-- The macros behind the first that gives no text make no difference. -/
theorem StopsAt.apply_eq (h : StopsAt chain t before m u) :
    apply chain t = .error (.macroContract (m u).display (m u).kind) := by
  obtain ⟨after, rfl⟩ := h.begins
  have herror := MacroOutput.toText_eq_error_iff.2 ⟨h.no_text, rfl⟩
  rw [List.append_assoc, apply_append, apply_eq_ok_iff.2 h.passes, ok_bind, List.singleton_append,
    apply_cons, herror]
  rfl

theorem StopsAt.cons (hm : m t = .text u) {n : Macro} (h : StopsAt chain u before n v) :
    StopsAt (m :: chain) t (m :: before) n v :=
  ⟨List.cons_prefix_cons.2 ⟨rfl, h.begins⟩, .cons hm h.passes, h.no_text⟩

theorem exists_stopsAt (h : apply chain t = .error e) :
    ∃ before m u, StopsAt chain t before m u := by
  induction chain generalizing t with
  | nil => simp at h
  | cons m ms ih =>
    rw [apply_cons] at h
    rcases bind_eq_error.1 h with h | ⟨u, hu, h⟩
    · exact ⟨[], m, t, ⟨by simp, .nil t, (MacroOutput.toText_eq_error_iff.1 h).1⟩⟩
    · obtain ⟨before, n, v, hstops⟩ := ih h
      exact ⟨m :: before, n, v, hstops.cons (MacroOutput.toText_eq_ok_iff.1 hu)⟩

theorem apply_eq_error_iff : apply chain t = .error e ↔
    ∃ before m u, StopsAt chain t before m u ∧ e = .macroContract (m u).display (m u).kind := by
  constructor
  · intro h
    obtain ⟨before, m, u, hstops⟩ := exists_stopsAt h
    rw [hstops.apply_eq] at h
    injection h with h
    exact ⟨before, m, u, hstops, h.symm⟩
  · rintro ⟨before, m, u, hstops, rfl⟩
    exact hstops.apply_eq

end Chain

namespace Registry

open Chain

/-- The registry after some registrations. -/
def registered (calls : List (Level × Macro)) : Registry :=
  calls.foldl (fun r call => r.register call.1 call.2) {}

/-- The macros that are registered for a level. -/
def macrosAt (level : Level) (calls : List (Level × Macro)) : List Macro :=
  (calls.filter (·.1 = level)).map Prod.snd

/-- At a level the registry makes of texts what the macros `chain` make of them. -/
structure Obeys (r : Registry) (level : Level) (chain : List Macro) : Prop where
  apply_eq : ∀ t, r.apply level t = Chain.apply chain t
  divided : ∀ ms ns, chain = ms ++ ns → ∀ t,
    r.apply level t = Chain.apply ms t >>= Chain.apply ns
  ok_iff : ∀ t u, r.apply level t = .ok u ↔ Passes chain t u
  error_iff : ∀ t e, r.apply level t = .error e ↔
    ∃ before m u, StopsAt chain t before m u ∧ e = .macroContract (m u).display (m u).kind
  /-- The macros behind the first that gives no text can be any others. -/
  later : ∀ t before m u, StopsAt chain t before m u → ∀ after,
    Chain.apply (before ++ m :: after) t = r.apply level t

theorem chain_register (level : Level) (call : Level × Macro) (r : Registry) :
    (r.register call.1 call.2).chain level = r.chain level ++ macrosAt level [call] := by
  by_cases h : call.1 = level
  · rw [← h, chain_register_self]
    simp [macrosAt]
  · rw [chain_register_of_ne (Ne.symm h)]
    simp [macrosAt, h]

theorem macrosAt_cons (level : Level) (call : Level × Macro) (calls : List (Level × Macro)) :
    macrosAt level (call :: calls) = macrosAt level [call] ++ macrosAt level calls := by
  rw [← List.singleton_append, macrosAt, List.filter_append, List.map_append]
  rfl

theorem chain_foldl_register (level : Level) : ∀ (calls : List (Level × Macro)) (r : Registry),
    (calls.foldl (fun r call => r.register call.1 call.2) r).chain level
      = r.chain level ++ macrosAt level calls
  | [], r => (List.append_nil _).symm
  | call :: calls, r => by
    rw [List.foldl_cons, chain_foldl_register level calls, chain_register,
      macrosAt_cons level call calls, List.append_assoc]

theorem chain_registered (level : Level) (calls : List (Level × Macro)) :
    (registered calls).chain level = macrosAt level calls := by
  rw [registered, chain_foldl_register]
  cases level <;> rfl

/-- Whatever is registered for the other level, and in whatever order, the registry obeys the macros
that are registered for this one. -/
theorem obeys_registered (calls : List (Level × Macro)) (level : Level) :
    (registered calls).Obeys level (macrosAt level calls) := by
  have happly : ∀ t, (registered calls).apply level t = Chain.apply (macrosAt level calls) t := by
    intro t
    rw [apply, chain_registered]
  refine ⟨happly, fun ms ns hchain t => ?_, fun t u => ?_, fun t e => ?_,
    fun t before m u hstops after => ?_⟩
  · rw [happly, hchain, apply_append]
  · rw [happly, apply_eq_ok_iff]
  · rw [happly, apply_eq_error_iff]
  · have hother : StopsAt (before ++ m :: after) t before m u :=
      ⟨⟨after, by simp⟩, hstops.passes, hstops.no_text⟩
    rw [happly, hstops.apply_eq, hother.apply_eq]

/-- The second macro for type tokens sees the `a` that the first one adds, so its output is the
error. The macro for signatures before it and the one for type tokens behind it do not count. -/
example : (registered [(.typeToken, .wrap ['a'] []), (.signature, .always .null),
      (.typeToken, .whenContains ['a'] (.boolean true)), (.typeToken, .always .null)]).apply
        .typeToken ['b'] = .error (.macroContract ['t', 'r', 'u', 'e'] .boolean) := rfl

end Registry

end TypeSig
