import Mathlib.Data.List.DropRight
import TypeSig.Journal

/-!
# A memo and the history of its calls

After any sequence of calls, what a memo keeps for a key is the value of the first build for that
key that succeeded since the last clear (`tracks_run`). So a build is run exactly if there was none,
and its value is given back otherwise, whatever the build would give now (`reflects_run`). The counts
tell the calls that gave a value and the builds that succeeded, over the whole history.

Whether a build is run shows in the answer: it is the outcome of the build, whatever that is
(`Runs`), or it is the same for all builds. The readings of a parser, in which a build can also
write to the journal, go through a memo in the same way.
-/

namespace TypeSig

namespace Memo

variable {α : Type}

/-- A call of a memo. A build is given by the outcome that it has if it is run. -/
inductive Call (α : Type) where
  | get (key : Text) (build : Except ParseError α)
  | clear

namespace Call

def isClear : Call α → Bool
  | get .. => false
  | clear => true

/-- The value that a build for the key would give. -/
def value? (key : Text) : Call α → Option α
  | get key' (.ok a) => if key' = key then some a else none
  | _ => none

theorem value?_eq_some_iff {key : Text} {c : Call α} {a : α} :
    c.value? key = some a ↔ c = get key (.ok a) := by
  rcases c with ⟨key', _ | b⟩ | _
  · simp [value?]
  · by_cases h : key' = key <;> simp [value?, h]
  · simp [value?]

end Call

/-- The memo after a call, and the answer to it; clearing has none. -/
def perform (m : Memo α) : Call α → Option (Except ParseError α) × Memo α
  | .get key build =>
    let (result, m) := m.get key build
    (some result, m)
  | .clear => (none, m.clear)

def run (m : Memo α) : List (Call α) → List (Option (Except ParseError α)) × Memo α
  | [] => ([], m)
  | c :: cs =>
    let (answer, m) := m.perform c
    let (answers, m) := m.run cs
    (answer :: answers, m)

/-! ## Histories -/

/-- The calls since the last clear. -/
def sinceClear (calls : List (Call α)) : List (Call α) := calls.rtakeWhile (!·.isClear)

/-- The value of the first build for the key that succeeded since the last clear. -/
def kept (key : Text) (calls : List (Call α)) : Option α :=
  (sinceClear calls).findSome? (Call.value? key)

/-- Whether the build of a call is run and succeeds, after the calls `earlier`. -/
def succeeds (earlier : List (Call α)) : Call α → Bool
  | .get key (.ok _) => (kept key earlier).isNone
  | _ => false

/-- The number of builds that are run and succeed, after the calls `earlier`. -/
def successes (earlier : List (Call α)) : List (Call α) → Nat
  | [] => 0
  | c :: cs => (succeeds earlier c).toNat + successes (earlier ++ [c]) cs

def gaveValue : Option (Except ParseError α) → Bool
  | some (.ok _) => true
  | _ => false

theorem sinceClear_get (calls : List (Call α)) (key : Text) (build : Except ParseError α) :
    sinceClear (calls ++ [.get key build]) = sinceClear calls ++ [.get key build] :=
  List.rtakeWhile_concat_pos _ _ _ rfl

theorem sinceClear_clear (calls : List (Call α)) : sinceClear (calls ++ [.clear]) = [] :=
  List.rtakeWhile_concat_neg _ _ _ (by simp [Call.isClear])

theorem kept_get (calls : List (Call α)) (key key' : Text) (build : Except ParseError α) :
    kept key (calls ++ [.get key' build])
      = (kept key calls).or ((Call.get key' build).value? key) := by
  rw [kept, sinceClear_get, List.findSome?_append]
  simp [kept]

theorem kept_clear (calls : List (Call α)) (key : Text) : kept key (calls ++ [.clear]) = none := by
  rw [kept, sinceClear_clear]
  rfl

theorem kept_eq_none_iff {key : Text} {calls : List (Call α)} :
    kept key calls = none ↔ ∀ a, Call.get key (.ok a) ∉ sinceClear calls := by
  rw [kept, List.findSome?_eq_none_iff]
  constructor
  · intro h a hmem
    have := h _ hmem
    simp [Call.value?] at this
  · intro h c hc
    rw [Option.eq_none_iff_forall_ne_some]
    intro a ha
    obtain rfl := Call.value?_eq_some_iff.1 ha
    exact h a hc

theorem kept_of_first {key : Text} {calls before after : List (Call α)} {a : α}
    (h : sinceClear calls = before ++ .get key (.ok a) :: after)
    (hbefore : ∀ b, Call.get key (.ok b) ∉ before) : kept key calls = some a := by
  rw [kept, List.findSome?_eq_some_iff]
  refine ⟨before, .get key (.ok a), after, h, by simp [Call.value?], fun c hc => ?_⟩
  rw [Option.eq_none_iff_forall_ne_some]
  intro b hb
  obtain rfl := Call.value?_eq_some_iff.1 hb
  exact hbefore b hc

theorem successes_concat (earlier calls : List (Call α)) (c : Call α) :
    successes earlier (calls ++ [c])
      = successes earlier calls + (succeeds (earlier ++ calls) c).toNat := by
  induction calls generalizing earlier with
  | nil => simp [successes]
  | cons d calls ih => simp [successes, ih, Nat.add_assoc]

/-! ## What a call does -/

/-- The memo keeps what the history says, and has counted it. -/
structure Tracks (m : Memo α) (calls : List (Call α))
    (answers : List (Option (Except ParseError α))) : Prop where
  find?_eq : ∀ key, m.find? key = kept key calls
  uses_eq : m.hits + m.misses = answers.countP gaveValue
  misses_eq : m.misses = successes [] calls

theorem get_of_some {m : Memo α} {key : Text} {a : α} (h : m.find? key = some a)
    (build : Except ParseError α) : m.get key build = (.ok a, m.hit) := by
  simp [get, h]

theorem get_of_none {m : Memo α} {key : Text} (h : m.find? key = none)
    (build : Except ParseError α) : m.get key build = match build with
      | .ok a => (.ok a, m.store key a)
      | .error e => (.error e, m) := by
  unfold get
  rw [h]
  rcases build with _ | _ <;> rfl

variable {m : Memo α} {calls : List (Call α)} {answers : List (Option (Except ParseError α))}

theorem Tracks.hit (h : m.Tracks calls answers) {key : Text} {a : α}
    (hk : m.find? key = some a) (build : Except ParseError α) :
    m.hit.Tracks (calls ++ [.get key build]) (answers ++ [some (.ok a)]) := by
  rw [h.find?_eq] at hk
  refine ⟨fun key' => ?_, ?_, ?_⟩
  · rw [find?_hit, h.find?_eq, kept_get]
    by_cases hkey : key = key'
    · rw [← hkey, hk]
      rfl
    · rcases build with _ | b <;> simp [Call.value?, hkey]
  · have := h.uses_eq
    simp only [Memo.hit, List.countP_append, List.countP_singleton, gaveValue, if_true]
    omega
  · rw [successes_concat, ← h.misses_eq]
    rcases build with _ | b <;> simp [succeeds, hk, Memo.hit]

theorem Tracks.store (h : m.Tracks calls answers) {key : Text} (hk : m.find? key = none) (a : α) :
    (m.store key a).Tracks (calls ++ [.get key (.ok a)]) (answers ++ [some (.ok a)]) := by
  rw [h.find?_eq] at hk
  refine ⟨fun key' => ?_, ?_, ?_⟩
  · rw [find?_store, h.find?_eq, kept_get]
    by_cases hkey : key' = key
    · simp [hkey, hk, Call.value?]
    · simp [hkey, Call.value?, Ne.symm hkey]
  · have := h.uses_eq
    simp only [Memo.store, List.countP_append, List.countP_singleton, gaveValue, if_true]
    omega
  · rw [successes_concat, ← h.misses_eq]
    simp [succeeds, hk, Memo.store]

/-- A build that fails changes neither the table nor a count. -/
theorem Tracks.fail (h : m.Tracks calls answers) (key : Text) (e : ParseError) :
    m.Tracks (calls ++ [.get key (.error e)]) (answers ++ [some (.error e)]) := by
  refine ⟨fun key' => ?_, ?_, ?_⟩
  · rw [h.find?_eq, kept_get]
    simp [Call.value?]
  · rw [h.uses_eq]
    simp [gaveValue]
  · rw [successes_concat, ← h.misses_eq]
    simp [succeeds]

theorem Tracks.clear (h : m.Tracks calls answers) :
    m.clear.Tracks (calls ++ [.clear]) (answers ++ [none]) := by
  refine ⟨fun key' => ?_, ?_, ?_⟩
  · rw [find?_clear, kept_clear]
  · have := h.uses_eq
    simpa [Memo.clear, gaveValue] using this
  · rw [successes_concat, ← h.misses_eq]
    simp [succeeds, Memo.clear]

theorem Tracks.perform (h : m.Tracks calls answers) : ∀ c : Call α,
    (m.perform c).2.Tracks (calls ++ [c]) (answers ++ [(m.perform c).1])
  | .clear => h.clear
  | .get key build => by
    rcases hk : m.find? key with _ | a
    · rcases build with e | a <;> simp only [Memo.perform, get_of_none hk]
      · exact h.fail key e
      · exact h.store hk a
    · simp only [Memo.perform, get_of_some hk]
      exact h.hit hk build

theorem Tracks.run : ∀ (later : List (Call α)) {m : Memo α} {calls : List (Call α)}
    {answers : List (Option (Except ParseError α))}, m.Tracks calls answers →
      (m.run later).2.Tracks (calls ++ later) (answers ++ (m.run later).1)
  | [], m, calls, answers, h => by simpa [Memo.run] using h
  | c :: later, m, calls, answers, h => by
    have := Tracks.run later (h.perform c)
    simpa [Memo.run] using this

theorem tracks_run (calls : List (Call α)) :
    (run {} calls).2.Tracks calls (run {} calls).1 := by
  have hempty : ({} : Memo α).Tracks [] [] := ⟨fun _ => rfl, rfl, rfl⟩
  simpa using hempty.run calls

/-! ## What the history says of a call -/

/-- A call for the key runs its build: it answers with the outcome of the build. -/
def Runs (m : Memo α) (key : Text) : Prop :=
  ∀ build : Except ParseError α, (m.get key build).1 = build

/-- What the calls so far say of the next call and of the counts. -/
structure Reflects (m : Memo α) (calls : List (Call α)) : Prop where
  runs_iff : ∀ key, m.Runs key ↔ ∀ a, Call.get key (.ok a) ∉ sinceClear calls
  /-- A value that was built is given back, and the build makes no difference. -/
  gives_first : ∀ key a before after, sinceClear calls = before ++ .get key (.ok a) :: after →
    (∀ b, Call.get key (.ok b) ∉ before) → ∀ build : Except ParseError α,
      m.get key build = (.ok a, m.hit)
  failed : ∀ key (e : ParseError), m.Runs key → m.get key (.error e) = (.error e, m)
  uses_eq : m.hits + m.misses = (run {} calls).1.countP gaveValue
  misses_eq : m.misses = successes [] calls
  /-- A reading through this memo leaves out its build, or has the result of its build. -/
  reading : ∀ (table : Table α) (j : Journal), table.memo j.cache = m → ∀ key,
    (m.Runs key → ∀ build : Reading α,
      ((Reading.remember table key build).run.run j).1 = (build.run.run j).1)
    ∧ (¬ m.Runs key → ∀ build build' : Reading α,
      (Reading.remember table key build).run.run j = (Reading.remember table key build').run.run j)

theorem runs_iff_find? {key : Text} : m.Runs key ↔ m.find? key = none := by
  constructor
  · intro h
    rw [Option.eq_none_iff_forall_ne_some]
    intro a ha
    have := h (.error .missingOutput)
    rw [get_of_some ha] at this
    injection this
  · intro h build
    rw [get_of_none h]
    rcases build with _ | _ <;> rfl

theorem run_remember_of_runs {key : Text} {table : Table α} {j : Journal}
    (h : (table.memo j.cache).Runs key) (build : Reading α) :
    ((Reading.remember table key build).run.run j).1 = (build.run.run j).1 := by
  rw [Reading.run_remember, runs_iff_find?.1 h]
  rcases build.run.run j with ⟨_ | _, _⟩ <;> rfl

theorem run_remember_of_not_runs {key : Text} {table : Table α} {j : Journal}
    (h : ¬ (table.memo j.cache).Runs key) (build build' : Reading α) :
    (Reading.remember table key build).run.run j
      = (Reading.remember table key build').run.run j := by
  rw [runs_iff_find?] at h
  obtain ⟨a, ha⟩ := Option.ne_none_iff_exists'.1 h
  rw [Reading.run_remember, Reading.run_remember, ha]

/-- After every sequence of calls, the memo and its counts are what the history says. -/
theorem reflects_run (calls : List (Call α)) : (run {} calls).2.Reflects calls := by
  have h := tracks_run calls
  refine ⟨fun key => ?_, fun key a before after hsince hbefore build => ?_,
    fun key e hruns => ?_, h.uses_eq, h.misses_eq, ?_⟩
  · rw [runs_iff_find?, h.find?_eq, kept_eq_none_iff]
  · exact get_of_some ((h.find?_eq key).trans (kept_of_first hsince hbefore)) build
  · rw [get_of_none (runs_iff_find?.1 hruns)]
  · rintro table j hm key
    rw [← hm]
    exact ⟨run_remember_of_runs, run_remember_of_not_runs⟩

/-- A build that fails leaves no trace, the second value for a key is not built, and the third is
built again after a clear. -/
example : run {} [.get ['k'] (.error .missingOutput), .get ['k'] (.ok 1), .get ['k'] (.ok 2),
      .clear, .get ['k'] (.ok 3)]
    = ([some (.error .missingOutput), some (.ok 1), some (.ok 1), none, some (.ok 3)],
      { entries := [(['k'], 3)], hits := 1, misses := 2 }) := rfl

end Memo

end TypeSig
