import TypeSig.CommandLine.Arguments
import TypeSig.Proofs.Outlines

/-!
# Every invocation can be asked for

`Invocation.arguments` lists arguments for an invocation: its switches, its format, its aliases and
then its input after `--`, so that an input which looks like an option is not mistaken for one. They
are read as the invocation (`ofArguments_arguments`). Reading goes from left to right, so there is
one lemma for each group of arguments, which says how the draft grows by it.
-/

namespace TypeSig.CommandLine

namespace Draft

variable {d : Draft}

theorem settle_of_none (h : d.pending = none) : d.settle = .ok d := by
  rw [settle, h]

theorem turnOn_of_notMem {s : Switch} (h : .switch s ∉ d.given) : d.turnOn s = .ok
    { d with
      typeOnly := d.typeOnly || s = .typeOnly
      lenient := d.lenient || s = .lenient
      verbose := d.verbose || s = .verbose
      given := d.given ++ [.switch s] } := by
  rw [turnOn, if_neg h, give, if_neg h]
  cases s <;> simp

/-- Switches are taken up one after the other, if none is repeated. -/
theorem read_switches (rest : List Argument) : ∀ {ss : List Switch} {d : Draft}, ss.Nodup →
    (∀ s ∈ ss, .switch s ∉ d.given) → d.pending = none →
    read d (ss.map .switch ++ rest) = read { d with
      typeOnly := d.typeOnly || .typeOnly ∈ ss
      lenient := d.lenient || .lenient ∈ ss
      verbose := d.verbose || .verbose ∈ ss
      given := d.given ++ ss.map .switch } rest
  | [], d, _, _, _ => by simp
  | s :: ss, d, hnodup, hnew, hd => by
    obtain ⟨hs, hnodup⟩ := List.nodup_cons.1 hnodup
    rw [List.map_cons, List.cons_append, read, settle_of_none hd, ok_bind,
      turnOn_of_notMem (hnew s List.mem_cons_self), ok_bind, read_switches rest hnodup ?_ ?_]
    · simp [Bool.or_assoc, eq_comm]
    · intro s' hs'
      have hne : s' ≠ s := fun h => hs (h ▸ hs')
      simp [hnew s' (List.mem_cons_of_mem _ hs'), hne]
    · exact hd

theorem read_format {f : Format} (hnew : .setting .format ∉ d.given) (hd : d.pending = none)
    (rest : List Argument) :
    read d (.setting .format (some f.name.toList) :: rest)
      = read { d with format := some f, given := d.given ++ [.setting .format] } rest := by
  have hf : Format.ofText? f.name.toList = some f := by cases f <;> rfl
  have hset : d.set .format f.name.toList
      = .ok { d with format := some f, given := d.given ++ [.setting .format] } := by
    simp [set, give, hnew, hf]
  rw [read, settle_of_none hd, ok_bind, hset, ok_bind]

theorem set_alias {raw : Text} {a : Alias} (h : Alias.ofText? raw = some a) (d : Draft) :
    ∃ given, d.set .aliases raw = .ok { d with aliases := d.aliases ++ [a], given } := by
  simp only [set, h, give]
  split_ifs <;> exact ⟨_, rfl⟩

theorem read_operand (hd : d.pending = none) (hi : d.input = none) (t : Text) :
    read d [.operand t] = .ok (.invoke (d.invocation t)) := by
  have hplace : d.place t = .ok { d with input := some t } := by
    rw [place, hi, settle_of_none hd]
    rfl
  rw [read, hplace, ok_bind, read, settle_of_none (d := { d with input := some t }) hd]
  rfl

/-- Aliases are taken up one after the other, and then the input. -/
theorem read_aliases {raws : List Text} {aliases : List Alias}
    (h : List.Forall₂ (fun raw a => Alias.ofText? raw = some a) raws aliases) (t : Text) :
    ∀ {d : Draft}, d.pending = none → d.input = none →
      read d (raws.map (fun raw => .setting .aliases (some raw)) ++ [.operand t])
        = .ok (.invoke ({ d with aliases := d.aliases ++ aliases }.invocation t)) := by
  induction h with
  | nil =>
    intro d hd hi
    rw [List.map_nil, List.nil_append, read_operand hd hi, List.append_nil]
  | @cons raw a raws aliases ha _ ih =>
    intro d hd hi
    obtain ⟨given, hset⟩ := set_alias ha d
    have ih := ih (d := { d with aliases := d.aliases ++ [a], given }) hd hi
    rw [List.append_assoc] at ih
    rw [List.map_cons, List.cons_append, read, settle_of_none hd, ok_bind, hset, ok_bind]
    exact ih

end Draft

namespace Invocation

/-- The switches that are on. -/
def switches (i : Invocation) : List Switch :=
  [.typeOnly, .lenient, .verbose].filter fun
    | .typeOnly => i.typeOnly
    | .lenient => i.lenient
    | .verbose => i.verbose

/-- Arguments that ask for an invocation, whose aliases are written as `raws`. -/
def arguments (i : Invocation) (raws : List Text) : List Text :=
  i.switches.map (fun s => "--".toList ++ (OptionName.switch s).long.toList)
    ++ ("--format=".toList ++ i.format.name.toList)
    :: (raws.map ("--alias=".toList ++ ·) ++ ["--".toList, i.input])

end Invocation

namespace Argument

theorem ofTexts_switches (ts : List Text) : ∀ ss : List Switch,
    ofTexts (ss.map (fun s => "--".toList ++ (OptionName.switch s).long.toList) ++ ts)
      = ss.map .switch ++ ofTexts ts
  | [] => rfl
  | s :: ss => by
    cases s <;> exact congrArg (switch _ :: ·) (ofTexts_switches ts ss)

theorem ofTexts_format (f : Format) (ts : List Text) :
    ofTexts (("--format=".toList ++ f.name.toList) :: ts)
      = .setting .format (some f.name.toList) :: ofTexts ts := by
  cases f <;> rfl

theorem ofTexts_aliases (input : Text) : ∀ raws : List Text,
    ofTexts (raws.map ("--alias=".toList ++ ·) ++ ["--".toList, input])
      = raws.map (fun raw => .setting .aliases (some raw)) ++ [.operand input]
  | [] => rfl
  | raw :: raws => congrArg (setting .aliases (some raw) :: ·) (ofTexts_aliases input raws)

end Argument

theorem Request.ofArguments_arguments {i : Invocation} {raws : List Text}
    (h : List.Forall₂ (fun raw a => Alias.ofText? raw = some a) raws i.aliases) :
    ofArguments (i.arguments raws) = .ok (.invoke i) := by
  have hnodup : i.switches.Nodup := List.Pairwise.filter _ (by decide)
  rw [ofArguments, Invocation.arguments, Argument.ofTexts_switches, Argument.ofTexts_format,
    Argument.ofTexts_aliases, Draft.read_switches _ hnodup (by simp) rfl,
    Draft.read_format (by simp) rfl, Draft.read_aliases h _ rfl rfl]
  simp [Draft.invocation, Invocation.switches]

end TypeSig.CommandLine
