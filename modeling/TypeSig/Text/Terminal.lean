import TypeSig.Text.Basic

/-!
# Text for a terminal

Text for a terminal can hold control characters and escape sequences, which steer the terminal and
are not shown. `plain` is what is left of such a text where it is shown without a terminal, and
`unstyled` leaves out only the sequences that set colours and type.

A sequence begins with the escape character. What follows it decides how far the sequence reaches:
a control sequence ends with a letter or a sign from `@` to `~`, a command for the operating system
with the bell, and a string with a terminator. An escape character begins the next sequence wherever
it stands. A blank inside an escape or a control sequence is shown and interrupts it: what follows
is shown as well, until a character that is not shown lets the sequence go on, or a character beyond
ASCII puts an end to it.

Only characters that stand for themselves are left (`isShown_of_mem_plain`), and a text of such
characters is left as it is (`plain_eq_self`). A text without an escape character has no styles to
leave out (`unstyled_eq_self`).
-/

namespace TypeSig.Text

/-- What the characters before the next one leave open. -/
inductive Sequence where
  /-- Nothing: the next character stands for itself. -/
  | outside
  /-- An escape character. -/
  | escape
  /-- An escape character and signs that wait for a last one. -/
  | signs
  /-- A control sequence. -/
  | control
  /-- A command for the operating system. -/
  | command
  /-- A string for a device, of whose header nothing is there yet. -/
  | device
  /-- A string for a device, with the parameters in its header. -/
  | deviceParameters
  /-- A string for a device, with the signs that end its header. -/
  | deviceSigns
  /-- A string, after its header if it has one. -/
  | string
  deriving DecidableEq, Repr

/-- Whether a control character moves on and is shown: tab, line feed, form feed and return. -/
def isMove (c : Char) : Bool := c = '\t' || c = '\n' || c = '\x0c' || c = '\r'

/-- Whether a character stands for itself outside of sequences. -/
def isShown (c : Char) : Bool := isMove c || ' ' ≤ c && c != '\x7f'

/-- Whether a character is one of the signs before the digits. -/
def isSign (c : Char) : Bool := ' ' ≤ c && c ≤ '/'

/-- Whether a character ends a string: a byte of its UTF-8 form is the terminator. -/
def endsString (c : Char) : Bool := (String.utf8EncodeChar c).contains 0x9c

namespace Sequence

/-- The sequence that is open after one more character of it. -/
def next (s : Sequence) (c : Char) : Sequence :=
  if c = '\x1b' then escape
  else if c = '\x18' || c = '\x1a' then outside
  else
    match s with
    | outside => outside
    | escape =>
      if isSign c then signs
      else if c = '[' then control
      else if c = ']' then command
      else if c = 'P' then device
      else if c = 'X' || c = '^' || c = '_' then string
      else if '0' ≤ c && c ≤ '~' then outside
      else escape
    | signs => if '0' ≤ c && c ≤ '~' then outside else signs
    | control => if '@' ≤ c && c ≤ '~' then outside else control
    | command => if c = '\x07' then outside else command
    | device =>
      if isSign c then deviceSigns
      else if c != ':' && '0' ≤ c && c ≤ '?' then deviceParameters
      else if '0' ≤ c && c ≤ '~' then string
      else device
    | deviceParameters =>
      if isSign c then deviceSigns
      else if c.isDigit || c = ';' then deviceParameters
      else if '0' ≤ c && c ≤ '~' then string
      else deviceParameters
    | deviceSigns => if '0' ≤ c && c ≤ '~' then string else deviceSigns
    | string => if endsString c then outside else string

/-- Whether a character is shown that comes while the sequence is open. -/
def shows (s : Sequence) (c : Char) : Bool :=
  match s with
  | outside => isShown c
  | escape | signs | control => isMove c
  | command | device | deviceParameters | deviceSigns | string => false

theorem isShown_of_shows {s : Sequence} {c : Char} (h : s.shows c) : isShown c := by
  cases s <;> simp_all [shows, isShown]

theorem next_outside {c : Char} (h : isShown c) : outside.next c = outside := by
  have hc : c ≠ '\x1b' := by rintro rfl; exact absurd h (by decide)
  simp [next, hc]

end Sequence

/-- What a text has come to on its way to the reader. -/
structure Display where
  /-- The sequence that is open. -/
  sequence : Sequence := .outside
  /-- Whether the last character was shown, so that an open sequence is interrupted. -/
  showing : Bool := false
  deriving DecidableEq, Repr

namespace Display

def shows (d : Display) (c : Char) : Bool := if d.showing then isShown c else d.sequence.shows c

/-- The display after one more character. -/
def next (d : Display) (c : Char) : Display where
  sequence :=
    if d.showing && isShown c then if c.toNat < 0x80 then d.sequence else .outside
    else d.sequence.next c
  showing := d.shows c

/-- What is shown of a text. -/
def plain (d : Display) : Text → Text
  | [] => []
  | c :: t => if d.shows c then c :: (d.next c).plain t else (d.next c).plain t

theorem isShown_of_shows {d : Display} {c : Char} (h : d.shows c) : isShown c := by
  unfold shows at h
  split at h
  · exact h
  · exact Sequence.isShown_of_shows h

theorem isShown_of_mem_plain {t : Text} {c : Char} :
    ∀ {d : Display}, c ∈ d.plain t → isShown c := by
  induction t with
  | nil => simp [plain]
  | cons e t ih =>
    intro d h
    by_cases he : d.shows e
    · rw [plain, if_pos he] at h
      rcases List.mem_cons.1 h with rfl | h
      · exact isShown_of_shows he
      · exact ih h
    · rw [plain, if_neg he] at h
      exact ih h

theorem plain_outside {t : Text} (h : ∀ c ∈ t, isShown c) :
    ∀ showing, plain ⟨.outside, showing⟩ t = t := by
  induction t with
  | nil => simp [plain]
  | cons c t ih =>
    intro showing
    have hc := h c (by simp)
    have hs : shows ⟨.outside, showing⟩ c := by cases showing <;> exact hc
    have hn : next ⟨.outside, showing⟩ c = ⟨.outside, true⟩ := by
      simp [next, hs, Sequence.next_outside hc]
    rw [plain, if_pos hs, hn, ih fun d hd => h d (by simp [hd])]

end Display

/-- What is shown of a text. -/
def plain (t : Text) : Text := Display.plain {} t

theorem isShown_of_mem_plain {t : Text} {c : Char} (h : c ∈ plain t) : isShown c :=
  Display.isShown_of_mem_plain h

theorem plain_eq_self {t : Text} (h : ∀ c ∈ t, isShown c) : plain t = t :=
  Display.plain_outside h false

/-- A text in bold type. -/
def bold (s : String) : String := "\x1b[1m" ++ s ++ "\x1b[0m"

/-- The text without its styles, where `held` is the part of a style that was read before it. A
style is an escape character, an opening bracket, digits and semicolons, and the letter `m`. -/
def unstyledFrom : (held : Text) → Text → Text
  | held, [] => held
  | held, c :: t =>
    if c = '\x1b' then held ++ unstyledFrom [c] t
    else
      match held with
      | [] => c :: unstyledFrom [] t
      | [_] => if c = '[' then unstyledFrom (held ++ [c]) t else held ++ c :: unstyledFrom [] t
      | _ =>
        if c = 'm' then unstyledFrom [] t
        else if c.isDigit || c = ';' then unstyledFrom (held ++ [c]) t
        else held ++ c :: unstyledFrom [] t

/-- The text without its styles. -/
def unstyled (t : Text) : Text := unstyledFrom [] t

theorem unstyled_eq_self {t : Text} (h : '\x1b' ∉ t) : unstyled t = t := by
  rw [unstyled]
  induction t with
  | nil => rfl
  | cons c t ih =>
    have hc : c ≠ '\x1b' := fun hc => h (by simp [hc])
    have ht : '\x1b' ∉ t := fun ht => h (by simp [ht])
    simp [unstyledFrom, hc, ih ht]

end TypeSig.Text
