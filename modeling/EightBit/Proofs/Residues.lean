/-
What the lines of a program text say, stated without an algorithm. A text is divided into lines, a
line loses its first comment, and what is left loses the blanks around it; each of the three is a
relation between texts here. The main results say that each relation holds of exactly one result,
namely the one that is computed, so every text has its residues and no others.
-/

import EightBit.Source
import Mathlib.Data.List.DropRight
import Mathlib.Data.List.Forall2

namespace EightBit.Source

/-! ### Lines -/

/-- A text divided into lines. A line goes up to a line feed, or to a carriage return with a line
feed behind it, or to the end of the text. -/
inductive Divided : List Char → List (List Char) → Prop
  | last {line : List Char} (whole : '\n' ∉ line) : Divided line [line]
  | feed {line rest : List Char} {more : List (List Char)} (whole : '\n' ∉ line)
      (bare : line.getLast? ≠ some '\r') (divided : Divided rest more) :
      Divided (line ++ '\n' :: rest) (line :: more)
  | returnFeed {line rest : List Char} {more : List (List Char)} (whole : '\n' ∉ line)
      (divided : Divided rest more) : Divided (line ++ '\r' :: '\n' :: rest) (line :: more)

/-- No line has a line feed in it. -/
theorem Divided.whole_of_mem {text line : List Char} {parts : List (List Char)}
    (divided : Divided text parts) (member : line ∈ parts) : '\n' ∉ line := by
  induction divided with
  | last whole =>
    rw [List.mem_singleton] at member
    exact member ▸ whole
  | feed whole _ _ inductionHypothesis | returnFeed whole _ inductionHypothesis =>
    rcases List.mem_cons.mp member with rfl | member
    · exact whole
    · exact inductionHypothesis member

/-- A character at the front belongs to the first line, unless it ends that line. -/
theorem Divided.cons {char : Char} {text line : List Char} {more : List (List Char)}
    (divided : Divided text (line :: more)) (notFeed : char ≠ '\n')
    (notPair : ∀ rest, char = '\r' → text ≠ '\n' :: rest) :
    Divided (char :: text) ((char :: line) :: more) := by
  have longer {line : List Char} (whole : '\n' ∉ line) : '\n' ∉ char :: line := by
    rw [List.mem_cons, not_or]
    exact ⟨notFeed.symm, whole⟩
  cases divided with
  | last whole => exact .last (longer whole)
  | returnFeed whole divided => exact .returnFeed (longer whole) divided
  | @feed _ rest _ whole bare divided =>
    refine .feed (longer whole) ?_ divided
    cases line with
    | nil =>
      intro last
      exact notPair rest (Option.some.inj last) rfl
    | cons first others =>
      rw [List.getLast?_cons_cons]
      exact bare

theorem divided_lines (text : List Char) : Divided text (lines text) := by
  fun_induction lines text with
  | case1 => exact .last List.not_mem_nil
  | case2 rest inductionHypothesis =>
    exact .feed List.not_mem_nil (by simp) inductionHypothesis
  | case3 rest inductionHypothesis =>
    exact .returnFeed List.not_mem_nil inductionHypothesis
  | case4 char rest notFeed notPair empty inductionHypothesis =>
    rw [empty] at inductionHypothesis
    cases inductionHypothesis
  | case5 char rest notFeed notPair line more found inductionHypothesis =>
    rw [found] at inductionHypothesis
    exact inductionHypothesis.cons notFeed notPair

theorem lines_cons {char : Char} {text line : List Char} {more : List (List Char)}
    (found : lines text = line :: more) (notFeed : char ≠ '\n')
    (notPair : ∀ rest, char = '\r' → text ≠ '\n' :: rest) :
    lines (char :: text) = (char :: line) :: more := by
  rw [lines, found]
  · exact notFeed
  · exact notPair

/-- A line without a line feed does not begin with one, whatever stands behind it. -/
theorem append_ne_feed {line behind : List Char} (whole : '\n' ∉ line)
    (next : line = [] → behind.head? ≠ some '\n') (rest : List Char) :
    line ++ behind ≠ '\n' :: rest := by
  intro begins
  cases line with
  | nil =>
    have same : behind = '\n' :: rest := begins
    exact next rfl (by rw [same]; rfl)
  | cons first others =>
    obtain ⟨rfl, -⟩ := List.cons_eq_cons.mp begins
    exact whole List.mem_cons_self

theorem lines_of_whole {line : List Char} (whole : '\n' ∉ line) : lines line = [line] := by
  induction line with
  | nil => rfl
  | cons char line inductionHypothesis =>
    rw [List.mem_cons, not_or] at whole
    refine lines_cons (inductionHypothesis whole.2) (Ne.symm whole.1) fun rest _ begins => ?_
    rw [begins] at whole
    exact whole.2 List.mem_cons_self

theorem lines_append_feed {line : List Char} (rest : List Char) (whole : '\n' ∉ line)
    (bare : line.getLast? ≠ some '\r') : lines (line ++ '\n' :: rest) = line :: lines rest := by
  induction line with
  | nil => rfl
  | cons char line inductionHypothesis =>
    rw [List.mem_cons, not_or] at whole
    have shorter : line.getLast? ≠ some '\r' := by
      cases line with
      | nil => simp
      | cons first others =>
        rw [List.getLast?_cons_cons] at bare
        exact bare
    refine lines_cons (inductionHypothesis whole.2 shorter) (Ne.symm whole.1) ?_
    intro more carriage
    -- the line does not end in a carriage return, so one at its front is followed by something
    refine append_ne_feed whole.2 (fun alone => ?_) more
    rw [alone, carriage] at bare
    exact absurd rfl bare

theorem lines_append_returnFeed {line : List Char} (rest : List Char) (whole : '\n' ∉ line) :
    lines (line ++ '\r' :: '\n' :: rest) = line :: lines rest := by
  induction line with
  | nil => rfl
  | cons char line inductionHypothesis =>
    rw [List.mem_cons, not_or] at whole
    refine lines_cons (inductionHypothesis whole.2) (Ne.symm whole.1) fun more _ => ?_
    exact append_ne_feed whole.2 (fun _ => by simp) more

/-- A text can be divided in one way only. -/
theorem divided_iff {text : List Char} {parts : List (List Char)} :
    Divided text parts ↔ parts = lines text := by
  constructor
  · intro divided
    induction divided with
    | last whole => exact (lines_of_whole whole).symm
    | feed whole bare _ inductionHypothesis =>
      rw [lines_append_feed _ whole bare, inductionHypothesis]
    | returnFeed whole _ inductionHypothesis =>
      rw [lines_append_returnFeed _ whole, inductionHypothesis]
  · rintro rfl
    exact divided_lines text

/-! ### Comments -/

/-- A character at which a comment stops although its line goes on. -/
def Interrupts (char : Char) : Prop :=
  char = '\r' ∨ char = '\u2028' ∨ char = '\u2029'

/-- A line and what is left of it without its first comment: the first number sign, and what follows
it up to a character that stops a comment, or to the end. -/
inductive Uncommented : List Char → List Char → Prop
  | plain {line : List Char} (clear : '#' ∉ line) : Uncommented line line
  | stripped {before comment after : List Char} (first : '#' ∉ before)
      (running : ∀ char ∈ comment, ¬ Interrupts char)
      (stopped : ∀ char, after.head? = some char → Interrupts char) :
      Uncommented (before ++ '#' :: comment ++ after) (before ++ after)

theorem endsComment_iff {char : Char} (notFeed : char ≠ '\n') :
    endsComment char = true ↔ Interrupts char := by
  have code (other : Char) : char.toNat = other.toNat ↔ char = other := Char.toNat_inj
  have separator := code '\u2028'
  have paragraph := code '\u2029'
  unfold endsComment Interrupts
  simp only [Bool.or_eq_true, decide_eq_true_eq, notFeed, false_or, or_assoc]
  exact or_congr_right (or_congr separator paragraph)

section

variable {test : Char → Bool} {front behind : List Char}
  (passed : ∀ char ∈ front, test char = true)
  (failed : ∀ char, behind.head? = some char → test char = false)

include passed failed

theorem takeWhile_append_of_stop : (front ++ behind).takeWhile test = front := by
  rw [List.takeWhile_append_of_pos passed]
  cases behind with
  | nil => exact List.append_nil front
  | cons char rest =>
    rw [List.takeWhile_cons_of_neg (by rw [failed char rfl]; exact Bool.false_ne_true)]
    exact List.append_nil front

theorem dropWhile_append_of_stop : (front ++ behind).dropWhile test = behind := by
  rw [List.dropWhile_append_of_pos passed]
  cases behind with
  | nil => rfl
  | cons char rest =>
    exact List.dropWhile_cons_of_neg (by rw [failed char rfl]; exact Bool.false_ne_true)

end

/-- What is left after dropping begins with a character that fails the test, if it begins. -/
theorem test_of_head?_dropWhile {test : Char → Bool} {text : List Char} {char : Char}
    (first : (text.dropWhile test).head? = some char) : test char = false := by
  have stopped := List.head?_dropWhile_not test text
  rw [first] at stopped
  exact stopped

/-- Only what comes behind the first number sign can be part of a comment. -/
theorem withoutComment_append {before : List Char} (behind : List Char) (first : '#' ∉ before)
    (sign : ∀ char, behind.head? = some char → char = '#') :
    withoutComment (before ++ behind) =
      before ++ behind.dropWhile fun char => !endsComment char := by
  have passed : ∀ char ∈ before, decide (char ≠ '#') = true := by
    intro char member
    exact decide_eq_true fun same => first (same ▸ member)
  have failed : ∀ char, behind.head? = some char → decide (char ≠ '#') = false := by
    intro char begins
    exact decide_eq_false (not_not_intro (sign char begins))
  unfold withoutComment
  rw [takeWhile_append_of_stop passed failed, dropWhile_append_of_stop passed failed]

theorem not_endsComment_iff {line : List Char} {char : Char} (whole : '\n' ∉ line)
    (member : char ∈ line) : (!endsComment char) = true ↔ ¬ Interrupts char := by
  rw [← endsComment_iff fun feed => whole (feed ▸ member), Bool.not_eq_true', Bool.not_eq_true]

theorem eq_withoutComment {line rest : List Char} (whole : '\n' ∉ line)
    (uncommented : Uncommented line rest) : rest = withoutComment line := by
  cases uncommented with
  | plain clear =>
    have kept := withoutComment_append [] clear fun char begins => by cases begins
    rw [List.append_nil, List.dropWhile_nil, List.append_nil] at kept
    exact kept.symm
  | @stripped before comment after first running stopped =>
    rw [List.append_assoc] at whole ⊢
    have passed : ∀ char ∈ '#' :: comment, (!endsComment char) = true := by
      intro char member
      rcases List.mem_cons.mp member with rfl | inside
      · decide
      · have place : char ∈ before ++ ('#' :: comment ++ after) := by simp [inside]
        exact (not_endsComment_iff whole place).mpr (running char inside)
    have failed : ∀ char, after.head? = some char → (!endsComment char) = false := by
      intro char begins
      have inside : char ∈ after := List.mem_of_head? begins
      have place : char ∈ before ++ ('#' :: comment ++ after) := by simp [inside]
      rw [← Bool.not_eq_true, not_endsComment_iff whole place, not_not]
      exact stopped char begins
    have sign : ∀ char, ('#' :: comment ++ after).head? = some char → char = '#' :=
      fun char begins => (Option.some.inj begins).symm
    rw [withoutComment_append _ first sign, dropWhile_append_of_stop passed failed]

theorem exists_uncommented {line : List Char} (whole : '\n' ∉ line) :
    ∃ rest, Uncommented line rest := by
  by_cases sign : '#' ∈ line
  · obtain ⟨before, tail, rfl, first⟩ := List.eq_append_cons_of_mem sign
    have place {char : Char} (inside : char ∈ tail) : char ∈ before ++ '#' :: tail := by
      simp [inside]
    have split : before ++ '#' :: tail =
        before ++ '#' :: tail.takeWhile (fun char => !endsComment char) ++
          tail.dropWhile fun char => !endsComment char := by
      rw [List.append_assoc, List.cons_append, List.takeWhile_append_dropWhile]
    refine ⟨before ++ tail.dropWhile fun char => !endsComment char, ?_⟩
    rw [split]
    refine .stripped first (fun char member => ?_) fun char begins => ?_
    · have inside := (List.takeWhile_sublist _).mem member
      have passed : (!endsComment char) = true :=
        List.mem_takeWhile_imp (p := fun char => !endsComment char) member
      exact (not_endsComment_iff whole (place inside)).mp passed
    · have inside := (List.dropWhile_sublist _).mem (List.mem_of_head? begins)
      have ends := test_of_head?_dropWhile begins
      rw [← Bool.not_eq_true, not_endsComment_iff whole (place inside), not_not] at ends
      exact ends
  · exact ⟨line, .plain sign⟩

/-- A line has one remainder without its first comment. -/
theorem uncommented_iff {line rest : List Char} (whole : '\n' ∉ line) :
    Uncommented line rest ↔ rest = withoutComment line := by
  refine ⟨eq_withoutComment whole, ?_⟩
  rintro rfl
  obtain ⟨other, uncommented⟩ := exists_uncommented whole
  exact eq_withoutComment whole uncommented ▸ uncommented

/-! ### Blanks -/

/-- The characters that count as blank: tabs and line ends, the spaces, and the byte order mark. -/
def blanks : List Nat :=
  [0x0009, 0x000A, 0x000B, 0x000C, 0x000D, 0x0020, 0x00A0, 0x1680, 0x2000, 0x2001, 0x2002, 0x2003,
    0x2004, 0x2005, 0x2006, 0x2007, 0x2008, 0x2009, 0x200A, 0x2028, 0x2029, 0x202F, 0x205F, 0x3000,
    0xFEFF]

def Blank (char : Char) : Prop :=
  char.toNat ∈ blanks

instance (char : Char) : Decidable (Blank char) :=
  inferInstanceAs (Decidable (_ ∈ _))

theorem isBlank_iff (char : Char) : Text.isBlank char = true ↔ Blank char := by
  unfold Text.isBlank Blank blanks
  simp only [Bool.or_eq_true, Bool.and_eq_true, decide_eq_true_eq, beq_iff_eq, List.mem_cons,
    List.not_mem_nil, or_false]
  omega

/-- A text and its core: blanks around the core are left out, and none are left at its ends. -/
inductive Trimmed : List Char → List Char → Prop
  | around {left core right : List Char} (before : ∀ char ∈ left, Blank char)
      (after : ∀ char ∈ right, Blank char)
      (first : ∀ char, core.head? = some char → ¬ Blank char)
      (last : ∀ char, core.getLast? = some char → ¬ Blank char) :
      Trimmed (left ++ core ++ right) core

theorem isBlank_eq_false {char : Char} (other : ¬ Blank char) : Text.isBlank char = false := by
  rw [← isBlank_iff, Bool.not_eq_true] at other
  exact other

theorem eq_trim {text core : List Char} (trimmed : Trimmed text core) : core = Text.trim text := by
  cases trimmed with
  | @around left _ right before after first last =>
    have leading : ∀ char ∈ left, Text.isBlank char = true :=
      fun char member => (isBlank_iff char).mpr (before char member)
    have trailing : ∀ char ∈ right.reverse, Text.isBlank char = true :=
      fun char member => (isBlank_iff char).mpr (after char (List.mem_reverse.mp member))
    have ending : ∀ char, core.reverse.head? = some char → Text.isBlank char = false := by
      intro char begins
      rw [List.head?_reverse] at begins
      exact isBlank_eq_false (last char begins)
    have rest : Text.trimRight (core ++ right) = core := by
      unfold Text.trimRight
      rw [List.reverse_append, dropWhile_append_of_stop trailing ending, List.reverse_reverse]
    unfold Text.trim Text.trimLeft
    rw [List.append_assoc, List.dropWhile_append_of_pos leading]
    cases core with
    | nil =>
      -- with nothing between them, the blanks on the right go with those on the left
      have blank : right.dropWhile Text.isBlank = [] := by
        rw [List.dropWhile_eq_nil_iff]
        exact fun char member => trailing char (List.mem_reverse.mpr member)
      rw [List.nil_append, blank]
      rfl
    | cons char others =>
      have solid := isBlank_eq_false (first char rfl)
      rw [List.cons_append, List.dropWhile_cons_of_neg (by rw [solid]; exact Bool.false_ne_true)]
      exact rest.symm

theorem exists_trimmed (text : List Char) : ∃ core, Trimmed text core := by
  have split : text = text.takeWhile Text.isBlank ++
      (text.dropWhile Text.isBlank).rdropWhile Text.isBlank ++
        (text.dropWhile Text.isBlank).rtakeWhile Text.isBlank := by
    rw [List.append_assoc, List.rdropWhile_append_rtakeWhile, List.takeWhile_append_dropWhile]
  have solid {char : Char} (other : Text.isBlank char = false) : ¬ Blank char := by
    rw [← isBlank_iff, other]
    exact Bool.false_ne_true
  have core : Trimmed (text.takeWhile Text.isBlank ++
      (text.dropWhile Text.isBlank).rdropWhile Text.isBlank ++
        (text.dropWhile Text.isBlank).rtakeWhile Text.isBlank)
      ((text.dropWhile Text.isBlank).rdropWhile Text.isBlank) := by
    refine .around (fun char member => ?_) (fun char member => ?_) (fun char begins => ?_)
      fun char ends => ?_
    · exact (isBlank_iff char).mp (List.mem_takeWhile_imp member)
    · exact (isBlank_iff char).mp (List.mem_rtakeWhile_imp member)
    · obtain ⟨rest, whole⟩ := List.rdropWhile_prefix Text.isBlank (text.dropWhile Text.isBlank)
      have first : (text.dropWhile Text.isBlank).head? = some char := by
        rw [← whole, List.head?_append, begins]
        rfl
      exact solid (test_of_head?_dropWhile first)
    · rw [List.rdropWhile, List.getLast?_reverse] at ends
      exact solid (test_of_head?_dropWhile ends)
  rw [← split] at core
  exact ⟨_, core⟩

/-- A text has one core. -/
theorem trimmed_iff {text core : List Char} : Trimmed text core ↔ core = Text.trim text := by
  refine ⟨eq_trim, ?_⟩
  rintro rfl
  obtain ⟨other, trimmed⟩ := exists_trimmed text
  exact eq_trim trimmed ▸ trimmed

/-! ### Residues -/

/-- What a line says: the core of what is left without its first comment. -/
def IsResidue (line text : List Char) : Prop :=
  ∃ rest, Uncommented line rest ∧ Trimmed rest text

theorem isResidue_iff {line text : List Char} (whole : '\n' ∉ line) :
    IsResidue line text ↔ text = residue line := by
  unfold IsResidue residue
  simp only [uncommented_iff whole, trimmed_iff, exists_eq_left]

/-- What the lines of a text say, in order. -/
def AreResidues (text : List Char) (residues : List (List Char)) : Prop :=
  ∃ parts, Divided text parts ∧ List.Forall₂ IsResidue parts residues

theorem forall₂_isResidue_iff {parts residues : List (List Char)}
    (whole : ∀ line ∈ parts, '\n' ∉ line) :
    List.Forall₂ IsResidue parts residues ↔ residues = parts.map residue := by
  induction parts generalizing residues with
  | nil => exact List.forall₂_nil_left_iff
  | cons line parts inductionHypothesis =>
    have others : ∀ line ∈ parts, '\n' ∉ line :=
      fun other member => whole other (List.mem_cons_of_mem line member)
    rw [List.forall₂_cons_left_iff, List.map_cons]
    constructor
    · rintro ⟨text, rest, front, behind, rfl⟩
      rw [isResidue_iff (whole line List.mem_cons_self)] at front
      rw [inductionHypothesis others] at behind
      rw [front, behind]
    · rintro rfl
      exact ⟨_, _, (isResidue_iff (whole line List.mem_cons_self)).mpr rfl,
        (inductionHypothesis others).mpr rfl, rfl⟩

/-- A text has its residues and no others. -/
theorem areResidues_iff {text : List Char} {residues : List (List Char)} :
    AreResidues text residues ↔ residues = (lines text).map residue := by
  unfold AreResidues
  simp only [divided_iff, exists_eq_left]
  exact forall₂_isResidue_iff fun line member => (divided_lines text).whole_of_mem member

end EightBit.Source
