/-
Program texts that differ in their comments only. A comment is meant to go up to the end of its
line, but a carriage return or one of the two separators stops it before, and the rest of the line
is read. Where nothing but blanks are left, the comment is harmless: texts that differ in harmless
comments are read alike, with the same bytes or the same refusal. Other comments are not harmless.
They can have a text refused, or add bytes to it, but they never change or remove a byte; so a text
is read as its statements ask exactly if all its comments are harmless.
-/

import EightBit.Proofs.Writing

namespace EightBit.Source

/-! ### Statements and comments -/

/-- What stands on a line in front of its first number sign. -/
def statement (line : List Char) : List Char :=
  line.takeWhile (· ≠ '#')

/-- What stands on a line from its first number sign on. -/
def commentOf (line : List Char) : List Char :=
  line.dropWhile (· ≠ '#')

/-- Nothing but blanks are left of the comment of a line. -/
def Harmless (line : List Char) : Prop :=
  ∀ char ∈ remainder (commentOf line), Blank char

instance (line : List Char) : Decidable (Harmless line) :=
  List.decidableBAll _ _

/-- Two texts have the same lines but for their comments. -/
def SameStatements (text other : String) : Prop :=
  (lines text.toList).map statement = (lines other.toList).map statement

instance (text other : String) : Decidable (SameStatements text other) :=
  inferInstanceAs (Decidable (_ = _))

/-- What is left of a comment begins with a blank. -/
theorem blank_of_head?_remainder {comment : List Char} {char : Char}
    (first : (remainder comment).head? = some char) : Blank char := by
  have ends := test_of_head?_dropWhile first
  rw [Bool.not_eq_false'] at ends
  by_cases feed : char = '\n'
  · rw [feed]
    decide
  · rcases (endsComment_iff feed).mp ends with rfl | rfl | rfl <;> decide

/-- A comment is harmless if nothing stops it. -/
theorem harmless_of_uninterrupted {line : List Char} (whole : '\n' ∉ line)
    (running : ∀ char ∈ commentOf line, ¬ Interrupts char) : Harmless line := by
  have feedless : '\n' ∉ commentOf line :=
    fun feed => whole ((List.dropWhile_sublist _).mem feed)
  unfold Harmless
  rw [remainder_of_uninterrupted feedless running]
  exact fun _ none => absurd none List.not_mem_nil

/-! ### Blanks behind a text and inside it -/

section

variable {text core right : List Char} {char : Char}

theorem Trimmed.append (trimmed : Trimmed text core) (blank : ∀ char ∈ right, Blank char) :
    Trimmed (text ++ right) core := by
  cases trimmed with
  | @around left _ behind before after first last =>
    rw [List.append_assoc]
    refine .around before (fun char member => ?_) first last
    rcases List.mem_append.mp member with member | member
    · exact after char member
    · exact blank char member

theorem trim_of_blank (blank : ∀ char ∈ text, Blank char) : Text.trim text = [] := by
  have none : Trimmed [] [] := trimmed_iff.mpr rfl
  exact (eq_trim (none.append blank)).symm

/-- Everything but blanks is part of the core. -/
theorem Trimmed.mem_core (trimmed : Trimmed text core) (member : char ∈ text)
    (solid : ¬ Blank char) : char ∈ core := by
  cases trimmed with
  | around before after =>
    rcases List.mem_append.mp member with member | member
    · rcases List.mem_append.mp member with member | member
      · exact absurd (before char member) solid
      · exact member
    · exact absurd (after char member) solid

/-- So is a blank with something else on both sides. -/
theorem Trimmed.mem_core_of_between {front behind : List Char} {first last : Char}
    (trimmed : Trimmed (front ++ char :: behind) core) (before : first ∈ front)
    (firstSolid : ¬ Blank first) (after : last ∈ behind) (lastSolid : ¬ Blank last) :
    char ∈ core := by
  generalize whole : front ++ char :: behind = text at trimmed
  cases trimmed with
  | @around left _ right leftBlank rightBlank =>
    have notRight : last ∉ right := fun member => lastSolid (rightBlank last member)
    rw [List.append_assoc] at whole
    rcases List.append_eq_append_iff.mp whole with ⟨rest, split, -⟩ | ⟨rest, split, tail⟩
    · exact absurd (leftBlank first (split ▸ List.mem_append_left rest before)) firstSolid
    · rcases List.append_eq_append_iff.mp tail with ⟨others, -, ends⟩ | ⟨others, inside, ends⟩
      · have behindCore : last ∈ others ++ char :: behind :=
          List.mem_append_right others (List.mem_cons_of_mem char after)
        exact absurd (ends ▸ behindCore) notRight
      · cases others with
        | nil =>
          have same : char :: behind = right := ends
          exact absurd (same ▸ List.mem_cons_of_mem char after) notRight
        | cons next others =>
          obtain ⟨rfl, -⟩ := List.cons_eq_cons.mp ends
          rw [inside]
          exact List.mem_append_right rest List.mem_cons_self

end

/-! ### What a line says -/

section

variable {line : List Char}

theorem residue_of_harmless (harmless : Harmless line) :
    residue line = Text.trim (statement line) := by
  have trimmed := trimmed_iff.mpr (Eq.refl (Text.trim (statement line)))
  exact (eq_trim (trimmed.append harmless)).symm

theorem trimmed_residue (line : List Char) :
    Trimmed (statement line ++ remainder (commentOf line)) (residue line) :=
  trimmed_iff.mpr rfl

theorem exists_solid (harmful : ¬ Harmless line) :
    ∃ char ∈ remainder (commentOf line), ¬ Blank char := by
  unfold Harmless at harmful
  simpa using harmful

/-- A line says something if something is left of its comment. -/
theorem residue_ne_nil_of_harmful (harmful : ¬ Harmless line) : residue line ≠ [] := by
  obtain ⟨char, member, solid⟩ := exists_solid harmful
  exact List.ne_nil_of_mem
    ((trimmed_residue line).mem_core (List.mem_append_right _ member) solid)

/-- It can be a literal only if the line has no statement: a blank stands between the two. -/
theorem trim_statement_of_harmful (harmful : ¬ Harmless line)
    (literal : IsLiteral (residue line)) : Text.trim (statement line) = [] := by
  obtain ⟨last, member, lastSolid⟩ := exists_solid harmful
  have trimmed := trimmed_residue line
  cases left : remainder (commentOf line) with
  | nil =>
    rw [left] at member
    exact absurd member List.not_mem_nil
  | cons stop rest =>
    have stopBlank : Blank stop := blank_of_head?_remainder (by rw [left]; rfl)
    rw [left] at member trimmed
    have behind : last ∈ rest := by
      rcases List.mem_cons.mp member with rfl | member
      · exact absurd stopBlank lastSolid
      · exact member
    refine trim_of_blank fun first before => Decidable.not_not.mp fun firstSolid => ?_
    exact literal.not_blank (trimmed.mem_core_of_between before firstSolid behind lastSolid)
      stopBlank

theorem harmless_or_added (formed : residue line = [] ∨ IsLiteral (residue line)) :
    Harmless line ∨ (residue line ≠ [] ∧ Text.trim (statement line) = []) := by
  by_cases harmless : Harmless line
  · exact Or.inl harmless
  · have filled := residue_ne_nil_of_harmful harmless
    exact Or.inr ⟨filled, trim_statement_of_harmful harmless (formed.resolve_left filled)⟩

end

/-! ### What a text says -/

/-- What the statements of lines say, leaving out those that say nothing. -/
def stated (parts : List (List Char)) : List (List Char) :=
  entries (parts.map fun line => Text.trim (statement line))

theorem map_trim_congr {parts others : List (List Char)}
    (same : parts.map statement = others.map statement) :
    (parts.map fun line => Text.trim (statement line)) =
      others.map fun line => Text.trim (statement line) := by
  have shared := congrArg (List.map Text.trim) same
  rw [List.map_map, List.map_map] at shared
  exact shared

theorem map_residue_of_harmless {parts : List (List Char)}
    (harmless : ∀ line ∈ parts, Harmless line) :
    parts.map residue = parts.map fun line => Text.trim (statement line) :=
  List.map_congr_left fun line member => residue_of_harmless (harmless line member)

theorem stated_cons (line : List Char) (rest : List (List Char)) :
    stated (line :: rest) = entries [Text.trim (statement line)] ++ stated rest :=
  entries_append [Text.trim (statement line)] _

theorem entries_residue_cons (line : List Char) (rest : List (List Char)) :
    entries ((line :: rest).map residue) =
      entries [residue line] ++ entries (rest.map residue) :=
  entries_append [residue line] _

section

variable {parts : List (List Char)}
  (formed : ∀ line ∈ parts, residue line = [] ∨ IsLiteral (residue line))

include formed

/-- If only literals are said, comments have added some and spoiled none. -/
theorem stated_sublist : (stated parts).Sublist (entries (parts.map residue)) := by
  induction parts with
  | nil => exact List.Sublist.refl []
  | cons line rest inductionHypothesis =>
    have behind := inductionHypothesis fun other member =>
      formed other (List.mem_cons_of_mem line member)
    rw [stated_cons, entries_residue_cons]
    refine List.Sublist.append ?_ behind
    rcases harmless_or_added (formed line List.mem_cons_self) with harmless | ⟨-, nothing⟩
    · rw [residue_of_harmless harmless]
    · rw [nothing]
      exact List.nil_sublist _

/-- If they have added none, they are harmless. -/
theorem harmless_of_length
    (count : (entries (parts.map residue)).length = (stated parts).length) :
    ∀ line ∈ parts, Harmless line := by
  induction parts with
  | nil => exact fun _ none => absurd none List.not_mem_nil
  | cons line rest inductionHypothesis =>
    have others : ∀ line ∈ rest, residue line = [] ∨ IsLiteral (residue line) :=
      fun other member => formed other (List.mem_cons_of_mem line member)
    have least := (stated_sublist others).length_le
    rw [stated_cons, entries_residue_cons, List.length_append, List.length_append] at count
    rcases harmless_or_added (formed line List.mem_cons_self) with harmless | ⟨filled, nothing⟩
    · rw [residue_of_harmless harmless] at count
      intro other member
      rcases List.mem_cons.mp member with rfl | member
      · exact harmless
      · exact inductionHypothesis others (by omega) other member
    · -- one literal more on this line, and no fewer behind it
      rw [nothing, entries_cons filled, List.length_cons] at count
      have none : (entries [[]]).length = 0 := rfl
      omega

end

/-- Lines that say the same are read alike. -/
theorem parseLines_congr {parts others : List (List Char)}
    (same : parts.map residue = others.map residue) (number count : Nat) :
    parseLines number count parts = parseLines number count others := by
  induction parts generalizing others number count with
  | nil =>
    rw [List.map_nil, eq_comm, List.map_eq_nil_iff] at same
    rw [same]
  | cons line rest inductionHypothesis =>
    cases others with
    | nil => cases same
    | cons other behind =>
      rw [List.map_cons, List.map_cons, List.cons_eq_cons] at same
      unfold parseLines
      simp only [same.1, inductionHypothesis same.2]

/-! ### Texts that differ in comments only -/

/-- Two texts with the same statements are read alike if their comments are harmless, as they are
without carriage returns and separators. Beside a text with harmless comments, one with others is
refused, or it is read with at least the same bytes, and with no more of them exactly if its
comments are harmless too. -/
theorem parse_of_sameStatements (text other : String) (same : SameStatements text other) :
    ((∀ line ∈ lines text.toList, Harmless line) → (∀ line ∈ lines other.toList, Harmless line) →
      parse text = parse other) ∧
    ((∀ line ∈ lines text.toList ++ lines other.toList, ∀ char ∈ commentOf line,
        ¬ Interrupts char) →
      parse text = parse other) ∧
    ((∀ line ∈ lines other.toList, Harmless line) → ∀ bytes, parse text = .ok bytes →
      ∃ others, parse other = .ok others ∧ others.Sublist bytes ∧
        (others = bytes ↔ ∀ line ∈ lines text.toList, Harmless line)) := by
  have alike (mine : ∀ line ∈ lines text.toList, Harmless line)
      (theirs : ∀ line ∈ lines other.toList, Harmless line) : parse text = parse other := by
    refine parseLines_congr ?_ 1 0
    rw [map_residue_of_harmless mine, map_residue_of_harmless theirs, map_trim_congr same]
  have running {text : String} {line : List Char} (member : line ∈ lines text.toList) :
      (∀ char ∈ commentOf line, ¬ Interrupts char) → Harmless line :=
    harmless_of_uninterrupted ((divided_lines _).whole_of_mem member)
  refine ⟨alike, fun clear => ?_, fun theirs bytes parsed => ?_⟩
  · exact alike
      (fun line member => running member (clear line (List.mem_append_left _ member)))
      (fun line member => running member (clear line (List.mem_append_right _ member)))
  · obtain ⟨literals, room, values⟩ := parse_eq_ok_iff.mp parsed
    have formed : ∀ line ∈ lines text.toList, residue line = [] ∨ IsLiteral (residue line) :=
      fun line member =>
        forall_entries_iff.mpr literals (residue line) (List.mem_map_of_mem member)
    have fewer := stated_sublist formed
    have asked : said other.toList = stated (lines text.toList) := by
      unfold said stated
      rw [map_residue_of_harmless theirs, map_trim_congr same]
    obtain ⟨others, kept, valued⟩ := List.sublist_map_iff.mp (values ▸ fewer.map denoted)
    have parsedThere : parse other = .ok others := by
      rw [parse_eq_ok_iff, asked]
      exact ⟨fun entry member => literals entry (fewer.mem member),
        fewer.length_le.trans room, valued.symm⟩
    refine ⟨others, parsedThere, kept, ?_, fun mine => ?_⟩
    · rintro rfl
      refine harmless_of_length formed ?_
      have count := congrArg List.length (values.symm.trans valued.symm)
      rw [List.length_map, List.length_map] at count
      exact count
    · exact Except.ok.inj (parsedThere.symm.trans ((alike mine theirs).symm.trans parsed))

/-- A separator with a blank behind it is harmless; one with a digit behind it adds a byte. -/
theorem separated_comments_read :
    parse "1 # one\u2028 \n10#" = parse "1 #\n10# two" ∧
      ∃ others, parse "#\n10" = .ok others ∧ others.Sublist [1, 2] ∧ others ≠ [1, 2] := by
  obtain ⟨alike, -, -⟩ :=
    parse_of_sameStatements "1 # one\u2028 \n10#" "1 #\n10# two" (by decide +kernel)
  obtain ⟨-, -, added⟩ :=
    parse_of_sameStatements "# one\u20281\n10" "#\n10" (by decide +kernel)
  obtain ⟨others, parsed, kept, whole⟩ :=
    added (by decide +kernel) [1, 2] (by decide +kernel)
  refine ⟨alike (by decide +kernel) (by decide +kernel), others, parsed, kept, fun same => ?_⟩
  exact absurd (whole.mp same) (by decide +kernel)

/-- Behind a separator a comment is read: as a byte, or as a part of what stands before it. -/
theorem separator_stops_comment :
    SameStatements "#\u20281" "#" ∧ parse "#\u20281" = .ok [1] ∧ parse "#" = .ok [] ∧
      SameStatements "1 #\u2028x" "1 #" ∧
      parse "1 #\u2028x" = .error (.load (.notBinary "1 \u2028x") (some (.ofNat 1))) ∧
      parse "1 #" = .ok [1] := by
  decide +kernel

end EightBit.Source
