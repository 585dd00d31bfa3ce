/-
Program text that is written and read back. Every byte is written on a line of its own, so what the
text says is what its lines say, one byte after the other; only a comment can get in the way. A
comment may hold line feeds, and then its later lines are read like any others, or a character that
stops it, and then the rest of it is read as part of the literal. Neither can be made good by
another comment: a line says at least one thing, so a text that says as many things as it has bytes
says one on each line. The main result is that a program is read back exactly if no comment would
disturb a single byte written with it.
-/

import EightBit.Proofs.Grammar

namespace EightBit.Source

/-! ### What a text says -/

/-- What the lines of a text say, leaving out those that say nothing. -/
def said (text : List Char) : List (List Char) :=
  entries ((lines text).map residue)

theorem forall_entries_iff {residues : List (List Char)} :
    (∀ text ∈ residues, text = [] ∨ IsLiteral text) ↔
      ∀ text ∈ entries residues, IsLiteral text := by
  unfold entries
  simp only [List.mem_filter, decide_eq_true_eq, and_imp, ne_eq, or_iff_not_imp_left]

/-- A text is read as a row of bytes exactly if it says the literals of these bytes. -/
theorem parse_eq_ok_iff {text : String} {bytes : List UInt8} :
    parse text = .ok bytes ↔
      (∀ entry ∈ said text.toList, IsLiteral entry) ∧ (said text.toList).length ≤ 256 ∧
        bytes.map UInt8.toNat = (said text.toList).map denoted := by
  have read := reading 1 0 (lines text.toList)
  have accepted {others : List UInt8} (parsed : parse text = .ok others) :=
    read.fits (Nat.zero_le 256) parsed
  constructor
  · intro parsed
    obtain ⟨fits, values⟩ := accepted parsed
    obtain ⟨formed, room⟩ := fits_zero_iff.mp fits
    exact ⟨forall_entries_iff.mp formed, room, values⟩
  · rintro ⟨literals, room, values⟩
    cases parsed : parse text with
    | error cause =>
      obtain ⟨before, line, stops⟩ := read.stops (Nat.zero_le 256) parsed
      exact absurd (fits_zero_iff.mpr ⟨forall_entries_iff.mpr literals, room⟩) stops.not_fits
    | ok others =>
      have same : others.map UInt8.toNat = bytes.map UInt8.toNat :=
        (accepted parsed).2.trans values.symm
      exact congrArg Except.ok (List.map_injective_iff.mpr (fun _ _ => UInt8.toNat_inj.mp) same)

/-- The lines up to a line feed do not depend on what comes behind it. -/
theorem exists_closed_lines (text : List Char) :
    ∃ line more, ∀ rest, lines (text ++ '\n' :: rest) = line :: (more ++ lines rest) := by
  induction text using lines.induct with
  | case1 => exact ⟨[], [], fun _ => rfl⟩
  | case2 text inductionHypothesis =>
    obtain ⟨line, more, closed⟩ := inductionHypothesis
    exact ⟨[], line :: more, fun rest => congrArg ([] :: ·) (closed rest)⟩
  | case3 text inductionHypothesis =>
    obtain ⟨line, more, closed⟩ := inductionHypothesis
    exact ⟨[], line :: more, fun rest => congrArg ([] :: ·) (closed rest)⟩
  | case4 char text notFeed notPair _ inductionHypothesis
  | case5 char text notFeed notPair _ _ _ inductionHypothesis =>
    obtain ⟨line, more, closed⟩ := inductionHypothesis
    by_cases last : char = '\r' ∧ text = []
    · -- a carriage return at the very end forms a pair with the line feed
      obtain ⟨rfl, rfl⟩ := last
      exact ⟨[], [], fun _ => rfl⟩
    · refine ⟨char :: line, more, fun rest => lines_cons (closed rest) notFeed ?_⟩
      intro behind carriage begins
      cases text with
      | nil => exact last ⟨carriage, rfl⟩
      | cons first others =>
        obtain ⟨rfl, -⟩ := List.cons_eq_cons.mp begins
        exact notPair others carriage rfl

/-- What is said up to a line feed, and behind it. -/
theorem said_append_feed (text rest : List Char) :
    said (text ++ '\n' :: rest) = said (text ++ ['\n']) ++ said rest := by
  obtain ⟨line, more, closed⟩ := exists_closed_lines text
  have nothing : entries ((lines []).map residue) = [] := rfl
  unfold said
  rw [closed rest, closed [], ← List.cons_append, ← List.cons_append, List.map_append,
    List.map_append, entries_append, entries_append, nothing, List.append_nil]

/-- A text of closed lines says what each of them says, one after the other. -/
theorem said_closed (written : List String) :
    said (String.intercalate "\n" written ++ "\n").toList =
      written.flatMap fun line => said (line.toList ++ ['\n']) := by
  induction written with
  | nil => rfl
  | cons line rest inductionHypothesis =>
    rw [List.flatMap_cons, ← inductionHypothesis]
    cases rest with
    | nil =>
      rw [String.intercalate_singleton, String.toList_append]
      exact (List.append_nil _).symm
    | cons next others =>
      rw [String.toList_append, String.toList_intercalate, List.map_cons, List.map_cons,
        List.intercalate_cons_cons, ← List.map_cons, ← String.toList_intercalate, List.append_assoc,
        List.append_assoc, ← String.toList_append]
      exact said_append_feed line.toList _

/-! ### Literals of bytes -/

theorem ofDigits_bits (value count : Nat) :
    Nat.ofDigits 2 ((List.range count).map fun place => if value.testBit place then 1 else 0) =
      value % 2 ^ count := by
  induction count generalizing value with
  | zero => exact (Nat.mod_one value).symm
  | succ count inductionHypothesis =>
    have shifted : ((List.range count).map Nat.succ).map
        (fun place => if value.testBit place then 1 else 0) =
          (List.range count).map fun place => if (value / 2).testBit place then 1 else 0 := by
      rw [List.map_map]
      refine List.map_congr_left fun place _ => ?_
      simp only [Function.comp_apply, Nat.succ_eq_add_one, Nat.testBit_add_one]
    have lowest : (if value.testBit 0 then 1 else 0) = value % 2 := by
      rw [Nat.testBit_zero]
      split <;> simp_all
    rw [List.range_succ_eq_map, List.map_cons, Nat.ofDigits_cons, shifted, inductionHypothesis,
      lowest, Nat.pow_succ', Nat.mod_mul]

theorem denoted_binaryByte (byte : UInt8) : denoted (Text.binaryByte byte) = byte.toNat := by
  have digit (place : Nat) :
      (if (if byte.toNat.testBit place then '1' else '0') = '1' then 1 else 0) =
        if byte.toNat.testBit place then 1 else 0 := by
    cases byte.toNat.testBit place <;> rfl
  have value := ofDigits_bits byte.toNat 8
  rw [Nat.mod_eq_of_lt byte.toNat_lt] at value
  unfold denoted Text.binaryByte
  rw [← List.map_reverse, List.map_map]
  simp only [Function.comp_def, digit]
  exact value

theorem isLiteral_binaryByte (byte : UInt8) : IsLiteral (Text.binaryByte byte) := by
  have length : (Text.binaryByte byte).length = 8 := rfl
  refine ⟨⟨by omega, by omega⟩, fun char member => ?_⟩
  obtain ⟨place, -, rfl⟩ := List.mem_map.mp member
  split
  · exact Or.inr rfl
  · exact Or.inl rfl

theorem IsLiteral.not_mem {text : List Char} {char : Char} (literal : IsLiteral text)
    (other : char ≠ '0' ∧ char ≠ '1') : char ∉ text := by
  intro member
  rcases literal.2 char member with zero | one
  · exact other.1 zero
  · exact other.2 one

theorem IsLiteral.not_blank {text : List Char} {char : Char} (literal : IsLiteral text)
    (member : char ∈ text) : ¬ Blank char := by
  rcases literal.2 char member with rfl | rfl <;> decide

/-- Blanks behind a literal do not count. -/
theorem IsLiteral.trimmed {digits right : List Char} (literal : IsLiteral digits)
    (after : ∀ char ∈ right, Blank char) : Trimmed (digits ++ right) digits := by
  rw [← List.nil_append digits]
  refine .around (fun _ none => absurd none List.not_mem_nil) after (fun _ begins => ?_)
    fun _ ends => ?_
  · exact literal.not_blank (List.mem_of_head? begins)
  · exact literal.not_blank (List.mem_of_getLast? ends)

/-- A literal on a line of its own says itself. -/
theorem said_literal {digits : List Char} (literal : IsLiteral digits) :
    said (digits ++ ['\n']) = [digits] := by
  have feedless : '\n' ∉ digits := literal.not_mem (by decide)
  have bare : digits.getLast? ≠ some '\r' :=
    fun last => literal.not_mem (by decide) (List.mem_of_getLast? last)
  have uncommented : Uncommented digits digits := .plain (literal.not_mem (by decide))
  have trimmed : Trimmed (digits ++ []) digits :=
    literal.trimmed fun _ none => absurd none List.not_mem_nil
  rw [List.append_nil] at trimmed
  have itself : digits = residue digits :=
    (isResidue_iff feedless).mp ⟨digits, uncommented, trimmed⟩
  unfold said
  rw [lines_append_feed [] feedless bare, List.map_cons, ← itself, entries_cons literal.ne_nil]
  rfl

/-! ### Comments behind a literal -/

/-- What is left of a comment from the character on that stops it. -/
def remainder (comment : List Char) : List Char :=
  comment.dropWhile fun char => !endsComment char

theorem withoutComment_commented {digits : List Char} (literal : IsLiteral digits)
    (line : List Char) :
    withoutComment (digits ++ " # ".toList ++ line) = digits ++ ' ' :: remainder line := by
  have first : '#' ∉ digits ++ [' '] := by
    rw [List.mem_append, not_or]
    exact ⟨literal.not_mem (by decide), by decide⟩
  have sign : ∀ char, ('#' :: ' ' :: line).head? = some char → char = '#' :=
    fun char begins => (Option.some.inj begins).symm
  have split : digits ++ " # ".toList ++ line = (digits ++ [' ']) ++ '#' :: ' ' :: line := by
    rw [List.append_assoc, List.append_assoc]
    rfl
  rw [split, withoutComment_append _ first sign, List.append_assoc]
  rfl

/-- A text that begins with a digit has no blanks before its core. -/
theorem exists_trim_append {digits : List Char} (literal : IsLiteral digits) (rest : List Char) :
    ∃ right, (∀ char ∈ right, Blank char) ∧
      digits ++ rest = Text.trim (digits ++ rest) ++ right := by
  obtain ⟨digit, more, rfl⟩ := List.exists_cons_of_ne_nil literal.ne_nil
  have trimmed := trimmed_iff.mpr (Eq.refl (Text.trim (digit :: more ++ rest)))
  generalize Text.trim (digit :: more ++ rest) = core at trimmed ⊢
  generalize whole : digit :: more ++ rest = text at trimmed ⊢
  cases trimmed with
  | @around left _ right before after =>
    refine ⟨right, after, ?_⟩
    cases left with
    | nil => rfl
    | cons char others =>
      obtain ⟨rfl, -⟩ := List.cons_eq_cons.mp whole
      exact absurd (before digit List.mem_cons_self) (literal.not_blank List.mem_cons_self)

theorem residue_commented_ne_nil {digits : List Char} (literal : IsLiteral digits)
    (line : List Char) : residue (digits ++ " # ".toList ++ line) ≠ [] := by
  obtain ⟨right, blank, whole⟩ := exists_trim_append literal (' ' :: remainder line)
  obtain ⟨digit, member⟩ := List.exists_mem_of_ne_nil digits literal.ne_nil
  unfold residue
  rw [withoutComment_commented literal]
  intro empty
  rw [empty, List.nil_append] at whole
  have place : digit ∈ right := whole ▸ List.mem_append_left _ member
  exact literal.not_blank member (blank digit place)

/-- If nothing but blanks are left of a comment, its line says the literal. -/
theorem residue_commented_of_blank {digits line : List Char} (literal : IsLiteral digits)
    (blank : ∀ char ∈ remainder line, Blank char) :
    residue (digits ++ " # ".toList ++ line) = digits := by
  have after : ∀ char ∈ ' ' :: remainder line, Blank char := by
    intro char member
    rcases List.mem_cons.mp member with rfl | member
    · decide
    · exact blank char member
  unfold residue
  rw [withoutComment_commented literal]
  exact (eq_trim (literal.trimmed after)).symm

/-- If anything else is left of it, its line says no literal at all. -/
theorem blank_of_residue_commented {digits line : List Char} (literal : IsLiteral digits)
    (read : IsLiteral (residue (digits ++ " # ".toList ++ line))) :
    ∀ char ∈ remainder line, Blank char := by
  obtain ⟨right, blank, whole⟩ := exists_trim_append literal (' ' :: remainder line)
  unfold residue at read
  rw [withoutComment_commented literal] at read
  -- the blank behind the digits is no part of a literal, so it lies to the right of the core
  have behind : ' ' :: remainder line <:+ right := by
    rcases List.append_eq_append_iff.mp whole with ⟨rest, front, tail⟩ | ⟨rest, -, tail⟩
    · cases rest with
      | nil => exact ⟨[], tail⟩
      | cons char others =>
        obtain ⟨rfl, -⟩ := List.cons_eq_cons.mp tail
        rw [front] at read
        exact absurd (List.mem_append_right digits List.mem_cons_self) (read.not_mem (by decide))
    · exact ⟨rest, tail.symm⟩
  exact fun char member => blank char (behind.mem (List.mem_cons_of_mem _ member))

/-- A comment that leaves its own line alone and has no further line that says anything. -/
def Quiet (comment : List Char) : Prop :=
  ∃ first more, lines (comment ++ ['\n']) = first :: more ∧
    (∀ char ∈ remainder first, Blank char) ∧ entries (more.map residue) = []

theorem lines_append_of_plain {front text line : List Char} {more : List (List Char)}
    (plain : ∀ char ∈ front, char ≠ '\n' ∧ char ≠ '\r') (found : lines text = line :: more) :
    lines (front ++ text) = (front ++ line) :: more := by
  induction front with
  | nil => exact found
  | cons char front inductionHypothesis =>
    obtain ⟨notFeed, notReturn⟩ := plain char List.mem_cons_self
    exact lines_cons (inductionHypothesis fun other member => plain other
      (List.mem_cons_of_mem _ member)) notFeed fun _ carriage => absurd carriage notReturn

/-- A literal with a comment says something on its own line, and nothing but itself exactly if the
comment is quiet. -/
theorem said_commented {digits : List Char} (literal : IsLiteral digits) (comment : List Char) :
    ∃ entry others, said (digits ++ " # ".toList ++ comment ++ ['\n']) = entry :: others ∧
      (Quiet comment → entry = digits ∧ others = []) ∧
      (IsLiteral entry → others = [] → Quiet comment) := by
  obtain ⟨first, more, found⟩ : ∃ first more, lines (comment ++ ['\n']) = first :: more := by
    obtain ⟨first, more, closed⟩ := exists_closed_lines comment
    exact ⟨first, _, closed []⟩
  have plain : ∀ char ∈ digits ++ " # ".toList, char ≠ '\n' ∧ char ≠ '\r' := by
    intro char member
    rcases List.mem_append.mp member with digit | sign
    · rcases literal.2 char digit with rfl | rfl <;> decide
    · rcases List.mem_cons.mp sign with rfl | sign
      · decide
      · rcases List.mem_cons.mp sign with rfl | sign
        · decide
        · obtain rfl := List.mem_singleton.mp sign
          decide
  refine ⟨residue (digits ++ " # ".toList ++ first), entries (more.map residue), ?_, ?_, ?_⟩
  · unfold said
    rw [List.append_assoc, lines_append_of_plain plain found, List.map_cons,
      entries_cons (residue_commented_ne_nil literal first)]
  · rintro ⟨line, rest, same, blank, nothing⟩
    obtain ⟨rfl, rfl⟩ := List.cons_eq_cons.mp (same.symm.trans found)
    exact ⟨residue_commented_of_blank literal blank, nothing⟩
  · intro read nothing
    exact ⟨first, more, found, blank_of_residue_commented literal read, nothing⟩

/-- A comment is quiet exactly if it does not disturb a single zero. -/
theorem quiet_iff (comment : String) :
    Quiet comment.toList ↔ parse ("0 # " ++ comment ++ "\n") = .ok [0] := by
  have zero : IsLiteral ['0'] := (isLiteral_iff ['0']).mpr (by decide)
  obtain ⟨entry, others, line, alone, literally⟩ := said_commented zero comment.toList
  have text : ("0 # " ++ comment ++ "\n").toList =
      ['0'] ++ " # ".toList ++ comment.toList ++ ['\n'] := by
    rw [String.toList_append, String.toList_append]
    rfl
  rw [parse_eq_ok_iff, text, line]
  constructor
  · intro quiet
    obtain ⟨rfl, rfl⟩ := alone quiet
    exact ⟨fun entry member => List.mem_singleton.mp member ▸ zero, by decide, by decide⟩
  · rintro ⟨literals, -, values⟩
    have count := congrArg List.length values
    simp only [List.length_map, List.length_cons, List.length_nil] at count
    have nothing : others = [] := List.length_eq_zero_iff.mp (by omega)
    exact literally (literals entry List.mem_cons_self) nothing

theorem remainder_of_uninterrupted {comment : List Char} (feedless : '\n' ∉ comment)
    (running : ∀ char ∈ comment, ¬ Interrupts char) : remainder comment = [] := by
  unfold remainder
  rw [List.dropWhile_eq_nil_iff]
  intro char member
  exact (not_endsComment_iff feedless member).mpr (running char member)

theorem quiet_of_uninterrupted {comment : List Char} (feedless : '\n' ∉ comment)
    (running : ∀ char ∈ comment, ¬ Interrupts char) : Quiet comment := by
  have bare : comment.getLast? ≠ some '\r' :=
    fun last => running '\r' (List.mem_of_getLast? last) (Or.inl rfl)
  refine ⟨comment, [[]], lines_append_feed [] feedless bare, ?_, rfl⟩
  rw [remainder_of_uninterrupted feedless running]
  exact fun _ none => absurd none List.not_mem_nil

/-! ### Programs -/

/-- What is written for a byte is not disturbed by the comment that goes with it, if any does. -/
def Undisturbed (comment : Option String) : Prop :=
  ∀ text, comment = some text → text ≠ "" → Quiet text.toList

theorem toList_formatLine_of_comment (byte : UInt8) {comment : String} (filled : comment ≠ "") :
    (formatLine byte (some comment)).toList =
      Text.binaryByte byte ++ " # ".toList ++ comment.toList := by
  have shown : formatLine byte (some comment) =
      String.ofList (Text.binaryByte byte) ++ " # " ++ comment :=
    if_neg (by simpa using filled)
  rw [shown, String.toList_append, String.toList_append, String.toList_ofList]

theorem toList_formatLine_of_none (byte : UInt8) {comment : Option String}
    (absent : ∀ text, comment = some text → text = "") :
    (formatLine byte comment).toList = Text.binaryByte byte := by
  cases comment with
  | none => exact String.toList_ofList
  | some text =>
    rw [absent text rfl]
    exact String.toList_ofList

/-- The line of a byte says something, and nothing but the byte exactly if it is undisturbed. -/
theorem said_formatLine (byte : UInt8) (comment : Option String) :
    ∃ entry others, said ((formatLine byte comment).toList ++ ['\n']) = entry :: others ∧
      (Undisturbed comment → entry = Text.binaryByte byte ∧ others = []) ∧
      (IsLiteral entry → others = [] → Undisturbed comment) := by
  have literal := isLiteral_binaryByte byte
  by_cases present : ∃ text, comment = some text ∧ text ≠ ""
  · obtain ⟨text, rfl, filled⟩ := present
    rw [toList_formatLine_of_comment byte filled]
    obtain ⟨entry, others, line, alone, literally⟩ := said_commented literal text.toList
    refine ⟨entry, others, line, fun undisturbed => ?_, fun read nothing other same _ => ?_⟩
    · exact alone (undisturbed text rfl filled)
    · cases same
      exact literally read nothing
  · have absent : ∀ text, comment = some text → text = "" := by
      intro text same
      exact Decidable.not_not.mp fun filled => present ⟨text, same, filled⟩
    rw [toList_formatLine_of_none byte absent]
    refine ⟨_, [], said_literal literal, fun _ => ⟨rfl, rfl⟩, fun _ _ text same filled => ?_⟩
    exact absurd ⟨text, same, filled⟩ present

/-- The bytes of a program, each with the comment that is written behind it. -/
def annotated (bytes : List UInt8) (comments : List (Option String)) :
    List (UInt8 × Option String) :=
  bytes.mapIdx fun index byte => (byte, comments[index]?.join)

/-- What the line of a byte says. -/
def saidOf (written : UInt8 × Option String) : List (List Char) :=
  said ((formatLine written.1 written.2).toList ++ ['\n'])

theorem map_fst_annotated (bytes : List UInt8) (comments : List (Option String)) :
    (annotated bytes comments).map Prod.fst = bytes := by
  refine List.ext_getElem? fun index => ?_
  unfold annotated
  rw [List.getElem?_map, List.getElem?_mapIdx]
  cases bytes[index]? <;> rfl

theorem said_format (bytes : List UInt8) (comments : List (Option String)) :
    said (format bytes comments).toList = (annotated bytes comments).flatMap saidOf := by
  have written : (bytes.mapIdx fun index byte => formatLine byte (comments[index]?.join)) =
      (annotated bytes comments).map fun written => formatLine written.1 written.2 := by
    refine List.ext_getElem? fun index => ?_
    unfold annotated
    rw [List.getElem?_map, List.getElem?_mapIdx, List.getElem?_mapIdx]
    cases bytes[index]? <;> rfl
  unfold format
  rw [said_closed, written, List.flatMap_map]
  rfl

/-- A program says at least one thing for each of its bytes. -/
theorem length_le_said (program : List (UInt8 × Option String)) :
    program.length ≤ (program.flatMap saidOf).length := by
  induction program with
  | nil => exact Nat.le_refl 0
  | cons first rest inductionHypothesis =>
    obtain ⟨entry, others, line, -⟩ := said_formatLine first.1 first.2
    have front : saidOf first = entry :: others := line
    rw [List.flatMap_cons, front, List.length_append, List.length_cons, List.length_cons]
    omega

/-- Said without a remainder: if there are no more entries than bytes, all lines are undisturbed. -/
theorem undisturbed_of_said {program : List (UInt8 × Option String)}
    (literals : ∀ entry ∈ program.flatMap saidOf, IsLiteral entry)
    (count : (program.flatMap saidOf).length = program.length) :
    ∀ written ∈ program, Undisturbed written.2 := by
  induction program with
  | nil => exact fun _ none => absurd none List.not_mem_nil
  | cons first rest inductionHypothesis =>
    obtain ⟨entry, others, line, -, literally⟩ := said_formatLine first.1 first.2
    have front : saidOf first = entry :: others := line
    have least := length_le_said rest
    rw [List.flatMap_cons, front] at literals count
    rw [List.length_append, List.length_cons, List.length_cons] at count
    have nothing : others = [] := List.length_eq_zero_iff.mp (by omega)
    have behind := inductionHypothesis
      (fun entry member => literals entry (List.mem_append_right _ member)) (by omega)
    intro written member
    rcases List.mem_cons.mp member with rfl | member
    · exact literally (literals entry (List.mem_append_left _ List.mem_cons_self)) nothing
    · exact behind written member

theorem said_of_undisturbed {program : List (UInt8 × Option String)}
    (undisturbed : ∀ written ∈ program, Undisturbed written.2) :
    program.flatMap saidOf = program.map fun written => Text.binaryByte written.1 := by
  induction program with
  | nil => rfl
  | cons first rest inductionHypothesis =>
    obtain ⟨entry, others, line, alone, -⟩ := said_formatLine first.1 first.2
    obtain ⟨rfl, rfl⟩ := alone (undisturbed first List.mem_cons_self)
    have front : saidOf first = [Text.binaryByte first.1] := line
    rw [List.flatMap_cons, front, List.map_cons, inductionHypothesis fun written member =>
      undisturbed written (List.mem_cons_of_mem _ member)]
    rfl

/-- A program is read back exactly if it has room and all its lines are undisturbed. -/
theorem parse_format_eq_ok_iff {bytes : List UInt8} {comments : List (Option String)} :
    parse (format bytes comments) = .ok bytes ↔
      bytes.length ≤ 256 ∧ ∀ written ∈ annotated bytes comments, Undisturbed written.2 := by
  have own := map_fst_annotated bytes comments
  have size : (annotated bytes comments).length = bytes.length := List.length_mapIdx
  rw [parse_eq_ok_iff, said_format]
  constructor
  · rintro ⟨literals, room, values⟩
    have count := congrArg List.length values
    rw [List.length_map, List.length_map] at count
    exact ⟨count ▸ room, undisturbed_of_said literals (count.symm.trans size.symm)⟩
  · rintro ⟨room, undisturbed⟩
    rw [said_of_undisturbed undisturbed]
    refine ⟨fun entry member => ?_, ?_, ?_⟩
    · obtain ⟨written, -, rfl⟩ := List.mem_map.mp member
      exact isLiteral_binaryByte written.1
    · rw [List.length_map, size]
      exact room
    · rw [List.map_map]
      nth_rewrite 1 [← own]
      rw [List.map_map]
      exact List.map_congr_left fun written _ => (denoted_binaryByte written.1).symm

/-- What is written is read back exactly if there is room for it and each comment that is written
leaves a single zero readable; and it is, if no comment has a line end or separator in it. -/
theorem format_reads_back (bytes : List UInt8) (comments : List (Option String)) :
    (parse (format bytes comments) = .ok bytes ↔
      bytes.length ≤ 256 ∧
        ∀ index comment, index < bytes.length → comments[index]? = some (some comment) →
          comment ≠ "" → parse ("0 # " ++ comment ++ "\n") = .ok [0]) ∧
    (bytes.length ≤ 256 →
      (∀ comment, some comment ∈ comments → ∀ char ∈ comment.toList,
        char ≠ '\n' ∧ char ≠ '\r' ∧ char ≠ '\u2028' ∧ char ≠ '\u2029') →
      parse (format bytes comments) = .ok bytes) := by
  have attached : (∀ written ∈ annotated bytes comments, Undisturbed written.2) ↔
      ∀ index comment, index < bytes.length → comments[index]? = some (some comment) →
        comment ≠ "" → Quiet comment.toList := by
    constructor
    · intro undisturbed index comment inside given filled
      refine undisturbed _ (List.mem_mapIdx.mpr ⟨index, inside, rfl⟩) comment ?_ filled
      rw [given]
      rfl
    · intro quiet written member comment given filled
      obtain ⟨index, inside, rfl⟩ := List.mem_mapIdx.mp member
      exact quiet index comment inside (Option.join_eq_some_iff.mp given) filled
  constructor
  · rw [parse_format_eq_ok_iff, attached]
    simp only [quiet_iff]
  · intro room clear
    refine parse_format_eq_ok_iff.mpr ⟨room, attached.mpr ?_⟩
    intro index comment _ given _
    have plain := clear comment (List.mem_of_getElem? given)
    refine quiet_of_uninterrupted (fun feed => (plain _ feed).1 rfl) fun char member stops => ?_
    obtain ⟨-, notReturn, notLine, notParagraph⟩ := plain char member
    rcases stops with same | same | same
    · exact notReturn same
    · exact notLine same
    · exact notParagraph same

/-- Comments that are stopped before their end, but by blanks alone; missing; and of two lines. -/
def talkative : List (Option String) :=
  [some "one\u2028 \r", none, some "two\n# lines"]

/-- Three bytes are read back with these comments. A comment whose second line is a literal spoils
the byte before it. -/
theorem talkative_reads_back :
    parse (format [0, 255, 8] talkative) = .ok [0, 255, 8] ∧
      parse (format [7] [some "one\n1"]) ≠ .ok [7] ∧
      parse (format [7] [some "# 1"]) = .ok [7] := by
  refine ⟨(format_reads_back [0, 255, 8] talkative).1.mpr ⟨by decide, ?_⟩, fun read => ?_,
    (format_reads_back [7] [some "# 1"]).2 (by decide) fun comment member => ?_⟩
  · intro index comment inside given _
    have place : index = 0 ∨ index = 1 ∨ index = 2 := by
      have bound : index < 3 := inside
      omega
    rcases place with rfl | rfl | rfl <;> cases given <;> decide +kernel
  · have alone := ((format_reads_back [7] [some "one\n1"]).1.mp read).2 0 _ (by decide) rfl
      (by decide)
    revert alone
    decide +kernel
  · obtain rfl := Option.some.inj (List.mem_singleton.mp member)
    have plain : ("# 1".toList.all fun char => char ≠ '\n' ∧ char ≠ '\r' ∧ char ≠ '\u2028' ∧
        char ≠ '\u2029') = true := by
      decide +kernel
    exact fun char inside => of_decide_eq_true (List.all_eq_true.mp plain char inside)

end EightBit.Source
