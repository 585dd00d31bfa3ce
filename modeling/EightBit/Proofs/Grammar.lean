/-
The grammar of program text. A text is accepted when each of its residues is empty or a binary
literal and no more than 256 of them are literals; it then denotes the values of the literals in
order. Any other text is refused at the first line that cannot go with the lines before it. That
line is malformed, or it is one literal too many, and the refusal says which. The proof follows the
reader line by line: what it has accepted so far is well formed, and it stops at the first line
where that is lost.
-/

import EightBit.Proofs.Residues
import Mathlib.Data.Nat.Digits.Defs

namespace EightBit.Source

/-! ### Literals -/

/-- A binary literal has one to eight digits. -/
def IsLiteral (text : List Char) : Prop :=
  (1 ≤ text.length ∧ text.length ≤ 8) ∧ ∀ char ∈ text, char = '0' ∨ char = '1'

instance (text : List Char) : Decidable (IsLiteral text) :=
  inferInstanceAs (Decidable (_ ∧ _))

/-- The number that binary digits denote, the most significant first. -/
def denoted (digits : List Char) : Nat :=
  Nat.ofDigits 2 (digits.reverse.map fun digit => if digit = '1' then 1 else 0)

theorem denoted_append_singleton (digits : List Char) (digit : Char) :
    denoted (digits ++ [digit]) = 2 * denoted digits + if digit = '1' then 1 else 0 := by
  unfold denoted
  rw [List.reverse_append, List.reverse_singleton, List.singleton_append, List.map_cons,
    Nat.ofDigits_cons, Nat.add_comm]

theorem binaryValue_eq_denoted (digits : List Char) : binaryValue digits = denoted digits := by
  induction digits using List.reverseRecOn with
  | nil => rfl
  | append_singleton digits digit inductionHypothesis =>
    rw [denoted_append_singleton, ← inductionHypothesis]
    unfold binaryValue
    rw [List.foldl_append]
    rfl

theorem denoted_lt (digits : List Char) : denoted digits < 2 ^ digits.length := by
  have bound := Nat.ofDigits_lt_base_pow_length (b := 2)
    (l := digits.reverse.map fun digit => if digit = '1' then 1 else 0) (by decide) ?_
  · rw [List.length_map, List.length_reverse] at bound
    exact bound
  · intro value member
    obtain ⟨digit, -, rfl⟩ := List.mem_map.mp member
    split <;> decide

theorem isLiteral_iff (text : List Char) :
    IsLiteral text ↔ 1 ≤ text.length ∧ text.length ≤ 8 ∧ text.all isBinaryDigit = true := by
  unfold IsLiteral isBinaryDigit
  simp only [List.all_eq_true, Bool.or_eq_true, decide_eq_true_eq, and_assoc]

theorem literal?_of_not_isLiteral {text : List Char} (malformed : ¬ IsLiteral text) :
    literal? text = none := by
  rw [isLiteral_iff] at malformed
  exact if_neg malformed

/-- The byte of a literal has the value that its digits denote. -/
theorem exists_literal? {text : List Char} (literal : IsLiteral text) :
    ∃ byte, literal? text = some byte ∧ byte.toNat = denoted text := by
  have small : denoted text < 256 := by
    refine Nat.lt_of_lt_of_le (denoted_lt text) ?_
    exact Nat.pow_le_pow_right (by decide) literal.1.2
  refine ⟨UInt8.ofNat (binaryValue text), if_pos ((isLiteral_iff text).mp literal), ?_⟩
  rw [binaryValue_eq_denoted]
  exact Nat.mod_eq_of_lt small

/-! ### Reading line by line -/

/-- How residues are read, from a line number on and behind a number of bytes. -/
inductive Reading : Nat → Nat → List (List Char) → Except Fault (List UInt8) → Prop
  | finished {number count : Nat} : Reading number count [] (.ok [])
  | empty {number count : Nat} {rest : List (List Char)} {result : Except Fault (List UInt8)}
      (behind : Reading (number + 1) count rest result) : Reading number count ([] :: rest) result
  | malformed {number count : Nat} {text : List Char} {rest : List (List Char)}
      (filled : text ≠ []) (malformed : ¬ IsLiteral text) :
      Reading number count (text :: rest)
        (.error (.load (.notBinary (String.ofList text)) (some (.ofNat number))))
  | full {number count : Nat} {text : List Char} {rest : List (List Char)}
      (literal : IsLiteral text) (full : 256 ≤ count) :
      Reading number count (text :: rest)
        (.error (.load (.tooLong 256) (some (.ofNat number))))
  | literal {number count : Nat} {text : List Char} {rest : List (List Char)} {byte : UInt8}
      {result : Except Fault (List UInt8)} (literal : IsLiteral text)
      (value : byte.toNat = denoted text) (room : count < 256)
      (behind : Reading (number + 1) (count + 1) rest result) :
      Reading number count (text :: rest) (result.map (byte :: ·))

theorem reading (number count : Nat) (lines : List (List Char)) :
    Reading number count (lines.map residue) (parseLines number count lines) := by
  induction lines generalizing number count with
  | nil => exact .finished
  | cons line rest inductionHypothesis =>
    rw [List.map_cons, parseLines]
    cases front : residue line with
    | nil => exact .empty (inductionHypothesis (number + 1) count)
    | cons char others =>
      simp only
      by_cases literal : IsLiteral (char :: others)
      · obtain ⟨byte, read, value⟩ := exists_literal? literal
        rw [read]
        simp only
        by_cases full : capacity ≤ count
        · rw [if_pos full]
          exact .full literal full
        · rw [if_neg full]
          have behind := Reading.literal literal value (Nat.not_le.mp full)
            (inductionHypothesis (number + 1) (count + 1))
          cases result : parseLines (number + 1) (count + 1) rest with
          | error fault =>
            rw [result] at behind
            exact behind
          | ok bytes =>
            rw [result] at behind
            exact behind
      · rw [literal?_of_not_isLiteral literal]
        exact .malformed (List.cons_ne_nil char others) literal

/-! ### Programs -/

/-- The residues that are not empty. -/
def entries (residues : List (List Char)) : List (List Char) :=
  residues.filter (· ≠ [])

theorem entries_cons {text : List Char} (filled : text ≠ []) (rest : List (List Char)) :
    entries (text :: rest) = text :: entries rest :=
  List.filter_cons_of_pos (decide_eq_true filled)

theorem entries_append (first second : List (List Char)) :
    entries (first ++ second) = entries first ++ entries second :=
  List.filter_append first second

theorem IsLiteral.ne_nil {text : List Char} (literal : IsLiteral text) : text ≠ [] :=
  List.ne_nil_of_length_pos literal.1.1

/-- Each residue is empty or a literal, and there is room for all literals behind a number of
bytes. -/
def Fits (count : Nat) (residues : List (List Char)) : Prop :=
  (∀ text ∈ residues, text = [] ∨ IsLiteral text) ∧ count + (entries residues).length ≤ 256

theorem fits_empty_cons {count : Nat} {rest : List (List Char)} (fits : Fits count rest) :
    Fits count ([] :: rest) := by
  refine ⟨fun text member => ?_, fits.2⟩
  rcases List.mem_cons.mp member with rfl | member
  · exact Or.inl rfl
  · exact fits.1 text member

theorem fits_literal_cons {count : Nat} {text : List Char} {rest : List (List Char)}
    (literal : IsLiteral text) (fits : Fits (count + 1) rest) : Fits count (text :: rest) := by
  refine ⟨fun other member => ?_, ?_⟩
  · rcases List.mem_cons.mp member with rfl | member
    · exact Or.inr literal
    · exact fits.1 other member
  · have room := fits.2
    rw [entries_cons literal.ne_nil, List.length_cons]
    omega

section

variable {number count : Nat} {residues : List (List Char)} {result : Except Fault (List UInt8)}

/-- Residues that are read to the end fit, and the bytes are the values of the literals. -/
theorem Reading.fits (reading : Reading number count residues result) (room : count ≤ 256)
    {bytes : List UInt8} (accepted : result = .ok bytes) :
    Fits count residues ∧ bytes.map UInt8.toNat = (entries residues).map denoted := by
  induction reading generalizing bytes with
  | finished =>
    cases accepted
    exact ⟨⟨fun _ member => absurd member List.not_mem_nil, room⟩, rfl⟩
  | empty _ inductionHypothesis =>
    obtain ⟨fits, values⟩ := inductionHypothesis room accepted
    exact ⟨fits_empty_cons fits, values⟩
  | malformed | full => cases accepted
  | @literal _ _ text _ byte result literal value more _ inductionHypothesis =>
    cases result with
    | error fault => cases accepted
    | ok others =>
      cases accepted
      obtain ⟨fits, values⟩ := inductionHypothesis more rfl
      refine ⟨fits_literal_cons literal fits, ?_⟩
      rw [entries_cons literal.ne_nil, List.map_cons, List.map_cons, value, values]

/-- Where reading stops: behind lines that fit, at one that is no literal or a literal too many. -/
structure StopsAt (number count : Nat) (residues before : List (List Char)) (text : List Char)
    (cause : Fault) : Prop where
  place : ∃ after, residues = before ++ text :: after
  fits : Fits count before
  filled : text ≠ []
  surplus : IsLiteral text → count + (entries before).length = 256
  named : cause = .load (if IsLiteral text then .tooLong 256 else .notBinary (String.ofList text))
    (some (.ofNat (number + before.length)))

theorem StopsAt.cons {first text : List Char} {rest before : List (List Char)} {more : Nat}
    {cause : Fault} (stops : StopsAt (number + 1) more rest before text cause)
    (fits : Fits count (first :: before))
    (same : more + (entries before).length = count + (entries (first :: before)).length) :
    StopsAt number count (first :: rest) (first :: before) text cause where
  place := by
    obtain ⟨after, split⟩ := stops.place
    exact ⟨after, congrArg (first :: ·) split⟩
  fits := fits
  filled := stops.filled
  surplus := fun literal => same.symm.trans (stops.surplus literal)
  named := by
    have place : number + 1 + before.length = number + (first :: before).length := by
      rw [List.length_cons]
      omega
    rw [stops.named, place]

theorem Reading.stops (reading : Reading number count residues result) (room : count ≤ 256)
    {cause : Fault} (refused : result = .error cause) :
    ∃ before text, StopsAt number count residues before text cause := by
  have nothing {count : Nat} (room : count ≤ 256) : Fits count [] :=
    ⟨fun _ member => absurd member List.not_mem_nil, room⟩
  induction reading with
  | finished => cases refused
  | empty _ inductionHypothesis =>
    obtain ⟨before, text, stops⟩ := inductionHypothesis room refused
    exact ⟨[] :: before, text, stops.cons (fits_empty_cons stops.fits) rfl⟩
  | @malformed number count text rest filled malformed =>
    cases refused
    refine ⟨[], text, ⟨rest, rfl⟩, nothing room, filled, ?_, ?_⟩
    · exact fun literal => absurd literal malformed
    · rw [if_neg malformed]
      rfl
  | @full number count text rest literal full =>
    cases refused
    refine ⟨[], text, ⟨rest, rfl⟩, nothing room, literal.ne_nil, fun _ => ?_, ?_⟩
    · exact Nat.le_antisymm room full
    · rw [if_pos literal]
      rfl
  | @literal _ _ first _ byte result literal value more _ inductionHypothesis =>
    cases result with
    | ok others => cases refused
    | error fault =>
      cases refused
      obtain ⟨before, text, stops⟩ := inductionHypothesis more rfl
      refine ⟨first :: before, text, stops.cons (fits_literal_cons literal stops.fits) ?_⟩
      rw [entries_cons literal.ne_nil, List.length_cons]
      omega

/-- Lines at which reading stops do not fit. -/
theorem StopsAt.not_fits {before : List (List Char)} {text : List Char} {cause : Fault}
    (stops : StopsAt number count residues before text cause) : ¬ Fits count residues := by
  intro fits
  obtain ⟨after, rfl⟩ := stops.place
  rcases fits.1 text (List.mem_append_right before List.mem_cons_self) with empty | literal
  · exact stops.filled empty
  · have full := stops.surplus literal
    have room := fits.2
    have more : (entries (before ++ text :: after)).length =
        (entries before).length + ((entries after).length + 1) := by
      rw [entries_append, entries_cons stops.filled, List.length_append, List.length_cons]
    omega

end

/-! ### What is accepted -/

/-- Each residue is empty or a literal, and at most 256 are not empty. -/
def WellFormed (residues : List (List Char)) : Prop :=
  (∀ text ∈ residues, text = [] ∨ IsLiteral text) ∧ (entries residues).length ≤ 256

theorem fits_zero_iff {residues : List (List Char)} : Fits 0 residues ↔ WellFormed residues := by
  unfold Fits WellFormed
  rw [Nat.zero_add]

/-- Program text is accepted exactly if its residues are well formed, and then denotes the values of
those that are not empty, in order. Otherwise it is refused at the first line that is malformed or
holds the 257th entry: the residues before it are well formed. The refusal gives the number of the
line, and its residue if that is malformed. -/
theorem parse_follows_grammar (text : String) :
    ∃ residues, (∀ others, AreResidues text.toList others ↔ others = residues) ∧
      ((∃ bytes, parse text = .ok bytes) ↔ WellFormed residues) ∧
      (∀ bytes, parse text = .ok bytes → bytes.length ≤ 256 ∧
        bytes.map UInt8.toNat = (entries residues).map denoted) ∧
      (¬ WellFormed residues → ∃ before line after,
        residues = before ++ line :: after ∧ WellFormed before ∧ line ≠ [] ∧
          (¬ IsLiteral line ∨ (entries before).length = 256) ∧
          parse text = .error (.load
            (if IsLiteral line then .tooLong 256 else .notBinary (String.ofList line))
            (some (.ofNat (before.length + 1))))) := by
  have read := reading 1 0 (lines text.toList)
  have accepted {bytes : List UInt8} (parsed : parse text = .ok bytes) :=
    read.fits (Nat.zero_le 256) parsed
  refine ⟨(lines text.toList).map residue, fun others => areResidues_iff, ⟨?_, ?_⟩, ?_, ?_⟩
  · rintro ⟨bytes, parsed⟩
    exact fits_zero_iff.mp (accepted parsed).1
  · intro formed
    cases parsed : parse text with
    | ok bytes => exact ⟨bytes, rfl⟩
    | error cause =>
      obtain ⟨before, line, stops⟩ := read.stops (Nat.zero_le 256) parsed
      exact absurd (fits_zero_iff.mpr formed) stops.not_fits
  · intro bytes parsed
    obtain ⟨fits, values⟩ := accepted parsed
    have length := congrArg List.length values
    rw [List.length_map, List.length_map] at length
    exact ⟨length.trans_le (fits_zero_iff.mp fits).2, values⟩
  · intro unformed
    cases parsed : parse text with
    | ok bytes => exact absurd (fits_zero_iff.mp (accepted parsed).1) unformed
    | error cause =>
      obtain ⟨before, line, ⟨after, place⟩, fits, filled, surplus, named⟩ :=
        read.stops (Nat.zero_le 256) parsed
      refine ⟨before, line, after, place, fits_zero_iff.mp fits, filled, ?_, ?_⟩
      · by_cases literal : IsLiteral line
        · exact Or.inr ((Nat.zero_add _).symm.trans (surplus literal))
        · exact Or.inl literal
      · rw [named, Nat.add_comm before.length 1]

/-- Two literals with a comment and blanks around them, an empty line, and a digit that is not
binary; the line behind it is malformed too. -/
def mixed : String :=
  "1 # one\r\n\t101 \n#\n102 # two\n3"

/-- The text is refused at its fourth line, with the residue of that line; what stands before it is
well formed. -/
theorem mixed_refused :
    parse mixed = .error (.load (.notBinary "102") (some (.ofNat 4))) ∧
      ∃ before line after, AreResidues mixed.toList (before ++ line :: after) ∧
        WellFormed before ∧ line ≠ [] ∧ (¬ IsLiteral line ∨ (entries before).length = 256) := by
  have refused : parse mixed = .error (.load (.notBinary "102") (some (.ofNat 4))) := by
    decide +kernel
  obtain ⟨residues, unique, accepted, -, stops⟩ := parse_follows_grammar mixed
  have unformed : ¬ WellFormed residues := by
    intro formed
    obtain ⟨bytes, parsed⟩ := accepted.mpr formed
    rw [refused] at parsed
    cases parsed
  obtain ⟨before, line, after, place, formed, filled, offends, -⟩ := stops unformed
  exact ⟨refused, before, line, after, (unique _).mpr place.symm, formed, filled, offends⟩

end EightBit.Source
