/-
A step limit is given by a flag or by a variable, and the two do not read a text in the same way.
The flag takes the number that leads the text, whatever follows it; the variable counts only if it
is digits from end to end, and is no limit otherwise. So they agree on numerals, and apart from them
only where the flag gives no limit either. A numeral is read at its value in base ten, rounded to
the nearest number there is.
-/

import EightBit.Proofs.Arguments
import EightBit.Proofs.Recents
import Mathlib.Data.List.TakeWhile
import Mathlib.Data.Nat.Digits.Defs

namespace EightBit

/-! ### The value of a numeral -/

/-- The value of a text of digits in base ten, where the last digit counts once. -/
def decimalValue (text : String) : Nat :=
  Nat.ofDigits 10 (text.toList.reverse.map fun digit => digit.toNat - 48)

theorem digitsValue_toList (text : String) : digitsValue text.toList = decimalValue text := by
  unfold decimalValue
  induction text.toList using List.reverseRecOn with
  | nil => rfl
  | append_singleton digits last inductionHypothesis =>
    rw [digitsValue, List.foldl_append, List.foldl_cons, List.foldl_nil, ← digitsValue,
      inductionHypothesis, List.reverse_append, List.reverse_singleton, List.singleton_append,
      List.map_cons, Nat.ofDigits_cons, Nat.add_comm]

theorem toNat_of_isDigit {char : Char} (digit : isDigit char = true) :
    48 ≤ char.toNat ∧ char.toNat ≤ 57 := by
  unfold isDigit at digit
  rw [Bool.and_eq_true, decide_eq_true_iff, decide_eq_true_iff] at digit
  exact digit

theorem isBlank_of_isDigit {char : Char} (digit : isDigit char = true) :
    Text.isBlank char = false := by
  obtain ⟨above, below⟩ := toNat_of_isDigit digit
  unfold Text.isBlank
  simp only [Bool.or_eq_false_iff, Bool.and_eq_false_iff, decide_eq_false_iff_not,
    beq_eq_false_iff_ne]
  omega

namespace Number

/-- A numeral is read to its end, at its value. -/
theorem ofNumeral_of_isNumeral {text : String} (numeral : isNumeral text = true) :
    ofNumeral text = nearest (decimalValue text) := by
  unfold isNumeral at numeral
  rw [Bool.and_eq_true, List.all_eq_true] at numeral
  obtain ⟨filled, digits⟩ := numeral
  rw [← digitsValue_toList]
  unfold ofNumeral
  cases spelled : text.toList with
  | nil =>
    rw [String.toList_eq_nil_iff] at spelled
    rw [spelled] at filled
    cases filled
  | cons first rest =>
    rw [spelled] at digits
    have leading := digits first List.mem_cons_self
    have trimmed : Text.trimLeft (first :: rest) = first :: rest :=
      List.dropWhile_cons_of_neg (by rw [isBlank_of_isDigit leading]; decide)
    have whole : (first :: rest).takeWhile isDigit = first :: rest :=
      List.takeWhile_eq_self_iff.mpr digits
    rw [trimmed]
    split
    · rename_i same
      cases same
      exact absurd leading (by decide)
    · rename_i same
      cases same
      exact absurd leading (by decide)
    · unfold ofDigits
      rw [whole]

theorem nearest_natCast {value : Nat} (small : value ≤ 2 ^ 53) :
    nearest value = .ofNat value := by
  have rounded := nearest_intCast value (by omega)
  rw [Rat.intCast_natCast] at rounded
  exact rounded

end Number

namespace Options

open Text

/-! ### The flag -/

theorem usable_of_isNumeral {text : String} (numeral : isNumeral text = true) {value : Rat}
    (finite : Number.nearest (decimalValue text) = .finite value) :
    ¬ Unusable (.ofNumeral text) := by
  have nonneg : (0 : Rat) ≤ decimalValue text := Rat.natCast_nonneg
  have least := Number.lt_zero_nearest nonneg
  rw [Number.ofNumeral_of_isNumeral numeral]
  rintro (none | ⟨_, endless⟩ | negative)
  · cases none.symm.trans finite
  · cases endless.symm.trans finite
  · cases negative.symm.trans least

theorem take_limit (options : Options) {text : String} (usable : ¬ Unusable (.ofNumeral text)) :
    options.take ("--max-steps=" ++ text) = .ok { options with limit := .ofNumeral text } := by
  have kind : IsKind ("--max-steps=" ++ text) .limit := .limit ⟨text, rfl⟩
  simp only [take, if_neg (kind.ne_trace (by decide)), after?_append, stepLimit?_of_usable usable]

variable {environment : Environment} {earlier later arguments : List String} {text : String}
  {options : Options}

/-- The only flag for the limit may as well stand at the end. -/
theorem sameByKind_flag_last
    (single : ∀ argument ∈ earlier ++ later, ¬ Begins "--max-steps=" argument) :
    SameByKind (earlier ++ ("--max-steps=" ++ text) :: later)
      (earlier ++ later ++ ["--max-steps=" ++ text]) := by
  have kind : kindOf ("--max-steps=" ++ text) = .limit := isKind_iff.mp (.limit ⟨text, rfl⟩)
  have others : (earlier ++ later).filter (kindOf · = .limit) = [] := by
    refine List.filter_eq_nil_iff.mpr fun argument member same => ?_
    cases isKind_iff.mpr (of_decide_eq_true same) with
    | limit limit => exact single argument member limit
  rw [List.filter_append, List.append_eq_nil_iff] at others
  intro chosen
  simp only [List.filter_append, List.filter_cons, kind, List.filter_nil]
  by_cases same : Kind.limit = chosen
  · rw [← same, others.1, others.2]
    rfl
  · rw [if_neg (by simpa using same), if_neg (by simpa using same), List.append_nil]

/-- A row with one flag for the limit is accepted if the row without it is and the limit can be
used. It means the same then, but for the limit. -/
theorem parse_flag_iff
    (single : ∀ argument ∈ earlier ++ later, ¬ Begins "--max-steps=" argument) :
    parse environment (earlier ++ ("--max-steps=" ++ text) :: later) = .ok options ↔
      ¬ Unusable (.ofNumeral text) ∧ ∃ others, parse environment (earlier ++ later) = .ok others ∧
        options = { others with limit := .ofNumeral text } := by
  rw [(sameByKind_flag_last single).parse_eq_ok_iff]
  have taken {others : Options} (parsed : parse environment (earlier ++ later) = .ok others)
      (usable : ¬ Unusable (.ofNumeral text)) :
      parse environment (earlier ++ later ++ ["--max-steps=" ++ text]) =
        .ok { others with limit := .ofNumeral text } := by
    rw [parse, takeAll_append parsed, takeAll, take_limit others usable]
    rfl
  constructor
  · intro accepted
    have acceptable := (Options.parse_eq_ok_iff.mp accepted).1
    have usable : ¬ Unusable (.ofNumeral text) := fun unusable =>
      acceptable _ _ [] rfl _ (.limit rfl unusable)
    obtain ⟨others, parsed, -⟩ := parse_of_acceptable environment acceptable.of_append
    exact ⟨usable, others, parsed, Except.ok.inj (accepted.symm.trans (taken parsed usable))⟩
  · rintro ⟨usable, others, parsed, rfl⟩
    exact taken parsed usable

/-! ### The variable -/

/-- In one environment the variable for the limit is not set, in the other it is; no other variable
of a command differs. -/
structure SetsLimit (unset set : Environment) (text : String) : Prop where
  absent : unset.get? "VM_MAX_STEPS" = none
  given : set.get? "VM_MAX_STEPS" = some text
  trace : set.get? "VM_TRACE" = unset.get? "VM_TRACE"
  image : set.get? "VM_DUMP_PNG" = unset.get? "VM_DUMP_PNG"

theorem lastAfter?_eq_none {lead : String}
    (missing : ∀ argument ∈ arguments, ¬ Begins lead argument) :
    lastAfter? lead arguments = none := by
  have nothing : arguments.filterMap (after? lead) = [] :=
    List.filterMap_eq_nil_iff.mpr fun argument member =>
      after?_eq_none_iff.mpr (missing argument member)
  rw [lastAfter?, nothing]
  rfl

/-- A row without the flag is accepted with the variable as it is without, and means the same but
for the limit. -/
theorem SetsLimit.parse_set {unset set : Environment} (sets : SetsLimit unset set text)
    (missing : ∀ argument ∈ arguments, ¬ Begins "--max-steps=" argument)
    (parsed : parse unset arguments = .ok options) :
    parse set arguments =
      .ok { options with limit := if isNumeral text then .ofNumeral text else .ofNat 0 } := by
  obtain ⟨acceptable, means⟩ := Options.parse_eq_ok_iff.mp parsed
  refine Options.parse_eq_ok_iff.mpr ⟨acceptable, ?_⟩
  have nowhere := lastAfter?_eq_none missing
  have limit : set.number "VM_MAX_STEPS" (.ofNat 0) =
      if isNumeral text then .ofNumeral text else .ofNat 0 := by
    unfold Environment.number
    rw [sets.given]
  constructor
  case program => exact means.program
  case trace =>
    rw [means.trace, ← Environment.get?_eq_some_iff, ← Environment.get?_eq_some_iff,
      ← Environment.get?_eq_some_iff, ← Environment.get?_eq_some_iff, sets.trace]
  case limit =>
    rw [nowhere]
    exact nofun
  case limitElse =>
    rw [← limit]
    exact fun _ => set.limits_number
  case image => exact means.image
  case imageElse =>
    intro absent path
    rw [means.imageElse absent path, ← Environment.get?_eq_some_iff,
      ← Environment.get?_eq_some_iff, sets.image]

/-- The two ways of giving a limit. Where a flag is accepted, the variable with the same text gives
the same options if the text is a numeral, and no limit otherwise; so they agree just when it is one
or the flag gives no limit either. The flag is accepted with every numeral whose value can be
rounded to a finite number, and gives that number. -/
theorem flag_and_variable_agree_iff (unset set : Environment) (text : String)
    (sets : SetsLimit unset set text) (earlier later : List String)
    (single : ∀ argument ∈ earlier ++ later, ¬ Begins "--max-steps=" argument) :
    (∀ options, parse unset (earlier ++ ("--max-steps=" ++ text) :: later) = .ok options →
      options.limit = .ofNumeral text ∧
      parse set (earlier ++ later) =
        .ok { options with limit := if isNumeral text then options.limit else .ofNat 0 } ∧
      (parse set (earlier ++ later) = .ok options ↔
        isNumeral text = true ∨ options.limit = .ofNat 0)) ∧
    (isNumeral text = true → ∀ value, Number.nearest (decimalValue text) = .finite value →
      (decimalValue text ≤ 2 ^ 53 → Number.finite value = .ofNat (decimalValue text)) ∧
      ∀ others, parse unset (earlier ++ later) = .ok others →
        parse unset (earlier ++ ("--max-steps=" ++ text) :: later) =
          .ok { others with limit := .finite value }) := by
  constructor
  · intro options accepted
    obtain ⟨-, others, parsed, rfl⟩ := (parse_flag_iff single).mp accepted
    have given := sets.parse_set single parsed
    refine ⟨rfl, given, ?_⟩
    rw [given]
    constructor
    · intro same
      have limits := congrArg Options.limit (Except.ok.inj same)
      by_cases numeral : isNumeral text = true
      · exact Or.inl numeral
      · exact Or.inr (limits.symm.trans (if_neg numeral))
    · rintro (numeral | unlimited)
      · rw [if_pos numeral]
      · have limits : Number.ofNumeral text = .ofNat 0 := unlimited
        rw [limits, ite_self]
  · intro numeral value finite
    refine ⟨fun small => finite.symm.trans (Number.nearest_natCast small), fun others parsed => ?_⟩
    refine (parse_flag_iff single).mpr ⟨usable_of_isNumeral numeral finite, others, parsed, ?_⟩
    rw [Number.ofNumeral_of_isNumeral numeral, finite]

/-- A numeral that is rounded, 2^53 plus one, gives the same limit in both ways. -/
theorem rounded_limit_given :
    let meant : Options :=
      { program := some "p", trace := true, limit := .ofNat 9007199254740992, image := none }
    parse .empty ["--trace", "--max-steps=9007199254740993", "p"] = .ok meant ∧
      parse (.ofList [("VM_MAX_STEPS", "9007199254740993")]) ["--trace", "p"] = .ok meant := by
  have sets : SetsLimit .empty (.ofList [("VM_MAX_STEPS", "9007199254740993")])
      "9007199254740993" := ⟨by decide, by decide +kernel, by decide +kernel, by decide +kernel⟩
  have single : ∀ argument ∈ ["--trace"] ++ ["p"], ¬ Begins "--max-steps=" argument := by
    decide +kernel
  obtain ⟨agree, accepted⟩ := flag_and_variable_agree_iff _ _ _ sets ["--trace"] ["p"] single
  have numeral : isNumeral "9007199254740993" = true := by decide +kernel
  have plain : parse .empty ["--trace", "p"] =
      .ok { program := some "p", trace := true, limit := .ofNat 0, image := none } := by
    decide +kernel
  have flagged := (accepted numeral 9007199254740992 (by decide +kernel)).2 _ plain
  exact ⟨flagged, (agree _ flagged).2.2.mpr (Or.inl numeral)⟩

/-- A text that only begins with digits is a limit for the flag and none for the variable. -/
theorem suffixed_limit_disagrees :
    ¬ ∀ (unset set : Environment) (text : String), text ≠ "" → SetsLimit unset set text →
      ∀ options, parse unset ["--max-steps=" ++ text] = .ok options →
        ∃ other, parse set [] = .ok other ∧ other.limit = options.limit := by
  intro agree
  have sets : SetsLimit .empty (.ofList [("VM_MAX_STEPS", "5x")]) "5x" :=
    ⟨by decide, by decide +kernel, by decide +kernel, by decide +kernel⟩
  have flagged : parse .empty ["--max-steps=" ++ "5x"] =
      .ok { program := none, trace := false, limit := .ofNat 5, image := none } := by
    decide +kernel
  have given : parse (.ofList [("VM_MAX_STEPS", "5x")]) [] =
      .ok { program := none, trace := false, limit := .ofNat 0, image := none } := by
    decide +kernel
  obtain ⟨other, parsed, same⟩ := agree _ _ _ (by decide) sets _ flagged
  cases given.symm.trans parsed
  exact absurd same (by decide)

end Options

end EightBit
