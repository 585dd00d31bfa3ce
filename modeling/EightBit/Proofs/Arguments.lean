/-
What the arguments of a command mean, said of the whole row at once. Arguments come in five kinds.
An argument is bad by itself, or because a program has already been named; a row without a bad
argument is accepted, any other is refused at the first of them. What an accepted row means does not
mention the order in which arguments of different kinds stand: a program is the only one of its
kind, a trace is asked for or not, and of the limits and the pictures the last one counts, or the
environment where there is none. Of the environment only variables that are not empty count, and
for a limit only digits.
-/

import EightBit.CommandLine.Options
import Mathlib.Data.List.Induction

namespace EightBit

/-! ### How texts begin -/

namespace Text

def Begins (lead text : String) : Prop :=
  ∃ rest, text = lead ++ rest

theorem after?_append (lead rest : String) : after? lead (lead ++ rest) = some rest := by
  unfold after?
  rw [String.toList_append, if_pos (List.isPrefixOf_iff_prefix.mpr (List.prefix_append _ _)),
    ← String.length_toList, List.drop_left, String.ofList_toList]

theorem after?_eq_some_iff {lead text rest : String} :
    after? lead text = some rest ↔ text = lead ++ rest := by
  constructor
  · intro found
    unfold after? at found
    split at found
    · rename_i leads
      obtain ⟨tail, whole⟩ := List.isPrefixOf_iff_prefix.mp leads
      cases found
      rw [← whole, ← String.length_toList, List.drop_left]
      refine String.toList_inj.mp ?_
      rw [String.toList_append, String.toList_ofList, whole]
    · cases found
  · rintro rfl
    exact after?_append lead rest

theorem begins_iff {lead text : String} : Begins lead text ↔ (after? lead text).isSome = true := by
  rw [Option.isSome_iff_exists]
  exact exists_congr fun rest => after?_eq_some_iff.symm

instance (lead text : String) : Decidable (Begins lead text) :=
  decidable_of_iff _ begins_iff.symm

theorem after?_eq_none_iff {lead text : String} : after? lead text = none ↔ ¬ Begins lead text := by
  rw [begins_iff, Bool.not_eq_true, Option.isSome_eq_false_iff, Option.isNone_iff_eq_none]

theorem startsWith_iff {lead text : String} : startsWith lead text = true ↔ Begins lead text := by
  rw [begins_iff]
  unfold startsWith after?
  split <;> simp_all

/-- What begins with a text begins with every beginning of that text. -/
theorem Begins.of_append (lead rest : String) {text : String}
    (begins : Begins (lead ++ rest) text) : Begins lead text := by
  obtain ⟨tail, rfl⟩ := begins
  exact ⟨rest ++ tail, String.append_assoc⟩

/-- Of two beginnings neither of which begins with the other, a text has at most one. -/
theorem Begins.not_begins {lead head text : String} (begins : Begins lead text)
    (apart : ¬ (lead.toList <+: head.toList ∨ head.toList <+: lead.toList)) :
    ¬ Begins head text := by
  rintro ⟨rest, rfl⟩
  obtain ⟨tail, same⟩ := begins
  have whole := congrArg String.toList same
  rw [String.toList_append, String.toList_append] at whole
  exact apart (List.prefix_or_prefix_of_prefix ⟨tail.toList, whole.symm⟩ (List.prefix_append _ _))

end Text

/-! ### What an environment says -/

/-- A text of digits. -/
def Digits (text : String) : Prop :=
  ∀ char ∈ text.toList, '0' ≤ char ∧ char ≤ '9'

theorem isNumeral_iff (text : String) : isNumeral text = true ↔ text ≠ "" ∧ Digits text := by
  unfold isNumeral Digits isDigit
  rw [Bool.and_eq_true, Bool.not_eq_true', ← Bool.not_eq_true, String.isEmpty_iff, List.all_eq_true]
  simp only [Bool.and_eq_true, decide_eq_true_eq, ne_eq]

namespace Environment

variable {environment other : Environment} {name text : String}

/-- A variable is bound to a text that is not empty. -/
def Holds (environment : Environment) (name text : String) : Prop :=
  environment.bindings.lookup name = some text ∧ text ≠ ""

instance : Decidable (environment.Holds name text) :=
  inferInstanceAs (Decidable (_ ∧ _))

theorem get?_eq_some_iff : environment.get? name = some text ↔ environment.Holds name text := by
  unfold get? Holds
  rw [Option.filter_eq_some_iff, Bool.not_eq_true', ← Bool.not_eq_true, String.isEmpty_iff]

/-- Two environments agree on a variable. -/
def AgreeOn (environment other : Environment) (name : String) : Prop :=
  ∀ text, environment.Holds name text ↔ other.Holds name text

theorem agreeOn_of_lookup
    (same : environment.bindings.lookup name = other.bindings.lookup name) :
    environment.AgreeOn other name := by
  intro text
  unfold Holds
  rw [same]

/-- The limit that an environment gives by itself: the value of digits, and none for anything
else. -/
inductive Limits (environment : Environment) : Number → Prop
  | digits {text : String} (held : environment.Holds "VM_MAX_STEPS" text) (digits : Digits text) :
      Limits environment (.ofNumeral text)
  | none (notDigits : ∀ text, environment.Holds "VM_MAX_STEPS" text → ¬ Digits text) :
      Limits environment (.ofNat 0)

theorem limits_number (environment : Environment) :
    environment.Limits (environment.number "VM_MAX_STEPS" (.ofNat 0)) := by
  unfold number
  cases found : environment.get? "VM_MAX_STEPS" with
  | none =>
    refine .none fun text held => ?_
    rw [← get?_eq_some_iff, found] at held
    cases held
  | some text =>
    have held := get?_eq_some_iff.mp found
    simp only
    by_cases numeral : isNumeral text = true
    · rw [if_pos numeral]
      exact .digits held ((isNumeral_iff text).mp numeral).2
    · rw [if_neg numeral]
      refine .none fun other again digits => numeral ((isNumeral_iff text).mpr ⟨held.2, ?_⟩)
      obtain rfl : other = text := Option.some.inj (again.1.symm.trans held.1)
      exact digits

theorem Limits.unique {limit another : Number} (first : environment.Limits limit)
    (second : environment.Limits another) : limit = another := by
  cases first with
  | digits held digits =>
    cases second with
    | digits again => rw [Option.some.inj (held.1.symm.trans again.1)]
    | none notDigits => exact absurd digits (notDigits _ held)
  | none notDigits =>
    cases second with
    | digits held digits => exact absurd digits (notDigits _ held)
    | none => rfl

theorem Limits.of_agree {limit : Number} (limits : environment.Limits limit)
    (agree : environment.AgreeOn other "VM_MAX_STEPS") : other.Limits limit := by
  cases limits with
  | digits held digits => exact .digits ((agree _).mp held) digits
  | none notDigits => exact .none fun text held => notDigits text ((agree text).mpr held)

end Environment

open Text

namespace Options

/-! ### Kinds of arguments -/

inductive Kind where
  | trace
  | limit
  | image
  | unknown
  | program
  deriving DecidableEq

def kindOf (argument : String) : Kind :=
  if argument = "--trace" then .trace
  else if Begins "--max-steps=" argument then .limit
  else if Begins "--dump-png=" argument then .image
  else if Begins "--" argument then .unknown
  else .program

theorem begins_of_limit {argument : String} (limit : Begins "--max-steps=" argument) :
    Begins "--" argument :=
  limit.of_append "--" "max-steps="

theorem begins_of_image {argument : String} (image : Begins "--dump-png=" argument) :
    Begins "--" argument :=
  image.of_append "--" "dump-png="

/-- What makes an argument one of a kind. -/
inductive IsKind (argument : String) : Kind → Prop
  | trace (same : argument = "--trace") : IsKind argument .trace
  | limit (limit : Begins "--max-steps=" argument) : IsKind argument .limit
  | image (image : Begins "--dump-png=" argument) : IsKind argument .image
  | unknown (dashed : Begins "--" argument) (notTrace : argument ≠ "--trace")
      (notLimit : ¬ Begins "--max-steps=" argument) (notImage : ¬ Begins "--dump-png=" argument) :
      IsKind argument .unknown
  | program (plain : ¬ Begins "--" argument) : IsKind argument .program

theorem isKind_kindOf (argument : String) : IsKind argument (kindOf argument) := by
  unfold kindOf
  by_cases trace : argument = "--trace"
  · rw [if_pos trace]
    exact .trace trace
  · rw [if_neg trace]
    by_cases limit : Begins "--max-steps=" argument
    · rw [if_pos limit]
      exact .limit limit
    · rw [if_neg limit]
      by_cases image : Begins "--dump-png=" argument
      · rw [if_pos image]
        exact .image image
      · rw [if_neg image]
        by_cases dashed : Begins "--" argument
        · rw [if_pos dashed]
          exact .unknown dashed trace limit image
        · rw [if_neg dashed]
          exact .program dashed

/-- An argument is of one kind only. -/
theorem isKind_iff {argument : String} {kind : Kind} :
    IsKind argument kind ↔ kindOf argument = kind := by
  refine ⟨fun classified => ?_, fun same => same ▸ isKind_kindOf argument⟩
  have notTrace (lead : String) (begins : Begins lead argument)
      (apart : ¬ Begins lead "--trace") : argument ≠ "--trace" := by
    rintro rfl
    exact apart begins
  cases classified with
  | trace same => exact if_pos same
  | limit limit =>
    rw [kindOf, if_neg (notTrace _ limit (by decide)), if_pos limit]
  | image image =>
    rw [kindOf, if_neg (notTrace _ image (by decide)), if_neg (image.not_begins (by decide)),
      if_pos image]
  | unknown dashed notTrace notLimit notImage =>
    rw [kindOf, if_neg notTrace, if_neg notLimit, if_neg notImage, if_pos dashed]
  | program plain =>
    have other : argument ≠ "--trace" := by
      rintro rfl
      exact plain (by decide)
    rw [kindOf, if_neg other, if_neg fun limit => plain (begins_of_limit limit),
      if_neg fun image => plain (begins_of_image image), if_neg plain]

namespace IsKind

variable {argument : String} {kind other : Kind}

theorem unique (first : IsKind argument kind) (second : IsKind argument other) : kind = other :=
  (isKind_iff.mp first).symm.trans (isKind_iff.mp second)

theorem dashed (isKind : IsKind argument kind) (different : kind ≠ .program) :
    Begins "--" argument :=
  Decidable.not_not.mp fun plain => different (isKind.unique (.program plain))

theorem ne_trace (isKind : IsKind argument kind) (different : kind ≠ .trace) :
    argument ≠ "--trace" :=
  fun same => different (isKind.unique (.trace same))

theorem after?_limit (isKind : IsKind argument kind) (different : kind ≠ .limit) :
    after? "--max-steps=" argument = none :=
  after?_eq_none_iff.mpr fun limit => different (isKind.unique (.limit limit))

theorem after?_image (isKind : IsKind argument kind) (different : kind ≠ .image) :
    after? "--dump-png=" argument = none :=
  after?_eq_none_iff.mpr fun image => different (isKind.unique (.image image))

theorem program_kept (isKind : IsKind argument kind) (different : kind ≠ .program)
    (programs : List String) :
    programs = programs ++ if Begins "--" argument then [] else [argument] := by
  rw [if_pos (isKind.dashed different), List.append_nil]

theorem limit_kept (isKind : IsKind argument kind) (different : kind ≠ .limit) (limit : Number) :
    limit = ((after? "--max-steps=" argument).map Number.ofNumeral).getD limit := by
  rw [isKind.after?_limit different]
  rfl

theorem image_kept (isKind : IsKind argument kind) (different : kind ≠ .image)
    (image : Option String) : image = (after? "--dump-png=" argument).or image := by
  rw [isKind.after?_image different]
  rfl

end IsKind

/-! ### Bad arguments -/

/-- A number that cannot limit steps: none at all, infinite, or negative. -/
def Unusable (number : Number) : Prop :=
  number = .nan ∨ (∃ negative, number = .infinite negative) ∨ number.lt (.ofNat 0) = true

/-- A bad argument behind earlier ones, and the words with which it is refused. -/
inductive Bad (earlier : List String) (argument : String) : String → Prop
  | limit {text : String} (spelled : argument = "--max-steps=" ++ text)
      (unusable : Unusable (.ofNumeral text)) :
      Bad earlier argument ("invalid --max-steps value: " ++ text)
  | unknown (dashed : Begins "--" argument) (notTrace : argument ≠ "--trace")
      (notLimit : ¬ Begins "--max-steps=" argument) (notImage : ¬ Begins "--dump-png=" argument) :
      Bad earlier argument ("unknown option: " ++ argument)
  | surplus (plain : ¬ Begins "--" argument) (named : ∃ other ∈ earlier, ¬ Begins "--" other) :
      Bad earlier argument ("unexpected argument: " ++ argument)

/-- No argument is bad behind those before it. -/
def Acceptable (arguments : List String) : Prop :=
  ∀ earlier argument later, arguments = earlier ++ argument :: later →
    ∀ message, ¬ Bad earlier argument message

theorem acceptable_nil : Acceptable [] := by
  intro earlier argument later split
  exact absurd split.symm (List.append_ne_nil_of_right_ne_nil _ (List.cons_ne_nil _ _))

theorem Acceptable.of_append {arguments others : List String}
    (acceptable : Acceptable (arguments ++ others)) : Acceptable arguments := by
  rintro earlier argument later rfl
  exact acceptable earlier argument (later ++ others) (by rw [List.append_assoc]; rfl)

/-- A row that is not acceptable has a first bad argument. -/
theorem exists_first_bad {arguments : List String} (unacceptable : ¬ Acceptable arguments) :
    ∃ earlier argument later message, arguments = earlier ++ argument :: later ∧
      Acceptable earlier ∧ Bad earlier argument message := by
  induction arguments using List.reverseRecOn with
  | nil => exact absurd acceptable_nil unacceptable
  | append_singleton arguments last inductionHypothesis =>
    by_cases acceptable : Acceptable arguments
    · by_cases bad : ∃ message, Bad arguments last message
      · obtain ⟨message, bad⟩ := bad
        exact ⟨arguments, last, [], message, rfl, acceptable, bad⟩
      · refine absurd ?_ unacceptable
        intro earlier argument later split message found
        rcases List.eq_nil_or_concat later with rfl | ⟨others, other, rfl⟩
        · obtain ⟨rfl, same⟩ := List.append_inj' split rfl
          cases same
          exact bad ⟨message, found⟩
        · rw [List.concat_eq_append, ← List.cons_append, ← List.append_assoc] at split
          obtain ⟨front, -⟩ := List.append_inj' split rfl
          exact acceptable earlier argument others front message found
    · obtain ⟨earlier, argument, later, message, rfl, others, bad⟩ :=
        inductionHypothesis acceptable
      refine ⟨earlier, argument, later ++ [last], message, ?_, others, bad⟩
      rw [List.append_assoc]
      rfl

/-! ### One argument -/

theorem counted_ofNumeral (text : String) :
    (Number.ofNumeral text).counted = Number.ofNumeral text := by
  have digits (text : List Char) : (Number.ofDigits text).counted = Number.ofDigits text := by
    unfold Number.ofDigits Number.nearest
    split
    · rfl
    · simp only
      split <;> rfl
  have negative (number : Number) : number.neg.counted = number.neg := by
    unfold Number.neg
    split <;> rfl
  unfold Number.ofNumeral
  split
  · exact negative _
  · exact digits _
  · exact digits _

theorem stepLimit?_of_unusable {text : String} (unusable : Unusable (.ofNumeral text)) :
    stepLimit? text = none := by
  unfold stepLimit?
  cases spelled : Number.ofNumeral text with
  | finite value =>
    rw [spelled] at unusable
    rcases unusable with none | ⟨_, endless⟩ | negative
    · cases none
    · cases endless
    · exact if_pos (of_decide_eq_true negative)
  | absent | null | nan | infinite => rfl

theorem stepLimit?_of_usable {text : String} (usable : ¬ Unusable (.ofNumeral text)) :
    stepLimit? text = some (.ofNumeral text) := by
  have counted := counted_ofNumeral text
  unfold stepLimit?
  cases spelled : Number.ofNumeral text with
  | finite value =>
    rw [spelled] at usable
    refine if_neg fun negative => usable (Or.inr (Or.inr ?_))
    exact decide_eq_true negative
  | nan => exact absurd (Or.inl spelled) usable
  | infinite negative => exact absurd (Or.inr (Or.inl ⟨negative, spelled⟩)) usable
  | absent | null =>
    rw [spelled] at counted
    cases counted

/-- What one argument does to the options. -/
inductive Taken (options : Options) (argument : String) : Except Fault Options → Prop
  | trace (same : argument = "--trace") :
      Taken options argument (.ok { options with trace := true })
  | limit {text : String} (spelled : argument = "--max-steps=" ++ text)
      (usable : ¬ Unusable (.ofNumeral text)) :
      Taken options argument (.ok { options with limit := .ofNumeral text })
  | badLimit {text : String} (spelled : argument = "--max-steps=" ++ text)
      (unusable : Unusable (.ofNumeral text)) :
      Taken options argument (.error (.load (.badStepLimit text) none))
  | image {path : String} (spelled : argument = "--dump-png=" ++ path) :
      Taken options argument (.ok { options with image := some path })
  | unknown (kind : IsKind argument .unknown) :
      Taken options argument (.error (.load (.unknownOption argument) none))
  | program (plain : ¬ Begins "--" argument) (first : options.program = none) :
      Taken options argument (.ok { options with program := some argument })
  | surplus (plain : ¬ Begins "--" argument) (named : options.program ≠ none) :
      Taken options argument (.error (.load (.unexpectedArgument argument) none))

theorem taken (options : Options) (argument : String) :
    Taken options argument (options.take argument) := by
  unfold take
  by_cases trace : argument = "--trace"
  · rw [if_pos trace]
    exact .trace trace
  · rw [if_neg trace]
    cases limit : after? "--max-steps=" argument with
    | some text =>
      have spelled := after?_eq_some_iff.mp limit
      by_cases unusable : Unusable (.ofNumeral text)
      · simp only [stepLimit?_of_unusable unusable]
        exact .badLimit spelled unusable
      · simp only [stepLimit?_of_usable unusable]
        exact .limit spelled unusable
    | none =>
      cases image : after? "--dump-png=" argument with
      | some path => exact .image (after?_eq_some_iff.mp image)
      | none =>
        simp only [startsWith_iff]
        by_cases dashed : Begins "--" argument
        · rw [if_pos dashed]
          exact .unknown (.unknown dashed trace (after?_eq_none_iff.mp limit)
            (after?_eq_none_iff.mp image))
        · rw [if_neg dashed]
          cases named : options.program with
          | none => exact .program dashed named
          | some path =>
            refine .surplus dashed ?_
            rw [named]
            exact Option.some_ne_none path

/-! ### Rows of arguments -/

/-- What stands behind a lead in the last argument that begins with it. -/
def lastAfter? (lead : String) (arguments : List String) : Option String :=
  (arguments.filterMap (after? lead)).getLast?

theorem lastAfter?_concat (lead : String) (arguments : List String) (argument : String) :
    lastAfter? lead (arguments ++ [argument]) =
      (after? lead argument).or (lastAfter? lead arguments) := by
  unfold lastAfter?
  rw [List.filterMap_append, List.getLast?_append]
  cases found : after? lead argument with
  | none => rw [List.filterMap_cons_none found]; rfl
  | some rest => rw [List.filterMap_cons_some found]; rfl

/-- What a row of arguments means in an environment. -/
structure Means (environment : Environment) (arguments : List String) (options : Options) :
    Prop where
  /-- The program is the only argument that does not begin with two dashes, if there is one. -/
  program : arguments.filter (fun argument => ¬ Begins "--" argument) = options.program.toList
  trace : options.trace = true ↔ "--trace" ∈ arguments ∨
    environment.Holds "VM_TRACE" "1" ∨ environment.Holds "VM_TRACE" "true"
  /-- The limit is that of the last flag for it, or the environment's without one. -/
  limit : ∀ text, lastAfter? "--max-steps=" arguments = some text →
    options.limit = .ofNumeral text
  limitElse : lastAfter? "--max-steps=" arguments = none → environment.Limits options.limit
  /-- So is the picture. -/
  image : ∀ path, lastAfter? "--dump-png=" arguments = some path → options.image = some path
  imageElse : lastAfter? "--dump-png=" arguments = none →
    ∀ path, options.image = some path ↔ environment.Holds "VM_DUMP_PNG" path

section

variable {environment : Environment} {arguments earlier : List String} {argument : String}
  {options after : Options}

theorem means_nil (environment : Environment) :
    Means environment [] (ofEnvironment environment) where
  program := rfl
  trace := by
    unfold ofEnvironment Environment.flag
    simp [Environment.get?_eq_some_iff]
  limit := nofun
  limitElse _ := environment.limits_number
  image := nofun
  imageElse _ path := Environment.get?_eq_some_iff

/-- How the meaning of a row grows with one more argument. -/
theorem Means.concat (means : Means environment earlier options)
    (program : after.program.toList =
      options.program.toList ++ if Begins "--" argument then [] else [argument])
    (trace : after.trace = true ↔ options.trace = true ∨ argument = "--trace")
    (limit : after.limit =
      ((after? "--max-steps=" argument).map Number.ofNumeral).getD options.limit)
    (image : after.image = (after? "--dump-png=" argument).or options.image) :
    Means environment (earlier ++ [argument]) after where
  program := by
    rw [List.filter_append, means.program, program]
    by_cases dashed : Begins "--" argument <;> simp [dashed]
  trace := by
    rw [trace, means.trace, List.mem_append, List.mem_singleton, or_right_comm,
      @eq_comm _ argument]
  limit := by
    intro text
    rw [limit, lastAfter?_concat]
    cases after? "--max-steps=" argument with
    | none => exact means.limit text
    | some last =>
      rintro ⟨⟩
      rfl
  limitElse := by
    rw [limit, lastAfter?_concat]
    cases after? "--max-steps=" argument with
    | none => exact means.limitElse
    | some last => exact nofun
  image := by
    intro path
    rw [image, lastAfter?_concat]
    cases after? "--dump-png=" argument with
    | none => exact means.image path
    | some last => exact id
  imageElse := by
    rw [image, lastAfter?_concat]
    cases after? "--dump-png=" argument with
    | none => exact means.imageElse
    | some last => exact nofun

/-- An argument that is accepted adds what it says to the meaning. -/
theorem Means.of_take (means : Means environment earlier options)
    (accepted : options.take argument = .ok after) :
    Means environment (earlier ++ [argument]) after := by
  have outcome := taken options argument
  rw [accepted] at outcome
  cases outcome with
  | trace same =>
    have kind : IsKind argument .trace := .trace same
    exact means.concat (kind.program_kept (by decide) _) (by simp [same])
      (kind.limit_kept (by decide) _) (kind.image_kept (by decide) _)
  | @limit text spelled usable =>
    have kind : IsKind argument .limit := .limit ⟨text, spelled⟩
    refine means.concat (kind.program_kept (by decide) _) (by simp [kind.ne_trace]) ?_
      (kind.image_kept (by decide) _)
    rw [after?_eq_some_iff.mpr spelled]
    rfl
  | @image path spelled =>
    have kind : IsKind argument .image := .image ⟨path, spelled⟩
    refine means.concat (kind.program_kept (by decide) _) (by simp [kind.ne_trace])
      (kind.limit_kept (by decide) _) ?_
    rw [after?_eq_some_iff.mpr spelled]
    rfl
  | program plain first =>
    have kind : IsKind argument .program := .program plain
    refine means.concat ?_ (by simp [kind.ne_trace]) (kind.limit_kept (by decide) _)
      (kind.image_kept (by decide) _)
    rw [if_neg plain, first]
    rfl

/-- A program has been named exactly if an argument without dashes has been met. -/
theorem Means.named_iff (means : Means environment earlier options) :
    options.program ≠ none ↔ ∃ other ∈ earlier, ¬ Begins "--" other := by
  have program := means.program
  rw [ne_eq, ← Option.toList_eq_nil_iff, ← program, List.filter_eq_nil_iff]
  simp

/-- An argument is refused only if it is bad. -/
theorem Means.bad_of_take (means : Means environment earlier options) {fault : Fault}
    (refused : options.take argument = .error fault) : ∃ message, Bad earlier argument message := by
  have outcome := taken options argument
  rw [refused] at outcome
  cases outcome with
  | badLimit spelled unusable => exact ⟨_, .limit spelled unusable⟩
  | unknown kind =>
    cases kind with
    | unknown dashed notTrace notLimit notImage =>
      exact ⟨_, .unknown dashed notTrace notLimit notImage⟩
  | surplus plain named => exact ⟨_, .surplus plain (means.named_iff.mp named)⟩

/-- A bad argument is refused with its words, whatever the environment. -/
theorem Bad.refused {message : String} (bad : Bad earlier argument message) :
    ∃ fault : Fault, fault.kind = "LoadError" ∧ fault.message = message ∧
      ∀ {environment : Environment} {options : Options}, Means environment earlier options →
        options.take argument = .error fault := by
  cases bad with
  | @limit text spelled unusable =>
    have kind : IsKind argument .limit := .limit ⟨text, spelled⟩
    refine ⟨.load (.badStepLimit text) none, rfl, rfl, fun _ => ?_⟩
    simp only [take, if_neg (kind.ne_trace (by decide)), after?_eq_some_iff.mpr spelled,
      stepLimit?_of_unusable unusable]
  | unknown dashed notTrace notLimit notImage =>
    refine ⟨.load (.unknownOption argument) none, rfl, rfl, fun _ => ?_⟩
    simp only [take, if_neg notTrace, after?_eq_none_iff.mpr notLimit,
      after?_eq_none_iff.mpr notImage, if_pos (startsWith_iff.mpr dashed)]
  | surplus plain named =>
    have kind : IsKind argument .program := .program plain
    refine ⟨.load (.unexpectedArgument argument) none, rfl, rfl, fun {_ options} means => ?_⟩
    obtain ⟨path, program⟩ := Option.ne_none_iff_exists'.mp (means.named_iff.mpr named)
    simp only [take, if_neg (kind.ne_trace (by decide)), kind.after?_limit (by decide),
      kind.after?_image (by decide), startsWith_iff, if_neg plain, program]

theorem takeAll_append (accepted : options.takeAll arguments = .ok after) (others : List String) :
    options.takeAll (arguments ++ others) = after.takeAll others := by
  induction arguments generalizing options with
  | nil =>
    cases accepted
    rfl
  | cons argument rest inductionHypothesis =>
    rw [takeAll] at accepted
    rw [List.cons_append, takeAll]
    cases first : options.take argument with
    | error fault =>
      rw [first] at accepted
      cases accepted
    | ok next =>
      rw [first] at accepted
      exact inductionHypothesis accepted

theorem parse_of_acceptable (environment : Environment) (acceptable : Acceptable arguments) :
    ∃ options, parse environment arguments = .ok options ∧ Means environment arguments options := by
  induction arguments using List.reverseRecOn with
  | nil => exact ⟨ofEnvironment environment, rfl, means_nil environment⟩
  | append_singleton arguments last inductionHypothesis =>
    obtain ⟨options, parsed, means⟩ := inductionHypothesis acceptable.of_append
    have whole : parse environment (arguments ++ [last]) = options.takeAll [last] :=
      takeAll_append parsed [last]
    rw [whole, takeAll]
    cases step : options.take last with
    | error fault =>
      obtain ⟨message, bad⟩ := means.bad_of_take step
      exact absurd bad (acceptable arguments last [] rfl message)
    | ok after => exact ⟨after, rfl, means.of_take step⟩

/-- A row is refused at its first bad argument, whatever the environment. -/
theorem parse_of_unacceptable (unacceptable : ¬ Acceptable arguments) :
    ∃ earlier argument later message, ∃ fault : Fault, arguments = earlier ++ argument :: later ∧
      Acceptable earlier ∧ Bad earlier argument message ∧ fault.kind = "LoadError" ∧
      fault.message = message ∧ ∀ environment, parse environment arguments = .error fault := by
  obtain ⟨earlier, argument, later, message, rfl, acceptable, bad⟩ :=
    exists_first_bad unacceptable
  obtain ⟨fault, kind, words, refused⟩ := bad.refused
  refine ⟨earlier, argument, later, message, fault, rfl, acceptable, bad, kind, words, ?_⟩
  intro environment
  obtain ⟨options, parsed, means⟩ := parse_of_acceptable environment acceptable
  have whole : parse environment (earlier ++ argument :: later) =
      options.takeAll (argument :: later) := takeAll_append parsed _
  rw [whole, takeAll, refused means]

/-- A row has one meaning in an environment. -/
theorem Means.unique {other : Options} (first : Means environment arguments options)
    (second : Means environment arguments other) : options = other := by
  have program : options.program = other.program := by
    rw [← @Option.head?_toList _ options.program, ← first.program, second.program,
      Option.head?_toList]
  have trace : options.trace = other.trace :=
    Bool.eq_iff_iff.mpr (first.trace.trans second.trace.symm)
  have limit : options.limit = other.limit := by
    cases given : lastAfter? "--max-steps=" arguments with
    | some text => exact (first.limit text given).trans (second.limit text given).symm
    | none => exact (first.limitElse given).unique (second.limitElse given)
  have image : options.image = other.image := by
    cases given : lastAfter? "--dump-png=" arguments with
    | some path => exact (first.image path given).trans (second.image path given).symm
    | none =>
      exact Option.ext fun path =>
        (first.imageElse given path).trans (second.imageElse given path).symm
  cases options
  cases other
  cases program
  cases trace
  cases limit
  cases image
  rfl

theorem parse_eq_ok_iff :
    parse environment arguments = .ok options ↔
      Acceptable arguments ∧ Means environment arguments options := by
  constructor
  · intro parsed
    by_cases acceptable : Acceptable arguments
    · obtain ⟨other, again, means⟩ := parse_of_acceptable environment acceptable
      cases again.symm.trans parsed
      exact ⟨acceptable, means⟩
    · obtain ⟨_, _, _, _, _, _, _, _, _, _, refused⟩ := parse_of_unacceptable acceptable
      cases (refused environment).symm.trans parsed
  · rintro ⟨acceptable, means⟩
    obtain ⟨other, parsed, same⟩ := parse_of_acceptable environment acceptable
    rw [parsed, same.unique means]

end

/-! ### Another order -/

/-- Two rows have the same arguments of each kind, in the same order. -/
def SameByKind (arguments others : List String) : Prop :=
  ∀ kind, arguments.filter (kindOf · = kind) = others.filter (kindOf · = kind)

theorem filter_plain (arguments : List String) :
    arguments.filter (fun argument => ¬ Begins "--" argument) =
      arguments.filter (kindOf · = .program) := by
  refine List.filter_congr fun argument _ => decide_eq_decide.mpr ?_
  rw [← isKind_iff]
  constructor
  · exact .program
  · intro isProgram
    cases isProgram with
    | program plain => exact plain

namespace SameByKind

variable {arguments others : List String} (same : SameByKind arguments others)

include same

theorem symm : SameByKind others arguments :=
  fun kind => (same kind).symm

theorem mem {argument : String} (member : argument ∈ arguments) : argument ∈ others := by
  have place : argument ∈ arguments.filter (kindOf · = kindOf argument) :=
    List.mem_filter.mpr ⟨member, decide_eq_true rfl⟩
  rw [same] at place
  exact (List.mem_filter.mp place).1

/-- What is read from arguments of one kind only is read from those alone. -/
theorem lastAfter?_eq {lead : String} {kind : Kind}
    (only : ∀ argument, kindOf argument ≠ kind → after? lead argument = none) :
    lastAfter? lead arguments = lastAfter? lead others := by
  have own (row : List String) :
      row.filterMap (after? lead) = (row.filter (kindOf · = kind)).filterMap (after? lead) := by
    rw [List.filterMap_filter]
    congr 1
    funext argument
    by_cases same : kindOf argument = kind
    · rw [if_pos (decide_eq_true same)]
    · rw [if_neg (by simpa using same), only argument same]
  unfold lastAfter?
  rw [own arguments, own others, same kind]

theorem means {environment : Environment} {options : Options}
    (means : Means environment arguments options) : Means environment others options where
  program := by
    rw [← means.program, filter_plain, filter_plain, same .program]
  trace := by
    rw [means.trace, show "--trace" ∈ arguments ↔ "--trace" ∈ others from
      ⟨same.mem, same.symm.mem⟩]
  limit := by
    rw [← same.lastAfter?_eq fun argument => (isKind_kindOf argument).after?_limit]
    exact means.limit
  limitElse := by
    rw [← same.lastAfter?_eq fun argument => (isKind_kindOf argument).after?_limit]
    exact means.limitElse
  image := by
    rw [← same.lastAfter?_eq fun argument => (isKind_kindOf argument).after?_image]
    exact means.image
  imageElse := by
    rw [← same.lastAfter?_eq fun argument => (isKind_kindOf argument).after?_image]
    exact means.imageElse

theorem acceptable (acceptable : Acceptable arguments) : Acceptable others := by
  rintro earlier argument later rfl message bad
  have member : argument ∈ arguments :=
    same.symm.mem (List.mem_append_right earlier List.mem_cons_self)
  obtain ⟨front, rest, split⟩ := List.append_of_mem member
  cases bad with
  | limit spelled unusable =>
    exact acceptable front argument rest split _ (.limit spelled unusable)
  | unknown dashed notTrace notLimit notImage =>
    exact acceptable front argument rest split _ (.unknown dashed notTrace notLimit notImage)
  | surplus plain named =>
    -- two programs in one row are two in the other, wherever they stand
    obtain ⟨other, before, otherPlain⟩ := named
    obtain ⟨options, -, means⟩ := parse_of_acceptable .empty acceptable
    have single := congrArg List.length (same.means means).program
    have atMost : options.program.toList.length ≤ 1 := by
      cases options.program <;> simp
    have first : 0 < (earlier.filter fun argument => ¬ Begins "--" argument).length :=
      List.length_pos_of_mem (List.mem_filter.mpr ⟨before, decide_eq_true otherPlain⟩)
    rw [List.filter_append, List.length_append,
      List.filter_cons_of_pos (by simpa using plain), List.length_cons] at single
    omega

theorem parse_eq_ok_iff {environment : Environment} {options : Options} :
    parse environment arguments = .ok options ↔ parse environment others = .ok options := by
  rw [Options.parse_eq_ok_iff, Options.parse_eq_ok_iff]
  exact ⟨fun meant => ⟨same.acceptable meant.1, same.means meant.2⟩,
    fun meant => ⟨same.symm.acceptable meant.1, same.symm.means meant.2⟩⟩

end SameByKind

/-! ### Another environment -/

/-- Two environments agree on the variables of a command, except for those whose flag is given. -/
structure AgreeFor (arguments : List String) (environment other : Environment) : Prop where
  trace : "--trace" ∈ arguments ∨ environment.AgreeOn other "VM_TRACE"
  limit : (∃ argument ∈ arguments, Begins "--max-steps=" argument) ∨
    environment.AgreeOn other "VM_MAX_STEPS"
  image : (∃ argument ∈ arguments, Begins "--dump-png=" argument) ∨
    environment.AgreeOn other "VM_DUMP_PNG"

theorem exists_lastAfter? {lead : String} {arguments : List String}
    (given : ∃ argument ∈ arguments, Begins lead argument) :
    ∃ text, lastAfter? lead arguments = some text := by
  obtain ⟨argument, member, rest, spelled⟩ := given
  have read : rest ∈ arguments.filterMap (after? lead) :=
    List.mem_filterMap.mpr ⟨argument, member, after?_eq_some_iff.mpr spelled⟩
  exact ⟨_, List.getLast?_eq_some_getLast (List.ne_nil_of_mem read)⟩

theorem Means.of_agree {arguments : List String} {environment other : Environment}
    {options : Options} (means : Means environment arguments options)
    (agree : AgreeFor arguments environment other) : Means other arguments options where
  program := means.program
  trace := by
    rw [means.trace]
    rcases agree.trace with given | same
    · exact iff_of_true (Or.inl given) (Or.inl given)
    · rw [same, same]
  limit := means.limit
  limitElse := by
    intro missing
    rcases agree.limit with given | same
    · obtain ⟨text, found⟩ := exists_lastAfter? given
      cases found.symm.trans missing
    · exact (means.limitElse missing).of_agree same
  image := means.image
  imageElse := by
    intro missing path
    rcases agree.image with given | same
    · obtain ⟨text, found⟩ := exists_lastAfter? given
      cases found.symm.trans missing
    · exact (means.imageElse missing path).trans (same path)

/-- A row of arguments is accepted exactly if none of them is bad. It then has its declared meaning,
which is the same in any other order of arguments of different kinds. Otherwise it is refused with
the words for the first bad one. A variable has no influence beside the flag for it. -/
theorem parse_declared (environment : Environment) (arguments : List String) :
    ((∃ options, parse environment arguments = .ok options) ↔ Acceptable arguments) ∧
    (∀ options, parse environment arguments = .ok options ↔
      Acceptable arguments ∧ Means environment arguments options) ∧
    (¬ Acceptable arguments → ∃ earlier argument later message, ∃ fault : Fault,
      arguments = earlier ++ argument :: later ∧ Acceptable earlier ∧
        Bad earlier argument message ∧ parse environment arguments = .error fault ∧
        fault.kind = "LoadError" ∧ fault.message = message) ∧
    (∀ others, SameByKind arguments others → ∀ options,
      parse environment others = .ok options ↔ parse environment arguments = .ok options) ∧
    (∀ other, AgreeFor arguments environment other →
      parse other arguments = parse environment arguments) := by
  refine ⟨⟨?_, ?_⟩, ?_, ?_, ?_, ?_⟩
  · rintro ⟨options, parsed⟩
    exact (parse_eq_ok_iff.mp parsed).1
  · intro acceptable
    obtain ⟨options, parsed, -⟩ := parse_of_acceptable environment acceptable
    exact ⟨options, parsed⟩
  · exact fun options => parse_eq_ok_iff
  · intro unacceptable
    obtain ⟨earlier, argument, later, message, fault, split, acceptable, bad, kind, words,
      refused⟩ := parse_of_unacceptable unacceptable
    exact ⟨earlier, argument, later, message, fault, split, acceptable, bad,
      refused environment, kind, words⟩
  · exact fun others same options => same.symm.parse_eq_ok_iff
  · intro other agree
    by_cases acceptable : Acceptable arguments
    · obtain ⟨options, parsed, means⟩ := parse_of_acceptable environment acceptable
      rw [parsed, parse_eq_ok_iff]
      exact ⟨acceptable, means.of_agree agree⟩
    · obtain ⟨_, _, _, _, _, _, _, _, _, _, refused⟩ := parse_of_unacceptable acceptable
      rw [refused environment, refused other]

/-- An environment that sets all variables of a command. -/
def settled : Environment :=
  .ofList [("VM_TRACE", "true"), ("VM_MAX_STEPS", "9"), ("VM_DUMP_PNG", "m.png")]

theorem acceptable_named : Acceptable ["p"] := by
  intro earlier argument later split message bad
  obtain ⟨rfl, rest⟩ : earlier = [] ∧ ["p"] = argument :: later := by
    cases earlier with
    | nil => exact ⟨rfl, split⟩
    | cons first others =>
      cases others <;> cases split
  cases rest
  cases bad with
  | @limit text spelled => exact absurd ⟨text, spelled⟩ (by decide : ¬ Begins "--max-steps=" "p")
  | unknown dashed => exact absurd dashed (by decide)
  | surplus _ named =>
    obtain ⟨_, member, _⟩ := named
    cases member

theorem means_settled :
    Means settled ["p"]
      { program := some "p", trace := true, limit := .ofNat 9, image := some "m.png" } := by
  have limit : Number.ofNumeral "9" = .ofNat 9 := by decide +kernel
  have held : settled.Holds "VM_MAX_STEPS" "9" := by decide +kernel
  have picture : settled.Holds "VM_DUMP_PNG" "m.png" := by decide +kernel
  have noLimit : lastAfter? "--max-steps=" ["p"] = none := by decide +kernel
  have noImage : lastAfter? "--dump-png=" ["p"] = none := by decide +kernel
  constructor
  case program => decide
  case trace => exact iff_of_true rfl (.inr (.inr (by decide +kernel)))
  case limit => rw [noLimit]; exact nofun
  case limitElse =>
    intro _
    rw [← limit]
    exact .digits held ((isNumeral_iff "9").mp (by decide)).2
  case image => rw [noImage]; exact nofun
  case imageElse =>
    intro _ path
    constructor
    · rintro ⟨⟩
      exact picture
    · intro again
      exact picture.1.symm.trans again.1

/-- Without flags the variables take effect. An empty name of a program is one, and a limit that is
given wins over the variable on either side of it. -/
theorem nameless_declared :
    parse settled ["p"] =
        .ok { program := some "p", trace := true, limit := .ofNat 9, image := some "m.png" } ∧
      parse (.ofList [("VM_MAX_STEPS", "9")]) ["--max-steps=5x", ""] =
        .ok { program := some "", trace := false, limit := .ofNat 5, image := none } ∧
      parse .empty ["", "--max-steps=5x"] =
        .ok { program := some "", trace := false, limit := .ofNat 5, image := none } ∧
      ¬ Acceptable ["", "b", "--bogus"] := by
  obtain ⟨-, meant, -⟩ := parse_declared settled ["p"]
  obtain ⟨-, -, -, reordered, elsewhere⟩ := parse_declared .empty ["--max-steps=5x", ""]
  obtain ⟨accepted, -⟩ := parse_declared .empty ["", "b", "--bogus"]
  have parsed : parse .empty ["--max-steps=5x", ""] =
      .ok { program := some "", trace := false, limit := .ofNat 5, image := none } := by
    decide +kernel
  refine ⟨(meant _).mpr ⟨acceptable_named, means_settled⟩, ?_, ?_, ?_⟩
  · have given : ∃ argument ∈ ["--max-steps=5x", ""], Begins "--max-steps=" argument :=
      ⟨_, List.mem_cons_self, "5x", rfl⟩
    have agree : AgreeFor ["--max-steps=5x", ""] .empty (.ofList [("VM_MAX_STEPS", "9")]) :=
      ⟨.inr (Environment.agreeOn_of_lookup (by decide +kernel)), .inl given,
        .inr (Environment.agreeOn_of_lookup (by decide +kernel))⟩
    exact (elsewhere _ agree).trans parsed
  · refine (reordered _ ?_ _).mpr parsed
    rintro (_ | _ | _ | _ | _) <;> decide +kernel
  · intro acceptable
    obtain ⟨options, accepted⟩ := accepted.mpr acceptable
    have refused : ∃ fault, parse .empty ["", "b", "--bogus"] = .error fault := ⟨_, rfl⟩
    obtain ⟨fault, refused⟩ := refused
    cases accepted.symm.trans refused

end Options

end EightBit
