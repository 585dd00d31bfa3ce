/-
What was written to a file can be read from it. Writing sets one entry of the store, at a place that
was no directory, to a file. So every directory on the way to that place is still a directory, the
path that was followed for writing leads there again, and the content is what was written.
-/

import EightBit.Files.Store

namespace EightBit.Files.Store

variable {store after : Store} {place : List String} {path : String} {content : Content}

/-! ### Setting an entry -/

theorem lookup_map_replaced (entries : List (String × Entry)) (key : String) (entry : Entry)
    (other : String) :
    (entries.map fun (name, old) => (name, if name = key then entry else old)).lookup other =
      (entries.lookup other).map fun old => if other = key then entry else old := by
  induction entries with
  | nil => rfl
  | cons head rest inductionHypothesis =>
    obtain ⟨name, old⟩ := head
    rw [List.map_cons, List.lookup_cons, List.lookup_cons]
    by_cases same : other = name
    · subst same
      rw [beq_self_eq_true]
      rfl
    · rw [beq_eq_false_iff_ne.mpr same]
      exact inductionHypothesis

/-- An entry is found where it was set, and all others are as they were. -/
theorem lookup_set (store : Store) (place : List String) (entry : Entry) (key : String) :
    (store.set place entry).entries.lookup key =
      if key = Path.join place then some entry else store.entries.lookup key := by
  unfold set
  by_cases known : (store.entries.lookup (Path.join place)).isSome
  · simp only [if_pos known]
    rw [lookup_map_replaced]
    by_cases same : key = Path.join place
    · subst same
      obtain ⟨old, found⟩ := Option.isSome_iff_exists.mp known
      rw [found, if_pos rfl, Option.map_some, if_pos rfl]
    · simp only [if_neg same, Option.map_id']
  · simp only [if_neg known]
    rw [List.lookup_append, List.lookup_cons, List.lookup_nil]
    by_cases same : key = Path.join place
    · subst same
      rw [Option.not_isSome_iff_eq_none.mp known, if_pos rfl, beq_self_eq_true]
      rfl
    · rw [beq_eq_false_iff_ne.mpr same, if_neg same]
      exact Option.or_none

theorem find?_set (store : Store) (place : List String) (entry : Entry) (other : List String) :
    (store.set place entry).find? other =
      if Path.isAbove other then some .directory
      else if Path.join other = Path.join place then some entry else store.find? other := by
  unfold find?
  rw [lookup_set]
  split <;> rfl

theorem isSome_find?_set (place : List String) (entry : Entry) {other : List String}
    (found : (store.find? other).isSome = true) :
    ((store.set place entry).find? other).isSome = true := by
  rw [find?_set]
  split
  · rfl
  · split
    · rfl
    · exact found

section

variable (vacant : store.isDirectory place = false)

include vacant

theorem not_isAbove_of_not_isDirectory : Path.isAbove place = false := by
  refine Bool.eq_false_iff.mpr fun above => ?_
  unfold isDirectory find? at vacant
  rw [if_pos above] at vacant
  cases vacant

theorem find?_set_self (content : Content) :
    (store.set place (.file content)).find? place = some (.file content) := by
  have below := not_isAbove_of_not_isDirectory vacant
  rw [find?_set, if_neg (by rw [below]; exact Bool.false_ne_true), if_pos rfl]

/-- A file set where there was no directory leaves the directories what they were. -/
theorem isDirectory_set (content : Content) (other : List String) :
    (store.set place (.file content)).isDirectory other = store.isDirectory other := by
  have below := not_isAbove_of_not_isDirectory vacant
  unfold isDirectory at *
  rw [find?_set]
  by_cases above : Path.isAbove other = true
  · rw [if_pos above, find?, if_pos above]
  · rw [if_neg above]
    by_cases same : Path.join other = Path.join place
    · -- the two places have one entry, which was no directory
      have entry : store.find? other = store.find? place := by
        unfold find?
        rw [if_neg above, if_neg (by rw [below]; exact Bool.false_ne_true), same]
      rw [if_pos same, entry, vacant]
      rfl
    · rw [if_neg same]

theorem enter_set (content : Content) (other : List String) (part : String) :
    (store.set place (.file content)).enter other part = store.enter other part := by
  unfold enter
  rw [isDirectory_set vacant]

/-- What could be followed before can be followed still, and leads to the same place. -/
theorem follow_set (content : Content) {first last : List String} {parts : List String}
    (led : store.follow first parts = .ok last) :
    (store.set place (.file content)).follow first parts = .ok last := by
  induction parts generalizing first with
  | nil => exact led
  | cons part rest inductionHypothesis =>
    rw [follow] at led ⊢
    rw [enter_set vacant]
    cases entered : store.enter first part with
    | error cause =>
      rw [entered] at led
      cases led
    | ok next =>
      rw [entered] at led
      simp only at led ⊢
      by_cases known : (store.find? next).isSome = true
      · rw [if_pos known] at led
        rw [if_pos (isSome_find?_set place (.file content) known)]
        exact inductionHypothesis led
      · rw [if_neg known] at led
        cases led

end

/-! ### Reading what was written -/

theorem follow_append (store : Store) (first : List String) (parts more : List String) :
    store.follow first (parts ++ more) =
      (store.follow first parts).bind fun next => store.follow next more := by
  induction parts generalizing first with
  | nil => rfl
  | cons part rest inductionHypothesis =>
    rw [List.cons_append, follow, follow]
    cases store.enter first part with
    | error cause => rfl
    | ok next =>
      simp only
      by_cases known : (store.find? next).isSome = true
      · rw [if_pos known, if_pos known]
        exact inductionHypothesis next
      · rw [if_neg known, if_neg known]
        rfl

/-- How a path was found to be writable: all parts but the last lead to a directory, and the last
names no directory in it. -/
structure Writable (store : Store) (path : String) (place : List String) : Prop where
  file : Path.endsInSlash path = false
  vacant : store.isDirectory place = false
  way : ∃ front parent name, followable path = .ok (front ++ [name]) ∧
    store.follow (Path.start path) front = .ok parent ∧ store.enter parent name = .ok place

theorem writable_of_eq_ok (found : store.writable path = .ok place) :
    Writable store path place := by
  unfold writable at found
  cases parsed : followable path with
  | error cause =>
    rw [parsed] at found
    cases found
  | ok parts =>
    rw [parsed] at found
    simp only at found
    cases led : store.follow (Path.start path) parts.dropLast with
    | error cause =>
      rw [led] at found
      cases found
    | ok parent =>
      rw [led] at found
      cases last : parts.getLast? with
      | none =>
        rw [last] at found
        cases found
      | some name =>
        simp only [last] at found
        by_cases homeless : (!store.isDirectory parent) = true
        · rw [if_pos homeless] at found
          cases found
        · rw [if_neg homeless] at found
          by_cases slash : Path.endsInSlash path = true
          · rw [if_pos slash] at found
            cases found
          · rw [if_neg slash] at found
            cases entered : store.enter parent name with
            | error cause =>
              rw [entered] at found
              cases found
            | ok reached =>
              simp only [entered] at found
              by_cases occupied : store.isDirectory reached = true
              · rw [if_pos occupied] at found
                cases found
              · rw [if_neg occupied] at found
                cases found
                obtain ⟨front, rfl⟩ := List.getLast?_eq_some_iff.mp last
                rw [List.dropLast_concat] at led
                exact ⟨Bool.eq_false_iff.mpr slash, Bool.eq_false_iff.mpr occupied, front, parent,
                  name, parsed, led, entered⟩

/-- What is done once it is known where to write. -/
def afterFinding (path : String) (content : Content) :
    Except Cause (List String) → EStateM Error Store Unit
  | .error cause => throw (.failed cause .opening path)
  | .ok place => modify fun store => store.set place (.file content)

theorem write_apply (path : String) (content : Content) (store : Store) :
    write path content store =
      if Path.hasZeroCharacter path then .error (.zeroCharacter path) store
      else afterFinding path content (store.writable path) store := by
  unfold write
  by_cases zero : Path.hasZeroCharacter path = true
  · rw [if_pos zero, if_pos zero]
    rfl
  · rw [if_neg zero, if_neg zero]
    unfold afterFinding
    rfl

/-- A file that was written is the entry at the place the path leads to. -/
theorem exists_set_of_write (written : write path content store = .ok () after) :
    Path.hasZeroCharacter path = false ∧
      ∃ place, Writable store path place ∧ after = store.set place (.file content) := by
  rw [write_apply] at written
  by_cases zero : Path.hasZeroCharacter path = true
  · rw [if_pos zero] at written
    cases written
  · rw [if_neg zero] at written
    refine ⟨Bool.eq_false_iff.mpr zero, ?_⟩
    cases found : store.writable path with
    | error cause =>
      rw [found] at written
      cases written
    | ok place =>
      rw [found] at written
      cases written
      exact ⟨place, writable_of_eq_ok found, rfl⟩

theorem read_of_write (written : write path content store = .ok () after) :
    after.read path = .ok content := by
  obtain ⟨named, place, writable, rfl⟩ := exists_set_of_write written
  obtain ⟨front, parent, name, parsed, led, entered⟩ := writable.way
  have vacant := writable.vacant
  have here := find?_set_self vacant content
  have last : (store.set place (.file content)).follow parent [name] = .ok place := by
    rw [follow, enter_set vacant, entered]
    simp only
    rw [if_pos (by rw [here]; rfl)]
    rfl
  have located : (store.set place (.file content)).locate path = .ok place := by
    unfold locate
    rw [parsed]
    simp only
    rw [writable.file, if_neg Bool.false_ne_true, List.append_nil, follow_append,
      follow_set vacant content led]
    exact last
  unfold read
  rw [named, if_neg Bool.false_ne_true, located]
  simp only
  rw [here]

end EightBit.Files.Store
