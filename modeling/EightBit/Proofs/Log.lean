/-
The ring of recent addresses and the log it is kept of. The log grows without end and the ring has
thirty-two slots; what the ring shows are the last entries of the log, however often the slots have
been used before. A step adds to the log the address of the instruction that it gets past the
observer, and counts it; a step that fails earlier, or is taken by a halted machine, adds nothing.
-/

import EightBit.Proofs.Frame
import EightBit.Proofs.Recents

namespace EightBit

variable {Host : Type}

/-! ### Rings and logs -/

namespace Recent

/-- The ring holds the last entries of a log, each in the slot of its place. -/
structure Holds (recent : Recent) (log : List Nat) : Prop where
  recorded : recent.recorded = log.length
  slots : ∀ place, place < log.length → log.length ≤ place + 32 →
    recent.slots[place % 32]? = log[place]?

theorem Holds.forget (recent : Recent) : recent.forget.Holds [] :=
  ⟨rfl, fun place none => absurd none (Nat.not_lt_zero place)⟩

/-- A new entry takes the slot of the one that falls out of reach. -/
theorem Holds.record {recent : Recent} {log : List Nat} (holds : recent.Holds log)
    (address : Nat) : (recent.record address).Holds (log ++ [address]) := by
  have length : (log ++ [address]).length = log.length + 1 := List.length_append
  refine ⟨(congrArg (· + 1) holds.recorded).trans length.symm, fun place inside near => ?_⟩
  rw [length] at inside near
  rw [getElem?_record, holds.recorded]
  by_cases newest : place = log.length
  · rw [newest, if_pos rfl, List.getElem?_concat_length]
  · have other : log.length % 32 ≠ place % 32 := by omega
    have before : place < log.length := by omega
    rw [if_neg other, List.getElem?_append_left before]
    exact holds.slots place before (by omega)

theorem Holds.lastEntries {recent : Recent} {log : List Nat} (holds : recent.Holds log)
    {count : Nat} (few : count ≤ 32) (within : count ≤ log.length) :
    recent.lastEntries count = log.drop (log.length - count) := by
  refine List.ext_getElem? fun index => ?_
  unfold Recent.lastEntries
  rw [holds.recorded, List.getElem?_map, List.getElem?_drop]
  by_cases inside : index < count
  · have place : log.length - count + index < log.length := by omega
    rw [List.getElem?_range' inside, Option.map_some, Nat.one_mul,
      holds.slots _ place (by omega), List.getElem?_eq_getElem place]
    rfl
  · rw [List.getElem?_eq_none (by rw [List.length_range']; omega),
      List.getElem?_eq_none (by omega)]
    rfl

/-- Asked for a number of entries, the ring shows the last ones of the log, as many as it can. -/
theorem Holds.last {recent : Recent} {log : List Nat} (holds : recent.Holds log) (count : Nat) :
    recent.last (.ofNat count) = log.drop (log.length - min count 32) := by
  rw [last_ofNat, holds.recorded, holds.lastEntries (by omega) (by omega)]
  congr 1
  omega

end Recent

/-! ### Steps -/

/-- The address that a step adds to the log: that of the instruction it gets past the observer. -/
def loggedBy (devices : Devices Host) (session : Session Host) : Option Nat :=
  if session.machine.halted then none
  else
    match session.machine.fetched with
    | .error _ => none
    | .ok (address, _) =>
      match devices.inform session.machine address session.host with
      | .error _ _ => none
      | .ok _ _ => some address

/-- A step records the address that it adds to the log, and counts it. -/
theorem recent_step (devices : Devices Host) (session : Session Host) :
    (stateLeft (step devices session)).machine.recent =
        (loggedBy devices session).elim session.machine.recent session.machine.recent.record ∧
      (stateLeft (step devices session)).machine.steps =
        session.machine.steps + (loggedBy devices session).toList.length := by
  have outcome := stepped devices session
  generalize step devices session = result at outcome
  unfold loggedBy
  cases outcome with
  | idle halted =>
    rw [if_pos halted]
    exact ⟨rfl, rfl⟩
  | unfetched running fetched =>
    simp only [running, fetched]
    exact ⟨rfl, rfl⟩
  | unobserved running fetched informed | unchecked running fetched informed
  | unprinted running fetched informed | completed running fetched informed =>
    simp only [running, fetched, informed]
    exact ⟨rfl, rfl⟩

theorem Recent.Holds.step {devices : Devices Host} {session : Session Host} {log : List Nat}
    (holds : session.machine.recent.Holds log) :
    (stateLeft (EightBit.step devices session)).machine.recent.Holds
      (log ++ (loggedBy devices session).toList) := by
  rw [(recent_step devices session).1]
  cases loggedBy devices session with
  | none =>
    rw [Option.toList_none, List.append_nil]
    exact holds
  | some address => exact holds.record address

end EightBit
