/-
The listing of a program agrees with its execution. As long as a run goes straight on and writes
nothing, memory holds the program with zeros behind it, which is what the listing decodes, and each
step ends where the next line begins. The two decoders differ in what they do at the ends: the
listing takes zeros past the program and wraps past memory, the machine reads what is there and
fails past memory. A step that goes on has passed the checks of its operands, so it never meets that
difference; and past the program it finds a zero, which is no opcode.
-/

import EightBit.Proofs.Confinement
import EightBit.Proofs.FreshStart
import EightBit.Proofs.Listing
import EightBit.Proofs.Reachable
import EightBit.Proofs.Reports
import EightBit.Proofs.Runs

namespace EightBit

/-! ### Going straight on -/

namespace Opcode

/-- Whether an instruction sends execution elsewhere than behind itself. A conditional jump does so
when it is taken. -/
def transfers (storage : Storage) : Opcode → Bool
  | .call | .ret | .jmp => true
  | .jeq => storage.registers.flags &&& 1 ≠ 0
  | .jne => storage.registers.flags &&& 1 = 0
  | _ => false

theorem next_of_not_transfers {storage : Storage} {opcode : Opcode} (address : Nat)
    (straight : opcode.transfers storage = false) :
    opcode.next storage address = address + opcode.length := by
  cases opcode with
  | hlt | push | pop | prn | ldi | add | sub | mul | cmp => rfl
  | call | ret | jmp => cases straight
  | jeq | jne => exact if_neg (of_decide_eq_false straight)

theorem not_writes_of_straight {storage : Storage} {opcode : Opcode} (other : opcode ≠ .push)
    (straight : opcode.transfers storage = false) : opcode.writes = false := by
  cases opcode with
  | push => exact absurd rfl other
  | call => cases straight
  | hlt | ret | pop | prn | jmp | jeq | jne | ldi | add | sub | mul | cmp => rfl

end Opcode

/-! ### A program and the memory it was placed in -/

/-- Memory holds a program from address zero on, and zeros behind it. -/
def Memory.Shows (memory : Memory) (program : List UInt8) : Prop :=
  ∀ place, memory.cellOrZero place = program[place]?.getD 0

theorem Machine.shows_loaded {machine : Machine} {program : List UInt8}
    (fits : program.length ≤ machine.memory.size) :
    (machine.loaded program).memory.Shows program := by
  intro place
  have room : 0 + program.length ≤ machine.memory.clear.cells.size := by
    rw [Nat.zero_add]
    exact Nat.le_trans fits (Nat.le_of_eq (Memory.size_blank _).symm)
  show (Memory.overlay machine.memory.clear.cells 0 program)[place]?.getD 0 = _
  by_cases within : place < program.length
  · have byte := List.getElem?_eq_getElem within
    have cell := Memory.getElem?_overlay machine.memory.clear.cells byte room
    rw [Nat.zero_add] at cell
    rw [cell, byte]
  · rw [Memory.getElem?_overlay_of_ge _ (by omega), List.getElem?_eq_none (Nat.not_lt.mp within)]
    show (Array.replicate machine.memory.size 0)[place]?.getD 0 = 0
    rw [Array.getElem?_replicate]
    split <;> rfl

/-- Past the program there is no opcode, so what is fetched lies inside it. -/
theorem Memory.Shows.lt_length {memory : Memory} {program : List UInt8} {address : Nat}
    {opcode : Opcode} (shown : memory.Shows program)
    (decoded : Opcode.decode? (memory.cellOrZero address) = some opcode) :
    address < program.length := by
  refine Nat.lt_of_not_le fun past => ?_
  rw [shown address, List.getElem?_eq_none past] at decoded
  cases decoded

/-- One line of the listing, in terms of a machine whose memory shows the program. -/
theorem Listing.instructionsFrom_succ {machine : Machine} {program : List UInt8} {address : Nat}
    (turns : Nat) (shown : machine.memory.Shows program) (inside : address < program.length) :
    instructionsFrom program.toArray (turns + 1) address =
      (address, machine.decodeAt (.ofNat address)) ::
        instructionsFrom program.toArray turns
          (address + (machine.decodeAt (.ofNat address)).length) := by
  have cells : (fun place : UInt8 => program.toArray[place.toNat]?.getD 0) =
      fun place => machine.memory.cellOrZero place.toNat := by
    funext place
    rw [shown, List.getElem?_toArray]
  have within : address < program.toArray.size := inside
  obtain ⟨decoded, found, first⟩ := instructionsFrom_of_lt within turns
  rw [cells] at found
  obtain rfl : machine.decodeAt (.ofNat address) = decoded := found
  exact first

/-! ### One step -/

/-- Where a run stands that has gone straight on for a number of turns: memory still shows the
program, and what the listing has yet to show begins at the program counter. -/
structure FollowsListing (program : List UInt8) (turns : Nat) (machine : Machine) : Prop where
  running : machine.halted = false
  size : machine.memory.size = 256
  shown : machine.memory.Shows program
  rest : ∃ address spare, machine.pc = .ofNat address ∧ program.length ≤ address + spare ∧
    (Listing.instructions program).drop turns =
      Listing.instructionsFrom program.toArray spare address

/-- The listing shows, in the line behind so many others, what a machine is about to execute. -/
structure ListedAt (program : List UInt8) (turns : Nat) (machine : Machine) (address : Nat)
    (opcode : Opcode) (bytes : List UInt8) : Prop where
  fetched : machine.fetched = .ok (address, opcode)
  inside : address < program.length
  read : (List.range' address opcode.length).map (fun place => machine.memory.read (.ofNat place)) =
    bytes.map .ok
  entry : ((Listing.instructions program).map Prod.fst)[turns]? = some address
  line : (Listing.lines program)[turns]? = some (opcode.listed address bytes)

namespace FollowsListing

variable {program : List UInt8} {turns : Nat} {machine : Machine} {address : Nat} {opcode : Opcode}

theorem loaded (fits : program.length ≤ 256) (size : machine.memory.size = 256) :
    FollowsListing program 0 (machine.loaded program) where
  running := rfl
  size := (Memory.size_overlay _ _ _).trans ((Memory.size_blank _).trans size)
  shown := Machine.shows_loaded (size ▸ fits)
  rest := ⟨0, program.length, rfl, by omega, rfl⟩

/-- The rest of the listing begins with the instruction that is fetched, and goes on behind it. -/
theorem drop_eq (follows : FollowsListing program turns machine)
    (fetched : machine.fetched = .ok (address, opcode)) :
    ∃ spare, program.length ≤ address + opcode.length + spare ∧
      (Listing.instructions program).drop turns =
        (address, machine.decodeAt (.ofNat address)) ::
          Listing.instructionsFrom program.toArray spare (address + opcode.length) := by
  obtain ⟨pc, inside, decoded⟩ := (machine.fetched_eq_ok_iff address opcode).mp fetched
  obtain ⟨place, spare, counter, enough, rest⟩ := follows.rest
  have same : place = address := Number.ofNat_inj.mp (counter.symm.trans pc)
  subst same
  have within := follows.shown.lt_length decoded
  have found : (machine.decodeAt (.ofNat place)).opcode? = some opcode :=
    Machine.opcode?_decodeAt (Nat.lt_of_lt_of_eq inside follows.size) decoded
  cases spare with
  | zero => exact absurd enough (Nat.not_le.mpr within)
  | succ spare =>
    have positive : 0 < opcode.length := Nat.succ_pos _
    refine ⟨spare, by omega, ?_⟩
    rw [rest, Listing.instructionsFrom_succ spare follows.shown within,
      Decoded.length_of_opcode? found]

theorem listedAt (follows : FollowsListing program turns machine)
    (fetched : machine.fetched = .ok (address, opcode))
    (passed : firstFault (opcode.checks machine.toStorage address) = none) :
    ListedAt program turns machine address opcode (machine.decodeAt (.ofNat address)).bytes := by
  obtain ⟨-, inside, decoded⟩ := (machine.fetched_eq_ok_iff address opcode).mp fetched
  obtain ⟨spare, -, rest⟩ := follows.drop_eq fetched
  have size := follows.size
  have reach : address + opcode.length ≤ machine.memory.size := Opcode.end_le_size inside passed
  have found : (machine.decodeAt (.ofNat address)).opcode? = some opcode :=
    Machine.opcode?_decodeAt (by omega) decoded
  have entry : (Listing.instructions program)[turns]? =
      some (address, machine.decodeAt (.ofNat address)) := by
    rw [← List.head?_drop, rest, List.head?_cons]
  refine ⟨fetched, follows.shown.lt_length decoded, ?_, ?_, ?_⟩
  · rw [Machine.bytes_decodeAt found (by omega), List.map_map]
    refine List.map_congr_left fun place member => ?_
    have bound := (List.mem_range'_1.mp member).2
    rw [Memory.read_eq_checked, checked_cons, checked_nil, Memory.outside_fails,
      if_neg (by simpa using by omega)]
    rfl
  · rw [List.getElem?_map, entry]
    rfl
  · rw [Listing.lines, List.getElem?_map, entry]
    exact congrArg some (Decoded.line_of_opcode? address found)

/-- A step that goes straight on and writes nothing moves on by one line. -/
theorem step (follows : FollowsListing program turns machine)
    (fetched : machine.fetched = .ok (address, opcode)) (going : opcode.flow = .proceed)
    (other : opcode ≠ .push) (straight : opcode.transfers machine.toStorage = false) :
    FollowsListing program (turns + 1) (machine.completed address opcode) := by
  have memory : (machine.completed address opcode).memory = machine.memory :=
    Opcode.memory_effect_of_not_writes _ _ (Opcode.not_writes_of_straight other straight)
  obtain ⟨spare, enough, rest⟩ := follows.drop_eq fetched
  refine ⟨decide_eq_false fun halting => ?_, ?_, ?_, _, spare, ?_, enough, ?_⟩
  · rw [halting] at going
    cases going
  · rw [memory]
    exact follows.size
  · rw [memory]
    exact follows.shown
  · exact congrArg Number.ofNat (Opcode.next_of_not_transfers address straight)
  · rw [← List.tail_drop, rest, List.tail_cons]

end FollowsListing

/-! ### Runs -/

variable {Host : Type}

/-- In its first turns a run goes straight on and pushes nothing. -/
def GoesStraight (devices : Devices Host) (first : Session Host) (count : Nat) : Prop :=
  ∀ turns < count, ∀ session, stepsUntilEnd devices turns first = .underway session →
    ∀ address opcode, session.machine.fetched = .ok (address, opcode) →
      opcode ≠ .push ∧ opcode.transfers session.machine.toStorage = false

theorem followsListing_of_underway {devices : Devices Host} {first session : Session Host}
    {program : List UInt8} {turns : Nat}
    (initially : FollowsListing program 0 first.machine)
    (straight : GoesStraight devices first turns)
    (underway : stepsUntilEnd devices turns first = .underway session) :
    FollowsListing program turns session.machine := by
  induction turns generalizing session with
  | zero =>
    cases underway
    exact initially
  | succ turns inductionHypothesis =>
    obtain ⟨middle, before, taken⟩ := exists_step_of_underway underway
    have follows : FollowsListing program turns middle.machine :=
      inductionHypothesis (fun earlier less => straight earlier (Nat.lt_succ_of_lt less)) before
    obtain ⟨address, opcode, fetched, -, flow, machine⟩ :=
      completed_of_step_ok follows.running taken
    obtain ⟨other, ahead⟩ :=
      straight turns (Nat.lt_succ_self turns) middle before address opcode fetched
    rw [machine]
    exact follows.step fetched flow.symm other ahead

/-! ### What the observer is told -/

theorem scribes_print (value : Option UInt8) (notes : List Observation × List String) :
    ∃ last, scribes.print value notes = .ok () last ∧ last.1 = notes.1 := by
  cases value <;> exact ⟨_, rfl, rfl⟩

/-- Scribes write down one observation of a step that has fetched an instruction, whatever becomes
of the step. -/
theorem scribes_told {session : Session (List Observation × List String)} {address : Nat}
    {opcode : Opcode} (running : session.machine.halted = false)
    (fetched : session.machine.fetched = .ok (address, opcode)) :
    (stateLeft (step scribes session)).host.1 =
      session.host.1 ++ [Action.observation session.machine address
        (session.machine.memory.cellOrZero address)] := by
  have informed : scribes.inform session.machine address session.host = .ok ()
      (session.host.1 ++ [Action.observation session.machine address
        (session.machine.memory.cellOrZero address)], session.host.2) := rfl
  cases faulty : firstFault (opcode.checks session.machine.toStorage address) with
  | some fault => rw [step_unchecked running fetched informed faulty, stateLeft]
  | none =>
    obtain ⟨last, printed, kept⟩ := scribes_print
      (opcode.printed session.machine.toStorage address) _
    rw [step_completed running fetched informed faulty printed, stateLeft]
    exact kept

/-- An opcode and as many of the two cells behind it as it has operands are the bytes that decoding
shows. -/
theorem cons_take_operands {machine : Machine} {address : Nat} {opcode : Opcode}
    (found : (machine.decodeAt (.ofNat address)).opcode? = some opcode)
    (inside : address + opcode.length ≤ 256) :
    machine.memory.cellOrZero address ::
        [machine.memory.cellOrZero (address + 1), machine.memory.cellOrZero (address + 2)].take
          (opcode.length - 1) =
      (machine.decodeAt (.ofNat address)).bytes := by
  rw [Machine.bytes_decodeAt found inside]
  rcases opcode.length_cases with one | two | three
  · rw [one]
    rfl
  · rw [two]
    rfl
  · rw [three]
    rfl

/-- The listing agrees with execution. After a load, as long as a run goes straight on and pushes
nothing, its instructions are those of the lines of the listing, one after the other, with the bytes
that the machine has read and their text. And in every state, an instruction that does not reach
past address 255 is decoded as the machine fetches it, with the operands the observer is told. -/
theorem listing_follows_execution (Host : Type) :
    (∀ (program : List UInt8) (machine : Machine), program.length ≤ 256 →
      machine.memory.size = 256 →
        ∃ start, Machine.load program machine = .ok () start ∧
          ∀ (devices : Devices Host) (host : Host) (count : Nat) (last : Session Host),
            stepsUntilEnd devices count ⟨start, host⟩ = .underway last →
            GoesStraight devices ⟨start, host⟩ count →
            ∀ turns < count, ∃ session address opcode bytes,
              stepsUntilEnd devices turns ⟨start, host⟩ = .underway session ∧
                ListedAt program turns session.machine address opcode bytes) ∧
    ∀ (machine : Machine) (address : Nat) (opcode : Opcode),
      machine.fetched = .ok (address, opcode) → address + opcode.length ≤ 256 →
        let decoded := machine.decodeAt machine.pc
        decoded.mnemonic = opcode.mnemonic ∧ decoded.length = opcode.length ∧
          decoded.bytes = (List.range' address opcode.length).map machine.memory.cellOrZero ∧
          (address + opcode.length ≤ machine.memory.size →
            decoded.bytes = (machine.memory.toList.drop address).take opcode.length) ∧
          (machine.halted = false → ∀ notes, ∃ seen,
            (stateLeft (step scribes ⟨machine, notes⟩)).host.1 = notes.1 ++ [seen] ∧
              seen.pc = address ∧
              seen.opcode :: [seen.operands.1, seen.operands.2].take (opcode.length - 1) =
                decoded.bytes) := by
  refine ⟨fun program machine short size => ?_, fun machine address opcode fetched inside => ?_⟩
  · refine ⟨machine.loaded program, Machine.load_of_fits (size ▸ short) (by omega), ?_⟩
    intro devices host count last ended straight turns less
    obtain ⟨after, further⟩ := underway_of_le ended (Nat.succ_le_of_lt less)
    obtain ⟨session, underway, taken⟩ := exists_step_of_underway further
    have follows : FollowsListing program turns session.machine :=
      followsListing_of_underway (FollowsListing.loaded short size)
        (fun earlier before => straight earlier (Nat.lt_trans before less)) underway
    obtain ⟨address, opcode, fetched, passed, -⟩ := completed_of_step_ok follows.running taken
    exact ⟨session, address, opcode, _, underway, follows.listedAt fetched passed⟩
  · obtain ⟨pc, within, decoded⟩ := (machine.fetched_eq_ok_iff address opcode).mp fetched
    have positive : 0 < opcode.length := Nat.succ_pos _
    have found : (machine.decodeAt (.ofNat address)).opcode? = some opcode :=
      Machine.opcode?_decodeAt (by omega) decoded
    have bytes := Machine.bytes_decodeAt found inside
    rw [pc]
    refine ⟨Decoded.mnemonic_of_opcode? found, Decoded.length_of_opcode? found, bytes,
      fun fits => ?_, fun running notes => ⟨_, scribes_told running fetched, rfl, ?_⟩⟩
    · rw [bytes, Memory.map_cellOrZero_range _ _ _ fits]
    · exact cons_take_operands found inside

/-- A program whose last instruction, a comparison, is cut off by its end. -/
def cutShort : List UInt8 :=
  [0x82, 0, 7, 0x47, 0, 0xA7, 1]

/-- Its session after the load. -/
def cutShortStart : Session Unit where
  machine := (Machine.create (.blank 256)).loaded cutShort
  host := ()

theorem cutShort_goesStraight : GoesStraight silentDevices cutShortStart 3 := by
  have each : ∀ turns < 3,
      ((stepsUntilEnd silentDevices turns cutShortStart).session.machine.fetched.toOption.all
        fun found => found.2 ≠ .push ∧ found.2.transfers
          (stepsUntilEnd silentDevices turns cutShortStart).session.machine.toStorage = false) =
        true := by
    decide +kernel
  intro turns less session underway address opcode fetched
  have known := each turns less
  rw [underway] at known
  change (session.machine.fetched.toOption.all _) = true at known
  rw [fetched] at known
  exact of_decide_eq_true known

/-- The comparison is executed with the zero behind the program, and listed and observed with it. -/
theorem cutShort_listed :
    ∃ session bytes, stepsUntilEnd silentDevices 2 cutShortStart = .underway session ∧
      ListedAt cutShort 2 session.machine 5 .cmp bytes ∧
      Opcode.cmp.listed 5 bytes = "05: A7 01 00  CMP R1,R0" ∧
      (session.machine.decodeAt session.machine.pc).mnemonic = "CMP" ∧
      ∃ seen, (stateLeft (step scribes ⟨session.machine, [], []⟩)).host.1 = [seen] ∧ seen.pc = 5 ∧
        [seen.opcode, seen.operands.1, seen.operands.2] =
          (session.machine.decodeAt session.machine.pc).bytes := by
  obtain ⟨agrees, decodes⟩ := listing_follows_execution Unit
  obtain ⟨start, accepted, follows⟩ :=
    agrees cutShort (.create (.blank 256)) (by decide) (Memory.size_blank 256)
  have same : start = cutShortStart.machine := (Machine.eq_loaded_of_load accepted).2
  subst same
  obtain ⟨last, ended⟩ : ∃ last, stepsUntilEnd silentDevices 3 cutShortStart = .underway last := by
    have going : (stepsUntilEnd silentDevices 3 cutShortStart).isOver = false := by decide +kernel
    cases course : stepsUntilEnd silentDevices 3 cutShortStart with
    | underway last => exact ⟨last, rfl⟩
    | halted | failed =>
      rw [course] at going
      cases going
  obtain ⟨session, address, opcode, bytes, underway, listed⟩ :=
    follows silentDevices () 3 last ended cutShort_goesStraight 2 (by decide)
  have about : (stepsUntilEnd silentDevices 2 cutShortStart).session.machine.AboutTo .cmp 5 := by
    decide +kernel
  have course : stepsUntilEnd silentDevices 2 cutShortStart = .underway session := underway
  rw [course] at about
  have place : (address, opcode) = (5, .cmp) :=
    Except.ok.inj (listed.fetched.symm.trans about.fetched)
  cases place
  have line : (Listing.lines cutShort)[2]? = some "05: A7 01 00  CMP R1,R0" := by decide +kernel
  obtain ⟨mnemonic, -, -, -, observed⟩ := decodes session.machine 5 .cmp about.fetched (by decide)
  exact ⟨session, bytes, course, listed, Option.some.inj (listed.line.symm.trans line), mnemonic,
    observed about.running ([], [])⟩

end EightBit
