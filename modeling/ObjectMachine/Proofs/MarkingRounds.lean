import ObjectMachine.Memory.Collect
import ObjectMachine.Proofs.Headers
import ObjectMachine.Proofs.Outcomes

/-!
# Rounds of marking

Marking takes an address off its stack in each round, and comes to an end whatever bytes the arena
holds. In a damaged memory blocks may overlap, so that the mark of one is a bit of another's payload
or header, and what is read later depends on what was marked before. But wherever a header is read,
its mark is the top bit of one byte. A round sets that bit, where it was clear, before it puts
addresses on the stack, and no round clears it. So there are no more rounds than addresses to start
with and, for each byte whose top bit is clear, as many more as a block can put on the stack.
-/

namespace ObjectMachine

def TypeDescriptor.fieldCount : TypeDescriptor → Nat
  | .ofClass c => c.fields.length
  | _ => 0

namespace Memory

variable {program : Program} {memory : Memory} {addr other : Addr} {header : Header}
  {rest work work' : List Addr} {count : Nat}

/-!
## Marks
-/

/-- The header that is read at an address has a mark, whatever else it says. -/
def Marked (memory : Memory) (addr : Addr) : Prop :=
  ∃ header, memory.readHeader addr = .ok header ∧ header.marked = true

theorem readHeader_of_header (read : memory.header addr = .ok header) :
    memory.readHeader addr = .ok header := by
  rcases Except.bind_eq_ok_iff.mp read with ⟨found, first, checked⟩
  split at checked
  · cases checked
  · cases checked
    exact first

theorem marked_iff_of_header (read : memory.header addr = .ok header) :
    memory.Marked addr ↔ header.marked = true := by
  have first := readHeader_of_header read
  constructor
  · intro marked
    rcases marked with ⟨found, second, marked⟩
    rw [first] at second
    cases second
    exact marked
  · intro marked
    exact ⟨header, first, marked⟩

/-- A mark is the top bit of a byte, whatever else the byte is part of. -/
theorem marked_iff : memory.Marked addr ↔ addr.pos + headerSize ≤ memory.arena.size ∧
    ∃ b, memory.arena.byte? (addr.pos + 4) = some b ∧ ¬ b < 128 := by
  have whole := memory.arena.header?_isSome_iff addr.pos
  constructor
  · intro marked
    rcases marked with ⟨header, read, marked⟩
    have found := readHeader_eq_ok_iff.mp read
    rcases Arena.marked_iff_of_header? found with ⟨b, first, top⟩
    exact ⟨whole.mp (Option.isSome_of_eq_some found), b, first, top.mp marked⟩
  · intro given
    rcases given with ⟨inside, b, first, high⟩
    rcases Option.isSome_iff_exists.mp (whole.mpr inside) with ⟨header, found⟩
    rcases Arena.marked_iff_of_header? found with ⟨b', first', top⟩
    rw [first] at first'
    cases first'
    exact ⟨header, readHeader_eq_ok_iff.mpr found, top.mpr high⟩

@[simp] theorem capacity_setMark (memory : Memory) (addr : Addr) :
    (memory.setMark addr).capacity = memory.capacity :=
  Arena.size_setTop _ _

theorem marked_setMark (read : memory.header addr = .ok header) :
    (memory.setMark addr).Marked addr := by
  have found := readHeader_eq_ok_iff.mp (readHeader_of_header read)
  exact ⟨_, readHeader_eq_ok_iff.mpr (Arena.header?_setTop found), rfl⟩

/-- A mark that is set leaves all others set, also where headers overlap. -/
theorem Marked.setMark (marked : memory.Marked other) (addr : Addr) :
    (memory.setMark addr).Marked other := by
  rw [marked_iff] at marked ⊢
  rcases marked with ⟨inside, b, found, high⟩
  refine ⟨Nat.le_trans inside (Nat.le_of_eq (Arena.size_setTop _ _).symm), b, ?_, high⟩
  by_cases same : addr.pos + 4 = other.pos + 4
  · rw [← same] at found ⊢
    show (memory.arena.setTop (addr.pos + 4)).byte? (addr.pos + 4) = some b
    rw [Arena.byte?_setTop found, if_neg high]
  · have agree : (memory.setMark addr).arena.AgreeOn memory.arena (other.pos + 4)
        (other.pos + 5) := Arena.agreeOn_setTop _ (by omega)
    rw [agree _ (Nat.le_refl _) (Nat.lt_succ_self _), found]

/-!
## What is put on the stack
-/

theorem push_eq_append (addr : Addr) (work : List Addr) :
    ∃ child, (if addr.isNull then work else addr :: work) = child ++ work ∧ child.length ≤ 1 := by
  cases addr.isNull with
  | true => exact ⟨[], rfl, Nat.zero_le 1⟩
  | false => exact ⟨[addr], rfl, Nat.le_refl 1⟩

theorem pushElements_cases {arena : Arena} {pos : Nat}
    (pushed : pushElements arena pos count work = .ok work') :
    ∃ children, work' = children ++ work ∧ children.length ≤ count ∧
      count * Kind.ref.width ≤ arena.size - pos := by
  have width : Kind.ref.width = 4 := rfl
  induction count generalizing pos work with
  | zero =>
      cases pushed
      exact ⟨[], rfl, Nat.zero_le 0, by omega⟩
  | succ count ih =>
      rw [pushElements] at pushed
      split at pushed
      · cases pushed
      · next word found =>
          have inside := (arena.word?_isSome_iff pos).mp (Option.isSome_of_eq_some found)
          rcases push_eq_append ⟨word⟩ work with ⟨child, one, short⟩
          rcases ih pushed with ⟨children, rfl, few, room⟩
          rw [width] at room ⊢
          rw [one, ← List.append_assoc]
          refine ⟨children ++ child, rfl, ?_, by omega⟩
          rw [List.length_append]
          omega

theorem pushFields_cases {arena : Arena} {payload : Nat} {fields : List FieldSlot}
    (pushed : pushFields arena payload fields work = .ok work') :
    ∃ children, work' = children ++ work ∧ children.length ≤ fields.length := by
  induction fields generalizing work with
  | nil =>
      cases pushed
      exact ⟨[], rfl, Nat.le_refl 0⟩
  | cons slot later ih =>
      rw [pushFields] at pushed
      split at pushed
      · split at pushed
        · cases pushed
        · next word found =>
            rcases push_eq_append ⟨word⟩ work with ⟨child, one, short⟩
            rcases ih pushed with ⟨children, rfl, few⟩
            rw [one, ← List.append_assoc]
            refine ⟨children ++ child, rfl, ?_⟩
            rw [List.length_append, List.length_cons]
            omega
      · rcases ih pushed with ⟨children, same, few⟩
        exact ⟨children, same, Nat.le_succ_of_le few⟩

/-- As many addresses as a block can put on the stack: one for each field of its class, or one for
each word of the arena. -/
def linkLimit (program : Program) (capacity : Nat) : Nat :=
  max (capacity / Kind.ref.width)
    ((program.types.toList.map TypeDescriptor.fieldCount).max?.getD 0)

theorem pushChildren_cases {type : TypeRef}
    (pushed : pushChildren program memory addr type work = .ok work') :
    ∃ children, work' = children ++ work ∧
      children.length ≤ linkLimit program memory.capacity := by
  unfold pushChildren at pushed
  split at pushed
  · next c found =>
      rcases pushFields_cases pushed with ⟨children, same, few⟩
      have mem : TypeDescriptor.ofClass c ∈ program.types.toList :=
        Array.mem_toList_iff.mpr (Array.mem_of_getElem? found)
      have limit : c.fields.length ≤
          (program.types.toList.map TypeDescriptor.fieldCount).max?.getD 0 :=
        List.le_max?_getD_of_mem (List.mem_map_of_mem mem)
      exact ⟨children, same, Nat.le_trans few (Nat.le_trans limit (Nat.le_max_right _ _))⟩
  · next a found =>
      split at pushed
      · rcases Except.bind_eq_ok_iff.mp pushed with ⟨length, _, pushed⟩
        rcases pushElements_cases pushed with ⟨children, same, few, room⟩
        have words : length ≤ memory.capacity / Kind.ref.width :=
          (Nat.le_div_iff_mul_le (by decide)).mpr (Nat.le_trans room (Nat.sub_le _ _))
        exact ⟨children, same, Nat.le_trans few (Nat.le_trans words (Nat.le_max_left _ _))⟩
      · cases pushed
        exact ⟨[], rfl, Nat.zero_le _⟩
  · cases pushed

/-!
## One round
-/

/-- One round of marking, for an address that was taken off the stack. It ends with the stack that
is left to do and with the number of marks that were set. -/
def markRound (program : Program) (addr : Addr) (rest : List Addr) : Op (List Addr × Nat) :=
  fun memory =>
    match memory.header addr with
    | .error e => .error e memory
    | .ok header =>
        if header.marked then
          .ok (rest, 0) memory
        else
          let memory := memory.setMark addr
          match pushChildren program memory addr header.type rest with
          | .error e => .error e memory
          | .ok work => .ok (work, 1) memory

/-- What a round can come to. Either nothing changes and nothing is put on the stack, or a mark is
set that was not set. -/
inductive Round (program : Program) (addr : Addr) (rest : List Addr) (memory : Memory) :
    EStateM.Result Error Memory (List Addr × Nat) → Prop where
  | lost {e : Error} : memory.header addr = .error e →
      Round program addr rest memory (.error e memory)
  | met {header : Header} : memory.header addr = .ok header → header.marked = true →
      Round program addr rest memory (.ok (rest, 0) memory)
  | stuck {header : Header} {e : Error} : memory.header addr = .ok header →
      ¬ header.marked = true → Round program addr rest memory (.error e (memory.setMark addr))
  | visited {header : Header} {children : List Addr} : memory.header addr = .ok header →
      ¬ header.marked = true → children.length ≤ linkLimit program memory.capacity →
      Round program addr rest memory (.ok (children ++ rest, 1) (memory.setMark addr))

theorem round_markRound (program : Program) (addr : Addr) (rest : List Addr) (memory : Memory) :
    Round program addr rest memory (markRound program addr rest memory) := by
  unfold markRound
  split
  · next e failed => exact .lost failed
  · next header read =>
      split
      · next marked => exact .met read marked
      · next unmarked =>
          simp only
          split
          · exact .stuck read unmarked
          · next work pushed =>
              rcases pushChildren_cases pushed with ⟨children, rfl, few⟩
              rw [capacity_setMark] at few
              exact .visited read unmarked few

namespace Round

variable {after : Memory} {marks : Nat} {e : Error}
  {outcome : EStateM.Result Error Memory (List Addr × Nat)}

theorem keeps (round : Round program addr rest memory outcome) (marked : memory.Marked other) :
    (lastState outcome).Marked other := by
  cases round with
  | lost _ => exact marked
  | met _ _ => exact marked
  | stuck _ _ => exact marked.setMark addr
  | visited _ _ _ => exact marked.setMark addr

/-- A round that puts addresses on the stack sets a mark that was not set. -/
theorem pushes (round : Round program addr rest memory (.ok (work, marks) after)) :
    ∃ children, work = children ++ rest ∧
      (children = [] ∧ marks = 0 ∧ after = memory ∨
        marks = 1 ∧ ¬ memory.Marked addr ∧ after.Marked addr) := by
  cases round with
  | met _ _ => exact ⟨[], rfl, Or.inl ⟨rfl, rfl, rfl⟩⟩
  | visited read unmarked _ =>
      refine ⟨_, rfl, Or.inr ⟨rfl, ?_, marked_setMark read⟩⟩
      rwa [marked_iff_of_header read]

/-- A round fails before it changes anything, or when it has set a mark that was not set. -/
theorem fails (round : Round program addr rest memory (.error e after)) :
    memory.header addr = .error e ∧ after = memory ∨
      ¬ memory.Marked addr ∧ after.Marked addr := by
  cases round with
  | lost failed => exact Or.inl ⟨failed, rfl⟩
  | stuck read unmarked =>
      refine Or.inr ⟨?_, marked_setMark read⟩
      rwa [marked_iff_of_header read]

/-- The marks that a round has set are the top bits that it has used up. -/
theorem counts (round : Round program addr rest memory (.ok (work, marks) after)) :
    marks + after.arena.clearTops = memory.arena.clearTops := by
  cases round with
  | met _ _ => exact Nat.zero_add _
  | visited read unmarked _ =>
      rw [Nat.add_comm]
      exact clearTops_setMark read unmarked

end Round

/-!
## All rounds
-/

/-- The rounds of marking up to its end, by their number. Marking ends when nothing is left on the
stack, or with a round that fails. -/
inductive Rounds (program : Program) :
    Nat → List Addr → Nat → Memory → EStateM.Result Error Memory Nat → Prop where
  | done (count : Nat) (memory : Memory) : Rounds program 0 [] count memory (.ok count memory)
  | fails {addr : Addr} {rest : List Addr} {count : Nat} {memory after : Memory} {e : Error} :
      markRound program addr rest memory = .error e after →
      Rounds program 1 (addr :: rest) count memory (.error e after)
  | goesOn {n count marks : Nat} {addr : Addr} {rest work : List Addr} {memory after : Memory}
      {outcome : EStateM.Result Error Memory Nat} :
      markRound program addr rest memory = .ok (work, marks) after →
      Rounds program n work (count + marks) after outcome →
      Rounds program (n + 1) (addr :: rest) count memory outcome

namespace Rounds

variable {n n' : Nat} {outcome outcome' : EStateM.Result Error Memory Nat}

theorem unique (rounds : Rounds program n work count memory outcome)
    (rounds' : Rounds program n' work count memory outcome') : n' = n ∧ outcome' = outcome := by
  induction rounds generalizing n' with
  | done count memory =>
      cases rounds'
      exact ⟨rfl, rfl⟩
  | fails ended =>
      cases rounds' with
      | fails ended' =>
          rw [ended] at ended'
          cases ended'
          exact ⟨rfl, rfl⟩
      | goesOn ended' _ =>
          rw [ended] at ended'
          cases ended'
  | goesOn ended _ ih =>
      cases rounds' with
      | fails ended' =>
          rw [ended] at ended'
          cases ended'
      | goesOn ended' later =>
          rw [ended] at ended'
          cases ended'
          rcases ih later with ⟨rfl, rfl⟩
          exact ⟨rfl, rfl⟩

theorem keeps (rounds : Rounds program n work count memory outcome)
    (marked : memory.Marked other) : (lastState outcome).Marked other := by
  induction rounds with
  | done count memory => exact marked
  | @fails addr rest _ memory _ _ ended =>
      have kept := (round_markRound program addr rest memory).keeps marked
      rwa [ended] at kept
  | @goesOn _ _ _ addr rest _ memory _ _ ended _ ih =>
      have kept := (round_markRound program addr rest memory).keeps marked
      rw [ended] at kept
      exact ih kept

theorem counts {total : Nat} {last : Memory}
    (rounds : Rounds program n work count memory (.ok total last)) :
    total + last.arena.clearTops = count + memory.arena.clearTops := by
  generalize ends : EStateM.Result.ok total last = outcome at rounds
  induction rounds with
  | done count memory =>
      cases ends
      rfl
  | fails ended => cases ends
  | @goesOn _ _ _ addr rest _ memory _ _ ended _ ih =>
      have round := round_markRound program addr rest memory
      rw [ended] at round
      rw [ih ends, Nat.add_assoc, round.counts]

end Rounds

theorem markFrom_cons :
    markFrom program (addr :: rest) count memory =
      match markRound program addr rest memory with
      | .error e after => .error e after
      | .ok (work, marks) after => markFrom program work (count + marks) after := by
  rw [markFrom]
  split
  · next e failed => simp only [markRound, failed]
  · next header read =>
      by_cases marked : header.marked = true
      · simp only [markRound, read, marked, if_true, dif_pos, Nat.add_zero]
      · simp only [markRound, read, marked]
        cases pushChildren program (memory.setMark addr) addr header.type rest with
        | error e => rfl
        | ok work => rfl

/-- The rounds that are left to do, at most: one for each address on the stack, and one for each
address that can be put there while there are clear top bits. -/
def roundsLeft (program : Program) (work : List Addr) (memory : Memory) : Nat :=
  work.length + memory.arena.clearTops * linkLimit program memory.capacity

theorem Round.roundsLeft_lt {after : Memory} {marks : Nat}
    (round : Round program addr rest memory (.ok (work, marks) after)) :
    roundsLeft program work after < roundsLeft program (addr :: rest) memory := by
  have counts := round.counts
  cases round with
  | met _ _ => exact Nat.add_lt_add_right (Nat.lt_succ_self _) _
  | visited _ _ few =>
      -- The clear bit that is used up pays for everything that is put on the stack.
      rw [roundsLeft, roundsLeft, capacity_setMark, List.length_append, List.length_cons, ← counts,
        Nat.add_mul, Nat.one_mul]
      omega

theorem exists_rounds (program : Program) (work : List Addr) (count : Nat) (memory : Memory) :
    ∃ n ≤ roundsLeft program work memory,
      Rounds program n work count memory (markFrom program work count memory) := by
  induction left : roundsLeft program work memory using Nat.strongRecOn
    generalizing work count memory with
  | ind _ ih =>
      subst left
      cases work with
      | nil =>
          rw [markFrom]
          exact ⟨0, Nat.zero_le _, .done count memory⟩
      | cons addr rest =>
          have round := round_markRound program addr rest memory
          rw [markFrom_cons]
          cases ended : markRound program addr rest memory with
          | error e after =>
              exact ⟨1, Nat.le_add_right_of_le (Nat.succ_le_succ (Nat.zero_le _)), .fails ended⟩
          | ok result after =>
              rw [ended] at round
              have less := round.roundsLeft_lt
              rcases ih _ less result.1 (count + result.2) after rfl with ⟨n, few, rounds⟩
              exact ⟨n + 1, Nat.succ_le_of_lt (Nat.lt_of_le_of_lt few less), .goesOn ended rounds⟩

/-- Marking comes to an end on a memory, whatever its bytes are and whatever the roots. -/
structure MarkingEnds (program : Program) (roots : List Addr) (memory : Memory) : Prop where
  /-- There is one way for the rounds to go, and it ends with what marking returns. It takes no more
  rounds than there are roots and, for each clear top bit, as many as a block can put on the
  stack. -/
  ends : ∃ n ≤ roots.length + memory.arena.clearTops * linkLimit program memory.capacity,
    ∀ rounds outcome,
      Rounds program rounds (roots.filter fun addr => !addr.isNull).reverse 0 memory outcome ↔
        rounds = n ∧ outcome = mark program roots memory
  /-- A round that puts addresses on the stack sets a mark that was not set. -/
  pushes : ∀ addr rest current work marks after,
    markRound program addr rest current = .ok (work, marks) after →
    ∃ children, work = children ++ rest ∧
      (children = [] ∧ marks = 0 ∧ after = current ∨
        marks = 1 ∧ ¬ current.Marked addr ∧ after.Marked addr)
  /-- A round fails before it changes anything, or when it has set a mark that was not set. -/
  fails : ∀ addr rest current e after, markRound program addr rest current = .error e after →
    current.header addr = .error e ∧ after = current ∨
      ¬ current.Marked addr ∧ after.Marked addr
  /-- No round takes a mark off, wherever headers are read. -/
  keeps : ∀ addr rest current other, Marked current other →
    (lastState (markRound program addr rest current)).Marked other
  /-- Nor do all rounds together. -/
  kept : ∀ addr, memory.Marked addr → (lastState (mark program roots memory)).Marked addr
  /-- A count that is returned is that of the top bits that were set. -/
  counted : ∀ count after, mark program roots memory = .ok count after →
    count + after.arena.clearTops = memory.arena.clearTops

/-- Marking comes to an end on every memory, and only sets marks. -/
theorem mark_ends (program : Program) (roots : List Addr) (memory : Memory) :
    MarkingEnds program roots memory := by
  rcases exists_rounds program (roots.filter fun addr => !addr.isNull).reverse 0 memory with
    ⟨n, few, rounds⟩
  have proper : (roots.filter fun addr => !addr.isNull).reverse.length ≤ roots.length := by
    rw [List.length_reverse]
    exact List.length_filter_le _ _
  refine ⟨⟨n, Nat.le_trans few (Nat.add_le_add_right proper _), ?_⟩, ?_, ?_, ?_, ?_, ?_⟩
  · intro n' outcome
    constructor
    · exact rounds.unique
    · intro same
      rw [same.1, same.2]
      exact rounds
  · intro addr rest current work marks after ended
    have round := round_markRound program addr rest current
    rw [ended] at round
    exact round.pushes
  · intro addr rest current e after ended
    have round := round_markRound program addr rest current
    rw [ended] at round
    exact round.fails
  · intro addr rest current other marked
    exact (round_markRound program addr rest current).keeps marked
  · intro addr marked
    exact rounds.keeps marked
  · intro count after ended
    have counts : Rounds program n _ 0 memory (mark program roots memory) := rounds
    rw [ended] at counts
    rw [counts.counts, Nat.zero_add]

/-- A program in which every type is a class with a reference as its only field. -/
def cellProgram : Program where
  types := Array.replicate 9 (.ofClass
    { name := "Cell", base := none, ownFields := [⟨8⟩], methods := []
      fields := [⟨⟨8⟩, .ref, 0⟩], size := 4, vtable := [] })
  methods := #[]
  entry := ⟨0⟩
  strings := .empty

/-- Four words in which there is a block at 0, with the address 8 in its field, and another at 4
that starts with the tag of the first. -/
def overlappingCells : Memory where
  arena := ⟨#[0, 0, 0, 16, 0, 0, 0, 8, 0, 0, 0, 8, 255, 255, 255, 255]⟩
  freeList := .empty
  stats := ⟨0, 0, 0, .none⟩

/-- If the block at 4 is marked first, its mark becomes part of the address in the other block. If
the block at 0 is marked first, the address is read as it was. -/
theorem mark_ends_overlappingCells :
    (∃ after, mark cellProgram [⟨0⟩, ⟨4⟩] overlappingCells =
      .error (.corruption (.outsideHeap ⟨0x80000008⟩)) after) ∧
    ∃ after, mark cellProgram [⟨4⟩, ⟨0⟩] overlappingCells =
      .error (.corruption (.notLive ⟨8⟩ 8 true)) after := by
  rcases (mark_ends cellProgram [⟨0⟩, ⟨4⟩] overlappingCells).ends with ⟨n, _, only⟩
  rcases (mark_ends cellProgram [⟨4⟩, ⟨0⟩] overlappingCells).ends with ⟨n', _, only'⟩
  have three := (only 3 _).mp (.goesOn rfl (.goesOn rfl (.fails rfl)))
  have two := (only' 2 _).mp (.goesOn rfl (.fails rfl))
  exact ⟨⟨_, three.2.symm⟩, _, two.2.symm⟩

end Memory
end ObjectMachine
