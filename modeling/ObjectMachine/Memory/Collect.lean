import ObjectMachine.Memory.Allocate

/-!
# Collection

A collection marks the blocks that are reached from the roots, sweeps the arena, turning blocks
without a mark into free ones and taking the mark off the others, and joins the free extents.

Marking works on a stack of addresses. It ends on every arena, damaged or not: an address is taken
off the stack in each round, and addresses are put on it only when a mark is set that was not set
before. No mark is taken off while marking, and a mark is the top bit of a byte, so there are no
more such rounds than bytes.
-/

namespace ObjectMachine
namespace Memory

/-!
## Marking
-/

/-- The addresses stored in consecutive words are put on a stack, null references left out. -/
def pushElements (arena : Arena) (pos : Nat) : Nat → List Addr → Except Error (List Addr)
  | 0, work => .ok work
  | count + 1, work =>
      match arena.word? pos with
      | none => .error (.corruption (.outsideArena pos Kind.ref.width))
      | some word =>
          let addr : Addr := ⟨word⟩
          pushElements arena (pos + Kind.ref.width) count
            (if addr.isNull then work else addr :: work)

def pushFields (arena : Arena) (payload : Nat) :
    List FieldSlot → List Addr → Except Error (List Addr)
  | [], work => .ok work
  | slot :: rest, work =>
      if slot.kind = .ref then
        match arena.word? (payload + slot.offset) with
        | none => .error (.corruption (.outsideArena (payload + slot.offset) Kind.ref.width))
        | some word =>
            let addr : Addr := ⟨word⟩
            pushFields arena payload rest (if addr.isNull then work else addr :: work)
      else
        pushFields arena payload rest work

def pushChildren (program : Program) (memory : Memory) (addr : Addr) (type : TypeRef)
    (work : List Addr) : Except Error (List Addr) :=
  let payload := addr.pos + headerSize
  match program.type? type with
  | some (.ofClass c) => pushFields memory.arena payload c.fields work
  | some (.ofArray a) =>
      if a.elementKind = .ref then do
        let length ← memory.arrayLength addr
        pushElements memory.arena (payload + lengthSize) length work
      else
        .ok work
  | _ => .error (.corruption (.badTag addr type))

def setMark (memory : Memory) (addr : Addr) : Memory :=
  { memory with arena := memory.arena.setTop (addr.pos + 4) }

/-- The mark of a header is the top bit of its fifth byte. -/
theorem clear_byte_of_not_marked {memory : Memory} {addr : Addr} {header : Header}
    (h : memory.header addr = .ok header) (unmarked : ¬ header.marked) :
    ∃ b, memory.arena.bytes[addr.pos + 4]? = some b ∧ b < 128 := by
  unfold Memory.header readHeader at h
  cases hs : memory.arena.word? addr.pos with
  | none => simp [hs, bind, Except.bind] at h
  | some size =>
      cases ht : memory.arena.word? (addr.pos + 4) with
      | none => simp [hs, ht, bind, Except.bind] at h
      | some tag =>
          simp only [hs, ht, bind, Except.bind] at h
          split at h
          · cases h
          · cases h
            simp only [Header.ofWords, decide_eq_true_eq] at unmarked
            unfold Arena.word? at ht
            split at ht
            next inside =>
              have first : addr.pos + 4 < memory.arena.bytes.size := by omega
              refine ⟨memory.arena.bytes[addr.pos + 4],
                Array.getElem?_eq_getElem first, ?_⟩
              simp only [Option.some.injEq] at ht
              subst ht
              simp only [Word.ofBytes, UInt32.toNat_ofNat'] at unmarked
              have b₀ := memory.arena.bytes[addr.pos + 4].toNat_lt
              have b₁ := memory.arena.bytes[addr.pos + 4 + 1].toNat_lt
              have b₂ := memory.arena.bytes[addr.pos + 4 + 2].toNat_lt
              have b₃ := memory.arena.bytes[addr.pos + 4 + 3].toNat_lt
              rw [UInt8.lt_iff_toNat_lt]
              show memory.arena.bytes[addr.pos + 4].toNat < 128
              omega
            next => cases ht

/-- Setting a mark that is not set uses up a clear top bit. -/
theorem clearTops_setMark {memory : Memory} {addr : Addr} {header : Header}
    (h : memory.header addr = .ok header) (unmarked : ¬ header.marked) :
    (memory.setMark addr).arena.clearTops + 1 = memory.arena.clearTops := by
  obtain ⟨b, found, clear⟩ := clear_byte_of_not_marked h unmarked
  exact Arena.clearTops_setTop found clear

theorem clearTops_setMark_lt {memory : Memory} {addr : Addr} {header : Header}
    (h : memory.header addr = .ok header) (unmarked : ¬ header.marked) :
    (memory.setMark addr).arena.clearTops < memory.arena.clearTops :=
  Nat.lt_of_succ_le (Nat.le_of_eq (clearTops_setMark h unmarked))

/-- Everything that is reached from the addresses on a stack is marked. The result counts the
marks on top of those counted before. -/
def markFrom (program : Program) (work : List Addr) (count : Nat) (memory : Memory) :
    EStateM.Result Error Memory Nat :=
  match work with
  | [] => .ok count memory
  | addr :: rest =>
      match _h : memory.header addr with
      | .error e => .error e memory
      | .ok header =>
          if _marked : header.marked then
            markFrom program rest count memory
          else
            let memory := memory.setMark addr
            match pushChildren program memory addr header.type rest with
            | .error e => .error e memory
            | .ok work => markFrom program work (count + 1) memory
termination_by (memory.arena.clearTops, work.length)
decreasing_by
  · exact Prod.Lex.right _ (Nat.lt_succ_self _)
  · exact Prod.Lex.left _ _ (clearTops_setMark_lt _h _marked)

/-- Everything that is reached from the roots is marked, the last root first. -/
def mark (program : Program) (roots : List Addr) : Op Nat :=
  markFrom program (roots.filter fun addr => !addr.isNull).reverse 0

/-!
## Sweeping
-/

def freeBlock (pos size : Nat) : Op Unit := do
  modify fun memory => { memory with freeList := memory.freeList.insert ⟨pos, size⟩ }
  writeHeader pos size freeTag

def sweepBlock (pos : Nat) (header : Header) (report : Report) : Op Report :=
  if header.isFree then
    return report
  else if header.marked then do
    modify fun memory => { memory with arena := memory.arena.clearTop (pos + 4) }
    return { report with liveBytes := report.liveBytes + header.size }
  else do
    freeBlock pos header.size
    return { report with
      freedBlocks := report.freedBlocks + 1
      freedBytes := report.freedBytes + header.size }

def sweepFrom (limit pos : Nat) (report : Report) (memory : Memory) :
    EStateM.Result Error Memory Report :=
  if pos < limit then
    match _h : memory.walkHeader pos with
    | .error e => .error e memory
    | .ok header =>
        match sweepBlock pos header report memory with
        | .error e memory => .error e memory
        | .ok report memory => sweepFrom limit (pos + header.size) report memory
  else
    .ok report memory
termination_by limit - pos
decreasing_by
  have := size_pos_of_walkHeader _h
  omega

def sweep : Op Report := fun memory =>
  sweepFrom memory.capacity 0 .none memory

/-!
## Compaction
-/

/-- Free extents get headers, so that the arena can be walked over them. -/
def stampExtents : List Extent → Op Unit
  | [] => pure ()
  | extent :: rest => do
      writeHeader extent.addr extent.size freeTag
      stampExtents rest

def compact : Op Unit := do
  modify fun memory => { memory with freeList := memory.freeList.compact }
  stampExtents (← get).freeList.toList

/-!
## Collections
-/

def collect (program : Program) (roots : List Addr) : Op Report := do
  let marked ← mark program roots
  let swept ← sweep
  let report := { swept with marked }
  compact
  modify fun memory => { memory with stats := { memory.stats with
    collections := memory.stats.collections + 1
    last := report } }
  return report

end Memory
end ObjectMachine
