import ObjectMachine.Memory.Collect
import ObjectMachine.Proofs.ConsoleInput

/-!
# Errors that operations end with

Some errors are ruled out by linking: those of operands, slots, branches, types, dispatch tables and
built-in methods. Others are ruled out by what a machine holds: unknown strings, and receivers that
are missing.

The memory and the console end with none of them: the memory fails with damage or an index, the
console with trouble of its own.
-/

namespace ObjectMachine

/-!
## Errors
-/

/-- What linking rules out in the code of a program. -/
def CodeError.RuledOut : CodeError → Prop
  | .wrongOperand _ _ => True
  | .noSlot _ => True
  | .branchBefore _ => True
  | .notAClass _ => True
  | .notAnArrayType _ => True
  | .noOverride _ _ => True
  | .returnWithoutFrame => True
  | .wrongArguments _ _ => True
  | _ => False

def Error.RuledOut : Error → Prop
  | .image _ => True
  | .code cause => cause.RuledOut
  | _ => False

/-- What is watched besides: the strings that a machine holds, and the receivers of its frames. -/
structure Watch where
  strings : Prop
  receivers : Prop

def Error.Forbidden (watch : Watch) (error : Error) : Prop :=
  error.RuledOut ∨ (watch.strings ∧ ∃ ref, error = .code (.unknownString ref)) ∨
    (watch.receivers ∧ error = .nullReference .noReceiver)

def Error.Allowed (watch : Watch) (error : Error) : Prop :=
  ¬ error.Forbidden watch

def Error.OfMemory : Error → Prop
  | .corruption _ => True
  | .indexOutOfRange _ _ => True
  | _ => False

def Error.OfConsole : Error → Prop
  | .io _ => True
  | _ => False

namespace Error

variable {watch : Watch} {e : Error}

theorem allowed_of (possible : ¬ e.RuledOut) (known : ∀ ref, e ≠ .code (.unknownString ref))
    (received : e ≠ .nullReference .noReceiver) : e.Allowed watch := by
  intro forbidden
  rcases forbidden with ruledOut | ⟨_, ref, same⟩ | ⟨_, same⟩
  · exact possible ruledOut
  · exact known ref same
  · exact received same

theorem OfMemory.allowed (ofMemory : e.OfMemory) : e.Allowed watch := by
  cases e with
  | corruption cause => exact allowed_of id nofun nofun
  | indexOutOfRange index length => exact allowed_of id nofun nofun
  | _ => cases ofMemory

theorem OfConsole.allowed (ofConsole : e.OfConsole) : e.Allowed watch := by
  cases e with
  | io fault => exact allowed_of id nofun nofun
  | _ => cases ofConsole

end Error

/-- A name is without end only if some type of the program has no name. -/
def Failure.Allowed (watch : Watch) (program : Program) : Failure → Prop
  | .error e => e.Allowed watch
  | .endless _ => ∃ ref, program.typeName? ref = none

/-!
## Outcomes
-/

/-- An operation has ended with a result and a state that are as they should be, or with an error
that may occur and a state that has been kept. -/
def Upholds {ε σ α : Type} (allowed : ε → Prop) (keeps : σ → Prop) (result : α → σ → Prop) :
    EStateM.Result ε σ α → Prop
  | .ok a s => result a s
  | .error e s => allowed e ∧ keeps s

namespace Upholds

variable {ε σ α β : Type} {allowed : ε → Prop} {keeps : σ → Prop} {middle : α → σ → Prop}
  {result : β → σ → Prop} {s : σ}

theorem bind {x : EStateM ε σ α} {f : α → EStateM ε σ β}
    (first : Upholds allowed keeps middle (x s))
    (rest : ∀ a after, middle a after → Upholds allowed keeps result (f a after)) :
    Upholds allowed keeps result ((x >>= f) s) := by
  cases outcome : x s with
  | ok a after =>
      rw [outcome] at first
      rw [bind_of_ok outcome]
      exact rest a after first
  | error e after =>
      rw [outcome] at first
      rw [bind_of_error outcome]
      exact first

theorem imp {allowed' : ε → Prop} {keeps' : σ → Prop} {result' : β → σ → Prop}
    {outcome : EStateM.Result ε σ β} (upholds : Upholds allowed keeps result outcome)
    (errors : ∀ e, allowed e → allowed' e) (states : ∀ s, keeps s → keeps' s)
    (results : ∀ b s, result b s → result' b s) : Upholds allowed' keeps' result' outcome := by
  cases outcome with
  | ok b s => exact results b s upholds
  | error e s => exact ⟨errors e upholds.1, states s upholds.2⟩

end Upholds

def FailsOnly {σ α : Type} (allowed : Error → Prop) (op : EStateM Error σ α) : Prop :=
  ∀ s, Upholds allowed (fun _ => True) (fun _ _ => True) (op s)

namespace FailsOnly

variable {σ α β : Type} {allowed : Error → Prop}

theorem pure (a : α) : FailsOnly allowed (pure a : EStateM Error σ α) :=
  fun _ => trivial

theorem modify (f : σ → σ) : FailsOnly allowed (modify f : EStateM Error σ PUnit) :=
  fun _ => trivial

theorem throw {e : Error} (possible : allowed e) :
    FailsOnly allowed (throw e : EStateM Error σ α) :=
  fun _ => ⟨possible, trivial⟩

theorem bind {x : EStateM Error σ α} {f : α → EStateM Error σ β} (first : FailsOnly allowed x)
    (rest : ∀ a, FailsOnly allowed (f a)) : FailsOnly allowed (x >>= f) :=
  fun s => (first s).bind fun a after _ => rest a after

end FailsOnly

/-!
## The memory
-/

def Lookup {α : Type} (outcome : Except Error α) : Prop :=
  ∀ e, outcome = .error e → e.OfMemory

namespace Lookup

theorem ok {α : Type} (a : α) : Lookup (.ok a) := by
  intro e failed
  cases failed

theorem error {α : Type} {e : Error} (ofMemory : e.OfMemory) :
    Lookup (.error e : Except Error α) := by
  intro e' same
  cases same
  exact ofMemory

theorem bind {α β : Type} {x : Except Error α} {f : α → Except Error β} (first : Lookup x)
    (rest : ∀ a, Lookup (f a)) : Lookup (x >>= f) := by
  cases x with
  | ok a => exact rest a
  | error e => exact error (first e rfl)

end Lookup

namespace Memory

theorem lookup_readHeader (memory : Memory) (addr : Addr) : Lookup (memory.readHeader addr) := by
  unfold readHeader
  split
  · exact .ok _
  · exact .error trivial

theorem lookup_header (memory : Memory) (addr : Addr) : Lookup (memory.header addr) := by
  refine (lookup_readHeader memory addr).bind fun header => ?_
  split
  · exact .error trivial
  · exact .ok _

theorem lookup_typeOf (memory : Memory) (addr : Addr) : Lookup (memory.typeOf addr) :=
  (lookup_header memory addr).bind fun _ => .ok _

theorem lookup_payloadPos (memory : Memory) (addr : Addr) (offset width : Nat) :
    Lookup (memory.payloadPos addr offset width) := by
  refine (lookup_header memory addr).bind fun header => ?_
  split
  · exact .error trivial
  · exact .ok _

theorem lookup_readValue (memory : Memory) (pos : Nat) (kind : Kind) :
    Lookup (memory.readValue pos kind) := by
  unfold readValue
  simp only
  split
  · next word _ =>
      unfold valueOfWord
      split
      · exact .ok _
      · split
        · exact .ok _
        · exact .error trivial
      · exact .ok _
      · exact .ok _
      · exact .ok _
  · exact .error trivial

theorem lookup_getField (memory : Memory) (addr : Addr) (slot : FieldSlot) :
    Lookup (memory.getField addr slot) :=
  (lookup_payloadPos memory addr _ _).bind fun pos => lookup_readValue memory pos _

theorem lookup_arrayLength (memory : Memory) (addr : Addr) : Lookup (memory.arrayLength addr) := by
  refine (lookup_payloadPos memory addr _ _).bind fun pos => ?_
  split
  · exact .ok _
  · exact .error trivial

theorem lookup_elementPos (memory : Memory) (addr : Addr) (kind : Kind) (index : Int32) :
    Lookup (memory.elementPos addr kind index) := by
  refine (lookup_arrayLength memory addr).bind fun length => ?_
  split
  · exact .error trivial
  · exact lookup_payloadPos memory addr _ _

theorem lookup_getElement (memory : Memory) (addr : Addr) (kind : Kind) (index : Int32) :
    Lookup (memory.getElement addr kind index) :=
  (lookup_elementPos memory addr kind index).bind fun pos => lookup_readValue memory pos kind

theorem failsOnly_query {α : Type} {look : Memory → Except Error α}
    (lookup : ∀ memory, Lookup (look memory)) : FailsOnly Error.OfMemory (query look) := by
  intro memory
  unfold query
  split
  · trivial
  · next e failed => exact ⟨lookup memory e failed, trivial⟩

theorem failsOnly_writeWord (pos : Nat) (word : UInt32) :
    FailsOnly Error.OfMemory (writeWord pos word) := by
  intro memory
  unfold writeWord
  split
  · trivial
  · exact ⟨trivial, trivial⟩

theorem failsOnly_writeByte (pos : Nat) (b : UInt8) :
    FailsOnly Error.OfMemory (writeByte pos b) := by
  intro memory
  unfold writeByte
  split
  · trivial
  · exact ⟨trivial, trivial⟩

theorem failsOnly_clearBytes (pos count : Nat) :
    FailsOnly Error.OfMemory (clearBytes pos count) := by
  intro memory
  unfold clearBytes
  split
  · trivial
  · exact ⟨trivial, trivial⟩

theorem failsOnly_writeHeader (pos size tag : Nat) :
    FailsOnly Error.OfMemory (writeHeader pos size tag) :=
  (failsOnly_writeWord pos _).bind fun _ => failsOnly_writeWord _ _

theorem failsOnly_writeValue (pos : Nat) (value : Value) :
    FailsOnly Error.OfMemory (writeValue pos value) := by
  unfold writeValue
  split
  · exact failsOnly_writeByte _ _
  · exact failsOnly_writeWord _ _

theorem failsOnly_putField (addr : Addr) (slot : FieldSlot) (value : Value) :
    FailsOnly Error.OfMemory (putField addr slot value) :=
  (failsOnly_query fun memory => lookup_payloadPos memory addr _ _).bind fun _ =>
    failsOnly_writeValue _ _

theorem failsOnly_putElement (addr : Addr) (kind : Kind) (index : Int32) (value : Value) :
    FailsOnly Error.OfMemory (putElement addr kind index value) :=
  (failsOnly_query fun memory => lookup_elementPos memory addr kind index).bind fun _ =>
    failsOnly_writeValue _ _

/-!
## Allocation
-/

theorem failsOnly_allocateBlock (payload : Nat) (type : TypeRef) :
    FailsOnly Error.OfMemory (allocateBlock payload type) := by
  intro memory
  unfold allocateBlock
  split
  · trivial
  · next taken freeList _ =>
      have stamped : FailsOnly Error.OfMemory (stampBlock taken.block type) :=
        (failsOnly_clearBytes _ _).bind fun _ => failsOnly_writeHeader _ _ _
      cases taken.rest with
      | some rest =>
          exact ((failsOnly_writeHeader _ _ _).bind fun _ => stamped.bind fun _ =>
            (FailsOnly.modify _).bind fun _ => .pure _) _
      | none => exact (stamped.bind fun _ => (FailsOnly.modify _).bind fun _ => .pure _) _

theorem failsOnly_clearFields (payload : Nat) (fields : List FieldSlot) :
    FailsOnly Error.OfMemory (clearFields payload fields) := by
  induction fields with
  | nil => exact .pure _
  | cons slot rest ih =>
      unfold clearFields
      split
      · exact (failsOnly_writeWord _ _).bind fun _ => ih
      · exact ih

theorem failsOnly_clearElements (pos count : Nat) :
    FailsOnly Error.OfMemory (clearElements pos count) := by
  induction count generalizing pos with
  | zero => exact .pure _
  | succ count ih => exact (failsOnly_writeWord _ _).bind fun _ => ih _

theorem failsOnly_newObject (type : TypeRef) (c : ClassDescriptor) :
    FailsOnly Error.OfMemory (newObject type c) := by
  refine (failsOnly_allocateBlock c.size type).bind fun found => ?_
  cases found with
  | none => exact .pure _
  | some addr => exact (failsOnly_clearFields _ _).bind fun _ => .pure _

theorem failsOnly_newArray (type : TypeRef) (a : ArrayDescriptor) (length : Nat) :
    FailsOnly Error.OfMemory (newArray type a length) := by
  refine (failsOnly_allocateBlock _ type).bind fun found => ?_
  cases found with
  | none => exact .pure _
  | some addr =>
      refine (failsOnly_writeWord _ _).bind fun _ => ?_
      split
      · exact (failsOnly_clearElements _ _).bind fun _ => .pure _
      · exact .pure _

/-!
## Collection
-/

theorem lookup_pushElements (arena : Arena) (pos count : Nat) (work : List Addr) :
    Lookup (pushElements arena pos count work) := by
  induction count generalizing pos work with
  | zero => exact .ok _
  | succ count ih =>
      unfold pushElements
      split
      · exact .error trivial
      · exact ih _ _

theorem lookup_pushFields (arena : Arena) (payload : Nat) (fields : List FieldSlot)
    (work : List Addr) : Lookup (pushFields arena payload fields work) := by
  induction fields generalizing work with
  | nil => exact .ok _
  | cons slot rest ih =>
      unfold pushFields
      split
      · split
        · exact .error trivial
        · exact ih _
      · exact ih _

theorem lookup_pushChildren (program : Program) (memory : Memory) (addr : Addr) (type : TypeRef)
    (work : List Addr) : Lookup (pushChildren program memory addr type work) := by
  unfold pushChildren
  simp only
  split
  · exact lookup_pushFields _ _ _ _
  · split
    · exact (lookup_arrayLength memory addr).bind fun _ => lookup_pushElements _ _ _ _
    · exact .ok _
  · exact .error trivial

theorem failsOnly_markFrom (program : Program) (work : List Addr) (count : Nat) :
    FailsOnly Error.OfMemory (markFrom program work count) := by
  intro memory
  fun_induction markFrom program work count memory with
  | case1 => trivial
  | case2 _ memory addr _ e failed => exact ⟨lookup_header memory addr e failed, trivial⟩
  | case3 _ _ _ _ _ _ _ ih => exact ih
  | case4 _ memory addr rest header _ _ marked e failed =>
      exact ⟨lookup_pushChildren program _ addr _ rest e failed, trivial⟩
  | case5 _ _ _ _ _ _ _ _ _ _ ih => exact ih

theorem failsOnly_sweepBlock (pos : Nat) (header : Header) (report : Report) :
    FailsOnly Error.OfMemory (sweepBlock pos header report) := by
  unfold sweepBlock
  split
  · exact .pure _
  · split
    · exact (FailsOnly.modify _).bind fun _ => .pure _
    · exact ((FailsOnly.modify _).bind fun _ => failsOnly_writeHeader _ _ _).bind fun _ => .pure _

theorem lookup_walkHeader (memory : Memory) (pos : Nat) : Lookup (memory.walkHeader pos) := by
  refine (lookup_readHeader memory _).bind fun header => ?_
  split
  · exact .error trivial
  · split
    · exact .error trivial
    · exact .ok _

theorem failsOnly_sweepFrom (limit pos : Nat) (report : Report) :
    FailsOnly Error.OfMemory (sweepFrom limit pos report) := by
  intro memory
  fun_induction sweepFrom limit pos report memory with
  | case1 pos _ memory _ e failed => exact ⟨lookup_walkHeader memory pos e failed, trivial⟩
  | case2 pos report memory _ header _ e after failed =>
      have swept := failsOnly_sweepBlock pos header report memory
      rw [failed] at swept
      exact swept
  | case3 _ _ _ _ _ _ _ _ _ ih => exact ih
  | case4 => trivial

theorem failsOnly_stampExtents (extents : List Extent) :
    FailsOnly Error.OfMemory (stampExtents extents) := by
  induction extents with
  | nil => exact .pure _
  | cons extent rest ih => exact (failsOnly_writeHeader _ _ _).bind fun _ => ih

theorem failsOnly_collect (program : Program) (roots : List Addr) :
    FailsOnly Error.OfMemory (collect program roots) := by
  refine (failsOnly_markFrom program _ _).bind fun marked => ?_
  refine FailsOnly.bind (fun memory => failsOnly_sweepFrom _ _ _ memory) fun swept => ?_
  have compacted : FailsOnly Error.OfMemory compact :=
    (FailsOnly.modify _).bind fun _ => FailsOnly.bind (fun _ => trivial) fun _ =>
      failsOnly_stampExtents _
  exact compacted.bind fun _ => (FailsOnly.modify _).bind fun _ => .pure _

end Memory

/-!
## The console
-/

namespace Console

theorem failsOnly_takeRun (test : Char → Bool) :
    FailsOnly Error.OfConsole (takeRun test) := by
  intro console
  fun_induction takeRun test console with
  | case1 => trivial
  | case2 => trivial
  | case3 => exact ⟨trivial, trivial⟩
  | case4 => trivial
  | case5 _ _ _ _ _ e after failed ih =>
      rw [failed] at ih
      exact ih

theorem failsOnly_peek : FailsOnly Error.OfConsole peek := by
  intro console
  have taken := failsOnly_takeRun (fun _ => false) console
  unfold peek
  split
  · trivial
  · next failed =>
      rw [failed] at taken
      exact taken

theorem failsOnly_readChar : FailsOnly Error.OfConsole readChar := by
  refine failsOnly_peek.bind fun found => ?_
  cases found with
  | some c => exact (FailsOnly.modify _).bind fun _ => .pure _
  | none => exact .pure _

theorem failsOnly_readDigits (sign : List Char) : FailsOnly Error.OfConsole (readDigits sign) := by
  refine (failsOnly_takeRun _).bind fun digits => ?_
  simp only
  split
  · exact failsOnly_peek.bind fun _ => .throw trivial
  · cases Text.readInt32? (sign ++ digits) with
    | some value => exact .pure _
    | none => exact .throw trivial

theorem failsOnly_readInt : FailsOnly Error.OfConsole readInt := by
  rw [readInt_eq]
  refine (failsOnly_takeRun _).bind fun _ => failsOnly_peek.bind fun found => ?_
  cases found with
  | none => exact failsOnly_readDigits []
  | some c =>
      simp only
      split
      · exact (FailsOnly.modify _).bind fun _ => failsOnly_readDigits [c]
      · exact failsOnly_readDigits []

theorem failsOnly_readLine : FailsOnly Error.OfConsole readLine :=
  (failsOnly_takeRun _).bind fun _ => (FailsOnly.modify _).bind fun _ => .pure _

theorem failsOnly_write (text : String) : FailsOnly Error.OfConsole (write text) :=
  .modify _

end Console

end ObjectMachine
