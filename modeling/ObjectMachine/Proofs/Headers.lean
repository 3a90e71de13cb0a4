import Mathlib.Algebra.GroupWithZero.Nat
import ObjectMachine.Proofs.ArenaBytes

/-!
# Headers in the arena

A header is two words. It is read back after it was stored, it keeps everything but its mark when
the mark is set or taken off, and it is not touched by what happens elsewhere.
-/

namespace ObjectMachine

/-!
## Addresses and positions
-/

namespace Addr

theorem pos_ofPos {pos : Nat} (small : pos < 2 ^ 32) : (ofPos pos).pos = pos := by
  simp only [ofPos, Addr.pos, UInt32.toNat_ofNat']
  exact Nat.mod_eq_of_lt small

theorem pos_null : null.pos = 2 ^ 32 - 1 := rfl

theorem ofPos_ne_null {pos : Nat} (small : pos < 2 ^ 32 - 1) : ofPos pos ≠ null := by
  intro same
  have := congrArg Addr.pos same
  rw [pos_ofPos (by omega), pos_null] at this
  omega

end Addr

namespace Arena

/-!
## Stored headers
-/

def header? (arena : Arena) (pos : Nat) : Option Header :=
  (arena.word? pos).bind fun size => (arena.word? (pos + 4)).map fun tag => .ofWords size tag

theorem header?_isSome_iff (arena : Arena) (pos : Nat) :
    (arena.header? pos).isSome ↔ pos + headerSize ≤ arena.size := by
  have width : headerSize = 8 := rfl
  have first := arena.word?_isSome_iff pos
  have second := arena.word?_isSome_iff (pos + 4)
  unfold header?
  cases size : arena.word? pos with
  | none =>
      rw [size] at first
      simp only [Option.isSome_none, Bool.false_eq_true, false_iff, Option.bind_none] at first ⊢
      omega
  | some word =>
      rw [size] at first
      rw [Option.bind_some, Option.isSome_map, second]
      have inside := first.mp rfl
      omega

theorem header?_congr {arena other : Arena} {pos : Nat}
    (agree : AgreeOn arena other pos (pos + headerSize)) :
    arena.header? pos = other.header? pos := by
  have limit : headerSize = 8 := rfl
  have size : AgreeOn arena other pos (pos + 4) := agree.mono (by omega) (by omega)
  have tag : AgreeOn arena other (pos + 4) (pos + 4 + 4) := agree.mono (by omega) (by omega)
  rw [header?, header?, word?_congr size, word?_congr tag]

theorem ofWords_inj {size size' tag tag' : UInt32}
    (same : Header.ofWords size tag = .ofWords size' tag') : size = size' ∧ tag = tag' := by
  simp only [Header.ofWords, Header.mk.injEq, decide_eq_decide] at same
  rcases same with ⟨sizes, tags, marks⟩
  have small := tag.toNat_lt
  have small' := tag'.toNat_lt
  exact ⟨UInt32.toNat_inj.mp sizes, UInt32.toNat_inj.mp (by omega)⟩

/-- A header has only one way to be stored. -/
theorem agreeOn_of_header? {arena other : Arena} {pos : Nat} {header : Header}
    (found : arena.header? pos = some header) (found' : other.header? pos = some header) :
    AgreeOn arena other pos (pos + headerSize) := by
  rcases Option.bind_eq_some_iff.mp found with ⟨size, first, found⟩
  rcases Option.map_eq_some_iff.mp found with ⟨tag, second, rfl⟩
  rcases Option.bind_eq_some_iff.mp found' with ⟨size', first', found'⟩
  rcases Option.map_eq_some_iff.mp found' with ⟨tag', second', same⟩
  rcases ofWords_inj same with ⟨rfl, rfl⟩
  exact (agreeOn_of_word? first first').append (agreeOn_of_word? second second')

def setHeader (arena : Arena) (pos size tag : Nat) : Arena :=
  (arena.setWord pos (UInt32.ofNat size)).setWord (pos + 4) (UInt32.ofNat tag)

@[simp] theorem size_setHeader (arena : Arena) (pos size tag : Nat) :
    (arena.setHeader pos size tag).size = arena.size := by
  simp [setHeader]

theorem agreeOn_setHeader (arena : Arena) {pos first limit : Nat} (size tag : Nat)
    (outside : limit ≤ pos ∨ pos + headerSize ≤ first) :
    AgreeOn (arena.setHeader pos size tag) arena first limit := by
  have width : headerSize = 8 := rfl
  exact (agreeOn_setWord _ _ (by omega)).trans (agreeOn_setWord _ _ (by omega))

theorem header?_setHeader (arena : Arena) {pos size tag : Nat}
    (inside : pos + headerSize ≤ arena.size) (size_lt : size < 2 ^ 32) (tag_lt : tag < 2 ^ 31) :
    (arena.setHeader pos size tag).header? pos = some ⟨size, tag, false⟩ := by
  have width : headerSize = 8 := rfl
  rw [header?, setHeader, word?_setWord_of_disjoint _ _ (by omega),
    word?_setWord _ _ (by omega), word?_setWord _ _ (by rw [size_setWord]; omega)]
  simp only [Option.bind_some, Option.map_some, Header.ofWords, UInt32.toNat_ofNat']
  have stored : tag % 2 ^ 32 = tag := Nat.mod_eq_of_lt (by omega)
  have masked : tag % 0x80000000 = tag := Nat.mod_eq_of_lt tag_lt
  have unmarked : decide (0x80000000 ≤ tag) = false := decide_eq_false (by omega)
  rw [Nat.mod_eq_of_lt size_lt, stored, masked, unmarked]

/-!
## Marks

The mark is the top bit of the first byte of the tag. Setting or clearing that bit changes the
number that the tag stands for by half of its range, and nothing else.
-/

theorem header?_eq_some_iff {arena : Arena} {pos : Nat} {header : Header} :
    arena.header? pos = some header ↔
      ∃ size b₀ b₁ b₂ b₃, arena.word? pos = some size ∧
        arena.byte? (pos + 4) = some b₀ ∧ arena.byte? (pos + 5) = some b₁ ∧
        arena.byte? (pos + 6) = some b₂ ∧ arena.byte? (pos + 7) = some b₃ ∧
        header = .ofWords size (Word.ofBytes b₀ b₁ b₂ b₃) := by
  rw [header?, Option.bind_eq_some_iff]
  constructor
  · intro found
    rcases found with ⟨size, first, found⟩
    rcases Option.map_eq_some_iff.mp found with ⟨tag, second, rfl⟩
    rcases word?_eq_some_iff.mp second with ⟨b₀, b₁, b₂, b₃, h₀, h₁, h₂, h₃, rfl⟩
    exact ⟨size, b₀, b₁, b₂, b₃, first, h₀, h₁, h₂, h₃, rfl⟩
  · intro given
    rcases given with ⟨size, b₀, b₁, b₂, b₃, first, h₀, h₁, h₂, h₃, rfl⟩
    have second := word?_eq_some_iff.mpr ⟨b₀, b₁, b₂, b₃, h₀, h₁, h₂, h₃, rfl⟩
    exact ⟨size, first, Option.map_eq_some_iff.mpr ⟨_, second, rfl⟩⟩

/-- There is a mark if the number in the first byte of the tag lies in the upper half. -/
theorem marked_iff_of_header? {arena : Arena} {pos : Nat} {header : Header}
    (found : arena.header? pos = some header) :
    ∃ b, arena.byte? (pos + 4) = some b ∧ (header.marked = true ↔ ¬ b < 128) := by
  rcases header?_eq_some_iff.mp found with ⟨size, b₀, b₁, b₂, b₃, _, h₀, _, _, _, rfl⟩
  refine ⟨b₀, h₀, ?_⟩
  have l₁ := b₁.toNat_lt
  have l₂ := b₂.toNat_lt
  have l₃ := b₃.toNat_lt
  have half : (128 : UInt8).toNat = 128 := rfl
  simp only [Header.ofWords, Word.toNat_ofBytes, decide_eq_true_eq, UInt8.lt_iff_toNat_lt, half]
  omega

theorem header?_of_first {arena other : Arena} {pos : Nat} {size : UInt32} {b₁ b₂ b₃ c : UInt8}
    (first : arena.word? pos = some size) (h₁ : arena.byte? (pos + 5) = some b₁)
    (h₂ : arena.byte? (pos + 6) = some b₂) (h₃ : arena.byte? (pos + 7) = some b₃)
    (before : AgreeOn other arena pos (pos + 4)) (after : AgreeOn other arena (pos + 5) (pos + 8))
    (changed : other.byte? (pos + 4) = some c) :
    other.header? pos = some (.ofWords size (Word.ofBytes c b₁ b₂ b₃)) := by
  rw [header?_eq_some_iff]
  refine ⟨size, c, b₁, b₂, b₃, ?_, changed, ?_, ?_, ?_, rfl⟩
  · rw [word?_congr before, first]
  · rw [after (pos + 5) (by omega) (by omega), h₁]
  · rw [after (pos + 6) (by omega) (by omega), h₂]
  · rw [after (pos + 7) (by omega) (by omega), h₃]

theorem header?_setTop {arena : Arena} {pos : Nat} {header : Header}
    (found : arena.header? pos = some header) :
    (arena.setTop (pos + 4)).header? pos = some { header with marked := true } := by
  rcases header?_eq_some_iff.mp found with ⟨size, b₀, b₁, b₂, b₃, first, h₀, h₁, h₂, h₃, rfl⟩
  rw [header?_of_first first h₁ h₂ h₃ (agreeOn_setTop arena (by omega))
    (agreeOn_setTop arena (by omega)) (byte?_setTop h₀)]
  have l₀ := b₀.toNat_lt
  have l₁ := b₁.toNat_lt
  have l₂ := b₂.toNat_lt
  have l₃ := b₃.toNat_lt
  have half : (128 : UInt8).toNat = 128 := rfl
  simp only [Header.ofWords, Word.toNat_ofBytes, Option.some.injEq, Header.mk.injEq, true_and,
    decide_eq_true_eq]
  split
  · next low =>
      rw [UInt8.lt_iff_toNat_lt, half] at low
      rw [UInt8.toNat_add, half]
      constructor <;> omega
  · next high =>
      rw [UInt8.lt_iff_toNat_lt, half] at high
      constructor <;> omega

theorem header?_clearTop {arena : Arena} {pos : Nat} {header : Header}
    (found : arena.header? pos = some header) :
    (arena.clearTop (pos + 4)).header? pos = some { header with marked := false } := by
  rcases header?_eq_some_iff.mp found with ⟨size, b₀, b₁, b₂, b₃, first, h₀, h₁, h₂, h₃, rfl⟩
  rw [header?_of_first first h₁ h₂ h₃ (agreeOn_clearTop arena (by omega))
    (agreeOn_clearTop arena (by omega)) (byte?_clearTop h₀)]
  have l₀ := b₀.toNat_lt
  have l₁ := b₁.toNat_lt
  have l₂ := b₂.toNat_lt
  have l₃ := b₃.toNat_lt
  have half : (128 : UInt8).toNat = 128 := rfl
  simp only [Header.ofWords, Word.toNat_ofBytes, Option.some.injEq, Header.mk.injEq, true_and,
    decide_eq_false_iff_not]
  split
  · next low =>
      rw [UInt8.lt_iff_toNat_lt, half] at low
      constructor <;> omega
  · next high =>
      rw [UInt8.lt_iff_toNat_lt, half] at high
      rw [UInt8.toNat_sub_of_le _ _ (by rw [UInt8.le_iff_toNat_le, half]; omega), half]
      constructor <;> omega

end Arena

namespace Memory

/-!
## Headers of a memory
-/

theorem readHeader_eq_ok_iff {memory : Memory} {addr : Addr} {header : Header} :
    memory.readHeader addr = .ok header ↔ memory.arena.header? addr.pos = some header := by
  unfold readHeader Arena.header?
  cases memory.arena.word? addr.pos with
  | none => simp
  | some size =>
      cases memory.arena.word? (addr.pos + 4) with
      | none => simp
      | some tag => simp

theorem writeHeader_eq_ok {memory : Memory} {pos : Nat} (size tag : Nat)
    (inside : pos + headerSize ≤ memory.arena.size) :
    writeHeader pos size tag memory =
      .ok () { memory with arena := memory.arena.setHeader pos size tag } := by
  have width : headerSize = 8 := rfl
  have first : pos + 4 ≤ memory.arena.size := by omega
  have second : pos + 4 + 4 ≤ memory.arena.size := by omega
  simp only [writeHeader, bind, EStateM.bind, writeWord, first, if_true, Arena.size_setWord, second]
  rfl

end Memory
end ObjectMachine
